import NfsClient.Nfs4.Opens

/-!
# The exits of do_open

A COMPOUND stops at the first operation that fails, and what the operations before it have done stays
done. So the server may have executed the OPEN of a COMPOUND that fails, and `do_open`, which looks at
the outer status first, may leave with an exception while the file is open at the server
(`opened_file_not_closed`). `opened_returned_iff` goes through the exits: neither client ever sends a
CLOSE from `do_open`, and the file is handed to the caller exactly when all that follows the OPEN
succeeds as well.
-/

namespace NfsClient

open Xdr Reader Interaction

/-! ### What the server has executed -/

/-- Behind the results of the operations there is that of an OPEN that the server has executed: its
status is 0, and it begins with the stateid, the `change_info4` of the directory and the flags. -/
def Opened (os : List Op) (received : Received) (stateid : Stateid4) (rflags : UInt32) : Prop :=
  ∃ status code atomic before after more, Behind os received status
    (word code ++ (word 0 ++ (stateid.wire ++ (word atomic ++ (hyper before ++ (hyper after ++
      (word rflags ++ more)))))))

/-- The reply to an OPEN_CONFIRM that has succeeded. -/
def Confirmed (received : Received) (stateid : Stateid4) : Prop :=
  ∃ code more, Behind [.PUTFH] received 0 (word code ++ (word 0 ++ (stateid.wire ++ more)))

theorem skipChangeInfo4_words (atomic : UInt32) (before after : UInt64) :
    Reads skipChangeInfo4 (word atomic ++ (hyper before ++ hyper after)) () :=
  (getUint32_reads atomic).bind <| (getUint64_reads before).bind <|
    (getUint64_reads after).bind_nil (Reads.pure ())

section Opened

variable {q : CompoundCall (Open4Result × Nfs4Fh)} {d : XdrDecoder (Open4Result × Nfs4Fh)}
  {os : List Op} {received : Received} {open_res : Open4Result} {fh : Nfs4Fh} {stateid : Stateid4}
  {rflags : UInt32}

/-- What is decoded of the OPEN is what the server says that it has opened. -/
theorem Opened.result_eq (h : Opened os received stateid rflags)
    (hq : q.decode = do checkCompoundStatus; d) (hd : ReadsBehind d os decodeOpened)
    (hv : q.result received = .ok (open_res, fh)) : open_res = ⟨stateid, rflags⟩ := by
  obtain ⟨status, code, atomic, before, after, more, hbehind⟩ := h
  obtain ⟨mid, hmid, rest, hdecode⟩ := (CompoundCall.result_behind hq hd).mp hv
  obtain rfl := hmid.unique hbehind
  obtain ⟨open_res', rest', hopen, hdecode⟩ := bind_ok.mp hdecode
  obtain ⟨fh', rest'', -, hdecode⟩ := bind_ok.mp hdecode
  obtain ⟨heq, -⟩ := pure_ok.mp hdecode
  obtain ⟨rfl, rfl⟩ := Prod.mk.inj heq
  -- the stateid and the flags are in front of everything that can still go wrong
  unfold decodeOpenResult at hopen
  have hcinfo := skipChangeInfo4_words atomic before after (word rflags ++ more)
  simp only [List.append_assoc] at hcinfo
  rw [bind_of_ok (a := ()) (opStatus_ok.mpr ⟨code, rfl⟩), bind_of_ok (decodeStateid4_reads stateid _),
    bind_of_ok hcinfo, bind_of_ok (getUint32_reads rflags more)] at hopen
  obtain ⟨_, _, -, hopen⟩ := bind_ok.mp hopen
  obtain ⟨_, _, -, hopen⟩ := bind_ok.mp hopen
  obtain ⟨_, _, -, hopen⟩ := bind_ok.mp hopen
  exact (pure_ok.mp hopen).1.symm

end Opened

/-! ### Exits -/

/-- How `do_open` comes to an end: if the server has executed the OPEN, then by a return exactly when
the rest of the reply is a success too and the OPEN_CONFIRM, if it is asked for, succeeds. -/
def Nfs4Client.Exits (dir : Nfs4Fh) (r : Except Exn Nfs4File)
    (log : List (RpcRequest × Received)) : Prop :=
  ∃ tries x tail, log = tries ++ x :: tail ∧ (∀ y ∈ tries, IsGrace y.2) ∧ ¬ IsGrace x.2 ∧
    ∀ stateid rflags, Opened [(fhOp dir).1] x.2 stateid rflags →
      ((∃ f, r = .ok f) ↔ Accepted [(fhOp dir).1, .OPEN, .GETFH] x.2 ∧
        (rflags &&& OPEN4_RESULT_CONFIRM = 0 ∨
          ∃ y, tail = [y] ∧ Accepted [.PUTFH, .OPEN_CONFIRM] y.2)) ∧
      ∀ f, r = .ok f → (rflags &&& OPEN4_RESULT_CONFIRM = 0 ∧ f.stateid = stateid) ∨
        ∃ y fh seqid, tail = [y] ∧ y.1.Carries [fhOp fh, ⟨.OPEN_CONFIRM, (stateid, seqid)⟩] ∧
          Confirmed y.2 f.stateid

/-- In a session: an OPEN_CONFIRM that is asked for ends in an exception. -/
def Nfs41Client.Exits (dir : Nfs4Fh) (r : Except Exn Nfs4File)
    (log : List (RpcRequest × Received)) : Prop :=
  ∃ tries x, log = tries ++ [x] ∧ (∀ y ∈ tries, IsGrace y.2) ∧ ¬ IsGrace x.2 ∧
    ∀ stateid rflags, Opened [.SEQUENCE, (fhOp dir).1] x.2 stateid rflags →
      ((∃ f, r = .ok f) ↔ Accepted [.SEQUENCE, (fhOp dir).1, .OPEN, .GETFH] x.2 ∧
        rflags &&& OPEN4_RESULT_CONFIRM = 0) ∧
      ∀ f, r = .ok f → f.stateid = stateid

theorem Nfs4Client.openFile_accepted {dir : Nfs4Fh} {name : Bytes} {share_access : UInt32}
    {create : Bool} {clientid : UInt64} {seqid : UInt32} {received : Received} :
    (∃ v, (openFile dir name share_access create clientid seqid).result received = .ok v) ↔
      Accepted [(fhOp dir).1, .OPEN, .GETFH] received :=
  CompoundCall.result_iff rfl (decodeOpenResults_readsByPlace dir)

theorem Nfs4Client.openConfirm_accepted {fh : Nfs4Fh} {stateid : Stateid4} {seqid : UInt32}
    {received : Received} :
    (∃ v, (openConfirm fh stateid seqid).result received = .ok v) ↔
      Accepted [.PUTFH, .OPEN_CONFIRM] received := by
  have hplace : ReadsByPlace (do decodePutfhResult; decodeOpenConfirmResult)
      [.PUTFH, .OPEN_CONFIRM] := .cons Iff.rfl fun _ => .last Iff.rfl
  exact CompoundCall.result_iff rfl hplace

/-- The stateid of the result is the one that is returned. -/
theorem Nfs4Client.openConfirm_confirmed {fh : Nfs4Fh} {stateid sid : Stateid4} {seqid : UInt32}
    {received : Received} (h : (openConfirm fh stateid seqid).result received = .ok sid) :
    Confirmed received sid := by
  have hbehind : ReadsBehind (do decodePutfhResult; decodeOpenConfirmResult) [.PUTFH]
      decodeOpenConfirmResult := .cons Iff.rfl (.nil _)
  obtain ⟨mid, hmid, rest, hdecode⟩ := (CompoundCall.result_behind rfl hbehind).mp h
  obtain ⟨u, mid', hstatus, hsid⟩ := bind_ok.mp hdecode
  obtain ⟨code, rfl⟩ := opStatus_ok.mp hstatus
  rw [decodeStateid4_ok.mp hsid] at hmid
  exact ⟨code, rest, hmid⟩

theorem Nfs41Client.openFile_accepted {dir : Nfs4Fh} {name : Bytes} {share_access : UInt32}
    {create : Bool} {clientid : UInt64} {seqid : UInt32} {received : Received} :
    (∃ v, (openFile dir name share_access create clientid seqid).result received = .ok v) ↔
      Accepted [.SEQUENCE, (fhOp dir).1, .OPEN, .GETFH] received := by
  have hplace : ReadsByPlace (do decodeSequence41Result; decodeOpenResults)
      [.SEQUENCE, (fhOp dir).1, .OPEN, .GETFH] :=
    .cons Iff.rfl fun _ => decodeOpenResults_readsByPlace dir
  exact CompoundCall.result_iff rfl hplace

theorem Nfs4Client.OpenRun.exits {c : Nfs4Client} {dir : Nfs4Fh} {name : Bytes}
    {share_access : UInt32} {create : Bool} {log : List (RpcRequest × Received)}
    {r : Except Exn Nfs4File} (h : OpenRun c dir name share_access create log r) :
    Nfs4Client.Exits dir r log := by
  cases h with
  | failed hloop he =>
    obtain ⟨tries, x, rfl, htries, hx, hresult⟩ := hloop.exists_answer rfl
    refine ⟨tries, x, [], rfl, htries, hx, fun stateid rflags _ => ⟨⟨?_, ?_⟩, ?_⟩⟩
    · exact fun ⟨f, hf⟩ => nomatch hf
    -- a reply that is accepted does not throw
    · rintro ⟨haccepted, -⟩
      obtain ⟨v, hv⟩ := openFile_accepted.mpr haccepted
      exact nomatch he.symm.trans ((hresult v).mp hv)
    · exact fun f hf => nomatch hf
  | @opened _ _ rest _ _ hloop hdec hflags =>
    obtain ⟨tries, x, rfl, htries, hx, hresult⟩ := hloop.exists_answer rfl
    have hv := (hresult _).mpr (value_ok.mpr ⟨rest, hdec⟩)
    refine ⟨tries, x, [], rfl, htries, hx, fun stateid rflags hopened => ?_⟩
    obtain rfl := hopened.result_eq rfl (decodeOpenResults_behind dir) hv
    have haccepted := openFile_accepted.mp ⟨_, hv⟩
    refine ⟨⟨fun _ => ⟨haccepted, Or.inl hflags⟩, fun _ => ⟨_, rfl⟩⟩, fun f hf => ?_⟩
    cases hf
    exact Or.inl ⟨hflags, rfl⟩
  | @confirmed _ _ rest _ fh q r' hloop hdec hflags hq =>
    obtain ⟨tries, x, rfl, htries, hx, hresult⟩ := hloop.exists_answer rfl
    have hv := (hresult _).mpr (value_ok.mpr ⟨rest, hdec⟩)
    refine ⟨tries, x, [(q, r')], List.append_assoc _ _ _, htries, hx,
      fun stateid rflags hopened => ?_⟩
    obtain rfl := hopened.result_eq rfl (decodeOpenResults_behind dir) hv
    have haccepted := openFile_accepted.mp ⟨_, hv⟩
    -- the OPEN_CONFIRM decides over return and exception
    cases hconfirm : (openConfirm fh stateid (c.open_seqid_ + 1 + 1)).result r' with
    | error e =>
      refine ⟨⟨fun ⟨f, hf⟩ => (nomatch hf), ?_⟩, fun f hf => (nomatch hf)⟩
      rintro ⟨-, hzero | ⟨y, hy, hyes⟩⟩
      · exact absurd hzero hflags
      · obtain rfl := List.singleton_inj.mp hy
        obtain ⟨v, hv'⟩ := openConfirm_accepted.mpr hyes
        exact nomatch hconfirm.symm.trans hv'
    | ok sid =>
      refine ⟨⟨fun _ => ⟨haccepted, Or.inr ⟨_, rfl, openConfirm_accepted.mp ⟨_, hconfirm⟩⟩⟩,
        fun _ => ⟨_, rfl⟩⟩, fun f hf => ?_⟩
      cases hf
      obtain ⟨rpc, rfl⟩ := hq
      exact Or.inr ⟨_, fh, c.open_seqid_ + 1 + 1, rfl,
        ⟨0, (openConfirm_announces fh stateid _).compoundArgs 0⟩, openConfirm_confirmed hconfirm⟩

theorem Nfs41Client.OpenRun.exits {c : Nfs41Client} {dir : Nfs4Fh} {name : Bytes}
    {share_access : UInt32} {create : Bool} {log : List (RpcRequest × Received)}
    {r : Except Exn Nfs4File} (h : OpenRun c dir name share_access create log r) :
    Nfs41Client.Exits dir r log := by
  have hbehind : ReadsBehind (do decodeSequence41Result; decodeOpenResults)
      [.SEQUENCE, (fhOp dir).1] decodeOpened := .cons Iff.rfl (decodeOpenResults_behind dir)
  cases h with
  | failed hloop he =>
    obtain ⟨tries, x, rfl, htries, hx, hresult⟩ := hloop.exists_answer rfl
    refine ⟨tries, x, rfl, htries, hx, fun stateid rflags _ => ⟨⟨?_, ?_⟩, ?_⟩⟩
    · exact fun ⟨f, hf⟩ => nomatch hf
    -- a reply that is accepted does not throw
    · rintro ⟨haccepted, -⟩
      obtain ⟨v, hv⟩ := openFile_accepted.mpr haccepted
      exact nomatch he.symm.trans ((hresult v).mp hv)
    · exact fun f hf => nomatch hf
  | @opened _ rest _ _ hloop hdec hflags =>
    obtain ⟨tries, x, rfl, htries, hx, hresult⟩ := hloop.exists_answer rfl
    have hv := (hresult _).mpr (value_ok.mpr ⟨rest, hdec⟩)
    refine ⟨tries, x, rfl, htries, hx, fun stateid rflags hopened => ?_⟩
    obtain rfl := hopened.result_eq rfl hbehind hv
    have haccepted := openFile_accepted.mp ⟨_, hv⟩
    refine ⟨⟨fun _ => ⟨haccepted, hflags⟩, fun _ => ⟨_, rfl⟩⟩, fun f hf => ?_⟩
    cases hf
    rfl
  | @refused _ rest _ _ _ hloop hdec hflags =>
    obtain ⟨tries, x, rfl, htries, hx, hresult⟩ := hloop.exists_answer rfl
    have hv := (hresult _).mpr (value_ok.mpr ⟨rest, hdec⟩)
    refine ⟨tries, x, rfl, htries, hx, fun stateid rflags hopened => ?_⟩
    obtain rfl := hopened.result_eq rfl hbehind hv
    -- the flag makes it throw, whatever else the reply holds
    exact ⟨⟨fun ⟨f, hf⟩ => (nomatch hf), fun ⟨_, hzero⟩ => absurd hzero hflags⟩,
      fun f hf => nomatch hf⟩

/-- **The exits of `do_open`.** Whatever the server answers, all that either client sends are the OPEN
and the OPEN_CONFIRM, so no CLOSE; and when the server has executed the OPEN, the client returns the
file exactly when nothing behind the OPEN fails. On every other exit the file stays open. -/
theorem opened_returned_iff (fuel : ℕ) (dir : Nfs4Fh) (name : Bytes) (share_access : UInt32)
    (create : Bool) :
    (∀ c : Nfs4Client, wpM anyExchange
      (fun _ q => q.IsOpen (c.open_seqid_ + 1) ∨ q.IsOpenConfirm)
      (fun r _ log => Nfs4Client.Exits dir r log)
      (Nfs4Client.doOpen fuel dir name share_access create) c []) ∧
    ∀ c : Nfs41Client, wpM anyExchange (fun _ q => q.IsSequencedOpen (c.open_seqid_ + 1))
      (fun r _ log => Nfs41Client.Exits dir r log)
      (Nfs41Client.doOpen fuel dir name share_access create) c [] :=
  ⟨fun _ => Nfs4Client.wpM_doOpen_run (fun _ _ _ hq => Or.inl hq.isOpen)
      (fun _ _ _ _ hq => Or.inr hq.isOpenConfirm) (fun _ _ _ h => h.exits) fuel,
    fun _ => Nfs41Client.wpM_doOpen_run (fun _ _ _ hq => hq.isSequencedOpen)
      (fun _ _ _ h => h.exits) fuel⟩

/-- A CLOSE of the stateid, as a strict peer reads the request. -/
def RpcRequest.Closes (q : RpcRequest) (stateid : Stateid4) : Prop :=
  ∃ c rest seqid, Compound.format.read q.args = .ok (c, rest) ∧ ⟨.CLOSE, (seqid, stateid)⟩ ∈ c.ops

/-- Every other status of a COMPOUND ends the retry loop. -/
theorem openVerdict_of_status {received : Received} {status : UInt32}
    (h : AnsweredWith received status) (hzero : status ≠ 0) (hgrace : status ≠ NFS4ERR_GRACE) :
    openVerdict received = .error (.nfs4Error status "COMPOUND") := by
  obtain ⟨rest, hparse⟩ := h
  have hstatus : checkCompoundStatus (word status ++ rest) = .error (.nfs4Error status "COMPOUND") :=
    (bind_of_ok (getUint32_ok.mpr rfl)).trans (throwIf_bind_error hzero)
  unfold openVerdict
  rw [hparse]
  simp only [Except.bind, hstatus, if_neg hgrace]

def NFS4ERR_SERVERFAULT : UInt32 := 10006

/-- The OPEN of a file in the root directory succeeds, the GETFH behind it does not. -/
def leakyReply : Bytes :=
  word NFS4ERR_SERVERFAULT ++ (word 0 ++ (word 3 ++ (word Op.PUTROOTFH.code ++ (word 0 ++
    (word Op.OPEN.code ++ (word 0 ++ (Stateid4.wire ⟨1, Octets.zero 12⟩ ++ (word 1 ++ (hyper 4 ++
      (hyper 5 ++ (word 4 ++ (word 0 ++ (word 0 ++ (word Op.GETFH.code ++
        word NFS4ERR_SERVERFAULT))))))))))))))

/-- `do_open` throws, the server has the file open, and no CLOSE has been sent. -/
theorem opened_file_not_closed :
    ¬ wpM anyExchange (fun _ _ => True)
      (fun r _ log => ∀ stateid, (∃ x ∈ log, ∃ rflags, Opened [.PUTROOTFH] x.2 stateid rflags) →
        (∃ f, r = .ok f ∧ (f.stateid = stateid ∨ ∃ y ∈ log, Confirmed y.2 f.stateid)) ∨
          ∃ x ∈ log, x.1.Closes stateid)
      (Nfs4Client.doOpen 1 ⟨[]⟩ [97] OPEN4_SHARE_ACCESS_READ false) Nfs4Client.fresh [] := by
  intro h
  have hparse : Except.bind (.ok (acceptedHeader 1 0 [] ++ leakyReply)) parseReply
      = .ok leakyReply := parseReply_accepted 1 0 length_nil_lt leakyReply
  obtain ⟨-, hnext⟩ := Nfs4Client.wpM_openLoop_succ.mp (Nfs4Client.wpM_doOpen.mp h)
  have hend := hnext (.ok (acceptedHeader 1 0 [] ++ leakyReply)) _ rfl
  rw [openVerdict_of_status ⟨_, hparse⟩ (by decide) (by decide)] at hend
  have hopened : Opened [.PUTROOTFH] (.ok (acceptedHeader 1 0 [] ++ leakyReply))
      ⟨1, Octets.zero 12⟩ 4 := by
    refine ⟨NFS4ERR_SERVERFAULT, Op.OPEN.code, 1, 4, 5, word 0 ++ (word 0 ++ (word Op.GETFH.code ++
      word NFS4ERR_SERVERFAULT)), [], word 0, 3, _, ?_, hparse, ?_⟩
    · exact ⟨[], by decide, rfl, rfl⟩
    · exact ⟨_, ⟨(), opStatus_ok.mpr ⟨Op.PUTROOTFH.code, rfl⟩⟩, rfl⟩
  rcases hend ⟨1, Octets.zero 12⟩ ⟨_, List.mem_singleton_self _, 4, hopened⟩ with ⟨f, hf, -⟩ | hclose
  · cases hf
  · obtain ⟨x, hx, c, rest, seqid, hread, hmem⟩ := hclose
    obtain rfl := List.mem_singleton.mp hx
    -- what the server reads are the three operations of the COMPOUND
    have hannounced := Nfs4Client.openFile_announces ⟨[]⟩ [97] OPEN4_SHARE_ACCESS_READ false
      Nfs4Client.fresh.clientid_ (Nfs4Client.fresh.open_seqid_ + 1)
    have howner : Nfs4Client.owner.length < 2 ^ 32 := by decide
    have hname : ([97] : Bytes).length < 2 ^ 32 := by decide
    have hread' := hannounced.read length_nil_lt (by simp)
      (List.forall_mem_cons.mpr ⟨fits_fhOp length_nil_lt, List.forall_mem_cons.mpr
        ⟨fits_openArgs howner hname, List.forall_mem_singleton.mpr trivial⟩⟩)
      Nfs4Client.fresh.opened.rpc_ 0
    obtain ⟨rfl, -⟩ := Prod.mk.inj (Except.ok.inj (hread.symm.trans hread'))
    have hclosed : Op.CLOSE ∈ [Op.PUTROOTFH, .OPEN, .GETFH] :=
      List.mem_map_of_mem (f := Sigma.fst) hmem
    exact absurd hclosed (by decide)

end NfsClient
