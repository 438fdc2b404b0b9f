import NfsClient.Listing.Loops
import NfsClient.Nfs4.Attrlist
import NfsClient.Nfs4.Replies
import NfsClient.Nfs4.Requests

/-!
# The replies that the client accepts

A reply is read by place: the decoders of a method take the results in the order of the operations
that the method has sent, and they drop the opcode of a result as `check_compound_status` drops the
count. What is left of a check is the status and the shape of each result (`AnswersByPlace`).

`normal_return_accepted` is the run statement: if a method returns a value then every COMPOUND it has
sent was answered in this way, one result for each of its operations, or was an OPEN that a server in
its grace period made it repeat. For the methods that send one COMPOUND the converse holds too, so a
reply with other opcodes or another count is taken as well (`misnamed_results_accepted`).
-/

namespace NfsClient

open Xdr Reader Interaction

/-! ### Results by place -/

/-- The decoder of an operation takes the front of the input. -/
def Op.Takes : Op → Bytes → Bytes → Prop
  | .ACCESS => Reader.Takes decodeAccessResult
  | .CLOSE => Reader.Takes decodeCloseResult
  | .COMMIT => Reader.Takes decodeCommitResult
  | .CREATE => Reader.Takes decodeCreateResult
  | .GETATTR => Reader.Takes decodeGetattrResult
  | .GETFH => Reader.Takes decodeGetfhResult
  | .LOOKUP => Reader.Takes decodeLookupResult
  | .OPEN => Reader.Takes decodeOpenResult
  | .OPEN_CONFIRM => Reader.Takes decodeOpenConfirmResult
  | .PUTFH => Reader.Takes decodePutfhResult
  | .PUTROOTFH => Reader.Takes decodePutrootfhResult
  | .READ => Reader.Takes decodeReadResult
  | .READDIR => Reader.Takes decodeReaddirResult
  | .READLINK => Reader.Takes decodeReadlinkResult
  | .REMOVE => Reader.Takes decodeRemoveResult
  | .RENAME => Reader.Takes decodeRenameResult
  | .RENEW => Reader.Takes decodeRenewResult
  | .SAVEFH => Reader.Takes decodeSavefhResult
  | .SETATTR => Reader.Takes decodeSetattrResult
  | .SETCLIENTID => Reader.Takes decodeSetclientidResult
  | .SETCLIENTID_CONFIRM => Reader.Takes decodeSetclientidConfirmResult
  | .WRITE => Reader.Takes decodeWriteResult
  | .EXCHANGE_ID => Reader.Takes decodeExchangeIdResult
  | .CREATE_SESSION => Reader.Takes decodeCreateSessionResult
  | .SEQUENCE => Reader.Takes decodeSequence41Result
  | .RECLAIM_COMPLETE => Reader.Takes decodeReclaimCompleteResult

/-- The bytes begin with a result for each of the operations, in order: any opcode, the status 0 and
a body that the decoder of the operation takes whatever the opcode is. -/
def AnswersByPlace : List Op → Bytes → Prop
  | [], _ => True
  | o :: os, bs => ∃ (code : UInt32) (body rest : Bytes), bs = word code ++ (word 0 ++ body) ∧
    (∀ code', o.Takes (word code' ++ (word 0 ++ body)) rest) ∧ AnswersByPlace os rest

theorem opStatus_ok {name : String} {bs rest : Bytes} {u : Unit} :
    opStatus name bs = .ok (u, rest) ↔ ∃ code, bs = word code ++ (word 0 ++ rest) := by
  constructor
  · intro h
    obtain ⟨code, mid, hcode, h⟩ := bind_ok.mp h
    obtain ⟨status, mid', hstatus, h⟩ := bind_ok.mp h
    obtain ⟨hzero, rfl⟩ := throwIf_ok.mp h
    obtain rfl := not_not.mp hzero
    exact ⟨code, by rw [getUint32_ok.mp hcode, getUint32_ok.mp hstatus]⟩
  · rintro ⟨code, rfl⟩
    rw [← List.append_assoc]
    exact opStatus_word_reads name code rest

theorem decodeGetfhResult_ok {bs rest : Bytes} {fh : Nfs4Fh} :
    decodeGetfhResult bs = .ok (fh, rest) ↔
      ∃ (code : UInt32) (pad : Bytes), fh.data.length < 2 ^ 32 ∧
        pad.length = padLen fh.data.length ∧
        bs = word code ++ (word 0 ++ (word (UInt32.ofNat fh.data.length) ++
          (fh.data ++ (pad ++ rest)))) := by
  unfold decodeGetfhResult checkOpStatus decodeNfs4fh
  rw [bind_ok]
  constructor
  · rintro ⟨u, mid, hstatus, h⟩
    -- any code will do, but the status is zero
    obtain ⟨code, rfl⟩ := opStatus_ok.mp hstatus
    obtain ⟨x, hx, rfl⟩ := map_ok.mp h
    obtain ⟨pad, hlen, hpad, rfl⟩ := getOpaque_ok.mp hx
    exact ⟨code, pad, hlen, hpad, rfl⟩
  · rintro ⟨code, pad, hlen, hpad, rfl⟩
    exact ⟨(), _, opStatus_ok.mpr ⟨code, rfl⟩,
      map_ok.mpr ⟨fh.data, getOpaque_ok.mpr ⟨pad, hlen, hpad, rfl⟩, rfl⟩⟩

/-- The decoder begins with the check of a status. -/
def Headed {α : Type} (d : XdrDecoder α) : Prop :=
  ∀ bs rest, Takes d bs rest → ∃ (code : UInt32) (body : Bytes),
    bs = word code ++ (word 0 ++ body) ∧ ∀ code', Takes d (word code' ++ (word 0 ++ body)) rest

theorem headed_opStatus (name : String) : Headed (opStatus name) := by
  rintro bs rest ⟨u, h⟩
  obtain ⟨code, rfl⟩ := opStatus_ok.mp h
  exact ⟨code, rest, rfl, fun code' => ⟨(), opStatus_ok.mpr ⟨code', rfl⟩⟩⟩

theorem headed_bind {α : Type} (name : String) (f : Unit → XdrDecoder α) :
    Headed (opStatus name >>= f) := by
  rintro bs rest ⟨a, h⟩
  obtain ⟨u, mid, hstatus, hf⟩ := bind_ok.mp h
  obtain ⟨code, rfl⟩ := opStatus_ok.mp hstatus
  exact ⟨code, mid, rfl, fun code' =>
    ⟨a, bind_ok.mpr ⟨(), mid, opStatus_ok.mpr ⟨code', rfl⟩, hf⟩⟩⟩

/-- The decoders of all operations begin with the check of a status, and none looks at the opcode. -/
theorem Op.takes_headed {o : Op} {bs rest : Bytes} (h : o.Takes bs rest) :
    ∃ (code : UInt32) (body : Bytes), bs = word code ++ (word 0 ++ body) ∧
      ∀ code', o.Takes (word code' ++ (word 0 ++ body)) rest := by
  cases o with
  | LOOKUP | PUTFH | PUTROOTFH | RENEW | SAVEFH | SETCLIENTID_CONFIRM | RECLAIM_COMPLETE =>
    exact headed_opStatus _ bs rest h
  | _ => exact headed_bind _ _ bs rest h

theorem answersByPlace_cons {o : Op} {os : List Op} {bs : Bytes} :
    AnswersByPlace (o :: os) bs ↔ ∃ rest, o.Takes bs rest ∧ AnswersByPlace os rest := by
  constructor
  · rintro ⟨code, body, rest, rfl, htakes, hos⟩
    exact ⟨rest, htakes code, hos⟩
  · rintro ⟨rest, htakes, hos⟩
    obtain ⟨code, body, rfl, hcode⟩ := Op.takes_headed htakes
    exact ⟨code, body, rest, rfl, hcode, hos⟩

/-- A filehandle is put in place by PUTROOTFH or PUTFH; both results are a status. -/
theorem takes_fhOp (fh : Nfs4Fh) {bs rest : Bytes} :
    (fhOp fh).1.Takes bs rest ↔ Takes decodePutfhResult bs rest := by
  have hname : ∀ name name', Takes (opStatus name) bs rest → Takes (opStatus name') bs rest :=
    fun _ _ ⟨_, h⟩ => ⟨(), opStatus_ok.mpr (opStatus_ok.mp h)⟩
  unfold fhOp
  split
  · exact ⟨hname _ _, hname _ _⟩
  · exact Iff.rfl

/-! ### The decoders of the methods -/

/-- A decoder takes exactly the inputs that answer the operations by place. -/
def ReadsByPlace {α : Type} (d : XdrDecoder α) (os : List Op) : Prop :=
  ∀ bs, (∃ rest, Takes d bs rest) ↔ AnswersByPlace os bs

namespace ReadsByPlace

variable {α β : Type} {d : XdrDecoder α} {e : XdrDecoder β} {o : Op} {os : List Op}

theorem last (hd : ∀ {bs rest}, o.Takes bs rest ↔ Takes d bs rest) : ReadsByPlace d [o] := by
  intro bs
  rw [answersByPlace_cons]
  constructor
  · rintro ⟨rest, h⟩
    exact ⟨rest, hd.mpr h, trivial⟩
  · rintro ⟨rest, h, -⟩
    exact ⟨rest, hd.mp h⟩

theorem cons {f : α → XdrDecoder β} (hd : ∀ {bs rest}, o.Takes bs rest ↔ Takes d bs rest)
    (hf : ∀ a, ReadsByPlace (f a) os) : ReadsByPlace (d >>= f) (o :: os) := by
  intro bs
  rw [answersByPlace_cons]
  constructor
  · rintro ⟨rest, b, h⟩
    obtain ⟨a, mid, ha, hb⟩ := bind_ok.mp h
    exact ⟨mid, hd.mpr ⟨a, ha⟩, (hf a mid).mp ⟨rest, b, hb⟩⟩
  · rintro ⟨mid, htakes, hos⟩
    obtain ⟨a, ha⟩ := hd.mp htakes
    obtain ⟨rest, b, hb⟩ := (hf a mid).mpr hos
    exact ⟨rest, b, bind_ok.mpr ⟨a, mid, ha, hb⟩⟩

end ReadsByPlace

theorem FileMethod.readsByPlace (m : FileMethod) :
    ReadsByPlace m.decodeResults (m.argOps.map Sigma.fst) := by
  cases m with
  -- by the definition of each decoder: one reader for each operation that was sent
  | lookup dir name => exact .cons (takes_fhOp dir) fun _ => .cons Iff.rfl fun _ => .last Iff.rfl
  | getattr fh => exact .cons (takes_fhOp fh) fun _ => .last Iff.rfl
  | access fh mask => exact .cons (takes_fhOp fh) fun _ => .last takes_return.symm
  | close f => exact .cons (takes_fhOp f.fh) fun _ => .last Iff.rfl
  | read f offset count => exact .cons (takes_fhOp f.fh) fun _ => .last Iff.rfl
  | write f offset stable data => exact .cons (takes_fhOp f.fh) fun _ => .last takes_return.symm
  | commit f offset count => exact .cons (takes_fhOp f.fh) fun _ => .last Iff.rfl
  | mkdir dir name attrs => exact .cons (takes_fhOp dir) fun _ => .cons Iff.rfl fun _ => .last Iff.rfl
  | remove dir name => exact .cons (takes_fhOp dir) fun _ => .last Iff.rfl
  | rename src_dir src_name dst_dir dst_name =>
    exact .cons (takes_fhOp src_dir) fun _ => .cons Iff.rfl fun _ =>
      .cons (takes_fhOp dst_dir) fun _ => .last Iff.rfl
  | symlink dir name target attrs =>
    exact .cons (takes_fhOp dir) fun _ => .cons Iff.rfl fun _ => .last Iff.rfl
  | readlink fh => exact .cons (takes_fhOp fh) fun _ => .last Iff.rfl
  | setattr fh attrs => exact .cons (takes_fhOp fh) fun _ => .last Iff.rfl

/-- The results of the COMPOUND of `do_open`. -/
theorem decodeOpenResults_readsByPlace (dir : Nfs4Fh) :
    ReadsByPlace decodeOpenResults [(fhOp dir).1, .OPEN, .GETFH] :=
  .cons (takes_fhOp dir) fun _ => .cons Iff.rfl fun _ => .last takes_return.symm

/-! ### Replies -/

/-- A record is taken for the reply to operations: its outer status is 0, then come any tag and any
count, and then a result for each of the operations. -/
def Accepted (os : List Op) (received : Received) : Prop :=
  ∃ reply tag tagBytes numops results, received.bind parseReply = .ok reply ∧
    StringBytes tag tagBytes ∧ reply = word 0 ++ (tagBytes ++ (word numops ++ results)) ∧
    AnswersByPlace os results

/-- The reply to an OPEN that is to be repeated. -/
def IsGrace (received : Received) : Prop :=
  ∃ rest, received.bind parseReply = .ok (word NFS4ERR_GRACE ++ rest)

theorem checkCompoundStatus_ok {bs rest : Bytes} {u : Unit} :
    checkCompoundStatus bs = .ok (u, rest) ↔ ∃ tag tagBytes numops, StringBytes tag tagBytes ∧
      bs = word 0 ++ (tagBytes ++ (word numops ++ rest)) := by
  constructor
  · intro h
    -- status, tag and number of results, of which only the status is looked at
    obtain ⟨status, m₁, hstatus, h₁⟩ := bind_ok.mp h
    obtain ⟨u', m₂, hzero, h₂⟩ := bind_ok.mp h₁
    obtain ⟨tag, m₃, htag, h₃⟩ := bind_ok.mp h₂
    obtain ⟨numops, m₄, hnumops, h₄⟩ := bind_ok.mp h₃
    obtain ⟨hstatus₀, rfl⟩ := throwIf_ok.mp hzero
    obtain ⟨tagBytes, htagBytes, hm₂⟩ := getString_accepts.ok.mp htag
    obtain ⟨-, rfl⟩ := pure_ok.mp h₄
    obtain rfl := not_not.mp hstatus₀
    refine ⟨tag, tagBytes, numops, htagBytes, ?_⟩
    rw [getUint32_ok.mp hstatus, hm₂, getUint32_ok.mp hnumops]
  · rintro ⟨tag, tagBytes, numops, htag, rfl⟩
    have hzero : ¬ (0 : UInt32) ≠ 0 := not_not.mpr rfl
    refine bind_ok.mpr ⟨0, _, getUint32_ok.mpr rfl, bind_ok.mpr ⟨(), _, throwIf_ok.mpr ⟨hzero, rfl⟩, ?_⟩⟩
    exact bind_ok.mpr ⟨tag, _, getString_accepts.ok.mpr ⟨tagBytes, htag, rfl⟩,
      bind_ok.mpr ⟨numops, _, getUint32_ok.mpr rfl, rfl⟩⟩

section Replies

variable {α : Type} {q : CompoundCall α} {d : XdrDecoder α} {os : List Op} {received : Received}

/-- **A call returns normally** exactly on the records that are taken for the reply to its
operations. -/
theorem CompoundCall.result_iff (hq : q.decode = do checkCompoundStatus; d)
    (hd : ReadsByPlace d os) : (∃ v, q.result received = .ok v) ↔ Accepted os received := by
  constructor
  · rintro ⟨v, hv⟩
    obtain ⟨reply, rest, hparse, hdecode⟩ := CompoundCall.result_ok.mp hv
    rw [hq] at hdecode
    obtain ⟨u, results, hstatus, hresults⟩ := bind_ok.mp hdecode
    obtain ⟨tag, tagBytes, numops, htag, hreply⟩ := checkCompoundStatus_ok.mp hstatus
    exact ⟨reply, tag, tagBytes, numops, results, hparse, htag, hreply,
      (hd results).mp ⟨rest, v, hresults⟩⟩
  · rintro ⟨reply, tag, tagBytes, numops, results, hparse, htag, hreply, hresults⟩
    obtain ⟨rest, v, hv⟩ := (hd results).mpr hresults
    refine ⟨v, CompoundCall.result_ok.mpr ⟨reply, rest, hparse, ?_⟩⟩
    rw [hq]
    exact bind_ok.mpr ⟨(), results, checkCompoundStatus_ok.mpr ⟨tag, tagBytes, numops, htag, hreply⟩, hv⟩

/-- What the check throws is the outer status, where it is not for short input. -/
theorem checkCompoundStatus_nfs4Error {bs : Bytes} {status : UInt32} {op : String}
    (h : checkCompoundStatus bs = .error (.nfs4Error status op)) :
    ∃ rest, bs = word status ++ rest := by
  have hunderflow : .nfs4Error status op ≠ underflow := Exn.noConfusion
  rcases bind_error.mp h with h | ⟨status', rest, hstatus, h⟩
  · exact absurd (getUint32_throws bs _ h) hunderflow
  rcases bind_error.mp h with h | ⟨u, mid, -, h⟩
  · -- the outer status itself
    by_cases hzero : status' ≠ 0
    · rw [throwIf_error hzero] at h
      cases h
      exact ⟨rest, getUint32_ok.mp hstatus⟩
    · have hpass := h.symm.trans (throwIf_ok (u := ()) |>.mpr ⟨hzero, rfl⟩)
      cases hpass
  -- behind the status only input that is too short throws
  · have htail : Throws (getString >>= fun _ => getUint32 >>= fun _ => pure ()) (· = underflow) :=
      getString_throws.bind fun _ => getUint32_throws.bind fun _ => .pure ()
    exact absurd (htail mid _ h) hunderflow

theorem isGrace_of_openVerdict (h : openVerdict received = .ok none) : IsGrace received := by
  cases hparse : received.bind parseReply with
  | error e => exact nomatch h.symm.trans (openVerdict_of_error hparse)
  | ok reply =>
    -- `none` is the verdict on one thing only, the exception for this status
    obtain ⟨_, -, hverdict⟩ | ⟨op, hstatus, -⟩ | ⟨_, -, hverdict⟩ := openVerdict_cases hparse
    · exact nomatch h.symm.trans hverdict
    · obtain ⟨rest, rfl⟩ := checkCompoundStatus_nfs4Error hstatus
      exact ⟨rest, hparse⟩
    · exact nomatch h.symm.trans hverdict

/-- An OPEN that is answered with GRACE is sent once more. -/
theorem openVerdict_of_isGrace (h : IsGrace received) :
    openVerdict received = .ok none := by
  obtain ⟨rest, hparse⟩ := h
  have hstatus : checkCompoundStatus (word NFS4ERR_GRACE ++ rest)
      = .error (.nfs4Error NFS4ERR_GRACE "COMPOUND") := by
    have hne : NFS4ERR_GRACE ≠ 0 := by decide
    exact (bind_of_ok (getUint32_ok.mpr rfl)).trans (throwIf_bind_error hne)
  unfold openVerdict
  rw [hparse]
  simp only [Except.bind, hstatus]
  rfl

end Replies

/-- An exchange in which a COMPOUND was answered: one result for each of its operations, or the wish
that an OPEN be repeated. -/
def Answered (x : RpcRequest × Received) : Prop :=
  ∃ c : Compound, x.1.args = Compound.format.write c ∧
    (Accepted (c.ops.map Sigma.fst) x.2 ∨ .OPEN ∈ c.ops.map Sigma.fst ∧ IsGrace x.2)

/-- The exchanges of a run in which every COMPOUND was answered. -/
def AllAnswered (log : List (RpcRequest × Received)) : Prop := ∀ x ∈ log, Answered x

theorem AllAnswered.concat {log : List (RpcRequest × Received)} {x : RpcRequest × Received}
    (h : AllAnswered log) (hx : Answered x) : AllAnswered (log ++ [x]) :=
  List.forall_mem_append.mpr ⟨h, List.forall_mem_singleton.mpr hx⟩

/-- The exchanges of a constructor, which has asked the portmapper too. -/
def HandshakeAnswered (log : List (RpcRequest × Received)) : Prop :=
  ∀ x ∈ log, x.1 = getportRequest NFS4_PROG NFS4_VERS ∨ Answered x

theorem HandshakeAnswered.concat {log : List (RpcRequest × Received)}
    {x : RpcRequest × Received} (h : HandshakeAnswered log) (hx : Answered x) :
    HandshakeAnswered (log ++ [x]) :=
  List.forall_mem_append.mpr ⟨h, List.forall_mem_singleton.mpr (Or.inr hx)⟩

/-- What a method that returns normally leaves behind. -/
def Returns {σ α : Type} (r : Except Exn α) (_ : σ) (log : List (RpcRequest × Received)) : Prop :=
  (∃ v, r = .ok v) → AllAnswered log

theorem CompoundCall.Announces.answered_of_ok {α : Type} {q : CompoundCall α} {d : XdrDecoder α}
    {ops : List ArgOp} {r : Received} {v : α} (hq : q.Announces ops)
    (hdecode : q.decode = do checkCompoundStatus; d) (hd : ReadsByPlace d (ops.map Sigma.fst))
    (hv : q.result r = .ok v) (rpc : TcpRpcClient) (minorversion : UInt32) :
    Answered (q.request rpc minorversion, r) :=
  ⟨⟨q.tag, minorversion, ops⟩, hq.compoundArgs minorversion,
    Or.inl ((CompoundCall.result_iff hdecode hd).mp ⟨v, hv⟩)⟩

/-! ### Nfs4Client -/

namespace Nfs4Client

variable {α : Type} {q : CompoundCall α} {d : XdrDecoder α} {ops : List ArgOp}
  {log log' : List (RpcRequest × Received)} {c : Nfs4Client} {r : Received}

/-- A method that sends one COMPOUND. -/
theorem send_answered (hq : q.Announces ops) (hdecode : q.decode = do checkCompoundStatus; d)
    (hd : ReadsByPlace d (ops.map Sigma.fst)) (hlog : AllAnswered log) :
    wpM anyExchange (fun _ _ => True) Returns (onRpc (q.send 0)) c log := by
  refine wpM_onRpc_send.mpr ⟨trivial, ?_⟩
  rintro r log' rfl ⟨v, hv⟩
  exact hlog.concat (hq.answered_of_ok hdecode hd hv c.rpc_ 0)

theorem doOpen_answered (fuel : ℕ) (dir : Nfs4Fh) (name : Bytes) (share_access : UInt32)
    (create : Bool) (hlog : AllAnswered log) :
    wpM anyExchange (fun _ _ => True) Returns (doOpen fuel dir name share_access create) c log := by
  have hq := openFile_announces dir name share_access create c.clientid_ (c.open_seqid_ + 1)
  refine wpM_doOpen_exits (I := fun _ log => AllAnswered log) rfl (fun _ _ _ => trivial) ?_ ?_ hlog
  · rintro c' log r _ hlog rfl hgrace
    exact hlog.concat ⟨_, hq.compoundArgs 0, Or.inr ⟨by simp, isGrace_of_openVerdict hgrace⟩⟩
  · rintro c' log r _ hlog rfl -
    refine ⟨fun e ⟨_, hv⟩ => (nomatch hv), fun open_res fh hresult => ?_⟩
    -- the OPEN has been answered; an OPEN_CONFIRM may follow
    have hopen := hlog.concat
      (hq.answered_of_ok rfl (decodeOpenResults_readsByPlace dir) hresult c'.rpc_ 0)
    split
    · refine ⟨trivial, ?_⟩
      rintro r' _ rfl ⟨v, hv⟩
      cases hconfirm : (openConfirm fh open_res.stateid (c'.sent.open_seqid_ + 1)).result r' with
      | error e =>
        rw [hconfirm] at hv
        cases hv
      | ok stateid =>
        exact hopen.concat ((openConfirm_announces _ _ _).answered_of_ok rfl
          (.cons (takes_fhOp fh) fun _ => .last Iff.rfl) hconfirm _ 0)
    · exact fun _ => hopen

theorem perform_answered (fuel : ℕ) (m : Method) (c : Nfs4Client) :
    wpM anyExchange (fun _ _ => True) Returns (perform fuel m) c [] := by
  have hnil : AllAnswered [] := fun _ h => absurd h List.not_mem_nil
  cases m with
  | file m => exact send_answered (fileCall_announces m) (fileCall_decode m) m.readsByPlace hnil
  | openRead dir name => exact doOpen_answered fuel dir name _ _ hnil
  | openWrite dir name create => exact doOpen_answered fuel dir name _ create hnil
  | readdir dir =>
    change wp _ _ _ (readdirLoop dir fuel 0 (Octets.zero 8) [] c) []
    rw [readdirLoop_eq]
    -- every page is an answer, and the loop adds nothing to the log
    refine (readdirPager dir).wp_loop (I := fun _ log => AllAnswered log) ?_ ?_ hnil
    · rintro c log cookie cookieverf hlog
      refine ⟨trivial, ?_⟩
      rintro r _ rfl
      have hpage : (readdirPager dir).page r = ((readdirPage dir cookie cookieverf).result r).map
          fun page => ⟨page.entries, page.cookieverf, page.eof⟩ := rfl
      rw [hpage]
      -- the loop goes on and returns from a reply that answers only
      cases hresult : (readdirPage dir cookie cookieverf).result r with
      | error e => exact fun ⟨_, hv⟩ => nomatch hv
      | ok page =>
        exact hlog.concat ((readdirPage_announces dir cookie cookieverf).answered_of_ok rfl
          (.cons (takes_fhOp dir) fun _ => .last Iff.rfl) hresult c.rpc_ 0)
    · exact fun _ _ _ hlog _ => hlog
  | renew =>
    exact wpM_fields_bind.mpr
      (send_answered (renew_announces c.clientid_) rfl (.last Iff.rfl) hnil)
  | setAuthSys auth => exact fun _ => hnil
  | clearAuth => exact fun _ => hnil

/-- The constructor, too, goes on from a reply only if it answers. -/
theorem new_answered (now : UInt64) (auth : Option AuthSys) :
    wpM anyExchange (fun _ _ => True) (fun r _ log => (∃ v, r = .ok v) → HandshakeAnswered log)
      (new now auth) () [] := by
  refine wpM_connectNfs_bind trivial ?_
  rintro r₀ _ rfl
  have h₀ : HandshakeAnswered [(getportRequest NFS4_PROG NFS4_VERS, r₀)] :=
    List.forall_mem_singleton.mpr (Or.inl rfl)
  refine ⟨fun e ⟨_, hv⟩ => (nomatch hv), fun rpc => ?_⟩
  refine wpM_bind.mpr (wpM_onLocal.mpr (wpM_doSetclientidConfirm.mpr ⟨trivial, ?_⟩))
  rintro r₁ _ rfl
  cases hr₁ : (setclientid now).result r₁ with
  | error e => exact fun ⟨_, hv⟩ => nomatch hv
  | ok res =>
    -- each reply that does not throw is one more answer
    have h₁ := h₀.concat ((setclientid_announces now).answered_of_ok rfl (.last Iff.rfl) hr₁ rpc 0)
    refine ⟨trivial, ?_⟩
    rintro r₂ _ rfl
    cases hr₂ : (setclientidConfirm res).result r₂ with
    | error e => exact fun ⟨_, hv⟩ => nomatch hv
    | ok u =>
      have h₂ := h₁.concat
        ((setclientidConfirm_announces res).answered_of_ok rfl (.last Iff.rfl) hr₂ rpc.bump 0)
      refine wpM_bind.mpr (wpM_onLocal.mpr (wpM_doGetRootFh.mpr ⟨trivial, ?_⟩))
      rintro r₃ _ rfl
      cases hr₃ : getRootFh.result r₃ with
      | error e => exact fun ⟨_, hv⟩ => nomatch hv
      | ok u =>
        exact fun _ => h₂.concat (getRootFh_announces.answered_of_ok rfl
          (.cons Iff.rfl fun _ => .last takes_return.symm) hr₃ _ 0)

end Nfs4Client

/-! ### Nfs41Client -/

namespace Nfs41Client

variable {α : Type} {q : CompoundCall α} {d : XdrDecoder α} {ops : List ArgOp}
  {log : List (RpcRequest × Received)} {c : Nfs41Client} {r : Received}

/-- The result of the SEQUENCE is the first one. -/
theorem answered_of_ok {v : α} (hq : q.Announces ops)
    (hdecode : q.decode = do checkCompoundStatus; decodeSequence41Result; d)
    (hd : ReadsByPlace d (ops.map Sigma.fst)) (hv : q.result r = .ok v) (c : Nfs41Client) :
    Answered (c.request q, r) := by
  have hsequence : ReadsByPlace (do decodeSequence41Result; d) (.SEQUENCE :: ops.map Sigma.fst) :=
    .cons Iff.rfl fun _ => hd
  exact ⟨⟨q.tag, 1, sequenceOp c.sessionid_ c.slot_seqid_ :: ops⟩, sequenced_compoundArgs hq _ _,
    Or.inl ((CompoundCall.result_iff hdecode hsequence).mp ⟨v, hv⟩)⟩

theorem call_answered (hq : q.Announces ops)
    (hdecode : q.decode = do checkCompoundStatus; decodeSequence41Result; d)
    (hd : ReadsByPlace d (ops.map Sigma.fst)) (hlog : AllAnswered log) :
    wpM anyExchange (fun _ _ => True) Returns (call q) c log := by
  refine wpM_call.mpr ⟨trivial, ?_⟩
  rintro r log' rfl ⟨v, hv⟩
  exact hlog.concat (answered_of_ok hq hdecode hd hv c)

theorem doOpen_answered (fuel : ℕ) (dir : Nfs4Fh) (name : Bytes) (share_access : UInt32)
    (create : Bool) (hlog : AllAnswered log) :
    wpM anyExchange (fun _ _ => True) Returns (doOpen fuel dir name share_access create) c log := by
  have hq := openFile_announces dir name share_access create c.clientid_ (c.open_seqid_ + 1)
  refine wpM_doOpen_exits (I := fun _ log => AllAnswered log) rfl (fun _ _ _ => trivial) ?_ ?_ hlog
  · rintro c' log r _ hlog rfl hgrace
    exact hlog.concat
      ⟨_, sequenced_compoundArgs hq _ _, Or.inr ⟨by simp, isGrace_of_openVerdict hgrace⟩⟩
  · rintro c' log r _ hlog rfl -
    refine ⟨fun e ⟨_, hv⟩ => (nomatch hv), fun open_res fh hresult _ _ => ?_⟩
    exact hlog.concat (answered_of_ok hq rfl (decodeOpenResults_readsByPlace dir) hresult c')

theorem perform_answered (fuel : ℕ) (m : Method) (c : Nfs41Client) :
    wpM anyExchange (fun _ _ => True) Returns (perform fuel m) c [] := by
  have hnil : AllAnswered [] := fun _ h => absurd h List.not_mem_nil
  cases m with
  | file m => exact call_answered (fileCall_announces m) (fileCall_decode m) m.readsByPlace hnil
  | openRead dir name => exact doOpen_answered fuel dir name _ _ hnil
  | openWrite dir name create => exact doOpen_answered fuel dir name _ create hnil
  | readdir dir =>
    change wp _ _ _ (readdirLoop dir fuel 0 (Octets.zero 8) [] c) []
    rw [readdirLoop_eq]
    refine (readdirPager dir).wp_loop (I := fun _ log => AllAnswered log) ?_ ?_ hnil
    · rintro c log cookie cookieverf hlog
      refine ⟨trivial, ?_⟩
      rintro r _ rfl
      have hpage : (readdirPager dir).page r = ((readdirPage dir cookie cookieverf).result r).map
          fun page => ⟨page.entries, page.cookieverf, page.eof⟩ := rfl
      rw [hpage]
      cases hresult : (readdirPage dir cookie cookieverf).result r with
      | error e => exact fun ⟨_, hv⟩ => nomatch hv
      | ok page =>
        exact hlog.concat (answered_of_ok (readdirPage_announces dir cookie cookieverf) rfl
          (.cons (takes_fhOp dir) fun _ => .last Iff.rfl) hresult c)
    · exact fun _ _ _ hlog _ => hlog
  | setAuthSys auth => exact fun _ => hnil
  | clearAuth => exact fun _ => hnil

/-- The constructor, too, goes on from a reply only if it answers. -/
theorem new_answered (now : UInt64) (auth : Option AuthSys) :
    wpM anyExchange (fun _ _ => True) (fun r _ log => (∃ v, r = .ok v) → HandshakeAnswered log)
      (new now auth) () [] := by
  refine wpM_connectNfs_bind trivial ?_
  rintro r₀ _ rfl
  have h₀ : HandshakeAnswered [(getportRequest NFS4_PROG NFS4_VERS, r₀)] :=
    List.forall_mem_singleton.mpr (Or.inl rfl)
  refine ⟨fun e ⟨_, hv⟩ => (nomatch hv), fun rpc => ?_⟩
  refine wpM_bind.mpr (wpM_onLocal.mpr (wpM_doBootstrap.mpr ⟨trivial, ?_⟩))
  rintro r₁ _ rfl
  cases hr₁ : (exchangeId now).result r₁ with
  | error e => exact fun ⟨_, hv⟩ => nomatch hv
  | ok exid =>
    have h₁ := h₀.concat ((exchangeId_announces now).answered_of_ok rfl (.last Iff.rfl) hr₁ rpc 1)
    refine ⟨trivial, ?_⟩
    rintro r₂ _ rfl
    cases hr₂ : (createSession exid).result r₂ with
    | error e => exact fun ⟨_, hv⟩ => nomatch hv
    | ok sid =>
      have h₂ := h₁.concat
        ((createSession_announces exid).answered_of_ok rfl (.last Iff.rfl) hr₂ rpc.bump 1)
      refine wpM_bind.mpr (wpM_onLocal.mpr (wpM_enterSession.mpr ⟨trivial, ?_⟩))
      rintro r₃ _ rfl
      cases hr₃ : reclaimComplete.result r₃ with
      | error e => exact fun ⟨_, hv⟩ => nomatch hv
      | ok u =>
        refine ⟨trivial, ?_⟩
        rintro r₄ _ rfl
        cases hr₄ : getRootFh.result r₄ with
        | error e => exact fun ⟨_, hv⟩ => nomatch hv
        | ok u =>
          intro _
          refine HandshakeAnswered.concat (h₂.concat ?_) ?_
          · exact answered_of_ok reclaimComplete_announces rfl (.last Iff.rfl) hr₃ _
          · exact answered_of_ok getRootFh_announces rfl
              (.cons Iff.rfl fun _ => .last takes_return.symm) hr₄ _

end Nfs41Client

/-! ### Both facades -/

/-- **What a normal return says of the replies.** If a method of one of the facades returns a value,
whatever the server is, then every COMPOUND that it has sent was answered: one result for each
operation, in order, with the status 0 and a body that the decoder of the operation takes, or, for an
OPEN, the wish that it be repeated. The same holds of the constructors. A method that sends one
COMPOUND returns a value on all such replies, whatever their opcodes and their count. -/
theorem normal_return_accepted {S : Type} (step : Step RpcRequest Received S) (fuel : ℕ)
    (now : UInt64) (auth : Option AuthSys) :
    (∀ (m : Nfs4Client.Method) (c c' : Nfs4Client) (s s' : S) (tr : List (RpcRequest × Received))
      (v : m.Result), Trace step (Nfs4Client.perform fuel m c) s tr (.done (.ok v, c')) s' →
        AllAnswered tr) ∧
    (∀ (m : Nfs41Client.Method) (c c' : Nfs41Client) (s s' : S)
      (tr : List (RpcRequest × Received)) (v : m.Result),
      Trace step (Nfs41Client.perform fuel m c) s tr (.done (.ok v, c')) s' → AllAnswered tr) ∧
    (∀ (s s' : S) (tr : List (RpcRequest × Received)) (c : Nfs4Client),
      Trace step (Nfs4Client.new now auth ()) s tr (.done (.ok c, ())) s' → HandshakeAnswered tr) ∧
    (∀ (s s' : S) (tr : List (RpcRequest × Received)) (c : Nfs41Client),
      Trace step (Nfs41Client.new now auth ()) s tr (.done (.ok c, ())) s' → HandshakeAnswered tr) ∧
    (∀ (m : FileMethod) (received : Received),
      ((∃ v, (Nfs4Client.fileCall m).result received = .ok v) ↔
        Accepted (m.argOps.map Sigma.fst) received) ∧
      ((∃ v, (Nfs41Client.fileCall m).result received = .ok v) ↔
        Accepted (.SEQUENCE :: m.argOps.map Sigma.fst) received)) := by
  refine ⟨?_, ?_, ?_, ?_, fun m received => ⟨?_, ?_⟩⟩
  -- methods and constructors by their runs, and one COMPOUND by the decoder itself
  · exact fun m c c' s s' tr v htr => wp_run htr (Nfs4Client.perform_answered fuel m c) ⟨v, rfl⟩
  · exact fun m c c' s s' tr v htr => wp_run htr (Nfs41Client.perform_answered fuel m c) ⟨v, rfl⟩
  · exact fun s s' tr c htr => wp_run htr (Nfs4Client.new_answered now auth) ⟨c, rfl⟩
  · exact fun s s' tr c htr => wp_run htr (Nfs41Client.new_answered now auth) ⟨c, rfl⟩
  · exact CompoundCall.result_iff (Nfs4Client.fileCall_decode m) m.readsByPlace
  · exact CompoundCall.result_iff (Nfs41Client.fileCall_decode m) (.cons Iff.rfl fun _ => m.readsByPlace)

/-! ### A reply with other opcodes -/

/-- Two results, both named GETFH and counted as seven; the second one has the body of READLINK. -/
def misnamedReply : Bytes :=
  word 0 ++ (word 0 ++ (word 7 ++ (word 10 ++ (word 0 ++ (word 10 ++ (word 0 ++
    (word 1 ++ [97, 0, 0, 0])))))))

/-- A successful RPC reply with these results in it. -/
def misnamedRecord : Bytes := acceptedHeader 1 0 [] ++ misnamedReply

theorem readlink_misnamed :
    (Nfs4Client.fileCall (.readlink ⟨[]⟩)).result (.ok misnamedRecord) = .ok [97] := by
  decide +kernel

/-- It is a reply to the READLINK of the root all the same. -/
theorem misnamed_reply_answers :
    AllAnswered [(Nfs4Client.fresh.request (Nfs4Client.readlink ⟨[]⟩), .ok misnamedRecord)] ∧
      Accepted [.PUTROOTFH, .READLINK] (.ok misnamedRecord) := by
  have hrun : Trace (fun _ _ _ _ => True)
      (Nfs4Client.perform 0 (.file (.readlink ⟨[]⟩)) Nfs4Client.fresh) ()
      [(Nfs4Client.fresh.request (Nfs4Client.readlink ⟨[]⟩), .ok misnamedRecord)]
      (.done (.ok [97], Nfs4Client.fresh.sent)) () := by
    change Trace _ (Nfs4Client.onRpc ((Nfs4Client.readlink ⟨[]⟩).send 0) Nfs4Client.fresh) _ _ _ _
    rw [Nfs4Client.onRpc_send_eq, ← readlink_misnamed]
    exact .call trivial (.refl _ _)
  obtain ⟨h40, -, -, -, hiff⟩ := normal_return_accepted (fun _ _ _ _ => True) 0 0 none
  exact ⟨h40 (.file (.readlink ⟨[]⟩)) Nfs4Client.fresh Nfs4Client.fresh.sent () () _ [97] hrun,
    (hiff (.readlink ⟨[]⟩) (.ok misnamedRecord)).1.mp ⟨[97], readlink_misnamed⟩⟩

/-- The count and the opcode of the first result are not those of the request. -/
theorem misnamed_results_accepted :
    ¬ ∀ (m : FileMethod) (numops code : UInt32) (results : Bytes) (o : Op) (os : List Op)
      (v : m.Result), m.argOps.map Sigma.fst = o :: os →
      (Nfs4Client.fileCall m).result (.ok (acceptedHeader 1 0 [] ++
        (word 0 ++ (word 0 ++ (word numops ++ (word code ++ results)))))) = .ok v →
        numops = UInt32.ofNat (o :: os).length ∧ code = o.code := by
  intro hclaim
  obtain ⟨hnumops, -⟩ := hclaim (.readlink ⟨[]⟩) 7 10 _ .PUTROOTFH [.READLINK] [97] rfl
    readlink_misnamed
  cases hnumops

end NfsClient
