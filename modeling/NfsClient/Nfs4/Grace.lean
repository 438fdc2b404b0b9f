import NfsClient.Listing.Loops
import NfsClient.Nfs4.Exits
import NfsClient.Nfs4.Handles

/-!
# Retries in the grace period

`do_open` sends its OPEN again as long as the answer is GRACE. This cannot be told from the outside but
by the requests: after any number `n` of such answers it ends as it would have without them, with the
same file or the same exception, having sent `n` OPENs more (`grace_retries_transparent`). Its fields
are those of the other run, `n` COMPOUNDs later: the RPC ids, and in a session the sequence ids of the
slot, are used up by tries, the ids of the open-owner are not.

The loop is `Interaction.retry` with a verdict on each answer (`openLoop_eq`), so that the count is a
fact about any such loop (`retry_play`). What is left is what `do_open` does with the first other
answer `R`, and with the answer `C` to its OPEN_CONFIRM: `concludeOpen` is a function of them and of
fields that no try changes.
-/

namespace NfsClient

open Xdr Reader Interaction

/-! ### Verdicts -/

/-- What a try comes to, if it is not to be repeated. -/
def tryVerdict (received : Received) : Option (Except Exn Bytes) :=
  match openVerdict received with
  | .ok none => none
  | .ok (some reply) => some (.ok reply)
  | .error e => some (.error e)

section Verdict

variable {α : Type} {q : CompoundCall α} {d : XdrDecoder α} {received : Received}

theorem tryVerdict_of_isGrace (h : IsGrace received) : tryVerdict received = none := by
  unfold tryVerdict
  rw [openVerdict_of_isGrace h]

/-- Every other answer ends the loop, and decides what comes of the OPEN. -/
theorem exists_tryVerdict (hq : q.decode = do checkCompoundStatus; d) (h : ¬ IsGrace received) :
    ∃ res, tryVerdict received = some res ∧
      (res.bind fun reply => (q.decode reply).map Prod.fst) = q.result received := by
  unfold tryVerdict CompoundCall.result
  cases hverdict : openVerdict received with
  | ok v =>
    cases v with
    | none => exact absurd (isGrace_of_openVerdict hverdict) h
    | some reply =>
      obtain ⟨hparse, -⟩ := openVerdict_some hverdict
      refine ⟨_, rfl, ?_⟩
      rw [hparse]
  | error e =>
    refine ⟨_, rfl, ?_⟩
    cases hparse : received.bind parseReply with
    -- no reply at all: the exception is that of the transport
    | error e' =>
      obtain rfl := Except.error.inj (hverdict.symm.trans (openVerdict_of_error hparse))
      rfl
    | ok reply =>
      obtain ⟨_, -, hverdict'⟩ | ⟨_, -, hverdict'⟩ | ⟨e', hstatus, hverdict'⟩ :=
        openVerdict_cases hparse
      · exact nomatch hverdict.symm.trans hverdict'
      · exact nomatch hverdict.symm.trans hverdict'
      · -- the check throws, and so does the decoder that begins with it
        obtain rfl := Except.error.inj (hverdict.symm.trans hverdict')
        simp only [Except.bind]
        rw [hq, bind_error.mpr (Or.inl hstatus)]
        rfl

end Verdict

/-! ### What came from where -/

/-- The result of the OPEN begins with the stateid and the flags that are decoded. -/
theorem CompoundCall.opened_of_result {q : CompoundCall (Open4Result × Nfs4Fh)}
    {d : XdrDecoder (Open4Result × Nfs4Fh)} {os : List Op} {received : Received}
    {open_res : Open4Result} {fh : Nfs4Fh} (hq : q.decode = do checkCompoundStatus; d)
    (hd : ReadsBehind d os decodeOpened) (hv : q.result received = .ok (open_res, fh)) :
    Opened os received open_res.stateid open_res.rflags := by
  obtain ⟨mid, hmid, rest, hdecode⟩ := (CompoundCall.result_behind hq hd).mp hv
  obtain ⟨open_res', rest', hopen, hdecode⟩ := bind_ok.mp hdecode
  obtain ⟨fh', rest'', -, hdecode⟩ := bind_ok.mp hdecode
  obtain ⟨heq, -⟩ := pure_ok.mp hdecode
  obtain ⟨rfl, rfl⟩ := Prod.mk.inj heq
  -- the fields of the OPEN, in order
  obtain ⟨_, m₁, hstatus, hopen⟩ := bind_ok.mp hopen
  obtain ⟨stateid, m₂, hstateid, hopen⟩ := bind_ok.mp hopen
  obtain ⟨_, m₃, hcinfo, hopen⟩ := bind_ok.mp hopen
  obtain ⟨rflags, m₄, hrflags, hopen⟩ := bind_ok.mp hopen
  obtain ⟨_, _, -, hopen⟩ := bind_ok.mp hopen
  obtain ⟨_, _, -, hopen⟩ := bind_ok.mp hopen
  obtain ⟨_, _, -, hopen⟩ := bind_ok.mp hopen
  obtain ⟨rfl, -⟩ := pure_ok.mp hopen
  obtain ⟨code, rfl⟩ := opStatus_ok.mp hstatus
  obtain ⟨atomic, _, hatomic, hcinfo⟩ := bind_ok.mp hcinfo
  obtain ⟨before, _, hbefore, hcinfo⟩ := bind_ok.mp hcinfo
  obtain ⟨after, _, hafter, hcinfo⟩ := bind_ok.mp hcinfo
  obtain ⟨-, rfl⟩ := pure_ok.mp hcinfo
  rw [decodeStateid4_ok.mp hstateid, getUint32_ok.mp hatomic, getUint64_ok.mp hbefore,
    getUint64_ok.mp hafter, getUint32_ok.mp hrflags] at hmid
  exact ⟨0, code, atomic, before, after, m₄, hmid⟩

/-! ### A later connection -/

/-- The connection after `n` more calls. -/
def TcpRpcClient.later (rpc : TcpRpcClient) (n : ℕ) : TcpRpcClient :=
  { rpc with xid_ := rpc.xid_ + UInt32.ofNat n }

theorem TcpRpcClient.later_zero (rpc : TcpRpcClient) : rpc.later 0 = rpc := by
  have hzero : rpc.xid_ + UInt32.ofNat 0 = rpc.xid_ := UInt32.add_zero _
  unfold later
  rw [hzero]

theorem TcpRpcClient.bump_later (rpc : TcpRpcClient) (n : ℕ) :
    (rpc.later n).bump = rpc.later (n + 1) := by
  have hsucc : rpc.xid_ + UInt32.ofNat n + 1 = rpc.xid_ + UInt32.ofNat (n + 1) := by
    rw [UInt32.ofNat_add, UInt32.add_assoc]
    rfl
  unfold later bump
  rw [hsucc]

theorem TcpRpcClient.later_bump (rpc : TcpRpcClient) (n : ℕ) :
    (rpc.later n).bump = rpc.bump.later n := by
  have hcomm : rpc.xid_ + UInt32.ofNat n + 1 = rpc.xid_ + 1 + UInt32.ofNat n :=
    add_right_comm _ _ _
  unfold later bump
  rw [hcomm]

/-- The same request with a later RPC id. -/
def RpcRequest.later (q : RpcRequest) (n : ℕ) : RpcRequest :=
  { q with xid := q.xid + UInt32.ofNat n }

/-! ### Nfs4Client -/

namespace Nfs4Client

theorem openLoop_eq {α : Type} (q : CompoundCall α) : ∀ (fuel : ℕ) (c : Nfs4Client),
    openLoop q fuel c = retry (fun c => c.request q) sent tryVerdict fuel c
  | 0, _ => rfl
  | fuel + 1, c => by
    have hcall : onRpc (callCompound q.tag q.ops q.numOps 0) c
        = .call (c.request q) fun r => .done (r.bind parseReply, c.sent) := rfl
    refine (ClientM.bind_of_call hcall).trans (congrArg _ (funext fun r => ?_))
    unfold tryVerdict
    cases hparse : r.bind parseReply with
    | error e => rw [openVerdict_of_error hparse]
    | ok reply =>
      have harms := openVerdict_arms hparse (fun reply => (pure reply : ClientM Nfs4Client Bytes))
        (openLoop q fuel) ClientM.throw
      refine (congrFun harms c.sent).trans ?_
      rcases openVerdict r with e | _ | reply'
      · rfl
      · exact openLoop_eq q fuel c.sent
      · rfl

/-- What `do_open` does with the answer to its OPEN. -/
def concludeOpen (seqid : UInt32) (answer : Except Exn (Open4Result × Nfs4Fh)) (c : Nfs4Client) :
    Prog RpcRequest Received (Except Exn Nfs4File × Nfs4Client) :=
  match answer with
  | .error e => .done (.error e, c)
  | .ok (open_res, fh) =>
    if open_res.rflags &&& OPEN4_RESULT_CONFIRM ≠ 0 then
      let q := openConfirm fh open_res.stateid (c.open_seqid_ + 1)
      .call (c.opened.request q) fun r =>
        .done ((q.result r).map fun stateid => ⟨fh, stateid, c.open_seqid_ + 1⟩, c.opened.sent)
    else .done (.ok ⟨fh, open_res.stateid, seqid⟩, c)

/-- `do_open`: the retry loop, and what comes after it. -/
theorem doOpen_eq (fuel : ℕ) (dir : Nfs4Fh) (name : Bytes) (share_access : UInt32) (create : Bool)
    (c : Nfs4Client) :
    let q := openFile dir name share_access create c.clientid_ (c.open_seqid_ + 1)
    doOpen fuel dir name share_access create c =
      (retry (fun c => c.request q) sent tryVerdict fuel c.opened).bind fun x =>
        concludeOpen (c.open_seqid_ + 1)
          (x.1.bind fun reply => (q.decode reply).map Prod.fst) x.2 := by
  intro q
  rw [← openLoop_eq]
  change (openLoop q fuel c.opened).bind _ = _
  refine congrArg _ (funext fun ⟨res, c'⟩ => ?_)
  cases res with
  | error e => rfl
  | ok reply =>
    change (ClientM.decode q.decode reply c').bind _ = _
    unfold ClientM.decode
    simp only [Except.bind]
    cases q.decode reply with
    | error e => rfl
    | ok x =>
      obtain ⟨⟨open_res, fh⟩, rest⟩ := x
      simp only [Except.map, Prog.bind_done, concludeOpen]
      split
      · change (onRpc _ >>= _) c'.opened = _
        refine (ClientM.bind_of_call (onRpc_send_eq _ c'.opened)).trans
          (congrArg _ (funext fun r => ?_))
        cases CompoundCall.result _ r with
        | error e => rfl
        | ok stateid => rfl
      · rfl

/-- The client after `n` more COMPOUNDs, which have cost it RPC ids and nothing else. -/
def later (c : Nfs4Client) (n : ℕ) : Nfs4Client := { c with rpc_ := c.rpc_.later n }

theorem iterate_sent (c : Nfs4Client) (n : ℕ) : sent^[n] c = c.later n := by
  induction n with
  | zero => exact congrArg (fun rpc => { c with rpc_ := rpc }) c.rpc_.later_zero.symm
  | succ n ih =>
    rw [Function.iterate_succ_apply', ih]
    exact congrArg (fun rpc => { c with rpc_ := rpc }) (c.rpc_.bump_later n)

theorem later_sent (c : Nfs4Client) (n : ℕ) : (c.later n).sent = c.sent.later n :=
  congrArg (fun rpc => { c with rpc_ := rpc }) (c.rpc_.later_bump n)

/-- What is known of a file that `do_open` returns after the answers `R` and, if it has asked for it,
`C`: where it comes from in them, and what was sent behind the OPENs. -/
def Returns (c : Nfs4Client) (dir : Nfs4Fh) (R C : Received) (confirm : List RpcRequest)
    (f : Nfs4File) : Prop :=
  HandleReturned [(fhOp dir).1, .OPEN] R f.fh.data ∧
  ∃ stateid rflags, Opened [(fhOp dir).1] R stateid rflags ∧
    if rflags &&& OPEN4_RESULT_CONFIRM ≠ 0 then
      Confirmed C f.stateid ∧ f.seqid = c.open_seqid_ + 2 ∧
        ∃ x, confirm = [x] ∧ x.Carries [fhOp f.fh, ⟨.OPEN_CONFIRM, (stateid, f.seqid)⟩]
    else f.stateid = stateid ∧ f.seqid = c.open_seqid_ + 1 ∧ confirm = []

/-- What follows the last OPEN is the same at any time. -/
theorem concludeOpen_play (c : Nfs4Client) (dir : Nfs4Fh) (name : Bytes) (share_access : UInt32)
    (create : Bool) (R C : Received) :
    let q := openFile dir name share_access create c.clientid_ (c.open_seqid_ + 1)
    ∃ (confirm : List RpcRequest) (r : Except Exn Nfs4File) (c₀ : Nfs4Client), (∀ x ∈ confirm, x.IsOpenConfirm) ∧
      (∀ f, r = .ok f → c.Returns dir R C confirm f) ∧
      ∀ n, (concludeOpen (c.open_seqid_ + 1) (q.result R) (c.opened.sent.later n)).play [C] =
        (confirm.map (RpcRequest.later · n), some (r, c₀.later n)) := by
  intro q
  unfold concludeOpen
  cases hresult : q.result R with
  | error e =>
    refine ⟨[], .error e, c.opened.sent, fun _ hx => absurd hx List.not_mem_nil, ?_, fun n => rfl⟩
    intro f hf
    cases hf
  | ok x =>
    obtain ⟨open_res, fh⟩ := x
    have hfh := CompoundCall.openHandleReturned rfl (decodeOpenResults_behind dir) hresult
    have hopened := CompoundCall.opened_of_result rfl (decodeOpenResults_behind dir) hresult
    -- what was decoded is the same for every `n`, only the connection is later
    by_cases hflags : open_res.rflags &&& OPEN4_RESULT_CONFIRM ≠ 0
    · let q' := openConfirm fh open_res.stateid (c.open_seqid_ + 1 + 1)
      let file : Stateid4 → Nfs4File := fun stateid => ⟨fh, stateid, c.open_seqid_ + 1 + 1⟩
      refine ⟨[c.opened.sent.opened.request q'], (q'.result C).map file,
        c.opened.sent.opened.sent, ?_, ?_, fun n => ?_⟩
      · exact List.forall_mem_singleton.mpr (Asks.isOpenConfirm ⟨_, rfl⟩)
      · intro f hf
        cases hconfirm : q'.result C with
        | error e =>
          rw [hconfirm] at hf
          cases hf
        | ok stateid =>
          rw [hconfirm] at hf
          cases hf
          refine ⟨hfh, open_res.stateid, open_res.rflags, hopened, ?_⟩
          rw [if_pos hflags]
          refine ⟨openConfirm_confirmed hconfirm, UInt32.add_assoc _ _ _, _, rfl, 0, ?_⟩
          exact (openConfirm_announces fh open_res.stateid _).compoundArgs 0
      · simp only [if_pos hflags]
        -- the OPEN_CONFIRM uses up one more id on the later connection too
        have hsent := later_sent c.opened.sent.opened n
        exact congrArg (fun c' => ([(c.opened.sent.opened.request q').later n],
          some ((q'.result C).map file, c'))) hsent
    · refine ⟨[], .ok ⟨fh, open_res.stateid, c.open_seqid_ + 1⟩, c.opened.sent,
        fun _ hx => absurd hx List.not_mem_nil, ?_, fun n => ?_⟩
      · intro f hf
        cases hf
        refine ⟨hfh, open_res.stateid, open_res.rflags, hopened, ?_⟩
        rw [if_neg hflags]
        exact ⟨rfl, rfl, rfl⟩
      · simp only [if_neg hflags]
        rfl

/-- The OPENs of a client, each with the same arguments: only the RPC id is another one. -/
def opens (c : Nfs4Client) (dir : Nfs4Fh) (name : Bytes) (share_access : UInt32) (create : Bool)
    (n : ℕ) : List RpcRequest :=
  (List.range n).map fun i => (c.opened.later i).request
    (openFile dir name share_access create c.clientid_ (c.open_seqid_ + 1))

theorem opens_alike {c : Nfs4Client} {dir : Nfs4Fh} {name : Bytes} {share_access : UInt32}
    {create : Bool} {n : ℕ} {x : RpcRequest} (hx : x ∈ c.opens dir name share_access create n) :
    x.IsOpen (c.open_seqid_ + 1) ∧ x = { c.opened.request (openFile dir name share_access create
      c.clientid_ (c.open_seqid_ + 1)) with xid := x.xid } := by
  obtain ⟨i, -, rfl⟩ := List.mem_map.mp hx
  exact ⟨Asks.isOpen ⟨_, rfl⟩, rfl⟩

theorem doOpen_play (c : Nfs4Client) (dir : Nfs4Fh) (name : Bytes) (share_access : UInt32)
    (create : Bool) {R C : Received} (hR : ¬ IsGrace R) (fuel : ℕ) :
    ∃ (confirm : List RpcRequest) (r : Except Exn Nfs4File) (c₀ : Nfs4Client),
      (∀ x ∈ confirm, x.IsOpenConfirm) ∧ (∀ f, r = .ok f → c.Returns dir R C confirm f) ∧
      ∀ graces : List Received, (∀ g ∈ graces, IsGrace g) →
        (doOpen (graces.length + (fuel + 1)) dir name share_access create c).play
            (graces ++ [R, C]) =
          (c.opens dir name share_access create (graces.length + 1) ++
            confirm.map (RpcRequest.later · graces.length), some (r, c₀.later graces.length)) := by
  obtain ⟨confirm, r, c₀, hconfirm, hr, hplay⟩ :=
    concludeOpen_play c dir name share_access create R C
  refine ⟨confirm, r, c₀, hconfirm, hr, fun graces hgraces => ?_⟩
  obtain ⟨res, hverdict, hres⟩ := exists_tryVerdict
    (q := openFile dir name share_access create c.clientid_ (c.open_seqid_ + 1)) rfl hR
  rw [doOpen_eq, retry_play hverdict [C] fuel graces c.opened
    fun g hg => tryVerdict_of_isGrace (hgraces g hg)]
  have hstate : sent^[graces.length + 1] c.opened = c.opened.sent.later graces.length :=
    iterate_sent c.opened.sent graces.length
  simp only [hstate, hres, hplay, iterate_sent]
  rfl

end Nfs4Client

/-! ### Nfs41Client -/

namespace Nfs41Client

theorem openLoop_eq {α : Type} (q : CompoundCall α) : ∀ (fuel : ℕ) (c : Nfs41Client),
    openLoop q fuel c = retry (fun c => c.request q) sent tryVerdict fuel c
  | 0, _ => rfl
  | fuel + 1, c => by
    have hcall : compound41 q.tag q.ops q.numOps c
        = .call (c.request q) fun r => .done (r.bind parseReply, c.sent) := rfl
    refine (ClientM.bind_of_call hcall).trans (congrArg _ (funext fun r => ?_))
    unfold tryVerdict
    cases hparse : r.bind parseReply with
    | error e => rw [openVerdict_of_error hparse]
    | ok reply =>
      have harms := openVerdict_arms hparse (fun reply => (pure reply : ClientM Nfs41Client Bytes))
        (openLoop q fuel) ClientM.throw
      refine (congrFun harms c.sent).trans ?_
      rcases openVerdict r with e | _ | reply'
      · rfl
      · exact openLoop_eq q fuel c.sent
      · rfl

/-- What `do_open` makes of the answer to its OPEN. -/
def concludeOpen (seqid : UInt32) (answer : Except Exn (Open4Result × Nfs4Fh)) :
    Except Exn Nfs4File :=
  answer.bind fun (open_res, fh) =>
    if open_res.rflags &&& OPEN4_RESULT_CONFIRM ≠ 0 then
      .error (.runtimeError "NFSv4.1 server set OPEN4_RESULT_CONFIRM — protocol error")
    else .ok ⟨fh, open_res.stateid, seqid⟩

/-- `do_open`: the retry loop, and what comes after it. -/
theorem doOpen_eq (fuel : ℕ) (dir : Nfs4Fh) (name : Bytes) (share_access : UInt32) (create : Bool)
    (c : Nfs41Client) :
    let q := openFile dir name share_access create c.clientid_ (c.open_seqid_ + 1)
    doOpen fuel dir name share_access create c =
      (retry (fun c => c.request q) sent tryVerdict fuel c.opened).bind fun x =>
        .done (concludeOpen (c.open_seqid_ + 1)
          (x.1.bind fun reply => (q.decode reply).map Prod.fst), x.2) := by
  intro q
  rw [← openLoop_eq]
  change (openLoop q fuel c.opened).bind _ = _
  refine congrArg _ (funext fun ⟨res, c'⟩ => ?_)
  cases res with
  | error e => rfl
  | ok reply =>
    change (ClientM.decode q.decode reply c').bind _ = _
    unfold ClientM.decode
    simp only [Except.bind]
    cases q.decode reply with
    | error e => rfl
    | ok x =>
      obtain ⟨⟨open_res, fh⟩, rest⟩ := x
      simp only [Except.map, Prog.bind_done, concludeOpen, Except.bind]
      split
      · rfl
      · rfl

/-- The client after `n` more COMPOUNDs, which have cost it RPC ids and sequence ids of its slot. -/
def later (c : Nfs41Client) (n : ℕ) : Nfs41Client :=
  { c with rpc_ := c.rpc_.later n, slot_seqid_ := c.slot_seqid_ + UInt32.ofNat n }

theorem iterate_sent (c : Nfs41Client) (n : ℕ) : sent^[n] c = c.later n := by
  induction n with
  | zero =>
    have hzero : c.slot_seqid_ + UInt32.ofNat 0 = c.slot_seqid_ := UInt32.add_zero _
    unfold later
    rw [c.rpc_.later_zero, hzero]
    rfl
  | succ n ih =>
    have hsucc : c.slot_seqid_ + UInt32.ofNat n + 1 = c.slot_seqid_ + UInt32.ofNat (n + 1) := by
      rw [UInt32.ofNat_add, UInt32.add_assoc]
      rfl
    rw [Function.iterate_succ_apply', ih]
    unfold later sent
    rw [← c.rpc_.bump_later n, ← hsucc]

/-- What is known of a file that `do_open` returns after the answer `R`. -/
def Returns (c : Nfs41Client) (dir : Nfs4Fh) (R : Received) (f : Nfs4File) : Prop :=
  HandleReturned [.SEQUENCE, (fhOp dir).1, .OPEN] R f.fh.data ∧
  ∃ rflags, Opened [.SEQUENCE, (fhOp dir).1] R f.stateid rflags ∧
    rflags &&& OPEN4_RESULT_CONFIRM = 0 ∧ f.seqid = c.open_seqid_ + 1

/-- The OPENs of a client, each with the same operations: only the RPC id and the sequence id of the
slot are others. -/
def opens (c : Nfs41Client) (dir : Nfs4Fh) (name : Bytes) (share_access : UInt32) (create : Bool)
    (n : ℕ) : List RpcRequest :=
  (List.range n).map fun i => (c.opened.later i).request
    (openFile dir name share_access create c.clientid_ (c.open_seqid_ + 1))

theorem opens_alike {c : Nfs41Client} {dir : Nfs4Fh} {name : Bytes} {share_access : UInt32}
    {create : Bool} {n : ℕ} {x : RpcRequest} (hx : x ∈ c.opens dir name share_access create n) :
    x.IsSequencedOpen (c.open_seqid_ + 1) ∧ ∃ slot_seqid,
      x = { { c.opened with slot_seqid_ := slot_seqid }.request (openFile dir name share_access create
        c.clientid_ (c.open_seqid_ + 1)) with xid := x.xid } := by
  obtain ⟨i, -, rfl⟩ := List.mem_map.mp hx
  exact ⟨Asks.isSequencedOpen ⟨_, rfl⟩, c.slot_seqid_ + UInt32.ofNat i, rfl⟩

theorem concludeOpen_returns {c : Nfs41Client} {dir : Nfs4Fh} {name : Bytes}
    {share_access : UInt32} {create : Bool} {R : Received} {f : Nfs4File}
    (h : concludeOpen (c.open_seqid_ + 1) ((openFile dir name share_access create c.clientid_
      (c.open_seqid_ + 1)).result R) = .ok f) : c.Returns dir R f := by
  have hbehind : ReadsBehind (do decodeSequence41Result; decodeOpenResults)
      [.SEQUENCE, (fhOp dir).1] decodeOpened := .cons Iff.rfl (decodeOpenResults_behind dir)
  unfold concludeOpen at h
  cases hresult : (openFile dir name share_access create c.clientid_ (c.open_seqid_ + 1)).result R with
  | error e =>
    rw [hresult] at h
    cases h
  | ok x =>
    obtain ⟨open_res, fh⟩ := x
    have hfh := CompoundCall.openHandleReturned rfl hbehind hresult
    have hopened := CompoundCall.opened_of_result rfl hbehind hresult
    rw [hresult] at h
    simp only [Except.bind] at h
    split at h
    · cases h
    -- a server that asks for a confirmation is refused, so it has not
    · next hflags =>
      cases h
      exact ⟨hfh, open_res.rflags, hopened, not_not.mp hflags, rfl⟩

theorem doOpen_play (c : Nfs41Client) (dir : Nfs4Fh) (name : Bytes) (share_access : UInt32)
    (create : Bool) {R : Received} (hR : ¬ IsGrace R) (rest : List Received) (fuel : ℕ) :
    ∃ (r : Except Exn Nfs4File) (c₀ : Nfs41Client), (∀ f, r = .ok f → c.Returns dir R f) ∧
      ∀ graces : List Received, (∀ g ∈ graces, IsGrace g) →
        (doOpen (graces.length + (fuel + 1)) dir name share_access create c).play
            (graces ++ R :: rest) =
          (c.opens dir name share_access create (graces.length + 1),
            some (r, c₀.later graces.length)) := by
  let q := openFile dir name share_access create c.clientid_ (c.open_seqid_ + 1)
  refine ⟨concludeOpen (c.open_seqid_ + 1) (q.result R), c.opened.sent,
    fun f hf => concludeOpen_returns hf, fun graces hgraces => ?_⟩
  obtain ⟨res, hverdict, hres⟩ := exists_tryVerdict (q := q) rfl hR
  rw [doOpen_eq, retry_play hverdict rest fuel graces c.opened
    fun g hg => tryVerdict_of_isGrace (hgraces g hg)]
  have hstate : sent^[graces.length + 1] c.opened = c.opened.sent.later graces.length :=
    iterate_sent c.opened.sent graces.length
  simp only [hstate, iterate_sent]
  rw [show openFile dir name share_access create c.clientid_ (c.open_seqid_ + 1) = q from rfl, hres,
    Prog.play, List.append_nil]
  rfl

end Nfs41Client

/-! ### Both clients -/

/-- **GRACE retries are transparent.** After any answers that are GRACE, `do_open` ends on `R`, which is
not, and on `C`, as it ends on them alone. For each answer that is GRACE it has sent one OPEN more. -/
theorem grace_retries_transparent (dir : Nfs4Fh) (name : Bytes) (share_access : UInt32)
    (create : Bool) (R C : Received) (hR : ¬ IsGrace R) (fuel : ℕ) :
    (∀ c : Nfs4Client,
      (∀ n, ∀ x ∈ c.opens dir name share_access create n, x.IsOpen (c.open_seqid_ + 1) ∧
        x = { c.opened.request (Nfs4Client.openFile dir name share_access create c.clientid_
          (c.open_seqid_ + 1)) with xid := x.xid }) ∧
      ∃ (confirm : List RpcRequest) (r : Except Exn Nfs4File) (c₀ : Nfs4Client),
        (∀ x ∈ confirm, x.IsOpenConfirm) ∧ (∀ f, r = .ok f → c.Returns dir R C confirm f) ∧
        ∀ graces : List Received, (∀ g ∈ graces, IsGrace g) →
          (Nfs4Client.doOpen (graces.length + (fuel + 1)) dir name share_access create c).play
              (graces ++ [R, C]) =
            (c.opens dir name share_access create (graces.length + 1) ++
              confirm.map (RpcRequest.later · graces.length), some (r, c₀.later graces.length))) ∧
    ∀ c : Nfs41Client,
      (∀ n, ∀ x ∈ c.opens dir name share_access create n, x.IsSequencedOpen (c.open_seqid_ + 1) ∧
        ∃ slot_seqid, x = { { c.opened with slot_seqid_ := slot_seqid }.request
          (Nfs41Client.openFile dir name share_access create c.clientid_ (c.open_seqid_ + 1))
            with xid := x.xid }) ∧
      ∃ (r : Except Exn Nfs4File) (c₀ : Nfs41Client), (∀ f, r = .ok f → c.Returns dir R f) ∧
        ∀ graces : List Received, (∀ g ∈ graces, IsGrace g) →
          (Nfs41Client.doOpen (graces.length + (fuel + 1)) dir name share_access create c).play
              (graces ++ [R, C]) =
            (c.opens dir name share_access create (graces.length + 1),
              some (r, c₀.later graces.length)) :=
  ⟨fun c => ⟨fun _ _ hx => Nfs4Client.opens_alike hx,
      c.doOpen_play dir name share_access create hR fuel⟩,
    fun c => ⟨fun _ _ hx => Nfs41Client.opens_alike hx,
      c.doOpen_play dir name share_access create hR [C] fuel⟩⟩

/-- A try is answered with GRACE, the next one with an error. -/
theorem grace_then_error : ∃ (confirm : List RpcRequest) (r : Except Exn Nfs4File) (c₀ : Nfs4Client),
    (Nfs4Client.doOpen 2 ⟨[]⟩ [97] OPEN4_SHARE_ACCESS_READ false Nfs4Client.fresh).play
        [graceRecord, .ok (acceptedHeader 1 0 [] ++ leakyReply), .ok []] =
      (Nfs4Client.fresh.opens ⟨[]⟩ [97] OPEN4_SHARE_ACCESS_READ false 2 ++
        confirm.map (RpcRequest.later · 1), some (r, c₀.later 1)) := by
  have hparse : ∀ body, Except.bind (.ok (acceptedHeader 1 0 [] ++ body)) parseReply
      = .ok body := parseReply_accepted 1 0 length_nil_lt
  have hleaky : ¬ IsGrace (.ok (acceptedHeader 1 0 [] ++ leakyReply)) := fun h =>
    absurd (h.status_eq ⟨_, hparse leakyReply⟩) (by decide)
  obtain ⟨confirm, r, c₀, -, -, hplay⟩ := ((grace_retries_transparent ⟨[]⟩ [97]
    OPEN4_SHARE_ACCESS_READ false _ (.ok []) hleaky 0).1 Nfs4Client.fresh).2
  exact ⟨confirm, r, c₀, hplay [graceRecord] (List.forall_mem_singleton.mpr ⟨_, hparse _⟩)⟩

end NfsClient
