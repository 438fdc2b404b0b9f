import NfsClient.Nfs4.Accepted

/-!
# Runs of do_open

`do_open` sends its OPEN again as long as the answer is that the server is in its grace period, and
everything after that depends on the first answer that is another one. `OpenRun` lists the runs that
come to an end, with what comes of each, and `wpM_doOpen_run` says that there are no others.

The id of the open-owner is chosen before the loop, so that an OPEN that is sent again has the id of
the one before. The server has used that id up for its answer; `open_repeated_only_after_grace` says
that GRACE is the only such answer after which the id is repeated.
-/

namespace NfsClient

open Xdr Reader Interaction

/-! ### Results in their places -/

/-- The bytes begin with a result for each of the operations, in order, and go on with `rest`. -/
def ResultsThen : List Op → Bytes → Bytes → Prop
  | [], bs, rest => bs = rest
  | o :: os, bs, rest => ∃ mid, o.Takes bs mid ∧ ResultsThen os mid rest

theorem Op.takes_unique {o : Op} {bs rest rest' : Bytes} (h : o.Takes bs rest)
    (h' : o.Takes bs rest') : rest = rest' := by
  have hunique : ∀ {α : Type} {d : XdrDecoder α}, Reader.Takes d bs rest → Reader.Takes d bs rest' →
      rest = rest' := by
    rintro α d ⟨a, ha⟩ ⟨a', ha'⟩
    exact (Prod.mk.inj (Except.ok.inj (ha.symm.trans ha'))).2
  cases o <;> exact hunique h h'

theorem ResultsThen.unique : ∀ {os : List Op} {bs rest rest' : Bytes},
    ResultsThen os bs rest → ResultsThen os bs rest' → rest = rest'
  | [], _, _, _, h, h' => h.symm.trans h'
  | _ :: _, _, _, _, ⟨mid, hmid, h⟩, ⟨mid', hmid', h'⟩ => by
    obtain rfl := Op.takes_unique hmid hmid'
    exact h.unique h'

theorem ResultsThen.concat {o : Op} {rest rest' : Bytes} (ho : o.Takes rest rest') :
    ∀ {os : List Op} {bs : Bytes}, ResultsThen os bs rest → ResultsThen (os ++ [o]) bs rest'
  | [], _, h => by
    obtain rfl := h
    exact ⟨rest', ho, rfl⟩
  | _ :: _, _, ⟨mid, hmid, h⟩ => ⟨mid, hmid, h.concat ho⟩

/-- A reply with this outer status, in which the results of the operations are followed by `rest`. -/
def Behind (os : List Op) (received : Received) (status : UInt32) (rest : Bytes) : Prop :=
  ∃ tag tagBytes numops results, StringBytes tag tagBytes ∧
    received.bind parseReply = .ok (word status ++ (tagBytes ++ (word numops ++ results))) ∧
    ResultsThen os results rest

/-- A decoder reads results for the operations and drops them, and goes on as `d'`. -/
def ReadsBehind {α : Type} (d : XdrDecoder α) (os : List Op) (d' : XdrDecoder α) : Prop :=
  ∀ bs v, (∃ rest, d bs = .ok (v, rest)) ↔
    ∃ mid, ResultsThen os bs mid ∧ ∃ rest, d' mid = .ok (v, rest)

theorem ReadsBehind.nil {α : Type} (d : XdrDecoder α) : ReadsBehind d [] d := by
  intro bs v
  constructor
  · exact fun h => ⟨bs, rfl, h⟩
  · rintro ⟨_, rfl, h⟩
    exact h

theorem ReadsBehind.cons {α : Type} {e : XdrDecoder Unit} {d d' : XdrDecoder α} {o : Op}
    {os : List Op} (he : ∀ {bs rest}, o.Takes bs rest ↔ Takes e bs rest)
    (hd : ReadsBehind d os d') : ReadsBehind (do e; d) (o :: os) d' := by
  intro bs v
  constructor
  · rintro ⟨rest, h⟩
    obtain ⟨u, mid, hu, h⟩ := bind_ok.mp h
    obtain ⟨mid', hmid', h'⟩ := (hd mid v).mp ⟨rest, h⟩
    exact ⟨mid', ⟨mid, he.mpr ⟨u, hu⟩, hmid'⟩, h'⟩
  · rintro ⟨mid', ⟨mid, hmid, hmid'⟩, h'⟩
    obtain ⟨u, hu⟩ := he.mp hmid
    obtain ⟨rest, h⟩ := (hd mid v).mpr ⟨mid', hmid', h'⟩
    exact ⟨rest, bind_ok.mpr ⟨u, mid, hu, h⟩⟩

section Behind

variable {α : Type} {q : CompoundCall α} {d d' : XdrDecoder α} {os : List Op} {received : Received}
  {status : UInt32} {mid : Bytes} {v : α}

/-- What a call returns is read behind the results of its first operations. -/
theorem CompoundCall.result_behind (hq : q.decode = do checkCompoundStatus; d)
    (hd : ReadsBehind d os d') :
    q.result received = .ok v ↔
      ∃ mid, Behind os received 0 mid ∧ ∃ rest, d' mid = .ok (v, rest) := by
  rw [CompoundCall.result_ok]
  constructor
  · rintro ⟨reply, rest, hparse, hdecode⟩
    rw [hq] at hdecode
    obtain ⟨u, results, hstatus, hresults⟩ := bind_ok.mp hdecode
    obtain ⟨tag, tagBytes, numops, htag, rfl⟩ := checkCompoundStatus_ok.mp hstatus
    obtain ⟨mid, hmid, h'⟩ := (hd results v).mp ⟨rest, hresults⟩
    exact ⟨mid, ⟨tag, tagBytes, numops, results, htag, hparse, hmid⟩, h'⟩
  · rintro ⟨mid, ⟨tag, tagBytes, numops, results, htag, hparse, hmid⟩, h'⟩
    obtain ⟨rest, h⟩ := (hd results v).mpr ⟨mid, hmid, h'⟩
    refine ⟨_, rest, hparse, ?_⟩
    rw [hq]
    exact bind_ok.mpr ⟨(), results, checkCompoundStatus_ok.mpr ⟨tag, tagBytes, numops, htag, rfl⟩, h⟩

/-- There is one place behind the results. -/
theorem Behind.unique {mid' : Bytes} (h : Behind os received 0 mid)
    (h' : Behind os received status mid') : mid = mid' := by
  obtain ⟨tag, tagBytes, numops, results, htag, hparse, hmid⟩ := h
  obtain ⟨tag', tagBytes', numops', results', htag', hparse', hmid'⟩ := h'
  have hbytes := Except.ok.inj (hparse.symm.trans hparse')
  obtain ⟨hstatus, -⟩ := List.append_inj hbytes rfl
  obtain rfl := word_injective hstatus
  have hread : checkCompoundStatus (word 0 ++ (tagBytes ++ (word numops ++ results)))
      = .ok ((), results) := checkCompoundStatus_ok.mpr ⟨tag, tagBytes, numops, htag, rfl⟩
  have hread' : checkCompoundStatus (word 0 ++ (tagBytes' ++ (word numops' ++ results')))
      = .ok ((), results') := checkCompoundStatus_ok.mpr ⟨tag', tagBytes', numops', htag', rfl⟩
  rw [hbytes] at hread
  obtain ⟨-, rfl⟩ := Prod.mk.inj (Except.ok.inj (hread.symm.trans hread'))
  exact hmid.unique hmid'

/-- The verdict of the retry loop, and what is decoded then, come to the result of the call. -/
theorem CompoundCall.result_of_verdict {res : Except Exn Bytes}
    (hq : q.decode = do checkCompoundStatus; d) (h : openVerdict received = res.map some) :
    q.result received = .ok v ↔
      (res.bind fun reply => (q.decode reply).map Prod.fst) = .ok v := by
  rw [CompoundCall.result_ok]
  constructor
  · rintro ⟨reply, rest, hparse, hdecode⟩
    -- what decodes has passed the check with which the decoder begins
    have hverdict : openVerdict received = .ok (some reply) := by
      rw [hq] at hdecode
      obtain ⟨u, mid, hstatus, -⟩ := bind_ok.mp hdecode
      exact openVerdict_of_status_ok hparse hstatus
    rw [hverdict] at h
    cases res with
    | error e => cases h
    | ok reply' =>
      cases h
      exact value_ok.mpr ⟨rest, hdecode⟩
  · intro hdecode
    cases res with
    | error e => cases hdecode
    | ok reply =>
      obtain ⟨rest, hrest⟩ := value_ok.mp hdecode
      exact ⟨reply, rest, (openVerdict_some h).1, hrest⟩

end Behind

/-! ### What is sent -/

/-- The request is a COMPOUND of these operations. -/
def RpcRequest.Carries (q : RpcRequest) (ops : List ArgOp) : Prop :=
  ∃ minorversion, q.args = Compound.format.write ⟨[], minorversion, ops⟩

namespace RpcRequest

/-- The COMPOUND of an OPEN with this id. -/
def IsOpen (q : RpcRequest) (seqid : UInt32) : Prop :=
  ∃ dir a, q.Carries [fhOp dir, ⟨.OPEN, a⟩, ⟨.GETFH, ()⟩] ∧ a.seqid = seqid

/-- The same in a session. -/
def IsSequencedOpen (q : RpcRequest) (seqid : UInt32) : Prop :=
  ∃ sessionid n dir a, q.Carries [Nfs41Client.sequenceOp sessionid n, fhOp dir, ⟨.OPEN, a⟩,
    ⟨.GETFH, ()⟩] ∧ a.seqid = seqid

/-- The COMPOUND of an OPEN_CONFIRM. -/
def IsOpenConfirm (q : RpcRequest) : Prop := ∃ fh a, q.Carries [fhOp fh, ⟨.OPEN_CONFIRM, a⟩]

/-- A request has one number of operations. -/
theorem Carries.length_eq {q : RpcRequest} {ops ops' : List ArgOp} (h : q.Carries ops)
    (h' : q.Carries ops') : UInt32.ofNat ops.length = UInt32.ofNat ops'.length := by
  obtain ⟨minorversion, hargs⟩ := h
  obtain ⟨minorversion', hargs'⟩ := h'
  have hwrite : ∀ (mv : UInt32) (l : List ArgOp), Compound.format.write ⟨[], mv, l⟩
      = varOpaque [] ++ (word mv ++ (word (UInt32.ofNat l.length) ++ writeOps l)) := fun _ _ => rfl
  rw [hargs, hwrite, hwrite] at hargs'
  obtain ⟨-, hargs'⟩ := List.append_inj hargs' rfl
  obtain ⟨-, hargs'⟩ := List.append_inj hargs' rfl
  exact word_injective (List.append_inj hargs' rfl).1

theorem IsOpenConfirm.not_isOpen {q : RpcRequest} {seqid : UInt32} (h : q.IsOpenConfirm) :
    ¬ q.IsOpen seqid := by
  obtain ⟨fh, a, h⟩ := h
  rintro ⟨dir, a', h', -⟩
  have hlength : UInt32.ofNat 2 = UInt32.ofNat 3 := h.length_eq h'
  exact absurd hlength (by decide)

end RpcRequest

/-! ### The retry loop -/

/-- Tries that were each answered with the wish that they be repeated. -/
def Retried (asks : RpcRequest → Prop) (log : List (RpcRequest × Received)) : Prop :=
  ∀ x ∈ log, asks x.1 ∧ IsGrace x.2

/-- The runs of the retry loop: tries, and a last one that is answered or fails. -/
inductive LoopRun (asks : RpcRequest → Prop) :
    List (RpcRequest × Received) → Except Exn Bytes → Prop
  | answered {log : List (RpcRequest × Received)} {q : RpcRequest} {r : Received} {reply : Bytes}
      (hlog : Retried asks log) (hq : asks q) (hr : openVerdict r = .ok (some reply)) :
      LoopRun asks (log ++ [(q, r)]) (.ok reply)
  | failed {log : List (RpcRequest × Received)} {q : RpcRequest} {r : Received} {e : Exn}
      (hlog : Retried asks log) (hq : asks q) (hr : openVerdict r = .error e) :
      LoopRun asks (log ++ [(q, r)]) (.error e)

theorem Retried.concat {asks : RpcRequest → Prop} {log : List (RpcRequest × Received)}
    {q : RpcRequest} {r : Received} (h : Retried asks log) (hq : asks q) (hr : IsGrace r) :
    Retried asks (log ++ [(q, r)]) :=
  List.forall_mem_append.mpr ⟨h, List.forall_mem_singleton.mpr ⟨hq, hr⟩⟩

/-- The last answer of the loop is not the wish that the OPEN be repeated. -/
theorem LoopRun.split {asks : RpcRequest → Prop} {log : List (RpcRequest × Received)}
    {res : Except Exn Bytes} (h : LoopRun asks log res) :
    ∃ tries x, log = tries ++ [x] ∧ Retried asks tries ∧ asks x.1 ∧ ¬ IsGrace x.2 ∧
      openVerdict x.2 = res.map some := by
  cases h with
  | answered hlog hq hr =>
    refine ⟨_, _, rfl, hlog, hq, fun hgrace => ?_, hr⟩
    rw [openVerdict_of_isGrace hgrace] at hr
    cases hr
  | failed hlog hq hr =>
    refine ⟨_, _, rfl, hlog, hq, fun hgrace => ?_, hr⟩
    rw [openVerdict_of_isGrace hgrace] at hr
    cases hr

/-- The loop hands over the first answer that is not GRACE. -/
theorem LoopRun.exists_answer {α : Type} {q : CompoundCall α} {d : XdrDecoder α}
    {asks : CompoundCall α → RpcRequest → Prop}
    {log : List (RpcRequest × Received)} {res : Except Exn Bytes} (h : LoopRun (asks q) log res)
    (hq : q.decode = do checkCompoundStatus; d) :
    ∃ tries x, log = tries ++ [x] ∧ (∀ y ∈ tries, IsGrace y.2) ∧ ¬ IsGrace x.2 ∧
      ∀ v, q.result x.2 = .ok v ↔
        (res.bind fun reply => (q.decode reply).map Prod.fst) = .ok v := by
  obtain ⟨tries, x, hlog, htries, -, hx, hverdict⟩ := h.split
  exact ⟨tries, x, hlog, fun y hy => (htries y hy).2, hx,
    fun v => CompoundCall.result_of_verdict hq hverdict⟩

/-- The decoding calls of `do_open` from the result of the OPEN on. -/
def decodeOpened : XdrDecoder (Open4Result × Nfs4Fh) := do
  let open_res ← decodeOpenResult
  let fh ← decodeGetfhResult
  return (open_res, fh)

theorem decodeOpenResults_behind (dir : Nfs4Fh) :
    ReadsBehind decodeOpenResults [(fhOp dir).1] decodeOpened := .cons (takes_fhOp dir) (.nil _)

/-! ### Nfs4Client -/

namespace Nfs4Client

/-- The request is this COMPOUND. -/
def Asks {α : Type} (q : CompoundCall α) (request : RpcRequest) : Prop :=
  ∃ rpc, request = q.request rpc 0

/-- The runs of `do_open` that come to an end. -/
inductive OpenRun (c : Nfs4Client) (dir : Nfs4Fh) (name : Bytes) (share_access : UInt32)
    (create : Bool) : List (RpcRequest × Received) → Except Exn Nfs4File → Prop
  | failed {log : List (RpcRequest × Received)} {res : Except Exn Bytes} {e : Exn}
      (hloop : LoopRun
        (Asks (openFile dir name share_access create c.clientid_ (c.open_seqid_ + 1))) log res)
      (he : (res.bind fun reply => ((openFile dir name share_access create c.clientid_
        (c.open_seqid_ + 1)).decode reply).map Prod.fst) = .error e) :
      OpenRun c dir name share_access create log (.error e)
  | opened {log : List (RpcRequest × Received)} {reply rest : Bytes} {open_res : Open4Result}
      {fh : Nfs4Fh} (hloop : LoopRun
        (Asks (openFile dir name share_access create c.clientid_ (c.open_seqid_ + 1))) log
        (.ok reply))
      (hdec : (openFile dir name share_access create c.clientid_ (c.open_seqid_ + 1)).decode reply
        = .ok ((open_res, fh), rest))
      (hflags : open_res.rflags &&& OPEN4_RESULT_CONFIRM = 0) :
      OpenRun c dir name share_access create log
        (.ok ⟨fh, open_res.stateid, c.open_seqid_ + 1⟩)
  | confirmed {log : List (RpcRequest × Received)} {reply rest : Bytes} {open_res : Open4Result}
      {fh : Nfs4Fh} {q : RpcRequest} {r : Received} (hloop : LoopRun
        (Asks (openFile dir name share_access create c.clientid_ (c.open_seqid_ + 1))) log
        (.ok reply))
      (hdec : (openFile dir name share_access create c.clientid_ (c.open_seqid_ + 1)).decode reply
        = .ok ((open_res, fh), rest))
      (hflags : open_res.rflags &&& OPEN4_RESULT_CONFIRM ≠ 0)
      (hq : Asks (openConfirm fh open_res.stateid (c.open_seqid_ + 1 + 1)) q) :
      OpenRun c dir name share_access create (log ++ [(q, r)])
        (((openConfirm fh open_res.stateid (c.open_seqid_ + 1 + 1)).result r).map
          fun stateid => ⟨fh, stateid, c.open_seqid_ + 1 + 1⟩)

theorem Asks.isOpen {dir : Nfs4Fh} {name : Bytes} {share_access : UInt32} {create : Bool}
    {clientid : UInt64} {seqid : UInt32} {request : RpcRequest}
    (h : Asks (openFile dir name share_access create clientid seqid) request) :
    request.IsOpen seqid := by
  obtain ⟨rpc, rfl⟩ := h
  exact ⟨dir, _, ⟨0, (openFile_announces dir name share_access create clientid seqid).compoundArgs 0⟩,
    rfl⟩

theorem Asks.isOpenConfirm {fh : Nfs4Fh} {stateid : Stateid4} {seqid : UInt32}
    {request : RpcRequest} (h : Asks (openConfirm fh stateid seqid) request) :
    request.IsOpenConfirm := by
  obtain ⟨rpc, rfl⟩ := h
  exact ⟨fh, _, 0, (openConfirm_announces fh stateid seqid).compoundArgs 0⟩

section Rule

variable {ok : List (RpcRequest × Received) → RpcRequest → Prop} {c : Nfs4Client}

theorem wpM_openLoop_run {α : Type} {q : CompoundCall α}
    {post : Except Exn Bytes → Nfs4Client → List (RpcRequest × Received) → Prop}
    (hok : ∀ log request, Retried (Asks q) log → Asks q request → ok log request)
    (hpost : ∀ log res c', c'.open_seqid_ = c.open_seqid_ → LoopRun (Asks q) log res →
      post res c' log) (fuel : ℕ) : wpM anyExchange ok post (openLoop q fuel) c [] := by
  refine wpM_openLoop (I := fun c' log => Retried (Asks q) log ∧ c'.open_seqid_ = c.open_seqid_)
    ?_ ?_ ⟨fun _ h => absurd h List.not_mem_nil, rfl⟩
  · exact fun c' log ⟨hlog, _⟩ => hok log _ hlog ⟨c'.rpc_, rfl⟩
  -- the log so far holds OPENs that were answered with GRACE
  · rintro c' log r _ ⟨hlog, hc'⟩ rfl
    have hasks : Asks q (c'.request q) := ⟨c'.rpc_, rfl⟩
    cases hverdict : openVerdict r with
    | error e => exact hpost _ _ c'.sent hc' (.failed hlog hasks hverdict)
    | ok v =>
      cases v with
      | none => exact ⟨hlog.concat hasks (isGrace_of_openVerdict hverdict), hc'⟩
      | some reply => exact hpost _ _ c'.sent hc' (.answered hlog hasks hverdict)

/-- **The runs of `do_open`**, and what it sends on the way. -/
theorem wpM_doOpen_run {dir : Nfs4Fh} {name : Bytes} {share_access : UInt32} {create : Bool}
    {post : Except Exn Nfs4File → Nfs4Client → List (RpcRequest × Received) → Prop}
    (hopen : ∀ log request,
      Retried (Asks (openFile dir name share_access create c.clientid_ (c.open_seqid_ + 1))) log →
      Asks (openFile dir name share_access create c.clientid_ (c.open_seqid_ + 1)) request →
      ok log request)
    (hconfirm : ∀ log request fh stateid,
      Asks (openConfirm fh stateid (c.open_seqid_ + 1 + 1)) request → ok log request)
    (hpost : ∀ log r c', OpenRun c dir name share_access create log r → post r c' log)
    (fuel : ℕ) : wpM anyExchange ok post (doOpen fuel dir name share_access create) c [] := by
  refine wpM_doOpen.mpr (wpM_openLoop_run hopen ?_ fuel)
  intro log res c' hc' hloop
  cases hres : (res.bind fun reply => ((openFile dir name share_access create c.clientid_
      (c.open_seqid_ + 1)).decode reply).map Prod.fst) with
  | error e => exact hpost _ _ c' (.failed hloop hres)
  | ok x =>
    obtain ⟨open_res, fh⟩ := x
    cases res with
    | error e => cases hres
    | ok reply =>
      obtain ⟨rest, hdec⟩ : ∃ rest, (openFile dir name share_access create c.clientid_
          (c.open_seqid_ + 1)).decode reply = .ok ((open_res, fh), rest) := value_ok.mp hres
      change if open_res.rflags &&& OPEN4_RESULT_CONFIRM ≠ 0 then _ else _
      rw [hc']
      split
      · next hflags =>
        refine ⟨hconfirm _ _ fh open_res.stateid ⟨_, rfl⟩, ?_⟩
        rintro r _ rfl
        exact hpost _ _ _ (.confirmed hloop hdec hflags ⟨_, rfl⟩)
      · next hflags => exact hpost _ _ c' (.opened hloop hdec (not_not.mp hflags))

end Rule

end Nfs4Client

/-! ### Nfs41Client -/

namespace Nfs41Client

/-- The request is this COMPOUND, behind a SEQUENCE. -/
def Asks {α : Type} (q : CompoundCall α) (request : RpcRequest) : Prop :=
  ∃ c : Nfs41Client, request = c.request q

/-- The runs of `do_open` that come to an end. -/
inductive OpenRun (c : Nfs41Client) (dir : Nfs4Fh) (name : Bytes) (share_access : UInt32)
    (create : Bool) : List (RpcRequest × Received) → Except Exn Nfs4File → Prop
  | failed {log : List (RpcRequest × Received)} {res : Except Exn Bytes} {e : Exn}
      (hloop : LoopRun
        (Asks (openFile dir name share_access create c.clientid_ (c.open_seqid_ + 1))) log res)
      (he : (res.bind fun reply => ((openFile dir name share_access create c.clientid_
        (c.open_seqid_ + 1)).decode reply).map Prod.fst) = .error e) :
      OpenRun c dir name share_access create log (.error e)
  | opened {log : List (RpcRequest × Received)} {reply rest : Bytes} {open_res : Open4Result}
      {fh : Nfs4Fh} (hloop : LoopRun
        (Asks (openFile dir name share_access create c.clientid_ (c.open_seqid_ + 1))) log
        (.ok reply))
      (hdec : (openFile dir name share_access create c.clientid_ (c.open_seqid_ + 1)).decode reply
        = .ok ((open_res, fh), rest))
      (hflags : open_res.rflags &&& OPEN4_RESULT_CONFIRM = 0) :
      OpenRun c dir name share_access create log
        (.ok ⟨fh, open_res.stateid, c.open_seqid_ + 1⟩)
  | refused {log : List (RpcRequest × Received)} {reply rest : Bytes} {open_res : Open4Result}
      {fh : Nfs4Fh} {e : Exn} (hloop : LoopRun
        (Asks (openFile dir name share_access create c.clientid_ (c.open_seqid_ + 1))) log
        (.ok reply))
      (hdec : (openFile dir name share_access create c.clientid_ (c.open_seqid_ + 1)).decode reply
        = .ok ((open_res, fh), rest))
      (hflags : open_res.rflags &&& OPEN4_RESULT_CONFIRM ≠ 0) :
      OpenRun c dir name share_access create log (.error e)

theorem Asks.isSequencedOpen {dir : Nfs4Fh} {name : Bytes} {share_access : UInt32} {create : Bool}
    {clientid : UInt64} {seqid : UInt32} {request : RpcRequest}
    (h : Asks (openFile dir name share_access create clientid seqid) request) :
    request.IsSequencedOpen seqid := by
  obtain ⟨c, rfl⟩ := h
  exact ⟨c.sessionid_, c.slot_seqid_, dir, _, ⟨1, sequenced_compoundArgs
    (openFile_announces dir name share_access create clientid seqid) _ _⟩, rfl⟩

section Rule

variable {ok : List (RpcRequest × Received) → RpcRequest → Prop} {c : Nfs41Client}

theorem wpM_openLoop_run {α : Type} {q : CompoundCall α}
    {post : Except Exn Bytes → Nfs41Client → List (RpcRequest × Received) → Prop}
    (hok : ∀ log request, Retried (Asks q) log → Asks q request → ok log request)
    (hpost : ∀ log res c', LoopRun (Asks q) log res → post res c' log) (fuel : ℕ) :
    wpM anyExchange ok post (openLoop q fuel) c [] := by
  refine wpM_openLoop (I := fun _ log => Retried (Asks q) log) ?_ ?_
    (fun _ h => absurd h List.not_mem_nil)
  · exact fun c' log hlog => hok log _ hlog ⟨c', rfl⟩
  · rintro c' log r _ hlog rfl
    have hasks : Asks q (c'.request q) := ⟨c', rfl⟩
    cases hverdict : openVerdict r with
    | error e => exact hpost _ _ c'.sent (.failed hlog hasks hverdict)
    | ok v =>
      cases v with
      | none => exact hlog.concat hasks (isGrace_of_openVerdict hverdict)
      | some reply => exact hpost _ _ c'.sent (.answered hlog hasks hverdict)

/-- **The runs of `do_open`**, and what it sends on the way. -/
theorem wpM_doOpen_run {dir : Nfs4Fh} {name : Bytes} {share_access : UInt32} {create : Bool}
    {post : Except Exn Nfs4File → Nfs41Client → List (RpcRequest × Received) → Prop}
    (hopen : ∀ log request,
      Retried (Asks (openFile dir name share_access create c.clientid_ (c.open_seqid_ + 1))) log →
      Asks (openFile dir name share_access create c.clientid_ (c.open_seqid_ + 1)) request →
      ok log request)
    (hpost : ∀ log r c', OpenRun c dir name share_access create log r → post r c' log)
    (fuel : ℕ) : wpM anyExchange ok post (doOpen fuel dir name share_access create) c [] := by
  refine wpM_doOpen.mpr (wpM_openLoop_run hopen ?_ fuel)
  intro log res c' hloop
  cases hres : (res.bind fun reply => ((openFile dir name share_access create c.clientid_
      (c.open_seqid_ + 1)).decode reply).map Prod.fst) with
  | error e => exact hpost _ _ c' (.failed hloop hres)
  | ok x =>
    obtain ⟨open_res, fh⟩ := x
    cases res with
    | error e => cases hres
    | ok reply =>
      obtain ⟨rest, hdec⟩ : ∃ rest, (openFile dir name share_access create c.clientid_
          (c.open_seqid_ + 1)).decode reply = .ok ((open_res, fh), rest) := value_ok.mp hres
      change if open_res.rflags &&& OPEN4_RESULT_CONFIRM ≠ 0 then _ else _
      split
      · next hflags => exact hpost _ _ c' (.refused hloop hdec hflags)
      · next hflags => exact hpost _ _ c' (.opened hloop hdec (not_not.mp hflags))

end Rule

end Nfs41Client

/-! ### Trying again -/

def NFS4ERR_RESOURCE : UInt32 := 10018
def NFS4ERR_MOVED : UInt32 := 10019
def NFS4ERR_NOFILEHANDLE : UInt32 := 10020
def NFS4ERR_STALE_CLIENTID : UInt32 := 10022
def NFS4ERR_STALE_STATEID : UInt32 := 10023
def NFS4ERR_BAD_STATEID : UInt32 := 10025
def NFS4ERR_BAD_SEQID : UInt32 := 10026
def NFS4ERR_BADXDR : UInt32 := 10036

/-- The error of an operation of the open-owner that uses its id up. -/
def AdvancesSeqid (status : UInt32) : Prop :=
  status ≠ 0 ∧ status ∉ [NFS4ERR_STALE_CLIENTID, NFS4ERR_STALE_STATEID, NFS4ERR_BAD_STATEID,
    NFS4ERR_BAD_SEQID, NFS4ERR_BADXDR, NFS4ERR_RESOURCE, NFS4ERR_NOFILEHANDLE, NFS4ERR_MOVED]

/-- The reply to a COMPOUND with this outer status. -/
def AnsweredWith (received : Received) (status : UInt32) : Prop :=
  ∃ rest, received.bind parseReply = .ok (word status ++ rest)

theorem IsGrace.status_eq {received : Received} {status : UInt32} (h : IsGrace received)
    (h' : AnsweredWith received status) : status = NFS4ERR_GRACE := by
  obtain ⟨rest, hparse⟩ := h
  obtain ⟨rest', hparse'⟩ := h'
  have hbytes := Except.ok.inj (hparse'.symm.trans hparse)
  exact word_injective (List.append_inj hbytes rfl).1

/-- The request is an OPEN with the id of an earlier one, which was answered with `status`. -/
def Repeats (log : List (RpcRequest × Received)) (q : RpcRequest) (status : UInt32) : Prop :=
  ∃ seqid, q.IsOpen seqid ∧ ∃ x ∈ log, x.1.IsOpen seqid ∧ AnsweredWith x.2 status

section Grace

variable (c : Nfs4Client) (fuel : ℕ) (dir : Nfs4Fh) (name : Bytes) (share_access : UInt32)
  (create : Bool)

/-- **What the retry loop repeats.** Whatever the server answers, `do_open` sends OPENs with the id
that it has taken at the start and an OPEN_CONFIRM, and it sends an OPEN after another only if all
earlier ones were answered with GRACE. So of the errors that use an id up, GRACE is the only one after
which the id is sent again. -/
theorem open_repeated_only_after_grace :
    wpM anyExchange
      (fun log q => ((q.IsOpen (c.open_seqid_ + 1) ∧
            Retried (fun q' => q'.IsOpen (c.open_seqid_ + 1)) log) ∨ q.IsOpenConfirm) ∧
          ∀ status, AdvancesSeqid status → Repeats log q status → status = NFS4ERR_GRACE)
      (fun _ _ _ => True) (Nfs4Client.doOpen fuel dir name share_access create) c [] := by
  refine Nfs4Client.wpM_doOpen_run ?_ ?_ (fun _ _ _ _ => trivial) fuel
  · intro log q hlog hq
    have htries : Retried (fun q' => q'.IsOpen (c.open_seqid_ + 1)) log :=
      fun x hx => ⟨(hlog x hx).1.isOpen, (hlog x hx).2⟩
    refine ⟨Or.inl ⟨hq.isOpen, htries⟩, ?_⟩
    rintro status - ⟨seqid, -, x, hx, -, hstatus⟩
    -- an OPEN in the log is there because its answer was GRACE
    exact (hlog x hx).2.status_eq hstatus
  · intro log q fh stateid hq
    refine ⟨Or.inr hq.isOpenConfirm, ?_⟩
    rintro status - ⟨seqid, hopen, -⟩
    exact absurd hopen hq.isOpenConfirm.not_isOpen

end Grace

/-- A server in its grace period. -/
def graceRecord : Received :=
  .ok (acceptedHeader 1 0 [] ++ (word NFS4ERR_GRACE ++ (word 0 ++ word 0)))

/-- The second OPEN has the id of the first, which was answered with an error that uses it up. -/
theorem grace_repeats_seqid :
    AdvancesSeqid NFS4ERR_GRACE ∧
    ¬ wpM anyExchange (fun log q => ∀ status, AdvancesSeqid status → ¬ Repeats log q status)
      (fun _ _ _ => True) (Nfs4Client.doOpen 2 ⟨[]⟩ [97] OPEN4_SHARE_ACCESS_READ false)
      Nfs4Client.fresh [] := by
  have hgrace : AdvancesSeqid NFS4ERR_GRACE := ⟨by decide, by decide⟩
  refine ⟨hgrace, fun h => ?_⟩
  have hparse : graceRecord.bind parseReply = .ok (word NFS4ERR_GRACE ++ (word 0 ++ word 0)) :=
    parseReply_accepted 1 0 length_nil_lt (word NFS4ERR_GRACE ++ (word 0 ++ word 0))
  obtain ⟨-, hnext⟩ := Nfs4Client.wpM_openLoop_succ.mp (Nfs4Client.wpM_doOpen.mp h)
  have hagain := hnext graceRecord _ rfl
  rw [openVerdict_of_isGrace ⟨_, hparse⟩] at hagain
  obtain ⟨hsecond, -⟩ := Nfs4Client.wpM_openLoop_succ.mp hagain
  exact hsecond NFS4ERR_GRACE hgrace ⟨1, Nfs4Client.Asks.isOpen ⟨_, rfl⟩, _, List.mem_singleton_self _,
    Nfs4Client.Asks.isOpen ⟨_, rfl⟩, _, hparse⟩

end NfsClient
