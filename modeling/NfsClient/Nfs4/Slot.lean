import NfsClient.Nfs4.Session

/-!
# The slot across rejected calls

A server may reject a COMPOUND before its SEQUENCE takes effect; the slot then stays where it is.
`compound41` counts its sequence id up while it builds the request, and nothing ever counts it back.
So each rejection puts the client one id further ahead of the slot, and `slot_in_step_iff` says
exactly when the next COMPOUND has the id that the slot expects: when the number of rejections is a
multiple of `2 ^ 32`. One rejection is enough to leave the session unusable (`denied_then_ahead`).
-/

namespace NfsClient

open Xdr Reader Interaction

/-! ### What the server reads -/

/-- The first operation of a COMPOUND. -/
def readHead : Reader UInt8 Malformed ArgOp := do
  let _tag ← Format.bytes.read
  let _minorversion ← Format.word.read
  let _numops ← Format.word.read
  ArgOp.format.read

/-- The SEQUENCE at the head of a COMPOUND. -/
def headSequence (args : Bytes) : Option SequenceArgs :=
  match readHead args with
  | .ok (⟨.SEQUENCE, a⟩, _) => some a
  | _ => none

/-- What comes in front of the first operation is read over. -/
theorem readHead_eq {tag : Bytes} (htag : tag.length < 2 ^ 32) (minorversion : UInt32) (op : ArgOp)
    (ops : List ArgOp) :
    readHead (Compound.format.write ⟨tag, minorversion, op :: ops⟩) =
      ArgOp.format.read (ArgOp.format.write op ++ writeOps ops) := by
  have hwrite : Compound.format.write ⟨tag, minorversion, op :: ops⟩ =
      Format.bytes.write tag ++ (Format.word.write minorversion ++
        (Format.word.write (UInt32.ofNat (op :: ops).length) ++
          (ArgOp.format.write op ++ writeOps ops))) := rfl
  unfold readHead
  rw [hwrite, bind_of_ok (Format.bytes.reads htag _), bind_of_ok (Format.word.reads trivial _),
    bind_of_ok (Format.word.reads trivial _)]

theorem readHead_write {tag : Bytes} {op : ArgOp} (htag : tag.length < 2 ^ 32)
    (hop : ArgOp.format.Fits op) (minorversion : UInt32) (ops : List ArgOp) :
    readHead (Compound.format.write ⟨tag, minorversion, op :: ops⟩) = .ok (op, writeOps ops) :=
  (readHead_eq htag minorversion op ops).trans (ArgOp.format.reads hop _)

theorem headSequence_of_readHead {args rest : Bytes} {a : SequenceArgs}
    (h : readHead args = .ok (⟨.SEQUENCE, a⟩, rest)) : headSequence args = some a := by
  unfold headSequence
  rw [h]

theorem headSequence_write {tag : Bytes} (htag : tag.length < 2 ^ 32) (sessionid : SessionId41)
    (n : UInt32) (ops : List ArgOp) :
    headSequence (Compound.format.write ⟨tag, 1, Nfs41Client.sequenceOp sessionid n :: ops⟩)
      = some ⟨sessionid, n, 0, 0, false⟩ := by
  have hfits : ArgOp.format.Fits (Nfs41Client.sequenceOp sessionid n) :=
    ⟨trivial, trivial, trivial, trivial, trivial⟩
  exact headSequence_of_readHead (readHead_write htag hfits 1 ops)

/-! ### The slot -/

/-- The id of the last COMPOUND that the slot has executed, and the number of COMPOUNDs that were
rejected since. -/
structure SlotState where
  last : UInt32
  rejected : ℕ

/-- The server executes a COMPOUND whose id is the one after the last, or rejects a COMPOUND; what
is received is anything in both cases. -/
inductive SlotStep : Step RpcRequest Received SlotState
  | executed {q : RpcRequest} {r : Received} {s : SlotState} {a : SequenceArgs}
      (hq : headSequence q.args = some a) (ha : a.sequenceid = s.last + 1) :
      SlotStep s q r { s with last := s.last + 1 }
  | rejected {q : RpcRequest} {r : Received} {s : SlotState} :
      SlotStep s q r { s with rejected := s.rejected + 1 }

/-- The request carries the id that the slot expects next. -/
def SlotState.Expects (s : SlotState) (q : RpcRequest) : Prop :=
  ∃ a, headSequence q.args = some a ∧ a.sequenceid = s.last + 1

namespace Nfs41Client

/-- The client is ahead of the slot by the number of rejected COMPOUNDs. -/
def Ahead (c : Nfs41Client) (s : SlotState) : Prop :=
  c.slot_seqid_ = s.last + 1 + UInt32.ofNat s.rejected

section Ahead

variable {α : Type} {q : CompoundCall α} {ops : List ArgOp} {c : Nfs41Client} {s s' : SlotState}
  {r : Received}

theorem headSequence_request (hq : q.Announces ops) (htag : q.tag = []) :
    headSequence (c.request q).args = some ⟨c.sessionid_, c.slot_seqid_, 0, 0, false⟩ := by
  have hargs : (c.request q).args = Compound.format.write
      ⟨q.tag, 1, sequenceOp c.sessionid_ c.slot_seqid_ :: ops⟩ := sequenced_compoundArgs hq _ _
  rw [hargs]
  exact headSequence_write (by rw [htag]; decide) _ _ _

/-- Adding a number of steps changes nothing exactly if it is a multiple of the modulus. -/
theorem add_ofNat_eq_self {x : UInt32} {n : ℕ} : x + UInt32.ofNat n = x ↔ 2 ^ 32 ∣ n := by
  rw [add_eq_left, ← UInt32.toNat_inj, UInt32.toNat_ofNat', UInt32.toNat_zero]
  exact (Nat.dvd_iff_mod_eq_zero).symm

/-- The next request has the expected id exactly if the client is ahead by whole rounds. -/
theorem Ahead.expects_iff (h : Ahead c s) (hq : q.Announces ops) (htag : q.tag = []) :
    s.Expects (c.request q) ↔ 2 ^ 32 ∣ s.rejected := by
  unfold SlotState.Expects
  rw [headSequence_request hq htag, ← add_ofNat_eq_self (x := s.last + 1), ← h]
  simp

theorem Ahead.sent (h : Ahead c s) (hstep : SlotStep s (c.request q) r s') :
    Ahead c.sent s' := by
  change c.slot_seqid_ + 1 = _
  rw [h]
  cases hstep with
  | executed => exact add_right_comm _ _ _
  | rejected =>
    rw [ofNat_succ, add_assoc]

end Ahead

/-- **The slot across rejected calls.** In every run of methods after construction, whatever is
rejected and whatever is received, the next COMPOUND carries the id that the slot expects if and
only if the number of COMPOUNDs rejected so far is a multiple of `2 ^ 32`. -/
theorem slot_in_step_iff (fuel : ℕ) (σ : Strategy Method fun m => Except Exn m.Result)
    (c : Nfs41Client) (last : UInt32) (hslot : c.slot_seqid_ = last + 1)
    {tr : List (RpcRequest × Received)} {q : RpcRequest}
    {k : Received → Prog RpcRequest Received Nfs41Client} {s : SlotState}
    (hrun : Trace SlotStep (σ.prog (perform fuel) c) ⟨last, 0⟩ tr (.call q k) s) :
    s.Expects q ↔ 2 ^ 32 ∣ s.rejected := by
  have hmethod : ∀ (m : Method) (c : Nfs41Client) (s : SlotState), Ahead c s →
      wpM SlotStep (fun s q => s.Expects q ↔ 2 ^ 32 ∣ s.rejected) (fun _ c' s' => Ahead c' s')
        (perform fuel m) c s := by
    refine fun m c s h => wpM_perform ?_ ?_ fuel m h
    · exact fun c c' s _ hslot h => hslot.trans h
    · exact fun hq htag c s h => ⟨h.expects_iff hq htag, fun r s' => h.sent⟩
  have hwp := Strategy.wp_prog (fun m c s => hmethod m c s) σ c ⟨last, 0⟩
    (hslot.trans (add_zero _).symm)
  exact (wp_trace hrun hwp).1

/-! ### A call that the RPC layer of the server denies -/

/-- A REPLY with MSG_DENIED and AUTH_ERROR. -/
def deniedRecord (xid : UInt32) : Bytes :=
  word xid ++ (word MsgType.REPLY ++ (word 1 ++ (word 1 ++ word 1)))

/-- A caller that asks twice for the attributes of the root, whatever comes of the first call. -/
def twoGetattrs : Strategy Method fun m => Except Exn m.Result :=
  .invoke (.file (.getattr ⟨[]⟩)) fun _ => .invoke (.file (.getattr ⟨[]⟩)) fun _ => .stop

theorem denied_run : ∃ k, Trace SlotStep (twoGetattrs.prog (perform 0) fresh) ⟨2, 0⟩
    [(fresh.request (getattr ⟨[]⟩), .ok (deniedRecord 1))]
    (.call (fresh.sent.request (getattr ⟨[]⟩)) k) ⟨2, 1⟩ :=
  ⟨_, .call .rejected (.refl _ _)⟩

/-- The first GETATTR is denied, and the second one carries the id 4; the slot, at 2, expects 3. -/
theorem denied_then_ahead :
    ¬ ∀ (fuel : ℕ) (σ : Strategy Method fun m => Except Exn m.Result) (c : Nfs41Client)
      (last : UInt32) (tr : List (RpcRequest × Received)) (q : RpcRequest)
      (k : Received → Prog RpcRequest Received Nfs41Client) (s : SlotState),
      c.slot_seqid_ = last + 1 → Trace SlotStep (σ.prog (perform fuel) c) ⟨last, 0⟩ tr (.call q k) s →
        s.Expects q := by
  intro hclaim
  obtain ⟨k, hrun⟩ := denied_run
  have hexpects := hclaim 0 twoGetattrs fresh 2 _ _ k _ rfl hrun
  have hahead : Ahead fresh.sent ⟨2, 1⟩ := by
    unfold Ahead
    decide
  have hdvd := (hahead.expects_iff (fileCall_announces (.getattr ⟨[]⟩)) rfl).mp hexpects
  norm_num at hdvd

theorem executed_run : ∃ k, Trace SlotStep (twoGetattrs.prog (perform 0) fresh) ⟨2, 0⟩
    [(fresh.request (getattr ⟨[]⟩), .error (.runtimeError "recv failed"))]
    (.call (fresh.sent.request (getattr ⟨[]⟩)) k) ⟨3, 0⟩ :=
  ⟨_, .call (.executed (headSequence_request (fileCall_announces (.getattr ⟨[]⟩)) rfl) rfl)
    (.refl _ _)⟩

/-- Once a GETATTR has been executed, whatever became of its reply, the next one is expected. -/
theorem expects_after_executed :
    SlotState.Expects ⟨3, 0⟩ (fresh.sent.request (getattr ⟨[]⟩)) := by
  obtain ⟨k, hrun⟩ := executed_run
  exact (slot_in_step_iff 0 twoGetattrs fresh 2 rfl hrun).mpr (dvd_zero _)

end Nfs41Client

end NfsClient
