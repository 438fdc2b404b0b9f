import NfsClient.Framing.Frame
import NfsClient.Nfs4.Carried

/-!
# Servers with a store on the wire

`OnTheWire40` and `OnTheWire41` say that a server on a connection is a store: it runs the COMPOUNDs that
it reads on the machine and answers with their results, and in minor version 1 it does so for those that
come in turn through the slot of its session. There is such a server for every store
(`wireServer40_onTheWire`, `wireServer41_onTheWire`), and `notepad` is a small store to try them with.
-/

namespace NfsClient

open Xdr Reader Interaction Effects

/-- What a server does for the callers with a credential. -/
abbrev Stores (σ : Type) : Type := Option AuthSys → ObjectStore σ

section

variable {σ : Type}

/-- `srv` runs the COMPOUNDs that it reads on the machine over the stores, and answers with their
results; in state `t` the stores stand at `abs t`. -/
def OnTheWire40 {τ : Type} (srv : Service τ) (stores : Stores σ) (abs : τ → σ) : Prop :=
  ∀ (t : τ) (msg : Bytes) (h : CallHeader) (tag : Bytes) (ops : List ArgOp),
    (Wire.callHeader.pair Compound.format).read msg = .ok ((h, ⟨tag, 0, ops⟩), []) →
    h.prog = NFS4_PROG → h.vers = NFS4_VERS → h.proc = NFS4_PROC_COMPOUND →
    Answers srv t msg h.xid (((stores h.auth).compound ops).on (abs t)).1 ∧
      abs (srv.answer t msg).2 = (((stores h.auth).compound ops).on (abs t)).2

/-- `srv` runs the COMPOUNDs that come in turn through the slot of its session; `slot` is the session
with the sequence id that is next. -/
def OnTheWire41 {τ : Type} (srv : Service τ) (stores : Stores σ) (slot : τ → SessionId41 × UInt32)
    (abs : τ → σ) : Prop :=
  ∀ (t : τ) (msg : Bytes) (h : CallHeader) (tag : Bytes) (ops : List ArgOp),
    (Wire.callHeader.pair Compound.format).read msg =
      .ok ((h, ⟨tag, 1, Nfs41Client.sequenceOp (slot t).1 (slot t).2 :: ops⟩), []) →
    h.prog = NFS4_PROG → h.vers = NFS4_VERS → h.proc = NFS4_PROC_COMPOUND →
    (∃ r : Op.SEQUENCE.Res, Answers srv t msg h.xid (((stores h.auth).compound ops >>= fun rs =>
        pure (⟨.SEQUENCE, r⟩ :: rs)).on (abs t)).1) ∧
      slot (srv.answer t msg).2 = ((slot t).1, (slot t).2 + 1) ∧
      abs (srv.answer t msg).2 = (((stores h.auth).compound ops).on (abs t)).2

/-! ### Servers for any stores -/

/-- A COMPOUND that a server can read, and the header of its call. -/
def readCompound (msg : Bytes) : Option (CallHeader × Compound) :=
  match (Wire.callHeader.pair Compound.format).read msg with
  | .ok ((h, c), []) =>
    if h.prog = NFS4_PROG ∧ h.vers = NFS4_VERS ∧ h.proc = NFS4_PROC_COMPOUND then some (h, c) else none
  | _ => none

theorem readCompound_eq {msg : Bytes} {h : CallHeader} {c : Compound}
    (hread : (Wire.callHeader.pair Compound.format).read msg = .ok ((h, c), []))
    (hprog : h.prog = NFS4_PROG) (hvers : h.vers = NFS4_VERS) (hproc : h.proc = NFS4_PROC_COMPOUND) :
    readCompound msg = some (h, c) := by
  unfold readCompound
  rw [hread]
  exact if_pos ⟨hprog, hvers, hproc⟩

/-- The reply to a COMPOUND that has come to `outcome`. A failed one is answered with its status. -/
def replyBody : Except Status4 (List ResOp) → Bytes
  | .ok rs => SuccessReply.bytes ⟨[], rs⟩
  | .error status => word status.1

def replyTo (h : CallHeader) (outcome : Except Status4 (List ResOp)) : FramedReply :=
  .ofRecord (acceptedHeader h.xid AUTH_NONE [] ++ replyBody outcome)

/-- The stores on the wire. What is not a COMPOUND of minor version 0 is echoed. -/
def wireServer40 (stores : Stores σ) : Service σ where
  answer s msg :=
    match readCompound msg with
    | some (h, ⟨_, 0, ops⟩) =>
      let r := ((stores h.auth).compound ops).on s
      (replyTo h r.1, r.2)
    | _ => (.ofRecord msg, s)

/-- A server with one session, and the sequence id that is next in its slot. -/
structure InSession (σ : Type) where
  sessionid : SessionId41
  sequenceid : UInt32
  state : σ

/-- A COMPOUND in turn, with the result of its SEQUENCE. -/
def InSession.run (stores : Stores σ) (auth : Option AuthSys) (ops : List ArgOp) (s : InSession σ) :
    Except Status4 (List ResOp) × σ :=
  ((stores auth).compound ops >>= fun rs =>
    pure (⟨.SEQUENCE, ⟨s.sessionid, s.sequenceid, 0, 0, 0, 0⟩⟩ :: rs)).on s.state

/-- The stores behind a session. What does not come in turn is echoed. -/
def wireServer41 (stores : Stores σ) : Service (InSession σ) where
  answer s msg :=
    match readCompound msg with
    | some (h, ⟨_, 1, ⟨.SEQUENCE, a⟩ :: ops⟩) =>
      if a.sessionid = s.sessionid ∧ a.sequenceid = s.sequenceid then
        let r := s.run stores h.auth ops
        (replyTo h r.1, ⟨s.sessionid, s.sequenceid + 1, r.2⟩)
      else (.ofRecord msg, s)
    | _ => (.ofRecord msg, s)

theorem answers_of_replyTo {τ : Type} {srv : Service τ} {t : τ} {msg : Bytes} {h : CallHeader}
    {outcome : Except Status4 (List ResOp)} (heq : (srv.answer t msg).1 = replyTo h outcome) :
    Answers srv t msg h.xid outcome := by
  refine ⟨AUTH_NONE, [], replyBody outcome, by decide, ?_, ?_⟩
  · rw [heq, replyTo, FramedReply.record_ofRecord]
  · cases outcome with
    | ok rs => exact ⟨[], by decide, rfl⟩
    | error status => exact ⟨[], (List.append_nil _).symm⟩

theorem wireServer40_onTheWire (stores : Stores σ) : OnTheWire40 (wireServer40 stores) stores id := by
  intro s msg h tag ops hread hprog hvers hproc
  have hcompound := readCompound_eq hread hprog hvers hproc
  constructor
  · refine answers_of_replyTo ?_
    simp only [wireServer40, hcompound, id]
  · simp only [wireServer40, hcompound, id]

theorem wireServer41_onTheWire (stores : Stores σ) :
    OnTheWire41 (wireServer41 stores) stores (fun s => (s.sessionid, s.sequenceid)) (·.state) := by
  intro s msg h tag ops hread hprog hvers hproc
  have hcompound := readCompound_eq hread hprog hvers hproc
  have hturn : (wireServer41 stores).answer s msg =
      (replyTo h (s.run stores h.auth ops).1,
        ⟨s.sessionid, s.sequenceid + 1, (s.run stores h.auth ops).2⟩) := by
    simp only [wireServer41, hcompound, Nfs41Client.sequenceOp, and_self, if_true]
  refine ⟨⟨_, answers_of_replyTo (congrArg Prod.fst hturn)⟩, ?_, ?_⟩
  · rw [hturn]
  · rw [hturn, InSession.run, Eff.on_bind_pure]

end

/-! ### A small store -/

/-- A directory with one file, for a number of opens still in a grace period. -/
structure Notepad where
  grace : ℕ
  text : Bytes

namespace Notepad

def denied : Status4 := ⟨13, by decide⟩

def opened (rflags : UInt32) : Op.Good .OPEN :=
  ⟨⟨⟨1, Octets.zero 12⟩, (true, 0, 1), rflags, [], ⟨.NONE, ()⟩⟩, ⟨trivial, trivial⟩,
    ⟨trivial, trivial, trivial⟩, trivial, ⟨(by decide : ([] : List UInt32).length < 2 ^ 32), nofun⟩, trivial⟩

/-- READ, WRITE and OPEN_CONFIRM. -/
def apply : (o : Op) → o.Args → Serve Notepad o.Good
  | .READ, _ => do
    let s ← get
    if h : s.text.length < 2 ^ 32 then return ⟨(true, s.text), trivial, h⟩ else throw denied
  | .WRITE, (_, _, _, data) => do
    modify fun s => { s with text := data }
    return ⟨(UInt32.ofNat data.length, 2, Octets.zero 8), trivial, trivial, trivial⟩
  | .OPEN_CONFIRM, _ => return ⟨⟨2, Octets.zero 12⟩, trivial, trivial⟩
  | _, _ => throw denied

/-- OPEN, once the grace period is over. -/
def reach (rflags : UInt32) : (o : Op) → o.Args → Serve Notepad (o.Good × Handle)
  | .OPEN, _ => do
    let s ← get
    if s.grace = 0 then return (opened rflags, ⟨[2], by decide⟩)
    else do
      set { s with grace := s.grace - 1 }
      throw graceStatus
  | _, _ => throw denied

end Notepad

/-- The store. Its opens have the flags `rflags`. -/
def notepad (rflags : UInt32) : ObjectStore Notepad where
  root := return ⟨[1], by decide⟩
  find fh := if h : fh.length ≤ 128 then return ⟨fh, h⟩ else throw Notepad.denied
  attributes _ _ := throw Notepad.denied
  entries _ _ := throw Notepad.denied
  apply o a _ := Notepad.apply o a
  reach o a _ := Notepad.reach rflags o a
  rename _ _ _ := throw Notepad.denied
  serve _ _ := throw Notepad.denied

end NfsClient
