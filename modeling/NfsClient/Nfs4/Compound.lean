import NfsClient.Nfs3.Portmap
import NfsClient.Nfs4.Ops

/-!
# COMPOUND calls

`compound.cpp`, and what the methods of both facades have in common: a method encodes a sequence
of operations, counts them by hand, sends them in one COMPOUND and decodes the results by
position. `CompoundCall` is such a method as data: the tag, the operation bytes, the count and the
decoding calls on the reply.
-/

namespace NfsClient

open Xdr Reader Interaction

def NFS4_PROG : UInt32 := 100003
def NFS4_VERS : UInt32 := 4
def NFS4_PROC_COMPOUND : UInt32 := 1

/-- The status on which `do_open` tries again. -/
def NFS4ERR_GRACE : UInt32 := 10013

/-- The `args` of `call_compound`: header and operations. -/
def compoundArgs (tag ops_bytes : Bytes) (num_ops minorversion : UInt32) : Bytes :=
  putString tag ++ putUint32 minorversion ++ putUint32 num_ops ++ ops_bytes

def callCompound (tag ops_bytes : Bytes) (num_ops minorversion : UInt32) :
    ClientM TcpRpcClient Bytes :=
  TcpRpcClient.call NFS4_PROG NFS4_VERS NFS4_PROC_COMPOUND
    (compoundArgs tag ops_bytes num_ops minorversion)

/-- The outer status; the echoed tag and the count of results are read and dropped. -/
def checkCompoundStatus : XdrDecoder Unit := do
  let status ← getUint32
  throwIf (status ≠ 0) (.nfs4Error status "COMPOUND")
  let _tag ← getString
  let _numops ← getUint32

/-- PUTROOTFH for the root sentinel, PUTFH for any other handle. -/
def encodeFh (fh : Nfs4Fh) : Bytes :=
  if fh.data = [] then encodePutrootfh else encodePutfh fh

/-- A method that sends one COMPOUND: what it sends and how it reads the reply. -/
structure CompoundCall (α : Type) where
  tag : Bytes
  ops : Bytes
  numOps : UInt32
  decode : XdrDecoder α

/-- Send a COMPOUND outside any session and decode its reply. -/
def CompoundCall.send {α : Type} (q : CompoundCall α) (minorversion : UInt32) :
    ClientM TcpRpcClient α := do
  let reply ← callCompound q.tag q.ops q.numOps minorversion
  ClientM.decode q.decode reply

/-- What comes of a COMPOUND call when `received` is received. -/
def CompoundCall.result {α : Type} (q : CompoundCall α) (received : Received) : Except Exn α :=
  (received.bind parseReply).bind fun reply => (q.decode reply).map Prod.fst

/-- A result comes from a reply that the decoder accepts. -/
theorem CompoundCall.result_ok {α : Type} {q : CompoundCall α} {received : Received} {a : α} :
    q.result received = .ok a ↔
      ∃ reply rest, received.bind parseReply = .ok reply ∧ q.decode reply = .ok (a, rest) := by
  unfold CompoundCall.result
  cases received.bind parseReply with
  | error e =>
    constructor
    · exact fun h => nomatch h
    · rintro ⟨_, _, h, -⟩
      cases h
  | ok reply =>
    refine value_ok.trans ⟨fun ⟨rest, h⟩ => ⟨reply, rest, rfl, h⟩, ?_⟩
    rintro ⟨_, rest, ⟨rfl⟩, h⟩
    exact ⟨rest, h⟩

/-- The request of a COMPOUND outside any session. -/
def CompoundCall.request {α : Type} (q : CompoundCall α) (rpc : TcpRpcClient)
    (minorversion : UInt32) : RpcRequest :=
  rpc.request NFS4_PROG NFS4_VERS NFS4_PROC_COMPOUND
    (compoundArgs q.tag q.ops q.numOps minorversion)

theorem wpM_send {α S : Type} {step : Step RpcRequest Received S} {ok : S → RpcRequest → Prop}
    {post : Except Exn α → TcpRpcClient → S → Prop} {q : CompoundCall α} {minorversion : UInt32}
    {rpc : TcpRpcClient} {s : S} :
    wpM step ok post (q.send minorversion) rpc s ↔
      ok s (q.request rpc minorversion) ∧
        ∀ r s', step s (q.request rpc minorversion) r s' → post (q.result r) rpc.bump s' := by
  unfold CompoundCall.send callCompound
  rw [wpM_bind, wpM_call]
  refine and_congr_right fun _ => forall₃_congr fun r s' _ => ?_
  unfold CompoundCall.result
  cases r.bind parseReply with
  | error e => exact Iff.rfl
  | ok reply => exact wpM_decode

/-- What `do_open` makes of what it receives: a reply to decode, `none` for one more try, or an
exception. -/
def openVerdict (received : Received) : Except Exn (Option Bytes) :=
  (received.bind parseReply).bind fun reply =>
    match checkCompoundStatus reply with
    | .ok _ => .ok (some reply)
    | .error (.nfs4Error status op) =>
      if status = NFS4ERR_GRACE then .ok none else .error (.nfs4Error status op)
    | .error e => .error e

section Verdict

variable {received : Received} {reply : Bytes}

theorem openVerdict_of_error {e : Exn} (h : received.bind parseReply = .error e) :
    openVerdict received = .error e := by
  unfold openVerdict
  rw [h]
  rfl

/-- The arms of a try are those of the verdict: only the exception for GRACE is caught. -/
theorem openVerdict_arms {β : Type*} (h : received.bind parseReply = .ok reply) (found : Bytes → β)
    (again : β) (fail : Exn → β) :
    (match checkCompoundStatus reply with
      | .ok _ => found reply
      | .error (.nfs4Error status op) =>
        if status = NFS4ERR_GRACE then again else fail (.nfs4Error status op)
      | .error e => fail e) =
    match openVerdict received with
      | .ok (some reply) => found reply
      | .ok none => again
      | .error e => fail e := by
  unfold openVerdict
  rw [h]
  simp only [Except.bind]
  cases checkCompoundStatus reply with
  | ok x => rfl
  | error e =>
    cases e with
    | runtimeError what => rfl
    | nfsError status proc => rfl
    | nfs4Error status op =>
      by_cases hgrace : status = NFS4ERR_GRACE
      · simp only [if_pos hgrace]
      · simp only [if_neg hgrace]

/-- The verdict on a reply says what the check of its outer status has come to. -/
theorem openVerdict_cases (h : received.bind parseReply = .ok reply) :
    (∃ x, checkCompoundStatus reply = .ok x ∧ openVerdict received = .ok (some reply)) ∨
    (∃ op, checkCompoundStatus reply = .error (.nfs4Error NFS4ERR_GRACE op) ∧
      openVerdict received = .ok none) ∨
    ∃ e, checkCompoundStatus reply = .error e ∧ openVerdict received = .error e := by
  unfold openVerdict
  rw [h]
  simp only [Except.bind]
  cases checkCompoundStatus reply with
  | ok x => exact Or.inl ⟨x, rfl, rfl⟩
  | error e =>
    refine Or.inr ?_
    cases e with
    | runtimeError what => exact Or.inr ⟨_, rfl, rfl⟩
    | nfsError status proc => exact Or.inr ⟨_, rfl, rfl⟩
    -- of the statuses that are not 0, one is caught
    | nfs4Error status op =>
      by_cases hgrace : status = NFS4ERR_GRACE
      · exact Or.inl ⟨op, by rw [hgrace], if_pos hgrace⟩
      · exact Or.inr ⟨_, rfl, if_neg hgrace⟩

theorem openVerdict_of_status_ok {x : Unit × Bytes} (h : received.bind parseReply = .ok reply)
    (hstatus : checkCompoundStatus reply = .ok x) : openVerdict received = .ok (some reply) := by
  unfold openVerdict
  rw [h]
  simp only [Except.bind, hstatus]

/-- A reply that is decoded is the one that was received, and its outer status is 0. -/
theorem openVerdict_some (h : openVerdict received = .ok (some reply)) :
    received.bind parseReply = .ok reply ∧ ∃ x, checkCompoundStatus reply = .ok x := by
  cases hparse : received.bind parseReply with
  | error e => exact nomatch h.symm.trans (openVerdict_of_error hparse)
  | ok reply' =>
    obtain ⟨x, hstatus, hverdict⟩ | ⟨_, -, hverdict⟩ | ⟨_, -, hverdict⟩ := openVerdict_cases hparse
    · obtain rfl := Option.some.inj (Except.ok.inj (h.symm.trans hverdict))
      exact ⟨rfl, x, hstatus⟩
    · exact nomatch h.symm.trans hverdict
    · exact nomatch h.symm.trans hverdict

end Verdict

/-- The methods of both facades that send exactly one COMPOUND. -/
inductive FileMethod
  | lookup (dir : Nfs4Fh) (name : Bytes)
  | getattr (fh : Nfs4Fh)
  | access (fh : Nfs4Fh) (mask : UInt32)
  | close (f : Nfs4File)
  | read (f : Nfs4File) (offset : UInt64) (count : UInt32)
  | write (f : Nfs4File) (offset : UInt64) (stable : Stable4) (data : Bytes)
  | commit (f : Nfs4File) (offset : UInt64) (count : UInt32)
  | mkdir (dir : Nfs4Fh) (name : Bytes) (attrs : Sattr4)
  | remove (dir : Nfs4Fh) (name : Bytes)
  | rename (src_dir : Nfs4Fh) (src_name : Bytes) (dst_dir : Nfs4Fh) (dst_name : Bytes)
  | symlink (dir : Nfs4Fh) (name target : Bytes) (attrs : Sattr4)
  | readlink (fh : Nfs4Fh)
  | setattr (fh : Nfs4Fh) (attrs : Sattr4)

/-- What a method returns. -/
@[reducible] def FileMethod.Result : FileMethod → Type
  | lookup .. | mkdir .. | symlink .. => Nfs4Fh
  | getattr .. => Fattr4
  | access .. | write .. => UInt32
  | read .. | readlink .. => Bytes
  | commit .. => Octets 8
  | close .. | remove .. | rename .. | setattr .. => Unit

/-- The attributes that `getattr` asks for. -/
def getattrIds : List UInt32 :=
  [Attr.TYPE, Attr.CHANGE, Attr.SIZE, Attr.FILEID, Attr.MODE, Attr.NUMLINKS, Attr.OWNER,
    Attr.OWNER_GROUP, Attr.TIME_ACCESS, Attr.TIME_METADATA, Attr.TIME_MODIFY]

/-- The attributes that `readdir` asks for. -/
def readdirIds : List UInt32 :=
  [Attr.TYPE, Attr.SIZE, Attr.FILEID, Attr.MODE, Attr.TIME_MODIFY]

/-- The loop of the constructors that fills the boot verifier from its last byte to its first. -/
def verifierBytes : ℕ → UInt64 → Bytes → Bytes
  | 0, _, verifier => verifier
  | i + 1, now, verifier => verifierBytes i (now >>> 8) ((now &&& 0xFF).toUInt8 :: verifier)

theorem length_verifierBytes (i : ℕ) (now : UInt64) (verifier : Bytes) :
    (verifierBytes i now verifier).length = i + verifier.length := by
  induction i generalizing now verifier with
  | zero => simp [verifierBytes]
  | succ i ih =>
    rw [verifierBytes, ih, List.length_cons]
    omega

/-- The verifier of a client that starts at `now`. -/
def bootVerifier (now : UInt64) : Octets 8 :=
  ⟨verifierBytes 8 now [], by rw [length_verifierBytes]; rfl⟩

/-! ### The connection of a facade -/

/-- The connection of a constructor, before it talks to the NFS server. -/
def connectNfs (auth : Option AuthSys) : ClientM Unit TcpRpcClient := do
  let port ← getport NFS4_PROG NFS4_VERS
  let rpc := TcpRpcClient.connect port
  return match auth with
    | some auth => rpc.setAuthSys auth
    | none => rpc

section wpM

variable {S : Type} {step : Step RpcRequest Received S} {ok : S → RpcRequest → Prop} {s : S}

/-- A constructor asks the portmapper, and gets a connection with its credential or an exception. -/
theorem wpM_connectNfs {post : Except Exn TcpRpcClient → Unit → S → Prop} {auth : Option AuthSys}
    (hok : ok s (getportRequest NFS4_PROG NFS4_VERS))
    (hpost : ∀ r s', step s (getportRequest NFS4_PROG NFS4_VERS) r s' →
      (∀ e, post (.error e) () s') ∧ ∀ rpc, rpc.auth_sys_ = auth → post (.ok rpc) () s') :
    wpM step ok post (connectNfs auth) () s := by
  unfold connectNfs
  refine wpM_bind.mpr (wpM_getport hok fun r s' hstep port => ?_)
  obtain ⟨herr, hrpc⟩ := hpost r s' hstep
  cases port with
  | error e => exact herr e
  | ok port => cases auth <;> exact hrpc _ rfl

/-- A constructor goes on from any answer of the portmapper with some connection. -/
theorem wpM_connectNfs_bind {α : Type} {post : Except Exn α → Unit → S → Prop}
    {auth : Option AuthSys} {f : TcpRpcClient → ClientM Unit α}
    (hok : ok s (getportRequest NFS4_PROG NFS4_VERS))
    (hpost : ∀ r s', step s (getportRequest NFS4_PROG NFS4_VERS) r s' →
      (∀ e, post (.error e) () s') ∧ ∀ rpc, wpM step ok post (f rpc) () s') :
    wpM step ok post (connectNfs auth >>= f) () s :=
  wpM_bind.mpr (wpM_connectNfs hok fun r s' hstep =>
    ⟨(hpost r s' hstep).1, fun rpc _ => (hpost r s' hstep).2 rpc⟩)

end wpM

end NfsClient
