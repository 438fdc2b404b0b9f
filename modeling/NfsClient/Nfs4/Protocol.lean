import NfsClient.Nfs4.Grammar

/-!
# The NFSv4 protocol: COMPOUND

The arguments and the success results of the operations that the client uses, the COMPOUND around
them, and the current and saved filehandle that its operations work on. An operation is `⟨o, a⟩`
with `a : o.Args`, a result is `⟨o, r⟩` with `r : o.Res`.

Of `state_protect4_a`, `state_protect4_r` and `callback_sec_parms4` only the arm without a body is
there, and the maximum lengths that the protocol puts on single items are not: an item may have any
length that its count can express.
-/

namespace NfsClient

open Xdr Xdr.Format

/-! ### Arguments -/

structure OpenArgs where
  seqid : UInt32
  share_access : UInt32
  share_deny : UInt32
  clientid : UInt64
  owner : Bytes
  how : (t : OpenType) × t.Arm
  claim : (t : ClaimType) × t.Arm

structure SequenceArgs where
  sessionid : SessionId41
  sequenceid : UInt32
  slotid : UInt32
  highest_slotid : UInt32
  cachethis : Bool
  deriving DecidableEq

structure CreateSessionArgs where
  clientid : UInt64
  sequenceid : UInt32
  flags : UInt32
  fore : ChannelAttrs
  back : ChannelAttrs
  cb_program : UInt32
  sec_parms : List Unit

namespace Wire

def openArgs : Format OpenArgs :=
  (pair word (pair word (pair word (pair hyper (pair bytes
    (pair OpenType.format ClaimType.format)))))).map
    ⟨fun ⟨seqid, share_access, share_deny, clientid, owner, how, claim⟩ =>
        ⟨seqid, share_access, share_deny, clientid, owner, how, claim⟩,
      fun a => (a.seqid, a.share_access, a.share_deny, a.clientid, a.owner, a.how, a.claim),
      fun _ => rfl, fun _ => rfl⟩

def sequenceArgs : Format SequenceArgs :=
  (pair (octets 16) (pair word (pair word (pair word bool)))).map
    ⟨fun ⟨sessionid, sequenceid, slotid, highest_slotid, cachethis⟩ =>
        ⟨sessionid, sequenceid, slotid, highest_slotid, cachethis⟩,
      fun a => (a.sessionid, a.sequenceid, a.slotid, a.highest_slotid, a.cachethis),
      fun _ => rfl, fun _ => rfl⟩

def createSessionArgs : Format CreateSessionArgs :=
  (pair hyper (pair word (pair word (pair channelAttrs (pair channelAttrs
    (pair word (array (literal 0)))))))).map
    ⟨fun ⟨clientid, sequenceid, flags, fore, back, cb_program, sec_parms⟩ =>
        ⟨clientid, sequenceid, flags, fore, back, cb_program, sec_parms⟩,
      fun a => (a.clientid, a.sequenceid, a.flags, a.fore, a.back, a.cb_program, a.sec_parms),
      fun _ => rfl, fun _ => rfl⟩

end Wire

namespace Op

/-- The arguments of an operation. -/
@[reducible] def Args : Op → Type
  | ACCESS => UInt32
  | CLOSE => UInt32 × Stateid4
  | COMMIT => UInt64 × UInt32
  | CREATE => ((t : CreateType) × t.Arm) × Bytes × WireFattr
  | GETATTR => List UInt32
  | GETFH | PUTROOTFH | READLINK | SAVEFH => Unit
  | LOOKUP | PUTFH | REMOVE => Bytes
  | OPEN => OpenArgs
  | OPEN_CONFIRM => Stateid4 × UInt32
  | READ => Stateid4 × UInt64 × UInt32
  | READDIR => UInt64 × Octets 8 × UInt32 × UInt32 × List UInt32
  | RENAME => Bytes × Bytes
  | RENEW => UInt64
  | SETATTR => Stateid4 × WireFattr
  | SETCLIENTID => Octets 8 × Bytes × UInt32 × Bytes × Bytes × UInt32
  | SETCLIENTID_CONFIRM => UInt64 × Octets 8
  | WRITE => Stateid4 × UInt64 × UInt32 × Bytes
  | EXCHANGE_ID => Octets 8 × Bytes × UInt32 × Unit × List ImplId
  | CREATE_SESSION => CreateSessionArgs
  | SEQUENCE => SequenceArgs
  | RECLAIM_COMPLETE => Bool

def argFormat : (o : Op) → Format o.Args
  | ACCESS => word
  | CLOSE => pair word Wire.stateid4
  | COMMIT => pair hyper word
  | CREATE => pair CreateType.format (pair bytes Wire.fattr4)
  | GETATTR => Wire.bitmap4
  | GETFH | PUTROOTFH | READLINK | SAVEFH => void
  | LOOKUP | PUTFH | REMOVE => bytes
  | OPEN => Wire.openArgs
  | OPEN_CONFIRM => pair Wire.stateid4 word
  | READ => pair Wire.stateid4 (pair hyper word)
  | READDIR => pair hyper (pair (octets 8) (pair word (pair word Wire.bitmap4)))
  | RENAME => pair bytes bytes
  | RENEW => hyper
  | SETATTR => pair Wire.stateid4 Wire.fattr4
  | SETCLIENTID =>
    pair (octets 8) (pair bytes (pair word (pair bytes (pair bytes word))))
  | SETCLIENTID_CONFIRM => pair hyper (octets 8)
  | WRITE => pair Wire.stateid4 (pair hyper (pair word bytes))
  | EXCHANGE_ID =>
    pair (octets 8) (pair bytes (pair word (pair (literal 0) (array Wire.implId))))
  | CREATE_SESSION => Wire.createSessionArgs
  | SEQUENCE => Wire.sequenceArgs
  | RECLAIM_COMPLETE => bool

end Op

/-- `nfs_argop4`. -/
abbrev ArgOp : Type := (o : Op) × o.Args

theorem Op.findArm_code (o : Op) : findArm Op.code Op.all o.code = some o := by
  cases o <;> rfl

def ArgOp.format : Format ArgOp :=
  union Op.code (findArm Op.code Op.all) (findArm_eq Op.findArm_code) Op.argFormat

/-- `COMPOUND4args`. -/
structure Compound where
  tag : Bytes
  minorversion : UInt32
  ops : List ArgOp

/-- The count in front of the operations is that of `array`. -/
def Compound.format : Format Compound :=
  (pair bytes (pair word (array ArgOp.format))).map
    ⟨fun ⟨tag, minorversion, ops⟩ => ⟨tag, minorversion, ops⟩,
      fun c => (c.tag, c.minorversion, c.ops), fun _ => rfl, fun _ => rfl⟩

/-! ### Results -/

structure OpenRes where
  stateid : Stateid4
  cinfo : ChangeInfo
  rflags : UInt32
  attrset : List UInt32
  delegation : (t : DelegType) × t.Arm

structure SequenceRes where
  sessionid : SessionId41
  sequenceid : UInt32
  slotid : UInt32
  highest_slotid : UInt32
  target_highest_slotid : UInt32
  status_flags : UInt32

structure ExchangeIdRes where
  clientid : UInt64
  sequenceid : UInt32
  flags : UInt32
  state_protect : Unit
  so_minor_id : UInt64
  so_major_id : Bytes
  server_scope : Bytes
  server_impl_id : List ImplId

structure CreateSessionRes where
  sessionid : SessionId41
  sequence : UInt32
  flags : UInt32
  fore : ChannelAttrs
  back : ChannelAttrs

namespace Wire

def openRes : Format OpenRes :=
  (pair stateid4 (pair changeInfo4 (pair word (pair bitmap4 DelegType.format)))).map
    ⟨fun ⟨stateid, cinfo, rflags, attrset, delegation⟩ =>
        ⟨stateid, cinfo, rflags, attrset, delegation⟩,
      fun r => (r.stateid, r.cinfo, r.rflags, r.attrset, r.delegation),
      fun _ => rfl, fun _ => rfl⟩

def sequenceRes : Format SequenceRes :=
  (pair (octets 16) (pair word (pair word (pair word (pair word word))))).map
    ⟨fun ⟨sessionid, sequenceid, slotid, highest_slotid, target_highest_slotid, status_flags⟩ =>
        ⟨sessionid, sequenceid, slotid, highest_slotid, target_highest_slotid, status_flags⟩,
      fun r => (r.sessionid, r.sequenceid, r.slotid, r.highest_slotid, r.target_highest_slotid,
        r.status_flags),
      fun _ => rfl, fun _ => rfl⟩

def exchangeIdRes : Format ExchangeIdRes :=
  (pair hyper (pair word (pair word (pair (literal 0) (pair hyper (pair bytes (pair bytes
    (array implId)))))))).map
    ⟨fun ⟨clientid, sequenceid, flags, state_protect, so_minor_id, so_major_id, server_scope,
          server_impl_id⟩ =>
        ⟨clientid, sequenceid, flags, state_protect, so_minor_id, so_major_id, server_scope,
          server_impl_id⟩,
      fun r => (r.clientid, r.sequenceid, r.flags, r.state_protect, r.so_minor_id, r.so_major_id,
        r.server_scope, r.server_impl_id),
      fun _ => rfl, fun _ => rfl⟩

def createSessionRes : Format CreateSessionRes :=
  (pair (octets 16) (pair word (pair word (pair channelAttrs channelAttrs)))).map
    ⟨fun ⟨sessionid, sequence, flags, fore, back⟩ => ⟨sessionid, sequence, flags, fore, back⟩,
      fun r => (r.sessionid, r.sequence, r.flags, r.fore, r.back), fun _ => rfl, fun _ => rfl⟩

end Wire

namespace Op

/-- The body of a success result. -/
@[reducible] def Res : Op → Type
  | ACCESS => UInt32 × UInt32
  | CLOSE | OPEN_CONFIRM => Stateid4
  | COMMIT => Octets 8
  | CREATE => ChangeInfo × List UInt32
  | GETATTR => WireFattr
  | GETFH | READLINK => Bytes
  | LOOKUP | PUTFH | PUTROOTFH | RENEW | SAVEFH | SETCLIENTID_CONFIRM | RECLAIM_COMPLETE => Unit
  | OPEN => OpenRes
  | READ => Bool × Bytes
  | READDIR => Octets 8 × List (UInt64 × Bytes × WireFattr) × Bool
  | REMOVE => ChangeInfo
  | RENAME => ChangeInfo × ChangeInfo
  | SETATTR => List UInt32
  | SETCLIENTID => UInt64 × Octets 8
  | WRITE => UInt32 × UInt32 × Octets 8
  | EXCHANGE_ID => ExchangeIdRes
  | CREATE_SESSION => CreateSessionRes
  | SEQUENCE => SequenceRes

def resFormat : (o : Op) → Format o.Res
  | ACCESS => pair word word
  | CLOSE | OPEN_CONFIRM => Wire.stateid4
  | COMMIT => octets 8
  | CREATE => pair Wire.changeInfo4 Wire.bitmap4
  | GETATTR => Wire.fattr4
  | GETFH | READLINK => bytes
  | LOOKUP | PUTFH | PUTROOTFH | RENEW | SAVEFH | SETCLIENTID_CONFIRM | RECLAIM_COMPLETE => void
  | OPEN => Wire.openRes
  | READ => pair bool bytes
  | READDIR => pair (octets 8) (pair (chain (pair hyper (pair bytes Wire.fattr4))) bool)
  | REMOVE => Wire.changeInfo4
  | RENAME => pair Wire.changeInfo4 Wire.changeInfo4
  | SETATTR => Wire.bitmap4
  | SETCLIENTID => pair hyper (octets 8)
  | WRITE => pair word (pair word (octets 8))
  | EXCHANGE_ID => Wire.exchangeIdRes
  | CREATE_SESSION => Wire.createSessionRes
  | SEQUENCE => Wire.sequenceRes

end Op

/-- A success result: `nfs_resop4` with the status `NFS4_OK`. -/
abbrev ResOp : Type := (o : Op) × o.Res

def ResOp.format : Format ResOp :=
  (union Op.code (findArm Op.code Op.all) (findArm_eq Op.findArm_code)
    fun o => pair (literal 0) o.resFormat).map
    ⟨fun x => ⟨x.1, x.2.2⟩, fun r => ⟨r.1, (), r.2⟩, fun _ => rfl, fun _ => rfl⟩

/-- `COMPOUND4res` with the status `NFS4_OK`. -/
structure SuccessReply where
  tag : Bytes
  results : List ResOp

def SuccessReply.format : Format SuccessReply :=
  (pair (literal 0) (pair bytes (array ResOp.format))).map
    ⟨fun x => ⟨x.2.1, x.2.2⟩, fun r => ((), r.tag, r.results), fun _ => rfl, fun _ => rfl⟩

/-! ### Filehandles -/

/-- What a filehandle register refers to: the root, the object of a handle that the client sent,
or the object that an operation reached from there by name. -/
inductive Obj
  | root
  | handle (data : Bytes)
  | entry (dir : Obj) (name : Bytes)
  deriving DecidableEq, Repr

/-- The current and the saved filehandle. -/
structure FhState where
  current : Option Obj
  saved : Option Obj
  deriving DecidableEq, Repr

namespace ArgOp

/-- The file that OPEN makes the current one. -/
def openTarget (a : OpenArgs) (dir : Obj) : Obj :=
  match a.claim with
  | ⟨.NULL, name⟩ => .entry dir name
  | ⟨.PREVIOUS, _⟩ => dir
  | ⟨.DELEGATE_CUR, (_, name)⟩ => .entry dir name
  | ⟨.DELEGATE_PREV, name⟩ => .entry dir name

/-- The filehandles after an operation that succeeds. -/
def step : ArgOp → FhState → FhState
  | ⟨.PUTFH, fh⟩, s => { s with current := some (.handle fh) }
  | ⟨.PUTROOTFH, _⟩, s => { s with current := some .root }
  | ⟨.SAVEFH, _⟩, s => { s with saved := s.current }
  | ⟨.LOOKUP, name⟩, s => { s with current := s.current.map (.entry · name) }
  | ⟨.CREATE, (_, name, _)⟩, s => { s with current := s.current.map (.entry · name) }
  | ⟨.OPEN, a⟩, s => { s with current := s.current.map (openTarget a) }
  | _, s => s

/-- The operation does nothing but set a filehandle. -/
def setsFh (op : ArgOp) : Bool := op.1 = .PUTFH ∨ op.1 = .PUTROOTFH ∨ op.1 = .SAVEFH

end ArgOp

/-- An operation and the filehandles it is applied to. -/
structure Effect where
  op : ArgOp
  current : Option Obj
  saved : Option Obj

/-- What a COMPOUND does when every operation succeeds, from given filehandles: its operations
other than those that set a filehandle, each with the filehandles it finds. -/
def effectsFrom : List ArgOp → FhState → List Effect
  | [], _ => []
  | op :: ops, s =>
    if op.setsFh then effectsFrom ops (op.step s)
    else ⟨op, s.current, s.saved⟩ :: effectsFrom ops (op.step s)

/-- A COMPOUND starts with no filehandle. -/
def effects (ops : List ArgOp) : List Effect := effectsFrom ops ⟨none, none⟩

end NfsClient
