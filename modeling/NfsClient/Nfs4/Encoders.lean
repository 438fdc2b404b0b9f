import NfsClient.Nfs4.Protocol
import NfsClient.Nfs4.Client40
import NfsClient.Nfs4.Client41

/-!
# The encoders write the protocol

Each operation encoder writes the operation it is named after, with its own parameters in the
places that the protocol has for them (`encode*_eq`). A method announces the operations it means
(`CompoundCall.Announces`): its bytes are their encodings one after the other, and its hand-counted
number is their number. The equations hold for arguments of every size; whether the bytes can be
read back is decided by `Fits` alone, in `Requests`.
-/

namespace NfsClient

open Xdr Reader

/-- The encoding of a sequence of operations. -/
def writeOps (ops : List ArgOp) : Bytes := ops.flatMap ArgOp.format.write

@[simp] theorem writeOps_nil : writeOps [] = [] := rfl

@[simp] theorem writeOps_cons (op : ArgOp) (ops : List ArgOp) :
    writeOps (op :: ops) = ArgOp.format.write op ++ writeOps ops := rfl

/-! ### Operations -/

/-- PUTROOTFH for the root sentinel, PUTFH for any other handle. -/
def fhOp (fh : Nfs4Fh) : ArgOp := if fh.data = [] then ⟨.PUTROOTFH, ()⟩ else ⟨.PUTFH, fh.data⟩

/-- The `fattr4` of a `Sattr4`. -/
def Sattr4.wire (attrs : Sattr4) : WireFattr := (attrs.bitmap, attrs.attrlist)

theorem encodeFattr4_eq (attrs : Sattr4) :
    encodeFattr4 attrs = Wire.fattr4.write attrs.wire := by
  rw [encodeFattr4, encodeBitmap4_eq, putOpaque_eq]
  rfl

theorem encodeAttrRequest_eq (ids : List UInt32) :
    encodeAttrRequest ids = Wire.bitmap4.write (makeBitmap4 ids) :=
  encodeBitmap4_eq _

section Ops

attribute [local simp] putUint32_eq putUint64_eq putFixedOpaque_eq putOpaque_eq putString_eq
  encodeStateid4_eq encodeFattr4_eq encodeAttrRequest_eq List.append_assoc

theorem encodeFh_eq (fh : Nfs4Fh) : encodeFh fh = ArgOp.format.write (fhOp fh) := by
  unfold encodeFh fhOp
  split
  · simp only [encodePutrootfh, putUint32_eq]
    exact (List.append_nil _).symm
  · simp only [encodePutfh, encodeNfs4fh, putUint32_eq, putOpaque_eq]
    rfl

theorem encodeGetfh_eq : encodeGetfh = ArgOp.format.write ⟨.GETFH, ()⟩ := by
  simp only [encodeGetfh, putUint32_eq]
  exact (List.append_nil _).symm

theorem encodeSavefh_eq : encodeSavefh = ArgOp.format.write ⟨.SAVEFH, ()⟩ := by
  simp only [encodeSavefh, putUint32_eq]
  exact (List.append_nil _).symm

theorem encodePutrootfh_eq : encodePutrootfh = ArgOp.format.write ⟨.PUTROOTFH, ()⟩ := by
  simp only [encodePutrootfh, putUint32_eq]
  exact (List.append_nil _).symm

theorem encodeReadlink_eq : encodeReadlink = ArgOp.format.write ⟨.READLINK, ()⟩ := by
  simp only [encodeReadlink, putUint32_eq]
  exact (List.append_nil _).symm

theorem encodeLookup_eq (name : Bytes) :
    encodeLookup name = ArgOp.format.write ⟨.LOOKUP, name⟩ := by
  simp [encodeLookup]
  rfl

theorem encodeGetattr_eq (ids : List UInt32) :
    encodeGetattr ids = ArgOp.format.write ⟨.GETATTR, makeBitmap4 ids⟩ := by
  simp [encodeGetattr]
  rfl

theorem encodeAccess_eq (mask : UInt32) :
    encodeAccess mask = ArgOp.format.write ⟨.ACCESS, mask⟩ := by
  simp [encodeAccess]
  rfl

theorem encodeClose_eq (seqid : UInt32) (stateid : Stateid4) :
    encodeClose seqid stateid = ArgOp.format.write ⟨.CLOSE, (seqid, stateid)⟩ := by
  simp [encodeClose]
  rfl

theorem encodeOpenConfirm_eq (stateid : Stateid4) (seqid : UInt32) :
    encodeOpenConfirm stateid seqid = ArgOp.format.write ⟨.OPEN_CONFIRM, (stateid, seqid)⟩ := by
  simp [encodeOpenConfirm]
  rfl

theorem encodeOpenNocreate_eq (seqid share_access : UInt32) (clientid : UInt64)
    (owner name : Bytes) :
    encodeOpenNocreate seqid share_access clientid owner name =
      ArgOp.format.write ⟨.OPEN,
        { seqid, share_access, share_deny := 0, clientid, owner,
          how := ⟨.NOCREATE, ()⟩, claim := ⟨.NULL, name⟩ }⟩ := by
  simp [encodeOpenNocreate, encodeOpenPrefix]
  rfl

theorem encodeOpenCreate_eq (seqid share_access : UInt32) (clientid : UInt64)
    (owner name : Bytes) (attrs : Sattr4) :
    encodeOpenCreate seqid share_access clientid owner name attrs =
      ArgOp.format.write ⟨.OPEN,
        { seqid, share_access, share_deny := 0, clientid, owner,
          how := ⟨.CREATE, ⟨.UNCHECKED, attrs.wire⟩⟩, claim := ⟨.NULL, name⟩ }⟩ := by
  simp [encodeOpenCreate, encodeOpenPrefix]
  rfl

theorem encodeRenew_eq (clientid : UInt64) :
    encodeRenew clientid = ArgOp.format.write ⟨.RENEW, clientid⟩ := by
  simp [encodeRenew]
  rfl

theorem encodeRead_eq (stateid : Stateid4) (offset : UInt64) (count : UInt32) :
    encodeRead stateid offset count = ArgOp.format.write ⟨.READ, (stateid, offset, count)⟩ := by
  simp [encodeRead]
  rfl

theorem encodeWrite_eq (stateid : Stateid4) (offset : UInt64) (stable : Stable4) (data : Bytes) :
    encodeWrite stateid offset stable data =
      ArgOp.format.write ⟨.WRITE, (stateid, offset, stable.value, data)⟩ := by
  simp [encodeWrite]
  rfl

theorem encodeCommit_eq (offset : UInt64) (count : UInt32) :
    encodeCommit offset count = ArgOp.format.write ⟨.COMMIT, (offset, count)⟩ := by
  simp [encodeCommit]
  rfl

theorem encodeCreateDir_eq (name : Bytes) (attrs : Sattr4) :
    encodeCreateDir name attrs =
      ArgOp.format.write ⟨.CREATE, (⟨.DIR, ()⟩, name, attrs.wire)⟩ := by
  simp [encodeCreateDir]
  rfl

theorem encodeCreateSymlink_eq (name target : Bytes) (attrs : Sattr4) :
    encodeCreateSymlink name target attrs =
      ArgOp.format.write ⟨.CREATE, (⟨.LNK, target⟩, name, attrs.wire)⟩ := by
  simp [encodeCreateSymlink]
  rfl

theorem encodeRemove_eq (name : Bytes) :
    encodeRemove name = ArgOp.format.write ⟨.REMOVE, name⟩ := by
  simp [encodeRemove]
  rfl

theorem encodeRename_eq (oldname newname : Bytes) :
    encodeRename oldname newname = ArgOp.format.write ⟨.RENAME, (oldname, newname)⟩ := by
  simp [encodeRename]
  rfl

theorem encodeSetattr_eq (stateid : Stateid4) (attrs : Sattr4) :
    encodeSetattr stateid attrs = ArgOp.format.write ⟨.SETATTR, (stateid, attrs.wire)⟩ := by
  simp [encodeSetattr]
  rfl

theorem encodeReaddir_eq (cookie : UInt64) (cookieverf : Octets 8) (dircount maxcount : UInt32)
    (ids : List UInt32) :
    encodeReaddir cookie cookieverf dircount maxcount ids =
      ArgOp.format.write
        ⟨.READDIR, (cookie, cookieverf, dircount, maxcount, makeBitmap4 ids)⟩ := by
  simp [encodeReaddir]
  rfl

theorem encodeSetclientid_eq (verifier : Octets 8) (client_id : Bytes) (cb_program : UInt32) :
    encodeSetclientid verifier client_id cb_program =
      ArgOp.format.write ⟨.SETCLIENTID,
        (verifier, client_id, cb_program, ascii "tcp", ascii "0.0.0.0.0.0", 0)⟩ := by
  simp [encodeSetclientid]
  rfl

theorem encodeSetclientidConfirm_eq (clientid : UInt64) (confirm_verifier : Octets 8) :
    encodeSetclientidConfirm clientid confirm_verifier =
      ArgOp.format.write ⟨.SETCLIENTID_CONFIRM, (clientid, confirm_verifier)⟩ := by
  simp [encodeSetclientidConfirm]
  rfl

theorem encodeExchangeId_eq (verifier : Octets 8) (client_id : Bytes) :
    encodeExchangeId verifier client_id =
      ArgOp.format.write ⟨.EXCHANGE_ID, (verifier, client_id, 0x00020000, (), [])⟩ := by
  simp [encodeExchangeId]
  rfl

theorem encodeCreateSession_eq (clientid : UInt64) (sequenceid : UInt32) :
    encodeCreateSession clientid sequenceid =
      ArgOp.format.write ⟨.CREATE_SESSION,
        { clientid, sequenceid, flags := 0, fore := (0, 65536, 65536, 1024, 16, 1, []),
          back := (0, 4096, 4096, 256, 16, 1, []), cb_program := 0, sec_parms := [()] }⟩ := by
  simp [encodeCreateSession, encodeChannelAttrs]
  rfl

theorem encodeSequence41_eq (sessionid : SessionId41)
    (sequenceid slotid highest_slotid : UInt32) (cachethis : Bool) :
    encodeSequence41 sessionid sequenceid slotid highest_slotid cachethis =
      ArgOp.format.write
        ⟨.SEQUENCE, ⟨sessionid, sequenceid, slotid, highest_slotid, cachethis⟩⟩ := by
  simp [encodeSequence41]
  rfl

theorem encodeReclaimComplete_eq (one_fs : Bool) :
    encodeReclaimComplete one_fs = ArgOp.format.write ⟨.RECLAIM_COMPLETE, one_fs⟩ := by
  simp [encodeReclaimComplete]
  rfl

end Ops

/-! ### Methods -/

/-- The bytes of a call are the operations `ops`, and its number is their number. -/
structure CompoundCall.Announces {α : Type} (q : CompoundCall α) (ops : List ArgOp) : Prop where
  ops_eq : q.ops = writeOps ops
  numOps_eq : q.numOps = UInt32.ofNat ops.length

/-- The header and the operations of an announced call are a COMPOUND. -/
theorem CompoundCall.Announces.compoundArgs {α : Type} {q : CompoundCall α} {ops : List ArgOp}
    (h : q.Announces ops) (minorversion : UInt32) :
    compoundArgs q.tag q.ops q.numOps minorversion =
      Compound.format.write ⟨q.tag, minorversion, ops⟩ := by
  simp only [NfsClient.compoundArgs, putString_eq, putUint32_eq, List.append_assoc, h.ops_eq,
    h.numOps_eq]
  rfl

/-- The operations of the methods that send one COMPOUND. -/
def FileMethod.argOps : FileMethod → List ArgOp
  | .lookup dir name => [fhOp dir, ⟨.LOOKUP, name⟩, ⟨.GETFH, ()⟩]
  | .getattr fh => [fhOp fh, ⟨.GETATTR, makeBitmap4 getattrIds⟩]
  | .access fh mask => [fhOp fh, ⟨.ACCESS, mask⟩]
  | .close f => [fhOp f.fh, ⟨.CLOSE, (f.seqid, f.stateid)⟩]
  | .read f offset count => [fhOp f.fh, ⟨.READ, (f.stateid, offset, count)⟩]
  | .write f offset stable data =>
    [fhOp f.fh, ⟨.WRITE, (f.stateid, offset, stable.value, data)⟩]
  | .commit f offset count => [fhOp f.fh, ⟨.COMMIT, (offset, count)⟩]
  | .mkdir dir name attrs =>
    [fhOp dir, ⟨.CREATE, (⟨.DIR, ()⟩, name, attrs.wire)⟩, ⟨.GETFH, ()⟩]
  | .remove dir name => [fhOp dir, ⟨.REMOVE, name⟩]
  | .rename src_dir src_name dst_dir dst_name =>
    [fhOp src_dir, ⟨.SAVEFH, ()⟩, fhOp dst_dir, ⟨.RENAME, (src_name, dst_name)⟩]
  | .symlink dir name target attrs =>
    [fhOp dir, ⟨.CREATE, (⟨.LNK, target⟩, name, attrs.wire)⟩, ⟨.GETFH, ()⟩]
  | .readlink fh => [fhOp fh, ⟨.READLINK, ()⟩]
  | .setattr fh attrs => [fhOp fh, ⟨.SETATTR, (Stateid4.anonymous, attrs.wire)⟩]

/-- The arguments of the OPEN of `do_open`. -/
def openArgs (owner name : Bytes) (share_access : UInt32) (create : Bool) (clientid : UInt64)
    (seqid : UInt32) : OpenArgs :=
  { seqid, share_access, share_deny := 0, clientid, owner,
    how := if create then ⟨.CREATE, ⟨.UNCHECKED, Sattr4.wire {}⟩⟩ else ⟨.NOCREATE, ()⟩,
    claim := ⟨.NULL, name⟩ }

theorem encodeOpen_eq (owner name : Bytes) (share_access : UInt32) (create : Bool)
    (clientid : UInt64) (seqid : UInt32) :
    (if create then encodeOpenCreate seqid share_access clientid owner name {}
      else encodeOpenNocreate seqid share_access clientid owner name) =
      ArgOp.format.write ⟨.OPEN, openArgs owner name share_access create clientid seqid⟩ := by
  cases create
  · exact encodeOpenNocreate_eq seqid share_access clientid owner name
  · exact encodeOpenCreate_eq seqid share_access clientid owner name {}

section Announces

attribute [local simp] encodeFh_eq encodeGetfh_eq encodeSavefh_eq encodePutrootfh_eq
  encodeReadlink_eq encodeLookup_eq encodeGetattr_eq encodeAccess_eq encodeClose_eq
  encodeOpenConfirm_eq encodeOpen_eq encodeRenew_eq encodeRead_eq encodeWrite_eq encodeCommit_eq
  encodeCreateDir_eq encodeCreateSymlink_eq encodeRemove_eq encodeRename_eq encodeSetattr_eq
  encodeReaddir_eq List.append_assoc

namespace Nfs4Client

theorem fileCall_announces (m : FileMethod) : (fileCall m).Announces m.argOps := by
  cases m with
  | lookup dir name => exact ⟨by simp [fileCall, lookup, FileMethod.argOps], rfl⟩
  | getattr fh => exact ⟨by simp [fileCall, getattr, FileMethod.argOps], rfl⟩
  | access fh mask => exact ⟨by simp [fileCall, access, FileMethod.argOps], rfl⟩
  | close f => exact ⟨by simp [fileCall, close, FileMethod.argOps], rfl⟩
  | read f offset count => exact ⟨by simp [fileCall, read, FileMethod.argOps], rfl⟩
  | write f offset stable data => exact ⟨by simp [fileCall, write, FileMethod.argOps], rfl⟩
  | commit f offset count => exact ⟨by simp [fileCall, commit, FileMethod.argOps], rfl⟩
  | mkdir dir name attrs => exact ⟨by simp [fileCall, mkdir, FileMethod.argOps], rfl⟩
  | remove dir name => exact ⟨by simp [fileCall, remove, FileMethod.argOps], rfl⟩
  | rename src_dir src_name dst_dir dst_name =>
    exact ⟨by simp [fileCall, rename, FileMethod.argOps], rfl⟩
  | symlink dir name target attrs => exact ⟨by simp [fileCall, symlink, FileMethod.argOps], rfl⟩
  | readlink fh => exact ⟨by simp [fileCall, readlink, FileMethod.argOps], rfl⟩
  | setattr fh attrs => exact ⟨by simp [fileCall, setattr, FileMethod.argOps], rfl⟩

theorem renew_announces (clientid : UInt64) : (renew clientid).Announces [⟨.RENEW, clientid⟩] :=
  ⟨by simp [renew], rfl⟩

theorem openFile_announces (dir : Nfs4Fh) (name : Bytes) (share_access : UInt32) (create : Bool)
    (clientid : UInt64) (seqid : UInt32) :
    (openFile dir name share_access create clientid seqid).Announces
      [fhOp dir, ⟨.OPEN, openArgs owner name share_access create clientid seqid⟩, ⟨.GETFH, ()⟩] :=
  ⟨by simp [openFile], rfl⟩

theorem openConfirm_announces (fh : Nfs4Fh) (stateid : Stateid4) (confirm_seqid : UInt32) :
    (openConfirm fh stateid confirm_seqid).Announces
      [fhOp fh, ⟨.OPEN_CONFIRM, (stateid, confirm_seqid)⟩] :=
  ⟨by simp [openConfirm], rfl⟩

theorem readdirPage_announces (dir : Nfs4Fh) (cookie : UInt64) (cookieverf : Octets 8) :
    (readdirPage dir cookie cookieverf).Announces
      [fhOp dir, ⟨.READDIR, (cookie, cookieverf, 4096, 32768, makeBitmap4 readdirIds)⟩] :=
  ⟨by simp [readdirPage], rfl⟩

theorem setclientid_announces (now : UInt64) :
    (setclientid now).Announces
      [⟨.SETCLIENTID, (bootVerifier now, owner, 0, ascii "tcp", ascii "0.0.0.0.0.0", 0)⟩] :=
  ⟨by simp [setclientid, encodeSetclientid_eq], rfl⟩

theorem setclientidConfirm_announces (r : SetclientidResult) :
    (setclientidConfirm r).Announces
      [⟨.SETCLIENTID_CONFIRM, (r.clientid, r.confirm_verifier)⟩] :=
  ⟨by simp [setclientidConfirm, encodeSetclientidConfirm_eq], rfl⟩

theorem getRootFh_announces : getRootFh.Announces [⟨.PUTROOTFH, ()⟩, ⟨.GETFH, ()⟩] :=
  ⟨by simp [getRootFh], rfl⟩

end Nfs4Client

namespace Nfs41Client

theorem fileCall_announces (m : FileMethod) : (fileCall m).Announces m.argOps := by
  cases m with
  | lookup dir name => exact ⟨by simp [fileCall, lookup, FileMethod.argOps], rfl⟩
  | getattr fh => exact ⟨by simp [fileCall, getattr, FileMethod.argOps], rfl⟩
  | access fh mask => exact ⟨by simp [fileCall, access, FileMethod.argOps], rfl⟩
  | close f => exact ⟨by simp [fileCall, close, FileMethod.argOps], rfl⟩
  | read f offset count => exact ⟨by simp [fileCall, read, FileMethod.argOps], rfl⟩
  | write f offset stable data => exact ⟨by simp [fileCall, write, FileMethod.argOps], rfl⟩
  | commit f offset count => exact ⟨by simp [fileCall, commit, FileMethod.argOps], rfl⟩
  | mkdir dir name attrs => exact ⟨by simp [fileCall, mkdir, FileMethod.argOps], rfl⟩
  | remove dir name => exact ⟨by simp [fileCall, remove, FileMethod.argOps], rfl⟩
  | rename src_dir src_name dst_dir dst_name =>
    exact ⟨by simp [fileCall, rename, FileMethod.argOps], rfl⟩
  | symlink dir name target attrs => exact ⟨by simp [fileCall, symlink, FileMethod.argOps], rfl⟩
  | readlink fh => exact ⟨by simp [fileCall, readlink, FileMethod.argOps], rfl⟩
  | setattr fh attrs => exact ⟨by simp [fileCall, setattr, FileMethod.argOps], rfl⟩

theorem openFile_announces (dir : Nfs4Fh) (name : Bytes) (share_access : UInt32) (create : Bool)
    (clientid : UInt64) (seqid : UInt32) :
    (openFile dir name share_access create clientid seqid).Announces
      [fhOp dir, ⟨.OPEN, openArgs owner name share_access create clientid seqid⟩, ⟨.GETFH, ()⟩] :=
  ⟨by simp [openFile], rfl⟩

theorem readdirPage_announces (dir : Nfs4Fh) (cookie : UInt64) (cookieverf : Octets 8) :
    (readdirPage dir cookie cookieverf).Announces
      [fhOp dir, ⟨.READDIR, (cookie, cookieverf, 4096, 32768, makeBitmap4 readdirIds)⟩] :=
  ⟨by simp [readdirPage], rfl⟩

theorem exchangeId_announces (now : UInt64) :
    (exchangeId now).Announces
      [⟨.EXCHANGE_ID, (bootVerifier now, owner, 0x00020000, (), [])⟩] :=
  ⟨by simp [exchangeId, encodeExchangeId_eq], rfl⟩

/-- The arguments of the CREATE_SESSION of the constructor. -/
def createSessionArgs (exid : ExchangeIdResult) : CreateSessionArgs :=
  { clientid := exid.clientid, sequenceid := exid.sequenceid, flags := 0,
    fore := (0, 65536, 65536, 1024, 16, 1, []), back := (0, 4096, 4096, 256, 16, 1, []),
    cb_program := 0, sec_parms := [()] }

theorem createSession_announces (exid : ExchangeIdResult) :
    (createSession exid).Announces [⟨.CREATE_SESSION, createSessionArgs exid⟩] :=
  ⟨by simp [createSession, encodeCreateSession_eq, createSessionArgs], rfl⟩

theorem reclaimComplete_announces : reclaimComplete.Announces [⟨.RECLAIM_COMPLETE, false⟩] :=
  ⟨by simp [reclaimComplete, encodeReclaimComplete_eq], rfl⟩

theorem getRootFh_announces : getRootFh.Announces [⟨.PUTROOTFH, ()⟩, ⟨.GETFH, ()⟩] :=
  ⟨by simp [getRootFh], rfl⟩

/-- The SEQUENCE that `compound41` puts in front. -/
def sequenceOp (sessionid : SessionId41) (slot_seqid : UInt32) : ArgOp :=
  ⟨.SEQUENCE, ⟨sessionid, slot_seqid, 0, 0, false⟩⟩

/-- What `compound41` sends announces one operation more than the method counted. -/
theorem sequenced_compoundArgs {α : Type} {q : CompoundCall α} {ops : List ArgOp}
    (h : q.Announces ops) (sessionid : SessionId41) (slot_seqid : UInt32) :
    compoundArgs q.tag (sequencedOps sessionid slot_seqid q.ops) (q.numOps + 1) 1 =
      Compound.format.write ⟨q.tag, 1, sequenceOp sessionid slot_seqid :: ops⟩ := by
  have hseq : CompoundCall.Announces
      { q with ops := sequencedOps sessionid slot_seqid q.ops, numOps := q.numOps + 1 }
      (sequenceOp sessionid slot_seqid :: ops) := by
    constructor
    · change encodeSequence41 sessionid slot_seqid 0 0 false ++ q.ops = _
      rw [encodeSequence41_eq, h.ops_eq]
      rfl
    · change q.numOps + 1 = UInt32.ofNat (ops.length + 1)
      rw [h.numOps_eq, UInt32.ofNat_add]
      rfl
  exact hseq.compoundArgs 1

end Nfs41Client

end Announces

end NfsClient
