import NfsClient.Xdr.Codec

/-!
# NFSv3 types

`nfs3_types.hpp`, and the argument and result structures of the procedure headers. The enumerations
that only the caller supplies are inductive types; the two that a `static_cast` also fills from the
wire, `Stable3` and `Ftype3`, are words with named constants.

A settable attribute has a flag beside its value. The value of a field whose flag is off is not
sent, whatever it is.
-/

namespace NfsClient

open Xdr Reader

/-- NFSv3 file handle. -/
structure Fh3 where
  data : Bytes
  deriving DecidableEq, Repr

/-- `stable_how`. -/
structure Stable3 where
  value : UInt32
  deriving DecidableEq, Repr

namespace Stable3
def UNSTABLE : Stable3 := ⟨0⟩
def DATA_SYNC : Stable3 := ⟨1⟩
def FILE_SYNC : Stable3 := ⟨2⟩
end Stable3

/-- The result of `write`. -/
structure WriteResult where
  count : UInt32
  committed : Stable3
  verf : Octets 8
  deriving DecidableEq

structure Ftype3 where
  value : UInt32
  deriving DecidableEq, Repr

namespace Ftype3
def NF3DIR : Ftype3 := ⟨2⟩
def NF3BLK : Ftype3 := ⟨3⟩
def NF3CHR : Ftype3 := ⟨4⟩
def NF3SOCK : Ftype3 := ⟨6⟩
def NF3FIFO : Ftype3 := ⟨7⟩
end Ftype3

structure Nfstime3 where
  seconds : UInt32
  nseconds : UInt32
  deriving DecidableEq, Repr

structure Specdata3 where
  specdata1 : UInt32
  specdata2 : UInt32
  deriving DecidableEq, Repr

/-- File attributes. -/
structure Fattr3 where
  type : Ftype3
  mode : UInt32
  nlink : UInt32
  uid : UInt32
  gid : UInt32
  size : UInt64
  used : UInt64
  rdev : Specdata3
  fsid : UInt64
  fileid : UInt64
  atime : Nfstime3
  mtime : Nfstime3
  ctime : Nfstime3
  deriving DecidableEq, Repr

/-- `Fattr3{}`. -/
def Fattr3.zero : Fattr3 :=
  ⟨⟨0⟩, 0, 0, 0, 0, 0, 0, ⟨0, 0⟩, 0, 0, ⟨0, 0⟩, ⟨0, 0⟩, ⟨0, 0⟩⟩

/-- How a time field is set. -/
inductive SetTimeHow
  | DONT_CHANGE | SET_TO_SERVER_TIME | SET_TO_CLIENT_TIME
  deriving DecidableEq, Repr

def SetTimeHow.code : SetTimeHow → UInt32
  | DONT_CHANGE => 0 | SET_TO_SERVER_TIME => 1 | SET_TO_CLIENT_TIME => 2

/-- Settable attributes, a flag and a value each. -/
structure Sattr3 where
  set_mode : Bool := false
  mode : UInt32 := 0o644
  set_uid : Bool := false
  uid : UInt32 := 0
  set_gid : Bool := false
  gid : UInt32 := 0
  set_size : Bool := false
  size : UInt64 := 0
  set_atime : SetTimeHow := .DONT_CHANGE
  atime_sec : UInt32 := 0
  atime_nsec : UInt32 := 0
  set_mtime : SetTimeHow := .DONT_CHANGE
  mtime_sec : UInt32 := 0
  mtime_nsec : UInt32 := 0
  deriving DecidableEq, Repr

/-- The guard of SETATTR on the ctime (setattr.hpp). -/
structure SattrGuard3 where
  check : Bool := false
  ctime_sec : UInt32 := 0
  ctime_nsec : UInt32 := 0
  deriving DecidableEq, Repr

/-- The discriminant of `createhow3` (create.hpp). -/
inductive CreateMode3
  | UNCHECKED | GUARDED | EXCLUSIVE
  deriving DecidableEq, Repr

def CreateMode3.code : CreateMode3 → UInt32
  | UNCHECKED => 0 | GUARDED => 1 | EXCLUSIVE => 2

/-- Device numbers (mknod.hpp). -/
structure DeviceSpec3 where
  major_num : UInt32 := 0
  minor_num : UInt32 := 0
  deriving DecidableEq, Repr

/-! ### Results (fsinfo.hpp, readdir.hpp, readdirplus.hpp, mount.hpp) -/

structure FsstatResult where
  tbytes : UInt64
  fbytes : UInt64
  abytes : UInt64
  tfiles : UInt64
  ffiles : UInt64
  afiles : UInt64
  invarsec : UInt32
  deriving DecidableEq, Repr

structure FsinfoResult where
  rtmax : UInt32
  rtpref : UInt32
  rtmult : UInt32
  wtmax : UInt32
  wtpref : UInt32
  wtmult : UInt32
  dtpref : UInt32
  maxfilesize : UInt64
  time_delta : Nfstime3
  properties : UInt32
  deriving DecidableEq, Repr

structure PathconfResult where
  linkmax : UInt32
  name_max : UInt32
  no_trunc : Bool
  chown_restricted : Bool
  case_insensitive : Bool
  case_preserving : Bool
  deriving DecidableEq, Repr

structure DirEntry3 where
  fileid : UInt64
  name : Bytes
  cookie : UInt64
  deriving DecidableEq, Repr

structure ReaddirPage where
  entries : List DirEntry3
  eof : Bool
  cookieverf : Octets 8

/-- `attrs` and `fh` are valid only under their flags. -/
structure DirEntryPlus3 where
  fileid : UInt64
  name : Bytes
  cookie : UInt64
  has_attrs : Bool
  attrs : Fattr3
  has_fh : Bool
  fh : Fh3
  deriving DecidableEq, Repr

structure ReaddirplusPage where
  entries : List DirEntryPlus3
  eof : Bool
  cookieverf : Octets 8

structure ExportEntry where
  path : Bytes
  groups : List Bytes
  deriving DecidableEq, Repr

/-! ### XDR helpers -/

def encodeFh3 (fh : Fh3) : Bytes := putOpaque fh.data

def decodeFh3 : XdrDecoder Fh3 := Fh3.mk <$> getOpaque

def decodeFattr3 : XdrDecoder Fattr3 := do
  let type ← getUint32
  let mode ← getUint32
  let nlink ← getUint32
  let uid ← getUint32
  let gid ← getUint32
  let size ← getUint64
  let used ← getUint64
  let specdata1 ← getUint32
  let specdata2 ← getUint32
  let fsid ← getUint64
  let fileid ← getUint64
  let atime_sec ← getUint32
  let atime_nsec ← getUint32
  let mtime_sec ← getUint32
  let mtime_nsec ← getUint32
  let ctime_sec ← getUint32
  let ctime_nsec ← getUint32
  return ⟨⟨type⟩, mode, nlink, uid, gid, size, used, ⟨specdata1, specdata2⟩, fsid, fileid,
    ⟨atime_sec, atime_nsec⟩, ⟨mtime_sec, mtime_nsec⟩, ⟨ctime_sec, ctime_nsec⟩⟩

/-- A flag, and the value when the flag is on. -/
def putIf (flag : Bool) (value : Bytes) : Bytes :=
  putUint32 (if flag then 1 else 0) ++ (if flag then value else [])

/-- A time mode, and the time when it comes from the client. -/
def putSetTime (how : SetTimeHow) (sec nsec : UInt32) : Bytes :=
  putUint32 how.code ++
    (if how = .SET_TO_CLIENT_TIME then putUint32 sec ++ putUint32 nsec else [])

def encodeSattr3 (s : Sattr3) : Bytes :=
  putIf s.set_mode (putUint32 s.mode) ++ putIf s.set_uid (putUint32 s.uid) ++
    putIf s.set_gid (putUint32 s.gid) ++ putIf s.set_size (putUint64 s.size) ++
    putSetTime s.set_atime s.atime_sec s.atime_nsec ++
    putSetTime s.set_mtime s.mtime_sec s.mtime_nsec

/-- `post_op_attr`, read and dropped. -/
def skipPostOpAttr : XdrDecoder Unit := do
  let follows ← getUint32
  if follows ≠ 0 then
    let _attrs ← decodeFattr3

/-- `pre_op_attr`: the six words of a `wcc_attr`, read and dropped. -/
def skipPreOpAttr : XdrDecoder Unit := do
  let follows ← getUint32
  if follows ≠ 0 then
    let _words ← times getUint32 6

def skipWccData : XdrDecoder Unit := do
  skipPreOpAttr
  skipPostOpAttr

end NfsClient
