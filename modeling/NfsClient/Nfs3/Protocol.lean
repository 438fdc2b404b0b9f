import NfsClient.Lib.XdrGrammar
import NfsClient.Nfs3.Types

/-!
# The NFSv3 and MOUNT protocols

What a server reads and writes, from RFC 1813 and not from the client: the arguments of each
procedure (`Proc.argFormat`), its result on the status `NFS3_OK` (`Proc.okFormat`), and its result on
any other status (`Proc.failFormat`). A result is the status word and the body of its arm.

Nearly every result has optional attributes in it: `post_op_attr`, an optional `fattr3` of 84 bytes,
and `wcc_data`, an optional `wcc_attr` of 24 bytes followed by a `post_op_attr`. The maximum lengths
that the protocol puts on handles and names are not here: an item may have any length that its count
can express.
-/

namespace NfsClient

open Xdr Xdr.Format

namespace Nfs3

/-! ### Procedures -/

inductive Proc
  | GETATTR | SETATTR | LOOKUP | ACCESS | READLINK | READ | WRITE | CREATE | MKDIR | SYMLINK
  | MKNOD | REMOVE | RMDIR | RENAME | LINK | READDIR | READDIRPLUS | FSSTAT | FSINFO | PATHCONF
  | COMMIT
  deriving DecidableEq, Repr

/-- The procedure number. -/
def Proc.code : Proc → UInt32
  | GETATTR => 1 | SETATTR => 2 | LOOKUP => 3 | ACCESS => 4 | READLINK => 5 | READ => 6
  | WRITE => 7 | CREATE => 8 | MKDIR => 9 | SYMLINK => 10 | MKNOD => 11 | REMOVE => 12
  | RMDIR => 13 | RENAME => 14 | LINK => 15 | READDIR => 16 | READDIRPLUS => 17 | FSSTAT => 18
  | FSINFO => 19 | PATHCONF => 20 | COMMIT => 21

/-! ### Settable attributes -/

/-- `set_atime` and `set_mtime`: the time comes from the client in one arm only. -/
@[reducible] def TimeArm : SetTimeHow → Type
  | .DONT_CHANGE | .SET_TO_SERVER_TIME => Unit
  | .SET_TO_CLIENT_TIME => Nfstime3

/-- `sattr3`: each attribute set or not set. -/
structure SetAttrs where
  mode : Option UInt32
  uid : Option UInt32
  gid : Option UInt32
  size : Option UInt64
  atime : (h : SetTimeHow) × TimeArm h
  mtime : (h : SetTimeHow) × TimeArm h

namespace Wire

def nfstime3 : Format Nfstime3 :=
  (pair word word).map
    ⟨fun x => ⟨x.1, x.2⟩, fun t => (t.seconds, t.nseconds), fun _ => rfl, fun _ => rfl⟩

def setTime : Format ((h : SetTimeHow) × TimeArm h) :=
  union SetTimeHow.code
    (findArm SetTimeHow.code [.DONT_CHANGE, .SET_TO_SERVER_TIME, .SET_TO_CLIENT_TIME])
    (findArm_eq (by intro k; cases k <;> rfl)) fun
    | .DONT_CHANGE | .SET_TO_SERVER_TIME => void
    | .SET_TO_CLIENT_TIME => nfstime3

def sattr3 : Format SetAttrs :=
  (pair (optional word) (pair (optional word) (pair (optional word) (pair (optional hyper)
    (pair setTime setTime))))).map
    ⟨fun ⟨mode, uid, gid, size, atime, mtime⟩ => ⟨mode, uid, gid, size, atime, mtime⟩,
      fun a => (a.mode, a.uid, a.gid, a.size, a.atime, a.mtime), fun _ => rfl, fun _ => rfl⟩

end Wire

/-- `createhow3`: settable attributes, or a verifier. -/
@[reducible] def CreateArm : CreateMode3 → Type
  | .UNCHECKED | .GUARDED => SetAttrs
  | .EXCLUSIVE => Octets 8

/-- The types of `mknoddata3` that have data. -/
inductive NodeType
  | BLK | CHR | SOCK | FIFO
  deriving DecidableEq, Repr

def NodeType.code : NodeType → UInt32
  | BLK => 3 | CHR => 4 | SOCK => 6 | FIFO => 7

/-- `mknoddata3`: a device has its numbers behind its attributes. -/
@[reducible] def NodeArm : NodeType → Type
  | .BLK | .CHR => SetAttrs × UInt32 × UInt32
  | .SOCK | .FIFO => SetAttrs

namespace Wire

def createHow : Format ((m : CreateMode3) × CreateArm m) :=
  union CreateMode3.code (findArm CreateMode3.code [.UNCHECKED, .GUARDED, .EXCLUSIVE])
    (findArm_eq (by intro k; cases k <;> rfl)) fun
    | .UNCHECKED | .GUARDED => sattr3
    | .EXCLUSIVE => octets 8

def mknodData : Format ((t : NodeType) × NodeArm t) :=
  union NodeType.code (findArm NodeType.code [.BLK, .CHR, .SOCK, .FIFO])
    (findArm_eq (by intro k; cases k <;> rfl)) fun
    | .BLK | .CHR => pair sattr3 (pair word word)
    | .SOCK | .FIFO => sattr3

end Wire

/-! ### Arguments -/

namespace Proc

/-- A handle is its bytes; `diropargs3` is the handle of a directory and a name. -/
@[reducible] def Args : Proc → Type
  | GETATTR | READLINK | FSSTAT | FSINFO | PATHCONF => Bytes
  | SETATTR => Bytes × SetAttrs × Option Nfstime3
  | LOOKUP | REMOVE | RMDIR => Bytes × Bytes
  | ACCESS => Bytes × UInt32
  | READ | COMMIT => Bytes × UInt64 × UInt32
  | WRITE => Bytes × UInt64 × UInt32 × UInt32 × Bytes
  | CREATE => Bytes × Bytes × (m : CreateMode3) × CreateArm m
  | MKDIR => Bytes × Bytes × SetAttrs
  | SYMLINK => Bytes × Bytes × SetAttrs × Bytes
  | MKNOD => Bytes × Bytes × (t : NodeType) × NodeArm t
  | RENAME => (Bytes × Bytes) × Bytes × Bytes
  | LINK => Bytes × Bytes × Bytes
  | READDIR => Bytes × UInt64 × Octets 8 × UInt32
  | READDIRPLUS => Bytes × UInt64 × Octets 8 × UInt32 × UInt32

def argFormat : (p : Proc) → Format p.Args
  | GETATTR | READLINK | FSSTAT | FSINFO | PATHCONF => bytes
  | SETATTR => pair bytes (pair Wire.sattr3 (optional Wire.nfstime3))
  | LOOKUP | REMOVE | RMDIR => pair bytes bytes
  | ACCESS => pair bytes word
  | READ | COMMIT => pair bytes (pair hyper word)
  -- offset, count, stable_how, data
  | WRITE => pair bytes (pair hyper (pair word (pair word bytes)))
  | CREATE => pair bytes (pair bytes Wire.createHow)
  | MKDIR => pair bytes (pair bytes Wire.sattr3)
  -- the attributes of the link come before its text
  | SYMLINK => pair bytes (pair bytes (pair Wire.sattr3 bytes))
  | MKNOD => pair bytes (pair bytes Wire.mknodData)
  | RENAME => pair (pair bytes bytes) (pair bytes bytes)
  | LINK => pair bytes (pair bytes bytes)
  | READDIR => pair bytes (pair hyper (pair (octets 8) word))
  | READDIRPLUS => pair bytes (pair hyper (pair (octets 8) (pair word word)))

end Proc

/-! ### Results -/

/-- `wcc_attr`: size, mtime, ctime. -/
abbrev WccAttr : Type := UInt64 × Nfstime3 × Nfstime3

/-- `wcc_data`: the attributes before and after. -/
abbrev WccData : Type := Option WccAttr × Option Fattr3

/-- An entry of READDIRPLUS: fileid, name, cookie, attributes, handle. -/
abbrev EntryPlus : Type := UInt64 × Bytes × UInt64 × Option Fattr3 × Option Bytes

namespace Wire

def fattr3 : Format Fattr3 :=
  (pair word (pair word (pair word (pair word (pair word (pair hyper (pair hyper
    (pair (pair word word) (pair hyper (pair hyper (pair nfstime3 (pair nfstime3
      nfstime3)))))))))))).map
    ⟨fun ⟨type, mode, nlink, uid, gid, size, used, rdev, fsid, fileid, atime, mtime, ctime⟩ =>
        ⟨⟨type⟩, mode, nlink, uid, gid, size, used, ⟨rdev.1, rdev.2⟩, fsid, fileid, atime, mtime,
          ctime⟩,
      fun a => (a.type.value, a.mode, a.nlink, a.uid, a.gid, a.size, a.used,
        (a.rdev.specdata1, a.rdev.specdata2), a.fsid, a.fileid, a.atime, a.mtime, a.ctime),
      fun _ => rfl, fun _ => rfl⟩

def postOpAttr : Format (Option Fattr3) := optional fattr3

def preOpAttr : Format (Option WccAttr) := optional (pair hyper (pair nfstime3 nfstime3))

def wccData : Format WccData := pair preOpAttr postOpAttr

def postOpFh3 : Format (Option Bytes) := optional bytes

def entry3 : Format DirEntry3 :=
  (pair hyper (pair bytes hyper)).map
    ⟨fun ⟨fileid, name, cookie⟩ => ⟨fileid, name, cookie⟩, fun e => (e.fileid, e.name, e.cookie),
      fun _ => rfl, fun _ => rfl⟩

def entryplus3 : Format EntryPlus :=
  pair hyper (pair bytes (pair hyper (pair postOpAttr postOpFh3)))

end Wire

namespace Proc

/-- The body of a result on the status `NFS3_OK`. -/
@[reducible] def Ok : Proc → Type
  | GETATTR => Fattr3
  | SETATTR | REMOVE | RMDIR => WccData
  | LOOKUP => Bytes × Option Fattr3 × Option Fattr3
  | ACCESS => Option Fattr3 × UInt32
  | READLINK => Option Fattr3 × Bytes
  | READ => Option Fattr3 × UInt32 × Bool × Bytes
  | WRITE => WccData × UInt32 × UInt32 × Octets 8
  | CREATE | MKDIR | SYMLINK | MKNOD => Option Bytes × Option Fattr3 × WccData
  | RENAME => WccData × WccData
  | LINK => Option Fattr3 × WccData
  | READDIR => Option Fattr3 × Octets 8 × List DirEntry3 × Bool
  | READDIRPLUS => Option Fattr3 × Octets 8 × List EntryPlus × Bool
  | FSSTAT => Option Fattr3 × UInt64 × UInt64 × UInt64 × UInt64 × UInt64 × UInt64 × UInt32
  | FSINFO => Option Fattr3 × UInt32 × UInt32 × UInt32 × UInt32 × UInt32 × UInt32 × UInt32 × UInt64 ×
      Nfstime3 × UInt32
  | PATHCONF => Option Fattr3 × UInt32 × UInt32 × Bool × Bool × Bool × Bool
  | COMMIT => WccData × Octets 8

def okFormat : (p : Proc) → Format p.Ok
  | GETATTR => Wire.fattr3
  | SETATTR | REMOVE | RMDIR => Wire.wccData
  | LOOKUP => pair bytes (pair Wire.postOpAttr Wire.postOpAttr)
  | ACCESS => pair Wire.postOpAttr word
  | READLINK => pair Wire.postOpAttr bytes
  | READ => pair Wire.postOpAttr (pair word (pair bool bytes))
  | WRITE => pair Wire.wccData (pair word (pair word (octets 8)))
  | CREATE | MKDIR | SYMLINK | MKNOD => pair Wire.postOpFh3 (pair Wire.postOpAttr Wire.wccData)
  | RENAME => pair Wire.wccData Wire.wccData
  | LINK => pair Wire.postOpAttr Wire.wccData
  | READDIR => pair Wire.postOpAttr (pair (octets 8) (pair (chain Wire.entry3) bool))
  | READDIRPLUS => pair Wire.postOpAttr (pair (octets 8) (pair (chain Wire.entryplus3) bool))
  | FSSTAT => pair Wire.postOpAttr (pair hyper (pair hyper (pair hyper (pair hyper (pair hyper
      (pair hyper word))))))
  | FSINFO => pair Wire.postOpAttr (pair word (pair word (pair word (pair word (pair word (pair word
      (pair word (pair hyper (pair Wire.nfstime3 word)))))))))
  | PATHCONF => pair Wire.postOpAttr (pair word (pair word (pair bool (pair bool (pair bool bool)))))
  | COMMIT => pair Wire.wccData (octets 8)

/-- The body of a result on any other status. -/
@[reducible] def Fail : Proc → Type
  | GETATTR => Unit
  | LOOKUP | ACCESS | READLINK | READ | READDIR | READDIRPLUS | FSSTAT | FSINFO | PATHCONF =>
    Option Fattr3
  | SETATTR | WRITE | CREATE | MKDIR | SYMLINK | MKNOD | REMOVE | RMDIR | COMMIT => WccData
  | RENAME => WccData × WccData
  | LINK => Option Fattr3 × WccData

def failFormat : (p : Proc) → Format p.Fail
  | GETATTR => void
  | LOOKUP | ACCESS | READLINK | READ | READDIR | READDIRPLUS | FSSTAT | FSINFO | PATHCONF =>
    Wire.postOpAttr
  | SETATTR | WRITE | CREATE | MKDIR | SYMLINK | MKNOD | REMOVE | RMDIR | COMMIT => Wire.wccData
  | RENAME => pair Wire.wccData Wire.wccData
  | LINK => pair Wire.postOpAttr Wire.wccData

end Proc

/-! ### MOUNT -/

namespace Wire

/-- `exportnode`: a path and the list of its groups. -/
def exportnode : Format ExportEntry :=
  (pair bytes (chain bytes)).map
    ⟨fun x => ⟨x.1, x.2⟩, fun e => (e.path, e.groups), fun _ => rfl, fun _ => rfl⟩

def exports : Format (List ExportEntry) := chain exportnode

end Wire

end Nfs3

end NfsClient
