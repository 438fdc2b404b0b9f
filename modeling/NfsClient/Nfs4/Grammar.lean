import NfsClient.Lib.XdrGrammar
import NfsClient.Nfs4.Types

/-!
# The NFSv4 protocol: operations and their unions

What a server reads and writes, from RFC 7530 and RFC 8881 and not from the client. This module
has the opcodes and the structures and discriminated unions that the arguments and the results of
the operations are made of; `Protocol` assembles them. A union is a type of arms with a
discriminant for each, and its values are `⟨arm, body⟩`; its format is an instance of
`Format.union`. A `fattr4` is a bitmap and an opaque, an enumeration is a word.
-/

namespace NfsClient

open Xdr

/-! ### Operations -/

inductive Op
  | ACCESS | CLOSE | COMMIT | CREATE | GETATTR | GETFH | LOOKUP | OPEN | OPEN_CONFIRM
  | PUTFH | PUTROOTFH | READ | READDIR | READLINK | REMOVE | RENAME | RENEW | SAVEFH | SETATTR
  | SETCLIENTID | SETCLIENTID_CONFIRM | WRITE
  | EXCHANGE_ID | CREATE_SESSION | SEQUENCE | RECLAIM_COMPLETE
  deriving DecidableEq, Repr

namespace Op

/-- `nfs_opnum4`. -/
def code : Op → UInt32
  | ACCESS => 3 | CLOSE => 4 | COMMIT => 5 | CREATE => 6 | GETATTR => 9 | GETFH => 10
  | LOOKUP => 15 | OPEN => 18 | OPEN_CONFIRM => 20 | PUTFH => 22 | PUTROOTFH => 24 | READ => 25
  | READDIR => 26 | READLINK => 27 | REMOVE => 28 | RENAME => 29 | RENEW => 30 | SAVEFH => 32
  | SETATTR => 34 | SETCLIENTID => 35 | SETCLIENTID_CONFIRM => 36 | WRITE => 38
  | EXCHANGE_ID => 42 | CREATE_SESSION => 43 | SEQUENCE => 53 | RECLAIM_COMPLETE => 58

def all : List Op :=
  [ACCESS, CLOSE, COMMIT, CREATE, GETATTR, GETFH, LOOKUP, OPEN, OPEN_CONFIRM, PUTFH, PUTROOTFH,
    READ, READDIR, READLINK, REMOVE, RENAME, RENEW, SAVEFH, SETATTR, SETCLIENTID,
    SETCLIENTID_CONFIRM, WRITE, EXCHANGE_ID, CREATE_SESSION, SEQUENCE, RECLAIM_COMPLETE]

end Op

/-! ### Common parts -/

/-- `fattr4`: bitmap and attribute list. -/
abbrev WireFattr : Type := List UInt32 × Bytes

/-- `change_info4`: atomic, before, after. -/
abbrev ChangeInfo : Type := Bool × UInt64 × UInt64

/-- `nfs_impl_id4`: domain, name, date. -/
abbrev ImplId : Type := Bytes × Bytes × UInt64 × UInt32

/-- `channel_attrs4`: header pad, request, response and cached response size, operations,
requests, RDMA. -/
abbrev ChannelAttrs : Type := UInt32 × UInt32 × UInt32 × UInt32 × UInt32 × UInt32 × List UInt32

namespace Wire

open Xdr.Format

def bitmap4 : Format (List UInt32) := array word

def fattr4 : Format WireFattr := pair bitmap4 bytes

def changeInfo4 : Format ChangeInfo := pair bool (pair hyper hyper)

def implId : Format ImplId := pair bytes (pair bytes (pair hyper word))

def channelAttrs : Format ChannelAttrs :=
  pair word (pair word (pair word (pair word (pair word (pair word (array word))))))

def stateid4 : Format Stateid4 :=
  (pair word (octets 12)).map
    ⟨fun x => ⟨x.1, x.2⟩, fun s => (s.seqid, s.other), fun _ => rfl, fun _ => rfl⟩

end Wire

/-! ### Unions in the arguments and results -/

/-- `nfs_ftype4`, as far as CREATE takes it. -/
inductive CreateType
  | DIR | BLK | CHR | LNK | SOCK | FIFO
  deriving DecidableEq, Repr

namespace CreateType

def code : CreateType → UInt32
  | DIR => 2 | BLK => 3 | CHR => 4 | LNK => 5 | SOCK => 6 | FIFO => 7

/-- `createtype4`: a link has its text, a device its numbers. -/
@[reducible] def Arm : CreateType → Type
  | LNK => Bytes
  | BLK | CHR => UInt32 × UInt32
  | DIR | SOCK | FIFO => Unit

def format : Format ((t : CreateType) × t.Arm) :=
  Format.union code (findArm code [DIR, BLK, CHR, LNK, SOCK, FIFO])
    (findArm_eq (by intro k; cases k <;> rfl)) fun
    | LNK => Format.bytes
    | BLK | CHR => Format.pair Format.word Format.word
    | DIR | SOCK | FIFO => Format.void

end CreateType

/-- `createmode4`. -/
inductive CreateMode
  | UNCHECKED | GUARDED | EXCLUSIVE
  deriving DecidableEq, Repr

namespace CreateMode

def code : CreateMode → UInt32
  | UNCHECKED => 0 | GUARDED => 1 | EXCLUSIVE => 2

/-- `createhow4`. -/
@[reducible] def Arm : CreateMode → Type
  | UNCHECKED | GUARDED => WireFattr
  | EXCLUSIVE => Octets 8

def format : Format ((m : CreateMode) × m.Arm) :=
  Format.union code (findArm code [UNCHECKED, GUARDED, EXCLUSIVE])
    (findArm_eq (by intro k; cases k <;> rfl)) fun
    | UNCHECKED | GUARDED => Wire.fattr4
    | EXCLUSIVE => Format.octets 8

end CreateMode

/-- `opentype4`. -/
inductive OpenType
  | NOCREATE | CREATE
  deriving DecidableEq, Repr

namespace OpenType

def code : OpenType → UInt32
  | NOCREATE => 0 | CREATE => 1

/-- `openflag4`. -/
@[reducible] def Arm : OpenType → Type
  | NOCREATE => Unit
  | CREATE => (m : CreateMode) × m.Arm

def format : Format ((t : OpenType) × t.Arm) :=
  Format.union code (findArm code [NOCREATE, CREATE])
    (findArm_eq (by intro k; cases k <;> rfl)) fun
    | NOCREATE => Format.void
    | CREATE => CreateMode.format

end OpenType

/-- `open_claim_type4`. -/
inductive ClaimType
  | NULL | PREVIOUS | DELEGATE_CUR | DELEGATE_PREV
  deriving DecidableEq, Repr

namespace ClaimType

def code : ClaimType → UInt32
  | NULL => 0 | PREVIOUS => 1 | DELEGATE_CUR => 2 | DELEGATE_PREV => 3

/-- `open_claim4`. -/
@[reducible] def Arm : ClaimType → Type
  | NULL | DELEGATE_PREV => Bytes
  | PREVIOUS => UInt32
  | DELEGATE_CUR => Stateid4 × Bytes

def format : Format ((t : ClaimType) × t.Arm) :=
  Format.union code (findArm code [NULL, PREVIOUS, DELEGATE_CUR, DELEGATE_PREV])
    (findArm_eq (by intro k; cases k <;> rfl)) fun
    | NULL | DELEGATE_PREV => Format.bytes
    | PREVIOUS => Format.word
    | DELEGATE_CUR => Format.pair Wire.stateid4 Format.bytes

end ClaimType

/-- `limit_by4`. -/
inductive LimitBy
  | SIZE | BLOCKS
  deriving DecidableEq, Repr

namespace LimitBy

def code : LimitBy → UInt32
  | SIZE => 1 | BLOCKS => 2

/-- `nfs_space_limit4`: a file size, or a number of blocks and their size. -/
@[reducible] def Arm : LimitBy → Type
  | SIZE => UInt64
  | BLOCKS => UInt32 × UInt32

def format : Format ((l : LimitBy) × l.Arm) :=
  Format.union code (findArm code [SIZE, BLOCKS])
    (findArm_eq (by intro k; cases k <;> rfl)) fun
    | SIZE => Format.hyper
    | BLOCKS => Format.pair Format.word Format.word

end LimitBy

/-- `open_delegation_type4`. -/
inductive DelegType
  | NONE | READ | WRITE
  deriving DecidableEq, Repr

/-- `nfsace4`: type, flag, access mask, who. -/
abbrev Ace : Type := UInt32 × UInt32 × UInt32 × Bytes

namespace DelegType

def code : DelegType → UInt32
  | NONE => 0 | READ => 1 | WRITE => 2

/-- `open_delegation4`: the stateid, the recall flag, for WRITE the space limit, the ACE. -/
@[reducible] def Arm : DelegType → Type
  | NONE => Unit
  | READ => Stateid4 × Bool × Ace
  | WRITE => Stateid4 × Bool × ((l : LimitBy) × l.Arm) × Ace

def ace : Format Ace :=
  Format.pair Format.word (Format.pair Format.word (Format.pair Format.word Format.bytes))

def format : Format ((t : DelegType) × t.Arm) :=
  Format.union code (findArm code [NONE, READ, WRITE])
    (findArm_eq (by intro k; cases k <;> rfl)) fun
    | NONE => Format.void
    | READ => Format.pair Wire.stateid4 (Format.pair Format.bool ace)
    | WRITE =>
      Format.pair Wire.stateid4 (Format.pair Format.bool (Format.pair LimitBy.format ace))

end DelegType

end NfsClient
