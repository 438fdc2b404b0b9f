import NfsClient.Xdr.Codec

/-!
# NFSv4 types and operation codes

`nfs4_types.hpp`, the operation codes of `compound.hpp` and the flags of `open.hpp`. A
`std::array` of `n` bytes is `Octets n`, so that nothing below has to say how long a verifier or
a stateid is. An `enum class` over `uint32_t` is a word with named constants: a `static_cast` from
the wire puts any word into it.
-/

namespace NfsClient

open Xdr Reader

/-! ### Operation codes (compound.hpp) -/

def OP_ACCESS : UInt32 := 3
def OP_CLOSE : UInt32 := 4
def OP_COMMIT : UInt32 := 5
def OP_CREATE : UInt32 := 6
def OP_GETATTR : UInt32 := 9
def OP_GETFH : UInt32 := 10
def OP_LOOKUP : UInt32 := 15
def OP_LOOKUPP : UInt32 := 16
def OP_OPEN : UInt32 := 18
def OP_OPEN_CONFIRM : UInt32 := 20
def OP_PUTFH : UInt32 := 22
def OP_PUTROOTFH : UInt32 := 24
def OP_READ : UInt32 := 25
def OP_READDIR : UInt32 := 26
def OP_READLINK : UInt32 := 27
def OP_REMOVE : UInt32 := 28
def OP_RENAME : UInt32 := 29
def OP_RENEW : UInt32 := 30
def OP_RESTOREFH : UInt32 := 31
def OP_SAVEFH : UInt32 := 32
def OP_SETATTR : UInt32 := 34
def OP_SETCLIENTID : UInt32 := 35
def OP_SETCLIENTID_CONFIRM : UInt32 := 36
def OP_WRITE : UInt32 := 38
def OP_EXCHANGE_ID : UInt32 := 42
def OP_CREATE_SESSION : UInt32 := 43
def OP_DESTROY_SESSION : UInt32 := 44
def OP_SEQUENCE : UInt32 := 53
def OP_RECLAIM_COMPLETE : UInt32 := 58

/-! ### Flags of OPEN (open.hpp) -/

def OPEN4_SHARE_ACCESS_READ : UInt32 := 1
def OPEN4_SHARE_ACCESS_WRITE : UInt32 := 2
def OPEN4_SHARE_DENY_NONE : UInt32 := 0
def OPEN4_NOCREATE : UInt32 := 0
def OPEN4_CREATE : UInt32 := 1
def UNCHECKED4 : UInt32 := 0
def CLAIM_NULL : UInt32 := 0
def OPEN4_RESULT_CONFIRM : UInt32 := 2

/-! ### Structures (nfs4_types.hpp) -/

/-- NFSv4.1 session ID. -/
abbrev SessionId41 : Type := Octets 16

/-- NFSv4 file handle. -/
structure Nfs4Fh where
  data : Bytes
  deriving DecidableEq, Repr

structure Stateid4 where
  seqid : UInt32
  other : Octets 12
  deriving DecidableEq

/-- `Stateid4{}`: the anonymous stateid. -/
def Stateid4.anonymous : Stateid4 := ⟨0, Octets.zero 12⟩

structure Nfstime4 where
  seconds : Int64
  nseconds : UInt32
  deriving DecidableEq

structure Ftype4 where
  value : UInt32
  deriving DecidableEq, Repr

namespace Ftype4
def NF4DIR : Ftype4 := ⟨2⟩
def NF4LNK : Ftype4 := ⟨5⟩
end Ftype4

structure Stable4 where
  value : UInt32
  deriving DecidableEq, Repr

/-- Decoded file attributes; a field is present when the server returned it in the bitmap. -/
structure Fattr4 where
  type : Option Ftype4 := none
  change : Option UInt64 := none
  size : Option UInt64 := none
  fileid : Option UInt64 := none
  mode : Option UInt32 := none
  numlinks : Option UInt32 := none
  owner : Option Bytes := none
  owner_group : Option Bytes := none
  space_used : Option UInt64 := none
  time_access : Option Nfstime4 := none
  time_metadata : Option Nfstime4 := none
  time_modify : Option Nfstime4 := none
  mounted_on_fileid : Option UInt64 := none
  deriving DecidableEq

/-- An open file: its handle, the stateid from OPEN and the open seqid. -/
structure Nfs4File where
  fh : Nfs4Fh
  stateid : Stateid4
  seqid : UInt32
  deriving DecidableEq

structure Nfs4WriteResult where
  count : UInt32
  committed : Stable4
  verf : Octets 8
  deriving DecidableEq

structure Nfs4DirEntry where
  cookie : UInt64
  name : Bytes
  attrs : Fattr4
  deriving DecidableEq

/-! ### Codecs -/

def encodeNfs4fh (fh : Nfs4Fh) : Bytes := putOpaque fh.data

def decodeNfs4fh : XdrDecoder Nfs4Fh := Nfs4Fh.mk <$> getOpaque

def encodeStateid4 (sid : Stateid4) : Bytes := putUint32 sid.seqid ++ putFixedOpaque sid.other.1

def decodeStateid4 : XdrDecoder Stateid4 := do
  let seqid ← getUint32
  let other ← getArray 12
  return ⟨seqid, other⟩

def decodeNfstime4 : XdrDecoder Nfstime4 := do
  let seconds ← getUint64
  let nseconds ← getUint32
  return ⟨seconds.toInt64, nseconds⟩

/-- `change_info4`: atomic, before and after, all dropped. -/
def skipChangeInfo4 : XdrDecoder Unit := do
  let _atomic ← getUint32
  let _before ← getUint64
  let _after ← getUint64

/-- `for (uint32_t i = 0; i < n; ++i) dec.get_uint32();` -/
def skipUint32s (n : UInt32) : XdrDecoder Unit := do
  let _words ← times getUint32 n.toNat

theorem decodeNfs4fh_reads {fh : Nfs4Fh} (h : fh.data.length < 2 ^ 32) :
    Reads decodeNfs4fh (varOpaque fh.data) fh :=
  (getOpaque_reads h).map Nfs4Fh.mk

/-- A stateid on the wire. -/
def Stateid4.wire (sid : Stateid4) : Bytes := word sid.seqid ++ fixedOpaque sid.other.1

theorem encodeStateid4_eq (sid : Stateid4) : encodeStateid4 sid = sid.wire := by
  rw [encodeStateid4, putUint32_eq, putFixedOpaque_eq, Stateid4.wire]

theorem decodeStateid4_reads (sid : Stateid4) : Reads decodeStateid4 sid.wire sid :=
  (getUint32_reads sid.seqid).bind ((getArray_reads sid.other).bind_nil (Reads.pure sid))

/-- A stateid has no padding, so that it is its encoding. -/
theorem decodeStateid4_ok {bs rest : Bytes} {sid : Stateid4} :
    decodeStateid4 bs = .ok (sid, rest) ↔ bs = sid.wire ++ rest := by
  constructor
  · intro h
    obtain ⟨seqid, mid, hseqid, h⟩ := bind_ok.mp h
    obtain ⟨other, mid', hother, h⟩ := bind_ok.mp h
    obtain ⟨rfl, rfl⟩ := pure_ok.mp h
    obtain ⟨x, hx, rfl⟩ := map_ok.mp hother
    obtain ⟨pad, hlen, hpad, rfl⟩ := getFixedOpaque_ok.mp hx
    obtain rfl := List.eq_nil_of_length_eq_zero hpad
    -- twelve bytes: nothing is cut and nothing is padded
    have hcopy : copyInto 12 x = ⟨x, hlen⟩ := copyInto_self ⟨x, hlen⟩
    have hfixed : fixedOpaque x = x := by
      rw [fixedOpaque, hlen]
      exact List.append_nil x
    rw [getUint32_ok.mp hseqid, Stateid4.wire, hcopy, hfixed, List.append_assoc]
    rfl
  · rintro rfl
    exact decodeStateid4_reads sid rest

/-- A skipped array of words. -/
theorem skipUint32s_reads {ws : List UInt32} (h : ws.length < 2 ^ 32) :
    Reads (skipUint32s (UInt32.ofNat ws.length)) (ws.flatMap word) () := by
  have hskip := (times_getUint32_reads ws).bind_nil (f := fun _ => pure ()) (Reads.pure ())
  unfold skipUint32s
  rwa [toNat_ofNat_of_lt h]

end NfsClient
