import NfsClient.Nfs4.Types

/-!
# Attribute bitmaps and fattr4

`nfs4_attr.cpp`. Attribute `N` is bit `N % 32` of word `N / 32` of a `bitmap4`. A `fattr4` is such
a bitmap and an opaque that holds the values of its attributes in ascending order of their ids;
both directions go through the attributes in that order.
-/

namespace NfsClient

open Xdr Reader

/-! ### Attribute ids -/

namespace Attr
def TYPE : UInt32 := 1
def CHANGE : UInt32 := 3
def SIZE : UInt32 := 4
def FSID : UInt32 := 8
def FILEID : UInt32 := 20
def MODE : UInt32 := 33
def NUMLINKS : UInt32 := 35
def OWNER : UInt32 := 36
def OWNER_GROUP : UInt32 := 37
def SPACE_USED : UInt32 := 45
def TIME_ACCESS : UInt32 := 47
def TIME_METADATA : UInt32 := 52
def TIME_MODIFY : UInt32 := 53
def MOUNTED_ON_FILEID : UInt32 := 55
def TIME_ACCESS_SET : UInt32 := 64
def TIME_MODIFY_SET : UInt32 := 65
end Attr

/-! ### Bitmaps -/

def bitmap4Set (bm : List UInt32) (id : UInt32) : List UInt32 :=
  let word := (id / 32).toNat
  let bit := (1 : UInt32) <<< (id % 32)
  let bm := if bm.length ≤ word then bm ++ List.replicate (word + 1 - bm.length) 0 else bm
  bm.modify word (· ||| bit)

def bitmap4Test (bm : List UInt32) (id : UInt32) : Bool :=
  let word := (id / 32).toNat
  let bit := (1 : UInt32) <<< (id % 32)
  if bm.length ≤ word then false else bm.getD word 0 &&& bit != 0

def encodeBitmap4 (bm : List UInt32) : Bytes :=
  putUint32 (sizeToUint32 bm.length) ++ bm.flatMap putUint32

def decodeBitmap4 : XdrDecoder (List UInt32) := do
  let count ← getUint32
  times getUint32 count.toNat

def makeBitmap4 (ids : List UInt32) : List UInt32 := ids.foldl bitmap4Set []

def encodeAttrRequest (ids : List UInt32) : Bytes := encodeBitmap4 (makeBitmap4 ids)

theorem encodeBitmap4_eq (bm : List UInt32) : encodeBitmap4 bm = array word bm := by
  rw [encodeBitmap4, putUint32_eq, funext putUint32_eq]
  rfl

theorem decodeBitmap4_reads {bm : List UInt32} (h : bm.length < 2 ^ 32) :
    Reads decodeBitmap4 (array word bm) bm := by
  refine (getUint32_reads _).bind ?_
  rw [toNat_ofNat_of_lt h]
  exact times_getUint32_reads bm

/-! ### fattr4 from the server -/

/-- `if (bitmap4_test(bm, id)) field = d(ad);` -/
def ifSet {α : Type} (bm : List UInt32) (id : UInt32) (d : XdrDecoder α) :
    XdrDecoder (Option α) :=
  if bitmap4Test bm id then some <$> d else return none

/-- The body of `decode_fattr4` on its inner decoder `ad`, in ascending order of ids. -/
def decodeAttrs (bm : List UInt32) : XdrDecoder Fattr4 := do
  let type ← ifSet bm Attr.TYPE (Ftype4.mk <$> getUint32)
  let change ← ifSet bm Attr.CHANGE getUint64
  let size ← ifSet bm Attr.SIZE getUint64
  -- fsid4 has two hypers and no field in Fattr4
  let _fsid ← ifSet bm Attr.FSID (do let _major ← getUint64; getUint64)
  let fileid ← ifSet bm Attr.FILEID getUint64
  let mode ← ifSet bm Attr.MODE getUint32
  let numlinks ← ifSet bm Attr.NUMLINKS getUint32
  let owner ← ifSet bm Attr.OWNER getString
  let owner_group ← ifSet bm Attr.OWNER_GROUP getString
  let space_used ← ifSet bm Attr.SPACE_USED getUint64
  let time_access ← ifSet bm Attr.TIME_ACCESS decodeNfstime4
  let time_metadata ← ifSet bm Attr.TIME_METADATA decodeNfstime4
  let time_modify ← ifSet bm Attr.TIME_MODIFY decodeNfstime4
  let mounted_on_fileid ← ifSet bm Attr.MOUNTED_ON_FILEID getUint64
  return { type, change, size, fileid, mode, numlinks, owner, owner_group, space_used,
           time_access, time_metadata, time_modify, mounted_on_fileid }

/-- `XdrDecoder ad(bytes);`: a decoder of its own, dropped at the end with whatever it left. -/
def withDecoder {α : Type} (bytes : Bytes) (d : XdrDecoder α) : XdrDecoder α := fun bs =>
  match d bytes with
  | .ok (a, _) => .ok (a, bs)
  | .error e => .error e

def decodeFattr4 : XdrDecoder Fattr4 := do
  let bm ← decodeBitmap4
  let attrlist ← getOpaque
  withDecoder attrlist (decodeAttrs bm)

theorem withDecoder_ok {α : Type} {bytes bs rest : Bytes} {d : XdrDecoder α} {a : α} :
    withDecoder bytes d bs = .ok (a, rest) ↔ (∃ left, d bytes = .ok (a, left)) ∧ bs = rest := by
  unfold withDecoder
  cases d bytes with
  | error e => simp
  | ok r => simp [Prod.ext_iff]

/-! ### fattr4 for SETATTR and CREATE -/

/-- The settable attributes. -/
structure Sattr4 where
  size : Option UInt64 := none
  mode : Option UInt32 := none
  owner : Option Bytes := none
  owner_group : Option Bytes := none
  time_access : Option Nfstime4 := none
  time_modify : Option Nfstime4 := none
  deriving DecidableEq

/-- `if (field) put(*field);` -/
def ifPresent {α : Type} (put : α → Bytes) : Option α → Bytes
  | some a => put a
  | none => []

/-- `settime4` with `SET_TO_CLIENT_TIME`. -/
def putSettime4 (t : Nfstime4) : Bytes :=
  putUint32 1 ++ putUint64 t.seconds.toUInt64 ++ putUint32 t.nseconds

namespace Sattr4

/-- The bitmap of `encode_fattr4`. -/
def bitmap (attrs : Sattr4) : List UInt32 :=
  let bm := []
  let bm := if attrs.size.isSome then bitmap4Set bm Attr.SIZE else bm
  let bm := if attrs.mode.isSome then bitmap4Set bm Attr.MODE else bm
  let bm := if attrs.owner.isSome then bitmap4Set bm Attr.OWNER else bm
  let bm := if attrs.owner_group.isSome then bitmap4Set bm Attr.OWNER_GROUP else bm
  let bm := if attrs.time_access.isSome then bitmap4Set bm Attr.TIME_ACCESS_SET else bm
  if attrs.time_modify.isSome then bitmap4Set bm Attr.TIME_MODIFY_SET else bm

/-- The bytes of the temporary buffer `ae`. -/
def attrlist (attrs : Sattr4) : Bytes :=
  ifPresent putUint64 attrs.size ++ ifPresent putUint32 attrs.mode ++
    ifPresent putString attrs.owner ++ ifPresent putString attrs.owner_group ++
    ifPresent putSettime4 attrs.time_access ++ ifPresent putSettime4 attrs.time_modify

end Sattr4

def encodeFattr4 (attrs : Sattr4) : Bytes :=
  encodeBitmap4 attrs.bitmap ++ putOpaque attrs.attrlist

theorem length_bitmap4Set (bm : List UInt32) (id : UInt32) :
    (bitmap4Set bm id).length = max bm.length ((id / 32).toNat + 1) := by
  unfold bitmap4Set
  simp only
  split
  · rw [List.length_modify, List.length_append, List.length_replicate]
    omega
  · rw [List.length_modify]
    omega

/-- Ids below `96` are in the first three words. -/
theorem length_bitmap4Set_le {bm : List UInt32} {id : UInt32} (hbm : bm.length ≤ 3)
    (hid : id.toNat < 96) : (bitmap4Set bm id).length ≤ 3 := by
  have hdiv : (id / 32).toNat = id.toNat / 32 := UInt32.toNat_div id 32
  rw [length_bitmap4Set, hdiv]
  omega

/-- The bitmap of a `Sattr4` has at most three words. -/
theorem Sattr4.length_bitmap (attrs : Sattr4) : attrs.bitmap.length ≤ 3 := by
  have hstep : ∀ (id : UInt32) (c : Bool) {bm : List UInt32}, id.toNat < 96 → bm.length ≤ 3 →
      (if c then bitmap4Set bm id else bm).length ≤ 3 := by
    intro id c bm hid hbm
    cases c
    · exact hbm
    · exact length_bitmap4Set_le hbm hid
  unfold Sattr4.bitmap
  refine hstep Attr.TIME_MODIFY_SET _ (by decide) <| hstep Attr.TIME_ACCESS_SET _ (by decide) <|
    hstep Attr.OWNER_GROUP _ (by decide) <| hstep Attr.OWNER _ (by decide) <|
    hstep Attr.MODE _ (by decide) <| hstep Attr.SIZE _ (by decide) (Nat.zero_le 3)

end NfsClient
