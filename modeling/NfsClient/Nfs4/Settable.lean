import NfsClient.Nfs4.Bitmap
import NfsClient.Nfs4.Encoders

/-!
# Settable attributes as a server reads them

The other side of `encode_fattr4`: a server takes the attributes that the bitmap names, in ascending
order of their numbers, from the attribute list, to its last byte (`decodeSettable`). The numbers and
types are those of RFC 7530, section 5.8.

The client sends the two times under the numbers 64 and 65; in the table they are 48 and 54. So a
server gets the attributes of a `Sattr4` exactly if no time is set and the list has a count
(`settable_recovered_iff`).
-/

namespace NfsClient

open Xdr Reader

/-! ### The table -/

/-- `time_how4`. -/
inductive TimeHow4
  | SERVER | CLIENT
  deriving DecidableEq, Repr

namespace TimeHow4

def code : TimeHow4 → UInt32
  | SERVER => 0 | CLIENT => 1

/-- `settime4`. -/
@[reducible] def Arm : TimeHow4 → Type
  | SERVER => Unit
  | CLIENT => Nfstime4

instance : (h : TimeHow4) → DecidableEq h.Arm
  | SERVER => inferInstanceAs (DecidableEq Unit)
  | CLIENT => inferInstanceAs (DecidableEq Nfstime4)

end TimeHow4

namespace Wire

def nfstime4 : Format Nfstime4 :=
  (Format.pair Format.hyper Format.word).map
    ⟨fun x => ⟨x.1.toInt64, x.2⟩, fun t => (t.seconds.toUInt64, t.nseconds), fun _ => rfl,
      fun _ => rfl⟩

def settime4 : Format ((h : TimeHow4) × h.Arm) :=
  Format.union TimeHow4.code (findArm TimeHow4.code [.SERVER, .CLIENT])
    (findArm_eq (by intro k; cases k <;> rfl)) fun
    | .SERVER => Format.void
    | .CLIENT => nfstime4

end Wire

/-- The attributes that a request sets. -/
structure Settable where
  size : Option UInt64
  mode : Option UInt32
  owner : Option Bytes
  owner_group : Option Bytes
  time_access_set : Option ((h : TimeHow4) × h.Arm)
  time_modify_set : Option ((h : TimeHow4) × h.Arm)
  deriving DecidableEq

namespace Settable

/-- The numbers of the attributes. -/
def numbers : List ℕ := [4, 33, 36, 37, 48, 54]

/-- The attribute list behind a bitmap. -/
def format (bm : List UInt32) : Format Settable :=
  (Format.pair (Format.given (attrBit bm 4) Format.hyper)
    (Format.pair (Format.given (attrBit bm 33) Format.word)
    (Format.pair (Format.given (attrBit bm 36) Format.bytes)
    (Format.pair (Format.given (attrBit bm 37) Format.bytes)
    (Format.pair (Format.given (attrBit bm 48) Wire.settime4)
      (Format.given (attrBit bm 54) Wire.settime4)))))).map
    ⟨fun ⟨size, mode, owner, owner_group, time_access_set, time_modify_set⟩ =>
        ⟨size, mode, owner, owner_group, time_access_set, time_modify_set⟩,
      fun s => (s.size, s.mode, s.owner, s.owner_group, s.time_access_set, s.time_modify_set),
      fun _ => rfl, fun _ => rfl⟩

end Settable

/-- The numbers in a bitmap, in ascending order. -/
def attrNumbers (bm : List UInt32) : List ℕ :=
  (List.range (32 * bm.length)).filter fun n => attrBit bm n

/-- Why a server refuses attributes. -/
inductive Refusal
  | badXdr
  | attrNotSupp
  deriving DecidableEq, Repr

/-- A server reads a `fattr4`: attributes outside the table are refused, and so are bytes behind the
last value. -/
def decodeSettable (bs : Bytes) : Except Refusal (Settable × Bytes) :=
  match Wire.fattr4.read bs with
  | .error _ => .error .badXdr
  | .ok ((bm, attrlist), rest) =>
    if ∀ n ∈ attrNumbers bm, n ∈ Settable.numbers then
      match (Settable.format bm).read attrlist with
      | .ok (s, []) => .ok (s, rest)
      | _ => .error .badXdr
    else .error .attrNotSupp

/-! ### What the client means -/

namespace Sattr4

/-- The attributes that a `Sattr4` sets, its times as times of the client. -/
def settable (attrs : Sattr4) : Settable where
  size := attrs.size
  mode := attrs.mode
  owner := attrs.owner
  owner_group := attrs.owner_group
  time_access_set := attrs.time_access.map fun t => ⟨.CLIENT, t⟩
  time_modify_set := attrs.time_modify.map fun t => ⟨.CLIENT, t⟩

end Sattr4

/-- The bytes of a string in an attribute list: its count, itself and its padding. -/
def stringLength : Option Bytes → ℕ
  | some s => 4 + (s.length + padLen s.length)
  | none => 0

/-- The bytes that the attributes of a `Sattr4` take, as far as they are not times. -/
def Sattr4.listLength (attrs : Sattr4) : ℕ :=
  (if attrs.size.isSome then 8 else 0) + (if attrs.mode.isSome then 4 else 0) +
    stringLength attrs.owner + stringLength attrs.owner_group

/-! ### Numbers in a bitmap -/

theorem mem_attrNumbers {bm : List UInt32} {n : ℕ} :
    n ∈ attrNumbers bm ↔ attrBit bm n = true := by
  unfold attrNumbers
  rw [List.mem_filter, List.mem_range]
  refine ⟨fun h => h.2, fun h => ⟨?_, h⟩⟩
  by_contra hn
  have hlen : bm.length ≤ n / 32 := by omega
  rw [attrBit, List.getD_eq_default _ _ hlen] at h
  exact Bool.false_ne_true ((Nat.zero_testBit _).symm.trans h)

/-- The bitmap of `encode_fattr4` has the bits of the attributes that are set, under the numbers of
the client. -/
theorem Sattr4.attrBit_bitmap (attrs : Sattr4) (id : UInt32) :
    attrBit attrs.bitmap id.toNat =
      (((((attrs.size.isSome && decide (id = Attr.SIZE)) ||
        (attrs.mode.isSome && decide (id = Attr.MODE))) ||
        (attrs.owner.isSome && decide (id = Attr.OWNER))) ||
        (attrs.owner_group.isSome && decide (id = Attr.OWNER_GROUP))) ||
        (attrs.time_access.isSome && decide (id = Attr.TIME_ACCESS_SET)) ||
        (attrs.time_modify.isSome && decide (id = Attr.TIME_MODIFY_SET))) := by
  -- one `if` of the encoder sets at most its own bit
  have hstep : ∀ (c : Bool) (bm : List UInt32) (i : UInt32),
      bitmap4Test (if c then bitmap4Set bm i else bm) id =
        (bitmap4Test bm id || (c && decide (id = i))) := by
    intro c bm i
    cases c with
    | false => simp
    | true => simpa using bitmap4Test_set bm i id
  rw [← bitmap4Test_eq]
  unfold Sattr4.bitmap
  simp only [hstep, bitmap4Test_nil, Bool.false_or]

/-! ### The attribute list -/

section Write

variable {α : Type} {b : Bool} {f : Format α} {put : α → Bytes}

theorem write_given (h : ∀ a, put a = f.write a) (x : Option α) :
    ifPresent put x = (Format.given b f).write x := by
  cases x with
  | none => rfl
  | some a => exact h a

theorem putSettime4_eq (t : Nfstime4) : putSettime4 t = Wire.settime4.write ⟨.CLIENT, t⟩ := by
  rw [putSettime4, putUint32_eq, putUint64_eq, putUint32_eq, List.append_assoc]
  rfl

theorem write_given_time (x : Option Nfstime4) :
    ifPresent putSettime4 x =
      (Format.given b Wire.settime4).write (x.map fun t => ⟨.CLIENT, t⟩) := by
  cases x with
  | none => rfl
  | some t => exact putSettime4_eq t

end Write

/-- The list does not depend on the bitmap. -/
theorem Sattr4.attrlist_eq (attrs : Sattr4) (bm : List UInt32) :
    attrs.attrlist = (Settable.format bm).write attrs.settable := by
  rw [Sattr4.attrlist, write_given (f := Format.hyper) (b := attrBit bm 4) putUint64_eq,
    write_given (f := Format.word) (b := attrBit bm 33) putUint32_eq,
    write_given (f := Format.bytes) (b := attrBit bm 36) putString_eq,
    write_given (f := Format.bytes) (b := attrBit bm 37) putString_eq,
    write_given_time (b := attrBit bm 48), write_given_time (b := attrBit bm 54)]
  simp only [List.append_assoc]
  rfl

theorem Sattr4.length_attrlist (attrs : Sattr4) (ha : attrs.time_access = none)
    (hm : attrs.time_modify = none) : attrs.attrlist.length = attrs.listLength := by
  have hstring : ∀ x : Option Bytes, (ifPresent putString x).length = stringLength x := by
    intro x
    cases x with
    | none => rfl
    | some s =>
      change (putString s).length = _
      rw [putString_eq, length_varOpaque]
      rfl
  have hsize : (ifPresent putUint64 attrs.size).length = if attrs.size.isSome then 8 else 0 := by
    cases attrs.size with
    | none => rfl
    | some v =>
      change (putUint64 v).length = _
      rw [putUint64_eq, length_hyper]
      rfl
  have hmode : (ifPresent putUint32 attrs.mode).length = if attrs.mode.isSome then 4 else 0 := by
    cases attrs.mode with
    | none => rfl
    | some v =>
      change (putUint32 v).length = _
      rw [putUint32_eq, length_word]
      rfl
  unfold Sattr4.attrlist Sattr4.listLength
  rw [ha, hm]
  simp only [List.length_append, hsize, hmode, hstring]
  rfl

/-! ### What the server gets -/

theorem decodeSettable_ok {bs rest : Bytes} {s : Settable} :
    decodeSettable bs = .ok (s, rest) ↔
      ∃ bm attrlist, Wire.fattr4.read bs = .ok ((bm, attrlist), rest) ∧
        (∀ n ∈ attrNumbers bm, n ∈ Settable.numbers) ∧
        (Settable.format bm).read attrlist = .ok (s, []) := by
  unfold decodeSettable
  constructor
  · intro h
    split at h
    · cases h
    · next bm attrlist rest' hread =>
      split at h
      · next hnumbers =>
        split at h
        · next hvalues =>
          cases h
          exact ⟨bm, attrlist, hread, hnumbers, hvalues⟩
        · cases h
      · cases h
  · rintro ⟨bm, attrlist, hread, hnumbers, hvalues⟩
    simp only [hread, if_pos hnumbers, hvalues]

/-- The ids that the client has for settable attributes. -/
def Sattr4.ids : List UInt32 :=
  [Attr.SIZE, Attr.MODE, Attr.OWNER, Attr.OWNER_GROUP, Attr.TIME_ACCESS_SET, Attr.TIME_MODIFY_SET]

/-- Other numbers are never in a bitmap of the client. -/
theorem Sattr4.attrBit_bitmap_of_notMem (attrs : Sattr4) (id : UInt32) (h : id ∉ Sattr4.ids) :
    attrBit attrs.bitmap id.toNat = false := by
  simp only [Sattr4.ids, List.mem_cons, List.not_mem_nil, or_false, not_or] at h
  obtain ⟨hsize, hmode, howner, hgroup, haccess, hmodify⟩ := h
  rw [attrs.attrBit_bitmap, decide_eq_false hsize, decide_eq_false hmode, decide_eq_false howner,
    decide_eq_false hgroup, decide_eq_false haccess, decide_eq_false hmodify]
  simp only [Bool.and_false, Bool.or_false]

/-- A server that gets the attributes has found the list of the client, under the bitmap of the
client, and no time in it. -/
theorem Sattr4.of_recovered {attrs : Sattr4} {rest : Bytes}
    (h : decodeSettable (encodeFattr4 attrs ++ rest) = .ok (attrs.settable, rest)) :
    attrs.time_access = none ∧ attrs.time_modify = none ∧ attrs.attrlist.length < 2 ^ 32 := by
  obtain ⟨bm, attrlist, hread, -, hvalues⟩ := decodeSettable_ok.mp h
  obtain ⟨hfits, hbytes⟩ := Wire.fattr4.read_ok.mp hread
  obtain ⟨hgiven, hlist⟩ := (Settable.format bm).read_ok.mp hvalues
  rw [← attrs.attrlist_eq, List.append_nil] at hlist
  obtain rfl := hlist
  have hlen : attrs.attrlist.length < 2 ^ 32 := hfits.2
  -- the two encodings begin with the same bitmap
  rw [encodeFattr4_eq] at hbytes
  have hwire : Wire.fattr4.Fits attrs.wire :=
    ⟨⟨lt_of_le_of_lt attrs.length_bitmap (by decide), fun _ _ => trivial⟩, hlen⟩
  have hbm := (Wire.fattr4.unique hwire hfits hbytes).1
  obtain rfl : attrs.bitmap = bm := congrArg Prod.fst hbm
  obtain ⟨-, -, -, -, haccess, hmodify⟩ := hgiven
  -- the numbers of the two times in the table are none of the client's
  have haccess : attrs.settable.time_access_set.isSome = false :=
    haccess.1.trans (attrs.attrBit_bitmap_of_notMem 48 (by decide))
  have hmodify : attrs.settable.time_modify_set.isSome = false :=
    hmodify.1.trans (attrs.attrBit_bitmap_of_notMem 54 (by decide))
  rw [settable, Option.isSome_map] at haccess hmodify
  exact ⟨Option.not_isSome_iff_eq_none.mp (Bool.eq_false_iff.mp haccess),
    Option.not_isSome_iff_eq_none.mp (Bool.eq_false_iff.mp hmodify), hlen⟩

section NoTimes

variable {attrs : Sattr4}

/-- Without times, the numbers in the bitmap are the numbers of the table. -/
theorem Sattr4.attrBit_bitmap_iff (ha : attrs.time_access = none) (hm : attrs.time_modify = none)
    (id : UInt32) :
    attrBit attrs.bitmap id.toNat = true ↔
      attrs.size.isSome ∧ id = 4 ∨ attrs.mode.isSome ∧ id = 33 ∨ attrs.owner.isSome ∧ id = 36 ∨
        attrs.owner_group.isSome ∧ id = 37 := by
  rw [attrs.attrBit_bitmap, ha, hm]
  simp only [Option.isSome_none, Bool.false_and, Bool.or_false, Bool.or_eq_true, Bool.and_eq_true,
    decide_eq_true_eq, or_assoc]
  rfl

theorem Sattr4.numbers_of_attrBit (ha : attrs.time_access = none) (hm : attrs.time_modify = none)
    {n : ℕ} (h : attrBit attrs.bitmap n = true) : n ∈ Settable.numbers := by
  have hrange : n < 32 * attrs.bitmap.length :=
    List.mem_range.mp (List.mem_filter.mp (mem_attrNumbers.mpr h)).1
  have hlen := attrs.length_bitmap
  obtain ⟨id, rfl⟩ : ∃ id : UInt32, n = id.toNat :=
    ⟨UInt32.ofNat n, (toNat_ofNat_of_lt (by omega)).symm⟩
  obtain ⟨-, rfl⟩ | ⟨-, rfl⟩ | ⟨-, rfl⟩ | ⟨-, rfl⟩ := (attrBit_bitmap_iff ha hm id).mp h
  all_goals decide

theorem Settable.fits_format {bm : List UInt32} {s : Settable} :
    (Settable.format bm).Fits s ↔
      (s.size.isSome = attrBit bm 4 ∧ ∀ a, s.size = some a → True) ∧
      (s.mode.isSome = attrBit bm 33 ∧ ∀ a, s.mode = some a → True) ∧
      (s.owner.isSome = attrBit bm 36 ∧ ∀ a, s.owner = some a → a.length < 2 ^ 32) ∧
      (s.owner_group.isSome = attrBit bm 37 ∧ ∀ a, s.owner_group = some a → a.length < 2 ^ 32) ∧
      (s.time_access_set.isSome = attrBit bm 48 ∧
        ∀ a, s.time_access_set = some a → Wire.settime4.Fits a) ∧
      s.time_modify_set.isSome = attrBit bm 54 ∧
        ∀ a, s.time_modify_set = some a → Wire.settime4.Fits a :=
  Iff.rfl

/-- Without times, the values have the types that the bitmap announces. -/
theorem Sattr4.fits_settable (ha : attrs.time_access = none) (hm : attrs.time_modify = none)
    (hlen : attrs.listLength < 2 ^ 32) :
    (Settable.format attrs.bitmap).Fits attrs.settable := by
  have hstring : ∀ {x : Option Bytes}, stringLength x ≤ attrs.listLength →
      ∀ s, x = some s → s.length < 2 ^ 32 := by
    rintro x hx s rfl
    have hs : stringLength (some s) = 4 + (s.length + padLen s.length) := rfl
    omega
  have hsize : attrs.size.isSome = attrBit attrs.bitmap 4 :=
    Bool.eq_iff_iff.mpr ((attrBit_bitmap_iff ha hm 4).trans (by simp)).symm
  have hmode : attrs.mode.isSome = attrBit attrs.bitmap 33 :=
    Bool.eq_iff_iff.mpr ((attrBit_bitmap_iff ha hm 33).trans (by simp)).symm
  have howner : attrs.owner.isSome = attrBit attrs.bitmap 36 :=
    Bool.eq_iff_iff.mpr ((attrBit_bitmap_iff ha hm 36).trans (by simp)).symm
  have hgroup : attrs.owner_group.isSome = attrBit attrs.bitmap 37 :=
    Bool.eq_iff_iff.mpr ((attrBit_bitmap_iff ha hm 37).trans (by simp)).symm
  have haccess : attrs.settable.time_access_set = none := congrArg (Option.map _) ha
  have hmodify : attrs.settable.time_modify_set = none := congrArg (Option.map _) hm
  rw [Settable.fits_format, haccess, hmodify]
  -- an attribute is present exactly if its bit is set; the two times are not
  refine ⟨⟨hsize, fun _ _ => trivial⟩, ⟨hmode, fun _ _ => trivial⟩, ⟨howner, hstring ?_⟩,
    ⟨hgroup, hstring ?_⟩, ⟨?_, fun _ h => nomatch h⟩, ?_, fun _ h => nomatch h⟩
  · change stringLength attrs.owner ≤ attrs.listLength
    unfold listLength
    omega
  · change stringLength attrs.owner_group ≤ attrs.listLength
    unfold listLength
    omega
  · exact (attrs.attrBit_bitmap_of_notMem 48 (by decide)).symm
  · exact (attrs.attrBit_bitmap_of_notMem 54 (by decide)).symm

theorem Sattr4.recovered (ha : attrs.time_access = none) (hm : attrs.time_modify = none)
    (hlen : attrs.listLength < 2 ^ 32) (rest : Bytes) :
    decodeSettable (encodeFattr4 attrs ++ rest) = .ok (attrs.settable, rest) := by
  have hwire : Wire.fattr4.Fits attrs.wire := by
    refine ⟨⟨lt_of_le_of_lt attrs.length_bitmap (by decide), fun _ _ => trivial⟩, ?_⟩
    exact lt_of_eq_of_lt (attrs.length_attrlist ha hm) hlen
  refine decodeSettable_ok.mpr ⟨attrs.bitmap, attrs.attrlist, ?_, ?_, ?_⟩
  · rw [encodeFattr4_eq]
    exact Wire.fattr4.reads hwire rest
  · intro n hn
    exact numbers_of_attrBit ha hm (mem_attrNumbers.mp hn)
  · refine (Settable.format attrs.bitmap).read_ok.mpr ⟨fits_settable ha hm hlen, ?_⟩
    rw [← attrs.attrlist_eq, List.append_nil]

end NoTimes

/-- **The attributes that a server recovers**: from what `encode_fattr4` writes, whatever follows it,
a server gets exactly the attributes that were set, and no more, if and only if no time is set and
the list has fewer than `2 ^ 32` bytes. -/
theorem settable_recovered_iff (attrs : Sattr4) (rest : Bytes) :
    decodeSettable (encodeFattr4 attrs ++ rest) = .ok (attrs.settable, rest) ↔
      attrs.time_access = none ∧ attrs.time_modify = none ∧ attrs.listLength < 2 ^ 32 := by
  constructor
  · intro h
    obtain ⟨ha, hm, hlen⟩ := Sattr4.of_recovered h
    rw [attrs.length_attrlist ha hm] at hlen
    exact ⟨ha, hm, hlen⟩
  · rintro ⟨ha, hm, hlen⟩
    exact Sattr4.recovered ha hm hlen rest

/-- A modification time is sent under a number that the table does not have: the server refuses the
attributes. -/
theorem modify_time_refused :
    decodeSettable (encodeFattr4 { time_modify := some ⟨0, 0⟩ }) = .error .attrNotSupp ∧
      decodeSettable (encodeFattr4 { time_modify := some ⟨0, 0⟩ }) ≠
        .ok (Sattr4.settable { time_modify := some ⟨0, 0⟩ }, []) := by
  decide +kernel

end NfsClient
