import NfsClient.Nfs4.Fattr

/-!
# Bitmaps as sets of attributes

A `bitmap4` is a set of attribute numbers: attribute `n` is bit `n % 32` of word `n / 32` (`attrBit`).
Here the two operations of the client on bitmaps become operations on sets, `bitmap4_test` membership
(`bitmap4Test_eq`) and `bitmap4_set` insertion (`bitmap4Test_set`), so that a bitmap made from ids is
the set of these ids, and words of zeros at its end change nothing.

Words of zeros are also the only way for two bitmaps to be the same set. A bitmap whose last word is
not zero (`Trimmed`) is determined by its bits (`Trimmed.eq_of_attrBit`), and `bitmap4_set` keeps it
trimmed, so that neither the order nor the repetition of the ids shows in what is sent
(`bitmap4_finite_set`).
-/

namespace NfsClient

open Xdr

/-- Attribute `n` is in the bitmap. -/
def attrBit (bm : List UInt32) (n : ℕ) : Bool := (bm.getD (n / 32) 0).toNat.testBit (n % 32)

/-! ### The operations -/

/-- The bit of an id in its word. -/
theorem toNat_bit (id : UInt32) : ((1 : UInt32) <<< (id % 32)).toNat = 2 ^ (id.toNat % 32) := by
  have hmod : (id % 32).toNat = id.toNat % 32 := UInt32.toNat_mod id 32
  have hlt : id.toNat % 32 < 32 := Nat.mod_lt _ (by decide)
  have hone : (1 : UInt32).toNat = 1 := rfl
  rw [UInt32.toNat_shiftLeft, hmod, hone, Nat.mod_eq_of_lt hlt, Nat.one_shiftLeft,
    Nat.mod_eq_of_lt (Nat.pow_lt_pow_right (by decide) hlt)]

/-- A word has a bit in common with the bit of an id if it has that bit. -/
theorem and_bit_ne_zero (w id : UInt32) :
    (w &&& (1 : UInt32) <<< (id % 32) != 0) = w.toNat.testBit (id.toNat % 32) := by
  have hand : (w &&& (1 : UInt32) <<< (id % 32)).toNat =
      (w.toNat.testBit (id.toNat % 32)).toNat * 2 ^ (id.toNat % 32) := by
    rw [UInt32.toNat_and, toNat_bit]
    exact Nat.and_two_pow _ _
  -- the conjunction is the bit, or zero
  cases hbit : w.toNat.testBit (id.toNat % 32) with
  | false =>
    rw [hbit, Bool.toNat_false, Nat.zero_mul] at hand
    rw [UInt32.toNat_inj.mp (hand.trans (show 0 = (0 : UInt32).toNat from rfl))]
    rfl
  | true =>
    rw [hbit, Bool.toNat_true, Nat.one_mul] at hand
    refine bne_iff_ne.mpr fun hzero => ?_
    rw [hzero] at hand
    exact absurd hand.symm (Nat.two_pow_pos _).ne'

theorem bitmap4Test_eq (bm : List UInt32) (id : UInt32) :
    bitmap4Test bm id = attrBit bm id.toNat := by
  have hdiv : (id / 32).toNat = id.toNat / 32 := UInt32.toNat_div id 32
  unfold bitmap4Test attrBit
  simp only [hdiv]
  split
  · next hlen =>
    rw [List.getD_eq_default _ _ hlen]
    exact (Nat.zero_testBit _).symm
  · exact and_bit_ne_zero _ _

/-- Words of zeros at the end change nothing. -/
theorem getD_append_zeros (bm : List UInt32) (n j : ℕ) :
    (bm ++ List.replicate n 0).getD j 0 = bm.getD j 0 := by
  by_cases hj : j < bm.length
  · exact List.getD_append _ _ _ _ hj
  · rw [List.getD_append_right _ _ _ _ (Nat.le_of_not_lt hj),
      List.getD_eq_default _ _ (Nat.le_of_not_lt hj)]
    simp only [List.getD_eq_getElem?_getD, List.getElem?_replicate]
    split <;> rfl

theorem attrBit_append_zeros (bm : List UInt32) (n k : ℕ) :
    attrBit (bm ++ List.replicate n 0) k = attrBit bm k := by
  unfold attrBit
  rw [getD_append_zeros]

/-- `bitmap4_set` changes one word. -/
theorem getD_bitmap4Set (bm : List UInt32) (id : UInt32) (j : ℕ) :
    (bitmap4Set bm id).getD j 0 =
      if j = id.toNat / 32 then bm.getD j 0 ||| (1 : UInt32) <<< (id % 32) else bm.getD j 0 := by
  have hdiv : (id / 32).toNat = id.toNat / 32 := UInt32.toNat_div id 32
  -- where the vector is long enough, `bitmap4_set` is a `modify`
  have hmodify : ∀ l : List UInt32, id.toNat / 32 < l.length →
      (l.modify (id.toNat / 32) (· ||| (1 : UInt32) <<< (id % 32))).getD j 0 =
        if j = id.toNat / 32 then l.getD j 0 ||| (1 : UInt32) <<< (id % 32) else l.getD j 0 := by
    intro l hl
    simp only [List.getD_eq_getElem?_getD, List.getElem?_modify]
    by_cases hj : j = id.toNat / 32
    · subst hj
      simp [List.getElem?_eq_getElem hl]
    · rw [if_neg hj]
      cases l[j]? with
      | none => rfl
      | some w => simp [Ne.symm hj]
  unfold bitmap4Set
  simp only [hdiv]
  split
  -- it grows by words of zeros first
  · next hlen =>
    rw [hmodify _ (by rw [List.length_append, List.length_replicate]; omega), getD_append_zeros]
  · next hlen => exact hmodify _ (Nat.lt_of_not_le hlen)

/-- `bitmap4_set` changes one bit. -/
theorem attrBit_set (bm : List UInt32) (id : UInt32) (n : ℕ) :
    attrBit (bitmap4Set bm id) n = (attrBit bm n || decide (n = id.toNat)) := by
  -- a number is its word and its bit
  have hid : n = id.toNat ↔ n / 32 = id.toNat / 32 ∧ id.toNat % 32 = n % 32 := by omega
  unfold attrBit
  rw [getD_bitmap4Set]
  by_cases hword : n / 32 = id.toNat / 32
  · rw [if_pos hword, UInt32.toNat_or, Nat.testBit_or, toNat_bit, Nat.testBit_two_pow]
    simp only [hid, hword, true_and]
  · rw [if_neg hword, decide_eq_false (fun h => hword (hid.mp h).1), Bool.or_false]

/-- **`bitmap4_set` inserts**: the id is in the bitmap, and all else is as it was. -/
theorem bitmap4Test_set (bm : List UInt32) (id id' : UInt32) :
    bitmap4Test (bitmap4Set bm id) id' = (bitmap4Test bm id' || decide (id' = id)) := by
  rw [bitmap4Test_eq, bitmap4Test_eq, attrBit_set]
  simp only [UInt32.toNat_inj]

theorem bitmap4Test_nil (id : UInt32) : bitmap4Test [] id = false := rfl

/-- The bits of a bitmap made from ids. -/
theorem attrBit_make (ids : List UInt32) (n : ℕ) :
    attrBit (makeBitmap4 ids) n = decide (n ∈ ids.map UInt32.toNat) := by
  have hfold : ∀ bm : List UInt32, attrBit (ids.foldl bitmap4Set bm) n =
      (attrBit bm n || decide (n ∈ ids.map UInt32.toNat)) := by
    induction ids with
    | nil => simp
    | cons i ids ih =>
      intro bm
      rw [List.foldl_cons, ih, attrBit_set, Bool.or_assoc]
      congr 1
      simp
  have hnil : attrBit [] n = false := Nat.zero_testBit _
  rw [makeBitmap4, hfold, hnil, Bool.false_or]

/-- A bitmap made from ids is the set of these ids. -/
theorem bitmap4Test_make (ids : List UInt32) (id : UInt32) :
    bitmap4Test (makeBitmap4 ids) id = decide (id ∈ ids) := by
  rw [bitmap4Test_eq, attrBit_make]
  simp only [List.mem_map, UInt32.toNat_inj, exists_eq_right]

/-! ### The canonical form -/

/-- The last word of the bitmap, if there is one, is not zero. -/
def Trimmed (bm : List UInt32) : Prop := bm ≠ [] → bm.getD (bm.length - 1) 0 ≠ 0

theorem Trimmed.set {bm : List UInt32} (h : Trimmed bm) (id : UInt32) : Trimmed (bitmap4Set bm id) := by
  have hdiv : (id / 32).toNat = id.toNat / 32 := UInt32.toNat_div id 32
  intro _
  rw [getD_bitmap4Set, length_bitmap4Set, hdiv]
  split
  · -- the word of the id has its bit
    intro hzero
    have hbit := congrArg UInt32.toNat (UInt32.or_eq_zero_iff.mp hzero).2
    rw [toNat_bit] at hbit
    exact absurd hbit (Nat.two_pow_pos _).ne'
  -- another word is the last one, so that the vector has not grown
  · next hword =>
    have hlen : max bm.length (id.toNat / 32 + 1) = bm.length := by omega
    have hne : bm ≠ [] := by
      rintro rfl
      exact hword (by simp)
    rw [hlen]
    exact h hne

theorem trimmed_make (ids : List UInt32) : Trimmed (makeBitmap4 ids) := by
  have hfold : ∀ bm : List UInt32, Trimmed bm → Trimmed (ids.foldl bitmap4Set bm) := by
    induction ids with
    | nil => exact fun bm h => h
    | cons i ids ih => exact fun bm h => ih _ (h.set i)
  exact hfold [] fun hne => absurd rfl hne

/-- The bits of a bitmap are its words. -/
theorem getD_eq_of_attrBit {bm bm' : List UInt32} (h : ∀ n, attrBit bm n = attrBit bm' n) (j : ℕ) :
    bm.getD j 0 = bm'.getD j 0 := by
  refine UInt32.toNat_inj.mp (Nat.eq_of_testBit_eq fun i => ?_)
  by_cases hi : i < 32
  · have hbit := h (32 * j + i)
    have hdiv : (32 * j + i) / 32 = j := by omega
    have hmod : (32 * j + i) % 32 = i := by omega
    rwa [attrBit, attrBit, hdiv, hmod] at hbit
  · have hbeyond : ∀ w : UInt32, w.toNat.testBit i = false := fun w =>
      Nat.testBit_lt_two_pow (lt_of_lt_of_le w.toNat_lt (Nat.pow_le_pow_right (by decide) (by omega)))
    rw [hbeyond, hbeyond]

/-- A trimmed bitmap is as long as its bits need. -/
theorem Trimmed.length_le {bm bm' : List UInt32} (h : Trimmed bm)
    (hwords : ∀ j, bm.getD j 0 = bm'.getD j 0) : bm.length ≤ bm'.length := by
  by_contra hlt
  have hne : bm ≠ [] := by
    rintro rfl
    exact hlt (Nat.zero_le _)
  refine h hne ?_
  rw [hwords]
  exact List.getD_eq_default _ _ (by omega)

/-- **Canonicity**: trimmed bitmaps with the same bits are the same. -/
theorem Trimmed.eq_of_attrBit {bm bm' : List UInt32} (h : Trimmed bm) (h' : Trimmed bm')
    (hbits : ∀ n, attrBit bm n = attrBit bm' n) : bm = bm' := by
  have hwords := getD_eq_of_attrBit hbits
  have hlen : bm.length = bm'.length :=
    le_antisymm (h.length_le hwords) (h'.length_le fun j => (hwords j).symm)
  refine List.ext_getElem hlen fun j hj hj' => ?_
  have hword := hwords j
  rwa [List.getD_eq_getElem _ _ hj, List.getD_eq_getElem _ _ hj'] at hword

/-- **Bitmaps as finite sets.** `bitmap4_set` inserts one id and keeps every other word and bit; a
bitmap made from ids is the set of these ids in the one form that has no word too many; and what is
encoded is decoded, to its last byte. -/
structure Bitmap4Set : Prop where
  test_set : ∀ (bm : List UInt32) (i j : UInt32),
    bitmap4Test (bitmap4Set bm i) j = true ↔ j = i ∨ bitmap4Test bm j = true
  set_length : ∀ (bm : List UInt32) (i : UInt32), bm.length ≤ (bitmap4Set bm i).length
  set_words : ∀ (bm : List UInt32) (i : UInt32) (k : ℕ), k ≠ i.toNat / 32 →
    (bitmap4Set bm i).getD k 0 = bm.getD k 0
  set_bits : ∀ (bm : List UInt32) (i : UInt32) (n : ℕ), n ≠ i.toNat →
    attrBit (bitmap4Set bm i) n = attrBit bm n
  test_make : ∀ (ids : List UInt32) (j : UInt32), bitmap4Test (makeBitmap4 ids) j = true ↔ j ∈ ids
  make_eq : ∀ ids ids' : List UInt32, (∀ i, i ∈ ids ↔ i ∈ ids') → makeBitmap4 ids = makeBitmap4 ids'
  make_trimmed : ∀ (ids : List UInt32), (makeBitmap4 ids).getLast? ≠ some 0
  decode_encode : ∀ bm : List UInt32, bm.length < 2 ^ 32 →
    ∀ rest, decodeBitmap4 (encodeBitmap4 bm ++ rest) = .ok (bm, rest)

theorem bitmap4_finite_set : Bitmap4Set where
  test_set bm i j := by
    rw [bitmap4Test_set, Bool.or_eq_true, decide_eq_true_iff]
    exact Or.comm
  set_length bm i := by
    rw [length_bitmap4Set]
    exact Nat.le_max_left _ _
  set_words bm i k hk := (getD_bitmap4Set bm i k).trans (if_neg hk)
  set_bits bm i n hn := by
    rw [attrBit_set, decide_eq_false hn, Bool.or_false]
  test_make ids j := by
    rw [bitmap4Test_make, decide_eq_true_iff]
  make_eq ids ids' h := by
    -- trimmed and with the same bits
    refine (trimmed_make ids).eq_of_attrBit (trimmed_make ids') fun n => ?_
    rw [attrBit_make, attrBit_make]
    simp only [List.mem_map, h]
  make_trimmed ids hlast := by
    have hne : makeBitmap4 ids ≠ [] := by
      intro hnil
      rw [hnil] at hlast
      cases hlast
    -- the last word is the one at the last index
    refine trimmed_make ids hne ?_
    rw [List.getD_eq_getElem?_getD, ← List.getLast?_eq_getElem?, hlast]
    rfl
  decode_encode bm h rest := by
    rw [encodeBitmap4_eq]
    exact decodeBitmap4_reads h rest

/-! ### The attributes of the client -/

/-- The ids that `decode_fattr4` knows. -/
def supportedIds : List UInt32 :=
  [Attr.TYPE, Attr.CHANGE, Attr.SIZE, Attr.FSID, Attr.FILEID, Attr.MODE, Attr.NUMLINKS, Attr.OWNER,
    Attr.OWNER_GROUP, Attr.SPACE_USED, Attr.TIME_ACCESS, Attr.TIME_METADATA, Attr.TIME_MODIFY,
    Attr.MOUNTED_ON_FILEID]

namespace ServerAttrs

theorem mem_supportedIds_of_has {a : ServerAttrs} {id : UInt32} (h : a.has id = true) :
    id ∈ supportedIds := by
  by_contra hnot
  simp only [supportedIds, List.mem_cons, List.not_mem_nil, or_false, not_or] at hnot
  obtain ⟨h1, h3, h4, h8, h20, h33, h35, h36, h37, h45, h47, h52, h53, h55⟩ := hnot
  have hfalse : a.has id = false :=
    (if_neg h1).trans <| (if_neg h3).trans <| (if_neg h4).trans <| (if_neg h8).trans <|
    (if_neg h20).trans <| (if_neg h33).trans <| (if_neg h35).trans <| (if_neg h36).trans <|
    (if_neg h37).trans <| (if_neg h45).trans <| (if_neg h47).trans <| (if_neg h52).trans <|
    (if_neg h53).trans <| if_neg h55
  rw [hfalse] at h
  cases h

/-- The bitmap of the set, without a word too many. -/
def bitmap (a : ServerAttrs) : List UInt32 := makeBitmap4 (supportedIds.filter a.has)

theorem describes_bitmap (a : ServerAttrs) (n : ℕ) :
    a.Describes (a.bitmap ++ List.replicate n 0) := by
  intro id
  rw [bitmap4Test_eq, attrBit_append_zeros, ← bitmap4Test_eq, bitmap, bitmap4Test_make]
  cases hid : a.has id with
  | false => exact decide_eq_false fun hmem => by simp [hid] at hmem
  | true => exact decide_eq_true (List.mem_filter.mpr ⟨mem_supportedIds_of_has hid, hid⟩)

end ServerAttrs

end NfsClient
