import NfsClient.Nfs4.Bitmap

/-!
# The attribute lists that the client accepts

`decode_fattr4` has no check of its own: it reads the attributes it knows, those whose bits are set,
from the front of the list, and it fails only where the list ends too early. `decodeFattr4_ok` says
so for all inputs. What it returns are the values of the blocks at the front of the list, in
ascending order of the ids; a bit of an attribute that it does not know has no block there, and what
is behind the last block is dropped.

So a list in which a server has put the value of an unknown attribute is read from a wrong position
(`unknown_attribute_misread`).
-/

namespace NfsClient

open Xdr Reader

/-! ### Blocks -/

/-- The encodings of a string: anything may pad it. -/
def StringBytes (s b : Bytes) : Prop :=
  ∃ pad : Bytes, s.length < 2 ^ 32 ∧ pad.length = padLen s.length ∧
    b = word (UInt32.ofNat s.length) ++ (s ++ pad)

/-- The block of an attribute: an encoding of its value, or nothing if it has none. -/
def Block {α : Type} (E : α → Bytes → Prop) : Option α → Bytes → Prop
  | some a, b => E a b
  | none, b => b = []

namespace ServerAttrs

/-- The blocks of a set of attributes, in ascending order of the ids. -/
def blocks (s : ServerAttrs) : List (Bytes → Prop) :=
  [Block (fun t b => b = word t.value) s.type,
    Block (fun v b => b = hyper v) s.change,
    Block (fun v b => b = hyper v) s.size,
    Block (fun f b => b = hyper f.1 ++ hyper f.2) s.fsid,
    Block (fun v b => b = hyper v) s.fileid,
    Block (fun v b => b = word v) s.mode,
    Block (fun v b => b = word v) s.numlinks,
    Block StringBytes s.owner,
    Block StringBytes s.owner_group,
    Block (fun v b => b = hyper v) s.space_used,
    Block (fun t b => b = t.wire) s.time_access,
    Block (fun t b => b = t.wire) s.time_metadata,
    Block (fun t b => b = t.wire) s.time_modify,
    Block (fun v b => b = hyper v) s.mounted_on_fileid]

/-- Among the ids that `decode_fattr4` knows, the bitmap has those of the set. -/
def Selected (s : ServerAttrs) (bm : List UInt32) : Prop :=
  ∀ id ∈ supportedIds, bitmap4Test bm id = s.has id

end ServerAttrs

/-- The ids are in ascending order. -/
example : supportedIds.Pairwise (· < ·) := by decide

/-! ### The decoders of the values -/

theorem getUint32_accepts : Accepts getUint32 fun v b => b = word v := by
  intro bs rest v
  rw [getUint32_ok]
  exact ⟨fun h => ⟨_, rfl, h⟩, fun ⟨_, hb, h⟩ => hb ▸ h⟩

theorem getUint64_accepts : Accepts getUint64 fun v b => b = hyper v := by
  intro bs rest v
  rw [getUint64_ok]
  exact ⟨fun h => ⟨_, rfl, h⟩, fun ⟨_, hb, h⟩ => hb ▸ h⟩

theorem getString_accepts : Accepts getString StringBytes := by
  intro bs rest s
  rw [getString, getOpaque_ok]
  constructor
  · rintro ⟨pad, hs, hpad, rfl⟩
    refine ⟨_, ⟨pad, hs, hpad, rfl⟩, ?_⟩
    simp only [List.append_assoc]
  · rintro ⟨b, ⟨pad, hs, hpad, rfl⟩, rfl⟩
    refine ⟨pad, hs, hpad, ?_⟩
    simp only [List.append_assoc]

theorem type_accepts : Accepts (Ftype4.mk <$> getUint32) fun t b => b = word t.value := by
  intro bs rest t
  rw [(getUint32_accepts.map Ftype4.mk).ok]
  constructor
  · rintro ⟨b, ⟨v, rfl, hb⟩, h⟩
    exact ⟨b, hb, h⟩
  · rintro ⟨b, hb, h⟩
    exact ⟨b, ⟨t.value, rfl, hb⟩, h⟩

theorem decodeNfstime4_accepts : Accepts decodeNfstime4 fun t b => b = t.wire := by
  intro bs rest t
  constructor
  · intro h
    obtain ⟨seconds, mid, hseconds, h⟩ := bind_ok.mp h
    obtain ⟨nseconds, mid', hnseconds, h⟩ := bind_ok.mp h
    obtain ⟨rfl, rfl⟩ := pure_ok.mp h
    refine ⟨_, rfl, ?_⟩
    rw [getUint64_ok.mp hseconds, getUint32_ok.mp hnseconds, Nfstime4.wire, List.append_assoc]
    rfl
  · rintro ⟨b, rfl, rfl⟩
    exact decodeNfstime4_reads t rest

/-- Of the two halves of an `fsid` the decoder yields the second. -/
theorem fsid_accepts : Accepts (do let _major ← getUint64; getUint64)
    fun minor b => ∃ major, b = hyper major ++ hyper minor := by
  intro bs rest minor
  rw [(getUint64_accepts.bind fun _ => getUint64_accepts).ok]
  constructor
  · rintro ⟨b, ⟨major, x, y, rfl, rfl, hb⟩, h⟩
    exact ⟨b, ⟨major, hb⟩, h⟩
  · rintro ⟨b, ⟨major, hb⟩, h⟩
    exact ⟨b, ⟨major, _, _, rfl, rfl, hb⟩, h⟩

/-! ### One attribute after the other -/

/-- An attribute takes its block. -/
theorem ifSet_bind_ok {α β : Type} {bm : List UInt32} {id : UInt32} {d : XdrDecoder α}
    {E : α → Bytes → Prop} (hd : Accepts d E) {k : Option α → XdrDecoder β} {bs rest : Bytes}
    {x : β} :
    (ifSet bm id d >>= k) bs = .ok (x, rest) ↔
      ∃ v b mid, bitmap4Test bm id = v.isSome ∧ Block E v b ∧ bs = b ++ mid ∧
        k v mid = .ok (x, rest) := by
  rw [bind_ok]
  unfold ifSet
  -- an attribute that is not selected has an empty block
  cases hbit : bitmap4Test bm id with
  | false =>
    rw [if_neg Bool.false_ne_true]
    constructor
    · rintro ⟨v, mid, h, hk⟩
      obtain ⟨rfl, rfl⟩ := pure_ok.mp h
      exact ⟨none, [], bs, rfl, rfl, rfl, hk⟩
    · rintro ⟨v, b, mid, hv, hb, rfl, hk⟩
      cases v with
      | none => exact ⟨none, mid, pure_ok.mpr ⟨rfl, congrArg (· ++ mid) hb⟩, hk⟩
      | some a => cases hv
  | true =>
    rw [if_pos rfl]
    constructor
    · rintro ⟨v, mid, h, hk⟩
      obtain ⟨a, ha, rfl⟩ := map_ok.mp h
      obtain ⟨b, hb, rfl⟩ := hd.ok.mp ha
      exact ⟨some a, b, mid, rfl, hb, rfl, hk⟩
    · rintro ⟨v, b, mid, hv, hb, rfl, hk⟩
      cases v with
      | none => cases hv
      | some a => exact ⟨some a, mid, map_ok.mpr ⟨a, hd.ok.mpr ⟨b, hb, rfl⟩, rfl⟩, hk⟩

/-- The same with the blocks of the attributes that follow. -/
theorem ifSet_bind_of_concat {α β : Type} {bm : List UInt32} {id : UInt32} {d : XdrDecoder α}
    {E : α → Bytes → Prop} (hd : Accepts d E) {v : Option α} (hbit : bitmap4Test bm id = v.isSome)
    {k : Option α → XdrDecoder β} {Ls : List (Bytes → Prop)} {extra : Bytes} {x : β}
    (hk : ∀ values, Concat Ls values → k v (values ++ extra) = .ok (x, extra)) :
    ∀ values, Concat (Block E v :: Ls) values →
      (ifSet bm id d >>= k) (values ++ extra) = .ok (x, extra) := by
  rintro _ ⟨b, values, hb, hvalues, rfl⟩
  exact (ifSet_bind_ok hd).mpr ⟨v, b, values ++ extra, hbit, hb, List.append_assoc _ _ _,
    hk values hvalues⟩

/-- The block of an `fsid`, of which the client has one half. -/
theorem block_fsid {v : Option UInt64} {b : Bytes}
    (h : Block (fun minor b => ∃ major, b = hyper major ++ hyper minor) v b) :
    ∃ fsid : Option (UInt64 × UInt64), fsid.isSome = v.isSome ∧
      Block (fun f b => b = hyper f.1 ++ hyper f.2) fsid b := by
  cases v with
  | none => exact ⟨none, rfl, h⟩
  | some minor =>
    obtain ⟨major, hb⟩ := h
    exact ⟨some (major, minor), rfl, hb⟩

theorem block_minor {fsid : Option (UInt64 × UInt64)} {b : Bytes}
    (h : Block (fun f b => b = hyper f.1 ++ hyper f.2) fsid b) :
    Block (fun minor b => ∃ major, b = hyper major ++ hyper minor) (fsid.map Prod.snd) b := by
  cases fsid with
  | none => exact h
  | some f => exact ⟨f.1, h⟩

theorem decodeAttrs_ok {bm : List UInt32} {bs extra : Bytes} {a : Fattr4} :
    decodeAttrs bm bs = .ok (a, extra) ↔
      ∃ s : ServerAttrs, s.toFattr4 = a ∧ s.Selected bm ∧
        ∃ values, Concat s.blocks values ∧ bs = values ++ extra := by
  unfold decodeAttrs
  constructor
  · intro k₀
    -- each field takes the block of its attribute, in the order of the ids
    obtain ⟨type, b₁, m₁, h₁, hb₁, rfl, k₁⟩ := (ifSet_bind_ok type_accepts).mp k₀
    obtain ⟨change, b₂, m₂, h₂, hb₂, rfl, k₂⟩ := (ifSet_bind_ok getUint64_accepts).mp k₁
    obtain ⟨size, b₃, m₃, h₃, hb₃, rfl, k₃⟩ := (ifSet_bind_ok getUint64_accepts).mp k₂
    obtain ⟨minor, b₄, m₄, h₄, hb₄, rfl, k₄⟩ := (ifSet_bind_ok fsid_accepts).mp k₃
    obtain ⟨fileid, b₅, m₅, h₅, hb₅, rfl, k₅⟩ := (ifSet_bind_ok getUint64_accepts).mp k₄
    obtain ⟨mode, b₆, m₆, h₆, hb₆, rfl, k₆⟩ := (ifSet_bind_ok getUint32_accepts).mp k₅
    obtain ⟨numlinks, b₇, m₇, h₇, hb₇, rfl, k₇⟩ := (ifSet_bind_ok getUint32_accepts).mp k₆
    obtain ⟨owner, b₈, m₈, h₈, hb₈, rfl, k₈⟩ := (ifSet_bind_ok getString_accepts).mp k₇
    obtain ⟨group, b₉, m₉, h₉, hb₉, rfl, k₉⟩ := (ifSet_bind_ok getString_accepts).mp k₈
    obtain ⟨space, b₁₀, m₁₀, h₁₀, hb₁₀, rfl, k₁₀⟩ := (ifSet_bind_ok getUint64_accepts).mp k₉
    obtain ⟨atime, b₁₁, m₁₁, h₁₁, hb₁₁, rfl, k₁₁⟩ := (ifSet_bind_ok decodeNfstime4_accepts).mp k₁₀
    obtain ⟨ctime, b₁₂, m₁₂, h₁₂, hb₁₂, rfl, k₁₂⟩ := (ifSet_bind_ok decodeNfstime4_accepts).mp k₁₁
    obtain ⟨mtime, b₁₃, m₁₃, h₁₃, hb₁₃, rfl, k₁₃⟩ := (ifSet_bind_ok decodeNfstime4_accepts).mp k₁₂
    obtain ⟨mounted, b₁₄, m₁₄, h₁₄, hb₁₄, rfl, k₁₄⟩ := (ifSet_bind_ok getUint64_accepts).mp k₁₃
    obtain ⟨rfl, rfl⟩ := pure_ok.mp k₁₄
    -- of the fsid the decoder keeps the minor half only
    obtain ⟨fsid, hfsid, hb₄⟩ := block_fsid hb₄
    rw [← hfsid] at h₄
    refine ⟨⟨⟨type, change, size, fileid, mode, numlinks, owner, group, space, atime, ctime, mtime,
      mounted⟩, fsid⟩, rfl, ?_, _, .cons hb₁ <| .cons hb₂ <| .cons hb₃ <| .cons hb₄ <| .cons hb₅ <|
      .cons hb₆ <| .cons hb₇ <| .cons hb₈ <| .cons hb₉ <| .cons hb₁₀ <| .cons hb₁₁ <| .cons hb₁₂ <|
      .cons hb₁₃ <| .cons hb₁₄ .nil, ?_⟩
    · simp only [ServerAttrs.Selected, supportedIds, List.forall_mem_cons]
      exact ⟨h₁, h₂, h₃, h₄, h₅, h₆, h₇, h₈, h₉, h₁₀, h₁₁, h₁₂, h₁₃, h₁₄,
        fun _ hid => absurd hid List.not_mem_nil⟩
    · simp only [List.append_assoc, List.nil_append]
  · rintro ⟨s, rfl, hsel, values, hvalues, rfl⟩
    simp only [ServerAttrs.Selected, supportedIds, List.forall_mem_cons] at hsel
    obtain ⟨h₁, h₂, h₃, h₄, h₅, h₆, h₇, h₈, h₉, h₁₀, h₁₁, h₁₂, h₁₃, h₁₄, -⟩ := hsel
    have h₄ : bitmap4Test bm Attr.FSID = (s.fsid.map Prod.snd).isSome :=
      (h₄.trans (show _ = s.fsid.isSome from rfl)).trans Option.isSome_map.symm
    -- conversely, every block is taken by its field
    refine ifSet_bind_of_concat type_accepts h₁ ?_ values hvalues
    refine ifSet_bind_of_concat getUint64_accepts h₂ ?_
    refine ifSet_bind_of_concat getUint64_accepts h₃ ?_
    rintro _ ⟨b, values, hb, hvalues, rfl⟩
    refine ifSet_bind_of_concat fsid_accepts h₄ ?_ _ ⟨b, values, block_minor hb, hvalues, rfl⟩
    refine ifSet_bind_of_concat getUint64_accepts h₅ ?_
    refine ifSet_bind_of_concat getUint32_accepts h₆ ?_
    refine ifSet_bind_of_concat getUint32_accepts h₇ ?_
    refine ifSet_bind_of_concat getString_accepts h₈ ?_
    refine ifSet_bind_of_concat getString_accepts h₉ ?_
    refine ifSet_bind_of_concat getUint64_accepts h₁₀ ?_
    refine ifSet_bind_of_concat decodeNfstime4_accepts h₁₁ ?_
    refine ifSet_bind_of_concat decodeNfstime4_accepts h₁₂ ?_
    refine ifSet_bind_of_concat decodeNfstime4_accepts h₁₃ ?_
    refine ifSet_bind_of_concat getUint64_accepts h₁₄ ?_
    rintro _ rfl
    exact pure_ok.mpr ⟨rfl, rfl⟩

/-! ### The whole fattr4 -/

theorem decodeBitmap4_ok {bs rest : Bytes} {bm : List UInt32} :
    decodeBitmap4 bs = .ok (bm, rest) ↔ bm.length < 2 ^ 32 ∧ bs = array word bm ++ rest := by
  unfold decodeBitmap4
  rw [bind_ok]
  constructor
  · rintro ⟨count, mid, hcount, h⟩
    obtain ⟨b, ⟨hlen, rfl⟩, rfl⟩ := (getUint32_accepts.times _).ok.mp h
    refine ⟨hlen ▸ count.toNat_lt, ?_⟩
    rw [getUint32_ok.mp hcount, array, hlen, UInt32.ofNat_toNat, List.append_assoc]
  · rintro ⟨hlen, rfl⟩
    exact bind_ok.mp (decodeBitmap4_reads hlen rest)

/-- **What `decode_fattr4` accepts.** It returns if and only if the attribute list begins with the
values of the attributes whose bits are set, among those that it knows, in ascending order of their
ids; it returns these values. -/
theorem decodeFattr4_ok (bs rest : Bytes) (a : Fattr4) :
    decodeFattr4 bs = .ok (a, rest) ↔
      ∃ (bm : List UInt32) (attrlist pad : Bytes),
        (bm.length < 2 ^ 32 ∧ attrlist.length < 2 ^ 32 ∧ pad.length = padLen attrlist.length ∧
          bs = array word bm ++
            (word (UInt32.ofNat attrlist.length) ++ (attrlist ++ (pad ++ rest)))) ∧
        ∃ s : ServerAttrs, s.toFattr4 = a ∧ s.Selected bm ∧
          ∃ values extra, Concat s.blocks values ∧ attrlist = values ++ extra := by
  unfold decodeFattr4
  rw [bind_ok]
  constructor
  · rintro ⟨bm, mid, hbm, h⟩
    obtain ⟨attrlist, mid', hattrlist, h'⟩ := bind_ok.mp h
    -- what the sub-decoder leaves of the list is thrown away
    obtain ⟨⟨extra, hattrs⟩, rfl⟩ := withDecoder_ok.mp h'
    obtain ⟨hbmlen, rfl⟩ := decodeBitmap4_ok.mp hbm
    obtain ⟨pad, hlen, hpad, rfl⟩ := getOpaque_ok.mp hattrlist
    obtain ⟨s, hs, hsel, values, hvalues, hlist⟩ := decodeAttrs_ok.mp hattrs
    exact ⟨bm, attrlist, pad, ⟨hbmlen, hlen, hpad, rfl⟩, s, hs, hsel, values, extra, hvalues, hlist⟩
  · rintro ⟨bm, attrlist, pad, ⟨hbmlen, hlen, hpad, rfl⟩, s, hs, hsel, values, extra, hvalues, hlist⟩
    refine ⟨bm, _, decodeBitmap4_ok.mpr ⟨hbmlen, rfl⟩, bind_ok.mpr ⟨attrlist, rest, ?_, ?_⟩⟩
    · exact getOpaque_ok.mpr ⟨pad, hlen, hpad, rfl⟩
    · exact withDecoder_ok.mpr
        ⟨⟨extra, decodeAttrs_ok.mpr ⟨s, hs, hsel, values, hvalues, hlist⟩⟩, rfl⟩

/-- A list with an RDATTR_ERROR (11) in front of a `fileid` of 99 is accepted: the client takes the
first eight bytes for the `fileid`, and drops four. -/
theorem unknown_attribute_misread :
    bitmap4Test (makeBitmap4 [11, Attr.FILEID]) 11 = true ∧
      decodeFattr4 (Wire.fattr4.write (makeBitmap4 [11, Attr.FILEID], word 0 ++ hyper 99)) =
        .ok ({ fileid := some 0 }, []) := by
  decide +kernel

end NfsClient
