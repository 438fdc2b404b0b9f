import NfsClient.Framing.Sizes
import NfsClient.Nfs4.Attrlist
import NfsClient.Nfs4.Settable
import NfsClient.Nfs4.WellFormed

/-!
# The two attribute codecs of the client

`encode_fattr4` writes the attributes of a request and `decode_fattr4` reads those of a reply, each
from a table of its own. Four attributes are in both tables. The times that are set have numbers that
the decoder does not know, and since these are the highest, their values are the tail of the list,
which the decoder drops with its inner buffer. So it gets back the other four, whatever times there are
(`codecs_agree_iff`), as long as the list has a count.
-/

namespace NfsClient

open Xdr Reader

namespace Sattr4

/-- What the decoder is to get back. The times are not in its table. -/
def decoded (attrs : Sattr4) : Fattr4 :=
  { size := attrs.size, mode := attrs.mode, owner := attrs.owner, owner_group := attrs.owner_group }

/-- The four attributes that both tables have. -/
def common (attrs : Sattr4) : Bytes :=
  ifPresent putUint64 attrs.size ++ (ifPresent putUint32 attrs.mode ++
    (ifPresent putString attrs.owner ++ ifPresent putString attrs.owner_group))

/-- The times, which come behind them. -/
def times (attrs : Sattr4) : Bytes :=
  ifPresent putSettime4 attrs.time_access ++ ifPresent putSettime4 attrs.time_modify

theorem attrlist_eq_common (attrs : Sattr4) : attrs.attrlist = attrs.common ++ attrs.times := by
  unfold attrlist common times
  simp only [List.append_assoc]

/-- Among the ids that the decoder knows, the bitmap has those of the four. -/
theorem selected_bitmap (attrs : Sattr4) :
    ServerAttrs.Selected { toFattr4 := attrs.decoded } attrs.bitmap := by
  intro id hid
  rw [bitmap4Test_eq, attrs.attrBit_bitmap]
  simp only [supportedIds, List.mem_cons, List.not_mem_nil, or_false] at hid
  obtain rfl | rfl | rfl | rfl | rfl | rfl | rfl | rfl | rfl | rfl | rfl | rfl | rfl | rfl := hid
  all_goals
    simp [ServerAttrs.has, decoded, Attr.TYPE, Attr.CHANGE, Attr.SIZE, Attr.FSID, Attr.FILEID,
      Attr.MODE, Attr.NUMLINKS, Attr.OWNER, Attr.OWNER_GROUP, Attr.SPACE_USED, Attr.TIME_ACCESS,
      Attr.TIME_METADATA, Attr.TIME_MODIFY, Attr.MOUNTED_ON_FILEID, Attr.TIME_ACCESS_SET,
      Attr.TIME_MODIFY_SET]

end Sattr4

/-! ### Blocks of the encoder -/

theorem block_ifPresent {α : Type} {put enc : α → Bytes} (h : ∀ a, put a = enc a) (x : Option α) :
    Block (fun a b => b = enc a) x (ifPresent put x) := by
  cases x with
  | none => exact rfl
  | some a => exact h a

theorem block_putString {x : Option Bytes} (h : ∀ s, x = some s → s.length < 2 ^ 32) :
    Block StringBytes x (ifPresent putString x) := by
  cases x with
  | none => exact rfl
  | some s =>
    refine ⟨List.replicate (padLen s.length) 0, h s rfl, List.length_replicate, ?_⟩
    exact putString_eq s

theorem Sattr4.concat_common {attrs : Sattr4} (h : attrs.attrlist.length < 2 ^ 32) :
    Concat (ServerAttrs.blocks { toFattr4 := attrs.decoded }) attrs.common := by
  have hstring : ∀ {x : Option Bytes}, (ifPresent putString x).length ≤ attrs.attrlist.length →
      ∀ s, x = some s → s.length < 2 ^ 32 := by
    rintro x hx s rfl
    have hput : (ifPresent putString (some s)).length = opaqueSize s.length :=
      (congrArg List.length (putString_eq s)).trans (length_varOpaque s)
    have hle := le_opaqueSize s.length
    omega
  have howner : (ifPresent putString attrs.owner).length ≤ attrs.attrlist.length := by
    unfold Sattr4.attrlist
    simp only [List.length_append]
    omega
  have hgroup : (ifPresent putString attrs.owner_group).length ≤ attrs.attrlist.length := by
    unfold Sattr4.attrlist
    simp only [List.length_append]
    omega
  -- the blocks of the attributes that are not in the table of the encoder are empty
  have hend : Concat [Block (fun v b => b = hyper v) none, Block (fun t b => b = Nfstime4.wire t) none,
      Block (fun t b => b = Nfstime4.wire t) none, Block (fun t b => b = Nfstime4.wire t) none,
      Block (fun v b => b = hyper v) none] [] :=
    .cons (x := []) rfl <| .cons (x := []) rfl <| .cons (x := []) rfl <| .cons (x := []) rfl <|
      .cons (x := []) rfl .nil
  have hgroupBlock := Concat.cons (block_putString (hstring hgroup)) hend
  rw [List.append_nil] at hgroupBlock
  exact .cons (x := []) rfl <| .cons (x := []) rfl <|
    .cons (block_ifPresent putUint64_eq attrs.size) <|
    .cons (x := []) rfl <| .cons (x := []) rfl <|
    .cons (block_ifPresent putUint32_eq attrs.mode) <| .cons (x := []) rfl <|
    .cons (block_putString (hstring howner)) hgroupBlock

/-! ### The codecs on each other -/

theorem Sattr4.decodes {attrs : Sattr4} (h : attrs.attrlist.length < 2 ^ 32) (suffix : Bytes) :
    decodeFattr4 (encodeFattr4 attrs ++ suffix) = .ok (attrs.decoded, suffix) := by
  have hbitmap : attrs.bitmap.length < 2 ^ 32 := lt_of_le_of_lt attrs.length_bitmap (by decide)
  have hattrs : decodeAttrs attrs.bitmap attrs.attrlist = .ok (attrs.decoded, attrs.times) :=
    decodeAttrs_ok.mpr ⟨{ toFattr4 := attrs.decoded }, rfl, attrs.selected_bitmap, attrs.common,
      Sattr4.concat_common h, attrs.attrlist_eq_common⟩
  -- what is left of the list goes with the inner decoder
  have hinner : Reads (withDecoder attrs.attrlist (decodeAttrs attrs.bitmap)) [] attrs.decoded :=
    fun _ => withDecoder_ok.mpr ⟨⟨attrs.times, hattrs⟩, rfl⟩
  rw [encodeFattr4, encodeBitmap4_eq, putOpaque_eq]
  exact ((decodeBitmap4_reads hbitmap).bind ((getOpaque_reads h).bind_nil hinner)) suffix

/-- A decoder that comes to the suffix has found the whole list behind its count. -/
theorem Sattr4.lt_of_decodes {attrs : Sattr4} {suffix : Bytes} {a : Fattr4}
    (h : decodeFattr4 (encodeFattr4 attrs ++ suffix) = .ok (a, suffix)) :
    attrs.attrlist.length < 2 ^ 32 := by
  have hbitmap : attrs.bitmap.length < 2 ^ 32 := lt_of_le_of_lt attrs.length_bitmap (by decide)
  rw [encodeFattr4, encodeBitmap4_eq, putOpaque_eq, List.append_assoc] at h
  unfold decodeFattr4 at h
  rw [bind_of_ok (decodeBitmap4_reads hbitmap _)] at h
  obtain ⟨attrlist, mid, hattrlist, hinner⟩ := bind_ok.mp h
  obtain ⟨-, rfl⟩ := withDecoder_ok.mp hinner
  obtain ⟨pad, hlen, hpad, hbytes⟩ := getOpaque_ok.mp hattrlist
  -- both sides begin with the count and are as long as the list and its padding
  have htotal := congrArg List.length hbytes
  rw [varOpaque, List.append_assoc] at hbytes
  have hcount := word_injective (List.append_inj hbytes rfl).1
  have hmod := congrArg UInt32.toNat hcount
  rw [toNat_ofNat_of_lt hlen, UInt32.toNat_ofNat'] at hmod
  simp only [List.length_append, length_varOpaque, length_word, hpad] at htotal
  unfold padLen at htotal
  omega

/-- **The codecs agree**: from what `encode_fattr4` writes, `decode_fattr4` gets the size, the mode
and the two strings, each of them if it was set, and nothing else, and it stops in front of what
follows, if and only if the attribute list has fewer than `2 ^ 32` bytes. -/
theorem codecs_agree_iff (attrs : Sattr4) (suffix : Bytes) :
    decodeFattr4 (encodeFattr4 attrs ++ suffix) = .ok (attrs.decoded, suffix) ↔
      attrs.listSize < 2 ^ 32 := by
  rw [← attrs.length_attrlist_eq]
  constructor
  · exact Sattr4.lt_of_decodes
  · exact fun h => Sattr4.decodes h suffix

/-- An owner of `2 ^ 32 - 4` bytes makes a list whose count is `0`. -/
theorem long_owner_not_decoded :
    ¬ decodeFattr4 (encodeFattr4 { owner := some (List.replicate (2 ^ 32 - 4) 97) } ++ []) =
      .ok (Sattr4.decoded { owner := some (List.replicate (2 ^ 32 - 4) 97) }, []) := by
  intro h
  have hlt := Sattr4.lt_of_decodes h
  rw [length_attrlist_owner, List.length_replicate] at hlt
  unfold padLen at hlt
  omega

end NfsClient
