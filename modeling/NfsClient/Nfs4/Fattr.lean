import NfsClient.Nfs4.Attr
import NfsClient.Nfs4.Grammar

/-!
# Attributes as a server encodes them

A server returns a set of attributes as a bitmap with exactly their bits and the concatenation of
their values in ascending order of the ids (RFC 7530, section 5). `ServerAttrs` is such a set, of
attributes that `decode_fattr4` knows; `decodeAttrs_reads` says that the decoder gets it back. The
bitmap may have any number of words.
-/

namespace NfsClient

open Xdr Reader

/-- The attributes that a server returns. The client reads an `fsid` and drops it. -/
structure ServerAttrs extends Fattr4 where
  fsid : Option (UInt64 × UInt64) := none

/-- The encoding of an attribute, if it is there. -/
def optional {α : Type} (enc : α → Bytes) : Option α → Bytes
  | some a => enc a
  | none => []

/-- `nfstime4` on the wire: the seconds in two's complement. -/
def Nfstime4.wire (t : Nfstime4) : Bytes := hyper t.seconds.toUInt64 ++ word t.nseconds

namespace ServerAttrs

/-- Whether the attribute with a given id is in the set. -/
def has (a : ServerAttrs) (id : UInt32) : Bool :=
  if id = 1 then a.type.isSome
  else if id = 3 then a.change.isSome
  else if id = 4 then a.size.isSome
  else if id = 8 then a.fsid.isSome
  else if id = 20 then a.fileid.isSome
  else if id = 33 then a.mode.isSome
  else if id = 35 then a.numlinks.isSome
  else if id = 36 then a.owner.isSome
  else if id = 37 then a.owner_group.isSome
  else if id = 45 then a.space_used.isSome
  else if id = 47 then a.time_access.isSome
  else if id = 52 then a.time_metadata.isSome
  else if id = 53 then a.time_modify.isSome
  else if id = 55 then a.mounted_on_fileid.isSome
  else false

/-- The bitmap has the bits of the set and no others. -/
def Describes (a : ServerAttrs) (bm : List UInt32) : Prop := ∀ id, bitmap4Test bm id = a.has id

/-- The values in ascending order of the ids. -/
def attrlist (a : ServerAttrs) : Bytes :=
  optional (fun t : Ftype4 => word t.value) a.type ++ (optional hyper a.change ++
    (optional hyper a.size ++ (optional (fun f => hyper f.1 ++ hyper f.2) a.fsid ++
    (optional hyper a.fileid ++ (optional word a.mode ++ (optional word a.numlinks ++
    (optional varOpaque a.owner ++ (optional varOpaque a.owner_group ++
    (optional hyper a.space_used ++ (optional Nfstime4.wire a.time_access ++
    (optional Nfstime4.wire a.time_metadata ++ (optional Nfstime4.wire a.time_modify ++
    optional hyper a.mounted_on_fileid))))))))))))

end ServerAttrs

theorem decodeNfstime4_reads (t : Nfstime4) : Reads decodeNfstime4 t.wire t := by
  refine (getUint64_reads t.seconds.toUInt64).bind ((getUint32_reads t.nseconds).bind_nil ?_)
  rw [Int64.toInt64_toUInt64]
  exact Reads.pure t

theorem ifSet_reads {α : Type} {bm : List UInt32} {id : UInt32} {d : XdrDecoder α}
    {enc : α → Bytes} {v : Option α} (hbit : bitmap4Test bm id = v.isSome)
    (hd : ∀ a, v = some a → Reads d (enc a) a) : Reads (ifSet bm id d) (optional enc v) v := by
  unfold ifSet
  rw [hbit]
  cases v with
  | none => exact Reads.pure none
  | some a => exact (hd a rfl).map some

/-- Of the two halves of an `fsid` the decoder yields the second. -/
theorem ifSetFsid_reads {bm : List UInt32} {fsid : Option (UInt64 × UInt64)}
    (hbit : bitmap4Test bm Attr.FSID = fsid.isSome) :
    Reads (ifSet bm Attr.FSID (do let _major ← getUint64; getUint64))
      (optional (fun f => hyper f.1 ++ hyper f.2) fsid) (fsid.map Prod.snd) := by
  unfold ifSet
  rw [hbit]
  cases fsid with
  | none => exact Reads.pure none
  | some f => exact ((getUint64_reads f.1).bind (getUint64_reads f.2)).map some

/-- A string among the values is shorter than the list of the values. -/
theorem ServerAttrs.owner_fits {a : ServerAttrs} (h : a.attrlist.length < 2 ^ 32) :
    (∀ s, a.owner = some s → s.length < 2 ^ 32) ∧
      ∀ s, a.owner_group = some s → s.length < 2 ^ 32 := by
  unfold ServerAttrs.attrlist at h
  simp only [List.length_append] at h
  constructor
  · intro s hs
    rw [hs] at h
    simp only [optional, length_varOpaque] at h
    omega
  · intro s hs
    rw [hs] at h
    simp only [optional, length_varOpaque] at h
    omega

theorem decodeAttrs_reads {a : ServerAttrs} {bm : List UInt32} (hbm : a.Describes bm)
    (hlen : a.attrlist.length < 2 ^ 32) : Reads (decodeAttrs bm) a.attrlist a.toFattr4 := by
  obtain ⟨howner, hgroup⟩ := a.owner_fits hlen
  refine (ifSet_reads (hbm 1) fun t _ => (getUint32_reads t.value).map Ftype4.mk).bind <|
    (ifSet_reads (hbm 3) fun v _ => getUint64_reads v).bind <|
    (ifSet_reads (hbm 4) fun v _ => getUint64_reads v).bind <|
    (ifSetFsid_reads (hbm 8)).bind <|
    (ifSet_reads (hbm 20) fun v _ => getUint64_reads v).bind <|
    (ifSet_reads (hbm 33) fun v _ => getUint32_reads v).bind <|
    (ifSet_reads (hbm 35) fun v _ => getUint32_reads v).bind <|
    (ifSet_reads (hbm 36) fun v hv => getOpaque_reads (howner v hv)).bind <|
    (ifSet_reads (hbm 37) fun v hv => getOpaque_reads (hgroup v hv)).bind <|
    (ifSet_reads (hbm 45) fun v _ => getUint64_reads v).bind <|
    (ifSet_reads (hbm 47) fun v _ => decodeNfstime4_reads v).bind <|
    (ifSet_reads (hbm 52) fun v _ => decodeNfstime4_reads v).bind <|
    (ifSet_reads (hbm 53) fun v _ => decodeNfstime4_reads v).bind <|
    (ifSet_reads (hbm 55) fun v _ => getUint64_reads v).bind_nil (Reads.pure _)

/-- A `fattr4` with the attributes of a set is decoded to them, whatever follows it. -/
theorem decodeFattr4_reads {a : ServerAttrs} {bm : List UInt32} (hbm : a.Describes bm)
    (hfits : Wire.fattr4.Fits (bm, a.attrlist)) :
    Reads decodeFattr4 (Wire.fattr4.write (bm, a.attrlist)) a.toFattr4 := by
  have hattrs : Reads (withDecoder a.attrlist (decodeAttrs bm)) [] a.toFattr4 :=
    fun rest => withDecoder_ok.mpr ⟨⟨[], (decodeAttrs_reads hbm hfits.2).run⟩, rfl⟩
  exact (decodeBitmap4_reads hfits.1.1).bind ((getOpaque_reads hfits.2).bind_nil hattrs)

end NfsClient
