import NfsClient.Xdr.Chain
import NfsClient.Nfs4.Replies

/-!
# Pages of READDIR

A page is a linked list of entries, each with a `fattr4` of its own. The loop of
`decode_readdir_result` is the list loop of `Xdr/Chain` (`decodeEntries_eq`), so a page of any length
is read to its last byte; an entry may come with any attributes that the client knows, in a bitmap of
any length.
-/

namespace NfsClient

open Xdr Reader

/-- An entry as a server encodes it. -/
structure ServerEntry where
  cookie : UInt64
  name : Bytes
  attrs : ServerAttrs
  bm : List UInt32
  described : attrs.Describes bm

namespace ServerEntry

/-- The entry in a result. -/
def wire (e : ServerEntry) : UInt64 × Bytes × WireFattr := (e.cookie, e.name, e.bm, e.attrs.attrlist)

/-- What the client makes of the entry. -/
def view (e : ServerEntry) : Nfs4DirEntry := ⟨e.cookie, e.name, e.attrs.toFattr4⟩

end ServerEntry

/-! ### The list of entries -/

/-- One iteration of the loop. -/
def decodeDirEntry4 : XdrDecoder Nfs4DirEntry := do
  let cookie ← getUint64
  let name ← getString
  let attrs ← decodeFattr4
  return ⟨cookie, name, attrs⟩

theorem decodeEntries_eq : ∀ fuel : ℕ, decodeEntries fuel = decodeChain decodeDirEntry4 fuel
  | 0 => rfl
  | fuel + 1 => by
    rw [decodeEntries, decodeChain, decodeEntries_eq fuel]
    refine congrArg (getUint32 >>= ·) (funext fun value_follows => ?_)
    split
    · -- the entry is built behind the recursive call in the source, before it here
      simp only [decodeDirEntry4, bind_assoc, pure_bind]
    · rfl

theorem decodeReaddirResult_eq : decodeReaddirResult = (do
    opStatus "READDIR"
    let cookieverf ← getArray 8
    let entries ← decodeList decodeDirEntry4
    let eof ← getUint32
    return ⟨cookieverf, entries, eof ≠ 0⟩) := by
  unfold decodeReaddirResult decodeList
  simp only [decodeEntries_eq, bind_assoc]

/-- A directory entry and its place in a list. -/
def Wire.dirEntry4 : Format (UInt64 × Bytes × WireFattr) :=
  Format.pair Format.hyper (Format.pair Format.bytes Wire.fattr4)

theorem decodeDirEntry4_reads {e : ServerEntry} (h : Wire.dirEntry4.Fits e.wire) :
    Reads decodeDirEntry4 (Wire.dirEntry4.write e.wire) e.view :=
  (getUint64_reads e.cookie).bind <| (getOpaque_reads h.2.1).bind <|
    (decodeFattr4_reads e.described h.2.2).bind_nil (Reads.pure _)

/-- The result of READDIR with given entries. -/
def readdirRes (verf : Octets 8) (entries : List ServerEntry) (eof : Bool) : Op.READDIR.Res :=
  (verf, entries.map ServerEntry.wire, eof)

theorem decodeReaddirResult_reads {verf : Octets 8} {entries : List ServerEntry} {eof : Bool}
    (h : Op.READDIR.resFormat.Fits (readdirRes verf entries eof)) :
    Reads decodeReaddirResult (ResOp.format.write ⟨.READDIR, readdirRes verf entries eof⟩)
      ⟨verf, entries.map ServerEntry.view, eof⟩ := by
  have hentry : ∀ e ∈ entries, Reads decodeDirEntry4 (Wire.dirEntry4.write e.wire) e.view :=
    fun e he => decodeDirEntry4_reads (h.2.1 e.wire (List.mem_map_of_mem he))
  have hlist : Reads (decodeList decodeDirEntry4)
      ((Format.chain Wire.dirEntry4).write (entries.map ServerEntry.wire))
      (entries.map ServerEntry.view) :=
    decodeList_reads <| List.forall₂_map_left_iff.mpr <| List.forall₂_map_right_iff.mpr <|
      List.forall₂_same.mpr hentry
  rw [decodeReaddirResult_eq]
  exact opStatus_bind_reads _ <| (getArray_reads verf).bind <| hlist.bind <|
    eof_reads (f := fun eof => ReaddirPage4.mk verf (entries.map ServerEntry.view) eof) eof

/-! ### The COMPOUND of a page -/

/-- The results say that the page is `v`. -/
def PageEncodes (rs : List ResOp) (v : ReaddirPage4) : Prop :=
  ∃ verf entries eof, rs.getLast? = some ⟨.READDIR, readdirRes verf entries eof⟩ ∧
    v = ⟨verf, entries.map ServerEntry.view, eof⟩

/-- The decoding calls of `readdir` on its own results. -/
theorem decodePage_reads {fh : Nfs4Fh} {rs : List ResOp} {v : ReaddirPage4}
    (hfits : ∀ r ∈ rs, r.1.resFormat.Fits r.2)
    (hops : rs.map Sigma.fst = [(fhOp fh).1, .READDIR]) (hv : PageEncodes rs v) :
    Reads (do decodePutfhResult; decodeReaddirResult) (writeResults rs) v := by
  obtain ⟨verf, entries, eof, hlast, rfl⟩ := hv
  refine reads_two hfits hops fun r hr hr' => ?_
  cases hlast.symm.trans hr'
  exact decodeReaddirResult_reads hr

/-- The operations of a page. -/
def readdirOps (dir : Nfs4Fh) (cookie : UInt64) (cookieverf : Octets 8) : List ArgOp :=
  [fhOp dir, ⟨.READDIR, (cookie, cookieverf, 4096, 32768, makeBitmap4 readdirIds)⟩]

theorem Nfs4Client.readdirPage_exact (dir : Nfs4Fh) (cookie : UInt64) (cookieverf : Octets 8) :
    (Nfs4Client.readdirPage dir cookie cookieverf).DecodesExactly
      (readdirOps dir cookie cookieverf) PageEncodes :=
  CompoundCall.decodesExactly rfl fun _ _ => decodePage_reads

/-- The result of SEQUENCE is not the last one. -/
theorem PageEncodes.of_cons {r : ResOp} {rs : List ResOp} {v : ReaddirPage4} (hne : rs ≠ [])
    (h : PageEncodes (r :: rs) v) : PageEncodes rs v := by
  obtain ⟨verf, entries, eof, hlast, hv⟩ := h
  refine ⟨verf, entries, eof, ?_, hv⟩
  rwa [List.getLast?_cons_of_ne_nil hne] at hlast

theorem Nfs41Client.readdirPage_exact (dir : Nfs4Fh) (cookie : UInt64) (cookieverf : Octets 8)
    (sessionid : SessionId41) (slot_seqid : UInt32) :
    (Nfs41Client.readdirPage dir cookie cookieverf).DecodesExactly
      (Nfs41Client.sequenceOp sessionid slot_seqid :: readdirOps dir cookie cookieverf)
      PageEncodes := by
  refine CompoundCall.decodesExactly_sequence sessionid slot_seqid rfl
    fun r rs v hfits hops hv => decodePage_reads hfits hops (hv.of_cons ?_)
  rintro rfl
  cases hops

end NfsClient
