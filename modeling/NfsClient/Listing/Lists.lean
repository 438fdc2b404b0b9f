import NfsClient.Nfs3.Replies
import NfsClient.Nfs4.Readdir

/-!
# Lists are decoded exactly

The four linked lists that the client reads: the directory pages of READDIR and READDIRPLUS of
NFSv3 and of READDIR of NFSv4, and the export list of MOUNT. The loops are four in the source and
one here (`decodeList_reads`); an entry may be of any length and partly optional, and what makes the
list come out right is that no entry decoder takes a byte too many or too few.
-/

namespace NfsClient

open Xdr Reader Nfs3

/-- **Lists are decoded exactly**: to the entries in order, the verifier and `eof`, with the flags of
a READDIRPLUS entry on for what it carries, and to the last byte. -/
theorem lists_decode_exactly (attrs : Option Fattr3) (verf : Octets 8) (eof : Bool) :
    (∀ entries : List DirEntry3, Proc.READDIR.okFormat.Fits (attrs, verf, entries, eof) →
      Reads decodeReaddirReply (Proc.READDIR.okBytes (attrs, verf, entries, eof))
        ⟨entries, eof, verf⟩) ∧
    (∀ entries : List EntryPlus, Proc.READDIRPLUS.okFormat.Fits (attrs, verf, entries, eof) →
      Reads decodeReaddirplusReply (Proc.READDIRPLUS.okBytes (attrs, verf, entries, eof))
        ⟨entries.map EntryPlus.view, eof, verf⟩) ∧
    (∀ entries : List ServerEntry, Op.READDIR.resFormat.Fits (readdirRes verf entries eof) →
      Reads decodeReaddirResult (ResOp.format.write ⟨.READDIR, readdirRes verf entries eof⟩)
        ⟨verf, entries.map ServerEntry.view, eof⟩) ∧
    ∀ exports : List ExportEntry, Wire.exports.Fits exports →
      Reads decodeExports (Wire.exports.write exports) exports :=
  ⟨fun _ h => decodeReaddirReply_reads h, fun _ h => decodeReaddirplusReply_reads h,
    fun _ h => decodeReaddirResult_reads h, fun _ h => decodeExports_reads h⟩

/-- Two entries of READDIRPLUS, one with attributes and one with a handle, and two exports, one of
them with groups. -/
theorem plus_and_exports_decode_exactly :
    Reads decodeReaddirplusReply
      (Proc.READDIRPLUS.okBytes (none, Octets.zero 8,
        [(5, [97], 1, some Fattr3.zero, none), (6, [98, 99], 2, none, some [7])], true))
      ⟨[⟨5, [97], 1, true, Fattr3.zero, false, ⟨[]⟩⟩, ⟨6, [98, 99], 2, false, Fattr3.zero, true, ⟨[7]⟩⟩],
        true, Octets.zero 8⟩ ∧
    Reads decodeExports (Wire.exports.write [⟨[47], [[97], [98]]⟩, ⟨[47, 97], []⟩])
      [⟨[47], [[97], [98]]⟩, ⟨[47, 97], []⟩] := by
  have hone : ∀ b : UInt8, [b].length < 2 ^ 32 := fun b => by norm_num
  have htwo : ∀ b c : UInt8, [b, c].length < 2 ^ 32 := fun b c => by norm_num
  have hnofh : Wire.postOpFh3.Fits none := fun fh h => nomatch h
  have hfh : Wire.postOpFh3.Fits (some [7]) := by
    rintro fh ⟨⟩
    exact hone 7
  obtain ⟨-, hplus, -, hexports⟩ := lists_decode_exactly none (Octets.zero 8) true
  refine ⟨hplus _ ⟨fits_postOpAttr _, trivial, ?_, trivial⟩, hexports _ ?_⟩
  · exact List.forall_mem_cons.mpr ⟨⟨trivial, hone 97, trivial, fits_postOpAttr _, hnofh⟩,
      List.forall_mem_singleton.mpr ⟨trivial, htwo 98 99, trivial, fits_postOpAttr _, hfh⟩⟩
  · refine List.forall_mem_cons.mpr ⟨⟨hone 47, List.forall_mem_cons.mpr
      ⟨hone 97, List.forall_mem_singleton.mpr (hone 98)⟩⟩, List.forall_mem_singleton.mpr ?_⟩
    exact ⟨htwo 47 97, fun g hg => absurd hg List.not_mem_nil⟩

end NfsClient
