import NfsClient.Nfs3.Decoders
import NfsClient.Nfs3.Requests

/-!
# NFSv3 replies are decoded exactly

What a conforming server puts in a reply is a status and the body of its arm. On the status 0 a call
comes to what the body says (`Call.outcome`): the value in it, or, where CREATE and its kin find no
handle in the body, an exception that is not an `NfsError`. On any other status it comes to `NfsError`
with that status and the name of the procedure, whatever the optional attributes in the body are.

The two listings are lists of items that are optional in part; `decodeEntryPlus_reads` is the item,
`decodeList_reads` the list.
-/

namespace NfsClient

open Xdr Reader

namespace Nfs3

/-! ### Listings -/

theorem decodeEntry_reads {e : DirEntry3} (h : Wire.entry3.Fits e) :
    Reads decodeEntry (Wire.entry3.write e) e :=
  (getUint64_reads e.fileid).bind <| (getOpaque_reads h.2.1).bind <|
    (getUint64_reads e.cookie).bind_nil (Reads.pure e)

/-- What the client makes of an entry of READDIRPLUS. -/
def EntryPlus.view : EntryPlus → DirEntryPlus3
  | (fileid, name, cookie, attrs, fh) =>
    ⟨fileid, name, cookie, attrs.isSome, attrs.getD Fattr3.zero, fh.isSome, ⟨fh.getD []⟩⟩

/-- Attributes under a flag. -/
theorem decodeAttrs_bind_reads {α : Type} {f : UInt32 → Fattr3 → XdrDecoder α} {attrs : Option Fattr3}
    {bs : Bytes} {a : α}
    (hf : Reads (f (if attrs.isSome then 1 else 0) (attrs.getD Fattr3.zero)) bs a) :
    Reads (do
        let has_attrs ← getUint32
        let attrs ← if has_attrs ≠ 0 then decodeFattr3 else pure Fattr3.zero
        f has_attrs attrs) (Wire.postOpAttr.write attrs ++ bs) a := by
  cases attrs with
  | none =>
    refine (getUint32_reads 0).bind ?_
    rw [if_neg (not_not.mpr rfl)]
    exact (Reads.pure Fattr3.zero).bind hf
  | some attrs =>
    change Reads _ ((word 1 ++ Wire.fattr3.write attrs) ++ bs) a
    rw [List.append_assoc]
    refine (getUint32_reads 1).bind ?_
    rw [if_pos (by decide)]
    exact (decodeFattr3_reads attrs).bind hf

/-- A handle under a flag. -/
theorem decodeFh_reads {α : Type} {f : UInt32 → Fh3 → XdrDecoder α} {fh : Option Bytes} {a : α}
    (h : Wire.postOpFh3.Fits fh) (hf : Reads (f (if fh.isSome then 1 else 0) ⟨fh.getD []⟩) [] a) :
    Reads (do
        let has_fh ← getUint32
        let fh ← if has_fh ≠ 0 then decodeFh3 else pure ⟨[]⟩
        f has_fh fh) (Wire.postOpFh3.write fh) a := by
  cases fh with
  | none =>
    refine (getUint32_reads 0).bind_nil ?_
    rw [if_neg (not_not.mpr rfl)]
    exact (Reads.pure (Fh3.mk [])).bind hf
  | some fh =>
    refine (getUint32_reads 1).bind ?_
    rw [if_pos (by decide)]
    exact (decodeFh3_reads (h fh rfl)).bind_nil hf

/-- The flags are on exactly for what the entry carries. -/
theorem decodeEntryPlus_reads {e : EntryPlus} (h : Wire.entryplus3.Fits e) :
    Reads decodeEntryPlus (Wire.entryplus3.write e) e.view := by
  obtain ⟨fileid, name, cookie, attrs, fh⟩ := e
  refine (getUint64_reads fileid).bind <| (getOpaque_reads h.2.1).bind <|
    (getUint64_reads cookie).bind <| decodeAttrs_bind_reads <| decodeFh_reads h.2.2.2.2 ?_
  have hflags : EntryPlus.view (fileid, name, cookie, attrs, fh) =
      ⟨fileid, name, cookie, decide ((if attrs.isSome then 1 else 0 : UInt32) ≠ 0),
        attrs.getD Fattr3.zero, decide ((if fh.isSome then 1 else 0 : UInt32) ≠ 0),
        ⟨fh.getD []⟩⟩ := by
    cases attrs <;> cases fh <;> rfl
  rw [hflags]
  exact Reads.pure _

/-- The groups of an export are a list of their own. -/
theorem decodeExportEntry_reads {e : ExportEntry} (h : Wire.exportnode.Fits e) :
    Reads decodeExportEntry (Wire.exportnode.write e) e := by
  obtain ⟨hpath, hgroups⟩ := h
  have hlist : Reads (decodeList getString) ((Format.chain Format.bytes).write e.groups) e.groups :=
    decodeList_reads_same fun g hg => getOpaque_reads (hgroups g hg)
  exact (getOpaque_reads hpath).bind (hlist.bind_nil (Reads.pure e))

theorem decodeExports_reads {exports : List ExportEntry} (h : Wire.exports.Fits exports) :
    Reads decodeExports (Wire.exports.write exports) exports :=
  decodeList_reads_same fun e he => decodeExportEntry_reads (h e he)

/-! ### What a reply says -/

/-- The handle of a new object, if it is there. -/
def objectOutcome (proc : String) : Option Bytes → Except Exn Fh3
  | some fh => .ok ⟨fh⟩
  | none => .error (.runtimeError (proc ++ ": server returned no file handle"))

/-- The name of the procedure in its exceptions. -/
def Proc.name : Proc → String
  | GETATTR => "GETATTR" | SETATTR => "SETATTR" | LOOKUP => "LOOKUP" | ACCESS => "ACCESS"
  | READLINK => "READLINK" | READ => "READ" | WRITE => "WRITE" | CREATE => "CREATE"
  | MKDIR => "MKDIR" | SYMLINK => "SYMLINK" | MKNOD => "MKNOD" | REMOVE => "REMOVE"
  | RMDIR => "RMDIR" | RENAME => "RENAME" | LINK => "LINK" | READDIR => "READDIR"
  | READDIRPLUS => "READDIRPLUS" | FSSTAT => "FSSTAT" | FSINFO => "FSINFO"
  | PATHCONF => "PATHCONF" | COMMIT => "COMMIT"

/-- The bytes of a result on the status 0. -/
def Proc.okBytes (p : Proc) (r : p.Ok) : Bytes := word 0 ++ p.okFormat.write r

/-- The bytes of a result on another status. -/
def Proc.failBytes (p : Proc) (status : UInt32) (b : p.Fail) : Bytes :=
  word status ++ p.failFormat.write b

namespace Call

/-- What the call comes to when the server answers with `r`. -/
def outcome : (c : Call) → c.proc.Ok → Except Exn c.Result
  | getattr _ => fun attrs => .ok attrs
  | setattr .. | remove .. | rmdir .. | rename .. | link .. => fun _ => .ok ()
  | lookup _ _ => fun r => .ok ⟨r.1⟩
  | access _ _ => fun r => .ok r.2
  | readlink _ => fun r => .ok r.2
  | read _ _ _ => fun r => .ok r.2.2.2
  | write _ _ _ _ => fun r => .ok ⟨r.2.1, ⟨r.2.2.1⟩, r.2.2.2⟩
  | create .. | createExclusive .. => fun r => objectOutcome "CREATE" r.1
  | mkdir .. => fun r => objectOutcome "MKDIR" r.1
  | symlink .. => fun r => objectOutcome "SYMLINK" r.1
  | mknodFifo .. | mknodSocket .. | mknodChr .. | mknodBlk .. => fun r => objectOutcome "MKNOD" r.1
  | readdirPage .. => fun r => .ok ⟨r.2.2.1, r.2.2.2, r.2.1⟩
  | readdirplusPage .. => fun r => .ok ⟨r.2.2.1.map EntryPlus.view, r.2.2.2, r.2.1⟩
  | fsstat _ => fun (_, tbytes, fbytes, abytes, tfiles, ffiles, afiles, invarsec) =>
    .ok ⟨tbytes, fbytes, abytes, tfiles, ffiles, afiles, invarsec⟩
  | fsinfo _ => fun (_, rtmax, rtpref, rtmult, wtmax, wtpref, wtmult, dtpref, maxfilesize,
      time_delta, properties) =>
    .ok ⟨rtmax, rtpref, rtmult, wtmax, wtpref, wtmult, dtpref, maxfilesize, time_delta, properties⟩
  | pathconf _ => fun (_, linkmax, name_max, no_trunc, chown_restricted, case_insensitive,
      case_preserving) =>
    .ok ⟨linkmax, name_max, no_trunc, chown_restricted, case_insensitive, case_preserving⟩
  | commit _ _ _ => fun r => .ok r.2

end Call

/-! ### Success -/

/-- A reply with a new object, of CREATE, MKDIR, SYMLINK or MKNOD. -/
theorem decodeObjectReply_ok (proc : String) {fh : Option Bytes} (hfh : Wire.postOpFh3.Fits fh)
    (attrs : Option Fattr3) (wcc : WccData) (rest : Bytes) :
    decodeObjectReply proc (word 0 ++ (Wire.postOpFh3.write fh ++
        (Wire.postOpAttr.write attrs ++ Wire.wccData.write wcc)) ++ rest)
      = (objectOutcome proc fh).map (·, rest) := by
  cases fh with
  | none =>
    unfold decodeObjectReply
    rw [List.append_assoc, bind_of_ok (getUint32_reads 0 _), throwIf_bind_pass (not_not.mpr rfl),
      List.append_assoc]
    -- the flag of the handle is off, and the decoder throws before it looks any further
    exact (bind_of_ok (getUint32_reads 0 _)).trans (throwIf_bind_error rfl)
  | some fh =>
    have hread : Reads (decodeObjectReply proc) (word 0 ++ ((word 1 ++ varOpaque fh) ++
        (Wire.postOpAttr.write attrs ++ Wire.wccData.write wcc))) ⟨fh⟩ := by
      rw [List.append_assoc]
      exact reads_at_once <| (getUint32_reads 1).bind <| throwIf_bind_reads (by decide) <|
        (decodeFh3_reads (hfh fh rfl)).bind <| (skipPostOpAttr_reads attrs).bind <|
        (skipWccData_reads wcc).bind_nil (Reads.pure _)
    exact hread rest

theorem decodeGetattrReply_reads (r : Proc.GETATTR.Ok) :
    Reads decodeGetattrReply (Proc.GETATTR.okBytes r) r := reads_at_once (decodeFattr3_reads r)

theorem decodeSetattrReply_reads (r : Proc.SETATTR.Ok) :
    Reads decodeSetattrReply (Proc.SETATTR.okBytes r) () := reads_last (skipWccData_reads r)

theorem decodeLookupReply_reads {r : Proc.LOOKUP.Ok} (h : Proc.LOOKUP.okFormat.Fits r) :
    Reads decodeLookupReply (Proc.LOOKUP.okBytes r) ⟨r.1⟩ :=
  reads_at_once <| (decodeFh3_reads h.1).bind <| (skipPostOpAttr_reads r.2.1).bind <|
    (skipPostOpAttr_reads r.2.2).bind_nil (Reads.pure _)

theorem decodeAccessReply_reads (r : Proc.ACCESS.Ok) :
    Reads decodeAccessReply (Proc.ACCESS.okBytes r) r.2 :=
  reads_behind (skipPostOpAttr_reads r.1) (getUint32_reads r.2)

theorem decodeReadlinkReply_reads {r : Proc.READLINK.Ok} (h : Proc.READLINK.okFormat.Fits r) :
    Reads decodeReadlinkReply (Proc.READLINK.okBytes r) r.2 :=
  reads_behind (skipPostOpAttr_reads r.1) (getOpaque_reads h.2)

/-- The count and `eof` of READ are dropped; the data have a count of their own. -/
theorem decodeReadReply_reads {r : Proc.READ.Ok} (h : Proc.READ.okFormat.Fits r) :
    Reads decodeReadReply (Proc.READ.okBytes r) r.2.2.2 :=
  reads_behind (skipPostOpAttr_reads r.1) <| (getUint32_reads r.2.1).bind <|
    (getUint32_reads _).bind <| getOpaque_reads h.2.2.2

theorem decodeWriteReply_reads (r : Proc.WRITE.Ok) :
    Reads decodeWriteReply (Proc.WRITE.okBytes r) ⟨r.2.1, ⟨r.2.2.1⟩, r.2.2.2⟩ :=
  reads_behind (skipWccData_reads r.1) <| (getUint32_reads r.2.1).bind <|
    (getUint32_reads r.2.2.1).bind <| (getArray_reads r.2.2.2).bind_nil (Reads.pure _)

theorem decodeCommitReply_reads (r : Proc.COMMIT.Ok) :
    Reads decodeCommitReply (Proc.COMMIT.okBytes r) r.2 :=
  reads_behind (skipWccData_reads r.1) (getArray_reads r.2)

theorem decodeRemoveReply_reads (r : Proc.REMOVE.Ok) :
    Reads decodeRemoveReply (Proc.REMOVE.okBytes r) () := reads_at_once (skipWccData_reads r)

theorem decodeRmdirReply_reads (r : Proc.RMDIR.Ok) :
    Reads decodeRmdirReply (Proc.RMDIR.okBytes r) () := reads_at_once (skipWccData_reads r)

theorem decodeRenameReply_reads (r : Proc.RENAME.Ok) :
    Reads decodeRenameReply (Proc.RENAME.okBytes r) () :=
  (getUint32_reads 0).bind <| (skipWccData_reads r.1).bind <|
    (skipWccData_reads r.2).bind_nil (throwIf_reads (not_not.mpr rfl))

theorem decodeLinkReply_reads (r : Proc.LINK.Ok) :
    Reads decodeLinkReply (Proc.LINK.okBytes r) () :=
  (getUint32_reads 0).bind <| (skipPostOpAttr_reads r.1).bind <|
    (skipWccData_reads r.2).bind_nil (throwIf_reads (not_not.mpr rfl))

theorem decodeReaddirReply_reads {r : Proc.READDIR.Ok} (h : Proc.READDIR.okFormat.Fits r) :
    Reads decodeReaddirReply (Proc.READDIR.okBytes r) ⟨r.2.2.1, r.2.2.2, r.2.1⟩ := by
  have hlist : Reads (decodeList decodeEntry) ((Format.chain Wire.entry3).write r.2.2.1) r.2.2.1 :=
    decodeList_reads_same fun e he => decodeEntry_reads (h.2.2.1 e he)
  exact reads_behind (skipPostOpAttr_reads r.1) <| (getArray_reads r.2.1).bind <| hlist.bind <|
    eof_reads (f := fun eof => ReaddirPage.mk r.2.2.1 eof r.2.1) r.2.2.2

theorem decodeReaddirplusReply_reads {r : Proc.READDIRPLUS.Ok}
    (h : Proc.READDIRPLUS.okFormat.Fits r) :
    Reads decodeReaddirplusReply (Proc.READDIRPLUS.okBytes r)
      ⟨r.2.2.1.map EntryPlus.view, r.2.2.2, r.2.1⟩ := by
  have hlist : Reads (decodeList decodeEntryPlus) ((Format.chain Wire.entryplus3).write r.2.2.1)
      (r.2.2.1.map EntryPlus.view) :=
    decodeList_reads <| List.forall₂_map_right_iff.mpr <| List.forall₂_same.mpr fun e he =>
      decodeEntryPlus_reads (h.2.2.1 e he)
  exact reads_behind (skipPostOpAttr_reads r.1) <| (getArray_reads r.2.1).bind <| hlist.bind <|
    eof_reads (f := fun eof => ReaddirplusPage.mk (r.2.2.1.map EntryPlus.view) eof r.2.1) r.2.2.2

theorem decodeFsstatReply_reads (attrs : Option Fattr3) (v : FsstatResult) :
    Reads decodeFsstatReply (Proc.FSSTAT.okBytes
      (attrs, v.tbytes, v.fbytes, v.abytes, v.tfiles, v.ffiles, v.afiles, v.invarsec)) v :=
  reads_behind (skipPostOpAttr_reads attrs) <| (getUint64_reads v.tbytes).bind <|
    (getUint64_reads v.fbytes).bind <| (getUint64_reads v.abytes).bind <|
    (getUint64_reads v.tfiles).bind <| (getUint64_reads v.ffiles).bind <|
    (getUint64_reads v.afiles).bind <| (getUint32_reads v.invarsec).bind_nil (Reads.pure _)

theorem decodeFsinfoReply_reads (attrs : Option Fattr3) (v : FsinfoResult) :
    Reads decodeFsinfoReply (Proc.FSINFO.okBytes
      (attrs, v.rtmax, v.rtpref, v.rtmult, v.wtmax, v.wtpref, v.wtmult, v.dtpref, v.maxfilesize,
        v.time_delta, v.properties)) v :=
  reads_behind (skipPostOpAttr_reads attrs) <| (getUint32_reads v.rtmax).bind <|
    (getUint32_reads v.rtpref).bind <| (getUint32_reads v.rtmult).bind <|
    (getUint32_reads v.wtmax).bind <| (getUint32_reads v.wtpref).bind <|
    (getUint32_reads v.wtmult).bind <| (getUint32_reads v.dtpref).bind <|
    (getUint64_reads v.maxfilesize).bind <| twoWords_bind_reads <|
    (getUint32_reads v.properties).bind_nil (Reads.pure _)

/-- A boolean as the word it is read as. -/
theorem decide_word_ne (b : Bool) : decide ((if b then 1 else 0 : UInt32) ≠ 0) = b := by
  cases b <;> rfl

theorem decodePathconfReply_reads (attrs : Option Fattr3) (v : PathconfResult) :
    Reads decodePathconfReply (Proc.PATHCONF.okBytes
      (attrs, v.linkmax, v.name_max, v.no_trunc, v.chown_restricted, v.case_insensitive,
        v.case_preserving)) v := by
  have hv : v = ⟨v.linkmax, v.name_max, decide ((if v.no_trunc then 1 else 0 : UInt32) ≠ 0),
      decide ((if v.chown_restricted then 1 else 0 : UInt32) ≠ 0),
      decide ((if v.case_insensitive then 1 else 0 : UInt32) ≠ 0),
      decide ((if v.case_preserving then 1 else 0 : UInt32) ≠ 0)⟩ := by
    simp only [decide_word_ne]
  refine reads_behind (skipPostOpAttr_reads attrs) <| (getUint32_reads v.linkmax).bind <|
    (getUint32_reads v.name_max).bind <| (getUint32_reads _).bind <| (getUint32_reads _).bind <|
    (getUint32_reads _).bind <| (getUint32_reads _).bind_nil ?_
  rw [← hv]
  exact Reads.pure v

/-- On a result of the protocol, the decoder comes to what the result says and stands behind it. -/
theorem Call.decodeReply_ok (c : Call) {r : c.proc.Ok} (h : c.proc.okFormat.Fits r) (rest : Bytes) :
    c.decodeReply (c.proc.okBytes r ++ rest) = (c.outcome r).map (·, rest) := by
  cases c with
  | getattr fh => exact decodeGetattrReply_reads r rest
  | setattr fh attrs guard => exact decodeSetattrReply_reads r rest
  | lookup dir name => exact decodeLookupReply_reads h rest
  | access fh access_mask => exact decodeAccessReply_reads r rest
  | readlink symlink_fh => exact decodeReadlinkReply_reads h rest
  | read fh offset count => exact decodeReadReply_reads h rest
  | write fh offset stable data => exact decodeWriteReply_reads r rest
  | create dir name mode hmode attrs => exact decodeObjectReply_ok _ h.1 r.2.1 r.2.2 rest
  | createExclusive dir name verf => exact decodeObjectReply_ok _ h.1 r.2.1 r.2.2 rest
  | mkdir dir name attrs => exact decodeObjectReply_ok _ h.1 r.2.1 r.2.2 rest
  | symlink dir name target attrs => exact decodeObjectReply_ok _ h.1 r.2.1 r.2.2 rest
  | mknodFifo dir name attrs => exact decodeObjectReply_ok _ h.1 r.2.1 r.2.2 rest
  | mknodSocket dir name attrs => exact decodeObjectReply_ok _ h.1 r.2.1 r.2.2 rest
  | mknodChr dir name attrs spec => exact decodeObjectReply_ok _ h.1 r.2.1 r.2.2 rest
  | mknodBlk dir name attrs spec => exact decodeObjectReply_ok _ h.1 r.2.1 r.2.2 rest
  | remove dir name => exact decodeRemoveReply_reads r rest
  | rmdir dir name => exact decodeRmdirReply_reads r rest
  | rename from_dir from_name to_dir to_name =>
    exact decodeRenameReply_reads r rest
  | link file link_dir link_name => exact decodeLinkReply_reads r rest
  | readdirPage dir cookie cookieverf count =>
    exact decodeReaddirReply_reads h rest
  | readdirplusPage dir cookie cookieverf dircount maxcount =>
    exact decodeReaddirplusReply_reads h rest
  | fsstat root => exact decodeFsstatReply_reads r.1 ⟨_, _, _, _, _, _, _⟩ rest
  | fsinfo root =>
    exact decodeFsinfoReply_reads r.1 ⟨_, _, _, _, _, _, _, _, _, _⟩ rest
  | pathconf fh =>
    exact decodePathconfReply_reads r.1 ⟨_, _, _, _, _, _⟩ rest
  | commit fh offset count => exact decodeCommitReply_reads r rest

/-! ### Failure -/

/-- On a result of the protocol with another status, the decoder throws that status. -/
theorem Call.decodeReply_fail (c : Call) {status : UInt32} (hs : status ≠ 0) (b : c.proc.Fail)
    (rest : Bytes) :
    c.decodeReply (c.proc.failBytes status b ++ rest) = .error (.nfsError status c.proc.name) := by
  unfold Proc.failBytes
  rw [List.append_assoc]
  cases c with
  -- the status is judged at once
  | getattr fh => exact throws_at_once hs
  | lookup dir name => exact throws_at_once hs
  | create dir name mode hmode attrs => exact throws_at_once hs
  | createExclusive dir name verf => exact throws_at_once hs
  | mkdir dir name attrs => exact throws_at_once hs
  | symlink dir name target attrs => exact throws_at_once hs
  | mknodFifo dir name attrs => exact throws_at_once hs
  | mknodSocket dir name attrs => exact throws_at_once hs
  | mknodChr dir name attrs spec => exact throws_at_once hs
  | mknodBlk dir name attrs spec => exact throws_at_once hs
  | remove dir name => exact throws_at_once hs
  | rmdir dir name => exact throws_at_once hs
  -- behind a `post_op_attr`
  | access fh access_mask => exact throws_behind hs (skipPostOpAttr_reads b)
  | readlink symlink_fh => exact throws_behind hs (skipPostOpAttr_reads b)
  | read fh offset count => exact throws_behind hs (skipPostOpAttr_reads b)
  | readdirPage dir cookie cookieverf count => exact throws_behind hs (skipPostOpAttr_reads b)
  | readdirplusPage dir cookie cookieverf dircount maxcount =>
    exact throws_behind hs (skipPostOpAttr_reads b)
  | fsstat root => exact throws_behind hs (skipPostOpAttr_reads b)
  | fsinfo root => exact throws_behind hs (skipPostOpAttr_reads b)
  | pathconf fh => exact throws_behind hs (skipPostOpAttr_reads b)
  -- behind a `wcc_data`
  | setattr fh attrs guard => exact throws_last hs (skipWccData_reads b)
  | write fh offset stable data => exact throws_behind hs (skipWccData_reads b)
  | commit fh offset count => exact throws_behind hs (skipWccData_reads b)
  -- behind two blocks
  | rename from_dir from_name to_dir to_name =>
    have hblocks : Proc.RENAME.failFormat.write b ++ rest
        = Wire.wccData.write b.1 ++ (Wire.wccData.write b.2 ++ rest) := List.append_assoc _ _ _
    refine (congrArg (fun bs => decodeRenameReply (word status ++ bs)) hblocks).trans ?_
    exact (bind_of_ok (getUint32_reads status _)).trans <|
      (bind_of_ok (skipWccData_reads b.1 _)).trans <|
      (bind_of_ok (skipWccData_reads b.2 rest)).trans (throwIf_error hs)
  | link file link_dir link_name =>
    have hblocks : Proc.LINK.failFormat.write b ++ rest
        = Wire.postOpAttr.write b.1 ++ (Wire.wccData.write b.2 ++ rest) := List.append_assoc _ _ _
    refine (congrArg (fun bs => decodeLinkReply (word status ++ bs)) hblocks).trans ?_
    exact (bind_of_ok (getUint32_reads status _)).trans <|
      (bind_of_ok (skipPostOpAttr_reads b.1 _)).trans <|
      (bind_of_ok (skipWccData_reads b.2 rest)).trans (throwIf_error hs)

/-- **NFSv3 replies are decoded exactly.** On a result of its procedure with the status 0 a decoder
comes to what the result says and stands behind it; on a result with any other status it throws
`NfsError` with that status. -/
theorem results_decode_exactly (c : Call) (rest : Bytes) :
    (∀ r : c.proc.Ok, c.proc.okFormat.Fits r →
      c.decodeReply (c.proc.okBytes r ++ rest) = (c.outcome r).map (·, rest)) ∧
    ∀ (status : UInt32) (b : c.proc.Fail), status ≠ 0 →
      c.decodeReply (c.proc.failBytes status b ++ rest) = .error (.nfsError status c.proc.name) :=
  ⟨fun _ h => c.decodeReply_ok h rest, fun _ b hs => c.decodeReply_fail hs b rest⟩

/-- CREATE whose result has a handle, attributes and the directory's attributes from before, and
RENAME whose failure has both directories' attributes. -/
theorem create_rename_decode_exactly :
    decodeCreateReply (Proc.CREATE.okBytes
        (some [1, 2, 3], some Fattr3.zero, some (9, ⟨1, 2⟩, ⟨3, 4⟩), none) ++ [7])
      = .ok (⟨[1, 2, 3]⟩, [7]) ∧
    decodeRenameReply (Proc.RENAME.failBytes 66 ((none, some Fattr3.zero),
        some (9, ⟨1, 2⟩, ⟨3, 4⟩), none) ++ [7])
      = .error (.nfsError 66 "RENAME") := by
  have hfh : Wire.postOpFh3.Fits (some [1, 2, 3]) := by
    rintro fh ⟨⟩
    exact (by decide : ([1, 2, 3] : Bytes).length < 2 ^ 32)
  refine ⟨(results_decode_exactly (.createExclusive ⟨[]⟩ [97] (Octets.zero 8)) [7]).1 _ ?_,
    (results_decode_exactly (.rename ⟨[]⟩ [97] ⟨[]⟩ [98]) [7]).2 66 _ (by decide)⟩
  exact ⟨hfh, fits_postOpAttr _, fits_wccData _⟩

end Nfs3

end NfsClient
