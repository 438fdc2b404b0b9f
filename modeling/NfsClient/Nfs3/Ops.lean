import NfsClient.Xdr.Chain
import NfsClient.Nfs3.Types

/-!
# NFSv3 procedures: arguments and replies

The `encode_*_args` and `decode_*_reply` helpers of `src/nfs`, one pair for each procedure. A reply
starts with the status. Some procedures have the same optional attributes on both arms of the
result; their decoders step over them first and look at the status then, so that they throw
`NfsError` from behind the attributes. The others throw at once and leave the body of a failure
unread.

CREATE, MKDIR, SYMLINK and MKNOD return the new handle in the same shape, `decodeObjectReply`.
-/

namespace NfsClient

open Xdr Reader

namespace Nfs3

/-! ### GETATTR, SETATTR, LOOKUP, ACCESS, READLINK -/

def encodeGetattrArgs (fh : Fh3) : Bytes := encodeFh3 fh

def decodeGetattrReply : XdrDecoder Fattr3 := do
  let status ← getUint32
  throwIf (status ≠ 0) (.nfsError status "GETATTR")
  decodeFattr3

def encodeSetattrArgs (fh : Fh3) (attrs : Sattr3) (guard : SattrGuard3) : Bytes :=
  encodeFh3 fh ++ encodeSattr3 attrs ++
    putIf guard.check (putUint32 guard.ctime_sec ++ putUint32 guard.ctime_nsec)

def decodeSetattrReply : XdrDecoder Unit := do
  let status ← getUint32
  skipWccData
  throwIf (status ≠ 0) (.nfsError status "SETATTR")

def encodeLookupArgs (dir : Fh3) (name : Bytes) : Bytes := encodeFh3 dir ++ putString name

def decodeLookupReply : XdrDecoder Fh3 := do
  let status ← getUint32
  throwIf (status ≠ 0) (.nfsError status "LOOKUP")
  let fh ← decodeFh3
  -- obj_attributes, dir_attributes
  skipPostOpAttr
  skipPostOpAttr
  return fh

def encodeAccessArgs (fh : Fh3) (access_mask : UInt32) : Bytes :=
  encodeFh3 fh ++ putUint32 access_mask

def decodeAccessReply : XdrDecoder UInt32 := do
  let status ← getUint32
  skipPostOpAttr
  throwIf (status ≠ 0) (.nfsError status "ACCESS")
  getUint32

def encodeReadlinkArgs (symlink_fh : Fh3) : Bytes := encodeFh3 symlink_fh

def decodeReadlinkReply : XdrDecoder Bytes := do
  let status ← getUint32
  skipPostOpAttr
  throwIf (status ≠ 0) (.nfsError status "READLINK")
  getString

/-! ### READ, WRITE, COMMIT -/

def encodeReadArgs (fh : Fh3) (offset : UInt64) (count : UInt32) : Bytes :=
  encodeFh3 fh ++ putUint64 offset ++ putUint32 count

def decodeReadReply : XdrDecoder Bytes := do
  let status ← getUint32
  skipPostOpAttr
  throwIf (status ≠ 0) (.nfsError status "READ")
  let _count ← getUint32
  let _eof ← getUint32
  getOpaque

/-- `data` stands for the pointer and the size of the source. -/
def encodeWriteArgs (fh : Fh3) (offset : UInt64) (stable : Stable3) (data : Bytes) : Bytes :=
  encodeFh3 fh ++ putUint64 offset ++ putUint32 (sizeToUint32 data.length) ++
    putUint32 stable.value ++ putOpaque data

def decodeWriteReply : XdrDecoder WriteResult := do
  let status ← getUint32
  skipWccData
  throwIf (status ≠ 0) (.nfsError status "WRITE")
  let count ← getUint32
  let committed ← getUint32
  let verf ← getArray 8
  return ⟨count, ⟨committed⟩, verf⟩

def encodeCommitArgs (fh : Fh3) (offset : UInt64) (count : UInt32) : Bytes :=
  encodeFh3 fh ++ putUint64 offset ++ putUint32 count

def decodeCommitReply : XdrDecoder (Octets 8) := do
  let status ← getUint32
  skipWccData
  throwIf (status ≠ 0) (.nfsError status "COMMIT")
  getArray 8

/-! ### CREATE, MKDIR, SYMLINK, MKNOD -/

/-- The reply that carries a new object, as the procedure `proc` reads it. -/
def decodeObjectReply (proc : String) : XdrDecoder Fh3 := do
  let status ← getUint32
  throwIf (status ≠ 0) (.nfsError status proc)
  let fh_present ← getUint32
  throwIf (fh_present = 0) (.runtimeError (proc ++ ": server returned no file handle"))
  let fh ← decodeFh3
  -- obj_attributes, dir_wcc
  skipPostOpAttr
  skipWccData
  return fh

def encodeCreateArgs (dir : Fh3) (name : Bytes) (mode : CreateMode3) (attrs : Sattr3) : Bytes :=
  encodeFh3 dir ++ putString name ++ putUint32 mode.code ++ encodeSattr3 attrs

def encodeCreateArgsExclusive (dir : Fh3) (name : Bytes) (verf : Octets 8) : Bytes :=
  encodeFh3 dir ++ putString name ++ putUint32 CreateMode3.EXCLUSIVE.code ++ putFixedOpaque verf.1

def decodeCreateReply : XdrDecoder Fh3 := decodeObjectReply "CREATE"

def encodeMkdirArgs (dir : Fh3) (name : Bytes) (attrs : Sattr3) : Bytes :=
  encodeFh3 dir ++ putString name ++ encodeSattr3 attrs

def decodeMkdirReply : XdrDecoder Fh3 := decodeObjectReply "MKDIR"

def encodeSymlinkArgs (dir : Fh3) (name target : Bytes) (attrs : Sattr3) : Bytes :=
  encodeFh3 dir ++ putString name ++ encodeSattr3 attrs ++ putString target

def decodeSymlinkReply : XdrDecoder Fh3 := decodeObjectReply "SYMLINK"

def encodeMknodArgs (dir : Fh3) (name : Bytes) (type : Ftype3) (attrs : Sattr3) : Bytes :=
  encodeFh3 dir ++ putString name ++ putUint32 type.value ++ encodeSattr3 attrs

def encodeMknodDeviceArgs (dir : Fh3) (name : Bytes) (type : Ftype3) (attrs : Sattr3)
    (spec : DeviceSpec3) : Bytes :=
  encodeFh3 dir ++ putString name ++ putUint32 type.value ++ encodeSattr3 attrs ++
    putUint32 spec.major_num ++ putUint32 spec.minor_num

def decodeMknodReply : XdrDecoder Fh3 := decodeObjectReply "MKNOD"

/-! ### REMOVE, RMDIR, RENAME, LINK -/

def encodeRemoveArgs (dir : Fh3) (name : Bytes) : Bytes := encodeFh3 dir ++ putString name

def decodeRemoveReply : XdrDecoder Unit := do
  let status ← getUint32
  throwIf (status ≠ 0) (.nfsError status "REMOVE")
  skipWccData

def encodeRmdirArgs (dir : Fh3) (name : Bytes) : Bytes := encodeFh3 dir ++ putString name

def decodeRmdirReply : XdrDecoder Unit := do
  let status ← getUint32
  throwIf (status ≠ 0) (.nfsError status "RMDIR")
  skipWccData

def encodeRenameArgs (from_dir : Fh3) (from_name : Bytes) (to_dir : Fh3) (to_name : Bytes) :
    Bytes :=
  encodeFh3 from_dir ++ putString from_name ++ encodeFh3 to_dir ++ putString to_name

def decodeRenameReply : XdrDecoder Unit := do
  let status ← getUint32
  -- fromdir_wcc, todir_wcc
  skipWccData
  skipWccData
  throwIf (status ≠ 0) (.nfsError status "RENAME")

def encodeLinkArgs (file link_dir : Fh3) (link_name : Bytes) : Bytes :=
  encodeFh3 file ++ encodeFh3 link_dir ++ putString link_name

def decodeLinkReply : XdrDecoder Unit := do
  let status ← getUint32
  -- file_attributes, linkdir_wcc
  skipPostOpAttr
  skipWccData
  throwIf (status ≠ 0) (.nfsError status "LINK")

/-! ### READDIR, READDIRPLUS -/

def encodeReaddirArgs (dir : Fh3) (cookie : UInt64) (cookieverf : Octets 8) (count : UInt32) :
    Bytes :=
  encodeFh3 dir ++ putUint64 cookie ++ putFixedOpaque cookieverf.1 ++ putUint32 count

def decodeEntry : XdrDecoder DirEntry3 := do
  let fileid ← getUint64
  let name ← getString
  let cookie ← getUint64
  return ⟨fileid, name, cookie⟩

def decodeReaddirReply : XdrDecoder ReaddirPage := do
  let status ← getUint32
  skipPostOpAttr
  -- with a failure nothing follows the attributes
  throwIf (status ≠ 0) (.nfsError status "READDIR")
  let cookieverf ← getArray 8
  let entries ← decodeList decodeEntry
  let eof ← getUint32
  return ⟨entries, eof ≠ 0, cookieverf⟩

def encodeReaddirplusArgs (dir : Fh3) (cookie : UInt64) (cookieverf : Octets 8)
    (dircount maxcount : UInt32) : Bytes :=
  encodeFh3 dir ++ putUint64 cookie ++ putFixedOpaque cookieverf.1 ++ putUint32 dircount ++
    putUint32 maxcount

/-- The entry is value-initialised: what the reply leaves out is zero. -/
def decodeEntryPlus : XdrDecoder DirEntryPlus3 := do
  let fileid ← getUint64
  let name ← getString
  let cookie ← getUint64
  let has_attrs ← getUint32
  let attrs ← if has_attrs ≠ 0 then decodeFattr3 else pure Fattr3.zero
  let has_fh ← getUint32
  let fh ← if has_fh ≠ 0 then decodeFh3 else pure ⟨[]⟩
  return ⟨fileid, name, cookie, has_attrs ≠ 0, attrs, has_fh ≠ 0, fh⟩

def decodeReaddirplusReply : XdrDecoder ReaddirplusPage := do
  let status ← getUint32
  skipPostOpAttr
  throwIf (status ≠ 0) (.nfsError status "READDIRPLUS")
  let cookieverf ← getArray 8
  let entries ← decodeList decodeEntryPlus
  let eof ← getUint32
  return ⟨entries, eof ≠ 0, cookieverf⟩

/-! ### MNT, EXPORT (mount.cpp) -/

/-- The list of authentication flavors behind the handle is not read. -/
def decodeMntReply : XdrDecoder Fh3 := do
  let status ← getUint32
  throwIf (status ≠ 0) (.nfsError status "MOUNT MNT3 mountstat3")
  Fh3.mk <$> getOpaque

def decodeExportEntry : XdrDecoder ExportEntry := do
  let path ← getString
  let groups ← decodeList getString
  return ⟨path, groups⟩

def decodeExports : XdrDecoder (List ExportEntry) := decodeList decodeExportEntry

/-! ### FSSTAT, FSINFO, PATHCONF -/

def encodeFsstatArgs (root : Fh3) : Bytes := encodeFh3 root

def decodeFsstatReply : XdrDecoder FsstatResult := do
  let status ← getUint32
  skipPostOpAttr
  throwIf (status ≠ 0) (.nfsError status "FSSTAT")
  let tbytes ← getUint64
  let fbytes ← getUint64
  let abytes ← getUint64
  let tfiles ← getUint64
  let ffiles ← getUint64
  let afiles ← getUint64
  let invarsec ← getUint32
  return ⟨tbytes, fbytes, abytes, tfiles, ffiles, afiles, invarsec⟩

def encodeFsinfoArgs (root : Fh3) : Bytes := encodeFh3 root

def decodeFsinfoReply : XdrDecoder FsinfoResult := do
  let status ← getUint32
  skipPostOpAttr
  throwIf (status ≠ 0) (.nfsError status "FSINFO")
  let rtmax ← getUint32
  let rtpref ← getUint32
  let rtmult ← getUint32
  let wtmax ← getUint32
  let wtpref ← getUint32
  let wtmult ← getUint32
  let dtpref ← getUint32
  let maxfilesize ← getUint64
  let seconds ← getUint32
  let nseconds ← getUint32
  let properties ← getUint32
  return ⟨rtmax, rtpref, rtmult, wtmax, wtpref, wtmult, dtpref, maxfilesize, ⟨seconds, nseconds⟩,
    properties⟩

def encodePathconfArgs (fh : Fh3) : Bytes := encodeFh3 fh

def decodePathconfReply : XdrDecoder PathconfResult := do
  let status ← getUint32
  skipPostOpAttr
  throwIf (status ≠ 0) (.nfsError status "PATHCONF")
  let linkmax ← getUint32
  let name_max ← getUint32
  let no_trunc ← getUint32
  let chown_restricted ← getUint32
  let case_insensitive ← getUint32
  let case_preserving ← getUint32
  return ⟨linkmax, name_max, no_trunc ≠ 0, chown_restricted ≠ 0, case_insensitive ≠ 0,
    case_preserving ≠ 0⟩

end Nfs3

end NfsClient
