import NfsClient.Nfs4.Attr

/-!
# Operations: argument encoders and result decoders

One encoder and one decoder for each operation of a COMPOUND, as in the files of `src/nfs4`: an
encoder writes the opcode and the arguments, a decoder reads the opcode, the status and the body
of a result. Every decoder drops the opcode it reads and throws on a status other than `0`
(`opStatus`), so what a result is taken for is decided by its position alone.
-/

namespace NfsClient

open Xdr Reader

/-- The opcode and the status of a result; the opcode is dropped. -/
def opStatus (op : String) : XdrDecoder Unit := do
  let _resop ← getUint32
  let status ← getUint32
  throwIf (status ≠ 0) (.nfs4Error status op)

/-! ### File handles (fh_ops.cpp) -/

def encodePutrootfh : Bytes := putUint32 OP_PUTROOTFH

def encodePutfh (fh : Nfs4Fh) : Bytes := putUint32 OP_PUTFH ++ encodeNfs4fh fh

def encodeGetfh : Bytes := putUint32 OP_GETFH

def encodeSavefh : Bytes := putUint32 OP_SAVEFH

def encodeRestorefh : Bytes := putUint32 OP_RESTOREFH

def encodeLookupp : Bytes := putUint32 OP_LOOKUPP

/-- The expected opcode is a parameter that the body never looks at. -/
def checkOpStatus (_expected_op : UInt32) (name : String) : XdrDecoder Unit := opStatus name

def decodePutrootfhResult : XdrDecoder Unit := checkOpStatus OP_PUTROOTFH "PUTROOTFH"

def decodePutfhResult : XdrDecoder Unit := checkOpStatus OP_PUTFH "PUTFH"

def decodeGetfhResult : XdrDecoder Nfs4Fh := do
  checkOpStatus OP_GETFH "GETFH"
  decodeNfs4fh

def decodeSavefhResult : XdrDecoder Unit := checkOpStatus OP_SAVEFH "SAVEFH"

def decodeRestorefhResult : XdrDecoder Unit := checkOpStatus OP_RESTOREFH "RESTOREFH"

def decodeLookuppResult : XdrDecoder Unit := checkOpStatus OP_LOOKUPP "LOOKUPP"

/-! ### LOOKUP, GETATTR, ACCESS -/

def encodeLookup (name : Bytes) : Bytes := putUint32 OP_LOOKUP ++ putString name

def decodeLookupResult : XdrDecoder Unit := opStatus "LOOKUP"

def encodeGetattr (attr_ids : List UInt32) : Bytes :=
  putUint32 OP_GETATTR ++ encodeAttrRequest attr_ids

def decodeGetattrResult : XdrDecoder Fattr4 := do
  opStatus "GETATTR"
  decodeFattr4

def encodeAccess (access_mask : UInt32) : Bytes := putUint32 OP_ACCESS ++ putUint32 access_mask

structure Access4Result where
  supported : UInt32
  access : UInt32

def decodeAccessResult : XdrDecoder Access4Result := do
  opStatus "ACCESS"
  let supported ← getUint32
  let access ← getUint32
  return ⟨supported, access⟩

/-! ### OPEN, OPEN_CONFIRM, CLOSE, RENEW (open.cpp) -/

structure Open4Result where
  stateid : Stateid4
  rflags : UInt32

def encodeOpenPrefix (seqid share_access : UInt32) (clientid : UInt64) (owner : Bytes) : Bytes :=
  putUint32 OP_OPEN ++ putUint32 seqid ++ putUint32 share_access ++
    putUint32 OPEN4_SHARE_DENY_NONE ++ putUint64 clientid ++ putOpaque owner

def encodeOpenNocreate (seqid share_access : UInt32) (clientid : UInt64) (owner name : Bytes) :
    Bytes :=
  encodeOpenPrefix seqid share_access clientid owner ++
    putUint32 OPEN4_NOCREATE ++ putUint32 CLAIM_NULL ++ putString name

def encodeOpenCreate (seqid share_access : UInt32) (clientid : UInt64) (owner name : Bytes)
    (attrs : Sattr4) : Bytes :=
  encodeOpenPrefix seqid share_access clientid owner ++
    putUint32 OPEN4_CREATE ++ putUint32 UNCHECKED4 ++ encodeFattr4 attrs ++
    putUint32 CLAIM_NULL ++ putString name

/-- `nfsace4`: type, flag, access mask, who. -/
def skipNfsace4 : XdrDecoder Unit := do
  let _type ← getUint32
  let _flag ← getUint32
  let _access_mask ← getUint32
  let _who ← getString

/-- `open_delegation4`: the arms READ and WRITE are skipped, every other type has no body. -/
def skipDelegation : XdrDecoder Unit := do
  let deleg_type ← getUint32
  if deleg_type = 1 then do
    let _stateid ← decodeStateid4
    let _recall ← getUint32
    skipNfsace4
  else if deleg_type = 2 then do
    let _stateid ← decodeStateid4
    let _recall ← getUint32
    -- `nfs_space_limit4` has three words in either of its arms
    let _limitby ← getUint32
    let _num_blocks ← getUint32
    let _bytes_per_block ← getUint32
    skipNfsace4
  else return ()

def decodeOpenResult : XdrDecoder Open4Result := do
  opStatus "OPEN"
  let stateid ← decodeStateid4
  skipChangeInfo4
  let rflags ← getUint32
  -- the attributes that the server has set are skipped as words
  let bm_size ← getUint32
  skipUint32s bm_size
  skipDelegation
  return ⟨stateid, rflags⟩

def encodeOpenConfirm (stateid : Stateid4) (seqid : UInt32) : Bytes :=
  putUint32 OP_OPEN_CONFIRM ++ encodeStateid4 stateid ++ putUint32 seqid

def decodeOpenConfirmResult : XdrDecoder Stateid4 := do
  opStatus "OPEN_CONFIRM"
  decodeStateid4

def encodeClose (seqid : UInt32) (stateid : Stateid4) : Bytes :=
  putUint32 OP_CLOSE ++ putUint32 seqid ++ encodeStateid4 stateid

def decodeCloseResult : XdrDecoder Unit := do
  opStatus "CLOSE"
  let _stateid ← decodeStateid4

def encodeRenew (clientid : UInt64) : Bytes := putUint32 OP_RENEW ++ putUint64 clientid

def decodeRenewResult : XdrDecoder Unit := opStatus "RENEW"

/-! ### READ, WRITE, COMMIT -/

def encodeRead (stateid : Stateid4) (offset : UInt64) (count : UInt32) : Bytes :=
  putUint32 OP_READ ++ encodeStateid4 stateid ++ putUint64 offset ++ putUint32 count

def decodeReadResult : XdrDecoder Bytes := do
  opStatus "READ"
  let _eof ← getUint32
  getOpaque

/-- `data` stands for the pointer and the length of the source. -/
def encodeWrite (stateid : Stateid4) (offset : UInt64) (stable : Stable4) (data : Bytes) : Bytes :=
  putUint32 OP_WRITE ++ encodeStateid4 stateid ++ putUint64 offset ++ putUint32 stable.value ++
    putOpaque data

def decodeWriteResult : XdrDecoder Nfs4WriteResult := do
  opStatus "WRITE"
  let count ← getUint32
  let committed ← getUint32
  let verf ← getArray 8
  return ⟨count, ⟨committed⟩, verf⟩

def encodeCommit (offset : UInt64) (count : UInt32) : Bytes :=
  putUint32 OP_COMMIT ++ putUint64 offset ++ putUint32 count

def decodeCommitResult : XdrDecoder (Octets 8) := do
  opStatus "COMMIT"
  getArray 8

/-! ### CREATE, REMOVE, RENAME, READLINK, SETATTR -/

def encodeCreateDir (name : Bytes) (attrs : Sattr4) : Bytes :=
  putUint32 OP_CREATE ++ putUint32 Ftype4.NF4DIR.value ++ putString name ++ encodeFattr4 attrs

def encodeCreateSymlink (name target : Bytes) (attrs : Sattr4) : Bytes :=
  putUint32 OP_CREATE ++ putUint32 Ftype4.NF4LNK.value ++ putString target ++ putString name ++
    encodeFattr4 attrs

def decodeCreateResult : XdrDecoder Unit := do
  opStatus "CREATE"
  skipChangeInfo4
  let bm_size ← getUint32
  skipUint32s bm_size

def encodeRemove (name : Bytes) : Bytes := putUint32 OP_REMOVE ++ putString name

def decodeRemoveResult : XdrDecoder Unit := do
  opStatus "REMOVE"
  skipChangeInfo4

def encodeRename (oldname newname : Bytes) : Bytes :=
  putUint32 OP_RENAME ++ putString oldname ++ putString newname

def decodeRenameResult : XdrDecoder Unit := do
  opStatus "RENAME"
  skipChangeInfo4
  skipChangeInfo4

def encodeReadlink : Bytes := putUint32 OP_READLINK

def decodeReadlinkResult : XdrDecoder Bytes := do
  opStatus "READLINK"
  getString

def encodeSetattr (stateid : Stateid4) (attrs : Sattr4) : Bytes :=
  putUint32 OP_SETATTR ++ encodeStateid4 stateid ++ encodeFattr4 attrs

def decodeSetattrResult : XdrDecoder Unit := do
  opStatus "SETATTR"
  let bm_size ← getUint32
  skipUint32s bm_size

/-! ### READDIR -/

structure ReaddirPage4 where
  cookieverf : Octets 8
  entries : List Nfs4DirEntry
  eof : Bool

def encodeReaddir (cookie : UInt64) (cookieverf : Octets 8) (dircount maxcount : UInt32)
    (attr_ids : List UInt32) : Bytes :=
  putUint32 OP_READDIR ++ putUint64 cookie ++ putFixedOpaque cookieverf.1 ++ putUint32 dircount ++
    putUint32 maxcount ++ encodeAttrRequest attr_ids

/-- `while (dec.get_uint32() != 0)`. An iteration takes at least four bytes, so the number of bytes
left bounds the iterations, and with none left `get_uint32` underflows. -/
def decodeEntries : ℕ → XdrDecoder (List Nfs4DirEntry)
  | 0 => throw underflow
  | fuel + 1 => do
    let value_follows ← getUint32
    if value_follows ≠ 0 then do
      let cookie ← getUint64
      let name ← getString
      let attrs ← decodeFattr4
      -- the list goes on behind every entry
      let entries ← decodeEntries fuel
      return ⟨cookie, name, attrs⟩ :: entries
    else return []

def decodeReaddirResult : XdrDecoder ReaddirPage4 := do
  opStatus "READDIR"
  let cookieverf ← getArray 8
  let left ← remaining
  let entries ← decodeEntries left
  let eof ← getUint32
  return ⟨cookieverf, entries, eof ≠ 0⟩

/-! ### SETCLIENTID and SETCLIENTID_CONFIRM -/

structure SetclientidResult where
  clientid : UInt64
  confirm_verifier : Octets 8

def encodeSetclientid (verifier : Octets 8) (client_id : Bytes) (cb_program : UInt32) : Bytes :=
  putUint32 OP_SETCLIENTID ++ putFixedOpaque verifier.1 ++ putOpaque client_id ++
    putUint32 cb_program ++ putString (ascii "tcp") ++ putString (ascii "0.0.0.0.0.0") ++
    -- callback_ident
    putUint32 0

def decodeSetclientidResult : XdrDecoder SetclientidResult := do
  opStatus "SETCLIENTID"
  let clientid ← getUint64
  let confirm_verifier ← getArray 8
  return ⟨clientid, confirm_verifier⟩

def encodeSetclientidConfirm (clientid : UInt64) (confirm_verifier : Octets 8) : Bytes :=
  putUint32 OP_SETCLIENTID_CONFIRM ++ putUint64 clientid ++ putFixedOpaque confirm_verifier.1

def decodeSetclientidConfirmResult : XdrDecoder Unit := opStatus "SETCLIENTID_CONFIRM"

/-! ### Sessions (session41.cpp) -/

structure ExchangeIdResult where
  clientid : UInt64
  sequenceid : UInt32

def encodeExchangeId (verifier : Octets 8) (client_id : Bytes) : Bytes :=
  putUint32 OP_EXCHANGE_ID ++ putFixedOpaque verifier.1 ++ putOpaque client_id ++
    -- eia_flags, SP4_NONE, an empty eia_client_impl_id
    putUint32 0x00020000 ++ putUint32 0 ++ putUint32 0

/-- `nfs_impl_id4`: domain, name, date. -/
def skipImplId : XdrDecoder Unit := do
  let _nii_domain ← getOpaque
  let _nii_name ← getOpaque
  let _seconds ← getUint64
  let _nseconds ← getUint32

def decodeExchangeIdResult : XdrDecoder ExchangeIdResult := do
  opStatus "EXCHANGE_ID"
  let clientid ← getUint64
  let sequenceid ← getUint32
  let _eir_flags ← getUint32
  -- no body is read behind the kind of state protection
  let _sprotect ← getUint32
  let _so_minor_id ← getUint64
  let _so_major_id ← getOpaque
  let _eir_server_scope ← getOpaque
  let impl_count ← getUint32
  let _impl_ids ← times skipImplId impl_count.toNat
  return ⟨clientid, sequenceid⟩

def encodeChannelAttrs (maxrqst maxresp maxresp_cached : UInt32) : Bytes :=
  putUint32 0 ++ putUint32 maxrqst ++ putUint32 maxresp ++ putUint32 maxresp_cached ++
    putUint32 16 ++ putUint32 1 ++ putUint32 0

def encodeCreateSession (clientid : UInt64) (sequenceid : UInt32) : Bytes :=
  putUint32 OP_CREATE_SESSION ++ putUint64 clientid ++ putUint32 sequenceid ++ putUint32 0 ++
    encodeChannelAttrs 65536 65536 1024 ++ encodeChannelAttrs 4096 4096 256 ++
    putUint32 0 ++
    -- csa_sec_parms: one element, AUTH_NONE
    putUint32 1 ++ putUint32 0

/-- The channel attributes are taken to be seven words each. -/
def decodeCreateSessionResult : XdrDecoder SessionId41 := do
  opStatus "CREATE_SESSION"
  let sid ← getArray 16
  let _csr_sequence ← getUint32
  let _csr_flags ← getUint32
  let _fore ← times getUint32 7
  let _back ← times getUint32 7
  return sid

def encodeSequence41 (sessionid : SessionId41) (sequenceid slotid highest_slotid : UInt32)
    (cachethis : Bool) : Bytes :=
  putUint32 OP_SEQUENCE ++ putFixedOpaque sessionid.1 ++ putUint32 sequenceid ++
    putUint32 slotid ++ putUint32 highest_slotid ++ putUint32 (if cachethis then 1 else 0)

def decodeSequence41Result : XdrDecoder Unit := do
  opStatus "SEQUENCE"
  let _sr_sessionid ← getFixedOpaque 16
  let _sr_sequenceid ← getUint32
  let _sr_slotid ← getUint32
  let _sr_highest_slotid ← getUint32
  let _sr_target_highest_slotid ← getUint32
  let _sr_status_flags ← getUint32

def encodeReclaimComplete (one_fs : Bool) : Bytes :=
  putUint32 OP_RECLAIM_COMPLETE ++ putUint32 (if one_fs then 1 else 0)

def decodeReclaimCompleteResult : XdrDecoder Unit := opStatus "RECLAIM_COMPLETE"

def encodeDestroySession (sessionid : SessionId41) : Bytes :=
  putUint32 OP_DESTROY_SESSION ++ putFixedOpaque sessionid.1

def decodeDestroySessionResult : XdrDecoder Unit := opStatus "DESTROY_SESSION"

end NfsClient
