import NfsClient.Nfs3.Ops
import NfsClient.Nfs3.Portmap

/-!
# NFSv3 procedures as calls

Each function `nfs3::f(client, args)` encodes its arguments, makes one RPC call and decodes the
reply. `Call` is such an invocation as data: one constructor for each argument encoder. The two
functions that make several calls, `readdir` and `readdirplus`, have no bound of their own; they are
given fuel and end in `ClientM.cut`.
-/

namespace NfsClient

open Xdr Reader Interaction

namespace Nfs3

def NFS_PROG : UInt32 := 100003
def NFS_VERS : UInt32 := 3

def NFSPROC3_GETATTR : UInt32 := 1
def NFSPROC3_SETATTR : UInt32 := 2
def NFSPROC3_LOOKUP : UInt32 := 3
def NFSPROC3_ACCESS : UInt32 := 4
def NFSPROC3_READLINK : UInt32 := 5
def NFSPROC3_READ : UInt32 := 6
def NFSPROC3_WRITE : UInt32 := 7
def NFSPROC3_CREATE : UInt32 := 8
def NFSPROC3_MKDIR : UInt32 := 9
def NFSPROC3_SYMLINK : UInt32 := 10
def NFSPROC3_MKNOD : UInt32 := 11
def NFSPROC3_REMOVE : UInt32 := 12
def NFSPROC3_RMDIR : UInt32 := 13
def NFSPROC3_RENAME : UInt32 := 14
def NFSPROC3_LINK : UInt32 := 15
def NFSPROC3_READDIR : UInt32 := 16
def NFSPROC3_READDIRPLUS : UInt32 := 17
def NFSPROC3_FSSTAT : UInt32 := 18
def NFSPROC3_FSINFO : UInt32 := 19
def NFSPROC3_PATHCONF : UInt32 := 20
def NFSPROC3_COMMIT : UInt32 := 21

/-! ### One call -/

/-- One call and the decoding of its reply. -/
def procedure {α : Type} (proc : UInt32) (args : Bytes) (d : XdrDecoder α) :
    ClientM TcpRpcClient α := do
  let reply ← TcpRpcClient.call NFS_PROG NFS_VERS proc args
  ClientM.decode d reply

/-- An invocation of a function that makes one call. `create` takes the two modes that come with
attributes. -/
inductive Call
  | getattr (fh : Fh3)
  | setattr (fh : Fh3) (attrs : Sattr3) (guard : SattrGuard3)
  | lookup (dir : Fh3) (name : Bytes)
  | access (fh : Fh3) (access_mask : UInt32)
  | readlink (symlink_fh : Fh3)
  | read (fh : Fh3) (offset : UInt64) (count : UInt32)
  | write (fh : Fh3) (offset : UInt64) (stable : Stable3) (data : Bytes)
  | create (dir : Fh3) (name : Bytes) (mode : CreateMode3) (hmode : mode ≠ .EXCLUSIVE)
      (attrs : Sattr3)
  | createExclusive (dir : Fh3) (name : Bytes) (verf : Octets 8)
  | mkdir (dir : Fh3) (name : Bytes) (attrs : Sattr3)
  | symlink (dir : Fh3) (name target : Bytes) (attrs : Sattr3)
  | mknodFifo (dir : Fh3) (name : Bytes) (attrs : Sattr3)
  | mknodSocket (dir : Fh3) (name : Bytes) (attrs : Sattr3)
  | mknodChr (dir : Fh3) (name : Bytes) (attrs : Sattr3) (spec : DeviceSpec3)
  | mknodBlk (dir : Fh3) (name : Bytes) (attrs : Sattr3) (spec : DeviceSpec3)
  | remove (dir : Fh3) (name : Bytes)
  | rmdir (dir : Fh3) (name : Bytes)
  | rename (from_dir : Fh3) (from_name : Bytes) (to_dir : Fh3) (to_name : Bytes)
  | link (file link_dir : Fh3) (link_name : Bytes)
  | readdirPage (dir : Fh3) (cookie : UInt64) (cookieverf : Octets 8) (count : UInt32)
  | readdirplusPage (dir : Fh3) (cookie : UInt64) (cookieverf : Octets 8)
      (dircount maxcount : UInt32)
  | fsstat (root : Fh3)
  | fsinfo (root : Fh3)
  | pathconf (fh : Fh3)
  | commit (fh : Fh3) (offset : UInt64) (count : UInt32)

namespace Call

/-- The argument bytes. -/
def encodeArgs : Call → Bytes
  | getattr fh => encodeGetattrArgs fh
  | setattr fh attrs guard => encodeSetattrArgs fh attrs guard
  | lookup dir name => encodeLookupArgs dir name
  | access fh access_mask => encodeAccessArgs fh access_mask
  | readlink symlink_fh => encodeReadlinkArgs symlink_fh
  | read fh offset count => encodeReadArgs fh offset count
  | write fh offset stable data => encodeWriteArgs fh offset stable data
  | create dir name mode _ attrs => encodeCreateArgs dir name mode attrs
  | createExclusive dir name verf => encodeCreateArgsExclusive dir name verf
  | mkdir dir name attrs => encodeMkdirArgs dir name attrs
  | symlink dir name target attrs => encodeSymlinkArgs dir name target attrs
  | mknodFifo dir name attrs => encodeMknodArgs dir name .NF3FIFO attrs
  | mknodSocket dir name attrs => encodeMknodArgs dir name .NF3SOCK attrs
  | mknodChr dir name attrs spec => encodeMknodDeviceArgs dir name .NF3CHR attrs spec
  | mknodBlk dir name attrs spec => encodeMknodDeviceArgs dir name .NF3BLK attrs spec
  | remove dir name => encodeRemoveArgs dir name
  | rmdir dir name => encodeRmdirArgs dir name
  | rename from_dir from_name to_dir to_name => encodeRenameArgs from_dir from_name to_dir to_name
  | link file link_dir link_name => encodeLinkArgs file link_dir link_name
  | readdirPage dir cookie cookieverf count => encodeReaddirArgs dir cookie cookieverf count
  | readdirplusPage dir cookie cookieverf dircount maxcount =>
    encodeReaddirplusArgs dir cookie cookieverf dircount maxcount
  | fsstat root => encodeFsstatArgs root
  | fsinfo root => encodeFsinfoArgs root
  | pathconf fh => encodePathconfArgs fh
  | commit fh offset count => encodeCommitArgs fh offset count

/-- The procedure number of the call. -/
def number : Call → UInt32
  | getattr .. => NFSPROC3_GETATTR
  | setattr .. => NFSPROC3_SETATTR
  | lookup .. => NFSPROC3_LOOKUP
  | access .. => NFSPROC3_ACCESS
  | readlink .. => NFSPROC3_READLINK
  | read .. => NFSPROC3_READ
  | write .. => NFSPROC3_WRITE
  | create .. | createExclusive .. => NFSPROC3_CREATE
  | mkdir .. => NFSPROC3_MKDIR
  | symlink .. => NFSPROC3_SYMLINK
  | mknodFifo .. | mknodSocket .. | mknodChr .. | mknodBlk .. => NFSPROC3_MKNOD
  | remove .. => NFSPROC3_REMOVE
  | rmdir .. => NFSPROC3_RMDIR
  | rename .. => NFSPROC3_RENAME
  | link .. => NFSPROC3_LINK
  | readdirPage .. => NFSPROC3_READDIR
  | readdirplusPage .. => NFSPROC3_READDIRPLUS
  | fsstat .. => NFSPROC3_FSSTAT
  | fsinfo .. => NFSPROC3_FSINFO
  | pathconf .. => NFSPROC3_PATHCONF
  | commit .. => NFSPROC3_COMMIT

/-- What the function returns. -/
@[reducible] def Result : Call → Type
  | getattr .. => Fattr3
  | setattr .. | remove .. | rmdir .. | rename .. | link .. => Unit
  | lookup .. | create .. | createExclusive .. | mkdir .. | symlink .. | mknodFifo ..
  | mknodSocket .. | mknodChr .. | mknodBlk .. => Fh3
  | access .. => UInt32
  | readlink .. | read .. => Bytes
  | write .. => WriteResult
  | readdirPage .. => ReaddirPage
  | readdirplusPage .. => ReaddirplusPage
  | fsstat .. => FsstatResult
  | fsinfo .. => FsinfoResult
  | pathconf .. => PathconfResult
  | commit .. => Octets 8

/-- The decoder of the reply. -/
def decodeReply : (c : Call) → XdrDecoder c.Result
  | getattr .. => decodeGetattrReply
  | setattr .. => decodeSetattrReply
  | lookup .. => decodeLookupReply
  | access .. => decodeAccessReply
  | readlink .. => decodeReadlinkReply
  | read .. => decodeReadReply
  | write .. => decodeWriteReply
  | create .. | createExclusive .. => decodeCreateReply
  | mkdir .. => decodeMkdirReply
  | symlink .. => decodeSymlinkReply
  | mknodFifo .. | mknodSocket .. | mknodChr .. | mknodBlk .. => decodeMknodReply
  | remove .. => decodeRemoveReply
  | rmdir .. => decodeRmdirReply
  | rename .. => decodeRenameReply
  | link .. => decodeLinkReply
  | readdirPage .. => decodeReaddirReply
  | readdirplusPage .. => decodeReaddirplusReply
  | fsstat .. => decodeFsstatReply
  | fsinfo .. => decodeFsinfoReply
  | pathconf .. => decodePathconfReply
  | commit .. => decodeCommitReply

def perform (c : Call) : ClientM TcpRpcClient c.Result :=
  procedure c.number c.encodeArgs c.decodeReply

/-- The request of the call. -/
def request (c : Call) (rpc : TcpRpcClient) : RpcRequest :=
  rpc.request NFS_PROG NFS_VERS c.number c.encodeArgs

/-- What comes of the call when `received` is received. -/
def result (c : Call) (received : Received) : Except Exn c.Result :=
  (received.bind parseReply).bind fun reply => (c.decodeReply reply).map Prod.fst

end Call

/-- `nfs3::create`, for any of the three modes. -/
def create (dir : Fh3) (name : Bytes) (mode : CreateMode3) (attrs : Sattr3) :
    ClientM TcpRpcClient Fh3 :=
  procedure NFSPROC3_CREATE (encodeCreateArgs dir name mode attrs) decodeCreateReply

/-! ### Directory listing -/

/-- The page loop of `readdir`; `all` is what the earlier pages held. -/
def readdirLoop (dir : Fh3) (count : UInt32) :
    ℕ → UInt64 → Octets 8 → List DirEntry3 → ClientM TcpRpcClient (List DirEntry3)
  | 0, _, _, _ => ClientM.cut
  | fuel + 1, cookie, cookieverf, all => do
    let page ← (Call.readdirPage dir cookie cookieverf count).perform
    -- an empty page leaves the cookie where it was
    let cookie := page.entries.foldl (fun _ e => e.cookie) cookie
    let all := all ++ page.entries
    if page.eof then return all
    else readdirLoop dir count fuel cookie page.cookieverf all

def readdir (fuel : ℕ) (dir : Fh3) (count : UInt32) : ClientM TcpRpcClient (List DirEntry3) :=
  readdirLoop dir count fuel 0 (Octets.zero 8) []

/-- The page loop of `readdirplus`. -/
def readdirplusLoop (dir : Fh3) (dircount maxcount : UInt32) :
    ℕ → UInt64 → Octets 8 → List DirEntryPlus3 → ClientM TcpRpcClient (List DirEntryPlus3)
  | 0, _, _, _ => ClientM.cut
  | fuel + 1, cookie, cookieverf, all => do
    let page ← (Call.readdirplusPage dir cookie cookieverf dircount maxcount).perform
    let cookie := page.entries.foldl (fun _ e => e.cookie) cookie
    let all := all ++ page.entries
    if page.eof then return all
    else readdirplusLoop dir dircount maxcount fuel cookie page.cookieverf all

def readdirplus (fuel : ℕ) (dir : Fh3) (dircount maxcount : UInt32) :
    ClientM TcpRpcClient (List DirEntryPlus3) :=
  readdirplusLoop dir dircount maxcount fuel 0 (Octets.zero 8) []

/-! ### MOUNT (mount.cpp) -/

def MOUNT_PROG : UInt32 := 100005
def MOUNT_VERS : UInt32 := 3
def MOUNTPROC3_MNT : UInt32 := 1
def MOUNTPROC3_UMNT : UInt32 := 3
def MOUNTPROC3_EXPORT : UInt32 := 5

/-- A call to the mount daemon, over a connection of its own. -/
def mountCall (proc : UInt32) (args : Bytes) : ClientM Unit Bytes := do
  let port ← getport MOUNT_PROG MOUNT_VERS
  let (reply, _) ← ClientM.onLocal (TcpRpcClient.connect port)
    (TcpRpcClient.call MOUNT_PROG MOUNT_VERS proc args)
  return reply

/-- The handle of the root of an export. -/
def mnt (export_path : Bytes) : ClientM Unit Fh3 := do
  let reply ← mountCall MOUNTPROC3_MNT (putString export_path)
  ClientM.decode decodeMntReply reply

/-- The reply to UMNT is empty. -/
def umnt (export_path : Bytes) : ClientM Unit Unit := do
  let _reply ← mountCall MOUNTPROC3_UMNT (putString export_path)

/-- The export list of a host, over a connection of its own. -/
def exportList : ClientM Unit (List ExportEntry) := do
  let port ← getport MOUNT_PROG MOUNT_VERS
  let (reply, _) ← ClientM.onLocal (TcpRpcClient.connect port)
    (TcpRpcClient.call MOUNT_PROG MOUNT_VERS MOUNTPROC3_EXPORT [])
  ClientM.decode decodeExports reply

/-! ### What the mount daemon is asked -/

section

variable {S β : Type} {step : Step RpcRequest Received S} {P : RpcRequest → Prop} {s : S}

/-- A call to the mount daemon: the question for its port, and one request. -/
theorem wpM_mountd {post : Except Exn β → Unit → S → Prop} {proc : UInt32} {args : Bytes}
    {f : Bytes × TcpRpcClient → ClientM Unit β} (hport : P (getportRequest MOUNT_PROG MOUNT_VERS))
    (hq : ∀ port, P ((TcpRpcClient.connect port).request MOUNT_PROG MOUNT_VERS proc args))
    (herr : ∀ e s, post (.error e) () s)
    (hf : ∀ x s, wpM step (fun _ q => P q) post (f x) () s) :
    wpM step (fun _ q => P q) post (do
      let port ← getport MOUNT_PROG MOUNT_VERS
      let x ← ClientM.onLocal (TcpRpcClient.connect port)
        (TcpRpcClient.call MOUNT_PROG MOUNT_VERS proc args)
      f x) () s := by
  refine wpM_bind.mpr (wpM_getport hport fun r s' _ port => ?_)
  cases port with
  | error e => exact herr e s'
  | ok port =>
    refine wpM_bind.mpr (wpM_onLocal.mpr (wpM_call.mpr ⟨hq port, fun r' s'' _ => ?_⟩))
    cases r'.bind parseReply with
    | error e => exact herr e s''
    | ok reply => exact hf _ s''

theorem wpM_mountCall {post : Except Exn Bytes → Unit → S → Prop} {proc : UInt32} {args : Bytes}
    (hport : P (getportRequest MOUNT_PROG MOUNT_VERS))
    (hq : ∀ port, P ((TcpRpcClient.connect port).request MOUNT_PROG MOUNT_VERS proc args))
    (hpost : ∀ r s, post r () s) :
    wpM step (fun _ q => P q) post (mountCall proc args) () s :=
  wpM_mountd hport hq (fun _ s => hpost _ s) fun _ s => hpost _ s

theorem wpM_mnt {export_path : Bytes} (hport : P (getportRequest MOUNT_PROG MOUNT_VERS))
    (hq : ∀ port, P ((TcpRpcClient.connect port).request MOUNT_PROG MOUNT_VERS MOUNTPROC3_MNT
      (putString export_path))) :
    wpM step (fun _ q => P q) (fun _ _ _ => True) (mnt export_path) () s := by
  refine wpM_bind.mpr (wpM_mountCall hport hq fun r s => ?_)
  cases r with
  | error e => exact trivial
  | ok reply => exact wpM_decode.mpr trivial

theorem wpM_umnt {export_path : Bytes} (hport : P (getportRequest MOUNT_PROG MOUNT_VERS))
    (hq : ∀ port, P ((TcpRpcClient.connect port).request MOUNT_PROG MOUNT_VERS MOUNTPROC3_UMNT
      (putString export_path))) :
    wpM step (fun _ q => P q) (fun _ _ _ => True) (umnt export_path) () s := by
  refine wpM_bind.mpr (wpM_mountCall hport hq fun r s => ?_)
  cases r <;> exact trivial

theorem wpM_exportList (hport : P (getportRequest MOUNT_PROG MOUNT_VERS))
    (hq : ∀ port, P ((TcpRpcClient.connect port).request MOUNT_PROG MOUNT_VERS MOUNTPROC3_EXPORT
      [])) :
    wpM step (fun _ q => P q) (fun _ _ _ => True) exportList () s :=
  wpM_mountd hport hq (fun _ _ => trivial) fun _ _ => wpM_decode.mpr trivial

end

end Nfs3

end NfsClient
