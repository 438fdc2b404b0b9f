import NfsClient.Nfs4.Compound

/-!
# Nfs4Client

`nfs4_client.cpp`: the constructor handshake, the methods that send one COMPOUND, and the two that
send several, `do_open` and `readdir`. The retry loop of `do_open` and the page loop of `readdir`
have no bound of their own; they are given fuel and end in `ClientM.cut`.
-/

namespace NfsClient

open Xdr Reader Interaction

/-- The fields of `Nfs4Client`. -/
structure Nfs4Client where
  rpc_ : TcpRpcClient
  root_fh_ : Nfs4Fh
  clientid_ : UInt64
  open_seqid_ : UInt32

namespace Nfs4Client

/-- The client-owner string, which is also the open-owner. -/
def owner : Bytes := ascii "nfsclient-v4"

/-- A call on `*rpc_`. -/
def onRpc {α : Type} : ClientM TcpRpcClient α → ClientM Nfs4Client α :=
  ClientM.onMember Nfs4Client.rpc_ fun rpc c => { c with rpc_ := rpc }

/-- The request of a COMPOUND. -/
def request {α : Type} (c : Nfs4Client) (q : CompoundCall α) : RpcRequest :=
  q.request c.rpc_ 0

/-- The fields after a COMPOUND. -/
def sent (c : Nfs4Client) : Nfs4Client := { c with rpc_ := c.rpc_.bump }

theorem wpM_onRpc_send {α S : Type} {step : Step RpcRequest Received S}
    {ok : S → RpcRequest → Prop} {post : Except Exn α → Nfs4Client → S → Prop}
    {q : CompoundCall α} {c : Nfs4Client} {s : S} :
    wpM step ok post (onRpc (q.send 0)) c s ↔
      ok s (c.request q) ∧ ∀ r s', step s (c.request q) r s' → post (q.result r) c.sent s' :=
  wpM_onMember.trans wpM_send

/-! ### Constructor -/

def setclientid (now : UInt64) : CompoundCall SetclientidResult where
  tag := ascii "init"
  ops := encodeSetclientid (bootVerifier now) owner 0
  numOps := 1
  decode := do
    checkCompoundStatus
    decodeSetclientidResult

def setclientidConfirm (r : SetclientidResult) : CompoundCall Unit where
  tag := ascii "init"
  ops := encodeSetclientidConfirm r.clientid r.confirm_verifier
  numOps := 1
  decode := do
    checkCompoundStatus
    decodeSetclientidConfirmResult

def doSetclientidConfirm (now : UInt64) : ClientM TcpRpcClient UInt64 := do
  let r ← (setclientid now).send 0
  (setclientidConfirm r).send 0
  return r.clientid

def getRootFh : CompoundCall Unit where
  tag := []
  ops := encodePutrootfh ++ encodeGetfh
  numOps := 2
  decode := do
    checkCompoundStatus
    decodePutrootfhResult
    let _fh ← decodeGetfhResult

/-- Check that the root is reachable; the sentinel for it is the empty handle. -/
def doGetRootFh : ClientM TcpRpcClient Nfs4Fh := do
  getRootFh.send 0
  return ⟨[]⟩

/-- The constructor, at time `now`, with the credentials of its second form if given. -/
def new (now : UInt64) (auth : Option AuthSys) : ClientM Unit Nfs4Client := do
  let rpc ← connectNfs auth
  let (clientid, rpc) ← ClientM.onLocal rpc (doSetclientidConfirm now)
  let (root_fh, rpc) ← ClientM.onLocal rpc doGetRootFh
  return { rpc_ := rpc, root_fh_ := root_fh, clientid_ := clientid, open_seqid_ := 0 }

theorem wpM_doSetclientidConfirm {S : Type} {step : Step RpcRequest Received S}
    {ok : S → RpcRequest → Prop} {post : Except Exn UInt64 → TcpRpcClient → S → Prop}
    {now : UInt64} {rpc : TcpRpcClient} {s : S} :
    wpM step ok post (doSetclientidConfirm now) rpc s ↔
      ok s ((setclientid now).request rpc 0) ∧
        ∀ r s', step s ((setclientid now).request rpc 0) r s' →
          match (setclientid now).result r with
          | .error e => post (.error e) rpc.bump s'
          | .ok res =>
            ok s' ((setclientidConfirm res).request rpc.bump 0) ∧
              ∀ r' s'', step s' ((setclientidConfirm res).request rpc.bump 0) r' s'' →
                post (((setclientidConfirm res).result r').map fun _ => res.clientid)
                  rpc.bump.bump s'' := by
  unfold doSetclientidConfirm
  rw [wpM_bind, wpM_send]
  refine and_congr_right fun _ => forall₃_congr fun r s' _ => ?_
  -- without a clientid there is no second request
  cases (setclientid now).result r with
  | error e => exact Iff.rfl
  | ok res =>
    refine wpM_bind.trans (wpM_send.trans (and_congr_right fun _ =>
      forall₃_congr fun r' s'' _ => ?_))
    cases (setclientidConfirm res).result r' <;> exact Iff.rfl

theorem wpM_doGetRootFh {S : Type} {step : Step RpcRequest Received S}
    {ok : S → RpcRequest → Prop} {post : Except Exn Nfs4Fh → TcpRpcClient → S → Prop}
    {rpc : TcpRpcClient} {s : S} :
    wpM step ok post doGetRootFh rpc s ↔
      ok s (getRootFh.request rpc 0) ∧ ∀ r s', step s (getRootFh.request rpc 0) r s' →
        post ((getRootFh.result r).map fun _ => ⟨[]⟩) rpc.bump s' := by
  unfold doGetRootFh
  rw [wpM_bind, wpM_send]
  refine and_congr_right fun _ => forall₃_congr fun r s' _ => ?_
  cases getRootFh.result r <;> exact Iff.rfl

/-! ### Methods that send one COMPOUND -/

def lookup (dir : Nfs4Fh) (name : Bytes) : CompoundCall Nfs4Fh where
  tag := []
  ops := encodeFh dir ++ encodeLookup name ++ encodeGetfh
  numOps := 3
  decode := do
    checkCompoundStatus
    decodePutfhResult
    decodeLookupResult
    decodeGetfhResult

def getattr (fh : Nfs4Fh) : CompoundCall Fattr4 where
  tag := []
  ops := encodeFh fh ++ encodeGetattr getattrIds
  numOps := 2
  decode := do
    checkCompoundStatus
    decodePutfhResult
    decodeGetattrResult

def access (fh : Nfs4Fh) (mask : UInt32) : CompoundCall UInt32 where
  tag := []
  ops := encodeFh fh ++ encodeAccess mask
  numOps := 2
  decode := do
    checkCompoundStatus
    decodePutfhResult
    let r ← decodeAccessResult
    return r.access

def close (f : Nfs4File) : CompoundCall Unit where
  tag := []
  ops := encodeFh f.fh ++ encodeClose f.seqid f.stateid
  numOps := 2
  decode := do
    checkCompoundStatus
    decodePutfhResult
    decodeCloseResult

def read (f : Nfs4File) (offset : UInt64) (count : UInt32) : CompoundCall Bytes where
  tag := []
  ops := encodeFh f.fh ++ encodeRead f.stateid offset count
  numOps := 2
  decode := do
    checkCompoundStatus
    decodePutfhResult
    decodeReadResult

def write (f : Nfs4File) (offset : UInt64) (stable : Stable4) (data : Bytes) :
    CompoundCall UInt32 where
  tag := []
  ops := encodeFh f.fh ++ encodeWrite f.stateid offset stable data
  numOps := 2
  decode := do
    checkCompoundStatus
    decodePutfhResult
    let r ← decodeWriteResult
    return r.count

def commit (f : Nfs4File) (offset : UInt64) (count : UInt32) : CompoundCall (Octets 8) where
  tag := []
  ops := encodeFh f.fh ++ encodeCommit offset count
  numOps := 2
  decode := do
    checkCompoundStatus
    decodePutfhResult
    decodeCommitResult

def mkdir (dir : Nfs4Fh) (name : Bytes) (attrs : Sattr4) : CompoundCall Nfs4Fh where
  tag := []
  ops := encodeFh dir ++ encodeCreateDir name attrs ++ encodeGetfh
  numOps := 3
  decode := do
    checkCompoundStatus
    decodePutfhResult
    decodeCreateResult
    decodeGetfhResult

def remove (dir : Nfs4Fh) (name : Bytes) : CompoundCall Unit where
  tag := []
  ops := encodeFh dir ++ encodeRemove name
  numOps := 2
  decode := do
    checkCompoundStatus
    decodePutfhResult
    decodeRemoveResult

def rename (src_dir : Nfs4Fh) (src_name : Bytes) (dst_dir : Nfs4Fh) (dst_name : Bytes) :
    CompoundCall Unit where
  tag := []
  -- SAVEFH keeps the source directory while the target becomes the current one
  ops := encodeFh src_dir ++ encodeSavefh ++ encodeFh dst_dir ++ encodeRename src_name dst_name
  numOps := 4
  decode := do
    checkCompoundStatus
    decodePutfhResult
    decodeSavefhResult
    decodePutfhResult
    decodeRenameResult

def symlink (dir : Nfs4Fh) (name target : Bytes) (attrs : Sattr4) : CompoundCall Nfs4Fh where
  tag := []
  ops := encodeFh dir ++ encodeCreateSymlink name target attrs ++ encodeGetfh
  numOps := 3
  decode := do
    checkCompoundStatus
    decodePutfhResult
    decodeCreateResult
    decodeGetfhResult

def readlink (fh : Nfs4Fh) : CompoundCall Bytes where
  tag := []
  ops := encodeFh fh ++ encodeReadlink
  numOps := 2
  decode := do
    checkCompoundStatus
    decodePutfhResult
    decodeReadlinkResult

def setattr (fh : Nfs4Fh) (attrs : Sattr4) : CompoundCall Unit where
  tag := []
  ops := encodeFh fh ++ encodeSetattr Stateid4.anonymous attrs
  numOps := 2
  decode := do
    checkCompoundStatus
    decodePutfhResult
    decodeSetattrResult

def fileCall : (m : FileMethod) → CompoundCall m.Result
  | .lookup dir name => lookup dir name
  | .getattr fh => getattr fh
  | .access fh mask => access fh mask
  | .close f => close f
  | .read f offset count => read f offset count
  | .write f offset stable data => write f offset stable data
  | .commit f offset count => commit f offset count
  | .mkdir dir name attrs => mkdir dir name attrs
  | .remove dir name => remove dir name
  | .rename src_dir src_name dst_dir dst_name => rename src_dir src_name dst_dir dst_name
  | .symlink dir name target attrs => symlink dir name target attrs
  | .readlink fh => readlink fh
  | .setattr fh attrs => setattr fh attrs

def renew (clientid : UInt64) : CompoundCall Unit where
  tag := []
  ops := encodeRenew clientid
  numOps := 1
  decode := do
    checkCompoundStatus
    decodeRenewResult

/-! ### OPEN -/

/-- The COMPOUND of `do_open`. -/
def openFile (dir : Nfs4Fh) (name : Bytes) (share_access : UInt32) (create : Bool)
    (clientid : UInt64) (seqid : UInt32) : CompoundCall (Open4Result × Nfs4Fh) where
  tag := []
  ops := encodeFh dir ++
    -- a file that is created gets no attributes
    (if create then encodeOpenCreate seqid share_access clientid owner name {}
      else encodeOpenNocreate seqid share_access clientid owner name) ++
    encodeGetfh
  numOps := 3
  decode := do
    checkCompoundStatus
    decodePutfhResult
    let open_res ← decodeOpenResult
    let fh ← decodeGetfhResult
    return (open_res, fh)

def openConfirm (fh : Nfs4Fh) (stateid : Stateid4) (confirm_seqid : UInt32) :
    CompoundCall Stateid4 where
  tag := []
  ops := encodeFh fh ++ encodeOpenConfirm stateid confirm_seqid
  numOps := 2
  decode := do
    checkCompoundStatus
    decodePutfhResult
    decodeOpenConfirmResult

/-- The retry loop of `do_open`: the same COMPOUND again as long as its status is `NFS4ERR_GRACE`. -/
def openLoop {α : Type} (q : CompoundCall α) : ℕ → ClientM Nfs4Client Bytes
  | 0 => ClientM.cut
  | fuel + 1 => do
    let reply ← onRpc (callCompound q.tag q.ops q.numOps 0)
    match checkCompoundStatus reply with
    | .ok _ => return reply
    | .error (.nfs4Error status op) =>
      if status = NFS4ERR_GRACE then openLoop q fuel else ClientM.throw (.nfs4Error status op)
    | .error e => ClientM.throw e

/-- `++open_seqid_`. -/
def nextOpenSeqid : ClientM Nfs4Client UInt32 := do
  ClientM.assign fun c => { c with open_seqid_ := c.open_seqid_ + 1 }
  let c ← ClientM.fields
  return c.open_seqid_

def doOpen (fuel : ℕ) (dir : Nfs4Fh) (name : Bytes) (share_access : UInt32) (create : Bool) :
    ClientM Nfs4Client Nfs4File := do
  -- taken once for all tries
  let seqid ← nextOpenSeqid
  let c ← ClientM.fields
  let q := openFile dir name share_access create c.clientid_ seqid
  let reply ← openLoop q fuel
  let (open_res, fh) ← ClientM.decode q.decode reply
  if open_res.rflags &&& OPEN4_RESULT_CONFIRM ≠ 0 then do
    -- the OPEN_CONFIRM is the next request of the open-owner
    let confirm_seqid ← nextOpenSeqid
    let stateid ← onRpc ((openConfirm fh open_res.stateid confirm_seqid).send 0)
    return ⟨fh, stateid, confirm_seqid⟩
  else return ⟨fh, open_res.stateid, seqid⟩

def openRead (fuel : ℕ) (dir : Nfs4Fh) (name : Bytes) : ClientM Nfs4Client Nfs4File :=
  doOpen fuel dir name OPEN4_SHARE_ACCESS_READ false

def openWrite (fuel : ℕ) (dir : Nfs4Fh) (name : Bytes) (create : Bool) :
    ClientM Nfs4Client Nfs4File :=
  doOpen fuel dir name OPEN4_SHARE_ACCESS_WRITE create

/-- The fields after `++open_seqid_`. -/
def opened (c : Nfs4Client) : Nfs4Client := { c with open_seqid_ := c.open_seqid_ + 1 }

section wpM

variable {S : Type} {step : Step RpcRequest Received S} {ok : S → RpcRequest → Prop}
  {c : Nfs4Client} {s : S}

theorem wpM_openLoop_succ {α : Type} {post : Except Exn Bytes → Nfs4Client → S → Prop}
    {q : CompoundCall α} {fuel : ℕ} :
    wpM step ok post (openLoop q (fuel + 1)) c s ↔
      ok s (c.request q) ∧ ∀ r s', step s (c.request q) r s' →
        match openVerdict r with
        | .ok (some reply) => post (.ok reply) c.sent s'
        | .ok none => wpM step ok post (openLoop q fuel) c.sent s'
        | .error e => post (.error e) c.sent s' := by
  rw [openLoop, wpM_bind]
  refine (wpM_onMember.trans wpM_call).trans (and_congr_right fun _ => forall₃_congr fun r s' _ => ?_)
  cases hparse : r.bind parseReply with
  | error e =>
    rw [openVerdict_of_error hparse]
    exact Iff.rfl
  | ok reply =>
    have harms := openVerdict_arms hparse (fun reply => (pure reply : ClientM Nfs4Client Bytes))
      (openLoop q fuel) ClientM.throw
    refine (iff_of_eq (congrArg (fun m => wpM step ok post m c.sent s') harms)).trans ?_
    rcases openVerdict r with e | _ | reply'
    · exact Iff.rfl
    · exact Iff.rfl
    · exact Iff.rfl

/-- **The rule of the retry loop**: what every try keeps holds when the loop ends. -/
theorem wpM_openLoop {α : Type} {post : Except Exn Bytes → Nfs4Client → S → Prop}
    {q : CompoundCall α} {I : Nfs4Client → S → Prop} (hok : ∀ c s, I c s → ok s (c.request q))
    (htry : ∀ c s r s', I c s → step s (c.request q) r s' →
      match openVerdict r with
      | .ok (some reply) => post (.ok reply) c.sent s'
      | .ok none => I c.sent s'
      | .error e => post (.error e) c.sent s') :
    ∀ {fuel : ℕ} {c : Nfs4Client} {s : S}, I c s → wpM step ok post (openLoop q fuel) c s
  | 0, _, _, _ => trivial
  | fuel + 1, c, s, hI => by
    refine wpM_openLoop_succ.mpr ⟨hok c s hI, fun r s' hstep => ?_⟩
    -- the verdict on the try: return, try again, throw
    have h := htry c s r s' hI hstep
    split
    · next heq =>
      rw [heq] at h
      exact h
    · next heq =>
      rw [heq] at h
      exact wpM_openLoop hok htry h
    · next heq =>
      rw [heq] at h
      exact h

theorem wpM_nextOpenSeqid_bind {α : Type} {post : Except Exn α → Nfs4Client → S → Prop}
    {f : UInt32 → ClientM Nfs4Client α} :
    wpM step ok post (nextOpenSeqid >>= f) c s ↔
      wpM step ok post (f (c.open_seqid_ + 1)) c.opened s :=
  wpM_bind.trans Iff.rfl

/-- `do_open`: the retry loop, and the OPEN_CONFIRM if the reply asks for it. -/
theorem wpM_doOpen {post : Except Exn Nfs4File → Nfs4Client → S → Prop} {fuel : ℕ} {dir : Nfs4Fh}
    {name : Bytes} {share_access : UInt32} {create : Bool} :
    wpM step ok post (doOpen fuel dir name share_access create) c s ↔
      let q := openFile dir name share_access create c.clientid_ (c.open_seqid_ + 1)
      wpM step ok (fun r c' s' =>
        match r.bind fun reply => (q.decode reply).map Prod.fst with
        | .error e => post (.error e) c' s'
        | .ok (open_res, fh) =>
          if open_res.rflags &&& OPEN4_RESULT_CONFIRM ≠ 0 then
            let q' := openConfirm fh open_res.stateid (c'.open_seqid_ + 1)
            ok s' (c'.opened.request q') ∧ ∀ r s'', step s' (c'.opened.request q') r s'' →
              post ((q'.result r).map fun stateid => ⟨fh, stateid, c'.open_seqid_ + 1⟩)
                c'.opened.sent s''
          else post (.ok ⟨fh, open_res.stateid, c.open_seqid_ + 1⟩) c' s')
        (openLoop q fuel) c.opened s := by
  unfold doOpen
  rw [wpM_nextOpenSeqid_bind, wpM_fields_bind, wpM_bind]
  refine Iff.of_eq (congrArg (fun p => wpM step ok p _ c.opened s) ?_)
  funext r c' s'
  cases r with
  | error e => rfl
  | ok reply =>
    refine propext (wpM_bind.trans (wpM_decode.trans ?_))
    -- the counter has been moved and the clientid has not
    have hclientid : c.opened.clientid_ = c.clientid_ := rfl
    simp only [hclientid, Except.bind]
    cases (openFile dir name share_access create c.clientid_ (c.open_seqid_ + 1)).decode reply with
    | error e => exact Iff.rfl
    | ok x =>
      obtain ⟨⟨open_res, fh⟩, rest⟩ := x
      simp only [Except.map]
      split
      -- the OPEN_CONFIRM takes an id of its own
      · rw [wpM_nextOpenSeqid_bind, wpM_bind]
        refine wpM_onRpc_send.trans (and_congr_right fun _ => forall₃_congr fun r s'' _ => ?_)
        cases CompoundCall.result _ r <;> exact Iff.rfl
      · exact Iff.rfl

/-- **The rule of `do_open`, exit by exit.** `I` holds whenever the OPEN is sent. An answer other than
GRACE ends the loop: with an exception, with the file, or with an OPEN_CONFIRM, where it asks for it. -/
theorem wpM_doOpen_exits {post : Except Exn Nfs4File → Nfs4Client → S → Prop}
    {I : Nfs4Client → S → Prop} {fuel : ℕ} {dir : Nfs4Fh} {name : Bytes} {share_access : UInt32}
    {create : Bool} {q : CompoundCall (Open4Result × Nfs4Fh)}
    (hq : q = openFile dir name share_access create c.clientid_ (c.open_seqid_ + 1))
    (hopen : ∀ c' s', I c' s' → ok s' (c'.request q))
    (hgrace : ∀ c' s' r s'', I c' s' → step s' (c'.request q) r s'' → openVerdict r = .ok none →
      I c'.sent s'')
    (hend : ∀ c' s' r s'', I c' s' → step s' (c'.request q) r s'' → openVerdict r ≠ .ok none →
      (∀ e, post (.error e) c'.sent s'') ∧
      ∀ open_res fh, q.result r = .ok (open_res, fh) →
        if open_res.rflags &&& OPEN4_RESULT_CONFIRM ≠ 0 then
          let q' := openConfirm fh open_res.stateid (c'.sent.open_seqid_ + 1)
          ok s'' (c'.sent.opened.request q') ∧ ∀ r' s₃, step s'' (c'.sent.opened.request q') r' s₃ →
            post ((q'.result r').map fun stateid => ⟨fh, stateid, c'.sent.open_seqid_ + 1⟩)
              c'.sent.opened.sent s₃
        else post (.ok ⟨fh, open_res.stateid, c.open_seqid_ + 1⟩) c'.sent s'')
    (hI : I c.opened s) : wpM step ok post (doOpen fuel dir name share_access create) c s := by
  subst hq
  refine wpM_doOpen.mpr (wpM_openLoop hopen ?_ hI)
  intro c' s' r s'' hI' hstep
  cases hverdict : openVerdict r with
  | error e => exact (hend c' s' r s'' hI' hstep (by rw [hverdict]; nofun)).1 e
  | ok v =>
    cases v with
    | none => exact hgrace c' s' r s'' hI' hstep hverdict
    | some reply =>
      obtain ⟨hthrow, hreturn⟩ := hend c' s' r s'' hI' hstep (by rw [hverdict]; nofun)
      -- the reply is decoded a second time, from its beginning
      obtain ⟨hparse, -⟩ := openVerdict_some hverdict
      simp only [Except.bind]
      cases hdec : (openFile dir name share_access create c.clientid_
          (c.open_seqid_ + 1)).decode reply with
      | error e => exact hthrow e
      | ok x =>
        obtain ⟨⟨open_res, fh⟩, rest⟩ := x
        exact hreturn open_res fh (CompoundCall.result_ok.mpr ⟨reply, rest, hparse, hdec⟩)

end wpM

/-! ### READDIR -/

/-- The COMPOUND of one page. -/
def readdirPage (dir : Nfs4Fh) (cookie : UInt64) (cookieverf : Octets 8) :
    CompoundCall ReaddirPage4 where
  tag := []
  ops := encodeFh dir ++ encodeReaddir cookie cookieverf 4096 32768 readdirIds
  numOps := 2
  decode := do
    checkCompoundStatus
    decodePutfhResult
    decodeReaddirResult

/-- The page loop; `all` is what the earlier pages held. -/
def readdirLoop (dir : Nfs4Fh) :
    ℕ → UInt64 → Octets 8 → List Nfs4DirEntry → ClientM Nfs4Client (List Nfs4DirEntry)
  | 0, _, _, _ => ClientM.cut
  | fuel + 1, cookie, cookieverf, all => do
    let page ← onRpc ((readdirPage dir cookie cookieverf).send 0)
    let cookie := page.entries.foldl (fun _ e => e.cookie) cookie
    let all := all ++ page.entries
    if page.eof then return all
    else readdirLoop dir fuel cookie page.cookieverf all

def readdir (fuel : ℕ) (dir : Nfs4Fh) : ClientM Nfs4Client (List Nfs4DirEntry) :=
  readdirLoop dir fuel 0 (Octets.zero 8) []

/-- **The rule of the page loop**: what every page keeps holds when the loop ends. -/
theorem wpM_readdirLoop {S : Type} {step : Step RpcRequest Received S}
    {ok : S → RpcRequest → Prop} {post : Except Exn (List Nfs4DirEntry) → Nfs4Client → S → Prop}
    {I : Nfs4Client → S → Prop} {dir : Nfs4Fh}
    (hpage : ∀ c s cookie cookieverf, I c s →
      ok s (c.request (readdirPage dir cookie cookieverf)) ∧
        ∀ r s', step s (c.request (readdirPage dir cookie cookieverf)) r s' → I c.sent s')
    (hpost : ∀ r c s, I c s → post r c s) :
    ∀ {fuel : ℕ} {cookie : UInt64} {cookieverf : Octets 8} {all : List Nfs4DirEntry}
      {c : Nfs4Client} {s : S}, I c s →
        wpM step ok post (readdirLoop dir fuel cookie cookieverf all) c s
  | 0, _, _, _, _, _, _ => trivial
  | fuel + 1, cookie, cookieverf, all, c, s, hI => by
    rw [readdirLoop, wpM_bind, wpM_onRpc_send]
    obtain ⟨hok, hstep⟩ := hpage c s cookie cookieverf hI
    refine ⟨hok, fun r s' hr => ?_⟩
    have hI' := hstep r s' hr
    -- an exception ends the loop, and so does a last page
    cases (readdirPage dir cookie cookieverf).result r with
    | error e => exact hpost _ _ _ hI'
    | ok page =>
      change wpM step ok post (if page.eof then _ else _) c.sent s'
      split
      · exact hpost _ _ _ hI'
      · exact wpM_readdirLoop hpage hpost hI'

/-! ### The object -/

/-- The public methods. -/
inductive Method
  | file (m : FileMethod)
  | openRead (dir : Nfs4Fh) (name : Bytes)
  | openWrite (dir : Nfs4Fh) (name : Bytes) (create : Bool)
  | readdir (dir : Nfs4Fh)
  | renew
  | setAuthSys (auth : AuthSys)
  | clearAuth

@[reducible] def Method.Result : Method → Type
  | file m => m.Result
  | openRead .. | openWrite .. => Nfs4File
  | readdir .. => List Nfs4DirEntry
  | renew | setAuthSys .. | clearAuth => Unit

def perform (fuel : ℕ) : (m : Method) → ClientM Nfs4Client m.Result
  | .file m => onRpc ((fileCall m).send 0)
  | .openRead dir name => openRead fuel dir name
  | .openWrite dir name create => openWrite fuel dir name create
  | .readdir dir => readdir fuel dir
  | .renew => do
    let c ← ClientM.fields
    onRpc ((renew c.clientid_).send 0)
  | .setAuthSys auth => ClientM.assign fun c => { c with rpc_ := c.rpc_.setAuthSys auth }
  | .clearAuth => ClientM.assign fun c => { c with rpc_ := c.rpc_.clearAuth }

/-- A client as its constructor leaves it, with the clientid 7. -/
def fresh : Nfs4Client := ⟨TcpRpcClient.connect 2049, ⟨[]⟩, 7, 0⟩

end Nfs4Client

end NfsClient
