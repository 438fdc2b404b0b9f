import NfsClient.Nfs4.Compound

/-!
# Nfs41Client

`nfs41_client.cpp`. The constructor sets up a session; from then on every COMPOUND goes through
`compound41`, which puts a SEQUENCE in front of the operations of the method and counts the slot's
sequence id up. The decoders of the methods read the result of that SEQUENCE first.
-/

namespace NfsClient

open Xdr Reader Interaction

/-- The fields of `Nfs41Client`. -/
structure Nfs41Client where
  rpc_ : TcpRpcClient
  root_fh_ : Nfs4Fh
  clientid_ : UInt64
  sessionid_ : SessionId41
  slot_seqid_ : UInt32
  open_seqid_ : UInt32

namespace Nfs41Client

/-- The client-owner string, which is also the open-owner. -/
def owner : Bytes := ascii "nfsclient-v41"

/-- A call on `*rpc_`. -/
def onRpc {α : Type} : ClientM TcpRpcClient α → ClientM Nfs41Client α :=
  ClientM.onMember Nfs41Client.rpc_ fun rpc c => { c with rpc_ := rpc }

/-! ### compound41 -/

/-- The operations of a COMPOUND with the SEQUENCE in front. -/
def sequencedOps (sessionid : SessionId41) (slot_seqid : UInt32) (ops_bytes : Bytes) : Bytes :=
  encodeSequence41 sessionid slot_seqid 0 0 false ++ ops_bytes

/-- `slot_seqid_++` happens while the request is built, before anything is sent. -/
def compound41 (tag ops_bytes : Bytes) (num_ops : UInt32) : ClientM Nfs41Client Bytes := do
  let c ← ClientM.fields
  ClientM.assign fun c => { c with slot_seqid_ := c.slot_seqid_ + 1 }
  onRpc (callCompound tag (sequencedOps c.sessionid_ c.slot_seqid_ ops_bytes) (num_ops + 1) 1)

/-- Send a COMPOUND inside the session and decode its reply. -/
def call {α : Type} (q : CompoundCall α) : ClientM Nfs41Client α := do
  let reply ← compound41 q.tag q.ops q.numOps
  ClientM.decode q.decode reply

/-- The request of a COMPOUND inside the session. -/
def request {α : Type} (c : Nfs41Client) (q : CompoundCall α) : RpcRequest :=
  c.rpc_.request NFS4_PROG NFS4_VERS NFS4_PROC_COMPOUND
    (compoundArgs q.tag (sequencedOps c.sessionid_ c.slot_seqid_ q.ops) (q.numOps + 1) 1)

/-- The fields after a COMPOUND inside the session. -/
def sent (c : Nfs41Client) : Nfs41Client :=
  { c with rpc_ := c.rpc_.bump, slot_seqid_ := c.slot_seqid_ + 1 }

section wpM

variable {α S : Type} {step : Step RpcRequest Received S} {ok : S → RpcRequest → Prop}
  {c : Nfs41Client} {s : S}

theorem wpM_compound41 {post : Except Exn Bytes → Nfs41Client → S → Prop} {q : CompoundCall α} :
    wpM step ok post (compound41 q.tag q.ops q.numOps) c s ↔
      ok s (c.request q) ∧ ∀ r s', step s (c.request q) r s' →
        post (r.bind parseReply) c.sent s' := by
  unfold compound41
  rw [wpM_fields_bind, wpM_assign_bind]
  exact wpM_onMember.trans NfsClient.wpM_call

theorem wpM_call {post : Except Exn α → Nfs41Client → S → Prop} {q : CompoundCall α} :
    wpM step ok post (call q) c s ↔
      ok s (c.request q) ∧ ∀ r s', step s (c.request q) r s' → post (q.result r) c.sent s' := by
  unfold call
  rw [wpM_bind, wpM_compound41]
  refine and_congr_right fun _ => forall₃_congr fun r s' _ => ?_
  unfold CompoundCall.result
  cases r.bind parseReply with
  | error e => exact Iff.rfl
  | ok reply => exact wpM_decode

end wpM

/-! ### Constructor -/

def exchangeId (now : UInt64) : CompoundCall ExchangeIdResult where
  tag := ascii "init"
  ops := encodeExchangeId (bootVerifier now) owner
  numOps := 1
  decode := do
    checkCompoundStatus
    decodeExchangeIdResult

def createSession (exid : ExchangeIdResult) : CompoundCall SessionId41 where
  tag := ascii "init"
  ops := encodeCreateSession exid.clientid exid.sequenceid
  numOps := 1
  decode := do
    checkCompoundStatus
    decodeCreateSessionResult

/-- EXCHANGE_ID and CREATE_SESSION, both outside any session. -/
def doBootstrap (now : UInt64) : ClientM TcpRpcClient (UInt64 × SessionId41) := do
  let exid ← (exchangeId now).send 1
  let sid ← (createSession exid).send 1
  return (exid.clientid, sid)

def reclaimComplete : CompoundCall Unit where
  tag := ascii "init"
  ops := encodeReclaimComplete false
  numOps := 1
  decode := do
    checkCompoundStatus
    decodeSequence41Result
    decodeReclaimCompleteResult

def getRootFh : CompoundCall Unit where
  tag := []
  ops := encodePutrootfh ++ encodeGetfh
  numOps := 2
  decode := do
    checkCompoundStatus
    decodeSequence41Result
    decodePutrootfhResult
    let _fh ← decodeGetfhResult

/-- What the constructor does once the session exists. -/
def enterSession : ClientM Nfs41Client Unit := do
  call reclaimComplete
  call getRootFh
  ClientM.assign fun c => { c with root_fh_ := ⟨[]⟩ }

/-- The constructor, at time `now`, with the credentials of its second form if given. -/
def new (now : UInt64) (auth : Option AuthSys) : ClientM Unit Nfs41Client := do
  let rpc ← connectNfs auth
  let ((clientid, sessionid), rpc) ← ClientM.onLocal rpc (doBootstrap now)
  -- the slot of a new session begins at 1
  let c : Nfs41Client :=
    { rpc_ := rpc, root_fh_ := ⟨[]⟩, clientid_ := clientid, sessionid_ := sessionid,
      slot_seqid_ := 1, open_seqid_ := 0 }
  let (_, c) ← ClientM.onLocal c enterSession
  return c

section wpM

variable {S : Type} {step : Step RpcRequest Received S} {ok : S → RpcRequest → Prop} {s : S}

theorem wpM_doBootstrap {post : Except Exn (UInt64 × SessionId41) → TcpRpcClient → S → Prop}
    {now : UInt64} {rpc : TcpRpcClient} :
    wpM step ok post (doBootstrap now) rpc s ↔
      ok s ((exchangeId now).request rpc 1) ∧
        ∀ r s', step s ((exchangeId now).request rpc 1) r s' →
          match (exchangeId now).result r with
          | .error e => post (.error e) rpc.bump s'
          | .ok exid =>
            ok s' ((createSession exid).request rpc.bump 1) ∧
              ∀ r' s'', step s' ((createSession exid).request rpc.bump 1) r' s'' →
                post (((createSession exid).result r').map fun sid => (exid.clientid, sid))
                  rpc.bump.bump s'' := by
  unfold doBootstrap
  rw [wpM_bind, wpM_send]
  refine and_congr_right fun _ => forall₃_congr fun r s' _ => ?_
  -- without a clientid there is no second request
  cases (exchangeId now).result r with
  | error e => exact Iff.rfl
  | ok exid =>
    refine wpM_bind.trans (wpM_send.trans (and_congr_right fun _ =>
      forall₃_congr fun r' s'' _ => ?_))
    cases (createSession exid).result r' <;> exact Iff.rfl

theorem wpM_enterSession {post : Except Exn Unit → Nfs41Client → S → Prop} {c : Nfs41Client} :
    wpM step ok post enterSession c s ↔
      ok s (c.request reclaimComplete) ∧ ∀ r s', step s (c.request reclaimComplete) r s' →
        match reclaimComplete.result r with
        | .error e => post (.error e) c.sent s'
        | .ok _ =>
          ok s' (c.sent.request getRootFh) ∧
            ∀ r' s'', step s' (c.sent.request getRootFh) r' s'' →
              match getRootFh.result r' with
              | .error e => post (.error e) c.sent.sent s''
              | .ok _ => post (.ok ()) { c.sent.sent with root_fh_ := ⟨[]⟩ } s'' := by
  unfold enterSession
  rw [wpM_bind, wpM_call]
  refine and_congr_right fun _ => forall₃_congr fun r s' _ => ?_
  -- the root is asked for only behind a RECLAIM_COMPLETE that has succeeded
  cases reclaimComplete.result r with
  | error e => exact Iff.rfl
  | ok _ =>
    refine wpM_bind.trans (wpM_call.trans (and_congr_right fun _ =>
      forall₃_congr fun r' s'' _ => ?_))
    cases getRootFh.result r' <;> exact Iff.rfl

end wpM

/-! ### Methods that send one COMPOUND -/

def lookup (dir : Nfs4Fh) (name : Bytes) : CompoundCall Nfs4Fh where
  tag := []
  ops := encodeFh dir ++ encodeLookup name ++ encodeGetfh
  numOps := 3
  decode := do
    checkCompoundStatus
    decodeSequence41Result
    decodePutfhResult
    decodeLookupResult
    decodeGetfhResult

def getattr (fh : Nfs4Fh) : CompoundCall Fattr4 where
  tag := []
  ops := encodeFh fh ++ encodeGetattr getattrIds
  numOps := 2
  decode := do
    checkCompoundStatus
    decodeSequence41Result
    decodePutfhResult
    decodeGetattrResult

def access (fh : Nfs4Fh) (mask : UInt32) : CompoundCall UInt32 where
  tag := []
  ops := encodeFh fh ++ encodeAccess mask
  numOps := 2
  decode := do
    checkCompoundStatus
    decodeSequence41Result
    decodePutfhResult
    let r ← decodeAccessResult
    return r.access

def close (f : Nfs4File) : CompoundCall Unit where
  tag := []
  ops := encodeFh f.fh ++ encodeClose f.seqid f.stateid
  numOps := 2
  decode := do
    checkCompoundStatus
    decodeSequence41Result
    decodePutfhResult
    decodeCloseResult

def read (f : Nfs4File) (offset : UInt64) (count : UInt32) : CompoundCall Bytes where
  tag := []
  ops := encodeFh f.fh ++ encodeRead f.stateid offset count
  numOps := 2
  decode := do
    checkCompoundStatus
    decodeSequence41Result
    decodePutfhResult
    decodeReadResult

def write (f : Nfs4File) (offset : UInt64) (stable : Stable4) (data : Bytes) :
    CompoundCall UInt32 where
  tag := []
  ops := encodeFh f.fh ++ encodeWrite f.stateid offset stable data
  numOps := 2
  decode := do
    checkCompoundStatus
    decodeSequence41Result
    decodePutfhResult
    let r ← decodeWriteResult
    return r.count

def commit (f : Nfs4File) (offset : UInt64) (count : UInt32) : CompoundCall (Octets 8) where
  tag := []
  ops := encodeFh f.fh ++ encodeCommit offset count
  numOps := 2
  decode := do
    checkCompoundStatus
    decodeSequence41Result
    decodePutfhResult
    decodeCommitResult

def mkdir (dir : Nfs4Fh) (name : Bytes) (attrs : Sattr4) : CompoundCall Nfs4Fh where
  tag := []
  ops := encodeFh dir ++ encodeCreateDir name attrs ++ encodeGetfh
  numOps := 3
  decode := do
    checkCompoundStatus
    decodeSequence41Result
    decodePutfhResult
    decodeCreateResult
    decodeGetfhResult

def remove (dir : Nfs4Fh) (name : Bytes) : CompoundCall Unit where
  tag := []
  ops := encodeFh dir ++ encodeRemove name
  numOps := 2
  decode := do
    checkCompoundStatus
    decodeSequence41Result
    decodePutfhResult
    decodeRemoveResult

def rename (src_dir : Nfs4Fh) (src_name : Bytes) (dst_dir : Nfs4Fh) (dst_name : Bytes) :
    CompoundCall Unit where
  tag := []
  ops := encodeFh src_dir ++ encodeSavefh ++ encodeFh dst_dir ++ encodeRename src_name dst_name
  numOps := 4
  decode := do
    checkCompoundStatus
    decodeSequence41Result
    decodePutfhResult
    decodeSavefhResult
    decodePutfhResult
    decodeRenameResult

def symlink (dir : Nfs4Fh) (name target : Bytes) (attrs : Sattr4) : CompoundCall Nfs4Fh where
  tag := []
  ops := encodeFh dir ++ encodeCreateSymlink name target attrs ++ encodeGetfh
  numOps := 3
  decode := do
    checkCompoundStatus
    decodeSequence41Result
    decodePutfhResult
    decodeCreateResult
    decodeGetfhResult

def readlink (fh : Nfs4Fh) : CompoundCall Bytes where
  tag := []
  ops := encodeFh fh ++ encodeReadlink
  numOps := 2
  decode := do
    checkCompoundStatus
    decodeSequence41Result
    decodePutfhResult
    decodeReadlinkResult

def setattr (fh : Nfs4Fh) (attrs : Sattr4) : CompoundCall Unit where
  tag := []
  ops := encodeFh fh ++ encodeSetattr Stateid4.anonymous attrs
  numOps := 2
  decode := do
    checkCompoundStatus
    decodeSequence41Result
    decodePutfhResult
    decodeSetattrResult

def fileCall : (m : FileMethod) → CompoundCall m.Result
  | .lookup dir name => lookup dir name
  | .getattr fh => getattr fh
  | .access fh mask => access fh mask
  | .close f => close f
  | .read f offset count => read f offset count
  | .write f offset stable data => write f offset stable data
  | .commit f offset count => commit f offset count
  | .mkdir dir name attrs => mkdir dir name attrs
  | .remove dir name => remove dir name
  | .rename src_dir src_name dst_dir dst_name => rename src_dir src_name dst_dir dst_name
  | .symlink dir name target attrs => symlink dir name target attrs
  | .readlink fh => readlink fh
  | .setattr fh attrs => setattr fh attrs

/-! ### OPEN -/

/-- The COMPOUND of `do_open`. -/
def openFile (dir : Nfs4Fh) (name : Bytes) (share_access : UInt32) (create : Bool)
    (clientid : UInt64) (seqid : UInt32) : CompoundCall (Open4Result × Nfs4Fh) where
  tag := []
  ops := encodeFh dir ++
    (if create then encodeOpenCreate seqid share_access clientid owner name {}
      else encodeOpenNocreate seqid share_access clientid owner name) ++
    encodeGetfh
  numOps := 3
  decode := do
    checkCompoundStatus
    decodeSequence41Result
    decodePutfhResult
    let open_res ← decodeOpenResult
    let fh ← decodeGetfhResult
    return (open_res, fh)

/-- The retry loop of `do_open`. Each retry is a COMPOUND of its own, with the next slot sequence
id. -/
def openLoop {α : Type} (q : CompoundCall α) : ℕ → ClientM Nfs41Client Bytes
  | 0 => ClientM.cut
  | fuel + 1 => do
    let reply ← compound41 q.tag q.ops q.numOps
    match checkCompoundStatus reply with
    | .ok _ => return reply
    | .error (.nfs4Error status op) =>
      if status = NFS4ERR_GRACE then openLoop q fuel else ClientM.throw (.nfs4Error status op)
    | .error e => ClientM.throw e

/-- `++open_seqid_`. -/
def nextOpenSeqid : ClientM Nfs41Client UInt32 := do
  ClientM.assign fun c => { c with open_seqid_ := c.open_seqid_ + 1 }
  let c ← ClientM.fields
  return c.open_seqid_

def doOpen (fuel : ℕ) (dir : Nfs4Fh) (name : Bytes) (share_access : UInt32) (create : Bool) :
    ClientM Nfs41Client Nfs4File := do
  let seqid ← nextOpenSeqid
  let c ← ClientM.fields
  let q := openFile dir name share_access create c.clientid_ seqid
  let reply ← openLoop q fuel
  let (open_res, fh) ← ClientM.decode q.decode reply
  if open_res.rflags &&& OPEN4_RESULT_CONFIRM ≠ 0 then
    -- minor version 1 has no OPEN_CONFIRM
    ClientM.throw
      (.runtimeError "NFSv4.1 server set OPEN4_RESULT_CONFIRM — protocol error")
  else return ⟨fh, open_res.stateid, seqid⟩

def openRead (fuel : ℕ) (dir : Nfs4Fh) (name : Bytes) : ClientM Nfs41Client Nfs4File :=
  doOpen fuel dir name OPEN4_SHARE_ACCESS_READ false

def openWrite (fuel : ℕ) (dir : Nfs4Fh) (name : Bytes) (create : Bool) :
    ClientM Nfs41Client Nfs4File :=
  doOpen fuel dir name OPEN4_SHARE_ACCESS_WRITE create

/-- The fields after `++open_seqid_`. -/
def opened (c : Nfs41Client) : Nfs41Client := { c with open_seqid_ := c.open_seqid_ + 1 }

section wpM

variable {S : Type} {step : Step RpcRequest Received S} {ok : S → RpcRequest → Prop}
  {c : Nfs41Client} {s : S}

theorem wpM_openLoop_succ {α : Type} {post : Except Exn Bytes → Nfs41Client → S → Prop}
    {q : CompoundCall α} {fuel : ℕ} :
    wpM step ok post (openLoop q (fuel + 1)) c s ↔
      ok s (c.request q) ∧ ∀ r s', step s (c.request q) r s' →
        match openVerdict r with
        | .ok (some reply) => post (.ok reply) c.sent s'
        | .ok none => wpM step ok post (openLoop q fuel) c.sent s'
        | .error e => post (.error e) c.sent s' := by
  rw [openLoop, wpM_bind]
  refine wpM_compound41.trans (and_congr_right fun _ => forall₃_congr fun r s' _ => ?_)
  cases hparse : r.bind parseReply with
  | error e => rw [openVerdict_of_error hparse]
  | ok reply =>
    have harms := openVerdict_arms hparse (fun reply => (pure reply : ClientM Nfs41Client Bytes))
      (openLoop q fuel) ClientM.throw
    refine (iff_of_eq (congrArg (fun m => wpM step ok post m c.sent s') harms)).trans ?_
    rcases openVerdict r with e | _ | reply'
    · exact Iff.rfl
    · exact Iff.rfl
    · exact Iff.rfl

/-- **The rule of the retry loop**: what every try keeps holds when the loop ends. -/
theorem wpM_openLoop {α : Type} {post : Except Exn Bytes → Nfs41Client → S → Prop}
    {q : CompoundCall α} {I : Nfs41Client → S → Prop} (hok : ∀ c s, I c s → ok s (c.request q))
    (htry : ∀ c s r s', I c s → step s (c.request q) r s' →
      match openVerdict r with
      | .ok (some reply) => post (.ok reply) c.sent s'
      | .ok none => I c.sent s'
      | .error e => post (.error e) c.sent s') :
    ∀ {fuel : ℕ} {c : Nfs41Client} {s : S}, I c s → wpM step ok post (openLoop q fuel) c s
  | 0, _, _, _ => trivial
  | fuel + 1, c, s, hI => by
    refine wpM_openLoop_succ.mpr ⟨hok c s hI, fun r s' hstep => ?_⟩
    -- the verdict on the try: return, try again, throw
    have h := htry c s r s' hI hstep
    split
    · next heq =>
      rw [heq] at h
      exact h
    · next heq =>
      rw [heq] at h
      exact wpM_openLoop hok htry h
    · next heq =>
      rw [heq] at h
      exact h

theorem wpM_nextOpenSeqid_bind {α : Type} {post : Except Exn α → Nfs41Client → S → Prop}
    {f : UInt32 → ClientM Nfs41Client α} :
    wpM step ok post (nextOpenSeqid >>= f) c s ↔
      wpM step ok post (f (c.open_seqid_ + 1)) c.opened s :=
  wpM_bind.trans Iff.rfl

/-- `do_open`: the retry loop, and no further request. -/
theorem wpM_doOpen {post : Except Exn Nfs4File → Nfs41Client → S → Prop} {fuel : ℕ}
    {dir : Nfs4Fh} {name : Bytes} {share_access : UInt32} {create : Bool} :
    wpM step ok post (doOpen fuel dir name share_access create) c s ↔
      let q := openFile dir name share_access create c.clientid_ (c.open_seqid_ + 1)
      wpM step ok (fun r c' s' =>
        match r.bind fun reply => (q.decode reply).map Prod.fst with
        | .error e => post (.error e) c' s'
        | .ok (open_res, fh) =>
          if open_res.rflags &&& OPEN4_RESULT_CONFIRM ≠ 0 then
            post (.error
              (.runtimeError "NFSv4.1 server set OPEN4_RESULT_CONFIRM — protocol error")) c' s'
          else post (.ok ⟨fh, open_res.stateid, c.open_seqid_ + 1⟩) c' s')
        (openLoop q fuel) c.opened s := by
  unfold doOpen
  rw [wpM_nextOpenSeqid_bind, wpM_fields_bind, wpM_bind]
  refine Iff.of_eq (congrArg (fun p => wpM step ok p _ c.opened s) ?_)
  funext r c' s'
  cases r with
  | error e => rfl
  | ok reply =>
    refine propext (wpM_bind.trans (wpM_decode.trans ?_))
    -- the counter has been moved and the clientid has not
    have hclientid : c.opened.clientid_ = c.clientid_ := rfl
    simp only [hclientid, Except.bind]
    cases (openFile dir name share_access create c.clientid_ (c.open_seqid_ + 1)).decode reply with
    | error e => exact Iff.rfl
    | ok x =>
      obtain ⟨⟨open_res, fh⟩, rest⟩ := x
      simp only [Except.map]
      split <;> exact Iff.rfl

/-- **The rule of `do_open`, exit by exit.** `I` holds whenever the OPEN is sent. An answer other than
GRACE ends the loop: with the file, or with an exception, also where it asks for an OPEN_CONFIRM. -/
theorem wpM_doOpen_exits {post : Except Exn Nfs4File → Nfs41Client → S → Prop}
    {I : Nfs41Client → S → Prop} {fuel : ℕ} {dir : Nfs4Fh} {name : Bytes} {share_access : UInt32}
    {create : Bool} {q : CompoundCall (Open4Result × Nfs4Fh)}
    (hq : q = openFile dir name share_access create c.clientid_ (c.open_seqid_ + 1))
    (hopen : ∀ c' s', I c' s' → ok s' (c'.request q))
    (hgrace : ∀ c' s' r s'', I c' s' → step s' (c'.request q) r s'' → openVerdict r = .ok none →
      I c'.sent s'')
    (hend : ∀ c' s' r s'', I c' s' → step s' (c'.request q) r s'' → openVerdict r ≠ .ok none →
      (∀ e, post (.error e) c'.sent s'') ∧
      ∀ open_res fh, q.result r = .ok (open_res, fh) →
        open_res.rflags &&& OPEN4_RESULT_CONFIRM = 0 →
          post (.ok ⟨fh, open_res.stateid, c.open_seqid_ + 1⟩) c'.sent s'')
    (hI : I c.opened s) : wpM step ok post (doOpen fuel dir name share_access create) c s := by
  subst hq
  refine wpM_doOpen.mpr (wpM_openLoop hopen ?_ hI)
  intro c' s' r s'' hI' hstep
  cases hverdict : openVerdict r with
  | error e => exact (hend c' s' r s'' hI' hstep (by rw [hverdict]; nofun)).1 e
  | ok v =>
    cases v with
    | none => exact hgrace c' s' r s'' hI' hstep hverdict
    | some reply =>
      obtain ⟨hthrow, hreturn⟩ := hend c' s' r s'' hI' hstep (by rw [hverdict]; nofun)
      -- the reply is decoded a second time, from its beginning
      obtain ⟨hparse, -⟩ := openVerdict_some hverdict
      simp only [Except.bind]
      cases hdec : (openFile dir name share_access create c.clientid_
          (c.open_seqid_ + 1)).decode reply with
      | error e => exact hthrow e
      | ok x =>
        obtain ⟨⟨open_res, fh⟩, rest⟩ := x
        change if open_res.rflags &&& OPEN4_RESULT_CONFIRM ≠ 0 then _ else _
        split
        · exact hthrow _
        · next hflags =>
          exact hreturn open_res fh (CompoundCall.result_ok.mpr ⟨reply, rest, hparse, hdec⟩)
            (not_not.mp hflags)

end wpM

/-! ### READDIR -/

/-- The COMPOUND of one page. -/
def readdirPage (dir : Nfs4Fh) (cookie : UInt64) (cookieverf : Octets 8) :
    CompoundCall ReaddirPage4 where
  tag := []
  ops := encodeFh dir ++ encodeReaddir cookie cookieverf 4096 32768 readdirIds
  numOps := 2
  decode := do
    checkCompoundStatus
    decodeSequence41Result
    decodePutfhResult
    decodeReaddirResult

/-- The page loop; `all` is what the earlier pages held. -/
def readdirLoop (dir : Nfs4Fh) :
    ℕ → UInt64 → Octets 8 → List Nfs4DirEntry → ClientM Nfs41Client (List Nfs4DirEntry)
  | 0, _, _, _ => ClientM.cut
  | fuel + 1, cookie, cookieverf, all => do
    let page ← call (readdirPage dir cookie cookieverf)
    let cookie := page.entries.foldl (fun _ e => e.cookie) cookie
    let all := all ++ page.entries
    if page.eof then return all
    else readdirLoop dir fuel cookie page.cookieverf all

def readdir (fuel : ℕ) (dir : Nfs4Fh) : ClientM Nfs41Client (List Nfs4DirEntry) :=
  readdirLoop dir fuel 0 (Octets.zero 8) []

/-- **The rule of the page loop**: what every page keeps holds when the loop ends. -/
theorem wpM_readdirLoop {S : Type} {step : Step RpcRequest Received S}
    {ok : S → RpcRequest → Prop} {post : Except Exn (List Nfs4DirEntry) → Nfs41Client → S → Prop}
    {I : Nfs41Client → S → Prop} {dir : Nfs4Fh}
    (hpage : ∀ c s cookie cookieverf, I c s →
      ok s (c.request (readdirPage dir cookie cookieverf)) ∧
        ∀ r s', step s (c.request (readdirPage dir cookie cookieverf)) r s' → I c.sent s')
    (hpost : ∀ r c s, I c s → post r c s) :
    ∀ {fuel : ℕ} {cookie : UInt64} {cookieverf : Octets 8} {all : List Nfs4DirEntry}
      {c : Nfs41Client} {s : S}, I c s →
        wpM step ok post (readdirLoop dir fuel cookie cookieverf all) c s
  | 0, _, _, _, _, _, _ => trivial
  | fuel + 1, cookie, cookieverf, all, c, s, hI => by
    rw [readdirLoop, wpM_bind, wpM_call]
    obtain ⟨hok, hstep⟩ := hpage c s cookie cookieverf hI
    refine ⟨hok, fun r s' hr => ?_⟩
    have hI' := hstep r s' hr
    -- an exception ends the loop, and so does a last page
    cases (readdirPage dir cookie cookieverf).result r with
    | error e => exact hpost _ _ _ hI'
    | ok page =>
      change wpM step ok post (if page.eof then _ else _) c.sent s'
      split
      · exact hpost _ _ _ hI'
      · exact wpM_readdirLoop hpage hpost hI'

/-! ### The object -/

/-- The public methods. -/
inductive Method
  | file (m : FileMethod)
  | openRead (dir : Nfs4Fh) (name : Bytes)
  | openWrite (dir : Nfs4Fh) (name : Bytes) (create : Bool)
  | readdir (dir : Nfs4Fh)
  | setAuthSys (auth : AuthSys)
  | clearAuth

@[reducible] def Method.Result : Method → Type
  | file m => m.Result
  | openRead .. | openWrite .. => Nfs4File
  | readdir .. => List Nfs4DirEntry
  | setAuthSys .. | clearAuth => Unit

def perform (fuel : ℕ) : (m : Method) → ClientM Nfs41Client m.Result
  | .file m => call (fileCall m)
  | .openRead dir name => openRead fuel dir name
  | .openWrite dir name create => openWrite fuel dir name create
  | .readdir dir => readdir fuel dir
  | .setAuthSys auth => ClientM.assign fun c => { c with rpc_ := c.rpc_.setAuthSys auth }
  | .clearAuth => ClientM.assign fun c => { c with rpc_ := c.rpc_.clearAuth }

/-- A client as its constructor leaves it, after two COMPOUNDs inside the session. -/
def fresh : Nfs41Client := ⟨TcpRpcClient.connect 2049, ⟨[]⟩, 7, Octets.zero 16, 3, 0⟩

end Nfs41Client

end NfsClient
