import NfsClient.Listing.Loops

/-!
# NFSClient

The facade of NFSv3 (nfs_client.cpp) and the credential that its requests carry. The client holds one
connection to the NFS daemon; `set_auth_sys` and `clear_auth` are assignments to a field of it. The
three operations of the MOUNT protocol do not use this connection: each opens one to the portmapper
and one to the mount daemon, as the constructor opens one to the portmapper, and drops them with the
answer.

A run (`Run`) is any sequence of operations on a client, with whatever replies, down to single
requests. In every run the requests to the NFS daemon carry the credential that is in force, which is
that of the last of the two setters (`credentials_follow_the_caller`); the requests of the MOUNT
operations carry none. The invariant of a run is about what is left of the operation under way: it
sends what it may send, and leaves the client with the credential in force (`Run.inv`).
-/

namespace NfsClient

open Xdr Reader Interaction Paging

/-- The fields of `NFSClient`. All that is sent goes to the one `host_`, which is left out. -/
structure NFSClient where
  nfs_conn_ : TcpRpcClient
  deriving DecidableEq, Repr

namespace NFSClient

/-- The constructor. -/
def new : ClientM Unit NFSClient := do
  let port ← getport Nfs3.NFS_PROG Nfs3.NFS_VERS
  return ⟨TcpRpcClient.connect port⟩

/-- An operation. `call` is any function of `Nfs3.Call`, `create` takes all three modes. -/
inductive Method
  | call (c : Nfs3.Call)
  | create (dir : Fh3) (name : Bytes) (mode : CreateMode3) (attrs : Sattr3)
  | readdir (dir : Fh3) (count : UInt32)
  | readdirplus (dir : Fh3) (dircount maxcount : UInt32)
  | mount (export_path : Bytes)
  | umnt (export_path : Bytes)
  | exportList
  | setAuthSys (auth : AuthSys)
  | clearAuth

@[reducible] def Method.Result : Method → Type
  | call c => c.Result
  | create .. | mount .. => Fh3
  | readdir .. => List DirEntry3
  | readdirplus .. => List DirEntryPlus3
  | exportList => List ExportEntry
  | umnt .. | setAuthSys .. | clearAuth => Unit

/-- A function that is passed `*nfs_conn_`. -/
def onConn {α : Type} (m : ClientM TcpRpcClient α) : ClientM NFSClient α :=
  ClientM.onMember nfs_conn_ (fun rpc c => { c with nfs_conn_ := rpc }) m

/-- A function that is passed `host_`. -/
def onHost {α : Type} (m : ClientM Unit α) : ClientM NFSClient α :=
  ClientM.onMember (fun _ => ()) (fun _ c => c) m

def create (dir : Fh3) (name : Bytes) (mode : CreateMode3) (attrs : Sattr3) :
    ClientM NFSClient Fh3 := onConn (Nfs3.create dir name mode attrs)

def setAuthSys (auth : AuthSys) : ClientM NFSClient Unit :=
  ClientM.assign fun c => { c with nfs_conn_ := c.nfs_conn_.setAuthSys auth }

def clearAuth : ClientM NFSClient Unit :=
  ClientM.assign fun c => { c with nfs_conn_ := c.nfs_conn_.clearAuth }

def perform (fuel : ℕ) : (m : Method) → ClientM NFSClient m.Result
  | .call c => onConn c.perform
  | .create dir name mode attrs => create dir name mode attrs
  | .readdir dir count => onConn (Nfs3.readdir fuel dir count)
  | .readdirplus dir dircount maxcount => onConn (Nfs3.readdirplus fuel dir dircount maxcount)
  | .mount export_path => onHost (Nfs3.mnt export_path)
  | .umnt export_path => onHost (Nfs3.umnt export_path)
  | .exportList => onHost Nfs3.exportList
  | .setAuthSys auth => setAuthSys auth
  | .clearAuth => clearAuth

/-- A function that makes one call is one request whose response is decoded. -/
theorem onConn_procedure_eq {α : Type} (proc : UInt32) (args : Bytes) (d : XdrDecoder α)
    (c : NFSClient) :
    onConn (Nfs3.procedure proc args d) c =
      .call (c.nfs_conn_.request Nfs3.NFS_PROG Nfs3.NFS_VERS proc args) fun r =>
        .done ((r.bind parseReply).bind fun reply => (d reply).map Prod.fst,
          ⟨c.nfs_conn_.bump⟩) := by
  have hproc : Nfs3.procedure proc args d c.nfs_conn_ = _ := bind_decode_eq rfl
  change (Nfs3.procedure proc args d c.nfs_conn_).bind _ = _
  rw [hproc]
  rfl

/-! ### Credentials -/

/-- The operations of the MOUNT protocol. -/
def Method.isMount : Method → Bool
  | mount .. | umnt .. | exportList => true
  | _ => false

/-- The credential in force after an operation, by the one before it. -/
def Method.leaves : Method → Option AuthSys → Option AuthSys
  | setAuthSys auth, _ => some auth
  | clearAuth, _ => none
  | _, auth => auth

/-- The credential in force after the operations `ops`, the last one first. -/
def inForce (ops : List Method) : Option AuthSys := ops.foldr Method.leaves none

/-- To the NFS daemon, with the credential `auth`. -/
def ToNfsd (auth : Option AuthSys) (q : RpcRequest) : Prop :=
  q.prog = Nfs3.NFS_PROG ∧ q.auth = auth

/-- To the portmapper or the mount daemon, with no credential. -/
def ToMountd (q : RpcRequest) : Prop :=
  (q.prog = PMAP_PROG ∨ q.prog = Nfs3.MOUNT_PROG) ∧ q.auth = none

/-- A request that `m` may send while `auth` is in force. -/
def Method.Carries (m : Method) (auth : Option AuthSys) (q : RpcRequest) : Prop :=
  if m.isMount then ToMountd q else ToNfsd auth q

/-! ### Runs -/

/-- The operations invoked so far with the requests that they have sent, the last ones first. -/
abbrev Log : Type := List (Method × List RpcRequest)

/-- A run of a client, from its construction on: any operations in any order, each begun when the one
before has ended, with any replies. Beside the log it has what is left of the operation under way. -/
inductive Run (fuel : ℕ) : Log → Prog RpcRequest Received NFSClient → Prop
  | constructed {c : NFSClient} {tr : List (RpcRequest × Received)} {h : List Received}
      (htr : Trace anyAnswer (new ()) [] tr (.done (.ok c, ())) h) : Run fuel [] (.done c)
  | invoke {log : Log} {c : NFSClient} (hrun : Run fuel log (.done c)) (m : Method) :
      Run fuel ((m, []) :: log) ((perform fuel m c).bind fun rc => .done rc.2)
  | exchange {log : Log} {m : Method} {qs : List RpcRequest} {q : RpcRequest}
      {k : Received → Prog RpcRequest Received NFSClient}
      (hrun : Run fuel ((m, qs) :: log) (.call q k)) (r : Received) :
      Run fuel ((m, q :: qs) :: log) (k r)

/-- The credential in force when the operations of a log have ended. -/
def Log.inForce (log : Log) : Option AuthSys := NFSClient.inForce (log.map Prod.fst)

/-- Every request of the log has the property `P`, given its operation and the credential in force
when that began. -/
def Log.Satisfies (log : Log) (P : Method → Option AuthSys → RpcRequest → Prop) : Prop :=
  ∀ later m qs earlier, log = later ++ (m, qs) :: earlier →
    ∀ q ∈ qs, P m (Log.inForce earlier) q

section Log

variable {P : Method → Option AuthSys → RpcRequest → Prop} {log : Log} {m : Method}
  {qs : List RpcRequest}

theorem Log.satisfies_nil : Log.Satisfies [] P := by
  intro later m qs earlier heq
  exact absurd heq.symm (List.append_ne_nil_of_right_ne_nil later (List.cons_ne_nil _ _))

theorem Log.satisfies_cons :
    Log.Satisfies ((m, qs) :: log) P ↔ (∀ q ∈ qs, P m log.inForce q) ∧ log.Satisfies P := by
  constructor
  · intro h
    refine ⟨h [] m qs log rfl, fun later m' qs' earlier heq => ?_⟩
    exact h ((m, qs) :: later) m' qs' earlier (by rw [heq]; rfl)
  · rintro ⟨hlast, hlog⟩ later m' qs' earlier heq
    cases later with
    | nil =>
      obtain ⟨hop, rfl⟩ := List.cons.inj heq
      obtain ⟨rfl, rfl⟩ := Prod.mk.inj hop
      exact hlast
    | cons x later =>
      obtain ⟨-, rfl⟩ := List.cons.inj heq
      exact hlog later m' qs' earlier rfl

end Log

/-! ### What an operation sends and leaves -/

section

variable {S α : Type} {step : Step RpcRequest Received S} {s : S} {c : NFSClient}

/-- What holds of the client after an operation that leaves the credential `auth`. -/
def Leaves (auth : Option AuthSys) (_ : Except Exn α) (c : NFSClient) (_ : S) : Prop :=
  c.nfs_conn_.auth_sys_ = auth

/-- A call over the connection does not change its credential. -/
theorem wpM_onConn_procedure {proc : UInt32} {args : Bytes} {d : XdrDecoder α} :
    wpM step (fun _ q => ToNfsd c.nfs_conn_.auth_sys_ q) (Leaves c.nfs_conn_.auth_sys_)
      (onConn (Nfs3.procedure proc args d)) c s := by
  refine wpM_onMember.mpr (wpM_bind.mpr (wpM_call.mpr ⟨⟨rfl, rfl⟩, fun r s' _ => ?_⟩))
  cases r.bind parseReply with
  | error e => exact rfl
  | ok reply => exact wpM_decode.mpr rfl

/-- Nor does a page loop. -/
theorem wpM_onConn_loop {κ ν ε : Type} {P : Pager RpcRequest Received TcpRpcClient κ ν ε Exn}
    (hrequest : ∀ rpc k v, ToNfsd rpc.auth_sys_ (P.request rpc k v))
    (hsent : ∀ rpc, (P.sent rpc).auth_sys_ = rpc.auth_sys_) {fuel : ℕ} {k : κ} {v : ν}
    {all : List ε} :
    wpM step (fun _ q => ToNfsd c.nfs_conn_.auth_sys_ q) (Leaves c.nfs_conn_.auth_sys_)
      (onConn (P.loop fuel k v all)) c s := by
  refine wpM_onMember.mpr (P.wp_loop (I := fun rpc _ => rpc.auth_sys_ = c.nfs_conn_.auth_sys_)
    (fun rpc s k v h => ?_) (fun _ _ _ h => h) rfl)
  refine ⟨h ▸ hrequest rpc k v, fun r s' _ => ?_⟩
  cases P.page r with
  | error e => exact (hsent rpc).trans h
  | ok page => exact (hsent rpc).trans h

/-- A function of the MOUNT protocol does not touch the connection. -/
theorem wpM_onHost {m : ClientM Unit α}
    (h : wpM step (fun _ q => ToMountd q) (fun _ _ _ => True) m () s) :
    wpM step (fun _ q => ToMountd q) (Leaves c.nfs_conn_.auth_sys_) (onHost m) c s :=
  wpM_onMember.mpr (wpM_mono (fun _ _ _ _ => rfl) h)

theorem toMountd_getport (prog vers : UInt32) : ToMountd (getportRequest prog vers) :=
  ⟨Or.inl rfl, rfl⟩

theorem toMountd_call (proc : UInt32) (args : Bytes) (port : UInt16) :
    ToMountd ((TcpRpcClient.connect port).request Nfs3.MOUNT_PROG Nfs3.MOUNT_VERS proc args) :=
  ⟨Or.inr rfl, rfl⟩

/-- **One operation**: it sends what it may send, and leaves the credential that it is to leave. -/
theorem wpM_perform (fuel : ℕ) (m : Method) :
    wpM step (fun _ q => m.Carries c.nfs_conn_.auth_sys_ q) (Leaves (m.leaves c.nfs_conn_.auth_sys_))
      (perform fuel m) c s := by
  cases m with
  | call c' => exact wpM_onConn_procedure
  | create dir name mode attrs => exact wpM_onConn_procedure
  | readdir dir count =>
    -- the pages go through one connection, with the credential it has
    have heq : Nfs3.readdir fuel dir count
        = (Nfs3.readdirPager dir count).loop fuel 0 (Octets.zero 8) [] :=
      funext (Nfs3.readdirLoop_eq dir count fuel 0 (Octets.zero 8) [])
    change wpM _ _ _ (onConn (Nfs3.readdir fuel dir count)) c s
    rw [heq]
    exact wpM_onConn_loop (fun _ _ _ => ⟨rfl, rfl⟩) fun _ => rfl
  | readdirplus dir dircount maxcount =>
    have heq : Nfs3.readdirplus fuel dir dircount maxcount
        = (Nfs3.readdirplusPager dir dircount maxcount).loop fuel 0 (Octets.zero 8) [] :=
      funext (Nfs3.readdirplusLoop_eq dir dircount maxcount fuel 0 (Octets.zero 8) [])
    change wpM _ _ _ (onConn (Nfs3.readdirplus fuel dir dircount maxcount)) c s
    rw [heq]
    exact wpM_onConn_loop (fun _ _ _ => ⟨rfl, rfl⟩) fun _ => rfl
  | mount export_path => exact wpM_onHost (Nfs3.wpM_mnt (toMountd_getport _ _) (toMountd_call _ _))
  | umnt export_path => exact wpM_onHost (Nfs3.wpM_umnt (toMountd_getport _ _) (toMountd_call _ _))
  | exportList => exact wpM_onHost (Nfs3.wpM_exportList (toMountd_getport _ _) (toMountd_call _ _))
  | setAuthSys auth => exact rfl
  | clearAuth => exact rfl

/-- The constructor asks the portmapper, and leaves a client with no credential. -/
theorem wpM_new : wpM step (fun _ q => ToMountd q)
    (fun r _ _ => ∀ c, r = .ok c → c.nfs_conn_.auth_sys_ = none) new () s := by
  refine wpM_bind.mpr (wpM_getport (toMountd_getport _ _) fun r s' _ port => ?_)
  cases port with
  | error e =>
    intro c hc
    cases hc
  | ok port =>
    intro c hc
    cases hc
    rfl

end

/-! ### What a run sends -/

/-- The environment that answers anything. -/
def anything : Step RpcRequest Received Unit := fun _ _ _ _ => True

/-- What the operation under way may send. -/
def Log.MaySend : Log → RpcRequest → Prop
  | [], _ => False
  | (m, _) :: earlier, q => m.Carries (Log.inForce earlier) q

/-- **The invariant of a run**: what has been sent is right, and what is left of the operation under
way sends what it may send and leaves the client with the credential in force. -/
theorem Run.inv {fuel : ℕ} {log : Log} {p : Prog RpcRequest Received NFSClient}
    (h : Run fuel log p) :
    log.Satisfies Method.Carries ∧
      wp anything (fun _ q => log.MaySend q) (fun c _ => c.nfs_conn_.auth_sys_ = log.inForce) p () := by
  induction h with
  | constructed htr => exact ⟨Log.satisfies_nil, (wp_trace htr wpM_new) _ rfl⟩
  | @invoke log c hrun m ih =>
    obtain ⟨hlog, hc⟩ := ih
    refine ⟨Log.satisfies_cons.mpr ⟨fun q hq => absurd hq List.not_mem_nil, hlog⟩, ?_⟩
    -- the operation begins under the credential that the earlier ones left
    have hm : wpM anything (fun _ q => m.Carries c.nfs_conn_.auth_sys_ q)
        (Leaves (m.leaves c.nfs_conn_.auth_sys_)) (perform fuel m) c () := wpM_perform fuel m
    rw [show c.nfs_conn_.auth_sys_ = log.inForce from hc] at hm
    exact wp_bind.mpr hm
  | @exchange log m qs q k hrun r ih =>
    obtain ⟨hlog, hq, hk⟩ := ih
    obtain ⟨hqs, hearlier⟩ := Log.satisfies_cons.mp hlog
    refine ⟨Log.satisfies_cons.mpr ⟨fun q' hq' => ?_, hearlier⟩, hk r () trivial⟩
    rcases List.mem_cons.mp hq' with rfl | hq'
    · exact hq
    · exact hqs q' hq'

/-- **Credentials follow the caller** on the connection to the NFS daemon. In every run, each request of
a file operation carries the credential that the last of the setters before it left; the requests of
the MOUNT operations, and that of the constructor, go to other daemons and carry none. -/
theorem credentials_follow_the_caller (fuel : ℕ) :
    (new ()).Sends (fun _ q => ToMountd q) [] ∧
    ∀ (log : Log) (p : Prog RpcRequest Received NFSClient), Run fuel log p →
      log.Satisfies fun m auth q => if m.isMount then ToMountd q else ToNfsd auth q :=
  ⟨ClientM.sends_iff.mpr (wpM_mono (fun _ _ _ _ => trivial) wpM_new), fun _ _ h => h.inv.1⟩

/-! ### A run with a mount -/

/-- The portmapper answers that the port is 2049. -/
def portReply : Bytes := acceptedHeader 1 0 [] ++ putUint32 2049

theorem run_constructed : Run 0 [] (.done ⟨TcpRpcClient.connect 2049⟩) := by
  have htr : Trace anyAnswer (new ()) []
      [(getportRequest Nfs3.NFS_PROG Nfs3.NFS_VERS, .ok portReply)]
      (.done (.ok ⟨TcpRpcClient.connect 2049⟩, ())) [.ok portReply] := .call rfl (.refl _ _)
  exact .constructed htr

/-- The credential of the user 1000. -/
def user : AuthSys := { uid := 1000, gid := 1000 }

/-- The credential is set, a GETATTR is sent and fails, and a mount asks for the port of the mount
daemon. -/
def mountLog : Log :=
  [(.mount (ascii "/"), [getportRequest Nfs3.MOUNT_PROG Nfs3.MOUNT_VERS]),
    (.call (.getattr ⟨[1]⟩),
      [(Nfs3.Call.getattr ⟨[1]⟩).request ((TcpRpcClient.connect 2049).setAuthSys user)]),
    (.setAuthSys user, [])]

theorem run_mountLog : ∃ p, Run 0 mountLog p := by
  have hset := run_constructed.invoke (.setAuthSys user)
  have hgetattr := (hset.invoke (.call (.getattr ⟨[1]⟩))).exchange (.error (.runtimeError ""))
  exact ⟨_, (hgetattr.invoke (.mount (ascii "/"))).exchange (.ok portReply)⟩

theorem mountLog_credentials : mountLog.Satisfies
    fun m auth q => if m.isMount then ToMountd q else ToNfsd auth q := by
  obtain ⟨p, hrun⟩ := run_mountLog
  exact (credentials_follow_the_caller 0).2 mountLog p hrun

/-- The mount goes out as nobody, after the caller has set a credential. -/
theorem mount_without_credential :
    ¬ ∀ (fuel : ℕ) (log : Log) (p : Prog RpcRequest Received NFSClient), Run fuel log p →
      log.Satisfies fun _ auth q => q.auth = auth := by
  intro hclaim
  obtain ⟨p, hrun⟩ := run_mountLog
  have hmount := hclaim 0 mountLog p hrun [] _ _ _ rfl _ List.mem_cons_self
  exact absurd hmount (by decide)

end NFSClient

end NfsClient
