import NfsClient.Framing.Messages
import NfsClient.Lib.RemotePaging
import NfsClient.Listing.Complete
import NfsClient.Nfs3.Facade
import NfsClient.Rpc.Service

/-!
# The NFSv3 client is transparent

A file server (`FileServer`) maps the credential, the procedure and the arguments of a call to a
result, and changes its state on the way. `OnTheWire` says that a server on a connection is such a
file server: what it reads as a call it answers with the result, in an accepted reply cut into
fragments as it likes. Between the two and the caller are the encoders, the record mark, partial
`send()`s, the reassembly on both sides, partial `recv()`s and the decoders, and none of them shows:
a caller of `NFSClient` has exactly the dialogue that it would have with the file server at hand, and
leaves it in the same state (`client_is_transparent`). That includes what fails: a status other than
`NFS3_OK` is an `NfsError` with this status and the name of the procedure.

`wireServer` is the file server of any state and behaviour on the wire, so that none of this is about
a server that there is not.
-/

namespace NfsClient

open Xdr Reader Interaction Paging

namespace Nfs3

/-! ### File servers -/

/-- A result with a status other than `NFS3_OK`. -/
structure Failure (p : Proc) where
  status : UInt32
  status_ne : status ≠ 0
  body : p.Fail

/-- A result of a procedure; a successful one has an encoding. -/
abbrev Proc.Res (p : Proc) : Type := Except (Failure p) { r : p.Ok // p.okFormat.Fits r }

def Proc.Res.bytes {p : Proc} : p.Res → Bytes
  | .ok r => p.okBytes r.1
  | .error f => p.failBytes f.status f.body

/-- What a server with state `σ` does: the result of a call, and the state that the call leaves. -/
abbrev FileServer (σ : Type) : Type := Option AuthSys → (p : Proc) → p.Args → σ → p.Res × σ

/-- `srv` reads calls and answers with the results of `fs`; in state `t` it stands at `abs t`. -/
def OnTheWire {τ σ : Type} (srv : Service τ) (fs : FileServer σ) (abs : τ → σ) : Prop :=
  ∀ (t : τ) (msg : Bytes) (h : CallHeader) (p : Proc) (a : p.Args),
    (Wire.callHeader.pair p.argFormat).read msg = .ok ((h, a), []) →
    h.prog = NFS_PROG → h.vers = NFS_VERS → h.proc = p.code →
    ∃ (flavor : UInt32) (verf : Bytes), verf.length < 2 ^ 32 ∧
      (srv.answer t msg).1.record =
        acceptedHeader h.xid flavor verf ++ Proc.Res.bytes (fs h.auth p a (abs t)).1 ∧
      abs (srv.answer t msg).2 = (fs h.auth p a (abs t)).2

/-! ### The caller's side -/

/-- What a caller does with an `NFSClient`: a call, a listing, or a change of the credential. -/
inductive Action
  | call (c : Call)
  | readdir (dir : Fh3) (count : UInt32)
  | readdirplus (dir : Fh3) (dircount maxcount : UInt32)
  | setAuthSys (auth : AuthSys)
  | clearAuth

namespace Action

def method : Action → NFSClient.Method
  | call c => .call c
  | readdir dir count => .readdir dir count
  | readdirplus dir dircount maxcount => .readdirplus dir dircount maxcount
  | setAuthSys auth => .setAuthSys auth
  | clearAuth => .clearAuth

/-- What the action comes to. -/
@[reducible] def Outcome (a : Action) : Type := Except Exn a.method.Result

def perform (fuel : ℕ) (a : Action) : ClientM NFSClient a.method.Result :=
  NFSClient.perform fuel a.method

end Action

/-- What a caller makes of a result. -/
def Call.reported (c : Call) : c.proc.Res → Except Exn c.Result
  | .ok r => c.outcome r.1
  | .error f => .error (.nfsError f.status c.proc.name)

section

variable {σ : Type} (fs : FileServer σ)

/-- A call at hand, with the credential in force. -/
def served (c : Call) (a : Option AuthSys × σ) : Except Exn c.Result × Option AuthSys × σ :=
  let r := fs a.1 c.proc c.args a.2
  (c.reported r.1, (a.1, r.2))

def readdirPageAtHand (dir : Fh3) (count : UInt32) (cookie : UInt64) (cookieverf : Octets 8)
    (a : Option AuthSys × σ) : Except Exn (Page (Octets 8) DirEntry3) × Option AuthSys × σ :=
  let r := served fs (.readdirPage dir cookie cookieverf count) a
  (r.1.map fun page => ⟨page.entries, page.cookieverf, page.eof⟩, r.2)

def readdirplusPageAtHand (dir : Fh3) (dircount maxcount : UInt32) (cookie : UInt64)
    (cookieverf : Octets 8) (a : Option AuthSys × σ) :
    Except Exn (Page (Octets 8) DirEntryPlus3) × Option AuthSys × σ :=
  let r := served fs (.readdirplusPage dir cookie cookieverf dircount maxcount) a
  (r.1.map fun page => ⟨page.entries, page.cookieverf, page.eof⟩, r.2)

/-- The listings, of at most `fuel` pages, and whether the last of them is the last there is. -/
def readdirAtHand (fuel : ℕ) (dir : Fh3) (count : UInt32) (a : Option AuthSys × σ) :
    Except Exn (List DirEntry3 × Bool) × Option AuthSys × σ :=
  pagesAtHand (readdirPageAtHand fs dir count) DirEntry3.cookie fuel 0 (Octets.zero 8) a

def readdirplusAtHand (fuel : ℕ) (dir : Fh3) (dircount maxcount : UInt32) (a : Option AuthSys × σ) :
    Except Exn (List DirEntryPlus3 × Bool) × Option AuthSys × σ :=
  pagesAtHand (readdirplusPageAtHand fs dir dircount maxcount) DirEntryPlus3.cookie fuel 0
    (Octets.zero 8) a

/-- The file server at hand. -/
def atHand (fuel : ℕ) : Object Action Action.Outcome (Option AuthSys × σ)
  | .call c, a => served fs c a
  | .readdir dir count, a =>
    let r := readdirAtHand fs fuel dir count a
    (r.1.map Prod.fst, r.2)
  | .readdirplus dir dircount maxcount, a =>
    let r := readdirplusAtHand fs fuel dir dircount maxcount a
    (r.1.map Prod.fst, r.2)
  | .setAuthSys auth, a => (.ok (), (some auth, a.2))
  | .clearAuth, a => (.ok (), (none, a.2))

end

/-- The CALL fits the length of a record mark, under the credential `auth`. -/
def Call.HasRoom (c : Call) (auth : Option AuthSys) : Prop :=
  headerSize auth + c.proc.argSize c.args < 2 ^ 31

instance (c : Call) (auth : Option AuthSys) : Decidable (c.HasRoom auth) :=
  inferInstanceAs (Decidable (_ < _))

/-- What an action needs: room for its CALLs, and a listing that comes to an end or fails. -/
def Action.Fits {σ : Type} (fs : FileServer σ) (fuel : ℕ) : Action → Option AuthSys × σ → Prop
  | call c, a => c.HasRoom a.1
  | readdir dir count, a => (Call.readdirPage dir 0 (Octets.zero 8) count).HasRoom a.1 ∧
    ∀ x, (readdirAtHand fs fuel dir count a).1 = .ok x → x.2 = true
  | readdirplus dir dircount maxcount, a =>
    (Call.readdirplusPage dir 0 (Octets.zero 8) dircount maxcount).HasRoom a.1 ∧
      ∀ x, (readdirplusAtHand fs fuel dir dircount maxcount a).1 = .ok x → x.2 = true
  | setAuthSys _, _ | clearAuth, _ => True

/-! ### One call -/

/-- The record of a result is decoded to what the result says. -/
theorem Call.result_of_bytes (c : Call) (r : c.proc.Res) (xid flavor : UInt32) {verf : Bytes}
    (hverf : verf.length < 2 ^ 32) :
    c.result (.ok (acceptedHeader xid flavor verf ++ Proc.Res.bytes r)) = c.reported r := by
  have hparse : Except.bind (.ok (acceptedHeader xid flavor verf ++ Proc.Res.bytes r)) parseReply
      = .ok (Proc.Res.bytes r) := parseReply_accepted xid flavor hverf _
  unfold Call.result
  rw [hparse]
  change (c.decodeReply (Proc.Res.bytes r)).map Prod.fst = _
  cases r with
  | ok r =>
    have hdecode := c.decodeReply_ok r.2 []
    rw [List.append_nil] at hdecode
    change (c.decodeReply (c.proc.okBytes r.1)).map Prod.fst = c.outcome r.1
    rw [hdecode]
    cases c.outcome r.1 <;> rfl
  | error f =>
    have hdecode := c.decodeReply_fail f.status_ne f.body []
    rw [List.append_nil] at hdecode
    change (c.decodeReply (c.proc.failBytes f.status f.body)).map Prod.fst = _
    rw [hdecode]
    rfl

section

variable {τ σ : Type} {srv : Service τ} {fs : FileServer σ} {abs : τ → σ}

/-- The connection has the credential that is in force at hand, and the server stands where the file
server is. -/
structure Linked (abs : τ → σ) (rpc : TcpRpcClient) (t : τ) (a : Option AuthSys × σ) : Prop where
  auth : rpc.auth_sys_ = a.1
  state : abs t = a.2

/-- The server reads what the caller passed, and the caller gets what the file server says. -/
theorem call_answered (h : OnTheWire srv fs abs) (c : Call) (rpc : TcpRpcClient) (t : τ)
    (hfits : c.HasRoom rpc.auth_sys_) :
    c.result (.ok (srv.answer t (c.request rpc).message).1.record)
        = (served fs c (rpc.auth_sys_, abs t)).1 ∧
      abs (srv.answer t (c.request rpc).message).2 = (served fs c (rpc.auth_sys_, abs t)).2.2 := by
  have hread := (Message.readBack_iff (.nfs3 rpc c)).mpr hfits
  obtain ⟨flavor, verf, hverf, hrecord, habs⟩ :=
    h t (c.request rpc).message (c.request rpc).header c.proc c.args hread.call rfl rfl c.number_eq
  refine ⟨?_, habs⟩
  rw [hrecord]
  exact c.result_of_bytes _ _ flavor hverf

/-- The CALL fits the length of a record mark. -/
theorem Call.HasRoom.message {c : Call} {rpc : TcpRpcClient} (h : c.HasRoom rpc.auth_sys_) :
    (c.request rpc).message.length < 2 ^ 31 :=
  (Message.length_message (.nfs3 rpc c)).trans_lt h

/-- **One call** comes to what the file server says. -/
theorem call_ends (h : OnTheWire srv fs abs) (c : Call) {rpc : TcpRpcClient} {t : τ}
    {a : Option AuthSys × σ} (hlinked : Linked abs rpc t a) (hfits : c.HasRoom a.1) :
    ∃ n r t', (Prog.call (c.request rpc) .done).Ends (socketServe srv.receive) Idle callsLeft n t r t' ∧
      c.result r = (served fs c a).1 ∧ Linked abs rpc.bump t' (served fs c a).2 := by
  obtain ⟨auth, s⟩ := a
  obtain ⟨rfl, rfl⟩ := hlinked
  obtain ⟨hresult, habs⟩ := call_answered h c rpc t hfits
  obtain ⟨n, hends⟩ := request_ends hfits.message id t
  exact ⟨n, _, _, hends, hresult, rfl, habs⟩

theorem perform_call_ends (h : OnTheWire srv fs abs) (c : Call) {rpc : TcpRpcClient} {t : τ}
    {a : Option AuthSys × σ} (hlinked : Linked abs rpc t a) (hfits : c.HasRoom a.1) :
    ∃ n t', (c.perform rpc).Ends (socketServe srv.receive) Idle callsLeft n t
        ((served fs c a).1, rpc.bump) t' ∧ Linked abs rpc.bump t' (served fs c a).2 := by
  obtain ⟨n, r, t', hends, hresult, hlinked'⟩ := call_ends h c hlinked hfits
  refine ⟨n + 0, t', ?_, hlinked'⟩
  rw [c.perform_eq, ← hresult]
  exact hends.call (.done _ _)

/-! ### Listings -/

theorem readdir_ends (h : OnTheWire srv fs abs) {fuel : ℕ} {dir : Fh3} {count : UInt32}
    {rpc : TcpRpcClient} {t : τ} {a : Option AuthSys × σ} (hlinked : Linked abs rpc t a)
    (hfits : (Action.readdir dir count).Fits fs fuel a) :
    ∃ n rpc' t', (readdir fuel dir count rpc).Ends (socketServe srv.receive) Idle callsLeft n t
        ((readdirAtHand fs fuel dir count a).1.map Prod.fst, rpc') t' ∧
      Linked abs rpc' t' (readdirAtHand fs fuel dir count a).2 := by
  have hpage : (readdirPager dir count).Reads (socketServe srv.receive) Idle callsLeft
      (readdirPageAtHand fs dir count) fun rpc t a =>
        Linked abs rpc t a ∧ (Call.readdirPage dir 0 (Octets.zero 8) count).HasRoom a.1 := by
    rintro rpc t a cookie cookieverf ⟨hlinked, hroom⟩
    -- the cookie and the verifier take no part in the size
    obtain ⟨n, r, t', hends, hresult, hlinked'⟩ :=
      call_ends h (.readdirPage dir cookie cookieverf count) hlinked hroom
    exact ⟨n, r, t', hends, congrArg (Except.map _) hresult, hlinked', hroom⟩
  obtain ⟨n, rpc', t', hends, hlinked', -⟩ := Pager.loop_ends hpage fuel [] ⟨hlinked, hfits.1⟩ hfits.2
  rw [readdir, readdirLoop_eq]
  exact ⟨n, rpc', t', hends, hlinked'⟩

theorem readdirplus_ends (h : OnTheWire srv fs abs) {fuel : ℕ} {dir : Fh3}
    {dircount maxcount : UInt32} {rpc : TcpRpcClient} {t : τ} {a : Option AuthSys × σ}
    (hlinked : Linked abs rpc t a) (hfits : (Action.readdirplus dir dircount maxcount).Fits fs fuel a) :
    ∃ n rpc' t', (readdirplus fuel dir dircount maxcount rpc).Ends (socketServe srv.receive) Idle
        callsLeft n t ((readdirplusAtHand fs fuel dir dircount maxcount a).1.map Prod.fst, rpc') t' ∧
      Linked abs rpc' t' (readdirplusAtHand fs fuel dir dircount maxcount a).2 := by
  have hpage : (readdirplusPager dir dircount maxcount).Reads (socketServe srv.receive) Idle
      callsLeft (readdirplusPageAtHand fs dir dircount maxcount) fun rpc t a => Linked abs rpc t a ∧
        (Call.readdirplusPage dir 0 (Octets.zero 8) dircount maxcount).HasRoom a.1 := by
    rintro rpc t a cookie cookieverf ⟨hlinked, hroom⟩
    obtain ⟨n, r, t', hends, hresult, hlinked'⟩ :=
      call_ends h (.readdirplusPage dir cookie cookieverf dircount maxcount) hlinked hroom
    exact ⟨n, r, t', hends, congrArg (Except.map _) hresult, hlinked', hroom⟩
  obtain ⟨n, rpc', t', hends, hlinked', -⟩ := Pager.loop_ends hpage fuel [] ⟨hlinked, hfits.1⟩ hfits.2
  rw [readdirplus, readdirplusLoop_eq]
  exact ⟨n, rpc', t', hends, hlinked'⟩

/-- **Every action is transparent.** -/
theorem actions_transparent (h : OnTheWire srv fs abs) (fuel : ℕ) :
    Transparent (socketServe srv.receive) Idle callsLeft (atHand fs fuel) (Action.perform fuel)
      (fun a (c : NFSClient) t => Linked abs c.nfs_conn_ t a) (Action.Fits fs fuel) := by
  rintro act a ⟨rpc⟩ t hlinked hfits
  cases act with
  | call c =>
    obtain ⟨n, t', hends, hlinked'⟩ := perform_call_ends h c hlinked hfits
    exact ⟨n + 0, ⟨rpc.bump⟩, t', hends.bind (.done _ _), hlinked'⟩
  | readdir dir count =>
    obtain ⟨n, rpc', t', hends, hlinked'⟩ := readdir_ends h hlinked hfits
    exact ⟨n + 0, ⟨rpc'⟩, t', hends.bind (.done _ _), hlinked'⟩
  | readdirplus dir dircount maxcount =>
    obtain ⟨n, rpc', t', hends, hlinked'⟩ := readdirplus_ends h hlinked hfits
    exact ⟨n + 0, ⟨rpc'⟩, t', hends.bind (.done _ _), hlinked'⟩
  | setAuthSys auth => exact ⟨0, ⟨rpc.setAuthSys auth⟩, t, .done _ _, rfl, hlinked.state⟩
  | clearAuth => exact ⟨0, ⟨rpc.clearAuth⟩, t, .done _ _, rfl, hlinked.state⟩

end

/-! ### A file server on the wire -/

/-- The procedure with a number. -/
def Proc.ofCode (n : UInt32) : Option Proc :=
  [GETATTR, SETATTR, LOOKUP, ACCESS, READLINK, READ, WRITE, CREATE, MKDIR, SYMLINK, MKNOD, REMOVE,
    RMDIR, RENAME, LINK, READDIR, READDIRPLUS, FSSTAT, FSINFO, PATHCONF, COMMIT].find? (·.code = n)

theorem Proc.ofCode_code (p : Proc) : Proc.ofCode p.code = some p := by
  cases p <;> rfl

/-- What a server can read as a call, and of what procedure. -/
def readCall (msg : Bytes) : Option (CallHeader × (p : Proc) × p.Args) :=
  match Wire.callHeader.read msg with
  | .error _ => none
  | .ok (h, rest) =>
    if h.prog = NFS_PROG ∧ h.vers = NFS_VERS then
      (Proc.ofCode h.proc).bind fun p =>
        match p.argFormat.read rest with
        | .ok (a, []) => some (h, ⟨p, a⟩)
        | _ => none
    else none

theorem readCall_eq {msg : Bytes} {h : CallHeader} {p : Proc} {a : p.Args}
    (hread : (Wire.callHeader.pair p.argFormat).read msg = .ok ((h, a), []))
    (hprog : h.prog = NFS_PROG) (hvers : h.vers = NFS_VERS) (hproc : h.proc = p.code) :
    readCall msg = some (h, ⟨p, a⟩) := by
  obtain ⟨h', rest, hheader, hread⟩ := bind_ok.mp hread
  obtain ⟨a', rest', hargs, hread⟩ := bind_ok.mp hread
  obtain ⟨heq, rfl⟩ := pure_ok.mp hread
  obtain ⟨rfl, rfl⟩ := Prod.mk.inj heq
  unfold readCall
  rw [hheader]
  simp only [hprog, hvers, and_self, if_true, hproc, Proc.ofCode_code, Option.bind_some]
  rw [hargs]

/-- The file server on the wire. What is not a call it echoes. -/
def wireServer {σ : Type} (fs : FileServer σ) : Service σ where
  answer s msg :=
    match readCall msg with
    | none => (.ofRecord msg, s)
    | some (h, ⟨p, a⟩) =>
      let r := fs h.auth p a s
      (.ofRecord (acceptedHeader h.xid AUTH_NONE [] ++ r.1.bytes), r.2)

theorem wireServer_onTheWire {σ : Type} (fs : FileServer σ) : OnTheWire (wireServer fs) fs id := by
  intro s msg h p a hread hprog hvers hproc
  have hcall := readCall_eq hread hprog hvers hproc
  refine ⟨AUTH_NONE, [], by decide, ?_, ?_⟩
  · simp only [wireServer, hcall, FramedReply.record_ofRecord, id]
  · simp only [wireServer, hcall, id]

/-! ### A server that counts -/

/-- A body with no attributes in it. -/
def Proc.emptyBody : (p : Proc) → p.Fail
  | GETATTR => ()
  | LOOKUP | ACCESS | READLINK | READ | READDIR | READDIRPLUS | FSSTAT | FSINFO | PATHCONF => none
  | SETATTR | WRITE | CREATE | MKDIR | SYMLINK | MKNOD | REMOVE | RMDIR | COMMIT => (none, none)
  | RENAME => ((none, none), none, none)
  | LINK => (none, none, none)

/-- A file server that counts its calls. ACCESS grants the count, to users only, and everything else
is `NFS3ERR_NOTSUPP`. -/
def countingFiles : FileServer ℕ := fun auth p _ n =>
  (match p with
    | .ACCESS => .ok ⟨(none, if auth.isSome then UInt32.ofNat n else 0), fits_postOpAttr _, trivial⟩
    | p => .error ⟨10004, by decide, p.emptyBody⟩,
  n + 1)

/-- A caller that asks what it may do, makes itself a user if that is nothing, and asks again. -/
def persistentCaller : Strategy Action Action.Outcome :=
  .invoke (.call (.access ⟨[1]⟩ 63)) fun (granted : Except Exn UInt32) =>
    match granted with
    | .ok 0 => .invoke (.setAuthSys {}) fun _ =>
      .invoke (.call (.access ⟨[1]⟩ 63)) fun _ => .invoke (.call (.fsstat ⟨[1]⟩)) fun _ => .stop
    | _ => .stop

theorem persistentCaller_respects : persistentCaller.Respects (atHand countingFiles 0)
    (Action.Fits countingFiles 0) (none, 0) := by
  have hnobody : (Call.access ⟨[1]⟩ 63).HasRoom none := by decide
  have huser : (Call.access ⟨[1]⟩ 63).HasRoom (some {}) := by decide
  have hfsstat : (Call.fsstat ⟨[1]⟩).HasRoom (some {}) := by decide
  exact ⟨hnobody, trivial, huser, hfsstat, trivial⟩

/-! ### Callers -/

/-- **The client is transparent.** A caller of a newly connected `NFSClient` has the dialogue that it
would have with the file server at hand, and the file server comes to the same state, as soon as the
connection has had enough system calls and whatever part of the bytes each of them has transferred. -/
theorem client_is_transparent {τ σ : Type} {srv : Service τ} {fs : FileServer σ} {abs : τ → σ}
    (h : OnTheWire srv fs abs) (fuel : ℕ) (caller : Strategy Action Action.Outcome) (port : UInt16)
    (t : τ) (hfits : caller.Respects (atHand fs fuel) (Action.Fits fs fuel) (none, abs t)) :
    let direct := caller.direct (atHand fs fuel) (none, abs t)
    ∃ n, ∀ results : List (Option ℕ), none ∉ results → n ≤ results.length →
      ∃ client s', (caller.dialogue (Action.perform fuel) ⟨TcpRpcClient.connect port⟩).run
          (socketServe srv.receive) ⟨⟨[], t⟩, [], results⟩ = (some (direct.1, client), s') ∧
        s'.inbox = [] ∧ s'.peer.pending = [] ∧ abs s'.peer.state = direct.2.2 := by
  intro direct
  obtain ⟨n, hserved⟩ := served_of_transparent (actions_transparent h fuel) caller
    (a := (none, abs t)) (c := ⟨TcpRpcClient.connect port⟩) ⟨rfl, rfl⟩ hfits
  refine ⟨n, fun results hsteady hn => ?_⟩
  obtain ⟨client, t', s', hrun, hidle, hlinked⟩ := hserved results hsteady hn
  refine ⟨client, s', hrun, hidle.inbox, ?_⟩
  rw [hidle.peer]
  exact ⟨rfl, hlinked.state⟩

/-- The second answer is the count, and the third one an exception. -/
theorem persistentCaller_served : ∃ n, ∀ results : List (Option ℕ), none ∉ results →
    n ≤ results.length → ∃ client s',
      (persistentCaller.dialogue (Action.perform 0) ⟨TcpRpcClient.connect 2049⟩).run
          (socketServe (wireServer countingFiles).receive) ⟨⟨[], 0⟩, [], results⟩
        = (some ([⟨.call (.access ⟨[1]⟩ 63), .ok (0 : UInt32)⟩, ⟨.setAuthSys {}, .ok ()⟩,
            ⟨.call (.access ⟨[1]⟩ 63), .ok (1 : UInt32)⟩,
            ⟨.call (.fsstat ⟨[1]⟩), .error (.nfsError 10004 "FSSTAT")⟩], client), s') ∧
      s'.inbox = [] ∧ s'.peer.pending = [] ∧ s'.peer.state = 3 :=
  client_is_transparent (wireServer_onTheWire countingFiles) 0 persistentCaller 2049 0
    persistentCaller_respects

end Nfs3

end NfsClient
