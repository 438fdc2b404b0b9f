import NfsClient.Lib.SharedObject
import NfsClient.Nfs3.Transparency
import NfsClient.Rpc.Concurrent

/-!
# NFSv3 clients that run at once

Any number of callers, each with an `NFSClient` of its own and so with its own connection and
credential, share one file server. `callers_linearizable` puts three levels together: the system calls
of the clients (`Rpc/Concurrent`), the requests that these carry out, and the methods that the callers
invoke on the file server at hand. However the system calls are interleaved, what the callers see is an
interleaving of whole methods; a method happens between its first and its last system call.

The listings that read page after page are not in it: each page is one request, and between two pages
of one caller another may change the directory.
-/

namespace NfsClient

open Xdr Interaction

namespace Nfs3

/-- An action of one request, which fits under the credential in force, or of none. -/
def Action.Single : Action → Option AuthSys → Prop
  | call c, auth => c.HasRoom auth
  | setAuthSys _, _ | clearAuth, _ => True
  | readdir _ _, _ | readdirplus _ _ _, _ => False

section

variable {τ σ : Type} {srv : Service τ} {fs : FileServer σ} {abs : τ → σ}

/-- A single action is what it is at hand, at the moment of its request. -/
theorem actions_oneRequest (h : OnTheWire srv fs abs) (fuel : ℕ) :
    OneRequest (AnsweredAtOnce srv) RpcRequest.HasRoom (atHand fs fuel) (Action.perform fuel) abs
      (fun auth (c : NFSClient) => c.nfs_conn_.auth_sys_ = auth) Action.Single := by
  rintro act _ ⟨rpc⟩ rfl hsingle
  cases act with
  | call c =>
    refine Or.inr ⟨c.request rpc, fun r => (c.result r, ⟨rpc.bump⟩), ?_, hsingle.message, ?_⟩
    · show (c.perform rpc).bind _ = _
      rw [c.perform_eq]
      rfl
    · rintro t _ _ ⟨rfl, rfl⟩
      obtain ⟨hresult, habs⟩ := call_answered h c rpc t hsingle
      exact ⟨hresult, rfl, habs⟩
  | readdir dir count => exact hsingle.elim
  | readdirplus dir dircount maxcount => exact hsingle.elim
  | setAuthSys auth => exact Or.inl ⟨.ok (), _, ⟨rpc.setAuthSys auth⟩, rfl, rfl, fun _ => rfl⟩
  | clearAuth => exact Or.inl ⟨.ok (), _, ⟨rpc.clearAuth⟩, rfl, rfl, fun _ => rfl⟩

end

/-! ### Many callers -/

variable {ι τ σ : Type}

/-- The clients of callers that begin, each newly connected. -/
def clients (fuel : ℕ) (callers : ι → Strategy Action Action.Outcome) (port : ι → UInt16) (t : τ) :
    Clients ι τ (Dialogue Action Action.Outcome × NFSClient) :=
  .start fuel (fun i => (callers i).dialogue (Action.perform 0) ⟨TcpRpcClient.connect (port i)⟩) t

/-- The clients and the callers of the file server at hand. -/
structure ServeCallers (fuel : ℕ) (abs : τ → σ)
    (w : Clients ι τ (Dialogue Action Action.Outcome × NFSClient))
    (x : Callers ι Action Action.Outcome (Option AuthSys) σ) : Prop where
  /-- The files are the same. -/
  shared : abs w.server = x.shared
  /-- A client with nothing under way has carried out what its caller has invoked, and nothing else. -/
  between : ∀ i, w.channels i = .quiet → ∃ c, w.progs i =
    (ahead (Action.perform 0) (x.callers i) (x.history i) c).expand
      fun q => SysM.exchange (fuel + 1) q.framed
  /-- A client that has ended hands over the dialogue of its caller, who has come to an end too. -/
  done : ∀ i d, w.progs i = .done d → x.callers i = .stop ∧ x.history i = d.1
  not_cut : ∀ i, w.progs i ≠ .cut

/-- **The clients are linearizable.** Callers of one file server, each with a newly connected
`NFSClient`: in every interleaving of the system calls, whatever parts of the bytes these transfer, the
clients do step by step what callers of the file server at hand do that invoke whole methods. Every run
comes to an end, and in none is a client stuck before it has ended. -/
theorem callers_linearizable [DecidableEq ι] [Finite ι] {srv : Service τ} {fs : FileServer σ}
    {abs : τ → σ} (h : OnTheWire srv fs abs) {fuel : ℕ} (hfuel : srv.InFragments fuel)
    (callers : ι → Strategy Action Action.Outcome) (port : ι → UInt16) (t : τ)
    (hfits : ∀ i, (callers i).Keeps (atHand fs 0) Action.Single none) :
    (∃ x, Relation.ReflTransGen (InvokeStep (atHand fs 0))
        ⟨callers, fun _ => [], fun _ => none, abs t⟩ x ∧
      Simulated (Clients.Step srv) (InvokeStep (atHand fs 0)) (ServeCallers fuel abs)
        (clients fuel callers port t) x) ∧
    Acc (fun w' w => Clients.Step srv w w') (clients fuel callers port t) ∧
    ∀ w, Relation.ReflTransGen (Clients.Step srv) (clients fuel callers port t) w →
      ∀ i, (∃ d, w.progs i = .done d) ∨ ∃ w', WiredStep SysStep (Handles srv) i w w' := by
  have hone := actions_oneRequest h 0
  have hasks := asksOnly_of_asks (fun i => hone.dialogue_asks t (callers i)
    (c := ⟨TcpRpcClient.connect (port i)⟩) rfl (hfits i)) t
  -- system calls to requests, and requests to methods
  have hatomic := Clients.simulated hfuel hasks
  obtain ⟨x, hrun, hmethods⟩ := hone.simulated (a := fun _ => none)
    (c := fun i => ⟨TcpRpcClient.connect (port i)⟩) (fun _ => rfl) hfits t
  have hsimulated : Simulated (Clients.Step srv) (InvokeStep (atHand fs 0)) (ServeCallers fuel abs)
      (clients fuel callers port t) x := by
    refine (hatomic.trans hmethods).mono ?_
    rintro w x ⟨y, hsame, hconcluded⟩
    refine ⟨?_, fun i hquiet => ?_, fun i d hdone => ?_, fun i hcut => ?_⟩
    · rw [hsame.server]
      exact hconcluded.shared
    · obtain ⟨c, hleft⟩ := hconcluded.client i
      refine ⟨c, ?_⟩
      rw [hsame.between i hquiet, hleft]
    · exact hconcluded.done i d (hsame.done i d hdone).1
    · exact hconcluded.not_cut i (hsame.cut i hcut)
  refine ⟨⟨x, hrun, hsimulated⟩, Clients.terminates hfuel hasks, fun w hreach i => ?_⟩
  rcases Clients.live hfuel hasks hreach i with hdone | hcut | hstep
  · exact Or.inl hdone
  · obtain ⟨x', -, hnext⟩ := hsimulated.run hreach
    exact absurd hcut (hnext.matches.not_cut i)
  · exact Or.inr hstep

/-! ### Two callers -/

/-- The answers to calls that fit a record, and the echoes, all come in one or two fragments. -/
theorem wireServer_inFragments {fs : FileServer σ}
    (hshort : ∀ auth p a s, (Proc.Res.bytes (fs auth p a s).1).length ≤ 2 ^ 30) :
    (wireServer fs).InFragments 1 := by
  intro s q hroom
  have hpieces : ∀ record : Bytes, record.length < 2 ^ 31 →
      (FramedReply.ofRecord record).fragments.length ≤ 1 := by
    intro record hrecord
    show (pieces fragmentSize record (record.length / fragmentSize)).length ≤ 1
    rw [pieces, List.length_map, List.length_range, fragmentSize]
    omega
  show (wireServer fs |>.answer s q.message).1.fragments.length ≤ 1
  simp only [wireServer]
  split
  · exact hpieces _ hroom
  · next h p a _ =>
    refine hpieces _ ?_
    have hverf : (varOpaque []).length = 4 := rfl
    have hheader : (acceptedHeader h.xid AUTH_NONE []).length = 24 := by
      simp only [acceptedHeader, List.length_append, length_word, hverf]
    have hbody := hshort h.auth p a s
    rw [List.length_append, hheader]
    omega

theorem length_countingFiles (auth : Option AuthSys) (p : Proc) (a : p.Args) (n : ℕ) :
    (countingFiles auth p a n).1.bytes.length ≤ 64 := by
  cases p
  case ACCESS =>
    show (word 0 ++ (word 0 ++ word _)).length ≤ 64
    rw [List.length_append, List.length_append, length_word, length_word]
    omega
  all_goals
    show (Proc.failBytes _ _ (Proc.emptyBody _)).length ≤ 64
    decide

theorem countingFiles_inFragments : (wireServer countingFiles).InFragments 1 := by
  refine wireServer_inFragments fun auth p a n => ?_
  have hbody := length_countingFiles auth p a n
  omega

theorem persistentCaller_keeps : persistentCaller.Keeps (atHand countingFiles 0) Action.Single none := by
  have hnobody : (Call.access ⟨[1]⟩ 63).HasRoom none := by decide
  have huser : (Call.access ⟨[1]⟩ 63).HasRoom (some {}) := by decide
  have hfsstat : (Call.fsstat ⟨[1]⟩).HasRoom (some {}) := by decide
  exact ⟨hnobody, fun _ => ⟨trivial, fun _ => ⟨huser, fun _ => ⟨hfsstat, fun _ => trivial⟩⟩⟩⟩

/-- Two of them at once on the server that counts. -/
theorem persistentCallers_linearizable :
    (∃ x, Relation.ReflTransGen (InvokeStep (atHand countingFiles 0))
        ⟨fun _ : Bool => persistentCaller, fun _ => [], fun _ => none, 0⟩ x ∧
      Simulated (Clients.Step (wireServer countingFiles)) (InvokeStep (atHand countingFiles 0))
        (ServeCallers 1 id) (clients 1 (fun _ => persistentCaller) (fun _ => 2049) 0) x) ∧
    Acc (fun w' w => Clients.Step (wireServer countingFiles) w w')
      (clients 1 (fun _ : Bool => persistentCaller) (fun _ => 2049) 0) ∧
    ∀ w, Relation.ReflTransGen (Clients.Step (wireServer countingFiles))
        (clients 1 (fun _ : Bool => persistentCaller) (fun _ => 2049) 0) w →
      ∀ i, (∃ d, w.progs i = .done d) ∨
        ∃ w', WiredStep SysStep (Handles (wireServer countingFiles)) i w w' :=
  callers_linearizable (wireServer_onTheWire countingFiles) countingFiles_inFragments
    (fun _ => persistentCaller) (fun _ => 2049) 0 fun _ => persistentCaller_keeps

end Nfs3

end NfsClient
