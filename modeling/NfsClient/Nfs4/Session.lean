import NfsClient.Nfs4.Replies
import NfsClient.Nfs4.Requests

/-!
# The session of an Nfs41Client

A server of RFC 8881, as far as it decides which request it takes next (`SessionState`): before
EXCHANGE_ID, between EXCHANGE_ID and CREATE_SESSION, and inside the session, where the one slot
takes a COMPOUND only if it begins with a SEQUENCE for this session whose id is the last one plus
one. It answers EXCHANGE_ID and CREATE_SESSION with any conforming replies, and everything inside
the session with anything at all.

`session_run` is the run statement: whatever the caller does with the client, the server takes
every request. It rests on one fact about the methods, `wpM_perform`: all they do with the slot is
to call `compound41`. So the invariant between the fields of the client and the slot has to be
checked for `compound41` alone (`InStep.sent`).
-/

namespace NfsClient

open Xdr Reader Interaction

namespace Nfs41Client

/-! ### Every method goes through compound41 -/

section Perform

variable {S : Type} {step : Step RpcRequest Received S} {ok : S → RpcRequest → Prop}
  {I : Nfs41Client → S → Prop}

/-- **The rule of the methods**: what every COMPOUND inside the session keeps, every method keeps,
if it does not depend on the other fields. -/
theorem wpM_perform
    (hframe : ∀ c c' s, c'.sessionid_ = c.sessionid_ → c'.slot_seqid_ = c.slot_seqid_ →
      I c s → I c' s)
    (hsent : ∀ {α : Type} {q : CompoundCall α} {ops : List ArgOp}, q.Announces ops → q.tag = [] →
      ∀ c s, I c s → ok s (c.request q) ∧ ∀ r s', step s (c.request q) r s' → I c.sent s')
    (fuel : ℕ) (m : Method) {c : Nfs41Client} {s : S} (hI : I c s) :
    wpM step ok (fun _ c' s' => I c' s') (perform fuel m) c s := by
  -- every try of an OPEN takes a sequence id, also one that is answered with GRACE
  have hopen : ∀ dir name share_access create,
      wpM step ok (fun _ c' s' => I c' s') (doOpen fuel dir name share_access create) c s := by
    intro dir name share_access create
    have hq := openFile_announces dir name share_access create c.clientid_ (c.open_seqid_ + 1)
    have hnext : ∀ c' s' r s'', I c' s' → step s' (c'.request _) r s'' → I c'.sent s'' :=
      fun c' s' r s'' h hstep => (hsent hq rfl c' s' h).2 r s'' hstep
    refine wpM_doOpen_exits rfl (fun c' s' h => (hsent hq rfl c' s' h).1) ?_ ?_
      (hframe c c.opened s rfl rfl hI)
    · exact fun c' s' r s'' h hstep _ => hnext c' s' r s'' h hstep
    · intro c' s' r s'' h hstep _
      have h' := hnext c' s' r s'' h hstep
      exact ⟨fun _ => h', fun _ _ _ _ => h'⟩
  cases m with
  | file m =>
    obtain ⟨hok, hnext⟩ := hsent (fileCall_announces m) (by cases m <;> rfl) c s hI
    exact wpM_call.mpr ⟨hok, hnext⟩
  | openRead dir name => exact hopen dir name _ _
  | openWrite dir name create => exact hopen dir name _ create
  | readdir dir =>
    exact wpM_readdirLoop (fun c' s' cookie cookieverf h =>
      hsent (readdirPage_announces dir cookie cookieverf) rfl c' s' h) (fun _ _ _ h => h) hI
  | setAuthSys auth => exact hframe c _ s rfl rfl hI
  | clearAuth => exact hframe c _ s rfl rfl hI

end Perform

/-- The life of a client: the constructor, then the methods that the caller invokes on it. -/
def session (now : UInt64) (auth : Option AuthSys) (fuel : ℕ)
    (σ : Strategy Method fun m => Except Exn m.Result) : Prog RpcRequest Received Unit :=
  (new now auth ()).bind fun rc =>
    match rc.1 with
    | .ok c => (σ.prog (perform fuel) c).bind fun _ => .done ()
    | .error _ => .done ()

end Nfs41Client

/-! ### The server -/

/-- What the server knows of the client. Inside the session `k` counts the COMPOUNDs taken, and
`last` is the id of the last one. -/
inductive SessionState
  | start
  | known (ex : ExchangeIdRes)
  | session (sessionid : SessionId41) (k : ℕ) (last : UInt32)

namespace SessionState

/-- The request that the server takes. -/
def Takes : SessionState → RpcRequest → Prop
  | start, q => q = getportRequest NFS4_PROG NFS4_VERS ∨
    ∃ verifier, q.args = Compound.format.write ⟨ascii "init", 1,
      [⟨.EXCHANGE_ID, (verifier, Nfs41Client.owner, 0x00020000, (), [])⟩]⟩
  | known ex, q => q.args = Compound.format.write ⟨ascii "init", 1,
      [⟨.CREATE_SESSION, Nfs41Client.createSessionArgs ⟨ex.clientid, ex.sequenceid⟩⟩]⟩
  | session sessionid k last, q => ∃ tag n ops,
      q.args = Compound.format.write ⟨tag, 1, Nfs41Client.sequenceOp sessionid n :: ops⟩ ∧
        n = last + 1 ∧ n = UInt32.ofNat (k + 1) ∧ (k = 0 → ops = [⟨.RECLAIM_COMPLETE, false⟩])

end SessionState

/-- What the server answers, and what it knows then. -/
inductive SessionStep : Step RpcRequest Received SessionState
  | portmap {q : RpcRequest} {r : Received} (hprog : q.prog = PMAP_PROG) :
      SessionStep .start q r .start
  | exchangeId {q : RpcRequest} {r : Received} {reply : SuccessReply} {ex : ExchangeIdRes}
      (hprog : q.prog = NFS4_PROG) (hfits : SuccessReply.format.Fits reply)
      (hres : reply.results = [⟨.EXCHANGE_ID, ex⟩]) (hr : reply.InRecord r) :
      SessionStep .start q r (.known ex)
  | createSession {q : RpcRequest} {r : Received} {reply : SuccessReply} {ex : ExchangeIdRes}
      {res : CreateSessionRes} (hfits : SuccessReply.format.Fits reply)
      (hres : reply.results = [⟨.CREATE_SESSION, res⟩]) (hr : reply.InRecord r) :
      SessionStep (.known ex) q r (.session res.sessionid 0 0)
  | sequence {q : RpcRequest} {r : Received} {sessionid : SessionId41} {k : ℕ} {last : UInt32} :
      SessionStep (.session sessionid k last) q r (.session sessionid (k + 1) (last + 1))

/-! ### Client and server in step -/

namespace Nfs41Client

/-- The server has taken `k` COMPOUNDs inside the session of the client, and the next one that the
client sends has the id after the last one. -/
structure InStep (k : ℕ) (c : Nfs41Client) (s : SessionState) : Prop where
  server : s = .session c.sessionid_ k (UInt32.ofNat k)
  client : c.slot_seqid_ = UInt32.ofNat (k + 1)

theorem ofNat_succ (k : ℕ) : UInt32.ofNat (k + 1) = UInt32.ofNat k + 1 := UInt32.ofNat_add k 1

variable {α : Type} {q : CompoundCall α} {ops : List ArgOp} {k : ℕ} {c : Nfs41Client}
  {s s' : SessionState} {r : Received}

theorem InStep.takes (h : InStep k c s) (hq : q.Announces ops)
    (hfirst : k = 0 → ops = [⟨.RECLAIM_COMPLETE, false⟩]) : s.Takes (c.request q) := by
  rw [h.server]
  refine ⟨q.tag, c.slot_seqid_, ops, sequenced_compoundArgs hq _ _, ?_, h.client, hfirst⟩
  rw [h.client, ofNat_succ]

theorem InStep.sent (h : InStep k c s) (hstep : SessionStep s (c.request q) r s') :
    InStep (k + 1) c.sent s' := by
  obtain ⟨rfl, hclient⟩ := h
  cases hstep with
  | sequence =>
    refine ⟨?_, ?_⟩
    · rw [ofNat_succ k]
      rfl
    · rw [ofNat_succ (k + 1), ← hclient]
      rfl

/-- What the decoders of the constructor make of conforming replies. -/
theorem exchangeId_result {now : UInt64} {reply : SuccessReply} {ex : ExchangeIdRes}
    (hfits : SuccessReply.format.Fits reply) (hres : reply.results = [⟨.EXCHANGE_ID, ex⟩])
    (hr : reply.InRecord r) :
    (exchangeId now).result r = .ok ⟨ex.clientid, ex.sequenceid⟩ := by
  have hex : Wire.exchangeIdRes.Fits ex :=
    (SuccessReply.fits_iff.mp hfits).2.2 ⟨.EXCHANGE_ID, ex⟩ (by rw [hres]; exact List.mem_cons_self)
  refine CompoundCall.result_of_decode hr (decode_reply hfits ?_)
  rw [hres, writeResults, List.flatMap_singleton]
  exact decodeExchangeIdResult_reads hex

theorem createSession_result {exid : ExchangeIdResult} {reply : SuccessReply}
    {res : CreateSessionRes} (hfits : SuccessReply.format.Fits reply)
    (hres : reply.results = [⟨.CREATE_SESSION, res⟩]) (hr : reply.InRecord r) :
    (createSession exid).result r = .ok res.sessionid := by
  obtain ⟨rest, hrest⟩ := decodeCreateSessionResult_ok res []
  have hstatus := checkCompoundStatus_reads (SuccessReply.fits_iff.mp hfits).1
    (UInt32.ofNat reply.results.length) (writeResults reply.results)
  simp only [List.append_assoc] at hstatus
  refine CompoundCall.result_ok.mpr ⟨reply.bytes, rest, hr.parse, ?_⟩
  refine (bind_of_ok hstatus).trans ?_
  rw [hres, writeResults, List.flatMap_singleton]
  rwa [List.append_nil] at hrest

theorem progs_ne : NFS4_PROG ≠ PMAP_PROG := by decide

/-- The constructor leaves the client in step. Its first COMPOUND inside the session is
RECLAIM_COMPLETE. -/
theorem wpM_new (now : UInt64) (auth : Option AuthSys) :
    wpM SessionStep SessionState.Takes
      (fun r _ s => ∀ c, r = .ok c → ∃ k, 0 < k ∧ InStep k c s) (new now auth) () .start := by
  refine wpM_connectNfs_bind (Or.inl rfl) fun r s hstep => ⟨?_, fun rpc => ?_⟩
  · exact fun _ _ h => nomatch h
  obtain rfl : s = .start := by
    cases hstep with
    | portmap => rfl
    | exchangeId hprog => exact absurd hprog.symm progs_ne
  refine wpM_bind.mpr (wpM_onLocal.mpr (wpM_doBootstrap.mpr ⟨Or.inr ⟨bootVerifier now, ?_⟩, ?_⟩))
  · exact (exchangeId_announces now).compoundArgs 1
  intro r s hstep
  cases hstep with
  | portmap hprog => exact absurd hprog progs_ne
  | @exchangeId _ _ reply ex hprog hfits hres hr =>
    rw [exchangeId_result hfits hres hr]
    refine ⟨(createSession_announces _).compoundArgs 1, fun r s hstep => ?_⟩
    cases hstep with
    | @createSession _ _ reply _ res hfits hres hr =>
      rw [createSession_result hfits hres hr]
      -- the session has been created, and the slot has taken nothing
      have hstart : ∀ c : Nfs41Client, c.sessionid_ = res.sessionid → c.slot_seqid_ = 1 →
          InStep 0 c (.session res.sessionid 0 0) := fun c hsid hslot => ⟨by rw [hsid]; rfl, hslot⟩
      refine wpM_bind.mpr (wpM_onLocal.mpr (wpM_enterSession.mpr ⟨?_, fun r s hstep => ?_⟩))
      · exact (hstart _ rfl rfl).takes reclaimComplete_announces fun _ => rfl
      have h₁ := (hstart _ rfl rfl).sent hstep
      cases reclaimComplete.result r with
      | error e => exact fun _ h => nomatch h
      | ok _ =>
        refine ⟨h₁.takes getRootFh_announces (fun h => nomatch h), fun r s hstep => ?_⟩
        have h₂ := h₁.sent hstep
        cases getRootFh.result r with
        | error e => exact fun _ h => nomatch h
        | ok _ =>
          intro c hc
          cases hc
          exact ⟨2, by decide, h₂.server, h₂.client⟩

/-- **A session run.** For every conforming EXCHANGE_ID and CREATE_SESSION reply, every caller and
anything answered inside the session, the server takes every request: CREATE_SESSION carries what
EXCHANGE_ID returned, the `k`-th COMPOUND inside the session begins with SEQUENCE for this session
with the id `k`, which is the one after the last, and the first of them is RECLAIM_COMPLETE. -/
theorem session_run (now : UInt64) (auth : Option AuthSys) (fuel : ℕ)
    (σ : Strategy Method fun m => Except Exn m.Result) :
    wp SessionStep SessionState.Takes (fun _ _ => True) (session now auth fuel σ) .start := by
  -- once the session exists, each method keeps the two sides in step
  have hmethod : ∀ (m : Method) (c : Nfs41Client) (s : SessionState),
      (∃ k, 0 < k ∧ InStep k c s) → wpM SessionStep SessionState.Takes
        (fun _ c' s' => ∃ k, 0 < k ∧ InStep k c' s') (perform fuel m) c s := by
    refine fun m c s h => wpM_perform ?_ ?_ fuel m h
    · rintro c c' s hsid hslot ⟨k, hk, h⟩
      exact ⟨k, hk, by rw [hsid]; exact h.server, hslot.trans h.client⟩
    · rintro α q ops hq - c s ⟨k, hk, h⟩
      exact ⟨h.takes hq fun hzero => absurd hzero hk.ne',
        fun r s' hstep => ⟨k + 1, k.succ_pos, h.sent hstep⟩⟩
  refine wp_bind.mpr (wp_mono ?_ (wpM_new now auth))
  rintro ⟨r, u⟩ s h
  cases r with
  | error e => trivial
  | ok c =>
    exact wp_bind.mpr (wp_mono (fun _ _ _ => trivial)
      (Strategy.wp_prog (fun m c s => hmethod m c s) σ c s (h c rfl)))

end Nfs41Client

end NfsClient
