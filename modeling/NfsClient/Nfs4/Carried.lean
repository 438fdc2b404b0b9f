import NfsClient.Nfs4.Grace
import NfsClient.Nfs4.Machine
import NfsClient.Rpc.Service

/-!
# COMPOUNDs that are carried out

What a request and a loop of tries come to when the server behind the connection answers. `Carried` says
it of one COMPOUND: the client decodes what the COMPOUND has come to, and the server is where it was left.
`carried_of_answers` gets this from an answer on the wire (`Answers`) and a machine whose results the
decoder of the client reads (`Conveys`).

The loop of `do_open` has a counterpart at hand: `retried` tries again as long as the end is GRACE.
Where each request is carried out, the loop ends as its counterpart does (`retry_ends`); both facades
use this, each with what it keeps between two requests.
-/

namespace NfsClient

open Xdr Reader Interaction Effects

/-! ### Replies -/

/-- The status on which an open is tried again. -/
def graceStatus : Status4 := ⟨NFS4ERR_GRACE, by decide⟩

/-- A reply to a COMPOUND that has come to a given end. Behind the status of a failed one may be
anything. -/
def ReplyTo : Except Status4 (List ResOp) → Bytes → Prop
  | .ok rs, body => ∃ tag : Bytes, tag.length < 2 ^ 32 ∧ body = SuccessReply.bytes ⟨tag, rs⟩
  | .error status, body => ∃ rest, body = word status.1 ++ rest

/-- What a method makes of the end of its COMPOUND. -/
def reported4 {α : Type} : Except Status4 α → Except Exn α
  | .ok a => .ok a
  | .error status => .error (.nfs4Error status.1 "COMPOUND")

section

variable {τ : Type} {srv : Service τ}

/-- In state `t` the server answers the message with a reply to a COMPOUND that has come to `outcome`. -/
def Answers (srv : Service τ) (t : τ) (msg : Bytes) (xid : UInt32)
    (outcome : Except Status4 (List ResOp)) : Prop :=
  ∃ (flavor : UInt32) (verf body : Bytes), verf.length < 2 ^ 32 ∧
    (srv.answer t msg).1.record = acceptedHeader xid flavor verf ++ body ∧ ReplyTo outcome body

/-- The call `q`, sent as `request`, comes to `outcome`: what is received says so, and the server goes
from `t` to `t'`. -/
def Carried {α : Type} (srv : Service τ) (request : RpcRequest) (q : CompoundCall α) (t : τ)
    (outcome : Except Status4 α) (t' : τ) : Prop :=
  ∃ (n : ℕ) (r : Received),
    (Prog.call request .done).Ends (socketServe srv.receive) Idle callsLeft n t r t' ∧
      q.result r = reported4 outcome ∧ (IsGrace r ↔ outcome = .error graceStatus)

theorem isGrace_of_parse {r : Received} {status : Status4} {rest : Bytes}
    (h : r.bind parseReply = .ok (word status.1 ++ rest)) : IsGrace r ↔ status = graceStatus := by
  constructor
  · rintro ⟨rest', hparse⟩
    obtain ⟨hword, -⟩ := List.append_inj (Except.ok.inj (h.symm.trans hparse)) rfl
    have hstatus := congrArg assemble32 hword
    rw [assemble32_word, assemble32_word] at hstatus
    exact Subtype.ext hstatus
  · rintro rfl
    exact ⟨rest, h⟩

/-- **A COMPOUND that is answered** comes to what its results convey. -/
theorem carried_of_answers {α σ : Type} {q : CompoundCall α} {d : XdrDecoder α}
    {request : RpcRequest} {t : τ} {s : σ} {machine : Serve σ (List ResOp)} {x : Serve σ α}
    (hdecode : q.decode = do checkCompoundStatus; d) (hagree : Agree (Conveys d) machine x)
    (hlength : request.message.length < 2 ^ 31)
    (hanswers : Answers srv t request.message request.xid (machine.on s).1) :
    Carried srv request q t (x.on s).1 (srv.answer t request.message).2 := by
  obtain ⟨n, hends⟩ := request_ends hlength id t
  refine ⟨n, .ok (srv.answer t request.message).1.record, hends, ?_⟩
  obtain ⟨flavor, verf, body, hverf, hrecord, hbody⟩ := hanswers
  rw [hrecord]
  have hparse : Except.bind (.ok (acceptedHeader request.xid flavor verf ++ body)) parseReply
      = .ok body := parseReply_accepted request.xid flavor hverf body
  have hend := hagree s
  generalize machine.on s = u, x.on s = w at hbody hend ⊢
  cases hend with
  | ok s' hconveys =>
    rename_i rs a
    obtain ⟨tag, htag, rfl⟩ := hbody
    have hfits : SuccessReply.format.Fits ⟨tag, rs⟩ :=
      SuccessReply.fits_iff.mpr ⟨htag, hconveys.count, hconveys.fits⟩
    have hin : SuccessReply.InRecord ⟨tag, rs⟩ (.ok (acceptedHeader request.xid flavor verf ++
        SuccessReply.bytes ⟨tag, rs⟩)) := ⟨request.xid, flavor, verf, hverf, rfl⟩
    have hvalue : q.decode (SuccessReply.bytes ⟨tag, rs⟩) = .ok (a, []) := by
      rw [hdecode]
      exact decode_reply hfits hconveys.reads
    refine ⟨CompoundCall.result_of_decode hin hvalue, ?_⟩
    -- the status of a success reply is another one
    constructor
    · intro hgrace
      exact nomatch (openVerdict_of_inRecord hfits hin).symm.trans (openVerdict_of_isGrace hgrace)
    · intro h
      cases h
  | error status s' =>
    obtain ⟨rest, rfl⟩ := hbody
    have hthrows : q.decode (word status.1 ++ rest) = .error (.nfs4Error status.1 "COMPOUND") := by
      rw [hdecode]
      exact bind_error.mpr (Or.inl ((bind_of_ok (getUint32_reads status.1 rest)).trans
        (throwIf_bind_error status.2)))
    constructor
    · unfold CompoundCall.result
      rw [hparse]
      simp only [Except.bind, hthrows]
      rfl
    · refine (isGrace_of_parse hparse).trans ⟨congrArg _, fun h => ?_⟩
      cases h
      rfl

variable {α : Type} {request : RpcRequest} {q : CompoundCall α} {t t' : τ} {outcome : Except Status4 α}

/-- A method that sends one COMPOUND ends as the COMPOUND does. -/
theorem Carried.ends {C : Type} (h : Carried srv request q t outcome t') (c : C) :
    ∃ n, (Prog.call request fun r => .done (q.result r, c)).Ends (socketServe srv.receive) Idle
      callsLeft n t (reported4 outcome, c) t' := by
  obtain ⟨n, r, hends, hresult, -⟩ := h
  refine ⟨n + 0, hends.call ?_⟩
  rw [hresult]
  exact .done _ _

end

/-! ### Trying again -/

section

variable {σ α : Type}

/-- `x`, and up to `n` times `x` again as long as it fails with GRACE. -/
def retried (x : Serve σ α) : ℕ → Serve σ α
  | 0 => x
  | n + 1 => tryCatch x fun status => if status = graceStatus then retried x n else throw status

theorem retried_of_grace {x : Serve σ α} {s s' : σ} (h : x.on s = (.error graceStatus, s')) (n : ℕ) :
    (retried x (n + 1)).on s = (retried x n).on s' := by
  rw [retried, Eff.on_tryCatch, h]
  exact congrArg (fun y : Serve σ α => y.on s') (if_pos rfl)

/-- Any other end is the end. -/
theorem retried_of_ne_grace {x : Serve σ α} {s : σ} (h : (x.on s).1 ≠ .error graceStatus) :
    ∀ n, (retried x n).on s = x.on s
  | 0 => rfl
  | n + 1 => by
    rw [retried, Eff.on_tryCatch]
    rcases hx : x.on s with ⟨status | a, s'⟩
    · rw [hx] at h
      have hne : status ≠ graceStatus := fun heq => h (congrArg _ heq)
      simp only [if_neg hne, Eff.on_throw]
    · rfl

/-- A value comes from the last try. -/
theorem exists_of_retried_ok {x : Serve σ α} {a : α} : ∀ {n : ℕ} {s s' : σ},
    (retried x n).on s = (.ok a, s') → ∃ s₀, x.on s₀ = (.ok a, s')
  | 0, s, _, h => ⟨s, h⟩
  | n + 1, s, s', h => by
    by_cases hgrace : (x.on s).1 = .error graceStatus
    · obtain ⟨s₁, hs₁⟩ : ∃ s₁, x.on s = (.error graceStatus, s₁) := ⟨(x.on s).2, by rw [← hgrace]⟩
      rw [retried_of_grace hs₁] at h
      exact exists_of_retried_ok h
    · rw [retried_of_ne_grace hgrace] at h
      exact ⟨s, h⟩

variable {τ C : Type} {srv : Service τ} {request : C → RpcRequest} {sent : C → C}
  {q : CompoundCall α} {d : XdrDecoder α} {x : Serve σ α} {linked : C → τ → σ → Prop}

/-- **The retry loop** ends as the tries do: with as many tries as there are at hand, it comes to an
answer other than GRACE, and the COMPOUND means what it means at hand. -/
theorem retry_ends (hdecode : q.decode = do checkCompoundStatus; d)
    (hcarried : ∀ c t s, linked c t s → ∃ t', Carried srv (request c) q t (x.on s).1 t' ∧
      linked (sent c) t' (x.on s).2) :
    ∀ (tries : ℕ) {c : C} {t : τ} {s : σ}, linked c t s →
      ((retried x tries).on s).1 ≠ .error graceStatus →
      ∃ n res c' t', (retry request sent tryVerdict (tries + 1) c).Ends (socketServe srv.receive) Idle
          callsLeft n t (res, c') t' ∧
        (res.bind fun reply => (q.decode reply).map Prod.fst) =
          reported4 ((retried x tries).on s).1 ∧
        linked c' t' ((retried x tries).on s).2 := by
  intro tries
  induction tries with
  | zero =>
    intro c t s hlinked hover
    obtain ⟨t', ⟨n, r, hends, hresult, hgrace⟩, hlinked'⟩ := hcarried c t s hlinked
    obtain ⟨res, hverdict, hres⟩ := exists_tryVerdict hdecode (mt hgrace.mp hover)
    refine ⟨n + 0, res, sent c, t', ?_, hres.trans hresult, hlinked'⟩
    refine hends.call ?_
    simp only [hverdict]
    exact .done _ _
  | succ tries ih =>
    intro c t s hlinked hover
    obtain ⟨t', ⟨n, r, hends, hresult, hgrace⟩, hlinked'⟩ := hcarried c t s hlinked
    by_cases hagain : (x.on s).1 = .error graceStatus
    · -- one more try, from where this one has left the server
      have hx : x.on s = (.error graceStatus, (x.on s).2) := by rw [← hagain]
      rw [retried_of_grace hx] at hover ⊢
      obtain ⟨m, res, c', t'', hends', hres, hlinked''⟩ := ih hlinked' hover
      refine ⟨n + m, res, c', t'', ?_, hres, hlinked''⟩
      refine hends.call ?_
      simp only [tryVerdict_of_isGrace (hgrace.mpr hagain)]
      exact hends'
    · rw [retried_of_ne_grace hagain]
      obtain ⟨res, hverdict, hres⟩ := exists_tryVerdict hdecode (mt hgrace.mp hagain)
      refine ⟨n + 0, res, sent c, t', ?_, hres.trans hresult, hlinked'⟩
      refine hends.call ?_
      simp only [hverdict]
      exact .done _ _

end

end NfsClient
