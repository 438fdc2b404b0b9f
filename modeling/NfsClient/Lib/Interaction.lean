import Mathlib

/-!
# Programs that talk to a server

A client is a program that sends requests `Q` one at a time, waits for the response `R` of each
and goes on from it. `Prog` is the tree of everything such a program can do; `Step` is the
environment on the other side, an arbitrary relation on a state of its own, so that a server may
be nondeterministic, may misbehave and may keep state the client never sees.

* `Trace` is a run of a program against an environment, complete or cut off anywhere;
* `wp` is the weakest precondition of a program: every request it can send is admissible in the
  environment state in which it is sent, and if it ends, it ends in the postcondition. It is
  defined by recursion on the program, has one rule per operation (`wp_done`, `wp_call`,
  `wp_bind`), and is sound for runs (`wp_trace`, `wp_sent`);
* `twp` is the same for programs that are to come to an end, and they do (`twp_exists`); it is carried
  over from one environment to another (`twp_sim`);
* `Sim` relates two programs that go on in step (`Sim.bind`): they send related requests, and go on
  in step from related responses, so that related responses bring them to related ends (`Sim.play`);
* `Strategy` is a caller that invokes the methods of a client object one after the other, the
  choice of the next method depending on what the earlier ones returned; `Strategy.wp_prog` lifts
  an invariant of the methods to every such caller.

A loop with no bound of its own is given fuel, and ends in `Prog.cut` when the fuel is used up:
a run that is cut is a run still under way, of which nothing but its requests is asked.
-/

namespace Interaction

variable {Q R S α β γ : Type}

/-! ### Programs -/

/-- What a client may do: end with a value, be cut off, or send a request and go on from the
response. -/
inductive Prog (Q R α : Type) : Type
  | done (a : α)
  | cut
  | call (q : Q) (k : R → Prog Q R α)

namespace Prog

/-- Sequencing: `f` takes over where the program ends. -/
def bind : Prog Q R α → (α → Prog Q R β) → Prog Q R β
  | .done a, f => f a
  | .cut, _ => .cut
  | .call q k, f => .call q fun r => (k r).bind f

@[simp] theorem bind_done (a : α) (f : α → Prog Q R β) : (done a).bind f = f a := rfl

@[simp] theorem bind_cut (f : α → Prog Q R β) : (cut : Prog Q R α).bind f = cut := rfl

@[simp] theorem bind_call (q : Q) (k : R → Prog Q R α) (f : α → Prog Q R β) :
    (call q k).bind f = call q fun r => (k r).bind f := rfl

theorem bind_assoc (p : Prog Q R α) (f : α → Prog Q R β) (g : β → Prog Q R γ) :
    (p.bind f).bind g = p.bind fun a => (f a).bind g := by
  induction p with
  | done a => rfl
  | cut => rfl
  | call q k ih => exact congrArg (Prog.call q) (funext ih)

/-- The request whose response the program waits for. -/
def pending : Prog Q R α → List Q
  | .call q _ => [q]
  | _ => []

end Prog

/-! ### Runs -/

/-- An environment: from state `s`, request `q` may be answered by `r`, moving to `s'`. -/
abbrev Step (Q R S : Type) : Type := S → Q → R → S → Prop

/-- A run of a program against an environment: the exchanges made so far, the program that is
left and the state of the environment. -/
inductive Trace (step : Step Q R S) :
    Prog Q R α → S → List (Q × R) → Prog Q R α → S → Prop
  | refl (p : Prog Q R α) (s : S) : Trace step p s [] p s
  | call {q : Q} {k : R → Prog Q R α} {s s' s'' : S} {r : R} {tr : List (Q × R)}
      {p : Prog Q R α} (hstep : step s q r s') (htr : Trace step (k r) s' tr p s'') :
      Trace step (.call q k) s ((q, r) :: tr) p s''

/-- A run splits at every exchange: the program that was left there sent the request. -/
theorem Trace.split {step : Step Q R S} {p p' : Prog Q R α} {s s' : S} {tr₁ tr₂ : List (Q × R)}
    {q : Q} {r : R} (h : Trace step p s (tr₁ ++ (q, r) :: tr₂) p' s') :
    ∃ k s₁, Trace step p s tr₁ (.call q k) s₁ := by
  induction tr₁ generalizing p s with
  | nil =>
    cases h with
    | call hstep htr => exact ⟨_, _, .refl _ _⟩
  | cons x tr₁ ih =>
    cases h with
    | call hstep htr =>
      obtain ⟨k, s₁, h₁⟩ := ih htr
      exact ⟨k, s₁, .call hstep h₁⟩

/-- The execution of a program against a server that is a function: the value it ends with and
the state of the server. A request that the server never answers (`none`) leaves the program
waiting. -/
def Prog.run (serve : S → Q → Option R × S) : Prog Q R α → S → Option α × S
  | .done a, s => (some a, s)
  | .cut, s => (none, s)
  | .call q k, s =>
    match serve s q with
    | (some r, s') => (k r).run serve s'
    | (none, s') => (none, s')

/-- A program that ends hands its value on. -/
theorem Prog.run_bind {serve : S → Q → Option R × S} {f : α → Prog Q R β} {a : α} {s' : S} :
    ∀ {p : Prog Q R α} {s : S}, p.run serve s = (some a, s') →
      (p.bind f).run serve s = (f a).run serve s'
  | .done _, _, h => by
    cases h
    rfl
  | .cut, _, h => nomatch h
  | .call q k, s, h => by
    rw [Prog.bind_call]
    simp only [Prog.run] at h ⊢
    split at h
    · exact Prog.run_bind h
    · cases h

/-! ### Weakest preconditions -/

/-- From environment state `s`, every request that the program can send is admissible where it
is sent, and every end of the program satisfies `post`. -/
def wp (step : Step Q R S) (ok : S → Q → Prop) (post : α → S → Prop) :
    Prog Q R α → S → Prop
  | .done a, s => post a s
  | .cut, _ => True
  | .call q k, s => ok s q ∧ ∀ r s', step s q r s' → wp step ok post (k r) s'

section wp

variable {step : Step Q R S} {ok : S → Q → Prop} {post post' : α → S → Prop}

@[simp] theorem wp_done (a : α) (s : S) :
    wp step ok post (.done a) s ↔ post a s := Iff.rfl

@[simp] theorem wp_cut (s : S) : wp step ok post (.cut : Prog Q R α) s := trivial

@[simp] theorem wp_call (q : Q) (k : R → Prog Q R α) (s : S) :
    wp step ok post (.call q k) s ↔
      ok s q ∧ ∀ r s', step s q r s' → wp step ok post (k r) s' := Iff.rfl

theorem wp_mono (h : ∀ a s, post a s → post' a s) :
    ∀ {p : Prog Q R α} {s : S}, wp step ok post p s → wp step ok post' p s
  | .done a, s, hp => h a s hp
  | .cut, _, _ => trivial
  | .call _ _, _, ⟨hok, hk⟩ => ⟨hok, fun r s' hstep => wp_mono h (hk r s' hstep)⟩

/-- **The rule of sequencing.** -/
theorem wp_bind {post : β → S → Prop} {f : α → Prog Q R β} :
    ∀ {p : Prog Q R α} {s : S},
      wp step ok post (p.bind f) s ↔ wp step ok (fun a s' => wp step ok post (f a) s') p s
  | .done _, _ => Iff.rfl
  | .cut, _ => Iff.rfl
  | .call q k, s => by
    simp only [Prog.bind_call, wp_call]
    exact and_congr_right fun _ => forall₃_congr fun r s' _ => wp_bind

/-- **Soundness**: the precondition holds of whatever is left of a run. -/
theorem wp_trace {p p' : Prog Q R α} {s s' : S} {tr : List (Q × R)}
    (htr : Trace step p s tr p' s') (hp : wp step ok post p s) : wp step ok post p' s' := by
  induction htr with
  | refl => exact hp
  | call hstep _ ih => exact ih (hp.2 _ _ hstep)

/-- The request of every exchange of a run was admissible where it was sent. -/
theorem wp_sent {p p' : Prog Q R α} {s s' : S} {tr₁ tr₂ : List (Q × R)} {q : Q} {r : R}
    (htr : Trace step p s (tr₁ ++ (q, r) :: tr₂) p' s') (hp : wp step ok post p s) :
    ∃ k s₁, Trace step p s tr₁ (.call q k) s₁ ∧ ok s₁ q := by
  obtain ⟨k, s₁, h₁⟩ := htr.split
  exact ⟨k, s₁, h₁, (wp_trace h₁ hp).1⟩

end wp

/-! ### Total correctness -/

/-- `wp` of a program that is not cut off: whatever the answers are, it comes to an end, in `post`. -/
def twp (step : Step Q R S) (ok : S → Q → Prop) (post : α → S → Prop) :
    Prog Q R α → S → Prop
  | .done a, s => post a s
  | .cut, _ => False
  | .call q k, s => ok s q ∧ ∀ r s', step s q r s' → twp step ok post (k r) s'

section twp

variable {step : Step Q R S} {ok : S → Q → Prop} {post : α → S → Prop}

/-- What is left of a run is not cut off either. -/
theorem twp_trace {p p' : Prog Q R α} {s s' : S} {tr : List (Q × R)}
    (htr : Trace step p s tr p' s') (hp : twp step ok post p s) : twp step ok post p' s' := by
  induction htr with
  | refl => exact hp
  | call hstep _ ih => exact ih (hp.2 _ _ hstep)

theorem twp_mono {post' : α → S → Prop} (h : ∀ a s, post a s → post' a s) :
    ∀ {p : Prog Q R α} {s : S}, twp step ok post p s → twp step ok post' p s
  | .done a, s, hp => h a s hp
  | .cut, _, hp => hp
  | .call _ _, _, ⟨hok, hk⟩ => ⟨hok, fun r s' hstep => twp_mono h (hk r s' hstep)⟩

/-- **The rule of sequencing.** -/
theorem twp_bind {post : β → S → Prop} {f : α → Prog Q R β} :
    ∀ {p : Prog Q R α} {s : S},
      twp step ok post (p.bind f) s ↔ twp step ok (fun a s' => twp step ok post (f a) s') p s
  | .done _, _ => Iff.rfl
  | .cut, _ => Iff.rfl
  | .call _ _, _ => and_congr_right fun _ => forall₃_congr fun _ _ _ => twp_bind

/-- Where every request has an answer, there is a run to the end. -/
theorem twp_exists (hok : ∀ s q, ok s q → ∃ r s', step s q r s') :
    ∀ {p : Prog Q R α} {s : S}, twp step ok post p s →
      ∃ tr a s', Trace step p s tr (.done a) s'
  | .done a, s, _ => ⟨[], a, s, .refl _ _⟩
  | .cut, _, h => h.elim
  | .call q k, s, ⟨hq, hk⟩ => by
    obtain ⟨r, s', hstep⟩ := hok s q hq
    obtain ⟨tr, a, s'', htr⟩ := twp_exists hok (hk r s' hstep)
    exact ⟨_, a, s'', .call hstep htr⟩

/-- What is proved against one environment holds against any other that it simulates, as far as the
requests go that are admissible there. -/
theorem twp_sim {S' : Type} {step' : Step Q R S'} {ok' : S' → Q → Prop} {post' : α → S' → Prop}
    (Rel : S → S' → Prop) (hok : ∀ s t q, Rel s t → ok' t q → ok s q)
    (hstep : ∀ s t q r s', Rel s t → ok' t q → step s q r s' → ∃ t', step' t q r t' ∧ Rel s' t')
    (hpost : ∀ a s t, Rel s t → post' a t → post a s) :
    ∀ {p : Prog Q R α} {s : S} {t : S'}, Rel s t → twp step' ok' post' p t → twp step ok post p s
  | .done a, s, t, h, hp => hpost a s t h hp
  | .cut, _, _, _, hp => hp
  | .call q k, s, t, h, ⟨hq, hk⟩ => by
    refine ⟨hok s t q h hq, fun r s' hs => ?_⟩
    obtain ⟨t', ht, h'⟩ := hstep s t q r s' h hq hs
    exact twp_sim Rel hok hstep hpost h' (hk r t' ht)

end twp

/-! ### What a program can send -/

/-- Every request that the program can send has the property `P`, which may depend on what the
program has received before, whatever that was. -/
def Prog.Sends (P : List R → Q → Prop) : List R → Prog Q R α → Prop
  | _, .done _ => True
  | _, .cut => True
  | h, .call q k => P h q ∧ ∀ r, (k r).Sends P (h ++ [r])

/-- The environment that answers anything and keeps its answers. -/
def anyAnswer : Step Q R (List R) := fun h _ r h' => h' = h ++ [r]

/-- A run against any environment is a run against this one. -/
theorem Trace.anyAnswer {step : Step Q R S} {p p' : Prog Q R α} {s s' : S} {tr : List (Q × R)}
    (htr : Trace step p s tr p' s') (h : List R) :
    Trace Interaction.anyAnswer p h tr p' (h ++ tr.map Prod.snd) := by
  induction htr generalizing h with
  | refl p s =>
    rw [List.map_nil, List.append_nil]
    exact .refl p h
  | @call _ _ _ _ _ r _ _ _ _ ih =>
    have hrest := ih (h ++ [r])
    rw [List.append_assoc] at hrest
    exact .call rfl hrest

/-- What is kept of a run against this environment are its answers. -/
theorem Trace.answers {p p' : Prog Q R α} {h h' : List R} {tr : List (Q × R)}
    (htr : Trace Interaction.anyAnswer p h tr p' h') : h' = h ++ tr.map Prod.snd := by
  induction htr with
  | refl => exact (List.append_nil _).symm
  | call hstep _ ih =>
    rw [ih, hstep, List.append_assoc]
    rfl

/-- A precondition against this environment is a fact about every request of every run, by its
place in the run. -/
theorem wp_request {ok : List R → Q → Prop} {post : α → List R → Prop} {step : Step Q R S}
    {p p' : Prog Q R α} {s s' : S} {tr : List (Q × R)} (htr : Trace step p s tr p' s')
    (hp : wp Interaction.anyAnswer ok post p []) {k : ℕ} {q : Q} {r : R}
    (hk : tr[k]? = some (q, r)) : ok ((tr.take k).map Prod.snd) q := by
  obtain ⟨hlen, hq⟩ := List.getElem?_eq_some_iff.mp hk
  have hsplit : tr = tr.take k ++ (q, r) :: tr.drop (k + 1) := by
    rw [← hq, List.cons_getElem_drop_succ, List.take_append_drop]
  have htr' := htr.anyAnswer []
  rw [hsplit] at htr'
  obtain ⟨_, h₁, htr₁, hok⟩ := wp_sent htr' hp
  rw [htr₁.answers] at hok
  exact hok

/-- The environment that answers anything and keeps every exchange. -/
def anyExchange : Step Q R (List (Q × R)) := fun log q r log' => log' = log ++ [(q, r)]

/-- A run against any environment is a run against this one. -/
theorem Trace.anyExchange {step : Step Q R S} {p p' : Prog Q R α} {s s' : S} {tr : List (Q × R)}
    (htr : Trace step p s tr p' s') (log : List (Q × R)) :
    Trace Interaction.anyExchange p log tr p' (log ++ tr) := by
  induction htr generalizing log with
  | refl p s =>
    rw [List.append_nil]
    exact .refl p log
  | @call q _ _ _ _ r _ _ _ _ ih =>
    have hrest := ih (log ++ [(q, r)])
    rw [List.append_assoc] at hrest
    exact .call rfl hrest

/-- A precondition against this environment is a fact about every run that has come to an end. -/
theorem wp_run {ok : List (Q × R) → Q → Prop} {post : α → List (Q × R) → Prop} {step : Step Q R S}
    {p : Prog Q R α} {s s' : S} {tr : List (Q × R)} {a : α}
    (htr : Trace step p s tr (.done a) s') (hp : wp Interaction.anyExchange ok post p []) :
    post a tr :=
  wp_trace (htr.anyExchange []) hp

/-- `Prog.Sends` is a precondition against the environment that answers anything. -/
theorem Prog.sends_iff {P : List R → Q → Prop} :
    ∀ {p : Prog Q R α} {h : List R}, p.Sends P h ↔ wp anyAnswer P (fun _ _ => True) p h
  | .done _, _ => Iff.rfl
  | .cut, _ => Iff.rfl
  | .call q k, h => by
    rw [Prog.Sends, wp_call]
    refine and_congr_right fun _ => ⟨fun hk r h' hstep => ?_, fun hk r => ?_⟩
    · rw [hstep]
      exact Prog.sends_iff.mp (hk r)
    · exact Prog.sends_iff.mpr (hk r _ rfl)

/-! ### Programs in step -/

/-- What a program does when it is answered by `rs` in order: the requests it sends and the value it
ends with. It is left waiting when the answers are used up. -/
def Prog.play : Prog Q R α → List R → List Q × Option α
  | .done a, _ => ([], some a)
  | .cut, _ => ([], none)
  | .call q _, [] => ([q], none)
  | .call q k, r :: rs => (q :: ((k r).play rs).1, ((k r).play rs).2)

/-- Two programs in step: requests are related by `RQ`, responses by `RR` and values by `RA`. -/
inductive Sim {Q' R' α' : Type} (RQ : Q → Q' → Prop) (RR : R → R' → Prop) (RA : α → α' → Prop) :
    Prog Q R α → Prog Q' R' α' → Prop
  | done {a : α} {a' : α'} (h : RA a a') : Sim RQ RR RA (.done a) (.done a')
  | cut : Sim RQ RR RA .cut .cut
  | call {q : Q} {q' : Q'} {k : R → Prog Q R α} {k' : R' → Prog Q' R' α'} (hq : RQ q q')
      (hk : ∀ r r', RR r r' → Sim RQ RR RA (k r) (k' r')) : Sim RQ RR RA (.call q k) (.call q' k')

section Sim

variable {Q' R' α' β' : Type} {RQ : Q → Q' → Prop} {RR : R → R' → Prop} {RA : α → α' → Prop}
  {RB : β → β' → Prop} {p : Prog Q R α} {p' : Prog Q' R' α'}

theorem Sim.bind {f : α → Prog Q R β} {f' : α' → Prog Q' R' β'} (h : Sim RQ RR RA p p')
    (hf : ∀ a a', RA a a' → Sim RQ RR RB (f a) (f' a')) :
    Sim RQ RR RB (p.bind f) (p'.bind f') := by
  induction h with
  | done h => exact hf _ _ h
  | cut => exact .cut
  | call hq _ ih => exact .call hq ih

/-- **Soundness**: under related answers, programs in step send related requests and come to related
ends. -/
theorem Sim.play (h : Sim RQ RR RA p p') {rs : List R} {rs' : List R'}
    (hrs : List.Forall₂ RR rs rs') :
    List.Forall₂ RQ (p.play rs).1 (p'.play rs').1 ∧
      Option.Rel RA (p.play rs).2 (p'.play rs').2 := by
  induction h generalizing rs rs' with
  | done h => exact ⟨.nil, .some h⟩
  | cut => exact ⟨.nil, .none⟩
  | call hq _ ih =>
    cases hrs with
    | nil => exact ⟨.cons hq .nil, .none⟩
    | cons hr hrs =>
      obtain ⟨hqs, ha⟩ := ih _ _ hr hrs
      exact ⟨.cons hq hqs, ha⟩

end Sim

/-! ### Trying again -/

/-- A request that is sent again as long as the verdict on the response is `none`; `sent` is what
each try makes of the state of the client. -/
def retry (request : γ → Q) (sent : γ → γ) (verdict : R → Option α) : ℕ → γ → Prog Q R (α × γ)
  | 0, _ => .cut
  | fuel + 1, c =>
    .call (request c) fun r =>
      match verdict r with
      | some a => .done (a, sent c)
      | none => retry request sent verdict fuel (sent c)

/-- **Retries are transparent**: the first response with a verdict decides, and each response before
it adds one request. -/
theorem retry_play {request : γ → Q} {sent : γ → γ} {verdict : R → Option α}
    {f : α × γ → Prog Q R β} {r : R} {a : α} (hr : verdict r = some a) (rs : List R) (fuel : ℕ)
    (tries : List R) (c : γ) (htries : ∀ t ∈ tries, verdict t = none) :
    let p := (f (a, sent^[tries.length + 1] c)).play rs
    ((retry request sent verdict (tries.length + (fuel + 1)) c).bind f).play (tries ++ r :: rs) =
      ((List.range (tries.length + 1)).map (fun i => request (sent^[i] c)) ++ p.1, p.2) := by
  induction tries generalizing c with
  | nil =>
    have hfuel : ([] : List R).length + (fuel + 1) = fuel + 1 := Nat.zero_add _
    -- no tries are left, and the response decides
    rw [hfuel, List.nil_append, retry, Prog.bind_call, Prog.play, hr]
    rfl
  | cons t tries ih =>
    have ht : verdict t = none := htries t List.mem_cons_self
    have ih := ih (sent c) fun t' ht' => htries t' (List.mem_cons_of_mem t ht')
    have hfuel : (t :: tries).length + (fuel + 1) = tries.length + (fuel + 1) + 1 :=
      Nat.add_right_comm _ _ _
    -- a response without a verdict: the rest is the same loop in the state after one request
    rw [hfuel, retry, Prog.bind_call, List.cons_append, Prog.play, ht]
    change (request c :: (((retry request sent verdict (tries.length + (fuel + 1)) (sent c)).bind
      f).play (tries ++ r :: rs)).1, _) = _
    -- the requests counted from the first one are that one and those counted from the second
    have hfirst : (List.range (tries.length + 1 + 1)).map (fun i => request (sent^[i] c)) =
        request c :: (List.range (tries.length + 1)).map fun i => request (sent^[i] (sent c)) := by
      rw [List.range_succ_eq_map, List.map_cons, List.map_map]
      rfl
    rw [ih, List.length_cons, hfirst]
    rfl

/-! ### Callers of an object with methods -/

/-- A caller: it stops, or invokes a method `m` and goes on from what the method hands back, which
is of type `V m`. -/
inductive Strategy (M : Type) (V : M → Type) : Type
  | stop
  | invoke (m : M) (next : V m → Strategy M V)

section Strategy

variable {M C : Type} {V : M → Type} (perform : (m : M) → C → Prog Q R (V m × C))

/-- The program that a caller and the methods of an object in state `c` make up. -/
def Strategy.prog : Strategy M V → C → Prog Q R C
  | .stop, c => .done c
  | .invoke m next, c => (perform m c).bind fun vc => (next vc.1).prog vc.2

variable {perform} {step : Step Q R S} {ok : S → Q → Prop} {inv : C → S → Prop}

/-- **The rule of object invariants**: what every method keeps, every caller keeps. -/
theorem Strategy.wp_prog
    (hm : ∀ m c s, inv c s → wp step ok (fun vc s' => inv vc.2 s') (perform m c) s) :
    ∀ (σ : Strategy M V) (c : C) (s : S), inv c s → wp step ok inv (σ.prog perform c) s
  | .stop, _, _, h => h
  | .invoke m next, c, s, h =>
    wp_bind.mpr (wp_mono (fun vc s' h' => Strategy.wp_prog hm (next vc.1) vc.2 s' h') (hm m c s h))

end Strategy

end Interaction
