import NfsClient.Lib.Interaction

/-!
# Requests that are atomic

Any number of programs run at once against one server. Seen from close up a request is not one step:
a program of its own carries it out (`Prog.expand`), by system calls on one end of a channel, and the
server gets to work at the other end when it will (`Wired`, `WiredStep`). Seen from afar a request is
answered at one moment (`AtomicStep`).

* `Protocol` says what the channel is like while a request waits for its answer, while an answer is on
  its way and between two requests, and what a step makes of that. Nothing in it is about more than one
  channel.
* `Protocol.simulated` is the refinement: whatever the order in which all of them move, the run is step
  by step one of atomic requests. The moment of a request is that at which the server handles it, between
  its first and its last system call, so that what came before it from close up does so from afar.
* `Protocol.run_live` and `Protocol.run_terminates` are the other half: no program is ever stuck, and no
  run goes on forever.
-/

namespace Interaction

variable {ι Q R F G L T α : Type}

/-! ### Simulation -/

section Simulation

variable {X Y Z : Type} {stepX : X → X → Prop} {stepY : Y → Y → Prop} {stepZ : Z → Z → Prop}
  {match_ : X → Y → Prop} {match' : Y → Z → Prop} {x x' : X} {y : Y} {z : Z}

/-- Whatever `x` does from now on, `y` can do something such that the two match again, any number of
times. -/
def Simulated (stepX : X → X → Prop) (stepY : Y → Y → Prop) (match_ : X → Y → Prop) (x : X) (y : Y) :
    Prop :=
  ∃ S : X → Y → Prop, S x y ∧ (∀ x y, S x y → match_ x y) ∧
    ∀ x x' y, S x y → stepX x x' → ∃ y', Relation.ReflTransGen stepY y y' ∧ S x' y'

theorem Simulated.matches (h : Simulated stepX stepY match_ x y) : match_ x y := by
  obtain ⟨S, hxy, hmatch, -⟩ := h
  exact hmatch x y hxy

theorem Simulated.run (h : Simulated stepX stepY match_ x y) (hrun : Relation.ReflTransGen stepX x x') :
    ∃ y', Relation.ReflTransGen stepY y y' ∧ Simulated stepX stepY match_ x' y' := by
  obtain ⟨S, hxy, hmatch, hstep⟩ := h
  suffices hS : ∃ y', Relation.ReflTransGen stepY y y' ∧ S x' y' by
    obtain ⟨y', hrun', hxy'⟩ := hS
    exact ⟨y', hrun', S, hxy', hmatch, hstep⟩
  induction hrun with
  | refl => exact ⟨y, .refl, hxy⟩
  | tail _ hlast ih =>
    obtain ⟨y', hrun', hxy'⟩ := ih
    obtain ⟨y'', hrun'', hxy''⟩ := hstep _ _ _ hxy' hlast
    exact ⟨y'', hrun'.trans hrun'', hxy''⟩

theorem Simulated.mono {weaker : X → Y → Prop} (h : Simulated stepX stepY match_ x y)
    (hweaker : ∀ x y, match_ x y → weaker x y) : Simulated stepX stepY weaker x y := by
  obtain ⟨S, hxy, hmatch, hstep⟩ := h
  exact ⟨S, hxy, fun x y hS => hweaker x y (hmatch x y hS), hstep⟩

/-- Simulations compose. -/
theorem Simulated.trans (h : Simulated stepX stepY match_ x y) (h' : Simulated stepY stepZ match' y z) :
    Simulated stepX stepZ (fun x z => ∃ y, match_ x y ∧ match' y z) x z := by
  refine ⟨fun x z => ∃ y, Simulated stepX stepY match_ x y ∧ Simulated stepY stepZ match' y z,
    ⟨y, h, h'⟩, ?_, ?_⟩
  · rintro x z ⟨y, h, h'⟩
    exact ⟨y, h.matches, h'.matches⟩
  · rintro x x' z ⟨y, h, h'⟩ hstep
    obtain ⟨y', hrun, hnext⟩ := h.run (.single hstep)
    obtain ⟨z', hrun', hnext'⟩ := h'.run hrun
    exact ⟨z', hrun', y', hnext, hnext'⟩

end Simulation

/-! ### Programs from close up and from afar -/

/-- Every request is carried out by a program, which ends with the response. -/
def Prog.expand (impl : Q → Prog F G R) : Prog Q R α → Prog F G α
  | .done a => .done a
  | .cut => .cut
  | .call q k => (impl q).bind fun r => (k r).expand impl

/-- What is left of a program after its next request. -/
inductive Prog.Next : Prog Q R α → Prog Q R α → Prop
  | call (q : Q) (k : R → Prog Q R α) (r : R) : Next (k r) (.call q k)

theorem Prog.wellFounded_next : WellFounded (Prog.Next : Prog Q R α → Prog Q R α → Prop) := by
  refine ⟨fun p => ?_⟩
  induction p with
  | done a => exact ⟨_, fun _ h => nomatch h⟩
  | cut => exact ⟨_, fun _ h => nomatch h⟩
  | call q k ih =>
    refine ⟨_, fun p' h => ?_⟩
    cases h with
    | call q k r => exact ih r

/-- Every request of the program is one of `ok`, whatever the server, in whatever state, has answered
before. -/
def Prog.Asks (serve : Step Q R T) (ok : Q → Prop) (p : Prog Q R α) : Prop :=
  wp (fun (_ : Unit) q r _ => ∃ t t', serve t q r t') (fun _ q => ok q) (fun _ _ => True) p ()

/-- From afar: the server answers one of the programs. -/
inductive AtomicStep [DecidableEq ι] (serve : Step Q R T) :
    (ι → Prog Q R α) × T → (ι → Prog Q R α) × T → Prop
  | call {progs : ι → Prog Q R α} {t t' : T} {i : ι} {q : Q} {k : R → Prog Q R α} {r : R}
      (hi : progs i = .call q k) (hserve : serve t q r t') :
      AtomicStep serve (progs, t) (Function.update progs i (k r), t')

/-- In every run from `x` on every request is one of `ok`. -/
def AsksOnly [DecidableEq ι] (serve : Step Q R T) (ok : Q → Prop) (x : (ι → Prog Q R α) × T) : Prop :=
  ∀ y, Relation.ReflTransGen (AtomicStep serve) x y → ∀ i q k, y.1 i = .call q k → ok q

section

variable [DecidableEq ι] {serve : Step Q R T} {ok : Q → Prop} {x y : (ι → Prog Q R α) × T}

theorem AsksOnly.pending (h : AsksOnly serve ok x) {i : ι} {q : Q} {k : R → Prog Q R α}
    (hi : x.1 i = .call q k) : ok q :=
  h x .refl i q k hi

theorem AsksOnly.step (h : AsksOnly serve ok x) (hstep : AtomicStep serve x y) : AsksOnly serve ok y :=
  fun z hrun => h z (.head hstep hrun)

/-- Programs that ask only what is `ok`, whatever they are answered, do so together. -/
theorem asksOnly_of_asks {progs : ι → Prog Q R α} (h : ∀ i, (progs i).Asks serve ok) (t : T) :
    AsksOnly serve ok (progs, t) := by
  intro y hrun
  have hall : ∀ i, (y.1 i).Asks serve ok := by
    induction hrun with
    | refl => exact h
    | tail _ hstep ih =>
      cases hstep with
      | @call progs t t' i q k r hi hserve =>
        intro j
        show (Function.update progs i (k r) j).Asks serve ok
        by_cases hj : j = i
        · subst hj
          have hasks : (progs j).Asks serve ok := ih j
          rw [hi] at hasks
          rw [Function.update_self]
          exact hasks.2 r () ⟨t, t', hserve⟩
        · rw [Function.update_of_ne hj]
          exact ih j
  intro i q k hi
  have hasks := hall i
  rw [hi] at hasks
  exact hasks.1

end

/-- From close up: programs, the channel of each, and the server that all channels lead to. -/
structure Wired (ι F G L T α : Type) where
  progs : ι → Prog F G α
  channels : ι → L
  server : T

/-- A step of program `i` at its end of its channel, or of the server at the other end. -/
inductive WiredStep [DecidableEq ι] (sys : Step F G L) (handle : L × T → L × T → Prop) (i : ι) :
    Wired ι F G L T α → Wired ι F G L T α → Prop
  | move {w : Wired ι F G L T α} {f : F} {k : G → Prog F G α} {g : G} {l : L}
      (hi : w.progs i = .call f k) (hsys : sys (w.channels i) f g l) :
      WiredStep sys handle i w
        ⟨Function.update w.progs i (k g), Function.update w.channels i l, w.server⟩
  | handle {w : Wired ι F G L T α} {l : L} {t : T} (h : handle (w.channels i, w.server) (l, t)) :
      WiredStep sys handle i w ⟨w.progs, Function.update w.channels i l, t⟩

/-! ### Protocols -/

/-- What holds of a channel and of the program that carries out a request: `waiting` until the server
has handled the request, `answered` from then on, `idle` in between. The number bounds the steps that
the program takes before the server or the caller comes next. -/
structure Protocol (sys : Step F G L) (handle : L × T → L × T → Prop) (serve : Step Q R T)
    (impl : Q → Prog F G R) (ok : Q → Prop) where
  idle : L → Prop
  waiting : Q → ℕ → Prog F G R → L → Prop
  answered : R → ℕ → Prog F G R → L → Prop
  idle_start : ∀ {q l}, ok q → idle l → ∃ n, waiting q n (impl q) l
  idle_handle : ∀ {l t x}, idle l → ¬ handle (l, t) x
  waiting_idle : ∀ {q n m l}, waiting q n m l → idle l → m = impl q
  waiting_call : ∀ {q n m l}, waiting q n m l → ∃ f k, m = .call f k
  waiting_step : ∀ {q n f k l g l'}, waiting q n (.call f k) l → sys l f g l' →
    ∃ n' < n, waiting q n' (k g) l'
  waiting_handle : ∀ {q n m l t l' t'}, waiting q n m l → handle (l, t) (l', t') →
    ∃ r n', serve t q r t' ∧ answered r n' m l'
  waiting_live : ∀ {q n f k l}, waiting q n (.call f k) l →
    (∃ g l', sys l f g l') ∨ ∀ t, ∃ l' t', handle (l, t) (l', t')
  answered_idle : ∀ {r n f k l}, answered r n (.call f k) l → ¬ idle l
  answered_done : ∀ {r n r' l}, answered r n (.done r') l → r' = r ∧ idle l
  answered_cut : ∀ {r n l}, ¬ answered r n .cut l
  answered_step : ∀ {r n f k l g l'}, answered r n (.call f k) l → sys l f g l' →
    ∃ n' < n, answered r n' (k g) l'
  answered_handle : ∀ {r n m l t x}, answered r n m l → ¬ handle (l, t) x
  answered_live : ∀ {r n f k l}, answered r n (.call f k) l → ∃ g l', sys l f g l'

/-- Where a program has got to: what is left of it from afar, whether an answer is on its way, and the
steps to what comes next. -/
abbrev Stage (Q R α : Type) : Type := Prog Q R α × ℕ × ℕ

/-- Steps of the program, then the end of an answer, then the next request, lead further on. -/
def Stage.Later : Stage Q R α → Stage Q R α → Prop :=
  Prod.Lex Prog.Next (Prod.Lex (· < ·) (· < ·))

theorem Stage.wellFounded_later : WellFounded (Stage.Later : Stage Q R α → Stage Q R α → Prop) :=
  WellFounded.prod_lex Prog.wellFounded_next (WellFounded.prod_lex wellFounded_lt wellFounded_lt)

namespace Protocol

variable {sys : Step F G L} {handle : L × T → L × T → Prop} {serve : Step Q R T}
  {impl : Q → Prog F G R} {ok : Q → Prop} (P : Protocol sys handle serve impl ok)

/-- A program at a stage, from close up. -/
inductive At : Stage Q R α → Prog F G α → L → Prop
  | ended {a : α} {l : L} (h : P.idle l) : At (.done a, 0, 0) (.done a) l
  | cut {l : L} (h : P.idle l) : At (.cut, 0, 0) .cut l
  | waiting {q : Q} {k : R → Prog Q R α} {n : ℕ} {m : Prog F G R} {l : L} (h : P.waiting q n m l) :
      At (.call q k, 0, n) (m.bind fun r => (k r).expand impl) l
  | answered {k : R → Prog Q R α} {r : R} {n : ℕ} {f : F} {m : G → Prog F G R} {l : L}
      (h : P.answered r n (.call f m) l) :
      At (k r, 1, n) ((Prog.call f m).bind fun r => (k r).expand impl) l

variable {P} {p : Prog F G α} {c : Prog Q R α} {x : Stage Q R α} {l l' : L} {t t' : T}

/-- On an idle channel a program begins. -/
theorem At.of_idle (hc : ∀ q k, c = .call q k → ok q) (hl : P.idle l) :
    ∃ n, P.At (c, 0, n) (c.expand impl) l := by
  cases c with
  | done a => exact ⟨0, .ended hl⟩
  | cut => exact ⟨0, .cut hl⟩
  | call q k =>
    obtain ⟨n, hn⟩ := P.idle_start (hc q k rfl) hl
    exact ⟨n, .waiting hn⟩

/-- A step of the program leaves it where it is from afar. -/
theorem At.move {f : F} {k : G → Prog F G α} {g : G} (h : P.At x p l)
    (hc : ∀ q k, x.1 = .call q k → ok q) (hp : p = .call f k) (hsys : sys l f g l') :
    ∃ y : Stage Q R α, y.1 = x.1 ∧ y.Later x ∧ P.At y (k g) l' := by
  cases h with
  | ended => cases hp
  | cut => cases hp
  | @waiting q next n m _ h =>
    obtain ⟨f', k', rfl⟩ := P.waiting_call h
    obtain ⟨rfl, rfl⟩ := Prog.call.inj hp
    obtain ⟨n', hn, h'⟩ := P.waiting_step h hsys
    exact ⟨(_, 0, n'), rfl, .right _ (.right _ hn), .waiting h'⟩
  | @answered next r n f' m _ h =>
    obtain ⟨rfl, rfl⟩ := Prog.call.inj hp
    obtain ⟨n', hn, h'⟩ := P.answered_step h hsys
    show ∃ y : Stage Q R α, y.1 = next r ∧ y.Later (next r, 1, n) ∧
      P.At y ((m g).bind fun r => (next r).expand impl) l'
    cases hm : m g with
    | done r' =>
      -- the answer is read, and what follows begins
      rw [hm] at h'
      obtain ⟨rfl, hl⟩ := P.answered_done h'
      obtain ⟨n'', hbegun⟩ := At.of_idle hc hl
      exact ⟨(next r', 0, n''), rfl, .right _ (.left _ _ Nat.zero_lt_one), hbegun⟩
    | cut =>
      rw [hm] at h'
      exact absurd h' P.answered_cut
    | call f' m' =>
      rw [hm] at h'
      exact ⟨(next r, 1, n'), rfl, .right _ (.right _ hn), .answered h'⟩

/-- A step of the server answers the request that waits. -/
theorem At.handled (h : P.At x p l) (hhandle : handle (l, t) (l', t')) :
    ∃ (q : Q) (k : R → Prog Q R α) (r : R) (y : Stage Q R α), x.1 = .call q k ∧ serve t q r t' ∧
      y.1 = k r ∧ P.At y p l' := by
  cases h with
  | ended hl => exact absurd hhandle (P.idle_handle hl)
  | cut hl => exact absurd hhandle (P.idle_handle hl)
  | @waiting q k n m _ h =>
    obtain ⟨f, m', rfl⟩ := P.waiting_call h
    obtain ⟨r, n', hserve, h'⟩ := P.waiting_handle h hhandle
    exact ⟨q, k, r, (k r, 1, n'), rfl, hserve, rfl, .answered h'⟩
  | answered h => exact absurd hhandle (P.answered_handle h)

/-- A program that is not at its end can get on, or the server can on its channel. -/
theorem At.live (h : P.At x p l) : (∃ a, p = .done a) ∨ p = .cut ∨
    (∃ f k g l', p = .call f k ∧ sys l f g l') ∨ ∀ t, ∃ l' t', handle (l, t) (l', t') := by
  cases h with
  | ended => exact Or.inl ⟨_, rfl⟩
  | cut => exact Or.inr (Or.inl rfl)
  | waiting h =>
    obtain ⟨f, m, rfl⟩ := P.waiting_call h
    rcases P.waiting_live h with ⟨g, l', hsys⟩ | hhandle
    · exact Or.inr (Or.inr (Or.inl ⟨f, _, g, l', rfl, hsys⟩))
    · exact Or.inr (Or.inr (Or.inr hhandle))
  | answered h =>
    obtain ⟨g, l', hsys⟩ := P.answered_live h
    exact Or.inr (Or.inr (Or.inl ⟨_, _, g, l', rfl, hsys⟩))

/-- Between two requests both views agree. -/
theorem At.between (h : P.At x p l) (hl : P.idle l) : p = x.1.expand impl := by
  cases h with
  | ended => rfl
  | cut => rfl
  | @waiting q k n m _ h =>
    rw [P.waiting_idle h hl]
    rfl
  | answered h => exact absurd hl (P.answered_idle h)

/-- A program at its end is there from afar too. -/
theorem At.done {a : α} (h : P.At x p l) (hp : p = .done a) : x.1 = .done a ∧ P.idle l := by
  cases h with
  | ended hl => exact ⟨congrArg _ (Prog.done.inj hp), hl⟩
  | cut => cases hp
  | waiting h =>
    obtain ⟨f, m, rfl⟩ := P.waiting_call h
    cases hp
  | answered => cases hp

theorem At.is_cut (h : P.At x p l) (hp : p = .cut) : x.1 = .cut := by
  cases h with
  | ended => cases hp
  | cut => rfl
  | waiting h =>
    obtain ⟨f, m, rfl⟩ := P.waiting_call h
    cases hp
  | answered => cases hp

/-! ### All programs -/

variable {w w' : Wired ι F G L T α} {stages : ι → Stage Q R α}

variable [DecidableEq ι]

/-- The programs from afar. -/
def left (stages : ι → Stage Q R α) (i : ι) : Prog Q R α := (stages i).1

variable (P) in
/-- Every program is at its stage, from where all of them ask only what is `ok`. -/
structure Stands (stages : ι → Stage Q R α) (w : Wired ι F G L T α) : Prop where
  at_ : ∀ i, P.At (stages i) (w.progs i) (w.channels i)
  asks : AsksOnly serve ok (left stages, w.server)

variable (P) in
/-- All programs begin, on idle channels. -/
theorem stands_start {progs : ι → Prog Q R α} {channels : ι → L}
    (hasks : AsksOnly serve ok (progs, t)) (hidle : ∀ i, P.idle (channels i)) :
    ∃ stages : ι → Stage Q R α, left stages = progs ∧
      P.Stands stages ⟨fun i => (progs i).expand impl, channels, t⟩ := by
  choose n hn using fun i => At.of_idle (fun _ _ hi => hasks.pending hi) (hidle i)
  exact ⟨fun i => (progs i, 0, n i), rfl, hn, hasks⟩

theorem left_update (stages : ι → Stage Q R α) (i : ι) (y : Stage Q R α) :
    left (Function.update stages i y) = Function.update (left stages) i y.1 :=
  Function.comp_update Prod.fst stages i y

/-- Where one program gets on, all others stay. -/
theorem Stands.update {i : ι} {y : Stage Q R α} (h : P.Stands stages w) (hat : P.At y p l)
    (hasks : AsksOnly serve ok (Function.update (left stages) i y.1, t)) :
    P.Stands (Function.update stages i y)
      ⟨Function.update w.progs i p, Function.update w.channels i l, t⟩ := by
  refine ⟨fun j => ?_, ?_⟩
  · by_cases hj : j = i
    · subst hj
      simpa only [Function.update_self] using hat
    · simpa only [Function.update_of_ne hj] using h.at_ j
  · rw [left_update]
    exact hasks

/-- **The step lemma.** A step of program `i`, or of the server on its channel, is from afar either none
or an answer to `i`, and leads `i` further on. -/
theorem Stands.step {i : ι} (h : P.Stands stages w) (hstep : WiredStep sys handle i w w') :
    ∃ y : Stage Q R α, y.Later (stages i) ∧ P.Stands (Function.update stages i y) w' ∧
      Relation.ReflGen (AtomicStep serve) (left stages, w.server)
        (left (Function.update stages i y), w'.server) := by
  cases hstep with
  | @move f k g l hi hsys =>
    obtain ⟨y, hy, hlater, hat⟩ := (h.at_ i).move (fun _ _ hcall => h.asks.pending hcall) hi hsys
    have hleft : Function.update (left stages) i y.1 = left stages := by
      rw [hy, show (stages i).1 = left stages i from rfl, Function.update_eq_self]
    refine ⟨y, hlater, h.update hat ?_, ?_⟩
    · rw [hleft]
      exact h.asks
    · rw [left_update, hleft]
  | @handle l t hhandle =>
    obtain ⟨q, k, r, y, hcall, hserve, hy, hat⟩ := (h.at_ i).handled hhandle
    have hlater : y.Later (stages i) := by
      obtain ⟨c, n⟩ := y
      rcases hstage : stages i with ⟨c', n'⟩
      rw [hstage] at hcall
      obtain rfl : c' = .call q k := hcall
      obtain rfl : c = k r := hy
      exact .left _ _ (.call q k r)
    have hatomic : AtomicStep serve (left stages, w.server)
        (Function.update (left stages) i y.1, t) := by
      rw [hy]
      exact .call hcall hserve
    have hprogs : w.progs = Function.update w.progs i (w.progs i) :=
      (Function.update_eq_self i w.progs).symm
    refine ⟨y, hlater, ?_, .single ?_⟩
    · rw [hprogs]
      exact h.update hat (h.asks.step hatomic)
    · rw [left_update]
      exact hatomic

/-- The run lemma. -/
theorem Stands.run (h : P.Stands stages w)
    (hrun : Relation.ReflTransGen (fun w w' => ∃ i, WiredStep sys handle i w w') w w') :
    ∃ stages' : ι → Stage Q R α, P.Stands stages' w' := by
  induction hrun with
  | refl => exact ⟨stages, h⟩
  | tail _ hstep ih =>
    obtain ⟨i, hstep⟩ := hstep
    obtain ⟨stages', h'⟩ := ih
    obtain ⟨y, -, hnext, -⟩ := h'.step hstep
    exact ⟨_, hnext⟩

/-- Each step leads some program further on and none back, so that there is an end to them. -/
theorem Stands.acc [Finite ι] (h : P.Stands stages w) :
    Acc (fun w' w => ∃ i, WiredStep sys handle i w w') w := by
  have hwf : WellFounded (Pi.Lex WellOrderingRel fun {_ : ι} => (Stage.Later : Stage Q R α → _ → Prop)) :=
    Pi.Lex.wellFounded _ fun _ => Stage.wellFounded_later
  induction hwf.apply stages generalizing w with
  | intro stages _ ih =>
    refine ⟨_, ?_⟩
    rintro w' ⟨i, hstep⟩
    obtain ⟨y, hlater, hnext, -⟩ := h.step hstep
    refine ih _ ⟨i, fun j hj => ?_, ?_⟩ hnext
    · have hne : j ≠ i := by
        rintro rfl
        exact irrefl_of WellOrderingRel j hj
      exact Function.update_of_ne hne _ _
    · rw [Function.update_self]
      exact hlater

/-! ### Runs from the beginning -/

variable (P)

/-- The two views of a program agree between two requests, and at its end. -/
structure Agree (w : Wired ι F G L T α) (x : (ι → Prog Q R α) × T) : Prop where
  server : w.server = x.2
  between : ∀ i, P.idle (w.channels i) → w.progs i = (x.1 i).expand impl
  done : ∀ i a, w.progs i = .done a → x.1 i = .done a ∧ P.idle (w.channels i)
  cut : ∀ i, w.progs i = .cut → x.1 i = .cut

variable {progs : ι → Prog Q R α} {channels : ι → L}

/-- **Refinement.** What programs do from close up is from afar one atomic request after the other. -/
theorem simulated (hasks : AsksOnly serve ok (progs, t)) (hidle : ∀ i, P.idle (channels i)) :
    Simulated (fun w w' => ∃ i, WiredStep sys handle i w w') (AtomicStep serve) P.Agree
      ⟨fun i => (progs i).expand impl, channels, t⟩ (progs, t) := by
  obtain ⟨stages, rfl, hstart⟩ := P.stands_start (t := t) hasks hidle
  refine ⟨fun w x => ∃ stages, P.Stands stages w ∧ x = (left stages, w.server),
    ⟨stages, hstart, rfl⟩, ?_, ?_⟩
  · rintro w _ ⟨stages, h, rfl⟩
    exact ⟨rfl, fun i => (h.at_ i).between, fun i a => (h.at_ i).done, fun i => (h.at_ i).is_cut⟩
  · rintro w w' _ ⟨stages, h, rfl⟩ ⟨i, hstep⟩
    obtain ⟨y, -, hnext, hone⟩ := h.step hstep
    exact ⟨_, hone.to_reflTransGen, _, hnext, rfl⟩

/-- **Nobody is stuck.** A program that is neither at its end nor cut off can get on, or the server can
on its channel. -/
theorem run_live (hasks : AsksOnly serve ok (progs, t)) (hidle : ∀ i, P.idle (channels i))
    (hrun : Relation.ReflTransGen (fun w w' => ∃ i, WiredStep sys handle i w w')
      ⟨fun i => (progs i).expand impl, channels, t⟩ w) (i : ι) :
    (∃ a, w.progs i = .done a) ∨ w.progs i = .cut ∨ ∃ w', WiredStep sys handle i w w' := by
  obtain ⟨stages, -, hstart⟩ := P.stands_start (t := t) hasks hidle
  obtain ⟨stages', hend⟩ := hstart.run hrun
  rcases (hend.at_ i).live with hdone | hcut | ⟨f, k, g, l', hi, hsys⟩ | hhandle
  · exact Or.inl hdone
  · exact Or.inr (Or.inl hcut)
  · exact Or.inr (Or.inr ⟨_, .move hi hsys⟩)
  · obtain ⟨l', t', h⟩ := hhandle w.server
    exact Or.inr (Or.inr ⟨_, .handle h⟩)

/-- **No run goes on forever.** -/
theorem run_terminates [Finite ι] (hasks : AsksOnly serve ok (progs, t))
    (hidle : ∀ i, P.idle (channels i)) : Acc (fun w' w => ∃ i, WiredStep sys handle i w w')
      ⟨fun i => (progs i).expand impl, channels, t⟩ := by
  obtain ⟨stages, -, hstart⟩ := P.stands_start (t := t) hasks hidle
  exact hstart.acc

end Protocol

end Interaction
