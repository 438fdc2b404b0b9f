import NfsClient.Lib.Atomicity
import NfsClient.Lib.Objects

/-!
# Callers that share an object

Each of any number of callers has a client of its own, and all clients lead to one object. Of the state
of the object a part may belong to the caller alone (`Callers.own`), as a credential does; the rest is
shared. A caller with the object at hand invokes one method at a time, and between two of its own any
number of others may come (`InvokeStep`).

Where every method takes one request or none (`OneRequest`), clients whose requests are atomic are such
callers (`callers_simulated`): what each of them is left with is the dialogue that it has had with the
object at hand.
-/

namespace Interaction

variable {ι Q R T M C A σ α β γ : Type} {V : M → Type}

/-! ### Callers of the object at hand -/

/-- What each caller will do, what it has seen, its own part of the state, and the part of all. -/
structure Callers (ι M : Type) (V : M → Type) (A σ : Type) where
  callers : ι → Strategy M V
  history : ι → Dialogue M V
  own : ι → A
  shared : σ

/-- One of the callers invokes a method. -/
inductive InvokeStep [DecidableEq ι] (obj : Object M V (A × σ)) :
    Callers ι M V A σ → Callers ι M V A σ → Prop
  | invoke {x : Callers ι M V A σ} {i : ι} {m : M} {next : V m → Strategy M V}
      (hi : x.callers i = .invoke m next) :
      InvokeStep obj x
        ⟨Function.update x.callers i (next (obj m (x.own i, x.shared)).1),
          Function.update x.history i (x.history i ++ [⟨m, (obj m (x.own i, x.shared)).1⟩]),
          Function.update x.own i (obj m (x.own i, x.shared)).2.1,
          (obj m (x.own i, x.shared)).2.2⟩

/-- Whatever the others have made of the shared part, the caller invokes only what `ok` allows. -/
def Strategy.Keeps (obj : Object M V (A × σ)) (ok : M → A → Prop) : Strategy M V → A → Prop
  | .stop, _ => True
  | .invoke m next, a => ok m a ∧ ∀ s, (next (obj m (a, s)).1).Keeps obj ok (obj m (a, s)).2.1

/-! ### Clients -/

/-- A method either takes no request, and then it does not touch the shared part, or one, of which the
object is the meaning. -/
def OneRequest (serve : Step Q R T) (fits : Q → Prop) (obj : Object M V (A × σ))
    (perform : (m : M) → C → Prog Q R (V m × C)) (abs : T → σ) (rel : A → C → Prop)
    (ok : M → A → Prop) : Prop :=
  ∀ m a c, rel a c → ok m a →
    (∃ v a' c', perform m c = .done (v, c') ∧ rel a' c' ∧ ∀ s, obj m (a, s) = (v, a', s)) ∨
      ∃ q, ∃ f : R → V m × C, perform m c = .call q (fun r => .done (f r)) ∧ fits q ∧
        ∀ t r t', serve t q r t' →
          (f r).1 = (obj m (a, abs t)).1 ∧ rel (obj m (a, abs t)).2.1 (f r).2 ∧
            abs t' = (obj m (a, abs t)).2.2

/-- What is left of a caller that has seen `seen`, with a client in state `c`. -/
def ahead (perform : (m : M) → C → Prog Q R (V m × C)) (caller : Strategy M V)
    (seen : Dialogue M V) (c : C) : Prog Q R (Dialogue M V × C) :=
  (caller.dialogue perform c).bind fun hc => .done (seen ++ hc.1, hc.2)

section

variable {serve : Step Q R T} {fits : Q → Prop} {obj : Object M V (A × σ)}
  {perform : (m : M) → C → Prog Q R (V m × C)} {abs : T → σ} {rel : A → C → Prop} {ok : M → A → Prop}

theorem ahead_nil (caller : Strategy M V) (c : C) :
    ahead perform caller [] c = caller.dialogue perform c := by
  unfold ahead
  generalize caller.dialogue perform c = p
  induction p with
  | done a => rfl
  | cut => rfl
  | call q k ih => exact congrArg (Prog.call q) (funext ih)

/-- A method that is invoked joins what has been seen. -/
theorem ahead_invoke (m : M) (next : V m → Strategy M V) (seen : Dialogue M V) (c : C) :
    ahead perform (.invoke m next) seen c =
      (perform m c).bind fun vc => ahead perform (next vc.1) (seen ++ [⟨m, vc.1⟩]) vc.2 := by
  unfold ahead
  rw [Strategy.dialogue, Prog.bind_assoc]
  refine congrArg _ (funext fun vc => ?_)
  rw [Prog.bind_assoc]
  refine congrArg _ (funext fun hc => ?_)
  rw [Prog.bind_done, List.append_assoc, List.singleton_append]

/-- A method that takes no request leaves the caller as it would be with the object at hand. -/
theorem Strategy.Keeps.next {m : M} {next : V m → Strategy M V} {a a' : A} {v : V m}
    (h : (Strategy.invoke m next).Keeps obj ok a) (s : σ) (hobj : obj m (a, s) = (v, a', s)) :
    (next v).Keeps obj ok a' := by
  have hnext := h.2 s
  rwa [hobj] at hnext

/-- A caller of such methods asks only what fits. -/
theorem OneRequest.asks (h : OneRequest serve fits obj perform abs rel ok) (t : T) :
    ∀ (caller : Strategy M V) (seen : Dialogue M V) {a : A} {c : C}, rel a c → caller.Keeps obj ok a →
      (ahead perform caller seen c).Asks serve fits
  | .stop, _, _, _, _, _ => trivial
  | .invoke m next, seen, a, c, hrel, hkeeps => by
    rw [ahead_invoke]
    rcases h m a c hrel hkeeps.1 with ⟨v, a', c', hperform, hrel', hobj⟩ | ⟨q, f, hperform, hfits, hserve⟩
    · rw [hperform]
      exact h.asks t (next v) _ hrel' (hkeeps.next (abs t) (hobj _))
    · rw [hperform]
      refine (wp_call _ _ _).mpr ⟨hfits, ?_⟩
      rintro r _ ⟨t₀, t', hstep⟩
      obtain ⟨hv, hrel', -⟩ := hserve t₀ r t' hstep
      have hnext := hkeeps.2 (abs t₀)
      rw [← hv] at hnext
      exact h.asks t (next (f r).1) _ hrel' hnext

/-- From the beginning. -/
theorem OneRequest.dialogue_asks (h : OneRequest serve fits obj perform abs rel ok) (t : T)
    (caller : Strategy M V) {a : A} {c : C} (hrel : rel a c) (hkeeps : caller.Keeps obj ok a) :
    (caller.dialogue perform c).Asks serve fits := by
  rw [← ahead_nil]
  exact h.asks t caller [] hrel hkeeps

/-! ### The simulation -/

/-- A caller and its client: the program is what is left of the caller, whose next method, if there is
one, takes a request. -/
structure Served (obj : Object M V (A × σ)) (perform : (m : M) → C → Prog Q R (V m × C))
    (rel : A → C → Prop) (ok : M → A → Prop) (p : Prog Q R (Dialogue M V × C)) (caller : Strategy M V)
    (seen : Dialogue M V) (a : A) : Prop where
  keeps : caller.Keeps obj ok a
  client : ∃ c, rel a c ∧ p = ahead perform caller seen c ∧
    ∀ m next, caller = .invoke m next → ∃ q k, perform m c = .call q k

variable [DecidableEq ι]

/-- Methods that take no request are invoked ahead of time. -/
theorem OneRequest.settle (h : OneRequest serve fits obj perform abs rel ok) (t : T) (i : ι) :
    ∀ (caller : Strategy M V) {x : Callers ι M V A σ} {c : C}, x.callers i = caller →
      rel (x.own i) c → caller.Keeps obj ok (x.own i) →
      ∃ caller' seen a, Relation.ReflTransGen (InvokeStep obj) x
          ⟨Function.update x.callers i caller', Function.update x.history i seen,
            Function.update x.own i a, x.shared⟩ ∧
        Served obj perform rel ok (ahead perform caller (x.history i) c) caller' seen a
  | .stop, x, c, hcaller, hrel, hkeeps => by
    refine ⟨.stop, x.history i, x.own i, ?_, hkeeps, c, hrel, rfl, ?_⟩
    · rw [← hcaller, Function.update_eq_self, Function.update_eq_self, Function.update_eq_self]
    · exact fun _ _ hstop => nomatch hstop
  | .invoke m next, x, c, hcaller, hrel, hkeeps => by
    rcases h m _ c hrel hkeeps.1 with ⟨v, a', c', hperform, hrel', hobj⟩ | ⟨q, f, hperform, -, -⟩
    · -- the method is invoked, and then those behind it
      let x' : Callers ι M V A σ := ⟨Function.update x.callers i (next v),
        Function.update x.history i (x.history i ++ [⟨m, v⟩]), Function.update x.own i a', x.shared⟩
      have hstep : InvokeStep obj x x' := by
        have hinvoke : InvokeStep obj x _ := .invoke hcaller
        rwa [hobj x.shared] at hinvoke
      have hcaller' : x'.callers i = next v := Function.update_self ..
      have hown : x'.own i = a' := Function.update_self ..
      have hhistory : x'.history i = x.history i ++ [⟨m, v⟩] := Function.update_self ..
      obtain ⟨caller', seen, a, hrun, hserved⟩ := h.settle t i (next v) (c := c') hcaller'
        (hown ▸ hrel') (hown ▸ hkeeps.next x.shared (hobj _))
      rw [hhistory] at hserved
      simp only [x', Function.update_idem] at hrun
      refine ⟨caller', seen, a, .head hstep hrun, ?_⟩
      rw [ahead_invoke, hperform]
      exact hserved
    · refine ⟨_, x.history i, x.own i, ?_, hkeeps, c, hrel, rfl, ?_⟩
      · rw [← hcaller, Function.update_eq_self, Function.update_eq_self, Function.update_eq_self]
      · rintro m' next' heq
        cases heq
        exact ⟨q, _, hperform⟩

variable (obj perform rel ok abs) in
/-- Every caller has what its client has left, and the object is in one state. -/
structure Together (y : (ι → Prog Q R (Dialogue M V × C)) × T) (x : Callers ι M V A σ) : Prop where
  served : ∀ i, Served obj perform rel ok (y.1 i) (x.callers i) (x.history i) (x.own i)
  shared : abs y.2 = x.shared

/-- Where one caller gets on, all others stay. -/
theorem Together.update {y : (ι → Prog Q R (Dialogue M V × C)) × T} {x : Callers ι M V A σ} {i : ι}
    {p : Prog Q R (Dialogue M V × C)} {t : T} {caller : Strategy M V} {seen : Dialogue M V} {a : A} {s : σ}
    (h : ∀ j, j ≠ i → Served obj perform rel ok (y.1 j) (x.callers j) (x.history j) (x.own j))
    (hserved : Served obj perform rel ok p caller seen a) (hshared : abs t = s) :
    Together obj perform abs rel ok (Function.update y.1 i p, t)
      ⟨Function.update x.callers i caller, Function.update x.history i seen, Function.update x.own i a,
        s⟩ := by
  refine ⟨fun j => ?_, hshared⟩
  by_cases hj : j = i
  · subst hj
    simpa only [Function.update_self] using hserved
  · simpa only [Function.update_of_ne hj] using h j hj

/-- **The step lemma.** A request of a client is a method of its caller, and whatever methods behind it
take no request. -/
theorem Together.step (h : OneRequest serve fits obj perform abs rel ok)
    {y y' : (ι → Prog Q R (Dialogue M V × C)) × T} {x : Callers ι M V A σ}
    (hin : Together obj perform abs rel ok y x) (hstep : AtomicStep serve y y') :
    ∃ x', Relation.ReflTransGen (InvokeStep obj) x x' ∧ Together obj perform abs rel ok y' x' := by
  cases hstep with
  | @call progs t t' i q k r hi hserve =>
    obtain ⟨hkeeps, c, hrel, hp, hnext⟩ := hin.served i
    replace hp : progs i = ahead perform (x.callers i) (x.history i) c := hp
    rw [hi] at hp
    cases hcaller : x.callers i with
    | stop =>
      rw [hcaller] at hp
      cases hp
    | invoke m next =>
      rw [hcaller] at hp hkeeps
      rw [ahead_invoke] at hp
      obtain ⟨q', k', hrequest⟩ := hnext m next hcaller
      rcases h m _ c hrel hkeeps.1 with ⟨v, a', c', hperform, -, -⟩ | ⟨q'', f, hperform, -, hmeaning⟩
      · rw [hperform] at hrequest
        cases hrequest
      · rw [hperform] at hp
        obtain ⟨rfl, rfl⟩ := Prog.call.inj hp
        have hshared : abs t = x.shared := hin.shared
        obtain ⟨hv, hrel', habs⟩ := hmeaning t r t' hserve
        rw [hshared] at hv hrel' habs
        have hkeeps' := hkeeps.2 x.shared
        rw [← hv] at hkeeps'
        let x' : Callers ι M V A σ := ⟨Function.update x.callers i (next (f r).1),
          Function.update x.history i (x.history i ++ [⟨m, (f r).1⟩]),
          Function.update x.own i (obj m (x.own i, x.shared)).2.1, abs t'⟩
        have hinvoke : InvokeStep obj x x' := by
          have hinvoke : InvokeStep obj x _ := .invoke hcaller
          rwa [← hv, ← habs] at hinvoke
        have hcaller' : x'.callers i = next (f r).1 := Function.update_self ..
        have hown : x'.own i = (obj m (x.own i, x.shared)).2.1 := Function.update_self ..
        have hhistory : x'.history i = x.history i ++ [⟨m, (f r).1⟩] := Function.update_self ..
        obtain ⟨caller, seen, a, hrun, hserved⟩ := h.settle t' i (next (f r).1) (c := (f r).2) hcaller'
          (hown ▸ hrel') (hown ▸ hkeeps')
        rw [hhistory] at hserved
        simp only [x', Function.update_idem] at hrun
        exact ⟨_, .head hinvoke hrun, .update (fun j _ => hin.served j) hserved rfl⟩

/-- In the beginning some of the callers have invoked what takes no request. -/
theorem OneRequest.settle_all (h : OneRequest serve fits obj perform abs rel ok) (t : T)
    {callers : ι → Strategy M V} {a : ι → A} {c : ι → C} (hrel : ∀ i, rel (a i) (c i))
    (hkeeps : ∀ i, (callers i).Keeps obj ok (a i)) (s : Finset ι) :
    ∃ x : Callers ι M V A σ, Relation.ReflTransGen (InvokeStep obj) ⟨callers, fun _ => [], a, abs t⟩ x ∧
      x.shared = abs t ∧
      (∀ i ∈ s, Served obj perform rel ok ((callers i).dialogue perform (c i)) (x.callers i)
        (x.history i) (x.own i)) ∧
      ∀ i ∉ s, x.callers i = callers i ∧ x.history i = [] ∧ x.own i = a i := by
  induction s using Finset.induction_on with
  | empty =>
    refine ⟨_, .refl, rfl, fun i hi => absurd hi (Finset.notMem_empty i), ?_⟩
    exact fun _ _ => ⟨rfl, rfl, rfl⟩
  | insert i s hi ih =>
    obtain ⟨x, hrun, hshared, hserved, hrest⟩ := ih
    obtain ⟨hcaller, hhistory, hown⟩ := hrest i hi
    obtain ⟨caller, seen, a', hrun', hserved'⟩ := h.settle t i (callers i) (c := c i) hcaller
      (hown ▸ hrel i) (hown ▸ hkeeps i)
    rw [hhistory, ahead_nil] at hserved'
    refine ⟨_, hrun.trans hrun', hshared, fun j hj => ?_, fun j hj => ?_⟩
    · by_cases hji : j = i
      · subst hji
        simpa only [Function.update_self] using hserved'
      · simpa only [Function.update_of_ne hji] using hserved j (Finset.mem_of_mem_insert_of_ne hj hji)
    · have hji : j ≠ i := by
        rintro rfl
        exact hj (Finset.mem_insert_self _ _)
      simpa only [Function.update_of_ne hji] using hrest j fun hjs => hj (Finset.mem_insert_of_mem hjs)

/-- A client that has had its last request has left its caller with this dialogue. -/
structure Concluded (perform : (m : M) → C → Prog Q R (V m × C)) (abs : T → σ)
    (y : (ι → Prog Q R (Dialogue M V × C)) × T) (x : Callers ι M V A σ) : Prop where
  shared : abs y.2 = x.shared
  client : ∀ i, ∃ c, y.1 i = ahead perform (x.callers i) (x.history i) c
  done : ∀ i hc, y.1 i = .done hc → x.callers i = .stop ∧ x.history i = hc.1
  not_cut : ∀ i, y.1 i ≠ .cut

omit [DecidableEq ι] in
theorem Together.concluded {y : (ι → Prog Q R (Dialogue M V × C)) × T} {x : Callers ι M V A σ}
    (hin : Together obj perform abs rel ok y x) : Concluded perform abs y x := by
  have hends : ∀ i, (∃ q k, y.1 i = .call q k) ∨
      x.callers i = .stop ∧ ∃ c, y.1 i = .done (x.history i, c) := by
    intro i
    obtain ⟨-, c, -, hp, hnext⟩ := hin.served i
    cases hcaller : x.callers i with
    | stop =>
      refine Or.inr ⟨rfl, c, ?_⟩
      rw [hp, hcaller, ahead, Strategy.dialogue, Prog.bind_done, List.append_nil]
    | invoke m next =>
      obtain ⟨q, k, hrequest⟩ := hnext m next hcaller
      rw [hcaller, ahead_invoke, hrequest] at hp
      exact Or.inl ⟨q, _, hp⟩
  refine ⟨hin.shared, fun i => ?_, fun i hc hdone => ?_, fun i hcut => ?_⟩
  · obtain ⟨-, c, -, hp, -⟩ := hin.served i
    exact ⟨c, hp⟩
  · rcases hends i with ⟨q, k, hcall⟩ | ⟨hstop, c, hend⟩
    · rw [hcall] at hdone
      cases hdone
    · rw [hend] at hdone
      cases hdone
      exact ⟨hstop, rfl⟩
  · rcases hends i with ⟨q, k, hcall⟩ | ⟨-, c, hend⟩
    · rw [hcall] at hcut
      cases hcut
    · rw [hend] at hcut
      cases hcut

/-- **Sharing.** Clients whose requests are atomic serve their callers as the object at hand would: step
by step, what they do is what callers of the object do. -/
theorem OneRequest.simulated [Finite ι] (h : OneRequest serve fits obj perform abs rel ok)
    {callers : ι → Strategy M V} {a : ι → A} {c : ι → C} (hrel : ∀ i, rel (a i) (c i))
    (hkeeps : ∀ i, (callers i).Keeps obj ok (a i)) (t : T) :
    ∃ x, Relation.ReflTransGen (InvokeStep obj) ⟨callers, fun _ => [], a, abs t⟩ x ∧
      Simulated (AtomicStep serve) (InvokeStep obj) (Concluded perform abs)
        (fun i => (callers i).dialogue perform (c i), t) x := by
  cases nonempty_fintype ι
  obtain ⟨x, hrun, hshared, hserved, -⟩ := h.settle_all t hrel hkeeps Finset.univ
  refine ⟨x, hrun, Together obj perform abs rel ok, ⟨fun i => hserved i (Finset.mem_univ i), hshared.symm⟩,
    ?_, ?_⟩
  · exact fun y x hin => hin.concluded
  · exact fun y y' x hin hstep => hin.step h hstep

end

end Interaction
