import NfsClient.Lib.Interaction

/-!
# Parties that share a server

Any number of parties talk to one server, and at any time any of them may be the next to send its
request. Each party builds an object of its own: a constructor, which is a program, ends with the
object, and from then on the party runs a program on it (`Party`, `SharedStep`). The server may go by
who sends, so that its state can keep a log of that.

What a party can rely on is a relation `rely` on the states of the server that the steps of all others
keep. Between two requests of its own anything may happen that `rely` allows, which makes the rest of
the world one environment of the party (`interfered`), and its constructor is verified by `wp` against
that. `Contract` collects what this takes; `Contract.run_holds` is the rule: in every run, in whatever
order the parties send, each of them is where `wp` says.
-/

namespace Interaction

variable {ι Q R S C α : Type}

/-! ### Runs -/

/-- A party: its constructor is under way, or has returned `c`. -/
inductive Party (Q R C : Type) : Type
  | constructing (p : Prog Q R (Option C))
  | returned (c : C) (p : Prog Q R Unit)

/-- One of the parties sends its request, or its constructor returns; `serve i c` is what party `i`
does with its object. -/
inductive SharedStep [DecidableEq ι] (step : ι → Step Q R S) (serve : ι → C → Prog Q R Unit) :
    (ι → Party Q R C) × S → (ι → Party Q R C) × S → Prop
  | construct {parties : ι → Party Q R C} {s s' : S} {i : ι} {q : Q} {k : R → Prog Q R (Option C)}
      {r : R} (hi : parties i = .constructing (.call q k)) (hstep : step i s q r s') :
      SharedStep step serve (parties, s)
        (Function.update parties i (.constructing (k r)), s')
  | finish {parties : ι → Party Q R C} {s : S} {i : ι} {c : C}
      (hi : parties i = .constructing (.done (some c))) :
      SharedStep step serve (parties, s)
        (Function.update parties i (.returned c (serve i c)), s)
  | invoke {parties : ι → Party Q R C} {s s' : S} {i : ι} {c : C} {q : Q} {k : R → Prog Q R Unit}
      {r : R} (hi : parties i = .returned c (.call q k)) (hstep : step i s q r s') :
      SharedStep step serve (parties, s)
        (Function.update parties i (.returned c (k r)), s')

/-- A run of parties that all begin with their constructors. -/
def SharedRun [DecidableEq ι] (step : ι → Step Q R S) (construct : ι → Prog Q R (Option C))
    (serve : ι → C → Prog Q R Unit) (s : S) : (ι → Party Q R C) × S → Prop :=
  Relation.ReflTransGen (SharedStep step serve) (fun i => .constructing (construct i), s)

section Runs

variable [DecidableEq ι] {step : ι → Step Q R S} {parties : ι → Party Q R C} {i : ι} {s s' : S}
  {tr : List (Q × R)}

/-- A constructor gets on while all others wait. -/
theorem Trace.shared {p p' : Prog Q R (Option C)} (htr : Trace (step i) p s tr p' s')
    (serve : ι → C → Prog Q R Unit) (hi : parties i = .constructing p) :
    Relation.ReflTransGen (SharedStep step serve) (parties, s)
      (Function.update parties i (.constructing p'), s') := by
  induction htr generalizing parties with
  | refl p s => rw [← hi, Function.update_eq_self]
  | @call q k s s' s'' r tr p' hstep _ ih =>
    have hnext : Function.update parties i (.constructing (k r)) i = .constructing (k r) :=
      Function.update_self ..
    have hrest := ih hnext
    rw [Function.update_idem] at hrest
    exact .head (.construct hi hstep) hrest

/-- A constructor ends while all others wait. -/
theorem Trace.shared_returns {p : Prog Q R (Option C)} {c : C}
    (htr : Trace (step i) p s tr (.done (some c)) s') (serve : ι → C → Prog Q R Unit)
    (hi : parties i = .constructing p) : Relation.ReflTransGen (SharedStep step serve) (parties, s)
      (Function.update parties i (.returned c (serve i c)), s') := by
  have hfinish : SharedStep step serve (Function.update parties i (.constructing (.done (some c))), s') _ :=
    .finish (Function.update_self ..)
  rw [Function.update_idem] at hfinish
  exact .tail (htr.shared serve hi) hfinish

end Runs

/-! ### What a party can rely on -/

/-- The environment of a party: before the server answers, others may have moved it. -/
def interfered (rely : S → S → Prop) (step : Step Q R S) : Step Q R S :=
  fun s q r s' => ∃ s₀, rely s s₀ ∧ step s₀ q r s'

section Interference

variable {step : Step Q R S} {rely : S → S → Prop} {ok : S → Q → Prop} {post : α → S → Prop}

/-- What others do in between keeps the precondition of the rest. -/
theorem wp_interfere (htrans : ∀ s₁ s₂ s₃, rely s₁ s₂ → rely s₂ s₃ → rely s₁ s₃)
    (hok : ∀ s s' q, rely s s' → ok s q → ok s' q) (hpost : ∀ a s s', rely s s' → post a s → post a s') :
    ∀ {p : Prog Q R α} {s s' : S}, rely s s' → wp (interfered rely step) ok post p s →
      wp (interfered rely step) ok post p s'
  | .done a, s, s', hrely, h => hpost a s s' hrely h
  | .cut, _, _, _, _ => trivial
  | .call q k, s, s', hrely, ⟨hq, hk⟩ => by
    refine ⟨hok s s' q hrely hq, ?_⟩
    rintro r s₁ ⟨s₀, hrely₀, hstep⟩
    exact hk r s₁ ⟨s₀, htrans _ _ _ hrely hrely₀, hstep⟩

/-- The party's own step is one of its environment in which nobody interferes. -/
theorem wp_step (hrefl : ∀ s, rely s s) {q : Q} {k : R → Prog Q R α} {r : R} {s s' : S}
    (h : wp (interfered rely step) ok post (.call q k) s) (hstep : step s q r s') :
    wp (interfered rely step) ok post (k r) s' :=
  h.2 r s' ⟨s, hrefl s, hstep⟩

end Interference

/-- Every request of the program is one of `P`, whatever is received. -/
def Prog.Only (P : Q → Prop) (p : Prog Q R α) : Prop :=
  wp (fun (_ : Unit) _ _ _ => True) (fun _ q => P q) (fun _ _ => True) p ()

/-! ### The rule -/

/-- What the steps of the parties keep for each other: `rely i` for party `i`, by the steps of all
others and by the `quiet` requests of its own; the invariant `inv`, by every request that is
admissible. `kept i c` is what a constructor establishes that returns `c`. -/
structure Contract (ι Q R S C : Type) (step : ι → Step Q R S) where
  rely : ι → S → S → Prop
  ok : ι → S → Q → Prop
  quiet : Q → Prop
  inv : S → Prop
  kept : ι → C → S → Prop
  rely_refl : ∀ i s, rely i s s
  rely_trans : ∀ i s₁ s₂ s₃, rely i s₁ s₂ → rely i s₂ s₃ → rely i s₁ s₃
  rely_of_other : ∀ i j s q r s', i ≠ j → step j s q r s' → rely i s s'
  rely_of_quiet : ∀ i s q r s', quiet q → step i s q r s' → rely i s s'
  ok_stable : ∀ i s s' q, rely i s s' → ok i s q → ok i s' q
  ok_of_quiet : ∀ i s q, quiet q → ok i s q
  kept_stable : ∀ i c s s', rely i s s' → kept i c s → kept i c s'
  inv_step : ∀ i s q r s', inv s → ok i s q → step i s q r s' → inv s'

namespace Contract

variable {step : ι → Step Q R S} (K : Contract ι Q R S C step)

/-- What is asked of a constructor. -/
def Establishes (i : ι) (p : Prog Q R (Option C)) (s : S) : Prop :=
  wp (interfered (K.rely i) (step i)) (K.ok i) (fun o s => ∀ c, o = some c → K.kept i c s) p s

/-- Where a party is. -/
def Holds (i : ι) (s : S) : Party Q R C → Prop
  | .constructing p => K.Establishes i p s
  | .returned c p => K.kept i c s ∧ p.Only K.quiet

variable {K}

theorem Holds.interfere {i : ι} {s s' : S} (hrely : K.rely i s s') :
    ∀ {party : Party Q R C}, K.Holds i s party → K.Holds i s' party
  | .constructing _, h =>
    wp_interfere (K.rely_trans i) (K.ok_stable i)
      (fun _ s s' hrely hpost c hc => K.kept_stable i c s s' hrely (hpost c hc)) hrely h
  | .returned c _, ⟨hkept, hquiet⟩ => ⟨K.kept_stable i c s s' hrely hkept, hquiet⟩

/-- **The step lemma.** -/
theorem step_holds [DecidableEq ι] {serve : ι → C → Prog Q R Unit}
    (hserve : ∀ i c, (serve i c).Only K.quiet) {x y : (ι → Party Q R C) × S}
    (hinv : K.inv x.2) (hx : ∀ i, K.Holds i x.2 (x.1 i)) (hstep : SharedStep step serve x y) :
    K.inv y.2 ∧ ∀ i, K.Holds i y.2 (y.1 i) := by
  -- the party that moves is where it has got to, and all others keep what they have
  have hothers : ∀ {parties : ι → Party Q R C} {s s' : S} {i : ι} {party : Party Q R C},
      (∀ j, K.Holds j s (parties j)) → (∀ j, j ≠ i → K.rely j s s') → K.Holds i s' party →
        ∀ j, K.Holds j s' (Function.update parties i party j) := by
    intro parties s s' i party hall hrely hparty j
    by_cases hj : j = i
    · subst hj
      rw [Function.update_self]
      exact hparty
    · rw [Function.update_of_ne hj]
      exact (hall j).interfere (hrely j hj)
  cases hstep with
  | @construct parties s s' i q k r hi hstep =>
    have hparty : K.Establishes i (.call q k) s := by
      have h : K.Holds i s (parties i) := hx i
      rwa [hi] at h
    refine ⟨K.inv_step i s q r s' hinv hparty.1 hstep, hothers hx ?_ ?_⟩
    · exact fun j hj => K.rely_of_other j i s q r s' hj hstep
    · exact wp_step (K.rely_refl i) hparty hstep
  | @finish parties s i c hi =>
    have hparty : K.Establishes i (.done (some c)) s := by
      have h : K.Holds i s (parties i) := hx i
      rwa [hi] at h
    exact ⟨hinv, hothers hx (fun j _ => K.rely_refl j s) ⟨hparty c rfl, hserve i c⟩⟩
  | @invoke parties s s' i c q k r hi hstep =>
    have hparty : K.kept i c s ∧ (Prog.call q k).Only K.quiet := by
      have h : K.Holds i s (parties i) := hx i
      rwa [hi] at h
    obtain ⟨hkept, hquiet, hnext⟩ := hparty
    refine ⟨K.inv_step i s q r s' hinv (K.ok_of_quiet i s q hquiet) hstep, hothers hx ?_ ?_⟩
    · exact fun j hj => K.rely_of_other j i s q r s' hj hstep
    · exact ⟨K.kept_stable i c s s' (K.rely_of_quiet i s q r s' hquiet hstep) hkept,
        hnext r () trivial⟩

/-- **The rule of sharing.** -/
theorem run_holds [DecidableEq ι] {construct : ι → Prog Q R (Option C)}
    {serve : ι → C → Prog Q R Unit} {s : S} {x : (ι → Party Q R C) × S} (hinv : K.inv s)
    (hconstruct : ∀ i, K.Establishes i (construct i) s) (hserve : ∀ i c, (serve i c).Only K.quiet)
    (hrun : SharedRun step construct serve s x) : K.inv x.2 ∧ ∀ i, K.Holds i x.2 (x.1 i) := by
  induction hrun with
  | refl => exact ⟨hinv, hconstruct⟩
  | tail _ hstep ih => exact step_holds hserve ih.1 ih.2 hstep

end Contract

end Interaction
