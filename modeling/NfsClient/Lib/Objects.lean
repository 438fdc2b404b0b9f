import NfsClient.Lib.Interaction

/-!
# Remote objects

A caller with an object at hand invokes its methods directly. A caller of a remote object invokes
methods of a client, each a program that sends requests to where the object is. The client is
transparent when the caller cannot tell: it sees the same dialogue, and leaves the object in the same
state.

* `Object` is an object at hand, `Strategy.direct` a caller with one, and `Strategy.dialogue` a
  caller with a client; both keep what was invoked and what came of it.
* `Prog.Ends` is total correctness against a server that is a function, with a budget: the program
  comes to a given end if the server has `n` units to spend, and spends no more than these.
* `Strategy.dialogue_ends` is the forward simulation: where every method is transparent, every caller
  is served transparently.
-/

namespace Interaction

variable {Q R S K M A C α β : Type} {V : M → Type}

/-! ### Objects at hand -/

/-- An object: what a method comes to, and what it makes of the state of the object. -/
abbrev Object (M : Type) (V : M → Type) (A : Type) : Type := (m : M) → A → V m × A

/-- The methods invoked and what each came to, in order. -/
abbrev Dialogue (M : Type) (V : M → Type) : Type := List ((m : M) × V m)

/-- A caller with an object at hand: the dialogue, and the state in which the object is left. -/
def Strategy.direct (obj : Object M V A) : Strategy M V → A → Dialogue M V × A
  | .stop, a => ([], a)
  | .invoke m next, a =>
    let va := obj m a
    let rest := (next va.1).direct obj va.2
    (⟨m, va.1⟩ :: rest.1, rest.2)

/-- Every method is invoked in a state of the object in which `ok` allows it. -/
def Strategy.Respects (obj : Object M V A) (ok : M → A → Prop) : Strategy M V → A → Prop
  | .stop, _ => True
  | .invoke m next, a => ok m a ∧ (next (obj m a).1).Respects obj ok (obj m a).2

/-! ### Clients -/

/-- A caller with a client in state `c`: the program they make up, which ends with the dialogue. -/
def Strategy.dialogue (perform : (m : M) → C → Prog Q R (V m × C)) :
    Strategy M V → C → Prog Q R (Dialogue M V × C)
  | .stop, c => .done ([], c)
  | .invoke m next, c =>
    (perform m c).bind fun vc =>
      ((next vc.1).dialogue perform vc.2).bind fun hc => .done (⟨m, vc.1⟩ :: hc.1, hc.2)

/-! ### Runs with a budget -/

section Ends

variable (serve : S → Q → Option R × S) (at_ : K → S → Prop) (budget : S → ℕ)

/-- With a budget of `n` the program ends with `a` and takes the server from position `k` to `k'`, and
of the budget it spends at most `n`. -/
def Prog.Ends (n : ℕ) (p : Prog Q R α) (k : K) (a : α) (k' : K) : Prop :=
  ∀ s, at_ k s → n ≤ budget s →
    ∃ s', p.run serve s = (some a, s') ∧ at_ k' s' ∧ budget s ≤ budget s' + n

variable {serve at_ budget}

theorem Prog.Ends.done (a : α) (k : K) : (Prog.done a).Ends serve at_ budget 0 k a k :=
  fun s hs _ => ⟨s, rfl, hs, Nat.le_refl _⟩

/-- **The rule of sequencing**: the budgets add up. -/
theorem Prog.Ends.bind {n m : ℕ} {p : Prog Q R α} {f : α → Prog Q R β} {k k' k'' : K} {a : α} {b : β}
    (hp : p.Ends serve at_ budget n k a k') (hf : (f a).Ends serve at_ budget m k' b k'') :
    (p.bind f).Ends serve at_ budget (n + m) k b k'' := by
  intro s hs hbudget
  obtain ⟨s₁, hrun, hs₁, hspent⟩ := hp s hs (by omega)
  obtain ⟨s₂, hrun', hs₂, hspent'⟩ := hf s₁ hs₁ (by omega)
  exact ⟨s₂, (Prog.run_bind hrun).trans hrun', hs₂, by omega⟩

/-- A request, and what is done with its response. -/
theorem Prog.Ends.call {n m : ℕ} {q : Q} {f : R → Prog Q R β} {k k' k'' : K} {r : R} {b : β}
    (hq : (Prog.call q .done).Ends serve at_ budget n k r k')
    (hf : (f r).Ends serve at_ budget m k' b k'') :
    (Prog.call q f).Ends serve at_ budget (n + m) k b k'' :=
  hq.bind hf

/-- A method that is transparent wherever `ok` allows it: it ends with what the object says, in states
that are related again. -/
def Transparent (serve : S → Q → Option R × S) (at_ : K → S → Prop) (budget : S → ℕ)
    (obj : Object M V A) (perform : (m : M) → C → Prog Q R (V m × C)) (rel : A → C → K → Prop)
    (ok : M → A → Prop) : Prop :=
  ∀ m a c k, rel a c k → ok m a → ∃ n c' k',
    (perform m c).Ends serve at_ budget n k ((obj m a).1, c') k' ∧ rel (obj m a).2 c' k'

/-- **Forward simulation.** A caller of transparent methods has the dialogue that it would have with
the object at hand, and the object comes to the same state. -/
theorem Strategy.dialogue_ends {obj : Object M V A} {perform : (m : M) → C → Prog Q R (V m × C)}
    {rel : A → C → K → Prop} {ok : M → A → Prop}
    (h : Transparent serve at_ budget obj perform rel ok) :
    ∀ (σ : Strategy M V) {a : A} {c : C} {k : K}, rel a c k → σ.Respects obj ok a →
      ∃ n c' k', (σ.dialogue perform c).Ends serve at_ budget n k ((σ.direct obj a).1, c') k' ∧
        rel (σ.direct obj a).2 c' k'
  | .stop, _, c, k, hrel, _ => ⟨0, c, k, .done _ _, hrel⟩
  | .invoke m next, a, c, k, hrel, ⟨hok, hnext⟩ => by
    obtain ⟨n, c₁, k₁, hends, hrel₁⟩ := h m a c k hrel hok
    -- the caller goes on from the value that both hand back
    obtain ⟨n', c₂, k₂, hends', hrel₂⟩ :=
      Strategy.dialogue_ends h (next (obj m a).1) hrel₁ hnext
    exact ⟨n + (n' + 0), c₂, k₂, hends.bind (hends'.bind (.done _ _)), hrel₂⟩

end Ends

end Interaction
