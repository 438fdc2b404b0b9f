import Mathlib

/-!
# Computations with a state that can fail

`Eff ε σ α` works on a state `σ` and returns a value or fails; what it has done to the state before it
fails stays done. `Agree` relates two such computations that do the same thing and return their results
in different terms: from the same state they come to the same state, and both fail, with the same
failure, or both return, with related values. It goes through sequencing (`Agree.bind`), so that an
implementation in one vocabulary is compared with its meaning in another step by step.
-/

namespace Effects

variable {ε σ α β γ δ : Type}

/-- A computation on a state `σ` that fails with an `ε`. -/
abbrev Eff (ε σ α : Type) : Type := ExceptT ε (StateM σ) α

/-- What comes of a computation in a state, and the state that it leaves. -/
def Eff.on (x : Eff ε σ α) (s : σ) : Except ε α × σ := x.run.run s

@[simp] theorem Eff.on_pure (a : α) (s : σ) : (pure a : Eff ε σ α).on s = (.ok a, s) := rfl

@[simp] theorem Eff.on_throw (e : ε) (s : σ) : (throw e : Eff ε σ α).on s = (.error e, s) := rfl

theorem Eff.on_bind (x : Eff ε σ α) (f : α → Eff ε σ β) (s : σ) :
    (x >>= f).on s =
      match x.on s with
      | (.ok a, s') => (f a).on s'
      | (.error e, s') => (.error e, s') := by
  have hunfold : (x >>= f).on s =
      match (x.on s).1 with
      | .ok a => (f a).on (x.on s).2
      | .error e => (.error e, (x.on s).2) := by
    change (ExceptT.bindCont f (x.on s).1) (x.on s).2 = _
    cases (x.on s).1 <;> rfl
  rw [hunfold]
  rcases x.on s with ⟨_ | _, _⟩ <;> rfl

theorem Eff.on_bind_pure (x : Eff ε σ α) (f : α → β) (s : σ) :
    (x >>= fun a => pure (f a)).on s = ((x.on s).1.map f, (x.on s).2) := by
  rw [Eff.on_bind]
  rcases x.on s with ⟨_ | _, _⟩ <;> rfl

theorem Eff.bind_ok {x : Eff ε σ α} {f : α → Eff ε σ β} {s s'' : σ} {b : β} :
    (x >>= f).on s = (.ok b, s'') ↔ ∃ a s', x.on s = (.ok a, s') ∧ (f a).on s' = (.ok b, s'') := by
  rw [Eff.on_bind]
  rcases x.on s with ⟨_ | a, s'⟩ <;> simp

/-- A handler goes on in the state in which the computation has failed. -/
theorem Eff.on_tryCatch (x : Eff ε σ α) (h : ε → Eff ε σ α) (s : σ) :
    (tryCatch x h).on s =
      match x.on s with
      | (.ok a, s') => (.ok a, s')
      | (.error e, s') => (h e).on s' := by
  have hunfold : (tryCatch x h).on s =
      match (x.on s).1 with
      | .ok a => (.ok a, (x.on s).2)
      | .error e => (h e).on (x.on s).2 := by
    change (match (x.on s).1 with
      | .ok a => (pure (.ok a) : StateM σ (Except ε α))
      | .error e => h e) (x.on s).2 = _
    cases (x.on s).1 <;> rfl
  rw [hunfold]
  rcases x.on s with ⟨_ | _, _⟩ <;> rfl

/-! ### Agreement -/

/-- The same end: the same failure or related values, in the same state. -/
inductive SameEnd (P : α → β → Prop) : Except ε α × σ → Except ε β × σ → Prop
  | ok {a : α} {b : β} (s : σ) (h : P a b) : SameEnd P (.ok a, s) (.ok b, s)
  | error (e : ε) (s : σ) : SameEnd P (.error e, s) (.error e, s)

theorem SameEnd.state_eq {P : α → β → Prop} {u : Except ε α × σ} {v : Except ε β × σ}
    (h : SameEnd P u v) : u.2 = v.2 := by
  cases h with
  | ok | error => rfl

/-- Two computations that come to the same end from every state. -/
def Agree (P : α → β → Prop) (x : Eff ε σ α) (y : Eff ε σ β) : Prop :=
  ∀ s, SameEnd P (x.on s) (y.on s)

variable {P : α → β → Prop} {x : Eff ε σ α} {y : Eff ε σ β}

theorem Agree.pure {a : α} {b : β} (h : P a b) : Agree P (Pure.pure a : Eff ε σ α) (Pure.pure b) :=
  fun s => .ok s h

theorem Agree.throw (e : ε) : Agree P (throw e : Eff ε σ α) (throw e) := fun s => .error e s

theorem Agree.refl (x : Eff ε σ α) : Agree Eq x x := by
  intro s
  rcases x.on s with ⟨_ | _, s'⟩
  · exact .error _ s'
  · exact .ok s' rfl

/-- What is known of the values of the first computation may be used. -/
theorem Agree.mono {P' : α → β → Prop} (h : Agree P x y)
    (hP : ∀ s a s' b, x.on s = (.ok a, s') → P a b → P' a b) : Agree P' x y := by
  intro s
  have hs := h s
  have hx := hP s
  generalize x.on s = u, y.on s = v at hs hx
  cases hs with
  | ok s' hab => exact .ok s' (hx _ _ _ rfl hab)
  | error e s' => exact .error e s'

/-- **The rule of sequencing.** -/
theorem Agree.bind {Q : γ → δ → Prop} {f : α → Eff ε σ γ} {g : β → Eff ε σ δ} (h : Agree P x y)
    (hf : ∀ a b, P a b → Agree Q (f a) (g b)) : Agree Q (x >>= f) (y >>= g) := by
  intro s
  have hs := h s
  rw [Eff.on_bind, Eff.on_bind]
  generalize x.on s = u, y.on s = v at hs
  cases hs with
  | ok s' hab => exact hf _ _ hab s'
  | error e s' => exact .error e s'

/-- A computation whose result is put in other terms agrees with itself. -/
theorem Agree.wrap {Q : β → α → Prop} (x : Eff ε σ α) {f : α → β} (h : ∀ a, Q (f a) a) :
    Agree Q (x >>= fun a => Pure.pure (f a)) x := by
  have hwrap : Agree Q (x >>= fun a => Pure.pure (f a)) (x >>= Pure.pure) :=
    (Agree.refl x).bind fun a _ hab => .pure (hab ▸ h a)
  rwa [bind_pure] at hwrap

end Effects
