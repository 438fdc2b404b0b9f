import NfsClient.Lib.Atomicity
import NfsClient.Lib.Sharing

/-!
# Programs that leave each other alone

Any number of programs run at once against one server, which answers one request after the other
(`AtomicStep`). A `Discipline` says which requests each of them may make, and what these can do to the
server; and no program takes from another the right to a request (`ok_stable`).

Under a discipline every program is verified by itself. Its environment is the server, moved before each
answer by what all others can do (`Others`, `Discipline.Holds`). The rule is `Discipline.run_holds`: in
every run of all programs together each of them is where its own verification says. So none is ever stuck
(`Discipline.Holds.live`), and one that ends does so in its postcondition.
-/

namespace Interaction

variable {ι Q R T α : Type}

/-! ### Others -/

/-- What all others can have done meanwhile. -/
def Others (guar : ι → T → T → Prop) (i : ι) : T → T → Prop :=
  Relation.ReflTransGen fun t t' => ∃ j, j ≠ i ∧ guar j t t'

/-- What holds whatever another one does holds whatever all others do. -/
theorem Others.induct {guar : ι → T → T → Prop} {i : ι} {P : T → Prop} {t t' : T}
    (h : Others guar i t t') (hkept : ∀ j t t', j ≠ i → guar j t t' → P t → P t') (ht : P t) : P t' := by
  induction h with
  | refl => exact ht
  | tail _ hstep ih =>
    obtain ⟨j, hj, hguar⟩ := hstep
    exact hkept j _ _ hj hguar ih

/-- What others do in between keeps the precondition of the rest. -/
theorem twp_interfere {rely : T → T → Prop} {serve : Step Q R T} {ok : T → Q → Prop}
    {post : α → T → Prop} (htrans : ∀ t₁ t₂ t₃, rely t₁ t₂ → rely t₂ t₃ → rely t₁ t₃)
    (hok : ∀ t t' q, rely t t' → ok t q → ok t' q) (hpost : ∀ a t t', rely t t' → post a t → post a t') :
    ∀ {p : Prog Q R α} {t t' : T}, rely t t' → twp (interfered rely serve) ok post p t →
      twp (interfered rely serve) ok post p t'
  | .done a, t, t', hrely, h => hpost a t t' hrely h
  | .cut, _, _, _, h => h
  | .call q k, t, t', hrely, ⟨hq, hk⟩ => by
    refine ⟨hok t t' q hrely hq, ?_⟩
    rintro r t₁ ⟨t₀, hrely₀, hserve⟩
    exact hk r t₁ ⟨t₀, htrans _ _ _ hrely hrely₀, hserve⟩

/-! ### Disciplines -/

/-- What each program may ask (`ok`), and what that can do to the server (`guar`). -/
structure Discipline (ι : Type) (serve : Step Q R T) where
  ok : ι → T → Q → Prop
  guar : ι → T → T → Prop
  served : ∀ {i t q}, ok i t q → ∃ r t', serve t q r t'
  guar_of_ok : ∀ {i t q r t'}, ok i t q → serve t q r t' → guar i t t'
  ok_stable : ∀ {i j t t' q}, j ≠ i → guar j t t' → ok i t q → ok i t' q

namespace Discipline

variable {serve : Step Q R T} (D : Discipline ι serve)

/-- Program `i`, verified by itself: it ends in `post`, and asks only what it may. -/
def Holds (i : ι) (post : α → T → Prop) (p : Prog Q R α) (t : T) : Prop :=
  twp (interfered (Others D.guar i) serve) (D.ok i) post p t

/-- What the postcondition says is not undone by others. -/
def Stable (i : ι) (post : α → T → Prop) : Prop :=
  ∀ a j t t', j ≠ i → D.guar j t t' → post a t → post a t'

variable {D} {i : ι} {post : α → T → Prop} {p : Prog Q R α} {t t' : T}

theorem Holds.others (h : D.Holds i post p t) (hpost : D.Stable i post) (hothers : Others D.guar i t t') :
    D.Holds i post p t' := by
  refine twp_interfere (fun _ _ _ => .trans) (fun t t' q hrely hq => ?_) (fun a t t' hrely ha => ?_)
    hothers h
  · exact hrely.induct (fun j _ _ => D.ok_stable) hq
  · exact hrely.induct (hpost a) ha

/-- The program's own step. -/
theorem Holds.step {q : Q} {k : R → Prog Q R α} {r : R} (h : D.Holds i post (.call q k) t)
    (hserve : serve t q r t') : D.Holds i post (k r) t' ∧ D.guar i t t' :=
  ⟨h.2 r t' ⟨t, .refl, hserve⟩, D.guar_of_ok h.1 hserve⟩

/-- The program has ended in its postcondition, or the server has an answer for it. -/
theorem Holds.live (h : D.Holds i post p t) :
    (∃ a, p = .done a ∧ post a t) ∨ ∃ q k r t', p = .call q k ∧ serve t q r t' := by
  cases p with
  | done a => exact Or.inl ⟨a, rfl, h⟩
  | cut => exact absurd h id
  | call q k =>
    obtain ⟨r, t', hserve⟩ := D.served h.1
    exact Or.inr ⟨q, k, r, t', rfl, hserve⟩

/-- A program that runs while nobody else does. -/
theorem Holds.alone {good : Q → Prop} (hgood : ∀ t q, D.ok i t q → good q) :
    ∀ {p : Prog Q R α} {t : T}, D.Holds i post p t → twp serve (fun _ q => good q) post p t
  | .done _, _, h => h
  | .cut, _, h => h
  | .call q _, t, h => ⟨hgood t q h.1, fun _ _ hserve => (h.step hserve).1.alone hgood⟩

/-! ### Runs -/

variable [DecidableEq ι] {posts : ι → α → T → Prop} {x y : (ι → Prog Q R α) × T}

/-- **The step lemma.** -/
theorem step_holds (hstable : ∀ i, D.Stable i (posts i)) (hx : ∀ i, D.Holds i (posts i) (x.1 i) x.2)
    (hstep : AtomicStep serve x y) :
    (∀ i, D.Holds i (posts i) (y.1 i) y.2) ∧ ∃ i, D.guar i x.2 y.2 := by
  cases hstep with
  | @call progs t t' i q k r hi hserve =>
    have hown : D.Holds i (posts i) (.call q k) t := by
      have h : D.Holds i (posts i) (progs i) t := hx i
      rwa [hi] at h
    obtain ⟨hnext, hguar⟩ := hown.step hserve
    refine ⟨fun j => ?_, i, hguar⟩
    show D.Holds j (posts j) (Function.update progs i (k r) j) t'
    by_cases hj : j = i
    · subst hj
      rw [Function.update_self]
      exact hnext
    · -- to all others it is one of the things that others do
      rw [Function.update_of_ne hj]
      exact (hx j).others (hstable j) (.single ⟨i, Ne.symm hj, hguar⟩)

/-- **The rule.** -/
theorem run_holds (hstable : ∀ i, D.Stable i (posts i)) (hx : ∀ i, D.Holds i (posts i) (x.1 i) x.2)
    (hrun : Relation.ReflTransGen (AtomicStep serve) x y) :
    (∀ i, D.Holds i (posts i) (y.1 i) y.2) ∧
      Relation.ReflTransGen (fun t t' => ∃ i, D.guar i t t') x.2 y.2 := by
  induction hrun with
  | refl => exact ⟨hx, .refl⟩
  | tail _ hstep ih =>
    obtain ⟨hholds, hguar⟩ := step_holds hstable ih.1 hstep
    exact ⟨hholds, ih.2.tail hguar⟩

/-- Under the discipline the programs ask only what all of them may. -/
theorem asksOnly {good : Q → Prop} (hgood : ∀ i t q, D.ok i t q → good q)
    (hstable : ∀ i, D.Stable i (posts i)) (hx : ∀ i, D.Holds i (posts i) (x.1 i) x.2) :
    AsksOnly serve good x := by
  intro y hrun i q k hi
  have hy := (run_holds hstable hx hrun).1 i
  rw [hi] at hy
  exact hgood i y.2 q hy.1

end Discipline

end Interaction
