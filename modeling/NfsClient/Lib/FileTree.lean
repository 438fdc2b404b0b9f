import Mathlib

/-!
# File trees

A file tree is a finite set of paths, each with a kind; one kind is that of directories. A path is the
list of its names, the last one first, so that `n :: p` is the entry `n` of `p`, and what is under a path
are the paths that it is a suffix of.

The one law is that whatever has an entry is a directory. So all that is above a path is there with it
(`kind_ne_none_above`), and the length of a path is bounded by the size of the tree (`length_lt_size`),
which is what bounds a descent. A path goes with all that is under it (`erase`).
-/

namespace FileTree

variable {ν κ : Type} {dir : κ}

/-- The names on the way up from an entry. -/
abbrev Path (ν : Type) : Type := List ν

structure Tree (ν κ : Type) (dir : κ) where
  kind : Path ν → Option κ
  finite : {p | kind p ≠ none}.Finite
  closed : ∀ n p, kind (n :: p) ≠ none → kind p = some dir

namespace Tree

variable (T : Tree ν κ dir) {p q : Path ν}

/-! ### Above and below -/

/-- What is above an entry is a directory. -/
theorem kind_above (h : q <:+ p) (hne : q ≠ p) (hp : T.kind p ≠ none) : T.kind q = some dir := by
  induction p with
  | nil => exact absurd (List.suffix_nil.mp h) hne
  | cons n p ih =>
    have hdir := T.closed n p hp
    rcases List.suffix_cons_iff.mp h with heq | h
    · exact absurd heq hne
    · by_cases heq : q = p
      · rw [heq]
        exact hdir
      · exact ih h heq (hdir ▸ Option.some_ne_none dir)

theorem kind_ne_none_above (h : q <:+ p) (hp : T.kind p ≠ none) : T.kind q ≠ none := by
  by_cases heq : q = p
  · rwa [heq]
  · rw [T.kind_above h heq hp]
    exact Option.some_ne_none dir

/-- Different entries of one directory have nothing under them in common. -/
theorem not_suffix_entry {m n : ν} (h : m ≠ n) (hm : m :: q <:+ p) : ¬ n :: q <:+ p := by
  intro hn
  have heq : m :: q = n :: q := by
    rcases List.suffix_or_suffix_of_suffix hm hn with h' | h'
    · exact h'.eq_of_length rfl
    · exact (h'.eq_of_length rfl).symm
  exact h (List.cons.inj heq).1

/-! ### Size -/

/-- The number of paths. -/
noncomputable def size : ℕ := T.finite.toFinset.card

theorem mem_paths : p ∈ T.finite.toFinset ↔ T.kind p ≠ none := Set.Finite.mem_toFinset _

/-- Names of entries of one path. -/
theorem length_le_size {names : List ν} (hnodup : names.Nodup)
    (hnames : ∀ n ∈ names, T.kind (n :: p) ≠ none) : names.length ≤ T.size := by
  classical
  have hinj : Function.Injective fun n : ν => n :: p := fun m n h => (List.cons.inj h).1
  calc names.length = (names.toFinset.image fun n => n :: p).card := by
        rw [Finset.card_image_of_injective _ hinj, List.toFinset_card_of_nodup hnodup]
    _ ≤ T.size := by
        refine Finset.card_le_card fun x hx => ?_
        obtain ⟨n, hn, rfl⟩ := Finset.mem_image.mp hx
        exact T.mem_paths.mpr (hnames n (List.mem_toFinset.mp hn))

/-- All that is above a path is in the tree. -/
theorem length_lt_size (hp : T.kind p ≠ none) : p.length < T.size := by
  have hinj : Set.InjOn (fun i => p.drop i) (Finset.range (p.length + 1)) := by
    intro i hi j hj h
    have hi := Finset.mem_range.mp hi
    have hj := Finset.mem_range.mp hj
    have hlen := congrArg List.length h
    simp only [List.length_drop] at hlen
    omega
  have hcard := Finset.card_le_card_of_injOn (t := T.finite.toFinset) (fun i => p.drop i)
    (fun i _ => T.mem_paths.mpr (T.kind_ne_none_above (List.drop_suffix i p) hp)) hinj
  rw [Finset.card_range] at hcard
  exact hcard

/-- Another tree with fewer paths. -/
theorem size_le {T T' : Tree ν κ dir} (h : ∀ p, T'.kind p ≠ none → T.kind p ≠ none) :
    T'.size ≤ T.size :=
  Finset.card_le_card fun p hp => T.mem_paths.mpr (h p (T'.mem_paths.mp hp))

/-! ### Removal -/

section erase

variable [DecidableEq ν]

/-- The tree without a path and all that is under it. -/
def erase (q : Path ν) : Tree ν κ dir where
  kind p := if q <:+ p then none else T.kind p
  finite := T.finite.subset fun p hp => by
    intro hnone
    rw [Set.mem_ofPred_eq, hnone, ite_self] at hp
    exact hp rfl
  closed n p hp := by
    by_cases hsuffix : q <:+ n :: p
    · rw [if_pos hsuffix] at hp
      exact absurd rfl hp
    · rw [if_neg hsuffix] at hp
      rw [if_neg fun h => hsuffix (h.trans (List.suffix_cons n p))]
      exact T.closed n p hp

theorem kind_erase_under (h : q <:+ p) : (T.erase q).kind p = none := if_pos h

theorem kind_erase_of_not (h : ¬ q <:+ p) : (T.erase q).kind p = T.kind p := if_neg h

theorem kind_erase_ne_none (h : (T.erase q).kind p ≠ none) :
    (T.erase q).kind p = T.kind p ∧ ¬ q <:+ p := by
  by_cases hq : q <:+ p
  · exact absurd (T.kind_erase_under hq) h
  · exact ⟨T.kind_erase_of_not hq, hq⟩

end erase

end Tree

end FileTree
