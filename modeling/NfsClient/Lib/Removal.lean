import NfsClient.Lib.FileTree

/-!
# What cannot be removed

A client wants to remove a directory with all that is under it, from the bottom up, and goes on where it
is refused something. `Refusals` says what is refused: some entries are not given up; some directories do
not show their entries; and some are not shown as directories, so that nobody goes into them.

Then exactly that is left which stands at or above something that is `Blocked`: an entry that is not given
up, or all that the client does not get to (`Stays`). The lemmas about `Stays` are those of a recursion
over the tree: what stays of a directory is what stays of its entries, and it stays itself if one of them
does.
-/

namespace FileTree

variable {ν κ : Type} {dir : κ}

/-- What is refused in a tree. -/
structure Refusals (ν : Type) where
  /-- Entries that are not given up. -/
  kept : Path ν → Prop
  /-- Directories that do not show their entries. -/
  unlisted : Path ν → Prop
  /-- Entries of which it is not shown whether they are directories. -/
  untyped : Path ν → Prop

namespace Refusals

variable (R : Refusals ν) (T : Tree ν κ dir)

/-- Nobody gets below `c` who begins at `d`. -/
def Shut (d c : Path ν) : Prop := R.unlisted c ∨ c ≠ d ∧ R.untyped c

/-- A removal that begins at `d` cannot remove `x`, whatever is under it. -/
structure Blocked (d x : Path ν) : Prop where
  there : T.kind x ≠ none
  why : R.kept x ∨ (x ≠ d ∧ T.kind x = some dir ∧ R.untyped x) ∨
    ∃ c, d <:+ c ∧ c <:+ x ∧ c ≠ x ∧ R.Shut d c

/-- What is left of a removal that begins at `d`. -/
def Stays (d q : Path ν) : Prop := ∃ x, q <:+ x ∧ R.Blocked T d x

variable {R T} {T' : Tree ν κ dir} {d q x : Path ν} {n : ν}

/-- Between a path and what is under it there is an entry. -/
theorem exists_entry_suffix (h : q <:+ x) (hne : q ≠ x) : ∃ m, m :: q <:+ x := by
  obtain ⟨pre, rfl⟩ := h
  rcases List.eq_nil_or_concat pre with rfl | ⟨pre, m, rfl⟩
  · exact absurd rfl hne
  · exact ⟨m, pre, by rw [List.concat_eq_append, List.append_assoc]; rfl⟩

theorem entry_ne (q : Path ν) (h : n :: d <:+ q) : q ≠ d := by
  rintro rfl
  have hlen := h.length_le
  rw [List.length_cons] at hlen
  omega

theorem Stays.above (h : R.Stays T d x) (hq : q <:+ x) : R.Stays T d q := by
  obtain ⟨y, hy, hblocked⟩ := h
  exact ⟨y, hq.trans hy, hblocked⟩

theorem Stays.there (h : R.Stays T d q) : T.kind q ≠ none := by
  obtain ⟨x, hx, hblocked⟩ := h
  exact T.kind_ne_none_above hx hblocked.there

/-- Only what is under a path decides whether it stays. -/
theorem Stays.congr (h : ∀ x, q <:+ x → T'.kind x = T.kind x) : R.Stays T' d q ↔ R.Stays T d q := by
  refine exists_congr fun x => and_congr_right fun hx => ?_
  constructor
  · rintro ⟨hthere, hwhy⟩
    rw [h x hx] at hthere hwhy
    exact ⟨hthere, hwhy⟩
  · rintro ⟨hthere, hwhy⟩
    rw [← h x hx] at hthere hwhy
    exact ⟨hthere, hwhy⟩

/-- All stays below a directory that nobody gets below. -/
theorem stays_of_shut {c : Path ν} (hc : R.Shut d c) (hd : d <:+ c) (hcq : c <:+ q) (hne : c ≠ q)
    (hq : T.kind q ≠ none) : R.Stays T d q :=
  ⟨q, List.suffix_rfl, hq, Or.inr (Or.inr ⟨c, hd, hcq, hne, hc⟩)⟩

/-! ### Entries of a directory -/

section

variable (hlisted : ¬ R.unlisted d)
include hlisted

/-- The directory itself shuts nobody out. -/
theorem not_shut_self : ¬ R.Shut d d := by
  rintro (h | h)
  · exact hlisted h
  · exact h.1 rfl

theorem shut_above_entry {c : Path ν} (hd : d <:+ c) (hc : c <:+ n :: d) (hne : c ≠ n :: d) :
    ¬ R.Shut d c := by
  rcases List.suffix_cons_iff.mp hc with heq | hc
  · exact absurd heq hne
  · rw [hc.eq_of_length (le_antisymm hc.length_le hd.length_le)]
    exact not_shut_self hlisted

theorem blocked_entry_iff : R.Blocked T d (n :: d) ↔
    T.kind (n :: d) ≠ none ∧ (R.kept (n :: d) ∨ T.kind (n :: d) = some dir ∧ R.untyped (n :: d)) := by
  constructor
  · rintro ⟨hthere, hkept | ⟨-, huntyped⟩ | ⟨c, hd, hc, hne, hshut⟩⟩
    · exact ⟨hthere, Or.inl hkept⟩
    · exact ⟨hthere, Or.inr huntyped⟩
    · exact absurd hshut (shut_above_entry hlisted hd hc hne)
  · rintro ⟨hthere, hkept | huntyped⟩
    · exact ⟨hthere, Or.inl hkept⟩
    · exact ⟨hthere, Or.inr (Or.inl ⟨entry_ne _ List.suffix_rfl, huntyped⟩)⟩

/-- **What is no directory** stays if it is not given up. -/
theorem stays_leaf_iff (hn : T.kind (n :: d) ≠ none) (hleaf : T.kind (n :: d) ≠ some dir) :
    R.Stays T d (n :: d) ↔ R.kept (n :: d) := by
  constructor
  · rintro ⟨x, hx, hblocked⟩
    by_cases heq : n :: d = x
    · rw [← heq] at hblocked
      rcases ((blocked_entry_iff hlisted).mp hblocked).2 with hkept | huntyped
      · exact hkept
      · exact absurd huntyped.1 hleaf
    · exact absurd (T.kind_above hx heq hblocked.there) hleaf
  · exact fun hkept => ⟨n :: d, List.suffix_rfl, (blocked_entry_iff hlisted).mpr ⟨hn, Or.inl hkept⟩⟩

omit hlisted in
/-- **A directory that is not shown as one** stays with all that is under it. -/
theorem stays_untyped (huntyped : R.untyped (n :: d)) (hn : T.kind (n :: d) = some dir)
    (hq : n :: d <:+ q) (hthere : T.kind q ≠ none) : R.Stays T d q := by
  have hne : n :: d ≠ d := entry_ne _ List.suffix_rfl
  by_cases heq : n :: d = q
  · rw [← heq] at hthere ⊢
    exact ⟨n :: d, List.suffix_rfl, hthere, Or.inr (Or.inl ⟨hne, hn, huntyped⟩)⟩
  · exact stays_of_shut (Or.inr ⟨hne, huntyped⟩) (List.suffix_cons n d) hq heq hthere

variable (htyped : ¬ R.untyped (n :: d))
include htyped

/-- To begin at a directory or at an entry of it makes no difference below the entry. -/
theorem blocked_below_iff (hx : n :: d <:+ x) (hne : n :: d ≠ x) :
    R.Blocked T d x ↔ R.Blocked T (n :: d) x := by
  have hd : x ≠ d := entry_ne x hx
  have hshut : (∃ c, d <:+ c ∧ c <:+ x ∧ c ≠ x ∧ R.Shut d c) ↔
      ∃ c, n :: d <:+ c ∧ c <:+ x ∧ c ≠ x ∧ R.Shut (n :: d) c := by
    constructor
    · rintro ⟨c, hdc, hcx, hcne, hc⟩
      have hcd : c ≠ d := by
        rintro rfl
        exact not_shut_self hlisted hc
      -- two suffixes of one path, and `c` is the longer one
      have hnc : n :: d <:+ c := by
        obtain ⟨m, hm⟩ := exists_entry_suffix hdc hcd.symm
        by_cases hmn : m = n
        · exact hmn ▸ hm
        · exact absurd hx (Tree.not_suffix_entry hmn (hm.trans hcx))
      refine ⟨c, hnc, hcx, hcne, hc.imp_right fun h => ⟨?_, h.2⟩⟩
      rintro rfl
      exact htyped h.2
    · rintro ⟨c, hnc, hcx, hcne, hc⟩
      exact ⟨c, (List.suffix_cons n d).trans hnc, hcx, hcne, hc.imp_right fun h => ⟨entry_ne c hnc, h.2⟩⟩
  constructor
  · rintro ⟨hthere, hwhy⟩
    exact ⟨hthere, hwhy.imp_right (Or.imp (fun h => ⟨hne.symm, h.2⟩) hshut.mp)⟩
  · rintro ⟨hthere, hwhy⟩
    exact ⟨hthere, hwhy.imp_right (Or.imp (fun h => ⟨hd, h.2⟩) hshut.mpr)⟩

theorem stays_below_iff (hq : n :: d <:+ q) (hne : n :: d ≠ q) :
    R.Stays T d q ↔ R.Stays T (n :: d) q := by
  refine exists_congr fun x => and_congr_right fun hx => ?_
  refine blocked_below_iff hlisted htyped (hq.trans hx) ?_
  rintro rfl
  exact hne (hq.eq_of_length (le_antisymm hq.length_le hx.length_le))

/-- **A directory** stays if it is not given up, or if something in it stays. -/
theorem stays_dir_iff (hn : T.kind (n :: d) = some dir) : R.Stays T d (n :: d) ↔
    R.kept (n :: d) ∨ ∃ m, R.Stays T (n :: d) (m :: n :: d) := by
  constructor
  · rintro ⟨x, hx, hblocked⟩
    by_cases heq : n :: d = x
    · rw [← heq] at hblocked
      rcases ((blocked_entry_iff hlisted).mp hblocked).2 with hkept | huntyped
      · exact Or.inl hkept
      · exact absurd huntyped.2 htyped
    · obtain ⟨m, hm⟩ := exists_entry_suffix hx heq
      exact Or.inr ⟨m, x, hm, (blocked_below_iff hlisted htyped hx heq).mp hblocked⟩
  · rintro (hkept | ⟨m, hm⟩)
    · have hthere : T.kind (n :: d) ≠ none := hn ▸ Option.some_ne_none dir
      exact ⟨n :: d, List.suffix_rfl, (blocked_entry_iff hlisted).mpr ⟨hthere, Or.inl hkept⟩⟩
    · have hne : n :: d ≠ m :: n :: d := (entry_ne _ List.suffix_rfl).symm
      exact ((stays_below_iff hlisted htyped (List.suffix_cons m _) hne).mpr hm).above
        (List.suffix_cons m _)

end

/-- The directory that the removal begins at stays if it is not given up, or if something in it stays. -/
theorem stays_self_iff (hd : T.kind d ≠ none) : R.Stays T d d ↔ R.kept d ∨ ∃ m, R.Stays T d (m :: d) := by
  constructor
  · rintro ⟨x, hx, hblocked⟩
    by_cases heq : d = x
    · rw [← heq] at hblocked
      rcases hblocked.why with hkept | ⟨hne, -⟩ | ⟨c, hdc, hcd, hne, -⟩
      · exact Or.inl hkept
      · exact absurd rfl hne
      · exact absurd (hcd.eq_of_length (le_antisymm hcd.length_le hdc.length_le)) hne
    · obtain ⟨m, hm⟩ := exists_entry_suffix hx heq
      exact Or.inr ⟨m, x, hm, hblocked⟩
  · rintro (hkept | ⟨m, hm⟩)
    · exact ⟨d, List.suffix_rfl, hd, Or.inl hkept⟩
    · exact hm.above (List.suffix_cons m d)

end Refusals

end FileTree
