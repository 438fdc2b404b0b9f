import Mathlib

/-!
# Order statistics

The `p`-th part of `n` samples is the sorted sample at `rank p n`, the index `p * (n - 1)` rounded to
the nearest integer, halves up. A rank of a part of at most the whole is an index (`rank_lt`), and it
grows with the part (`rank_mono`), so that the samples at the ranks are ordered as the parts are.

The sorted list is a function of the multiset of the samples (`Multiset.sort`). What is read from it is
therefore the same for every order in which the samples came.
-/

namespace OrderStatistics

/-- The index of the `p`-th part of `n` samples. -/
def rank (p : ℚ) (n : ℕ) : ℕ := ⌊p * ((n : ℚ) - 1) + 1 / 2⌋₊

theorem rank_lt {p : ℚ} {n : ℕ} (hp : 0 ≤ p) (hp' : p ≤ 1) (hn : 0 < n) : rank p n < n := by
  have hn' : (0 : ℚ) ≤ (n : ℚ) - 1 := by
    have hone : (1 : ℚ) ≤ n := Nat.one_le_cast.mpr hn
    linarith
  have hprod : 0 ≤ p * ((n : ℚ) - 1) := mul_nonneg hp hn'
  unfold rank
  rw [Nat.floor_lt (by linarith)]
  calc p * ((n : ℚ) - 1) + 1 / 2 ≤ 1 * ((n : ℚ) - 1) + 1 / 2 := by gcongr
    _ < n := by linarith

theorem rank_mono {p q : ℚ} {n : ℕ} (hn : 0 < n) (h : p ≤ q) : rank p n ≤ rank q n := by
  have hn' : (0 : ℚ) ≤ (n : ℚ) - 1 := by
    have hone : (1 : ℚ) ≤ n := Nat.one_le_cast.mpr hn
    linarith
  apply Nat.floor_le_floor
  gcongr

section Sorted

variable {α : Type} [LinearOrder α] {s : Multiset α}

theorem sorted_sort (s : Multiset α) : (s.sort (· ≤ ·)).SortedLE :=
  (s.pairwise_sort (· ≤ ·)).sortedLE

/-- A sample at an index is a sample. -/
theorem getElem_sort_mem {i : ℕ} (hi : i < (s.sort (· ≤ ·)).length) : (s.sort (· ≤ ·))[i] ∈ s :=
  (Multiset.mem_sort (· ≤ ·)).mp (List.getElem_mem hi)

/-- The sample at the first index is the least, the one at the last index the greatest. -/
theorem getElem_sort_bounds (h : 0 < (s.sort (· ≤ ·)).length) {x : α} (hx : x ∈ s) :
    (s.sort (· ≤ ·))[0] ≤ x ∧ x ≤ (s.sort (· ≤ ·))[(s.sort (· ≤ ·)).length - 1] := by
  obtain ⟨i, hi, rfl⟩ := List.mem_iff_getElem.mp ((Multiset.mem_sort (· ≤ ·)).mpr hx)
  constructor
  · exact (sorted_sort s).getElem_le_getElem_of_le (Nat.zero_le i)
  · exact (sorted_sort s).getElem_le_getElem_of_le (Nat.le_sub_one_of_lt hi)

end Sorted

end OrderStatistics
