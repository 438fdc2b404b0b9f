import NfsClient.Lib.OrderStatistics

/-!
# Latency statistics

`bench_stats.hpp`. Each thread of a benchmark pushes its samples into a `Reservoir` of its own; when
the threads have ended, the reservoirs are merged into one, and `compute` sorts the samples and reads
the statistics from fixed places. The index of a percentile is computed in exact rational arithmetic,
where the source has doubles.

A merge puts samples behind samples, so that a merged reservoir is the threads' samples in some order
(`Merged.samples_eq`), and the sort forgets the order. The rest is about the places: the first and the
last are the least and the greatest sample, and the percentiles are in between and never beyond the
last (`latency_statistics`).
-/

namespace NfsClient

open OrderStatistics

/-- The order of `uint64_t`, for `std::sort`. -/
instance instLinearOrderUInt64 : LinearOrder UInt64 where
  le_refl := UInt64.le_refl
  le_trans _ _ _ := UInt64.le_trans
  le_antisymm _ _ := UInt64.le_antisymm
  le_total := UInt64.le_total
  lt_iff_le_not_ge _ _ := by
    rw [UInt64.lt_iff_toNat_lt, UInt64.le_iff_toNat_le, UInt64.le_iff_toNat_le]
    omega
  toDecidableLE := inferInstance

structure Reservoir where
  samples_ : List UInt64 := []

namespace Reservoir

structure Stats where
  min_ns : UInt64 := 0
  p50_ns : UInt64 := 0
  p95_ns : UInt64 := 0
  p99_ns : UInt64 := 0
  max_ns : UInt64 := 0
  deriving DecidableEq, Repr

def push (r : Reservoir) (ns : UInt64) : Reservoir := ⟨r.samples_ ++ [ns]⟩

def merge (r other : Reservoir) : Reservoir := ⟨r.samples_ ++ other.samples_⟩

/-- The local function `pct` of `compute`, on the sorted samples. -/
def pct (samples : List UInt64) (p : ℚ) : UInt64 :=
  let idx := ⌊p * ((samples.length - 1 : ℕ) : ℚ) + 1 / 2⌋₊
  let idx := if samples.length ≤ idx then samples.length - 1 else idx
  samples.getD idx 0

/-- The samples stay sorted in the reservoir. -/
def compute (r : Reservoir) : Stats × Reservoir :=
  if r.samples_ = [] then ({}, r)
  else
    let samples := r.samples_.mergeSort (· ≤ ·)
    (⟨samples.getD 0 0, pct samples (50 / 100), pct samples (95 / 100), pct samples (99 / 100),
      samples.getD (samples.length - 1) 0⟩, ⟨samples⟩)

/-- The loop of `run_workload` over the reservoirs of the threads. -/
def mergeAll (reservoirs : List Reservoir) : Reservoir :=
  reservoirs.foldl (fun merged r => merged.merge r) {}

/-- The reservoir of a thread that pushes these samples. -/
def ofPushes (samples : List UInt64) : Reservoir := samples.foldl push {}

/-! ### Merging -/

theorem samples_ofPushes (samples : List UInt64) : (ofPushes samples).samples_ = samples := by
  have hfold : ∀ (samples : List UInt64) (r : Reservoir),
      (samples.foldl push r).samples_ = r.samples_ ++ samples := by
    intro samples
    induction samples with
    | nil => exact fun r => (List.append_nil r.samples_).symm
    | cons ns samples ih =>
      intro r
      rw [List.foldl_cons, ih]
      exact List.append_assoc r.samples_ [ns] samples
  exact hfold samples {}

/-- What reservoirs may be merged into, two at a time and in any order. -/
inductive Merged : Multiset Reservoir → Reservoir → Prop
  | empty : Merged 0 {}
  | single (r : Reservoir) : Merged {r} r
  | merge {s t : Multiset Reservoir} {a b : Reservoir} (ha : Merged s a) (hb : Merged t b) :
      Merged (s + t) (a.merge b)

/-- The loop of `run_workload` is one of these orders. -/
theorem merged_mergeAll (reservoirs : List Reservoir) : Merged reservoirs (mergeAll reservoirs) := by
  have hfold : ∀ (reservoirs : List Reservoir) (s : Multiset Reservoir) (a : Reservoir),
      Merged s a → Merged (s + reservoirs) (reservoirs.foldl (fun merged r => merged.merge r) a) := by
    intro reservoirs
    induction reservoirs with
    | nil =>
      intro s a h
      rw [Multiset.coe_nil, add_zero]
      exact h
    | cons r reservoirs ih =>
      intro s a h
      have hstep := ih (s + {r}) (a.merge r) (h.merge (.single r))
      rwa [add_assoc, Multiset.singleton_add, Multiset.cons_coe] at hstep
  have h := hfold reservoirs 0 {} .empty
  rwa [zero_add] at h

theorem Merged.samples_eq {s : Multiset Reservoir} {a : Reservoir} (h : Merged s a) :
    (a.samples_ : Multiset UInt64) = (s.map fun r => (r.samples_ : Multiset UInt64)).sum := by
  induction h with
  | empty => rfl
  | single r => rw [Multiset.map_singleton, Multiset.sum_singleton]
  | @merge s t a b ha hb iha ihb =>
    have hmerge : ((a.merge b).samples_ : Multiset UInt64) = a.samples_ + b.samples_ :=
      (Multiset.coe_add a.samples_ b.samples_).symm
    rw [hmerge, iha, ihb, Multiset.map_add, Multiset.sum_add]

/-- The samples of the threads, in some order. -/
theorem Merged.samples_perm {threads : List (List UInt64)} {a : Reservoir}
    (h : Merged (threads.map ofPushes) a) : a.samples_.Perm threads.flatten := by
  have hsum : ∀ threads : List (List UInt64),
      (((threads.map ofPushes : List Reservoir) : Multiset Reservoir).map
        fun r => (r.samples_ : Multiset UInt64)).sum = threads.flatten := by
    intro threads
    induction threads with
    | nil => rfl
    | cons samples threads ih =>
      rw [List.map_cons, ← Multiset.cons_coe, Multiset.map_cons, Multiset.sum_cons, ih,
        samples_ofPushes, List.flatten_cons, Multiset.coe_add]
  exact Multiset.coe_eq_coe.mp (h.samples_eq.trans (hsum threads))

/-! ### The statistics of samples -/

/-- The samples in ascending order. -/
def sorted (samples : List UInt64) : List UInt64 := (samples : Multiset UInt64).sort (· ≤ ·)

/-- The percentile is the sorted sample at its rank. -/
def Stats.IsPercentile (samples : List UInt64) (p : ℚ) (ns : UInt64) : Prop :=
  ∃ h : rank p samples.length < (sorted samples).length, ns = (sorted samples)[rank p samples.length]

/-- The statistics of at least one sample. -/
structure Stats.Describe (stats : Stats) (samples : List UInt64) : Prop where
  mem : ∀ ns ∈ [stats.min_ns, stats.p50_ns, stats.p95_ns, stats.p99_ns, stats.max_ns], ns ∈ samples
  ordered : stats.min_ns ≤ stats.p50_ns ∧ stats.p50_ns ≤ stats.p95_ns ∧
    stats.p95_ns ≤ stats.p99_ns ∧ stats.p99_ns ≤ stats.max_ns
  bounds : ∀ ns ∈ samples, stats.min_ns ≤ ns ∧ ns ≤ stats.max_ns
  rank_lt : rank (50 / 100) samples.length < samples.length ∧
    rank (95 / 100) samples.length < samples.length ∧ rank (99 / 100) samples.length < samples.length
  p50 : IsPercentile samples (50 / 100) stats.p50_ns
  p95 : IsPercentile samples (95 / 100) stats.p95_ns
  p99 : IsPercentile samples (99 / 100) stats.p99_ns

theorem length_sorted (samples : List UInt64) : (sorted samples).length = samples.length :=
  Multiset.length_sort (s := (samples : Multiset UInt64)) (· ≤ ·)

/-- An index that is computed is a rank, and the clamp does not change it. -/
theorem pct_sorted {samples : List UInt64} {p : ℚ} (hp : 0 ≤ p) (hp' : p ≤ 1)
    (hn : 0 < samples.length) : Stats.IsPercentile samples p (pct (sorted samples) p) := by
  have hlen := length_sorted samples
  have hlt : rank p samples.length < samples.length := OrderStatistics.rank_lt hp hp' hn
  have hcast : ((samples.length - 1 : ℕ) : ℚ) = (samples.length : ℚ) - 1 := Nat.cast_pred hn
  refine ⟨by rw [hlen]; exact hlt, ?_⟩
  unfold pct
  simp only [hlen, hcast]
  change (sorted samples).getD (if samples.length ≤ rank p samples.length then _
    else rank p samples.length) 0 = _
  rw [if_neg (Nat.not_le.mpr hlt)]
  exact List.getD_eq_getElem _ _ _

theorem compute_eq {r : Reservoir} (h : 0 < r.samples_.length) :
    r.compute.1 = ⟨(sorted r.samples_).getD 0 0, pct (sorted r.samples_) (50 / 100),
      pct (sorted r.samples_) (95 / 100), pct (sorted r.samples_) (99 / 100),
      (sorted r.samples_).getD (r.samples_.length - 1) 0⟩ := by
  have hsort : r.samples_.mergeSort (· ≤ ·) = sorted r.samples_ :=
    (Multiset.coe_sort r.samples_ (· ≤ ·)).symm
  unfold compute
  rw [if_neg (List.ne_nil_of_length_pos h), hsort]
  simp only [length_sorted]

/-- The samples alone decide. -/
theorem compute_congr {r r' : Reservoir} (h : r.samples_.Perm r'.samples_) :
    r.compute.1 = r'.compute.1 := by
  have hsorted : sorted r.samples_ = sorted r'.samples_ := by
    unfold sorted
    rw [Multiset.coe_eq_coe.mpr h]
  by_cases hn : 0 < r.samples_.length
  · rw [compute_eq hn, compute_eq (h.length_eq ▸ hn), hsorted, h.length_eq]
  · have hnil : r.samples_ = [] := List.length_eq_zero_iff.mp (Nat.eq_zero_of_not_pos hn)
    have hnil' : r'.samples_ = [] := List.nil_perm.mp (hnil ▸ h)
    unfold compute
    rw [if_pos hnil, if_pos hnil']

theorem describe_compute {r : Reservoir} (hn : 0 < r.samples_.length) :
    r.compute.1.Describe r.samples_ := by
  have hlen := length_sorted r.samples_
  have hpos : 0 < (sorted r.samples_).length := by rw [hlen]; exact hn
  have hmono := sorted_sort (r.samples_ : Multiset UInt64)
  have hmem : ∀ {i : ℕ} (hi : i < (sorted r.samples_).length), (sorted r.samples_)[i] ∈ r.samples_ :=
    fun hi => Multiset.mem_coe.mp (getElem_sort_mem hi)
  have hfirst : (sorted r.samples_).getD 0 0 = (sorted r.samples_)[0] := List.getD_eq_getElem _ _ hpos
  have hlast : (sorted r.samples_).getD (r.samples_.length - 1) 0
      = (sorted r.samples_)[(sorted r.samples_).length - 1] := by
    rw [← hlen]
    exact List.getD_eq_getElem _ _ (Nat.sub_lt hpos Nat.one_pos)
  obtain ⟨h50, e50⟩ := pct_sorted (p := 50 / 100) (by norm_num) (by norm_num) hn
  obtain ⟨h95, e95⟩ := pct_sorted (p := 95 / 100) (by norm_num) (by norm_num) hn
  obtain ⟨h99, e99⟩ := pct_sorted (p := 99 / 100) (by norm_num) (by norm_num) hn
  have h5095 : rank (50 / 100) r.samples_.length ≤ rank (95 / 100) r.samples_.length :=
    rank_mono hn (by norm_num)
  have h9599 : rank (95 / 100) r.samples_.length ≤ rank (99 / 100) r.samples_.length :=
    rank_mono hn (by norm_num)
  rw [compute_eq hn, hfirst, hlast, e50, e95, e99]
  refine ⟨?_, ⟨?_, ?_, ?_, ?_⟩, ?_, ⟨?_, ?_, ?_⟩, ⟨h50, rfl⟩, ⟨h95, rfl⟩, ⟨h99, rfl⟩⟩
  · -- each of the five is read from the sorted samples
    intro ns hns
    simp only [List.mem_cons, List.not_mem_nil, or_false] at hns
    obtain rfl | rfl | rfl | rfl | rfl := hns
    all_goals exact hmem _
  · exact hmono.getElem_le_getElem_of_le (Nat.zero_le _)
  · exact hmono.getElem_le_getElem_of_le h5095
  · exact hmono.getElem_le_getElem_of_le h9599
  · exact hmono.getElem_le_getElem_of_le (Nat.le_sub_one_of_lt h99)
  · exact fun ns hns => getElem_sort_bounds hpos (Multiset.mem_coe.mpr hns)
  · rwa [hlen] at h50
  · rwa [hlen] at h95
  · rwa [hlen] at h99

/-- **The statistics of a benchmark.** However the samples of the threads were pushed and merged,
`compute` comes to the same; and if there are samples, it gives the least, the greatest and the
percentiles of them. -/
theorem latency_statistics (threads : List (List UInt64)) (merged : Reservoir)
    (h : Merged (threads.map ofPushes) merged) :
    (∀ (threads' : List (List UInt64)) merged', Merged (threads'.map ofPushes) merged' →
      threads'.flatten.Perm threads.flatten → merged'.compute.1 = merged.compute.1) ∧
    (0 < threads.flatten.length → merged.compute.1.Describe threads.flatten) := by
  have hperm := h.samples_perm
  constructor
  · intro threads' merged' h' hthreads
    exact compute_congr (h'.samples_perm.trans (hthreads.trans hperm.symm))
  · intro hn
    -- the threads' samples in one reservoir have the same statistics
    have hcompute : merged.compute.1 = (⟨threads.flatten⟩ : Reservoir).compute.1 := compute_congr hperm
    rw [hcompute]
    exact describe_compute (r := ⟨threads.flatten⟩) hn

/-- Two threads, merged as `run_workload` does it. -/
theorem latency_statistics_two :
    (mergeAll [ofPushes [7, 3], ofPushes [5]]).compute.1.Describe [7, 3, 5] :=
  (latency_statistics [[7, 3], [5]] (mergeAll [ofPushes [7, 3], ofPushes [5]])
    (merged_mergeAll _)).2 (by decide)

end Reservoir

end NfsClient
