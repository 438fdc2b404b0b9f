import Mathlib

/-!
# Laps

A client that goes through the positions below a bound again and again. In one transfer it gets as far as
it is let; the next one begins where the last one ended, or at 0 when the client is through (`Laps`).

How the laps are cut into transfers makes no difference to what they cover. A position has been visited
once in each lap that is over, and once more in the current one if the client is behind it
(`Laps.visits_eq`). So no two positions differ by more than one visit.
-/

namespace Transfers

/-- A transfer, and how far it got. -/
structure Transfer where
  offset : ℕ
  count : ℕ
  deriving DecidableEq, Repr

/-- The transfer visited position `p`. -/
def Transfer.Visits (p : ℕ) (e : Transfer) : Prop := e.offset ≤ p ∧ p < e.offset + e.count

instance (p : ℕ) : DecidablePred (Transfer.Visits p) := fun _ => inferInstanceAs (Decidable (_ ∧ _))

/-- How often position `p` was visited. -/
def visits (log : List Transfer) (p : ℕ) : ℕ := log.countP fun e => decide (e.Visits p)

/-- How many positions were visited, each as often as it was. -/
def total (log : List Transfer) : ℕ := (log.map Transfer.count).sum

variable {e : Transfer} {log : List Transfer} {p : ℕ}

theorem visits_cons_of_visits (h : e.Visits p) : visits (e :: log) p = visits log p + 1 :=
  List.countP_cons_of_pos (decide_eq_true h)

theorem visits_cons_of_not (h : ¬ e.Visits p) : visits (e :: log) p = visits log p :=
  List.countP_cons_of_neg fun hp => h (of_decide_eq_true hp)

theorem total_cons : total (e :: log) = e.count + total log := List.sum_cons

/-- Transfers, the last one first, that have taken a client to position `pos` after so many laps. A lap is
not over before it has covered the positions below `bound`, and goes on below `size` only. -/
inductive Laps (bound size : ℕ) : List Transfer → ℕ → ℕ → Prop
  | start : Laps bound size [] 0 0
  | further {e : Transfer} {log : List Transfer} {laps : ℕ} (h : Laps bound size log laps e.offset)
      (hsize : e.offset + e.count < size) : Laps bound size (e :: log) laps (e.offset + e.count)
  | around {e : Transfer} {log : List Transfer} {laps : ℕ} (h : Laps bound size log laps e.offset)
      (hbound : bound ≤ e.offset + e.count) : Laps bound size (e :: log) (laps + 1) 0

namespace Laps

variable {bound size : ℕ} {log : List Transfer} {laps pos : ℕ}

theorem pos_lt (hpos : 0 < size) (h : Laps bound size log laps pos) : pos < size := by
  cases h with
  | start => exact hpos
  | further _ hsize => exact hsize
  | around _ _ => exact hpos

theorem offset_lt (hpos : 0 < size) (h : Laps bound size log laps pos) {e : Transfer} (he : e ∈ log) :
    e.offset < size := by
  induction h with
  | start => exact absurd he List.not_mem_nil
  | further h _ ih | around h _ ih =>
    rcases List.mem_cons.mp he with rfl | he
    · exact h.pos_lt hpos
    · exact ih he

/-- **Every position is visited in every lap**, and no position twice. -/
theorem visits_eq (h : Laps bound size log laps pos) {p : ℕ} (hp : p < bound) :
    visits log p = laps + if p < pos then 1 else 0 := by
  induction h with
  | start => rfl
  | @further e log laps h _ ih =>
    by_cases hbehind : p < e.offset
    · have hnot : ¬ e.Visits p := fun hv => absurd hv.1 (Nat.not_le.mpr hbehind)
      rw [visits_cons_of_not hnot, ih, if_pos hbehind, if_pos (Nat.lt_add_right _ hbehind)]
    · rw [if_neg hbehind] at ih
      have hle := Nat.not_lt.mp hbehind
      by_cases hend : p < e.offset + e.count
      · rw [visits_cons_of_visits ⟨hle, hend⟩, ih, if_pos hend, Nat.add_zero]
      · rw [visits_cons_of_not fun hv => hend hv.2, ih, if_neg hend]
  | @around e log laps h hbound ih =>
    rw [if_neg (Nat.not_lt_zero p), Nat.add_zero]
    by_cases hbehind : p < e.offset
    · have hnot : ¬ e.Visits p := fun hv => absurd hv.1 (Nat.not_le.mpr hbehind)
      rw [visits_cons_of_not hnot, ih, if_pos hbehind]
    · rw [if_neg hbehind] at ih
      rw [visits_cons_of_visits ⟨Nat.not_lt.mp hbehind, hp.trans_le hbound⟩, ih, Nat.add_zero]

/-- What all laps came to. -/
theorem le_total (h : Laps bound size log laps pos) : laps * bound + pos ≤ total log := by
  induction h with
  | start => exact Nat.le_of_eq (Nat.zero_mul bound)
  | @further e log laps h _ ih =>
    calc laps * bound + (e.offset + e.count) = e.count + (laps * bound + e.offset) := by ring
      _ ≤ e.count + total log := Nat.add_le_add_left ih e.count
      _ = total (e :: log) := total_cons.symm
  | @around e log laps h hbound ih =>
    calc (laps + 1) * bound + 0 = laps * bound + bound := by ring
      _ ≤ laps * bound + (e.offset + e.count) := Nat.add_le_add_left hbound _
      _ = e.count + (laps * bound + e.offset) := by ring
      _ ≤ e.count + total log := Nat.add_le_add_left ih e.count
      _ = total (e :: log) := total_cons.symm

end Laps

end Transfers
