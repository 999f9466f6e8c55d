import Mathlib.Algebra.Order.Group.Abs
import Mathlib.Algebra.Order.Group.MinMax
import Mathlib.Order.Interval.Set.UnorderedInterval

/-! A value that follows a target by bounded steps. -/

namespace Library.Ramp
variable {K : Type} [AddCommGroup K] [LinearOrder K] [IsOrderedAddMonoid K] {current target step : K}

def approach (current target step : K) : K :=
  if current < target - step then current + step
  else if target + step < current then current - step
  else target

theorem approach_step (nonneg : 0 ≤ step) : |approach current target step - current| ≤ step := by
  unfold approach
  by_cases below : current < target - step
  · rw [if_pos below, add_sub_cancel_left, abs_of_nonneg nonneg]
  by_cases above : target + step < current
  · rw [if_neg below, if_pos above, sub_sub_cancel_left, abs_neg, abs_of_nonneg nonneg]
  · rw [if_neg below, if_neg above, abs_le]
    rw [not_lt, sub_le_iff_le_add] at below
    rw [not_lt] at above
    exact ⟨by rwa [neg_le_sub_iff_le_add], by rwa [sub_le_iff_le_add']⟩

/-- The next value lies between the current one and the target. -/
theorem approach_between (nonneg : 0 ≤ step) : approach current target step ∈ Set.uIcc current target := by
  unfold approach
  by_cases below : current < target - step
  · rw [if_pos below]
    have short : current + step ≤ target := (lt_sub_iff_add_lt.mp below).le
    exact Set.mem_uIcc_of_le (le_add_of_nonneg_right nonneg) short
  by_cases above : target + step < current
  · rw [if_neg below, if_pos above]
    have short : target ≤ current - step := le_sub_iff_add_le.mpr above.le
    exact Set.mem_uIcc_of_ge short (sub_le_self current nonneg)
  · rw [if_neg below, if_neg above]
    exact Set.right_mem_uIcc

/-- Each step takes its length off the distance, until nothing is left of it. -/
theorem approach_distance (nonneg : 0 ≤ step) :
    |approach current target step - target| = max 0 (|current - target| - step) := by
  unfold approach
  by_cases below : current < target - step
  · have short : current + step - target < 0 := sub_neg_of_lt (lt_sub_iff_add_lt.mp below)
    have behind : current - target < 0 := sub_neg_of_lt (below.trans_le (sub_le_self target nonneg))
    rw [if_pos below, abs_of_neg short, abs_of_neg behind]
    grind
  by_cases above : target + step < current
  · have short : 0 < current - step - target := by grind
    have ahead : 0 < current - target := by grind
    rw [if_neg below, if_pos above, abs_of_pos short, abs_of_pos ahead]
    grind
  · have near : |current - target| ≤ step := abs_le.mpr ⟨by grind, by grind⟩
    rw [if_neg below, if_neg above, sub_self, abs_zero, max_eq_left (sub_nonpos.mpr near)]

theorem approach_iterate (nonneg : 0 ≤ step) (count : ℕ) :
    |(approach · target step)^[count] current - target| = max 0 (|current - target| - count • step) := by
  induction count with
  | zero => rw [Function.iterate_zero_apply, zero_nsmul, sub_zero, max_eq_right (abs_nonneg _)]
  | succ count ih =>
    rw [Function.iterate_succ_apply', approach_distance nonneg, ih, succ_nsmul]
    grind

/-- The target is reached as soon as the steps add up to the distance, and then kept. -/
theorem approach_arrived (nonneg : 0 ≤ step) (count : ℕ) :
    (approach · target step)^[count] current = target ↔ |current - target| ≤ count • step := by
  rw [← sub_eq_zero, ← abs_eq_zero, approach_iterate nonneg, max_eq_left_iff, sub_nonpos]

end Library.Ramp
