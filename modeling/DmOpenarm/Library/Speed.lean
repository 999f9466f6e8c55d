import Mathlib.Algebra.Order.Field.Basic
import Mathlib.Data.List.Chain
import Mathlib.Tactic.Linarith
import Mathlib.Tactic.Ring

/-! How fast a value moves that is chosen anew in every turn, and takes effect somewhat later. -/

namespace Library.Speed
variable {K : Type} [Field K] [LinearOrder K] [IsStrictOrderedRing K]

/-- A value, with the time at which its turn began and the time at which it took effect. -/
structure Sample (K : Type) where
  value : K
  begun : K
  sent : K

/-- How far a value can be from an earlier one. By the beginnings of the turns it keeps to the rate; by the
times at which the values took effect it may be ahead, by no more than the slack. -/
structure Within (rate slack : K) (newer older : Sample K) : Prop where
  begun : |newer.value - older.value| ≤ rate * (newer.begun - older.begun)
  sent : |newer.value - older.value| ≤ rate * (newer.begun - older.sent) + slack

variable {rate slack : K}

theorem Within.trans {newest newer older : Sample K} (last : Within rate slack newest newer)
    (first : Within rate slack newer older) : Within rate slack newest older := by
  have far := abs_sub_le newest.value newer.value older.value
  constructor
  · calc |newest.value - older.value|
        ≤ rate * (newest.begun - newer.begun) + rate * (newer.begun - older.begun) :=
          far.trans (add_le_add last.begun first.begun)
      _ = rate * (newest.begun - older.begun) := by ring
  · calc |newest.value - older.value|
        ≤ rate * (newest.begun - newer.begun) + (rate * (newer.begun - older.sent) + slack) :=
          far.trans (add_le_add last.begun first.sent)
      _ = rate * (newest.begun - older.sent) + slack := by ring

instance : Trans (Within rate slack) (Within rate slack) (Within rate slack) where
  trans last first := last.trans first

/-- A step no longer than the slack, in a turn that begins late enough and after the older value took effect. -/
theorem Within.of_step {newer older : Sample K} (nonneg : 0 ≤ rate) (short : |newer.value - older.value| ≤ slack)
    (apart : slack ≤ rate * (newer.begun - older.begun)) (after : older.sent ≤ newer.begun) :
    Within rate slack newer older := by
  refine ⟨short.trans apart, short.trans ?_⟩
  have room : 0 ≤ rate * (newer.begun - older.sent) := mul_nonneg nonneg (sub_nonneg.mpr after)
  linarith

/-- The same by the times at which both took effect. -/
theorem Within.by_effect {newer older : Sample K} (within : Within rate slack newer older) (nonneg : 0 ≤ rate)
    (later : newer.begun ≤ newer.sent) : |newer.value - older.value| ≤ rate * (newer.sent - older.sent) + slack := by
  have wider : rate * (newer.begun - older.sent) ≤ rate * (newer.sent - older.sent) :=
    mul_le_mul_of_nonneg_left (sub_le_sub_right later _) nonneg
  linarith [within.sent]

end Library.Speed
