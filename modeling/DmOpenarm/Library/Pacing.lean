import Mathlib.Data.Int.Order.Basic
import Mathlib.Order.Interval.Finset.Nat
import Mathlib.Tactic.Linarith
import Mathlib.Tactic.Ring

/-! Rounds of work on a fixed schedule. A round begins when the one before it is done and its own
date has come, late by some delay; the dates do not depend on the delays. -/

namespace Library.Pacing
variable {start : ℤ} {period : ℕ} {busy late : ℕ → ℕ} {time : ℕ → ℤ}

def date (start : ℤ) (period round : ℕ) : ℤ := start + round * period

structure Paced (start : ℤ) (period : ℕ) (busy late : ℕ → ℕ) (time : ℕ → ℤ) : Prop where
  first : time 0 = start + late 0
  next : ∀ round, time (round + 1) = max (time round + busy round) (date start period (round + 1)) + late (round + 1)

theorem date_succ (round : ℕ) : date start period (round + 1) = date start period round + period := by
  unfold date
  push_cast
  ring

namespace Paced

theorem never_early (paced : Paced start period busy late time) (round : ℕ) :
    date start period round ≤ time round := by
  cases round with
  | zero =>
    rw [paced.first, date]
    omega
  | succ round =>
    rw [paced.next]
    omega

/-- Rounds that are not early cannot be too many. -/
theorem card_begun_le (paced : Paced start period busy late time) (positive : 0 < period) (count elapsed : ℕ) :
    ((Finset.range count).filter fun round => time round ≤ start + elapsed).card ≤ elapsed / period + 1 := by
  have bounded : ((Finset.range count).filter fun round => time round ≤ start + elapsed) ⊆
      Finset.range (elapsed / period + 1) := by
    intro round member
    have begun := (Finset.mem_filter.mp member).2
    have early := paced.never_early round
    have fits : round * period ≤ elapsed := by
      rw [date] at early
      exact_mod_cast (by linarith : (round * period : ℤ) ≤ elapsed)
    rw [Finset.mem_range, Nat.lt_succ_iff]
    exact (Nat.le_div_iff_mul_le positive).mpr fits
  calc ((Finset.range count).filter fun round => time round ≤ start + elapsed).card
      ≤ (Finset.range (elapsed / period + 1)).card := Finset.card_le_card bounded
    _ = elapsed / period + 1 := Finset.card_range _

/-- A round that begins on time, and is short, makes the next one begin on time. -/
theorem on_time_succ (paced : Paced start period busy late time) {round length delay : ℕ}
    (begun : time round ≤ date start period round + delay) (short : busy round ≤ length)
    (prompt : late (round + 1) ≤ delay) (room : length + delay ≤ period) :
    time (round + 1) ≤ date start period (round + 1) + delay := by
  have done : time round + busy round ≤ date start period (round + 1) := by
    rw [date_succ]
    omega
  rw [paced.next, max_eq_right done]
  omega

theorem stays_on_time (paced : Paced start period busy late time) {round length delay : ℕ}
    (begun : time round ≤ date start period round + delay) (short : ∀ later ≥ round, busy later ≤ length)
    (prompt : ∀ later > round, late later ≤ delay) (room : length + delay ≤ period) {later : ℕ} (after : round ≤ later) :
    time later ≤ date start period later + delay := by
  induction later, after using Nat.le_induction with
  | base => exact begun
  | succ later after ih =>
    exact paced.on_time_succ ih (short later after) (prompt (later + 1) (Nat.lt_succ_of_le after)) room

end Paced
end Library.Pacing
