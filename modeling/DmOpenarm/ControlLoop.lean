import DmOpenarm.Library.Pacing
import DmOpenarm.Session

/-! The clock of worker_loop: the period that it makes of a frequency, and the deadlines that it
sleeps until. Time counts nanoseconds. -/

namespace DmOpenarm.ControlLoop
open Types hiding ControlMode
open MotorBus Session Library.Ieee Library.Pacing

/-- The variables of worker_loop when it hands over a batch. -/
structure Turn where
  now : ℤ
  nextTick : ℤ
  deriving DecidableEq, Repr

/-- A sleep ends at its deadline or, when that has passed, at once, and then the thread gets its
turn after some delay. -/
def sleepUntil (now deadline : ℤ) (delay : ℕ) : ℤ := max now deadline + delay

def Turn.next (increment : ℤ) (turn : Turn) (send delay : ℕ) : Turn :=
  let nextTick := turn.nextTick + increment
  { now := sleepUntil (turn.now + send) nextTick delay, nextTick }

/-- What the loop does not decide: how long each send takes, and how long after the end of its
sleep the thread comes to the next batch. -/
structure Delays where
  send : ℕ → ℕ
  wake : ℕ → ℕ

/-- The turns of the loop, from the time at which it starts. -/
def workerLoop (increment start : ℤ) (delays : Delays) : ℕ → Turn
  | 0 => { now := start + delays.wake 0, nextTick := start }
  | turn + 1 => (workerLoop increment start delays turn).next increment (delays.send turn) (delays.wake (turn + 1))

theorem workerLoop_nextTick (increment start : ℤ) (delays : Delays) (turn : ℕ) :
    (workerLoop increment start delays turn).nextTick = start + turn * increment := by
  induction turn with
  | zero => simp [workerLoop]
  | succ turn ih =>
    rw [workerLoop, Turn.next, ih]
    push_cast
    ring

/-- The deadline does not depend on the delays, so the loop keeps to a schedule. -/
theorem workerLoop_paced (period : ℕ) (start : ℤ) (delays : Delays) :
    Paced start period delays.send delays.wake fun turn => (workerLoop period start delays turn).now := by
  refine ⟨rfl, ?_⟩
  intro turn
  have deadline := workerLoop_nextTick period start delays (turn + 1)
  calc (workerLoop period start delays (turn + 1)).now
      = max ((workerLoop period start delays turn).now + delays.send turn)
          (workerLoop period start delays (turn + 1)).nextTick + delays.wake (turn + 1) := rfl
    _ = _ := by rw [deadline]; rfl

/-- No batch starts early, so there are never too many, and from any batch that is on time on
all are, as long as sends and delays fit into the period. -/
theorem loop_keeps_schedule {period : ℕ} (positive : 0 < period) (start : ℤ) (delays : Delays) :
    (∀ turn : ℕ, start + turn * period ≤ (workerLoop period start delays turn).now) ∧
      (∀ count elapsed : ℕ, ((Finset.range count).filter fun turn =>
        (workerLoop period start delays turn).now ≤ start + elapsed).card ≤ elapsed / period + 1) ∧
      ∀ turn length delay : ℕ, (workerLoop period start delays turn).now ≤ start + turn * period + delay →
        (∀ later ≥ turn, delays.send later ≤ length) → (∀ later > turn, delays.wake later ≤ delay) →
        length + delay ≤ period → ∀ later ≥ turn,
          start + later * period ≤ (workerLoop period start delays later).now ∧
            (workerLoop period start delays later).now ≤ start + later * period + delay := by
  have paced := workerLoop_paced period start delays
  refine ⟨paced.never_early, paced.card_begun_le positive, ?_⟩
  intro turn length delay begun short prompt room later after
  exact ⟨paced.never_early later, paced.stays_on_time begun short prompt room after⟩

/-- Sends of 200 us and wake-ups late by 50 us, after a first send that takes three periods. -/
def overrun : Delays where
  send turn := if turn = 0 then 3000000 else 200000
  wake _ := 50000

theorem overrun_is_made_up : (workerLoop (1000000 : ℕ) 0 overrun 1).now = 3100000 ∧
    (workerLoop (1000000 : ℕ) 0 overrun 100).now ≤ 100050000 := by
  refine ⟨by decide +kernel, ?_⟩
  have caught : (workerLoop (1000000 : ℕ) 0 overrun 4).now ≤ 0 + (4 : ℕ) * (1000000 : ℕ) + (50000 : ℕ) := by
    decide +kernel
  have short (later : ℕ) (after : later ≥ 4) : overrun.send later ≤ 200000 := by
    have other : later ≠ 0 := by omega
    exact (if_neg other).le
  exact ((loop_keeps_schedule (by decide) 0 overrun).2.2 4 200000 50000 caught short (fun _ _ => le_rfl)
    (by decide) 100 (by decide)).2

/-- What a signed 64-bit count of nanoseconds holds. -/
def Counts (nanoseconds : ℤ) : Prop := -2 ^ 63 ≤ nanoseconds ∧ nanoseconds < 2 ^ 63

instance (nanoseconds : ℤ) : Decidable (Counts nanoseconds) := inferInstanceAs (Decidable (_ ∧ _))

/-- 1.0 / hz. -/
def reciprocal : Double → Double
  | .finite hz => if hz = 0 then .infinite false else .finite (1 / hz)
  | .infinite _ => .finite 0
  | .nan => .nan

def truncate (value : ℚ) : ℤ := if 0 ≤ value then ⌊value⌋ else ⌈value⌉

/-- The cast of a count of seconds. A double that is too large for the count, or none, has no
specified conversion. -/
def durationCast : Double → Option ℤ
  | .finite seconds =>
      let count := truncate (seconds * 10 ^ 9)
      if Counts count then some count else none
  | _ => none

/-- What worker_loop adds to the deadline each time. -/
def increment (hz : Double) : Option ℤ := durationCast (reciprocal hz)

/-- The test with which start() throws. -/
def refuses (hz : Double) : Bool := hz.le (.finite 0)

theorem startTest_refuses_iff {config : ArmConfig} (platform : Platform) (state : State config)
    (script : List Slot) (threadAvailable : Bool) (hz : Double) :
    pcStep platform state script threadAvailable (.start hz) .startTest = some (state.exit
      (.raised (.start hz) (.invalidArgument "MIT loop frequency must be positive"))) ↔ refuses hz = true := by
  change (if hz.le (.finite 0) then _ else _) = _ ↔ hz.le (.finite 0) = true
  by_cases refused : hz.le (.finite 0) = true
  · rw [if_pos refused]
    exact iff_of_true rfl refused
  · rw [if_neg refused]
    refine iff_of_false ?_ refused
    intro same
    split at same
    · have caller := congrArg State.log (Option.some.inj same)
      cases (List.cons.inj caller).1
    · have caller := congrArg State.caller (Option.some.inj same)
      cases caller

/-- An increment that takes the first deadline forward and does not overflow it. -/
def Usable (hz : Double) (now : ℤ) : Prop := ∃ count, increment hz = some count ∧ 1 ≤ count ∧ Counts (now + count)

/-- A number of at most one batch a nanosecond, whose period the clock has still room for. -/
def Moderate (hz : Double) (now : ℤ) : Prop :=
  ∃ x : ℚ, hz = .finite x ∧ x ≤ 10 ^ 9 ∧ 10 ^ 9 < x * 2 ^ 63 ∧ 10 ^ 9 < x * (2 ^ 63 - now)

theorem increment_finite {x : ℚ} (positive : 0 < x) :
    increment (.finite x) = if Counts ⌊10 ^ 9 / x⌋ then some ⌊10 ^ 9 / x⌋ else none := by
  have seconds : 1 / x * 10 ^ 9 = 10 ^ 9 / x := one_div_mul_eq_div x _
  have nonneg : 0 ≤ 10 ^ 9 / x := by positivity
  rw [increment, reciprocal, if_neg positive.ne', durationCast, seconds, truncate, if_pos nonneg]

theorem usable_finite_iff {x : ℚ} (positive : 0 < x) (now : BitVec 64) :
    Usable (.finite x) now.toInt ↔ Moderate (.finite x) now.toInt := by
  have least : -2 ^ 63 ≤ now.toInt := BitVec.le_toInt now
  have nonneg : 0 ≤ ⌊10 ^ 9 / x⌋ := Int.floor_nonneg.mpr (by positivity)
  have slow : 1 ≤ ⌊10 ^ 9 / x⌋ ↔ x ≤ 10 ^ 9 := by
    rw [Int.le_floor, Int.cast_one, one_le_div positive]
  have below (limit : ℤ) : ⌊10 ^ 9 / x⌋ < limit ↔ 10 ^ 9 < x * limit := by
    rw [Int.floor_lt, div_lt_iff₀' positive]
  have whole : ((2 ^ 63 : ℤ) : ℚ) = 2 ^ 63 := by norm_num
  have counted : Counts ⌊10 ^ 9 / x⌋ ↔ 10 ^ 9 < x * 2 ^ 63 := by
    rw [← whole, ← below, Counts]
    omega
  have room : Counts (now.toInt + ⌊10 ^ 9 / x⌋) ↔ 10 ^ 9 < x * (2 ^ 63 - now.toInt) := by
    rw [← whole, ← Int.cast_sub, ← below, Counts]
    omega
  rw [Usable, Moderate, increment_finite positive]
  constructor
  · intro given
    obtain ⟨count, cast, forward, fits⟩ := given
    by_cases counts : Counts ⌊10 ^ 9 / x⌋
    · rw [if_pos counts] at cast
      cases cast
      exact ⟨x, rfl, slow.mp forward, counted.mp counts, room.mp fits⟩
    · rw [if_neg counts] at cast
      cases cast
  · intro given
    obtain ⟨_, same, atMost, counts, fits⟩ := given
    cases same
    exact ⟨_, if_pos (counted.mpr counts), slow.mpr atMost, room.mpr fits⟩

theorem not_usable {hz : Double} {now : ℤ} (bad : increment hz = none ∨ increment hz = some 0) : ¬Usable hz now := by
  intro given
  obtain ⟨count, cast, forward, _⟩ := given
  rcases bad with undefined | zero
  · rw [undefined] at cast
    cases cast
  · rw [zero, Option.some.injEq] at cast
    omega

/-- Every frequency that start() takes gives a usable period, up to those that are infinite, no
number, too large or too small. -/
theorem accepted_usable_iff (hz : Double) (now : BitVec 64) :
    (refuses hz = false → Usable hz now.toInt) ↔ refuses hz = true ∨ Moderate hz now.toInt := by
  cases refused : refuses hz with
  | true => exact iff_of_true (fun accepted => absurd accepted Bool.true_eq_false.mp) (.inl rfl)
  | false =>
    have usable : Usable hz now.toInt ↔ Moderate hz now.toInt := by
      cases hz with
      | finite x =>
        have positive : 0 < x := not_le.mp (of_decide_eq_false refused)
        exact usable_finite_iff positive now
      | infinite negative =>
        cases negative with
        | true => cases refused
        | false =>
          refine iff_of_false ?_ ?_
          · exact not_usable (.inr (by decide +kernel))
          · intro given
            obtain ⟨_, same, _⟩ := given
            cases same
      | nan =>
        refine iff_of_false ?_ ?_
        · exact not_usable (.inl rfl)
        · intro given
          obtain ⟨_, same, _⟩ := given
          cases same
    rw [usable]
    simp

/-- A frequency that is no number, one of a batch each half nanosecond, and one of a batch in
three hundred years pass the test of start(). -/
theorem unusable_frequencies_pass :
    (refuses .nan = false ∧ ¬Usable .nan 0) ∧ (refuses (.infinite false) = false ∧ ¬Usable (.infinite false) 0) ∧
      (refuses (.finite 2000000000) = false ∧ ¬Usable (.finite 2000000000) 0) ∧
      (refuses (.finite (1 / 10000000000)) = false ∧ ¬Usable (.finite (1 / 10000000000)) 0) :=
  ⟨⟨rfl, not_usable (.inl rfl)⟩, ⟨rfl, not_usable (.inr (by decide +kernel))⟩,
    ⟨by decide +kernel, not_usable (.inr (by decide +kernel))⟩,
    ⟨by decide +kernel, not_usable (.inl (by decide +kernel))⟩⟩

end DmOpenarm.ControlLoop
