import DmOpenarm.ControlLoop
import DmOpenarm.Ramping
import DmOpenarm.Library.Speed

/-! How fast the targets of arm_mit_control move by the clock. Every turn reads the clock first, and sleeps
at its end until a period after that. Time counts nanoseconds. -/

namespace DmOpenarm.RampTiming
open Types hiding ControlMode
open YamlLoader ArmMitControl Ramping Library.Ieee Library.Runs Library.Speed
variable {outOfRange : ℚ → Bool} {config : ArmConfig}

/-- When a turn began that came to a batch, and when it handed the batch to the arm. -/
structure Round where
  begun : ℤ
  sent : ℤ
  deriving DecidableEq, Repr

/-- The program, the clock, what the program has last read from it, and the rounds, newest first. -/
structure Timed (n : Nat) where
  session : Session n
  now : ℤ
  currentTime : ℤ
  rounds : List Round := []

/-- An action, and the time that passes before it. -/
structure Action where
  elapsed : ℕ
  action : ArmMitControl.Action

def Timed.begin {n : Nat} (pose : Fin n → ℚ) (start : ℤ) : Timed n where
  session := Session.begin pose
  now := start
  currentTime := start

/-- The loop period, which the configuration gives in milliseconds. -/
def period (config : ArmConfig) : ℕ := config.loopPeriod * 10 ^ 6

/-- What becomes of the clock. The turn ends with a sleep, unless the batch has thrown. -/
def Timed.act {n : Nat} (period : ℕ) (timed : Timed n) (session : Session n) (now : ℤ) :
    ArmMitControl.Action → Timed n
  | .read _ => { timed with session, now, currentTime := now }
  | .send throws =>
      { timed with
        session
        now := if throws then now else ControlLoop.sleepUntil now (timed.currentTime + period) 0
        rounds := ⟨timed.currentTime, now⟩ :: timed.rounds }
  | _ => { timed with session, now }

def step (outOfRange : ℚ → Bool) (config : ArmConfig) (timed : Timed config.motors.length) (event : Action) :
    Option (Timed config.motors.length) :=
  (ArmMitControl.step outOfRange config timed.session event.action).map fun session =>
    timed.act (period config) session (timed.now + event.elapsed) event.action

def machine (outOfRange : ℚ → Bool) (config : ArmConfig) (pose : Fin config.motors.length → ℚ) (start : ℤ) :
    Machine (Timed config.motors.length) Action where
  initial timed := timed = Timed.begin pose start
  step := step outOfRange config

/-- No line moves a motor by an infinity or NaN. -/
abbrev Finite (outOfRange : ℚ → Bool) (timed : Timed config.motors.length) (event : Action) : Prop :=
  finiteDelta outOfRange timed.session event.action = true

@[simp] theorem act_session {n : Nat} (period : ℕ) (timed : Timed n) (session : Session n) (now : ℤ)
    (action : ArmMitControl.Action) : (timed.act period session now action).session = session := by
  cases action <;> rfl

section Reach
variable {pose : Fin config.motors.length → ℚ} {start : ℤ} {timed : Timed config.motors.length}

/-- Without its clock, a run is one of the program. -/
theorem session_reach (reached : Reach (machine outOfRange config pose start) (Finite outOfRange) timed) :
    Reach (ArmMitControl.machine outOfRange config pose)
      (fun session action => finiteDelta outOfRange session action = true) timed.session := by
  induction reached with
  | start begins =>
    subst begins
    exact .start rfl
  | @next timed after event _ permitted moved ih =>
    obtain ⟨session, stepped, same⟩ := Option.map_eq_some_iff.mp moved
    subst same
    rw [act_session]
    exact ih.next permitted stepped

/-- The round before the present one. Before the first there is the start of the program. -/
def lastRound (config : ArmConfig) (start : ℤ) (rounds : List Round) : Round :=
  rounds.head?.getD ⟨start - period config, start⟩

/-- A round that began late enough. -/
def Spaced (config : ArmConfig) (start : ℤ) (round : Round) (earlier : List Round) : Prop :=
  (lastRound config start earlier).begun + period config ≤ round.begun ∧
    (lastRound config start earlier).sent ≤ round.begun ∧ round.begun ≤ round.sent

/-- The time from which on the next round may begin. -/
def Free (config : ArmConfig) (start : ℤ) (rounds : List Round) (time : ℤ) : Prop :=
  (lastRound config start rounds).begun + period config ≤ time ∧ (lastRound config start rounds).sent ≤ time

/-- Where the clock stands in each part of a turn. -/
def Clocked (config : ArmConfig) (start : ℤ) (timed : Timed config.motors.length) : Prop :=
  match timed.session.place with
  | .test => Free config start timed.rounds timed.now
  | .handle => Free config start timed.rounds timed.currentTime ∧ timed.currentTime ≤ timed.now
  | .left => True

structure Paced (config : ArmConfig) (start : ℤ) (timed : Timed config.motors.length) : Prop where
  count : timed.session.batches.length = timed.rounds.length
  rounds : Throughout (Spaced config start) timed.rounds
  clocked : Clocked config start timed

theorem Free.later {rounds : List Round} {time later : ℤ} (free : Free config start rounds time) (after : time ≤ later) :
    Free config start rounds later :=
  ⟨free.1.trans after, free.2.trans after⟩

/-- Time that passes keeps every part of a turn in order. -/
theorem Clocked.pass {session : Session config.motors.length} (clocked : Clocked config start timed)
    (place : session.place = timed.session.place) (elapsed : ℕ) :
    Clocked config start { timed with session, now := timed.now + elapsed } := by
  have later : timed.now ≤ timed.now + elapsed := by omega
  unfold Clocked at clocked ⊢
  dsimp only
  rw [place]
  cases here : timed.session.place with
  | test =>
    rw [here] at clocked
    exact clocked.later later
  | handle =>
    rw [here] at clocked
    exact ⟨clocked.1, clocked.2.trans later⟩
  | left => trivial

theorem Paced.step {after : Timed config.motors.length} {event : Action}
    (moved : RampTiming.step outOfRange config timed event = some after) (paced : Paced config start timed) :
    Paced config start after := by
  obtain ⟨session, stepped, same⟩ := Option.map_eq_some_iff.mp moved
  subst same
  rcases event with ⟨elapsed, action⟩
  have clocked := paced.clocked
  cases action with
  | interrupt =>
    cases stepped
    exact ⟨paced.count, paced.rounds, clocked.pass rfl elapsed⟩
  | read chunks =>
    by_cases ready : timed.session.place = .test ∧ timed.session.running
    · simp only [ArmMitControl.step, if_pos ready, Option.some.injEq] at stepped
      subst stepped
      rw [Clocked, ready.1] at clocked
      refine ⟨paced.count, paced.rounds, clocked.later ?_, le_rfl⟩
      change timed.now ≤ timed.now + elapsed
      omega
    · simp only [ArmMitControl.step, if_neg ready, reduceCtorEq] at stepped
  | line states =>
    cases place : timed.session.place with
    | test => simp [ArmMitControl.step, place] at stepped
    | left => simp [ArmMitControl.step, place] at stepped
    | handle =>
      rcases lines : timed.session.lines with _ | ⟨line, rest⟩
      · simp [ArmMitControl.step, place, lines] at stepped
      · simp only [ArmMitControl.step, place, lines, Option.some.injEq] at stepped
        subst stepped
        refine ⟨?_, paced.rounds, clocked.pass ?_ elapsed⟩
        · exact (congrArg List.length (handleLine_frame outOfRange states _ line).2.2).trans paced.count
        · exact (handleLine_place outOfRange states _ line).1.trans place.symm
  | send throws =>
    cases place : timed.session.place with
    | test => simp [ArmMitControl.step, place] at stepped
    | left => simp [ArmMitControl.step, place] at stepped
    | handle =>
      rcases lines : timed.session.lines with _ | ⟨line, rest⟩
      · simp only [ArmMitControl.step, place, lines, Option.some.injEq] at stepped
        subst stepped
        rw [Clocked, place] at clocked
        obtain ⟨free, order⟩ := clocked
        have later : timed.currentTime ≤ timed.now + elapsed := by omega
        refine ⟨congrArg (· + 1) paced.count, ⟨⟨free.1, free.2, later⟩, paced.rounds⟩, ?_⟩
        cases throws with
        | true => exact trivial
        | false =>
          change Free config start (⟨timed.currentTime, timed.now + elapsed⟩ :: timed.rounds)
            (ControlLoop.sleepUntil (timed.now + elapsed) (timed.currentTime + period config) 0)
          constructor
          · change timed.currentTime + period config ≤ max _ _ + 0
            omega
          · change timed.now + elapsed ≤ max _ _ + 0
            omega
      · simp [ArmMitControl.step, place, lines] at stepped
  | leave =>
    by_cases ended : timed.session.place = .test ∧ timed.session.running = false
    · simp only [ArmMitControl.step, if_pos ended, Option.some.injEq] at stepped
      subst stepped
      exact ⟨paced.count, paced.rounds, trivial⟩
    · simp only [ArmMitControl.step, if_neg ended, reduceCtorEq] at stepped

theorem paced_reach (reached : Reach (machine outOfRange config pose start) (Finite outOfRange) timed) :
    Paced config start timed := by
  refine reached.invariant ?_ ?_
  · intro first begins
    subst begins
    refine ⟨rfl, trivial, ?_, le_rfl⟩
    change start - period config + period config ≤ start
    omega
  · intro before event after _ moved paced
    exact paced.step moved

end Reach

/-- The position that a batch sends to a motor. -/
def target {n : Nat} (batch : Batch n) (motor : Fin n) : ℚ :=
  match (batch.commands motor).q with
  | .finite position => position
  | _ => 0

/-- A position with its times in seconds. -/
def sample {n : Nat} (motor : Fin n) (batch : Batch n) (round : Round) : Sample ℚ :=
  ⟨target batch motor, round.begun / 10 ^ 9, round.sent / 10 ^ 9⟩

/-- The positions that a motor has been sent, newest first, and at last the one that it has reported. -/
def samples (config : ArmConfig) (pose : Fin config.motors.length → ℚ) (start : ℤ) (motor : Fin config.motors.length)
    (batches : List (Batch config.motors.length)) (rounds : List Round) : List (Sample ℚ) :=
  List.zipWith (sample motor) batches rounds ++
    [⟨pose motor, ((start - period config : ℤ) : ℚ) / 10 ^ 9, (start : ℚ) / 10 ^ 9⟩]

section Samples
variable {pose : Fin config.motors.length → ℚ} {start : ℤ} {motor : Fin config.motors.length}
variable {batches : List (Batch config.motors.length)} {rounds : List Round}

/-- The newest sample is of the batch that was sent last. -/
theorem samples_head (count : batches.length = rounds.length) :
    ∃ newest, (samples config pose start motor batches rounds).head? = some newest ∧
      (∀ position, lastSent pose batches motor = .finite position → newest.value = position) ∧
      newest.begun = ((lastRound config start rounds).begun : ℚ) / 10 ^ 9 ∧
      newest.sent = ((lastRound config start rounds).sent : ℚ) / 10 ^ 9 := by
  cases batches with
  | nil =>
    cases rounds with
    | cons round earlier => cases count
    | nil =>
      refine ⟨_, rfl, ?_, rfl, rfl⟩
      intro position same
      cases same
      rfl
  | cons batch past =>
    cases rounds with
    | nil => cases count
    | cons round earlier =>
      refine ⟨_, rfl, ?_, rfl, rfl⟩
      intro position same
      change (batch.commands motor).q = .finite position at same
      change target batch motor = position
      rw [target, same]

/-- A period at the greatest speed is one step of the ramp. -/
theorem rampStep_eq (config : ArmConfig) :
    rampStep config = kMaxTargetVelocityRadPerSec * ((period config : ℚ) / 10 ^ 9) := by
  rw [rampStep, period]
  push_cast
  ring

/-- A limited step from the position sent before, in a round that began late enough. -/
theorem sample_within {batch : Batch config.motors.length} {round : Round} {newest : Sample ℚ}
    (ramped : Ramped (rampStep config) (lastSent pose batches motor) (batch.requested motor) (batch.commands motor))
    (spaced : Spaced config start round rounds)
    (value : ∀ position, lastSent pose batches motor = .finite position → newest.value = position)
    (begun : newest.begun = ((lastRound config start rounds).begun : ℚ) / 10 ^ 9)
    (sent : newest.sent = ((lastRound config start rounds).sent : ℚ) / 10 ^ 9) :
    Within kMaxTargetVelocityRadPerSec (rampStep config) (sample motor batch round) newest := by
  obtain ⟨previous, _, reached, before, _, command, short, _⟩ := ramped
  obtain ⟨late, after, _⟩ := spaced
  have now : (sample motor batch round).value = reached := by
    change target batch motor = reached
    rw [target, command]
    rfl
  have speed : (0 : ℚ) ≤ kMaxTargetVelocityRadPerSec := by norm_num [kMaxTargetVelocityRadPerSec]
  apply Within.of_step speed
  · rw [now, value previous before]
    exact short
  · rw [rampStep_eq, begun]
    apply mul_le_mul_of_nonneg_left _ speed
    change _ ≤ (round.begun : ℚ) / 10 ^ 9 - _
    rw [← sub_div]
    apply div_le_div_of_nonneg_right _ (by positivity)
    have apart : (lastRound config start rounds).begun + (period config : ℤ) ≤ round.begun := late
    rw [le_sub_iff_add_le, add_comm]
    exact_mod_cast apart
  · rw [sent]
    apply div_le_div_of_nonneg_right _ (by positivity)
    exact_mod_cast after

theorem samples_chain (count : batches.length = rounds.length)
    (ramped : Throughout (fun batch earlier => ∀ motor,
      Ramped (rampStep config) (lastSent pose earlier motor) (batch.requested motor) (batch.commands motor)) batches)
    (spaced : Throughout (Spaced config start) rounds) :
    (samples config pose start motor batches rounds).IsChain (Within kMaxTargetVelocityRadPerSec (rampStep config)) := by
  induction batches generalizing rounds with
  | nil => exact .singleton _
  | cons batch past ih =>
    cases rounds with
    | nil => cases count
    | cons round earlier =>
      have same : past.length = earlier.length := Nat.succ_injective count
      obtain ⟨newest, first, value, begun, sent⟩ := @samples_head config pose start motor past earlier same
      refine List.IsChain.cons (ih same ramped.2 spaced.2) ?_
      intro head member
      cases first.symm.trans (Option.mem_def.mp member)
      exact sample_within (ramped.1 motor) spaced.1 value begun sent

/-- No sample took effect before its turn began. -/
theorem samples_order (spaced : Throughout (Spaced config start) rounds) :
    ∀ each ∈ samples config pose start motor batches rounds, each.begun ≤ each.sent := by
  have last : ∀ each ∈ samples config pose start motor [] rounds, each.begun ≤ each.sent := by
    intro each member
    cases List.mem_singleton.mp member
    apply div_le_div_of_nonneg_right _ (by positivity)
    exact_mod_cast (by omega : start - (period config : ℤ) ≤ start)
  induction batches generalizing rounds with
  | nil => exact last
  | cons batch past ih =>
    cases rounds with
    | nil => exact last
    | cons round earlier =>
      intro each member
      rcases List.mem_cons.mp member with rfl | older
      · apply div_le_div_of_nonneg_right _ (by positivity)
        exact_mod_cast spaced.1.2.2
      · exact ih spaced.2 last each older

end Samples

/-- By the clock, and however long anything takes, the positions that arm_mit_control sends to a motor, and the
one that it has reported, are never further apart than the greatest target velocity allows for the time between
them, and one step more; between the beginnings of the turns they are not even that step ahead. Float arithmetic
is read as exact. -/
theorem speed_is_limited {pose : Fin config.motors.length → ℚ} {start : ℤ} {timed : Timed config.motors.length}
    (reached : Reach (machine outOfRange config pose start) (Finite outOfRange) timed)
    (motor : Fin config.motors.length) :
    (∀ batch ∈ timed.session.batches, (batch.commands motor).q = .finite (target batch motor)) ∧
      timed.session.batches.length = timed.rounds.length ∧
      (samples config pose start motor timed.session.batches timed.rounds).Pairwise fun newer older =>
        |newer.value - older.value| ≤ kMaxTargetVelocityRadPerSec * (newer.begun - older.begun) ∧
          |newer.value - older.value| ≤
            kMaxTargetVelocityRadPerSec * (newer.sent - older.sent) + rampStep config := by
  have paced := paced_reach reached
  have ramped := (ramp_is_limited (session_reach reached)).2
  have speed : (0 : ℚ) ≤ kMaxTargetVelocityRadPerSec := by norm_num [kMaxTargetVelocityRadPerSec]
  refine ⟨?_, paced.count, ?_⟩
  · intro batch member
    obtain ⟨later, earlier, same⟩ := List.append_of_mem member
    obtain ⟨_, _, reached, _, _, command, _⟩ := (throughout_iff _ _).mp ramped later batch earlier same motor
    rw [target, command]
    rfl
  · have chain := @samples_chain config pose start motor _ _ paced.count ramped paced.rounds
    refine (List.IsChain.pairwise chain).imp_of_mem ?_
    intro newer older first _ within
    exact ⟨within.begun, within.by_effect speed (samples_order paced.rounds newer first)⟩

/-- A turn that takes 400 us to come to its batch, and one that takes 100 us. -/
def twoTurns : List Action :=
  [⟨0, .read ["move 0x01 0.1\n".toList]⟩, ⟨300000, .line (.ok [])⟩, ⟨100000, .send false⟩, ⟨50000, .read []⟩,
    ⟨100000, .send false⟩]

/-- The second batch goes out 750 us after the first one, and moves on by the step of 1 ms. -/
theorem joint_keeps_speed : ∃ timed : Timed (joints [(1, 0x11)]).motors.length,
    timed.rounds = [⟨1050000, 1150000⟩, ⟨0, 400000⟩] ∧
      (samples (joints [(1, 0x11)]) (fun _ => 0) 0 ⟨0, by decide⟩ timed.session.batches timed.rounds).Pairwise
        fun newer older => |newer.value - older.value| ≤ kMaxTargetVelocityRadPerSec * (newer.begun - older.begun) ∧
          |newer.value - older.value| ≤
            kMaxTargetVelocityRadPerSec * (newer.sent - older.sent) + rampStep (joints [(1, 0x11)]) := by
  have ran : ((machine (fun _ => false) (joints [(1, 0x11)]) (fun _ => 0) 0).run
      (fun timed event => finiteDelta (fun _ => false) timed.session event.action) twoTurns
      (Timed.begin (fun _ => 0) 0)).map (fun timed =>
        decide (timed.rounds = [⟨1050000, 1150000⟩, ⟨0, 400000⟩])) = some true := by
    decide +kernel
  obtain ⟨timed, reached, rounds⟩ := Machine.reach_checked rfl ran
  exact ⟨timed, rounds, (speed_is_limited reached ⟨0, by decide⟩).2.2⟩

end DmOpenarm.RampTiming
