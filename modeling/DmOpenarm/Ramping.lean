import DmOpenarm.ArmMitControl
import DmOpenarm.YamlLoader

/-! What the ramp of arm_mit_control promises: limited steps that never pass the requested
target, and positions in the range of the motors as long as the requested targets are. Finite floats
are rationals here, and their arithmetic is read as exact. -/

namespace DmOpenarm.Ramping
open Types hiding ControlMode
open YamlLoader CommandLine ArmMitControl MotorBus Backend Damiao MitFrame Library.Ieee Library.Runs Library.Ramp

variable {outOfRange : ℚ → Bool} {config : ArmConfig} {n : Nat}

theorem rampStep_nonneg (config : ArmConfig) : 0 ≤ rampStep config := by
  unfold rampStep kMaxTargetVelocityRadPerSec
  positivity

/-- On finite numbers the ramp is exact. -/
theorem approachTarget_finite (current target step : ℚ) :
    approachTarget (.finite current) (.finite target) (.finite step) = .finite (approach current target step) := by
  unfold approachTarget approach
  simp only [Double.sub_finite, Double.add_finite, Double.lt_finite, decide_eq_true_eq]
  split
  · rfl
  split <;> rfl

/-- One motor's part of a batch, after the position it was sent before: a limited step toward the
requested target that does not pass it. -/
def Ramped (step : ℚ) (before : Double) (requested : Double) (command : Command) : Prop :=
  ∃ previous target sent : ℚ, before = .finite previous ∧ requested = .finite target ∧
    command = .ofMit { kp := kDefaultKp, kd := kDefaultKd, q := sent } ∧
    |sent - previous| ≤ step ∧ (previous ≤ sent ∧ sent ≤ target ∨ target ≤ sent ∧ sent ≤ previous)

theorem ramp_finite {session : Session config.motors.length} {motor : Fin config.motors.length} {previous target : ℚ}
    (active : session.activeTargets motor = .finite previous)
    (requested : session.requestedTargets motor = .finite target) :
    ramp config session motor = .finite (approach previous target (rampStep config)) := by
  rw [ramp, active, requested, approachTarget_finite]

/-- The first line that waits to be handled moves no motor by an infinity or NaN. -/
def finiteDelta (outOfRange : ℚ → Bool) (session : Session n) : Action → Bool
  | .line _ =>
      match session.lines with
      | [] => true
      | line :: _ =>
          match parseMitControlCommand outOfRange line with
          | .ok command => command.deltaRad.isFinite
          | .error _ => true
  | _ => true

theorem delta_of_finite {session : Session n} {states : Except Fault (List MotorState)} {line : String}
    {rest : List String} (lines : session.lines = line :: rest)
    (permitted : finiteDelta outOfRange session (.line states) = true) {command : MitControlCommand}
    (parsed : parseMitControlCommand outOfRange line = .ok command) : ∃ delta, command.deltaRad = .finite delta := by
  simp only [finiteDelta, lines, parsed] at permitted
  exact Double.isFinite_iff.mp permitted

/-- All targets are finite, and every batch so far was a step of the ramp. -/
structure Ramps (config : ArmConfig) (pose : Fin config.motors.length → ℚ) (session : Session config.motors.length) :
    Prop where
  tracks : Tracks pose session
  requested : ∀ motor, ∃ target, session.requestedTargets motor = .finite target
  sent : ∀ motor, ∃ position, lastSent pose session.batches motor = .finite position
  batches : Throughout (fun batch earlier => ∀ motor,
    Ramped (rampStep config) (lastSent pose earlier motor) (batch.requested motor) (batch.commands motor)) session.batches

theorem Ramps.step {pose : Fin config.motors.length → ℚ} {session after : Session config.motors.length}
    {action : Action} (permitted : finiteDelta outOfRange session action = true)
    (moved : step outOfRange config session action = some after) (ramps : Ramps config pose session) :
    Ramps config pose after := by
  have tracks := ramps.tracks.step moved
  rcases step_cases moved with ⟨_, requested, _, batches⟩ | ⟨states, line, rest, rfl, lines, rfl⟩ | ⟨place, rfl⟩
  · exact ⟨tracks, by rw [requested]; exact ramps.requested, by rw [batches]; exact ramps.sent,
      by rw [batches]; exact ramps.batches⟩
  · obtain ⟨_, _, batches⟩ := handleLine_frame outOfRange states { session with lines := rest } line
    refine ⟨tracks, ?_, by rw [batches]; exact ramps.sent, by rw [batches]; exact ramps.batches⟩
    refine handleLine_requested (fun _ target => ∃ value, target = .finite value) ?_ ramps.requested ?_
    · exact fun motor => ⟨pose motor, congrFun ramps.tracks.home motor⟩
    · intro command parsed motor
      obtain ⟨delta, isFinite⟩ := delta_of_finite lines permitted parsed
      obtain ⟨target, requested⟩ := ramps.requested motor
      refine ⟨target + delta, ?_⟩
      rw [isFinite, ← Double.add_finite, ← requested]
  · have next (motor : Fin config.motors.length) : ∃ previous target : ℚ,
        lastSent pose session.batches motor = .finite previous ∧ session.requestedTargets motor = .finite target ∧
        ramp config session motor = .finite (approach previous target (rampStep config)) := by
      obtain ⟨previous, sent⟩ := ramps.sent motor
      obtain ⟨target, requested⟩ := ramps.requested motor
      have active : session.activeTargets motor = .finite previous := (congrFun ramps.tracks.active motor).trans sent
      exact ⟨previous, target, sent, requested, ramp_finite active requested⟩
    refine ⟨tracks, ramps.requested, fun motor => ?_, fun motor => ?_, ramps.batches⟩
    · obtain ⟨previous, target, _, _, ramped⟩ := next motor
      exact ⟨_, ramped⟩
    · obtain ⟨previous, target, sent, requested, ramped⟩ := next motor
      have nonneg := rampStep_nonneg config
      exact ⟨previous, target, _, sent, requested, congrArg mitCommand ramped, approach_step nonneg,
        Set.mem_uIcc.mp (approach_between nonneg)⟩

theorem ramps_reach {pose : Fin config.motors.length → ℚ} {session : Session config.motors.length}
    (reached : Reach (machine outOfRange config pose)
      (fun session action => finiteDelta outOfRange session action = true) session) :
    Ramps config pose session := by
  refine reached.invariant ?_ ?_
  · intro state same
    subst same
    exact ⟨⟨rfl, rfl⟩, fun motor => ⟨pose motor, rfl⟩, fun motor => ⟨pose motor, rfl⟩, trivial⟩
  · intro state action after permitted moved holds
    exact holds.step permitted moved

/-- The active targets start at the reported positions and are what was sent last, and each batch
is a limited step of the ramp from the one before it. -/
theorem ramp_is_limited {pose : Fin config.motors.length → ℚ} {session : Session config.motors.length}
    (reached : Reach (machine outOfRange config pose)
      (fun session action => finiteDelta outOfRange session action = true) session) :
    session.activeTargets = lastSent pose session.batches ∧
      Throughout (fun batch earlier => ∀ motor,
        Ramped (rampStep config) (lastSent pose earlier motor) (batch.requested motor) (batch.commands motor))
        session.batches := by
  have ramps := ramps_reach reached
  exact ⟨ramps.tracks.active, ramps.batches⟩

/-- One turn of the loop that reads a text of one line. -/
def turn (text : String) : List Action := [.read [text.toList], .line (.ok []), .send false]

theorem joint_ramps : ∃ session,
    Reach (machine (fun _ => false) (joints [(1, 0x11)]) fun _ => 0)
      (fun session action => finiteDelta (fun _ => false) session action = true) session ∧
    (session.batches.length = 2 ∧ lastSent (fun _ => 0) session.batches ⟨0, by decide⟩ = .finite (1 / 10000)) ∧
    Throughout (fun batch earlier => ∀ motor, Ramped (rampStep (joints [(1, 0x11)]))
      (lastSent (fun _ => 0) earlier motor) (batch.requested motor) (batch.commands motor)) session.batches := by
  have ran : ((machine (fun _ => false) (joints [(1, 0x11)]) fun _ => 0).run (finiteDelta fun _ => false)
      (turn "move 0x01 0.1\n" ++ turn "move 1 -999e-4\n") (Session.begin fun _ => 0)).map (fun session =>
        decide (session.batches.length = 2 ∧
          lastSent (fun _ => 0) session.batches ⟨0, by decide⟩ = .finite (1 / 10000))) = some true := by
    decide +kernel
  obtain ⟨session, reached, facts⟩ := Machine.reach_checked rfl ran
  exact ⟨session, reached, facts, (ramp_is_limited reached).2⟩

/-- A finite value of an interval. -/
def Between (low high : ℚ) (value : Double) : Prop := ∃ x : ℚ, value = .finite x ∧ low ≤ x ∧ x ≤ high

/-- The ramp stays in every interval that the requested targets in force have not left. -/
theorem sent_between {pose : Fin config.motors.length → ℚ} {session : Session config.motors.length}
    {motor : Fin config.motors.length} {low high : ℚ} (starts : Between low high (.finite (pose motor)))
    (reached : Reach (machine outOfRange config pose) Anything session) :
    Tracks pose session ∧ Throughout (fun batch earlier =>
      (∀ past ∈ batch :: earlier, Between low high (past.requested motor)) →
        ∃ q, batch.commands motor = mitCommand q ∧ Between low high q) session.batches := by
  induction reached with
  | start begins =>
    subst begins
    exact ⟨⟨rfl, rfl⟩, trivial⟩
  | @next session after action _ _ moved ih =>
    obtain ⟨tracks, batches⟩ := ih
    refine ⟨tracks.step moved, ?_⟩
    rcases step_cases moved with ⟨_, _, _, same⟩ | ⟨states, line, rest, rfl, lines, rfl⟩ | ⟨place, rfl⟩
    · rw [same]
      exact batches
    · obtain ⟨_, _, same⟩ := handleLine_frame outOfRange states { session with lines := rest } line
      rw [same]
      exact batches
    · refine ⟨?_, batches⟩
      intro inside
      refine ⟨_, rfl, ?_⟩
      have before : Between low high (session.activeTargets motor) := by
        rw [tracks.active]
        cases history : session.batches with
        | nil => exact starts
        | cons last earlier =>
          rw [history] at batches inside
          obtain ⟨q, sent, within⟩ := batches.1 fun past member => inside past (List.mem_cons_of_mem _ member)
          change Between low high (last.commands motor).q
          rw [sent]
          exact within
      obtain ⟨previous, active, above, below⟩ := before
      obtain ⟨target, requested, least, most⟩ := inside _ List.mem_cons_self
      refine ⟨_, ramp_finite active requested, ?_⟩
      have between : approach previous target (rampStep config) ∈ Set.uIcc previous target :=
        approach_between (rampStep_nonneg config)
      exact Set.uIcc_subset_Icc ⟨above, below⟩ ⟨least, most⟩ between

/-- The range of positions that a frame of the motor can carry. -/
def InRange (config : ArmConfig) (motor : Fin config.motors.length) (value : Double) : Prop :=
  Between (-(limitParam (toDamiaoModel (config.motors.get motor).model)).qMax)
    (limitParam (toDamiaoModel (config.motors.get motor).model)).qMax value

/-- A command whose position lies in the range, so that the frame carries it without wrapping. That it
is carried within one step of the code is a statement about exact arithmetic. -/
def Commandable (platform : Platform) (config : ArmConfig) (motor : Fin config.motors.length) (command : Command) :
    Prop :=
  let limits := limitParam (toDamiaoModel (config.motors.get motor).model)
  ∃ mit : MitCommand, command = .ofMit mit ∧ InRange config motor (.finite mit.q) ∧
    ∃ codes, readMit (mitPayload platform limits mit) = some codes ∧ Within (-limits.qMax) limits.qMax 16 codes.q mit.q

/-- Positions sent stay in the range of the motor as long as its requested targets do. -/
theorem positions_stay_commandable (platform : Platform) {pose : Fin config.motors.length → ℚ}
    {session : Session config.motors.length} (starts : ∀ motor, InRange config motor (.finite (pose motor)))
    (reached : Reach (machine outOfRange config pose) Anything session) (motor : Fin config.motors.length) :
    Throughout (fun batch earlier => (∀ past ∈ batch :: earlier, InRange config motor (past.requested motor)) →
      Commandable platform config motor (batch.commands motor)) session.batches := by
  refine (sent_between (starts motor) reached).2.imp ?_
  intro batch earlier within inside
  obtain ⟨_, sent, q, rfl, least, most⟩ := within inside
  obtain ⟨codes, read, encoded, _⟩ := decodes_mitPayload platform (toDamiaoModel (config.motors.get motor).model)
    { kp := kDefaultKp, kd := kDefaultKd, q }
  exact ⟨{ kp := kDefaultKp, kd := kDefaultKd, q }, sent, ⟨q, rfl, least, most⟩, codes, read,
    encoded.inRange least most⟩

theorem joint_inRange (motor : Fin (joints [(1, 0x11)]).motors.length) (x : ℚ) :
    InRange (joints [(1, 0x11)]) motor (.finite x) ↔ -(25 / 2) ≤ x ∧ x ≤ 25 / 2 := by
  have limit : (limitParam (toDamiaoModel ((joints [(1, 0x11)]).motors.get motor).model)).qMax = 25 / 2 := by
    revert motor
    decide +kernel
  rw [InRange, limit]
  constructor
  · intro given
    obtain ⟨_, same, least, most⟩ := given
    cases same
    exact ⟨least, most⟩
  · intro given
    obtain ⟨least, most⟩ := given
    exact ⟨x, rfl, least, most⟩

/-- An accepted line takes a joint at the end of its range 0.0006 rad out of it. -/
theorem target_leaves_range : Accepted (joints [(1, 0x11)]) ∧
    (∀ motor, InRange (joints [(1, 0x11)]) motor (.finite (25 / 2))) ∧
    ∃ session, Reach (machine (fun _ => false) (joints [(1, 0x11)]) fun _ => 25 / 2)
        (fun session action => finiteDelta (fun _ => false) session action = true) session ∧
      ∃ batch ∈ session.batches, ∃ motor, ¬InRange (joints [(1, 0x11)]) motor (batch.commands motor).q := by
  have ran : ((machine (fun _ => false) (joints [(1, 0x11)]) fun _ => 25 / 2).run (finiteDelta fun _ => false)
      (turn "move 0x01 0.1\n") (Session.begin fun _ => 25 / 2)).map (fun session =>
        decide (session.batches.map (fun batch => (batch.commands ⟨0, by decide⟩).q) =
          [.finite (25 / 2 + 3 / 5000)])) = some true := by
    decide +kernel
  obtain ⟨session, reached, sent⟩ := Machine.reach_checked rfl ran
  obtain ⟨batch, earlier, history, position, _⟩ := List.map_eq_cons_iff.mp sent
  refine ⟨joint_accepted, fun motor => (joint_inRange motor _).mpr ⟨by norm_num, le_rfl⟩, session, reached,
    batch, by simp [history], ⟨0, by decide⟩, ?_⟩
  rw [position, joint_inRange]
  intro inside
  exact absurd inside.2 (by norm_num)

/-- A move away from the end of the range is sent. -/
theorem joint_stays_commandable : ∃ session,
    Reach (machine (fun _ => false) (joints [(1, 0x11)]) fun _ => 25 / 2) Anything session ∧
    session.batches.map (fun batch => (batch.requested ⟨0, by decide⟩, (batch.commands ⟨0, by decide⟩).q)) =
      [(.finite (62 / 5), .finite (25 / 2 - 3 / 5000))] ∧ ∀ motor, Throughout (fun batch earlier =>
      (∀ past ∈ batch :: earlier, InRange (joints [(1, 0x11)]) motor (past.requested motor)) →
        Commandable Platform.wrapping (joints [(1, 0x11)]) motor (batch.commands motor)) session.batches := by
  have ran : ((machine (fun _ => false) (joints [(1, 0x11)]) fun _ => 25 / 2).run (fun _ _ => true)
      (turn "move 0x01 -0.1\n") (Session.begin fun _ => 25 / 2)).map (fun session =>
        decide (session.batches.map (fun batch =>
          (batch.requested ⟨0, by decide⟩, (batch.commands ⟨0, by decide⟩).q)) =
            [(.finite (62 / 5), .finite (25 / 2 - 3 / 5000))])) = some true := by
    decide +kernel
  obtain ⟨session, reached, sent⟩ := Machine.reach_checked rfl ran
  have starts (motor : Fin (joints [(1, 0x11)]).motors.length) :
      InRange (joints [(1, 0x11)]) motor (.finite (25 / 2)) := (joint_inRange motor _).mpr ⟨by norm_num, le_rfl⟩
  exact ⟨session, reached.anything, sent,
    positions_stay_commandable Platform.wrapping starts reached.anything⟩

end DmOpenarm.Ramping
