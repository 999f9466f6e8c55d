import DmOpenarm.ArmMitControl
import DmOpenarm.Operations

/-! What one command line of arm_mit_control changes. Its handler throws at several depths, and
what was written before a throw would stay written. -/

namespace DmOpenarm.LineEffects
open Types hiding ControlMode
open YamlLoader CommandLine ArmMitControl Library.Effect Library.Ieee Library.Runs

section
variable (outOfRange : ℚ → Bool) (config : ArmConfig)

/-- The try block around one line. -/
def dispatch (states : Except Fault (List MotorState)) (line : String) :
    Throwing (Session config.motors.length) Fault Unit := do
  let command ← MonadExcept.ofExcept (parseMitControlCommand outOfRange line)
  match command.kind with
  | .status => do
      let _ ← MonadExcept.ofExcept states
      pure ()
  | .move => do
      let _ ← MonadExcept.ofExcept (requireKnownMotor command.canId config.motors)
      let index ← MonadExcept.ofExcept (motorIndex command.canId config.motors)
      modify fun session => session.request index ((session.requestedTargets index).add command.deltaRad)
  | .homeOne => do
      let _ ← MonadExcept.ofExcept (requireKnownMotor command.canId config.motors)
      let index ← MonadExcept.ofExcept (motorIndex command.canId config.motors)
      modify fun session => session.request index (session.homeTargets index)
  | .homeAll => modify fun session => { session with requestedTargets := session.homeTargets }
  | .stop => modify fun session => { session with running := false }

/-- A rejected line is reported, and the loop goes on with the next one. -/
def handle (states : Except Fault (List MotorState)) (line : String) :
    Throwing (Session config.motors.length) Fault Unit :=
  tryCatch (dispatch outOfRange config states line) fun _ => pure ()

end

variable {outOfRange : ℚ → Bool} {config : ArmConfig}

/-- The motor with a CAN ID, the first one should there be several. -/
def Named (config : ArmConfig) (id : Id) (motor : Fin config.motors.length) : Prop :=
  (config.motors.get motor).canId = id ∧ ∀ earlier < motor, (config.motors.get earlier).canId ≠ id

theorem motorIndex_ok {id : Id} {motor : Fin config.motors.length} :
    ArmMitControl.motorIndex id config.motors = .ok motor ↔ Named config id motor := by
  have found : config.motors.findFinIdx? (·.canId == id) = some motor ↔ Named config id motor := by
    rw [List.findFinIdx?_eq_some_iff]
    simp only [beq_iff_eq, Fin.getElem_fin]
    exact Iff.rfl
  rw [ArmMitControl.motorIndex, ← found]
  cases config.motors.findFinIdx? (·.canId == id) with
  | none => exact iff_of_false throw_ne_ok (Option.some_ne_none motor).symm
  | some index => rw [pure_eq_ok, Option.some.injEq]

/-- The two lookups of a command agree. -/
theorem lookup_cases (config : ArmConfig) (id : Id) :
    (∃ motor, Named config id motor ∧ requireKnownMotor id config.motors = .ok id ∧
        ArmMitControl.motorIndex id config.motors = .ok motor) ∨
      (∀ motor, (config.motors.get motor).canId ≠ id) ∧ ∃ fault, requireKnownMotor id config.motors = .error fault := by
  unfold requireKnownMotor
  cases search : config.motors.findFinIdx? (·.canId == id) with
  | none =>
    rw [List.findFinIdx?_eq_none_iff] at search
    have absent (motor : Fin config.motors.length) : (config.motors.get motor).canId ≠ id := by
      intro same
      exact search _ (List.get_mem config.motors motor) (beq_iff_eq.mpr same)
    refine .inr ⟨absent, _, if_neg ?_⟩
    rw [List.any_eq_true]
    intro given
    obtain ⟨motor, member, same⟩ := given
    exact search motor member same
  | some motor =>
    have index : ArmMitControl.motorIndex id config.motors = .ok motor := by
      rw [ArmMitControl.motorIndex, search]
      rfl
    have named := motorIndex_ok.mp index
    refine .inl ⟨motor, named, if_pos ?_, index⟩
    rw [List.any_eq_true]
    exact ⟨_, List.get_mem config.motors motor, beq_iff_eq.mpr named.1⟩

/-- Why a line is rejected: it is no command, the states cannot be read, or no motor has the CAN ID. -/
def Rejected (outOfRange : ℚ → Bool) (config : ArmConfig) (states : Except Fault (List MotorState)) (line : String) :
    Prop :=
  (∃ fault, parseMitControlCommand outOfRange line = .error fault) ∨
    ∃ command, parseMitControlCommand outOfRange line = .ok command ∧
      (command.kind = .status ∧ (∃ fault, states = .error fault) ∨
        (command.kind = .move ∨ command.kind = .homeOne) ∧ ∀ motor, (config.motors.get motor).canId ≠ command.canId)

/-- What an accepted command does to the session. -/
def Changes (command : MitControlCommand) (session after : Session config.motors.length) : Prop :=
  match command.kind with
  | .status => after = session
  | .move => ∃ motor, Named config command.canId motor ∧ after = { session with
      requestedTargets := Function.update session.requestedTargets motor
        ((session.requestedTargets motor).add command.deltaRad) }
  | .homeOne => ∃ motor, Named config command.canId motor ∧ after = { session with
      requestedTargets := Function.update session.requestedTargets motor (session.homeTargets motor) }
  | .homeAll => after = { session with requestedTargets := session.homeTargets }
  | .stop => after = { session with running := false }

theorem execute_changes {states : Except Fault (List MotorState)} {session after : Session config.motors.length}
    {command : MitControlCommand} (executed : execute config states session command = .ok after) :
    Changes command session after := by
  unfold execute at executed
  unfold Changes
  cases kind : command.kind with
  | status =>
    simp only [kind, bind_eq_ok, pure_eq_ok] at executed
    obtain ⟨_, _, same⟩ := executed
    exact same.symm
  | move =>
    simp only [kind, bind_eq_ok, pure_eq_ok] at executed
    obtain ⟨_, _, motor, index, same⟩ := executed
    exact ⟨motor, motorIndex_ok.mp index, same.symm⟩
  | homeOne =>
    simp only [kind, bind_eq_ok, pure_eq_ok] at executed
    obtain ⟨_, _, motor, index, same⟩ := executed
    exact ⟨motor, motorIndex_ok.mp index, same.symm⟩
  | homeAll =>
    simp only [kind, pure_eq_ok] at executed
    exact executed.symm
  | stop =>
    simp only [kind, pure_eq_ok] at executed
    exact executed.symm

/-- No write comes before a step that may throw. -/
theorem exec_dispatch (states : Except Fault (List MotorState)) (line : String)
    (session : Session config.motors.length) : exec (dispatch outOfRange config states line) session =
      match parseMitControlCommand outOfRange line >>= execute config states session with
      | .ok after => (.ok (), after)
      | .error fault => (.error fault, session) := by
  rw [dispatch, exec_ofExcept_bind]
  cases parseMitControlCommand outOfRange line with
  | error fault => rfl
  | ok command =>
    have bound : (Except.ok command >>= execute config states session) = execute config states session command := rfl
    rw [bound, execute]
    dsimp only
    cases command.kind with
    | status =>
      cases states with
      | error fault => rfl
      | ok entries => rfl
    | move =>
      dsimp only
      rw [exec_ofExcept_bind]
      cases requireKnownMotor command.canId config.motors with
      | error fault => rfl
      | ok id =>
        dsimp only
        rw [exec_ofExcept_bind]
        cases ArmMitControl.motorIndex command.canId config.motors with
        | error fault => rfl
        | ok index => rfl
    | homeOne =>
      dsimp only
      rw [exec_ofExcept_bind]
      cases requireKnownMotor command.canId config.motors with
      | error fault => rfl
      | ok id =>
        dsimp only
        rw [exec_ofExcept_bind]
        cases ArmMitControl.motorIndex command.canId config.motors with
        | error fault => rfl
        | ok index => rfl
    | homeAll => rfl
    | stop => rfl

/-- The handler of the program, with the exception caught. -/
theorem exec_handle (states : Except Fault (List MotorState)) (line : String)
    (session : Session config.motors.length) :
    exec (handle outOfRange config states line) session = (.ok (), handleLine outOfRange config states session line) := by
  rw [handle, exec_tryCatch, exec_dispatch, handleLine]
  cases parseMitControlCommand outOfRange line with
  | error fault => rfl
  | ok command =>
    have bound : (Except.ok command >>= execute config states session) = execute config states session command := rfl
    rw [bound]
    dsimp only
    cases execute config states session command with
    | error fault => rfl
    | ok after => rfl

/-- A change to the motor with a CAN ID fails only where there is none. -/
theorem located_fails_iff {α : Type} (id : Id) (change : Fin config.motors.length → α) :
    (∃ fault, (do
        let _ ← requireKnownMotor id config.motors
        let index ← ArmMitControl.motorIndex id config.motors
        pure (change index) : Except Fault α) = .error fault) ↔
      ∀ motor, (config.motors.get motor).canId ≠ id := by
  rcases lookup_cases config id with ⟨motor, named, known, index⟩ | ⟨absent, fault, unknown⟩
  · rw [known, index]
    refine iff_of_false ?_ fun absent => absent motor named.1
    intro given
    obtain ⟨fault, thrown⟩ := given
    cases thrown
  · rw [unknown]
    exact iff_of_true ⟨fault, rfl⟩ absent

theorem execute_fails_iff {states : Except Fault (List MotorState)} {session : Session config.motors.length}
    {command : MitControlCommand} : (∃ fault, execute config states session command = .error fault) ↔
      command.kind = .status ∧ (∃ fault, states = .error fault) ∨
        (command.kind = .move ∨ command.kind = .homeOne) ∧ ∀ motor, (config.motors.get motor).canId ≠ command.canId := by
  unfold execute
  cases kind : command.kind with
  | status =>
    dsimp only
    cases states with
    | error fault => exact iff_of_true ⟨fault, rfl⟩ (.inl ⟨rfl, fault, rfl⟩)
    | ok entries => simp [bind, Except.bind, pure, Except.pure]
  | move =>
    dsimp only
    rw [located_fails_iff]
    simp only [reduceCtorEq, false_and, true_or, true_and, false_or]
  | homeOne =>
    dsimp only
    rw [located_fails_iff]
    simp only [reduceCtorEq, false_and, or_true, true_and, false_or]
  | homeAll => simp [pure, Except.pure]
  | stop => simp [pure, Except.pure]

theorem rejected_iff {states : Except Fault (List MotorState)} {line : String}
    {session : Session config.motors.length} : Rejected outOfRange config states line ↔
      ∃ fault, (parseMitControlCommand outOfRange line >>= execute config states session) = .error fault := by
  unfold Rejected
  cases parseMitControlCommand outOfRange line with
  | error fault => exact iff_of_true (.inl ⟨fault, rfl⟩) ⟨fault, rfl⟩
  | ok command =>
    have bound : (Except.ok command >>= execute config states session) = execute config states session command := rfl
    rw [bound, execute_fails_iff]
    simp

/-- An accepted configuration has one motor for each CAN ID. -/
theorem named_unique (accepted : Accepted config) {id : Id} {motor other : Fin config.motors.length}
    (named : Named config id motor) (same : (config.motors.get other).canId = id) : other = motor :=
  Operations.canId_injective accepted (same.trans named.1.symm)

/-- The program from any values of its variables on. -/
def resumed (outOfRange : ℚ → Bool) {config : ArmConfig} (start : Session config.motors.length) :
    Machine (Session config.motors.length) Action where
  initial session := session = start
  step := step outOfRange config

theorem home_reach {start session : Session config.motors.length}
    (reached : Reach (resumed outOfRange start) Anything session) : session.homeTargets = start.homeTargets := by
  induction reached with
  | start begins => rw [begins]
  | next _ _ moved ih =>
    rcases step_cases moved with ⟨home, _⟩ | ⟨states, line, rest, _, _, rfl⟩ | ⟨place, rfl⟩
    · exact home.trans ih
    · exact (handleLine_frame outOfRange states _ line).1.trans ih
    · exact ih

/-- A rejected line changes nothing, another one what its command names, and no run changes the
home targets. -/
theorem lines_change_what_they_name (outOfRange : ℚ → Bool) (config : ArmConfig) :
    (∀ states line (session : Session config.motors.length),
      (Rejected outOfRange config states line →
        exec (handle outOfRange config states line) session = (.ok (), session)) ∧
      (¬Rejected outOfRange config states line → ∃ command after,
        parseMitControlCommand outOfRange line = .ok command ∧ Changes command session after ∧
          exec (handle outOfRange config states line) session = (.ok (), after))) ∧
    (∀ start session : Session config.motors.length,
      Reach (resumed outOfRange start) Anything session → session.homeTargets = start.homeTargets) ∧
    (Accepted config → ∀ id motor other, Named config id motor → (config.motors.get other).canId = id →
      other = motor) := by
  refine ⟨?_, fun _ _ => home_reach, fun accepted _ _ _ => named_unique accepted⟩
  intro states line session
  rw [@rejected_iff outOfRange config states line session, handle, exec_tryCatch, exec_dispatch]
  cases outcome : parseMitControlCommand outOfRange line >>= execute config states session with
  | error fault => exact ⟨fun _ => rfl, fun accepted => absurd ⟨fault, rfl⟩ accepted⟩
  | ok after =>
    refine ⟨?_, fun _ => ?_⟩
    · intro given
      obtain ⟨fault, thrown⟩ := given
      cases thrown
    · obtain ⟨command, parsed, executed⟩ := bind_eq_ok.mp outcome
      exact ⟨command, after, parsed, execute_changes executed, rfl⟩

end DmOpenarm.LineEffects
