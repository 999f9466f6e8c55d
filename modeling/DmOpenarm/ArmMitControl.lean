import DmOpenarm.Backend
import DmOpenarm.CommandLine
import DmOpenarm.MitFrame
import DmOpenarm.Library.Ramp
import DmOpenarm.Library.Runs

/-! The arm_mit_control program: lines from a FIFO move the requested targets, and in every turn
of the loop the active targets ramp toward them and are sent. The arm answers as it likes. -/

namespace DmOpenarm.ArmMitControl
open Types CommandLine Library.Effect Library.Ieee Library.Runs

def kDefaultKp : ℚ := 8
def kDefaultKd : ℚ := 2 / 5
def kMaxTargetVelocityRadPerSec : ℚ := 3 / 5

/-- A command over doubles. -/
structure Command where
  kp : Double
  kd : Double
  q : Double
  dq : Double
  tau : Double
  deriving DecidableEq, Repr

def Command.ofMit (command : MitCommand) : Command :=
  ⟨.finite command.kp, .finite command.kd, .finite command.q, .finite command.dq, .finite command.tau⟩

/-- The complete lines at the beginning of a text, and what stands after the last of them. -/
def splitLines : List Char → List (List Char) × List Char
  | [] => ([], [])
  | '\n' :: text => let rest := splitLines text; ([] :: rest.1, rest.2)
  | c :: text =>
      match splitLines text with
      | ([], pending) => ([], c :: pending)
      | (line :: lines, pending) => ((c :: line) :: lines, pending)

/-- The chunks are what read() gives until it has nothing more. -/
def readLines (pending : List Char) (chunks : List (List Char)) : List String × List Char :=
  let split := splitLines (pending ++ chunks.flatten)
  (split.1.map String.ofList, split.2)

def requireKnownMotor (canId : Id) (motors : List MotorConfig) : Except Fault Id :=
  if motors.any (·.canId == canId) then pure canId else throw (.invalidArgument "unknown motor CAN ID")

def motorIndex (canId : Id) (motors : List MotorConfig) : Except Fault (Fin motors.length) :=
  match motors.findFinIdx? (·.canId == canId) with
  | some index => pure index
  | none => throw (.invalidArgument "unknown motor CAN ID")

def approachTarget (current target step : Double) : Double :=
  if current.lt (target.sub step) then current.add step
  else if (target.add step).lt current then current.sub step
  else target

/-- A batch handed to the arm, and the requested targets in force then. -/
structure Batch (n : Nat) where
  requested : Fin n → Double
  commands : Fin n → Command

inductive Place where
  | test
  | handle
  | left
  deriving DecidableEq, Repr

/-- The local variables of the program. Batches are kept newest first. -/
structure Session (n : Nat) where
  place : Place := .test
  running : Bool := true
  pending : List Char := []
  lines : List String := []
  homeTargets : Fin n → Double
  requestedTargets : Fin n → Double
  activeTargets : Fin n → Double
  batches : List (Batch n) := []

/-- All targets start at the reported position. -/
def Session.begin {n : Nat} (pose : Fin n → ℚ) : Session n where
  homeTargets motor := .finite (pose motor)
  requestedTargets motor := .finite (pose motor)
  activeTargets motor := .finite (pose motor)

def Session.request {n : Nat} (session : Session n) (motor : Fin n) (target : Double) : Session n :=
  { session with requestedTargets := Function.update session.requestedTargets motor target }

/-- An interrupt clears the flag at any time; states() and send_mit_all may throw. -/
inductive Action where
  | interrupt
  | read (chunks : List (List Char))
  | line (states : Except Fault (List MotorState))
  | send (throws : Bool)
  | leave

section
variable (outOfRange : ℚ → Bool) (config : ArmConfig)

def execute (states : Except Fault (List MotorState)) (session : Session config.motors.length)
    (command : MitControlCommand) : Except Fault (Session config.motors.length) :=
  match command.kind with
  | .status => do
      let _ ← states
      pure session
  | .move => do
      let _ ← requireKnownMotor command.canId config.motors
      let index ← motorIndex command.canId config.motors
      pure (session.request index ((session.requestedTargets index).add command.deltaRad))
  | .homeOne => do
      let _ ← requireKnownMotor command.canId config.motors
      let index ← motorIndex command.canId config.motors
      pure (session.request index (session.homeTargets index))
  | .homeAll => pure { session with requestedTargets := session.homeTargets }
  | .stop => pure { session with running := false }

/-- A line that is rejected leaves the session alone. -/
def handleLine (states : Except Fault (List MotorState)) (session : Session config.motors.length)
    (line : String) : Session config.motors.length :=
  match parseMitControlCommand outOfRange line with
  | .error _ => session
  | .ok command =>
      match execute config states session command with
      | .error _ => session
      | .ok after => after

/-- The loop period is in milliseconds. -/
def rampStep : ℚ := kMaxTargetVelocityRadPerSec * (config.loopPeriod / 1000)

def ramp (session : Session config.motors.length) (motor : Fin config.motors.length) : Double :=
  approachTarget (session.activeTargets motor) (session.requestedTargets motor) (.finite (rampStep config))

def mitCommand (target : Double) : Command :=
  { kp := .finite kDefaultKp, kd := .finite kDefaultKd, q := target, dq := .finite 0, tau := .finite 0 }

/-- The part of a turn after the lines are handled. -/
def tick (session : Session config.motors.length) : Session config.motors.length :=
  { session with
    activeTargets := ramp config session
    batches := ⟨session.requestedTargets, fun motor => mitCommand (ramp config session motor)⟩ :: session.batches }

def step (session : Session config.motors.length) : Action → Option (Session config.motors.length)
  | .interrupt => some { session with running := false }
  | .read chunks =>
      if session.place = .test ∧ session.running then
        let read := readLines session.pending chunks
        some { session with place := .handle, lines := read.1, pending := read.2 }
      else none
  | .line states =>
      match session.place, session.lines with
      | .handle, line :: rest => some (handleLine outOfRange config states { session with lines := rest } line)
      | _, _ => none
  | .send throws =>
      match session.place, session.lines with
      | .handle, [] => some { tick config session with place := if throws then .left else .test }
      | _, _ => none
  | .leave =>
      if session.place = .test ∧ session.running = false then some { session with place := .left } else none

def machine (pose : Fin config.motors.length → ℚ) : Machine (Session config.motors.length) Action where
  initial session := session = Session.begin pose
  step := step outOfRange config

end

variable {outOfRange : ℚ → Bool} {config : ArmConfig} {n : Nat}

/-- The position each motor was last sent, or reported at first. -/
def lastSent (pose : Fin n → ℚ) : List (Batch n) → Fin n → Double
  | [], motor => .finite (pose motor)
  | batch :: _, motor => (batch.commands motor).q

@[simp] theorem request_requested (session : Session n) (motor : Fin n) (target : Double) :
    (session.request motor target).requestedTargets = Function.update session.requestedTargets motor target := rfl

/-- All that a command can do to the session. -/
theorem execute_cases {states : Except Fault (List MotorState)} {session after : Session config.motors.length}
    {command : MitControlCommand} (executed : execute config states session command = .ok after) :
    after = session ∨
      (∃ motor, after = session.request motor ((session.requestedTargets motor).add command.deltaRad)) ∨
      (∃ motor, after = session.request motor (session.homeTargets motor)) ∨
      after = { session with requestedTargets := session.homeTargets } ∨
      after = { session with running := false } := by
  unfold execute at executed
  cases kind : command.kind with
  | status =>
    simp only [kind, bind_eq_ok, pure_eq_ok] at executed
    obtain ⟨_, _, same⟩ := executed
    exact .inl same.symm
  | move =>
    simp only [kind, bind_eq_ok, pure_eq_ok] at executed
    obtain ⟨_, _, motor, _, same⟩ := executed
    exact .inr (.inl ⟨motor, same.symm⟩)
  | homeOne =>
    simp only [kind, bind_eq_ok, pure_eq_ok] at executed
    obtain ⟨_, _, motor, _, same⟩ := executed
    exact .inr (.inr (.inl ⟨motor, same.symm⟩))
  | homeAll =>
    simp only [kind, pure_eq_ok] at executed
    exact .inr (.inr (.inr (.inl executed.symm)))
  | stop =>
    simp only [kind, pure_eq_ok] at executed
    exact .inr (.inr (.inr (.inr executed.symm)))

/-- A line changes nothing but requested targets and the flag. -/
theorem handleLine_frame (outOfRange : ℚ → Bool) (states : Except Fault (List MotorState))
    (session : Session config.motors.length) (line : String) :
    (handleLine outOfRange config states session line).homeTargets = session.homeTargets ∧
      (handleLine outOfRange config states session line).activeTargets = session.activeTargets ∧
      (handleLine outOfRange config states session line).batches = session.batches := by
  unfold handleLine
  split
  · exact ⟨rfl, rfl, rfl⟩
  split
  · exact ⟨rfl, rfl, rfl⟩
  · rename_i executed
    rcases execute_cases executed with rfl | ⟨_, rfl⟩ | ⟨_, rfl⟩ | rfl | rfl <;> exact ⟨rfl, rfl, rfl⟩

/-- A line leaves the place in the loop and what has been read. -/
theorem handleLine_place (outOfRange : ℚ → Bool) (states : Except Fault (List MotorState))
    (session : Session config.motors.length) (line : String) :
    (handleLine outOfRange config states session line).place = session.place ∧
      (handleLine outOfRange config states session line).lines = session.lines ∧
      (handleLine outOfRange config states session line).pending = session.pending := by
  unfold handleLine
  split
  · exact ⟨rfl, rfl, rfl⟩
  split
  · exact ⟨rfl, rfl, rfl⟩
  · rename_i executed
    rcases execute_cases executed with rfl | ⟨_, rfl⟩ | ⟨_, rfl⟩ | rfl | rfl <;> exact ⟨rfl, rfl, rfl⟩

/-- A line keeps what holds of the home targets and of every sum of a requested target and an
accepted displacement. -/
theorem handleLine_requested (holds : Fin config.motors.length → Double → Prop)
    {states : Except Fault (List MotorState)} {session : Session config.motors.length} {line : String}
    (home : ∀ motor, holds motor (session.homeTargets motor))
    (requested : ∀ motor, holds motor (session.requestedTargets motor))
    (moved : ∀ command, parseMitControlCommand outOfRange line = .ok command →
      ∀ motor, holds motor ((session.requestedTargets motor).add command.deltaRad)) (motor : Fin config.motors.length) :
    holds motor ((handleLine outOfRange config states session line).requestedTargets motor) := by
  have updated (index : Fin config.motors.length) (target : Double) (fits : holds index target) :
      holds motor ((session.request index target).requestedTargets motor) := by
    by_cases same : motor = index
    · subst same
      rw [request_requested, Function.update_self]
      exact fits
    · rw [request_requested, Function.update_of_ne same]
      exact requested motor
  unfold handleLine
  split
  · exact requested motor
  rename_i parsed
  split
  · exact requested motor
  rename_i executed
  rcases execute_cases executed with rfl | ⟨index, rfl⟩ | ⟨index, rfl⟩ | rfl | rfl
  · exact requested motor
  · exact updated index _ (moved _ parsed index)
  · exact updated index _ (home index)
  · exact home motor
  · exact requested motor

/-- All that a step can do: read or leave, handle a line, or ramp and send. -/
theorem step_cases {session after : Session config.motors.length} {action : Action}
    (moved : step outOfRange config session action = some after) :
    (after.homeTargets = session.homeTargets ∧ after.requestedTargets = session.requestedTargets ∧
        after.activeTargets = session.activeTargets ∧ after.batches = session.batches) ∨
      (∃ states line rest, action = .line states ∧ session.lines = line :: rest ∧
        after = handleLine outOfRange config states { session with lines := rest } line) ∨
      ∃ place, after = { tick config session with place } := by
  cases action with
  | interrupt =>
    cases moved
    exact .inl ⟨rfl, rfl, rfl, rfl⟩
  | read chunks =>
    by_cases ready : session.place = .test ∧ session.running
    · rw [step, if_pos ready] at moved
      cases moved
      exact .inl ⟨rfl, rfl, rfl, rfl⟩
    · rw [step, if_neg ready] at moved
      cases moved
  | line states =>
    cases place : session.place with
    | test => simp [step, place] at moved
    | left => simp [step, place] at moved
    | handle =>
      rcases lines : session.lines with _ | ⟨line, rest⟩
      · simp [step, place, lines] at moved
      · simp only [step, place, lines, Option.some.injEq] at moved
        exact .inr (.inl ⟨states, line, rest, rfl, rfl, moved.symm⟩)
  | send throws =>
    cases place : session.place with
    | test => simp [step, place] at moved
    | left => simp [step, place] at moved
    | handle =>
      rcases lines : session.lines with _ | ⟨line, rest⟩
      · simp only [step, place, lines, Option.some.injEq] at moved
        exact .inr (.inr ⟨_, moved.symm⟩)
      · simp [step, place, lines] at moved
  | leave =>
    by_cases ended : session.place = .test ∧ session.running = false
    · rw [step, if_pos ended] at moved
      cases moved
      exact .inl ⟨rfl, rfl, rfl, rfl⟩
    · rw [step, if_neg ended] at moved
      cases moved

/-- The active targets are what was sent last, and the home targets never change. -/
structure Tracks (pose : Fin n → ℚ) (session : Session n) : Prop where
  home : session.homeTargets = fun motor => .finite (pose motor)
  active : session.activeTargets = lastSent pose session.batches

theorem Tracks.step {pose : Fin config.motors.length → ℚ} {session after : Session config.motors.length}
    {action : Action} (moved : step outOfRange config session action = some after) (tracks : Tracks pose session) :
    Tracks pose after := by
  rcases step_cases moved with ⟨home, _, active, batches⟩ | ⟨states, line, rest, _, _, rfl⟩ | ⟨place, rfl⟩
  · exact ⟨home.trans tracks.home, by rw [active, batches, tracks.active]⟩
  · obtain ⟨home, active, batches⟩ := handleLine_frame outOfRange states { session with lines := rest } line
    exact ⟨home.trans tracks.home, by rw [active, batches]; exact tracks.active⟩
  · exact ⟨tracks.home, rfl⟩

end DmOpenarm.ArmMitControl
