import DmOpenarm.CommandTable
import DmOpenarm.Library.Runs
import DmOpenarm.YamlLoader

/-! The calls that write the command table, with every access to the vector checked. Seen from
outside, the table is a map from CAN IDs to the commands last assigned to them. -/

namespace DmOpenarm.CommandCalls
open Types YamlLoader Library.Effect Library.Runs
open CommandTable hiding setCommand setAllCommands

/-- How a call can end other than by returning: it throws, or it has accessed the vector past
its end, which has no defined meaning. -/
inductive Stop where
  | threw (fault : Fault)
  | outOfBounds
  deriving DecidableEq

abbrev TableM := Throwing (List MitCommand) Stop

def writeEntry (index : Nat) (command : MitCommand) : TableM Unit := do
  let commands ← get
  if index < commands.length then modify fun commands => commands.set index command
  else throw .outOfBounds

def setCommand (canIds : List Id) (canId : Id) (command : MitCommand) : TableM Unit :=
  match motorIndex canIds canId with
  | .ok index => writeEntry index command
  | .error fault => throw (.threw fault)

def setAllCommands (replacement : List MitCommand) : TableM Unit := do
  let commands ← get
  if replacement.length ≠ commands.length then
    throw (.threw (.invalidArgument "MIT command count does not match motor count"))
  else modify fun _ => replacement

def call (canIds : List Id) : Update → TableM Unit
  | .setCommand canId command => setCommand canIds canId command
  | .setAllCommands replacement => setAllCommands replacement

theorem exec_writeEntry {commands : List MitCommand} {index : Nat} (inside : index < commands.length)
    (command : MitCommand) : exec (writeEntry index command) commands = (.ok (), commands.set index command) := by
  rw [writeEntry, exec_get_bind, if_pos inside]
  rfl

/-- On a table of the right size a call does what the update does, and all its accesses are
inside the table. -/
theorem exec_call {canIds : List Id} {commands : List MitCommand} (size : commands.length = canIds.length)
    (update : Update) :
    exec (call canIds update) commands =
      match update.run canIds commands with
      | .ok changed => (.ok (), changed)
      | .error fault => (.error (.threw fault), commands) := by
  cases update with
  | setCommand canId command =>
    rw [call, setCommand, Update.run, CommandTable.setCommand]
    cases search : motorIndex canIds canId with
    | error fault => rfl
    | ok index =>
      obtain ⟨inside, _⟩ := motorIndex_ok search
      exact exec_writeEntry (by omega) command
  | setAllCommands replacement =>
    rw [call, setAllCommands, exec_get_bind, Update.run, CommandTable.setAllCommands]
    by_cases wrong : replacement.length ≠ commands.length
    · rw [if_pos wrong, if_pos wrong]
      rfl
    · rw [if_neg wrong, if_neg wrong]
      rfl

theorem exec_call_snd {canIds : List Id} {commands : List MitCommand} (size : commands.length = canIds.length)
    (update : Update) : (exec (call canIds update) commands).2 = update.apply canIds commands := by
  rw [exec_call size, Update.apply]
  cases update.run canIds commands with
  | ok changed => rfl
  | error fault => rfl

/-- A controller of given motors, and the calls made on it with their outcomes, newest first. -/
structure Controller where
  commands : List MitCommand
  log : List (Update × Except Stop Unit) := []

def step (canIds : List Id) (controller : Controller) (update : Update) : Option Controller :=
  let outcome := exec (call canIds update) controller.commands
  some { commands := outcome.2, log := (update, outcome.1) :: controller.log }

def machine (canIds : List Id) : Machine Controller Update where
  initial controller := controller = { commands := initialCommands canIds }
  step := step canIds

/-- What a call has assigned to a motor: nothing unless it succeeded. -/
def assigned (canIds : List Id) (motor : Id) (entry : Update × Except Stop Unit) : Option MitCommand :=
  match entry with
  | (.setCommand canId command, .ok ()) => if canId = motor then some command else none
  | (.setAllCommands commands, .ok ()) => (canIds.zip commands).lookup motor
  | (_, .error _) => none

/-- The command last assigned to a motor, all zero if there is none. -/
def lastAssigned (canIds : List Id) (log : List (Update × Except Stop Unit)) (motor : Id) : MitCommand :=
  (log.findSome? (assigned canIds motor)).getD {}

theorem lastAssigned_cons (canIds : List Id) (entry : Update × Except Stop Unit)
    (log : List (Update × Except Stop Unit)) (motor : Id) :
    lastAssigned canIds (entry :: log) motor =
      (assigned canIds motor entry).getD (lastAssigned canIds log motor) := by
  unfold lastAssigned
  rw [List.findSome?_cons]
  cases assigned canIds motor entry with
  | none => rfl
  | some command => rfl

/-- Whether a call succeeds is decided by its arguments alone. -/
theorem assigned_outcome {canIds : List Id} {commands : List MitCommand} (size : commands.length = canIds.length)
    (update : Update) {motor : Id} (known : motor ∈ canIds) :
    assigned canIds motor (update, (exec (call canIds update) commands).1) = update.commandFor canIds motor := by
  rw [exec_call size]
  cases update with
  | setCommand canId command =>
    rw [Update.run, CommandTable.setCommand]
    cases search : motorIndex canIds canId with
    | ok index => rfl
    | error fault =>
      have different : canId ≠ motor := by
        intro same
        subst same
        exact motorIndex_error search known
      exact (if_neg different).symm
  | setAllCommands replacement =>
    rw [Update.run, CommandTable.setAllCommands, size]
    by_cases same : replacement.length = canIds.length
    · rw [if_neg (not_not.mpr same)]
      exact (if_pos same).symm
    · rw [if_pos same]
      exact (if_neg same).symm

/-- Each entry is what was last assigned to its motor, and no access was past the end. -/
structure Refines (canIds : List Id) (controller : Controller) : Prop where
  table : controller.commands = canIds.map (lastAssigned canIds controller.log)
  inside : ∀ entry ∈ controller.log, entry.2 ≠ .error .outOfBounds

theorem Refines.size {canIds : List Id} {controller : Controller} (refines : Refines canIds controller) :
    controller.commands.length = canIds.length := by
  rw [refines.table, List.length_map]

theorem Refines.step {canIds : List Id} (distinct : canIds.Nodup) {controller : Controller}
    (refines : Refines canIds controller) (update : Update) :
    Refines canIds ⟨(exec (call canIds update) controller.commands).2,
      (update, (exec (call canIds update) controller.commands).1) :: controller.log⟩ where
  table := by
    rw [exec_call_snd refines.size]
    conv_lhs => rw [refines.table]
    rw [apply_map distinct]
    apply List.map_congr_left
    intro motor known
    rw [lastAssigned_cons, assigned_outcome refines.size update known]
  inside := by
    intro entry member
    rcases List.mem_cons.mp member with here | earlier
    · subst here
      rw [exec_call refines.size]
      cases update.run canIds controller.commands with
      | ok changed =>
        intro same
        cases same
      | error fault =>
        intro same
        cases same
    · exact refines.inside entry earlier

theorem refines_of_reach {canIds : List Id} (distinct : canIds.Nodup) {controller : Controller}
    (reached : Reach (machine canIds) Anything controller) : Refines canIds controller := by
  induction reached with
  | start begins =>
    cases begins
    refine ⟨?_, List.forall_mem_nil _⟩
    exact List.map_const'.symm
  | next _ _ moved refines =>
    cases moved
    exact refines.step distinct _

/-- After any calls there is one entry for each motor, in configuration order, and it is the
command last assigned to the motor. No access is out of bounds, and a call that throws changes
nothing. -/
theorem table_refines_map {config : ArmConfig} (distinct : (canIds config).Nodup) {controller : Controller}
    (reached : Reach (machine (canIds config)) Anything controller) :
    controller.commands =
        config.motors.map (fun motor => lastAssigned (canIds config) controller.log motor.canId) ∧
      (∀ entry ∈ controller.log, entry.2 ≠ .error .outOfBounds) ∧
      ∀ update stop after, exec (call (canIds config) update) controller.commands = (.error stop, after) →
        stop ≠ .outOfBounds ∧ after = controller.commands := by
  have refines := refines_of_reach distinct reached
  refine ⟨refines.table.trans List.map_map, refines.inside, ?_⟩
  intro update stop after thrown
  rw [exec_call refines.size] at thrown
  cases ran : update.run (canIds config) controller.commands with
  | ok changed =>
    rw [ran] at thrown
    cases thrown
  | error fault =>
    rw [ran] at thrown
    cases thrown
    exact ⟨Stop.noConfusion, rfl⟩

theorem two_joints_table : ∃ controller, Reach (machine [1, 2]) Anything controller ∧
    controller.commands = [{ q := 1 }, { q := 3 }] ∧
    controller.commands = [1, 2].map (lastAssigned [1, 2] controller.log) := by
  have ran : ((machine [1, 2]).run (fun _ _ => true) [.setCommand 9 { q := 4 }, .setAllCommands [{ q := 1 }, { q := 2 }],
      .setCommand 2 { q := 3 }, .setAllCommands [{}]] { commands := initialCommands [1, 2] }).map (fun controller =>
        decide (controller.commands = [{ q := 1 }, { q := 3 }])) = some true := by decide +kernel
  obtain ⟨controller, reached, shown⟩ := Machine.reach_checked rfl ran
  have distinct : (canIds (joints [(1, 0x11), (2, 0x12)])).Nodup := by decide
  have holds := table_refines_map distinct reached.anything
  exact ⟨controller, reached.anything, shown, holds.1⟩

end DmOpenarm.CommandCalls
