import DmOpenarm.Library.Effect
import DmOpenarm.Library.FirstWins
import DmOpenarm.Library.Latest
import DmOpenarm.Types

/-! The command table of the MIT loop: one entry for each motor, in configuration order. It
holds, for every CAN ID, the last command that was assigned to it. -/

namespace DmOpenarm.CommandTable
open Types Library.FirstWins

def canIds (config : ArmConfig) : List Id := config.motors.map MotorConfig.canId

def motorIndex (canIds : List Id) (canId : Id) : Except Fault Nat :=
  match canIds.findIdx? (· == canId) with
  | some index => pure index
  | none => throw (.invalidArgument "unknown motor CAN ID")

def setCommand (canIds : List Id) (commands : List MitCommand) (canId : Id) (command : MitCommand) :
    Except Fault (List MitCommand) := do
  let index ← motorIndex canIds canId
  pure (commands.set index command)

def setAllCommands (commands : List MitCommand) (replacement : List MitCommand) :
    Except Fault (List MitCommand) :=
  if replacement.length ≠ commands.length then
    throw (.invalidArgument "MIT command count does not match motor count")
  else pure replacement

inductive Update where
  | setCommand (canId : Id) (command : MitCommand)
  | setAllCommands (commands : List MitCommand)
  deriving DecidableEq

def Update.run (canIds : List Id) (commands : List MitCommand) : Update → Except Fault (List MitCommand)
  | .setCommand canId command => CommandTable.setCommand canIds commands canId command
  | .setAllCommands replacement => CommandTable.setAllCommands commands replacement

/-- The table after an update; one that throws leaves it alone. -/
def Update.apply (canIds : List Id) (commands : List MitCommand) (update : Update) : List MitCommand :=
  match update.run canIds commands with
  | .ok changed => changed
  | .error _ => commands

/-- What an update writes under the lock, once its checks have passed. -/
inductive Assignment where
  | entry (index : Nat) (command : MitCommand)
  | table (commands : List MitCommand)

def Assignment.write (commands : List MitCommand) : Assignment → List MitCommand
  | .entry index command => commands.set index command
  | .table replacement => replacement

/-- The part of an update before the lock is taken. -/
def Update.check (canIds : List Id) (size : Nat) : Update → Except Fault Assignment
  | .setCommand canId command => do
      let index ← motorIndex canIds canId
      pure (.entry index command)
  | .setAllCommands commands =>
      if commands.length ≠ size then throw (.invalidArgument "MIT command count does not match motor count")
      else pure (.table commands)

theorem Update.apply_of_check {canIds : List Id} {commands : List MitCommand} {update : Update}
    {assignment : Assignment} (checked : update.check canIds commands.length = .ok assignment) :
    update.apply canIds commands = assignment.write commands := by
  cases update with
  | setCommand canId command =>
    cases search : motorIndex canIds canId with
    | error fault =>
      rw [check, search] at checked
      cases checked
    | ok index =>
      rw [check, search] at checked
      cases checked
      rw [apply, run, CommandTable.setCommand, search]
      rfl
  | setAllCommands replacement =>
    by_cases wrong : replacement.length ≠ commands.length
    · rw [check, if_pos wrong] at checked
      cases checked
    · rw [check, if_neg wrong] at checked
      cases checked
      rw [apply, run, CommandTable.setAllCommands, if_neg wrong]
      rfl

theorem Update.length_apply (canIds : List Id) (commands : List MitCommand) (update : Update) :
    (update.apply canIds commands).length = commands.length := by
  cases update with
  | setCommand canId command =>
    rw [apply, run, CommandTable.setCommand]
    cases motorIndex canIds canId with
    | error fault => rfl
    | ok index => exact List.length_set
  | setAllCommands replacement =>
    rw [apply, run, CommandTable.setAllCommands]
    by_cases wrong : replacement.length ≠ commands.length
    · rw [if_pos wrong]
      rfl
    · rw [if_neg wrong]
      exact not_not.mp wrong

def initialCommands (canIds : List Id) : List MitCommand := List.replicate canIds.length {}

def tableAfter (canIds : List Id) (history : List Update) : List MitCommand :=
  history.foldl (Update.apply canIds) (initialCommands canIds)

theorem tableAfter_append (canIds : List Id) (history : List Update) (update : Update) :
    tableAfter canIds (history ++ [update]) = update.apply canIds (tableAfter canIds history) := by
  rw [tableAfter, List.foldl_append]
  rfl

/-- The command, if any, that an update assigns to one motor. -/
def Update.commandFor (canIds : List Id) (motor : Id) : Update → Option MitCommand
  | .setCommand canId command => if canId = motor then some command else none
  | .setAllCommands commands =>
      if commands.length = canIds.length then (canIds.zip commands).lookup motor else none

/-- The last command assigned to a motor, all zero if there is none. -/
def latestCommand (canIds : List Id) (history : List Update) (motor : Id) : MitCommand :=
  (Library.Latest.latest (Update.commandFor canIds motor) history).getD {}

theorem motorIndex_ok {canIds : List Id} {canId : Id} {index : Nat}
    (found : motorIndex canIds canId = .ok index) : ∃ inside : index < canIds.length, canIds[index] = canId := by
  unfold motorIndex at found
  cases search : canIds.findIdx? (· == canId) with
  | none =>
    rw [search] at found
    cases found
  | some position =>
    rw [search] at found
    cases found
    obtain ⟨inside, same, _⟩ := List.findIdx?_eq_some_iff_getElem.mp search
    exact ⟨inside, by simpa using same⟩

theorem motorIndex_error {canIds : List Id} {canId : Id} {fault : Fault}
    (thrown : motorIndex canIds canId = .error fault) : canId ∉ canIds := by
  unfold motorIndex at thrown
  cases search : canIds.findIdx? (· == canId) with
  | none =>
    intro member
    have other := List.findIdx?_eq_none_iff.mp search canId member
    simp at other
  | some position =>
    rw [search] at thrown
    cases thrown

/-- The position of the motor with a CAN ID. -/
def place (canIds : List Id) (canId : Id) : Option Nat := (motorIndex canIds canId).toOption

theorem place_eq_some {canIds : List Id} {canId : Id} {index : Nat} (found : place canIds canId = some index) :
    motorIndex canIds canId = .ok index := by
  unfold place at found
  cases search : motorIndex canIds canId with
  | error fault =>
    rw [search] at found
    cases found
  | ok other =>
    rw [search] at found
    cases found
    rfl

theorem place_lt {canIds : List Id} {canId : Id} {index : Nat} (found : place canIds canId = some index) :
    index < canIds.length := (motorIndex_ok (place_eq_some found)).1

theorem place_inj {canIds : List Id} {canId other : Id} {index : Nat} (first : place canIds canId = some index)
    (second : place canIds other = some index) : canId = other := by
  obtain ⟨_, here⟩ := motorIndex_ok (place_eq_some first)
  obtain ⟨_, there⟩ := motorIndex_ok (place_eq_some second)
  exact here.symm.trans there

theorem place_isSome {canIds : List Id} {canId : Id} (known : canId ∈ canIds) : (place canIds canId).isSome = true := by
  unfold place
  cases search : motorIndex canIds canId with
  | ok index => rfl
  | error fault => exact absurd known (motorIndex_error search)

theorem lookup_zip {canIds : List Id} (distinct : canIds.Nodup) {commands : List MitCommand}
    (same : commands.length = canIds.length) (index : Nat) (inside : index < canIds.length) :
    (canIds.zip commands).lookup canIds[index] = some commands[index] := by
  have keys : (canIds.zip commands).map Prod.fst = canIds := List.map_fst_zip (by omega)
  apply lookup_of_mem (keys.symm ▸ distinct)
  have member := List.getElem_mem (l := canIds.zip commands) (n := index) (by simp; omega)
  rwa [List.getElem_zip] at member

/-- One update changes exactly the entries it assigns. -/
theorem apply_map {canIds : List Id} (distinct : canIds.Nodup) (value : Id → MitCommand) (update : Update) :
    update.apply canIds (canIds.map value) =
      canIds.map fun motor => (update.commandFor canIds motor).getD (value motor) := by
  cases update with
  | setCommand canId command =>
    cases search : motorIndex canIds canId with
    | error fault =>
      have absent := motorIndex_error search
      have kept : (Update.setCommand canId command).apply canIds (canIds.map value) = canIds.map value := by
        simp only [Update.apply, Update.run, setCommand, search]
        rfl
      rw [kept]
      apply List.map_congr_left
      intro motor member
      have different : canId ≠ motor := fun same => absent (same ▸ member)
      simp only [Update.commandFor, if_neg different, Option.getD_none]
    | ok index =>
      obtain ⟨inside, here⟩ := motorIndex_ok search
      have changed : (Update.setCommand canId command).apply canIds (canIds.map value) =
          (canIds.map value).set index command := by
        simp only [Update.apply, Update.run, setCommand, search]
        rfl
      rw [changed]
      apply List.ext_getElem
      · simp
      intro position before _
      have bound : position < canIds.length := by simpa using before
      rw [List.getElem_set, List.getElem_map, List.getElem_map]
      by_cases same : index = position
      · subst same
        simp only [Update.commandFor, here, ↓reduceIte, Option.getD_some]
      · have different : canId ≠ canIds[position] := fun equal =>
          same ((List.Nodup.getElem_inj_iff distinct).mp (here.trans equal))
        simp only [Update.commandFor, if_neg same, if_neg different, Option.getD_none]
  | setAllCommands commands =>
    by_cases same : commands.length = canIds.length
    · have changed : (Update.setAllCommands commands).apply canIds (canIds.map value) = commands := by
        simp [Update.apply, Update.run, setAllCommands, same, pure, Except.pure]
      rw [changed]
      apply List.ext_getElem
      · simpa using same
      intro position before _
      have bound : position < canIds.length := by omega
      rw [List.getElem_map]
      simp only [Update.commandFor, if_pos same, lookup_zip distinct same position bound, Option.getD_some]
    · have kept : (Update.setAllCommands commands).apply canIds (canIds.map value) = canIds.map value := by
        simp [Update.apply, Update.run, setAllCommands, same, throw, throwThe, MonadExceptOf.throw]
      rw [kept]
      apply List.map_congr_left
      intro motor _
      simp only [Update.commandFor, if_neg same, Option.getD_none]

/-- After any history, each motor's entry is the last command assigned to it. -/
theorem tableAfter_eq {canIds : List Id} (distinct : canIds.Nodup) (history : List Update) :
    tableAfter canIds history = canIds.map (latestCommand canIds history) := by
  have along (value : Id → MitCommand) : history.foldl (Update.apply canIds) (canIds.map value) =
      canIds.map fun motor => (Library.Latest.latest (Update.commandFor canIds motor) history).getD (value motor) := by
    induction history generalizing value with
    | nil => rfl
    | cons update rest ih =>
      rw [List.foldl_cons, apply_map distinct, ih]
      apply List.map_congr_left
      intro motor _
      rw [← Library.Latest.foldl_eq_latest, ← Library.Latest.foldl_eq_latest, List.foldl_cons]
  have initial : initialCommands canIds = canIds.map fun _ => {} := List.map_const'.symm
  rw [tableAfter, initial, along]
  rfl

end DmOpenarm.CommandTable
