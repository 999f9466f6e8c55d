import Mathlib.Algebra.Group.Int.Defs
import Mathlib.Data.List.TakeWhile
import DmOpenarm.CommandCalls
import DmOpenarm.Library.Writes

/-! Arm.mit of the Python package. A dict is written entry by entry, and an entry that is
rejected ends the call where it stands. -/

namespace DmOpenarm.DictUpdates
open Types CommandCalls Library.Effect Library.Writes
open CommandTable hiding setCommand setAllCommands

/-- A dict of the caller: its entries in iteration order, one for each key. -/
structure Dict where
  items : List (Int × MitCommand)
  distinct : (items.map Prod.fst).Nodup

inductive Target where
  | motor (canId : Int) (command : MitCommand)
  | dict (dict : Dict)

/-- What a call raises: the CAN ID does not fit the parameter of the binding, or the controller
threw. -/
inductive Raised where
  | typeError
  | stop (stop : Stop)
  deriving DecidableEq

/-- The conversion of a Python integer to uint16_t. -/
def toCanId (key : Int) : Option Id :=
  if 0 ≤ key ∧ key < 2 ^ 16 then some (BitVec.ofInt 16 key) else none

def setCommand (canIds : List Id) (key : Int) (command : MitCommand) : Throwing (List MitCommand) Raised Unit :=
  match toCanId key with
  | some canId => ExceptT.adapt Raised.stop (CommandCalls.setCommand canIds canId command)
  | none => throw .typeError

def mit (canIds : List Id) : Target → Throwing (List MitCommand) Raised Unit
  | .motor canId command => setCommand canIds canId command
  | .dict dict => dict.items.forM fun entry => setCommand canIds entry.1 entry.2

/-- The position of the motor that a key names. -/
def position (canIds : List Id) (key : Int) : Option Nat :=
  (toCanId key).bind (place canIds)

def known (canIds : List Id) (entry : Int × MitCommand) : Bool := (position canIds entry.1).isSome

/-- A call that raises changes nothing. One that does not gives the listed motors their new
commands and leaves the others theirs. -/
def AllOrNothing (canIds : List Id) (dict : Dict) (commands : List MitCommand) : Prop :=
  match exec (mit canIds (.dict dict)) commands with
  | (.error _, after) => after = commands
  | (.ok (), after) =>
      (∀ entry ∈ dict.items, Holds (position canIds) after entry) ∧
        ∀ index, (∀ entry ∈ dict.items, position canIds entry.1 ≠ some index) → after[index]? = commands[index]?

theorem toCanId_inj {key other : Int} {canId : Id} (first : toCanId key = some canId)
    (second : toCanId other = some canId) : key = other := by
  unfold toCanId at first second
  split_ifs at first second with inside bound
  have same := (Option.some.inj first).trans (Option.some.inj second).symm
  have values := congrArg BitVec.toNat same
  rw [BitVec.toNat_ofInt, BitVec.toNat_ofInt] at values
  omega

theorem position_lt {canIds : List Id} {key : Int} {index : Nat} (found : position canIds key = some index) :
    index < canIds.length := by
  obtain ⟨canId, _, placed⟩ := Option.bind_eq_some_iff.mp found
  exact place_lt placed

/-- Two keys do not name the same motor. -/
theorem position_inj {canIds : List Id} {key other : Int} {index : Nat} (first : position canIds key = some index)
    (second : position canIds other = some index) : key = other := by
  obtain ⟨canId, converted, placed⟩ := Option.bind_eq_some_iff.mp first
  obtain ⟨otherId, same, again⟩ := Option.bind_eq_some_iff.mp second
  have one : canId = otherId := place_inj placed again
  exact toCanId_inj converted (one ▸ same)

theorem exec_adapt {program : Throwing (List MitCommand) Stop Unit} (commands : List MitCommand) :
    exec (ExceptT.adapt Raised.stop program) commands =
      ((exec program commands).1.mapError Raised.stop, (exec program commands).2) := rfl

theorem exec_setCommand_known {canIds : List Id} {commands : List MitCommand} (size : commands.length = canIds.length)
    {key : Int} {index : Nat} (found : position canIds key = some index) (command : MitCommand) :
    exec (setCommand canIds key command) commands = (.ok (), commands.set index command) := by
  obtain ⟨canId, converted, placed⟩ := Option.bind_eq_some_iff.mp found
  have inside := position_lt found
  rw [setCommand, converted]
  change exec (ExceptT.adapt Raised.stop (CommandCalls.setCommand canIds canId command)) commands = _
  rw [exec_adapt, CommandCalls.setCommand, place_eq_some placed]
  change ((exec (writeEntry index command) commands).1.mapError Raised.stop, _) = _
  rw [exec_writeEntry (size ▸ inside)]
  rfl

theorem exec_setCommand_unknown {canIds : List Id} {key : Int} (absent : position canIds key = none)
    (command : MitCommand) (commands : List MitCommand) :
    ∃ raised, exec (setCommand canIds key command) commands = (.error raised, commands) := by
  rw [setCommand]
  cases converted : toCanId key with
  | none => exact ⟨.typeError, rfl⟩
  | some canId =>
    change ∃ raised, exec (ExceptT.adapt Raised.stop (CommandCalls.setCommand canIds canId command)) commands = _
    rw [exec_adapt, CommandCalls.setCommand]
    cases search : motorIndex canIds canId with
    | error fault => exact ⟨.stop (.threw fault), rfl⟩
    | ok index =>
      rw [position, converted, Option.bind_some, place, search] at absent
      cases absent

/-- The entries before the first unknown key are written, and the call raises if there is one. -/
theorem exec_items {canIds : List Id} (items : List (Int × MitCommand)) {commands : List MitCommand}
    (size : commands.length = canIds.length) :
    ∃ outcome, exec (items.forM fun entry => setCommand canIds entry.1 entry.2) commands =
        (outcome, writeAll commands (located (position canIds) (items.takeWhile (known canIds)))) ∧
      (outcome = .ok () ↔ ∀ entry ∈ items, known canIds entry = true) := by
  induction items generalizing commands with
  | nil => exact ⟨.ok (), rfl, by simp⟩
  | cons entry rest ih =>
    cases found : position canIds entry.1 with
    | none =>
      have unknown : known canIds entry = false := by rw [known, found]; rfl
      obtain ⟨raised, thrown⟩ := exec_setCommand_unknown found entry.2 commands
      refine ⟨.error raised, ?_, ?_⟩
      · rw [List.takeWhile_cons_of_neg (by rw [unknown]; exact Bool.false_ne_true)]
        exact exec_bind_error thrown _
      · simp [unknown]
    | some index =>
      have listed : known canIds entry = true := by rw [known, found]; rfl
      have written := exec_setCommand_known size found entry.2
      have kept : (commands.set index entry.2).length = canIds.length := List.length_set.trans size
      obtain ⟨outcome, ran, returned⟩ := ih kept
      refine ⟨outcome, ?_, ?_⟩
      · rw [List.takeWhile_cons_of_pos listed, located_cons_some found]
        exact (exec_bind_ok written _).trans ran
      · rw [returned]
        simp [listed]

theorem inside_located {canIds : List Id} {commands : List MitCommand} (size : commands.length = canIds.length)
    {items : List (Int × MitCommand)} {write : Nat × MitCommand} (member : write ∈ located (position canIds) items) :
    write.1 < commands.length := by
  obtain ⟨entry, _, found, _⟩ := mem_located.mp member
  have inside := position_lt found
  omega

/-- A dict update is all or nothing when every key names a motor, or when the entries before the
first key that does not only repeat what their motors hold. -/
theorem mit_allOrNothing_iff {canIds : List Id} {commands : List MitCommand}
    (size : commands.length = canIds.length) (dict : Dict) :
    AllOrNothing canIds dict commands ↔ (∀ entry ∈ dict.items, known canIds entry = true) ∨
      ∀ entry ∈ dict.items.takeWhile (known canIds), Holds (position canIds) commands entry := by
  obtain ⟨outcome, ran, returned⟩ := exec_items dict.items size
  change exec (mit canIds (.dict dict)) commands = _ at ran
  rw [AllOrNothing, ran]
  cases outcome with
  | ok value =>
    have listed := returned.mp rfl
    have whole : dict.items.takeWhile (known canIds) = dict.items := List.takeWhile_eq_self_iff.mpr listed
    refine iff_of_true ⟨?_, ?_⟩ (.inl listed)
    · rw [whole]
      apply (located_held_iff listed).mp
      intro write member
      exact writeAll_written (distinct_located position_inj dict.distinct) member (inside_located size member)
    · intro index unnamed
      rw [whole]
      apply writeAll_other
      intro member
      obtain ⟨write, among, same⟩ := List.mem_map.mp member
      obtain ⟨entry, inside, found, _⟩ := mem_located.mp among
      exact unnamed entry inside (found.trans (congrArg some same))
  | error raised =>
    have unlisted : ¬ ∀ entry ∈ dict.items, known canIds entry = true := fun listed => by
      cases returned.mpr listed
    have prior : ((dict.items.takeWhile (known canIds)).map Prod.fst).Nodup :=
      dict.distinct.sublist ((List.takeWhile_sublist _).map _)
    have listed : ∀ entry ∈ dict.items.takeWhile (known canIds), known canIds entry = true :=
      fun _ member => List.mem_takeWhile_imp member
    rw [or_iff_right unlisted, ← located_held_iff listed]
    exact writeAll_eq_self_iff (distinct_located position_inj prior) fun write member => inside_located size member

theorem mit_allOrNothing_two : AllOrNothing [1, 2] ⟨[(2, { q := 1 }), (1, { q := 2 })], by decide⟩ [{}, {}] :=
  (mit_allOrNothing_iff rfl _).mpr (.inl (by decide))

/-- The second key is no motor, and the first has been written when the call raises. -/
theorem mit_unknown_key_writes : ∃ raised, exec (mit [1, 2] (.dict ⟨[(1, { q := 1 }), (9, { q := 2 })], by decide⟩))
      [{}, {}] = (.error raised, [{ q := 1 }, {}]) ∧
    ¬ AllOrNothing [1, 2] ⟨[(1, { q := 1 }), (9, { q := 2 })], by decide⟩ [{}, {}] := by
  have ran : exec (mit [1, 2] (.dict ⟨[(1, { q := 1 }), (9, { q := 2 })], by decide⟩)) [{}, {}] =
      (.error (.stop (.threw (.invalidArgument "unknown motor CAN ID"))), [{ q := 1 }, {}]) := rfl
  refine ⟨_, ran, ?_⟩
  rw [AllOrNothing, ran]
  decide

end DmOpenarm.DictUpdates
