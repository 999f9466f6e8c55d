import Mathlib.Data.List.TakeWhile
import DmOpenarm.SessionMoves

/-! What the log of a session tells. It is read from its newest event backwards. -/

namespace DmOpenarm.SessionLog
open Types Session SessionMoves CommandTable Library.Readings

/-- The events since the loop was last started. -/
def session (log : List Event) : List Event := log.takeWhile fun event => event ≠ .began

def emits : Event → Bool
  | .batch _ emitted => 0 < emitted
  | _ => false

/-- A worker loop that threw and found the running flag still set. -/
def clears : Event → Bool
  | .failed _ running => running
  | _ => false

/-- The worker has sent a frame in this session. -/
def emitted (log : List Event) : Bool := (session log).any emits

/-- The worker loop of this session has thrown before anybody stopped it. -/
def selfCleared (log : List Event) : Bool := (session log).any clears

def isZeroBatch : Event → Bool
  | .zeroBatch _ => true
  | _ => false

/-- A zero batch has been tried in this session. -/
def zeroed (log : List Event) : Bool := (session log).any isZeroBatch

/-- The worker has sent a frame in this session, and no zero batch has been tried since. -/
def unreleased (log : List Event) : Bool := ((session log).takeWhile fun event => !isZeroBatch event).any emits

theorem emitted_of_unreleased {log : List Event} (waiting : unreleased log = true) : emitted log = true := by
  obtain ⟨event, member, emits⟩ := List.any_eq_true.mp waiting
  exact List.any_eq_true.mpr ⟨event, List.takeWhile_subset _ member, emits⟩

theorem unreleased_of_emitted {log : List Event} (sent : emitted log = true) (never : zeroed log = false) :
    unreleased log = true := by
  have whole : ((session log).takeWhile fun event => !isZeroBatch event) = session log := by
    apply List.takeWhile_eq_self_iff.mpr
    intro event member
    simpa using List.any_eq_false.mp never event member
  rw [unreleased, whole]
  exact sent

/-- What the log tells about batches and the running flag. -/
def marks (log : List Event) : Bool × Bool × Bool := (selfCleared log, zeroed log, unreleased log)

theorem marks_eq {log other : List Event} (same : marks log = marks other) :
    selfCleared log = selfCleared other ∧ zeroed log = zeroed other ∧ unreleased log = unreleased other := by
  simpa only [marks, Prod.mk.injEq] using same

theorem marks_ending (event : Event) (ends : ending event = true) : Passes marks event := by
  cases event with
  | returned | raised | stopped | rethrown | discarded => exact fun _ => rfl
  | _ => cases ends

/-- What an event makes of the failure of a worker loop. -/
def settles : Event → Option (Option Fault)
  | .failed fault _ => some (some fault)
  | .rethrown _ _ => some none
  | .discarded _ => some none
  | _ => none

/-- The exception of the last worker loop that threw, until a call rethrows it or it is dropped. -/
def pending (log : List Event) : Option Fault := (log.findSome? settles).join

def isCall : Event → Bool
  | .called _ _ => true
  | _ => false

/-- The log as the latest call found it. -/
def beforeCall (log : List Event) : List Event := (log.dropWhile fun event => !isCall event).tail

/-- What the log tells about the failure now and at the latest call. -/
def ledger (log : List Event) : Option Fault × Option Fault := (pending log, pending (beforeCall log))

theorem ledger_eq {log other : List Event} (same : ledger log = ledger other) :
    pending log = pending other ∧ pending (beforeCall log) = pending (beforeCall other) := by
  simpa only [ledger, Prod.mk.injEq] using same

theorem ledger_closing (event : Event) (closes : closing event = true) : Passes ledger event := by
  cases event with
  | returned | raised | stopped => exact fun _ => rfl
  | _ => cases closes

def installation : Event → Option Update
  | .installed update => some update
  | _ => none

/-- The updates of the table, oldest first. -/
def updates (log : List Event) : List Update := (log.filterMap installation).reverse

def stops : Event → Bool
  | .called .stopMitLoop _ => true
  | _ => false

/-- The events since the stop_mit_loop() that came before the present session. -/
def current (log : List Event) : List Event :=
  session log ++ (log.dropWhile fun event => event ≠ .began).takeWhile fun event => !stops event

def installsAll : Event → Bool
  | .installed (.setAllCommands _) => true
  | _ => false

/-- The whole table has been replaced in this session. -/
def fresh (log : List Event) : Bool := (session log).any installsAll

/-- No command has ever been installed. -/
def untouched (log : List Event) : Bool := log.all fun event => (installation event).isNone

def restarts : Event → Bool
  | .called (.startMitLoop _ _) running => !running
  | _ => false

def commandsAgain : Event → Bool
  | .called (.mit _) _ => true
  | _ => false

/-- start_mit_loop() has been called while the loop was stopped, and mit() not since. -/
def homing (log : List Event) : Bool := (log.takeWhile fun event => !commandsAgain event).any restarts

def snapshotOf : Event → Option (List MitCommand)
  | .snapshot commands => some commands
  | _ => none

def lastSnapshot (log : List Event) : Option (List MitCommand) := log.findSome? snapshotOf

theorem updates_installed (update : Update) (log : List Event) :
    updates (.installed update :: log) = updates log ++ [update] := by
  simp [updates, installation]

theorem updates_other {event : Event} (other : installation event = none) (log : List Event) :
    updates (event :: log) = updates log := by
  simp [updates, other]

theorem current_cons {event : Event} (other : event ≠ .began) (log : List Event) :
    current (event :: log) = event :: current log := by
  simp [current, session, other]

theorem fresh_cons {event : Event} (other : event ≠ .began) (log : List Event) :
    fresh (event :: log) = (installsAll event || fresh log) := by
  simp [fresh, session, other]

theorem updates_of_untouched {log : List Event} (never : untouched log = true) : updates (current log) = [] := by
  have silent : ∀ event ∈ current log, installation event = none := by
    intro event member
    have inside : event ∈ log := by
      rcases List.mem_append.mp member with here | before
      · exact List.takeWhile_subset _ here
      · exact (List.dropWhile_sublist _).subset (List.takeWhile_subset _ before)
    exact Option.isNone_iff_eq_none.mp (List.all_eq_true.mp never event inside)
  rw [updates, List.filterMap_eq_nil_iff.mpr silent]
  rfl

/-- What the log tells about the table and its copies. -/
def tables (log : List Event) : Bool × List Update × Bool × Option (List MitCommand) :=
  (fresh log, updates (current log), untouched log, lastSnapshot log)

theorem tables_eq {log other : List Event} (same : tables log = tables other) :
    fresh log = fresh other ∧ updates (current log) = updates (current other) ∧ untouched log = untouched other ∧
      lastSnapshot log = lastSnapshot other := by
  simpa only [tables, Prod.mk.injEq] using same

theorem tables_called (call : Call) (running : Bool) : Passes tables (.called call running) := fun _ => rfl

theorem tables_ending (event : Event) (ends : ending event = true) : Passes tables event := by
  cases event with
  | returned | raised | stopped | rethrown | discarded => exact fun _ => rfl
  | _ => cases ends

theorem homing_ending (event : Event) (ends : ending event = true) : Passes homing event := by
  cases event with
  | returned | raised | stopped | rethrown | discarded => exact fun _ => rfl
  | _ => cases ends

end DmOpenarm.SessionLog
