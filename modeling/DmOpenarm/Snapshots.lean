import DmOpenarm.CommandTable
import DmOpenarm.Library.SharedCell

/-! Any number of threads that update the command table, and one worker that copies it and sends
the copies. A step is what happens between two points where threads can be switched: the checks
of an update, and each section under the lock. -/

namespace DmOpenarm.Snapshots
open Types CommandTable Library.Runs Library.SharedCell

/-- Where a thread stands in a call of set_command or set_all_commands. -/
inductive Client where
  | idle
  | called (update : Update)
  | checked (update : Update) (assignment : Assignment)
  | written (update : Update) (serial : Nat)

/-- Where the worker stands in its loop. -/
inductive Worker where
  | test
  | copy
  | send (snapshot : List MitCommand)
  | sleep
  | finished

/-- The history of the table is kept newest first, the batches handed to send_mit_all oldest first. -/
structure State where
  commands : List MitCommand
  clients : Nat → Client
  worker : Worker
  history : List (Event Update (List MitCommand))
  batches : List (List MitCommand)

inductive Action where
  | call (thread : Nat) (update : Update)
  | check (thread : Nat)
  | write (thread : Nat)
  | finish (thread : Nat)
  | test (running : Bool)
  | copy
  | send (throws : Bool)
  | wake

def State.setClient (state : State) (thread : Nat) (client : Client) : State :=
  { state with clients := Function.update state.clients thread client }

def step (canIds : List Id) (state : State) : Action → Option State
  | .call thread update =>
      match state.clients thread with
      | .idle => some (state.setClient thread (.called update))
      | _ => none
  | .check thread =>
      match state.clients thread with
      | .called update =>
          match update.check canIds state.commands.length with
          | .ok assignment => some (state.setClient thread (.checked update assignment))
          | .error _ => some (state.setClient thread .idle)
      | _ => none
  | .write thread =>
      match state.clients thread with
      | .checked update assignment =>
          some { state.setClient thread (.written update (commits state.history).length) with
            commands := assignment.write state.commands
            history := .commit update :: state.history }
      | _ => none
  | .finish thread =>
      match state.clients thread with
      | .written update serial =>
          some { state.setClient thread .idle with history := .complete update serial :: state.history }
      | _ => none
  | .test running =>
      match state.worker with
      | .test => some { state with worker := if running then .copy else .finished }
      | _ => none
  | .copy =>
      match state.worker with
      | .copy => some { state with worker := .send state.commands, history := .read state.commands :: state.history }
      | _ => none
  | .send throws =>
      match state.worker with
      | .send snapshot =>
          some { state with worker := if throws then .finished else .sleep, batches := state.batches ++ [snapshot] }
      | _ => none
  | .wake =>
      match state.worker with
      | .sleep => some { state with worker := .test }
      | _ => none

def machine (canIds : List Id) : Machine State Action where
  initial state := state = ⟨initialCommands canIds, fun _ => .idle, .test, [], []⟩
  step := step canIds

/-- The copy that the worker has made and not yet sent. -/
def Worker.unsent : Worker → List (List MitCommand)
  | .send snapshot => [snapshot]
  | _ => []

/-- What a thread in the middle of a call knows. -/
def Client.Sound (canIds : List Id) (history : List (Event Update (List MitCommand))) : Client → Prop
  | .checked update assignment => update.check canIds canIds.length = .ok assignment
  | .written update serial => (commits history)[serial]? = some update
  | _ => True

structure Consistent (canIds : List Id) (state : State) : Prop where
  size : state.commands.length = canIds.length
  table : state.commands = tableAfter canIds (commits state.history)
  atomic : Atomic (Update.apply canIds) (initialCommands canIds) state.history
  clients : ∀ thread, (state.clients thread).Sound canIds state.history
  sent : reads state.history = state.batches ++ state.worker.unsent

theorem Client.Sound.grow {canIds : List Id} {history : List (Event Update (List MitCommand))} {client : Client}
    (sound : client.Sound canIds history) (event : Event Update (List MitCommand)) :
    client.Sound canIds (event :: history) := by
  cases client with
  | idle => exact trivial
  | called update => exact trivial
  | checked update assignment => exact sound
  | written update serial =>
    obtain ⟨added, grown⟩ := commits_grow [event] history
    have inside := (List.getElem?_eq_some_iff.mp (show (commits history)[serial]? = some update from sound)).1
    change (commits ([event] ++ history))[serial]? = some update
    rw [← grown, List.getElem?_append_left inside]
    exact sound

theorem sound_setClient {canIds : List Id} {state : State} {history : List (Event Update (List MitCommand))}
    (others : ∀ thread, (state.clients thread).Sound canIds history) {thread : Nat} {client : Client}
    (here : client.Sound canIds history) (other : Nat) :
    ((state.setClient thread client).clients other).Sound canIds history := by
  change (Function.update state.clients thread client other).Sound canIds history
  rw [Function.update_apply]
  by_cases same : other = thread
  · rw [if_pos same]
    exact here
  · rw [if_neg same]
    exact others other

/-- The write of a thread, whose checks still hold, is one more update in the serial order. -/
theorem Consistent.write {canIds : List Id} {state : State} (holds : Consistent canIds state) {thread : Nat}
    {update : Update} {assignment : Assignment} (checked : state.clients thread = .checked update assignment) :
    Consistent canIds { state.setClient thread (.written update (commits state.history).length) with
      commands := assignment.write state.commands
      history := .commit update :: state.history } := by
  have valid : update.check canIds canIds.length = .ok assignment := by
    have sound := holds.clients thread
    rw [checked] at sound
    exact sound
  have written : update.apply canIds state.commands = assignment.write state.commands :=
    Update.apply_of_check (holds.size.symm ▸ valid)
  refine ⟨?_, ?_, ⟨trivial, holds.atomic⟩, ?_, holds.sent⟩
  · rw [← written, Update.length_apply]
    exact holds.size
  · rw [← written, holds.table]
    exact (tableAfter_append canIds _ update).symm
  · apply sound_setClient fun other => (holds.clients other).grow _
    change (commits state.history ++ [update])[(commits state.history).length]? = some update
    simp

theorem Consistent.finish {canIds : List Id} {state : State} (holds : Consistent canIds state) {thread : Nat}
    {update : Update} {serial : Nat} (written : state.clients thread = .written update serial) :
    Consistent canIds
      { state.setClient thread .idle with history := .complete update serial :: state.history } := by
  have committed : (commits state.history)[serial]? = some update := by
    have sound := holds.clients thread
    rw [written] at sound
    exact sound
  exact ⟨holds.size, holds.table, ⟨committed, holds.atomic⟩,
    sound_setClient (fun other => (holds.clients other).grow _) trivial, holds.sent⟩

theorem Consistent.copy {canIds : List Id} {state : State} (holds : Consistent canIds state)
    (ready : state.worker = .copy) : Consistent canIds
      { state with worker := .send state.commands, history := .read state.commands :: state.history } := by
  refine ⟨holds.size, holds.table, ⟨holds.table, holds.atomic⟩, fun thread => (holds.clients thread).grow _, ?_⟩
  have sent := holds.sent
  rw [ready] at sent
  change reads state.history ++ [state.commands] = state.batches ++ [state.commands]
  rw [sent]
  exact congrArg (· ++ [state.commands]) (List.append_nil _)

theorem Consistent.setClient {canIds : List Id} {state : State} (holds : Consistent canIds state) {thread : Nat}
    {client : Client} (sound : client.Sound canIds state.history) :
    Consistent canIds (state.setClient thread client) :=
  ⟨holds.size, holds.table, holds.atomic, sound_setClient holds.clients sound, holds.sent⟩

/-- A worker that moves on without copying or sending. -/
theorem Consistent.setWorker {canIds : List Id} {state : State} (holds : Consistent canIds state) {worker : Worker}
    (before : state.worker.unsent = []) (after : worker.unsent = []) :
    Consistent canIds { state with worker } := by
  refine ⟨holds.size, holds.table, holds.atomic, holds.clients, ?_⟩
  change reads state.history = state.batches ++ worker.unsent
  rw [after, ← before]
  exact holds.sent

theorem Consistent.send {canIds : List Id} {state : State} (holds : Consistent canIds state)
    {snapshot : List MitCommand} (ready : state.worker = .send snapshot) {worker : Worker}
    (after : worker.unsent = []) :
    Consistent canIds { state with worker, batches := state.batches ++ [snapshot] } := by
  refine ⟨holds.size, holds.table, holds.atomic, holds.clients, ?_⟩
  have sent := holds.sent
  rw [ready] at sent
  change reads state.history = (state.batches ++ [snapshot]) ++ worker.unsent
  rw [after, List.append_nil]
  exact sent

theorem Consistent.step {canIds : List Id} {state after : State} {action : Action}
    (holds : Consistent canIds state) (moved : Snapshots.step canIds state action = some after) :
    Consistent canIds after := by
  cases action with
  | call thread update =>
    cases client : state.clients thread <;> simp only [Snapshots.step, client] at moved <;> cases moved
    exact holds.setClient trivial
  | check thread =>
    cases client : state.clients thread with
    | called update =>
      simp only [Snapshots.step, client, holds.size] at moved
      cases checked : update.check canIds canIds.length with
      | ok assignment =>
        rw [checked] at moved
        cases moved
        exact holds.setClient checked
      | error fault =>
        rw [checked] at moved
        cases moved
        exact holds.setClient trivial
    | idle => simp [Snapshots.step, client] at moved
    | checked update assignment => simp [Snapshots.step, client] at moved
    | written update serial => simp [Snapshots.step, client] at moved
  | write thread =>
    cases client : state.clients thread <;> simp only [Snapshots.step, client] at moved <;> cases moved
    exact holds.write client
  | finish thread =>
    cases client : state.clients thread <;> simp only [Snapshots.step, client] at moved <;> cases moved
    exact holds.finish client
  | test running =>
    cases worker : state.worker <;> simp only [Snapshots.step, worker] at moved <;> cases moved
    exact holds.setWorker (by rw [worker]; rfl) (by cases running <;> rfl)
  | copy =>
    cases worker : state.worker <;> simp only [Snapshots.step, worker] at moved <;> cases moved
    exact holds.copy worker
  | send throws =>
    cases worker : state.worker <;> simp only [Snapshots.step, worker] at moved <;> cases moved
    exact holds.send worker (by cases throws <;> rfl)
  | wake =>
    cases worker : state.worker <;> simp only [Snapshots.step, worker] at moved <;> cases moved
    exact holds.setWorker (by rw [worker]; rfl) rfl

theorem consistent_of_reach {canIds : List Id} {state : State} (reached : Reach (machine canIds) Anything state) :
    Consistent canIds state := by
  induction reached with
  | start begins =>
    cases begins
    exact ⟨List.length_replicate, rfl, trivial, fun _ => trivial, rfl⟩
  | next _ _ moved holds => exact holds.step moved

/-- Every batch is the table after a prefix of the serial order of the updates, the prefixes of
successive batches grow, and each holds every update completed before its copy was made. -/
theorem batches_are_snapshots {canIds : List Id} {state : State} (reached : Reach (machine canIds) Anything state) :
    ∃ cuts : Nat → Nat,
      (∀ first second, first ≤ second → second < state.batches.length → cuts first ≤ cuts second) ∧
      ∀ index batch, state.batches[index]? = some batch →
        cuts index ≤ (commits state.history).length ∧
        batch = tableAfter canIds ((commits state.history).take (cuts index)) ∧
        ∀ later copied earlier, state.history = later ++ .read copied :: earlier → (reads earlier).length = index →
          ∀ update serial, .complete update serial ∈ earlier →
            ((commits state.history).take (cuts index))[serial]? = some update := by
  have holds := consistent_of_reach reached
  have copied {index : Nat} {batch : List MitCommand} (handed : state.batches[index]? = some batch) :
      (reads state.history)[index]? = some batch := by
    have inside := (List.getElem?_eq_some_iff.mp handed).1
    rw [holds.sent, List.getElem?_append_left inside]
    exact handed
  refine ⟨cut state.history, ?_, ?_⟩
  · intro first second ordered inside
    apply cut_mono ordered
    rw [holds.sent, List.length_append]
    omega
  · intro index batch handed
    refine ⟨cut_le_commits _ _, read_eq holds.atomic (copied handed), ?_⟩
    intro later value earlier same number update serial completed
    subst number
    have atomic := holds.atomic
    rw [same] at atomic ⊢
    exact completed_before_read atomic completed

theorem two_threads_snapshot : ∃ state, Reach (machine [1, 2]) Anything state ∧
    state.batches = [[{ q := 1 }, {}]] ∧ ∃ count, [{ q := 1 }, {}] = tableAfter [1, 2] ((commits state.history).take count) := by
  have ran : ((machine [1, 2]).run (fun _ _ => true) [.test true, .call 0 (.setCommand 1 { q := 1 }),
      .call 1 (.setAllCommands [{}, {}]), .check 1, .check 0, .write 0, .copy, .write 1, .send false]
      ⟨initialCommands [1, 2], fun _ => .idle, .test, [], []⟩).map (fun state =>
        decide (state.batches = [[{ q := 1 }, {}]])) = some true := by decide +kernel
  obtain ⟨state, reached, batches⟩ := Machine.reach_checked rfl ran
  obtain ⟨cuts, _, each⟩ := batches_are_snapshots reached.anything
  obtain ⟨_, same, _⟩ := each 0 [{ q := 1 }, {}] (by rw [batches]; rfl)
  exact ⟨state, reached.anything, batches, cuts 0, same⟩

end DmOpenarm.Snapshots
