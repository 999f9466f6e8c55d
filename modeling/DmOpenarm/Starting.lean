import DmOpenarm.ControlLoop
import DmOpenarm.Lifecycle
import DmOpenarm.SessionWrites
import DmOpenarm.YamlLoader

/-! What start() leaves behind when it throws. It sets the flag before it makes the thread, so a
thread that cannot be made leaves the controller running, without a worker, until stop(). -/

namespace DmOpenarm.Starting
open Types hiding ControlMode
open MotorBus Backend Session SessionMoves SessionWrites Lifecycle ControlLoop YamlLoader Library.Runs Library.Ieee
variable {config : ArmConfig}

/-- A controller between two calls, with no worker running. -/
structure AtRest (platform : Platform) (state : State config) : Prop where
  reached : Reach (machine platform config) Anything state
  alive : state.terminated = false
  idle : state.caller = .idle
  resting : ∀ thread, state.threads thread = .finished

/-- One call of start(hz), with the number of steps that the caller has taken in it. Whether a
thread can be made is the same throughout. -/
inductive Attempt (platform : Platform) (before : State config) (hz : Double) (available : Bool) :
    ℕ → State config → Prop where
  | called {state : State config} (moved : step platform before (.call (.start hz)) = some state) :
      Attempt platform before hz available 0 state
  | stepped {count : ℕ} {state after : State config} {script : List Slot}
      (attempt : Attempt platform before hz available count state)
      (moved : step platform state (.caller script available) = some after) :
      Attempt platform before hz available (count + 1) after
  | meanwhile {count : ℕ} {state after : State config} {action : Session.Action}
      (attempt : Attempt platform before hz available count state) (busy : state.caller ≠ .idle)
      (other : ∀ script granted, action ≠ .caller script granted)
      (moved : step platform state action = some after) : Attempt platform before hz available count after

/-- From here start(hz) is never held up, ends after at most five steps, and leaves the new thread
running behind the handle. -/
structure StartsWorker (platform : Platform) (before : State config) (hz : Double) : Prop where
  ends : ∃ count after, Attempt platform before hz true count after ∧ after.caller = .idle
  prompt : ∀ count state, Attempt platform before hz true count state → count ≤ 5 ∧
    (state.caller ≠ .idle → ∀ script, ∃ after, step platform state (.caller script true) = some after)
  works : ∀ count after, Attempt platform before hz true count after → after.caller = .idle →
    after.running = true ∧ after.worker = some before.spawned ∧ after.threads before.spawned ≠ .finished

/-- Calls of start() with a frequency that it accepts. -/
def requests : Session.Action → Bool
  | .call (.start hz) => !refuses hz
  | .call (.startMitLoop hz _) => !refuses hz
  | _ => false

/-- The controller is still stopped, and the next start() that is accepted will start a worker. -/
structure StaysStopped (platform : Platform) (before after : State config) : Prop where
  stopped : after.running = false
  commands : after.commands = before.commands
  restarts : ∀ later valid,
    Reach ((machine platform config).onward after) (fun _ action => requests action = false) later →
    later.terminated = false → later.caller = .idle → refuses valid = false → StartsWorker platform later valid

def FailsCleanly (platform : Platform) (before : State config) (hz : Double) (available : Bool) : Prop :=
  ∀ count after fault, Attempt platform before hz available count after → after.caller = .idle →
    after.log.head? = some (.raised (.start hz) fault) → StaysStopped platform before after

/-- A refused frequency finds the flag clear; for any other, the thread can be made or is not
needed, as the flag is set. -/
def tolerated (state : State config) (hz : Double) (available : Bool) : Bool :=
  if refuses hz then !state.running else available || state.running

/-- A worker that has not finished is behind the handle. -/
def Worked (state : State config) : Prop :=
  ∃ thread, state.worker = some thread ∧ state.threads thread ≠ .finished

/-- The thread is made whenever start() asks for one. -/
def grants (state : State config) : Session.Action → Bool
  | .caller _ available =>
      match state.caller with
      | .busy _ .startSpawn => available
      | _ => true
  | _ => true

/-- The steps of start(), in order. -/
def place : Pc → Option ℕ
  | .startTest => some 0
  | .startJoin => some 1
  | .startReset => some 2
  | .startFlag => some 3
  | .startSpawn => some 4
  | _ => none

theorem place_le {pc : Pc} {count : ℕ} (placed : place pc = some count) : count ≤ 4 := by
  cases pc <;> simp [place] at placed <;> omega

/-- start(hz) is under way, and has touched nothing but the handle, the exception and the flag. -/
structure Underway (before : State config) (hz : Double) (count : ℕ) (state : State config) (pc : Pc) : Prop where
  busy : state.caller = .busy (.start hz) pc
  placed : place pc = some count
  alive : state.terminated = false
  commands : state.commands = before.commands
  spawned : state.spawned = before.spawned
  resting : ∀ thread, state.threads thread = .finished
  running : pc ≠ .startSpawn → state.running = before.running
  needed : pc ≠ .startTest → refuses hz = false ∧ before.running = false

/-- No thread has been made, and none runs. -/
structure Unmade (before after : State config) : Prop where
  spawned : after.spawned = before.spawned
  resting : ∀ thread, after.threads thread = .finished

/-- How start(hz) ends. -/
inductive Outcome (before : State config) (hz : Double) (available : Bool) (after : State config) : Prop where
  | refused (wrong : refuses hz = true) (running : after.running = before.running) (unmade : Unmade before after)
      (raised : after.log.head? = some (.raised (.start hz)
        (.invalidArgument "MIT loop frequency must be positive")))
  | already (right : refuses hz = false) (running : before.running = true) (unmade : Unmade before after)
      (returned : after.log.head? = some (.returned (.start hz)))
  | made (right : refuses hz = false) (halted : before.running = false) (granted : available = true)
      (running : after.running = true) (worker : after.worker = some before.spawned)
      (active : after.threads before.spawned ≠ .finished)
      (returned : after.log.head? = some (.returned (.start hz)))
  | denied (right : refuses hz = false) (halted : before.running = false) (denied : available = false)
      (running : after.running = true) (unmade : Unmade before after)
      (raised : after.log.head? = some (.raised (.start hz) .systemError))

structure Ended (before : State config) (hz : Double) (available : Bool) (after : State config) : Prop where
  idle : after.caller = .idle
  alive : after.terminated = false
  commands : after.commands = before.commands
  outcome : Outcome before hz available after

/-- A handle on a thread that has finished can be joined. -/
theorem join_resting {state : State config} (resting : ∀ thread, state.threads thread = .finished) :
    join state = some { state with worker := none } := by
  cases handle : state.worker with
  | none =>
    simp only [join, handle]
    rw [← handle]
  | some thread => simp only [join, handle, if_pos (resting thread)]

section Attempt
variable {platform : Platform} {before state after : State config} {hz : Double} {available : Bool} {count : ℕ}
variable {pc : Pc}

/-- The next step of start(hz) is there to be taken, and takes it on or ends it. -/
theorem Underway.next (underway : Underway before hz count state pc) (ordered : Ordered state) (script : List Slot) :
    ∃ after, step platform state (.caller script available) = some after ∧
      ((∃ next, Underway before hz (count + 1) after next) ∨ Ended before hz available after) := by
  obtain ⟨busy, placed, alive, commands, spawned, resting, running, needed⟩ := underway
  have expected := ordered.placed _ _ busy
  rw [step_busy alive busy]
  cases pc with
  | startTest =>
    cases placed
    have kept := running Pc.noConfusion
    cases wrong : refuses hz with
    | true =>
      have refused : (Call.start hz).hz.le (.finite 0) = true := wrong
      simp only [pcStep, if_pos refused]
      exact ⟨_, rfl, .inr ⟨rfl, alive, commands, .refused wrong kept ⟨spawned, resting⟩ rfl⟩⟩
    | false =>
      have accepted : ¬(Call.start hz).hz.le (.finite 0) = true := Bool.eq_false_iff.mp wrong
      cases on : state.running with
      | true =>
        simp only [pcStep, if_neg accepted, if_pos on]
        exact ⟨_, rfl, .inr ⟨rfl, alive, commands, .already wrong (kept.symm.trans on) ⟨spawned, resting⟩ rfl⟩⟩
      | false =>
        simp only [pcStep, if_neg accepted, on, Bool.false_eq_true, ↓reduceIte]
        refine ⟨_, rfl, .inl ⟨.startJoin, rfl, rfl, alive, commands, spawned, resting, ?_, ?_⟩⟩
        · intro _
          exact kept
        · intro _
          exact ⟨wrong, kept.symm.trans on⟩
  | startJoin =>
    cases placed
    simp only [pcStep, join_resting resting, Option.map_some]
    exact ⟨_, rfl, .inl ⟨.startReset, rfl, rfl, alive, commands, spawned, resting, fun _ => running Pc.noConfusion,
      fun _ => needed Pc.noConfusion⟩⟩
  | startReset =>
    cases placed
    exact ⟨_, rfl, .inl ⟨.startFlag, rfl, rfl, alive, commands, spawned, resting, fun _ => running Pc.noConfusion,
      fun _ => needed Pc.noConfusion⟩⟩
  | startFlag =>
    cases placed
    exact ⟨_, rfl, .inl ⟨.startSpawn, rfl, rfl, alive, commands, spawned, resting, fun other => absurd rfl other,
      fun _ => needed Pc.noConfusion⟩⟩
  | startSpawn =>
    obtain ⟨right, halted⟩ := needed Pc.noConfusion
    obtain ⟨on, empty⟩ := expected
    cases available with
    | true =>
      simp only [pcStep, empty, Option.isSome_none, Bool.false_eq_true, ↓reduceIte]
      refine ⟨_, rfl, .inr ⟨rfl, alive, commands, .made right halted rfl on (congrArg some spawned) ?_ rfl⟩⟩
      change Function.update state.threads state.spawned .test before.spawned ≠ .finished
      rw [spawned, Function.update_self]
      exact Worker.noConfusion
    | false =>
      simp only [pcStep, Bool.false_eq_true, ↓reduceIte]
      exact ⟨_, rfl, .inr ⟨rfl, alive, commands, .denied right halted rfl on ⟨spawned, resting⟩ rfl⟩⟩
  | _ => cases placed

/-- Nothing that happens meanwhile touches the controller. -/
theorem Underway.meanwhile (underway : Underway before hz count state pc) {action : Session.Action}
    (other : ∀ script granted, action ≠ .caller script granted) (moved : step platform state action = some after) :
    Underway before hz count after pc := by
  obtain ⟨busy, placed, alive, commands, spawned, resting, running, needed⟩ := underway
  cases action with
  | call call =>
    obtain ⟨idle, _⟩ := step_called moved
    cases idle.symm.trans busy
  | caller script granted => exact absurd rfl (other script granted)
  | worker thread script =>
    have stepped := step_worker moved
    rw [resting thread] at stepped
    cases stepped
  | receive arrival =>
    obtain ⟨backend, _, same⟩ := step_receive moved
    subst same
    exact ⟨busy, placed, alive, commands, spawned, resting, running, needed⟩
  | tick nanoseconds =>
    have same := step_tick moved
    subst same
    exact ⟨busy, placed, alive, commands, spawned, resting, running, needed⟩

theorem Attempt.reach (reached : Reach (machine platform config) Anything before)
    (attempt : Attempt platform before hz available count state) : Reach (machine platform config) Anything state := by
  have leads {state after : State config} {action : Session.Action}
      (reached : Reach (machine platform config) Anything state) (moved : step platform state action = some after) :
      Reach (machine platform config) Anything after :=
    @Reach.next _ _ _ _ state after action reached trivial moved
  induction attempt with
  | called moved => exact leads reached moved
  | stepped attempt moved ih => exact leads ih moved
  | meanwhile attempt busy other moved ih => exact leads ih moved

/-- The call can be made, and is then under way. -/
theorem exists_called (rest : AtRest platform before) (hz : Double) :
    ∃ state, step platform before (.call (.start hz)) = some state ∧ Underway before hz 0 state .startTest := by
  refine ⟨_, step_call rest.alive rest.idle (.start hz), ?_⟩
  exact ⟨rfl, rfl, rest.alive, rfl, rfl, rest.resting, fun _ => rfl, fun other => absurd rfl other⟩

/-- A call of start(hz) made while no thread runs is under way, or over after at most five steps. -/
theorem Attempt.phase (rest : AtRest platform before) (attempt : Attempt platform before hz available count state) :
    (∃ pc, Underway before hz count state pc) ∨ (count ≤ 5 ∧ Ended before hz available state) := by
  induction attempt with
  | called moved =>
    obtain ⟨state, called, underway⟩ := exists_called rest hz
    rw [called] at moved
    cases moved
    exact .inl ⟨.startTest, underway⟩
  | stepped attempt moved ih =>
    rcases ih with ⟨pc, underway⟩ | ⟨few, ended⟩
    · have ordered := ordered_of_reach (attempt.reach rest.reached) underway.alive
      have early := place_le underway.placed
      obtain ⟨after, stepped, phase⟩ := underway.next ordered _
      rw [stepped] at moved
      cases moved
      rcases phase with goes | ended
      · exact .inl goes
      · exact .inr ⟨by omega, ended⟩
    · obtain ⟨call, pc, busy, _⟩ := step_inside moved
      cases ended.idle.symm.trans busy
  | meanwhile attempt busy other moved ih =>
    rcases ih with ⟨pc, underway⟩ | ⟨few, ended⟩
    · exact .inl ⟨pc, underway.meanwhile other moved⟩
    · exact absurd ended.idle busy

theorem Attempt.result (rest : AtRest platform before) (attempt : Attempt platform before hz available count after)
    (idle : after.caller = .idle) : Ended before hz available after := by
  rcases attempt.phase rest with ⟨pc, underway⟩ | ⟨few, ended⟩
  · cases underway.busy.symm.trans idle
  · exact ended

/-- By induction on how many steps are left. -/
theorem Attempt.completes {remaining : ℕ} (left : count + remaining = 5) (rest : AtRest platform before)
    (attempt : Attempt platform before hz available count state) (underway : Underway before hz count state pc) :
    ∃ total after, Attempt platform before hz available total after ∧ Ended before hz available after := by
  induction remaining generalizing count state pc with
  | zero =>
    have early := place_le underway.placed
    omega
  | succ remaining ih =>
    have ordered := ordered_of_reach (attempt.reach rest.reached) underway.alive
    obtain ⟨after, moved, phase⟩ := underway.next ordered []
    have later := attempt.stepped moved
    rcases phase with ⟨next, goes⟩ | ended
    · exact ih (by omega) later goes
    · exact ⟨count + 1, after, later, ended⟩

theorem exists_ended (rest : AtRest platform before) (hz : Double) (available : Bool) :
    ∃ count after, Attempt platform before hz available count after ∧ Ended before hz available after := by
  obtain ⟨state, moved, underway⟩ := exists_called rest hz
  exact Attempt.completes (Nat.zero_add 5) rest (.called moved) underway

/-- While no thread runs and the flag is clear, start() starts a worker. -/
theorem starts_worker (rest : AtRest platform before) (halted : before.running = false) (right : refuses hz = false) :
    StartsWorker platform before hz where
  ends := by
    obtain ⟨count, after, attempt, ended⟩ := exists_ended rest hz true
    exact ⟨count, after, attempt, ended.idle⟩
  prompt := by
    intro count state attempt
    rcases attempt.phase rest with ⟨pc, underway⟩ | ⟨few, ended⟩
    · have early := place_le underway.placed
      refine ⟨by omega, ?_⟩
      intro _ script
      have ordered := ordered_of_reach (attempt.reach rest.reached) underway.alive
      obtain ⟨after, moved, _⟩ := underway.next ordered script
      exact ⟨after, moved⟩
    · exact ⟨few, fun busy => absurd ended.idle busy⟩
  works := by
    intro count after attempt idle
    cases (attempt.result rest idle).outcome with
    | refused wrong => cases right.symm.trans wrong
    | already _ running => cases halted.symm.trans running
    | made _ _ _ running worker active => exact ⟨running, worker, active⟩
    | denied _ _ unavailable => cases unavailable

end Attempt

/-- No thread runs, and a call of start() that has been made will not start one. -/
structure Blocked (state : State config) : Prop where
  resting : ∀ thread, state.threads thread = .finished
  barred : ∀ call pc, state.caller = .busy call pc → stage pc = .start →
    pc = .startTest ∧ (state.running = true ∨ refuses call.hz = true)

section Blocked
variable {platform : Platform} {state after : State config} {action : Session.Action}

theorem AtRest.blocked (rest : AtRest platform state) : Blocked state where
  resting := rest.resting
  barred call pc busy := by cases rest.idle.symm.trans busy

/-- A step of the caller that leads out of start(). -/
theorem Blocked.moveCaller (blocked : Blocked state) (threads : after.threads = state.threads)
    (elsewhere : ∀ call pc, after.caller = .busy call pc → stage pc ≠ .start) : Blocked after where
  resting := by
    rw [threads]
    exact blocked.resting
  barred call pc busy starting := absurd starting (elsewhere call pc busy)

theorem startTest_refused {script : List Slot} {available : Bool} {call : Call}
    (busy : state.caller = .busy call .startTest) (refused : refuses call.hz = true)
    (moved : step platform state (.caller script available) = some after) : after.caller = .idle := by
  have wrong : call.hz.le (.finite 0) = true := refused
  have stepped := step_caller busy moved
  simp only [pcStep, if_pos wrong, Option.some.injEq] at stepped
  exact stepped ▸ rfl

theorem Turn.into_start {call other : Call} {pc next : Pc} {exit : Exit} (turn : Turn state call pc exit)
    (busy : exit.caller = .busy other next) (starting : stage next = .start) :
    pc = .startTest ∧ state.running = false := by
  cases turn with
  | returned free => cases busy
  | raised fault free => cases busy
  | already running =>
    rw [(startReturned_next busy).2] at starting
    cases starting
  | needed halted => exact ⟨rfl, halted⟩
  | guarded running =>
    cases busy
    cases starting
  | skipped halted =>
    rw [(stopMitLoopReturned_next busy).2] at starting
    cases starting
  | stopped clean =>
    rcases (stopReturned_next busy).2 with rfl | rfl
    · cases starting
    · cases starting
  | waited here there =>
    cases busy
    rw [stage_of_waits there] at starting
    cases starting

/-- As long as start() is called only while the flag is set, or with a frequency that it refuses, no
thread is made, and only stop() touches the flag. -/
theorem Blocked.step (blocked : Blocked state) (futile : state.running = true ∨ requests action = false)
    (alive : after.terminated = false) (moved : step platform state action = some after) :
    Blocked after ∧ after.spawned = state.spawned ∧ (after.running = state.running ∨
      after.running = false ∧ ∃ call, state.caller = .busy call .stopExchange) := by
  have move := step_move moved
  have early {call : Call} {pc : Pc} (busy : state.caller = .busy call pc) (starting : stage pc = .start) :
      pc = .startTest := (blocked.barred call pc busy starting).1
  cases move with
  | ended dead log => cases dead.symm.trans alive
  | endedZero emitted dead busy log => cases dead.symm.trans alive
  | endedSend emitted dead here log => cases dead.symm.trans alive
  | called call idle =>
    refine ⟨⟨blocked.resting, ?_⟩, rfl, .inl rfl⟩
    intro other pc busy starting
    cases busy
    cases call with
    | start hz | startMitLoop hz zeroTimeout =>
      refine ⟨rfl, futile.imp_right ?_⟩
      intro declined
      simpa [requests, Call.hz] using declined
    | _ => cases starting
  | @turned script available call pc exit backend obeys busy turn =>
    refine ⟨blocked.moveCaller rfl ?_, rfl, .inl rfl⟩
    intro other next place starting
    obtain ⟨rfl, halted⟩ := Turn.into_start turn place starting
    rcases (blocked.barred _ _ busy rfl).2 with running | refused
    · cases halted.symm.trans running
    · cases place.symm.trans (startTest_refused busy refused moved)
  | installed busy install ran =>
    refine ⟨blocked.moveCaller rfl ?_, rfl, .inl rfl⟩
    intro other next place
    cases install <;> (cases place; exact Stage.noConfusion)
  | joined busy joining done =>
    refine ⟨blocked.moveCaller rfl ?_, rfl, .inl rfl⟩
    intro other next place
    cases joining with
    | start => cases early busy rfl
    | zero | plain =>
      cases place
      exact Stage.noConfusion
  | reset busy => cases early busy rfl
  | flagged busy => cases early busy rfl
  | spawned busy free => cases early busy rfl
  | exchanged busy =>
    refine ⟨blocked.moveCaller rfl ?_, rfl, .inr ⟨rfl, _, busy⟩⟩
    intro other next place
    cases place
    exact Stage.noConfusion
  | zeroed obeys emitted busy zeroed =>
    refine ⟨blocked.moveCaller rfl ?_, rfl, .inl rfl⟩
    intro other next place
    rcases (zeroed.next place).2 with rfl | rfl
    · exact Stage.noConfusion
    · exact Stage.noConfusion
  | @rethrown _ _ call fault busy held =>
    obtain ⟨running, _, threads, _⟩ := rethrow_keeps state call fault
    refine ⟨blocked.moveCaller threads ?_, ?_, .inl running⟩
    · intro other next place
      rw [(rethrow_next place).2]
      exact Stage.noConfusion
    · cases call <;> rfl
  | released busy =>
    refine ⟨blocked.moveCaller rfl ?_, rfl, .inl rfl⟩
    intro other next place
    cases place
  | @looped _ thread next looping =>
    rw [blocked.resting thread] at looping
    cases looping
  | @copied _ thread here => cases (blocked.resting thread).symm.trans here
  | @sent _ thread _ _ _ obeys emitted here sent => cases (blocked.resting thread).symm.trans here
  | @stored _ thread _ here => cases (blocked.resting thread).symm.trans here
  | @cleared _ thread _ here => cases (blocked.resting thread).symm.trans here
  | outside obeys clock => exact ⟨⟨blocked.resting, blocked.barred⟩, rfl, .inl rfl⟩

end Blocked

section Later
variable {platform : Platform} {after later : State config}

/-- A stopped controller stays stopped until start() is called with a frequency that it accepts. -/
theorem stopped_until_start (rest : AtRest platform after) (halted : after.running = false)
    (leads : Reach ((machine platform config).onward after) (fun _ action => requests action = false) later)
    (alive : later.terminated = false) : Blocked later ∧ later.running = false := by
  induction leads with
  | start begins =>
    cases begins
    exact ⟨rest.blocked, halted⟩
  | next _ declined moved ih =>
    obtain ⟨blocked, off⟩ := ih (step_alive moved)
    obtain ⟨blocked, _, same | ⟨cleared, _⟩⟩ := blocked.step (.inr declined) alive moved
    · exact ⟨blocked, same.trans off⟩
    · exact ⟨blocked, cleared⟩

/-- Calls that get to stop(). -/
def stops : Session.Action → Bool
  | .call call => Stage.stop ∈ stages call
  | _ => false

/-- A flag that was set without a worker stays so until stop() is called: no start() makes a thread. -/
theorem stranded_until_stop (rest : AtRest platform after) (running : after.running = true)
    (leads : Reach ((machine platform config).onward after) (fun _ action => stops action = false) later)
    (alive : later.terminated = false) :
    later.running = true ∧ later.spawned = after.spawned ∧ ∀ thread, later.threads thread = .finished := by
  have all : Blocked later ∧ later.running = true ∧ later.spawned = after.spawned ∧
      ∀ call pc, later.caller = .busy call pc → Stage.stop ∉ stages call := by
    induction leads with
    | start begins =>
      cases begins
      exact ⟨rest.blocked, running, rfl, fun call pc busy => by cases rest.idle.symm.trans busy⟩
    | next before unstopped moved ih =>
      have still := step_alive moved
      obtain ⟨blocked, on, made, apart⟩ := ih still
      have inside := inside_of_reach (rest.reached.onward (fun _ _ _ => trivial) before) still
      obtain ⟨next, kept, same | ⟨_, call, busy⟩⟩ := blocked.step (.inl on) alive moved
      · refine ⟨next, same.trans on, kept.trans made, ?_⟩
        intro call pc busy
        rcases (writes_of_move alive (step_move moved)).stays busy with called | ⟨place, before⟩
        · subst called
          simpa [stops] using unstopped
        · exact apart call place before
      · exact absurd (inside call _ busy) (apart call _ busy)
  obtain ⟨blocked, on, made, _⟩ := all
  exact ⟨on, made, blocked.resting⟩

end Later

/-- Behind the flag there is a worker, or start() is about to make it. -/
def Backed (state : State config) : Prop :=
  state.running = true → Worked state ∨ ∃ call, state.caller = .busy call .startSpawn

section Backed
variable {platform : Platform} {state after : State config} {action : Session.Action}

theorem Backed.halted (halted : after.running = false) : Backed after := by
  intro running
  cases halted.symm.trans running

theorem Backed.initial : Backed (initialState config) := .halted rfl

/-- A step of the caller that changes neither the flag nor the threads. -/
theorem Backed.moveCaller (backed : Backed state) (elsewhere : ∀ call, state.caller ≠ .busy call .startSpawn)
    (running : after.running = state.running) (worker : after.worker = state.worker)
    (threads : after.threads = state.threads) : Backed after := by
  intro told
  rw [running] at told
  rcases backed told with ⟨thread, owned, active⟩ | ⟨call, busy⟩
  · left
    rw [Worked, worker, threads]
    exact ⟨thread, owned, active⟩
  · exact absurd busy (elsewhere call)

/-- A step of a worker that goes on while the flag is set. -/
theorem Backed.moveThread (backed : Backed state) {thread : Nat} {next : Worker}
    (goes : state.running = true → next ≠ .finished) (running : after.running = state.running)
    (worker : after.worker = state.worker) (caller : after.caller = state.caller)
    (threads : after.threads = Function.update state.threads thread next) : Backed after := by
  intro told
  rw [running] at told
  rw [Worked, worker, caller, threads]
  rcases backed told with ⟨other, owned, active⟩ | making
  · left
    refine ⟨other, owned, ?_⟩
    by_cases same : other = thread
    · rw [same, Function.update_self]
      exact goes told
    · rw [Function.update_of_ne same]
      exact active
  · exact .inr making

theorem Looping.goes {worker next : Worker} (looping : Looping true worker next) : next ≠ .finished := by
  cases looping with
  | test => exact Worker.noConfusion
  | wake => exact Worker.noConfusion

/-- A thread that can be made is made, and put behind the handle. -/
theorem spawn_granted {script : List Slot} {call : Call} (busy : state.caller = .busy call .startSpawn)
    (empty : state.worker = none) (moved : step platform state (.caller script true) = some after) :
    after.worker = some state.spawned := by
  have stepped := step_caller busy moved
  simp only [pcStep, empty, Option.isSome_none, Bool.false_eq_true, ↓reduceIte, Option.some.injEq] at stepped
  exact stepped ▸ rfl

theorem Backed.step (backed : Backed state) (ordered : Ordered state) (granted : grants state action = true)
    (alive : after.terminated = false) (moved : step platform state action = some after) : Backed after := by
  have move := step_move moved
  have apart {call : Call} {pc : Pc} (busy : state.caller = .busy call pc) (other : pc ≠ .startSpawn) :
      ∀ called, state.caller ≠ .busy called .startSpawn := by
    intro called place
    cases busy.symm.trans place
    exact other rfl
  cases move with
  | ended dead log => cases dead.symm.trans alive
  | endedZero emitted dead busy log => cases dead.symm.trans alive
  | endedSend emitted dead here log => cases dead.symm.trans alive
  | called call idle =>
    refine backed.moveCaller ?_ rfl rfl rfl
    intro other busy
    cases idle.symm.trans busy
  | @turned script available call pc exit backend obeys busy turn =>
    refine backed.moveCaller (apart busy ?_) rfl rfl rfl
    intro same
    subst same
    -- here the thread is made, and no turn does that
    have empty := (ordered.placed _ _ busy).2
    rw [grants, busy] at granted
    subst granted
    have made := spawn_granted busy empty moved
    change state.worker = some state.spawned at made
    cases empty.symm.trans made
  | installed busy install ran =>
    refine backed.moveCaller (apart busy ?_) rfl rfl rfl
    intro same
    subst same
    cases install
  | joined busy joining done =>
    have halted := ordered.placed _ _ busy
    cases joining with
    | start => exact .halted halted
    | zero => exact .halted halted
    | plain => exact .halted halted
  | reset busy => exact .halted (ordered.placed _ _ busy).1
  | flagged busy => exact fun _ => .inr ⟨_, rfl⟩
  | spawned busy free =>
    intro _
    left
    refine ⟨state.spawned, rfl, ?_⟩
    change Function.update state.threads state.spawned .test state.spawned ≠ .finished
    rw [Function.update_self]
    exact Worker.noConfusion
  | exchanged busy => exact .halted rfl
  | zeroed obeys emitted busy zeroed => exact .halted (ordered.placed _ _ busy).1
  | @rethrown _ _ call fault busy held =>
    exact .halted ((rethrow_keeps state call fault).1.trans (ordered.placed _ _ busy).1)
  | released busy => exact .halted (ordered.placed _ _ busy).1
  | looped looping =>
    refine backed.moveThread ?_ rfl rfl rfl rfl
    intro told
    rw [told] at looping
    exact Looping.goes looping
  | copied here => exact backed.moveThread (fun _ => Worker.noConfusion) rfl rfl rfl rfl
  | sent obeys emitted here sent =>
    refine backed.moveThread ?_ rfl rfl rfl rfl
    intro _
    cases sent with
    | returned => exact Worker.noConfusion
    | threw fault => exact Worker.noConfusion
  | stored here => exact backed.moveThread (fun _ => Worker.noConfusion) rfl rfl rfl rfl
  | cleared here => exact .halted rfl
  | outside obeys clock => exact backed

theorem backed_of_reach
    (reached : Reach (machine platform config) (fun state action => grants state action = true) state)
    (alive : state.terminated = false) : Backed state := by
  induction reached with
  | start begins =>
    cases begins
    exact .initial
  | next before granted moved ih =>
    have still := step_alive moved
    exact (ih still).step (ordered_of_reach before still) granted alive moved

end Backed

section Failing
variable {platform : Platform} {before after state : State config} {hz : Double} {available : Bool}

theorem Ended.atRest (ended : Ended before hz available after) (unmade : Unmade before after)
    (reached : Reach (machine platform config) Anything after) : AtRest platform after :=
  ⟨reached, ended.alive, ended.idle, unmade.resting⟩

theorem AtRest.staysStopped (rest : AtRest platform after) (halted : after.running = false)
    (commands : after.commands = before.commands) : StaysStopped platform before after where
  stopped := halted
  commands := commands
  restarts later valid leads alive idle right := by
    obtain ⟨blocked, off⟩ := stopped_until_start rest halted leads alive
    have reached := rest.reached.onward (fun _ _ _ => trivial) leads
    exact starts_worker ⟨reached, alive, idle, blocked.resting⟩ off right

theorem failsCleanly_iff (rest : AtRest platform before) :
    FailsCleanly platform before hz available ↔ tolerated before hz available = true := by
  constructor
  · intro clean
    obtain ⟨count, after, attempt, ended⟩ := exists_ended rest hz available
    cases ended.outcome with
    | refused wrong running unmade raised =>
      have stays := clean count after _ attempt ended.idle raised
      simp [tolerated, wrong, ← running, stays.stopped]
    | already right running => simp [tolerated, right, running]
    | made right _ granted => simp [tolerated, right, granted]
    | denied right halted denied running unmade raised =>
      have stays := clean count after _ attempt ended.idle raised
      cases running.symm.trans stays.stopped
  · intro fits count after fault attempt idle raised
    have ended := attempt.result rest idle
    cases ended.outcome with
    | refused wrong running unmade =>
      have halted : before.running = false := by simpa [tolerated, wrong] using fits
      exact (ended.atRest unmade (attempt.reach rest.reached)).staysStopped (running.trans halted) ended.commands
    | already _ _ _ returned => cases raised.symm.trans returned
    | made _ _ _ _ _ _ returned => cases raised.symm.trans returned
    | denied right halted denied => simp [tolerated, right, halted, denied] at fits

/-- If start() throws, it leaves the controller stopped and ready to start, unless the thread cannot
be made, or the flag was set before. As long as each thread that start() asks for is made, the flag
has a worker behind it. -/
theorem failed_start_stops_iff (reached : Reach (machine platform config) Anything state)
    (alive : state.terminated = false) (idle : state.caller = .idle) :
    ((∀ thread, state.threads thread = .finished) → ∀ hz available,
      FailsCleanly platform state hz available ↔ tolerated state hz available = true) ∧
      (Reach (machine platform config) (fun state action => grants state action = true) state →
        state.running = true → Worked state) := by
  constructor
  · intro resting hz available
    exact failsCleanly_iff ⟨reached, alive, idle, resting⟩
  · intro granted running
    rcases backed_of_reach granted alive running with worked | ⟨call, busy⟩
    · exact worked
    · cases idle.symm.trans busy

end Failing

/-- A loop that has thrown on its second send is not running, and a refused frequency leaves it so. -/
theorem refused_start_stays_stopped : ∃ stopped running : State (joints [(1, 0x11)]),
    FailsCleanly Platform.wrapping stopped (.finite 0) true ∧ running.running = true ∧ Worked running := by
  have threw : ((machine Platform.wrapping (joints [(1, 0x11)])).run grants
      (oneBatch ++ [loops, loops, loops, .worker 0 [{ throws := true }], loops, loops])
      (initialState (joints [(1, 0x11)]))).map (fun state => decide ((state.terminated = false ∧
        state.caller = .idle ∧ state.running = false) ∧ tolerated state (.finite 0) true = true)) = some true := by
    decide +kernel
  have ran : ((machine Platform.wrapping (joints [(1, 0x11)])).run grants oneBatch
      (initialState (joints [(1, 0x11)]))).map (fun state => decide (state.terminated = false ∧
        state.caller = .idle ∧ state.running = true)) = some true := by decide +kernel
  obtain ⟨stopped, reached, still, fits⟩ := Machine.reach_checked rfl threw
  obtain ⟨alive, idle, halted⟩ := still
  obtain ⟨running, going, live, free, on⟩ := Machine.reach_checked rfl ran
  have dead : ¬Live stopped := by
    intro told
    rw [told.running fun call waiting => by cases idle.symm.trans waiting] at halted
    cases halted
  have resting := (ordered_of_reach reached alive).finished_of_not_live dead
  exact ⟨stopped, running, ((failed_start_stops_iff reached.anything alive idle).1 resting _ _).mpr fits, on,
    (failed_start_stops_iff going.anything live free).2 going on⟩

/-- The thread of a first start() cannot be made. The flag stays set, and the next start() returns
without a worker although a thread could be made now. -/
theorem unmade_thread_strands : ∃ (count total : ℕ) (after later : State (joints [(1, 0x11)])),
    AtRest Platform.wrapping (initialState (joints [(1, 0x11)])) ∧
    Attempt Platform.wrapping (initialState (joints [(1, 0x11)])) (.finite 1000) false count after ∧
    after.caller = .idle ∧ after.log.head? = some (.raised (.start (.finite 1000)) .systemError) ∧
    after.running = true ∧ Attempt Platform.wrapping after (.finite 1000) true total later ∧ later.caller = .idle ∧
    later.log.head? = some (.returned (.start (.finite 1000))) ∧ later.spawned = 0 ∧
    ¬FailsCleanly Platform.wrapping (initialState (joints [(1, 0x11)])) (.finite 1000) false := by
  have fast : refuses (.finite 1000) = false := by decide +kernel
  have rest : AtRest Platform.wrapping (initialState (joints [(1, 0x11)])) := ⟨.start rfl, rfl, rfl, fun _ => rfl⟩
  obtain ⟨count, after, attempt, ended⟩ := exists_ended rest (.finite 1000) false
  cases ended.outcome with
  | refused wrong => cases fast.symm.trans wrong
  | already _ running => cases running
  | made _ _ granted => cases granted
  | denied _ _ _ running unmade raised =>
    have stuck := ended.atRest unmade (attempt.reach rest.reached)
    obtain ⟨total, later, again, second⟩ := exists_ended stuck (.finite 1000) true
    cases second.outcome with
    | refused wrong => cases fast.symm.trans wrong
    | already _ _ none returned =>
      refine ⟨count, total, after, later, rest, attempt, ended.idle, raised, running, again, second.idle, returned,
        none.spawned.trans unmade.spawned, ?_⟩
      intro clean
      cases running.symm.trans (clean count after _ attempt ended.idle raised).stopped
    | made _ halted => cases running.symm.trans halted
    | denied _ halted => cases running.symm.trans halted

end DmOpenarm.Starting
