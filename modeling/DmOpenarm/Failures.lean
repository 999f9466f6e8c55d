import DmOpenarm.Lifecycle
import DmOpenarm.SessionLog
import DmOpenarm.YamlLoader

/-! What becomes of a worker loop that threw. The controller stores the exception for stop() to
rethrow; a restart, the guard of stop_mit_loop() and the destructor drop it or pass over it. -/

namespace DmOpenarm.Failures
open Types hiding ControlMode
open MotorBus Session SessionMoves SessionLog Lifecycle YamlLoader Library.Readings Library.Runs
variable {config : ArmConfig}

/-- The calls that are there to report failures. -/
def supervises : Call → Bool
  | .startMitLoop _ _ => true
  | .stopMitLoop => true
  | .disable => true
  | .start _ => true
  | .stop => true
  | _ => false

/-- Where a stored exception would be passed over. -/
def passesOver (call : Call) (running : Bool) : Pc → Bool
  | .startReset => true
  | .guard => !running
  | .stopRethrow => call = .destroy
  | .release => true
  | _ => false

/-- The caller does not pass over a stored exception. -/
def heeds (state : State config) : Session.Action → Bool
  | .caller _ _ =>
      match state.caller with
      | .busy call pc => !passesOver call state.running pc || state.workerException.isNone
      | _ => true
  | _ => true

theorem heeded {state : State config} {script : List Slot} {available : Bool} {call : Call} {pc : Pc}
    (heed : heeds state (.caller script available) = true) (busy : state.caller = .busy call pc)
    (passes : passesOver call state.running pc = true) : state.workerException = none := by
  rw [heeds, busy] at heed
  simpa [passes] using heed

/-- Where a supervising call stands as long as it finds a failure that came before it. -/
def awaits : Pc → Bool
  | .startTest => true
  | .startJoin => true
  | .startReset => true
  | .guard => true
  | .stopExchange => true
  | .stopJoin wasRunning => !wasRunning
  | .stopRethrow => true
  | _ => false

/-- Where start() has reset the exception and not yet made a thread. -/
def resets : Pc → Bool
  | .startFlag => true
  | .startSpawn => true
  | _ => false

structure Kept (state : State config) : Prop where
  stored : (∀ thread fault, state.threads thread ≠ .clear fault) → pending state.log = state.workerException
  clearing : ∀ thread fault, state.threads thread = .clear fault → state.workerException = some fault
  fresh : ∀ thread, state.threads thread ≠ .finished → state.workerException = none ∨
    ∃ fault, state.threads thread = .clear fault
  reset : ∀ call pc, state.caller = .busy call pc → resets pc = true → state.workerException = none
  halted : pending state.log ≠ none → state.running = false
  issued : ∀ call pc, state.caller = .busy call pc → supervises call = true →
    pending (beforeCall state.log) ≠ none → pending state.log ≠ none ∧ awaits pc = true

theorem Kept.held {state : State config} (kept : Kept state) (waiting : pending state.log ≠ none) :
    state.workerException ≠ none := by
  by_cases clears : ∃ thread fault, state.threads thread = .clear fault
  · obtain ⟨thread, fault, here⟩ := clears
    rw [kept.clearing thread fault here]
    exact Option.some_ne_none fault
  · have same := kept.stored fun thread fault here => clears ⟨thread, fault, here⟩
    exact same ▸ waiting

/-- A step of the caller that leaves the threads and the exception alone. -/
theorem Kept.moveCaller {state after : State config} (kept : Kept state) {call : Call} {pc : Pc}
    (busy : state.caller = .busy call pc) (same : ledger after.log = ledger state.log)
    (threads : after.threads = state.threads) (exception : after.workerException = state.workerException)
    (running : pending state.log ≠ none → after.running = false)
    (reset : ∀ other next, after.caller = .busy other next → resets next = true → state.workerException = none)
    (issued : ∀ other next, after.caller = .busy other next → other = call ∧
      (pending state.log ≠ none → awaits pc = true → awaits next = true)) : Kept after where
  stored quiet := by
    rw [threads] at quiet
    rw [(ledger_eq same).1, exception]
    exact kept.stored quiet
  clearing thread fault here := by
    rw [threads] at here
    rw [exception]
    exact kept.clearing thread fault here
  fresh thread active := by
    rw [threads] at active
    rw [exception, threads]
    exact kept.fresh thread active
  reset other next place resetting := by
    rw [exception]
    exact reset other next place resetting
  halted waiting := by
    rw [(ledger_eq same).1] at waiting
    exact running waiting
  issued other next place supervised waiting := by
    obtain ⟨rfl, goes⟩ := issued other next place
    rw [(ledger_eq same).2] at waiting
    rw [(ledger_eq same).1]
    obtain ⟨now, here⟩ := kept.issued other pc busy supervised waiting
    exact ⟨now, goes now here⟩

/-- A step of a worker whose loop has not thrown. -/
theorem Kept.moveThread {state after : State config} (kept : Kept state) {thread : Nat} {next : Worker}
    (active : state.threads thread ≠ .finished) (here : ∀ fault, state.threads thread ≠ .clear fault)
    (there : ∀ fault, next ≠ .clear fault) (told : ledger after.log = ledger state.log)
    (threads : after.threads = Function.update state.threads thread next)
    (exception : after.workerException = state.workerException) (caller : after.caller = state.caller)
    (running : after.running = state.running) : Kept after where
  stored quiet := by
    rw [(ledger_eq told).1, exception]
    apply kept.stored
    intro other fault clears
    by_cases same : other = thread
    · exact here fault (same ▸ clears)
    · apply quiet other fault
      rw [threads, Function.update_of_ne same]
      exact clears
  clearing other fault clears := by
    rw [exception]
    by_cases same : other = thread
    · rw [threads, same, Function.update_self] at clears
      exact absurd clears (there fault)
    · rw [threads, Function.update_of_ne same] at clears
      exact kept.clearing other fault clears
  fresh other alive := by
    rw [exception]
    by_cases same : other = thread
    · rcases kept.fresh thread active with none | ⟨fault, clears⟩
      · exact .inl none
      · exact absurd clears (here fault)
    · rw [threads, Function.update_of_ne same] at alive ⊢
      exact kept.fresh other alive
  reset call pc busy resetting := by
    rw [caller] at busy
    rw [exception]
    exact kept.reset call pc busy resetting
  halted waiting := by
    rw [(ledger_eq told).1] at waiting
    rw [running]
    exact kept.halted waiting
  issued call pc busy supervised waiting := by
    rw [caller] at busy
    rw [(ledger_eq told).2] at waiting
    rw [(ledger_eq told).1]
    exact kept.issued call pc busy supervised waiting

theorem setException_of_none {state : State config} (empty : state.workerException = none)
    (exception : Option Fault) : setException state exception = { state with workerException := exception } := by
  rw [setException, empty]
  rfl

/-- A worker whose loop has thrown stores the exception, where none was stored before. -/
theorem Kept.store {state : State config} (kept : Kept state) (ordered : Ordered state) {thread : Nat} {fault : Fault}
    (here : state.threads thread = .store fault) :
    Kept ((setException state (some fault)).setThread thread (.clear fault)) := by
  have active : state.threads thread ≠ .finished := by
    rw [here]
    exact Worker.noConfusion
  have owner := ordered.owned thread active
  have empty : state.workerException = none := by
    rcases kept.fresh thread active with none | ⟨other, clears⟩
    · exact none
    · cases here.symm.trans clears
  rw [setException_of_none empty]
  refine ⟨?_, ?_, ?_, ?_, kept.halted, kept.issued⟩
  · intro quiet
    exact absurd (Function.update_self thread _ state.threads) (quiet thread fault)
  · intro other thrown clears
    change Function.update state.threads thread (.clear fault) other = .clear thrown at clears
    by_cases same : other = thread
    · rw [same, Function.update_self] at clears
      cases clears
      rfl
    · rw [Function.update_of_ne same, ordered.alone active same] at clears
      cases clears
  · intro other alive
    change Function.update state.threads thread (.clear fault) other ≠ .finished at alive
    by_cases same : other = thread
    · right
      refine ⟨fault, ?_⟩
      rw [same]
      exact Function.update_self thread _ state.threads
    · rw [Function.update_of_ne same] at alive
      exact absurd (ordered.alone active same) alive
  · intro call pc busy resetting
    have joined : state.worker = none := by
      have expected := ordered.placed call pc busy
      cases pc with
      | startFlag => exact expected.2
      | startSpawn => exact expected.2
      | _ => cases resetting
    rw [joined] at owner
    cases owner

/-- A worker whose loop has thrown ends, and the failure is to be reported. -/
theorem Kept.clear {state : State config} (kept : Kept state) (ordered : Ordered state) {thread : Nat} {fault : Fault}
    (here : state.threads thread = .clear fault) :
    Kept (({ state with running := false }.setThread thread .finished).record (.failed fault state.running)) := by
  have active : state.threads thread ≠ .finished := by
    rw [here]
    exact Worker.noConfusion
  have finished := ordered.finished_after active
  refine ⟨?_, ?_, ?_, ?_, ?_, ?_⟩
  · intro quiet
    exact (kept.clearing thread fault here).symm
  · intro other thrown clears
    cases (finished other).symm.trans clears
  · intro other alive
    exact absurd (finished other) alive
  · intro call pc busy resetting
    exact kept.reset call pc busy resetting
  · intro waiting
    rfl
  · intro call pc busy supervised waiting
    refine ⟨?_, (kept.issued call pc busy supervised waiting).2⟩
    exact Option.some_ne_none fault

/-- The steps of the caller that touch nothing, as far as failures are concerned. -/
theorem Kept.turn {state : State config} (kept : Kept state) {call : Call} {pc : Pc} {exit : Exit}
    (minds : passesOver call state.running pc = true → state.workerException = none)
    (turn : Turn state call pc exit) {other : Call} {next : Pc} (place : exit.caller = .busy other next) :
    resets next = false ∧ other = call ∧ (pending state.log ≠ none → awaits pc = true → awaits next = true) := by
  cases turn with
  | returned free => cases place
  | raised fault free => cases place
  | already running =>
    obtain ⟨rfl, rfl⟩ := startReturned_next place
    refine ⟨rfl, rfl, ?_⟩
    intro waiting
    rw [kept.halted waiting] at running
    cases running
  | needed halted =>
    cases place
    exact ⟨rfl, rfl, fun _ _ => rfl⟩
  | guarded running =>
    cases place
    exact ⟨rfl, rfl, fun _ _ => rfl⟩
  | skipped halted =>
    cases call with
    | disable =>
      cases place
      refine ⟨rfl, rfl, ?_⟩
      intro waiting
      rw [halted] at minds
      exact absurd (minds rfl) (kept.held waiting)
    | _ => cases place
  | stopped clean =>
    obtain ⟨same, there⟩ := stopReturned_next place
    refine ⟨?_, same, fun waiting => absurd clean (kept.held waiting)⟩
    rcases there with rfl | rfl <;> rfl
  | waited here there =>
    cases place
    refine ⟨?_, rfl, ?_⟩
    · cases next with
      | startFlag | startSpawn => cases there
      | _ => rfl
    · intro _ waits
      cases pc with
      | readStates | home _ | deadline | poll _ | late _ | pause _ => cases waits
      | _ => cases here

/-- While the stored exception has not been dropped by start(), the loop begins with none. -/
theorem Kept.flag {state : State config} (kept : Kept state) {call : Call}
    (busy : state.caller = .busy call .startFlag) :
    Kept ({ state with running := true }.exit ⟨.busy call .startSpawn, [.began]⟩) := by
  have empty := kept.reset call _ busy rfl
  have none : pending state.log = none := by
    by_contra waiting
    exact kept.held waiting empty
  refine ⟨kept.stored, kept.clearing, kept.fresh, ?_, ?_, ?_⟩
  · intro other pc place resetting
    exact empty
  · intro waiting
    exact absurd none waiting
  · intro other pc place supervised waiting
    cases place
    cases (kept.issued call _ busy supervised waiting).2

theorem Kept.spawn {state : State config} (kept : Kept state) {call : Call}
    (busy : state.caller = .busy call .startSpawn) :
    Kept ({ state.setThread state.spawned .test with
      worker := some state.spawned, spawned := state.spawned + 1 }.exit (startReturned call)) := by
  have empty := kept.reset call _ busy rfl
  have same : ledger ((startReturned call).events ++ state.log) = ledger state.log :=
    (Grown.append (fun _ member => closing_startReturned member) state.log).read ledger_closing
  have now := (ledger_eq same).1
  have none : pending state.log = none := by
    by_contra waiting
    exact kept.held waiting empty
  refine ⟨?_, ?_, ?_, ?_, ?_, ?_⟩
  · intro quiet
    exact (now.trans none).trans empty.symm
  · intro thread fault clears
    change Function.update state.threads state.spawned .test thread = .clear fault at clears
    by_cases same : thread = state.spawned
    · rw [same, Function.update_self] at clears
      cases clears
    · rw [Function.update_of_ne same] at clears
      exact kept.clearing thread fault clears
  · intro thread active
    exact .inl empty
  · intro other pc place resetting
    exact empty
  · intro waiting
    exact absurd (now.trans none) waiting
  · intro other pc place supervised waiting
    cases call with
    | startMitLoop hz zeroTimeout =>
      cases place
      cases (kept.issued _ _ busy supervised waiting).2
    | _ => cases place

/-- stop() rethrows the stored exception, which the destructor would drop. -/
theorem Kept.rethrow {state : State config} {call : Call} {fault : Fault}
    (minds : passesOver call state.running .stopRethrow = true → state.workerException = none)
    (finished : ∀ thread, state.threads thread = .finished) (held : state.workerException = some fault) :
    Kept (Session.rethrow state call fault) := by
  cases call with
  | destroy => cases held.symm.trans (minds rfl)
  | _ =>
    refine ⟨fun _ => rfl, ?_, fun _ _ => .inl rfl, ?_, ?_, ?_⟩
    · intro thread other clears
      cases (finished thread).symm.trans clears
    · intro other pc place
      cases place
    · intro waiting
      exact absurd rfl waiting
    · intro other pc place
      cases place

theorem Kept.move {state after : State config} {action : Session.Action} (kept : Kept state)
    (ordered : Ordered state) (heed : heeds state action = true) (alive : after.terminated = false)
    (move : Move state action after) : Kept after := by
  cases move with
  | ended dead log => cases dead.symm.trans alive
  | endedZero emitted dead busy log => cases dead.symm.trans alive
  | endedSend emitted dead here log => cases dead.symm.trans alive
  | called call idle =>
    refine ⟨kept.stored, kept.clearing, kept.fresh, ?_, kept.halted, ?_⟩
    · intro other pc place resetting
      cases place
      cases call <;> cases resetting
    · intro other pc place supervised waiting
      cases place
      refine ⟨waiting, ?_⟩
      cases call with
      | startMitLoop | stopMitLoop | disable | start | stop => rfl
      | _ => cases supervised
  | @turned _ _ call pc exit _ obeys busy turn =>
    have leads {other : Call} {next : Pc} (place : exit.caller = .busy other next) :=
      kept.turn (heeded heed busy) turn place
    have same : ledger (exit.events ++ state.log) = ledger state.log :=
      (Grown.append (fun _ member => turn.closing member) state.log).read ledger_closing
    refine kept.moveCaller busy same rfl rfl kept.halted ?_ fun other next place => (leads place).2
    intro other next place resetting
    cases (leads place).1.symm.trans resetting
  | installed busy install ran =>
    refine kept.moveCaller busy rfl rfl rfl kept.halted ?_ ?_
    · intro other next place resetting
      cases place
      cases install <;> cases resetting
    · intro other next place
      cases place
      refine ⟨rfl, ?_⟩
      intro _ waits
      cases install <;> cases waits
  | joined busy joining done =>
    refine kept.moveCaller busy rfl rfl rfl kept.halted ?_ ?_
    · intro other next place resetting
      cases place
      cases joining <;> cases resetting
    · intro other next place
      cases place
      refine ⟨rfl, ?_⟩
      intro _ waits
      cases joining with
      | start => rfl
      | zero => cases waits
      | plain => rfl
  | @reset _ _ call busy =>
    have empty := heeded heed busy rfl
    rw [setException_of_none empty]
    refine kept.moveCaller busy rfl rfl empty.symm kept.halted ?_ ?_
    · intro other next place resetting
      exact empty
    · intro other next place
      cases place
      exact ⟨rfl, fun waiting => absurd empty (kept.held waiting)⟩
  | flagged busy => exact kept.flag busy
  | spawned busy free => exact kept.spawn busy
  | exchanged busy =>
    refine kept.moveCaller busy rfl rfl rfl (fun _ => rfl) ?_ ?_
    · intro other next place resetting
      cases place
      cases resetting
    · intro other next place
      cases place
      refine ⟨rfl, ?_⟩
      intro waiting _
      rw [kept.halted waiting]
      rfl
  | @zeroed _ _ call exit _ obeys emitted busy zeroed =>
    have never : ∀ other next, exit.caller = .busy other next → resets next = false := by
      intro other next place
      rcases (zeroed.next place).2 with rfl | rfl <;> rfl
    have same : ledger (exit.events ++ .zeroBatch emitted :: state.log) = ledger state.log := by
      cases zeroed with
      | returned => rfl
      | threw fault =>
        have closes : ∀ event ∈ (stopThrew call fault).events, closing event = true := fun _ => closing_stopThrew
        have closed := Grown.append closes (.zeroBatch emitted :: state.log)
        exact closed.read ledger_closing
    refine kept.moveCaller busy same rfl rfl kept.halted ?_ ?_
    · intro other next place resetting
      cases (never other next place).symm.trans resetting
    · intro other next place
      exact ⟨(zeroed.next place).1, fun _ waits => by cases waits⟩
  | @rethrown _ _ call fault busy held => exact .rethrow (heeded heed busy) (ordered.finished_of_joined (ordered.placed _ _ busy).2) held
  | @released _ _ call busy =>
    rw [setException_of_none (heeded heed busy rfl)]
    refine kept.moveCaller busy rfl rfl (heeded heed busy rfl).symm kept.halted ?_ ?_
    · intro other next place
      cases place
    · intro other next place
      cases place
  | @looped _ thread next looping =>
    generalize here : state.threads thread = worker at looping
    refine kept.moveThread ?_ ?_ ?_ rfl rfl rfl rfl rfl
    · rw [here]
      cases looping <;> exact Worker.noConfusion
    · rw [here]
      intro fault
      cases looping <;> exact Worker.noConfusion
    · intro fault
      cases looping with
      | test => cases state.running <;> exact Worker.noConfusion
      | wake => exact Worker.noConfusion
  | copied here =>
    exact kept.moveThread (by rw [here]; exact Worker.noConfusion) (fun fault clears => by cases here.symm.trans clears)
      (fun fault => Worker.noConfusion) rfl rfl rfl rfl rfl
  | sent obeys emitted here sent =>
    refine kept.moveThread (by rw [here]; exact Worker.noConfusion) (fun fault clears => by cases here.symm.trans clears)
      ?_ rfl rfl rfl rfl rfl
    intro fault
    cases sent <;> exact Worker.noConfusion
  | stored here => exact kept.store ordered here
  | cleared here => exact kept.clear ordered here
  | outside obeys clock =>
    exact ⟨kept.stored, kept.clearing, kept.fresh, kept.reset, kept.halted, kept.issued⟩

theorem Kept.initial : Kept (initialState config) := by
  refine ⟨fun _ => rfl, ?_, fun _ _ => .inl rfl, fun _ _ _ _ => rfl, fun _ => rfl, ?_⟩
  · intro thread fault clears
    cases clears
  · intro call pc busy
    cases busy

/-- A stored exception is never dropped; what stop() rethrows is the failure of the last worker
loop; and no supervising call returns that was issued while a failure was unreported. -/
def Heard : Event → List Event → Prop
  | .discarded _, _ => False
  | .rethrown _ fault, earlier => pending earlier = some fault
  | .returned call, earlier => supervises call = true → pending (beforeCall earlier) = none
  | _, _ => True

theorem Kept.returned {state : State config} (kept : Kept state) {call : Call} {pc : Pc}
    (minds : passesOver call state.running pc = true → state.workerException = none)
    (busy : state.caller = .busy call pc) (returns : Returns state call pc) (supervised : supervises call = true) :
    pending (beforeCall state.log) = none := by
  by_contra waiting
  obtain ⟨now, awaiting⟩ := kept.issued call pc busy supervised waiting
  cases returns with
  | free free =>
    cases pc with
    | operate | assign _ | disconnect | poll _ | late _ => cases awaiting
    | _ => cases free
  | already running direct => cases running.symm.trans (kept.halted now)
  | spawned direct => cases awaiting
  | skipped halted =>
    rw [halted] at minds
    exact kept.held now (minds rfl)
  | stopped clean => exact kept.held now clean

theorem Kept.logs {state : State config} (kept : Kept state) (ordered : Ordered state) {action : Session.Action}
    (heed : heeds state action = true) {event : Event} {earlier : List Event} (logs : Logs state action event earlier) :
    Heard event earlier := by
  cases logs with
  | plain free =>
    cases event with
    | called | raised | installed | began | failed => exact trivial
    | _ => cases free
  | returned busy returns top =>
    intro supervised
    rcases top with rfl | rfl <;> exact kept.returned (heeded heed busy) busy returns supervised
  | rethrown busy held =>
    have finished := ordered.finished_of_joined (ordered.placed _ _ busy).2
    have same := kept.stored fun thread fault clears => by cases (finished thread).symm.trans clears
    exact same.trans held
  | discarded held drops =>
    cases drops with
    | restart busy => cases held.symm.trans (heeded heed busy rfl)
    | destroy busy => cases held.symm.trans (heeded heed busy rfl)
    | release busy => cases held.symm.trans (heeded heed busy rfl)
    | worker here =>
      rcases kept.fresh _ (by rw [here]; exact Worker.noConfusion) with none | ⟨other, clears⟩
      · cases held.symm.trans none
      · cases here.symm.trans clears
  | stopped busy top => exact trivial
  | zeroed emitted busy => exact trivial
  | zeroBatch emitted busy => exact trivial
  | snapshot here => exact trivial
  | batch emitted here => exact trivial

theorem failures_are_heard {platform : Platform} {state : State config}
    (reached : Reach (machine platform config) (fun before action => heeds before action = true) state) : Throughout Heard state.log := by
  let inv (state : State config) : Prop := Ordered state ∧ Kept state
  have base : inv (initialState config) := ⟨.initial, .initial⟩
  have kept : ∀ before action after, heeds before action = true → after.terminated = false → Move before action after →
      inv before → inv after :=
    fun _ _ _ heed alive move both => ⟨both.1.move alive move, both.2.move both.1 heed alive move⟩
  have logged : ∀ before action event earlier, heeds before action = true → inv before →
      Logs before action event earlier → Heard event earlier :=
    fun _ _ _ _ heed both logs => both.2.logs both.1 heed logs
  exact (reach_logs base kept logged reached).1

/-- One session whose second send throws. -/
def failure : List Session.Action :=
  oneBatch ++ [loops, loops, loops, .worker 0 [{ throws := true }], loops, loops]

theorem stopped_failure_is_heard : ∃ (state : State (joints [(1, 0x11)])) (fault : Fault),
    state.log.head? = some (.rethrown .stop fault) ∧ Throughout Heard state.log := by
  have ran : ((machine Platform.wrapping (joints [(1, 0x11)])).run heeds
      (failure ++ [.call .stop, quietly, quietly, quietly]) (initialState (joints [(1, 0x11)]))).map (fun state =>
        decide (state.log.head? = some (.rethrown .stop .usb))) = some true := by
    decide +kernel
  obtain ⟨state, reached, top⟩ := Machine.reach_checked rfl ran
  exact ⟨state, _, top, failures_are_heard reached⟩

/-- A failed loop is stopped without a word, and a restart drops its exception. -/
theorem failure_is_lost : ∃ (state : State (joints [(1, 0x11)])) (fault : Fault) (later earlier : List Event),
    Reach (machine Platform.wrapping (joints [(1, 0x11)])) Anything state ∧
    state.log = .discarded fault :: later ++ .returned .stopMitLoop :: earlier ∧
    pending (beforeCall earlier) = some fault ∧ pending earlier = some fault := by
  have ran : ((machine Platform.wrapping (joints [(1, 0x11)])).run (fun _ _ => true)
      (failure ++ [.call .stopMitLoop, quietly, .call (.start (.finite 1000)), quietly, quietly, quietly])
      (initialState (joints [(1, 0x11)]))).map (fun state =>
        decide (state.log = .discarded .usb :: (state.log.take 2).tail ++
            .returned .stopMitLoop :: state.log.drop 3 ∧
          pending (beforeCall (state.log.drop 3)) = some .usb ∧
          pending (state.log.drop 3) = some .usb)) = some true := by decide +kernel
  obtain ⟨state, reached, history, before, still⟩ := Machine.reach_checked rfl ran
  exact ⟨state, _, _, _, reached.anything, history, before, still⟩

end DmOpenarm.Failures
