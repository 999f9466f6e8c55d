import DmOpenarm.ExampleTraffic
import DmOpenarm.Homing
import DmOpenarm.Library.Phases
import DmOpenarm.SessionBus
import DmOpenarm.SessionWrites

/-! The protocol of the MIT loop, said of the log alone, and that every run keeps to it. -/

namespace DmOpenarm.LoopProtocol
open Types hiding ControlMode
open CommandTable MotorBus Backend Session SessionMoves SessionBus SessionWrites Lifecycle BatchTraffic ExampleTraffic YamlLoader
open Operations hiding Action Move machine
open Homing (run_eq_apply)
open Library.Effect Library.Output Library.Phases Library.Readings Library.Runs
variable {config : ArmConfig}

/-- Between two loops, between the batches of one, and on the way out of it. -/
inductive Phase where
  | idle
  | ready
  | copied (commands : List MitCommand)
  | sent (emitted : Nat)
  | broken
  | zeroed
  deriving DecidableEq

/-- Events that may come at any time. -/
def aside : Event → Bool
  | .called _ _ => true
  | .returned _ => true
  | .raised _ _ => true
  | .rethrown _ _ => true
  | .installed _ => true
  | .discarded _ => true
  | _ => false

/-- The loop copies the table and sends the copy, and goes on only after a batch that has gone out as a
whole. A batch that was cut short ends it. The zero batch of stop() comes once and after everything else, but
not at all if the loop had ended before; and no loop begins before the one before it is over. -/
def advance (size : Nat) : Phase → Event → Option Phase
  | .idle, .began => some .ready
  | .idle, .stopped => some .idle
  | .ready, .snapshot commands => some (.copied commands)
  | .ready, .zeroBatch _ => some .zeroed
  | .copied commands, .batch handed emitted => if handed = commands then some (.sent emitted) else none
  | .sent emitted, .snapshot commands => if emitted = size then some (.copied commands) else none
  | .sent emitted, .zeroBatch _ => if emitted = size then some .zeroed else none
  | .sent emitted, .failed _ running =>
      if emitted < size ∨ size = 0 then some (if running then .idle else .broken) else none
  | .broken, .zeroBatch _ => some .zeroed
  | .zeroed, .stopped => some .idle
  | phase, event => if aside event then some phase else none

def loopProtocol (config : ArmConfig) : Protocol Phase Event where
  first := .idle
  next := advance config.motors.length

theorem advance_aside {event : Event} (free : aside event = true) (size : Nat) (phase : Phase) :
    advance size phase event = some phase := by
  cases event with
  | began | stopped | snapshot _ | batch _ _ | zeroBatch _ | failed _ _ => cases free
  | _ => cases phase <;> rfl

/-- Events aside leave the phase as it is. -/
theorem phase_aside (event : Event) (free : aside event = true) : Passes (loopProtocol config).phase event :=
  Protocol.phase_passes fun phase => advance_aside free _ phase

/-- The loop has been told to run, or the zero batch of stop() is still to come. -/
def Told (state : State config) : Prop := state.running = true ∨ ¬Settled state.caller

/-- Where a worker stands between two batches. -/
def between : Worker → Bool
  | .test => true
  | .copy => true
  | .sleep => true
  | .finished => true
  | _ => false

/-- Where a worker stands after a batch that has thrown. -/
def fails : Worker → Bool
  | .store _ => true
  | .clear _ => true
  | _ => false

/-- What a phase says of the controller. -/
def Fits (state : State config) : Phase → Prop
  | .idle => ¬Told state ∧ ∀ thread, state.threads thread = .finished
  | .ready => Told state ∧ ∀ thread, between (state.threads thread) = true
  | .copied commands => ∃ thread, state.threads thread = .send commands
  | .sent emitted =>
      (emitted = config.motors.length ∧ Told state ∧ ∀ thread, between (state.threads thread) = true) ∨
        ((emitted < config.motors.length ∨ config.motors.length = 0) ∧ ∃ thread, fails (state.threads thread) = true)
  | .broken => state.running = false ∧ Told state ∧ ∀ thread, state.threads thread = .finished
  | .zeroed => ¬Told state ∧ (∃ call, state.caller = .busy call .stopRethrow) ∧
      ∀ thread, state.threads thread = .finished

/-- A state that is in order with what it has logged, as long as the process lives. -/
def Kept (state : State config) : Prop :=
  ∃ phase, (loopProtocol config).phase state.log = some phase ∧ (state.terminated = false → Fits state phase)

section Told
variable {state after : State config}

theorem not_told (halted : state.running = false) (settled : Settled state.caller) : ¬Told state := by
  rintro (running | waiting)
  · cases halted.symm.trans running
  · exact waiting settled

theorem told_of_live (live : Live state) : Told state := by
  rcases live with running | ⟨call, waiting⟩
  · exact .inl running
  · exact .inr fun settled => (settled call).1 waiting

theorem told_of_zeroing {call : Call} (busy : state.caller = .busy call .stopZero) : Told state :=
  .inr fun settled => (settled call).2 busy

theorem told_settled (before : Settled state.caller) (later : Settled after.caller)
    (running : after.running = state.running) : Told after ↔ Told state := by
  simp only [Told, running, before, later]

theorem told_same (caller : after.caller = state.caller) (running : after.running = state.running) :
    Told after ↔ Told state := by
  simp only [Told, running, caller]

end Told

section Fits
variable {state after : State config} {phase : Phase}

/-- A step that moves no thread. -/
theorem Fits.moveCaller (fits : Fits state phase) (told : Told after ↔ Told state)
    (elsewhere : ∀ call, state.caller = .busy call .stopRethrow → after.caller = state.caller)
    (running : state.running = false → after.running = false) (threads : after.threads = state.threads) :
    Fits after phase := by
  cases phase with
  | idle => exact ⟨told.not.mpr fits.1, threads ▸ fits.2⟩
  | ready => exact ⟨told.mpr fits.1, threads ▸ fits.2⟩
  | copied commands =>
    obtain ⟨thread, here⟩ := fits
    exact ⟨thread, threads ▸ here⟩
  | sent emitted =>
    rcases fits with ⟨whole, now, each⟩ | ⟨cut, thread, here⟩
    · exact .inl ⟨whole, told.mpr now, threads ▸ each⟩
    · exact .inr ⟨cut, thread, threads ▸ here⟩
  | broken => exact ⟨running fits.1, told.mpr fits.2.1, threads ▸ fits.2.2⟩
  | zeroed =>
    obtain ⟨halted, ⟨call, busy⟩, finished⟩ := fits
    exact ⟨told.not.mpr halted, ⟨call, (elsewhere call busy).trans busy⟩, threads ▸ finished⟩

/-- While no thread is active, the phase is one of those where there need be none. -/
theorem Fits.still (fits : Fits state phase) (finished : ∀ thread, state.threads thread = .finished) :
    (¬Told state ∧ (phase = .idle ∨ phase = .zeroed)) ∨
      (Told state ∧ (phase = .ready ∨ phase = .sent config.motors.length ∨ phase = .broken)) := by
  cases phase with
  | idle => exact .inl ⟨fits.1, .inl rfl⟩
  | ready => exact .inr ⟨fits.1, .inl rfl⟩
  | copied commands =>
    obtain ⟨thread, here⟩ := fits
    cases (finished thread).symm.trans here
  | sent emitted =>
    rcases fits with ⟨whole, now, _⟩ | ⟨_, thread, here⟩
    · exact .inr ⟨now, .inr (.inl (congrArg Phase.sent whole))⟩
    · rw [finished thread] at here
      cases here
  | broken => exact .inr ⟨fits.2.1, .inr (.inr rfl)⟩
  | zeroed => exact .inl ⟨fits.1, .inr rfl⟩

theorem Fits.halted (fits : Fits state phase) (finished : ∀ thread, state.threads thread = .finished)
    (halted : ¬Told state) : phase = .idle ∨ phase = .zeroed := by
  rcases fits.still finished with ⟨_, resting⟩ | ⟨told, _⟩
  · exact resting
  · exact absurd told halted

theorem Fits.told (fits : Fits state phase) (finished : ∀ thread, state.threads thread = .finished)
    (told : Told state) : phase = .ready ∨ phase = .sent config.motors.length ∨ phase = .broken := by
  rcases fits.still finished with ⟨halted, _⟩ | ⟨_, going⟩
  · exact absurd told halted
  · exact going

/-- What the phase says of a thread that is active. -/
theorem Fits.active (fits : Fits state phase) (ordered : Ordered state) {thread : Nat}
    (active : state.threads thread ≠ .finished) :
    (Told state ∧ (phase = .ready ∨ phase = .sent config.motors.length) ∧
        ∀ other, between (state.threads other) = true) ∨
      (∃ commands, phase = .copied commands ∧ state.threads thread = .send commands) ∨
      ∃ emitted, phase = .sent emitted ∧ (emitted < config.motors.length ∨ config.motors.length = 0) ∧
        fails (state.threads thread) = true := by
  cases phase with
  | idle => exact absurd (fits.2 thread) active
  | ready => exact .inl ⟨fits.1, .inl rfl, fits.2⟩
  | copied commands =>
    obtain ⟨other, here⟩ := fits
    by_cases same : other = thread
    · exact .inr (.inl ⟨commands, rfl, same ▸ here⟩)
    · cases (ordered.alone active same).symm.trans here
  | sent emitted =>
    rcases fits with ⟨whole, now, each⟩ | ⟨cut, other, here⟩
    · exact .inl ⟨now, .inr (congrArg Phase.sent whole), each⟩
    · by_cases same : other = thread
      · exact .inr (.inr ⟨emitted, rfl, cut, same ▸ here⟩)
      · rw [ordered.alone active same] at here
        cases here
  | broken => exact absurd (fits.2.2 thread) active
  | zeroed => exact absurd (fits.2.2 thread) active

/-- The only thread that is active takes a step between two batches. -/
theorem between_after (ordered : Ordered state) {thread : Nat} {next : Worker}
    (active : state.threads thread ≠ .finished) (there : between next = true) (other : Nat) :
    between (Function.update state.threads thread next other) = true := by
  by_cases same : other = thread
  · rw [same, Function.update_self]
    exact there
  · rw [Function.update_of_ne same, ordered.alone active same]
    rfl

end Fits

section Events
variable {state : State config}

theorem beside_startReturned (call : Call) (log : List Event) :
    Grown aside log ((startReturned call).events ++ log) := by
  cases call with
  | startMitLoop hz zeroTimeout => exact .refl log
  | _ => exact .one rfl log

theorem beside_stopMitLoopReturned (call : Call) (log : List Event) :
    Grown aside log ((stopMitLoopReturned call).events ++ log) := by
  cases call with
  | disable => exact .refl log
  | _ => exact .one rfl log

theorem beside_turn {call : Call} {pc : Pc} {exit : Exit} (turn : Turn state call pc exit) (apart : pc ≠ .stopRethrow) :
    Grown aside state.log (exit.events ++ state.log) := by
  cases turn with
  | returned free => exact .one rfl state.log
  | raised fault free => exact .one rfl state.log
  | already running => exact beside_startReturned call state.log
  | skipped halted => exact beside_stopMitLoopReturned call state.log
  | stopped clean => exact absurd rfl apart
  | needed halted | guarded running | waited before after => exact .refl state.log

theorem beside_stopReturned (call : Call) (log : List Event) :
    Grown aside (.stopped :: log) ((stopReturned call).events ++ log) := by
  cases call with
  | destroy | disable => exact .refl _
  | _ => exact .one rfl _

theorem beside_stopThrew (call : Call) (fault : Fault) (log : List Event) :
    Grown aside (.stopped :: log) ((stopThrew call fault).events ++ log) := by
  cases call with
  | destroy => exact .refl _
  | _ => exact .one rfl _

/-- A stored exception is dropped before stop() is over, or rethrown after that. -/
theorem beside_rethrow (state : State config) (call : Call) (fault : Fault) :
    ∃ log, Grown aside state.log log ∧ Grown aside (.stopped :: log) (rethrow state call fault).log := by
  cases call with
  | destroy => exact ⟨_, setException_grown (fun _ => rfl) state none, .refl _⟩
  | _ => exact ⟨_, .refl _, .one rfl _⟩

theorem phase_zero {log : List Event} {phase : Phase} (before : (loopProtocol config).phase log = some phase)
    (going : phase = .ready ∨ phase = .sent config.motors.length ∨ phase = .broken)
    (emitted : Nat) : (loopProtocol config).phase (.zeroBatch emitted :: log) = some .zeroed := by
  refine (Protocol.phase_cons before _).trans ?_
  rcases going with rfl | rfl | rfl
  · rfl
  · exact if_pos rfl
  · rfl

theorem phase_stopped {log : List Event} {phase : Phase} (before : (loopProtocol config).phase log = some phase)
    (resting : phase = .idle ∨ phase = .zeroed) : (loopProtocol config).phase (.stopped :: log) = some .idle := by
  refine (Protocol.phase_cons before _).trans ?_
  rcases resting with rfl | rfl <;> rfl

end Events

section Steps
variable {state after : State config} {phase : Phase}

/-- A step of the caller beside the protocol. -/
theorem kept_beside (fits : Fits state phase) (before : (loopProtocol config).phase state.log = some phase)
    {call : Call} {pc : Pc} (busy : state.caller = .busy call pc) (apart : pc ≠ .stopRethrow)
    (told : Told after ↔ Told state) (running : state.running = false → after.running = false)
    (threads : after.threads = state.threads) (log : Grown aside state.log after.log) : Kept after := by
  refine ⟨phase, (log.read phase_aside).trans before, fun _ => fits.moveCaller told ?_ running threads⟩
  intro other place
  rw [busy] at place
  cases place
  exact absurd rfl apart

theorem settled_pc {call : Call} {pc : Pc} (busy : state.caller = .busy call pc) (join : pc ≠ .stopJoin true)
    (zero : pc ≠ .stopZero) : Settled state.caller := busy ▸ .of_pc join zero

/-- A step of the caller beside the protocol, and away from stop(). -/
theorem kept_settled (fits : Fits state phase) (before : (loopProtocol config).phase state.log = some phase)
    {call : Call} {pc : Pc} (busy : state.caller = .busy call pc) (apart : pc ≠ .stopRethrow) (join : pc ≠ .stopJoin true)
    (zero : pc ≠ .stopZero) (later : Settled after.caller) (running : after.running = state.running)
    (threads : after.threads = state.threads) (log : Grown aside state.log after.log) : Kept after :=
  kept_beside fits before busy apart (told_settled (settled_pc busy join zero) later running) running.trans threads log

/-- The end of stop(). -/
theorem kept_stopped (fits : Fits state phase) (ordered : Ordered state) {call : Call}
    (busy : state.caller = .busy call .stopRethrow) {log : List Event}
    (before : (loopProtocol config).phase log = some phase) (stopped : Grown aside (.stopped :: log) after.log)
    (settled : Settled after.caller) (running : after.running = state.running) (threads : after.threads = state.threads) :
    Kept after := by
  obtain ⟨halted, joined⟩ := ordered.placed _ _ busy
  have finished := ordered.finished_of_joined joined
  have resting := fits.halted finished (not_told halted (busy ▸ .of_pc Pc.noConfusion Pc.noConfusion))
  refine ⟨.idle, (stopped.read phase_aside).trans (phase_stopped before resting), fun _ =>
    ⟨not_told (running.trans halted) settled, ?_⟩⟩
  exact threads ▸ finished

/-- After its join, stop() still has its zero batch to send, if the loop had been told to run. -/
theorem kept_joined (fits : Fits state phase)
    (before : (loopProtocol config).phase state.log = some phase) {call : Call} {pc next : Pc}
    (busy : state.caller = .busy call pc) (joining : Joining pc next) :
    Kept ({ state with worker := none }.exit (.proceed call next)) := by
  cases joining with
  | start =>
    exact kept_settled fits before busy Pc.noConfusion Pc.noConfusion Pc.noConfusion
      (.of_pc Pc.noConfusion Pc.noConfusion) rfl rfl (.refl _)
  | zero =>
    have waiting : Told state := .inr fun settled => (settled call).1 busy
    exact kept_beside fits before busy Pc.noConfusion (iff_of_true (told_of_zeroing rfl) waiting) id rfl (.refl _)
  | plain =>
    exact kept_settled fits before busy Pc.noConfusion (fun same => by cases same) Pc.noConfusion
      (.of_pc Pc.noConfusion Pc.noConfusion) rfl rfl (.refl _)

theorem kept_exchanged (fits : Fits state phase) (before : (loopProtocol config).phase state.log = some phase)
    {call : Call} (busy : state.caller = .busy call .stopExchange) :
    Kept ({ state with running := false }.exit (.proceed call (.stopJoin state.running))) := by
  have settled := settled_pc busy Pc.noConfusion Pc.noConfusion
  refine kept_beside fits before busy Pc.noConfusion ?_ (fun _ => rfl) rfl (.refl _)
  cases told : state.running with
  | true => exact iff_of_true (.inr fun calm => (calm call).1 rfl) (.inl told)
  | false =>
    refine iff_of_false (not_told rfl (.of_pc ?_ Pc.noConfusion)) (not_told told settled)
    intro same
    cases same

theorem kept_flagged (fits : Fits state phase) (ordered : Ordered state)
    (before : (loopProtocol config).phase state.log = some phase) {call : Call}
    (busy : state.caller = .busy call .startFlag) :
    Kept ({ state with running := true }.exit ⟨.busy call .startSpawn, [.began]⟩) := by
  obtain ⟨halted, joined⟩ := ordered.placed _ _ busy
  have finished := ordered.finished_of_joined joined
  have resting := fits.halted finished (not_told halted (settled_pc busy Pc.noConfusion Pc.noConfusion))
  refine ⟨.ready, (Protocol.phase_cons before _).trans ?_, fun _ => ⟨.inl rfl, fun thread => ?_⟩⟩
  · rcases resting with rfl | rfl
    · rfl
    · obtain ⟨_, ⟨other, place⟩, _⟩ := fits
      cases busy.symm.trans place
  · change between (state.threads thread) = true
    rw [finished thread]
    rfl

theorem kept_spawned (fits : Fits state phase) (ordered : Ordered state)
    (before : (loopProtocol config).phase state.log = some phase) {call : Call}
    (busy : state.caller = .busy call .startSpawn) :
    Kept ({ state.setThread state.spawned .test with
      worker := some state.spawned, spawned := state.spawned + 1 }.exit (startReturned call)) := by
  obtain ⟨running, joined⟩ := ordered.placed _ _ busy
  have finished := ordered.finished_of_joined joined
  have told : Told ({ state.setThread state.spawned .test with
      worker := some state.spawned, spawned := state.spawned + 1 }.exit (startReturned call)) := .inl running
  have each (other : Nat) : between (Function.update state.threads state.spawned .test other) = true := by
    by_cases same : other = state.spawned
    · rw [same, Function.update_self]
      rfl
    · rw [Function.update_of_ne same, finished other]
      rfl
  refine ⟨phase, ((beside_startReturned call state.log).read phase_aside).trans before, fun _ => ?_⟩
  rcases fits.told finished (.inl running) with rfl | rfl | rfl
  · exact ⟨told, each⟩
  · exact .inl ⟨rfl, told, each⟩
  · cases running.symm.trans fits.1

theorem kept_zeroed (fits : Fits state phase) (ordered : Ordered state)
    (before : (loopProtocol config).phase state.log = some phase) {call : Call} {exit : Exit}
    {backend : DmSerialBackend config} (emitted : Nat) (busy : state.caller = .busy call .stopZero)
    (zeroed : Zeroed call exit) : Kept ({ state.record (.zeroBatch emitted) with backend }.exit exit) := by
  obtain ⟨halted, joined⟩ := ordered.placed _ _ busy
  have finished := ordered.finished_of_joined joined
  have zero := phase_zero before (fits.told finished (told_of_zeroing busy)) emitted
  cases zeroed with
  | returned =>
    exact ⟨.zeroed, zero, fun _ => ⟨not_told halted (.of_pc Pc.noConfusion Pc.noConfusion), ⟨call, rfl⟩, finished⟩⟩
  | threw fault =>
    have stopped := phase_stopped zero (.inr rfl)
    have raised := beside_stopThrew call fault (.zeroBatch emitted :: state.log)
    exact ⟨.idle, (raised.read phase_aside).trans stopped, fun _ =>
      ⟨not_told halted (settled_stopThrew call fault), finished⟩⟩

theorem kept_looped (fits : Fits state phase) (ordered : Ordered state)
    (before : (loopProtocol config).phase state.log = some phase) {thread : Nat} {next : Worker}
    (looping : Looping state.running (state.threads thread) next) : Kept (state.setThread thread next) := by
  have active : state.threads thread ≠ .finished := by
    intro finished
    rw [finished] at looping
    cases looping
  have there : between next = true := by
    generalize state.threads thread = worker at looping
    cases looping with
    | test => cases state.running <;> rfl
    | wake => rfl
  refine ⟨phase, before, fun _ => ?_⟩
  rcases fits.active ordered active with ⟨told, rfl | rfl, _⟩ | ⟨commands, _, here⟩ | ⟨emitted, _, _, here⟩
  · exact ⟨told, between_after ordered active there⟩
  · exact .inl ⟨rfl, told, between_after ordered active there⟩
  · rw [here] at looping
    cases looping
  · generalize state.threads thread = worker at looping here
    cases looping <;> cases here

theorem kept_copied (fits : Fits state phase) (ordered : Ordered state)
    (before : (loopProtocol config).phase state.log = some phase) {thread : Nat} (here : state.threads thread = .copy) :
    Kept ((state.setThread thread (.send state.commands)).record (.snapshot state.commands)) := by
  have active : state.threads thread ≠ .finished := here ▸ Worker.noConfusion
  refine ⟨.copied state.commands, (Protocol.phase_cons before _).trans ?_, fun _ => ⟨thread, Function.update_self ..⟩⟩
  rcases fits.active ordered active with ⟨_, rfl | rfl, _⟩ | ⟨commands, _, there⟩ | ⟨emitted, _, _, there⟩
  · rfl
  · exact if_pos rfl
  · cases here.symm.trans there
  · rw [here] at there
    cases there

theorem kept_stored (fits : Fits state phase) (ordered : Ordered state)
    (before : (loopProtocol config).phase state.log = some phase) {thread : Nat} {fault : Fault}
    (here : state.threads thread = .store fault) :
    Kept ((setException state (some fault)).setThread thread (.clear fault)) := by
  have active : state.threads thread ≠ .finished := here ▸ Worker.noConfusion
  refine ⟨phase, ((setException_grown (fun _ => rfl) state (some fault)).read phase_aside).trans before, fun _ => ?_⟩
  rcases fits.active ordered active with ⟨_, _, each⟩ | ⟨commands, _, there⟩ | ⟨emitted, rfl, cut, _⟩
  · have between := each thread
    rw [here] at between
    cases between
  · cases here.symm.trans there
  · refine .inr ⟨cut, thread, ?_⟩
    change fails (Function.update state.threads thread _ thread) = true
    rw [Function.update_self]
    rfl

/-- A worker whose batch has thrown ends its loop, unless stop() has ended it already and waits. -/
theorem kept_cleared (fits : Fits state phase) (ordered : Ordered state)
    (before : (loopProtocol config).phase state.log = some phase) {thread : Nat} {fault : Fault}
    (here : state.threads thread = .clear fault) :
    Kept (({ state with running := false }.setThread thread .finished).record (.failed fault state.running)) := by
  have active : state.threads thread ≠ .finished := here ▸ Worker.noConfusion
  have finished := ordered.finished_after active
  rcases fits.active ordered active with ⟨_, _, each⟩ | ⟨commands, _, there⟩ | ⟨emitted, rfl, cut, _⟩
  · have between := each thread
    rw [here] at between
    cases between
  · cases here.symm.trans there
  · have fails : (loopProtocol config).phase (.failed fault state.running :: state.log) =
        some (if state.running then .idle else .broken) := (Protocol.phase_cons before _).trans (if_pos cut)
    refine ⟨_, fails, fun _ => ?_⟩
    cases running : state.running with
    | true =>
      have settled : Settled state.caller := by
        intro call
        constructor
        · intro place
          cases running.symm.trans (ordered.placed _ _ place)
        · intro place
          cases running.symm.trans (ordered.placed _ _ place).1
      exact ⟨not_told rfl settled, finished⟩
    | false =>
      rcases ordered.live thread active with told | ⟨call, waiting⟩
      · cases running.symm.trans told
      · exact ⟨rfl, .inr fun settled => (settled call).1 waiting, finished⟩

theorem failing_lt {script : List Slot} {count failed : Nat} (stops : failing script count = some failed) :
    failed < count := by
  obtain ⟨inside, _⟩ := List.findIdx?_eq_some_iff_getElem.mp stops
  rw [List.length_take] at inside
  omega

/-- A batch has gone out as a whole if sending it returned, and else it was cut short. -/
theorem sendMitAll_emits (platform : Platform) {commands : List MitCommand} {backend : DmSerialBackend config}
    (built : Consistent backend) (same : commands.length = config.motors.length) :
    let outcome := exec (sendMitAll platform commands) backend
    let emitted := outcome.2.usb.sent.length - backend.usb.sent.length
    match outcome.1 with
    | .ok _ => emitted = config.motors.length
    | .error _ => emitted < config.motors.length ∨ config.motors.length = 0 := by
  rcases backend with ⟨_ | control, usb⟩
  · have refused : exec (sendMitAll platform commands) (⟨none, usb⟩ : DmSerialBackend config) =
        (.error notConnected, ⟨none, usb⟩) := rfl
    rw [refused]
    change usb.sent.length - usb.sent.length < config.motors.length ∨ config.motors.length = 0
    omega
  · have stopped := sendMitAll_stopped platform same ⟨control, usb⟩ (built control rfl)
    have whole : (plan config platform commands).length = config.motors.length := length_plan platform same
    cases stops : failing (Host.mk control usb).usb.script config.motors.length with
    | none =>
      rw [stops] at stopped
      obtain ⟨returned, sent⟩ := stopped
      have grown : (exec (sendMitAll platform commands) ⟨some control, usb⟩).2.usb.sent =
          usb.sent ++ plan config platform commands := sent
      rw [attach] at returned
      dsimp only
      rw [returned, grown, List.length_append, Nat.add_sub_cancel_left]
      exact whole
    | some failed =>
      rw [stops] at stopped
      obtain ⟨threw, sent⟩ := stopped
      have grown : (exec (sendMitAll platform commands) ⟨some control, usb⟩).2.usb.sent =
          usb.sent ++ (plan config platform commands).take failed := sent
      rw [attach] at threw
      dsimp only
      rw [threw, grown, List.length_append, Nat.add_sub_cancel_left, List.length_take, whole]
      exact .inl (lt_of_le_of_lt (Nat.min_le_left _ _) (failing_lt stops))

theorem phase_batch (fits : Fits state phase) (ordered : Ordered state)
    (before : (loopProtocol config).phase state.log = some phase) {thread : Nat} {snapshot : List MitCommand}
    (here : state.threads thread = .send snapshot) (emitted : Nat) :
    (loopProtocol config).phase (.batch snapshot emitted :: state.log) = some (.sent emitted) := by
  have active : state.threads thread ≠ .finished := here ▸ Worker.noConfusion
  refine (Protocol.phase_cons before _).trans ?_
  rcases fits.active ordered active with ⟨_, _, each⟩ | ⟨commands, rfl, there⟩ | ⟨_, _, _, there⟩
  · have between := each thread
    rw [here] at between
    cases between
  · cases here.symm.trans there
    exact if_pos rfl
  · rw [here] at there
    cases there

theorem kept_sent {platform : Platform} {script : List Slot} (fits : Fits state phase) (ordered : Ordered state)
    (built : Consistent state.backend) (before : (loopProtocol config).phase state.log = some phase) {thread : Nat}
    {snapshot : List MitCommand} (here : state.threads thread = .send snapshot)
    (size : snapshot.length = config.motors.length)
    (moved : workerStep platform state thread script (.send snapshot) = some after) : Kept after := by
  have active : state.threads thread ≠ .finished := here ▸ Worker.noConfusion
  have ready : Consistent (state.backend.withScript script) := built
  have emits := sendMitAll_emits platform ready size
  have told := told_of_live (ordered.live thread active)
  simp only [workerStep, Option.some.injEq] at moved
  subst moved
  generalize exec (sendMitAll platform snapshot) (state.backend.withScript script) = outcome at emits
  have sent := phase_batch fits ordered before here
  rcases outcome with ⟨fault | value, backend⟩
  · unfold State.resume
    by_cases fatal : fault.fatal = true
    · simp only [if_pos fatal]
      exact ⟨_, sent _, Bool.noConfusion⟩
    · simp only [if_neg fatal]
      refine ⟨_, sent _, fun _ => .inr ⟨emits, thread, ?_⟩⟩
      change fails (Function.update state.threads thread (.store fault) thread) = true
      rw [Function.update_self]
      rfl
  · exact ⟨_, sent _, fun _ => .inl ⟨emits, told, between_after ordered active rfl⟩⟩

theorem kept_of_move {action : Session.Action} (fits : Fits state phase) (ordered : Ordered state)
    (before : (loopProtocol config).phase state.log = some phase) (move : Move state action after)
    (elsewhere : ∀ thread script snapshot, action = .worker thread script → state.threads thread ≠ .send snapshot) :
    Kept after := by
  cases move with
  | ended dead log => exact ⟨phase, log ▸ before, fun alive => by cases dead.symm.trans alive⟩
  | endedZero emitted dead busy log =>
    have finished := ordered.finished_of_joined (ordered.placed _ _ busy).2
    have zero := phase_zero before (fits.told finished (told_of_zeroing busy)) emitted
    exact ⟨.zeroed, log ▸ zero, fun alive => by cases dead.symm.trans alive⟩
  | @endedSend _ _ thread snapshot emitted dead here log =>
    exact ⟨.sent emitted, log ▸ phase_batch fits ordered before here emitted, fun alive => by cases dead.symm.trans alive⟩
  | called call idle =>
    have settled : Settled (.busy call call.entry) := by
      cases call <;> exact .of_pc Pc.noConfusion Pc.noConfusion
    refine ⟨phase, (phase_aside _ rfl state.log).trans before, fun _ => fits.moveCaller ?_ ?_ id rfl⟩
    · exact told_settled (idle ▸ .idle) settled rfl
    · intro other place
      cases idle.symm.trans place
  | @turned _ _ _ pc _ _ obeys busy turn =>
    have settled := Turn.settled turn
    by_cases last : pc = .stopRethrow
    · subst last
      cases turn with
      | returned free => cases free
      | raised fault free => cases free
      | waited here there => cases here
      | stopped clean =>
        exact kept_stopped fits ordered busy before (beside_stopReturned _ state.log) settled.2 rfl rfl
    · exact kept_beside fits before busy last (told_settled (busy ▸ settled.1) settled.2 rfl) id rfl
        (beside_turn turn last)
  | installed busy install ran =>
    cases install <;>
      exact kept_settled fits before busy Pc.noConfusion Pc.noConfusion Pc.noConfusion
        (.of_pc Pc.noConfusion Pc.noConfusion) rfl rfl (.one rfl state.log)
  | joined busy joining done => exact kept_joined fits before busy joining
  | reset busy =>
    exact kept_settled fits before busy Pc.noConfusion Pc.noConfusion Pc.noConfusion
      (.of_pc Pc.noConfusion Pc.noConfusion) rfl rfl (setException_grown (fun _ => rfl) state none)
  | flagged busy => exact kept_flagged fits ordered before busy
  | spawned busy free => exact kept_spawned fits ordered before busy
  | exchanged busy => exact kept_exchanged fits before busy
  | zeroed obeys emitted busy zeroed => exact kept_zeroed fits ordered before emitted busy zeroed
  | @rethrown _ _ call fault busy held =>
    obtain ⟨log, dropped, stopped⟩ := beside_rethrow state call fault
    obtain ⟨running, _, threads, _⟩ := rethrow_keeps state call fault
    exact kept_stopped fits ordered busy ((dropped.read phase_aside).trans before) stopped
      (settled_rethrow state call fault) running threads
  | released busy =>
    exact kept_settled fits before busy Pc.noConfusion Pc.noConfusion Pc.noConfusion
      (fun _ => ⟨Caller.noConfusion, Caller.noConfusion⟩) rfl rfl (setException_grown (fun _ => rfl) state none)
  | looped looping => exact kept_looped fits ordered before looping
  | copied here => exact kept_copied fits ordered before here
  | sent obeys emitted here sent => exact absurd here (elsewhere _ _ _ rfl)
  | stored here => exact kept_stored fits ordered before here
  | cleared here => exact kept_cleared fits ordered before here
  | outside obeys clock =>
    exact ⟨phase, before, fun _ => fits.moveCaller (told_same rfl rfl) (fun _ _ => rfl) id rfl⟩

end Steps

/-- The table and every copy of it have a command for each motor. -/
structure Sized (state : State config) : Prop where
  commands : state.commands.length = config.motors.length
  sends : ∀ thread snapshot, state.threads thread = .send snapshot → snapshot.length = config.motors.length

theorem Sized.move {state after : State config} {action : Session.Action} (sized : Sized state)
    (alive : after.terminated = false) (move : Move state action after) : Sized after := by
  have untouched {next : State config} (same : Untouched state next) : Sized next := by
    refine ⟨?_, fun thread snapshot here => sized.sends thread snapshot (same.sends thread snapshot here)⟩
    rw [same.commands]
    exact sized.commands
  cases writes_of_move alive move with
  | called call idle => exact ⟨sized.commands, sized.sends⟩
  | installed busy install ran =>
    refine ⟨?_, sized.sends⟩
    exact (congrArg List.length (run_eq_apply ran).symm).trans ((Update.length_apply _ _ _).trans sized.commands)
  | @copied _ thread here =>
    refine ⟨sized.commands, ?_⟩
    intro other snapshot there
    change Function.update state.threads thread (.send state.commands) other = .send snapshot at there
    by_cases same : other = thread
    · rw [same, Function.update_self] at there
      cases there
      exact sized.commands
    · rw [Function.update_of_ne same] at there
      exact sized.sends other snapshot there
  | turned busy stays same => exact untouched same
  | apart caller same => exact untouched same

theorem sized_of_reach {platform : Platform} {allowed : State config → Session.Action → Prop} {state : State config}
    (reached : Reach (machine platform config) allowed state) (alive : state.terminated = false) : Sized state := by
  have start : Sized (initialState config) := by
    refine ⟨?_, ?_⟩
    · exact List.length_replicate.trans (List.length_map _)
    · intro thread snapshot here
      cases here
  exact reach_moves start (fun _ _ _ _ still move sized => sized.move still move) reached alive

theorem kept_step {platform : Platform} {allowed : State config → Session.Action → Prop} {state after : State config}
    {action : Session.Action} {phase : Phase} (reached : Reach (machine platform config) allowed state)
    (moved : step platform state action = some after) (fits : Fits state phase)
    (before : (loopProtocol config).phase state.log = some phase) : Kept after := by
  have alive := step_alive moved
  have ordered := ordered_of_reach reached alive
  by_cases sending : ∃ thread script snapshot, action = .worker thread script ∧ state.threads thread = .send snapshot
  · obtain ⟨thread, script, snapshot, rfl, here⟩ := sending
    have stepped := step_worker moved
    rw [here] at stepped
    exact kept_sent fits ordered (consistent_of_reach reached alive) before here
      ((sized_of_reach reached alive).sends thread snapshot here) stepped
  · refine kept_of_move fits ordered before (step_move moved) ?_
    intro thread script snapshot same here
    exact sending ⟨thread, script, snapshot, same, here⟩

/-- Whatever is called, sent, received or thrown, the log of a run keeps to the protocol of the loop; and while
that says that no loop goes on, no thread runs. -/
theorem log_keeps_protocol {platform : Platform} {state : State config}
    (reached : Reach (machine platform config) Anything state) :
    ∃ phase, (loopProtocol config).phase state.log = some phase ∧
      (state.terminated = false → phase = .idle → ∀ thread, state.threads thread = .finished) := by
  have start : Fits (initialState config) .idle := ⟨not_told rfl .idle, fun _ => rfl⟩
  obtain ⟨phase, read, fits⟩ := @Protocol.kept_by_reach _ _ _ _ (loopProtocol config) (machine platform config) Anything
    State.log (fun state phase => state.terminated = false → Fits state phase)
    (fun state begins => by
      cases begins
      exact ⟨rfl, fun _ => start⟩)
    (fun _ _ _ _ earlier moved fits before => kept_step earlier moved (fits (step_alive moved)) before) state reached
  refine ⟨phase, read, ?_⟩
  intro alive idle thread
  have fitting := fits alive
  rw [idle] at fitting
  exact fitting.2 thread

/-- The second batch of a loop of two joints is cut short, and stop() rethrows that. -/
theorem joints_keep_protocol : ∃ state : State (joints [(1, 0x11), (2, 0x12)]),
    state.log.any (fun event => event = .failed .usb true) = true ∧
      (loopProtocol (joints [(1, 0x11), (2, 0x12)])).phase state.log = some .idle ∧
      ∀ thread, state.threads thread = .finished := by
  have ran : ((machine Platform.wrapping (joints [(1, 0x11), (2, 0x12)])).run (fun _ _ => true)
      (oneBatch ++ [loops, loops, loops, .worker 0 [{}, { throws := true }], loops, loops,
        .call .stop, quietly, quietly, quietly]) (initialState (joints [(1, 0x11), (2, 0x12)]))).map
      (fun state => decide (state.terminated = false ∧ state.caller = .idle ∧
        state.log.any (fun event => event = .failed .usb true) = true ∧
        (loopProtocol (joints [(1, 0x11), (2, 0x12)])).phase state.log = some .idle)) = some true := by decide +kernel
  obtain ⟨state, reached, alive, _, failed, idle⟩ := Machine.reach_checked rfl ran
  obtain ⟨phase, read, finished⟩ := log_keeps_protocol reached.anything
  exact ⟨state, failed, idle, finished alive (Option.some.inj (read.symm.trans idle))⟩

end DmOpenarm.LoopProtocol
