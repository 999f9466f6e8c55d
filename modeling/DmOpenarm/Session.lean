import DmOpenarm.CommandTable
import DmOpenarm.Library.Ieee
import DmOpenarm.Operations

/-! One caller of the Python Arm, or of its MitLoopController, together with the worker threads
that the controller starts. A step ends where the other thread can get its turn: at each access
to the running flag, the stored exception, the command table or the backend, and at each join.
An operation of the backend is one step, with all its sends and sleeps. -/

namespace DmOpenarm.Session
open Types hiding ControlMode
open Damiao MotorBus Backend Operations CommandTable Library.Effect Library.Runs Library.Ieee

/-- The calls of the Arm, and below them those of the MitLoopController alone. -/
inductive Call where
  | enable
  | disable
  | states
  | setZero (canId : Id) (persist : Bool)
  | setZeroAll (persist : Bool)
  | startMitLoop (hz zeroTimeout : Double)
  | stopMitLoop
  | mit (commands : List (Id × MitCommand))
  | start (hz : Double)
  | stop
  | update (update : Update)
  | destroy
  deriving DecidableEq

/-- Where the caller stands inside a call. -/
inductive Pc where
  | operate
  | assign (updates : List Update)
  | startTest
  | startJoin
  | startReset
  | startFlag
  | startSpawn
  | guard
  | stopExchange
  | stopJoin (wasRunning : Bool)
  | stopZero
  | stopRethrow
  | disconnect
  | release
  | readStates
  | home (count : Nat)
  | deadline
  | poll (deadline : Double)
  | late (deadline : Double)
  | pause (deadline : Double)
  deriving DecidableEq

inductive Caller where
  | idle
  | busy (call : Call) (pc : Pc)
  | destroyed
  deriving DecidableEq

/-- Where a worker thread stands in worker_loop. -/
inductive Worker where
  | test
  | copy
  | send (snapshot : List MitCommand)
  | sleep
  | store (fault : Fault)
  | clear (fault : Fault)
  | finished
  deriving DecidableEq

/-- What is recorded of a run. A batch is what the worker handed to the backend, with the number
of frames that went out, and so is the zero batch of stop(); a failure is a worker loop ended by
an exception, with the value of the running flag that it found. A call rethrows the exception
stored by a worker loop, or raises another one. -/
inductive Event where
  | called (call : Call) (running : Bool)
  | returned (call : Call)
  | raised (call : Call) (fault : Fault)
  | rethrown (call : Call) (fault : Fault)
  | installed (update : Update)
  | began
  | stopped
  | snapshot (commands : List MitCommand)
  | batch (commands : List MitCommand) (emitted : Nat)
  | zeroBatch (emitted : Nat)
  | failed (fault : Fault) (running : Bool)
  | discarded (fault : Fault)
  deriving DecidableEq

/-- The arm, its controller with the threads it has started, and the one caller. The clock is
that of time.monotonic, in seconds; the log is kept newest first. -/
structure State (config : ArmConfig) where
  backend : DmSerialBackend config := {}
  commands : List MitCommand
  running : Bool := false
  workerException : Option Fault := none
  worker : Option Nat := none
  threads : Nat → Worker := fun _ => .finished
  spawned : Nat := 0
  caller : Caller := .idle
  clock : ℚ := 0
  terminated : Bool := false
  log : List Event := []

/-- What happens next: a call, the next step of the caller or of a thread, or something from
outside. A step comes with what happens on the bus meanwhile. -/
inductive Action where
  | call (call : Call)
  | caller (script : List Slot) (threadAvailable : Bool)
  | worker (thread : Nat) (script : List Slot)
  | receive (arrival : Arrival)
  | tick (nanoseconds : Nat)

variable {config : ArmConfig}

def initialState (config : ArmConfig) : State config := { commands := initialCommands (canIds config) }

/-- Where the caller goes, and what is recorded on the way, newest first. -/
structure Exit where
  caller : Caller
  events : List Event := []

def Exit.proceed (call : Call) (pc : Pc) : Exit := ⟨.busy call pc, []⟩

def Exit.returned (call : Call) : Exit := ⟨.idle, [.returned call]⟩

def Exit.raised (call : Call) (fault : Fault) : Exit := ⟨.idle, [.raised call fault]⟩

namespace State

def exit (state : State config) (exit : Exit) : State config :=
  { state with caller := exit.caller, log := exit.events ++ state.log }

def record (state : State config) (event : Event) : State config :=
  { state with log := event :: state.log }

def setThread (state : State config) (thread : Nat) (worker : Worker) : State config :=
  { state with threads := Function.update state.threads thread worker }

/-- Go on after an operation of the backend, unless it has ended the process. -/
def resume {α : Type} (state : State config) (outcome : Except Fault α × DmSerialBackend config)
    (returned : State config → State config) (thrown : State config → Fault → State config) : State config :=
  let next := { state with backend := outcome.2 }
  match outcome.1 with
  | .ok _ => returned next
  | .error fault => if fault.fatal then { next with terminated := true } else thrown next fault

end State

def homeCommand : MitCommand := { kp := 12, kd := 0.6 }

def posTol : ℚ := 0.05

/-- The backend operation behind a call, if it is nothing else. -/
def Call.op : Call → Option Op
  | .enable => some .connect
  | .setZero canId persist => some (.setZero canId persist)
  | .setZeroAll persist => some (.setZeroAll persist)
  | _ => none

def Call.entry : Call → Pc
  | .enable => .operate
  | .disable => .guard
  | .states => .operate
  | .setZero _ _ => .operate
  | .setZeroAll _ => .operate
  | .startMitLoop _ _ => .startTest
  | .stopMitLoop => .guard
  | .mit commands => .assign (commands.map fun entry => .setCommand entry.1 entry.2)
  | .start _ => .startTest
  | .stop => .stopExchange
  | .update change => .assign [change]
  | .destroy => .stopExchange

def Call.hz : Call → Double
  | .startMitLoop hz _ => hz
  | .start hz => hz
  | _ => .finite 1000

def Call.zeroTimeout : Call → Double
  | .startMitLoop _ zeroTimeout => zeroTimeout
  | _ => .finite 5

/-- After start() has returned. -/
def startReturned (call : Call) : Exit :=
  match call with
  | .startMitLoop _ _ => .proceed call .readStates
  | _ => .returned call

/-- After Arm.stop_mit_loop() has nothing left to do. -/
def stopMitLoopReturned (call : Call) : Exit :=
  match call with
  | .disable => .proceed call .disconnect
  | _ => .returned call

/-- After stop() has returned. -/
def stopReturned (call : Call) : Exit :=
  match call with
  | .destroy => ⟨.busy call .release, [.stopped]⟩
  | _ => ⟨(stopMitLoopReturned call).caller, (stopMitLoopReturned call).events ++ [.stopped]⟩

/-- After the zero batch of stop() has thrown. Only the destructor catches it. -/
def stopThrew (call : Call) (fault : Fault) : Exit :=
  match call with
  | .destroy => ⟨.busy call .release, [.stopped]⟩
  | _ => ⟨.idle, [.raised call fault, .stopped]⟩

/-- Wait for the thread behind the handle, if there is one. -/
def join (state : State config) : Option (State config) :=
  match state.worker with
  | none => some state
  | some thread => if state.threads thread = .finished then some { state with worker := none } else none

/-- Replace the stored exception. One that was still stored is lost. -/
def setException (state : State config) (exception : Option Fault) : State config :=
  { state with
    workerException := exception
    log := (state.workerException.map Event.discarded).toList ++ state.log }

/-- The end of stop() when a worker loop has stored an exception. The destructor drops it. -/
def rethrow (state : State config) (call : Call) (fault : Fault) : State config :=
  match call with
  | .destroy => (setException state none).exit ⟨.busy call .release, [.stopped]⟩
  | _ => { state with workerException := none }.exit ⟨.idle, [.rethrown call fault, .stopped]⟩

/-- One step of the caller inside a call. -/
def pcStep (platform : Platform) (state : State config) (script : List Slot) (threadAvailable : Bool)
    (call : Call) : Pc → Option (State config)
  | .operate =>
      match call.op with
      | some op => some (state.resume (exec (op.perform platform) (state.backend.withScript script))
          (fun next => next.exit (.returned call)) fun next fault => next.exit (.raised call fault))
      | none =>
          match Backend.states state.backend with
          | .ok _ => some (state.exit (.returned call))
          | .error fault => some (state.exit (.raised call fault))
  | .assign [] => some (state.exit (.returned call))
  | .assign (update :: rest) =>
      match update.run (canIds config) state.commands with
      | .ok changed =>
          some ({ state with commands := changed }.exit ⟨.busy call (.assign rest), [.installed update]⟩)
      | .error fault => some (state.exit (.raised call fault))
  | .startTest =>
      if call.hz.le (.finite 0) then
        some (state.exit (.raised call (.invalidArgument "MIT loop frequency must be positive")))
      else if state.running then some (state.exit (startReturned call))
      else some (state.exit (.proceed call .startJoin))
  | .startJoin => (join state).map fun next => next.exit (.proceed call .startReset)
  | .startReset => some ((setException state none).exit (.proceed call .startFlag))
  | .startFlag => some ({ state with running := true }.exit ⟨.busy call .startSpawn, [.began]⟩)
  | .startSpawn =>
      if threadAvailable then
        if state.worker.isSome then some { state with terminated := true }
        else some ({ state.setThread state.spawned .test with
          worker := some state.spawned, spawned := state.spawned + 1 }.exit (startReturned call))
      else some (state.exit (.raised call .systemError))
  | .guard =>
      if state.running then some (state.exit (.proceed call .stopExchange))
      else some (state.exit (stopMitLoopReturned call))
  | .stopExchange => some ({ state with running := false }.exit (.proceed call (.stopJoin state.running)))
  | .stopJoin wasRunning =>
      (join state).map fun next => next.exit (.proceed call (if wasRunning then .stopZero else .stopRethrow))
  | .stopZero =>
      let outcome := exec (sendZeroMitAll platform) (state.backend.withScript script)
      let emitted := outcome.2.usb.sent.length - state.backend.usb.sent.length
      some ((state.record (.zeroBatch emitted)).resume outcome
        (fun next => next.exit (.proceed call .stopRethrow)) fun next fault => next.exit (stopThrew call fault))
  | .stopRethrow =>
      match state.workerException with
      | none => some (state.exit (stopReturned call))
      | some fault => some (rethrow state call fault)
  | .disconnect =>
      some (state.resume (exec (Backend.disconnect platform) (state.backend.withScript script))
        (fun next => next.exit (.returned call)) fun next fault => next.exit (.raised call fault))
  | .release =>
      if state.worker.isSome then some { state with terminated := true }
      else some ((setException state none).exit ⟨.destroyed, []⟩)
  | .readStates =>
      match Backend.states state.backend with
      | .ok entries => some (state.exit (.proceed call (.home entries.length)))
      | .error fault => some (state.exit (.raised call fault))
  | .home count =>
      let homing := List.replicate count homeCommand
      match CommandTable.setAllCommands state.commands homing with
      | .ok changed => some ({ state with commands := changed }.exit
          ⟨.busy call .deadline, [.installed (.setAllCommands homing)]⟩)
      | .error fault => some (state.exit (.raised call fault))
  | .deadline => some (state.exit (.proceed call (.poll ((Double.finite state.clock).add call.zeroTimeout))))
  | .poll deadline =>
      match Backend.states state.backend with
      | .ok entries =>
          if entries.all fun entry => |entry.position| < posTol then some (state.exit (.returned call))
          else some (state.exit (.proceed call (.late deadline)))
      | .error fault => some (state.exit (.raised call fault))
  | .late deadline =>
      if deadline.le (.finite state.clock) then some (state.exit (.returned call))
      else some (state.exit (.proceed call (.pause deadline)))
  | .pause deadline => some (state.exit (.proceed call (.poll deadline)))

/-- One step of a worker thread. -/
def workerStep (platform : Platform) (state : State config) (thread : Nat) (script : List Slot) :
    Worker → Option (State config)
  | .test => some (state.setThread thread (if state.running then .copy else .finished))
  | .copy => some ((state.setThread thread (.send state.commands)).record (.snapshot state.commands))
  | .send snapshot =>
      let outcome := exec (sendMitAll platform snapshot) (state.backend.withScript script)
      let emitted := outcome.2.usb.sent.length - state.backend.usb.sent.length
      some ((state.record (.batch snapshot emitted)).resume outcome
        (fun next => next.setThread thread .sleep) fun next fault => next.setThread thread (.store fault))
  | .sleep => some (state.setThread thread .test)
  | .store fault => some ((setException state (some fault)).setThread thread (.clear fault))
  | .clear fault =>
      some (({ state with running := false }.setThread thread .finished).record (.failed fault state.running))
  | .finished => none

def step (platform : Platform) (state : State config) (action : Action) : Option (State config) :=
  if state.terminated then none
  else
    match action with
    | .call call =>
        match state.caller with
        | .idle => some (state.exit ⟨.busy call call.entry, [.called call state.running]⟩)
        | _ => none
    | .caller script threadAvailable =>
        match state.caller with
        | .busy call pc => pcStep platform state script threadAvailable call pc
        | _ => none
    | .worker thread script => workerStep platform state thread script (state.threads thread)
    | .receive arrival =>
        (act platform state.backend (.receive arrival)).map fun backend => { state with backend }
    | .tick nanoseconds => some { state with clock := state.clock + nanoseconds / 10 ^ 9 }

def machine (platform : Platform) (config : ArmConfig) : Machine (State config) Action where
  initial state := state = initialState config
  step := step platform

/-- The caller on a quiet bus. -/
def quietly : Action := .caller [] true

/-- The worker thread number 0 on a quiet bus. -/
def loops : Action := .worker 0 []

/-- Enabling one joint, starting the loop, and sending one batch. -/
def oneBatch : List Action :=
  [.call .enable, quietly, .call (.start (.finite 1000)), quietly, quietly, quietly, quietly, quietly,
    loops, loops, loops]

end DmOpenarm.Session
