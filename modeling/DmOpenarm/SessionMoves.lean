import DmOpenarm.Library.Readings
import DmOpenarm.Session

/-! What one step of a session can do to the controller, said once, branch by branch. -/

namespace DmOpenarm.SessionMoves
open Types hiding ControlMode
open MotorBus Backend CommandTable Session Library.Effect Library.Readings Library.Runs Library.Ieee
open Operations hiding Action Move machine
variable {config : ArmConfig}

/-- Where a call can return without looking at the controller again. -/
def mayReturn : Pc → Bool
  | .operate => true
  | .assign _ => true
  | .disconnect => true
  | .poll _ => true
  | .late _ => true
  | _ => false

/-- Where a call can throw without touching the controller. -/
def mayRaise : Pc → Bool
  | .operate => true
  | .assign _ => true
  | .startTest => true
  | .startSpawn => true
  | .disconnect => true
  | .readStates => true
  | .home _ => true
  | .poll _ => true
  | _ => false

/-- Where start_mit_loop waits, once the loop has been started. -/
def waits : Pc → Bool
  | .readStates => true
  | .home _ => true
  | .deadline => true
  | .poll _ => true
  | .late _ => true
  | .pause _ => true
  | _ => false

/-- Steps of the caller that change nothing in the controller. -/
inductive Turn (state : State config) (call : Call) : Pc → Exit → Prop where
  | returned {pc : Pc} (free : mayReturn pc = true) : Turn state call pc (.returned call)
  | raised {pc : Pc} (fault : Fault) (free : mayRaise pc = true) : Turn state call pc (.raised call fault)
  | already (running : state.running = true) : Turn state call .startTest (startReturned call)
  | needed (halted : state.running = false) : Turn state call .startTest (.proceed call .startJoin)
  | guarded (running : state.running = true) : Turn state call .guard (.proceed call .stopExchange)
  | skipped (halted : state.running = false) : Turn state call .guard (stopMitLoopReturned call)
  | stopped (clean : state.workerException = none) : Turn state call .stopRethrow (stopReturned call)
  | waited {pc next : Pc} (before : waits pc = true) (after : waits next = true) :
      Turn state call pc (.proceed call next)

/-- Updates of the table, with where the caller goes afterwards. -/
inductive Install : Pc → Update → Pc → Prop where
  | assign (update : Update) (rest : List Update) : Install (.assign (update :: rest)) update (.assign rest)
  | home (count : Nat) : Install (.home count) (.setAllCommands (List.replicate count homeCommand)) .deadline

/-- Where a join leads. -/
inductive Joining : Pc → Pc → Prop where
  | start : Joining .startJoin .startReset
  | zero : Joining (.stopJoin true) .stopZero
  | plain : Joining (.stopJoin false) .stopRethrow

/-- Where stop() goes after its zero batch. -/
inductive Zeroed (call : Call) : Exit → Prop where
  | returned : Zeroed call (.proceed call .stopRethrow)
  | threw (fault : Fault) : Zeroed call (stopThrew call fault)

/-- Steps of a worker that touch nothing but the running flag. -/
inductive Looping (running : Bool) : Worker → Worker → Prop where
  | test : Looping running .test (if running then .copy else .finished)
  | wake : Looping running .sleep .test

theorem Looping.ne_send {running : Bool} {worker next : Worker} (looping : Looping running worker next)
    (snapshot : List MitCommand) : next ≠ .send snapshot := by
  cases looping with
  | test => cases running <;> exact Worker.noConfusion
  | wake => exact Worker.noConfusion

/-- Where a worker goes after a batch. -/
inductive Sent : Worker → Prop where
  | returned : Sent .sleep
  | threw (fault : Fault) : Sent (.store fault)

theorem Sent.ne_send {next : Worker} (sent : Sent next) (snapshot : List MitCommand) : next ≠ .send snapshot := by
  cases sent <;> exact Worker.noConfusion

/-- What becomes of the backend obeys its rules. -/
def Obeys (state : State config) (backend : DmSerialBackend config) : Prop :=
  Consistent state.backend → (serial config).Path state.backend backend

theorem Obeys.refl (state : State config) : Obeys state state.backend := fun _ => .refl

/-- The events that a call ends with. -/
def closing : Event → Bool
  | .returned _ => true
  | .raised _ _ => true
  | .stopped => true
  | _ => false

theorem closing_stopMitLoopReturned {call : Call} {event : Event} (member : event ∈ (stopMitLoopReturned call).events) :
    closing event = true := by
  cases call with
  | disable => cases member
  | _ => exact List.mem_singleton.mp member ▸ rfl

theorem closing_stopReturned {call : Call} {event : Event} (member : event ∈ (stopReturned call).events) :
    closing event = true := by
  cases call with
  | destroy => exact List.mem_singleton.mp member ▸ rfl
  | _ =>
    rcases List.mem_append.mp member with returned | stopped
    · exact closing_stopMitLoopReturned returned
    · exact List.mem_singleton.mp stopped ▸ rfl

theorem closing_stopThrew {call : Call} {fault : Fault} {event : Event} (member : event ∈ (stopThrew call fault).events) :
    closing event = true := by
  cases call with
  | destroy => exact List.mem_singleton.mp member ▸ rfl
  | _ =>
    rcases List.mem_cons.mp member with raised | stopped
    · exact raised ▸ rfl
    · exact List.mem_singleton.mp stopped ▸ rfl

theorem closing_startReturned {call : Call} {event : Event} (member : event ∈ (startReturned call).events) :
    closing event = true := by
  cases call with
  | startMitLoop hz zeroTimeout => cases member
  | _ => exact List.mem_singleton.mp member ▸ rfl

theorem Turn.closing {state : State config} {call : Call} {pc : Pc} {exit : Exit} (turn : Turn state call pc exit)
    {event : Event} (member : event ∈ exit.events) : closing event = true := by
  cases turn with
  | returned free => exact List.mem_singleton.mp member ▸ rfl
  | raised fault free => exact List.mem_singleton.mp member ▸ rfl
  | already running => exact closing_startReturned member
  | needed halted => cases member
  | guarded running => cases member
  | skipped halted => exact closing_stopMitLoopReturned member
  | stopped clean => exact closing_stopReturned member
  | waited before after => cases member

/-- The events of a call that ends, and those of a stored exception that is rethrown or dropped. -/
def ending : Event → Bool
  | .rethrown _ _ => true
  | .discarded _ => true
  | event => closing event

theorem ending_of_closing {event : Event} (closes : closing event = true) : ending event = true := by
  cases event with
  | rethrown | discarded => rfl
  | _ => exact closes

theorem Turn.grown {state : State config} {call : Call} {pc : Pc} {exit : Exit} (turn : Turn state call pc exit) :
    Grown ending state.log (exit.events ++ state.log) :=
  .append (fun _ member => ending_of_closing (turn.closing member)) state.log

theorem startReturned_grown (call : Call) (log : List Event) : Grown ending log ((startReturned call).events ++ log) :=
  .append (fun _ member => ending_of_closing (closing_startReturned member)) log

theorem stopThrew_grown (call : Call) (fault : Fault) (log : List Event) :
    Grown ending log ((stopThrew call fault).events ++ log) :=
  .append (fun _ member => ending_of_closing (closing_stopThrew member)) log

/-- Replacing the stored exception logs at most that it is lost. -/
theorem setException_grown {marked : Event → Bool} (lost : ∀ fault, marked (.discarded fault) = true)
    (state : State config) (exception : Option Fault) : Grown marked state.log (setException state exception).log := by
  unfold setException
  cases state.workerException with
  | none => exact .refl state.log
  | some fault => exact .one (lost fault) state.log

theorem rethrow_grown (state : State config) (call : Call) (fault : Fault) :
    Grown ending state.log (rethrow state call fault).log := by
  cases call with
  | destroy => exact (setException_grown (fun _ => rfl) state none).cons rfl
  | _ => exact (Grown.one rfl state.log).cons rfl

/-- Where a call goes on after start(). -/
theorem startReturned_next {call other : Call} {next : Pc} (place : (startReturned call).caller = .busy other next) :
    other = call ∧ next = .readStates := by
  cases call with
  | startMitLoop hz zeroTimeout =>
    cases place
    exact ⟨rfl, rfl⟩
  | _ => cases place

/-- Where a call goes on after stop_mit_loop(). -/
theorem stopMitLoopReturned_next {call other : Call} {next : Pc}
    (place : (stopMitLoopReturned call).caller = .busy other next) : other = call ∧ next = .disconnect := by
  cases call with
  | disable =>
    cases place
    exact ⟨rfl, rfl⟩
  | _ => cases place

/-- Where a call goes on after stop(). -/
theorem stopReturned_next {call other : Call} {next : Pc} (place : (stopReturned call).caller = .busy other next) :
    other = call ∧ (next = .disconnect ∨ next = .release) := by
  cases call with
  | disable =>
    cases place
    exact ⟨rfl, .inl rfl⟩
  | destroy =>
    cases place
    exact ⟨rfl, .inr rfl⟩
  | _ => cases place

theorem stopThrew_next {call other : Call} {fault : Fault} {next : Pc}
    (place : (stopThrew call fault).caller = .busy other next) : other = call ∧ next = .release := by
  cases call with
  | destroy =>
    cases place
    exact ⟨rfl, rfl⟩
  | _ => cases place

theorem rethrow_next {state : State config} {call other : Call} {fault : Fault} {next : Pc}
    (place : (rethrow state call fault).caller = .busy other next) : other = call ∧ next = .release := by
  cases call with
  | destroy =>
    cases place
    exact ⟨rfl, rfl⟩
  | _ => cases place

theorem rethrow_keeps (state : State config) (call : Call) (fault : Fault) :
    (rethrow state call fault).running = state.running ∧ (rethrow state call fault).worker = state.worker ∧
      (rethrow state call fault).threads = state.threads ∧
      (rethrow state call fault).commands = state.commands := by
  cases call <;> exact ⟨rfl, rfl, rfl, rfl⟩

theorem Zeroed.next {call other : Call} {exit : Exit} {next : Pc} (zeroed : Zeroed call exit)
    (place : exit.caller = .busy other next) : other = call ∧ (next = .stopRethrow ∨ next = .release) := by
  cases zeroed with
  | returned =>
    cases place
    exact ⟨rfl, .inl rfl⟩
  | threw fault =>
    obtain ⟨same, there⟩ := stopThrew_next place
    exact ⟨same, .inr there⟩

/-- Copies that are being sent are not touched by what the threads do next. -/
theorem sends_back {state : State config} {thread : Nat} {next : Worker} (loses : ∀ snapshot, next ≠ .send snapshot)
    (other : Nat) (snapshot : List MitCommand)
    (here : Function.update state.threads thread next other = .send snapshot) : state.threads other = .send snapshot := by
  by_cases same : other = thread
  · rw [same, Function.update_self] at here
    exact absurd here (loses snapshot)
  · rwa [Function.update_of_ne same] at here

/-- A step of the caller stays in its call. -/
theorem Turn.call_eq {state : State config} {call other : Call} {pc next : Pc} {exit : Exit}
    (turn : Turn state call pc exit) (place : exit.caller = .busy other next) : other = call := by
  cases turn with
  | returned free => cases place
  | raised fault free => cases place
  | already running => exact (startReturned_next place).1
  | skipped halted => exact (stopMitLoopReturned_next place).1
  | stopped clean => exact (stopReturned_next place).1
  | needed halted | guarded running | waited before after =>
    cases place
    rfl

inductive Move (state : State config) : Session.Action → State config → Prop where
  | ended {action : Session.Action} {after : State config} (dead : after.terminated = true)
      (log : after.log = state.log) : Move state action after
  | endedZero {action : Session.Action} {after : State config} {call : Call} (emitted : Nat)
      (dead : after.terminated = true) (busy : state.caller = .busy call .stopZero)
      (log : after.log = .zeroBatch emitted :: state.log) : Move state action after
  | endedSend {action : Session.Action} {after : State config} {thread : Nat} {snapshot : List MitCommand}
      (emitted : Nat) (dead : after.terminated = true) (here : state.threads thread = .send snapshot)
      (log : after.log = .batch snapshot emitted :: state.log) : Move state action after
  | called (call : Call) (idle : state.caller = .idle) :
      Move state (.call call) (state.exit ⟨.busy call call.entry, [.called call state.running]⟩)
  | turned {script : List Slot} {available : Bool} {call : Call} {pc : Pc} {exit : Exit}
      {backend : DmSerialBackend config} (obeys : Obeys state backend) (busy : state.caller = .busy call pc)
      (turn : Turn state call pc exit) :
      Move state (.caller script available) ({ state with backend }.exit exit)
  | installed {script : List Slot} {available : Bool} {call : Call} {pc next : Pc} {update : Update}
      {changed : List MitCommand} (busy : state.caller = .busy call pc) (install : Install pc update next)
      (ran : update.run (canIds config) state.commands = .ok changed) :
      Move state (.caller script available)
        ({ state with commands := changed }.exit ⟨.busy call next, [.installed update]⟩)
  | joined {script : List Slot} {available : Bool} {call : Call} {pc next : Pc}
      (busy : state.caller = .busy call pc) (joining : Joining pc next)
      (done : ∀ thread, state.worker = some thread → state.threads thread = .finished) :
      Move state (.caller script available) ({ state with worker := none }.exit (.proceed call next))
  | reset {script : List Slot} {available : Bool} {call : Call} (busy : state.caller = .busy call .startReset) :
      Move state (.caller script available) ((setException state none).exit (.proceed call .startFlag))
  | flagged {script : List Slot} {available : Bool} {call : Call} (busy : state.caller = .busy call .startFlag) :
      Move state (.caller script available)
        ({ state with running := true }.exit ⟨.busy call .startSpawn, [.began]⟩)
  | spawned {script : List Slot} {available : Bool} {call : Call} (busy : state.caller = .busy call .startSpawn)
      (free : state.worker = none) :
      Move state (.caller script available) ({ state.setThread state.spawned .test with
        worker := some state.spawned, spawned := state.spawned + 1 }.exit (startReturned call))
  | exchanged {script : List Slot} {available : Bool} {call : Call}
      (busy : state.caller = .busy call .stopExchange) :
      Move state (.caller script available)
        ({ state with running := false }.exit (.proceed call (.stopJoin state.running)))
  | zeroed {script : List Slot} {available : Bool} {call : Call} {exit : Exit} {backend : DmSerialBackend config}
      (obeys : Obeys state backend) (emitted : Nat) (busy : state.caller = .busy call .stopZero)
      (zeroed : Zeroed call exit) :
      Move state (.caller script available) ({ state.record (.zeroBatch emitted) with backend }.exit exit)
  | rethrown {script : List Slot} {available : Bool} {call : Call} {fault : Fault}
      (busy : state.caller = .busy call .stopRethrow) (held : state.workerException = some fault) :
      Move state (.caller script available) (rethrow state call fault)
  | released {script : List Slot} {available : Bool} {call : Call} (busy : state.caller = .busy call .release) :
      Move state (.caller script available) ((setException state none).exit ⟨.destroyed, []⟩)
  | looped {script : List Slot} {thread : Nat} {next : Worker}
      (looping : Looping state.running (state.threads thread) next) :
      Move state (.worker thread script) (state.setThread thread next)
  | copied {script : List Slot} {thread : Nat} (here : state.threads thread = .copy) :
      Move state (.worker thread script)
        ((state.setThread thread (.send state.commands)).record (.snapshot state.commands))
  | sent {script : List Slot} {thread : Nat} {snapshot : List MitCommand} {next : Worker}
      {backend : DmSerialBackend config} (obeys : Obeys state backend) (emitted : Nat)
      (here : state.threads thread = .send snapshot) (sent : Sent next) : Move state (.worker thread script)
        ({ state.record (.batch snapshot emitted) with backend }.setThread thread next)
  | stored {script : List Slot} {thread : Nat} {fault : Fault} (here : state.threads thread = .store fault) :
      Move state (.worker thread script) ((setException state (some fault)).setThread thread (.clear fault))
  | cleared {script : List Slot} {thread : Nat} {fault : Fault} (here : state.threads thread = .clear fault) :
      Move state (.worker thread script)
        (({ state with running := false }.setThread thread .finished).record (.failed fault state.running))
  | outside {action : Session.Action} {backend : DmSerialBackend config} (obeys : Obeys state backend) (clock : ℚ) :
      Move state action { state with backend, clock }

/-- An operation of the backend ends the process or leads on. -/
theorem resume_cases {α : Type} (state : State config) (outcome : Except Fault α × DmSerialBackend config)
    (returned : State config → State config) (thrown : State config → Fault → State config) :
    ((state.resume outcome returned thrown).terminated = true ∧
        (state.resume outcome returned thrown).log = state.log) ∨
      (∃ value, outcome.1 = .ok value ∧
        state.resume outcome returned thrown = returned { state with backend := outcome.2 }) ∨
      ∃ fault, outcome.1 = .error fault ∧
        state.resume outcome returned thrown = thrown { state with backend := outcome.2 } fault := by
  unfold State.resume
  rcases outcome with ⟨fault | value, backend⟩
  · by_cases fatal : fault.fatal = true
    · left
      simp only [if_pos fatal, and_self]
    · right
      right
      simp only [if_neg fatal]
      exact ⟨fault, rfl, rfl⟩
  · right
    left
    exact ⟨value, rfl, rfl⟩

/-- An operation that does not end the process, with how it ended. -/
theorem resume_alive {α : Type} {state : State config} {outcome : Except Fault α × DmSerialBackend config}
    {returned : State config → State config} {thrown : State config → Fault → State config}
    (alive : (state.resume outcome returned thrown).terminated = false) :
    (∃ value, outcome.1 = .ok value ∧
        state.resume outcome returned thrown = returned { state with backend := outcome.2 }) ∨
      ∃ fault, outcome.1 = .error fault ∧
        state.resume outcome returned thrown = thrown { state with backend := outcome.2 } fault := by
  rcases resume_cases state outcome returned thrown with ⟨dead, _⟩ | went
  · cases dead.symm.trans alive
  · exact went

theorem join_eq_some {state next : State config} (joined : join state = some next) :
    next = { state with worker := none } ∧
      ∀ thread, state.worker = some thread → state.threads thread = .finished := by
  unfold join at joined
  cases handle : state.worker with
  | none =>
    rw [handle] at joined
    cases joined
    constructor
    · rw [← handle]
    · intro thread same
      cases same
  | some thread =>
    rw [handle] at joined
    by_cases done : state.threads thread = .finished
    · simp only [if_pos done] at joined
      cases joined
      refine ⟨rfl, ?_⟩
      intro other same
      cases same
      exact done
    · simp only [if_neg done] at joined
      cases joined

/-- An operation of the backend that touches nothing else returns, throws or ends the process. -/
theorem resume_turn {α : Type} {state : State config} {action : Session.Action} {script : List Slot}
    {available : Bool} {call : Call} {pc : Pc} (same : action = .caller script available)
    (busy : state.caller = .busy call pc) (returns : mayReturn pc = true) (raises : mayRaise pc = true)
    {outcome : Except Fault α × DmSerialBackend config} (obeys : Obeys state outcome.2) :
    Move state action (state.resume outcome (fun next => next.exit (.returned call))
      fun next fault => next.exit (.raised call fault)) := by
  subst same
  rcases resume_cases state outcome (fun next => next.exit (.returned call))
    fun next fault => next.exit (.raised call fault) with ⟨dead, log⟩ | ⟨_, _, went⟩ | ⟨fault, _, went⟩
  · exact .ended dead log
  · rw [went]
    exact .turned obeys busy (.returned returns)
  · rw [went]
    exact .turned obeys busy (.raised fault raises)

theorem pcStep_move {platform : Platform} {state after : State config} {script : List Slot} {available : Bool}
    {call : Call} {pc : Pc} (busy : state.caller = .busy call pc)
    (moved : pcStep platform state script available call pc = some after) :
    Move state (.caller script available) after := by
  cases pc with
  | operate =>
    cases operation : call.op with
    | some op =>
      simp only [pcStep, operation, Option.some.injEq] at moved
      exact moved ▸ resume_turn rfl busy rfl rfl (perform_path platform op script)
    | none =>
      simp only [pcStep, operation] at moved
      cases read : Backend.states state.backend with
      | ok entries =>
        simp only [read, Option.some.injEq] at moved
        exact moved ▸ .turned (.refl state) busy (.returned rfl)
      | error fault =>
        simp only [read, Option.some.injEq] at moved
        exact moved ▸ .turned (.refl state) busy (.raised fault rfl)
  | assign updates =>
    cases updates with
    | nil =>
      simp only [pcStep, Option.some.injEq] at moved
      exact moved ▸ .turned (.refl state) busy (.returned rfl)
    | cons update rest =>
      cases ran : update.run (canIds config) state.commands with
      | ok changed =>
        simp only [pcStep, ran, Option.some.injEq] at moved
        exact moved ▸ .installed busy (.assign update rest) ran
      | error fault =>
        simp only [pcStep, ran, Option.some.injEq] at moved
        exact moved ▸ .turned (.refl state) busy (.raised fault rfl)
  | startTest =>
    by_cases wrong : call.hz.le (.finite 0) = true
    · simp only [pcStep, if_pos wrong, Option.some.injEq] at moved
      exact moved ▸ .turned (.refl state) busy (.raised _ rfl)
    · cases running : state.running with
      | true =>
        simp only [pcStep, if_neg wrong, if_pos running, Option.some.injEq] at moved
        exact moved ▸ .turned (.refl state) busy (.already running)
      | false =>
        simp only [pcStep, if_neg wrong, running, Bool.false_eq_true, ↓reduceIte, Option.some.injEq] at moved
        exact moved ▸ .turned (.refl state) busy (.needed running)
  | startJoin =>
    obtain ⟨next, joined, same⟩ := Option.map_eq_some_iff.mp moved
    obtain ⟨rfl, done⟩ := join_eq_some joined
    exact same ▸ .joined busy .start done
  | startReset =>
    simp only [pcStep, Option.some.injEq] at moved
    exact moved ▸ .reset busy
  | startFlag =>
    simp only [pcStep, Option.some.injEq] at moved
    exact moved ▸ .flagged busy
  | startSpawn =>
    cases available with
    | true =>
      cases handle : state.worker with
      | some thread =>
        simp only [pcStep, handle, ↓reduceIte, Option.isSome_some, Option.some.injEq] at moved
        exact moved ▸ .ended rfl rfl
      | none =>
        simp only [pcStep, handle, ↓reduceIte, Option.isSome_none, Bool.false_eq_true, Option.some.injEq] at moved
        exact moved ▸ .spawned busy handle
    | false =>
      simp only [pcStep, Bool.false_eq_true, ↓reduceIte, Option.some.injEq] at moved
      exact moved ▸ .turned (.refl state) busy (.raised _ rfl)
  | guard =>
    cases running : state.running with
    | true =>
      simp only [pcStep, if_pos running, Option.some.injEq] at moved
      exact moved ▸ .turned (.refl state) busy (.guarded running)
    | false =>
      simp only [pcStep, running, Bool.false_eq_true, ↓reduceIte, Option.some.injEq] at moved
      exact moved ▸ .turned (.refl state) busy (.skipped running)
  | stopExchange =>
    simp only [pcStep, Option.some.injEq] at moved
    exact moved ▸ .exchanged busy
  | stopJoin wasRunning =>
    obtain ⟨next, joined, same⟩ := Option.map_eq_some_iff.mp moved
    obtain ⟨rfl, done⟩ := join_eq_some joined
    cases wasRunning with
    | true => exact same ▸ .joined busy .zero done
    | false => exact same ▸ .joined busy .plain done
  | stopZero =>
    simp only [pcStep, Option.some.injEq] at moved
    subst moved
    rcases resume_cases (state.record (.zeroBatch
        ((exec (sendZeroMitAll platform) (state.backend.withScript script)).2.usb.sent.length -
          state.backend.usb.sent.length)))
      (exec (sendZeroMitAll platform) (state.backend.withScript script))
      (fun next => next.exit (.proceed call .stopRethrow)) (fun next fault => next.exit (stopThrew call fault))
      with ⟨dead, log⟩ | ⟨_, _, went⟩ | ⟨fault, _, went⟩
    · exact .endedZero _ dead busy log
    · rw [went]
      exact .zeroed (perform_path platform .sendZeroMitAll script) _ busy .returned
    · rw [went]
      exact .zeroed (perform_path platform .sendZeroMitAll script) _ busy (.threw fault)
  | stopRethrow =>
    cases held : state.workerException with
    | none =>
      simp only [pcStep, held, Option.some.injEq] at moved
      exact moved ▸ .turned (.refl state) busy (.stopped held)
    | some fault =>
      simp only [pcStep, held, Option.some.injEq] at moved
      exact moved ▸ .rethrown busy held
  | disconnect =>
    simp only [pcStep, Option.some.injEq] at moved
    exact moved ▸ resume_turn rfl busy rfl rfl (perform_path platform .disconnect script)
  | release =>
    cases handle : state.worker with
    | some thread =>
      simp only [pcStep, handle, Option.isSome_some, ↓reduceIte, Option.some.injEq] at moved
      exact moved ▸ .ended rfl rfl
    | none =>
      simp only [pcStep, handle, Option.isSome_none, Bool.false_eq_true, ↓reduceIte, Option.some.injEq] at moved
      exact moved ▸ .released busy
  | readStates =>
    cases read : Backend.states state.backend with
    | ok entries =>
      simp only [pcStep, read, Option.some.injEq] at moved
      exact moved ▸ .turned (.refl state) busy (.waited rfl rfl)
    | error fault =>
      simp only [pcStep, read, Option.some.injEq] at moved
      exact moved ▸ .turned (.refl state) busy (.raised fault rfl)
  | home count =>
    cases ran : setAllCommands state.commands (List.replicate count homeCommand) with
    | ok changed =>
      simp only [pcStep, ran, Option.some.injEq] at moved
      exact moved ▸ .installed busy (.home count) ran
    | error fault =>
      simp only [pcStep, ran, Option.some.injEq] at moved
      exact moved ▸ .turned (.refl state) busy (.raised fault rfl)
  | deadline =>
    simp only [pcStep, Option.some.injEq] at moved
    exact moved ▸ .turned (.refl state) busy (.waited rfl rfl)
  | poll deadline =>
    cases read : Backend.states state.backend with
    | ok entries =>
      simp only [pcStep, read] at moved
      by_cases near : (entries.all fun entry => |entry.position| < posTol) = true
      · simp only [if_pos near, Option.some.injEq] at moved
        exact moved ▸ .turned (.refl state) busy (.returned rfl)
      · simp only [if_neg near, Option.some.injEq] at moved
        exact moved ▸ .turned (.refl state) busy (.waited rfl rfl)
    | error fault =>
      simp only [pcStep, read, Option.some.injEq] at moved
      exact moved ▸ .turned (.refl state) busy (.raised fault rfl)
  | late deadline =>
    by_cases passed : deadline.le (.finite state.clock) = true
    · simp only [pcStep, if_pos passed, Option.some.injEq] at moved
      exact moved ▸ .turned (.refl state) busy (.returned rfl)
    · simp only [pcStep, if_neg passed, Option.some.injEq] at moved
      exact moved ▸ .turned (.refl state) busy (.waited rfl rfl)
  | pause deadline =>
    simp only [pcStep, Option.some.injEq] at moved
    exact moved ▸ .turned (.refl state) busy (.waited rfl rfl)

theorem workerStep_move {platform : Platform} {state after : State config} {thread : Nat} {script : List Slot}
    {worker : Worker} (here : state.threads thread = worker)
    (moved : workerStep platform state thread script worker = some after) :
    Move state (.worker thread script) after := by
  cases worker with
  | test =>
    simp only [workerStep, Option.some.injEq] at moved
    exact moved ▸ .looped (here ▸ .test)
  | copy =>
    simp only [workerStep, Option.some.injEq] at moved
    exact moved ▸ .copied here
  | send snapshot =>
    simp only [workerStep, Option.some.injEq] at moved
    subst moved
    rcases resume_cases (state.record (.batch snapshot
        ((exec (sendMitAll platform snapshot) (state.backend.withScript script)).2.usb.sent.length
          - state.backend.usb.sent.length)))
      (exec (sendMitAll platform snapshot) (state.backend.withScript script))
      (fun next => next.setThread thread .sleep) (fun next fault => next.setThread thread (.store fault))
      with ⟨dead, log⟩ | ⟨_, _, went⟩ | ⟨fault, _, went⟩
    · exact .endedSend _ dead here log
    · rw [went]
      exact .sent (perform_path platform (.sendMitAll snapshot) script) _ here .returned
    · rw [went]
      exact .sent (perform_path platform (.sendMitAll snapshot) script) _ here (.threw fault)
  | sleep =>
    simp only [workerStep, Option.some.injEq] at moved
    exact moved ▸ .looped (here ▸ .wake)
  | store fault =>
    simp only [workerStep, Option.some.injEq] at moved
    exact moved ▸ .stored here
  | clear fault =>
    simp only [workerStep, Option.some.injEq] at moved
    exact moved ▸ .cleared here
  | finished => cases moved

theorem step_alive {platform : Platform} {state after : State config} {action : Session.Action}
    (moved : step platform state action = some after) : state.terminated = false := by
  by_contra dead
  rw [Bool.not_eq_false] at dead
  simp only [step, if_pos dead, reduceCtorEq] at moved

section Step
variable {platform : Platform} {state after : State config} {script : List Slot} {available : Bool}
variable {call : Call} {pc : Pc}

theorem step_call (alive : state.terminated = false) (idle : state.caller = .idle) (call : Call) :
    step platform state (.call call) = some (state.exit ⟨.busy call call.entry, [.called call state.running]⟩) := by
  rw [step.eq_def, if_neg (Bool.eq_false_iff.mp alive)]
  simp only [idle]

theorem step_busy (alive : state.terminated = false) (busy : state.caller = .busy call pc) :
    step platform state (.caller script available) = pcStep platform state script available call pc := by
  rw [step.eq_def, if_neg (Bool.eq_false_iff.mp alive)]
  simp only [busy]

theorem step_called (moved : step platform state (.call call) = some after) :
    state.caller = .idle ∧ state.exit ⟨.busy call call.entry, [.called call state.running]⟩ = after := by
  have alive := Bool.eq_false_iff.mp (step_alive moved)
  rw [step.eq_def, if_neg alive] at moved
  cases place : state.caller with
  | idle =>
    simp only [place, Option.some.injEq] at moved
    exact ⟨rfl, moved⟩
  | busy other pc => simp only [place, reduceCtorEq] at moved
  | destroyed => simp only [place, reduceCtorEq] at moved

theorem step_caller (busy : state.caller = .busy call pc)
    (moved : step platform state (.caller script available) = some after) :
    pcStep platform state script available call pc = some after := by
  rw [← step_busy (step_alive moved) busy]
  exact moved

/-- The caller has a step to take only inside a call. -/
theorem step_inside (moved : step platform state (.caller script available) = some after) :
    ∃ call pc, state.caller = .busy call pc ∧ pcStep platform state script available call pc = some after := by
  have alive := Bool.eq_false_iff.mp (step_alive moved)
  cases place : state.caller with
  | busy call pc => exact ⟨call, pc, rfl, step_caller place moved⟩
  | idle =>
    rw [step.eq_def, if_neg alive] at moved
    simp only [place, reduceCtorEq] at moved
  | destroyed =>
    rw [step.eq_def, if_neg alive] at moved
    simp only [place, reduceCtorEq] at moved

theorem step_worker {thread : Nat} (moved : step platform state (.worker thread script) = some after) :
    workerStep platform state thread script (state.threads thread) = some after := by
  have alive := Bool.eq_false_iff.mp (step_alive moved)
  rw [step.eq_def, if_neg alive] at moved
  exact moved

theorem step_receive {arrival : Arrival} (moved : step platform state (.receive arrival) = some after) :
    ∃ backend, act platform state.backend (.receive arrival) = some backend ∧ { state with backend } = after := by
  have alive := Bool.eq_false_iff.mp (step_alive moved)
  rw [step.eq_def, if_neg alive] at moved
  exact Option.map_eq_some_iff.mp moved

theorem step_tick {nanoseconds : Nat} (moved : step platform state (.tick nanoseconds) = some after) :
    { state with clock := state.clock + nanoseconds / 10 ^ 9 } = after := by
  have alive := Bool.eq_false_iff.mp (step_alive moved)
  rw [step.eq_def, if_neg alive] at moved
  exact Option.some.inj moved

/-- Every step is one of the moves. -/
theorem step_move {action : Session.Action} (moved : step platform state action = some after) :
    Move state action after := by
  cases action with
  | call call =>
    obtain ⟨idle, same⟩ := step_called moved
    exact same ▸ .called call idle
  | caller script available =>
    obtain ⟨call, pc, busy, stepped⟩ := step_inside moved
    exact pcStep_move busy stepped
  | worker thread script => exact workerStep_move rfl (step_worker moved)
  | receive arrival =>
    obtain ⟨backend, received, same⟩ := step_receive moved
    exact same ▸ .outside (fun built => act_path built received) state.clock
  | tick nanoseconds => exact step_tick moved ▸ .outside (.refl state) _

end Step

/-- Where a call returns. -/
inductive Returns (state : State config) (call : Call) : Pc → Prop where
  | free {pc : Pc} (free : mayReturn pc = true) : Returns state call pc
  | already (running : state.running = true) (direct : ∀ hz zeroTimeout, call ≠ .startMitLoop hz zeroTimeout) :
      Returns state call .startTest
  | spawned (direct : ∀ hz zeroTimeout, call ≠ .startMitLoop hz zeroTimeout) : Returns state call .startSpawn
  | skipped (halted : state.running = false) : Returns state call .guard
  | stopped (clean : state.workerException = none) : Returns state call .stopRethrow

/-- Where a stored exception is dropped, in favour of another one or of none. -/
inductive Drops (state : State config) : Session.Action → Prop where
  | restart {script : List Slot} {available : Bool} {call : Call} (busy : state.caller = .busy call .startReset) :
      Drops state (.caller script available)
  | destroy {script : List Slot} {available : Bool} (busy : state.caller = .busy .destroy .stopRethrow) :
      Drops state (.caller script available)
  | release {script : List Slot} {available : Bool} {call : Call} (busy : state.caller = .busy call .release) :
      Drops state (.caller script available)
  | worker {script : List Slot} {thread : Nat} {fault : Fault} (here : state.threads thread = .store fault) :
      Drops state (.worker thread script)

/-- Events that any step may log. -/
def plain : Event → Bool
  | .called _ _ => true
  | .raised _ _ => true
  | .installed _ => true
  | .began => true
  | .failed _ _ => true
  | _ => false

/-- What a step logs, and on top of what. -/
inductive Logs (state : State config) : Session.Action → Event → List Event → Prop where
  | plain {action : Session.Action} {event : Event} {earlier : List Event} (free : plain event = true) :
      Logs state action event earlier
  | returned {script : List Slot} {available : Bool} {call : Call} {pc : Pc} {earlier : List Event}
      (busy : state.caller = .busy call pc) (returns : Returns state call pc)
      (top : earlier = state.log ∨ earlier = .stopped :: state.log) :
      Logs state (.caller script available) (.returned call) earlier
  | rethrown {script : List Slot} {available : Bool} {call : Call} {fault : Fault}
      (busy : state.caller = .busy call .stopRethrow) (held : state.workerException = some fault) :
      Logs state (.caller script available) (.rethrown call fault) (.stopped :: state.log)
  | stopped {script : List Slot} {available : Bool} {call : Call} {earlier : List Event}
      (busy : state.caller = .busy call .stopRethrow)
      (top : earlier = state.log ∨ ∃ fault, earlier = .discarded fault :: state.log) :
      Logs state (.caller script available) .stopped earlier
  | zeroBatch {action : Session.Action} {call : Call} (emitted : Nat) (busy : state.caller = .busy call .stopZero) :
      Logs state action (.zeroBatch emitted) state.log
  | zeroed {script : List Slot} {available : Bool} {call : Call} (emitted : Nat)
      (busy : state.caller = .busy call .stopZero) :
      Logs state (.caller script available) .stopped (.zeroBatch emitted :: state.log)
  | discarded {action : Session.Action} {fault : Fault} (held : state.workerException = some fault)
      (drops : Drops state action) : Logs state action (.discarded fault) state.log
  | snapshot {script : List Slot} {thread : Nat} (here : state.threads thread = .copy) :
      Logs state (.worker thread script) (.snapshot state.commands) state.log
  | batch {action : Session.Action} {thread : Nat} {snapshot : List MitCommand} (emitted : Nat)
      (here : state.threads thread = .send snapshot) : Logs state action (.batch snapshot emitted) state.log

section Logs
variable {holds : Event → List Event → Prop}

theorem setException_logs {state : State config} {action : Session.Action} (exception : Option Fault)
    (drops : Drops state action)
    (each : ∀ event earlier, Logs state action event earlier → holds event earlier)
    (before : Throughout holds state.log) : Throughout holds (setException state exception).log := by
  unfold setException
  cases held : state.workerException with
  | none => exact before
  | some fault => exact ⟨each _ _ (.discarded held drops), before⟩

theorem Turn.logs {state : State config} {script : List Slot} {available : Bool} {call : Call} {pc : Pc} {exit : Exit}
    (busy : state.caller = .busy call pc) (turn : Turn state call pc exit)
    (each : ∀ event earlier, Logs state (.caller script available) event earlier → holds event earlier)
    (before : Throughout holds state.log) : Throughout holds (exit.events ++ state.log) := by
  cases turn with
  | returned free => exact ⟨each _ _ (.returned busy (.free free) (.inl rfl)), before⟩
  | raised fault free => exact ⟨each _ _ (.plain rfl), before⟩
  | already running =>
    cases call with
    | startMitLoop hz zeroTimeout => exact before
    | _ => exact ⟨each _ _ (.returned busy (.already running fun _ _ => Call.noConfusion) (.inl rfl)), before⟩
  | needed halted => exact before
  | guarded running => exact before
  | skipped halted =>
    cases call with
    | disable => exact before
    | _ => exact ⟨each _ _ (.returned busy (.skipped halted) (.inl rfl)), before⟩
  | stopped clean =>
    have stops : holds .stopped state.log := each _ _ (.stopped busy (.inl rfl))
    cases call with
    | disable => exact ⟨stops, before⟩
    | destroy => exact ⟨stops, before⟩
    | _ => exact ⟨each _ _ (.returned busy (.stopped clean) (.inr rfl)), stops, before⟩
  | waited here there => exact before

/-- What holds of every event a step can log holds throughout the log. -/
theorem Move.logs {state after : State config} {action : Session.Action} (move : Move state action after)
    (each : ∀ event earlier, Logs state action event earlier → holds event earlier)
    (before : Throughout holds state.log) : Throughout holds after.log := by
  cases move with
  | ended dead log =>
    rw [log]
    exact before
  | endedZero emitted dead busy log =>
    rw [log]
    exact ⟨each _ _ (.zeroBatch emitted busy), before⟩
  | endedSend emitted dead here log =>
    rw [log]
    exact ⟨each _ _ (.batch emitted here), before⟩
  | called call idle => exact ⟨each _ _ (.plain rfl), before⟩
  | @turned _ _ _ _ exit _ obeys busy turn =>
    change Throughout holds (exit.events ++ state.log)
    exact Turn.logs busy turn each before
  | installed busy install ran => exact ⟨each _ _ (.plain rfl), before⟩
  | joined busy joining done => exact before
  | reset busy => exact setException_logs none (.restart busy) each before
  | flagged busy => exact ⟨each _ _ (.plain rfl), before⟩
  | @spawned _ _ call busy free =>
    cases call with
    | startMitLoop hz zeroTimeout => exact before
    | _ => exact ⟨each _ _ (.returned busy (.spawned fun _ _ => Call.noConfusion) (.inl rfl)), before⟩
  | exchanged busy => exact before
  | @zeroed _ _ call _ _ obeys emitted busy zeroed =>
    have tried : Throughout holds (.zeroBatch emitted :: state.log) := ⟨each _ _ (.zeroBatch emitted busy), before⟩
    cases zeroed with
    | returned => exact tried
    | threw fault =>
      have stops : holds .stopped (.zeroBatch emitted :: state.log) := each _ _ (.zeroed emitted busy)
      cases call with
      | destroy => exact ⟨stops, tried⟩
      | _ => exact ⟨each _ _ (.plain rfl), stops, tried⟩
  | @rethrown _ _ call fault busy held =>
    cases call with
    | destroy =>
      have dropped := setException_logs none (.destroy busy) each before
      refine ⟨each _ _ (.stopped busy (.inr ⟨fault, ?_⟩)), dropped⟩
      rw [setException, held]
      rfl
    | _ => exact ⟨each _ _ (.rethrown busy held), each _ _ (.stopped busy (.inl rfl)), before⟩
  | released busy => exact setException_logs none (.release busy) each before
  | looped looping => exact before
  | copied here => exact ⟨each _ _ (.snapshot here), before⟩
  | sent obeys emitted here sent => exact ⟨each _ _ (.batch emitted here), before⟩
  | @stored _ _ fault here => exact setException_logs (some fault) (.worker here) each before
  | cleared here => exact ⟨each _ _ (.plain rfl), before⟩
  | outside obeys clock => exact before

/-- The one event that a step has logged is one that it can log. -/
theorem Move.top {state after : State config} {action : Session.Action} (move : Move state action after)
    {event : Event} (log : after.log = event :: state.log) : Logs state action event state.log := by
  have added := move.logs (fun event earlier logs (_ : state.log.length ≤ earlier.length) => logs)
    (throughout_of_short (fun event earlier => Logs state action event earlier) le_rfl)
  rw [log] at added
  exact added.1 le_rfl

/-- An invariant that every step keeps while the process lives, and what it makes of the log. -/
theorem reach_steps {platform : Platform} {allowed : State config → Session.Action → Prop}
    {inv : State config → Prop} (base : inv (initialState config))
    (kept : ∀ state action after, allowed state action → after.terminated = false →
      step platform state action = some after → inv state → inv after)
    (logged : ∀ state action event earlier, allowed state action → inv state → Logs state action event earlier →
      holds event earlier)
    {state : State config} (reached : Reach (machine platform config) allowed state) :
    Throughout holds state.log ∧ (state.terminated = false → inv state) := by
  induction reached with
  | start begins =>
    cases begins
    exact ⟨trivial, fun _ => base⟩
  | next _ permitted moved ih =>
    have before := ih.2 (step_alive moved)
    exact ⟨(step_move moved).logs (fun event earlier => logged _ _ event earlier permitted before) ih.1,
      fun alive => kept _ _ _ permitted alive moved before⟩

/-- An invariant that every move keeps while the process lives, and what it makes of the log. -/
theorem reach_logs {platform : Platform} {allowed : State config → Session.Action → Prop}
    {inv : State config → Prop} (base : inv (initialState config))
    (kept : ∀ state action after, allowed state action → after.terminated = false → Move state action after →
      inv state → inv after)
    (logged : ∀ state action event earlier, allowed state action → inv state → Logs state action event earlier →
      holds event earlier)
    {state : State config} (reached : Reach (machine platform config) allowed state) :
    Throughout holds state.log ∧ (state.terminated = false → inv state) :=
  reach_steps base (fun _ _ _ permitted alive moved => kept _ _ _ permitted alive (step_move moved)) logged reached

end Logs

theorem reach_moves {platform : Platform} {allowed : State config → Session.Action → Prop}
    {inv : State config → Prop} (base : inv (initialState config))
    (kept : ∀ state action after, allowed state action → after.terminated = false → Move state action after →
      inv state → inv after)
    {state : State config} (reached : Reach (machine platform config) allowed state)
    (alive : state.terminated = false) : inv state := by
  have both : Throughout (fun _ _ => True) state.log ∧ (state.terminated = false → inv state) :=
    reach_logs base kept (fun _ _ _ _ _ _ _ => trivial) reached
  exact both.2 alive

theorem Move.obeys {state after : State config} {action : Session.Action} (move : Move state action after)
    (alive : after.terminated = false) : Obeys state after.backend := by
  cases move with
  | ended dead log => cases dead.symm.trans alive
  | endedZero emitted dead busy log => cases dead.symm.trans alive
  | endedSend emitted dead here log => cases dead.symm.trans alive
  | turned obeys busy turn => exact obeys
  | zeroed obeys emitted busy zeroed => exact obeys
  | sent obeys emitted here sent => exact obeys
  | outside obeys clock => exact obeys
  | @rethrown _ _ call fault busy held => cases call <;> exact .refl state
  | _ => exact .refl state

theorem consistent_of_reach {platform : Platform} {allowed : State config → Session.Action → Prop}
    {state : State config} (reached : Reach (machine platform config) allowed state)
    (alive : state.terminated = false) : Consistent state.backend := by
  let inv (state : State config) : Prop := Consistent state.backend
  have base : inv (initialState config) := by
    intro control same
    cases same
  have kept : ∀ before action after, allowed before action → after.terminated = false → Move before action after →
      inv before → inv after :=
    fun _ _ _ _ still move built => (serial config).inv_path (move.obeys still built) built
  exact reach_moves base kept reached alive

end DmOpenarm.SessionMoves
