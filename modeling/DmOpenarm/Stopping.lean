import DmOpenarm.Faults
import DmOpenarm.Lifecycle
import DmOpenarm.SessionWrites
import DmOpenarm.YamlLoader

/-! What start() and stop() make sure of: one worker at a time, no handle that is overwritten or
destroyed while a thread hangs on it, and silence from the end of stop() to the next start(). -/

namespace DmOpenarm.Stopping
open Types hiding ControlMode
open MotorBus Backend Session SessionMoves SessionLog SessionWrites Lifecycle Faults YamlLoader
open Operations hiding Action Move machine
open Library.Effect Library.Readings Library.Runs
variable {config : ArmConfig}

/-- Whether an event starts or stops the loop. -/
def turns : Event → Option Bool
  | .began => some true
  | .stopped => some false
  | _ => none

/-- The loop has been started since stop() was last completed. -/
def started (log : List Event) : Bool := (log.findSome? turns).getD false

theorem started_passes (event : Event) (still : (turns event).isNone = true) : Passes started event := by
  intro earlier
  rw [started, List.findSome?_cons, Option.isNone_iff_eq_none.mp still]
  rfl

structure Begun (state : State config) : Prop where
  running : state.running = true → started state.log = true
  stopping : ¬Settled state.caller → started state.log = true

/-- A loop that runs or is being stopped has been started. -/
theorem Begun.live {state : State config} (begun : Begun state) (live : Live state) : started state.log = true := by
  rcases live with running | ⟨call, waiting⟩
  · exact begun.running running
  · exact begun.stopping fun settled => (settled call).1 waiting

/-- A step that starts and stops nothing. -/
theorem Begun.quiet {state after : State config} (begun : Begun state) (same : started after.log = started state.log)
    (running : after.running = true → state.running = true)
    (stopping : ¬Settled after.caller → ¬Settled state.caller ∨ state.running = true) : Begun after where
  running told := by
    rw [same]
    exact begun.running (running told)
  stopping unsettled := by
    rw [same]
    rcases stopping unsettled with before | told
    · exact begun.stopping before
    · exact begun.running told

/-- A step after which the loop is neither running nor being stopped. -/
theorem Begun.halted {after : State config} (halted : after.running = false) (settled : Settled after.caller) :
    Begun after where
  running told := by
    rw [halted] at told
    cases told
  stopping unsettled := absurd settled unsettled

theorem started_setException (state : State config) (exception : Option Fault) :
    started (setException state exception).log = started state.log :=
  (setException_grown (fun _ => rfl) state exception).read started_passes

theorem started_startReturned (call : Call) (log : List Event) :
    started ((startReturned call).events ++ log) = started log := by
  cases call <;> rfl

theorem started_stopMitLoopReturned (call : Call) (log : List Event) :
    started ((stopMitLoopReturned call).events ++ log) = started log := by
  cases call <;> rfl

theorem Begun.turned {state : State config} (begun : Begun state) (ordered : Ordered state) {call : Call} {pc : Pc}
    {exit : Exit} {backend : DmSerialBackend config} (busy : state.caller = .busy call pc)
    (turn : Turn state call pc exit) : Begun ({ state with backend }.exit exit) := by
  have settled := (Turn.settled turn).2
  have quiet (same : started (exit.events ++ state.log) = started state.log) :
      Begun ({ state with backend }.exit exit) :=
    begun.quiet same id fun unsettled => absurd settled unsettled
  cases turn with
  | returned free | raised fault free => exact quiet rfl
  | needed halted | guarded running | waited before after => exact quiet rfl
  | already running => exact quiet (started_startReturned call state.log)
  | skipped halted => exact quiet (started_stopMitLoopReturned call state.log)
  | stopped clean => exact .halted (ordered.placed _ _ busy).1 settled

theorem Begun.move {state after : State config} {action : Session.Action} (begun : Begun state)
    (ordered : Ordered state) (alive : after.terminated = false) (move : Move state action after) : Begun after := by
  cases move with
  | ended dead log => cases dead.symm.trans alive
  | endedZero emitted dead busy log => cases dead.symm.trans alive
  | endedSend emitted dead here log => cases dead.symm.trans alive
  | called call idle =>
    refine begun.quiet rfl id fun unsettled => absurd ?_ unsettled
    cases call <;> exact .of_pc Pc.noConfusion Pc.noConfusion
  | turned obeys busy turn => exact begun.turned ordered busy turn
  | installed busy install ran =>
    refine begun.quiet rfl id fun unsettled => absurd ?_ unsettled
    cases install <;> exact .of_pc Pc.noConfusion Pc.noConfusion
  | joined busy joining done =>
    refine begun.quiet rfl id fun unsettled => ?_
    cases joining with
    | start => exact absurd (.of_pc Pc.noConfusion Pc.noConfusion) unsettled
    | zero =>
      left
      intro settled
      exact (settled _).1 busy
    | plain => exact absurd (.of_pc Pc.noConfusion Pc.noConfusion) unsettled
  | reset busy =>
    exact begun.quiet (started_setException state none) id
      fun unsettled => absurd (.of_pc Pc.noConfusion Pc.noConfusion) unsettled
  | flagged busy => exact ⟨fun _ => rfl, fun _ => rfl⟩
  | @spawned _ _ call busy free =>
    exact begun.quiet (started_startReturned call state.log) id
      fun unsettled => absurd (settled_startReturned call) unsettled
  | exchanged busy =>
    refine begun.quiet rfl (fun told => by cases told) fun unsettled => ?_
    right
    by_contra halted
    rw [Bool.not_eq_true] at halted
    apply unsettled
    rw [halted]
    exact .of_pc (by simp) Pc.noConfusion
  | @zeroed _ _ call _ _ obeys emitted busy zeroed =>
    refine .halted (ordered.placed _ _ busy).1 ?_
    cases zeroed with
    | returned => exact .of_pc Pc.noConfusion Pc.noConfusion
    | threw fault => exact settled_stopThrew call fault
  | @rethrown _ _ call fault busy held =>
    refine .halted ?_ (settled_rethrow state call fault)
    rw [(rethrow_keeps state call fault).1]
    exact (ordered.placed _ _ busy).1
  | released busy =>
    refine .halted (ordered.placed _ _ busy).1 fun call => ?_
    exact ⟨Caller.noConfusion, Caller.noConfusion⟩
  | looped looping => exact begun.quiet rfl id .inl
  | copied here => exact begun.quiet rfl id .inl
  | sent obeys emitted here sent => exact begun.quiet rfl id .inl
  | @stored _ _ fault here => exact begun.quiet (started_setException state (some fault)) id .inl
  | cleared here => exact begun.quiet rfl (fun told => by cases told) .inl
  | outside obeys clock => exact begun.quiet rfl id .inl

theorem Begun.initial : Begun (initialState config) := .halted rfl .idle

/-- An operation that throws nothing fatal lets the process go on. -/
theorem resume_goes_on {α : Type} {state : State config} {outcome : Except Fault α × DmSerialBackend config}
    {returned : State config → State config} {thrown : State config → Fault → State config}
    (mild : ∀ fault, outcome.1 = .error fault → Mild fault)
    (returns : (returned { state with backend := outcome.2 }).terminated = false)
    (throws : ∀ fault, (thrown { state with backend := outcome.2 } fault).terminated = false) :
    (state.resume outcome returned thrown).terminated = false := by
  unfold State.resume
  rcases outcome with ⟨fault | value, backend⟩
  · have goes : ¬fault.fatal = true := by
      rw [show fault.fatal = false from mild fault rfl]
      exact Bool.false_ne_true
    simp only [if_neg goes]
    exact throws fault
  · exact returns

theorem op_of_call {call : Call} {op : Op} (operation : call.op = some op) : op ≠ .disconnect := by
  intro same
  subst same
  cases call <;> cases operation

/-- The caller releases Motor_Control only in Arm.disable(). -/
theorem pcStep_alive {platform : Platform} {state after : State config} {script : List Slot} {available : Bool}
    {call : Call} {pc : Pc} (alive : state.terminated = false) (busy : state.caller = .busy call pc)
    (ordered : Ordered state) (built : Consistent state.backend) (releases : pc ≠ .disconnect)
    (moved : pcStep platform state script available call pc = some after) : after.terminated = false := by
  have placed := ordered.placed call pc busy
  have performed {op : Op} (other : op ≠ .disconnect) (fault : Fault)
      (thrown : (exec (op.perform platform) (state.backend.withScript script)).1 = .error fault) : Mild fault :=
    perform_throws platform other (state.backend.withScript script) built fault thrown
  cases pc with
  | operate =>
    cases operation : call.op with
    | some op =>
      simp only [pcStep, operation, Option.some.injEq] at moved
      subst moved
      exact resume_goes_on (performed (op_of_call operation)) alive fun _ => alive
    | none =>
      simp only [pcStep, operation] at moved
      cases read : Backend.states state.backend <;> (rw [read] at moved; cases moved; exact alive)
  | startSpawn =>
    simp only [pcStep, placed.2, Option.isSome_none, Bool.false_eq_true, ↓reduceIte] at moved
    split_ifs at moved <;> (cases moved; exact alive)
  | stopZero =>
    simp only [pcStep, Option.some.injEq] at moved
    subst moved
    have sends : Op.sendZeroMitAll ≠ .disconnect := Op.noConfusion
    refine resume_goes_on (performed sends) alive fun fault => ?_
    cases call <;> exact alive
  | disconnect => exact absurd rfl releases
  | release =>
    simp only [pcStep, placed.2, Option.isSome_none, Bool.false_eq_true, ↓reduceIte, Option.some.injEq] at moved
    subst moved
    exact alive
  | assign updates =>
    cases updates with
    | nil =>
      cases moved
      exact alive
    | cons update rest =>
      cases ran : update.run (CommandTable.canIds config) state.commands <;>
        (simp only [pcStep, ran, Option.some.injEq] at moved; exact moved ▸ alive)
  | startTest =>
    simp only [pcStep] at moved
    split_ifs at moved <;> (cases moved; exact alive)
  | startJoin | stopJoin wasRunning =>
    obtain ⟨next, joined, same⟩ := Option.map_eq_some_iff.mp moved
    obtain ⟨rfl, _⟩ := join_eq_some joined
    exact same ▸ alive
  | guard =>
    simp only [pcStep] at moved
    split_ifs at moved <;> (cases moved; exact alive)
  | stopRethrow =>
    cases held : state.workerException with
    | none =>
      simp only [pcStep, held, Option.some.injEq] at moved
      exact moved ▸ alive
    | some fault =>
      simp only [pcStep, held, Option.some.injEq] at moved
      subst moved
      cases call <;> exact alive
  | readStates =>
    cases read : Backend.states state.backend <;>
      (simp only [pcStep, read, Option.some.injEq] at moved; exact moved ▸ alive)
  | home count =>
    cases ran : CommandTable.setAllCommands state.commands (List.replicate count homeCommand) <;>
      (simp only [pcStep, ran, Option.some.injEq] at moved; exact moved ▸ alive)
  | poll deadline =>
    cases read : Backend.states state.backend with
    | ok entries =>
      simp only [pcStep, read] at moved
      split_ifs at moved <;> (cases moved; exact alive)
    | error fault =>
      simp only [pcStep, read, Option.some.injEq] at moved
      exact moved ▸ alive
  | late deadline =>
    simp only [pcStep] at moved
    split_ifs at moved <;> (cases moved; exact alive)
  | startReset | startFlag | stopExchange | deadline | pause deadline =>
    cases moved
    exact alive

theorem step_goes_on {platform : Platform} {state after : State config} {action : Session.Action}
    (ordered : Ordered state) (built : Consistent state.backend)
    (releases : ∀ call, state.caller ≠ .busy call .disconnect) (moved : step platform state action = some after) :
    after.terminated = false := by
  have alive := step_alive moved
  cases action with
  | call call =>
    obtain ⟨_, same⟩ := step_called moved
    exact same ▸ alive
  | caller script available =>
    obtain ⟨call, pc, busy, stepped⟩ := step_inside moved
    exact pcStep_alive alive busy ordered built (fun same => releases call (same ▸ busy)) stepped
  | worker thread script =>
    have stepped := step_worker moved
    cases here : state.threads thread with
    | send snapshot =>
      rw [here] at stepped
      simp only [workerStep, Option.some.injEq] at stepped
      subst stepped
      refine resume_goes_on (fun fault thrown => ?_) alive fun _ => alive
      have sends : Op.sendMitAll snapshot ≠ .disconnect := Op.noConfusion
      exact perform_throws platform sends (state.backend.withScript script) built fault thrown
    | finished =>
      rw [here] at stepped
      cases stepped
    | _ =>
      rw [here] at stepped
      cases stepped
      exact alive
  | receive arrival =>
    obtain ⟨backend, _, same⟩ := step_receive moved
    exact same ▸ alive
  | tick nanoseconds => exact step_tick moved ▸ alive

/-- Any call but Arm.disable(), which releases Motor_Control. -/
def keeps : Session.Action → Bool
  | .call .disable => false
  | _ => true

/-- Every batch, of the worker or of stop() itself, belongs to a loop that has been started since
stop() was last completed. -/
def Timely : Event → List Event → Prop
  | .batch _ _, earlier => started earlier = true
  | .zeroBatch _, earlier => started earlier = true
  | _, _ => True

structure Sound (state : State config) : Prop where
  alive : state.terminated = false
  ordered : Ordered state
  begun : Begun state
  inside : Inside state.caller
  built : Consistent state.backend
  keeps : ∀ pc, state.caller ≠ .busy .disable pc

theorem Sound.initial : Sound (initialState config) where
  alive := rfl
  ordered := .initial
  begun := .initial
  inside := .idle
  built control same := by cases same
  keeps pc busy := by cases busy

theorem Sound.step {platform : Platform} {state after : State config} {action : Session.Action} (sound : Sound state)
    (allowed : Stopping.keeps action = true) (moved : Session.step platform state action = some after) :
    Sound after := by
  have releases : ∀ call, state.caller ≠ .busy call .disconnect := by
    intro call busy
    have member := sound.inside call _ busy
    cases call with
    | disable => exact sound.keeps _ busy
    | _ => simp [stage, stages] at member
  have alive := step_goes_on sound.ordered sound.built releases moved
  have move := step_move moved
  refine ⟨alive, sound.ordered.move alive move, sound.begun.move sound.ordered alive move, sound.inside.move alive move,
    (serial config).inv_path (move.obeys alive sound.built) sound.built, ?_⟩
  intro pc busy
  rcases (writes_of_move alive move).stays busy with called | ⟨before, place⟩
  · subst called
    cases allowed
  · exact sound.keeps before place

theorem Sound.live {state : State config} (sound : Sound state) {thread : Nat}
    (active : state.threads thread ≠ .finished) : started state.log = true :=
  sound.begun.live (sound.ordered.live thread active)

/-- What a step logs is logged in time. -/
theorem Sound.logs {state : State config} (sound : Sound state) {action : Session.Action} {event : Event}
    {earlier : List Event} (logs : Logs state action event earlier) : Timely event earlier := by
  cases logs with
  | plain free =>
    cases event with
    | called | raised | installed | began | failed => exact trivial
    | _ => cases free
  | zeroBatch emitted busy => exact sound.begun.stopping fun settled => (settled _).2 busy
  | batch emitted here => exact sound.live (by rw [here]; exact Worker.noConfusion)
  | _ => exact trivial

/-- Whatever is called, sent and thrown, there is at most one worker; its handle is empty wherever
it is assigned to or destroyed, so that the process goes on; and from the end of stop() to the next
start() no worker is alive and no batch goes out. -/
theorem controller_is_sound {platform : Platform} {state : State config}
    (reached : Reach (machine platform config) (fun _ action => keeps action = true) state) :
    state.terminated = false ∧
      (∀ call, state.caller = .busy call .startSpawn ∨ state.caller = .busy call .release → state.worker = none) ∧
      (∀ thread other, state.threads thread ≠ .finished → state.threads other ≠ .finished → other = thread) ∧
      (started state.log = false → ∀ thread, state.threads thread = .finished) ∧
      Throughout Timely state.log := by
  have both : Sound state ∧ Throughout Timely state.log := by
    induction reached with
    | start begins =>
      cases begins
      exact ⟨.initial, trivial⟩
    | next _ allowed moved ih =>
      have logged := (step_move moved).logs (fun _ _ logs => ih.1.logs logs) ih.2
      exact ⟨ih.1.step allowed moved, logged⟩
  obtain ⟨sound, timely⟩ := both
  refine ⟨sound.alive, ?_, ?_, ?_, timely⟩
  · intro call given
    rcases given with busy | busy
    · exact (sound.ordered.placed call _ busy).2
    · exact (sound.ordered.placed call _ busy).2
  · intro thread other active alive
    by_contra different
    exact alive (sound.ordered.alone active different)
  · intro halted thread
    by_contra active
    rw [sound.live active] at halted
    cases halted

/-- A loop whose second send throws is started again on the finished thread, and stopped. -/
theorem restarted_controller : ∃ state : State (joints [(1, 0x11)]),
    (state.spawned = 2 ∧ state.log.head? = some (.returned .stop)) ∧ started state.log = false ∧
      ∀ thread, state.threads thread = .finished := by
  have ran : ((machine Platform.wrapping (joints [(1, 0x11)])).run (fun _ action => keeps action)
      (oneBatch ++ [loops, loops, loops, .worker 0 [{ throws := true }], loops, loops,
        .call (.start (.finite 1000)), quietly, quietly, quietly, quietly, quietly, .worker 1 [], .worker 1 [],
        .call .stop, quietly, .worker 1 [], .worker 1 [], .worker 1 [], quietly, quietly, quietly])
      (initialState (joints [(1, 0x11)]))).map (fun state =>
        decide ((state.spawned = 2 ∧ state.log.head? = some (.returned .stop)) ∧ started state.log = false)) =
      some true := by decide +kernel
  obtain ⟨state, reached, top, halted⟩ := Machine.reach_checked rfl ran
  exact ⟨state, top, halted, (controller_is_sound reached).2.2.2.1 halted⟩

end DmOpenarm.Stopping
