import DmOpenarm.SessionMoves

/-! Which thread runs, and when. A worker that has not finished is the one behind the handle, and
it was told to run, or stop() has just told it to end and waits for it. -/

namespace DmOpenarm.Lifecycle
open Types hiding ControlMode
open Session SessionMoves Library.Runs
variable {config : ArmConfig}

/-- The loop has been told to run, or stop() has just told it to end and waits for it. -/
def Live (state : State config) : Prop :=
  state.running = true ∨ ∃ call, state.caller = .busy call (.stopJoin true)

/-- What the caller has made sure of where it stands. -/
def Expected (running : Bool) (worker : Option Nat) : Pc → Prop
  | .startJoin => running = false
  | .startReset => running = false ∧ worker = none
  | .startFlag => running = false ∧ worker = none
  | .startSpawn => running = true ∧ worker = none
  | .stopJoin _ => running = false
  | .stopZero => running = false ∧ worker = none
  | .stopRethrow => running = false ∧ worker = none
  | .disconnect => running = false
  | .release => running = false ∧ worker = none
  | _ => True

structure Ordered (state : State config) : Prop where
  owned : ∀ thread, state.threads thread ≠ .finished → state.worker = some thread
  live : ∀ thread, state.threads thread ≠ .finished → Live state
  placed : ∀ call pc, state.caller = .busy call pc → Expected state.running state.worker pc

theorem Live.running {state : State config} (live : Live state)
    (elsewhere : ∀ call, state.caller ≠ .busy call (.stopJoin true)) : state.running = true := by
  rcases live with running | ⟨call, waiting⟩
  · exact running
  · exact absurd waiting (elsewhere call)

/-- Once the handle is empty, every thread has finished. -/
theorem Ordered.finished_of_joined {state : State config} (ordered : Ordered state) (joined : state.worker = none)
    (thread : Nat) : state.threads thread = .finished := by
  by_contra active
  have owner := ordered.owned thread active
  rw [joined] at owner
  cases owner

theorem Ordered.finished_of_not_live {state : State config} (ordered : Ordered state) (dead : ¬Live state)
    (thread : Nat) : state.threads thread = .finished := by
  by_contra active
  exact dead (ordered.live thread active)

/-- At most one thread is active. -/
theorem Ordered.alone {state : State config} (ordered : Ordered state) {thread other : Nat}
    (active : state.threads thread ≠ .finished) (different : other ≠ thread) : state.threads other = .finished := by
  by_contra alive
  exact different (Option.some.inj ((ordered.owned other alive).symm.trans (ordered.owned thread active)))

theorem Ordered.finished_after {state : State config} (ordered : Ordered state) {thread : Nat}
    (active : state.threads thread ≠ .finished) (other : Nat) :
    Function.update state.threads thread .finished other = .finished := by
  by_cases same : other = thread
  · rw [same, Function.update_self]
  · rw [Function.update_of_ne same]
    exact ordered.alone active same

theorem Turn.ne_stopJoin {state : State config} {call : Call} {pc : Pc} {exit : Exit} {wasRunning : Bool}
    (turn : Turn state call pc exit) : pc ≠ .stopJoin wasRunning := by
  intro same
  subst same
  cases turn with
  | returned free => cases free
  | raised fault free => cases free
  | waited before after => cases before

theorem Turn.expected {state : State config} {call : Call} {pc : Pc} {exit : Exit} (turn : Turn state call pc exit)
    (before : Expected state.running state.worker pc) {other : Call} {next : Pc}
    (busy : exit.caller = .busy other next) : Expected state.running state.worker next := by
  cases turn with
  | returned free => cases busy
  | raised fault free => cases busy
  | already running =>
    rw [(startReturned_next busy).2]
    exact trivial
  | needed halted =>
    cases busy
    exact halted
  | guarded running =>
    cases busy
    exact trivial
  | skipped halted =>
    rw [(stopMitLoopReturned_next busy).2]
    exact halted
  | stopped clean =>
    rcases (stopReturned_next busy).2 with rfl | rfl
    · exact before.1
    · exact before
  | waited here there =>
    cases busy
    cases next with
    | readStates | home _ | deadline | poll _ | late _ | pause _ => exact trivial
    | _ => cases there

theorem Live.mono {state after : State config} (live : Live state) {call : Call} {pc : Pc}
    (busy : state.caller = .busy call pc) (elsewhere : pc ≠ .stopJoin true) (running : after.running = state.running) :
    Live after := by
  left
  rw [running]
  apply live.running
  intro other waiting
  rw [busy] at waiting
  cases waiting
  exact elsewhere rfl

/-- A step of the caller that changes neither the flag nor the threads. -/
theorem Ordered.moveCaller {state after : State config} (ordered : Ordered state) {call : Call} {pc : Pc}
    (busy : state.caller = .busy call pc) (elsewhere : pc ≠ .stopJoin true)
    (running : after.running = state.running) (worker : after.worker = state.worker)
    (threads : after.threads = state.threads)
    (placed : ∀ other next, after.caller = .busy other next → Expected state.running state.worker next) :
    Ordered after where
  owned thread active := by
    rw [threads] at active
    rw [worker]
    exact ordered.owned thread active
  live thread active := by
    rw [threads] at active
    exact (ordered.live thread active).mono busy elsewhere running
  placed other next place := by
    rw [running, worker]
    exact placed other next place

/-- A step of the caller once its join has returned, so that no thread is active. -/
theorem Ordered.moveJoined {after : State config} (finished : ∀ thread, after.threads thread = .finished)
    (placed : ∀ call pc, after.caller = .busy call pc → Expected after.running after.worker pc) : Ordered after where
  owned thread active := absurd (finished thread) active
  live thread active := absurd (finished thread) active
  placed := placed

/-- A step of a worker that leaves the flag alone. -/
theorem Ordered.moveThread {state after : State config} (ordered : Ordered state) {thread : Nat} {next : Worker}
    (active : state.threads thread ≠ .finished) (running : after.running = state.running)
    (worker : after.worker = state.worker) (caller : after.caller = state.caller)
    (threads : after.threads = Function.update state.threads thread next) : Ordered after where
  owned other alive := by
    rw [worker]
    by_cases same : other = thread
    · exact same ▸ ordered.owned thread active
    · rw [threads, Function.update_of_ne same] at alive
      exact ordered.owned other alive
  live other alive := by
    rcases ordered.live thread active with told | ⟨call, waiting⟩
    · left
      rw [running]
      exact told
    · right
      rw [caller]
      exact ⟨call, waiting⟩
  placed call pc place := by
    rw [caller] at place
    rw [running, worker]
    exact ordered.placed call pc place

/-- A worker whose loop has thrown clears the flag and finishes. -/
theorem Ordered.cleared {state : State config} (ordered : Ordered state) {thread : Nat} {fault : Fault}
    (here : state.threads thread = .clear fault) :
    Ordered (({ state with running := false }.setThread thread .finished).record (.failed fault state.running)) := by
  have active : state.threads thread ≠ .finished := by
    rw [here]
    exact Worker.noConfusion
  have owner := ordered.owned thread active
  refine Ordered.moveJoined (ordered.finished_after active) ?_
  intro call pc busy
  have before := ordered.placed call pc busy
  change Expected false state.worker pc
  rw [owner] at before ⊢
  cases pc with
  | startJoin | stopJoin wasRunning | disconnect => rfl
  | startReset | startFlag | startSpawn | stopZero | stopRethrow | release => cases before.2
  | _ => exact trivial

theorem Ordered.move {state after : State config} {action : Session.Action} (ordered : Ordered state)
    (alive : after.terminated = false) (move : Move state action after) : Ordered after := by
  cases move with
  | ended dead log => cases dead.symm.trans alive
  | endedZero emitted dead busy log => cases dead.symm.trans alive
  | endedSend emitted dead here log => cases dead.symm.trans alive
  | called call idle =>
    refine ⟨ordered.owned, ?_, ?_⟩
    · intro thread active
      left
      apply (ordered.live thread active).running
      intro other waiting
      rw [idle] at waiting
      cases waiting
    · intro other pc busy
      cases busy
      cases call <;> exact trivial
  | turned obeys busy turn =>
    refine ordered.moveCaller busy (Turn.ne_stopJoin turn) rfl rfl rfl ?_
    intro other next place
    exact Turn.expected turn (ordered.placed _ _ busy) place
  | installed busy install ran =>
    refine ordered.moveCaller busy ?_ rfl rfl rfl ?_
    · intro same
      subst same
      cases install
    · intro other next place
      cases install <;> (cases place; exact trivial)
  | joined busy joining done =>
    have halted := ordered.placed _ _ busy
    refine Ordered.moveJoined ?_ ?_
    · intro thread
      by_contra active
      exact active (done thread (ordered.owned thread active))
    · intro other next place
      cases joining with
      | start =>
        cases place
        exact ⟨halted, rfl⟩
      | zero =>
        cases place
        exact ⟨halted, rfl⟩
      | plain =>
        cases place
        exact ⟨halted, rfl⟩
  | reset busy =>
    have joined := ordered.placed _ _ busy
    refine ordered.moveCaller busy Pc.noConfusion rfl rfl rfl ?_
    intro other next place
    cases place
    exact joined
  | flagged busy =>
    have joined := (ordered.placed _ _ busy).2
    refine Ordered.moveJoined (ordered.finished_of_joined joined) ?_
    intro other next place
    cases place
    exact ⟨rfl, joined⟩
  | @spawned _ _ call busy free =>
    refine ⟨?_, ?_, ?_⟩
    · intro thread active
      by_cases same : thread = state.spawned
      · rw [same]
        rfl
      · change Function.update state.threads state.spawned .test thread ≠ .finished at active
        rw [Function.update_of_ne same] at active
        exact absurd (ordered.finished_of_joined free thread) active
    · intro thread active
      left
      exact (ordered.placed _ _ busy).1
    · intro other next place
      rw [(startReturned_next place).2]
      exact trivial
  | exchanged busy =>
    refine ⟨ordered.owned, ?_, ?_⟩
    · intro thread active
      have told := (ordered.live thread active).running (fun other waiting => by rw [busy] at waiting; cases waiting)
      right
      rw [told]
      exact ⟨_, rfl⟩
    · intro other next place
      cases place
      exact rfl
  | zeroed obeys emitted busy zeroed =>
    have joined := ordered.placed _ _ busy
    refine ordered.moveCaller busy Pc.noConfusion rfl rfl rfl ?_
    intro other next place
    rcases (zeroed.next place).2 with rfl | rfl
    · exact joined
    · exact joined
  | @rethrown _ _ call fault busy held =>
    have joined := ordered.placed _ _ busy
    obtain ⟨running, worker, threads, _⟩ := rethrow_keeps state call fault
    refine ordered.moveCaller busy Pc.noConfusion running worker threads ?_
    intro other next place
    rw [(rethrow_next place).2]
    exact joined
  | released busy =>
    refine ordered.moveCaller busy Pc.noConfusion rfl rfl rfl ?_
    intro other next place
    cases place
  | @looped _ thread next looping =>
    have active : state.threads thread ≠ .finished := by
      intro finished
      rw [finished] at looping
      cases looping
    exact ordered.moveThread active rfl rfl rfl rfl
  | copied here => exact ordered.moveThread (by rw [here]; exact Worker.noConfusion) rfl rfl rfl rfl
  | sent obeys emitted here sent => exact ordered.moveThread (by rw [here]; exact Worker.noConfusion) rfl rfl rfl rfl
  | stored here => exact ordered.moveThread (by rw [here]; exact Worker.noConfusion) rfl rfl rfl rfl
  | cleared here => exact ordered.cleared here
  | outside obeys clock => exact ⟨ordered.owned, ordered.live, ordered.placed⟩

theorem Ordered.initial : Ordered (initialState config) := by
  refine ⟨?_, ?_, ?_⟩
  · intro thread active
    exact absurd rfl active
  · intro thread active
    exact absurd rfl active
  · intro call pc busy
    cases busy

theorem ordered_of_reach {platform : MotorBus.Platform} {allowed : State config → Session.Action → Prop}
    {state : State config} (reached : Reach (machine platform config) allowed state)
    (alive : state.terminated = false) : Ordered state :=
  reach_moves .initial (fun _ _ _ _ still move ordered => ordered.move still move) reached alive

/-- The caller is not about to send the zero batch of stop(). -/
def Settled (caller : Caller) : Prop :=
  ∀ call, caller ≠ .busy call (.stopJoin true) ∧ caller ≠ .busy call .stopZero

theorem Settled.of_pc {call : Call} {pc : Pc} (join : pc ≠ .stopJoin true) (zero : pc ≠ .stopZero) :
    Settled (.busy call pc) := by
  intro other
  constructor
  · intro given
    obtain ⟨_, rfl⟩ := given
    exact join rfl
  · intro given
    obtain ⟨_, rfl⟩ := given
    exact zero rfl

theorem Settled.idle : Settled .idle := fun _ => ⟨Caller.noConfusion, Caller.noConfusion⟩

theorem settled_startReturned (call : Call) : Settled (startReturned call).caller := by
  cases call with
  | startMitLoop hz zeroTimeout => exact .of_pc Pc.noConfusion Pc.noConfusion
  | _ => exact .idle

theorem settled_stopMitLoopReturned (call : Call) : Settled (stopMitLoopReturned call).caller := by
  cases call with
  | disable => exact .of_pc Pc.noConfusion Pc.noConfusion
  | _ => exact .idle

theorem settled_stopReturned (call : Call) : Settled (stopReturned call).caller := by
  cases call with
  | destroy => exact .of_pc Pc.noConfusion Pc.noConfusion
  | disable => exact settled_stopMitLoopReturned .disable
  | _ => exact .idle

theorem settled_stopThrew (call : Call) (fault : Fault) : Settled (stopThrew call fault).caller := by
  cases call with
  | destroy => exact .of_pc Pc.noConfusion Pc.noConfusion
  | _ => exact .idle

theorem settled_rethrow (state : State config) (call : Call) (fault : Fault) :
    Settled (rethrow state call fault).caller := by
  cases call with
  | destroy => exact .of_pc Pc.noConfusion Pc.noConfusion
  | _ => exact .idle

theorem settled_waits {call : Call} {pc : Pc} (waiting : waits pc = true) : Settled (.busy call pc) := by
  apply Settled.of_pc
  · intro same
    subst same
    cases waiting
  · intro same
    subst same
    cases waiting

theorem Turn.settled {state : State config} {call : Call} {pc : Pc} {exit : Exit} (turn : Turn state call pc exit) :
    Settled (.busy call pc) ∧ Settled exit.caller := by
  constructor
  · apply Settled.of_pc (Turn.ne_stopJoin turn)
    intro same
    subst same
    cases turn with
    | returned free => cases free
    | raised fault free => cases free
    | waited before after => cases before
  · cases turn with
    | returned free => exact .idle
    | raised fault free => exact .idle
    | already running => exact settled_startReturned call
    | needed halted => exact .of_pc Pc.noConfusion Pc.noConfusion
    | guarded running => exact .of_pc Pc.noConfusion Pc.noConfusion
    | skipped halted => exact settled_stopMitLoopReturned call
    | stopped clean => exact settled_stopReturned call
    | waited before after => exact settled_waits after

theorem Settled.live_iff {state : State config} (settled : Settled state.caller) :
    Live state ↔ state.running = true := by
  constructor
  · intro live
    exact live.running fun call => (settled call).1
  · exact .inl

/-- The parts that calls are made of. -/
inductive Stage where
  | operate
  | assign
  | start
  | guard
  | stop
  | disconnect
  | release
  | wait
  deriving DecidableEq

def stage : Pc → Stage
  | .operate => .operate
  | .assign _ => .assign
  | .startTest => .start
  | .startJoin => .start
  | .startReset => .start
  | .startFlag => .start
  | .startSpawn => .start
  | .guard => .guard
  | .stopExchange => .stop
  | .stopJoin _ => .stop
  | .stopZero => .stop
  | .stopRethrow => .stop
  | .disconnect => .disconnect
  | .release => .release
  | _ => .wait

def stages : Call → List Stage
  | .disable => [.guard, .stop, .disconnect]
  | .startMitLoop _ _ => [.start, .wait]
  | .stopMitLoop => [.guard, .stop]
  | .mit _ => [.assign]
  | .start _ => [.start]
  | .stop => [.stop]
  | .update _ => [.assign]
  | .destroy => [.stop, .release]
  | _ => [.operate]

/-- The caller is in one of the parts of its call. -/
def Inside (caller : Caller) : Prop := ∀ call pc, caller = .busy call pc → stage pc ∈ stages call

theorem Inside.idle : Inside .idle := by
  intro call pc busy
  cases busy

theorem Inside.busy {call : Call} {pc : Pc} (member : stage pc ∈ stages call) : Inside (.busy call pc) := by
  intro other next same
  cases same
  exact member

theorem stage_of_waits {pc : Pc} (waiting : waits pc = true) : stage pc = .wait := by
  cases pc with
  | readStates | home _ | deadline | poll _ | late _ | pause _ => rfl
  | _ => cases waiting

theorem inside_startReturned (call : Call) : Inside (startReturned call).caller := by
  cases call with
  | startMitLoop hz zeroTimeout => exact .busy (by simp [stage, stages])
  | _ => exact .idle

theorem inside_stopMitLoopReturned (call : Call) : Inside (stopMitLoopReturned call).caller := by
  cases call with
  | disable => exact .busy (by decide)
  | _ => exact .idle

theorem inside_stopReturned (call : Call) : Inside (stopReturned call).caller := by
  cases call with
  | disable => exact .busy (by decide)
  | destroy => exact .busy (by decide)
  | _ => exact .idle

theorem inside_stopThrew (call : Call) (fault : Fault) : Inside (stopThrew call fault).caller := by
  cases call with
  | destroy => exact .busy (by decide)
  | _ => exact .idle

theorem inside_rethrow (state : State config) (call : Call) (fault : Fault) :
    Inside (rethrow state call fault).caller := by
  cases call with
  | destroy => exact .busy (by decide)
  | _ => exact .idle

/-- Whatever guards stop() with the running flag calls it. -/
theorem stops_of_guards {call : Call} (guards : Stage.guard ∈ stages call) : Stage.stop ∈ stages call := by
  cases call with
  | disable | stopMitLoop => decide
  | _ => simp [stages] at guards

theorem Inside.turn {state : State config} {call : Call} {pc : Pc} {exit : Exit}
    (member : stage pc ∈ stages call) (turn : Turn state call pc exit) : Inside exit.caller := by
  cases turn with
  | returned free => exact .idle
  | raised fault free => exact .idle
  | already running => exact inside_startReturned call
  | needed halted => exact .busy member
  | guarded running => exact .busy (stops_of_guards member)
  | skipped halted => exact inside_stopMitLoopReturned call
  | stopped clean => exact inside_stopReturned call
  | waited here there =>
    apply Inside.busy
    rw [stage_of_waits there, ← stage_of_waits here]
    exact member

theorem Inside.move {state after : State config} {action : Session.Action} (inside : Inside state.caller)
    (alive : after.terminated = false) (move : Move state action after) : Inside after.caller := by
  cases move with
  | ended dead log => cases dead.symm.trans alive
  | endedZero emitted dead busy log => cases dead.symm.trans alive
  | endedSend emitted dead here log => cases dead.symm.trans alive
  | called call idle => cases call <;> exact .busy (by simp [stage, stages, Call.entry])
  | turned obeys busy turn => exact Inside.turn (inside _ _ busy) turn
  | installed busy install ran =>
    have member := inside _ _ busy
    cases install with
    | assign update rest => exact .busy member
    | home count => exact .busy member
  | joined busy joining done =>
    have member := inside _ _ busy
    cases joining with
    | start => exact .busy member
    | zero => exact .busy member
    | plain => exact .busy member
  | reset busy => exact .busy (inside _ .startReset busy)
  | flagged busy => exact .busy (inside _ .startFlag busy)
  | @spawned _ _ call busy free => exact inside_startReturned call
  | exchanged busy => exact .busy (inside _ .stopExchange busy)
  | @zeroed _ _ call _ _ obeys emitted busy zeroed =>
    cases zeroed with
    | returned => exact .busy (inside _ .stopZero busy)
    | threw fault => exact inside_stopThrew call fault
  | @rethrown _ _ call fault busy held => exact inside_rethrow state call fault
  | released busy =>
    intro call pc place
    cases place
  | _ => exact inside

theorem inside_of_reach {platform : MotorBus.Platform} {allowed : State config → Session.Action → Prop}
    {state : State config} (reached : Reach (machine platform config) allowed state)
    (alive : state.terminated = false) : Inside state.caller := by
  let inv (state : State config) : Prop := Inside state.caller
  have kept : ∀ before action after, allowed before action → after.terminated = false → Move before action after →
      inv before → inv after :=
    fun _ _ _ _ still move inside => inside.move still move
  exact reach_moves (show inv (initialState config) from .idle) kept reached alive

end DmOpenarm.Lifecycle
