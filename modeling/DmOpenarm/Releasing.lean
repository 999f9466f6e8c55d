import DmOpenarm.Lifecycle
import DmOpenarm.SessionLog
import DmOpenarm.YamlLoader

/-! Whether stop() releases the motors: it sends the zero batch only if it cleared the running
flag itself, so nothing is sent after a worker loop that threw first. -/

namespace DmOpenarm.Releasing
open Types hiding ControlMode
open MotorBus Session SessionMoves SessionLog Lifecycle YamlLoader Library.Readings Library.Runs
variable {config : ArmConfig}

/-- The zero batch of stop() is the next step. -/
def Zeroing (state : State config) : Prop := ∃ call, state.caller = .busy call .stopZero

structure Accounted (state : State config) : Prop where
  cleared : selfCleared state.log = true → ¬Live state ∧ ¬Zeroing state ∧ zeroed state.log = false
  tried : zeroed state.log = true → ¬Live state
  owed : unreleased state.log = true → Live state ∨ Zeroing state ∨ selfCleared state.log = true

theorem not_zeroing_of_settled {state : State config} (settled : Settled state.caller) : ¬Zeroing state := by
  intro given
  obtain ⟨call, busy⟩ := given
  exact (settled call).2 busy

theorem Accounted.quiet {state after : State config} (accounted : Accounted state)
    (same : marks after.log = marks state.log) (live : Live after ↔ Live state)
    (zeroing : Zeroing after ↔ Zeroing state) : Accounted after := by
  obtain ⟨cleared, tried, owed⟩ := marks_eq same
  constructor
  · rw [cleared, tried, live, zeroing]
    exact accounted.cleared
  · rw [tried, live]
    exact accounted.tried
  · rw [owed, cleared, live, zeroing]
    exact accounted.owed

theorem Accounted.moveCaller {state after : State config} (accounted : Accounted state)
    (same : marks after.log = marks state.log) (before : Settled state.caller) (settled : Settled after.caller)
    (running : after.running = state.running) : Accounted after := by
  apply accounted.quiet same
  · rw [before.live_iff, settled.live_iff, running]
  · exact iff_of_false (not_zeroing_of_settled settled) (not_zeroing_of_settled before)

theorem Accounted.moveThread {state after : State config} (accounted : Accounted state)
    (same : marks after.log = marks state.log) (caller : after.caller = state.caller)
    (running : after.running = state.running) : Accounted after := by
  apply accounted.quiet same
  · rw [Live, Live, caller, running]
  · rw [Zeroing, Zeroing, caller]

theorem Accounted.initial : Accounted (initialState config) := by
  refine ⟨?_, ?_, ?_⟩
  · intro marked
    cases marked
  · intro marked
    cases marked
  · intro marked
    cases marked

/-- A session that begins owes nothing. -/
theorem Accounted.began {after : State config} {log : List Event} (top : after.log = .began :: log) :
    Accounted after := by
  constructor
  · intro marked
    rw [top] at marked
    cases marked
  · intro marked
    rw [top] at marked
    cases marked
  · intro marked
    rw [top] at marked
    cases marked

/-- stop() takes the running flag down and remembers what it was. -/
theorem Accounted.exchanged {state : State config} (accounted : Accounted state) {call : Call}
    (busy : state.caller = .busy call .stopExchange) :
    Accounted ({ state with running := false }.exit (.proceed call (.stopJoin state.running))) := by
  have settled : Settled state.caller := busy ▸ .of_pc Pc.noConfusion Pc.noConfusion
  refine accounted.quiet rfl ?_ ?_
  · rw [settled.live_iff]
    constructor
    · intro given
      rcases given with running | ⟨other, waiting⟩
      · cases running
      · exact Pc.stopJoin.inj (Caller.busy.inj waiting).2
    · intro running
      right
      rw [running]
      exact ⟨call, rfl⟩
  · apply iff_of_false _ (not_zeroing_of_settled settled)
    intro given
    obtain ⟨other, waiting⟩ := given
    cases waiting

theorem Accounted.joined {state : State config} (accounted : Accounted state) {call : Call}
    (busy : state.caller = .busy call (.stopJoin true)) :
    Accounted ({ state with worker := none }.exit (.proceed call .stopZero)) := by
  have live : Live state := .inr ⟨call, busy⟩
  constructor
  · intro marked
    exact absurd live (accounted.cleared marked).1
  · intro marked
    exact absurd live (accounted.tried marked)
  · intro marked
    right
    left
    exact ⟨call, rfl⟩

/-- Once the zero batch has been tried, nothing is owed. -/
theorem Accounted.zeroed {state after : State config} (accounted : Accounted state) (zeroing : Zeroing state)
    {emitted : Nat} (same : marks after.log = marks (.zeroBatch emitted :: state.log)) (settled : Settled after.caller)
    (halted : after.running = false) : Accounted after := by
  obtain ⟨cleared, _, owed⟩ := marks_eq same
  have dead : ¬Live after := by
    rw [settled.live_iff, halted]
    exact Bool.false_ne_true
  constructor
  · intro marked
    rw [cleared] at marked
    exact absurd zeroing (accounted.cleared marked).2.1
  · intro marked
    exact dead
  · intro marked
    rw [owed] at marked
    cases marked

/-- A batch goes out only while the loop lives. -/
theorem Accounted.sent {state after : State config} (accounted : Accounted state) (live : Live state)
    {snapshot : List MitCommand} {emitted : Nat} (log : after.log = .batch snapshot emitted :: state.log)
    (caller : after.caller = state.caller) (running : after.running = state.running) : Accounted after := by
  have same : Live after ↔ Live state := by rw [Live, Live, caller, running]
  constructor
  · intro marked
    rw [log] at marked
    exact absurd live (accounted.cleared marked).1
  · intro marked
    rw [log] at marked
    exact absurd live (accounted.tried marked)
  · intro marked
    exact .inl (same.mpr live)

/-- A worker that finds the running flag set when it fails leaves a session that nobody releases. -/
theorem Accounted.failed {state : State config} (accounted : Accounted state) (ordered : Ordered state) {thread : Nat}
    {fault : Fault} (here : state.threads thread = .clear fault) :
    Accounted (({ state with running := false }.setThread thread .finished).record (.failed fault state.running)) := by
  have live : Live state := by
    apply ordered.live thread
    rw [here]
    exact Worker.noConfusion
  constructor
  · intro marked
    cases told : state.running with
    | false =>
      rw [told] at marked
      exact absurd live (accounted.cleared marked).1
    | true =>
      have elsewhere {call : Call} {pc : Pc} (busy : state.caller = .busy call pc)
          (expected : Expected state.running state.worker pc → state.running = false) : False := by
        rw [expected (ordered.placed _ _ busy)] at told
        cases told
      refine ⟨?_, ?_, ?_⟩
      · intro given
        rcases given with running | ⟨call, busy⟩
        · cases running
        · exact elsewhere busy id
      · intro given
        obtain ⟨call, busy⟩ := given
        exact elsewhere busy And.left
      · apply Bool.eq_false_of_not_eq_true
        intro before
        exact accounted.tried before live
  · intro marked
    exact absurd live (accounted.tried marked)
  · intro marked
    cases told : state.running with
    | true =>
      right
      right
      rfl
    | false =>
      left
      rcases live with running | waiting
      · rw [told] at running
        cases running
      · exact .inr waiting

theorem Accounted.move {state after : State config} {action : Session.Action} (accounted : Accounted state)
    (ordered : Ordered state) (alive : after.terminated = false) (move : Move state action after) :
    Accounted after := by
  have resets (exception : Option Fault) : marks (setException state exception).log = marks state.log :=
    (setException_grown (fun _ => rfl) state exception).read marks_ending
  cases move with
  | ended dead log => cases dead.symm.trans alive
  | endedZero emitted dead busy log => cases dead.symm.trans alive
  | endedSend emitted dead here log => cases dead.symm.trans alive
  | called call idle =>
    refine accounted.moveCaller rfl (idle ▸ .idle) ?_ rfl
    cases call <;> exact .of_pc Pc.noConfusion Pc.noConfusion
  | turned obeys busy turn =>
    have settled := Turn.settled turn
    exact accounted.moveCaller (turn.grown.read marks_ending) (busy ▸ settled.1) settled.2 rfl
  | installed busy install ran =>
    have settled : Settled state.caller := by
      rw [busy]
      cases install <;> exact .of_pc Pc.noConfusion Pc.noConfusion
    refine accounted.moveCaller rfl settled ?_ rfl
    cases install <;> exact .of_pc Pc.noConfusion Pc.noConfusion
  | joined busy joining done =>
    cases joining with
    | start =>
      exact accounted.moveCaller rfl (busy ▸ .of_pc Pc.noConfusion Pc.noConfusion)
        (.of_pc Pc.noConfusion Pc.noConfusion) rfl
    | zero => exact accounted.joined busy
    | plain =>
      refine accounted.moveCaller rfl (busy ▸ .of_pc ?_ Pc.noConfusion)
        (.of_pc Pc.noConfusion Pc.noConfusion) rfl
      intro same
      cases same
  | reset busy =>
    exact accounted.moveCaller (resets none) (busy ▸ .of_pc Pc.noConfusion Pc.noConfusion)
      (.of_pc Pc.noConfusion Pc.noConfusion) rfl
  | flagged busy => exact .began rfl
  | @spawned _ _ call busy free =>
    exact accounted.moveCaller ((startReturned_grown call state.log).read marks_ending)
      (busy ▸ .of_pc Pc.noConfusion Pc.noConfusion) (settled_startReturned call) rfl
  | exchanged busy => exact accounted.exchanged busy
  | @zeroed _ _ call exit _ obeys emitted busy zeroed =>
    have halted : state.running = false := (ordered.placed _ _ busy).1
    cases zeroed with
    | returned =>
      exact accounted.zeroed ⟨call, busy⟩ rfl (.of_pc Pc.noConfusion Pc.noConfusion) halted
    | threw fault =>
      have grown := stopThrew_grown call fault (.zeroBatch emitted :: state.log)
      exact accounted.zeroed ⟨call, busy⟩ (grown.read marks_ending) (settled_stopThrew call fault) halted
  | rethrown busy held =>
    exact accounted.moveCaller ((rethrow_grown state _ _).read marks_ending)
      (busy ▸ .of_pc Pc.noConfusion Pc.noConfusion) (settled_rethrow state _ _) (rethrow_keeps state _ _).1
  | released busy =>
    refine accounted.moveCaller (resets none) (busy ▸ .of_pc Pc.noConfusion Pc.noConfusion) ?_ rfl
    exact fun _ => ⟨Caller.noConfusion, Caller.noConfusion⟩
  | looped looping => exact accounted.moveThread rfl rfl rfl
  | copied here => exact accounted.moveThread rfl rfl rfl
  | @sent _ thread _ _ _ obeys emitted here sent =>
    refine accounted.sent (ordered.live thread ?_) rfl rfl rfl
    rw [here]
    exact Worker.noConfusion
  | @stored _ _ fault here => exact accounted.moveThread (resets (some fault)) rfl rfl
  | cleared here => exact accounted.failed ordered here
  | outside obeys clock => exact accounted.moveThread rfl rfl rfl

/-- When stop() is over, the last frame of the session was followed by a zero batch, unless the
worker loop had thrown before anybody stopped it and had sent a frame before that. -/
def ReleasedUnless (event : Event) (earlier : List Event) : Prop :=
  event = .stopped → (unreleased earlier = false ↔ ¬(selfCleared earlier = true ∧ emitted earlier = true))

theorem releasedUnless_of_owed {log : List Event} (owed : unreleased log = true → selfCleared log = true)
    (never : selfCleared log = true → zeroed log = false) :
    unreleased log = false ↔ ¬(selfCleared log = true ∧ emitted log = true) := by
  constructor
  · intro released given
    obtain ⟨cleared, sent⟩ := given
    rw [unreleased_of_emitted sent (never cleared)] at released
    cases released
  · intro innocent
    apply Bool.eq_false_of_not_eq_true
    intro waiting
    exact innocent ⟨owed waiting, emitted_of_unreleased waiting⟩

/-- Every stop() that ends is on top of what it owes. -/
theorem Accounted.stopped {state : State config} (accounted : Accounted state) (ordered : Ordered state)
    {action : Session.Action} {event : Event} {earlier : List Event} (logs : Logs state action event earlier) :
    ReleasedUnless event earlier := by
  intro same
  subst same
  cases logs with
  | plain free => cases free
  | zeroed emitted busy =>
    constructor
    · intro _ given
      obtain ⟨cleared, _⟩ := given
      exact (accounted.cleared cleared).2.1 ⟨_, busy⟩
    · intro _
      rfl
  | stopped busy top =>
    have same : marks earlier = marks state.log := by
      rcases top with rfl | ⟨fault, rfl⟩ <;> rfl
    obtain ⟨cleared, tried, owed⟩ := marks_eq same
    have settled : Settled state.caller := busy ▸ .of_pc Pc.noConfusion Pc.noConfusion
    apply releasedUnless_of_owed
    · rw [owed, cleared]
      intro waiting
      rcases accounted.owed waiting with live | zeroing | failed
      · rw [settled.live_iff, (ordered.placed _ _ busy).1] at live
        cases live
      · exact absurd zeroing (not_zeroing_of_settled settled)
      · exact failed
    · rw [cleared, tried]
      exact fun marked => (accounted.cleared marked).2.2

theorem stop_releases_iff {platform : Platform} {state : State config}
    (reached : Reach (machine platform config) Anything state) {later earlier : List Event}
    (history : state.log = later ++ .stopped :: earlier) :
    unreleased earlier = false ↔ ¬(selfCleared earlier = true ∧ emitted earlier = true) := by
  let inv (state : State config) : Prop := Ordered state ∧ Accounted state
  have base : inv (initialState config) := ⟨.initial, .initial⟩
  have kept : ∀ before action after, Anything before action → after.terminated = false → Move before action after →
      inv before → inv after :=
    fun _ _ _ _ alive move both => ⟨both.1.move alive move, both.2.move both.1 alive move⟩
  have logged : ∀ before action event earlier, Anything before action → inv before →
      Logs before action event earlier → ReleasedUnless event earlier :=
    fun _ _ _ _ _ both logs => both.2.stopped both.1 logs
  have throughout := (reach_logs base kept logged reached).1
  exact (throughout_iff _ _).mp throughout later .stopped earlier history rfl

/-- A session that is stopped after a batch is released. -/
theorem stopped_session_released : ∃ (state : State (joints [(1, 0x11)])) (later earlier : List Event),
    state.log = later ++ .stopped :: earlier ∧ emitted earlier = true ∧ unreleased earlier = false := by
  have ran : ((machine Platform.wrapping (joints [(1, 0x11)])).run (fun _ _ => true)
      (oneBatch ++ [.call .stop, quietly, loops, loops, quietly, quietly, quietly])
      (initialState (joints [(1, 0x11)]))).map (fun state =>
        decide (state.log = state.log.take 1 ++ .stopped :: state.log.drop 2 ∧
          emitted (state.log.drop 2) = true ∧ selfCleared (state.log.drop 2) = false)) = some true := by
    decide +kernel
  obtain ⟨state, reached, history, sent, innocent⟩ := Machine.reach_checked rfl ran
  refine ⟨state, _, _, history, sent, (stop_releases_iff reached.anything history).mpr ?_⟩
  intro given
  obtain ⟨cleared, _⟩ := given
  exact Bool.false_ne_true (innocent.symm.trans cleared)

/-- The second send throws, the worker clears the running flag, and stop() sends nothing. -/
theorem failed_session_unreleased : ∃ (state : State (joints [(1, 0x11)])) (later earlier : List Event),
    Reach (machine Platform.wrapping (joints [(1, 0x11)])) Anything state ∧
    state.log = later ++ .stopped :: earlier ∧ emitted earlier = true ∧ unreleased earlier = true := by
  have ran : ((machine Platform.wrapping (joints [(1, 0x11)])).run (fun _ _ => true)
      (oneBatch ++ [loops, loops, loops, .worker 0 [{ throws := true }], loops, loops,
        .call .stop, quietly, quietly, quietly])
      (initialState (joints [(1, 0x11)]))).map (fun state =>
        decide (state.log = state.log.take 1 ++ .stopped :: state.log.drop 2 ∧
          emitted (state.log.drop 2) = true ∧ unreleased (state.log.drop 2) = true)) = some true := by
    decide +kernel
  obtain ⟨state, reached, history, sent, waiting⟩ := Machine.reach_checked rfl ran
  exact ⟨state, _, _, reached.anything, history, sent, waiting⟩

end DmOpenarm.Releasing
