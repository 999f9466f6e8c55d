import DmOpenarm.ExampleTraffic
import DmOpenarm.SessionBus

/-! The end of a Python Arm: its finalizer calls disable() and passes over what that raises, and then the
destructors of the controller and of the arm run. -/

namespace DmOpenarm.Lifetime
open Types hiding ControlMode
open MotorBus Backend Session SessionMoves SessionBus Lifecycle ReliableBus Shutdown YamlLoader ExampleExits
open Operations hiding Action Move machine
open Library.Effect Library.Readings Library.Runs
variable {config : ArmConfig}

inductive Stage where
  | used
  | finalizing
  | destroying
  | gone
  deriving DecidableEq

structure Life (config : ArmConfig) where
  session : State config
  stage : Stage := .used

/-- A step of the session, the end of the last reference, and the destructors. -/
inductive Deed where
  | act (action : Session.Action)
  | drop
  | destroyLoop
  | destroyArm (script : List Slot)

/-- Calls are made as long as there is a reference to the arm; its destructors are not among them. -/
def allows (stage : Stage) : Session.Action → Bool
  | .call .destroy => false
  | .call _ => stage = .used
  | _ => stage ≠ .gone

/-- An exception cannot leave the destructor of the arm. -/
def destroyArm (platform : Platform) (script : List Slot) (session : State config) : State config :=
  let outcome := exec (disconnect platform) (session.backend.withScript script)
  match outcome.1 with
  | .ok _ => { session with backend := outcome.2 }
  | .error _ => { session with backend := outcome.2, terminated := true }

def step (platform : Platform) (life : Life config) : Deed → Option (Life config)
  | .act action =>
      if allows life.stage action then
        (Session.step platform life.session action).map fun session => { life with session }
      else none
  | .drop =>
      if life.stage = .used then
        (Session.step platform life.session (.call .disable)).map fun session => ⟨session, .finalizing⟩
      else none
  | .destroyLoop =>
      if life.stage = .finalizing then
        (Session.step platform life.session (.call .destroy)).map fun session => ⟨session, .destroying⟩
      else none
  | .destroyArm script =>
      if life.stage = .destroying ∧ life.session.caller = .destroyed ∧ life.session.terminated = false then
        some ⟨destroyArm platform script life.session, .gone⟩
      else none

def machine (platform : Platform) (config : ArmConfig) : Machine (Life config) Deed where
  initial life := life = ⟨initialState config, .used⟩
  step := step platform

/-- The latest attempt to enable the arm has thrown. Its motors may be left enabled. -/
def abandoned : List Event → Bool
  | [] => false
  | .returned .enable :: _ => false
  | .raised .enable _ :: _ => true
  | _ :: earlier => abandoned earlier

theorem abandoned_mute (event : Event) (silent : mute event = true) : Passes abandoned event := by
  cases event with
  | returned call | raised call => cases call <;> first | exact fun _ => rfl | cases silent
  | _ => exact fun _ => rfl

/-- A backend that is not connected has switched off what it has driven, unless a reply has switched a mode. -/
def Off (backend : DmSerialBackend config) : Prop :=
  backend.connected = false → Undisturbed (initData config) backend.usb → SwitchedOff backend.usb.sent

/-- What holds of the backend in every run. -/
structure Secured (state : State config) : Prop where
  mit : KeepsMit state.backend
  off : abandoned state.log = false → Off state.backend

/-- Serving an arm that is not connected does nothing. -/
theorem service_idle {before after : DmSerialBackend config} (path : (service config).Path before after)
    (idle : before.connected = false) :
    after.connected = false ∧ after.usb.sent = before.usb.sent ∧ after.usb.received = before.usb.received := by
  induction path with
  | refl => exact ⟨idle, rfl, rfl⟩
  | tail _ step ih =>
    obtain ⟨still, sent, received⟩ := ih
    cases step with
    | bus step => cases still
    | receive host arrival => cases still
    | script backend script => exact ⟨still, sent, received⟩

theorem Off.serve {before after : DmSerialBackend config} (built : Consistent before)
    (path : (service config).Path before after) (off : Off before) : Off after := by
  intro idle calm
  have same : before.connected = false := (service_connected built path).symm.trans idle
  obtain ⟨_, sent, received⟩ := service_idle path same
  rw [Undisturbed, received] at calm
  rw [sent]
  exact off same calm

theorem keepsMit_script {backend : DmSerialBackend config} (built : Consistent backend) (keeps : KeepsMit backend)
    (script : List Slot) : KeepsMit (backend.withScript script) :=
  keeps.move built (.exchange (.script backend script))

theorem disconnect_idle {platform : Platform} {backend after : DmSerialBackend config}
    (ran : exec (disconnect platform) backend = (.ok (), after)) : after.connected = false := by
  rcases disconnect_cases platform backend with threw | ⟨_, returned⟩
  · cases (congrArg Prod.fst ran).symm.trans threw
  · cases (congrArg Prod.snd ran).symm.trans (congrArg Prod.snd returned)
    rfl

/-- A disconnect that returns switches off what has been driven. -/
theorem disconnect_off {platform : Platform} {backend after : DmSerialBackend config} (built : Consistent backend)
    (keeps : KeepsMit backend) (off : Off backend) (ran : exec (disconnect platform) backend = (.ok (), after)) :
    Off after := by
  rcases backend with ⟨_ | control, usb⟩
  · rw [exec_disconnect_idle] at ran
    cases ran
    exact off
  · exact fun _ calm => disconnect_switches_off (built control rfl) keeps ran calm

theorem Secured.start : Secured (initialState config) := by
  refine ⟨keepsMit_idle rfl, fun _ _ _ => ⟨[], [], rfl, ?_, ?_⟩⟩
  · exact List.forall_mem_nil _
  · exact List.forall_mem_nil _

theorem connect_connected {platform : Platform} {backend after : DmSerialBackend config}
    (ran : exec (connect platform) backend = (.ok (), after)) : after.connected = true := by
  rcases backend with ⟨_ | control, usb⟩
  · obtain ⟨_, host, rfl⟩ := connect_returned ran
    rfl
  · cases ran
    rfl

theorem Secured.touch {platform : Platform} {state after : State config} (built : Consistent state.backend)
    (touch : Touch platform state after) (secured : Secured state) : Secured after := by
  have kept := ((serial config).keeps KeepsMit (fun _ _ built move keeps => keeps.move built move)
    (touch.path built) built secured.mit).2
  have served {op : Op} (serves : op.serves = true) (script : List Slot)
      (backend : after.backend = (exec (op.perform platform) (state.backend.withScript script)).2)
      (log : abandoned after.log = abandoned state.log) : Secured after := by
    have path : (service config).Path state.backend after.backend := by
      have first : (service config).Path state.backend (state.backend.withScript script) := .single (.script _ _)
      rw [backend]
      exact first.trans (perform_service platform serves _ built)
    exact ⟨kept, fun enabled => (secured.off (log.symm.trans enabled)).serve built path⟩
  cases touch with
  | nothing backend log =>
    refine ⟨kept, ?_⟩
    rw [log.read abandoned_mute, backend]
    exact secured.off
  | heard arrival received log =>
    refine ⟨kept, ?_⟩
    rw [log]
    exact fun enabled => (secured.off enabled).serve built (act_service rfl built received)
  | batch script commands backend log =>
    exact served (show (Op.sendMitAll commands).serves = true from rfl) script backend (by rw [log]; rfl)
  | zero script backend log =>
    exact served (show Op.sendZeroMitAll.serves = true from rfl) script backend ((log.read abandoned_mute).trans rfl)
  | zeroed script call op result behind serves ran log =>
    refine served serves script (by rw [ran]) ?_
    rw [log]
    rcases zeroes_of_op behind serves with ⟨_, _, rfl, _⟩ | ⟨_, rfl, _⟩ <;> cases result <;> rfl
  | connects script result ran log =>
    refine ⟨kept, ?_⟩
    rw [log]
    intro enabled idle
    cases result with
    | error fault => cases enabled
    | ok _ => cases (connect_connected ran).symm.trans idle
  | disconnects script ran log =>
    refine ⟨kept, ?_⟩
    rw [log]
    intro enabled
    have ready : Consistent (state.backend.withScript script) := built
    have before : Off (state.backend.withScript script) := secured.off enabled
    exact disconnect_off ready (keepsMit_script built secured.mit script) before ran

theorem secured_of_reach {platform : Platform} {state : State config}
    (reached : Reach (Session.machine platform config) Anything state) (alive : state.terminated = false) :
    Secured state :=
  reach_touches .start (fun _ _ built touch secured => secured.touch built touch) reached alive

theorem turn_ne_destroyed {state : State config} {call : Call} {pc : Pc} {exit : Exit} (turn : Turn state call pc exit) :
    exit.caller ≠ .destroyed := by
  cases turn with
  | already running => cases call <;> exact Caller.noConfusion
  | skipped halted => cases call <;> exact Caller.noConfusion
  | stopped clean => cases call <;> exact Caller.noConfusion
  | _ => exact Caller.noConfusion

/-- The destructor of the controller has joined the worker. -/
theorem joined_of_destroyed {platform : Platform} {state : State config}
    (reached : Reach (Session.machine platform config) Anything state) (alive : state.terminated = false)
    (destroyed : state.caller = .destroyed) : state.worker = none := by
  let inv (state : State config) : Prop := Ordered state ∧ (state.caller = .destroyed → state.worker = none)
  have start : inv (initialState config) := ⟨.initial, fun _ => rfl⟩
  have kept : ∀ before action after, Anything before action → after.terminated = false → Move before action after →
      inv before → inv after := by
    intro before action after _ still move given
    obtain ⟨ordered, joined⟩ := given
    refine ⟨ordered.move still move, ?_⟩
    intro ended
    cases move with
    | ended dead log => cases dead.symm.trans still
    | endedZero emitted dead busy log => cases dead.symm.trans still
    | endedSend emitted dead here log => cases dead.symm.trans still
    | turned obeys busy turn => exact absurd ended (turn_ne_destroyed turn)
    | @spawned _ _ call busy free => cases call <;> cases ended
    | @zeroed _ _ call exit _ obeys emitted busy zeroed =>
      cases zeroed with
      | returned => cases ended
      | threw fault => cases call <;> cases ended
    | @rethrown _ _ call fault busy held => cases call <;> cases ended
    | released busy => exact (ordered.placed _ _ busy).2
    | called call idle => cases ended
    | installed busy install ran => cases ended
    | joined busy joining done => cases ended
    | reset busy => cases ended
    | flagged busy => cases ended
    | exchanged busy => cases ended
    | _ => exact joined ended
  exact (reach_moves start kept reached alive).2 destroyed

theorem released {platform : Platform} {session : State config} {script : List Slot} {backend : DmSerialBackend config}
    (reached : Reach (Session.machine platform config) Anything session) (alive : session.terminated = false)
    (ran : exec (disconnect platform) (session.backend.withScript script) = (.ok (), backend)) :
    abandoned session.log = false → Off backend := by
  intro enabled
  have secured := secured_of_reach reached alive
  have built := consistent_of_reach reached alive
  have ready : Consistent (session.backend.withScript script) := built
  have before : Off (session.backend.withScript script) := secured.off enabled
  exact disconnect_off ready (keepsMit_script built secured.mit script) before ran

theorem destroyArm_returned {platform : Platform} {script : List Slot} {session : State config}
    (still : (destroyArm platform script session).terminated = false) :
    ∃ backend, exec (disconnect platform) (session.backend.withScript script) = (.ok (), backend) ∧
      destroyArm platform script session = { session with backend } := by
  revert still
  unfold destroyArm
  rcases exec (disconnect platform) (session.backend.withScript script) with ⟨fault | _, backend⟩
  · exact Bool.noConfusion
  · exact fun _ => ⟨backend, rfl, rfl⟩

/-- What a life is until its end, and what is left then. -/
structure Lived (platform : Platform) (life : Life config) : Prop where
  session : life.stage ≠ .gone → Reach (Session.machine platform config) Anything life.session
  gone : life.stage = .gone → life.session.terminated = false → life.session.backend.connected = false ∧
    (∀ thread, life.session.threads thread = .finished) ∧
      (abandoned life.session.log = false → Off life.session.backend)

theorem Lived.step {platform : Platform} {life after : Life config} {deed : Deed} (lived : Lived platform life)
    (moved : Lifetime.step platform life deed = some after) : Lived platform after := by
  cases deed with
  | act action =>
    by_cases allowed : allows life.stage action = true
    · simp only [Lifetime.step, if_pos allowed] at moved
      obtain ⟨session, stepped, same⟩ := Option.map_eq_some_iff.mp moved
      subst same
      have here : life.stage ≠ .gone := by
        intro gone
        rw [gone] at allowed
        cases action with
        | call call => cases call <;> cases allowed
        | _ => cases allowed
      exact ⟨fun _ => (lived.session here).next trivial stepped, fun gone => absurd gone here⟩
    · simp only [Lifetime.step, if_neg allowed, reduceCtorEq] at moved
  | drop =>
    by_cases used : life.stage = .used
    · simp only [Lifetime.step, if_pos used] at moved
      obtain ⟨session, stepped, same⟩ := Option.map_eq_some_iff.mp moved
      subst same
      have here : life.stage ≠ .gone := fun gone => by rw [used] at gone; cases gone
      have called : (Session.machine platform config).step life.session (.call .disable) = some session := stepped
      exact ⟨fun _ => (lived.session here).next trivial called, Stage.noConfusion⟩
    · simp only [Lifetime.step, if_neg used, reduceCtorEq] at moved
  | destroyLoop =>
    by_cases ready : life.stage = .finalizing
    · simp only [Lifetime.step, if_pos ready] at moved
      obtain ⟨session, stepped, same⟩ := Option.map_eq_some_iff.mp moved
      subst same
      have here : life.stage ≠ .gone := fun gone => by rw [ready] at gone; cases gone
      have called : (Session.machine platform config).step life.session (.call .destroy) = some session := stepped
      exact ⟨fun _ => (lived.session here).next trivial called, Stage.noConfusion⟩
    · simp only [Lifetime.step, if_neg ready, reduceCtorEq] at moved
  | destroyArm script =>
    by_cases ready : life.stage = .destroying ∧ life.session.caller = .destroyed ∧ life.session.terminated = false
    · simp only [Lifetime.step, if_pos ready, Option.some.injEq] at moved
      subst moved
      obtain ⟨destroying, destroyed, alive⟩ := ready
      have here : life.stage ≠ .gone := fun gone => by rw [destroying] at gone; cases gone
      have reached := lived.session here
      refine ⟨fun stays => absurd rfl stays, fun _ still => ?_⟩
      have joined := joined_of_destroyed reached alive destroyed
      have finished := (ordered_of_reach reached alive).finished_of_joined joined
      obtain ⟨backend, ran, same⟩ := destroyArm_returned still
      generalize destroyArm platform script life.session = ended at same
      subst same
      have off := released reached alive ran
      exact ⟨disconnect_idle ran, finished, off⟩
    · simp only [Lifetime.step, if_neg ready, reduceCtorEq] at moved

theorem Lived.of_reach {platform : Platform} {allowed : Life config → Deed → Prop} {life : Life config}
    (reached : Reach (machine platform config) allowed life) : Lived platform life := by
  induction reached with
  | start initial =>
    subst initial
    exact ⟨fun _ => .start rfl, Stage.noConfusion⟩
  | next _ _ moved ih => exact ih.step moved

/-- When an arm that has been used in any way is gone and the process goes on, its bus is closed, no thread runs, and
everything it has driven is disabled, unless its latest enable() threw or a reply switched a mode. -/
theorem gone_is_off {platform : Platform} {life : Life config} (reached : Reach (machine platform config) Anything life)
    (gone : life.stage = .gone) (alive : life.session.terminated = false) :
    life.session.backend.connected = false ∧ (∀ thread, life.session.threads thread = .finished) ∧
      (abandoned life.session.log = false → Undisturbed (initData config) life.session.backend.usb →
        SwitchedOff life.session.backend.usb.sent) := by
  obtain ⟨idle, finished, off⟩ := (Lived.of_reach reached).gone gone alive
  exact ⟨idle, finished, fun enabled => off enabled idle⟩

/-- The last reference goes while the worker sleeps. -/
theorem joint_gone : ∃ life : Life (joints [(1, 0x11)]), life.stage = .gone ∧ life.session.spawned = 1 ∧
    (∀ thread, life.session.threads thread = .finished) ∧ SwitchedOff life.session.backend.usb.sent := by
  have ran : ((machine Platform.wrapping (joints [(1, 0x11)])).run (fun _ _ => true)
      (oneBatch.map .act ++ [.drop, .act quietly, .act quietly, .act loops, .act loops, .act quietly, .act quietly,
        .act quietly, .act quietly, .destroyLoop, .act quietly, .act quietly, .act quietly, .act quietly,
        .destroyArm []]) ⟨initialState (joints [(1, 0x11)]), .used⟩).map (fun life =>
      decide (life.stage = .gone ∧ life.session.terminated = false ∧ life.session.spawned = 1 ∧
        abandoned life.session.log = false ∧ life.session.backend.usb.received.length = 0)) = some true := by
    decide +kernel
  obtain ⟨life, reached, gone, alive, spawned, enabled, silent⟩ := Machine.reach_checked rfl ran
  obtain ⟨_, finished, off⟩ := gone_is_off reached.anything gone alive
  exact ⟨life, gone, spawned, finished, off enabled (undisturbed_of_silent _ (List.eq_nil_of_length_eq_zero silent))⟩

end DmOpenarm.Lifetime
