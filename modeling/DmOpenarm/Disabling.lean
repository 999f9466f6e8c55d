import DmOpenarm.Dispatch
import DmOpenarm.Lifecycle
import DmOpenarm.YamlLoader

/-! Whether disable() disables: stop() runs first, and an exception from it skips the disconnect. -/

namespace DmOpenarm.Disabling
open Types hiding ControlMode
open MotorBus Backend Session SessionMoves Lifecycle YamlLoader Library.Effect Library.Runs
open Operations hiding Action Move machine
open ReliableBus (Reliable)
variable {config : ArmConfig}

/-- What makes stop() throw at the next step of the caller while the backend is connected: one of
the sends of its zero batch throws, or a worker loop has stored an exception. -/
def stopThrows (state : State config) (script : List Slot) : Bool :=
  match state.caller with
  | .busy _ .stopZero => !decide (Reliable (script.take config.motors.length))
  | .busy _ .stopRethrow => state.workerException.isSome
  | _ => false

/-- The backend is disconnected and no worker is running. -/
def Disabled (state : State config) : Prop :=
  state.backend.connected = false ∧ ∀ thread, state.threads thread = .finished

theorem zero_keeps_connected (platform : Platform) {backend : DmSerialBackend config} (built : Consistent backend)
    (script : List Slot) :
    (exec (sendZeroMitAll platform) (backend.withScript script)).2.connected = backend.connected := by
  have ready : (service config).Path backend (backend.withScript script) := .single (.script _ _)
  have follows : Follows (service config) (sendZeroMitAll platform) := sendMitAll_follows platform _
  exact service_connected built (ready.trans (follows _ ((service config).inv_path ready built)))

/-- The zero batch goes out when none of its sends throws. -/
theorem zero_succeeds (platform : Platform) {backend : DmSerialBackend config} (built : Consistent backend)
    (connected : backend.connected = true) {script : List Slot}
    (reliable : Reliable (script.take config.motors.length)) :
    ∃ after, exec (sendZeroMitAll platform) (backend.withScript script) = (.ok (), after) := by
  have same : (List.replicate config.motors.length ({} : MitCommand)).length = config.motors.length :=
    List.length_replicate
  obtain ⟨_, after, sent, _⟩ := Dispatch.exec_sendMitAll platform same
    (show Consistent (backend.withScript script) from built) connected reliable
  exact ⟨after, sent⟩

/-- Where a call of disable() can stand. -/
theorem disable_stages {pc : Pc} (member : stage pc ∈ stages .disable) :
    (pc = .guard ∨ pc = .stopExchange ∨ ∃ wasRunning, pc = .stopJoin wasRunning) ∨ pc = .stopZero ∨
      pc = .stopRethrow ∨ pc = .disconnect := by
  cases pc <;> simp [stage, stages] at member ⊢

section Step
variable {platform : Platform} {state after : State config} {script : List Slot} {available : Bool}

theorem zero_completes (built : Consistent state.backend) (ordered : Ordered state)
    (busy : state.caller = .busy .disable .stopZero)
    (moved : pcStep platform state script available .disable .stopZero = some after)
    (completes : after.caller = .idle) :
    after.backend.connected = state.backend.connected ∧ (∀ thread, after.threads thread = .finished) ∧
      (state.backend.connected = true → stopThrows state script = true) := by
  have joined := (ordered.placed _ _ busy).2
  simp only [pcStep, Option.some.injEq] at moved
  subst moved
  have sends (connected : state.backend.connected = true)
      (reliable : Reliable (script.take config.motors.length)) :=
    zero_succeeds platform built connected reliable
  have kept := zero_keeps_connected platform built script
  rw [stopThrows, busy]
  rcases outcome : exec (sendZeroMitAll platform) (state.backend.withScript script) with ⟨fault | _, backend⟩
  · rw [outcome] at completes kept sends
    by_cases fatal : fault.fatal = true
    · simp only [State.resume, if_pos fatal] at completes
      cases busy.symm.trans completes
    · simp only [State.resume, if_neg fatal]
      refine ⟨kept, ordered.finished_of_joined joined, fun connected => ?_⟩
      simp only [Bool.not_eq_true', decide_eq_false_iff_not]
      intro reliable
      obtain ⟨after, sent⟩ := sends connected reliable
      cases sent
  · rw [outcome] at completes
    cases completes

theorem rethrow_completes (ordered : Ordered state) (busy : state.caller = .busy .disable .stopRethrow)
    (moved : pcStep platform state script available .disable .stopRethrow = some after)
    (completes : after.caller = .idle) :
    after.backend.connected = state.backend.connected ∧ (∀ thread, after.threads thread = .finished) ∧
      stopThrows state script = true := by
  have joined := (ordered.placed _ _ busy).2
  rw [stopThrows, busy]
  cases held : state.workerException with
  | none =>
    simp only [pcStep, held, Option.some.injEq] at moved
    subst moved
    cases completes
  | some fault =>
    simp only [pcStep, held, Option.some.injEq] at moved
    subst moved
    exact ⟨rfl, ordered.finished_of_joined joined, rfl⟩

theorem disconnect_completes (ordered : Ordered state) (busy : state.caller = .busy .disable .disconnect)
    (moved : pcStep platform state script available .disable .disconnect = some after)
    (completes : after.caller = .idle) : Disabled after := by
  have halted : state.running = false := ordered.placed _ _ busy
  have dead : ¬Live state := by
    intro live
    rw [live.running fun call waiting => by rw [busy] at waiting; cases waiting] at halted
    cases halted
  simp only [pcStep, Option.some.injEq] at moved
  subst moved
  rcases disconnect_cases platform (state.backend.withScript script) with thrown | ⟨usb, returned⟩
  · rcases outcome : exec (disconnect platform) (state.backend.withScript script) with ⟨fault | _, backend⟩
    · rw [outcome] at thrown completes
      cases thrown
      simp only [State.resume] at completes
      cases busy.symm.trans completes
    · rw [outcome] at thrown
      cases thrown
  · rw [returned]
    exact ⟨rfl, ordered.finished_of_not_live dead⟩

/-- Until stop() has joined the worker, disable() goes on. -/
theorem goes_on {pc : Pc} (early : pc = .guard ∨ pc = .stopExchange ∨ ∃ wasRunning, pc = .stopJoin wasRunning)
    (moved : pcStep platform state script available .disable pc = some after) : after.caller ≠ .idle := by
  intro completes
  rcases early with rfl | rfl | ⟨wasRunning, rfl⟩
  · cases running : state.running with
    | true =>
      simp only [pcStep, if_pos running, Option.some.injEq] at moved
      subst moved
      cases completes
    | false =>
      simp only [pcStep, running, Bool.false_eq_true, ↓reduceIte, Option.some.injEq] at moved
      subst moved
      cases completes
  · simp only [pcStep, Option.some.injEq] at moved
    subst moved
    cases completes
  · obtain ⟨next, _, same⟩ := Option.map_eq_some_iff.mp moved
    subst same
    cases completes

/-- Whenever disable() completes, it has disabled the arm, unless stop() threw while connected. -/
theorem disable_disables_iff {pc : Pc} (reached : Reach (machine platform config) Anything state)
    (busy : state.caller = .busy .disable pc)
    (moved : step platform state (.caller script available) = some after) (completes : after.caller = .idle) :
    Disabled after ↔ state.backend.connected = false ∨ stopThrows state script = false := by
  have alive := step_alive moved
  have ordered := ordered_of_reach reached alive
  have built := consistent_of_reach reached alive
  have stepped := step_caller busy moved
  rcases disable_stages (inside_of_reach reached alive _ _ busy) with early | rfl | rfl | rfl
  · exact absurd completes (goes_on early stepped)
  · obtain ⟨kept, finished, throws⟩ := zero_completes built ordered busy stepped completes
    rw [Disabled, kept]
    cases connected : state.backend.connected with
    | false => simp [finished]
    | true => simp [throws connected]
  · obtain ⟨kept, finished, throws⟩ := rethrow_completes ordered busy stepped completes
    rw [Disabled, kept, throws]
    simp [finished]
  · refine iff_of_true (disconnect_completes ordered busy stepped completes) ?_
    right
    rw [stopThrows, busy]

end Step

/-- Enabled, started and stopped, then disabled. -/
theorem stopped_arm_disables : ∃ state after : State (joints [(1, 0x11)]),
    Reach (machine Platform.wrapping (joints [(1, 0x11)])) Anything state ∧
    step Platform.wrapping state quietly = some after ∧ after.caller = .idle ∧ Disabled after := by
  have ran : ((machine Platform.wrapping (joints [(1, 0x11)])).run (fun _ _ => true)
      (oneBatch ++ [.call .disable, quietly, quietly, loops, loops, quietly, quietly, quietly])
      (initialState (joints [(1, 0x11)]))).bind (fun state =>
        ((machine Platform.wrapping (joints [(1, 0x11)])).step state quietly).map fun after =>
          decide (state.caller = .busy .disable .disconnect ∧ after.caller = .idle ∧
            stopThrows state [] = false)) = some true := by decide +kernel
  obtain ⟨state, after, reached, moved, busy, completes, calm⟩ := Machine.reach_step_checked rfl ran
  exact ⟨state, after, reached.anything, moved, completes,
    (disable_disables_iff reached.anything busy moved completes).mpr (.inr calm)⟩

/-- The zero batch cannot be sent, and disable() leaves the arm connected. -/
theorem unsent_zero_stays_connected : ∃ (state after : State (joints [(1, 0x11)])) (script : List Slot) (pc : Pc),
    Reach (machine Platform.wrapping (joints [(1, 0x11)])) Anything state ∧ state.caller = .busy .disable pc ∧
    step Platform.wrapping state (.caller script true) = some after ∧ after.caller = .idle ∧ ¬Disabled after := by
  have ran : ((machine Platform.wrapping (joints [(1, 0x11)])).run (fun _ _ => true)
      (oneBatch ++ [.call .disable, quietly, quietly, loops, loops, quietly])
      (initialState (joints [(1, 0x11)]))).bind (fun state =>
        ((machine Platform.wrapping (joints [(1, 0x11)])).step state
          (.caller [{ throws := true }] true)).map fun after =>
          decide (state.caller = .busy .disable .stopZero ∧ after.caller = .idle ∧
            after.backend.connected = true)) = some true := by decide +kernel
  obtain ⟨state, after, reached, moved, busy, completes, connected⟩ := Machine.reach_step_checked rfl ran
  refine ⟨state, after, _, _, reached.anything, busy, moved, completes, ?_⟩
  intro given
  obtain ⟨released, _⟩ := given
  exact Bool.false_ne_true (released.symm.trans connected)

end DmOpenarm.Disabling
