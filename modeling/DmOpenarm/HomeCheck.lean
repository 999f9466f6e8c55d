import DmOpenarm.Feedback
import DmOpenarm.Lifecycle

/-! What start_mit_loop() has seen when it returns in time. The states it polls start from zero,
which is within the tolerance, so a motor that has never answered counts as homed. -/

namespace DmOpenarm.HomeCheck
open Types hiding ControlMode
open Damiao MotorBus Backend Registry Traffic Session SessionMoves Feedback YamlLoader
open Library.Runs Library.Effect Library.Ieee Library.Latest
open Operations hiding Action Move machine
variable {config : ArmConfig}

/-- A connected backend has kept its motors up to date since its Motor_Control was made. -/
def SinceConnect (backend : DmSerialBackend config) : Prop :=
  ∀ control, backend.control = some control → ∃ start : Host config.motors.length,
    start.usb.received = [] ∧ (∀ motor, measured start.control motor = (0, 0, 0)) ∧
      Tracks (initData config) start ⟨control, backend.usb⟩

theorem SinceConnect.move (apart : Unambiguous (initData config)) {before after : DmSerialBackend config}
    (built : Consistent before) (since : SinceConnect before) (move : Operations.Move before after) :
    SinceConnect after := by
  intro control same
  cases move with
  | exchange step =>
    rcases before with ⟨_ | first, usb⟩
    · have connected := service_connected built (.single step)
      rw [DmSerialBackend.connected, same] at connected
      cases connected
    · obtain ⟨start, none, zero, tracks⟩ := since first rfl
      obtain ⟨host, last, kept⟩ := tracks_exchange apart start built step ⟨⟨first, usb⟩, rfl, tracks⟩
      subst last
      cases same
      exact ⟨start, none, zero, kept⟩
  | create usb =>
    cases same
    exact ⟨_, rfl, fun _ => rfl, .refl _⟩
  | release first usb => cases same

theorem sinceConnect_of_reach (apart : Unambiguous (initData config)) {platform : Platform}
    {allowed : State config → Session.Action → Prop} {state : State config}
    (reached : Reach (machine platform config) allowed state) (alive : state.terminated = false) :
    Consistent state.backend ∧ SinceConnect state.backend := by
  let inv (state : State config) : Prop := Consistent state.backend ∧ SinceConnect state.backend
  have base : inv (initialState config) := by
    constructor
    · intro control same
      cases same
    · intro control same
      cases same
  have kept : ∀ before action after, allowed before action → after.terminated = false →
      SessionMoves.Move before action after → inv before → inv after := by
    intro before action after _ still move both
    exact (serial config).keeps SinceConnect (fun _ _ built step since => since.move apart built step)
      (move.obeys still both.1) both.1 both.2
  exact reach_moves base kept reached alive

/-- The time at which start_mit_loop() gives up. -/
def givesUp : Pc → Option Double
  | .poll deadline => some deadline
  | .late deadline => some deadline
  | .pause deadline => some deadline
  | _ => none

/-- Every reported position is within the tolerance. -/
def near (entries : List MotorState) : Bool := entries.all fun entry => |entry.position| < posTol

/-- start_mit_loop() returns after a poll that found every motor near zero, or too late. -/
theorem returned_near {platform : Platform} {state after : State config} (reached : Reach (machine platform config) Anything state)
    {script : List Slot} {available : Bool} {hz zeroTimeout : Double} {pc : Pc}
    (busy : state.caller = .busy (.startMitLoop hz zeroTimeout) pc)
    (moved : step platform state (.caller script available) = some after)
    (returned : after.log = .returned (.startMitLoop hz zeroTimeout) :: state.log)
    (early : ∀ deadline, givesUp pc = some deadline → deadline.le (.finite state.clock) = false) :
    ∃ entries, Backend.states state.backend = .ok entries ∧ near entries = true := by
  have inside := Lifecycle.inside_of_reach reached (step_alive moved) _ _ busy
  have stepped := step_caller busy moved
  have top := (step_move moved).top returned
  cases top with
  | plain free => cases free
  | @returned _ _ _ place _ here returns _ =>
    cases busy.symm.trans here
    cases returns with
    | free free =>
      cases pc with
      | poll deadline =>
        cases read : Backend.states state.backend with
        | ok entries =>
          refine ⟨entries, rfl, ?_⟩
          by_contra far
          unfold near at far
          simp only [pcStep, read, if_neg far, Option.some.injEq] at stepped
          subst stepped
          exact List.cons_ne_self _ _ returned.symm
        | error fault =>
          simp only [pcStep, read, Option.some.injEq] at stepped
          subst stepped
          cases returned
      | late deadline =>
        have soon := early deadline rfl
        simp only [pcStep, soon, Bool.false_eq_true, ↓reduceIte, Option.some.injEq] at stepped
        subst stepped
        exact absurd returned.symm (List.cons_ne_self _ _)
      | operate | assign _ | disconnect => simp [Lifecycle.stage, Lifecycle.stages] at inside
      | _ => cases free
    | already running direct => exact absurd rfl (direct hz zeroTimeout)
    | spawned direct => exact absurd rfl (direct hz zeroTimeout)
    | skipped halted => simp [Lifecycle.stage, Lifecycle.stages] at inside
    | stopped clean => simp [Lifecycle.stage, Lifecycle.stages] at inside

/-- Every motor has sent feedback since the arm was connected. -/
def Answered (backend : DmSerialBackend config) : Prop :=
  ∀ motor, ∃ reception ∈ backend.usb.received, IsFeedback (initData config) motor reception

/-- The latest feedback of every motor since the arm was connected reports a position near zero. -/
def Confirmed (backend : DmSerialBackend config) : Prop :=
  ∀ motor, ∃ value, latest (reported (initData config) motor) backend.usb.received = some value ∧
    |value.1| < posTol

theorem answered_of_confirmed {backend : DmSerialBackend config} (confirmed : Confirmed backend) :
    Answered backend := by
  intro motor
  obtain ⟨value, found, _⟩ := confirmed motor
  obtain ⟨before, reception, after, same, gave, _⟩ := latest_eq_some found
  refine ⟨reception, ?_, ?_⟩
  · rw [same]
    simp
  · by_contra silent
    rw [reported, if_neg silent] at gave
    cases gave

theorem latest_of_answered {backend : DmSerialBackend config} (answered : Answered backend)
    (motor : Fin config.motors.length) :
    ∃ value, latest (reported (initData config) motor) backend.usb.received = some value := by
  obtain ⟨reception, member, feedback⟩ := answered motor
  rw [← Option.isSome_iff_exists, latest, List.findSome?_isSome_iff]
  refine ⟨reception, List.mem_reverse.mpr member, ?_⟩
  rw [reported, if_pos feedback]
  rfl

/-- When start_mit_loop() returns in time, homing is confirmed if every motor has answered, as
long as each frame received since the arm was connected was taken for what it is. -/
theorem home_confirmed_iff {platform : Platform} (apart : Unambiguous (initData config)) {state after : State config}
    (reached : Reach (machine platform config) Anything state) {script : List Slot} {available : Bool}
    {hz zeroTimeout : Double} {pc : Pc} (busy : state.caller = .busy (.startMitLoop hz zeroTimeout) pc)
    (moved : step platform state (.caller script available) = some after)
    (returned : after.log = .returned (.startMitLoop hz zeroTimeout) :: state.log)
    (early : ∀ deadline, givesUp pc = some deadline → deadline.le (.finite state.clock) = false)
    (sorted : ∀ reception ∈ state.backend.usb.received, Sorted (initData config) reception) :
    Confirmed state.backend ↔ Answered state.backend := by
  refine ⟨answered_of_confirmed, ?_⟩
  intro answered motor
  obtain ⟨entries, read, close⟩ := returned_near reached busy moved returned early
  obtain ⟨built, since⟩ := sinceConnect_of_reach apart reached (step_alive moved)
  rcases connected : state.backend with ⟨_ | control, usb⟩
  · rw [connected] at read
    cases read
  rw [connected] at read sorted answered since built
  obtain ⟨start, none, zero, received, grown, follows⟩ := since control rfl
  rw [none, List.nil_append] at grown
  change usb.received = received at grown
  subst grown
  rw [states_eq apart (built control rfl)] at read
  cases read
  obtain ⟨value, found⟩ := latest_of_answered answered motor
  refine ⟨value, found, ?_⟩
  have measures := follows sorted motor
  rw [show latest _ usb.received = some value from found, Option.getD_some] at measures
  have here := List.all_eq_true.mp close _ (List.mem_ofFn.mpr ⟨motor, rfl⟩)
  rw [← measures]
  exact of_decide_eq_true here

/-- Feedback of a joint in the middle of its range. -/
def middleFrame : CanFrame where
  id := 0x11
  data index := if index = 1 then 0x80 else 0

/-- The homing of one joint, up to its first poll. -/
def firstPoll : List Session.Action :=
  [.call (.startMitLoop (.finite 1000) (.finite 5)), quietly, quietly, quietly, quietly, quietly, quietly, quietly,
    quietly]

theorem answered_joint_is_home : ∃ state after : State (joints [(1, 0x11)]),
    step Platform.wrapping state quietly = some after ∧
    after.log = .returned (.startMitLoop (.finite 1000) (.finite 5)) :: state.log ∧ Confirmed state.backend := by
  have ran : ((machine Platform.wrapping (joints [(1, 0x11)])).run (fun _ _ => true)
      ([.call .enable, quietly, .receive { frame := modeFrame, reply := true }, .receive { frame := middleFrame }] ++
        firstPoll) (initialState (joints [(1, 0x11)]))).bind (fun state =>
      ((machine Platform.wrapping (joints [(1, 0x11)])).step state quietly).map fun after =>
        decide (state.caller = .busy (.startMitLoop (.finite 1000) (.finite 5)) (.poll (.finite 5)) ∧ state.clock = 0 ∧
          after.log = .returned (.startMitLoop (.finite 1000) (.finite 5)) :: state.log ∧
          (∀ reception ∈ state.backend.usb.received, Sorted (initData (joints [(1, 0x11)])) reception) ∧
          ∀ motor, ∃ reception ∈ state.backend.usb.received,
            IsFeedback (initData (joints [(1, 0x11)])) motor reception)) = some true := by decide +kernel
  obtain ⟨state, after, reached, moved, busy, clock, returned, sorted, answered⟩ := Machine.reach_step_checked rfl ran
  have early : ∀ deadline, givesUp (.poll (.finite 5)) = some deadline → deadline.le (.finite state.clock) = false := by
    intro deadline same
    cases same
    rw [clock]
    rfl
  have apart := unambiguous_of_apart joint_accepted (by decide)
  exact ⟨state, after, moved, returned,
    (home_confirmed_iff apart reached.anything busy moved returned early sorted).mpr answered⟩

/-- Nothing has ever been received, and start_mit_loop() returns at its first poll. -/
theorem silent_joint_is_home : ∃ state after : State (joints [(1, 0x11)]),
    Reach (machine Platform.wrapping (joints [(1, 0x11)])) Anything state ∧
    state.caller = .busy (.startMitLoop (.finite 1000) (.finite 5)) (.poll (.finite 5)) ∧ state.clock = 0 ∧
    step Platform.wrapping state quietly = some after ∧
    after.log = .returned (.startMitLoop (.finite 1000) (.finite 5)) :: state.log ∧ ¬Confirmed state.backend := by
  have ran : ((machine Platform.wrapping (joints [(1, 0x11)])).run (fun _ _ => true)
      ([.call .enable, quietly] ++ firstPoll) (initialState (joints [(1, 0x11)]))).bind (fun state =>
      ((machine Platform.wrapping (joints [(1, 0x11)])).step state quietly).map fun after =>
        decide (state.caller = .busy (.startMitLoop (.finite 1000) (.finite 5)) (.poll (.finite 5)) ∧ state.clock = 0 ∧
          after.log = .returned (.startMitLoop (.finite 1000) (.finite 5)) :: state.log ∧
          state.backend.usb.received.length = 0)) = some true := by decide +kernel
  obtain ⟨state, after, reached, moved, busy, clock, returned, none⟩ := Machine.reach_step_checked rfl ran
  refine ⟨state, after, reached.anything, busy, clock, moved, returned, ?_⟩
  intro confirmed
  obtain ⟨value, found, _⟩ := confirmed ⟨0, by decide⟩
  rw [List.eq_nil_of_length_eq_zero none] at found
  cases found

end DmOpenarm.HomeCheck
