import DmOpenarm.Dispatch
import DmOpenarm.Feedback
import DmOpenarm.Shutdown

/-! What the arm keeps of the frames it has received. Every frame is taken for feedback, for the
value of a register, or for nothing, and a motor is what the last of each kind has said. -/

namespace DmOpenarm.Records
open Types hiding ControlMode
open Damiao Registry Reception MotorBus Backend Traffic Operations ReliableBus Feedback Dispatch YamlLoader
open Library.FirstWins Library.Effect Library.Runs Library.Latest

section Bus
variable {n : Nat} (data : Fin n → DmActData)

/-- What a received frame is taken for. -/
inductive Reading (n : Nat) where
  | nothing
  | feedback (motor : Fin n) (pose : ℚ × ℚ × ℚ)
  | register (motor : Fin n) (rid : Byte) (bits : BitVec 32)

/-- While a register access is pending no frame is taken for feedback, and otherwise none for a
register value, whatever the motor meant by it. -/
def reading (reception : Reception) : Reading n :=
  match (MotorControl.registry data).find? (reception.frame.id.setWidth 16) with
  | none => .nothing
  | some motor =>
      if reception.pending then
        if reception.frame.data 2 = 0x33 ∨ reception.frame.data 2 = 0x55 then
          match (MotorControl.registry data).find? (word16 (reception.frame.data 1) (reception.frame.data 0)) with
          | none => .nothing
          | some target => .register target (reception.frame.data 3) (word32 reception.frame.data)
        else .nothing
      else .feedback motor (MotorControl.feedback (limitParam (data motor).motorType) reception.frame.data)

/-- The pose that a reading gives to a motor. -/
def Reading.pose (motor : Fin n) : Reading n → Option (ℚ × ℚ × ℚ)
  | .feedback target pose => if motor = target then some pose else none
  | _ => none

/-- The value that a reading gives to a register of a motor. -/
def Reading.value (motor : Fin n) (rid : Byte) : Reading n → Option ValueType
  | .register target written bits =>
      if motor = target ∧ rid = written then some ⟨bits, !isInRanges rid⟩ else none
  | _ => none

/-- The mode that a reading gives to a motor. Unknown mode numbers give none. -/
def Reading.mode (motor : Fin n) : Reading n → Option ControlMode
  | .register target written bits => if motor = target ∧ written = 10 then modeOfRegister bits else none
  | _ => none

/-- A motor is what the last reading of each kind has said of it. -/
structure Logged (received : List Reception) (control : MotorControl n) : Prop where
  pose : ∀ motor, measured control motor =
    (latest (fun reception => (reading data reception).pose motor) received).getD (0, 0, 0)
  heard : ∀ motor, (control.objects motor).deltaTime.isSome =
    (latest (fun reception => (reading data reception).pose motor) received).isSome
  mode : ∀ motor, (control.objects motor).mode =
    (latest (fun reception => (reading data reception).mode motor) received).getD (data motor).mode
  params : ∀ motor rid, (control.objects motor).paramMap rid =
    latest (fun reception => (reading data reception).value motor rid) received

variable {data}

/-- The motors before and after a reading. -/
structure Applied (read : Reading n) (before after : MotorControl n) : Prop where
  pose : ∀ motor, measured after motor = (read.pose motor).getD (measured before motor)
  heard : ∀ motor, (after.objects motor).deltaTime.isSome =
    ((read.pose motor).isSome || (before.objects motor).deltaTime.isSome)
  mode : ∀ motor, (after.objects motor).mode = (read.mode motor).getD (before.objects motor).mode
  params : ∀ motor rid, (after.objects motor).paramMap rid =
    (read.value motor rid).or ((before.objects motor).paramMap rid)

theorem Applied.nothing (control : MotorControl n) (pending : Bool) :
    Applied .nothing control { control with readWriteSave := pending } :=
  ⟨fun _ => rfl, fun _ => rfl, fun _ => rfl, fun _ _ => rfl⟩

theorem Applied.feedback (control : MotorControl n) (motor : Fin n) (now : Int) (received : Fin 64 → Byte) :
    Applied (.feedback motor (MotorControl.feedback (control.objects motor).limitParam received)) control
      (control.modifyMotor motor fun m => Motor.refreshed m now received) where
  pose other := by
    rw [measured, objects_modifyMotor, Reading.pose]
    by_cases same : other = motor
    · subst same
      rw [if_pos rfl, if_pos rfl]
      rfl
    · rw [if_neg same, if_neg same]
      rfl
  heard other := by
    rw [objects_modifyMotor, Reading.pose]
    by_cases same : other = motor
    · rw [if_pos same, if_pos same]
      rfl
    · rw [if_neg same, if_neg same]
      rfl
  mode other := modifyMotor_each (fun before after => after.mode = before.mode) control motor _ (fun _ => rfl) rfl other
  params other rid := modifyMotor_each (fun before after => after.paramMap rid = before.paramMap rid) control motor _
    (fun _ => rfl) rfl other

/-- The motor whose register a reply names. -/
def Motor.registered (motor : Motor) (rid : Byte) (bits : BitVec 32) : Motor :=
  let stored := motor.setParam rid ⟨bits, !isInRanges rid⟩
  if rid = 10 then stored.setMode ((modeOfRegister bits).getD motor.mode) else stored

/-- A register value is stored, and the number of a known mode in register 10 sets the mode. -/
theorem receiveParam_eq (control : MotorControl n) (received : Fin 64 → Byte) {motor : Fin n}
    (found : control.motors.find? (word16 (received 1) (received 0)) = some motor) :
    control.receiveParam received =
      control.modifyMotor motor fun m => Motor.registered m (received 3) (word32 received) := by
  unfold MotorControl.receiveParam Motor.registered
  simp only [found]
  cases ranged : isInRanges (received 3) with
  | false =>
    have other : received 3 ≠ 10 := by
      intro same
      rw [same] at ranged
      cases ranged
    simp only [Bool.false_eq_true, ↓reduceIte, Bool.not_false, if_neg other]
  | true =>
    simp only [↓reduceIte, Bool.not_true]
    by_cases register : received 3 = 10
    · simp only [if_pos register]
      cases decoded : modeOfRegister (word32 received) with
      | none => rfl
      | some mode =>
        simp only [Option.getD_some, MotorControl.modifyMotor, Function.update_idem, Function.update_self]
    · simp only [if_neg register]

theorem Applied.register (control : MotorControl n) (motor : Fin n) (rid : Byte) (bits : BitVec 32) :
    Applied (.register motor rid bits) control (control.modifyMotor motor fun m => Motor.registered m rid bits) where
  pose other := modifyMotor_each (fun before after => (after.stateQ, after.stateDq, after.stateTau) =
    (before.stateQ, before.stateDq, before.stateTau)) control motor _ (fun _ => rfl)
      (by unfold Motor.registered; split <;> rfl) other
  heard other := modifyMotor_each (fun before after => after.deltaTime.isSome = before.deltaTime.isSome) control motor _
    (fun _ => rfl) (by unfold Motor.registered; split <;> rfl) other
  mode other := by
    rw [objects_modifyMotor, Reading.mode]
    by_cases same : other = motor
    · subst same
      unfold Motor.registered
      by_cases register : rid = 10
      · rw [if_pos rfl, if_pos register, if_pos ⟨rfl, register⟩]
        rfl
      · rw [if_pos rfl, if_neg register, if_neg (fun both => register both.2)]
        rfl
    · rw [if_neg same, if_neg (fun both => same both.1)]
      rfl
  params other key := by
    rw [objects_modifyMotor, Reading.value]
    by_cases same : other = motor
    · subst same
      have stored : (Motor.registered (control.objects other) rid bits).paramMap =
          Function.update (control.objects other).paramMap rid (some ⟨bits, !isInRanges rid⟩) := by
        unfold Motor.registered
        split <;> rfl
      rw [if_pos rfl, stored, Function.update_apply]
      by_cases named : key = rid
      · rw [if_pos named, if_pos ⟨rfl, named⟩, named, Option.some_or]
      · rw [if_neg named, if_neg (fun both => named both.2), Option.none_or]
    · rw [if_neg same, if_neg (fun both => same both.1), Option.none_or]

/-- Receiving a frame does to the motors what its reading says. -/
theorem applied_receive {host : Host n} (built : Built data host.control) (arrival : Arrival) :
    Applied (reading data ⟨arrival.frame, arrival.reply, host.control.readWriteSave⟩) host.control
      (host.receive arrival).control := by
  change Applied _ host.control (host.control.canframeCallback (host.usb.clock + arrival.elapsed) arrival.frame)
  unfold MotorControl.canframeCallback reading
  dsimp only
  rw [← built.motors]
  cases found : host.control.motors.find? (arrival.frame.id.setWidth 16) with
  | none =>
    simp only [Option.isSome_none, Bool.and_false, Bool.false_eq_true, ↓reduceIte]
    exact .nothing host.control host.control.readWriteSave
  | some motor =>
    cases pending : host.control.readWriteSave with
    | false =>
      simp only [Bool.false_and, Bool.false_eq_true, ↓reduceIte, ← built.limits]
      exact .feedback host.control motor _ _
    | true =>
      simp only [Option.isSome_some, Bool.and_self, ↓reduceIte]
      by_cases access : arrival.frame.data 2 = 0x33 ∨ arrival.frame.data 2 = 0x55
      · have reply : arrival.frame.data 2 = 0x33 ∨ arrival.frame.data 2 = 0x55 ∨ arrival.frame.data 2 = 0xAA :=
          access.imp id .inl
        simp only [if_pos access, if_pos reply]
        cases target : host.control.motors.find? (word16 (arrival.frame.data 1) (arrival.frame.data 0)) with
        | none =>
          rw [MotorControl.receiveParam, target]
          exact .nothing host.control false
        | some named =>
          have applied := Applied.register host.control named (arrival.frame.data 3) (word32 arrival.frame.data)
          rw [← receiveParam_eq host.control arrival.frame.data target] at applied
          exact ⟨applied.pose, applied.heard, applied.mode, applied.params⟩
      · simp only [if_neg access]
        by_cases save : arrival.frame.data 2 = 0x33 ∨ arrival.frame.data 2 = 0x55 ∨ arrival.frame.data 2 = 0xAA
        · simp only [if_pos save]
          exact .nothing host.control false
        · simp only [if_neg save]
          exact .nothing host.control host.control.readWriteSave

theorem Logged.new (now : Int) : Logged data [] (MotorControl.new data now) :=
  ⟨fun _ => rfl, fun _ => rfl, fun _ => rfl, fun _ _ => rfl⟩

theorem Logged.receive {host : Host n} (built : Built data host.control)
    (logged : Logged data host.usb.received host.control) (arrival : Arrival) :
    Logged data (host.receive arrival).usb.received (host.receive arrival).control := by
  have applied := applied_receive built arrival
  have grown : (host.receive arrival).usb.received =
      host.usb.received ++ [⟨arrival.frame, arrival.reply, host.control.readWriteSave⟩] := rfl
  have combined {α : Type} (new old : Option α) (first : α) : new.getD (old.getD first) = (new.or old).getD first := by
    cases new with
    | none => rfl
    | some value => rfl
  refine ⟨fun motor => ?_, fun motor => ?_, fun motor => ?_, fun motor rid => ?_⟩
  · rw [applied.pose, logged.pose, grown, latest_append, combined]
  · rw [applied.heard, logged.heard, grown, latest_append, Option.isSome_or]
  · rw [applied.mode, logged.mode, grown, latest_append, combined]
  · rw [applied.params, logged.params, grown, latest_append]

theorem Logged.advance {host : Host n} (built : Built data host.control)
    (logged : Logged data host.usb.received host.control) :
    Logged data host.advance.usb.received host.advance.control :=
  (advance_keeps (fun now => Built data now.control ∧ Logged data now.usb.received now.control)
    (fun _ arrival both => ⟨both.1.receive arrival, both.2.receive both.1 arrival⟩)
    (fun _ _ both => both) ⟨built, logged⟩).2

end Bus

variable {config : ArmConfig}

/-- A connected arm keeps what its log says. -/
def KeepsLog (backend : DmSerialBackend config) : Prop :=
  ∀ control, backend.control = some control → Logged (initData config) backend.usb.received control

theorem KeepsLog.move {before after : DmSerialBackend config} (built : Consistent before) (move : Move before after)
    (holds : KeepsLog before) : KeepsLog after := by
  intro control same
  cases move with
  | exchange step =>
    cases step with
    | @bus start last step =>
      cases same
      have logged := holds _ rfl
      cases step with
      | wait => exact logged.advance (built _ rfl)
      | send frame addressed => exact logged.advance (built _ rfl)
      | expect => exact ⟨logged.pose, logged.heard, logged.mode, logged.params⟩
    | receive host arrival =>
      cases same
      exact Logged.receive (built _ rfl) (holds _ rfl) arrival
    | script backend script => exact holds control same
  | create usb =>
    cases same
    exact .new _
  | release control usb => cases same

theorem keepsLog_idle {backend : DmSerialBackend config} (absent : backend.control = none) : KeepsLog backend := by
  intro control same
  rw [absent] at same
  cases same

/-- An entry of the states shows what the log says of a motor. -/
def Shows (config : ArmConfig) (received : List Reception) (motor : Fin config.motors.length)
    (motorConfig : MotorConfig) (state : MotorState) : Prop :=
  let said := latest (fun reception => (reading (initData config) reception).pose motor) received
  state.canId = motorConfig.canId ∧ state.mstId = motorConfig.mstId ∧
    (state.position, state.velocity, state.torque) = said.getD (0, 0, 0) ∧
    state.feedbackInterval.isSome = said.isSome

theorem states_of_logged {control : MotorControl config.motors.length} {usb : Usb} (built : Built (initData config) control)
    (logged : Logged (initData config) usb.received control) :
    ∃ entry : Fin config.motors.length → MotorState, states ⟨some control, usb⟩ = .ok (List.ofFn entry) ∧
      ∀ index, ∃ motor, resolve config (config.motors.get index).canId = some motor ∧
        Shows config usb.received motor (config.motors.get index) (entry index) := by
  choose found looked using exists_find?_canId (initData config)
  have read (index : Fin config.motors.length) : readState control (config.motors.get index) =
      .ok (stateOf control (config.motors.get index) (found index)) := by
    have here : control.getMotor (config.motors.get index).canId = some (found index) := by
      rw [MotorControl.getMotor, built.motors]
      exact looked index
    rw [readState, here]
  refine ⟨_, mapM_ok read, ?_⟩
  intro index
  exact ⟨found index, looked index, rfl, rfl, logged.pose _, logged.heard _⟩

/-- In every run the connected arm is what its log says: each entry of the states shows the latest
frame taken for feedback of the motor that its CAN ID leads to, and each motor holds the latest
value of each of its registers and the latest known mode. -/
theorem arm_follows_log {platform : Platform} {control : MotorControl config.motors.length} {usb : Usb}
    (reached : Reach (machine platform config) Anything ⟨some control, usb⟩) :
    (∃ entry : Fin config.motors.length → MotorState, states ⟨some control, usb⟩ = .ok (List.ofFn entry) ∧
      ∀ index, ∃ motor, resolve config (config.motors.get index).canId = some motor ∧
        Shows config usb.received motor (config.motors.get index) (entry index)) ∧
      ∀ motor, (control.objects motor).mode =
          (latest (fun reception => (reading (initData config) reception).mode motor) usb.received).getD .MIT_MODE ∧
        ∀ rid, (control.objects motor).paramMap rid =
          latest (fun reception => (reading (initData config) reception).value motor rid) usb.received := by
  have logged : Logged (initData config) usb.received control :=
    reach_keeps KeepsLog (fun _ => keepsLog_idle) (fun _ _ built move => KeepsLog.move built move) reached control rfl
  exact ⟨states_of_logged (reach_built reached control rfl) logged,
    fun motor => ⟨logged.mode motor, logged.params motor⟩⟩

/-- Motor 1 has answered a read of register 10 and has then reported its state. -/
theorem joint_follows_log : ∃ backend : DmSerialBackend (joints [(1, 0x11)]),
    backend.usb.received.length = 2 ∧ ∃ state, states backend = .ok [state] ∧
      state.feedbackInterval.isSome = true ∧ (state.position, state.velocity, state.torque) =
        MotorControl.feedback (limitParam .DM4310) (fun place => if place = 1 then 0x80 else 0) := by
  have ran : ((machine Platform.wrapping (joints [(1, 0x11)])).run (fun _ _ => true)
      [.operate .connect [], .receive { frame := Shutdown.switchingReply, reply := true },
        .receive { frame := { id := 0x11, data := fun place => if place = 1 then 0x80 else 0 } }] {}).map
      (fun backend => decide (backend.connected = true ∧ backend.usb.received.length = 2 ∧
        (latest (fun reception => (reading (initData (joints [(1, 0x11)])) reception).pose ⟨0, by decide⟩)
          backend.usb.received) = some (MotorControl.feedback (limitParam .DM4310)
            (fun place => if place = 1 then 0x80 else 0)))) = some true := by decide +kernel
  obtain ⟨backend, reached, connected, two, said⟩ := Machine.reach_checked rfl ran
  rcases backend with ⟨_ | control, usb⟩
  · cases connected
  obtain ⟨⟨entry, shown, each⟩, _⟩ := arm_follows_log reached.anything
  obtain ⟨motor, _, _, _, pose, heard⟩ := each ⟨0, by decide⟩
  have only : motor = ⟨0, by decide⟩ := Fin.ext (by have := motor.isLt; simp [joints] at this; omega)
  subst only
  rw [said] at pose heard
  exact ⟨_, two, entry ⟨0, by decide⟩, shown, heard, pose⟩

end DmOpenarm.Records
