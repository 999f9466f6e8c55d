import DmOpenarm.Operations

/-! What the operations of the backend throw. Only releasing Motor_Control can end the process:
the exit() calls of the SDK wait for a motor that is missing from its own registry. -/

namespace DmOpenarm.Faults
open Types hiding ControlMode
open Damiao Registry MotorBus Backend Traffic Operations Library.FirstWins Library.Effect

/-- A send has failed, or there is nothing to send with. -/
def Lost (fault : Fault) : Prop := fault = .usb ∨ fault = notConnected

/-- The process goes on. -/
def Mild (fault : Fault) : Prop := fault.fatal = false

theorem Lost.mild {fault : Fault} (lost : Lost fault) : Mild fault := by
  rcases lost with rfl | rfl <;> rfl

section Bus
variable {n : Nat} {data : Fin n → DmActData}

theorem fdcanFrameSend_throws (frame : TxFrame) : Throws (bus data) Lost (fdcanFrameSend frame) := by
  intro host _ fault thrown
  rw [exec_fdcanFrameSend] at thrown
  cases fails : host.throwsNext with
  | false =>
    rw [fails] at thrown
    cases thrown
  | true =>
    rw [fails] at thrown
    cases thrown
    exact .inl rfl

theorem usleep_throws : Throws (bus data) Lost usleep := .modify _

theorem command_throws (motor : Fin n) (cmd : Byte) :
    Throws (bus data) Lost (commandId motor >>= fun command => controlCmd command cmd) := by
  refine Throws.after_read (exec_commandId motor) ?_
  intro command
  exact fdcanFrameSend_throws _

theorem fiveTimes_throws {body : Sdk n Unit} (follows : Follows (bus data) body)
    (each : Throws (bus data) Lost body) : Throws (bus data) Lost (fiveTimes body) :=
  .forM _ (fun _ _ => follows) fun _ _ => each

theorem readMotorParam_throws (motor : Fin n) (rid : Byte) : Throws (bus data) Lost (readMotorParam motor rid) := by
  refine expectReply_follows.throws_bind (.modify _) fun _ => ?_
  refine Throws.after_read (exec_motorCanId motor) ?_
  intro id
  exact (registerFrame_follows id _).throws_bind (fdcanFrameSend_throws _) fun _ => usleep_throws

theorem writeMotorParam_throws (motor : Fin n) (rid : Byte) (value : List Byte) :
    Throws (bus data) Lost (writeMotorParam motor rid value) := by
  refine expectReply_follows.throws_bind (.modify _) fun _ => ?_
  refine Throws.after_read (exec_motorCanId motor) ?_
  intro id
  exact fdcanFrameSend_throws _

/-- A motor of the host is always found under its own CAN ID. -/
theorem found_of_built {control : MotorControl n} (built : Built data control) (motor : Fin n) :
    ∃ found, control.motors.find? (control.objects motor).canId = some found := by
  rw [built.motors, built.canId]
  exact exists_find?_canId data motor

theorem switchControlMode_throws (motor : Fin n) (code : Byte) :
    Throws (bus data) Lost (switchControlMode motor code) := by
  refine (writeMotorParam_follows motor 10 _).throws_bind (writeMotorParam_throws motor 10 _) fun _ => ?_
  refine Throws.get_bind ?_
  intro host built fault thrown
  obtain ⟨found, lookup⟩ := found_of_built built motor
  simp only [lookup] at thrown
  cases thrown

theorem saveMotorParam_throws {motor : Fin n} (registered : Registered data motor) :
    Throws (bus data) Lost (saveMotorParam motor) := by
  have saves (id : Id) : Throws (bus data) Lost (do
      let command ← commandId motor
      controlCmd command 0xFD
      usleep
      modify Host.expectReply
      fdcanFrameSend (registerFrame id [0xAA, 0x01, 0, 0, 0, 0])
      usleep) := by
    refine (command_follows registered 0xFD).throws_bind (command_throws motor 0xFD) fun _ => ?_
    refine usleep_follows.throws_bind usleep_throws fun _ => ?_
    refine expectReply_follows.throws_bind (.modify _) fun _ => ?_
    exact (registerFrame_follows id _).throws_bind (fdcanFrameSend_throws _) fun _ => usleep_throws
  exact Throws.after_read (exec_motorCanId motor) saves

theorem enableAll_throws (platform : Platform) : Throws (bus data) Lost (enableAll platform) := by
  refine Throws.read_bind (exec_registered platform) ?_ ?_
  · intro host fault _ failed
    cases failed
  intro host motors built same
  cases same
  have registered : ∀ motor ∈ (platform.enumerate host.control.motors).map Prod.snd, Registered data motor := by
    intro motor member
    rw [built.motors] at member
    exact (mem_enumerate_iff platform motor).mp member
  generalize (platform.enumerate host.control.motors).map Prod.snd = motors at registered
  refine (switchModes_follows motors).throws_bind (.forM _ (fun motor _ => ?_) fun motor _ => ?_) (fun _ => ?_) host built
  · exact switchMode_follows motor
  · refine Throws.after_read (exec_motorMode motor) ?_
    intro mode
    exact (switchControlMode_follows motor _).throws_bind (switchControlMode_throws motor _) fun _ => usleep_throws
  have asks (motor : Fin n) : Follows (bus data) (readMotorParam motor 10 >>= fun _ => usleep) :=
    (readMotorParam_follows motor 10).bind fun _ => usleep_follows
  refine (readModes_follows motors).throws_bind (.forM _ (fun motor _ => fiveTimes_follows (asks motor))
    fun motor _ => ?_) fun _ => ?_
  · apply fiveTimes_throws (asks motor)
    exact (readMotorParam_follows motor 10).throws_bind (readMotorParam_throws motor 10) fun _ => usleep_throws
  have enables (motor : Fin n) (member : motor ∈ motors) := pausedCommand_follows (registered motor member) 0xFC
  refine .forM _ (fun motor member => fiveTimes_follows (enables motor member)) fun motor member => ?_
  apply fiveTimes_throws (enables motor member)
  exact (command_follows (registered motor member) 0xFC).throws_bind (command_throws motor 0xFC) fun _ => usleep_throws

theorem controlMit_throws (platform : Platform) (motor : Fin n) (command : MitCommand) :
    Throws (bus data) Lost (controlMit platform motor command) := by
  intro host built fault thrown
  obtain ⟨found, lookup⟩ := found_of_built built motor
  rw [exec_controlMit, lookup] at thrown
  exact fdcanFrameSend_throws _ host built fault thrown

/-- What set_zero does once it has found a motor. -/
def zeroMotor (platform : Platform) (motor : Fin n) (persist : Bool) : Sdk n Unit := do
  setZeroPosition motor
  usleep
  if persist then do
    saveMotorParam motor
    usleep
    enableAll platform
    usleep
  else pure ()

theorem zeroMotor_throws (platform : Platform) {motor : Fin n} (registered : Registered data motor) (persist : Bool) :
    Throws (bus data) Lost (zeroMotor platform motor persist) := by
  refine (setZeroPosition_follows registered).throws_bind (command_throws motor 0xFE) fun _ => ?_
  refine usleep_follows.throws_bind usleep_throws fun _ => ?_
  cases persist with
  | false => exact .pure _
  | true =>
    refine (saveMotorParam_follows registered).throws_bind (saveMotorParam_throws registered) fun _ => ?_
    refine usleep_follows.throws_bind usleep_throws fun _ => ?_
    exact (enableAll_follows platform).throws_bind (enableAll_throws platform) fun _ => usleep_throws

end Bus

variable {config : ArmConfig}

theorem onControl_throws {α : Type} {program : Sdk config.motors.length α}
    (each : Throws (bus (initData config)) Lost program) : Throws (service config) Lost (onControl program) := by
  intro backend built fault thrown
  rcases backend with ⟨_ | control, usb⟩
  · cases thrown
    exact .inr rfl
  · exact each ⟨control, usb⟩ (built control rfl) fault thrown

theorem requireConnected_throws : Throws (service config) Lost requireConnected := by
  refine Throws.get_bind ?_
  intro backend _ fault thrown
  cases connected : backend.connected with
  | false =>
    rw [connected] at thrown
    cases thrown
    exact .inr rfl
  | true =>
    rw [connected] at thrown
    cases thrown

/-- The lookup of a configured motor finds one, so its command never throws for want of a motor. -/
theorem sendCommand_throws (platform : Platform) {entry : MotorConfig × MitCommand}
    (known : entry.1 ∈ config.motors) : Throws (service config) Lost (sendCommand platform entry) := by
  refine Throws.read_bind (exec_lookupMotor entry.1.canId) ?_ ?_
  · intro backend fault _ failed
    rcases backend with ⟨_ | control, usb⟩
    · cases failed
      exact .inr rfl
    · cases failed
  · intro backend value built seen
    rcases backend with ⟨_ | control, usb⟩
    · cases seen
    · cases seen
      obtain ⟨index, inside, same⟩ := List.mem_iff_getElem.mp known
      obtain ⟨motor, found⟩ := exists_find?_canId (initData config) ⟨index, inside⟩
      have canId : (initData config ⟨index, inside⟩).canId = entry.1.canId := by rw [← same]; rfl
      have lookup : control.getMotor entry.1.canId = some motor := by
        rw [← canId, MotorControl.getMotor, (built control rfl).motors, found]
      rw [lookup]
      exact onControl_throws (controlMit_throws platform motor entry.2) _ built

def countMismatch : Fault := .invalidArgument "MIT command count does not match motor count"

/-- A batch is refused, or the adapter throws in a send. -/
def Refused (fault : Fault) : Prop := fault = countMismatch ∨ Lost fault

theorem Refused.mild {fault : Fault} (refused : Refused fault) : Mild fault := by
  rcases refused with rfl | lost
  · rfl
  · exact lost.mild

theorem sendMitAll_throws (platform : Platform) (commands : List MitCommand) :
    Throws (service config) Refused (sendMitAll platform commands) := by
  refine requireConnected_follows.throws_bind (requireConnected_throws.weaken fun _ => .inr) fun _ => ?_
  by_cases wrong : commands.length ≠ config.motors.length
  · rw [if_pos wrong]
    exact .throw (.inl rfl)
  · rw [if_neg wrong]
    refine .forM _ (fun entry _ => sendCommand_follows platform entry) fun entry member => ?_
    exact (sendCommand_throws platform (List.of_mem_zip member).1).weaken fun _ => .inr

/-- Functions of the SDK that are called one after the other. -/
theorem onControl_bind {α β : Type} (first : Sdk config.motors.length α) (next : α → Sdk config.motors.length β) :
    (onControl first >>= fun value => onControl (next value) : BackendM config β) = onControl (first >>= next) := by
  funext backend
  rcases backend with ⟨_ | control, usb⟩
  · rfl
  · change exec (onControl first >>= fun value => onControl (next value)) ⟨some control, usb⟩ = _
    change _ = exec (onControl (first >>= next)) ⟨some control, usb⟩
    rw [exec_bind, exec_onControl_some, exec_onControl_some, exec_bind]
    rcases exec first ⟨control, usb⟩ with ⟨fault | value, host⟩
    · rfl
    · rfl

/-- A lookup on a connected backend, and what is done with the motor. -/
theorem exec_setZero (platform : Platform) (canId : Id) (persist : Bool) (control : MotorControl config.motors.length)
    (usb : Usb) : exec (setZero platform canId persist) ⟨some control, usb⟩ =
      match control.getMotor canId with
      | none => (.error (.runtimeError "motor CAN ID is not registered"), ⟨some control, usb⟩)
      | some motor => exec (onControl (zeroMotor platform motor persist)) ⟨some control, usb⟩ := by
  have ready : exec requireConnected (⟨some control, usb⟩ : DmSerialBackend config) = (.ok (), ⟨some control, usb⟩) := rfl
  have read : exec (lookupMotor canId) (⟨some control, usb⟩ : DmSerialBackend config) =
      (.ok (control.getMotor canId), ⟨some control, usb⟩) := rfl
  rw [setZero, exec_bind_ok ready, exec_bind_ok read]
  cases control.getMotor canId with
  | none => rfl
  | some motor =>
    dsimp only
    cases persist with
    | false =>
      simp only [Bool.false_eq_true, ↓reduceIte, zeroMotor, ← onControl_bind]
      rw [exec_bind, exec_bind, exec_onControl_some]
      rcases exec (setZeroPosition motor) ⟨control, usb⟩ with ⟨fault | _, host⟩
      · rfl
      · rfl
    | true =>
      simp only [↓reduceIte, zeroMotor, ← onControl_bind]

theorem setZero_throws (platform : Platform) (canId : Id) (persist : Bool) :
    Throws (service config) Mild (setZero platform canId persist) := by
  intro backend built fault thrown
  rcases backend with ⟨_ | control, usb⟩
  · cases thrown
    rfl
  · rw [exec_setZero] at thrown
    cases lookup : control.getMotor canId with
    | none =>
      rw [lookup] at thrown
      cases thrown
      rfl
    | some motor =>
      rw [lookup] at thrown
      have registered : Registered (initData config) motor := ⟨canId, (built control rfl).motors ▸ lookup⟩
      exact (onControl_throws (zeroMotor_throws platform registered persist) _ built fault thrown).mild

theorem connect_throws (platform : Platform) : Throws (serial config) Mild (connect platform) := by
  refine Throws.get_bind ?_
  intro backend built fault thrown
  rcases backend with ⟨_ | control, usb⟩
  · have enables : Throws (service config) Lost (onControl (usleep >>= fun _ => enableAll platform)) :=
      onControl_throws (usleep_follows.throws_bind usleep_throws fun _ => enableAll_throws platform)
    have ready : Consistent (⟨some (MotorControl.new (initData config) usb.clock), { usb with sent := [], received := [] }⟩ :
        DmSerialBackend config) := by
      intro control same
      cases same
      exact .new _
    have unconnected : ¬(⟨none, usb⟩ : DmSerialBackend config).connected = true := Bool.false_ne_true
    rw [if_neg unconnected, exec_modify_bind, exec_tryCatch] at thrown
    rcases outcome : exec (onControl (usleep >>= fun _ => enableAll platform)) (⟨some (MotorControl.new (initData config)
      usb.clock), { usb with sent := [], received := [] }⟩ : DmSerialBackend config) with ⟨raised | _, after⟩
    · rw [outcome] at thrown
      cases thrown
      exact Lost.mild (enables _ ready _ (by rw [outcome]))
    · rw [outcome] at thrown
      cases thrown
  · cases thrown

/-- No operation ends the process, unless it releases Motor_Control. -/
theorem perform_throws (platform : Platform) {op : Op} (keeps : op ≠ .disconnect) :
    Throws (serial config) Mild (op.perform platform) := by
  cases op with
  | connect => exact connect_throws platform
  | disconnect => exact absurd rfl keeps
  | sendMitAll commands => exact (sendMitAll_throws platform commands).weaken fun _ => Refused.mild
  | sendZeroMitAll => exact (sendMitAll_throws platform _).weaken fun _ => Refused.mild
  | setZero canId persist => exact setZero_throws platform canId persist
  | setZeroAll persist =>
    have all : Throws (service config) Mild (setZeroAll platform persist) :=
      .forM _ (fun motor _ => setZero_follows platform motor.canId persist)
        fun motor _ => setZero_throws platform motor.canId persist
    exact all

end DmOpenarm.Faults
