import DmOpenarm.MotorBus
import DmOpenarm.Reception

/-! Everything the host does on the bus, said once: it waits, it sends an addressed frame, or
it starts to expect a register reply. Every function of the SDK is a path of such steps. -/

namespace DmOpenarm.Traffic
open Types hiding ControlMode
open Damiao Registry Reception MotorBus Library.FirstWins Library.Effect
variable {n : Nat} (data : Fin n → DmActData)

/-- What connecting fixes for good: the registry, and each motor's CAN ID and limits. -/
structure Built (control : MotorControl n) : Prop where
  motors : control.motors = MotorControl.registry data
  canId : ∀ motor, (control.objects motor).canId = (data motor).canId
  limits : ∀ motor, (control.objects motor).limitParam = limitParam (data motor).motorType

/-- A motor that some identifier leads to. -/
def Registered (motor : Fin n) : Prop := ∃ id, (MotorControl.registry data).find? id = some motor

/-- Where a frame may go: a register access to the management identifier, a control command to
a registered motor in its present mode, an MIT command to the CAN ID of a registered motor. -/
def Addressed (control : MotorControl n) (frame : TxFrame) : Prop :=
  match frame.kind with
  | .register => frame.id = 0x7FF
  | .control => ∃ motor, Registered data motor ∧
      frame.id = (data motor).canId + (control.objects motor).mode.offset
  | .mit => ∃ motor, Registered data motor ∧ frame.id = (data motor).canId

inductive Primitive : Host n → Host n → Prop where
  | wait (host : Host n) : Primitive host host.advance
  | send (host : Host n) (frame : TxFrame) (addressed : Addressed data host.control frame) :
      Primitive host (host.advance.emit frame)
  | expect (host : Host n) : Primitive host host.expectReply

section Built
variable {data}

theorem Built.new (now : Int) : Built data (MotorControl.new data now) :=
  ⟨rfl, fun _ => rfl, fun _ => rfl⟩

/-- The same registry, and motors with the same CAN IDs and limits. -/
structure SameMotors (before after : MotorControl n) : Prop where
  motors : after.motors = before.motors
  canId : ∀ motor, (after.objects motor).canId = (before.objects motor).canId
  limits : ∀ motor, (after.objects motor).limitParam = (before.objects motor).limitParam

theorem SameMotors.refl (control : MotorControl n) : SameMotors control control :=
  ⟨rfl, fun _ => rfl, fun _ => rfl⟩

theorem SameMotors.trans {first second third : MotorControl n} (before : SameMotors first second)
    (after : SameMotors second third) : SameMotors first third :=
  ⟨after.motors.trans before.motors, fun motor => (after.canId motor).trans (before.canId motor),
    fun motor => (after.limits motor).trans (before.limits motor)⟩

theorem Built.of_same {before after : MotorControl n} (built : Built data before)
    (same : SameMotors before after) : Built data after :=
  ⟨same.motors.trans built.motors, fun motor => (same.canId motor).trans (built.canId motor),
    fun motor => (same.limits motor).trans (built.limits motor)⟩

theorem sameMotors_handled {before after : MotorControl n} {now : Int} {frame : CanFrame}
    (handled : Handled before now frame after) : SameMotors before after := by
  cases handled with
  | unknown absent => exact .refl before
  | register found pending registers =>
    have each (motor : Fin n) : (after.objects motor).canId = (before.objects motor).canId ∧
        (after.objects motor).limitParam = (before.objects motor).limitParam := by
      obtain ⟨_, _, same⟩ := registers.objects motor
      rw [same]
      exact ⟨rfl, rfl⟩
    exact ⟨registers.motors, fun motor => (each motor).1, fun motor => (each motor).2⟩
  | @feedback motor found idle =>
    have each := modifyMotor_each (fun old new => new.canId = old.canId ∧ new.limitParam = old.limitParam)
      before motor (fun m => Motor.refreshed m now frame.data) (fun _ => ⟨rfl, rfl⟩) ⟨rfl, rfl⟩
    exact ⟨rfl, fun other => (each other).1, fun other => (each other).2⟩

theorem sameMotors_receive (host : Host n) (arrival : Arrival) :
    SameMotors host.control (host.receive arrival).control :=
  sameMotors_handled (canframeCallback_handled _ _ _)

theorem Built.receive {host : Host n} (built : Built data host.control) (arrival : Arrival) :
    Built data (host.receive arrival).control :=
  built.of_same (sameMotors_receive host arrival)

end Built

/-- A property that each arrival keeps holds after a wait. -/
theorem advance_keeps (holds : Host n → Prop)
    (received : ∀ host arrival, holds host → holds (host.receive arrival))
    (scripted : ∀ host script, holds host → holds (host.withScript script)) {host : Host n}
    (before : holds host) : holds host.advance := by
  unfold Host.advance
  cases host.usb.script with
  | nil => exact before
  | cons slot rest =>
    have arrivals : ∀ (list : List Arrival) (start : Host n), holds start →
        holds (list.foldl Host.receive start) := by
      intro list
      induction list with
      | nil => exact fun _ => id
      | cons arrival later ih => exact fun start now => ih _ (received start arrival now)
    exact arrivals slot.arrivals _ (scripted host rest before)

theorem sameMotors_advance (host : Host n) : SameMotors host.control host.advance.control :=
  advance_keeps (fun later => SameMotors host.control later.control)
    (fun later arrival same => same.trans (sameMotors_receive later arrival)) (fun _ _ same => same) (.refl _)

theorem built_advance {host : Host n} (built : Built data host.control) :
    Built data host.advance.control :=
  built.of_same (sameMotors_advance host)

/-- The rules of the bus: primitive steps on a host whose registry and motors stay as built. -/
def bus : Discipline (Host n) where
  inv host := Built data host.control
  step := Primitive data
  kept before after step built := by
    cases step with
    | wait => exact built_advance data built
    | send frame addressed => exact built_advance data built
    | expect => exact ⟨built.motors, built.canId, built.limits⟩

section Programs
variable {data}

theorem exec_fdcanFrameSend (frame : TxFrame) (host : Host n) :
    exec (fdcanFrameSend frame) host =
      if host.throwsNext then (.error .usb, host.advance) else (.ok (), host.advance.emit frame) := by
  rw [fdcanFrameSend, exec_get_bind, exec_modify_bind]
  cases host.throwsNext with
  | false => rfl
  | true => rfl

theorem fdcanFrameSend_path {frame : TxFrame} {host : Host n}
    (addressed : Addressed data host.control frame) :
    (bus data).Path host (exec (fdcanFrameSend frame) host).2 := by
  rw [exec_fdcanFrameSend]
  cases host.throwsNext with
  | false => exact .single (.send host frame addressed)
  | true => exact .single (.wait host)

theorem usleep_follows : Follows (bus data) usleep :=
  fun host _ => .single (.wait host)

theorem expectReply_follows : Follows (bus data) (modify Host.expectReply : Sdk n Unit) :=
  .modify fun host _ => .single (.expect host)

theorem registerFrame_follows (id : Id) (payload : List Byte) :
    Follows (bus data) (fdcanFrameSend (registerFrame id payload)) :=
  fun _ _ => fdcanFrameSend_path rfl

theorem exec_motorCanId (motor : Fin n) (host : Host n) :
    exec (motorCanId motor) host = (.ok (host.control.objects motor).canId, host) := rfl

theorem exec_motorMode (motor : Fin n) (host : Host n) :
    exec (motorMode motor) host = (.ok (host.control.objects motor).mode, host) := rfl

theorem exec_commandId (motor : Fin n) (host : Host n) :
    exec (commandId motor) host =
      (.ok ((host.control.objects motor).canId + (host.control.objects motor).mode.offset), host) := rfl

/-- A control command to a motor goes where the motor listens when the command is built. -/
theorem command_follows {motor : Fin n} (registered : Registered data motor) (cmd : Byte) :
    Follows (bus data) (commandId motor >>= fun command => controlCmd command cmd) := by
  apply Follows.read_bind (exec_commandId motor)
  intro host command built same
  cases same
  exact fdcanFrameSend_path ⟨motor, registered, by rw [built.canId]⟩

theorem fiveTimes_follows {body : Sdk n Unit} (each : Follows (bus data) body) :
    Follows (bus data) (fiveTimes body) :=
  .forM _ fun _ _ => each

theorem readMotorParam_follows (motor : Fin n) (rid : Byte) :
    Follows (bus data) (readMotorParam motor rid) := by
  apply expectReply_follows.bind
  intro _
  apply Follows.after_read (exec_motorCanId motor)
  intro id
  exact (registerFrame_follows id _).bind fun _ => usleep_follows

theorem writeMotorParam_follows (motor : Fin n) (rid : Byte) (value : List Byte) :
    Follows (bus data) (writeMotorParam motor rid value) := by
  apply expectReply_follows.bind
  intro _
  apply Follows.after_read (exec_motorCanId motor)
  intro id
  exact registerFrame_follows id _

theorem saveMotorParam_follows {motor : Fin n} (registered : Registered data motor) :
    Follows (bus data) (saveMotorParam motor) := by
  apply Follows.after_read (exec_motorCanId motor)
  intro id
  apply (command_follows registered 0xFD).bind
  intro _
  apply usleep_follows.bind
  intro _
  apply expectReply_follows.bind
  intro _
  exact (registerFrame_follows id _).bind fun _ => usleep_follows

theorem switchControlMode_follows (motor : Fin n) (code : Byte) :
    Follows (bus data) (switchControlMode motor code) := by
  apply (writeMotorParam_follows motor 10 _).bind
  intro _
  apply Follows.get_bind
  intro host _
  cases host.control.motors.find? (host.control.objects motor).canId with
  | none => exact .refl
  | some _ => exact .refl

theorem setZeroPosition_follows {motor : Fin n} (registered : Registered data motor) :
    Follows (bus data) (setZeroPosition motor) :=
  command_follows registered 0xFE

theorem exec_registered (platform : Platform) (host : Host n) :
    exec (registered platform) host =
      (.ok ((platform.enumerate host.control.motors).map Prod.snd), host) := rfl

/-- A loop over the registry visits the motors that an identifier leads to, in some order. -/
theorem mem_enumerate_iff (platform : Platform) (motor : Fin n) :
    motor ∈ (platform.enumerate (MotorControl.registry data)).map Prod.snd ↔ Registered data motor := by
  rw [((platform.enumerate_perm _).map _).mem_iff, List.mem_map]
  refine ⟨?_, ?_⟩
  · intro found
    obtain ⟨⟨id, other⟩, member, same⟩ := found
    cases same
    exact ⟨id, (FirstMap.mem_entries_iff _ _ _).mp member⟩
  · intro found
    obtain ⟨id, found⟩ := found
    exact ⟨(id, motor), (FirstMap.mem_entries_iff _ _ _).mpr found, rfl⟩

theorem registered_bind_follows (platform : Platform) {next : List (Fin n) → Sdk n Unit}
    (rest : ∀ motors, (∀ motor ∈ motors, Registered data motor) → Follows (bus data) (next motors)) :
    Follows (bus data) (registered platform >>= next) := by
  apply Follows.read_bind (exec_registered platform)
  intro host motors built same
  cases same
  refine rest _ (fun motor member => ?_) host built
  rw [built.motors] at member
  exact (mem_enumerate_iff platform motor).mp member

theorem switchMode_follows (motor : Fin n) : Follows (bus data) (do
    let mode ← motorMode motor
    switchControlMode motor (toControlModeCode mode)
    usleep) := by
  apply Follows.after_read (exec_motorMode motor)
  intro mode
  exact (switchControlMode_follows motor _).bind fun _ => usleep_follows

theorem switchModes_follows (motors : List (Fin n)) : Follows (bus data) (motors.forM fun motor => do
    let mode ← motorMode motor
    switchControlMode motor (toControlModeCode mode)
    usleep) :=
  .forM _ fun motor _ => switchMode_follows motor

theorem readModes_follows (motors : List (Fin n)) : Follows (bus data)
    (motors.forM fun motor => fiveTimes (readMotorParam motor 10 >>= fun _ => usleep)) := by
  apply Follows.forM
  intro motor _
  exact fiveTimes_follows ((readMotorParam_follows motor 10).bind fun _ => usleep_follows)

/-- One command to a motor, and the pause after it. -/
theorem pausedCommand_follows {motor : Fin n} (registered : Registered data motor) (cmd : Byte) :
    Follows (bus data) (commandId motor >>= fun command => controlCmd command cmd >>= fun _ => usleep) :=
  (command_follows registered cmd).bind fun _ => usleep_follows

theorem enableAll_follows (platform : Platform) : Follows (bus data) (enableAll platform) := by
  apply registered_bind_follows
  intro motors registered
  apply Follows.bind
  · exact switchModes_follows motors
  intro _
  apply Follows.bind
  · exact readModes_follows motors
  intro _
  apply Follows.forM
  intro motor member
  exact fiveTimes_follows (pausedCommand_follows (registered motor member) 0xFC)

theorem disableAll_follows (platform : Platform) : Follows (bus data) (disableAll platform) := by
  apply registered_bind_follows
  intro motors registered
  apply Follows.forM
  intro motor member
  exact fiveTimes_follows (pausedCommand_follows (registered motor member) 0xFD)

@[simp] theorem add_offset_mit (id : Id) : id + ControlMode.MIT_MODE.offset = id :=
  BitVec.add_zero id

theorem exec_controlMit (platform : Platform) (motor : Fin n) (command : MitCommand) (host : Host n) :
    exec (controlMit platform motor command) host =
      match host.control.motors.find? (host.control.objects motor).canId with
      | none => (.error .exit, host)
      | some m => exec (fdcanFrameSend (mitFrame platform (host.control.objects m).limitParam
          (host.control.objects motor).canId command)) host := by
  rw [controlMit, exec_get_bind]
  dsimp only
  cases host.control.motors.find? (host.control.objects motor).canId with
  | none => rfl
  | some m => rfl

theorem controlMit_follows (platform : Platform) {motor : Fin n} (registered : Registered data motor)
    (command : MitCommand) : Follows (bus data) (controlMit platform motor command) := by
  intro host built
  rw [exec_controlMit]
  cases host.control.motors.find? (host.control.objects motor).canId with
  | none => exact .refl
  | some m =>
    apply fdcanFrameSend_path
    exact ⟨motor, registered, (add_offset_mit _).trans (built.canId motor)⟩

end Programs
end DmOpenarm.Traffic
