import DmOpenarm.Damiao
import DmOpenarm.Library.Effect

/-! The host side of the vendor SDK: every function that sends frames. The environment is a
script with one slot for each send and each sleep: the frames received just before it, and
whether the send throws. -/

namespace DmOpenarm.MotorBus
open Types hiding ControlMode
open Damiao Library.FirstWins Library.Effect

/-- What the language leaves open: a float outside the range of a 16-bit integer has no
specified conversion, and a hash map may be enumerated in any order. -/
structure Platform where
  toUInt16 : ℚ → BitVec 16
  toUInt16_eq : ∀ value, 0 ≤ value → value ≤ 65535 → (toUInt16 value).toNat = ⌊value⌋₊
  enumerate : {n : Nat} → FirstMap Id (Fin n) → List (Id × Fin n)
  enumerate_perm : ∀ {n : Nat} (motors : FirstMap Id (Fin n)), (enumerate motors).Perm motors.entries

/-- Conversion modulo 2^16, and enumeration in order of insertion. -/
def Platform.wrapping : Platform where
  toUInt16 value := BitVec.ofNat 16 ⌊value⌋₊
  toUInt16_eq value nonneg bounded := by
    have small : ⌊value⌋₊ ≤ 65535 := Nat.floor_le_of_le bounded
    rw [BitVec.toNat_ofNat]
    omega
  enumerate motors := motors.entries
  enumerate_perm _ := .refl _

/-- Which function of the SDK built a frame. -/
inductive FrameKind where
  | mit
  | control
  | register
  deriving DecidableEq, Repr

structure TxFrame where
  kind : FrameKind
  id : Id
  data : List Byte
  deriving DecidableEq, Repr

/-- A received frame and the nanoseconds since the one before it. Whether a motor sent it in
reply to a register access is known to the motor only. -/
structure Arrival where
  frame : CanFrame
  elapsed : Nat := 0
  reply : Bool := false

structure Slot where
  arrivals : List Arrival := []
  throws : Bool := false

/-- A frame taken by the receive callback, and whether a register access was pending then. -/
structure Reception where
  frame : CanFrame
  reply : Bool
  pending : Bool

/-- The adapter: what is still to happen, and what has been sent and received, oldest first. -/
structure Usb where
  script : List Slot := []
  clock : Int := 0
  sent : List TxFrame := []
  received : List Reception := []

structure Host (n : Nat) where
  control : MotorControl n
  usb : Usb

namespace Host
variable {n : Nat}

def receive (host : Host n) (arrival : Arrival) : Host n :=
  let now := host.usb.clock + arrival.elapsed
  { control := host.control.canframeCallback now arrival.frame
    usb := { host.usb with
      clock := now
      received := host.usb.received ++ [⟨arrival.frame, arrival.reply, host.control.readWriteSave⟩] } }

def withScript (host : Host n) (script : List Slot) : Host n :=
  { host with usb := { host.usb with script } }

/-- Take the next slot of the script and deliver what arrives in it. -/
def advance (host : Host n) : Host n :=
  match host.usb.script with
  | [] => host
  | slot :: rest => slot.arrivals.foldl receive (host.withScript rest)

def throwsNext (host : Host n) : Bool :=
  match host.usb.script with
  | [] => false
  | slot :: _ => slot.throws

def emit (host : Host n) (frame : TxFrame) : Host n :=
  { host with usb := { host.usb with sent := host.usb.sent ++ [frame] } }

def expectReply (host : Host n) : Host n :=
  { host with control := { host.control with readWriteSave := true } }

end Host

abbrev Sdk (n : Nat) := Throwing (Host n) Fault

section Programs
variable {n : Nat} (platform : Platform)

def fdcanFrameSend (frame : TxFrame) : Sdk n Unit := do
  let host ← get
  modify Host.advance
  if host.throwsNext then throw .usb else modify fun host => host.emit frame

def usleep : Sdk n Unit := modify Host.advance

def controlCmd (id : Id) (cmd : Byte) : Sdk n Unit :=
  fdcanFrameSend ⟨.control, id, [0xff, 0xff, 0xff, 0xff, 0xff, 0xff, 0xff, cmd]⟩

/-- Frames on the management identifier name the motor in their first two bytes. -/
def registerFrame (id : Id) (payload : List Byte) : TxFrame :=
  ⟨.register, 0x7FF, [id.setWidth 8, (id >>> 8).setWidth 8] ++ payload⟩

def motorCanId (motor : Fin n) : Sdk n Id := do
  let host ← get
  pure (host.control.objects motor).canId

def motorMode (motor : Fin n) : Sdk n ControlMode := do
  let host ← get
  pure (host.control.objects motor).mode

/-- The identifier a motor listens to in its current mode. -/
def commandId (motor : Fin n) : Sdk n Id := do
  let host ← get
  pure ((host.control.objects motor).canId + (host.control.objects motor).mode.offset)

def readMotorParam (motor : Fin n) (rid : Byte) : Sdk n Unit := do
  modify Host.expectReply
  let id ← motorCanId motor
  fdcanFrameSend (registerFrame id [0x33, rid, 0, 0, 0, 0])
  usleep

def writeMotorParam (motor : Fin n) (rid : Byte) (value : List Byte) : Sdk n Unit := do
  modify Host.expectReply
  let id ← motorCanId motor
  fdcanFrameSend (registerFrame id ([0x55, rid] ++ value))

def saveMotorParam (motor : Fin n) : Sdk n Unit := do
  let id ← motorCanId motor
  let command ← commandId motor
  controlCmd command 0xFD
  usleep
  modify Host.expectReply
  fdcanFrameSend (registerFrame id [0xAA, 0x01, 0, 0, 0, 0])
  usleep

def switchControlMode (motor : Fin n) (code : Byte) : Sdk n Unit := do
  writeMotorParam motor 10 [code, 0, 0, 0]
  let host ← get
  match host.control.motors.find? (host.control.objects motor).canId with
  | none => throw .exit
  | some _ => pure ()

def setZeroPosition (motor : Fin n) : Sdk n Unit := do
  let command ← commandId motor
  controlCmd command 0xFE

/-- The registry in the order a loop over it runs. -/
def registered : Sdk n (List (Fin n)) := do
  let host ← get
  pure ((platform.enumerate host.control.motors).map Prod.snd)

def fiveTimes (body : Sdk n Unit) : Sdk n Unit := (List.replicate 5 ()).forM fun _ => body

def enableAll : Sdk n Unit := do
  let motors ← registered platform
  motors.forM fun motor => do
    let mode ← motorMode motor
    switchControlMode motor (toControlModeCode mode)
    usleep
  motors.forM fun motor => fiveTimes (readMotorParam motor 10 >>= fun _ => usleep)
  motors.forM fun motor => fiveTimes do
    let command ← commandId motor
    controlCmd command 0xFC
    usleep

def disableAll : Sdk n Unit := do
  let motors ← registered platform
  motors.forM fun motor => fiveTimes do
    let command ← commandId motor
    controlCmd command 0xFD
    usleep

def floatToUint (x xmin xmax : ℚ) (bits : Nat) : BitVec 16 :=
  let span := xmax - xmin
  let dataNorm := (x - xmin) / span
  platform.toUInt16 (dataNorm * (2 ^ bits - 1 : Nat))

/-- The five codes sliced into eight bytes. -/
def mitData (q dq kp kd tau : BitVec 16) : List Byte :=
  [((q >>> 8) &&& 0xff).setWidth 8, (q &&& 0xff).setWidth 8, (dq >>> 4).setWidth 8,
    (((dq &&& 0xf) <<< 4) ||| ((kp >>> 8) &&& 0xf)).setWidth 8, (kp &&& 0xff).setWidth 8,
    (kd >>> 4).setWidth 8, (((kd &&& 0xf) <<< 4) ||| ((tau >>> 8) &&& 0xf)).setWidth 8,
    (tau &&& 0xff).setWidth 8]

def mitPayload (limits : LimitParam) (command : MitCommand) : List Byte :=
  mitData (floatToUint platform command.q (-limits.qMax) limits.qMax 16)
    (floatToUint platform command.dq (-limits.dqMax) limits.dqMax 12)
    (floatToUint platform command.kp 0 500 12)
    (floatToUint platform command.kd 0 5 12)
    (floatToUint platform command.tau (-limits.tauMax) limits.tauMax 12)

def mitFrame (limits : LimitParam) (id : Id) (command : MitCommand) : TxFrame :=
  ⟨.mit, id + ControlMode.MIT_MODE.offset, mitPayload platform limits command⟩

def controlMit (motor : Fin n) (command : MitCommand) : Sdk n Unit := do
  let host ← get
  let id := (host.control.objects motor).canId
  match host.control.motors.find? id with
  | none => throw .exit
  | some m => fdcanFrameSend (mitFrame platform (host.control.objects m).limitParam id command)

end Programs

end DmOpenarm.MotorBus
