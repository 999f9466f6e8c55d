import DmOpenarm.Types
import DmOpenarm.Library.FirstWins
import Mathlib.Data.Rat.Floor
import Mathlib.Logic.Function.Basic

/-! The motors of the vendor SDK, the registry that finds them, and what a received CAN frame
does to them. Float arithmetic is exact rational arithmetic. -/

namespace DmOpenarm.Damiao
open Types Library.FirstWins

inductive DMMotorType where
  | DM3507
  | DM4310
  | DM4310_48V
  | DM4340
  | DM4340_48V
  | DM6006
  | DM6248
  | DM8006
  | DM8009
  | DM10010L
  | DM10010
  | DMH3510
  | DMH6215
  | DMS3519
  | DMG6220
  deriving DecidableEq, Repr

structure LimitParam where
  qMax : ℚ
  dqMax : ℚ
  tauMax : ℚ
  deriving DecidableEq, Repr

def limitParam : DMMotorType → LimitParam
  | .DM3507 => ⟨12.566, 50, 5⟩
  | .DM4310 => ⟨12.5, 30, 10⟩
  | .DM4310_48V => ⟨12.5, 50, 10⟩
  | .DM4340 => ⟨12.5, 10, 28⟩
  | .DM4340_48V => ⟨12.5, 20, 28⟩
  | .DM6006 => ⟨12.5, 45, 12⟩
  | .DM6248 => ⟨12.566, 20, 120⟩
  | .DM8006 => ⟨12.5, 45, 20⟩
  | .DM8009 => ⟨12.5, 45, 54⟩
  | .DM10010L => ⟨12.5, 25, 200⟩
  | .DM10010 => ⟨12.5, 20, 200⟩
  | .DMH3510 => ⟨12.5, 280, 1⟩
  | .DMH6215 => ⟨12.5, 45, 10⟩
  | .DMS3519 => ⟨12.5, 2000, 2⟩
  | .DMG6220 => ⟨12.5, 45, 10⟩

theorem limitParam_pos (motorType : DMMotorType) :
    0 < (limitParam motorType).qMax ∧ 0 < (limitParam motorType).dqMax ∧
      0 < (limitParam motorType).tauMax := by
  cases motorType <;> decide +kernel

inductive ControlMode where
  | MIT_MODE
  | POS_VEL_MODE
  | VEL_MODE
  | POS_FORCE_MODE
  deriving DecidableEq, Repr

/-- The numeric value of a mode, which the SDK adds to a CAN ID. -/
def ControlMode.offset : ControlMode → Id
  | .MIT_MODE => 0x000
  | .POS_VEL_MODE => 0x100
  | .VEL_MODE => 0x200
  | .POS_FORCE_MODE => 0x300

def toControlModeCode : ControlMode → Byte
  | .MIT_MODE => 1
  | .POS_VEL_MODE => 2
  | .VEL_MODE => 3
  | .POS_FORCE_MODE => 4

/-- A register value: its 32 bits, and whether they are to be read as a float. -/
structure ValueType where
  bits : BitVec 32
  isFloat : Bool
  deriving DecidableEq, Repr

structure Motor where
  canId : Id
  masterId : Id
  stateQ : ℚ := 0
  stateDq : ℚ := 0
  stateTau : ℚ := 0
  limitParam : LimitParam
  motorType : DMMotorType
  mode : ControlMode
  paramMap : Byte → Option ValueType := fun _ => none
  lastTime : Int
  deltaTime : Option ℚ := none

structure DmActData where
  motorType : DMMotorType
  mode : ControlMode
  canId : Id
  mstId : Id
  deriving DecidableEq, Repr

def Motor.new (data : DmActData) (now : Int) : Motor :=
  { canId := data.canId, masterId := data.mstId, limitParam := Damiao.limitParam data.motorType,
    motorType := data.motorType, mode := data.mode, lastTime := now }

def Motor.receiveData (motor : Motor) (q dq tau : ℚ) : Motor :=
  { motor with stateQ := q, stateDq := dq, stateTau := tau }

/-- The clock counts nanoseconds. -/
def Motor.updateTimeInterval (motor : Motor) (now : Int) : Motor :=
  { motor with lastTime := now, deltaTime := some ((now - motor.lastTime : Int) / 10 ^ 9) }

def Motor.setParam (motor : Motor) (key : Byte) (value : ValueType) : Motor :=
  { motor with paramMap := Function.update motor.paramMap key (some value) }

def Motor.setMode (motor : Motor) (mode : ControlMode) : Motor := { motor with mode }

/-- Register number 10 selects the control mode; values without a mode are ignored. -/
def modeOfRegister (value : BitVec 32) : Option ControlMode :=
  if value = 1 then some .MIT_MODE
  else if value = 2 then some .POS_VEL_MODE
  else if value = 3 then some .VEL_MODE
  else if value = 4 then some .POS_FORCE_MODE
  else none

def isInRanges (number : Byte) : Bool :=
  (7 ≤ number && number ≤ 10) || (13 ≤ number && number ≤ 16) || (35 ≤ number && number ≤ 36)

structure CanFrame where
  id : BitVec 32
  data : Fin 64 → Byte

/-- A frame has room for 64 bytes. -/
instance frameRoom : NeZero 64 := ⟨by decide⟩

def word16 (high low : Byte) : BitVec 16 := high.setWidth 16 <<< 8 ||| low.setWidth 16

def word32 (data : Fin 64 → Byte) : BitVec 32 :=
  (data 7).setWidth 32 <<< 24 ||| (data 6).setWidth 32 <<< 16 |||
    (data 5).setWidth 32 <<< 8 ||| (data 4).setWidth 32

def uintToFloat (x : BitVec 16) (xmin xmax : ℚ) (bits : Nat) : ℚ :=
  let span := xmax - xmin
  let dataNorm := (x.toNat : ℚ) / (2 ^ bits - 1 : Nat)
  dataNorm * span + xmin

/-- The shared motor objects of one bus, and the map from identifiers to them. A motor is
entered under its CAN ID and under its master ID. -/
structure MotorControl (n : Nat) where
  objects : Fin n → Motor
  motors : FirstMap Id (Fin n)
  readWriteSave : Bool := false

namespace MotorControl
variable {n : Nat}

def modifyMotor (control : MotorControl n) (motor : Fin n) (change : Motor → Motor) : MotorControl n :=
  { control with objects := Function.update control.objects motor (change (control.objects motor)) }

def addMotor (motors : FirstMap Id (Fin n)) (data : Fin n → DmActData) (motor : Fin n) :
    FirstMap Id (Fin n) :=
  (motors.insert (data motor).canId motor).insert (data motor).mstId motor

def registry (data : Fin n → DmActData) : FirstMap Id (Fin n) :=
  (List.finRange n).foldl (fun motors motor => addMotor motors data motor) FirstMap.empty

def new (data : Fin n → DmActData) (now : Int) : MotorControl n :=
  { objects := fun motor => Motor.new (data motor) now, motors := registry data }

def getMotor (control : MotorControl n) (id : Id) : Option (Fin n) := control.motors.find? id

def receiveParam (control : MotorControl n) (data : Fin 64 → Byte) : MotorControl n :=
  match control.motors.find? (word16 (data 1) (data 0)) with
  | none => control
  | some motor =>
      if isInRanges (data 3) then
        let stored := control.modifyMotor motor fun m => m.setParam (data 3) ⟨word32 data, false⟩
        if data 3 = 10 then
          match modeOfRegister (word32 data) with
          | some mode => stored.modifyMotor motor fun m => m.setMode mode
          | none => stored
        else stored
      else control.modifyMotor motor fun m => m.setParam (data 3) ⟨word32 data, true⟩

/-- The position, velocity and torque a feedback frame carries, on the scale of a motor. -/
def feedback (limits : LimitParam) (data : Fin 64 → Byte) : ℚ × ℚ × ℚ :=
  let qUint := word16 (data 1) (data 2)
  let dqUint := (data 3).setWidth 16 <<< 4 ||| ((data 4) >>> 4).setWidth 16
  let tauUint := ((data 4) &&& 0xf).setWidth 16 <<< 8 ||| (data 5).setWidth 16
  (uintToFloat qUint (-limits.qMax) limits.qMax 16,
    uintToFloat dqUint (-limits.dqMax) limits.dqMax 12,
    uintToFloat tauUint (-limits.tauMax) limits.tauMax 12)

/-- The receive callback. The map is keyed by 16 bits, so wider identifiers are cut. -/
def canframeCallback (control : MotorControl n) (now : Int) (value : CanFrame) : MotorControl n :=
  let canID := value.id.setWidth 16
  if control.readWriteSave && (control.motors.find? canID).isSome then
    if value.data 2 = 0x33 ∨ value.data 2 = 0x55 ∨ value.data 2 = 0xAA then
      let handled :=
        if value.data 2 = 0x33 ∨ value.data 2 = 0x55 then control.receiveParam value.data else control
      { handled with readWriteSave := false }
    else control
  else
    match control.motors.find? canID with
    | none => control
    | some motor =>
        let received := feedback (control.objects motor).limitParam value.data
        control.modifyMotor motor fun m =>
          (m.receiveData received.1 received.2.1 received.2.2).updateTimeInterval now

end MotorControl

end DmOpenarm.Damiao
