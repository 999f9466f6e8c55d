import Mathlib.Data.Rat.Defs

/-! Commands, states and configuration of the arm. Doubles are exact rationals. -/

namespace DmOpenarm.Types

abbrev Byte := BitVec 8
abbrev Id := BitVec 16

inductive MotorModel where
  | DM4310
  | DM8009
  deriving DecidableEq, Repr

inductive ControlMode where
  | MIT
  deriving DecidableEq, Repr

structure MitCommand where
  kp : ℚ := 0
  kd : ℚ := 0
  q : ℚ := 0
  dq : ℚ := 0
  tau : ℚ := 0
  deriving DecidableEq, Repr

/-- The feedback interval has no value until the motor has answered: the member it is read
from is not initialised. -/
structure MotorState where
  canId : Id := 0
  mstId : Id := 0
  position : ℚ := 0
  velocity : ℚ := 0
  torque : ℚ := 0
  feedbackInterval : Option ℚ
  deriving DecidableEq, Repr

structure MotorConfig where
  name : String
  model : MotorModel := .DM4310
  mode : ControlMode := .MIT
  canId : Id := 0
  mstId : Id := 0
  deriving DecidableEq, Repr

/-- The loop period is in milliseconds. -/
structure ArmConfig where
  usbSerial : String
  nomBaud : BitVec 32 := 1000000
  datBaud : BitVec 32 := 1000000
  loopPeriod : Nat := 1
  motors : List MotorConfig
  deriving DecidableEq, Repr

/-- What can leave a function other than by returning. The last two end the process. -/
inductive Fault where
  | runtimeError (what : String)
  | invalidArgument (what : String)
  | outOfRange (what : String)
  | badSubscript
  | systemError
  | usb
  | exit
  | terminate
  deriving DecidableEq, Repr

def Fault.fatal : Fault → Bool
  | .exit => true
  | .terminate => true
  | _ => false

end DmOpenarm.Types
