import DmOpenarm.ArmMitControl
import DmOpenarm.ZeroIds

/-! The example programs: each owns an arm for the length of one block, connects it, does its part
and disables it. Whatever way the block is left, the destructor of the arm runs. -/

namespace DmOpenarm.Examples
open Types hiding ControlMode
open Damiao MotorBus Backend ArmMitControl CommandLine Library.Effect Library.Ieee

variable {config : ArmConfig}

/-- A double without a value has no specified 16-bit code. It is sent as some number. -/
structure Narrowing where
  number : Double → ℚ
  number_finite : ∀ value, number (.finite value) = value

def Command.toMit (narrowing : Narrowing) (command : ArmMitControl.Command) : MitCommand :=
  { kp := narrowing.number command.kp, kd := narrowing.number command.kd, q := narrowing.number command.q
    dq := narrowing.number command.dq, tau := narrowing.number command.tau }

/-- Time passes: what has arrived meanwhile is taken in. -/
def pause : BackendM config Unit := modify fun backend =>
  match backend.control with
  | none => backend
  | some control =>
      let host := (Host.mk control backend.usb).advance
      { control := some host.control, usb := host.usb }

def readStates : BackendM config (List MotorState) := do
  pause
  let backend ← get
  MonadExcept.ofExcept (states backend)

section
variable (platform : Platform)

/-- The destructor of DmArm, and then the one of its backend. -/
def destroyArm : BackendM config Unit := do
  disconnect platform
  disconnect platform

/-- A block with an arm of its own. Ending the process inside it runs no destructor. -/
def withArm (block : BackendM config Unit) : BackendM config Unit := do
  tryCatch block fun fault => do
    if fault.fatal then throw fault
    else do
      destroyArm platform
      throw fault
  destroyArm platform

/-- The frame of every example: connect, the part of its own, disable. -/
def runArm (part : BackendM config Unit) : BackendM config Unit :=
  withArm platform do
    connect platform
    part
    disconnect platform

/-- enable_disable.cpp -/
def enableDisable : BackendM config Unit := do
  sendZeroMitAll platform
  pause

/-- check_comm.cpp -/
def checkComm : BackendM config Unit :=
  (List.replicate 100 ()).forM fun _ => do
    sendZeroMitAll platform
    let _ ← readStates
    pause

def holdCommands (states : List MotorState) : List MitCommand :=
  states.map fun state => { kp := 2, kd := 1 / 2, q := state.position }

/-- hold_position.cpp: an interrupt ends the loop after some number of turns. -/
def holdPosition (turns : Nat) : BackendM config Unit := do
  sendZeroMitAll platform
  pause
  let reported ← readStates
  let commands := holdCommands reported
  (List.replicate turns ()).forM fun _ => do
    sendMitAll platform commands
    let _ ← readStates
    pause

def parseCanId (text : String) : Except Fault Id := CommandLine.parseCanId text

def targetIds (config : ArmConfig) (target : String) : Except Fault (List Id) :=
  if target = "all" then pure (config.motors.map MotorConfig.canId)
  else do
    let canId ← parseCanId target
    pure [canId]

/-- set_zero_position.cpp -/
def setZeroPosition (target : String) (persist : Bool) : BackendM config Unit := do
  sendZeroMitAll platform
  pause
  let _ ← readStates
  let canIds ← MonadExcept.ofExcept (targetIds config target)
  canIds.forM fun canId => setZero platform canId persist
  sendZeroMitAll platform
  pause
  let _ ← readStates

/-- The position that the states report for a motor. -/
def poseOf (reported : List MotorState) (motor : Fin config.motors.length) : ℚ :=
  ((reported[motor.val]?).map MotorState.position).getD 0

variable (outOfRange : ℚ → Bool) (narrowing : Narrowing)

/-- The lines of one turn, each handled with the states of that moment. -/
def handleLines : List String → Session config.motors.length → BackendM config (Session config.motors.length)
  | [], session => pure session
  | line :: rest, session => do
      pause
      let backend ← get
      handleLines rest (handleLine outOfRange config (states backend) { session with lines := rest } line)

def batch (session : Session config.motors.length) : List MitCommand :=
  List.ofFn fun motor => Command.toMit narrowing (mitCommand (ramp config session motor))

/-- The loop of arm_mit_control.cpp. The chunks are what each turn reads from the FIFO; after the
last of them an interrupt has cleared the flag. -/
def controlLoop : List (List (List Char)) → Session config.motors.length →
    BackendM config (Session config.motors.length)
  | [], session => pure session
  | chunks :: later, session =>
      if session.running then do
        let read := readLines session.pending chunks
        let handled ← handleLines outOfRange read.1
          { session with place := .handle, lines := read.1, pending := read.2 }
        sendMitAll platform (batch narrowing handled)
        pause
        controlLoop later { tick config handled with place := .test }
      else pure session

/-- arm_mit_control.cpp. Creating or opening the FIFO may fail. -/
def armMitControl (fifo : Except String Unit) (turns : List (List (List Char))) : BackendM config Unit := do
  sendZeroMitAll platform
  pause
  let reported ← readStates
  match fifo with
  | .error what => throw (.runtimeError what)
  | .ok _ =>
      let _ ← controlLoop platform outOfRange narrowing turns (Session.begin (poseOf reported))

end

/-- The example programs with what they are given from outside. -/
inductive Example where
  | enableDisable
  | checkComm
  | holdPosition (turns : Nat)
  | setZeroPosition (target : String) (persist : Bool)
  | armMitControl (outOfRange : ℚ → Bool) (narrowing : Narrowing) (fifo : Except String Unit)
      (turns : List (List (List Char)))

def Example.part (platform : Platform) : Example → BackendM config Unit
  | .enableDisable => Examples.enableDisable platform
  | .checkComm => Examples.checkComm platform
  | .holdPosition turns => Examples.holdPosition platform turns
  | .setZeroPosition target persist => Examples.setZeroPosition platform target persist
  | .armMitControl outOfRange narrowing fifo turns =>
      Examples.armMitControl platform outOfRange narrowing fifo turns

def Example.main (platform : Platform) (program : Example) : BackendM config Unit :=
  runArm platform (program.part platform)

/-- main() returns 0, or 1 after a std::exception. An exception of the USB library need not be one; any other
that reaches main() is. The rest is the end of the process on the spot. -/
def exitStatus (usbStandard : Bool) : Except Fault Unit → Option Nat
  | .ok _ => some 0
  | .error fault => if fault.fatal || (fault = .usb && !usbStandard) then none else some 1

end DmOpenarm.Examples
