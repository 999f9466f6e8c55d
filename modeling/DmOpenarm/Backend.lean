import DmOpenarm.MotorBus

/-! The backend that drives the arm through the vendor SDK. -/

namespace DmOpenarm.Backend
open Types hiding ControlMode
open Damiao MotorBus Library.Effect

def toDamiaoModel : MotorModel → DMMotorType
  | .DM4310 => .DM4310
  | .DM8009 => .DM8009

/-- What connect() hands to the SDK for each configured motor. -/
def initData (config : ArmConfig) (motor : Fin config.motors.length) : DmActData :=
  { motorType := toDamiaoModel (config.motors.get motor).model
    mode := .MIT_MODE
    canId := (config.motors.get motor).canId
    mstId := (config.motors.get motor).mstId }

structure DmSerialBackend (config : ArmConfig) where
  control : Option (MotorControl config.motors.length) := none
  usb : Usb := {}

variable {config : ArmConfig}

def DmSerialBackend.connected (backend : DmSerialBackend config) : Bool := backend.control.isSome

def DmSerialBackend.withScript (backend : DmSerialBackend config) (script : List Slot) :
    DmSerialBackend config :=
  { backend with usb := { backend.usb with script } }

abbrev BackendM (config : ArmConfig) := Throwing (DmSerialBackend config) Fault

def notConnected : Fault := .runtimeError "DmSerialBackend is not connected"

/-- Run a function of the SDK on the connected Motor_Control. -/
def onControl {α : Type} (program : Sdk config.motors.length α) : BackendM config α :=
  ExceptT.mk fun backend =>
    match backend.control with
    | none => pure (.error notConnected, backend)
    | some control =>
        let (result, host) := exec program ⟨control, backend.usb⟩
        pure (result, { control := some host.control, usb := host.usb })

def requireConnected : BackendM config Unit := do
  let backend ← get
  if backend.connected then pure () else throw notConnected

/-- The registered motor of an identifier. -/
def lookupMotor (id : Id) : BackendM config (Option (Fin config.motors.length)) :=
  onControl do
    let host ← get
    pure (host.control.getMotor id)

variable (platform : Platform)

/-- The constructor of Motor_Control enables every motor. If a send throws there, no
destructor runs and nothing is kept. -/
def connect : BackendM config Unit := do
  let backend ← get
  if backend.connected then pure ()
  else
    modify fun backend =>
      { control := some (MotorControl.new (initData config) backend.usb.clock)
        usb := { backend.usb with sent := [], received := [] } }
    tryCatch (onControl (usleep >>= fun _ => enableAll platform)) fun fault => do
      modify fun backend => { backend with control := none }
      throw fault

/-- Releasing Motor_Control disables every motor. An exception cannot leave its destructor. -/
def disconnect : BackendM config Unit := do
  let backend ← get
  if backend.connected then
    tryCatch (onControl (disableAll platform)) fun _ => throw .terminate
    modify fun backend => { backend with control := none }
  else pure ()

def sendCommand (entry : MotorConfig × MitCommand) : BackendM config Unit := do
  match ← lookupMotor entry.1.canId with
  | none => throw (.runtimeError "motor is not registered")
  | some motor => onControl (controlMit platform motor entry.2)

def sendMitAll (commands : List MitCommand) : BackendM config Unit := do
  requireConnected
  if commands.length ≠ config.motors.length then
    throw (.invalidArgument "MIT command count does not match motor count")
  else (config.motors.zip commands).forM (sendCommand platform)

def sendZeroMitAll : BackendM config Unit :=
  sendMitAll platform (List.replicate config.motors.length {})

def setZero (canId : Id) (persist : Bool) : BackendM config Unit := do
  requireConnected
  match ← lookupMotor canId with
  | none => throw (.runtimeError "motor CAN ID is not registered")
  | some motor => do
      onControl (setZeroPosition motor)
      onControl usleep
      if persist then do
        onControl (saveMotorParam motor)
        onControl usleep
        onControl (enableAll platform)
        onControl usleep
      else pure ()

def setZeroAll (persist : Bool) : BackendM config Unit :=
  config.motors.forM fun motor => setZero platform motor.canId persist

def stateOf (control : MotorControl config.motors.length) (motorConfig : MotorConfig)
    (motor : Fin config.motors.length) : MotorState :=
  { canId := motorConfig.canId
    mstId := motorConfig.mstId
    position := (control.objects motor).stateQ
    velocity := (control.objects motor).stateDq
    torque := (control.objects motor).stateTau
    feedbackInterval := (control.objects motor).deltaTime }

def readState (control : MotorControl config.motors.length) (motorConfig : MotorConfig) :
    Except Fault MotorState :=
  match control.getMotor motorConfig.canId with
  | none => .error (.runtimeError "motor is not registered")
  | some motor => .ok (stateOf control motorConfig motor)

def states (backend : DmSerialBackend config) : Except Fault (List MotorState) :=
  match backend.control with
  | none => .error notConnected
  | some control => config.motors.mapM (readState control)

@[simp] theorem exec_onControl_some {α : Type} (program : Sdk config.motors.length α)
    (control : MotorControl config.motors.length) (usb : Usb) :
    exec (onControl program) ⟨some control, usb⟩ =
      ((exec program ⟨control, usb⟩).1,
        { control := some (exec program ⟨control, usb⟩).2.control
          usb := (exec program ⟨control, usb⟩).2.usb }) := rfl

theorem exec_requireConnected (backend : DmSerialBackend config) : exec requireConnected backend =
    (if backend.connected = true then .ok () else .error notConnected, backend) := by
  rw [requireConnected, exec_get_bind]
  cases backend.connected with
  | false => rfl
  | true => rfl

end DmOpenarm.Backend
