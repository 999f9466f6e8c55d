import DmOpenarm.Registry

/-! What a received frame can do to the motors: nothing, register writes, or one new feedback. -/

namespace DmOpenarm.Reception
open Types hiding ControlMode
open Damiao Library.FirstWins
variable {n : Nat}

/-- The motor and the mode that a reply about register 10 names. -/
def modeReply (motors : FirstMap Id (Fin n)) (data : Fin 64 → Byte) : Option (Fin n × ControlMode) :=
  if (data 2 = 0x33 ∨ data 2 = 0x55) ∧ data 3 = 10 then
    match motors.find? (word16 (data 1) (data 0)), modeOfRegister (word32 data) with
    | some motor, some mode => some (motor, mode)
    | _, _ => none
  else none

/-- Two states of a motor that differ in its parameters and its mode only. -/
def SameButRegisters (before after : Motor) : Prop :=
  ∃ mode params, after = { before with mode := mode, paramMap := params }

theorem SameButRegisters.refl (motor : Motor) : SameButRegisters motor motor :=
  ⟨motor.mode, motor.paramMap, rfl⟩

theorem SameButRegisters.trans {first second third : Motor} (before : SameButRegisters first second)
    (after : SameButRegisters second third) : SameButRegisters first third := by
  obtain ⟨_, _, same⟩ := before
  obtain ⟨mode, params, sameToo⟩ := after
  exact ⟨mode, params, by rw [sameToo, same]⟩

theorem objects_modifyMotor (control : MotorControl n) (motor other : Fin n) (change : Motor → Motor) :
    (control.modifyMotor motor change).objects other =
      if other = motor then change (control.objects motor) else control.objects other :=
  Function.update_apply _ _ _ _

/-- A property of a motor before and after a change, checked at the motor that is changed. -/
theorem modifyMotor_each (related : Motor → Motor → Prop) (control : MotorControl n) (motor : Fin n)
    (change : Motor → Motor) (refl : ∀ other, related other other)
    (changed : related (control.objects motor) (change (control.objects motor))) (other : Fin n) :
    related (control.objects other) ((control.modifyMotor motor change).objects other) := by
  rw [objects_modifyMotor]
  by_cases same : other = motor
  · rw [if_pos same, same]
    exact changed
  · rw [if_neg same]
    exact refl _

/-- A register reply changes no feedback, and a mode only if it says so. -/
structure RegistersOnly (before : MotorControl n) (data : Fin 64 → Byte) (after : MotorControl n) : Prop where
  motors : after.motors = before.motors
  objects : ∀ motor, SameButRegisters (before.objects motor) (after.objects motor)
  modes : ∀ motor, (after.objects motor).mode = (before.objects motor).mode ∨
    modeReply before.motors data = some (motor, (after.objects motor).mode)

theorem RegistersOnly.refl (control : MotorControl n) (data : Fin 64 → Byte) :
    RegistersOnly control data control :=
  ⟨rfl, fun _ => .refl _, fun _ => .inl rfl⟩

theorem setParam_registersOnly (control : MotorControl n) (data : Fin 64 → Byte) (motor : Fin n)
    (key : Byte) (value : ValueType) :
    RegistersOnly control data (control.modifyMotor motor fun m => m.setParam key value) where
  motors := rfl
  objects := modifyMotor_each SameButRegisters control motor _ .refl ⟨_, _, rfl⟩
  modes other := .inl <| modifyMotor_each (fun before after => after.mode = before.mode) control motor
    (fun m => m.setParam key value) (fun _ => rfl) rfl other

theorem receiveParam_registersOnly (control : MotorControl n) (data : Fin 64 → Byte)
    (access : data 2 = 0x33 ∨ data 2 = 0x55) :
    RegistersOnly control data (control.receiveParam data) := by
  unfold MotorControl.receiveParam
  cases found : control.motors.find? (word16 (data 1) (data 0)) with
  | none => exact .refl control data
  | some motor =>
    have stored := setParam_registersOnly control data motor (data 3)
    by_cases ranged : isInRanges (data 3) = true
    · simp only [if_pos ranged]
      by_cases register : data 3 = 10
      · simp only [if_pos register]
        cases decoded : modeOfRegister (word32 data) with
        | none => exact stored _
        | some mode =>
          have reply : modeReply control.motors data = some (motor, mode) := by
            simp only [modeReply, if_pos (And.intro access register), found, decoded]
          have before := stored ⟨word32 data, false⟩
          refine ⟨rfl, fun other => ?_, fun other => ?_⟩
          · exact (before.objects other).trans
              (modifyMotor_each SameButRegisters _ motor (fun m => m.setMode mode) .refl ⟨mode, _, rfl⟩ other)
          · rw [objects_modifyMotor]
            by_cases same : other = motor
            · rw [if_pos same, same]
              exact .inr reply
            · rw [if_neg same]
              exact before.modes other
      · simp only [if_neg register]
        exact stored _
    · simp only [if_neg ranged]
      exact stored _

/-- The new state of a motor that a feedback frame reaches. -/
def Motor.refreshed (motor : Motor) (now : Int) (data : Fin 64 → Byte) : Motor :=
  let received := MotorControl.feedback motor.limitParam data
  (motor.receiveData received.1 received.2.1 received.2.2).updateTimeInterval now

/-- The three things that a received frame can do. -/
inductive Handled (control : MotorControl n) (now : Int) (frame : CanFrame) : MotorControl n → Prop where
  | unknown (absent : control.motors.find? (frame.id.setWidth 16) = none) :
      Handled control now frame control
  | register {motor : Fin n} {after : MotorControl n}
      (found : control.motors.find? (frame.id.setWidth 16) = some motor)
      (pending : control.readWriteSave = true) (registers : RegistersOnly control frame.data after) :
      Handled control now frame after
  | feedback {motor : Fin n} (found : control.motors.find? (frame.id.setWidth 16) = some motor)
      (idle : control.readWriteSave = false) :
      Handled control now frame (control.modifyMotor motor fun m => Motor.refreshed m now frame.data)

theorem canframeCallback_handled (control : MotorControl n) (now : Int) (frame : CanFrame) :
    Handled control now frame (control.canframeCallback now frame) := by
  unfold MotorControl.canframeCallback
  cases found : control.motors.find? (frame.id.setWidth 16) with
  | none =>
    simp only [Option.isSome_none, Bool.and_false, Bool.false_eq_true, ↓reduceIte, found]
    exact .unknown found
  | some motor =>
    cases pending : control.readWriteSave with
    | false =>
      simp only [Bool.false_and, Bool.false_eq_true, ↓reduceIte, found]
      exact .feedback found pending
    | true =>
      have expected : (true && (control.motors.find? (frame.id.setWidth 16)).isSome) = true := by
        rw [found]
        rfl
      simp only [if_pos expected]
      by_cases reply : frame.data 2 = 0x33 ∨ frame.data 2 = 0x55 ∨ frame.data 2 = 0xAA
      · simp only [if_pos reply]
        by_cases access : frame.data 2 = 0x33 ∨ frame.data 2 = 0x55
        · simp only [if_pos access]
          have handled := receiveParam_registersOnly control frame.data access
          exact .register found pending ⟨handled.motors, handled.objects, handled.modes⟩
        · simp only [if_neg access]
          exact .register found pending ⟨rfl, fun _ => .refl _, fun _ => .inl rfl⟩
      · simp only [if_neg reply]
        exact .register found pending (.refl control frame.data)

end DmOpenarm.Reception
