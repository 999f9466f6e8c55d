import DmOpenarm.ExampleTraffic
import DmOpenarm.Holding
import Mathlib.Algebra.Order.Floor.Semifield

/-! What hold_position sends. It reads the states once, and from then on it sends the same batch in
every turn, in which each motor gets the position code that it had reported. Float arithmetic is read
as exact throughout. Where the code computes in single precision, the way from a code to a position and
back can round down to the code below. -/

namespace DmOpenarm.HeldPose
open Types hiding ControlMode
open Damiao MotorBus Backend Traffic Operations MitFrame Dispatch YamlLoader Holding Records BatchTraffic
open Examples ExampleExits ExampleTraffic Library.Effect Library.Output Library.Quantise Library.Latest

variable {config : ArmConfig}

/-- The data of a frame that is taken for feedback of a motor. -/
def taken (config : ArmConfig) (motor : Fin config.motors.length) (reception : Reception) : Option (Fin 64 → Byte) :=
  ((reading (initData config) reception).pose motor).map fun _ => reception.frame.data

theorem pose_eq_taken (motor : Fin config.motors.length) (reception : Reception) :
    (reading (initData config) reception).pose motor = (taken config motor reception).map
      (MotorControl.feedback (limitParam (initData config motor).motorType)) := by
  unfold taken reading
  cases (MotorControl.registry (initData config)).find? (reception.frame.id.setWidth 16) with
  | none => rfl
  | some sender =>
    cases reception.pending with
    | false =>
      simp only [Bool.false_eq_true, ↓reduceIte, Reading.pose]
      by_cases same : motor = sender
      · subst same
        rw [if_pos rfl]
        rfl
      · rw [if_neg same]
        rfl
    | true =>
      simp only [↓reduceIte]
      split
      · cases (MotorControl.registry (initData config)).find?
          (word16 (reception.frame.data 1) (reception.frame.data 0)) with
        | none => rfl
        | some target => rfl
      · rfl

/-- The code of the position that a motor has reported last. A motor that is not heard from counts
as one in the middle of its range. -/
def reportedCode (config : ArmConfig) (motor : Fin config.motors.length) (seen : List Reception) : BitVec 16 :=
  ((latest (taken config motor) seen).map fun data => word16 (data 1) (data 2)).getD 0x7FFF

/-- The position that the states show for an entry of the configuration. -/
def shownPosition (config : ArmConfig) (seen : List Reception) (entry : Fin config.motors.length) : ℚ :=
  match resolve config (config.motors.get entry).canId with
  | none => 0
  | some motor => ((latest (fun reception => (reading (initData config) reception).pose motor) seen).getD (0, 0, 0)).1

def heldCommands (config : ArmConfig) (seen : List Reception) : List MitCommand :=
  List.ofFn fun entry => { kp := 2, kd := 1 / 2, q := shownPosition config seen entry }

theorem length_heldCommands (config : ArmConfig) (seen : List Reception) :
    (heldCommands config seen).length = config.motors.length :=
  List.length_ofFn

/-- The commands are computed from what the log says at that moment. -/
theorem holdCommands_shown {backend : DmSerialBackend config} (sound : Sound backend) {reported : List MotorState}
    (read : states backend = .ok reported) : holdCommands reported = heldCommands config backend.usb.received := by
  rcases backend with ⟨_ | control, usb⟩
  · cases read
  obtain ⟨entry, shown, each⟩ := states_of_logged (sound.built control rfl) (sound.logged control rfl)
  rw [shown] at read
  cases read
  rw [holdCommands, heldCommands, List.map_ofFn]
  congr 1
  funext index
  obtain ⟨motor, leads, _, _, pose, _⟩ := each index
  rw [Function.comp_apply, shownPosition, leads]
  dsimp only
  rw [← pose]

/-- Zero is sent as the middle code. -/
theorem toNat_floatToUint_zero (platform : Platform) {limit : ℚ} (positive : 0 < limit) {bits : Nat} (fits : bits ≤ 16) :
    (floatToUint platform 0 (-limit) limit bits).toNat = (2 ^ bits - 1) / 2 := by
  have ordered : -limit < limit := neg_lt_self positive
  have place : scaled (-limit) limit (2 ^ bits - 1) 0 = ((2 ^ bits - 1 : Nat) : ℚ) / (2 : Nat) := by
    unfold scaled
    field_simp
    push_cast
    ring
  have small : 2 ^ bits ≤ 2 ^ 16 := Nat.pow_le_pow_right (by decide) fits
  have top : scaled (-limit) limit (2 ^ bits - 1) 0 ≤ 65535 := by
    have codes : ((2 ^ bits - 1 : Nat) : ℚ) ≤ 65535 := by
      have bound : 2 ^ bits - 1 ≤ 65535 := by omega
      exact_mod_cast bound
    exact (scaled_le_top ordered positive.le).trans codes
  rw [toNat_floatToUint platform (scaled_nonneg ordered (neg_nonpos.mpr positive.le)) top, encode, place,
    Nat.floor_div_eq_div]

/-- The position that a motor is shown to have is sent as the code it has reported. -/
theorem floatToUint_shown (platform : Platform) {motor : Fin config.motors.length}
    (own : resolve config (config.motors.get motor).canId = some motor) (seen : List Reception) :
    floatToUint platform (shownPosition config seen motor)
      (-(limitParam (toDamiaoModel (config.motors.get motor).model)).qMax)
      (limitParam (toDamiaoModel (config.motors.get motor).model)).qMax 16 = reportedCode config motor seen := by
  obtain ⟨q, _, _⟩ := limitParam_pos (toDamiaoModel (config.motors.get motor).model)
  rw [shownPosition, own]
  dsimp only
  rw [funext (pose_eq_taken motor), latest_map, reportedCode]
  cases latest (taken config motor) seen with
  | none =>
    apply BitVec.eq_of_toNat_eq
    exact toNat_floatToUint_zero platform q (by decide)
  | some data => exact floatToUint_uintToFloat platform q (by decide)

/-- The frame that holds a motor carries the code that the motor has reported, and the middle codes
for no velocity and no torque. -/
theorem readMit_held (platform : Platform) {motor : Fin config.motors.length}
    (own : resolve config (config.motors.get motor).canId = some motor) (seen : List Reception) :
    readMit (ownFrame platform (config.motors.get motor)
        { kp := 2, kd := 1 / 2, q := shownPosition config seen motor }).data =
      some { q := reportedCode config motor seen, dq := 0x7FF, kp := gainCode 500 2, kd := gainCode 5 (1 / 2)
             tau := 0x7FF } := by
  obtain ⟨_, dq, tau⟩ := limitParam_pos (toDamiaoModel (config.motors.get motor).model)
  have middle {limit : ℚ} (positive : 0 < limit) : floatToUint platform 0 (-limit) limit 12 &&& 0xfff = 0x7FF := by
    apply BitVec.eq_of_toNat_eq
    rw [toNat_and_mask _ 0xfff 12 rfl, toNat_floatToUint_zero platform positive (by decide)]
    rfl
  change readMit (mitPayload platform (limitParam (toDamiaoModel (config.motors.get motor).model)) _) = _
  unfold mitPayload
  dsimp only
  rw [readMit_mitData, floatToUint_shown platform own, middle dq, middle tau,
    floatToUint_gain platform (by norm_num) (by norm_num) (by norm_num),
    floatToUint_gain platform (by norm_num) (by norm_num) (by norm_num)]

/-- A zero batch, and then the same batch in every turn. -/
def holdTraffic (platform : Platform) (config : ArmConfig) (turns : Nat) (seen : List Reception) : List TxFrame :=
  plan config platform (List.replicate config.motors.length {}) ++
    (List.replicate turns (plan config platform (heldCommands config seen))).flatten

/-- One turn of the loop. -/
def holdTurn (platform : Platform) (commands : List MitCommand) : BackendM config Unit := do
  sendMitAll platform commands
  let _ ← readStates
  pause

theorem holdTurn_follows (platform : Platform) (commands : List MitCommand) :
    Follows (service config) (holdTurn platform commands) :=
  (sendMitAll_follows platform commands).bind fun _ => readStates_follows.bind fun _ => pause_follows

theorem holdTurn_outputs (platform : Platform) {commands : List MitCommand}
    (same : commands.length = config.motors.length) :
    Outputs mitTraffic Sound Anyhow (holdTurn platform commands : BackendM config Unit)
      (plan config platform commands) := by
  have turn : Outputs mitTraffic Sound Anyhow (holdTurn platform commands : BackendM config Unit)
      (plan config platform commands ++ []) :=
    (sendMitAll_traffic platform same).bind fun _ => (readStates_outputs sound_serves _).silent_bind fun _ =>
      pause_outputs sound_serves _
  rwa [List.append_nil] at turn

theorem holdPosition_written (platform : Platform) (turns : Nat) {start : DmSerialBackend config} (sound : Sound start) :
    ∃ seen, seen <+: (exec (holdPosition platform turns) start).2.usb.received ∧
      Written mitTraffic start (exec (holdPosition platform turns) start) (holdTraffic platform config turns seen) := by
  have begins : (holdPosition platform turns : BackendM config Unit) = opening platform >>= fun reported =>
      (List.replicate turns ()).forM fun _ => holdTurn platform (holdCommands reported) :=
    opening_bind platform _
  rw [begins]
  rcases opening_cases platform sound with ⟨fault, middle, items, ended, grown, early⟩ |
    ⟨reported, middle, opened, kept, read, grown⟩
  · rw [exec_bind_error ended]
    refine ⟨[], List.nil_prefix, items, grown, early.trans (List.prefix_append _ _), ?_⟩
    intro value returned
    cases returned
  · rw [exec_bind_ok opened, holdCommands_shown kept read]
    have turn := holdTurn_outputs platform (length_heldCommands config middle.usb.received)
    have loop := Outputs.forM (List.replicate turns ()) fun _ _ => turn
    have follows : Follows (service config) ((List.replicate turns ()).forM fun _ =>
        holdTurn platform (heldCommands config middle.usb.received)) :=
      .forM _ fun _ _ => holdTurn_follows platform _
    have written := Written.append grown ((loop middle kept).2 trivial).2
    rw [List.flatMap_replicate] at written
    exact ⟨_, received_grows (follows middle kept.built), written⟩

/-- The joint reports the position code 0x9ABC before it is enabled. -/
def reportingUsb : Usb where
  script := [{ arrivals := [{ frame := { id := 0x11, data := fun place =>
    if place = 1 then 0x9A else if place = 2 then 0xBC else 0 } }] }]

end DmOpenarm.HeldPose
