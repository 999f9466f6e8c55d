import DmOpenarm.Dispatch

/-! A motor that is sent the pose it has reported. A feedback frame and an MIT frame hold the
same codes at different places, and both ways scale them with the limits of the motor. -/

namespace DmOpenarm.Holding
open Types hiding ControlMode
open Damiao Registry Reception MotorBus Backend Traffic Operations ReliableBus MitFrame Dispatch YamlLoader
open Library.Effect Library.Quantise
variable {config : ArmConfig}

section Codes

/-- A code that has been received is sent unchanged. -/
theorem floatToUint_uintToFloat (platform : Platform) {limit : ℚ} (positive : 0 < limit) {bits : Nat}
    (wide : 0 < bits) {code : BitVec 16} :
    floatToUint platform (uintToFloat code (-limit) limit bits) (-limit) limit bits = code := by
  have ordered : -limit < limit := neg_lt_self positive
  have two : 2 ^ 1 ≤ 2 ^ bits := Nat.pow_le_pow_right (by decide) wide
  have codes : 0 < 2 ^ bits - 1 := by omega
  have place : scaled (-limit) limit (2 ^ bits - 1) (uintToFloat code (-limit) limit bits) = code.toNat :=
    scaled_decode (sub_pos.mpr ordered).ne' (Nat.cast_ne_zero.mpr codes.ne') code.toNat
  have small : (code.toNat : ℚ) ≤ 65535 := by
    have bound : code.toNat ≤ 65535 := Nat.le_of_lt_succ code.isLt
    exact_mod_cast bound
  apply BitVec.eq_of_toNat_eq
  rw [toNat_floatToUint platform (place ▸ Nat.cast_nonneg _) (place ▸ small)]
  exact encode_decode ordered codes code.toNat

/-- The twelve bits of a gain between zero and its largest value. -/
def gainCode (largest gain : ℚ) : BitVec 16 := BitVec.ofNat 16 ⌊gain / largest * 4095⌋₊

theorem floatToUint_gain (platform : Platform) {largest gain : ℚ} (positive : 0 < largest) (above : 0 ≤ gain)
    (below : gain ≤ largest) : floatToUint platform gain 0 largest 12 &&& 0xfff = gainCode largest gain := by
  have low : 0 ≤ scaled 0 largest (2 ^ 12 - 1) gain := scaled_nonneg positive above
  have high : scaled 0 largest (2 ^ 12 - 1) gain ≤ (2 ^ 12 - 1 : Nat) := scaled_le_top positive below
  have sent := toNat_floatToUint platform low (high.trans (by norm_num))
  have top : encode 0 largest (2 ^ 12 - 1) gain ≤ 2 ^ 12 - 1 := encode_le_top positive below
  have same : encode 0 largest (2 ^ 12 - 1) gain = ⌊gain / largest * 4095⌋₊ := by
    rw [encode, scaled, sub_zero, sub_zero]
    norm_num
  apply BitVec.eq_of_toNat_eq
  rw [toNat_and_mask _ 0xfff 12 rfl, sent, gainCode, BitVec.toNat_ofNat, ← same]
  omega

theorem and_mask_eq_self {code : BitVec 16} (small : code.toNat < 2 ^ 12) : code &&& 0xfff = code := by
  apply BitVec.eq_of_toNat_eq
  rw [toNat_and_mask code 0xfff 12 rfl, Nat.mod_eq_of_lt small]

/-- What a feedback frame says is sent with its own codes. -/
theorem readMit_feedback (platform : Platform) {limits : LimitParam}
    (positive : 0 < limits.qMax ∧ 0 < limits.dqMax ∧ 0 < limits.tauMax) (data : Fin 64 → Byte) {kp kd : ℚ}
    (stiff : 0 ≤ kp ∧ kp ≤ 500) (damped : 0 ≤ kd ∧ kd ≤ 5) :
    readMit (mitPayload platform limits
        { kp, kd, q := (MotorControl.feedback limits data).1, dq := (MotorControl.feedback limits data).2.1
          tau := (MotorControl.feedback limits data).2.2 }) =
      some { q := word16 (data 1) (data 2), dq := high12 (data 3) (data 4), kp := gainCode 500 kp
             kd := gainCode 5 kd, tau := low12 (data 4) (data 5) } := by
  obtain ⟨q, dq, tau⟩ := positive
  have dqCode : (high12 (data 3) (data 4)).toNat < 2 ^ 12 := by
    have upper := (data 3).isLt
    have lower := (data 4).isLt
    rw [toNat_high12]
    omega
  have tauCode : (low12 (data 4) (data 5)).toNat < 2 ^ 12 := by
    have lower := (data 5).isLt
    rw [toNat_low12]
    omega
  have dqSent : ((data 3).setWidth 16 <<< 4 ||| ((data 4) >>> 4).setWidth 16) &&& 0xfff = high12 (data 3) (data 4) :=
    and_mask_eq_self dqCode
  have tauSent : (((data 4) &&& 0xf).setWidth 16 <<< 8 ||| (data 5).setWidth 16) &&& 0xfff = low12 (data 4) (data 5) :=
    and_mask_eq_self tauCode
  unfold mitPayload MotorControl.feedback
  dsimp only
  rw [floatToUint_uintToFloat platform q (by decide), floatToUint_uintToFloat platform dq (by decide),
    floatToUint_uintToFloat platform tau (by decide), readMit_mitData,
    floatToUint_gain platform (by norm_num) stiff.1 stiff.2,
    floatToUint_gain platform (by norm_num) damped.1 damped.2, dqSent, tauSent]

end Codes
/-- An entry of the reported states shows the motor that its CAN ID leads to. -/
theorem states_get {control : MotorControl config.motors.length} (constructed : Constructed config control) (usb : Usb)
    {entry motor : Fin config.motors.length} (shown : resolve config (config.motors.get entry).canId = some motor) :
    ∃ reported, states ⟨some control, usb⟩ = .ok reported ∧
      reported[entry.val]? = some (stateOf control (config.motors.get entry) motor) := by
  choose found looked using exists_find?_canId (initData config)
  have read (index : Fin config.motors.length) : readState control (config.motors.get index) =
      .ok (stateOf control (config.motors.get index) (found index)) := by
    have here : control.getMotor (config.motors.get index).canId = some (found index) := by
      rw [MotorControl.getMotor, constructed.motors]
      exact looked index
    rw [readState, here]
  refine ⟨_, mapM_ok read, ?_⟩
  have same : found entry = motor := Option.some.inj ((looked entry).symm.trans shown)
  rw [List.getElem?_ofFn, dif_pos entry.isLt, same]

theorem objects_feedback {host : Host config.motors.length} {motor : Fin config.motors.length} {arrival : Arrival}
    (idle : host.control.readWriteSave = false)
    (received : host.control.motors.find? (arrival.frame.id.setWidth 16) = some motor) :
    (host.receive arrival).control.objects motor =
      Motor.refreshed (host.control.objects motor) (host.usb.clock + arrival.elapsed) arrival.frame.data := by
  have handled := canframeCallback_handled host.control (host.usb.clock + arrival.elapsed) arrival.frame
  change (host.control.canframeCallback (host.usb.clock + arrival.elapsed) arrival.frame).objects motor = _
  generalize host.control.canframeCallback _ _ = after at handled
  cases handled with
  | unknown absent =>
    rw [received] at absent
    cases absent
  | register found pending =>
    rw [idle] at pending
    cases pending
  | @feedback other found =>
    have same : other = motor := Option.some.inj (found.symm.trans received)
    rw [same, objects_modifyMotor, if_pos rfl]

/-- A batch goes out, and the frame of one configured motor has these codes and this identifier. -/
def Emits (platform : Platform) (backend : DmSerialBackend config) (commands : List MitCommand)
    (entry : Fin config.motors.length) (id : Id) (codes : MitCodes) : Prop :=
  ∃ frames frame, (exec (sendMitAll platform commands) backend).1 = .ok () ∧
    (exec (sendMitAll platform commands) backend).2.usb.sent = backend.usb.sent ++ frames ∧
    frames.length = config.motors.length ∧ frames[entry.val]? = some frame ∧ frame.id = id ∧
    readMit frame.data = some codes

theorem emits_of_constructed (platform : Platform) {control : MotorControl config.motors.length}
    (constructed : Constructed config control) {usb : Usb} (reliable : Reliable usb.script)
    {motor entry : Fin config.motors.length} (shown : resolve config (config.motors.get entry).canId = some motor)
    {limits : LimitParam} (sending : ∀ limiting, resolve config (initData config motor).canId = some limiting →
      (control.objects limiting).limitParam = limits)
    {commands : List MitCommand} (same : commands.length = config.motors.length) {command : MitCommand}
    (held : commands[entry.val]? = some command) {codes : MitCodes}
    (read : readMit (mitPayload platform limits command) = some codes) :
    Emits platform ⟨some control, usb⟩ commands entry (initData config motor).canId codes := by
  obtain ⟨frames, after, returned, commanded, grown⟩ :=
    exec_sendMitAll_constructed platform same constructed (reliable.take _)
  obtain ⟨inside, target, limiting, first, second, sent⟩ := dispatched_get commanded same entry
  have reached : target = motor := Option.some.inj (first.symm.trans shown)
  rw [reached] at second sent
  rw [command_get same held, sending limiting second] at sent
  refine ⟨frames, frames[entry.val], by rw [returned], by rw [returned]; exact grown, ?_,
    List.getElem?_eq_getElem inside, ?_, ?_⟩
  · rw [← commanded.length_eq, List.length_zip, same, Nat.min_self]
  · rw [sent]
    exact add_offset_mit _
  · rw [sent]
    exact read

/-- A motor that is sent the pose its entry of the states shows gets back the codes of the feedback
frame it was taken from, and its gain codes come from the gains alone. The limits are any that
scale both its feedback and its commands. -/
theorem held_pose_keeps_codes (platform : Platform) {control : MotorControl config.motors.length}
    (constructed : Constructed config control) {usb : Usb} {motor entry : Fin config.motors.length}
    (shown : resolve config (config.motors.get entry).canId = some motor) {limits : LimitParam}
    (positive : 0 < limits.qMax ∧ 0 < limits.dqMax ∧ 0 < limits.tauMax)
    (receiving : (control.objects motor).limitParam = limits)
    (sending : ∀ limiting, resolve config (initData config motor).canId = some limiting →
      (control.objects limiting).limitParam = limits)
    {arrival : Arrival} (idle : control.readWriteSave = false)
    (addressed : resolve config (arrival.frame.id.setWidth 16) = some motor) {after : DmSerialBackend config}
    (received : act platform ⟨some control, usb⟩ (.receive arrival) = some after) :
    ∃ reported state, states after = .ok reported ∧ reported[entry.val]? = some state ∧
      ∀ kp kd : ℚ, 0 ≤ kp ∧ kp ≤ 500 → 0 ≤ kd ∧ kd ≤ 5 →
        ∀ commands : List MitCommand, commands.length = config.motors.length → commands[entry.val]? =
            some { kp, kd, q := state.position, dq := state.velocity, tau := state.torque } →
          ∀ script, Reliable script →
            Emits platform (after.withScript script) commands entry (initData config motor).canId
              { q := word16 (arrival.frame.data 1) (arrival.frame.data 2)
                dq := high12 (arrival.frame.data 3) (arrival.frame.data 4)
                tau := low12 (arrival.frame.data 4) (arrival.frame.data 5)
                kp := gainCode 500 kp, kd := gainCode 5 kd } := by
  cases received
  subst receiving
  have still := sameMotors_receive (Host.mk control usb) arrival
  have later : Constructed config ((Host.mk control usb).receive arrival).control :=
    ⟨still.motors.trans constructed.motors, fun other => (still.canId other).trans (constructed.canId other)⟩
  have known : control.motors.find? (arrival.frame.id.setWidth 16) = some motor := by
    rw [constructed.motors]
    exact addressed
  have refreshed := objects_feedback (show (Host.mk control usb).control.readWriteSave = false from idle) known
  obtain ⟨reported, read, entryState⟩ := states_get later ((Host.mk control usb).receive arrival).usb shown
  refine ⟨reported, _, read, entryState, ?_⟩
  intro kp kd stiff damped commands same held script reliable
  have scales : ∀ limiting, resolve config (initData config motor).canId = some limiting →
      (((Host.mk control usb).receive arrival).control.objects limiting).limitParam =
        (control.objects motor).limitParam :=
    fun limiting again => (still.limits limiting).trans (sending limiting again)
  have codes := readMit_feedback platform positive arrival.frame.data stiff damped
  refine emits_of_constructed platform later reliable shown scales same held ?_
  rw [stateOf, refreshed]
  exact codes

/-- The position, velocity and torque codes are 0x9ABC, 0x123 and 0xDEF. -/
theorem joint_keeps_codes :
    ∃ after : DmSerialBackend (joints [(1, 0x11)]), ∃ reported state, states after = .ok reported ∧
      reported[0]? = some state ∧
      Emits Platform.wrapping (after.withScript [])
        [{ kp := 2, kd := 0.5, q := state.position, dq := state.velocity, tau := state.torque }] ⟨0, by decide⟩ 1
        { q := 0x9ABC, dq := 0x123, tau := 0xDEF, kp := gainCode 500 2, kd := gainCode 5 0.5 } := by
  let arrival : Arrival := { frame := { id := 0x11, data := fun place =>
    if place = 1 then 0x9A else if place = 2 then 0xBC else if place = 3 then 0x12
    else if place = 4 then 0x3D else if place = 5 then 0xEF else 0 } }
  have scaled : ∀ limiting, resolve (joints [(1, 0x11)]) (initData (joints [(1, 0x11)]) ⟨0, by decide⟩).canId =
      some limiting → ((MotorControl.new (initData (joints [(1, 0x11)])) 0).objects limiting).limitParam =
        limitParam .DM4310 := by decide +kernel
  obtain ⟨reported, state, read, first, held⟩ := @held_pose_keeps_codes (joints [(1, 0x11)]) Platform.wrapping
    (MotorControl.new (initData (joints [(1, 0x11)])) 0) (constructed_of_built (.new 0)) {} ⟨0, by decide⟩ ⟨0, by decide⟩
    (by decide) (limitParam .DM4310) (limitParam_pos .DM4310) rfl scaled arrival rfl (by decide) _ rfl
  have q : word16 (arrival.frame.data 1) (arrival.frame.data 2) = 0x9ABC := by decide
  have dq : high12 (arrival.frame.data 3) (arrival.frame.data 4) = 0x123 := by decide
  have tau : low12 (arrival.frame.data 4) (arrival.frame.data 5) = 0xDEF := by decide
  rw [q, dq, tau] at held
  exact ⟨_, reported, state, read, first, held 2 0.5 (by norm_num) (by norm_num) _ rfl rfl [] (by decide)⟩

end DmOpenarm.Holding
