import DmOpenarm.CommandTable
import DmOpenarm.MitFrame
import DmOpenarm.ReliableBus
import DmOpenarm.YamlLoader
import Mathlib.Data.List.Forall2

/-! Which frames a batch of MIT commands becomes. The backend finds each motor under its CAN ID
and the SDK finds it a second time, both in the registry that is also keyed by master IDs. -/

namespace DmOpenarm.Dispatch
open Types hiding ControlMode
open Damiao Registry MotorBus Backend Traffic Operations ReliableBus MitFrame CommandTable YamlLoader
open Library.FirstWins Library.Effect Library.Runs
variable {config : ArmConfig}

/-- The motor that a CAN ID leads to in the registry of a configuration. -/
def resolve (config : ArmConfig) (id : Id) : Option (Fin config.motors.length) :=
  (MotorControl.registry (initData config)).find? id

/-- The frame that a command for a motor becomes. -/
def Dispatched (config : ArmConfig) (platform : Platform) (entry : MotorConfig × MitCommand) (frame : TxFrame) : Prop :=
  ∃ motor limiting, resolve config entry.1.canId = some motor ∧
    resolve config (initData config motor).canId = some limiting ∧
    frame = mitFrame platform (limitParam (initData config limiting).motorType)
      (initData config motor).canId entry.2

/-- The registry and the CAN IDs as constructed, whatever the limits of the motors. -/
structure Constructed (config : ArmConfig) (control : MotorControl config.motors.length) : Prop where
  motors : control.motors = MotorControl.registry (initData config)
  canId : ∀ motor, (control.objects motor).canId = (initData config motor).canId

theorem constructed_of_built {control : MotorControl config.motors.length}
    (built : Built (initData config) control) : Constructed config control :=
  ⟨built.motors, built.canId⟩

/-- The frame that a command becomes with the limits that the motors of a control have. -/
def Commanded (platform : Platform) (control : MotorControl config.motors.length) (entry : MotorConfig × MitCommand)
    (frame : TxFrame) : Prop :=
  ∃ motor limiting, resolve config entry.1.canId = some motor ∧
    resolve config (initData config motor).canId = some limiting ∧
    frame = mitFrame platform (control.objects limiting).limitParam (initData config motor).canId entry.2

theorem exec_sendCommand (platform : Platform) {control now : MotorControl config.motors.length}
    (constructed : Constructed config control) (still : SameMotors control now) {usb : Usb}
    (reliable : Reliable (usb.script.take 1)) {entry : MotorConfig × MitCommand} (known : entry.1 ∈ config.motors) :
    ∃ frame, ∃ after : Host config.motors.length,
      exec (sendCommand platform entry) ⟨some now, usb⟩ = (.ok (), ⟨some after.control, after.usb⟩) ∧
        Commanded platform control entry frame ∧ after.usb.sent = usb.sent ++ [frame] ∧
        SameMotors control after.control ∧ after.usb.script = usb.script.tail := by
  obtain ⟨index, inside, same⟩ := List.mem_iff_getElem.mp known
  obtain ⟨motor, first⟩ := exists_find?_canId (initData config) ⟨index, inside⟩
  obtain ⟨limiting, second⟩ := exists_find?_canId (initData config) motor
  have canId : (initData config ⟨index, inside⟩).canId = entry.1.canId := by rw [← same]; rfl
  rw [canId] at first
  have lookup : exec (lookupMotor entry.1.canId) ⟨some now, usb⟩ = (.ok (some motor), ⟨some now, usb⟩) := by
    rw [exec_lookupMotor]
    change (Except.ok (now.motors.find? entry.1.canId), _) = _
    rw [still.motors, constructed.motors, first]
  have again : now.motors.find? (now.objects motor).canId = some limiting := by
    rw [still.motors, constructed.motors, still.canId, constructed.canId, second]
  let frame := mitFrame platform (control.objects limiting).limitParam (initData config motor).canId entry.2
  let host := (Host.mk now usb).advance.emit frame
  have sent : exec (sendCommand platform entry) ⟨some now, usb⟩ = (.ok (), ⟨some host.control, host.usb⟩) := by
    rw [sendCommand, exec_bind_ok lookup]
    dsimp only
    rw [exec_onControl_some, exec_controlMit, again]
    dsimp only
    rw [exec_fdcanFrameSend_reliable reliable, still.limits, still.canId, constructed.canId]
  obtain ⟨quiet, script⟩ := advance_usb (Host.mk now usb)
  exact ⟨frame, host, sent, ⟨motor, limiting, first, second, rfl⟩, congrArg (· ++ [frame]) quiet,
    still.trans (sameMotors_advance (Host.mk now usb)), script⟩

/-- A batch becomes one frame for each entry, in order. -/
theorem exec_forM_sendCommand (platform : Platform) {entries : List (MotorConfig × MitCommand)}
    (known : ∀ entry ∈ entries, entry.1 ∈ config.motors) {control now : MotorControl config.motors.length}
    (constructed : Constructed config control) (still : SameMotors control now) {usb : Usb}
    (reliable : Reliable (usb.script.take entries.length)) :
    ∃ frames after, exec (entries.forM (sendCommand platform)) ⟨some now, usb⟩ = (.ok (), after) ∧
      List.Forall₂ (Commanded platform control) entries frames ∧ after.usb.sent = usb.sent ++ frames := by
  induction entries generalizing now usb with
  | nil => exact ⟨[], ⟨some now, usb⟩, rfl, .nil, by simp⟩
  | cons entry rest ih =>
    obtain ⟨calm, calmRest⟩ := reliable_take_succ.mp reliable
    obtain ⟨frame, middle, sent, commanded, grown, stillNow, script⟩ :=
      exec_sendCommand platform constructed still calm (known entry (by simp))
    rw [← script] at calmRest
    obtain ⟨frames, after, finished, others, all⟩ :=
      ih (fun other member => known other (List.mem_cons_of_mem _ member)) stillNow calmRest
    refine ⟨frame :: frames, after, (exec_bind_ok sent _).trans finished, .cons commanded others, ?_⟩
    rw [all, grown, List.append_assoc, List.singleton_append]

theorem exec_sendMitAll_constructed (platform : Platform) {commands : List MitCommand}
    (same : commands.length = config.motors.length) {control : MotorControl config.motors.length}
    (constructed : Constructed config control) {usb : Usb}
    (reliable : Reliable (usb.script.take config.motors.length)) :
    ∃ frames after, exec (sendMitAll platform commands) ⟨some control, usb⟩ = (.ok (), after) ∧
      List.Forall₂ (Commanded platform control) (config.motors.zip commands) frames ∧
      after.usb.sent = usb.sent ++ frames := by
  have ready : exec requireConnected (⟨some control, usb⟩ : DmSerialBackend config) =
      (.ok (), ⟨some control, usb⟩) := exec_requireConnected _
  rw [sendMitAll, exec_bind_ok ready, if_neg (not_not.mpr same)]
  have length : (config.motors.zip commands).length = config.motors.length := by
    rw [List.length_zip, same, Nat.min_self]
  rw [← length] at reliable
  exact exec_forM_sendCommand platform (fun entry member => (List.of_mem_zip member).1) constructed (.refl _) reliable

theorem exec_sendMitAll (platform : Platform) {commands : List MitCommand}
    (same : commands.length = config.motors.length) {backend : DmSerialBackend config}
    (built : Consistent backend) (connected : backend.connected = true)
    (reliable : Reliable (backend.usb.script.take config.motors.length)) :
    ∃ frames after, exec (sendMitAll platform commands) backend = (.ok (), after) ∧
      List.Forall₂ (Dispatched config platform) (config.motors.zip commands) frames ∧
      after.usb.sent = backend.usb.sent ++ frames := by
  rcases backend with ⟨_ | control, usb⟩
  · cases connected
  have builtNow := built control rfl
  obtain ⟨frames, after, returned, commanded, grown⟩ :=
    exec_sendMitAll_constructed platform same (constructed_of_built builtNow) reliable
  refine ⟨frames, after, returned, commanded.imp ?_, grown⟩
  intro entry frame given
  obtain ⟨motor, limiting, first, second, sent⟩ := given
  rw [builtNow.limits] at sent
  exact ⟨motor, limiting, first, second, sent⟩

/-- The frame meant for a motor: on its CAN ID and scaled with the limits of its model. -/
def ownFrame (platform : Platform) (motor : MotorConfig) (command : MitCommand) : TxFrame :=
  mitFrame platform (limitParam (toDamiaoModel motor.model)) motor.canId command

/-- No earlier motor claimed this motor's CAN ID as its master ID. -/
def Unclaimed (config : ArmConfig) (motor : Fin config.motors.length) : Prop :=
  ∀ earlier < motor, (config.motors.get earlier).mstId ≠ (config.motors.get motor).canId

instance (motor : Fin config.motors.length) : Decidable (Unclaimed config motor) :=
  inferInstanceAs (Decidable (∀ earlier < motor, _))

theorem resolve_canId_iff (accepted : Accepted config) (motor : Fin config.motors.length) :
    resolve config (config.motors.get motor).canId = some motor ↔ Unclaimed config motor :=
  find?_canId_iff (initData config) (canId_injective accepted) motor

/-- No earlier motor has this motor's CAN ID, neither as its CAN ID nor as its master ID. -/
def Foremost (config : ArmConfig) (motor : Fin config.motors.length) : Prop :=
  ∀ earlier < motor, (config.motors.get earlier).canId ≠ (config.motors.get motor).canId ∧
    (config.motors.get earlier).mstId ≠ (config.motors.get motor).canId

instance (motor : Fin config.motors.length) : Decidable (Foremost config motor) :=
  inferInstanceAs (Decidable (∀ earlier < motor, _))

/-- A motor is found under its own CAN ID exactly when it is the first to have it. -/
theorem resolve_own_iff (motor : Fin config.motors.length) :
    resolve config (config.motors.get motor).canId = some motor ↔ Foremost config motor := by
  have uses : Uses (initData config) motor (config.motors.get motor).canId := .inl rfl
  rw [resolve, find?_registry_eq_some_iff, and_iff_right uses]
  apply forall₂_congr
  intro earlier before
  rw [Uses, not_or, eq_comm, @eq_comm _ _ (initData config earlier).mstId]
  rfl

/-- A motor that is found under its own CAN ID gets its own frame. -/
theorem dispatched_own {platform : Platform} {motor : Fin config.motors.length} {command : MitCommand} {frame : TxFrame}
    (own : resolve config (config.motors.get motor).canId = some motor)
    (dispatched : Dispatched config platform (config.motors.get motor, command) frame) :
    frame = ownFrame platform (config.motors.get motor) command := by
  obtain ⟨target, limiting, first, second, same⟩ := dispatched
  have reached : target = motor := Option.some.inj (first.symm.trans own)
  rw [reached] at second same
  have limits : limiting = motor := Option.some.inj (second.symm.trans own)
  rw [limits] at same
  exact same

/-- A motor gets its own frame exactly when its CAN ID is unclaimed. -/
theorem dispatched_own_iff (accepted : Accepted config) {platform : Platform}
    {motor : Fin config.motors.length} {command : MitCommand} {frame : TxFrame}
    (dispatched : Dispatched config platform (config.motors.get motor, command) frame) :
    frame = ownFrame platform (config.motors.get motor) command ↔ Unclaimed config motor := by
  refine ⟨?_, fun unclaimed => dispatched_own ((resolve_canId_iff accepted motor).mpr unclaimed) dispatched⟩
  intro own
  obtain ⟨target, limiting, first, second, same⟩ := dispatched
  have identifiers := congrArg TxFrame.id (same.symm.trans own)
  change (initData config target).canId + _ = (config.motors.get motor).canId + _ at identifiers
  rw [add_offset_mit, add_offset_mit] at identifiers
  have reached : target = motor := canId_injective accepted identifiers
  rw [reached] at first
  exact (resolve_canId_iff accepted motor).mp first

/-- The frame of a batch that belongs to a configured motor. -/
theorem dispatched_get {becomes : MotorConfig × MitCommand → TxFrame → Prop} {commands : List MitCommand}
    {frames : List TxFrame} (dispatched : List.Forall₂ becomes (config.motors.zip commands) frames)
    (same : commands.length = config.motors.length) (motor : Fin config.motors.length) :
    ∃ inside : motor.val < frames.length,
      becomes (config.motors.get motor, commands.get (motor.cast same.symm)) frames[motor.val] := by
  obtain ⟨lengths, each⟩ := List.forall₂_iff_get.mp dispatched
  have zipped : (config.motors.zip commands).length = config.motors.length := by
    rw [List.length_zip, same, Nat.min_self]
  have inside : motor.val < frames.length := by omega
  refine ⟨inside, ?_⟩
  have here := each motor.val (by omega) inside
  rwa [List.get_eq_getElem, List.getElem_zip] at here

theorem command_get {commands : List MitCommand} (same : commands.length = config.motors.length)
    {motor : Fin config.motors.length} {command : MitCommand} (requested : commands[motor.val]? = some command) :
    commands.get (motor.cast same.symm) = command := by
  apply Option.some.inj
  rw [← requested, List.get_eq_getElem, ← List.getElem?_eq_getElem]
  rfl

/-- A batch of the command table reaches the bus as one frame for each motor, in configuration
order, each with the last command assigned to that motor. -/
def Delivers (platform : Platform) (backend : DmSerialBackend config) (script : List Slot)
    (history : List Update) : Prop :=
  let outcome := exec (sendMitAll platform (tableAfter (canIds config) history)) (backend.withScript script)
  outcome.1 = .ok () ∧ outcome.2.usb.sent = backend.usb.sent ++
    config.motors.map fun motor => ownFrame platform motor (latestCommand (canIds config) history motor.canId)

/-- A batch becomes the motors' own frames exactly when every CAN ID is unclaimed. -/
theorem frames_own_iff (accepted : Accepted config) {platform : Platform} {value : MotorConfig → MitCommand}
    {frames : List TxFrame}
    (dispatched : List.Forall₂ (Dispatched config platform) (config.motors.zip (config.motors.map value)) frames) :
    frames = config.motors.map (fun motor => ownFrame platform motor (value motor)) ↔
      ∀ motor, Unclaimed config motor := by
  have same : (config.motors.map value).length = config.motors.length := List.length_map value
  have own (motor : Fin config.motors.length) : ∃ inside : motor.val < frames.length,
      (frames[motor.val] = ownFrame platform (config.motors.get motor) (value (config.motors.get motor)) ↔
        Unclaimed config motor) := by
    obtain ⟨inside, here⟩ := dispatched_get dispatched same motor
    have command : (config.motors.map value).get (motor.cast same.symm) = value (config.motors.get motor) := by
      simp only [List.get_eq_getElem, List.getElem_map, Fin.val_cast]
    rw [command] at here
    exact ⟨inside, dispatched_own_iff accepted here⟩
  constructor
  · intro equal motor
    obtain ⟨inside, iff⟩ := own motor
    apply iff.mp
    simp only [equal, List.getElem_map, List.get_eq_getElem]
  · intro unclaimed
    have lengths : frames.length = config.motors.length := by
      rw [← dispatched.length_eq, List.length_zip, same, Nat.min_self]
    apply List.ext_getElem
    · rw [lengths, List.length_map]
    intro index before _
    obtain ⟨inside, iff⟩ := own ⟨index, by omega⟩
    rw [iff.mpr (unclaimed _), List.getElem_map, List.get_eq_getElem]

/-- The table of an accepted configuration holds each motor's last command. -/
theorem table_motors (accepted : Accepted config) (history : List Update) :
    tableAfter (canIds config) history =
      config.motors.map fun motor => latestCommand (canIds config) history motor.canId := by
  have distinct : (canIds config).Nodup := (accepted_distinct accepted).1
  rw [tableAfter_eq distinct]
  exact List.map_map

theorem delivers_of_built (platform : Platform) (accepted : Accepted config) (history : List Update)
    {backend : DmSerialBackend config} (built : Consistent backend)
    (connected : backend.connected = true) {script : List Slot} (reliable : Reliable script) :
    Delivers platform backend script history ↔ ∀ motor, Unclaimed config motor := by
  have table := table_motors accepted history
  have same : (tableAfter (canIds config) history).length = config.motors.length := by
    rw [table, List.length_map]
  obtain ⟨frames, after, sent, dispatched, grown⟩ :=
    exec_sendMitAll platform same (show Consistent (backend.withScript script) from built)
      connected (reliable.take _)
  rw [table] at dispatched
  rw [← frames_own_iff accepted dispatched]
  unfold Delivers
  rw [sent]
  change _ ∧ after.usb.sent = _ ↔ _
  rw [grown]
  constructor
  · intro given
    obtain ⟨_, all⟩ := given
    exact List.append_cancel_left all
  · intro own
    rw [own]
    exact ⟨rfl, rfl⟩

/-- Every motor receives its own command exactly when no motor's CAN ID is the master ID of an
earlier motor. -/
theorem delivers_iff (platform : Platform) (accepted : Accepted config) (history : List Update)
    {backend : DmSerialBackend config} (reached : Reach (machine platform config) Anything backend)
    (connected : backend.connected = true) {script : List Slot} (reliable : Reliable script) :
    Delivers platform backend script history ↔ ∀ motor, Unclaimed config motor :=
  delivers_of_built platform accepted history (reach_built reached) connected reliable

theorem separate_delivers :
    ∃ backend, Reach (machine Platform.wrapping (joints [(1, 0x11), (2, 0x12)])) Anything backend ∧
      Delivers Platform.wrapping backend [] [.setCommand 2 { q := 1 }] := by
  obtain ⟨backend, reached, connected⟩ := exists_connected Platform.wrapping (joints [(1, 0x11), (2, 0x12)])
  refine ⟨backend, reached, ?_⟩
  exact (delivers_iff Platform.wrapping separate_accepted _ reached connected (by decide)).mpr (by decide)

/-- The CAN ID of the second joint is the master ID of the first. -/
theorem overlapping_accepted : Accepted (joints [(1, 2), (2, 0x12)]) :=
  ⟨"arm.yaml", .ok (document [motorEntry "0x01" "0x02", motorEntry "0x02" "0x12"]), by decide +kernel⟩

theorem overlapping_misdelivers : Accepted (joints [(1, 2), (2, 0x12)]) ∧
    ∃ backend, Reach (machine Platform.wrapping (joints [(1, 2), (2, 0x12)])) Anything backend ∧
      backend.connected = true ∧ ¬Delivers Platform.wrapping backend [] [.setCommand 2 { q := 1 }] := by
  obtain ⟨backend, reached, connected⟩ := exists_connected Platform.wrapping (joints [(1, 2), (2, 0x12)])
  refine ⟨overlapping_accepted, backend, reached, connected, ?_⟩
  rw [delivers_of_built Platform.wrapping overlapping_accepted _ (reach_built reached) connected (by decide)]
  decide

/-- Whatever the configuration: each field of a motor's frame decodes to within one quantisation step of a
request that lies in the range of the field, float arithmetic read as exact, if no earlier motor has its CAN ID. -/
theorem encodes_in_range (platform : Platform) {commands : List MitCommand}
    (same : commands.length = config.motors.length) {backend : DmSerialBackend config}
    (reached : Reach (machine platform config) Anything backend) (connected : backend.connected = true)
    {script : List Slot} (reliable : Reliable script) :
    ∃ frames, (exec (sendMitAll platform commands) (backend.withScript script)).1 = .ok () ∧
      (exec (sendMitAll platform commands) (backend.withScript script)).2.usb.sent =
        backend.usb.sent ++ frames ∧ frames.length = config.motors.length ∧
      ∀ motor command, Foremost config motor → commands[motor.val]? = some command →
        ∃ frame, frames[motor.val]? = some frame ∧ frame.id = (config.motors.get motor).canId ∧
          Decodes Encoded (limitParam (toDamiaoModel (config.motors.get motor).model)) command frame.data := by
  have built := reach_built reached
  obtain ⟨frames, after, sent, dispatched, grown⟩ :=
    exec_sendMitAll platform same (show Consistent (backend.withScript script) from built)
      connected (reliable.take _)
  refine ⟨frames, by rw [sent], by rw [sent]; exact grown, ?_, ?_⟩
  · rw [← dispatched.length_eq, List.length_zip, same, Nat.min_self]
  intro motor command foremost requested
  obtain ⟨inside, here⟩ := dispatched_get dispatched same motor
  have own := dispatched_own ((resolve_own_iff motor).mpr foremost) here
  rw [command_get same requested] at own
  refine ⟨frames[motor.val], List.getElem?_eq_getElem inside, ?_, ?_⟩
  · rw [own]
    exact add_offset_mit _
  · rw [own]
    exact decodes_mitPayload platform _ command

theorem joint_encodes :
    ∃ backend : DmSerialBackend (joints [(1, 0x11)]), ∃ frames,
      (exec (sendMitAll Platform.wrapping [{ q := 12, kp := 30 }]) (backend.withScript [])).2.usb.sent =
        backend.usb.sent ++ frames ∧
      ∃ frame, frames[0]? = some frame ∧ Decodes Encoded (limitParam .DM4310) { q := 12, kp := 30 } frame.data := by
  obtain ⟨backend, reached, connected⟩ := exists_connected Platform.wrapping (joints [(1, 0x11)])
  obtain ⟨frames, _, sent, _, each⟩ := encodes_in_range Platform.wrapping
    (show [({ q := 12, kp := 30 } : MitCommand)].length = 1 from rfl) reached connected
    (show Reliable [] by decide)
  obtain ⟨frame, first, _, decodes⟩ := each ⟨0, by decide⟩ { q := 12, kp := 30 } (by decide) rfl
  exact ⟨backend, frames, sent, frame, first, decodes⟩

/-- A velocity just above the limit of the motor is sent as full speed the other way. -/
theorem excess_reverses : Accepted (joints [(1, 0x11)]) ∧
    ∃ backend, Reach (machine Platform.wrapping (joints [(1, 0x11)])) Anything backend ∧
      backend.connected = true ∧ ∃ frame,
        (exec (sendMitAll Platform.wrapping [{ dq := 30.02 }]) (backend.withScript [])).1 = .ok () ∧
        (exec (sendMitAll Platform.wrapping [{ dq := 30.02 }]) (backend.withScript [])).2.usb.sent =
          backend.usb.sent ++ [frame] ∧
        ¬Decodes Within (limitParam .DM4310) { dq := 30.02 } frame.data ∧
        (readMit frame.data).map (fun codes => Library.Quantise.decode (-30) 30 4095 codes.dq.toNat) =
          some (-30 : ℚ) := by
  obtain ⟨backend, reached, connected⟩ := exists_connected Platform.wrapping (joints [(1, 0x11)])
  have built := reach_built reached
  have one : [({ dq := 30.02 } : MitCommand)].length = (joints [(1, 0x11)]).motors.length := rfl
  obtain ⟨frames, after, sent, dispatched, grown⟩ := exec_sendMitAll Platform.wrapping one
    (show Consistent (backend.withScript []) from built) connected (show Reliable [] by decide)
  obtain ⟨inside, here⟩ := dispatched_get dispatched one ⟨0, by decide⟩
  have own := (dispatched_own_iff joint_accepted here).mpr (by decide)
  have single : frames = [frames[0]] := by
    have lengths := dispatched.length_eq
    match frames, lengths with
    | [_], _ => rfl
  have seen : readMit (ownFrame Platform.wrapping { name := "joint", canId := 1, mstId := 0x11 }
      { dq := 30.02 }).data = some ⟨0x7FFF, 0, 0, 0, 0x7FF⟩ := by decide +kernel
  refine ⟨joint_accepted, backend, reached, connected, frames[0], by rw [sent], ?_, ?_, ?_⟩
  · rw [sent, ← single]
    exact grown
  · rw [own]
    intro decodes
    obtain ⟨codes, read, _, dq, _⟩ := decodes
    cases Option.some.inj (read.symm.trans seen)
    revert dq
    decide +kernel
  · rw [own]
    apply (congrArg (Option.map _) seen).trans
    decide +kernel

end DmOpenarm.Dispatch
