import DmOpenarm.CommandTable
import DmOpenarm.Faults
import DmOpenarm.Shutdown

/-! Which identifiers set_zero takes. It asks the registry of the SDK, which also knows the
master IDs, while set_command asks the list of CAN IDs. -/

namespace DmOpenarm.ZeroIds
open Types hiding ControlMode
open Damiao Registry MotorBus Backend Traffic Operations Faults ReliableBus Shutdown YamlLoader
open CommandTable Library.FirstWins Library.Effect Library.Runs

section Bus
variable {n : Nat}

/-- The command that makes a motor's position its zero, where the motor listens at present. -/
def zeroFrame (control : MotorControl n) (motor : Fin n) : TxFrame :=
  ⟨.control, (control.objects motor).canId + (control.objects motor).mode.offset, commandBytes 0xFE⟩

/-- The command that writes a motor's parameters to flash. -/
def saveFrame (id : Id) : TxFrame := registerFrame id [0xAA, 0x01, 0, 0, 0, 0]

/-- A frame that sets a zero or writes to flash. -/
def Lasting (frame : TxFrame) : Prop :=
  frame.kind = .control ∧ frame.data[7]? = some 0xFE ∨ frame.kind = .register ∧ frame.data[2]? = some 0xAA

/-- Steps on the bus on which every frame that is sent is allowed. -/
inductive Sending (allowed : TxFrame → Prop) : Host n → Host n → Prop where
  | wait (host : Host n) : Sending allowed host host.advance
  | send (host : Host n) {frame : TxFrame} (free : allowed frame) : Sending allowed host (host.advance.emit frame)
  | expect (host : Host n) : Sending allowed host host.expectReply

def sending (data : Fin n → DmActData) (allowed : TxFrame → Prop) : Discipline (Host n) where
  inv host := Built data host.control
  step := Sending allowed
  kept before after step built := by
    cases step with
    | wait => exact built_advance data built
    | send free => exact built_advance data built
    | expect => exact ⟨built.motors, built.canId, built.limits⟩

variable {data : Fin n → DmActData} {allowed : TxFrame → Prop}

theorem sent_path {before after : Host n} (path : (sending data allowed).Path before after) :
    ∃ added, after.usb.sent = before.usb.sent ++ added ∧ ∀ frame ∈ added, allowed frame := by
  induction path with
  | refl => exact ⟨[], (List.append_nil _).symm, List.forall_mem_nil _⟩
  | @tail middle last _ step ih =>
    obtain ⟨added, grown, each⟩ := ih
    cases step with
    | wait => exact ⟨added, (advance_usb middle).1.trans grown, each⟩
    | @send frame free =>
      refine ⟨added ++ [frame], ?_, ?_⟩
      · change middle.advance.usb.sent ++ [frame] = _
        rw [(advance_usb middle).1, grown, List.append_assoc]
      · intro other member
        rcases List.mem_append.mp member with old | new
        · exact each other old
        · exact List.mem_singleton.mp new ▸ free
    | expect => exact ⟨added, grown, each⟩

theorem fdcanFrameSend_sends {frame : TxFrame} (free : allowed frame) :
    Follows (sending data allowed) (fdcanFrameSend frame) := by
  intro host _
  rw [exec_fdcanFrameSend]
  cases host.throwsNext with
  | false => exact .single (.send host free)
  | true => exact .single (.wait host)

theorem usleep_sends : Follows (sending data allowed) usleep := fun host _ => .single (.wait host)

theorem expectReply_sends : Follows (sending data allowed) (modify Host.expectReply : Sdk n Unit) :=
  .modify fun host _ => .single (.expect host)

theorem fiveTimes_sends {body : Sdk n Unit} (each : Follows (sending data allowed) body) :
    Follows (sending data allowed) (fiveTimes body) :=
  .forM _ fun _ _ => each

theorem command_sends (motor : Fin n) (cmd : Byte) (free : ∀ id, allowed ⟨.control, id, commandBytes cmd⟩) :
    Follows (sending data allowed) (commandId motor >>= fun command => controlCmd command cmd) := by
  apply Follows.after_read (exec_commandId motor)
  intro command
  exact fdcanFrameSend_sends (free command)

theorem register_sends (motor : Fin n) (payload : List Byte)
    (free : allowed (registerFrame (data motor).canId payload)) : Follows (sending data allowed) (do
      modify Host.expectReply
      let id ← motorCanId motor
      fdcanFrameSend (registerFrame id payload)) := by
  apply expectReply_sends.bind
  intro _
  apply Follows.read_bind (exec_motorCanId motor)
  intro host id built same
  cases same
  apply fdcanFrameSend_sends _ host built
  rw [built.canId]
  exact free

theorem enableAll_sends (platform : Platform)
    (reads : ∀ id rid, allowed (registerFrame id [0x33, rid, 0, 0, 0, 0]))
    (writes : ∀ id code, allowed (registerFrame id [0x55, 10, code, 0, 0, 0]))
    (enables : ∀ id, allowed ⟨.control, id, commandBytes 0xFC⟩) :
    Follows (sending data allowed) (enableAll platform) := by
  apply Follows.after_read (exec_registered platform)
  intro motors
  refine Follows.bind (.forM _ fun motor _ => ?_) (fun _ => ?_)
  · apply Follows.after_read (exec_motorMode motor)
    intro mode
    have switched : Follows (sending data allowed) (switchControlMode motor (toControlModeCode mode)) := by
      apply (register_sends motor _ (writes _ _)).bind
      intro _
      apply Follows.get_bind
      intro host _
      cases host.control.motors.find? (host.control.objects motor).canId with
      | none => exact .refl
      | some _ => exact .refl
    exact switched.bind fun _ => usleep_sends
  apply Follows.bind
  · apply Follows.forM
    intro motor _
    apply fiveTimes_sends
    have asked : Follows (sending data allowed) (readMotorParam motor 10) := by
      apply expectReply_sends.bind
      intro _
      apply Follows.after_read (exec_motorCanId motor)
      intro id
      exact (fdcanFrameSend_sends (reads id 10)).bind fun _ => usleep_sends
    exact asked.bind fun _ => usleep_sends
  intro _
  apply Follows.forM
  intro motor _
  apply fiveTimes_sends
  exact (command_sends motor 0xFC enables).bind fun _ => usleep_sends

theorem saveMotorParam_sends (motor : Fin n) (quiet : ∀ frame, ¬Lasting frame → allowed frame)
    (free : allowed (saveFrame (data motor).canId)) : Follows (sending data allowed) (saveMotorParam motor) := by
  apply Follows.read_bind (exec_motorCanId motor)
  intro host id built same
  cases same
  have disabled : Follows (sending data allowed) (commandId motor >>= fun command => controlCmd command 0xFD) := by
    apply command_sends
    intro id
    apply quiet
    simp [Lasting, commandBytes]
  apply disabled.bind (fun _ => ?_) host built
  apply usleep_sends.bind
  intro _
  apply expectReply_sends.bind
  intro _
  rw [built.canId]
  exact (fdcanFrameSend_sends free).bind fun _ => usleep_sends

/-- The only lasting frames of set_zero go to the motor that it has found. -/
theorem zeroMotor_sends (platform : Platform) (motor : Fin n) (persist : Bool)
    (quiet : ∀ frame, ¬Lasting frame → allowed frame) {host : Host n} (built : Built data host.control)
    (zero : allowed (zeroFrame host.control motor)) (save : allowed (saveFrame (data motor).canId)) :
    (sending data allowed).Path host (exec (zeroMotor platform motor persist) host).2 := by
  have first : exec (setZeroPosition motor) host = exec (fdcanFrameSend (zeroFrame host.control motor)) host := rfl
  have rest : Follows (sending data allowed) (do
      usleep
      if persist then do
        saveMotorParam motor
        usleep
        enableAll platform
        usleep
      else pure ()) := by
    apply usleep_sends.bind
    intro _
    cases persist with
    | false => exact .pure _
    | true =>
      apply (saveMotorParam_sends motor quiet save).bind
      intro _
      apply usleep_sends.bind
      intro _
      have enabled : Follows (sending data allowed) (enableAll platform) := by
        apply enableAll_sends platform <;> intros <;> apply quiet <;> simp [Lasting, registerFrame, commandBytes]
      exact enabled.bind fun _ => usleep_sends
  have sent : (sending data allowed).Path host (exec (fdcanFrameSend (zeroFrame host.control motor)) host).2 :=
    fdcanFrameSend_sends zero host built
  apply Discipline.path_bind (first ▸ sent)
  intro value middle outcome
  rw [first] at outcome
  have middleBuilt := (sending data allowed).inv_path sent built
  rw [outcome] at middleBuilt
  exact rest middle middleBuilt

theorem zeroMotor_succeeds (platform : Platform) (motor : Fin n) (persist : Bool) :
    Succeeds (Steady data) (zeroMotor platform motor persist) := by
  apply (command_succeeds motor 0xFE).bind
  intro _
  apply usleep_succeeds.bind
  intro _
  cases persist with
  | false => exact .pure _
  | true =>
    have saved : Succeeds (Steady data) (saveMotorParam motor) :=
      (motorCanId_succeeds motor).bind fun _ => (command_succeeds motor 0xFD).bind fun _ =>
        usleep_succeeds.bind fun _ => expectReply_succeeds.bind fun _ =>
          (fdcanFrameSend_succeeds _).bind fun _ => usleep_succeeds
    exact saved.bind fun _ => usleep_succeeds.bind fun _ => (enableAll_succeeds platform).bind fun _ => usleep_succeeds

end Bus

variable {config : ArmConfig}

def unregistered : Fault := .runtimeError "motor CAN ID is not registered"

/-- set_zero on a connected arm, with what happens on the bus meanwhile. -/
def zeroed (platform : Platform) (id : Id) (persist : Bool) (host : Host config.motors.length) (script : List Slot) :
    Except Fault Unit × DmSerialBackend config :=
  exec (setZero platform id persist) ⟨some host.control, { host.usb with script }⟩

/-- set_zero and set_command take the same identifiers, those of the motors: set_zero succeeds
whenever no send throws, rejects any other identifier without sending a frame, and sets and
saves the zero of no motor with another CAN ID. -/
structure OneNotion (platform : Platform) (config : ArmConfig) (id : Id) : Prop where
  commanded : ∀ commands command,
    (∃ changed, setCommand (canIds config) commands id command = .ok changed) ↔ id ∈ canIds config
  rejected : ∀ host : Host config.motors.length, Reach (machine platform config) Anything ⟨some host.control, host.usb⟩ →
    ∀ script persist, (zeroed platform id persist host script).1 = .error unregistered ↔ id ∉ canIds config
  accepted : ∀ host : Host config.motors.length, Reach (machine platform config) Anything ⟨some host.control, host.usb⟩ →
    ∀ script persist, Reliable script → ((zeroed platform id persist host script).1 = .ok () ↔ id ∈ canIds config)
  silent : ∀ host : Host config.motors.length, Reach (machine platform config) Anything ⟨some host.control, host.usb⟩ →
    ∀ script persist, (zeroed platform id persist host script).1 = .error unregistered →
      (zeroed platform id persist host script).2.usb.sent = host.usb.sent
  lasting : ∀ host : Host config.motors.length, Reach (machine platform config) Anything ⟨some host.control, host.usb⟩ →
    ∀ script persist, ∃ added, (zeroed platform id persist host script).2.usb.sent = host.usb.sent ++ added ∧
      ∀ frame ∈ added, Lasting frame → ∃ motor, (initData config motor).canId = id ∧
        (frame = zeroFrame host.control motor ∨ frame = saveFrame id)

theorem mem_canIds_iff {id : Id} : id ∈ canIds config ↔ ∃ motor, (initData config motor).canId = id := by
  rw [canIds, List.mem_map]
  constructor
  · intro given
    obtain ⟨motor, member, same⟩ := given
    obtain ⟨index, rfl⟩ := List.mem_iff_get.mp member
    exact ⟨index, same⟩
  · intro given
    obtain ⟨motor, same⟩ := given
    exact ⟨config.motors.get motor, List.get_mem _ _, same⟩

theorem setCommand_ok_iff (commands : List MitCommand) (id : Id) (command : MitCommand) :
    (∃ changed, setCommand (canIds config) commands id command = .ok changed) ↔ id ∈ canIds config := by
  rw [setCommand]
  cases search : motorIndex (canIds config) id with
  | ok index =>
    obtain ⟨inside, here⟩ := motorIndex_ok search
    exact iff_of_true ⟨_, rfl⟩ (here ▸ List.getElem_mem inside)
  | error fault =>
    refine iff_of_false ?_ (motorIndex_error search)
    intro given
    obtain ⟨changed, same⟩ := given
    cases same

theorem zeroed_absent {platform : Platform} {id : Id} {host : Host config.motors.length}
    (absent : host.control.getMotor id = none) (persist : Bool) (script : List Slot) :
    zeroed platform id persist host script = (.error unregistered, ⟨some host.control, { host.usb with script }⟩) := by
  rw [zeroed, exec_setZero, absent]
  rfl

theorem zeroed_found {platform : Platform} {id : Id} {host : Host config.motors.length}
    {motor : Fin config.motors.length} (found : host.control.getMotor id = some motor) (persist : Bool)
    (script : List Slot) : zeroed platform id persist host script =
      exec (onControl (zeroMotor platform motor persist)) ⟨some host.control, { host.usb with script }⟩ := by
  rw [zeroed, exec_setZero, found]

theorem not_lost_unregistered : ¬Lost unregistered := by
  unfold Lost
  decide

/-- set_zero rejects the identifiers that lead to no motor. -/
theorem zeroed_rejects_iff {platform : Platform} {id : Id} {host : Host config.motors.length}
    (built : Built (initData config) host.control) (persist : Bool) (script : List Slot) :
    (zeroed platform id persist host script).1 = .error unregistered ↔ host.control.getMotor id = none := by
  cases lookup : host.control.getMotor id with
  | none =>
    rw [zeroed_absent lookup]
    exact iff_of_true rfl rfl
  | some motor =>
    rw [zeroed_found lookup]
    refine iff_of_false ?_ (Option.some_ne_none motor)
    intro thrown
    have registered : Registered (initData config) motor := ⟨id, built.motors ▸ lookup⟩
    apply not_lost_unregistered
    refine onControl_throws (zeroMotor_throws platform registered persist) _ ?_ _ thrown
    intro control same
    cases same
    exact built

/-- On a reliable bus set_zero succeeds for every other identifier. -/
theorem zeroed_succeeds {platform : Platform} {id : Id} {host : Host config.motors.length}
    (built : Built (initData config) host.control) {motor : Fin config.motors.length}
    (found : host.control.getMotor id = some motor) (persist : Bool) {script : List Slot} (reliable : Reliable script) :
    (zeroed platform id persist host script).1 = .ok () := by
  obtain ⟨value, after, returned, _⟩ := zeroMotor_succeeds platform motor persist
    ⟨host.control, { host.usb with script }⟩ ⟨built, reliable⟩
  rw [zeroed_found found, exec_onControl_some, returned]

/-- What set_zero does for good, it does to the motor that it has found. -/
theorem zeroed_lasting {platform : Platform} {id : Id} {host : Host config.motors.length}
    (built : Built (initData config) host.control) (persist : Bool) (script : List Slot) :
    ∃ added, (zeroed platform id persist host script).2.usb.sent = host.usb.sent ++ added ∧
      ∀ frame ∈ added, Lasting frame → ∃ motor, host.control.getMotor id = some motor ∧
        (frame = zeroFrame host.control motor ∨ frame = saveFrame (initData config motor).canId) := by
  cases lookup : host.control.getMotor id with
  | none =>
    rw [zeroed_absent lookup]
    exact ⟨[], (List.append_nil _).symm, List.forall_mem_nil _⟩
  | some motor =>
    let allowed (frame : TxFrame) : Prop :=
      Lasting frame → frame = zeroFrame host.control motor ∨ frame = saveFrame (initData config motor).canId
    have path : (sending (initData config) allowed).Path ⟨host.control, { host.usb with script }⟩ _ :=
      zeroMotor_sends platform motor persist (fun frame unlasting lasting => absurd lasting unlasting) built
        (fun _ => .inl rfl) (fun _ => .inr rfl)
    obtain ⟨added, grown, each⟩ := sent_path path
    rw [zeroed_found lookup, exec_onControl_some]
    exact ⟨added, grown, fun frame member lasting => ⟨motor, rfl, each frame member lasting⟩⟩

theorem getMotor_eq {control : MotorControl config.motors.length} (built : Built (initData config) control) (id : Id) :
    control.getMotor id = (MotorControl.registry (initData config)).find? id :=
  congrArg (fun motors : FirstMap Id (Fin config.motors.length) => motors.find? id) built.motors

/-- Where every motor found by an identifier has it as its CAN ID, there is one notion of it. -/
theorem oneNotion_of_own {platform : Platform} {id : Id}
    (own : ∀ motor, (MotorControl.registry (initData config)).find? id = some motor → (initData config motor).canId = id) :
    OneNotion platform config id := by
  have unknown : (MotorControl.registry (initData config)).find? id = none ↔ id ∉ canIds config := by
    constructor
    · intro absent member
      obtain ⟨motor, same⟩ := mem_canIds_iff.mp member
      exact (find?_registry_eq_none_iff _ _).mp absent motor (.inl same.symm)
    · intro absent
      by_contra found
      obtain ⟨motor, same⟩ := Option.ne_none_iff_exists'.mp found
      exact absent (mem_canIds_iff.mpr ⟨motor, own motor same⟩)
  have rejects (host : Host config.motors.length)
      (reached : Reach (machine platform config) Anything ⟨some host.control, host.usb⟩) (script : List Slot)
      (persist : Bool) : (zeroed platform id persist host script).1 = .error unregistered ↔ id ∉ canIds config := by
    have built : Built (initData config) host.control := reach_built reached _ rfl
    rw [zeroed_rejects_iff built, getMotor_eq built, unknown]
  refine ⟨fun commands command => setCommand_ok_iff commands id command, rejects, ?_, ?_, ?_⟩
  · intro host reached script persist reliable
    have built : Built (initData config) host.control := reach_built reached _ rfl
    constructor
    · intro returned
      by_contra absent
      rw [(rejects host reached script persist).mpr absent] at returned
      cases returned
    · intro member
      have found := mt unknown.mp (not_not.mpr member)
      obtain ⟨motor, lookup⟩ := Option.ne_none_iff_exists'.mp found
      exact zeroed_succeeds built ((getMotor_eq built id).trans lookup) persist reliable
  · intro host reached script persist thrown
    have built : Built (initData config) host.control := reach_built reached _ rfl
    rw [zeroed_absent ((zeroed_rejects_iff built persist script).mp thrown)]
  · intro host reached script persist
    have built : Built (initData config) host.control := reach_built reached _ rfl
    obtain ⟨added, grown, each⟩ := zeroed_lasting built persist script
    refine ⟨added, grown, fun frame member lasting => ?_⟩
    obtain ⟨motor, found, touches⟩ := each frame member lasting
    have same := own motor ((getMotor_eq built id).symm.trans found)
    exact ⟨motor, same, same ▸ touches⟩

/-- On a quiet bus the first thing that set_zero sends sets the zero of the motor that it has found. -/
theorem zeroed_sends {platform : Platform} {id : Id} {host : Host config.motors.length} {motor : Fin config.motors.length}
    (found : host.control.getMotor id = some motor) :
    (zeroed platform id false host []).2.usb.sent = host.usb.sent ++ [zeroFrame host.control motor] := by
  rw [zeroed_found found, exec_onControl_some]
  rfl

theorem own_of_oneNotion {platform : Platform} {id : Id} (one : OneNotion platform config id)
    {motor : Fin config.motors.length} (found : (MotorControl.registry (initData config)).find? id = some motor) :
    (initData config motor).canId = id := by
  obtain ⟨host, _, moved, silent⟩ := exists_quiet platform config
  have reached := reach_connect moved
  have built : Built (initData config) host.control := reach_built reached _ rfl
  have calm : Undisturbed (initData config) host.usb := undisturbed_of_silent _ silent
  have modes := (reach_allMit reached calm).modes
  have sent := @zeroed_sends config platform id host motor ((getMotor_eq built id).trans found)
  obtain ⟨added, grown, each⟩ := one.lasting host reached [] false
  rw [sent] at grown
  have frames := List.append_cancel_left grown
  subst frames
  obtain ⟨other, same, zero | save⟩ := each _ (List.mem_singleton_self _) (.inl ⟨rfl, rfl⟩)
  · have ids := congrArg TxFrame.id zero
    change _ + (host.control.objects motor).mode.offset = _ + (host.control.objects other).mode.offset at ids
    rw [modes, modes, add_offset_mit, add_offset_mit, built.canId, built.canId] at ids
    exact ids.trans same
  · cases congrArg TxFrame.kind save

/-- There is one notion of an identifier exactly where no motor has it as its master ID before
a motor has it as its CAN ID. -/
theorem one_notion_iff (platform : Platform) (config : ArmConfig) (id : Id) : OneNotion platform config id ↔
    ∀ motor, (initData config motor).mstId = id → ∃ holder ≤ motor, (initData config holder).canId = id := by
  constructor
  · intro one motor master
    have uses : Uses (initData config) motor id := .inr master.symm
    have found : (MotorControl.registry (initData config)).find? id ≠ none := fun absent =>
      (find?_registry_eq_none_iff _ _).mp absent motor uses
    obtain ⟨first, lookup⟩ := Option.ne_none_iff_exists'.mp found
    refine ⟨first, ?_, own_of_oneNotion one lookup⟩
    by_contra later
    exact ((find?_registry_eq_some_iff _ _ _).mp lookup).2 motor (not_le.mp later) uses
  · intro holders
    apply oneNotion_of_own
    intro motor lookup
    obtain ⟨uses, first⟩ := (find?_registry_eq_some_iff _ _ _).mp lookup
    rcases uses with can | master
    · exact can.symm
    · obtain ⟨holder, before, same⟩ := holders motor master.symm
      rcases before.lt_or_eq with earlier | rfl
      · exact absurd (.inl same.symm) (first holder earlier)
      · exact same

/-- The master ID of a joint is none of its CAN IDs, but set_zero takes it. -/
theorem master_id_is_zeroed : Accepted (joints [(1, 0x11)]) ∧ (0x11 : Id) ∉ canIds (joints [(1, 0x11)]) ∧
    ¬OneNotion Platform.wrapping (joints [(1, 0x11)]) 0x11 := by
  refine ⟨joint_accepted, by decide, ?_⟩
  intro one
  obtain ⟨host, _, moved, _⟩ := exists_quiet Platform.wrapping (joints [(1, 0x11)])
  have reached := reach_connect moved
  have built : Built (initData (joints [(1, 0x11)])) host.control := reach_built reached _ rfl
  have lookup : (MotorControl.registry (initData (joints [(1, 0x11)]))).find? 0x11 = some ⟨0, by decide⟩ := by decide
  have reliable : Reliable [] := List.forall_mem_nil _
  have zeroes : (zeroed Platform.wrapping 0x11 true host []).1 = .ok () :=
    zeroed_succeeds built ((getMotor_eq built 0x11).trans lookup) true reliable
  have member := (one.accepted host reached [] true reliable).mp zeroes
  revert member
  decide

end DmOpenarm.ZeroIds
