import DmOpenarm.Addressing
import DmOpenarm.ZeroIds

/-! The frames of a zeroing. One command sets the zero of a motor. To save it, the motor is
disabled, its parameters are written to flash, and every motor is enabled again. -/

namespace DmOpenarm.Zeroing
open Types hiding ControlMode
open Damiao MotorBus Backend Traffic Operations Faults ReliableBus Shutdown Addressing ZeroIds YamlLoader
open Library.Effect Library.Runs

section Bus
variable {n : Nat} {data : Fin n → DmActData}

def SameModes (before after : MotorControl n) : Prop :=
  ∀ motor, (after.objects motor).mode = (before.objects motor).mode

/-- No reply between two points of a run puts a motor into another mode than it had at the start. -/
def ModesKept (data : Fin n → DmActData) (start : MotorControl n) (before after : Usb) : Prop :=
  ∃ since, after.received = before.received ++ since ∧
    ∀ reception ∈ since, ¬Changes data (fun motor => (start.objects motor).mode) reception

theorem ModesKept.split {start : MotorControl n} {before middle after : Usb} (kept : ModesKept data start before after)
    (first : before.received <+: middle.received) (second : middle.received <+: after.received) :
    ModesKept data start before middle ∧ ModesKept data start middle after := by
  obtain ⟨since, grown, calm⟩ := kept
  obtain ⟨early, reached⟩ := first
  obtain ⟨late, finished⟩ := second
  rw [← reached, List.append_assoc, grown] at finished
  have same : early ++ late = since := List.append_cancel_left finished
  subst same
  refine ⟨⟨early, reached.symm, ?_⟩, ⟨late, ?_, ?_⟩⟩
  · exact fun reception member => calm reception (List.mem_append_left _ member)
  · rw [grown, ← reached, List.append_assoc]
  · exact fun reception member => calm reception (List.mem_append_right _ member)

/-- While they are kept, the modes at any later point are those of the start. -/
theorem modes_path {start : MotorControl n} {before after : Host n} (built : Built data before.control)
    (path : (bus data).Path before after) (same : SameModes start before.control)
    (kept : ModesKept data start before.usb after.usb) : SameModes start after.control := by
  let holds (now : Host n) : Prop := ∃ since, now.usb.received = before.usb.received ++ since ∧
    ((∀ reception ∈ since, ¬Changes data (fun motor => (start.objects motor).mode) reception) →
      SameModes start now.control)
  have waits (now : Host n) (nowBuilt : Built data now.control) (reached : holds now) : holds now.advance := by
    refine (advance_keeps (fun now => Built data now.control ∧ holds now) ?_ (fun _ _ both => both)
      ⟨nowBuilt, reached⟩).2
    intro now arrival both
    obtain ⟨nowBuilt, since, grown, modes⟩ := both
    refine ⟨nowBuilt.receive arrival,
      since ++ [⟨arrival.frame, arrival.reply, now.control.readWriteSave⟩], ?_, ?_⟩
    · change now.usb.received ++ _ = _
      rw [grown, List.append_assoc]
    · intro calm
      apply receive_modes nowBuilt arrival (modes fun reception member => calm reception (List.mem_append_left _ member))
      exact calm _ (List.mem_append_right _ (List.mem_singleton_self _))
  have step : ∀ now later : Host n, Built data now.control → Primitive data now later → holds now → holds later := by
    intro now later nowBuilt step reached
    cases step with
    | wait => exact waits now nowBuilt reached
    | send frame addressed => exact waits now nowBuilt reached
    | expect => exact reached
  obtain ⟨since, grown, modes⟩ := ((bus data).keeps holds step path built
    ⟨[], (List.append_nil _).symm, fun _ => same⟩).2
  obtain ⟨others, received, calm⟩ := kept
  have equal : since = others := List.append_cancel_left (grown.symm.trans received)
  exact modes (equal ▸ calm)

/-- The identifier that a motor listens to. -/
def listens (control : MotorControl n) (motor : Fin n) : Id :=
  (control.objects motor).canId + (control.objects motor).mode.offset

theorem listens_eq {start now : MotorControl n} (startBuilt : Built data start) (built : Built data now)
    (same : SameModes start now) (motor : Fin n) : listens now motor = listens start motor := by
  rw [listens, listens, built.canId, startBuilt.canId, same]

def enableFrame (id : Id) : TxFrame := ⟨.control, id, commandBytes 0xFC⟩

def SetsZero (frame : TxFrame) : Prop := frame.kind = .control ∧ frame.data[7]? = some 0xFE

instance (frame : TxFrame) : Decidable (SetsZero frame) := inferInstanceAs (Decidable (_ ∧ _))

/-- A frame that writes the parameters of a motor to flash. -/
def Saves (frame : TxFrame) : Prop := frame.kind = .register ∧ frame.data[2]? = some 0xAA

instance (frame : TxFrame) : Decidable (Saves frame) := inferInstanceAs (Decidable (_ ∧ _))

/-- A frame that sets no zero, saves nothing and disables no motor. -/
structure Harmless (frame : TxFrame) : Prop where
  zero : ¬SetsZero frame
  save : ¬Saves frame
  disable : ∀ id, frame ≠ disableFrame id

/-- An enable loop that returns has sent harmless frames, among them an enable command to every
registered motor. -/
theorem enableAll_returned (platform : Platform) {start : MotorControl n} {host last : Host n}
    (startBuilt : Built data start) (built : Built data host.control) (same : SameModes start host.control)
    (kept : ModesKept data start host.usb last.usb) (returned : exec (enableAll platform) host = (.ok (), last)) :
    ∃ enables, last.usb.sent = host.usb.sent ++ enables ∧ (∀ frame ∈ enables, Harmless frame) ∧
      ∀ motor, Registered data motor → enableFrame (listens start motor) ∈ enables := by
  have follows : Follows (sending data Harmless) (enableAll platform) := by
    apply enableAll_sends
    · intro id rid
      constructor <;> simp [SetsZero, Saves, disableFrame, registerFrame]
    · intro id code
      constructor <;> simp [SetsZero, Saves, disableFrame, registerFrame]
    · intro id
      constructor <;> simp [SetsZero, Saves, disableFrame, commandBytes]
  have path := follows host built
  rw [returned] at path
  obtain ⟨enables, grown, harmless⟩ := sent_path path
  refine ⟨enables, grown, harmless, ?_⟩
  intro motor registered
  obtain ⟨middle, before, later⟩ := enableAll_visits platform built returned registered
  have logs := path_logs before
  have rest := path_logs later
  have begun := (kept.split logs.2 ((advance_received middle).trans rest.2)).1
  have modes := modes_path built before same begun
  have middleBuilt := (bus data).inv_path before built
  have sent := rest.1
  change middle.advance.usb.sent ++ [_] <+: last.usb.sent at sent
  rw [(advance_usb middle).1] at sent
  have member := mem_drop_of_grown logs.1 sent
  rw [grown, List.drop_left] at member
  have address : (data motor).canId + (middle.control.objects motor).mode.offset = listens start motor := by
    rw [← middleBuilt.canId]
    exact listens_eq startBuilt middleBuilt modes motor
  rw [address] at member
  exact member

/-- Saving that returns has disabled the motor where it listens and then written to flash. -/
theorem saveMotorParam_returned {motor : Fin n} {host last : Host n} (built : Built data host.control)
    (returned : exec (saveMotorParam motor) host = (.ok (), last)) :
    last.usb.sent = host.usb.sent ++ [disableFrame (listens host.control motor), saveFrame (data motor).canId] := by
  rw [saveMotorParam, exec_bind_ok (exec_motorCanId motor host), exec_bind_ok (exec_commandId motor host)] at returned
  obtain ⟨_, disabled, command, rest⟩ := exec_bind_eq_ok returned
  rw [built.canId] at rest
  obtain ⟨_, asleep, slept, expecting⟩ := exec_bind_eq_ok rest
  cases slept
  rw [exec_modify_bind] at expecting
  obtain ⟨_, saved, written, finished⟩ := exec_bind_eq_ok expecting
  cases finished
  rw [fdcanFrameSend_returned written, (advance_usb _).1]
  change disabled.advance.expectReply.advance.usb.sent ++ [_] = _
  rw [(advance_usb _).1]
  change disabled.advance.usb.sent ++ [_] = _
  rw [(advance_usb _).1, fdcanFrameSend_returned command]
  change (host.advance.usb.sent ++ [_]) ++ [_] = _
  rw [(advance_usb _).1, List.append_assoc]
  rfl

/-- The frames of one zeroing, with the modes that the motors have at the start. -/
inductive Group (data : Fin n → DmActData) (start : MotorControl n) (motor : Fin n) : Bool → List TxFrame → Prop where
  | brief : Group data start motor false [zeroFrame start motor]
  | saved {enables : List TxFrame} (harmless : ∀ frame ∈ enables, Harmless frame)
      (all : ∀ other, Registered data other → enableFrame (listens start other) ∈ enables) :
      Group data start motor true (zeroFrame start motor :: disableFrame (listens start motor) ::
        saveFrame (start.objects motor).canId :: enables)

/-- What a persistent zeroing does once the zero is set. -/
def persistZero (platform : Platform) (motor : Fin n) : Sdk n Unit := do
  saveMotorParam motor
  usleep
  enableAll platform
  usleep

theorem persistZero_follows (platform : Platform) {motor : Fin n} (registered : Registered data motor) :
    Follows (bus data) (persistZero platform motor) := by
  apply (saveMotorParam_follows registered).bind
  intro _
  apply usleep_follows.bind
  intro _
  exact (enableAll_follows platform).bind fun _ => usleep_follows

theorem persistZero_returned (platform : Platform) {motor : Fin n} (registered : Registered data motor)
    {start : MotorControl n} {host last : Host n} (startBuilt : Built data start) (built : Built data host.control)
    (same : SameModes start host.control) (kept : ModesKept data start host.usb last.usb)
    (returned : exec (persistZero platform motor) host = (.ok (), last)) :
    ∃ enables, last.usb.sent = host.usb.sent ++ disableFrame (listens start motor) ::
        saveFrame (start.objects motor).canId :: enables ∧
      (∀ frame ∈ enables, Harmless frame) ∧
      ∀ other, Registered data other → enableFrame (listens start other) ∈ enables := by
  have saves : (bus data).Path host _ := saveMotorParam_follows registered host built
  obtain ⟨_, saved, written, restoring⟩ := exec_bind_eq_ok returned
  rw [written] at saves
  obtain ⟨_, rested, pause, enabling⟩ := exec_bind_eq_ok restoring
  cases pause
  have toRested : (bus data).Path host saved.advance := saves.tail (.wait saved)
  have restedBuilt := (bus data).inv_path toRested built
  have enables : (bus data).Path saved.advance _ := enableAll_follows platform _ restedBuilt
  obtain ⟨_, enabled, loop, finished⟩ := exec_bind_eq_ok enabling
  cases finished
  rw [loop] at enables
  have ends := advance_received enabled
  obtain ⟨before, since⟩ := kept.split (path_logs toRested).2 ((path_logs enables).2.trans ends)
  have during := (since.split (path_logs enables).2 ends).1
  have restedModes := modes_path built toRested same before
  obtain ⟨frames, grown, harmless, all⟩ := enableAll_returned platform startBuilt restedBuilt restedModes during loop
  refine ⟨frames, ?_, harmless, all⟩
  rw [(advance_usb _).1, grown, (advance_usb _).1, saveMotorParam_returned built written,
    listens_eq startBuilt built same, startBuilt.canId]
  simp only [List.append_assoc, List.cons_append, List.nil_append]

theorem zeroMotor_follows (platform : Platform) {motor : Fin n} (registered : Registered data motor) (persist : Bool) :
    Follows (bus data) (zeroMotor platform motor persist) := by
  apply (setZeroPosition_follows registered).bind
  intro _
  apply usleep_follows.bind
  intro _
  cases persist with
  | false => exact .pure _
  | true => exact persistZero_follows platform registered

/-- A zeroing that returns has sent one group. -/
theorem zeroMotor_returned (platform : Platform) {motor : Fin n} (registered : Registered data motor) {persist : Bool}
    {start : MotorControl n} {host last : Host n} (startBuilt : Built data start) (built : Built data host.control)
    (same : SameModes start host.control) (kept : ModesKept data start host.usb last.usb)
    (returned : exec (zeroMotor platform motor persist) host = (.ok (), last)) :
    ∃ added, last.usb.sent = host.usb.sent ++ added ∧ Group data start motor persist added := by
  have zero : zeroFrame host.control motor = zeroFrame start motor :=
    congrArg (fun id => TxFrame.mk .control id (commandBytes 0xFE)) (listens_eq startBuilt built same motor)
  have zeroes : (bus data).Path host _ := setZeroPosition_follows registered host built
  obtain ⟨_, zeroed, command, rest⟩ := exec_bind_eq_ok returned
  rw [command] at zeroes
  have sentZero : zeroed.advance.usb.sent = host.usb.sent ++ [zeroFrame start motor] := by
    rw [(advance_usb _).1, fdcanFrameSend_returned command, ← zero]
    change host.advance.usb.sent ++ [_] = _
    rw [(advance_usb _).1]
    rfl
  obtain ⟨_, awake, slept, later⟩ := exec_bind_eq_ok rest
  cases slept
  have path : (bus data).Path host zeroed.advance := zeroes.tail (.wait zeroed)
  have awakeBuilt := (bus data).inv_path path built
  cases persist with
  | false =>
    cases later
    exact ⟨_, sentZero, .brief⟩
  | true =>
    have restores : (bus data).Path zeroed.advance _ := persistZero_follows platform registered _ awakeBuilt
    have persisted : exec (persistZero platform motor) zeroed.advance = (.ok (), last) := later
    rw [persisted] at restores
    obtain ⟨before, since⟩ := kept.split (path_logs path).2 (path_logs restores).2
    have modes := modes_path built path same before
    obtain ⟨enables, grown, harmless, all⟩ :=
      persistZero_returned platform registered startBuilt awakeBuilt modes since persisted
    refine ⟨_, ?_, .saved harmless all⟩
    rw [grown, sentZero, List.append_assoc, List.singleton_append]

/-- One set-zero frame, to the motor. With persist one save frame, of the motor, after the set-zero
frame and a disable of the motor; without it none. -/
structure ZeroesOnce (start : MotorControl n) (motor : Fin n) (persist : Bool) (added : List TxFrame) : Prop where
  zero : added.filter (fun frame => SetsZero frame) = [zeroFrame start motor]
  save : added.filter (fun frame => Saves frame) = if persist then [saveFrame (start.objects motor).canId] else []
  order : persist = true → [zeroFrame start motor, disableFrame (listens start motor),
    saveFrame (start.objects motor).canId].Sublist added

theorem Group.zeroesOnce {start : MotorControl n} {motor : Fin n} {persist : Bool} {added : List TxFrame}
    (group : Group data start motor persist added) : ZeroesOnce start motor persist added := by
  have zero : SetsZero (zeroFrame start motor) ∧ ¬Saves (zeroFrame start motor) := by
    simp [SetsZero, Saves, zeroFrame, commandBytes]
  have disable : ¬SetsZero (disableFrame (listens start motor)) ∧ ¬Saves (disableFrame (listens start motor)) := by
    simp [SetsZero, Saves, disableFrame, commandBytes]
  have save : ¬SetsZero (saveFrame (start.objects motor).canId) ∧ Saves (saveFrame (start.objects motor).canId) := by
    simp [SetsZero, Saves, saveFrame, registerFrame]
  cases group with
  | brief => exact ⟨by simp [zero.1], by simp [zero.2], fun impossible => by cases impossible⟩
  | @saved enables harmless all =>
    have noZero : enables.filter (fun frame => SetsZero frame) = [] :=
      List.filter_eq_nil_iff.mpr fun frame member => by simpa using (harmless frame member).zero
    have noSave : enables.filter (fun frame => Saves frame) = [] :=
      List.filter_eq_nil_iff.mpr fun frame member => by simpa using (harmless frame member).save
    refine ⟨?_, ?_, fun _ => ?_⟩
    · simp [zero.1, disable.1, save.1, noZero]
    · simp [zero.2, disable.2, save.2, noSave]
    · exact .cons_cons _ (.cons_cons _ (.cons_cons _ (List.nil_sublist _)))

/-- The last enable or disable command to an identifier was to enable. -/
def EnabledLast (sent : List TxFrame) (id : Id) : Prop :=
  ∃ earlier later, sent = earlier ++ enableFrame id :: later ∧ disableFrame id ∉ later

theorem EnabledLast.append {sent added : List TxFrame} {id : Id} (enabled : EnabledLast sent id)
    (kept : disableFrame id ∉ added) : EnabledLast (sent ++ added) id := by
  obtain ⟨earlier, later, rfl, absent⟩ := enabled
  refine ⟨earlier, later ++ added, by simp, ?_⟩
  intro member
  rcases List.mem_append.mp member with before | after
  · exact absent before
  · exact kept after

theorem enabledLast_of_mem {sent added : List TxFrame} {id : Id} (enabled : enableFrame id ∈ added)
    (kept : disableFrame id ∉ added) : EnabledLast (sent ++ added) id := by
  obtain ⟨earlier, later, rfl⟩ := List.append_of_mem enabled
  exact ⟨sent ++ earlier, later, by simp, fun member => kept (by simp [member])⟩

/-- A group leaves every registered motor enabled. -/
theorem Group.enabledLast {start : MotorControl n} {motor : Fin n} {persist : Bool} {sent added : List TxFrame}
    (group : Group data start motor persist added) {other : Fin n} (registered : Registered data other)
    (enabled : EnabledLast sent (listens start other)) : EnabledLast (sent ++ added) (listens start other) := by
  cases group with
  | brief =>
    apply enabled.append
    simp [zeroFrame, disableFrame, commandBytes]
  | @saved enables harmless all =>
    have last := @enabledLast_of_mem (sent ++ [zeroFrame start motor, disableFrame (listens start motor),
      saveFrame (start.objects motor).canId]) enables _ (all other registered)
      fun member => (harmless _ member).disable _ rfl
    rw [List.append_assoc] at last
    exact last

end Bus

variable {config : ArmConfig}

def AllEnabled (start : MotorControl config.motors.length) (sent : List TxFrame) : Prop :=
  ∀ motor, Registered (initData config) motor → EnabledLast sent (listens start motor)

/-- A set_zero that returns has found a motor and zeroed it. -/
theorem setZero_returned {platform : Platform} {id : Id} {persist : Bool} {host : Host config.motors.length}
    {after : DmSerialBackend config}
    (returned : exec (setZero platform id persist) ⟨some host.control, host.usb⟩ = (.ok (), after)) :
    ∃ motor last, host.control.getMotor id = some motor ∧
      exec (zeroMotor platform motor persist) host = (.ok (), last) ∧ after = ⟨some last.control, last.usb⟩ := by
  rw [exec_setZero] at returned
  cases lookup : host.control.getMotor id with
  | none =>
    rw [lookup] at returned
    cases returned
  | some motor =>
    rw [lookup] at returned
    dsimp only at returned
    rw [exec_onControl_some] at returned
    rcases outcome : exec (zeroMotor platform motor persist) host with ⟨fault | _, last⟩
    · rw [outcome] at returned
      cases returned
    · rw [outcome] at returned
      cases returned
      exact ⟨motor, last, rfl, outcome, rfl⟩

/-- What a loop of zeroings has sent when it returns: a group for each identifier, in order. -/
theorem setZeros_returned (platform : Platform) {persist : Bool} {start : MotorControl config.motors.length}
    (startBuilt : Built (initData config) start) (motors : List MotorConfig) {host : Host config.motors.length}
    (built : Built (initData config) host.control) {after : DmSerialBackend config}
    (returned : exec (motors.forM fun motor => setZero platform motor.canId persist) ⟨some host.control, host.usb⟩ =
      (.ok (), after)) :
    ∃ last, after = ⟨some last.control, last.usb⟩ ∧ (bus (initData config)).Path host last ∧
      (SameModes start host.control → ModesKept (initData config) start host.usb last.usb →
        ∃ groups, last.usb.sent = host.usb.sent ++ groups.flatten ∧
          List.Forall₂ (fun motorConfig added => ∃ motor, start.getMotor motorConfig.canId = some motor ∧
            Group (initData config) start motor persist added) motors groups) := by
  induction motors generalizing host with
  | nil =>
    cases returned
    exact ⟨host, rfl, .refl, fun _ _ => ⟨[], by simp, .nil⟩⟩
  | cons motorConfig rest ih =>
    obtain ⟨_, middle, first, others⟩ := exec_bind_eq_ok returned
    obtain ⟨motor, zeroed, lookup, ran, rfl⟩ := setZero_returned first
    have registered : Registered (initData config) motor := ⟨_, (getMotor_eq built _).symm.trans lookup⟩
    have path : (bus (initData config)).Path host _ := zeroMotor_follows platform registered persist host built
    rw [ran] at path
    have zeroedBuilt := (bus (initData config)).inv_path path built
    obtain ⟨last, same, later, groups⟩ := ih zeroedBuilt others
    refine ⟨last, same, path.trans later, ?_⟩
    intro modes kept
    obtain ⟨before, since⟩ := kept.split (path_logs path).2 (path_logs later).2
    obtain ⟨added, grown, group⟩ := zeroMotor_returned platform registered startBuilt built modes before ran
    obtain ⟨more, all, each⟩ := groups (modes_path built path modes before) since
    have found : start.getMotor motorConfig.canId = some motor :=
      (getMotor_eq startBuilt _).trans ((getMotor_eq built _).symm.trans lookup)
    refine ⟨added :: more, ?_, .cons ⟨motor, found, group⟩ each⟩
    rw [all, grown, List.flatten_cons, List.append_assoc]

theorem groups_enabled {start : MotorControl config.motors.length} {persist : Bool} {motors : List MotorConfig}
    {groups : List (List TxFrame)} (each : List.Forall₂ (fun motorConfig added => ∃ motor,
      start.getMotor motorConfig.canId = some motor ∧ Group (initData config) start motor persist added) motors groups)
    {sent : List TxFrame} (enabled : AllEnabled start sent) : AllEnabled start (sent ++ groups.flatten) := by
  induction each generalizing sent with
  | nil =>
    rw [List.flatten_nil, List.append_nil]
    exact enabled
  | cons first _ ih =>
    obtain ⟨motor, _, group⟩ := first
    rw [List.flatten_cons, ← List.append_assoc]
    exact ih fun other registered => group.enabledLast registered (enabled other registered)

/-- On a reliable bus every configured motor is zeroed. -/
theorem setZeroAll_succeeds (platform : Platform) (persist : Bool) {host : Host config.motors.length}
    (steady : Steady (initData config) host) :
    (exec (setZeroAll platform persist) ⟨some host.control, host.usb⟩).1 = .ok () := by
  let good (backend : DmSerialBackend config) : Prop :=
    ∃ host : Host config.motors.length, backend = ⟨some host.control, host.usb⟩ ∧ Steady (initData config) host
  have all : Succeeds good (setZeroAll platform persist) := by
    apply Succeeds.forM
    intro motorConfig member backend given
    obtain ⟨host, rfl, steady⟩ := given
    obtain ⟨index, rfl⟩ := List.mem_iff_get.mp member
    obtain ⟨motor, found⟩ := Registry.exists_find?_canId (initData config) index
    have lookup : host.control.getMotor (config.motors.get index).canId = some motor :=
      (getMotor_eq steady.1 _).trans found
    obtain ⟨_, last, returned, after⟩ := zeroMotor_succeeds platform motor persist host steady
    refine ⟨(), ⟨some last.control, last.usb⟩, ?_, last, rfl, after⟩
    rw [exec_setZero, lookup]
    dsimp only
    rw [exec_onControl_some, returned]
  obtain ⟨_, after, returned, _⟩ := all _ ⟨host, rfl, steady⟩
  rw [returned]

/-- Connecting enables every registered motor, unless a reply switches its mode meanwhile. -/
theorem connect_enables (platform : Platform) {usb : Usb} {host : Host config.motors.length}
    (kept : ModesKept (initData config) (MotorControl.new (initData config) usb.clock) usb host.usb)
    (returned : exec (usleep >>= fun _ => enableAll platform) ⟨MotorControl.new (initData config) usb.clock, usb⟩ =
      (.ok (), host)) : AllEnabled host.control host.usb.sent := by
  obtain ⟨_, woken, slept, rest⟩ := exec_bind_eq_ok returned
  have waits : (bus (initData config)).Path ⟨MotorControl.new (initData config) usb.clock, usb⟩ _ :=
    usleep_follows _ (.new _)
  rw [slept] at waits
  have wokenBuilt := (bus (initData config)).inv_path waits (.new _)
  have enables : (bus (initData config)).Path woken _ := enableAll_follows platform woken wokenBuilt
  rw [rest] at enables
  obtain ⟨before, since⟩ := kept.split (path_logs waits).2 (path_logs enables).2
  have wokenModes := modes_path (.new _) waits (fun _ => rfl) before
  have modes := modes_path wokenBuilt enables wokenModes since
  obtain ⟨frames, grown, harmless, all⟩ := enableAll_returned platform (.new _) wokenBuilt wokenModes since rest
  intro motor registered
  rw [listens_eq (.new _) ((bus (initData config)).inv_path enables wokenBuilt) modes, grown]
  exact enabledLast_of_mem (all motor registered) fun member => (harmless _ member).disable _ rfl

/-- A zeroing touches the one motor that its identifier leads to and leaves every registered motor
enabled, whatever the order of the registry. It returns whenever no send throws. -/
theorem zeroing_touches_one (platform : Platform) {host : Host config.motors.length}
    (reached : Reach (machine platform config) Anything ⟨some host.control, host.usb⟩)
    (enabled : AllEnabled host.control host.usb.sent) (persist : Bool) (script : List Slot) :
    (∀ id motor, host.control.getMotor id = some motor →
      (Reliable script → (zeroed platform id persist host script).1 = .ok ()) ∧
      ∀ after, zeroed platform id persist host script = (.ok (), after) →
        ModesKept (initData config) host.control host.usb after.usb →
        ∃ added, after.usb.sent = host.usb.sent ++ added ∧ ZeroesOnce host.control motor persist added ∧
          AllEnabled host.control after.usb.sent) ∧
    (Reliable script → (exec (setZeroAll platform persist) ⟨some host.control, { host.usb with script }⟩).1 = .ok ()) ∧
    ∀ after, exec (setZeroAll platform persist) ⟨some host.control, { host.usb with script }⟩ = (.ok (), after) →
      ModesKept (initData config) host.control host.usb after.usb →
      ∃ groups, after.usb.sent = host.usb.sent ++ groups.flatten ∧
        List.Forall₂ (fun motorConfig added => ∃ motor, host.control.getMotor motorConfig.canId = some motor ∧
          ZeroesOnce host.control motor persist added) config.motors groups ∧
        AllEnabled host.control after.usb.sent := by
  have built : Built (initData config) host.control := reach_built reached _ rfl
  have ready : Built (initData config) (host.withScript script).control := built
  have modes : SameModes host.control host.control := fun _ => rfl
  refine ⟨?_, fun reliable => setZeroAll_succeeds platform persist ⟨ready, reliable⟩, ?_⟩
  · intro id motor lookup
    refine ⟨zeroed_succeeds built lookup persist, ?_⟩
    intro after returned kept
    have sameCall : exec (setZero platform id persist) ⟨some (host.withScript script).control,
        (host.withScript script).usb⟩ = (.ok (), after) := returned
    obtain ⟨other, last, found, ran, rfl⟩ := setZero_returned sameCall
    have equal : other = motor := Option.some.inj (found.symm.trans lookup)
    subst equal
    have registered : Registered (initData config) other := ⟨id, (getMotor_eq built id).symm.trans lookup⟩
    obtain ⟨added, grown, group⟩ := zeroMotor_returned platform registered built ready modes kept ran
    refine ⟨added, grown, group.zeroesOnce, ?_⟩
    intro motor known
    rw [grown]
    exact group.enabledLast known (enabled motor known)
  · intro after returned kept
    obtain ⟨last, rfl, _, groups⟩ := setZeros_returned platform built config.motors ready returned
    obtain ⟨groups, grown, each⟩ := groups modes kept
    refine ⟨groups, grown, ?_, ?_⟩
    · apply each.imp
      intro motorConfig added given
      obtain ⟨motor, lookup, group⟩ := given
      exact ⟨motor, lookup, group.zeroesOnce⟩
    · rw [grown]
      exact groups_enabled each enabled

/-- Some run of the backend leaves every registered motor enabled. -/
theorem exists_enabled (platform : Platform) (config : ArmConfig) : ∃ host : Host config.motors.length,
    Reach (machine platform config) Anything ⟨some host.control, host.usb⟩ ∧
      AllEnabled host.control host.usb.sent ∧ host.usb.received = [] := by
  obtain ⟨host, enabled, moved, silent⟩ := exists_quiet platform config
  have kept : ModesKept (initData config) (MotorControl.new (initData config) ({} : Usb).clock) {} host.usb :=
    ⟨[], silent, List.forall_mem_nil _⟩
  exact ⟨host, reach_connect moved, connect_enables platform kept enabled, silent⟩

/-- Without arrivals, a zeroing that returns has kept the modes. -/
theorem zeroed_silent {platform : Platform} {id : Id} {persist : Bool} {host : Host config.motors.length}
    (built : Built (initData config) host.control) (silent : host.usb.received = []) {after : DmSerialBackend config}
    (returned : zeroed platform id persist host [] = (.ok (), after)) :
    ModesKept (initData config) host.control host.usb after.usb := by
  have sameCall : exec (setZero platform id persist) ⟨some (host.withScript []).control,
      (host.withScript []).usb⟩ = (.ok (), after) := returned
  obtain ⟨motor, last, found, ran, rfl⟩ := setZero_returned sameCall
  have registered : Registered (initData config) motor := ⟨id, (getMotor_eq built id).symm.trans found⟩
  have path := zeroMotor_follows platform registered persist (host.withScript []) built
  rw [ran] at path
  have ready : Built (initData config) (host.withScript []).control := built
  have quiet := (silent_path ready path ⟨rfl, silent⟩).2
  exact ⟨[], quiet.trans (silent.symm.trans (List.append_nil _).symm), List.forall_mem_nil _⟩

theorem joint_zeroed : ∃ host : Host (joints [(1, 0x11), (2, 0x12)]).motors.length, ∃ after added,
    zeroed Platform.wrapping 2 true host [] = (.ok (), after) ∧ after.usb.sent = host.usb.sent ++ added ∧
      ZeroesOnce host.control ⟨1, by decide⟩ true added := by
  obtain ⟨host, reached, enabled, silent⟩ := exists_enabled Platform.wrapping (joints [(1, 0x11), (2, 0x12)])
  have built : Built (initData (joints [(1, 0x11), (2, 0x12)])) host.control := reach_built reached _ rfl
  have found : (MotorControl.registry (initData (joints [(1, 0x11), (2, 0x12)]))).find? 2 = some ⟨1, by decide⟩ := by
    decide
  have lookup := (getMotor_eq built 2).trans found
  obtain ⟨returns, touches⟩ := (zeroing_touches_one Platform.wrapping reached enabled true []).1 2 _ lookup
  rcases outcome : zeroed Platform.wrapping 2 true host [] with ⟨result, after⟩
  have normal := returns (List.forall_mem_nil _)
  rw [outcome] at normal
  cases normal
  obtain ⟨added, grown, once, _⟩ := touches after outcome (zeroed_silent built silent outcome)
  exact ⟨host, after, added, outcome, grown, once⟩

end DmOpenarm.Zeroing
