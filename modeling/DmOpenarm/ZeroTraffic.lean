import DmOpenarm.ExampleTraffic
import DmOpenarm.Zeroing

/-! What set_zero_position leaves in the motors: the commands that set a zero and the ones that
write to flash. Everything else it sends has no effect that lasts. -/

namespace DmOpenarm.ZeroTraffic
open Types hiding ControlMode
open Damiao MotorBus Backend Traffic Operations Faults Shutdown Dispatch YamlLoader ZeroIds Zeroing BatchTraffic
open Examples ExampleExits ExampleTraffic Library.Effect Library.Output

instance (frame : TxFrame) : Decidable (Lasting frame) := inferInstanceAs (Decidable (_ ∨ _))

section Bus
variable {n : Nat} {data : Fin n → DmActData}

def lastingSent (host : Host n) : List TxFrame := host.usb.sent.filter fun frame => Lasting frame

/-- The motors are as built, and in MIT mode as long as nothing switches them. -/
def Settled (data : Fin n → DmActData) (host : Host n) : Prop :=
  Built data host.control ∧ (Undisturbed data host.usb → AllMit data host)

def Calm (data : Fin n → DmActData) (host : Host n) : Prop := Undisturbed data host.usb

theorem settled_follows {α : Type} {program : Sdk n α} (follows : Follows (bus data) program) {host : Host n}
    (settled : Settled data host) :
    Settled data (exec program host).2 ∧ (Calm data (exec program host).2 → Calm data host) := by
  have path := follows host settled.1
  exact ⟨(bus data).keeps _ (fun _ _ built step => primitive_allMit built step) path settled.1 settled.2,
    undisturbed_earlier (path_logs path).2⟩

theorem quiet_outputs {program : Sdk n Unit} (follows : Follows (bus data) program)
    (sends : Follows (sending data fun frame => ¬Lasting frame) program) :
    Outputs lastingSent (Settled data) (Calm data) program [] := by
  intro host settled
  obtain ⟨kept, before⟩ := settled_follows follows settled
  refine ⟨kept, fun calm => ⟨before calm, .unchanged ?_⟩⟩
  obtain ⟨added, grown, fleeting⟩ := sent_path (sends host settled.1)
  have absent : added.filter (fun frame => Lasting frame) = [] := by
    rw [List.filter_eq_nil_iff]
    intro frame member
    rw [decide_eq_true_eq]
    exact fleeting frame member
  rw [lastingSent, grown, List.filter_append, absent, List.append_nil]
  rfl

/-- A send of a lasting frame that is addressed rightly as long as nothing has switched a mode. -/
theorem send_outputs {program : Sdk n Unit} (follows : Follows (bus data) program) {frame : TxFrame}
    (lasting : Lasting frame) (sends : ∀ host, Settled data host → Calm data host →
      exec program host = exec (fdcanFrameSend frame) host) :
    Outputs lastingSent (Settled data) (Calm data) program [frame] := by
  intro host settled
  obtain ⟨kept, before⟩ := settled_follows follows settled
  refine ⟨kept, fun calm => ⟨before calm, ?_⟩⟩
  rw [sends host settled (before calm), exec_fdcanFrameSend]
  have quiet := (ReliableBus.advance_usb host).1
  cases host.throwsNext with
  | true =>
    refine ⟨[], ?_, List.nil_prefix, ?_⟩
    · change host.advance.usb.sent.filter _ = host.usb.sent.filter _ ++ []
      rw [quiet, List.append_nil]
    · intro value returned
      cases returned
  | false =>
    refine ⟨[frame], ?_, List.prefix_refl _, fun _ _ => rfl⟩
    change (host.advance.usb.sent ++ [frame]).filter _ = host.usb.sent.filter _ ++ [frame]
    rw [quiet, List.filter_append, List.filter_singleton, decide_eq_true lasting]
    rfl

/-- The command that sets the zero of a motor in MIT mode. -/
def zeroCommand (id : Id) : TxFrame := ⟨.control, id, commandBytes 0xFE⟩

theorem setZeroPosition_outputs {motor : Fin n} (registered : Registered data motor) :
    Outputs lastingSent (Settled data) (Calm data) (setZeroPosition motor) [zeroCommand (data motor).canId] := by
  apply send_outputs (setZeroPosition_follows registered) (.inl ⟨rfl, rfl⟩)
  intro host settled calm
  have here : exec (setZeroPosition motor) host = exec (fdcanFrameSend (zeroFrame host.control motor)) host := rfl
  rw [here, zeroFrame, settled.1.canId, (settled.2 calm).modes, add_offset_mit]
  rfl

theorem disable_outputs {motor : Fin n} (registered : Registered data motor) :
    Outputs lastingSent (Settled data) (Calm data) (commandId motor >>= fun command => controlCmd command 0xFD) [] := by
  apply quiet_outputs (command_follows registered 0xFD)
  apply command_sends
  intro id
  simp [Lasting, commandBytes]

theorem usleep_outputs : Outputs lastingSent (Settled data) (Calm data) (usleep : Sdk n Unit) [] :=
  quiet_outputs usleep_follows usleep_sends

theorem saveMotorParam_outputs {motor : Fin n} (registered : Registered data motor) :
    Outputs lastingSent (Settled data) (Calm data) (saveMotorParam motor) [saveFrame (data motor).canId] := by
  have parts : saveMotorParam motor = motorCanId motor >>= fun id =>
      (commandId motor >>= fun command => controlCmd command 0xFD) >>= fun _ => usleep >>= fun _ =>
        modify Host.expectReply >>= fun _ => fdcanFrameSend (saveFrame id) >>= fun _ => usleep := by
    simp only [saveMotorParam, saveFrame, bind_assoc]
  rw [parts]
  apply Outputs.read_bind (exec_motorCanId motor)
  intro host settled
  rw [settled.1.canId]
  have save : Outputs lastingSent (Settled data) (Calm data) (fdcanFrameSend (saveFrame (data motor).canId))
      [saveFrame (data motor).canId] :=
    send_outputs (registerFrame_follows _ _) (.inr ⟨rfl, rfl⟩) fun _ _ _ => rfl
  have expect : Outputs lastingSent (Settled data) (Calm data) (modify Host.expectReply : Sdk n Unit) [] :=
    quiet_outputs expectReply_follows expectReply_sends
  exact (disable_outputs registered).silent_bind fun _ => usleep_outputs.silent_bind fun _ =>
    expect.silent_bind fun _ => save.bind fun _ => usleep_outputs

theorem enableAll_outputs (platform : Platform) :
    Outputs lastingSent (Settled data) (Calm data) (enableAll platform : Sdk n Unit) [] := by
  apply quiet_outputs (enableAll_follows platform)
  apply enableAll_sends
  · simp [Lasting, registerFrame]
  · simp [Lasting, registerFrame]
  · simp [Lasting, commandBytes]

/-- What zeroing a motor leaves in it. -/
def zeroCommands (id : Id) (persist : Bool) : List TxFrame :=
  zeroCommand id :: if persist then [saveFrame id] else []

theorem zeroMotor_outputs (platform : Platform) {motor : Fin n} (registered : Registered data motor) (persist : Bool) :
    Outputs lastingSent (Settled data) (Calm data) (zeroMotor platform motor persist)
      (zeroCommands (data motor).canId persist) := by
  apply (setZeroPosition_outputs registered).bind
  intro _
  apply usleep_outputs.silent_bind
  intro _
  cases persist with
  | false => exact .pure _
  | true =>
    apply (saveMotorParam_outputs registered).bind
    intro _
    exact usleep_outputs.silent_bind fun _ => (enableAll_outputs platform).silent_bind fun _ => usleep_outputs

end Bus

variable {config : ArmConfig}

def lastingTraffic (backend : DmSerialBackend config) : List TxFrame :=
  backend.usb.sent.filter fun frame => Lasting frame

def Undisturbed (backend : DmSerialBackend config) : Prop := Shutdown.Undisturbed (initData config) backend.usb

theorem calm_serves : Serves (Sound : DmSerialBackend config → Prop) Undisturbed where
  built _ sound := sound.built
  kept _ _ _ step sound := sound.move (.exchange step)
  earlier _ _ step := undisturbed_earlier (received_grows (.single step))

theorem onControl_outputs {program : Sdk config.motors.length Unit} (follows : Follows (bus (initData config)) program)
    {plan : List TxFrame} (outputs : Outputs lastingSent (Settled (initData config)) (Calm (initData config)) program plan) :
    Outputs lastingTraffic Sound Undisturbed (onControl program : BackendM config Unit) plan := by
  intro backend sound
  obtain ⟨kept, before⟩ := calm_serves.follows (onControl_follows follows) sound
  refine ⟨kept, fun shows => ⟨before shows, ?_⟩⟩
  rcases backend with ⟨_ | control, usb⟩
  · refine ⟨[], (List.append_nil _).symm, List.nil_prefix, ?_⟩
    intro value returned
    cases returned
  · have settled : Settled (initData config) ⟨control, usb⟩ := ⟨sound.built control rfl, sound.mit control rfl⟩
    rw [exec_onControl_some] at shows ⊢
    exact ((outputs ⟨control, usb⟩ settled).2 shows).2

/-- What set_zero leaves in the motors for an identifier. -/
def zeroPlan (config : ArmConfig) (persist : Bool) (canId : Id) : List TxFrame :=
  match resolve config canId with
  | none => []
  | some motor => zeroCommands (initData config motor).canId persist

theorem setZero_outputs (platform : Platform) (canId : Id) (persist : Bool) :
    Outputs lastingTraffic Sound Undisturbed (setZero platform canId persist : BackendM config Unit)
      (zeroPlan config persist canId) := by
  intro backend sound
  rcases backend with ⟨_ | control, usb⟩
  · refine ⟨sound, fun shows => ⟨shows, [], (List.append_nil _).symm, List.nil_prefix, ?_⟩⟩
    intro value returned
    cases returned
  · have lookup : control.getMotor canId = resolve config canId := getMotor_eq (sound.built control rfl) canId
    rw [exec_setZero, lookup, zeroPlan]
    cases found : resolve config canId with
    | none => exact Outputs.throw _ _ sound
    | some motor =>
      have registered : Registered (initData config) motor := ⟨canId, found⟩
      exact onControl_outputs (zeroMotor_follows platform registered persist)
        (zeroMotor_outputs platform registered persist) _ sound

theorem sendZeroMitAll_outputs (platform : Platform) :
    Outputs lastingTraffic Sound Undisturbed (sendZeroMitAll platform : BackendM config Unit) [] := by
  have fleeting : (plan config platform (List.replicate config.motors.length {})).filter (fun frame => Lasting frame) =
      [] := by
    rw [List.filter_eq_nil_iff]
    intro frame member
    rw [← plan_mit] at member
    have mit : frame.kind = .mit := of_decide_eq_true (List.mem_filter.mp member).2
    rw [decide_eq_true_eq, Lasting, mit]
    simp
  rw [← fleeting]
  exact sendMitAll_outputs platform List.length_replicate calm_serves _

/-- What set_zero_position leaves in the motors. -/
def zeroed (config : ArmConfig) (target : String) (persist : Bool) : List TxFrame :=
  match targetIds config target with
  | .error _ => []
  | .ok canIds => canIds.flatMap (zeroPlan config persist)

theorem program_outputs (platform : Platform) (target : String) (persist : Bool) :
    Outputs lastingTraffic Sound Undisturbed (Examples.setZeroPosition platform target persist : BackendM config Unit)
      (zeroed config target persist) := by
  have zero := @sendZeroMitAll_outputs config platform
  have pauses := pause_outputs (@calm_serves config) fun frame => Lasting frame
  have reads := readStates_outputs (@calm_serves config) fun frame => Lasting frame
  apply zero.silent_bind
  intro _
  apply pauses.silent_bind
  intro _
  apply reads.silent_bind
  intro _
  unfold zeroed
  cases targetIds config target with
  | error fault => exact .throw fault
  | ok canIds =>
    have loop : Outputs lastingTraffic Sound Undisturbed (canIds.forM fun canId => setZero platform canId persist)
        (canIds.flatMap (zeroPlan config persist)) := .forM canIds fun canId _ => setZero_outputs platform canId persist
    have whole := loop.bind fun _ => zero.silent_bind fun _ => pauses.silent_bind fun _ =>
      reads.silent_bind fun _ => .pure ()
    rw [List.append_nil] at whole
    exact whole

/-- However set_zero_position ends, and unless a reply has switched a mode, the frames that have a
lasting effect are those that zero, and save if that is asked for, its targets one after the other,
cut short only if it fails. -/
theorem set_zero_touches_targets (platform : Platform) {target : String} {persist : Bool} {usb : Usb}
    {result : Except Fault Unit} {after : DmSerialBackend config}
    (ran : exec (Example.main platform (.setZeroPosition target persist)) ⟨none, usb⟩ = (result, after))
    (calm : Undisturbed after) :
    lastingTraffic after <+: zeroed config target persist ∧
      (result = .ok () → lastingTraffic after = zeroed config target persist) := by
  have fleeting (frame : TxFrame) (plain : Plain frame) : decide (Lasting frame) = false := decide_eq_false plain.2
  have empty {backend : DmSerialBackend config} (plain : ∀ frame ∈ backend.usb.sent, Plain frame) :
      lastingTraffic backend = [] := by
    rw [lastingTraffic, List.filter_eq_nil_iff]
    intro frame member
    rw [fleeting frame (plain frame member)]
    exact Bool.false_ne_true
  rcases runArm_traffic (part_follows platform (.setZeroPosition target persist)) ran with ⟨failed, plain⟩ |
    ⟨start, middle, outcome, sound, _, before, done, quiet, returns⟩
  · rw [empty plain]
    exact ⟨List.nil_prefix, fun returned => absurd returned failed⟩
  · have same : lastingTraffic after = lastingTraffic middle := quiet.filter fleeting
    have earlier : Undisturbed middle := undisturbed_earlier quiet.received calm
    obtain ⟨_, writes⟩ := program_outputs platform target persist start sound
    change exec (Examples.setZeroPosition platform target persist) start = (outcome, middle) at done
    rw [done] at writes
    obtain ⟨_, items, grown, early, whole⟩ := writes earlier
    change lastingTraffic middle = lastingTraffic start ++ items at grown
    rw [same, grown, empty before, List.nil_append]
    exact ⟨early, fun returned => whole () (returns returned)⟩

/-- The second of two joints is zeroed and saved. -/
theorem second_joint_zeroed : ∃ after : DmSerialBackend (joints [(1, 0x11), (2, 0x12)]),
    exec (Example.main Platform.wrapping (.setZeroPosition "0x02" true)) ⟨none, {}⟩ = (.ok (), after) ∧
      lastingTraffic after = [zeroCommand 2, saveFrame 2] := by
  have ran : exitStatus true (exec (Example.main Platform.wrapping (.setZeroPosition "0x02" true))
        (⟨none, {}⟩ : DmSerialBackend (joints [(1, 0x11), (2, 0x12)]))).1 = some 0 ∧
      (exec (Example.main Platform.wrapping (.setZeroPosition "0x02" true))
        (⟨none, {}⟩ : DmSerialBackend (joints [(1, 0x11), (2, 0x12)]))).2.usb.received.length = 0 := by decide +kernel
  obtain ⟨after, returned⟩ := returned_of_status ran.1
  rw [returned] at ran
  have silent := undisturbed_of_silent (initData (joints [(1, 0x11), (2, 0x12)])) (List.eq_nil_of_length_eq_zero ran.2)
  have planned : zeroed (joints [(1, 0x11), (2, 0x12)]) "0x02" true = [zeroCommand 2, saveFrame 2] := by decide +kernel
  exact ⟨after, returned, ((set_zero_touches_targets Platform.wrapping returned silent).2 rfl).trans planned⟩

end DmOpenarm.ZeroTraffic
