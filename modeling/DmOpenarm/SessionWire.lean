import DmOpenarm.ExampleTraffic
import DmOpenarm.SessionBus

/-! What the log of a session says of the wire. Connecting begins anew, and after that the MIT frames are
those of the batches that were logged, each up to where it was cut short. -/

namespace DmOpenarm.SessionWire
open Types hiding ControlMode
open Damiao YamlLoader MotorBus Backend Session SessionMoves SessionBus Lifecycle Traffic Faults BatchTraffic ZeroIds ExampleExits ExampleTraffic
open Operations hiding Action Move machine
open Library.Effect Library.Output Library.Readings Library.Runs
variable {config : ArmConfig}

/-- Whether the arm is connected, as the log tells. -/
def online : List Event → Bool
  | [] => false
  | .returned .enable :: _ => true
  | .returned .disable :: _ => false
  | _ :: earlier => online earlier

/-- The frames of a zero batch. -/
def zeroPlan (config : ArmConfig) (platform : Platform) : List TxFrame :=
  plan config platform (List.replicate config.motors.length {})

/-- The MIT frames that have been sent on the present connection, as the log tells. Of each batch those have
gone out that its event counts, and connecting begins anew. -/
def transmitted (config : ArmConfig) (platform : Platform) : List Event → List TxFrame
  | [] => []
  | .batch commands emitted :: earlier =>
      transmitted config platform earlier ++ (plan config platform commands).take emitted
  | .zeroBatch emitted :: earlier => transmitted config platform earlier ++ (zeroPlan config platform).take emitted
  | .returned .enable :: earlier => if online earlier then transmitted config platform earlier else []
  | .raised .enable _ :: earlier => if online earlier then transmitted config platform earlier else []
  | _ :: earlier => transmitted config platform earlier

/-- The log says rightly whether the arm is connected and which MIT frames have been sent. -/
structure Carries (platform : Platform) (state : State config) : Prop where
  connected : online state.log = state.backend.connected
  sent : transmitted config platform state.log = mitTraffic state.backend

theorem online_mute (event : Event) (silent : mute event = true) : Passes online event := by
  cases event with
  | returned call => cases call <;> first | exact fun _ => rfl | cases silent
  | _ => exact fun _ => rfl

theorem transmitted_mute (platform : Platform) (event : Event) (silent : mute event = true) :
    Passes (transmitted config platform) event := by
  cases event with
  | returned call | raised call => cases call <;> first | exact fun _ => rfl | cases silent
  | batch | zeroBatch => cases silent
  | _ => exact fun _ => rfl

section Backend
variable (platform : Platform) {backend : DmSerialBackend config}

/-- A batch sends a beginning of its frames and nothing else. -/
theorem sendMitAll_adds (built : Consistent backend) (commands : List MitCommand) :
    ∃ items, (exec (sendMitAll platform commands) backend).2.usb.sent = backend.usb.sent ++ items ∧
      items <+: plan config platform commands := by
  by_cases same : commands.length = config.motors.length
  · obtain ⟨items, grown, early, _⟩ := sendMitAll_written platform commands built same
    exact ⟨items, grown, early⟩
  · have refused : (exec (sendMitAll platform commands) backend).2 = backend := by
      cases connected : backend.connected with
      | false =>
        have stops : exec requireConnected backend = (.error notConnected, backend) := by
          rw [exec_requireConnected, connected]
          rfl
        rw [sendMitAll, exec_bind_error stops]
      | true =>
        have ready : exec requireConnected backend = (.ok (), backend) := by
          rw [exec_requireConnected, if_pos connected]
        rw [sendMitAll, exec_bind_ok ready, if_pos same]
        rfl
    exact ⟨[], by rw [refused, List.append_nil], List.nil_prefix⟩

theorem mit_of_plan {commands : List MitCommand} {frame : TxFrame} (member : frame ∈ plan config platform commands) :
    frame.kind = .mit := by
  rw [← plan_mit] at member
  exact of_decide_eq_true (List.mem_filter.mp member).2

/-- A batch sends as many of its frames as its event records. -/
theorem sendMitAll_takes (built : Consistent backend) (commands : List MitCommand) :
    let after := (exec (sendMitAll platform commands) backend).2
    after.connected = backend.connected ∧ mitTraffic after = mitTraffic backend ++
      (plan config platform commands).take (after.usb.sent.length - backend.usb.sent.length) := by
  have path := sendMitAll_follows platform commands backend built
  refine ⟨service_connected built path, ?_⟩
  obtain ⟨items, grown, early⟩ := sendMitAll_adds platform built commands
  have all : items.filter (fun frame => frame.kind = .mit) = items :=
    List.filter_eq_self.mpr fun frame member => decide_eq_true (mit_of_plan platform (early.subset member))
  rw [mitTraffic, grown, List.filter_append, all, List.length_append, Nat.add_sub_cancel_left,
    ← List.prefix_iff_eq_take.mp early]
  rfl

end Backend

section Bus
variable {n : Nat} {data : Fin n → DmActData}

/-- Frames on the management identifier, and commands that are no MIT commands. -/
def Other (frame : TxFrame) : Prop := frame.kind ≠ .mit

theorem saveMotorParam_others (motor : Fin n) : Follows (sending data Other) (saveMotorParam motor) := by
  apply Follows.after_read (exec_motorCanId motor)
  intro id
  have disabled : Follows (sending data Other) (commandId motor >>= fun command => controlCmd command 0xFD) :=
    command_sends motor 0xFD fun _ => FrameKind.noConfusion
  apply disabled.bind
  intro _
  apply usleep_sends.bind
  intro _
  apply expectReply_sends.bind
  intro _
  have saves : Follows (sending data Other) (fdcanFrameSend (saveFrame id)) := fdcanFrameSend_sends FrameKind.noConfusion
  exact saves.bind fun _ => usleep_sends

/-- Setting and saving a zero sends no MIT frame. -/
theorem zeroMotor_others (platform : Platform) (motor : Fin n) (persist : Bool) :
    Follows (sending data Other) (zeroMotor platform motor persist) := by
  have zeroes : Follows (sending data Other) (setZeroPosition motor) :=
    command_sends motor 0xFE fun _ => FrameKind.noConfusion
  apply zeroes.bind
  intro _
  apply usleep_sends.bind
  intro _
  cases persist with
  | false => exact .pure _
  | true =>
    have enables : Follows (sending data Other) (enableAll platform) :=
      enableAll_sends platform (fun _ _ => FrameKind.noConfusion) (fun _ _ => FrameKind.noConfusion)
        fun _ => FrameKind.noConfusion
    exact (saveMotorParam_others motor).bind fun _ => usleep_sends.bind fun _ => enables.bind fun _ => usleep_sends

end Bus

section Operations
variable (platform : Platform)

theorem mitTraffic_grown {before after : DmSerialBackend config} {added : List TxFrame}
    (grown : after.usb.sent = before.usb.sent ++ added) (others : ∀ frame ∈ added, Other frame) :
    mitTraffic after = mitTraffic before := by
  have none : added.filter (fun frame => frame.kind = .mit) = [] := by
    rw [List.filter_eq_nil_iff]
    intro frame member
    rw [decide_eq_false (others frame member)]
    exact Bool.false_ne_true
  rw [mitTraffic, grown, List.filter_append, none, List.append_nil]
  rfl

theorem setZero_outputs (canId : Id) (persist : Bool) :
    Outputs mitTraffic Consistent Anyhow (setZero platform canId persist : BackendM config Unit) [] := by
  intro backend built
  have kept := (service config).inv_path (setZero_follows platform canId persist backend built) built
  refine ⟨kept, fun _ => ⟨trivial, .unchanged ?_⟩⟩
  rcases backend with ⟨_ | control, usb⟩
  · rfl
  · rw [exec_setZero]
    cases control.getMotor canId with
    | none => rfl
    | some motor =>
      dsimp only
      rw [exec_onControl_some]
      obtain ⟨added, grown, others⟩ := sent_path (zeroMotor_others platform motor persist ⟨control, usb⟩ (built control rfl))
      exact mitTraffic_grown grown others

theorem setZeroAll_outputs (persist : Bool) :
    Outputs mitTraffic Consistent Anyhow (setZeroAll platform persist : BackendM config Unit) [] := by
  have loop : Outputs mitTraffic Consistent Anyhow (setZeroAll platform persist : BackendM config Unit)
      (config.motors.flatMap fun _ => []) :=
    .forM config.motors fun motor _ => setZero_outputs platform motor.canId persist
  rwa [List.flatMap_eq_nil_iff.mpr fun _ _ => rfl] at loop

/-- Setting zeros sends no MIT frame and neither connects nor disconnects. -/
theorem zero_silent {call : Call} {op : Op} (behind : call.op = some op) (serves : op.serves = true)
    {backend : DmSerialBackend config} (built : Consistent backend) :
    (exec (op.perform platform) backend).2.connected = backend.connected ∧
      mitTraffic (exec (op.perform platform) backend).2 = mitTraffic backend := by
  have nothing : Outputs mitTraffic Consistent Anyhow (op.perform platform : BackendM config Unit) [] := by
    rcases zeroes_of_op behind serves with ⟨canId, persist, _, rfl⟩ | ⟨persist, _, rfl⟩
    · exact setZero_outputs platform canId persist
    · exact setZeroAll_outputs platform persist
  obtain ⟨_, items, grown, early, _⟩ := (nothing backend built).2 trivial
  rw [List.prefix_nil.mp early, List.append_nil] at grown
  exact ⟨service_connected built (perform_service platform serves backend built), grown⟩

/-- Releasing disconnects, unless it ends the process, and sends no MIT frame. -/
theorem disconnect_sends {backend : DmSerialBackend config} (built : Consistent backend) :
    mitTraffic (exec (disconnect platform) backend).2 = mitTraffic backend ∧
      (((exec (disconnect platform) backend).1 = .error .terminate ∧
          (exec (disconnect platform) backend).2.connected = backend.connected) ∨
        ((exec (disconnect platform) backend).1 = .ok () ∧ (exec (disconnect platform) backend).2.connected = false)) := by
  refine ⟨(disconnect_quiet platform built).filter plain_no_mit, ?_⟩
  rcases backend with ⟨_ | control, usb⟩
  · exact .inr ⟨rfl, rfl⟩
  · have connected : (⟨some control, usb⟩ : DmSerialBackend config).connected = true := rfl
    rw [disconnect, exec_get_bind, if_pos connected, exec_bind, exec_tryCatch, exec_onControl_some]
    rcases exec (disableAll platform) ⟨control, usb⟩ with ⟨fault | _, host⟩
    · exact .inl ⟨rfl, rfl⟩
    · exact .inr ⟨rfl, rfl⟩

/-- Connecting begins anew, unless the arm is connected already. -/
theorem connect_sends (backend : DmSerialBackend config) :
    (backend.connected = true ∧ exec (connect platform) backend = (.ok (), backend)) ∨
      (backend.connected = false ∧ mitTraffic (exec (connect platform) backend).2 = [] ∧
        (exec (connect platform) backend).2.connected =
          match (exec (connect platform) backend).1 with
          | .ok _ => true
          | .error _ => false) := by
  rcases backend with ⟨_ | control, usb⟩
  · right
    rcases outcome : exec (connect platform) (⟨none, usb⟩ : DmSerialBackend config) with ⟨fault | _, after⟩
    · obtain ⟨plain, nothing⟩ := connect_plain outcome
      refine ⟨rfl, mitTraffic_plain plain, ?_⟩
      rw [DmSerialBackend.connected, nothing fault rfl]
      rfl
    · obtain ⟨_, host, rfl⟩ := connect_returned outcome
      exact ⟨rfl, mitTraffic_plain (connect_plain outcome).1, rfl⟩
  · exact .inl ⟨rfl, rfl⟩

end Operations

theorem Carries.touch {platform : Platform} {state after : State config} (built : Consistent state.backend)
    (touch : Touch platform state after) (carries : Carries platform state) : Carries platform after := by
  have ready (script : List Slot) : Consistent (state.backend.withScript script) := built
  cases touch with
  | nothing backend log =>
    constructor
    · rw [log.read online_mute, backend]
      exact carries.connected
    · rw [log.read (transmitted_mute platform), backend]
      exact carries.sent
  | heard arrival received log =>
    have heard : after.backend.connected = state.backend.connected ∧
        mitTraffic after.backend = mitTraffic state.backend := by
      generalize state.backend = start at received ⊢
      generalize after.backend = last at received ⊢
      rcases start with ⟨_ | control, usb⟩
      · cases received
      · cases received
        exact ⟨rfl, rfl⟩
    constructor
    · rw [log, heard.1, carries.connected]
    · rw [log, heard.2]
      exact carries.sent
  | batch script commands backend log =>
    obtain ⟨connected, sent⟩ := sendMitAll_takes platform (ready script) commands
    rw [← backend] at connected sent
    constructor
    · rw [log, connected]
      exact carries.connected
    · rw [log, sent, transmitted, carries.sent]
      rfl
  | zero script backend log =>
    obtain ⟨connected, sent⟩ := sendMitAll_takes platform (ready script) (List.replicate config.motors.length {})
    change after.backend = (exec (sendMitAll platform (List.replicate config.motors.length {})) _).2 at backend
    rw [← backend] at connected sent
    constructor
    · rw [log.read online_mute, connected]
      exact carries.connected
    · rw [log.read (transmitted_mute platform), sent, transmitted, carries.sent]
      rfl
  | zeroed script call op result behind serves ran log =>
    obtain ⟨connected, sent⟩ := zero_silent platform behind serves (ready script)
    rw [ran] at connected sent
    have told : online (ended call result :: state.log) = online state.log ∧
        transmitted config platform (ended call result :: state.log) = transmitted config platform state.log := by
      rcases zeroes_of_op behind serves with ⟨_, _, rfl, _⟩ | ⟨_, rfl, _⟩ <;> cases result <;> exact ⟨rfl, rfl⟩
    dsimp only at connected sent
    constructor
    · rw [log, connected, told.1]
      exact carries.connected
    · rw [log, sent, told.2]
      exact carries.sent
  | connects script result ran log =>
    have connecting := connect_sends platform (state.backend.withScript script)
    rw [ran] at connecting
    rcases connecting with ⟨already, same⟩ | ⟨unconnected, sent, connected⟩
    · obtain ⟨returned, backend⟩ := Prod.ext_iff.mp same
      dsimp only at returned backend
      subst returned
      have known : online state.log = true := carries.connected.trans already
      constructor
      · rw [log, backend]
        exact already.symm
      · rw [log, backend, ended, transmitted, if_pos known]
        exact carries.sent
    · have offline : ¬online state.log = true := by
        rw [carries.connected.trans unconnected]
        exact Bool.false_ne_true
      dsimp only at sent connected
      cases result with
      | ok _ =>
        constructor
        · rw [log, connected]
          rfl
        · rw [log, sent, ended, transmitted, if_neg offline]
      | error fault =>
        constructor
        · rw [log, connected]
          exact Bool.eq_false_iff.mpr offline
        · rw [log, sent, ended, transmitted, if_neg offline]
  | disconnects script ran log =>
    have releasing := disconnect_sends platform (ready script)
    rw [ran] at releasing
    obtain ⟨sent, ⟨threw, _⟩ | ⟨_, connected⟩⟩ := releasing
    · cases threw
    · dsimp only at sent connected
      constructor
      · rw [log, connected]
        rfl
      · rw [log, sent]
        exact carries.sent

/-- In every run, whatever the calls, the threads, the bus and its failures do, the log says rightly whether the
arm is connected, and the MIT frames on the wire since it was connected are those that the logged batches count,
in order. -/
theorem wire_follows_log {platform : Platform} {state : State config}
    (reached : Reach (machine platform config) Anything state) (alive : state.terminated = false) :
    online state.log = state.backend.connected ∧ transmitted config platform state.log = mitTraffic state.backend := by
  have carries : Carries platform state :=
    reach_touches ⟨rfl, rfl⟩ (fun _ _ built touch carries => carries.touch built touch) reached alive
  exact ⟨carries.connected, carries.sent⟩

/-- Of the zero batch for two joints only the first frame goes out. -/
theorem joints_follow_log : ∃ state : State (joints [(1, 0x11), (2, 0x12)]),
    state.log.head? = some (.raised .stop .usb) ∧ Event.zeroBatch 1 ∈ state.log ∧
      (mitTraffic state.backend).length = 3 ∧
      transmitted (joints [(1, 0x11), (2, 0x12)]) Platform.wrapping state.log = mitTraffic state.backend := by
  have ran : ((machine Platform.wrapping (joints [(1, 0x11), (2, 0x12)])).run (fun _ _ => true)
      (oneBatch ++ [.call .stop, quietly, loops, loops, quietly, .caller [{}, { throws := true }] true])
      (initialState (joints [(1, 0x11), (2, 0x12)]))).map (fun state =>
        decide (state.terminated = false ∧ state.log.head? = some (.raised .stop .usb) ∧
          Event.zeroBatch 1 ∈ state.log ∧ (mitTraffic state.backend).length = 3)) = some true := by decide +kernel
  obtain ⟨state, reached, alive, top, zero, three⟩ := Machine.reach_checked rfl ran
  exact ⟨state, top, zero, three, (wire_follows_log reached.anything alive).2⟩

end DmOpenarm.SessionWire
