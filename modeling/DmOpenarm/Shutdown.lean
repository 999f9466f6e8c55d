import DmOpenarm.ReliableBus
import DmOpenarm.YamlLoader

/-! Which motors a disconnect reaches. Commands for MIT motion go to the CAN ID of a motor,
while enable and disable commands go where the motor listens in its present mode, and a
received register reply can change that mode. -/

namespace DmOpenarm.Shutdown
open Types hiding ControlMode
open Damiao Reception MotorBus Backend Traffic Operations ReliableBus YamlLoader
open Library.FirstWins Library.Effect Library.Runs

section Bus
variable {n : Nat} (data : Fin n → DmActData)

/-- A reply, taken as such, that puts some motor into a mode other than a given one. -/
def Changes (modes : Fin n → ControlMode) (reception : Reception) : Prop :=
  reception.pending = true ∧
    ((MotorControl.registry data).find? (reception.frame.id.setWidth 16)).isSome = true ∧
    ∃ reply ∈ modeReply (MotorControl.registry data) reception.frame.data, reply.2 ≠ modes reply.1

/-- A reply, taken as such, that puts some motor into a mode other than MIT. -/
def Switches (reception : Reception) : Prop :=
  reception.pending = true ∧
    ((MotorControl.registry data).find? (reception.frame.id.setWidth 16)).isSome = true ∧
    ∃ reply ∈ modeReply (MotorControl.registry data) reception.frame.data, reply.2 ≠ .MIT_MODE

def Undisturbed (usb : Usb) : Prop := ∀ reception ∈ usb.received, ¬Switches data reception

theorem undisturbed_of_silent {usb : Usb} (silent : usb.received = []) : Undisturbed data usb := by
  rw [Undisturbed, silent]
  exact List.forall_mem_nil _

/-- The eight bytes of a control command. -/
def commandBytes (cmd : Byte) : List Byte := [0xff, 0xff, 0xff, 0xff, 0xff, 0xff, 0xff, cmd]

/-- An MIT command, or a control command that enables. -/
def Drives (frame : TxFrame) : Prop :=
  frame.kind = .mit ∨ frame.kind = .control ∧ frame.data = commandBytes 0xFC

instance (frame : TxFrame) : Decidable (Drives frame) := inferInstanceAs (Decidable (_ ∨ _))

def disableFrame (id : Id) : TxFrame := ⟨.control, id, commandBytes 0xFD⟩

/-- Every motor is in MIT mode, and only CAN IDs of registered motors have been driven. -/
structure AllMit (host : Host n) : Prop where
  modes : ∀ motor, (host.control.objects motor).mode = .MIT_MODE
  driven : ∀ frame ∈ host.usb.sent, Drives frame →
    ∃ motor, Registered data motor ∧ frame.id = (data motor).canId

variable {data}

theorem receive_modes {host : Host n} (built : Built data host.control) (arrival : Arrival)
    {modes : Fin n → ControlMode} (old : ∀ motor, (host.control.objects motor).mode = modes motor)
    (calm : ¬Changes data modes ⟨arrival.frame, arrival.reply, host.control.readWriteSave⟩) (motor : Fin n) :
    ((host.receive arrival).control.objects motor).mode = modes motor := by
  have handled := canframeCallback_handled host.control (host.usb.clock + arrival.elapsed) arrival.frame
  change ((host.control.canframeCallback _ _).objects motor).mode = _
  generalize host.control.canframeCallback _ _ = after at handled
  cases handled with
  | unknown absent => exact old motor
  | @register target _ found pending registers =>
    rcases registers.modes motor with same | reply
    · exact same.trans (old motor)
    · by_contra other
      rw [built.motors] at found reply
      exact calm ⟨pending, by rw [found]; rfl, _, reply, other⟩
  | @feedback target found idle =>
    exact (modifyMotor_each (fun old new => new.mode = old.mode) host.control target
      (fun m => Motor.refreshed m _ arrival.frame.data) (fun _ => rfl) rfl motor).trans (old motor)

theorem receive_allMit {host : Host n} (built : Built data host.control) (arrival : Arrival)
    (before : Undisturbed data host.usb → AllMit data host)
    (calm : Undisturbed data (host.receive arrival).usb) : AllMit data (host.receive arrival) := by
  have earlier : Undisturbed data host.usb := fun reception member =>
    calm reception (List.mem_append_left _ member)
  have last : ¬Switches data ⟨arrival.frame, arrival.reply, host.control.readWriteSave⟩ :=
    calm _ (List.mem_append_right _ (List.mem_singleton_self _))
  exact ⟨receive_modes built arrival (before earlier).modes last, (before earlier).driven⟩

theorem advance_received (host : Host n) : host.usb.received <+: host.advance.usb.received :=
  advance_keeps (fun after => host.usb.received <+: after.usb.received)
    (fun _ _ before => before.trans (List.prefix_append _ _)) (fun _ _ before => before) (List.prefix_refl _)

theorem undisturbed_earlier {first second : Usb} (grown : first.received <+: second.received)
    (calm : Undisturbed data second) : Undisturbed data first :=
  fun reception member => calm reception (grown.subset member)

theorem advance_allMit {host : Host n} (built : Built data host.control)
    (before : Undisturbed data host.usb → AllMit data host) :
    Undisturbed data host.advance.usb → AllMit data host.advance :=
  (advance_keeps (fun host => Built data host.control ∧ (Undisturbed data host.usb → AllMit data host))
    (fun _ arrival both => ⟨both.1.receive arrival, receive_allMit both.1 arrival both.2⟩)
    (fun _ _ both => ⟨both.1, fun calm => ⟨(both.2 calm).modes, (both.2 calm).driven⟩⟩) ⟨built, before⟩).2

/-- An addressed frame drives the CAN ID of a registered motor while all motors are in MIT mode. -/
theorem driven_of_addressed {host : Host n} (mit : AllMit data host) {frame : TxFrame}
    (addressed : Addressed data host.control frame) (drives : Drives frame) :
    ∃ motor, Registered data motor ∧ frame.id = (data motor).canId := by
  unfold Addressed at addressed
  rcases drives with kind | ⟨kind, _⟩
  · rw [kind] at addressed
    exact addressed
  · rw [kind] at addressed
    obtain ⟨motor, registered, same⟩ := addressed
    rw [mit.modes, add_offset_mit] at same
    exact ⟨motor, registered, same⟩

theorem primitive_allMit {before after : Host n} (built : Built data before.control)
    (step : Primitive data before after) (holds : Undisturbed data before.usb → AllMit data before) :
    Undisturbed data after.usb → AllMit data after := by
  intro calm
  cases step with
  | wait => exact advance_allMit built holds calm
  | send frame addressed =>
    have mit := advance_allMit built holds calm
    refine ⟨mit.modes, ?_⟩
    intro other member drives
    rcases List.mem_append.mp member with old | new
    · exact mit.driven other old drives
    · rw [List.mem_singleton] at new
      subst new
      exact driven_of_addressed (holds (undisturbed_earlier (advance_received before) calm)) addressed drives
  | expect => exact ⟨(holds calm).modes, (holds calm).driven⟩

/-- A path on the bus only adds to what was sent and received. -/
theorem path_logs {before after : Host n} (path : (bus data).Path before after) :
    before.usb.sent <+: after.usb.sent ∧ before.usb.received <+: after.usb.received := by
  induction path with
  | refl => exact ⟨List.prefix_refl _, List.prefix_refl _⟩
  | @tail middle last _ step ih =>
    cases step with
    | wait => exact ⟨(advance_usb middle).1.symm ▸ ih.1, ih.2.trans (advance_received middle)⟩
    | send frame _ =>
      refine ⟨ih.1.trans ?_, ih.2.trans (advance_received middle)⟩
      change middle.usb.sent <+: middle.advance.usb.sent ++ [frame]
      rw [(advance_usb middle).1]
      exact List.prefix_append _ _
    | expect => exact ih

theorem fdcanFrameSend_returned {frame : TxFrame} {host last : Host n}
    (returned : exec (fdcanFrameSend frame) host = (.ok (), last)) : last = host.advance.emit frame := by
  rw [exec_fdcanFrameSend] at returned
  cases throws : host.throwsNext with
  | true =>
    rw [throws] at returned
    cases returned
  | false =>
    rw [throws] at returned
    cases returned
    rfl

/-- A loop of commands that returns has sent each of its motors one, on the identifier that the
motor listened to at that moment. -/
theorem commands_visit {motors : List (Fin n)} (known : ∀ motor ∈ motors, Registered data motor) {cmd : Byte}
    {host last : Host n} (built : Built data host.control)
    (returned : exec (motors.forM fun motor => fiveTimes (commandId motor >>= fun command =>
      controlCmd command cmd >>= fun _ => usleep)) host = (.ok (), last)) {motor : Fin n} (member : motor ∈ motors) :
    ∃ middle, (bus data).Path host middle ∧ (bus data).Path (middle.advance.emit
        ⟨.control, (data motor).canId + (middle.control.objects motor).mode.offset, commandBytes cmd⟩) last := by
  obtain ⟨first, second, reached, five, rest⟩ := Follows.forM_visits
    (fun target inside => fiveTimes_follows (pausedCommand_follows (known target inside) cmd)) built returned member
  have firstBuilt := (bus data).inv_path reached built
  obtain ⟨middle, done, again, one, remaining⟩ := Follows.forM_visits
    (fun _ _ => pausedCommand_follows (known motor member) cmd) firstBuilt five
    (List.mem_replicate.mpr ⟨by decide, rfl⟩)
  have middleBuilt := (bus data).inv_path again firstBuilt
  rw [exec_bind_ok (exec_commandId motor middle), middleBuilt.canId] at one
  obtain ⟨_, sent, command, slept⟩ := exec_bind_eq_ok one
  have emitted := fdcanFrameSend_returned command
  have sleeping : (bus data).Path sent done := by
    have path := usleep_follows sent (by rw [emitted]; exact built_advance data middleBuilt)
    rwa [slept] at path
  refine ⟨middle, reached.trans again, ?_⟩
  rw [emitted] at sleeping
  exact sleeping.trans (remaining.trans rest)

theorem disableAll_visits (platform : Platform) {host last : Host n} (built : Built data host.control)
    (returned : exec (disableAll platform) host = (.ok (), last)) {motor : Fin n}
    (registered : Registered data motor) :
    ∃ middle, (bus data).Path host middle ∧ (bus data).Path (middle.advance.emit
        (disableFrame ((data motor).canId + (middle.control.objects motor).mode.offset))) last := by
  rw [disableAll, exec_bind_ok (exec_registered platform host), built.motors] at returned
  exact commands_visit (fun target => (mem_enumerate_iff platform target).mp) built returned
    ((mem_enumerate_iff platform motor).mpr registered)

theorem mem_drop_of_grown {start middle last : List TxFrame} {frame : TxFrame} (before : start <+: middle)
    (later : middle ++ [frame] <+: last) : frame ∈ last.drop start.length := by
  obtain ⟨added, rfl⟩ := before
  obtain ⟨rest, rfl⟩ := later
  simp

end Bus

variable {config : ArmConfig}

/-- While nothing has switched a mode, all motors are in MIT mode. -/
def KeepsMit (backend : DmSerialBackend config) : Prop :=
  ∀ control, backend.control = some control → Undisturbed (initData config) backend.usb →
    AllMit (initData config) ⟨control, backend.usb⟩

theorem KeepsMit.move {before after : DmSerialBackend config} (built : Consistent before) (move : Move before after)
    (holds : KeepsMit before) : KeepsMit after := by
  intro control same
  cases move with
  | exchange step =>
    cases step with
    | @bus start last step =>
      cases same
      exact primitive_allMit (built _ rfl) step (holds _ rfl)
    | receive host arrival =>
      cases same
      exact receive_allMit (built _ rfl) arrival (holds _ rfl)
    | script backend script =>
      exact fun calm => ⟨(holds control same calm).modes, (holds control same calm).driven⟩
  | create usb =>
    cases same
    exact fun _ => ⟨fun _ => rfl, List.forall_mem_nil _⟩
  | release control usb => cases same

theorem keepsMit_idle {backend : DmSerialBackend config} (absent : backend.control = none) : KeepsMit backend := by
  intro control same
  rw [absent] at same
  cases same

theorem reach_allMit {platform : Platform} {allowed : DmSerialBackend config → Action → Prop}
    {control : MotorControl config.motors.length} {usb : Usb}
    (reached : Reach (machine platform config) allowed ⟨some control, usb⟩)
    (calm : Undisturbed (initData config) usb) : AllMit (initData config) ⟨control, usb⟩ :=
  reach_keeps KeepsMit (fun _ => keepsMit_idle) (fun _ _ built move => KeepsMit.move built move) reached control rfl calm

/-- A disconnect that returns has run the loop of disable commands to its end. -/
theorem disconnect_returned {platform : Platform} {control : MotorControl config.motors.length} {usb : Usb}
    {script : List Slot} {after : DmSerialBackend config}
    (moved : act platform ⟨some control, usb⟩ (.operate .disconnect script) = some after) :
    ∃ host : Host config.motors.length,
      exec (disableAll platform) ((Host.mk control usb).withScript script) = (.ok (), host) ∧
        after = ⟨none, host.usb⟩ := by
  change survive (exec (disconnect platform) ⟨some control, { usb with script }⟩) = some after at moved
  have connected : (⟨some control, { usb with script }⟩ : DmSerialBackend config).connected = true := rfl
  rw [disconnect, exec_get_bind, if_pos connected, exec_bind, exec_tryCatch, exec_onControl_some] at moved
  change survive _ = _ at moved
  rcases outcome : exec (disableAll platform) ((Host.mk control usb).withScript script) with ⟨fault | _, host⟩
  · have same : exec (disableAll platform) ⟨control, { usb with script }⟩ = (.error fault, host) := outcome
    rw [same] at moved
    cases moved
  · have same : exec (disableAll platform) ⟨control, { usb with script }⟩ = (.ok (), host) := outcome
    rw [same] at moved
    exact ⟨host, rfl, (Option.some.inj moved).symm⟩

/-- Whatever has been driven since connecting is disabled by a disconnect that returns, if no
reply has switched the mode of a motor. -/
theorem disconnect_disables {platform : Platform} {backend after : DmSerialBackend config}
    (reached : Reach (machine platform config) Anything backend) (connected : backend.connected = true)
    {script : List Slot} (moved : act platform backend (.operate .disconnect script) = some after)
    (calm : Undisturbed (initData config) after.usb) {frame : TxFrame} (member : frame ∈ backend.usb.sent)
    (drives : Drives frame) : disableFrame frame.id ∈ after.usb.sent.drop backend.usb.sent.length := by
  rcases backend with ⟨_ | control, usb⟩
  · cases connected
  obtain ⟨host, returned, same⟩ := disconnect_returned moved
  subst same
  have built : Built (initData config) control := reach_built reached control rfl
  have whole : (bus (initData config)).Path ((Host.mk control usb).withScript script) host := by
    have path := disableAll_follows platform ((Host.mk control usb).withScript script) built
    rwa [returned] at path
  have earlier := undisturbed_earlier (path_logs whole).2 calm
  have mit := reach_allMit reached earlier
  obtain ⟨motor, registered, target⟩ := mit.driven frame member drives
  obtain ⟨middle, start, rest⟩ := disableAll_visits platform built returned registered
  have still := (bus (initData config)).keeps _ (fun _ _ built step => primitive_allMit built step) start built
    (fun calm => ⟨(reach_allMit reached calm).modes, (reach_allMit reached calm).driven⟩)
  have middleCalm := undisturbed_earlier ((advance_received middle).trans (path_logs rest).2) calm
  rw [(still.2 middleCalm).modes, add_offset_mit, ← target] at rest
  have before := (path_logs start).1
  have later := (path_logs rest).1
  change middle.advance.usb.sent ++ [_] <+: host.usb.sent at later
  rw [(advance_usb middle).1] at later
  exact mem_drop_of_grown before later

theorem quiet_run_disables : ∃ backend after : DmSerialBackend (joints [(1, 0x11)]),
    Reach (machine Platform.wrapping _) Anything backend ∧
      act Platform.wrapping backend (.operate .disconnect []) = some after ∧
      disableFrame 1 ∈ after.usb.sent.drop backend.usb.sent.length := by
  have ran : ((machine Platform.wrapping (joints [(1, 0x11)])).run (fun _ _ => true)
      [.operate .connect [], .operate (.sendMitAll [{ q := 1 }]) []] {}).bind (fun backend =>
        ((machine Platform.wrapping (joints [(1, 0x11)])).step backend (.operate .disconnect [])).map fun after =>
          decide (backend.connected = true ∧ after.usb.received.length = 0 ∧
            ∃ frame ∈ backend.usb.sent, Drives frame ∧ frame.id = 1)) = some true := by decide +kernel
  obtain ⟨backend, after, reached, moved, connected, silent, frame, member, drives, same⟩ :=
    Machine.reach_step_checked rfl ran
  have calm : Undisturbed (initData (joints [(1, 0x11)])) after.usb :=
    undisturbed_of_silent _ (List.eq_nil_of_length_eq_zero silent)
  have disabled := disconnect_disables reached.anything connected moved calm member drives
  rw [same] at disabled
  exact ⟨backend, after, reached.anything, moved, disabled⟩

/-- A reply of motor 1 to a read of register 10: it is in position-velocity mode. -/
def switchingReply : CanFrame where
  id := 0x11
  data index := if index = 0 then 1 else if index = 2 then 0x33 else if index = 3 then 10
    else if index = 4 then 2 else 0

/-- After such a reply the enabled motor is sent disable commands on another identifier only. -/
theorem switched_motor_stays_enabled : Accepted (joints [(1, 0x11)]) ∧
    ∃ backend after : DmSerialBackend (joints [(1, 0x11)]),
      Reach (machine Platform.wrapping _) Anything backend ∧ backend.connected = true ∧
      act Platform.wrapping backend (.operate .disconnect []) = some after ∧
      ∃ frame ∈ backend.usb.sent, Drives frame ∧
        disableFrame frame.id ∉ after.usb.sent.drop backend.usb.sent.length := by
  refine ⟨joint_accepted, ?_⟩
  have ran : ((machine Platform.wrapping (joints [(1, 0x11)])).run (fun _ _ => true)
      [.operate .connect [], .receive { frame := switchingReply, reply := true }] {}).bind (fun backend =>
        ((machine Platform.wrapping (joints [(1, 0x11)])).step backend (.operate .disconnect [])).map fun after =>
          decide (backend.connected = true ∧ ∃ frame ∈ backend.usb.sent, Drives frame ∧
            disableFrame frame.id ∉ after.usb.sent.drop backend.usb.sent.length)) = some true := by decide +kernel
  obtain ⟨backend, after, reached, moved, connected, frame, member, drives, absent⟩ :=
    Machine.reach_step_checked rfl ran
  exact ⟨backend, after, reached.anything, connected, moved, frame, member, drives, absent⟩

end DmOpenarm.Shutdown
