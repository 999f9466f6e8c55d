import DmOpenarm.Dispatch
import DmOpenarm.Library.Output

/-! The frames that a batch of MIT commands becomes are fixed by the configuration and the
commands. What is received meanwhile does not change them, and a send that throws cuts them short. -/

namespace DmOpenarm.BatchTraffic
open Types hiding ControlMode
open Damiao Registry MotorBus Backend Traffic Operations ReliableBus Dispatch YamlLoader
open Library.FirstWins Library.Effect Library.Runs Library.Output

variable {config : ArmConfig}

/-- The frame that a command for a configured motor becomes. -/
def frameOf (config : ArmConfig) (platform : Platform) (entry : MotorConfig × MitCommand) : Option TxFrame := do
  let motor ← resolve config entry.1.canId
  let limiting ← resolve config (initData config motor).canId
  pure (mitFrame platform (limitParam (initData config limiting).motorType) (initData config motor).canId entry.2)

/-- The frames of a batch, in order. -/
def plan (config : ArmConfig) (platform : Platform) (commands : List MitCommand) : List TxFrame :=
  (config.motors.zip commands).flatMap fun entry => (frameOf config platform entry).toList

def attach (host : Host config.motors.length) : DmSerialBackend config := ⟨some host.control, host.usb⟩

/-- A command for a configured motor is one send of its frame. -/
theorem exec_sendCommand_attach (platform : Platform) (host : Host config.motors.length)
    (built : Built (initData config) host.control) {entry : MotorConfig × MitCommand} (known : entry.1 ∈ config.motors) :
    ∃ frame, frameOf config platform entry = some frame ∧ exec (sendCommand platform entry) (attach host) =
      if host.throwsNext then (.error .usb, attach host.advance) else (.ok (), attach (host.advance.emit frame)) := by
  obtain ⟨index, inside, same⟩ := List.mem_iff_getElem.mp known
  obtain ⟨motor, first⟩ := exists_find?_canId (initData config) ⟨index, inside⟩
  obtain ⟨limiting, second⟩ := exists_find?_canId (initData config) motor
  have canId : (initData config ⟨index, inside⟩).canId = entry.1.canId := by rw [← same]; rfl
  rw [canId] at first
  have resolved : resolve config entry.1.canId = some motor := first
  have limited : resolve config (initData config motor).canId = some limiting := second
  have lookup : exec (lookupMotor entry.1.canId) (attach host) = (.ok (some motor), attach host) := by
    rw [exec_lookupMotor]
    change (Except.ok (host.control.motors.find? entry.1.canId), _) = _
    rw [built.motors, first]
  have again : host.control.motors.find? (host.control.objects motor).canId = some limiting := by
    rw [built.motors, built.canId, second]
  refine ⟨mitFrame platform (limitParam (initData config limiting).motorType) (initData config motor).canId entry.2,
    ?_, ?_⟩
  · rw [frameOf, resolved, Option.bind_eq_bind, Option.bind_some, limited]
    rfl
  · rw [sendCommand, exec_bind_ok lookup]
    change exec (onControl (controlMit platform motor entry.2)) ⟨some host.control, host.usb⟩ = _
    rw [exec_onControl_some, exec_controlMit, again]
    change ((exec (fdcanFrameSend _) host).1, attach (exec (fdcanFrameSend _) host).2) = _
    rw [exec_fdcanFrameSend, built.limits, built.canId]
    cases host.throwsNext with
    | false => rfl
    | true => rfl

theorem frameOf_isSome (platform : Platform) {entry : MotorConfig × MitCommand} (known : entry.1 ∈ config.motors) :
    ∃ frame, frameOf config platform entry = some frame := by
  obtain ⟨frame, same, _⟩ :=
    exec_sendCommand_attach platform ⟨MotorControl.new (initData config) 0, {}⟩ (.new 0) known
  exact ⟨frame, same⟩

/-- A batch has one frame for each motor, in configuration order. -/
theorem plan_get (platform : Platform) {commands : List MitCommand} (same : commands.length = config.motors.length)
    (motor : Fin config.motors.length) : (plan config platform commands)[motor.val]? =
      frameOf config platform (config.motors.get motor, commands.get (motor.cast same.symm)) := by
  have all : ∀ entries : List (MotorConfig × MitCommand), (∀ entry ∈ entries, entry.1 ∈ config.motors) →
      ∀ index : Nat, (entries.flatMap fun entry => (frameOf config platform entry).toList)[index]? =
        entries[index]?.bind (frameOf config platform) := by
    intro entries
    induction entries with
    | nil => exact fun _ _ => rfl
    | cons entry rest ih =>
      intro known index
      obtain ⟨frame, sent⟩ := frameOf_isSome platform (known entry List.mem_cons_self)
      have later := ih fun other member => known other (List.mem_cons_of_mem _ member)
      rw [List.flatMap_cons, sent]
      cases index with
      | zero => exact sent.symm
      | succ index => exact later index
  have here := all (config.motors.zip commands) (fun entry member => (List.of_mem_zip member).1) motor.val
  have inside : motor.val < (config.motors.zip commands).length := by
    rw [List.length_zip, same, Nat.min_self]
    exact motor.isLt
  rw [plan, here, List.getElem?_eq_getElem inside, List.getElem_zip]
  rfl

theorem length_plan (platform : Platform) {commands : List MitCommand} (same : commands.length = config.motors.length) :
    (plan config platform commands).length = config.motors.length := by
  have each : ∀ entry ∈ config.motors.zip commands, ((frameOf config platform entry).toList).length = 1 := by
    intro entry member
    obtain ⟨frame, sent⟩ := frameOf_isSome platform (List.of_mem_zip member).1
    rw [sent]
    rfl
  rw [plan, List.length_flatMap, List.map_congr_left each, List.map_const', List.sum_replicate, List.length_zip, same]
  simp

/-- A motor that owns its CAN ID gets the frame that is meant for it. -/
theorem frameOf_own (platform : Platform) {motor : Fin config.motors.length}
    (own : resolve config (config.motors.get motor).canId = some motor) (command : MitCommand) :
    frameOf config platform (config.motors.get motor, command) =
      some (ownFrame platform (config.motors.get motor) command) := by
  have again : resolve config (initData config motor).canId = some motor := own
  rw [frameOf, own, Option.bind_eq_bind, Option.bind_some, again]
  rfl

/-- The first of the next slots that throws, if one does. -/
def failing (script : List Slot) (count : Nat) : Option Nat := (script.take count).findIdx? Slot.throws

theorem failing_succ (script : List Slot) (count : Nat) : failing script (count + 1) =
    if (script.head?.map Slot.throws).getD false then some 0 else (failing script.tail count).map (· + 1) := by
  cases script with
  | nil => simp [failing]
  | cons slot rest =>
    rw [failing, List.take_succ_cons, List.findIdx?_cons]
    rfl

theorem throwsNext_eq {n : Nat} (host : Host n) :
    host.throwsNext = (host.usb.script.head?.map Slot.throws).getD false := by
  unfold Host.throwsNext
  cases host.usb.script with
  | nil => rfl
  | cons slot rest => rfl

/-- What became of commands that were to be sent one after the other. -/
def Stopped (platform : Platform) (host : Host config.motors.length) (entries : List (MotorConfig × MitCommand))
    (outcome : Except Fault Unit × DmSerialBackend config) : Prop :=
  let frames := entries.flatMap fun entry => (frameOf config platform entry).toList
  match failing host.usb.script entries.length with
  | none => outcome.1 = .ok () ∧ outcome.2.usb.sent = host.usb.sent ++ frames
  | some failed => outcome.1 = .error .usb ∧ outcome.2.usb.sent = host.usb.sent ++ frames.take failed

/-- A batch is sent up to the first slot that throws. -/
theorem sendCommands_stopped (platform : Platform) {entries : List (MotorConfig × MitCommand)}
    (known : ∀ entry ∈ entries, entry.1 ∈ config.motors) (host : Host config.motors.length)
    (built : Built (initData config) host.control) :
    Stopped platform host entries (exec (entries.forM (sendCommand platform)) (attach host)) := by
  induction entries generalizing host with
  | nil =>
    refine ⟨rfl, ?_⟩
    exact (List.append_nil _).symm
  | cons entry rest ih =>
    obtain ⟨frame, becomes, sent⟩ := exec_sendCommand_attach platform host built (known entry List.mem_cons_self)
    obtain ⟨quiet, script⟩ := advance_usb host
    have later := ih (fun other member => known other (List.mem_cons_of_mem _ member)) (host.advance.emit frame)
      (built_advance _ built)
    have unfolded : ((entry :: rest).forM (sendCommand platform) : BackendM config Unit) =
        sendCommand platform entry >>= fun _ => rest.forM (sendCommand platform) := rfl
    unfold Stopped at later ⊢
    rw [List.length_cons, failing_succ, ← throwsNext_eq, List.flatMap_cons, becomes, unfolded]
    rw [show (host.advance.emit frame).usb.script = host.usb.script.tail from script] at later
    cases throws : host.throwsNext with
    | true =>
      rw [throws] at sent
      rw [exec_bind_error sent]
      refine ⟨rfl, ?_⟩
      change host.advance.usb.sent = host.usb.sent ++ []
      rw [quiet, List.append_nil]
    | false =>
      rw [throws] at sent
      rw [exec_bind_ok sent]
      have grown : (host.advance.emit frame).usb.sent = host.usb.sent ++ [frame] := congrArg (· ++ [frame]) quiet
      cases stops : failing host.usb.script.tail rest.length with
      | none =>
        rw [stops] at later
        refine ⟨later.1, later.2.trans ?_⟩
        rw [grown, List.append_assoc]
        rfl
      | some failed =>
        rw [stops] at later
        refine ⟨later.1, later.2.trans ?_⟩
        rw [grown, List.append_assoc]
        rfl

theorem attach_of_connected {backend : DmSerialBackend config} (connected : backend.connected = true) :
    ∃ host : Host config.motors.length, backend = attach host := by
  rcases backend with ⟨_ | control, usb⟩
  · cases connected
  · exact ⟨⟨control, usb⟩, rfl⟩

theorem exec_sendMitAll_attach (platform : Platform) {commands : List MitCommand}
    (same : commands.length = config.motors.length) (host : Host config.motors.length) :
    exec (sendMitAll platform commands) (attach host) =
      exec ((config.motors.zip commands).forM (sendCommand platform)) (attach host) := by
  have ready : exec requireConnected (attach host) = (.ok (), attach host) := exec_requireConnected _
  rw [sendMitAll, exec_bind_ok ready, if_neg (not_not.mpr same)]

theorem sendMitAll_stopped (platform : Platform) {commands : List MitCommand}
    (same : commands.length = config.motors.length) (host : Host config.motors.length)
    (built : Built (initData config) host.control) :
    match failing host.usb.script config.motors.length with
    | none => (exec (sendMitAll platform commands) (attach host)).1 = .ok () ∧
        (exec (sendMitAll platform commands) (attach host)).2.usb.sent = host.usb.sent ++ plan config platform commands
    | some failed => (exec (sendMitAll platform commands) (attach host)).1 = .error .usb ∧
        (exec (sendMitAll platform commands) (attach host)).2.usb.sent =
          host.usb.sent ++ (plan config platform commands).take failed := by
  have known : ∀ entry ∈ config.motors.zip commands, entry.1 ∈ config.motors :=
    fun entry member => (List.of_mem_zip member).1
  have stopped := sendCommands_stopped platform known host built
  rw [← exec_sendMitAll_attach platform same, Stopped, List.length_zip, same, Nat.min_self] at stopped
  exact stopped

/-- Whatever is received meanwhile, a batch is sent as the frames that its commands stand for, up
to the first send that throws, and it returns if there is none. -/
theorem batch_stops_at_failure (platform : Platform) {backend : DmSerialBackend config}
    (reached : Reach (machine platform config) Anything backend) (connected : backend.connected = true)
    {commands : List MitCommand} (same : commands.length = config.motors.length) (script : List Slot) :
    (plan config platform commands).length = config.motors.length ∧
      match failing script config.motors.length with
      | none => (exec (sendMitAll platform commands) (backend.withScript script)).1 = .ok () ∧
          (exec (sendMitAll platform commands) (backend.withScript script)).2.usb.sent =
            backend.usb.sent ++ plan config platform commands
      | some failed => (exec (sendMitAll platform commands) (backend.withScript script)).1 = .error .usb ∧
          (exec (sendMitAll platform commands) (backend.withScript script)).2.usb.sent =
            backend.usb.sent ++ (plan config platform commands).take failed := by
  refine ⟨length_plan platform same, ?_⟩
  obtain ⟨host, rfl⟩ := attach_of_connected connected
  have built : Built (initData config) host.control := reach_built reached _ rfl
  exact sendMitAll_stopped platform same (host.withScript script) built

/-- The second of two sends throws. -/
theorem joints_cut_short : ∃ backend : DmSerialBackend (joints [(1, 0x11), (2, 0x12)]),
    backend.connected = true ∧
      (exec (sendMitAll Platform.wrapping [{}, {}]) (backend.withScript [{}, { throws := true }])).1 = .error .usb ∧
      (exec (sendMitAll Platform.wrapping [{}, {}]) (backend.withScript [{}, { throws := true }])).2.usb.sent =
        backend.usb.sent ++ (plan (joints [(1, 0x11), (2, 0x12)]) Platform.wrapping [{}, {}]).take 1 := by
  obtain ⟨backend, reached, connected⟩ := exists_connected Platform.wrapping (joints [(1, 0x11), (2, 0x12)])
  have same : [({} : MitCommand), {}].length = (joints [(1, 0x11), (2, 0x12)]).motors.length := rfl
  have cut := (batch_stops_at_failure Platform.wrapping reached connected same [{}, { throws := true }]).2
  exact ⟨backend, connected, cut⟩

end DmOpenarm.BatchTraffic
