import DmOpenarm.Dispatch
import DmOpenarm.Examples
import DmOpenarm.Zeroing

/-! How the example programs end: with an arm that is no longer connected, after every motor that
was driven has been disabled, unless the process ends on the spot. -/

namespace DmOpenarm.ExampleExits
open Types hiding ControlMode
open Damiao MotorBus Backend Traffic Operations Faults ReliableBus Shutdown ZeroIds Zeroing Dispatch YamlLoader ArmMitControl Examples
open Library.Effect Library.Ieee

variable {config : ArmConfig} (platform : Platform)

theorem pause_follows : Follows (service config) pause := by
  apply Follows.modify
  intro backend _
  rcases backend with ⟨_ | control, usb⟩
  · exact .refl
  · exact .single (.bus (.wait ⟨control, usb⟩))

theorem ofExcept_follows {α : Type} (outcome : Except Fault α) :
    Follows (service config) (MonadExcept.ofExcept outcome : BackendM config α) := by
  cases outcome with
  | error fault => exact .throw fault
  | ok value => exact .pure value

theorem readStates_follows : Follows (service config) readStates := by
  apply pause_follows.bind
  intro _
  apply Follows.get_bind
  intro backend built
  exact ofExcept_follows _ backend built

theorem sendZeroMitAll_follows : Follows (service config) (sendZeroMitAll platform) :=
  sendMitAll_follows platform _

theorem handleLines_follows (outOfRange : ℚ → Bool) (lines : List String)
    (session : Session config.motors.length) : Follows (service config) (handleLines outOfRange lines session) := by
  induction lines generalizing session with
  | nil => exact .pure session
  | cons line rest ih =>
    apply pause_follows.bind
    intro _
    apply Follows.get_bind
    intro backend built
    exact ih _ backend built

theorem controlLoop_follows (outOfRange : ℚ → Bool) (narrowing : Narrowing) (turns : List (List (List Char)))
    (session : Session config.motors.length) :
    Follows (service config) (controlLoop platform outOfRange narrowing turns session) := by
  induction turns generalizing session with
  | nil => exact .pure session
  | cons chunks later ih =>
    rw [controlLoop]
    cases session.running with
    | false => exact .pure session
    | true =>
      apply (handleLines_follows outOfRange _ _).bind
      intro handled
      apply (sendMitAll_follows platform _).bind
      intro _
      apply pause_follows.bind
      intro _
      exact ih _

/-- What an example does of its own neither connects nor disconnects. -/
theorem part_follows (program : Example) : Follows (service config) (program.part platform) := by
  cases program with
  | enableDisable => exact (sendZeroMitAll_follows platform).bind fun _ => pause_follows
  | checkComm =>
    apply Follows.forM
    intro _ _
    apply (sendZeroMitAll_follows platform).bind
    intro _
    exact readStates_follows.bind fun _ => pause_follows
  | holdPosition turns =>
    apply (sendZeroMitAll_follows platform).bind
    intro _
    apply pause_follows.bind
    intro _
    apply readStates_follows.bind
    intro reported
    apply Follows.forM
    intro _ _
    apply (sendMitAll_follows platform _).bind
    intro _
    exact readStates_follows.bind fun _ => pause_follows
  | setZeroPosition target persist =>
    apply (sendZeroMitAll_follows platform).bind
    intro _
    apply pause_follows.bind
    intro _
    apply readStates_follows.bind
    intro _
    apply (ofExcept_follows _).bind
    intro canIds
    apply Follows.bind
    · apply Follows.forM
      intro canId _
      exact setZero_follows platform canId persist
    intro _
    apply (sendZeroMitAll_follows platform).bind
    intro _
    apply pause_follows.bind
    intro _
    exact readStates_follows.bind fun _ => .pure _
  | armMitControl outOfRange narrowing fifo turns =>
    apply (sendZeroMitAll_follows platform).bind
    intro _
    apply pause_follows.bind
    intro _
    apply readStates_follows.bind
    intro reported
    cases fifo with
    | error what => exact .throw _
    | ok _ => exact (controlLoop_follows platform outOfRange narrowing turns _).bind fun _ => .pure _

variable {platform}

theorem exec_disconnect_idle (usb : Usb) :
    exec (disconnect platform) (⟨none, usb⟩ : DmSerialBackend config) = (.ok (), ⟨none, usb⟩) := rfl

/-- A destructor ends the process, or it has disconnected the arm. -/
theorem destroyArm_cases (platform : Platform) (backend : DmSerialBackend config) :
    (∃ last, exec (destroyArm platform) backend = (.error .terminate, last)) ∨
      ∃ usb, exec (disconnect platform) backend = (.ok (), ⟨none, usb⟩) ∧
        exec (destroyArm platform) backend = (.ok (), ⟨none, usb⟩) := by
  rcases disconnect_cases platform backend with ended | ⟨usb, returned⟩
  · rcases outcome : exec (disconnect platform) backend with ⟨fault | _, last⟩
    · rw [outcome] at ended
      cases ended
      exact .inl ⟨last, by rw [destroyArm, exec_bind_error outcome]⟩
    · rw [outcome] at ended
      cases ended
  · refine .inr ⟨usb, returned, ?_⟩
    rw [destroyArm, exec_bind_ok returned]
    exact exec_disconnect_idle usb

/-- A block of an arm that ends without ending the process has had its arm disconnected last. -/
theorem withArm_ended {block : BackendM config Unit} {start after : DmSerialBackend config}
    {result : Except Fault Unit} (ran : exec (withArm platform block) start = (result, after))
    {usbStandard : Bool} (alive : exitStatus usbStandard result ≠ none) :
    ∃ middle usb, exec block start = (result, middle) ∧ exec (disconnect platform) middle = (.ok (), ⟨none, usb⟩) ∧
      after = ⟨none, usb⟩ := by
  rw [withArm, exec_bind, exec_tryCatch] at ran
  rcases outcome : exec block start with ⟨fault | done, middle⟩
  · rw [outcome] at ran
    cases fatal : fault.fatal with
    | true =>
      simp only [fatal, ↓reduceIte] at ran
      cases ran
      exact absurd (by simp [exitStatus, fatal]) alive
    | false =>
      simp only [fatal, Bool.false_eq_true, ↓reduceIte] at ran
      rcases destroyArm_cases platform middle with ⟨last, ended⟩ | ⟨usb, first, destroyed⟩
      · rw [exec_bind_error ended] at ran
        cases ran
        exact absurd rfl alive
      · rw [exec_bind_ok destroyed] at ran
        cases ran
        exact ⟨middle, usb, rfl, first, rfl⟩
  · rw [outcome] at ran
    change exec (destroyArm platform) middle = (result, after) at ran
    rcases destroyArm_cases platform middle with ⟨last, ended⟩ | ⟨usb, first, destroyed⟩
    · rw [ended] at ran
      cases ran
      exact absurd rfl alive
    · rw [destroyed] at ran
      cases ran
      exact ⟨middle, usb, rfl, first, rfl⟩

/-- A frame that neither moves a motor nor changes what it keeps. -/
def Plain (frame : TxFrame) : Prop := frame.kind ≠ .mit ∧ ¬Lasting frame

/-- Connecting sends plain frames only, and keeps nothing if it throws. -/
theorem connect_plain {usb : Usb} {result : Except Fault Unit} {after : DmSerialBackend config}
    (ran : exec (connect platform) ⟨none, usb⟩ = (result, after)) :
    (∀ frame ∈ after.usb.sent, Plain frame) ∧ ∀ fault, result = .error fault → after.control = none := by
  have unconnected : ¬(⟨none, usb⟩ : DmSerialBackend config).connected = true := Bool.false_ne_true
  rw [connect, exec_get_bind, if_neg unconnected, exec_modify_bind, exec_tryCatch, exec_onControl_some] at ran
  have enables : Follows (sending (initData config) Plain) (usleep >>= fun _ => enableAll platform) := by
    apply usleep_sends.bind
    intro _
    apply enableAll_sends
    · simp [Plain, Lasting, registerFrame]
    · simp [Plain, Lasting, registerFrame]
    · simp [Plain, Lasting, commandBytes]
  have path := enables ⟨MotorControl.new (initData config) usb.clock, { usb with sent := [], received := [] }⟩ (.new _)
  rcases outcome : exec (usleep >>= fun _ => enableAll platform)
      (Host.mk (MotorControl.new (initData config) usb.clock) { usb with sent := [], received := [] })
    with ⟨raised | _, host⟩
  · rw [outcome] at ran path
    obtain ⟨added, grown, each⟩ := sent_path path
    have same : host.usb.sent = added := grown
    cases ran
    exact ⟨same ▸ each, fun _ _ => rfl⟩
  · rw [outcome] at ran path
    obtain ⟨added, grown, each⟩ := sent_path path
    have same : host.usb.sent = added := grown
    cases ran
    refine ⟨same ▸ each, ?_⟩
    intro fault thrown
    cases thrown

theorem idle_consistent (usb : Usb) : Consistent (⟨none, usb⟩ : DmSerialBackend config) := by
  intro control same
  cases same

/-- An example that ends without ending the process: connecting has thrown, or what it was doing
when it ended left an arm that was then disconnected. -/
theorem runArm_ended {part : BackendM config Unit} {usb : Usb} {result : Except Fault Unit}
    {after : DmSerialBackend config} (ran : exec (runArm platform part) ⟨none, usb⟩ = (result, after))
    {usbStandard : Bool} (alive : exitStatus usbStandard result ≠ none) :
    (∃ fault, exec (connect platform) ⟨none, usb⟩ = (.error fault, after) ∧ result = .error fault) ∨
      ∃ start middle, exec (connect platform) ⟨none, usb⟩ = (.ok (), start) ∧ exec part start = (result, middle) ∧
        exec (disconnect platform) middle = (.ok (), after) := by
  obtain ⟨left, last, inside, released, rfl⟩ := withArm_ended ran alive
  rcases connected : exec (connect platform) ⟨none, usb⟩ with ⟨fault | _, start⟩
  · rw [exec_bind_error connected] at inside
    cases inside
    have idle := (connect_plain connected).2 fault rfl
    rcases left with ⟨_ | control, usb⟩
    · rw [exec_disconnect_idle] at released
      cases released
      exact .inl ⟨fault, rfl, rfl⟩
    · cases idle
  · rw [exec_bind_ok connected] at inside
    rcases done : exec part start with ⟨fault | _, middle⟩
    · rw [exec_bind_error done] at inside
      cases inside
      exact .inr ⟨start, left, rfl, done, released⟩
    · rw [exec_bind_ok done] at inside
      rcases disconnect_cases platform middle with ended | ⟨usb, returned⟩
      · rw [inside] at ended
        cases ended
        exact absurd rfl alive
      · rw [returned] at inside
        cases inside
        rw [exec_disconnect_idle] at released
        cases released
        exact .inr ⟨start, middle, rfl, done, returned⟩

/-- The frames end with a part that drives nothing, and in which every motor that was driven
before is disabled. -/
def SwitchedOff (sent : List TxFrame) : Prop :=
  ∃ driven disables, sent = driven ++ disables ∧ (∀ frame ∈ disables, ¬Drives frame) ∧
    ∀ frame ∈ driven, Drives frame → disableFrame frame.id ∈ disables

theorem disableAll_sends {n : Nat} {data : Fin n → DmActData} {allowed : TxFrame → Prop}
    (disables : ∀ id, allowed (disableFrame id)) : Follows (sending data allowed) (disableAll platform) := by
  apply Follows.after_read (exec_registered platform)
  intro motors
  apply Follows.forM
  intro motor _
  apply fiveTimes_sends
  exact (command_sends motor 0xFD disables).bind fun _ => usleep_sends

theorem disableFrame_rests (id : Id) : ¬Drives (disableFrame id) := by
  simp [Drives, disableFrame, commandBytes]

/-- A disconnect that returns disables what was driven, unless a reply has switched a mode. -/
theorem disconnect_switches_off {control : MotorControl config.motors.length} {usb : Usb}
    {after : DmSerialBackend config} (built : Built (initData config) control)
    (keeps : KeepsMit (⟨some control, usb⟩ : DmSerialBackend config))
    (returned : exec (disconnect platform) ⟨some control, usb⟩ = (.ok (), after))
    (calm : Undisturbed (initData config) after.usb) : SwitchedOff after.usb.sent := by
  have moved : act platform ⟨some control, usb⟩ (.operate .disconnect usb.script) = some after := by
    change survive (exec (disconnect platform) ⟨some control, usb⟩) = some after
    rw [returned]
    rfl
  obtain ⟨host, disabled, rfl⟩ := disconnect_returned moved
  change exec (disableAll platform) ⟨control, usb⟩ = (.ok (), host) at disabled
  have quiet : Follows (sending (initData config) fun frame => ¬Drives frame) (disableAll platform) :=
    disableAll_sends disableFrame_rests
  have sends := quiet ⟨control, usb⟩ built
  have whole := disableAll_follows platform ⟨control, usb⟩ built
  rw [disabled] at sends whole
  obtain ⟨disables, grown, rests⟩ := sent_path sends
  refine ⟨usb.sent, disables, grown, rests, ?_⟩
  intro frame member drives
  have before : Undisturbed (initData config) usb := undisturbed_earlier (path_logs whole).2 calm
  obtain ⟨motor, registered, target⟩ := (keeps control rfl before).driven frame member drives
  obtain ⟨middle, start, rest⟩ := disableAll_visits platform built disabled registered
  have middleCalm := undisturbed_earlier ((advance_received middle).trans (path_logs rest).2) calm
  have still := (bus (initData config)).keeps _ (fun _ _ built step => primitive_allMit built step) start built
    (keeps control rfl)
  rw [(still.2 middleCalm).modes, add_offset_mit, ← target] at rest
  have earlier := (path_logs start).1
  have later := (path_logs rest).1
  change middle.advance.usb.sent ++ [_] <+: host.usb.sent at later
  rw [(advance_usb middle).1] at later
  have found := mem_drop_of_grown earlier later
  rw [grown, List.drop_left] at found
  exact found

/-- Whatever the USB library throws, an example that does not end the process on the spot leaves its arm
disconnected and every motor that it drove disabled, however it ends. If connecting throws it has sent no MIT
command. -/
theorem examples_switch_off (program : Example) {usb : Usb} {result : Except Fault Unit}
    {after : DmSerialBackend config} (ran : exec (program.main platform) ⟨none, usb⟩ = (result, after))
    {usbStandard : Bool} (alive : exitStatus usbStandard result ≠ none) :
    after.connected = false ∧
      ((∃ fault, exec (connect platform) ⟨none, usb⟩ = (.error fault, after) ∧ result = .error fault ∧
          ∀ frame ∈ after.usb.sent, frame.kind ≠ .mit) ∨
        (Undisturbed (initData config) after.usb → SwitchedOff after.usb.sent)) := by
  rcases runArm_ended ran alive with ⟨fault, threw, same⟩ | ⟨start, middle, connected, done, released⟩
  · obtain ⟨plain, idle⟩ := connect_plain threw
    refine ⟨?_, .inl ⟨fault, threw, same, fun frame member => (plain frame member).1⟩⟩
    rw [DmSerialBackend.connected, idle fault rfl]
    rfl
  · obtain ⟨consistent, host, rfl⟩ := connect_returned connected
    have connects := connect_follows platform (⟨none, usb⟩ : DmSerialBackend config) (idle_consistent usb)
    have serves := part_follows platform program ⟨some host.control, host.usb⟩ consistent
    rw [connected] at connects
    rw [done] at serves
    have kept := (serial config).keeps KeepsMit (fun _ _ built move => KeepsMit.move built move) connects
      (idle_consistent usb) (keepsMit_idle rfl)
    have later := (service config).keeps KeepsMit (fun _ _ built step => KeepsMit.move built (.exchange step)) serves
      kept.1 kept.2
    have still := service_connected consistent serves
    rcases middle with ⟨_ | control, usb⟩
    · cases still
    · have idle : after.connected = false := by
        rcases disconnect_cases platform (⟨some control, usb⟩ : DmSerialBackend config) with ended | ⟨_, returned⟩
        · rw [released] at ended
          cases ended
        · rw [released] at returned
          cases returned
          rfl
      exact ⟨idle, .inr (disconnect_switches_off (later.1 control rfl) later.2 released)⟩

theorem returned_of_status {outcome : Except Fault Unit × DmSerialBackend config} {usbStandard : Bool}
    (status : exitStatus usbStandard outcome.1 = some 0) : ∃ after, outcome = (.ok (), after) := by
  rcases outcome with ⟨fault | _, after⟩
  · rw [exitStatus] at status
    split at status
    · cases status
    · cases status
  · exact ⟨after, rfl⟩

theorem joint_switched_off : ∃ after : DmSerialBackend (joints [(1, 0x11)]),
    exec (Example.main Platform.wrapping (.holdPosition 2)) ⟨none, {}⟩ = (.ok (), after) ∧
      after.connected = false ∧ SwitchedOff after.usb.sent := by
  have ran : exitStatus true (exec (Example.main Platform.wrapping (.holdPosition 2))
        (⟨none, {}⟩ : DmSerialBackend (joints [(1, 0x11)]))).1 = some 0 ∧
      (exec (Example.main Platform.wrapping (.holdPosition 2))
        (⟨none, {}⟩ : DmSerialBackend (joints [(1, 0x11)]))).2.usb.received.length = 0 := by decide +kernel
  obtain ⟨after, returned⟩ := returned_of_status ran.1
  rw [returned] at ran
  have orderly : exitStatus true (.ok ()) ≠ none := by simp [exitStatus]
  obtain ⟨idle, ⟨_, _, failed, _⟩ | switches⟩ := examples_switch_off (.holdPosition 2) returned orderly
  · cases failed
  · exact ⟨after, returned, idle, switches (undisturbed_of_silent _ (List.eq_nil_of_length_eq_zero ran.2))⟩

/-- A connected arm on a bus where no send throws. -/
def Ready (backend : DmSerialBackend config) : Prop :=
  ∃ host : Host config.motors.length, backend = ⟨some host.control, host.usb⟩ ∧ Steady (initData config) host

theorem pause_succeeds : Succeeds Ready (pause : BackendM config Unit) := by
  apply Succeeds.modify
  intro backend ready
  obtain ⟨host, rfl, built, reliable⟩ := ready
  exact ⟨host.advance, rfl, built_advance _ built, reliable_advance reliable⟩

theorem states_ready {backend : DmSerialBackend config} (ready : Ready backend) : ∃ reported, states backend = .ok reported := by
  obtain ⟨host, rfl, built, _⟩ := ready
  have read (motor : Fin config.motors.length) :
      ∃ state, readState host.control (config.motors.get motor) = .ok state := by
    obtain ⟨found, lookup⟩ := Registry.exists_find?_canId (initData config) motor
    have here : host.control.getMotor (config.motors.get motor).canId = some found := (getMotor_eq built _).trans lookup
    exact ⟨_, by rw [readState, here]⟩
  choose state each using read
  exact ⟨_, mapM_ok each⟩

theorem readStates_succeeds : Succeeds Ready (readStates : BackendM config (List MotorState)) := by
  apply pause_succeeds.bind
  intro _
  apply Succeeds.get_bind
  intro backend ready state same
  obtain ⟨reported, read⟩ := states_ready ready
  exact ⟨reported, state, by rw [read]; rfl, same⟩

theorem sendCommand_succeeds (platform : Platform) {entry : MotorConfig × MitCommand} (known : entry.1 ∈ config.motors) :
    Succeeds Ready (sendCommand platform entry : BackendM config Unit) := by
  intro backend ready
  obtain ⟨host, rfl, built, reliable⟩ := ready
  obtain ⟨_, after, sent, _, _, still, script⟩ :=
    exec_sendCommand platform (constructed_of_built built) (.refl _) (reliable.take 1) known
  refine ⟨(), _, sent, after, rfl, built.of_same still, ?_⟩
  rw [script]
  exact fun slot member => reliable slot (List.mem_of_mem_tail member)

theorem sendMitAll_succeeds (platform : Platform) {commands : List MitCommand}
    (same : commands.length = config.motors.length) : Succeeds Ready (sendMitAll platform commands : BackendM config Unit) := by
  have ready : Succeeds Ready (requireConnected : BackendM config Unit) := by
    intro backend given
    obtain ⟨host, rfl, steady⟩ := given
    exact ⟨(), _, exec_requireConnected _, host, rfl, steady⟩
  apply ready.bind
  intro _
  rw [if_neg (not_not.mpr same)]
  apply Succeeds.forM
  intro entry member
  exact sendCommand_succeeds platform (List.of_mem_zip member).1

theorem sendZeroMitAll_succeeds (platform : Platform) : Succeeds Ready (sendZeroMitAll platform : BackendM config Unit) :=
  sendMitAll_succeeds platform List.length_replicate

theorem disableAll_succeeds {n : Nat} {data : Fin n → DmActData} (platform : Platform) :
    Succeeds (Steady data) (disableAll platform) := by
  refine Succeeds.read_bind (exec_registered platform) fun motors => ?_
  apply Succeeds.forM
  intro motor _
  exact fiveTimes_succeeds ((command_succeeds motor 0xFD).bind fun _ => usleep_succeeds)

theorem disconnect_ready (platform : Platform) {backend : DmSerialBackend config} (ready : Ready backend) :
    ∃ usb, exec (disconnect platform) backend = (.ok (), ⟨none, usb⟩) := by
  rcases disconnect_cases platform backend with ended | returned
  · obtain ⟨host, rfl, steady⟩ := ready
    obtain ⟨_, last, disabled, _⟩ := disableAll_succeeds platform host steady
    have connected : (⟨some host.control, host.usb⟩ : DmSerialBackend config).connected = true := rfl
    rw [disconnect, exec_get_bind, if_pos connected, exec_bind, exec_tryCatch, exec_onControl_some, disabled] at ended
    cases ended
  · exact returned

theorem setZero_ready (platform : Platform) (canId : Id) (persist : Bool) :
    if (resolve config canId).isSome then Succeeds Ready (setZero platform canId persist : BackendM config Unit)
    else Fails Ready unregistered (setZero platform canId persist : BackendM config Unit) := by
  have lookup {host : Host config.motors.length} (built : Built (initData config) host.control) :
      host.control.getMotor canId = resolve config canId := getMotor_eq built canId
  cases found : resolve config canId with
  | none =>
    simp only [Option.isSome_none, Bool.false_eq_true, ↓reduceIte]
    intro backend ready
    obtain ⟨host, rfl, steady⟩ := ready
    refine ⟨_, ?_, host, rfl, steady⟩
    rw [exec_setZero, lookup steady.1, found]
    rfl
  | some motor =>
    simp only [Option.isSome_some, ↓reduceIte]
    intro backend ready
    obtain ⟨host, rfl, steady⟩ := ready
    obtain ⟨_, last, returned, after⟩ := zeroMotor_succeeds platform motor persist host steady
    refine ⟨(), ⟨some last.control, last.usb⟩, ?_, last, rfl, after⟩
    rw [exec_setZero, lookup steady.1, found]
    dsimp only
    rw [exec_onControl_some, returned]

/-- Motors are zeroed one after the other, up to the first identifier that leads to none. -/
theorem setZeros_ready (platform : Platform) (canIds : List Id) (persist : Bool) :
    if canIds.all (fun canId => (resolve config canId).isSome) then
      Succeeds Ready (canIds.forM fun canId => setZero platform canId persist : BackendM config Unit)
    else Fails Ready unregistered (canIds.forM fun canId => setZero platform canId persist : BackendM config Unit) := by
  induction canIds with
  | nil => exact .pure _
  | cons canId rest ih =>
    have first := @setZero_ready config platform canId persist
    rw [List.all_cons]
    cases known : (resolve config canId).isSome with
    | false =>
      rw [known] at first
      exact Fails.bind first _
    | true =>
      rw [known] at first
      rw [Bool.true_and]
      split at ih
      · rename_i all
        rw [if_pos all]
        exact Succeeds.bind first fun _ => ih
      · rename_i missing
        rw [if_neg missing]
        exact Fails.after first fun _ => ih

/-- What the example is given makes sense for the arm. -/
def sensible (config : ArmConfig) : Example → Bool
  | .setZeroPosition target _ =>
      match targetIds config target with
      | .ok canIds => canIds.all fun canId => (resolve config canId).isSome
      | .error _ => false
  | .armMitControl _ _ (.error _) _ => false
  | _ => true

theorem length_of_mapM {α β : Type} {items : List α} {compute : α → Except Fault β} {results : List β}
    (computed : items.mapM compute = .ok results) : results.length = items.length := by
  induction items generalizing results with
  | nil =>
    cases computed
    rfl
  | cons item rest ih =>
    rw [List.mapM_cons, bind_eq_ok] at computed
    obtain ⟨first, _, others⟩ := computed
    rw [bind_eq_ok] at others
    obtain ⟨later, finished, same⟩ := others
    rw [pure_eq_ok] at same
    subst same
    rw [List.length_cons, List.length_cons, ih finished]

/-- The states have one entry for each configured motor. -/
theorem states_length {backend : DmSerialBackend config} {reported : List MotorState}
    (read : states backend = .ok reported) : reported.length = config.motors.length := by
  rcases backend with ⟨_ | control, usb⟩
  · cases read
  · exact length_of_mapM read

/-- Reading the states, and what follows it when they have an entry for each motor. -/
theorem readStates_bind_succeeds {next : List MotorState → BackendM config Unit}
    (rest : ∀ reported, reported.length = config.motors.length → Succeeds Ready (next reported)) :
    Succeeds Ready (readStates >>= next) := by
  intro backend ready
  obtain ⟨_, middle, paused, later⟩ := pause_succeeds backend ready
  obtain ⟨reported, read⟩ := states_ready later
  have shown : exec readStates backend = (.ok reported, middle) := by
    rw [readStates, exec_bind_ok paused, exec_get_bind, read]
    rfl
  rw [exec_bind_ok shown]
  exact rest reported (states_length read) middle later

theorem handleLines_succeeds (outOfRange : ℚ → Bool) (lines : List String) (session : Session config.motors.length) :
    Succeeds Ready (handleLines outOfRange lines session) := by
  induction lines generalizing session with
  | nil => exact .pure session
  | cons line rest ih =>
    apply pause_succeeds.bind
    intro _
    apply Succeeds.get_bind
    intro backend _
    exact ih _

theorem controlLoop_succeeds (platform : Platform) (outOfRange : ℚ → Bool) (narrowing : Narrowing)
    (turns : List (List (List Char))) (session : Session config.motors.length) :
    Succeeds Ready (controlLoop platform outOfRange narrowing turns session) := by
  induction turns generalizing session with
  | nil => exact .pure session
  | cons chunks later ih =>
    rw [controlLoop]
    cases session.running with
    | false => exact .pure session
    | true =>
      apply (handleLines_succeeds outOfRange _ _).bind
      intro handled
      have complete : (batch narrowing handled).length = config.motors.length := List.length_ofFn
      apply (sendMitAll_succeeds platform complete).bind
      intro _
      apply pause_succeeds.bind
      intro _
      exact ih _

/-- A fault that main() catches, whatever the USB library throws. -/
def Caught (fault : Fault) : Prop := fault.fatal = false ∧ fault ≠ .usb

theorem targetIds_caught {target : String} {fault : Fault} (refused : targetIds config target = .error fault) :
    Caught fault := by
  unfold targetIds at refused
  split at refused
  · cases refused
  · rcases parsed : Examples.parseCanId target with raised | canId
    · rw [parsed] at refused
      cases refused
      unfold Examples.parseCanId CommandLine.parseCanId at parsed
      split at parsed
      · cases parsed
        exact ⟨rfl, Fault.noConfusion⟩
      split at parsed
      · cases parsed
        exact ⟨rfl, Fault.noConfusion⟩
      · cases parsed
    · rw [parsed] at refused
      cases refused

/-- On a bus where no send throws, an example fails only for what it is given. -/
theorem part_ready (platform : Platform) (program : Example) :
    if sensible config program then Succeeds Ready (program.part platform : BackendM config Unit)
    else ∃ fault, Caught fault ∧ Fails Ready fault (program.part platform : BackendM config Unit) := by
  have zero : Succeeds Ready (sendZeroMitAll platform : BackendM config Unit) := sendZeroMitAll_succeeds platform
  cases program with
  | enableDisable => exact zero.bind fun _ => pause_succeeds
  | checkComm =>
    apply Succeeds.forM
    intro _ _
    apply zero.bind
    intro _
    exact readStates_succeeds.bind fun _ => pause_succeeds
  | holdPosition turns =>
    apply zero.bind
    intro _
    apply pause_succeeds.bind
    intro _
    apply readStates_bind_succeeds
    intro reported complete
    apply Succeeds.forM
    intro _ _
    have held : (holdCommands reported).length = config.motors.length := by rw [holdCommands, List.length_map, complete]
    apply (sendMitAll_succeeds platform held).bind
    intro _
    exact readStates_succeeds.bind fun _ => pause_succeeds
  | setZeroPosition target persist =>
    have ends : Succeeds Ready (sendZeroMitAll platform >>= fun _ => pause >>= fun _ => readStates >>= fun _ =>
        pure () : BackendM config Unit) :=
      zero.bind fun _ => pause_succeeds.bind fun _ => readStates_succeeds.bind fun _ => .pure _
    rw [sensible]
    cases targets : targetIds config target with
    | error fault =>
      refine ⟨fault, targetIds_caught targets, ?_⟩
      refine Fails.after zero fun _ => Fails.after pause_succeeds fun _ => Fails.after readStates_succeeds fun _ => ?_
      rw [targets]
      exact Fails.bind .throw _
    | ok canIds =>
      have zeroes := @setZeros_ready config platform canIds persist
      dsimp only
      split at zeroes
      · rename_i all
        rw [if_pos all]
        refine zero.bind fun _ => pause_succeeds.bind fun _ => readStates_succeeds.bind fun _ => ?_
        rw [targets]
        exact zeroes.bind fun _ => ends
      · rename_i missing
        rw [if_neg missing]
        refine ⟨unregistered, ⟨rfl, Fault.noConfusion⟩, ?_⟩
        refine Fails.after zero fun _ => Fails.after pause_succeeds fun _ => Fails.after readStates_succeeds fun _ => ?_
        rw [targets]
        exact zeroes.bind _
  | armMitControl outOfRange narrowing fifo turns =>
    cases fifo with
    | error what =>
      refine ⟨.runtimeError what, ⟨rfl, Fault.noConfusion⟩, ?_⟩
      apply Fails.after zero
      intro _
      apply Fails.after pause_succeeds
      intro _
      exact Fails.after readStates_succeeds fun _ => .throw
    | ok _ =>
      apply zero.bind
      intro _
      apply pause_succeeds.bind
      intro _
      apply readStates_succeeds.bind
      intro reported
      exact (controlLoop_succeeds platform outOfRange narrowing turns _).bind fun _ => .pure _

/-- On a bus where no send throws every example ends in order, with status 0 if what it is given
makes sense for the arm and 1 if not. -/
theorem exit_on_reliable_bus (platform : Platform) (usbStandard : Bool) (program : Example) {usb : Usb}
    (reliable : Reliable usb.script) :
    exitStatus usbStandard (exec (program.main platform) (⟨none, usb⟩ : DmSerialBackend config)).1 =
      some (if sensible config program then 0 else 1) := by
  obtain ⟨host, enabled, connected⟩ := @connect_reliable config platform usb reliable
  have ready : Ready (⟨some host.control, host.usb⟩ : DmSerialBackend config) := by
    have succeeds : Succeeds (Steady (initData config)) (usleep >>= fun _ => enableAll platform) :=
      usleep_succeeds.bind fun _ => enableAll_succeeds platform
    obtain ⟨_, after, returned, steady⟩ := succeeds
      ⟨MotorControl.new (initData config) usb.clock, { usb with sent := [], received := [] }⟩ ⟨.new _, reliable⟩
    rw [enabled] at returned
    cases returned
    exact ⟨host, rfl, steady⟩
  have outcome := @part_ready config platform program
  rw [Example.main, runArm, withArm, exec_bind, exec_tryCatch, exec_bind_ok connected]
  split at outcome
  · rename_i given
    obtain ⟨_, middle, done, kept⟩ := outcome _ ready
    obtain ⟨last, released⟩ := disconnect_ready platform kept
    rw [exec_bind_ok done, released, if_pos given]
    rfl
  · rename_i given
    obtain ⟨fault, ⟨mild, plain⟩, fails⟩ := outcome
    obtain ⟨middle, threw, kept⟩ := fails _ ready
    obtain ⟨last, released⟩ := disconnect_ready platform kept
    rw [exec_bind_error threw, if_neg given]
    dsimp only
    have goesOn : ¬fault.fatal = true := Bool.eq_false_iff.mp mild
    have destroyed : exec (destroyArm platform) middle = (.ok (), ⟨none, last⟩) := by
      rw [destroyArm, exec_bind_ok released]
      exact exec_disconnect_idle last
    rw [if_neg goesOn, exec_bind_ok destroyed]
    change exitStatus usbStandard (.error fault) = some 1
    simp [exitStatus, mild, plain]

/-- 7 is the CAN ID of no motor. -/
theorem joint_refused : exitStatus false (exec (Example.main Platform.wrapping (.setZeroPosition "7" true))
    (⟨none, {}⟩ : DmSerialBackend (joints [(1, 0x11)]))).1 = some 1 := by
  have strange : sensible (joints [(1, 0x11)]) (.setZeroPosition "7" true) = false := by decide +kernel
  rw [exit_on_reliable_bus Platform.wrapping false (.setZeroPosition "7" true) (by simp [Reliable]), strange]
  rfl

end DmOpenarm.ExampleExits
