import DmOpenarm.SessionWire
import DmOpenarm.Zeroing

/-! MIT commands go to motors that are enabled. Connecting enables every motor, and a persistent zeroing
that is not cut short enables them all again. Until it has done so its motor is disabled, and nothing in the
source keeps a running loop from commanding it. -/

namespace DmOpenarm.EnabledMotors
open Types hiding ControlMode
open Damiao MotorBus Backend Session SessionMoves SessionBus SessionWire Lifecycle Traffic Faults Shutdown BatchTraffic
open ExampleExits ExampleTraffic ZeroIds Zeroing YamlLoader
open Operations hiding Action Move machine
open Library.Effect Library.Output Library.Readings Library.Runs

/-- Whenever an MIT command was sent, the last enable or disable command to its motor was to enable. -/
def Guarded (sent : List TxFrame) : Prop :=
  ∀ earlier frame later, sent = earlier ++ frame :: later → frame.kind = .mit → EnabledLast earlier frame.id

theorem Guarded.nil : Guarded [] := by
  intro earlier frame later same
  cases earlier <;> cases same

theorem Guarded.snoc {sent : List TxFrame} (guarded : Guarded sent) {frame : TxFrame}
    (enabled : frame.kind = .mit → EnabledLast sent frame.id) : Guarded (sent ++ [frame]) := by
  intro earlier other later same mit
  rcases List.eq_nil_or_concat later with rfl | ⟨front, last, rfl⟩
  · obtain ⟨rfl, last⟩ := List.append_inj' same rfl
    cases last
    exact enabled mit
  · have split : sent ++ [frame] = (earlier ++ other :: front) ++ [last] := by
      rw [same, List.concat_eq_append, List.append_assoc, List.cons_append]
    exact guarded earlier other front (List.append_inj' split rfl).1 mit

theorem Guarded.append_others {sent added : List TxFrame} (guarded : Guarded sent)
    (others : ∀ frame ∈ added, frame.kind ≠ .mit) : Guarded (sent ++ added) := by
  induction added using List.reverseRecOn with
  | nil =>
    rw [List.append_nil]
    exact guarded
  | append_singleton front last ih =>
    rw [← List.append_assoc]
    refine (ih fun frame member => others frame (List.mem_append_left _ member)).snoc ?_
    intro mit
    exact absurd mit (others last (List.mem_append_right _ (List.mem_singleton_self last)))

theorem disable_not_mit {added : List TxFrame} (all : ∀ frame ∈ added, frame.kind = .mit) (id : Id) :
    disableFrame id ∉ added := by
  intro member
  cases all _ member

/-- MIT commands to motors that are enabled. -/
theorem Guarded.append_mit {sent added : List TxFrame} (guarded : Guarded sent)
    (all : ∀ frame ∈ added, frame.kind = .mit) (enabled : ∀ frame ∈ added, EnabledLast sent frame.id) :
    Guarded (sent ++ added) := by
  induction added using List.reverseRecOn with
  | nil =>
    rw [List.append_nil]
    exact guarded
  | append_singleton front last ih =>
    have before : ∀ frame ∈ front, frame.kind = .mit := fun frame member => all frame (List.mem_append_left _ member)
    rw [← List.append_assoc]
    refine (ih before fun frame member => enabled frame (List.mem_append_left _ member)).snoc ?_
    intro _
    have member := List.mem_append_right front (List.mem_singleton_self last)
    exact (enabled last member).append (disable_not_mit before last.id)

variable {config : ArmConfig}

/-- The calls that set zeros. -/
def zeroes : Call → Bool
  | .setZero _ _ => true
  | .setZeroAll _ => true
  | _ => false

/-- Zeros are set only while no thread of the loop is alive. With one alive the step would say too little:
in the source the thread can send its batches between the commands and sleeps of a zeroing. -/
def Alone (state : State config) : Session.Action → Prop
  | .caller _ _ =>
      ∀ call, state.caller = .busy call .operate → zeroes call = true → ∀ thread, state.threads thread = .finished
  | _ => True

/-- Zeros are set only while the running flag is down. -/
def stopped (state : State config) : Session.Action → Bool
  | .caller _ _ =>
      match state.caller with
      | .busy call .operate => !zeroes call || !state.running
      | _ => true
  | _ => true

/-- While the running flag is down, no thread is alive when a zero is set. -/
theorem alone_of_stopped {state : State config} (ordered : Ordered state) {action : Session.Action}
    (down : stopped state action = true) : Alone state action := by
  cases action with
  | caller script available =>
    intro call busy sets thread
    have halted : ¬state.running = true := by simpa [stopped, busy, sets] using down
    have settled : Settled state.caller := busy ▸ .of_pc Pc.noConfusion Pc.noConfusion
    exact ordered.finished_of_not_live (settled.live_iff.not.mpr halted) thread
  | _ => exact trivial

theorem reach_alone {platform : Platform} {state : State config}
    (reached : Reach (machine platform config) (fun before action => stopped before action = true) state) :
    Reach (machine platform config) Alone state := by
  induction reached with
  | start begins => exact .start begins
  | next before down moved ih =>
    exact .next ih (alone_of_stopped (ordered_of_reach before (step_alive moved)) down) moved

/-- A persistent zeroing that had found its motor has thrown since the arm was connected. -/
def spoiled : List Event → Bool
  | [] => false
  | .returned .enable :: earlier => online earlier && spoiled earlier
  | .raised (.setZero _ true) fault :: earlier => fault ≠ unregistered || spoiled earlier
  | .raised (.setZeroAll true) _ :: _ => true
  | _ :: earlier => spoiled earlier

theorem spoiled_mute (event : Event) (silent : mute event = true) : Passes spoiled event := by
  cases event with
  | returned call | raised call => cases call <;> first | exact fun _ => rfl | cases silent
  | _ => exact fun _ => rfl

/-- Every motor that can be addressed is enabled, and MIT commands have gone to enabled motors only. -/
structure Driving (config : ArmConfig) (sent : List TxFrame) : Prop where
  enabled : ∀ motor, Registered (initData config) motor → EnabledLast sent (initData config motor).canId
  guarded : Guarded sent

/-- Unless a reply switches a mode, a connected arm drives enabled motors. -/
def DrivesEnabled (backend : DmSerialBackend config) : Prop :=
  ∀ control, backend.control = some control → Undisturbed (initData config) backend.usb → Driving config backend.usb.sent

theorem Driving.append_harmless {sent added : List TxFrame} (driving : Driving config sent)
    (others : ∀ frame ∈ added, frame.kind ≠ .mit) (kept : ∀ id, disableFrame id ∉ added) :
    Driving config (sent ++ added) :=
  ⟨fun motor registered => (driving.enabled motor registered).append (kept _), driving.guarded.append_others others⟩

theorem Driving.append_batch {sent added : List TxFrame} (driving : Driving config sent)
    (all : ∀ frame ∈ added, frame.kind = .mit)
    (driven : ∀ frame ∈ added, ∃ motor, Registered (initData config) motor ∧ frame.id = (initData config motor).canId) :
    Driving config (sent ++ added) := by
  refine ⟨fun motor registered => (driving.enabled motor registered).append (disable_not_mit all _), ?_⟩
  refine driving.guarded.append_mit all ?_
  intro frame member
  obtain ⟨motor, registered, same⟩ := driven frame member
  rw [same]
  exact driving.enabled motor registered

section Modes
variable {n : Nat} {data : Fin n → DmActData} {control : MotorControl n}

/-- While every motor is in MIT mode, what does not switch a mode keeps them all. -/
theorem modesKept_of_undisturbed {before after : Usb} (modes : ∀ motor, (control.objects motor).mode = .MIT_MODE)
    (grown : before.received <+: after.received) (calm : Undisturbed data after) :
    ModesKept data control before after := by
  obtain ⟨since, same⟩ := grown
  refine ⟨since, same.symm, ?_⟩
  intro reception member changes
  obtain ⟨pending, known, reply, sent, other⟩ := changes
  dsimp only at other
  rw [modes] at other
  exact calm reception (same ▸ List.mem_append_right _ member) ⟨pending, known, reply, sent, other⟩

theorem listens_mit (built : Built data control) {motor : Fin n} (mode : (control.objects motor).mode = .MIT_MODE) :
    listens control motor = (data motor).canId := by
  rw [listens, built.canId, mode, add_offset_mit]

end Modes

section Backend
variable (platform : Platform) {backend : DmSerialBackend config}

theorem batch_keeps (built : Consistent backend) (drives : DrivesEnabled backend) (commands : List MitCommand)
    (mit : KeepsMit (exec (sendMitAll platform commands) backend).2) :
    DrivesEnabled (exec (sendMitAll platform commands) backend).2 := by
  intro control here calm
  have path := sendMitAll_follows platform commands backend built
  have connected : backend.connected = true := by
    rw [← service_connected built path, DmSerialBackend.connected, here]
    rfl
  obtain ⟨start, there⟩ := Option.isSome_iff_exists.mp connected
  obtain ⟨items, grown, early⟩ := sendMitAll_adds platform built commands
  have driving := drives start there (undisturbed_earlier (received_grows path) calm)
  have all : ∀ frame ∈ items, frame.kind = .mit := fun frame member => mit_of_plan platform (early.subset member)
  rw [grown]
  refine driving.append_batch all ?_
  intro frame member
  have sent : frame ∈ (exec (sendMitAll platform commands) backend).2.usb.sent :=
    grown ▸ List.mem_append_right _ member
  exact (mit control here calm).driven frame sent (.inl (all frame member))

/-- Connecting anew enables every motor. -/
theorem connect_drives {usb : Usb} {after : DmSerialBackend config} (built : Consistent after) (mit : KeepsMit after)
    (returned : exec (connect platform) ⟨none, usb⟩ = (.ok (), after)) : DrivesEnabled after := by
  intro control here calm
  have plain := (connect_plain returned).1
  have unconnected : ¬(⟨none, usb⟩ : DmSerialBackend config).connected = true := Bool.false_ne_true
  rw [connect, exec_get_bind, if_neg unconnected, exec_modify_bind, exec_tryCatch, exec_onControl_some] at returned
  rcases outcome : exec (usleep >>= fun _ => enableAll platform)
      (Host.mk (MotorControl.new (initData config) usb.clock) { usb with sent := [], received := [] })
    with ⟨fault | _, host⟩
  · rw [outcome] at returned
    cases returned
  · rw [outcome] at returned
    cases returned
    cases here
    have start : ∀ motor, ((MotorControl.new (initData config) usb.clock).objects motor).mode = .MIT_MODE := fun _ => rfl
    have kept : ModesKept (initData config) (MotorControl.new (initData config) usb.clock)
        { usb with sent := [], received := [] } host.usb := modesKept_of_undisturbed start List.nil_prefix calm
    have enabled := connect_enables platform kept outcome
    refine ⟨?_, Guarded.nil.append_others fun frame member => (plain frame member).1⟩
    intro motor registered
    have address := listens_mit (built _ rfl) ((mit _ rfl calm).modes motor)
    exact address ▸ enabled motor registered

theorem connects_keep {after : DmSerialBackend config} {result : Except Fault Unit} (built : Consistent after)
    (mit : KeepsMit after) (ran : exec (connect platform) backend = (result, after))
    (drives : backend.connected = true → DrivesEnabled backend) : DrivesEnabled after := by
  rcases backend with ⟨_ | control, usb⟩
  · cases result with
    | ok _ => exact connect_drives platform built mit ran
    | error fault =>
      intro control here
      rw [(connect_plain ran).2 fault rfl] at here
      cases here
  · have already : exec (connect platform) (⟨some control, usb⟩ : DmSerialBackend config) = (.ok (), ⟨some control, usb⟩) :=
      rfl
    rw [already] at ran
    cases ran
    exact drives rfl

theorem heard_keeps {after : DmSerialBackend config} {arrival : Arrival} (drives : DrivesEnabled backend)
    (received : act platform backend (.receive arrival) = some after) : DrivesEnabled after := by
  rcases backend with ⟨_ | control, usb⟩
  · cases received
  · cases received
    intro _ _ calm
    exact drives control rfl (undisturbed_earlier (List.prefix_append _ _) calm)

/-- A set-zero command. -/
def Zeroes (frame : TxFrame) : Prop := ∃ id, frame = ⟨.control, id, commandBytes 0xFE⟩

theorem Driving.append_zeroes {sent added : List TxFrame} (driving : Driving config sent)
    (zeroes : ∀ frame ∈ added, Zeroes frame) : Driving config (sent ++ added) := by
  refine driving.append_harmless ?_ ?_
  · intro frame member mit
    obtain ⟨id, rfl⟩ := zeroes frame member
    cases mit
  · intro id member
    obtain ⟨other, same⟩ := zeroes _ member
    simp [disableFrame, commandBytes] at same

theorem zeroMotor_drives {control : MotorControl config.motors.length} {usb : Usb}
    (built : Built (initData config) control) (mit : KeepsMit (⟨some control, usb⟩ : DmSerialBackend config))
    {motor : Fin config.motors.length} (registered : Registered (initData config) motor) {persist : Bool}
    {result : Except Fault Unit} {last : Host config.motors.length}
    (ran : exec (zeroMotor platform motor persist) ⟨control, usb⟩ = (result, last))
    (whole : persist = true → result = .ok ()) (drives : DrivesEnabled (⟨some control, usb⟩ : DmSerialBackend config))
    (calm : Undisturbed (initData config) last.usb) : Driving config last.usb.sent := by
  have path := zeroMotor_follows platform registered persist ⟨control, usb⟩ built
  rw [ran] at path
  have earlier := undisturbed_earlier (path_logs path).2 calm
  have driving := drives control rfl earlier
  cases persist with
  | false =>
    have zeroes : Follows (sending (initData config) Zeroes) (zeroMotor platform motor false) := by
      refine (command_sends motor 0xFE fun id => ⟨id, rfl⟩).bind fun _ => ?_
      exact usleep_sends.bind fun _ => .pure _
    have sends := zeroes ⟨control, usb⟩ built
    rw [ran] at sends
    obtain ⟨added, grown, each⟩ := sent_path sends
    rw [grown]
    exact driving.append_zeroes each
  | true =>
    cases whole rfl
    have modes := (mit control rfl earlier).modes
    have kept : ModesKept (initData config) control usb last.usb := modesKept_of_undisturbed modes (path_logs path).2 calm
    obtain ⟨added, grown, group⟩ := zeroMotor_returned platform registered built built (fun _ => rfl) kept ran
    have sends := zeroMotor_others platform motor true ⟨control, usb⟩ built
    rw [ran] at sends
    obtain ⟨others, same, each⟩ := sent_path sends
    have equal : others = added := List.append_cancel_left (same.symm.trans grown)
    subst equal
    rw [grown]
    refine ⟨?_, driving.guarded.append_others each⟩
    intro other known
    have address := listens_mit built (modes other)
    exact address ▸ group.enabledLast known (address.symm ▸ driving.enabled other known)

/-- What a zeroing must not do: throw after it has found its motor. -/
def Interrupted (persist : Bool) (result : Except Fault Unit) : Prop :=
  persist = true ∧ ∃ fault, result = .error fault ∧ fault ≠ unregistered

theorem setZero_keeps {id : Id} {persist : Bool} (built : Consistent backend) (mit : KeepsMit backend)
    (drives : DrivesEnabled backend) (whole : ¬Interrupted persist (exec (setZero platform id persist) backend).1) :
    DrivesEnabled (exec (setZero platform id persist) backend).2 := by
  rcases backend with ⟨_ | control, usb⟩
  · exact drives
  · rw [exec_setZero] at whole ⊢
    cases lookup : control.getMotor id with
    | none => exact drives
    | some motor =>
      rw [lookup] at whole
      dsimp only at whole ⊢
      rw [exec_onControl_some] at whole ⊢
      have registered : Registered (initData config) motor := ⟨id, (getMotor_eq (built control rfl) _).symm.trans lookup⟩
      have throws := zeroMotor_throws platform registered persist ⟨control, usb⟩ (built control rfl)
      rcases ran : exec (zeroMotor platform motor persist) ⟨control, usb⟩ with ⟨result, last⟩
      rw [ran] at whole throws
      have returned : persist = true → result = .ok () := by
        intro lasting
        cases result with
        | ok _ => rfl
        | error fault =>
          refine absurd ⟨lasting, fault, rfl, ?_⟩ whole
          rcases throws fault rfl with rfl | rfl <;> decide
      intro after here calm
      exact zeroMotor_drives platform (built control rfl) mit registered ran returned drives calm

/-- Zeroing motors one after the other. -/
theorem setZeros_keep {persist : Bool} (motors : List MotorConfig) (built : Consistent backend) (mit : KeepsMit backend)
    (drives : DrivesEnabled backend)
    (whole : persist = true → (exec (motors.forM fun motor => setZero platform motor.canId persist) backend).1 = .ok ()) :
    DrivesEnabled (exec (motors.forM fun motor => setZero platform motor.canId persist) backend).2 := by
  induction motors generalizing backend with
  | nil => exact drives
  | cons motor rest ih =>
    have unfolded : ((motor :: rest).forM fun motor => setZero platform motor.canId persist : BackendM config Unit) =
        (setZero platform motor.canId persist >>= fun _ => rest.forM fun motor => setZero platform motor.canId persist) := rfl
    have first := @setZero_keeps _ platform backend motor.canId persist built mit drives
    have path := setZero_follows platform motor.canId persist backend built
    rw [unfolded] at whole ⊢
    rcases ran : exec (setZero platform motor.canId persist) backend with ⟨fault | _, middle⟩
    · rw [ran] at first
      rw [exec_bind_error ran] at whole ⊢
      refine first ?_
      rintro ⟨lasting, _⟩
      cases whole lasting
    · rw [ran] at first path
      rw [exec_bind_ok ran] at whole ⊢
      have kept := (service config).keeps KeepsMit (fun _ _ built step => KeepsMit.move built (.exchange step)) path built mit
      refine ih kept.1 kept.2 (first ?_) whole
      rintro ⟨_, _, threw, _⟩
      cases threw

end Backend

theorem whole_setZero {id : Id} {persist : Bool} {result : Except Fault Unit} {log : List Event}
    (whole : spoiled (ended (.setZero id persist) result :: log) = false) :
    spoiled log = false ∧ ¬Interrupted persist result := by
  cases persist with
  | false => exact ⟨by cases result <;> exact whole, fun interrupted => by cases interrupted.1⟩
  | true =>
    cases result with
    | ok _ =>
      refine ⟨whole, ?_⟩
      rintro ⟨_, _, threw, _⟩
      cases threw
    | error fault =>
      obtain ⟨harmless, clean⟩ := Bool.or_eq_false_iff.mp whole
      refine ⟨clean, ?_⟩
      rintro ⟨_, other, threw, found⟩
      cases threw
      exact of_decide_eq_false harmless found

theorem whole_setZeroAll {persist : Bool} {result : Except Fault Unit} {log : List Event}
    (whole : spoiled (ended (.setZeroAll persist) result :: log) = false) :
    spoiled log = false ∧ (persist = true → result = .ok ()) := by
  cases persist with
  | false => exact ⟨by cases result <;> exact whole, fun lasting => by cases lasting⟩
  | true =>
    cases result with
    | ok _ => exact ⟨whole, fun _ => rfl⟩
    | error fault => cases whole

/-- What holds of every state of a run. -/
structure Steered (platform : Platform) (state : State config) : Prop where
  carries : Carries platform state
  mit : KeepsMit state.backend
  drives : spoiled state.log = false → DrivesEnabled state.backend

theorem Steered.touch {platform : Platform} {state after : State config} (built : Consistent state.backend)
    (touch : Touch platform state after) (steered : Steered platform state) : Steered platform after := by
  have path := touch.path built
  have builtAfter := (serial config).inv_path path built
  have mit := ((serial config).keeps KeepsMit (fun _ _ built move keeps => keeps.move built move) path built steered.mit).2
  refine ⟨steered.carries.touch built touch, mit, ?_⟩
  have ready (script : List Slot) : Consistent (state.backend.withScript script) := built
  have before (script : List Slot) : KeepsMit (state.backend.withScript script) :=
    steered.mit.move built (.exchange (.script state.backend script))
  cases touch with
  | nothing backend log =>
    rw [log.read spoiled_mute, backend]
    exact steered.drives
  | heard arrival received log =>
    rw [log]
    exact fun whole => heard_keeps platform (steered.drives whole) received
  | batch script commands backend log =>
    intro whole
    rw [log] at whole
    rw [backend] at mit ⊢
    exact batch_keeps platform (ready script) (steered.drives whole) commands mit
  | zero script backend log =>
    intro whole
    rw [log.read spoiled_mute] at whole
    rw [backend] at mit ⊢
    exact batch_keeps platform (ready script) (steered.drives whole) _ mit
  | zeroed script call op result behind serves ran log =>
    intro whole
    rw [log] at whole
    rcases zeroes_of_op behind serves with ⟨canId, persist, rfl, rfl⟩ | ⟨persist, rfl, rfl⟩
    · obtain ⟨clean, returned⟩ := whole_setZero whole
      have kept := @setZero_keeps _ platform _ canId persist (ready script) (before script) (steered.drives clean)
      change exec (setZero platform canId persist) (state.backend.withScript script) = _ at ran
      rw [ran] at kept
      exact kept returned
    · obtain ⟨clean, returned⟩ := whole_setZeroAll whole
      have kept := @setZeros_keep _ platform _ persist config.motors (ready script) (before script) (steered.drives clean)
      change exec (config.motors.forM fun motor => setZero platform motor.canId persist) (state.backend.withScript script) =
        _ at ran
      rw [ran] at kept
      exact kept returned
  | connects script result ran log =>
    intro whole
    rw [log] at whole
    refine connects_keep platform builtAfter mit ran fun connected => ?_
    have known : online state.log = true := steered.carries.connected.trans connected
    cases result with
    | ok _ =>
      change (online state.log && spoiled state.log) = false at whole
      rw [known] at whole
      exact steered.drives whole
    | error fault => exact steered.drives whole
  | disconnects script ran log =>
    intro _ control here
    have releasing := (disconnect_sends platform (ready script)).2
    rw [ran] at releasing
    rcases releasing with ⟨threw, _⟩ | ⟨_, idle⟩
    · cases threw
    · rw [DmSerialBackend.connected, here] at idle
      cases idle

/-- In every run in which zeros are set only while no thread of the loop is alive, whatever the order of the
threads, and whatever else throws: as long as no persistent zeroing has been interrupted since the arm was
connected, and no reply has switched a mode, every registered motor is enabled, and every MIT command has gone to
a motor that was enabled then. -/
theorem loop_drives_enabled {platform : Platform} {state : State config}
    (reached : Reach (machine platform config) Alone state) (alive : state.terminated = false)
    (connected : state.backend.connected = true) (whole : spoiled state.log = false)
    (calm : Undisturbed (initData config) state.backend.usb) :
    (∀ motor, Registered (initData config) motor → EnabledLast state.backend.usb.sent (initData config motor).canId) ∧
      Guarded state.backend.usb.sent := by
  have start : Steered platform (initialState config) := by
    refine ⟨⟨rfl, rfl⟩, keepsMit_idle rfl, ?_⟩
    intro _ control here
    cases here
  have steered : Steered platform state := reach_touches start (fun _ _ built touch held => held.touch built touch) reached alive
  obtain ⟨control, here⟩ := Option.isSome_iff_exists.mp connected
  obtain ⟨enabled, guarded⟩ := steered.drives whole control here calm
  exact ⟨enabled, guarded⟩

/-- The second joint is disabled while its zero is saved, and enabled before the loop commands it. -/
theorem second_joint_enabled : ∃ state : State (joints [(1, 0x11), (2, 0x12)]),
    disableFrame 2 ∈ state.backend.usb.sent ∧ (mitTraffic state.backend).length = 2 ∧
      EnabledLast state.backend.usb.sent 2 ∧ Guarded state.backend.usb.sent := by
  have ran : ((machine Platform.wrapping (joints [(1, 0x11), (2, 0x12)])).run stopped
      [.call .enable, quietly, .call (.setZero 2 true), quietly, .call (.start (.finite 1000)), quietly, quietly, quietly,
        quietly, quietly, loops, loops, loops] (initialState (joints [(1, 0x11), (2, 0x12)]))).map (fun state =>
      decide (state.terminated = false ∧ state.backend.connected = true ∧ spoiled state.log = false ∧
        state.backend.usb.received.length = 0 ∧ disableFrame 2 ∈ state.backend.usb.sent ∧
        (mitTraffic state.backend).length = 2)) = some true := by decide +kernel
  obtain ⟨state, reached, alive, connected, whole, silent, disabled, two⟩ := Machine.reach_checked rfl ran
  obtain ⟨enabled, guarded⟩ := loop_drives_enabled (reach_alone reached) alive connected whole
    (undisturbed_of_silent _ (List.eq_nil_of_length_eq_zero silent))
  have found : (MotorControl.registry (initData (joints [(1, 0x11), (2, 0x12)]))).find? 2 = some ⟨1, by decide⟩ := by
    decide
  exact ⟨state, disabled, two, enabled ⟨1, by decide⟩ ⟨2, found⟩, guarded⟩

end DmOpenarm.EnabledMotors
