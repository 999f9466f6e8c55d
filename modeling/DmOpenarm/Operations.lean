import DmOpenarm.Backend
import DmOpenarm.Traffic
import DmOpenarm.Library.Runs
import DmOpenarm.YamlLoader

/-! Runs of the backend: its operations in any order, with frames received between them. Every
operation is a path of moves: it creates or releases Motor_Control, or acts on the bus. -/

namespace DmOpenarm.Operations
open Types hiding ControlMode
open Damiao MotorBus Backend Traffic YamlLoader Library.Effect Library.Runs
variable {config : ArmConfig}

inductive Op where
  | connect
  | disconnect
  | sendMitAll (commands : List MitCommand)
  | sendZeroMitAll
  | setZero (canId : Id) (persist : Bool)
  | setZeroAll (persist : Bool)

def Op.perform (platform : Platform) : Op → BackendM config Unit
  | .connect => Backend.connect platform
  | .disconnect => Backend.disconnect platform
  | .sendMitAll commands => Backend.sendMitAll platform commands
  | .sendZeroMitAll => Backend.sendZeroMitAll platform
  | .setZero canId persist => Backend.setZero platform canId persist
  | .setZeroAll persist => Backend.setZeroAll platform persist

/-- An operation with what happens on the bus meanwhile, or a frame received in between. -/
inductive Action where
  | operate (op : Op) (script : List Slot)
  | receive (arrival : Arrival)

/-- The state an operation leaves, unless it ends the process. -/
def survive {α : Type} : Except Fault α × DmSerialBackend config → Option (DmSerialBackend config)
  | (.error fault, after) => if fault.fatal then none else some after
  | (.ok _, after) => some after

def act (platform : Platform) (backend : DmSerialBackend config) :
    Action → Option (DmSerialBackend config)
  | .operate op script => survive (exec (op.perform platform) (backend.withScript script))
  | .receive arrival =>
      backend.control.map fun control =>
        let host := (Host.mk control backend.usb).receive arrival
        { control := some host.control, usb := host.usb }

def machine (platform : Platform) (config : ArmConfig) : Machine (DmSerialBackend config) Action where
  initial backend := backend.control = none
  step := act platform

/-- What happens on the bus while nothing connects or disconnects. -/
inductive Exchange : DmSerialBackend config → DmSerialBackend config → Prop where
  | bus {before after : Host config.motors.length} (step : Primitive (initData config) before after) :
      Exchange ⟨some before.control, before.usb⟩ ⟨some after.control, after.usb⟩
  | receive (host : Host config.motors.length) (arrival : Arrival) :
      Exchange ⟨some host.control, host.usb⟩
        ⟨some (host.receive arrival).control, (host.receive arrival).usb⟩
  | script (backend : DmSerialBackend config) (script : List Slot) :
      Exchange backend (backend.withScript script)

/-- The moves that every operation is made of. -/
inductive Move : DmSerialBackend config → DmSerialBackend config → Prop where
  | exchange {before after : DmSerialBackend config} (step : Exchange before after) : Move before after
  | create (usb : Usb) :
      Move ⟨none, usb⟩
        ⟨some (MotorControl.new (initData config) usb.clock), { usb with sent := [], received := [] }⟩
  | release (control : MotorControl config.motors.length) (usb : Usb) : Move ⟨some control, usb⟩ ⟨none, usb⟩

theorem eq_of_attached {first second : Host config.motors.length}
    (same : (⟨some first.control, first.usb⟩ : DmSerialBackend config) = ⟨some second.control, second.usb⟩) :
    first = second := by
  rcases first with ⟨_, _⟩
  rcases second with ⟨_, _⟩
  cases same
  rfl

def Consistent (backend : DmSerialBackend config) : Prop :=
  ∀ control, backend.control = some control → Built (initData config) control

theorem Consistent.exchange {before after : DmSerialBackend config} (built : Consistent before)
    (step : Exchange before after) : Consistent after := by
  intro control same
  cases step with
  | @bus host _ step =>
    cases same
    exact (bus (initData config)).kept _ _ step (built _ rfl)
  | receive host arrival =>
    cases same
    exact (built _ rfl).receive arrival
  | script backend script => exact built control same

/-- The rules of the backend: a connected Motor_Control is always as built. -/
def serial (config : ArmConfig) : Discipline (DmSerialBackend config) where
  inv := Consistent
  step := Move
  kept before after move built := by
    cases move with
    | exchange step => exact built.exchange step
    | create usb =>
      intro control same
      cases same
      exact .new _
    | release control usb =>
      intro control same
      cases same

/-- The rules of an operation that neither connects nor disconnects. -/
def service (config : ArmConfig) : Discipline (DmSerialBackend config) where
  inv := Consistent
  step := Exchange
  kept _ _ step built := built.exchange step

theorem serial_of_service {α : Type} {program : BackendM config α} (follows : Follows (service config) program) :
    Follows (serial config) program :=
  follows.weaken (fun _ built => built) fun _ _ step => .exchange step

theorem onControl_follows {α : Type} {program : Sdk config.motors.length α}
    (follows : Follows (bus (initData config)) program) : Follows (service config) (onControl program) := by
  intro backend built
  rcases backend with ⟨_ | control, usb⟩
  · exact .refl
  · have path := follows ⟨control, usb⟩ (built control rfl)
    let attached (host : Host config.motors.length) : DmSerialBackend config :=
      ⟨some host.control, host.usb⟩
    exact Relation.ReflTransGen.lift attached (fun _ _ step => Exchange.bus step) _ _ path

/-- What a lookup of an identifier gives. -/
def found (id : Id) (backend : DmSerialBackend config) :
    Except Fault (Option (Fin config.motors.length)) :=
  match backend.control with
  | none => .error notConnected
  | some control => .ok (control.getMotor id)

theorem exec_lookupMotor (id : Id) (backend : DmSerialBackend config) :
    exec (lookupMotor id) backend = (found id backend, backend) := by
  rcases backend with ⟨_ | control, usb⟩
  · rfl
  · rfl

theorem lookupMotor_bind_follows (id : Id) {next : Option (Fin config.motors.length) → BackendM config Unit}
    (absent : Follows (service config) (next none))
    (present : ∀ motor, Registered (initData config) motor → Follows (service config) (next (some motor))) :
    Follows (service config) (lookupMotor id >>= next) := by
  apply Follows.read_bind (exec_lookupMotor id)
  intro backend value built seen
  rcases backend with ⟨_ | control, usb⟩
  · cases seen
  · cases seen
    cases lookup : control.getMotor id with
    | none => exact absent _ built
    | some motor =>
      refine present motor ⟨id, ?_⟩ _ built
      rw [← (built control rfl).motors]
      exact lookup

theorem requireConnected_follows : Follows (service config) requireConnected := by
  apply Follows.get_bind
  intro backend _
  cases backend.connected with
  | false => exact .refl
  | true => exact .refl

theorem connect_follows (platform : Platform) : Follows (serial config) (connect platform) := by
  apply Follows.get_bind
  intro backend built
  rcases backend with ⟨_ | control, usb⟩
  · have created : (serial config).Path ⟨none, usb⟩ _ := .single (.create usb)
    have program : Follows (serial config) (tryCatch
        (onControl (usleep >>= fun _ => enableAll platform)) fun fault => do
          modify fun backend : DmSerialBackend config => { backend with control := none }
          throw fault) := by
      apply Follows.tryCatch
      · exact serial_of_service (onControl_follows (usleep_follows.bind fun _ => enableAll_follows platform))
      · intro fault
        apply Follows.bind
        · apply Follows.modify
          intro state _
          rcases state with ⟨_ | control, usb⟩
          · exact .refl
          · exact .single (.release control usb)
        · intro _
          exact .throw fault
    exact created.trans (program _ ((serial config).inv_path created built))
  · exact .refl

theorem disconnect_follows (platform : Platform) : Follows (serial config) (disconnect platform) := by
  apply Follows.get_bind
  intro backend built
  rcases backend with ⟨_ | control, usb⟩
  · exact .refl
  · refine Follows.bind (Follows.tryCatch ?_ fun _ => .throw _) (fun _ => ?_) _ built
    · exact serial_of_service (onControl_follows (disableAll_follows platform))
    · apply Follows.modify
      intro state _
      rcases state with ⟨_ | control, usb⟩
      · exact .refl
      · exact .single (.release control usb)

theorem sendCommand_follows (platform : Platform) (entry : MotorConfig × MitCommand) :
    Follows (service config) (sendCommand platform entry) := by
  apply lookupMotor_bind_follows
  · exact .throw _
  · intro motor registered
    exact onControl_follows (controlMit_follows platform registered entry.2)

theorem sendMitAll_follows (platform : Platform) (commands : List MitCommand) :
    Follows (service config) (sendMitAll platform commands) := by
  apply requireConnected_follows.bind
  intro _
  by_cases wrong : commands.length ≠ config.motors.length
  · rw [if_pos wrong]
    exact .throw _
  · rw [if_neg wrong]
    exact .forM _ fun entry _ => sendCommand_follows platform entry

theorem setZero_follows (platform : Platform) (canId : Id) (persist : Bool) :
    Follows (service config) (setZero platform canId persist) := by
  apply requireConnected_follows.bind
  intro _
  apply lookupMotor_bind_follows
  · exact .throw _
  intro motor registered
  apply (onControl_follows (setZeroPosition_follows registered)).bind
  intro _
  apply (onControl_follows usleep_follows).bind
  intro _
  cases persist with
  | false => exact .pure _
  | true =>
    apply (onControl_follows (saveMotorParam_follows registered)).bind
    intro _
    apply (onControl_follows usleep_follows).bind
    intro _
    exact (onControl_follows (enableAll_follows platform)).bind fun _ => onControl_follows usleep_follows

/-- Operations on a connected backend, none of which connects or disconnects. -/
def Op.serves : Op → Bool
  | .connect => false
  | .disconnect => false
  | _ => true

theorem perform_service (platform : Platform) {op : Op} (serves : op.serves = true) :
    Follows (service config) (op.perform platform) := by
  cases op with
  | connect => cases serves
  | disconnect => cases serves
  | sendMitAll commands => exact sendMitAll_follows platform commands
  | sendZeroMitAll => exact sendMitAll_follows platform _
  | setZero canId persist => exact setZero_follows platform canId persist
  | setZeroAll persist => exact .forM _ fun motor _ => setZero_follows platform motor.canId persist

theorem perform_follows (platform : Platform) (op : Op) :
    Follows (serial config) (op.perform platform) := by
  cases op with
  | connect => exact connect_follows platform
  | disconnect => exact disconnect_follows platform
  | sendMitAll commands =>
    exact serial_of_service (perform_service platform (show (Op.sendMitAll commands).serves = true from rfl))
  | sendZeroMitAll => exact serial_of_service (perform_service platform (show Op.sendZeroMitAll.serves = true from rfl))
  | setZero canId persist =>
    exact serial_of_service (perform_service platform (show (Op.setZero canId persist).serves = true from rfl))
  | setZeroAll persist =>
    exact serial_of_service (perform_service platform (show (Op.setZeroAll persist).serves = true from rfl))

theorem survive_eq_some {α : Type} {outcome : Except Fault α × DmSerialBackend config}
    {after : DmSerialBackend config} (survived : survive outcome = some after) : outcome.2 = after := by
  rcases outcome with ⟨fault | value, last⟩
  · by_cases fatal : fault.fatal = true
    · simp [survive, fatal] at survived
    · simpa [survive, fatal] using survived
  · simpa [survive] using survived

/-- An operation, with what happens on the bus meanwhile, is a path of moves. -/
theorem perform_path (platform : Platform) (op : Op) (script : List Slot) {backend : DmSerialBackend config}
    (built : Consistent backend) :
    (serial config).Path backend (exec (op.perform platform) (backend.withScript script)).2 := by
  have ready : (serial config).Path backend (backend.withScript script) :=
    .single (.exchange (.script _ _))
  exact ready.trans (perform_follows platform op _ ((serial config).inv_path ready built))

/-- Every action is a path of moves. -/
theorem act_path {platform : Platform} {backend after : DmSerialBackend config} {action : Action}
    (built : Consistent backend) (moved : act platform backend action = some after) :
    (serial config).Path backend after := by
  cases action with
  | operate op script =>
    rw [← survive_eq_some moved]
    exact perform_path platform op script built
  | receive arrival =>
    rcases backend with ⟨_ | control, usb⟩
    · cases moved
    · cases moved
      exact .single (.exchange (.receive ⟨control, usb⟩ arrival))

def Action.serves : Action → Bool
  | .operate op _ => op.serves
  | .receive _ => true

/-- An action that serves a connected backend is a path of exchanges. -/
theorem act_service {platform : Platform} {backend after : DmSerialBackend config} {action : Action}
    (serves : action.serves = true) (built : Consistent backend) (moved : act platform backend action = some after) :
    (service config).Path backend after := by
  cases action with
  | operate op script =>
    have ready : (service config).Path backend (backend.withScript script) := .single (.script _ _)
    rw [← survive_eq_some moved]
    exact ready.trans (perform_service platform serves _ ((service config).inv_path ready built))
  | receive arrival =>
    rcases backend with ⟨_ | control, usb⟩
    · cases moved
    · cases moved
      exact .single (.receive ⟨control, usb⟩ arrival)

/-- Runs that serve a connected backend, from a given state. -/
def serving (platform : Platform) (start : DmSerialBackend config) :
    Machine (DmSerialBackend config) Action where
  initial backend := backend = start
  step := act platform

theorem reach_built {platform : Platform} {allowed : DmSerialBackend config → Action → Prop}
    {backend : DmSerialBackend config} (reached : Reach (machine platform config) allowed backend) :
    (serial config).inv backend := by
  induction reached with
  | @start state begins =>
    intro control same
    rw [show state.control = none from begins] at same
    cases same
  | next _ _ moved built => exact (serial config).inv_path (act_path built moved) built

/-- What every move keeps holds in every state that a run reaches. -/
theorem reach_keeps {platform : Platform} {allowed : DmSerialBackend config → Action → Prop}
    (also : DmSerialBackend config → Prop) (idle : ∀ backend, backend.control = none → also backend)
    (kept : ∀ before after, (serial config).inv before → Move before after → also before → also after)
    {backend : DmSerialBackend config} (reached : Reach (machine platform config) allowed backend) :
    also backend := by
  induction reached with
  | start begins => exact idle _ begins
  | next before _ moved ih =>
    exact ((serial config).keeps also kept (act_path (reach_built before) moved) (reach_built before) ih).2

/-- What every exchange keeps holds throughout a run that serves a connected backend. -/
theorem serving_keeps {platform : Platform} {start : DmSerialBackend config}
    (also : DmSerialBackend config → Prop) (built : Consistent start) (starts : also start)
    (kept : ∀ before after, Consistent before → Exchange before after → also before → also after)
    {now : DmSerialBackend config}
    (run : Reach (serving platform start) (fun _ action => action.serves = true) now) : Consistent now ∧ also now := by
  induction run with
  | start begins =>
    cases begins
    exact ⟨built, starts⟩
  | next _ serves moved ih =>
    exact (service config).keeps also kept (act_service serves ih.1 moved) ih.1 ih.2

/-- A connect that returns leaves the backend connected, with the motors as built. -/
theorem connect_returned {platform : Platform} {usb : Usb} {start : DmSerialBackend config}
    (returned : exec (connect platform) ⟨none, usb⟩ = (.ok (), start)) :
    Consistent start ∧ ∃ host : Host config.motors.length, start = ⟨some host.control, host.usb⟩ := by
  have idle : Consistent (⟨none, usb⟩ : DmSerialBackend config) := by
    intro control same
    cases same
  have path := connect_follows platform _ idle
  rw [returned] at path
  refine ⟨(serial config).inv_path path idle, ?_⟩
  have unconnected : ¬(⟨none, usb⟩ : DmSerialBackend config).connected = true := Bool.false_ne_true
  rw [connect, exec_get_bind, if_neg unconnected, exec_modify_bind, exec_tryCatch, exec_onControl_some] at returned
  rcases outcome : exec (usleep >>= fun _ => enableAll platform)
      (Host.mk (MotorControl.new (initData config) usb.clock) { usb with sent := [], received := [] })
    with ⟨fault | _, host⟩
  · rw [outcome] at returned
    cases returned
  · rw [outcome] at returned
    cases returned
    exact ⟨host, rfl⟩

/-- A disconnect leaves nothing connected, unless a send in the destructor throws. -/
theorem disconnect_cases (platform : Platform) (backend : DmSerialBackend config) :
    (exec (disconnect platform) backend).1 = .error .terminate ∨
      ∃ usb, exec (disconnect platform) backend = (.ok (), ⟨none, usb⟩) := by
  rcases backend with ⟨_ | control, usb⟩
  · right
    exact ⟨usb, rfl⟩
  · have connected : (⟨some control, usb⟩ : DmSerialBackend config).connected = true := rfl
    rw [disconnect, exec_get_bind, if_pos connected, exec_bind, exec_tryCatch, exec_onControl_some]
    rcases exec (disableAll platform) ⟨control, usb⟩ with ⟨fault | _, host⟩
    · left
      rfl
    · right
      exact ⟨host.usb, rfl⟩

/-- Serving neither connects nor disconnects. -/
theorem service_connected {backend after : DmSerialBackend config} (built : Consistent backend)
    (path : (service config).Path backend after) : after.connected = backend.connected := by
  have kept : ∀ before later : DmSerialBackend config, Consistent before → Exchange before later →
      before.connected = backend.connected → later.connected = backend.connected := by
    intro before later _ step same
    cases step with
    | bus step => exact same
    | receive host arrival => exact same
    | script _ script => exact same
  exact ((service config).keeps _ kept path built rfl).2

/-- The loader keeps identifiers of one kind apart. -/
theorem canId_injective (accepted : Accepted config) :
    Function.Injective fun motor => (initData config motor).canId :=
  fun first second same => List.nodup_iff_injective_get.mp (accepted_distinct accepted).1.of_map
    (List.inj_on_of_nodup_map (accepted_distinct accepted).1 (List.get_mem _ first) (List.get_mem _ second) same)

theorem mstId_injective (accepted : Accepted config) :
    Function.Injective fun motor => (initData config motor).mstId :=
  fun first second same => List.nodup_iff_injective_get.mp (accepted_distinct accepted).2.of_map
    (List.inj_on_of_nodup_map (accepted_distinct accepted).2 (List.get_mem _ first) (List.get_mem _ second) same)

end DmOpenarm.Operations
