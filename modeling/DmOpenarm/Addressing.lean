import DmOpenarm.Shutdown

/-! Where the frames of a run go while every motor is in MIT mode: each of them, but for register
accesses, to the CAN ID of a motor that the registry knows. -/

namespace DmOpenarm.Addressing
open Types hiding ControlMode
open Damiao Registry MotorBus Backend Traffic Operations ReliableBus Shutdown YamlLoader
open Library.FirstWins Library.Effect Library.Runs

/-- Every frame that is no register access went to the CAN ID of a registered motor. -/
def Aimed {n : Nat} (data : Fin n → DmActData) (usb : Usb) : Prop :=
  ∀ frame ∈ usb.sent, frame.kind ≠ .register → ∃ motor, Registered data motor ∧ frame.id = (data motor).canId

section Bus
variable {n : Nat} {data : Fin n → DmActData}

theorem aimed_of_addressed {host : Host n} (mit : AllMit data host) {frame : TxFrame}
    (addressed : Addressed data host.control frame) (other : frame.kind ≠ .register) :
    ∃ motor, Registered data motor ∧ frame.id = (data motor).canId := by
  unfold Addressed at addressed
  cases kind : frame.kind with
  | register => exact absurd kind other
  | mit =>
    rw [kind] at addressed
    exact addressed
  | control =>
    rw [kind] at addressed
    obtain ⟨motor, registered, same⟩ := addressed
    rw [mit.modes, add_offset_mit] at same
    exact ⟨motor, registered, same⟩

theorem primitive_aimed {before after : Host n} (step : Primitive data before after)
    (mit : Undisturbed data before.usb → AllMit data before)
    (aimed : Undisturbed data before.usb → Aimed data before.usb) (calm : Undisturbed data after.usb) :
    Aimed data after.usb := by
  cases step with
  | wait =>
    rw [Aimed, (advance_usb before).1]
    exact aimed (undisturbed_earlier (advance_received before) calm)
  | send frame addressed =>
    have earlier := undisturbed_earlier (advance_received before) calm
    intro other member kind
    change other ∈ before.advance.usb.sent ++ [frame] at member
    rw [(advance_usb before).1] at member
    rcases List.mem_append.mp member with old | new
    · exact aimed earlier other old kind
    · cases List.mem_singleton.mp new
      exact aimed_of_addressed (mit earlier) addressed kind
  | expect => exact aimed calm

/-- An enable loop that returns has sent every registered motor an enable command. -/
theorem enableAll_visits (platform : Platform) {host last : Host n} (built : Built data host.control)
    (returned : exec (enableAll platform) host = (.ok (), last)) {motor : Fin n} (registered : Registered data motor) :
    ∃ middle, (bus data).Path host middle ∧ (bus data).Path (middle.advance.emit
      ⟨.control, (data motor).canId + (middle.control.objects motor).mode.offset, commandBytes 0xFC⟩) last := by
  rw [enableAll, exec_bind_ok (exec_registered platform host), built.motors] at returned
  have known (target : Fin n) := @mem_enumerate_iff n data platform target
  generalize (platform.enumerate (MotorControl.registry data)).map Prod.snd = motors at known returned
  obtain ⟨_, switched, first, rest⟩ := exec_bind_eq_ok returned
  obtain ⟨_, asked, second, third⟩ := exec_bind_eq_ok rest
  have switches : (bus data).Path host _ := switchModes_follows motors host built
  rw [first] at switches
  have switchedBuilt := (bus data).inv_path switches built
  have reads : (bus data).Path switched _ := readModes_follows motors switched switchedBuilt
  rw [second] at reads
  obtain ⟨middle, before, later⟩ := commands_visit (fun target => (known target).mp)
    ((bus data).inv_path reads switchedBuilt) third ((known motor).mpr registered)
  exact ⟨middle, (switches.trans reads).trans before, later⟩

end Bus

variable {config : ArmConfig}

theorem aimed_move {before after : DmSerialBackend config} (move : Move before after) (mit : KeepsMit before)
    (aimed : Undisturbed (initData config) before.usb → Aimed (initData config) before.usb)
    (calm : Undisturbed (initData config) after.usb) : Aimed (initData config) after.usb := by
  cases move with
  | exchange step =>
    cases step with
    | bus step => exact primitive_aimed step (mit _ rfl) aimed calm
    | receive host arrival => exact aimed fun reception member => calm reception (List.mem_append_left _ member)
    | script backend script => exact aimed calm
  | create usb => exact List.forall_mem_nil _
  | release control usb => exact aimed calm

/-- From an arm that has never been connected, frames go to CAN IDs of registered motors. -/
theorem reach_aimed {platform : Platform} {backend : DmSerialBackend config}
    (reached : Reach (serving platform {}) Anything backend) :
    Undisturbed (initData config) backend.usb → Aimed (initData config) backend.usb := by
  let holds (backend : DmSerialBackend config) : Prop := KeepsMit backend ∧
    (Undisturbed (initData config) backend.usb → Aimed (initData config) backend.usb)
  have kept : ∀ before after : DmSerialBackend config, Consistent before → Move before after → holds before →
      holds after :=
    fun _ _ built move both => ⟨KeepsMit.move built move both.1, aimed_move move both.1 both.2⟩
  have all : Consistent backend ∧ holds backend := by
    induction reached with
    | start begins =>
      cases begins
      refine ⟨?_, keepsMit_idle rfl, fun _ => List.forall_mem_nil _⟩
      intro control same
      cases same
    | next _ _ moved ih => exact (serial config).keeps holds kept (act_path ih.1 moved) ih.1 ih.2
  exact all.2.2

/-- A standard identifier that is the CAN ID of one motor, is not reserved for register accesses,
and is no other motor's master ID. -/
structure Fit (config : ArmConfig) (id : Id) : Prop where
  standard : id < 0x800
  own : ∃! motor, (initData config motor).canId = id
  free : id ≠ 0x7FF
  unshared : ∀ motor other, (initData config motor).canId = id → (initData config other).mstId = id → other = motor

/-- In every run that leaves all motors in MIT mode, each frame that is no register access goes
to a fit identifier. -/
def Unmistakable (platform : Platform) (config : ArmConfig) : Prop :=
  ∀ backend : DmSerialBackend config, Reach (serving platform {}) Anything backend →
    Undisturbed (initData config) backend.usb → ∀ frame ∈ backend.usb.sent, frame.kind ≠ .register →
      Fit config frame.id

/-- Connecting sends an enable command to the CAN ID of every registered motor. -/
theorem fit_of_registered {platform : Platform} (clear : Unmistakable platform config)
    {motor : Fin config.motors.length} (registered : Registered (initData config) motor) :
    Fit config (initData config motor).canId := by
  obtain ⟨host, enabled, moved, silent⟩ := exists_quiet platform config
  have calm : Undisturbed (initData config) host.usb := undisturbed_of_silent _ silent
  obtain ⟨_, woken, slept, rest⟩ := exec_bind_eq_ok enabled
  have waits : (bus (initData config)).Path ⟨MotorControl.new (initData config) 0, {}⟩ _ := usleep_follows _ (.new _)
  rw [slept] at waits
  have wokenBuilt := (bus (initData config)).inv_path waits (.new _)
  obtain ⟨middle, before, later⟩ := enableAll_visits platform wokenBuilt rest registered
  have path := waits.trans before
  have middleCalm := undisturbed_earlier ((advance_received middle).trans (path_logs later).2) calm
  have mit := ((bus (initData config)).keeps _ (fun _ _ built step => primitive_allMit built step) path (.new _)
    fun _ => ⟨fun _ => rfl, List.forall_mem_nil _⟩).2 middleCalm
  have sent := (path_logs later).1.subset (List.mem_append_right _ (List.mem_singleton_self _))
  rw [mit.modes, add_offset_mit] at sent
  have begun : Reach (serving platform ({} : DmSerialBackend config)) Anything {} := .start rfl
  have stepped : (serving platform ({} : DmSerialBackend config)).step {} (.operate .connect []) =
    some ⟨some host.control, host.usb⟩ := moved
  exact clear _ (begun.next trivial stepped) calm _ sent (by simp)

/-- A motor that no identifier leads to has the CAN ID of another motor as its master ID. -/
theorem registered_or_taken (accepted : Accepted config) (motor : Fin config.motors.length) :
    Registered (initData config) motor ∨
      ∃ other, Registered (initData config) other ∧ other ≠ motor ∧ (initData config other).canId = (initData config motor).mstId := by
  have uses : Uses (initData config) motor (initData config motor).mstId := .inr rfl
  have found : (MotorControl.registry (initData config)).find? (initData config motor).mstId ≠ none := fun absent =>
    (find?_registry_eq_none_iff _ _).mp absent motor uses
  obtain ⟨first, lookup⟩ := Option.ne_none_iff_exists'.mp found
  by_cases same : first = motor
  · subst same
    exact .inl ⟨_, lookup⟩
  · right
    refine ⟨first, ⟨_, lookup⟩, same, ?_⟩
    rcases ((find?_registry_eq_some_iff _ _ _).mp lookup).1 with can | master
    · exact can.symm
    · exact absurd (mstId_injective accepted master.symm) same

/-- The addressing of an accepted configuration is unmistakable exactly if every CAN ID is below
that of register accesses and no other motor has it as its master ID. -/
theorem unmistakable_iff {platform : Platform} (accepted : Accepted config) : Unmistakable platform config ↔
    ∀ motor, (initData config motor).canId < 0x7FF ∧
      ∀ other, (initData config other).mstId = (initData config motor).canId → other = motor := by
  constructor
  · intro clear motor
    have registered : Registered (initData config) motor := by
      rcases registered_or_taken accepted motor with known | ⟨other, known, different, same⟩
      · exact known
      · exact absurd ((fit_of_registered clear known).unshared other motor rfl same.symm) different.symm
    have fit := fit_of_registered clear registered
    refine ⟨?_, fun other => fit.unshared motor other rfl⟩
    have standard := fit.standard
    have free := fit.free
    bv_omega
  · intro apart backend reached calm frame member other
    obtain ⟨motor, _, target⟩ := reach_aimed reached calm frame member other
    have below := (apart motor).1
    rw [target]
    refine ⟨by bv_omega, ⟨motor, rfl, fun _ same => canId_injective accepted same⟩, by bv_omega, ?_⟩
    intro holder user same master
    rw [canId_injective accepted same]
    exact (apart motor).2 user master

theorem separate_joints_unmistakable : Unmistakable Platform.wrapping (joints [(1, 0x11), (2, 0x12)]) :=
  (unmistakable_iff separate_accepted).mpr (by decide)

/-- A joint with the identifier of register accesses is accepted, and enabled on it. -/
theorem management_id_is_driven : Accepted (joints [(0x7FF, 0x11)]) ∧
    ¬Unmistakable Platform.wrapping (joints [(0x7FF, 0x11)]) := by
  refine ⟨⟨"arm.yaml", .ok (document [motorEntry "0x7FF" "0x11"]), by decide +kernel⟩, ?_⟩
  intro clear
  have ran : ((serving Platform.wrapping ({} : DmSerialBackend (joints [(0x7FF, 0x11)]))).run (fun _ _ => true)
      [.operate .connect []] {}).map (fun backend => decide (backend.usb.received.length = 0 ∧
        ∃ frame ∈ backend.usb.sent, frame.kind ≠ .register ∧ frame.id = 0x7FF)) = some true := by decide +kernel
  obtain ⟨backend, reached, silent, frame, member, other, managed⟩ := Machine.reach_checked rfl ran
  have calm : Undisturbed (initData (joints [(0x7FF, 0x11)])) backend.usb :=
    undisturbed_of_silent _ (List.eq_nil_of_length_eq_zero silent)
  exact (clear backend reached.anything calm frame member other).free managed

end DmOpenarm.Addressing
