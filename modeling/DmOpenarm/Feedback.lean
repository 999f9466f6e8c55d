import DmOpenarm.Library.Latest
import DmOpenarm.ReliableBus
import DmOpenarm.YamlLoader
import Mathlib.Data.List.OfFn

/-! What the reported states say about received frames. The receive path tells feedback from
register replies by one flag, and finds the motor in a map that CAN and master IDs share. -/

namespace DmOpenarm.Feedback
open Types hiding ControlMode
open Damiao Registry Reception MotorBus Backend Traffic Operations ReliableBus YamlLoader
open Library.Effect Library.Runs Library.Latest

section Bus
variable {n : Nat} (data : Fin n → DmActData)

/-- A frame that a motor sent on its master ID to report its state. -/
def IsFeedback (motor : Fin n) (reception : Reception) : Prop :=
  reception.reply = false ∧ reception.frame.id = (data motor).mstId.setWidth 32

instance (motor : Fin n) (reception : Reception) : Decidable (IsFeedback data motor reception) :=
  inferInstanceAs (Decidable (_ ∧ _))

/-- Feedback that arrives while no register access is pending, or another frame that reaches no
motor or arrives while one is pending. -/
def Sorted (reception : Reception) : Prop :=
  if ∃ motor, IsFeedback data motor reception then reception.pending = false
  else (MotorControl.registry data).find? (reception.frame.id.setWidth 16) = none ∨ reception.pending = true

instance (reception : Reception) : Decidable (Sorted data reception) :=
  inferInstanceAs (Decidable (if ∃ motor, IsFeedback data motor reception then reception.pending = false
    else (MotorControl.registry data).find? (reception.frame.id.setWidth 16) = none ∨ reception.pending = true))

/-- Position, velocity and torque of a motor. -/
def measured (control : MotorControl n) (motor : Fin n) : ℚ × ℚ × ℚ :=
  ((control.objects motor).stateQ, (control.objects motor).stateDq, (control.objects motor).stateTau)

/-- What a received frame says about a motor, if it is feedback of that motor. -/
def reported (motor : Fin n) (reception : Reception) : Option (ℚ × ℚ × ℚ) :=
  if IsFeedback data motor reception then
    some (MotorControl.feedback (limitParam (data motor).motorType) reception.frame.data)
  else none

variable {data}

theorem IsFeedback.found (apart : Unambiguous data) {motor : Fin n} {reception : Reception}
    (feedback : IsFeedback data motor reception) :
    (MotorControl.registry data).find? (reception.frame.id.setWidth 16) = some motor := by
  have narrow : reception.frame.id.setWidth 16 = (data motor).mstId := by
    rw [feedback.2, BitVec.setWidth_setWidth_of_le _ (by decide), BitVec.setWidth_eq]
  rw [narrow]
  exact apart.find?_eq_some (.inr rfl)

/-- A frame sorted correctly updates the motor whose feedback it is, and no other. -/
theorem measured_receive (apart : Unambiguous data) {host : Host n} (built : Built data host.control)
    (arrival : Arrival) (sorted : Sorted data ⟨arrival.frame, arrival.reply, host.control.readWriteSave⟩)
    (motor : Fin n) :
    measured (host.receive arrival).control motor =
      (reported data motor ⟨arrival.frame, arrival.reply, host.control.readWriteSave⟩).getD
        (measured host.control motor) := by
  have handled := canframeCallback_handled host.control (host.usb.clock + arrival.elapsed) arrival.frame
  change measured (host.control.canframeCallback _ _) motor = _
  generalize host.control.canframeCallback _ _ = after at handled
  cases handled with
  | unknown absent =>
    have silent : ¬IsFeedback data motor ⟨arrival.frame, arrival.reply, host.control.readWriteSave⟩ := by
      intro feedback
      rw [built.motors, feedback.found apart] at absent
      cases absent
    rw [reported, if_neg silent, Option.getD_none]
  | @register target _ found pending registers =>
    have silent : ¬IsFeedback data motor ⟨arrival.frame, arrival.reply, host.control.readWriteSave⟩ := by
      intro feedback
      rw [Sorted, if_pos ⟨motor, feedback⟩] at sorted
      exact Bool.false_ne_true (sorted.symm.trans pending)
    obtain ⟨_, _, same⟩ := registers.objects motor
    rw [reported, if_neg silent, Option.getD_none, measured, measured, same]
  | @feedback target found idle =>
    rw [built.motors] at found
    have genuine : IsFeedback data target ⟨arrival.frame, arrival.reply, host.control.readWriteSave⟩ := by
      by_cases known : ∃ other, IsFeedback data other ⟨arrival.frame, arrival.reply, host.control.readWriteSave⟩
      · obtain ⟨other, feedback⟩ := known
        have same : other = target := Option.some.inj ((feedback.found apart).symm.trans found)
        exact same ▸ feedback
      · rw [Sorted, if_neg known] at sorted
        rcases sorted with absent | pending
        · rw [found] at absent
          cases absent
        · exact absurd (idle.symm.trans pending) Bool.false_ne_true
    rw [measured, objects_modifyMotor]
    by_cases same : motor = target
    · subst same
      rw [if_pos rfl, reported, if_pos genuine, Option.getD_some, ← built.limits]
      rfl
    · have silent : ¬IsFeedback data motor ⟨arrival.frame, arrival.reply, host.control.readWriteSave⟩ := by
        intro feedback
        exact same (Option.some.inj ((feedback.found apart).symm.trans found))
      rw [if_neg same, reported, if_neg silent, Option.getD_none]
      rfl

variable (data) in
/-- Since a point of time all frames were sorted correctly, so every motor shows the latest of
its feedback since then, or what it showed at that time. -/
def Tracks (start now : Host n) : Prop :=
  ∃ since, now.usb.received = start.usb.received ++ since ∧
    ((∀ reception ∈ since, Sorted data reception) →
      ∀ motor, measured now.control motor = (latest (reported data motor) since).getD (measured start.control motor))

theorem Tracks.refl (start : Host n) : Tracks data start start :=
  ⟨[], by simp, fun _ _ => rfl⟩

theorem Tracks.receive (apart : Unambiguous data) {start now : Host n} (built : Built data now.control)
    (tracks : Tracks data start now) (arrival : Arrival) :
    Tracks data start (now.receive arrival) := by
  obtain ⟨since, grown, follows⟩ := tracks
  refine ⟨since ++ [⟨arrival.frame, arrival.reply, now.control.readWriteSave⟩], ?_, ?_⟩
  · change now.usb.received ++ _ = _
    rw [grown, List.append_assoc]
  · intro sorted motor
    have earlier := follows (fun reception member => sorted reception (List.mem_append_left _ member)) motor
    have last := sorted _ (List.mem_append_right _ (List.mem_singleton_self _))
    rw [measured_receive apart built arrival last motor, earlier, latest_append]
    cases reported data motor _ with
    | none => rfl
    | some value => rfl

theorem Tracks.advance (apart : Unambiguous data) {start now : Host n} (built : Built data now.control)
    (tracks : Tracks data start now) : Tracks data start now.advance :=
  (advance_keeps (fun now => Built data now.control ∧ Tracks data start now)
    (fun _ arrival both => ⟨both.1.receive arrival, both.2.receive apart both.1 arrival⟩)
    (fun _ _ both => both) ⟨built, tracks⟩).2

theorem Tracks.primitive (apart : Unambiguous data) {start before after : Host n}
    (built : Built data before.control) (step : Primitive data before after)
    (tracks : Tracks data start before) : Tracks data start after := by
  cases step with
  | wait => exact tracks.advance apart built
  | send frame addressed => exact tracks.advance apart built
  | expect => exact tracks

end Bus

variable {config : ArmConfig}

/-- No motor's CAN ID is the master ID of another motor. -/
def KindsApart (config : ArmConfig) : Prop :=
  ∀ first second : Fin config.motors.length, first ≠ second →
    (config.motors.get first).canId ≠ (config.motors.get second).mstId

instance : Decidable (KindsApart config) :=
  inferInstanceAs (Decidable (∀ first second : Fin config.motors.length, first ≠ second → _))

theorem unambiguous_of_apart (accepted : Accepted config) (apart : KindsApart config) :
    Unambiguous (initData config) := by
  have canIds := canId_injective accepted
  have mstIds := mstId_injective accepted
  intro id first second usesFirst usesSecond
  rcases usesFirst with can | mst
  · rcases usesSecond with canToo | mstToo
    · exact canIds (can.symm.trans canToo)
    · by_contra different
      exact apart first second different (can.symm.trans mstToo)
  · rcases usesSecond with canToo | mstToo
    · by_contra different
      exact apart second first (Ne.symm different) (canToo.symm.trans mst)
    · exact mstIds (mst.symm.trans mstToo)

theorem states_eq (apart : Unambiguous (initData config)) {control : MotorControl config.motors.length}
    (built : Built (initData config) control) (usb : Usb) :
    states ⟨some control, usb⟩ =
      .ok (List.ofFn fun motor => stateOf control (config.motors.get motor) motor) := by
  apply mapM_ok
  intro motor
  have found : control.getMotor (config.motors.get motor).canId = some motor := by
    rw [MotorControl.getMotor, built.motors]
    exact apart.find?_eq_some (.inl rfl)
  rw [readState, found]

/-- An exchange on the bus keeps every motor up to date. -/
theorem tracks_exchange (apart : Unambiguous (initData config)) (start : Host config.motors.length)
    {before after : DmSerialBackend config} (built : Consistent before) (step : Exchange before after)
    (tracked : ∃ host : Host config.motors.length, before = ⟨some host.control, host.usb⟩ ∧
      Tracks (initData config) start host) :
    ∃ host : Host config.motors.length, after = ⟨some host.control, host.usb⟩ ∧
      Tracks (initData config) start host := by
  obtain ⟨host, same, tracks⟩ := tracked
  cases step with
  | @bus first last step =>
    cases eq_of_attached same
    exact ⟨last, rfl, tracks.primitive apart (built _ rfl) step⟩
  | receive first arrival =>
    cases eq_of_attached same
    exact ⟨_, rfl, tracks.receive apart (built _ rfl) arrival⟩
  | script backend script =>
    cases same
    exact ⟨host.withScript script, rfl, tracks⟩

theorem serving_tracks (apart : Unambiguous (initData config)) {platform : Platform}
    {start : Host config.motors.length} (built : Built (initData config) start.control)
    {now : DmSerialBackend config}
    (run : Reach (serving platform ⟨some start.control, start.usb⟩) (fun _ action => action.serves = true) now) :
    ∃ host : Host config.motors.length, now = ⟨some host.control, host.usb⟩ ∧
      Built (initData config) host.control ∧ Tracks (initData config) start host := by
  have consistent : Consistent ⟨some start.control, start.usb⟩ := by
    intro control same
    cases same
    exact built
  obtain ⟨still, host, same, tracks⟩ := serving_keeps _ consistent ⟨start, rfl, .refl start⟩
    (fun _ _ built step tracked => tracks_exchange apart start built step tracked) run
  subst same
  exact ⟨host, rfl, still host.control rfl, tracks⟩

/-- The states hold, for each motor, its latest feedback since a point of time, or what they
held at that time. -/
def ReportsLatest (start now : DmSerialBackend config) : Prop :=
  ∃ entry earlier : Fin config.motors.length → MotorState,
    states now = .ok (List.ofFn entry) ∧ states start = .ok (List.ofFn earlier) ∧
    ∀ motor, (entry motor).canId = (config.motors.get motor).canId ∧
      (entry motor).mstId = (config.motors.get motor).mstId ∧
      ((entry motor).position, (entry motor).velocity, (entry motor).torque) =
        (latest (reported (initData config) motor)
          (now.usb.received.drop start.usb.received.length)).getD
        ((earlier motor).position, (earlier motor).velocity, (earlier motor).torque)

theorem states_report_latest (platform : Platform) (accepted : Accepted config) (apart : KindsApart config)
    {usb : Usb} {start now : DmSerialBackend config}
    (connected : exec (connect platform) ⟨none, usb⟩ = (.ok (), start))
    (run : Reach (serving platform start) (fun _ action => action.serves = true) now)
    (sorted : ∀ reception ∈ now.usb.received.drop start.usb.received.length,
      Sorted (initData config) reception) :
    ReportsLatest start now := by
  obtain ⟨built, first, same⟩ := connect_returned connected
  subst same
  have unambiguous := unambiguous_of_apart accepted apart
  obtain ⟨last, same, builtLast, since, grown, follows⟩ := serving_tracks unambiguous (built first.control rfl) run
  subst same
  have recent : last.usb.received.drop first.usb.received.length = since := by
    rw [grown, List.drop_left]
  refine ⟨_, _, states_eq unambiguous builtLast last.usb,
    states_eq unambiguous (built first.control rfl) first.usb, fun motor => ⟨rfl, rfl, ?_⟩⟩
  rw [recent]
  rw [recent] at sorted
  exact follows sorted motor

/-- One joint, right after connecting: its mode was read, but no reply has come. -/
def enabledJoint : DmSerialBackend (joints [(1, 0x11)]) := (exec (connect Platform.wrapping) ⟨none, {}⟩).2

theorem enabledJoint_connected : exec (connect Platform.wrapping) ⟨none, {}⟩ = (.ok (), enabledJoint) := by
  have returned : (exec (connect Platform.wrapping)
      (⟨none, {}⟩ : DmSerialBackend (joints [(1, 0x11)]))).1 = .ok () := by decide +kernel
  rw [enabledJoint, ← returned]

/-- The answer to a mode read. -/
def modeFrame : CanFrame where
  id := 0x11
  data index := if index = 0 ∨ index = 4 then 1 else if index = 2 then 0x33 else if index = 3 then 10 else 0

/-- Feedback of a joint at the upper end of its range. -/
def endFrame : CanFrame where
  id := 0x11
  data index := if index = 1 ∨ index = 2 then 0xFF else 0

theorem answered_joint_reports : ∃ now, ReportsLatest enabledJoint now ∧
    (states now).map (List.map MotorState.position) = .ok [12.5] := by
  have ran : ((serving Platform.wrapping enabledJoint).run (fun _ action => action.serves)
      [.receive { frame := modeFrame, reply := true }, .receive { frame := endFrame }] enabledJoint).map (fun now =>
        decide ((∀ reception ∈ now.usb.received.drop enabledJoint.usb.received.length,
          Sorted (initData (joints [(1, 0x11)])) reception) ∧
          (states now).map (List.map MotorState.position) = .ok [12.5])) = some true := by decide +kernel
  obtain ⟨now, reached, sorted, shown⟩ := Machine.reach_checked rfl ran
  exact ⟨now, states_report_latest Platform.wrapping joint_accepted (by decide) enabledJoint_connected reached sorted, shown⟩

/-- Feedback that comes while the answer to the mode read is still missing is lost. -/
theorem unanswered_joint_is_stale : Accepted (joints [(1, 0x11)]) ∧
    exec (connect Platform.wrapping) ⟨none, {}⟩ = (.ok (), enabledJoint) ∧
    ∃ now, Reach (serving Platform.wrapping enabledJoint) (fun _ action => action.serves = true) now ∧
      ¬ReportsLatest enabledJoint now := by
  refine ⟨joint_accepted, enabledJoint_connected, ?_⟩
  have ran : ((serving Platform.wrapping enabledJoint).run (fun _ action => action.serves)
      [.receive { frame := endFrame }] enabledJoint).map (fun now =>
        decide ((states now).map (List.map MotorState.position) = .ok [0] ∧
          (latest (reported (initData (joints [(1, 0x11)])) ⟨0, by decide⟩)
            (now.usb.received.drop enabledJoint.usb.received.length)).map Prod.fst = some 12.5)) = some true := by
    decide +kernel
  obtain ⟨now, reached, shown, last⟩ := Machine.reach_checked rfl ran
  obtain ⟨value, newest, position⟩ := Option.map_eq_some_iff.mp last
  refine ⟨now, reached, ?_⟩
  intro reports
  obtain ⟨entry, earlier, read, _, each⟩ := reports
  have same := congrArg Prod.fst (each ⟨0, by decide⟩).2.2
  rw [newest, Option.getD_some, position] at same
  rw [read] at shown
  have zero : (entry ⟨0, by decide⟩).position = 0 := (List.cons.inj (Except.ok.inj shown)).1
  rw [zero] at same
  have different : (0 : ℚ) ≠ 12.5 := by decide +kernel
  exact different same

end DmOpenarm.Feedback
