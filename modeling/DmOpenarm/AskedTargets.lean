import DmOpenarm.FifoLines
import DmOpenarm.LineEffects
import DmOpenarm.YamlLoader

/-! What arm_mit_control is asked for depends on its configuration, on the positions that the motors report at its
start, and on the bytes of the FIFO. How the bytes are cut into reads, when the control ticks come in between, and
what states() answers later makes no difference to the requested targets. -/

namespace DmOpenarm.AskedTargets
open Types CommandLine ArmMitControl FifoLines LineEffects
open Library.Ieee Library.Runs Library.Segments
variable {outOfRange : ℚ → Bool} {config : ArmConfig}

/-- The targets that a line asks for. -/
def ask (outOfRange : ℚ → Bool) (config : ArmConfig) (home requested : Fin config.motors.length → Double)
    (line : String) : Fin config.motors.length → Double :=
  match parseMitControlCommand outOfRange line with
  | .error _ => requested
  | .ok command =>
      match command.kind with
      | .homeAll => home
      | .move =>
          match ArmMitControl.motorIndex command.canId config.motors with
          | .ok motor => Function.update requested motor ((requested motor).add command.deltaRad)
          | .error _ => requested
      | .homeOne =>
          match ArmMitControl.motorIndex command.canId config.motors with
          | .ok motor => Function.update requested motor (home motor)
          | .error _ => requested
      | _ => requested

/-- The complete lines of a text. -/
def completeLines (text : List Char) : List String := (splitLines text).1.map String.ofList

/-- The targets that a text asks for. -/
def asked (outOfRange : ℚ → Bool) (config : ArmConfig) (pose : Fin config.motors.length → ℚ) (lines : List String) :
    Fin config.motors.length → Double :=
  lines.foldl (ask outOfRange config fun motor => .finite (pose motor)) fun motor => .finite (pose motor)

/-- A session, and the bytes that it has read since its beginning. -/
structure Reader (n : Nat) where
  session : Session n
  bytes : List Char := []

/-- What an action reads. -/
def heard : ArmMitControl.Action → List Char
  | .read chunks => chunks.flatten
  | _ => []

/-- The machine of the program, with a record of what it reads. -/
def recording (outOfRange : ℚ → Bool) (config : ArmConfig) (pose : Fin config.motors.length → ℚ) :
    Machine (Reader config.motors.length) ArmMitControl.Action where
  initial reader := reader = ⟨Session.begin pose, []⟩
  step reader action := (ArmMitControl.step outOfRange config reader.session action).map fun session =>
    ⟨session, reader.bytes ++ heard action⟩

/-- Handling a line gives the targets that it asks for, whatever states() answers. -/
theorem handleLine_asks (states : Except Fault (List MotorState)) (session : Session config.motors.length)
    (line : String) : (handleLine outOfRange config states session line).requestedTargets =
      ask outOfRange config session.homeTargets session.requestedTargets line := by
  have absent {id : Id} (nowhere : ∀ motor, (config.motors.get motor).canId ≠ id) :
      ∃ fault, ArmMitControl.motorIndex id config.motors = .error fault := by
    cases found : ArmMitControl.motorIndex id config.motors with
    | ok motor => exact absurd (motorIndex_ok.mp found).1 (nowhere motor)
    | error fault => exact ⟨fault, rfl⟩
  unfold handleLine ask
  cases parseMitControlCommand outOfRange line with
  | error fault => rfl
  | ok command =>
    dsimp only
    unfold execute
    cases command.kind with
    | status => cases states <;> rfl
    | stop => rfl
    | homeAll => rfl
    | move | homeOne =>
      rcases lookup_cases config command.canId with ⟨motor, _, known, index⟩ | ⟨nowhere, fault, unknown⟩
      · simp only [known, index]
        rfl
      · obtain ⟨other, missing⟩ := absent nowhere
        simp only [unknown, missing]
        rfl

/-- Lines are cut from a text and from what it goes on with as from the whole. -/
theorem splitLines_append (text more : List Char) : splitLines (text ++ more) =
    ((splitLines text).1 ++ (splitLines ((splitLines text).2 ++ more)).1,
      (splitLines ((splitLines text).2 ++ more)).2) := by
  have continued := (FifoCommandReader.splitLines_segmented text).append
    (FifoCommandReader.splitLines_segmented ((splitLines text).2 ++ more))
  obtain ⟨lines, pending⟩ := (FifoCommandReader.splitLines_segmented (text ++ more)).unique continued
  exact Prod.ext lines pending

/-- The lines of the bytes are those that have been handled, and then those that wait. -/
structure Follows (outOfRange : ℚ → Bool) (config : ArmConfig) (pose : Fin config.motors.length → ℚ)
    (handled : List String) (reader : Reader config.motors.length) : Prop where
  lines : completeLines reader.bytes = handled ++ reader.session.lines
  pending : reader.session.pending = (splitLines reader.bytes).2
  requested : reader.session.requestedTargets = asked outOfRange config pose handled
  home : reader.session.homeTargets = fun motor => .finite (pose motor)
  between : reader.session.place = .test → reader.session.lines = []

theorem Follows.step {pose : Fin config.motors.length → ℚ} {handled : List String}
    {reader after : Reader config.motors.length} {action : ArmMitControl.Action}
    (follows : Follows outOfRange config pose handled reader)
    (moved : (recording outOfRange config pose).step reader action = some after) :
    ∃ more, Follows outOfRange config pose (handled ++ more) after := by
  obtain ⟨session, stepped, same⟩ := Option.map_eq_some_iff.mp moved
  subst same
  have silent {other : Session config.motors.length} (quiet : heard action = [])
      (lines : other.lines = reader.session.lines) (pending : other.pending = reader.session.pending)
      (requested : other.requestedTargets = reader.session.requestedTargets)
      (home : other.homeTargets = reader.session.homeTargets) (between : other.place = .test → other.lines = []) :
      Follows outOfRange config pose (handled ++ []) ⟨other, reader.bytes ++ heard action⟩ := by
    rw [quiet, List.append_nil, List.append_nil]
    refine ⟨?_, pending.trans follows.pending, requested.trans follows.requested, home.trans follows.home, between⟩
    rw [follows.lines]
    exact congrArg (handled ++ ·) lines.symm
  cases action with
  | interrupt =>
    cases stepped
    exact ⟨[], silent rfl rfl rfl rfl rfl follows.between⟩
  | read chunks =>
    by_cases ready : reader.session.place = .test ∧ reader.session.running
    · rw [ArmMitControl.step, if_pos ready] at stepped
      cases stepped
      refine ⟨[], ?_⟩
      rw [List.append_nil]
      have split := splitLines_append reader.bytes chunks.flatten
      have empty := follows.between ready.1
      refine ⟨?_, ?_, follows.requested, follows.home, Place.noConfusion⟩
      · change completeLines (reader.bytes ++ chunks.flatten) =
          handled ++ (splitLines (reader.session.pending ++ chunks.flatten)).1.map String.ofList
        rw [completeLines, split, List.map_append, follows.pending]
        have before : (splitLines reader.bytes).1.map String.ofList = handled := by
          have all := follows.lines
          rw [empty, List.append_nil] at all
          exact all
        rw [before]
      · change (splitLines (reader.session.pending ++ chunks.flatten)).2 = (splitLines (reader.bytes ++ chunks.flatten)).2
        rw [split, follows.pending]
    · rw [ArmMitControl.step, if_neg ready] at stepped
      cases stepped
  | line states =>
    cases place : reader.session.place with
    | test => simp [ArmMitControl.step, place] at stepped
    | left => simp [ArmMitControl.step, place] at stepped
    | handle =>
      rcases queued : reader.session.lines with _ | ⟨line, rest⟩
      · simp [ArmMitControl.step, place, queued] at stepped
      · simp only [ArmMitControl.step, place, queued, Option.some.injEq] at stepped
        subst stepped
        have kept := handleLine_place outOfRange states { reader.session with place := .handle, lines := rest } line
        refine ⟨[line], ?_, kept.2.2.trans ?_, ?_, ?_, ?_⟩
        · change completeLines (reader.bytes ++ []) = _
          rw [List.append_nil, follows.lines, queued, kept.2.1, List.append_assoc]
          rfl
        · change _ = (splitLines (reader.bytes ++ [])).2
          rw [List.append_nil]
          exact follows.pending
        · change (handleLine outOfRange config states { reader.session with place := .handle, lines := rest } line).requestedTargets = _
          rw [handleLine_asks, asked, List.foldl_append]
          change ask outOfRange config reader.session.homeTargets reader.session.requestedTargets line = _
          rw [follows.home, follows.requested]
          rfl
        · exact (handleLine_frame outOfRange states { reader.session with place := .handle, lines := rest } line).1.trans follows.home
        · intro there
          cases kept.1.symm.trans there
  | send throws =>
    cases place : reader.session.place with
    | test => simp [ArmMitControl.step, place] at stepped
    | left => simp [ArmMitControl.step, place] at stepped
    | handle =>
      rcases queued : reader.session.lines with _ | ⟨line, rest⟩
      · simp only [ArmMitControl.step, place, queued, Option.some.injEq] at stepped
        subst stepped
        exact ⟨[], silent rfl rfl rfl rfl rfl fun _ => queued⟩
      · simp [ArmMitControl.step, place, queued] at stepped
  | leave =>
    by_cases ended : reader.session.place = .test ∧ reader.session.running = false
    · rw [ArmMitControl.step, if_pos ended] at stepped
      cases stepped
      exact ⟨[], silent rfl rfl rfl rfl rfl Place.noConfusion⟩
    · rw [ArmMitControl.step, if_neg ended] at stepped
      cases stepped

theorem follows_of_reach {pose : Fin config.motors.length → ℚ}
    {allowed : Reader config.motors.length → ArmMitControl.Action → Prop} {reader : Reader config.motors.length}
    (reached : Reach (recording outOfRange config pose) allowed reader) :
    ∃ handled, Follows outOfRange config pose handled reader := by
  induction reached with
  | start begins =>
    subst begins
    exact ⟨[], rfl, rfl, rfl, rfl, fun _ => rfl⟩
  | next _ _ moved ih =>
    obtain ⟨handled, follows⟩ := ih
    obtain ⟨more, after⟩ := follows.step moved
    exact ⟨handled ++ more, after⟩

/-- Once its lines are handled, a session has been asked for what the complete lines of its bytes ask for. Two
sessions with the same configuration and the same positions reported at their start (`pose`) that have read the
same bytes have the same requested targets, however their reads were cut, their ticks
came in between, their status lines were answered, and whatever was interrupted. -/
theorem bytes_decide_targets {pose : Fin config.motors.length → ℚ} {first second : Reader config.motors.length}
    (one : Reach (recording outOfRange config pose) Anything first)
    (other : Reach (recording outOfRange config pose) Anything second) (same : first.bytes = second.bytes)
    (done : first.session.lines = []) (finished : second.session.lines = []) :
    first.session.requestedTargets = asked outOfRange config pose (completeLines first.bytes) ∧
      second.session.requestedTargets = first.session.requestedTargets ∧
      second.session.pending = first.session.pending := by
  have decided {reader : Reader config.motors.length} (reached : Reach (recording outOfRange config pose) Anything reader)
      (empty : reader.session.lines = []) :
      reader.session.requestedTargets = asked outOfRange config pose (completeLines reader.bytes) ∧
        reader.session.pending = (splitLines reader.bytes).2 := by
    obtain ⟨handled, follows⟩ := follows_of_reach reached
    have lines := follows.lines
    rw [empty, List.append_nil] at lines
    exact ⟨lines ▸ follows.requested, follows.pending⟩
  obtain ⟨targets, pending⟩ := decided one done
  obtain ⟨others, rest⟩ := decided other finished
  rw [← same] at others rest
  exact ⟨targets, others.trans targets.symm, rest.trans pending.symm⟩

/-- A move that comes in two reads, with a tick between them, and the same move in one. -/
theorem cut_move_agrees : ∃ first second : Reader (YamlLoader.joints [(1, 0x11)]).motors.length,
    first.session.batches.length = 1 ∧ second.session.batches.length = 0 ∧
      first.session.requestedTargets ⟨0, by decide⟩ = .finite (1 / 20) ∧
      second.session.requestedTargets = first.session.requestedTargets := by
  have cut : ((recording (fun _ => false) (YamlLoader.joints [(1, 0x11)]) fun _ => 0).run (fun _ _ => true)
      [.read ["move 1 ".toList], .send false, .read ["0.0".toList, "5\n".toList], .line (.ok [])]
      ⟨Session.begin fun _ => 0, []⟩).map (fun reader => decide (reader.session.lines = [] ∧
        reader.bytes = "move 1 0.05\n".toList ∧ reader.session.batches.length = 1 ∧
        reader.session.requestedTargets ⟨0, by decide⟩ = .finite (1 / 20))) = some true := by decide +kernel
  have whole : ((recording (fun _ => false) (YamlLoader.joints [(1, 0x11)]) fun _ => 0).run (fun _ _ => true)
      [.read ["move 1 0.05\n".toList], .line (.error .usb)] ⟨Session.begin fun _ => 0, []⟩).map (fun reader =>
        decide (reader.session.lines = [] ∧ reader.bytes = "move 1 0.05\n".toList ∧
          reader.session.batches.length = 0)) = some true := by decide +kernel
  obtain ⟨first, one, done, bytes, batch, moved⟩ := Machine.reach_checked rfl cut
  obtain ⟨second, other, finished, same, nothing⟩ := Machine.reach_checked rfl whole
  obtain ⟨_, equal, _⟩ := bytes_decide_targets one.anything other.anything (bytes.trans same.symm) done finished
  exact ⟨first, second, batch, nothing, moved, equal⟩

end DmOpenarm.AskedTargets
