import DmOpenarm.HeldPose
import DmOpenarm.Ramping

/-! What arm_mit_control sends. Its loop is a run of the machine of the session, and on the wire
there are the batches of that session. -/

namespace DmOpenarm.SentTargets
open Types hiding ControlMode
open Operations hiding machine
open Library.Quantise hiding step
open Damiao MotorBus Backend Traffic MitFrame Dispatch YamlLoader CommandLine ArmMitControl Ramping BatchTraffic
open Examples ExampleExits ExampleTraffic HeldPose Records
open Library.Effect Library.Ieee Library.Output Library.Runs Library.Latest

variable {config : ArmConfig} {outOfRange : ℚ → Bool} {narrowing : Narrowing} {platform : Platform}
  {pose : Fin config.motors.length → ℚ}

/-- The queue of a turn is handled to its end, one line after the other. -/
theorem handleLines_reaches (lines : List String) {session : Session config.motors.length}
    (reached : Reach (machine outOfRange config pose) Anything session) (place : session.place = .handle)
    (queued : session.lines = lines) (backend : DmSerialBackend config) :
    ∃ handled after, exec (handleLines outOfRange lines session) backend = (.ok handled, after) ∧
      Reach (machine outOfRange config pose) Anything handled ∧ handled.place = .handle ∧ handled.lines = [] ∧
      handled.batches = session.batches ∧ after.usb.sent = backend.usb.sent := by
  induction lines generalizing session backend with
  | nil => exact ⟨session, backend, rfl, reached, place, queued, rfl, rfl⟩
  | cons line rest ih =>
    rcases paused : exec pause backend with ⟨fault | _, middle⟩
    · cases paused
    have kept := pause_sent backend
    rw [paused] at kept
    obtain ⟨samePlace, sameLines, _⟩ :=
      handleLine_place outOfRange (states middle) { session with lines := rest } line
    have sent := (handleLine_frame outOfRange (states middle) { session with lines := rest } line).2.2
    have moved : (machine outOfRange config pose).step session (.line (states middle)) =
        some (handleLine outOfRange config (states middle) { session with lines := rest } line) := by
      simp only [machine, step, place, queued]
    obtain ⟨handled, after, ran, goal, stays, emptied, batches, quiet⟩ :=
      ih (reached.next trivial moved) (samePlace.trans place) sameLines middle
    refine ⟨handled, after, ?_, goal, stays, emptied, batches.trans sent, quiet.trans kept⟩
    rw [handleLines, exec_bind_ok paused, exec_get_bind]
    exact ran

/-- The commands of a batch as they are handed to the arm. -/
def handed (narrowing : Narrowing) (sent : Batch config.motors.length) : List MitCommand :=
  List.ofFn fun motor => Command.toMit narrowing (sent.commands motor)

/-- The frames of a history of batches, which is kept newest first. -/
def wire (platform : Platform) (narrowing : Narrowing) (batches : List (Batch config.motors.length)) : List TxFrame :=
  batches.reverse.flatMap fun sent => plan config platform (handed narrowing sent)

theorem wire_cons (sent : Batch config.motors.length) (earlier : List (Batch config.motors.length)) :
    wire platform narrowing (sent :: earlier) =
      wire platform narrowing earlier ++ plan config platform (handed narrowing sent) := by
  simp only [wire, List.reverse_cons, List.flatMap_append, List.flatMap_singleton]

/-- What the loop has sent of the batches of a session: all of them, or all but a part of the last. -/
def SentOf (platform : Platform) (narrowing : Narrowing) (batches : List (Batch config.motors.length))
    (sent : List TxFrame) : Prop :=
  sent <+: wire platform narrowing batches ∧ wire platform narrowing batches.tail <+: sent

theorem sentOf_all (batches : List (Batch config.motors.length)) :
    SentOf platform narrowing batches (wire platform narrowing batches) := by
  refine ⟨List.prefix_refl _, ?_⟩
  cases batches with
  | nil => exact List.prefix_refl _
  | cons sent earlier =>
    rw [wire_cons]
    exact List.prefix_append _ _

/-- The loop is a run of the session, and sends its batches. -/
theorem controlLoop_reaches (platform : Platform) (turns : List (List (List Char))) {session : Session config.motors.length}
    (reached : Reach (machine outOfRange config pose) Anything session) (place : session.place = .test)
    {start : DmSerialBackend config} (sound : Sound start) {before : List TxFrame}
    (sent : mitTraffic start = before ++ wire platform narrowing session.batches) :
    ∃ last items, Reach (machine outOfRange config pose) Anything last ∧
      mitTraffic (exec (controlLoop platform outOfRange narrowing turns session) start).2 = before ++ items ∧
      SentOf platform narrowing last.batches items ∧
      ∀ value, (exec (controlLoop platform outOfRange narrowing turns session) start).1 = .ok value →
        items = wire platform narrowing last.batches := by
  induction turns generalizing session start with
  | nil => exact ⟨session, _, reached, sent, sentOf_all _, fun _ _ => rfl⟩
  | cons chunks later ih =>
    rw [controlLoop]
    by_cases running : session.running = true
    case neg =>
      rw [if_neg running]
      exact ⟨session, _, reached, sent, sentOf_all _, fun _ _ => rfl⟩
    case pos =>
      rw [if_pos running]
      have moved : (machine outOfRange config pose).step session (.read chunks) = some { session with
          place := .handle, lines := (readLines session.pending chunks).1
          pending := (readLines session.pending chunks).2 } := by
        simp only [machine, step, place, running, and_self, ↓reduceIte]
      obtain ⟨handled, middle, ran, goal, stays, emptied, batches, quiet⟩ :=
        handleLines_reaches _ (reached.next trivial moved) rfl rfl start
      have kept := sound.follows (serial_of_service (handleLines_follows outOfRange (readLines session.pending chunks).1
        { session with
          place := .handle, lines := (readLines session.pending chunks).1
          pending := (readLines session.pending chunks).2 }))
      rw [ran] at kept
      have ticks (place : Place) (throws : Bool) (same : place = if throws then .left else .test) :
          (machine outOfRange config pose).step handled (.send throws) = some { tick config handled with place } := by
        simp only [machine, step, stays, emptied, same]
      have history : wire platform narrowing (tick config handled).batches =
          wire platform narrowing session.batches ++ plan config platform (batch narrowing handled) := by
        rw [← batches]
        exact wire_cons _ _
      have reading : mitTraffic middle = before ++ wire platform narrowing session.batches := by
        rw [mitTraffic, quiet]
        exact sent
      obtain ⟨soundly, writes⟩ := sendMitAll_traffic platform
        (show (batch narrowing handled).length = config.motors.length from List.length_ofFn) middle kept
      have written := (writes trivial).2
      rw [exec_bind_ok ran]
      rcases outcome : exec (sendMitAll platform (batch narrowing handled)) middle with ⟨fault | _, arm⟩
      · rw [outcome] at written
        obtain ⟨items, grown, early, _⟩ := written
        rw [exec_bind_error outcome]
        refine ⟨_, wire platform narrowing session.batches ++ items, goal.next trivial (ticks .left true rfl), ?_,
          ⟨?_, ?_⟩, ?_⟩
        · rw [← List.append_assoc, ← reading]
          exact grown
        · change _ <+: wire platform narrowing (tick config handled).batches
          rw [history]
          exact (List.prefix_append_right_inj _).mpr early
        · change wire platform narrowing handled.batches <+: _
          rw [batches]
          exact List.prefix_append _ _
        · intro value returned
          cases returned
      · rw [outcome] at soundly written
        rw [exec_bind_ok outcome]
        rcases paused : exec pause arm with ⟨fault | _, awake⟩
        · cases paused
        have slept := soundly.follows (serial_of_service pause_follows)
        have silent := pause_sent arm
        rw [paused] at slept silent
        rw [exec_bind_ok paused]
        refine ih (goal.next trivial (ticks .test false rfl)) rfl slept ?_
        change mitTraffic awake = before ++ wire platform narrowing (tick config handled).batches
        rw [history, ← List.append_assoc, ← reading, ← written.returned, mitTraffic, silent]
        rfl

theorem poseOf_shown {backend : DmSerialBackend config} (sound : Sound backend) {reported : List MotorState}
    (read : states backend = .ok reported) : poseOf reported = shownPosition config backend.usb.received := by
  funext motor
  have held := holdCommands_shown sound read
  have complete := states_length read
  have inside : motor.val < reported.length := by
    rw [complete]
    exact motor.isLt
  have same := congrArg (fun commands => (commands[motor.val]?).map MitCommand.q) held
  simp only [holdCommands, heldCommands, List.getElem?_map, List.getElem?_ofFn, List.getElem?_eq_getElem inside,
    dif_pos motor.isLt, Option.map_some, Option.some.injEq] at same
  rw [poseOf, List.getElem?_eq_getElem inside]
  exact same

def zeroBatch (platform : Platform) (config : ArmConfig) : List TxFrame :=
  plan config platform (List.replicate config.motors.length {})

/-- The MIT commands of a run with a session: a zero batch, and then the batches of the session,
of which only the last may be cut short. -/
structure Carries (platform : Platform) (narrowing : Narrowing) (session : Session config.motors.length)
    (sent : List TxFrame) : Prop where
  early : sent <+: zeroBatch platform config ++ wire platform narrowing session.batches
  late : session.batches = [] ∨ zeroBatch platform config ++ wire platform narrowing session.batches.tail <+: sent

/-- What follows when the states have been read. -/
def afterOpening (platform : Platform) (outOfRange : ℚ → Bool) (narrowing : Narrowing) (fifo : Except String Unit)
    (turns : List (List (List Char))) (reported : List MotorState) : BackendM config Unit :=
  match fifo with
  | .error what => throw (.runtimeError what)
  | .ok _ => do
      let _ ← controlLoop platform outOfRange narrowing turns (Session.begin (poseOf reported))

theorem armMitControl_reaches (platform : Platform) (outOfRange : ℚ → Bool) (narrowing : Narrowing)
    (fifo : Except String Unit) (turns : List (List (List Char))) {start : DmSerialBackend config} (sound : Sound start)
    (silent : mitTraffic start = []) {outcome : Except Fault Unit} {after : DmSerialBackend config}
    (ran : exec (armMitControl platform outOfRange narrowing fifo turns) start = (outcome, after)) :
    ∃ seen session, seen <+: after.usb.received ∧
      Reach (machine outOfRange config (shownPosition config seen)) Anything session ∧
      Carries platform narrowing session (mitTraffic after) ∧
      (outcome = .ok () →
        mitTraffic after = zeroBatch platform config ++ wire platform narrowing session.batches) := by
  have begins : (armMitControl platform outOfRange narrowing fifo turns : BackendM config Unit) =
      opening platform >>= afterOpening platform outOfRange narrowing fifo turns := opening_bind platform _
  rw [begins] at ran
  rcases opening_cases platform sound with ⟨fault, middle, items, ended, grown, early⟩ |
    ⟨reported, middle, opened, kept, read, grown⟩
  · rw [exec_bind_error ended] at ran
    cases ran
    refine ⟨[], _, List.nil_prefix, .start rfl, ⟨?_, .inl rfl⟩, ?_⟩
    · rw [grown, silent, List.nil_append]
      exact early.trans (List.prefix_append _ _)
    · intro returned
      cases returned
  · rw [exec_bind_ok opened] at ran
    unfold afterOpening at ran
    rw [poseOf_shown kept read] at ran
    rw [silent, List.nil_append] at grown
    cases fifo with
    | error what =>
      cases ran
      refine ⟨_, _, List.prefix_refl _, .start rfl, ⟨?_, .inl rfl⟩, ?_⟩
      · rw [grown]
        exact List.prefix_append _ _
      · intro returned
        cases returned
    | ok _ =>
      have heard := received_grows (controlLoop_follows platform outOfRange narrowing turns
        (Session.begin (shownPosition config middle.usb.received)) middle kept.built)
      obtain ⟨session, items, reached, sent, carried, whole⟩ := @controlLoop_reaches config outOfRange narrowing
        (shownPosition config middle.usb.received) platform turns _ (.start rfl) rfl middle kept
        (zeroBatch platform config) (grown.trans (List.append_nil _).symm)
      have carries : Carries platform narrowing session (zeroBatch platform config ++ items) :=
        ⟨(List.prefix_append_right_inj _).mpr carried.1, .inr ((List.prefix_append_right_inj _).mpr carried.2)⟩
      rcases done : exec (controlLoop platform outOfRange narrowing turns
          (Session.begin (shownPosition config middle.usb.received))) middle with ⟨fault | last, arm⟩
      · rw [done] at heard sent
        dsimp only at ran
        rw [exec_bind_error done] at ran
        cases ran
        rw [sent]
        refine ⟨_, session, heard, reached, carries, ?_⟩
        intro returned
        cases returned
      · rw [done] at heard sent whole
        dsimp only at ran
        rw [exec_bind_ok done] at ran
        cases ran
        rw [sent]
        refine ⟨_, session, heard, reached, carries, ?_⟩
        intro _
        rw [whole last rfl]

theorem main_carries (platform : Platform) {outOfRange : ℚ → Bool} {narrowing : Narrowing}
    {fifo : Except String Unit} {turns : List (List (List Char))} {usb : Usb} {result : Except Fault Unit}
    {after : DmSerialBackend config}
    (ran : exec (Example.main platform (.armMitControl outOfRange narrowing fifo turns)) ⟨none, usb⟩ =
      (result, after)) :
    ∃ seen session, seen <+: after.usb.received ∧
      Reach (machine outOfRange config (shownPosition config seen)) Anything session ∧
      Carries platform narrowing session (mitTraffic after) ∧
      (result = .ok () →
        mitTraffic after = zeroBatch platform config ++ wire platform narrowing session.batches) := by
  rcases runArm_traffic (part_follows platform (.armMitControl outOfRange narrowing fifo turns)) ran with
    ⟨failed, plain⟩ | ⟨start, middle, outcome, sound, _, before, done, quiet, returns⟩
  · refine ⟨[], _, List.nil_prefix, .start rfl, ⟨?_, .inl rfl⟩, fun returned => absurd returned failed⟩
    rw [mitTraffic_plain plain]
    exact List.nil_prefix
  · obtain ⟨seen, session, heard, reached, carries, whole⟩ := armMitControl_reaches platform outOfRange narrowing fifo
      turns sound (mitTraffic_plain before) done
    have same : mitTraffic after = mitTraffic middle := quiet.filter plain_no_mit
    rw [same]
    exact ⟨seen, session, heard.trans quiet.received, reached, carries, fun returned => whole (returns returned)⟩

/-- Doubles without a value are sent as zero. -/
def Narrowing.toZero : Narrowing where
  number value :=
    match value with
    | .finite x => x
    | _ => 0
  number_finite _ := rfl

/-- One line moves the joint, and two batches are sent. -/
def movingJoint : Example :=
  .armMitControl (fun _ => false) Narrowing.toZero (.ok ()) [["move 0x01 0.05\n".toList], []]

end DmOpenarm.SentTargets
