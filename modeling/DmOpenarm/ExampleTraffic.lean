import DmOpenarm.BatchTraffic
import DmOpenarm.ExampleExits
import DmOpenarm.Records

/-! The frames that the example programs choose to send. Connecting and disabling send plain frames
only, so the rest are those of the part that is the example's own, from the first to the last. -/

namespace DmOpenarm.ExampleTraffic
open Types hiding ControlMode
open Damiao Registry MotorBus Backend Traffic Operations ReliableBus Shutdown Dispatch YamlLoader ZeroIds Records
open BatchTraffic ArmMitControl Examples ExampleExits Library.Effect Library.Output

variable {config : ArmConfig} {platform : Platform}

def mitTraffic (backend : DmSerialBackend config) : List TxFrame :=
  backend.usb.sent.filter fun frame => frame.kind = .mit

/-- Only plain frames are sent between the two. -/
structure Quiet (before after : DmSerialBackend config) : Prop where
  sent : ∃ added, after.usb.sent = before.usb.sent ++ added ∧ ∀ frame ∈ added, Plain frame
  received : before.usb.received <+: after.usb.received

theorem Quiet.refl (backend : DmSerialBackend config) : Quiet backend backend :=
  ⟨⟨[], (List.append_nil _).symm, List.forall_mem_nil _⟩, List.prefix_refl _⟩

theorem Quiet.trans {first second third : DmSerialBackend config} (one : Quiet first second) (other : Quiet second third) :
    Quiet first third := by
  obtain ⟨⟨begun, grown, early⟩, heard⟩ := one
  obtain ⟨⟨later, ended, late⟩, rest⟩ := other
  refine ⟨⟨begun ++ later, by rw [ended, grown, List.append_assoc], ?_⟩, heard.trans rest⟩
  intro frame member
  exact (List.mem_append.mp member).elim (early frame) (late frame)

/-- Frames chosen by something that no plain frame has are the same before and after. -/
theorem Quiet.filter {before after : DmSerialBackend config} (quiet : Quiet before after) {chosen : TxFrame → Bool}
    (special : ∀ frame, Plain frame → chosen frame = false) :
    after.usb.sent.filter chosen = before.usb.sent.filter chosen := by
  obtain ⟨added, grown, plain⟩ := quiet.sent
  have none : added.filter chosen = [] := by
    rw [List.filter_eq_nil_iff]
    intro frame member
    rw [special frame (plain frame member)]
    exact Bool.false_ne_true
  rw [grown, List.filter_append, none, List.append_nil]

theorem plain_no_mit (frame : TxFrame) (plain : Plain frame) : decide (frame.kind = .mit) = false :=
  decide_eq_false plain.1

theorem mitTraffic_plain {backend : DmSerialBackend config} (plain : ∀ frame ∈ backend.usb.sent, Plain frame) :
    mitTraffic backend = [] := by
  rw [mitTraffic, List.filter_eq_nil_iff]
  intro frame member
  rw [plain_no_mit frame (plain frame member)]
  exact Bool.false_ne_true

theorem disconnect_quiet (platform : Platform) {backend : DmSerialBackend config} (built : Consistent backend) :
    Quiet backend (exec (disconnect platform) backend).2 := by
  rcases backend with ⟨_ | control, usb⟩
  · rw [exec_disconnect_idle]
    exact .refl _
  · have disables : Follows (sending (initData config) Plain) (disableAll platform) :=
      disableAll_sends fun id => by simp [Plain, Lasting, disableFrame, commandBytes]
    have sends := sent_path (disables ⟨control, usb⟩ (built control rfl))
    have logs := path_logs (disableAll_follows platform ⟨control, usb⟩ (built control rfl))
    have connected : (⟨some control, usb⟩ : DmSerialBackend config).connected = true := rfl
    rw [disconnect, exec_get_bind, if_pos connected, exec_bind, exec_tryCatch, exec_onControl_some]
    rcases outcome : exec (disableAll platform) (Host.mk control usb) with ⟨fault | _, host⟩
    · rw [outcome] at sends logs
      exact ⟨sends, logs.2⟩
    · rw [outcome] at sends logs
      exact ⟨sends, logs.2⟩

theorem destroyArm_quiet (platform : Platform) {backend : DmSerialBackend config} (built : Consistent backend) :
    Quiet backend (exec (destroyArm platform) backend).2 := by
  have first := disconnect_quiet platform built
  have path := disconnect_follows platform backend built
  rw [destroyArm, exec_bind]
  rcases outcome : exec (disconnect platform) backend with ⟨fault | _, middle⟩
  · rw [outcome] at first
    exact first
  · rw [outcome] at first path
    exact first.trans (disconnect_quiet platform ((serial config).inv_path path built))

theorem withArm_quiet {block : BackendM config Unit} {start middle after : DmSerialBackend config}
    {outcome result : Except Fault Unit} (ran : exec block start = (outcome, middle)) (built : Consistent middle)
    (ended : exec (withArm platform block) start = (result, after)) :
    Quiet middle after ∧ (result = .ok () → outcome = .ok ()) := by
  have destroyed := destroyArm_quiet platform built
  rw [withArm, exec_bind, exec_tryCatch, ran] at ended
  rcases outcome with fault | _
  · have threw : Quiet middle after ∧ ∃ raised, result = .error raised := by
      cases fatal : fault.fatal with
      | true =>
        simp only [fatal, ↓reduceIte] at ended
        cases ended
        exact ⟨.refl middle, fault, rfl⟩
      | false =>
        simp only [fatal, Bool.false_eq_true, ↓reduceIte, exec_bind] at ended
        rcases outcome : exec (destroyArm platform) middle with ⟨raised | _, last⟩
        · rw [outcome] at ended destroyed
          cases ended
          exact ⟨destroyed, raised, rfl⟩
        · rw [outcome] at ended destroyed
          cases ended
          exact ⟨destroyed, fault, rfl⟩
    obtain ⟨quiet, raised, same⟩ := threw
    refine ⟨quiet, ?_⟩
    rw [same]
    intro returned
    cases returned
  · change exec (destroyArm platform) middle = (result, after) at ended
    rw [ended] at destroyed
    exact ⟨destroyed, fun _ => rfl⟩

/-- Serving only adds to what has been received. -/
theorem received_grows {before after : DmSerialBackend config} (path : (service config).Path before after) :
    before.usb.received <+: after.usb.received := by
  induction path with
  | refl => exact List.prefix_refl _
  | tail _ step ih =>
    refine ih.trans ?_
    cases step with
    | bus step => exact (path_logs (.single step)).2
    | receive host arrival => exact List.prefix_append _ _
    | script backend script => exact List.prefix_refl _

/-- If the arm is connected, the motors are as built, as the log says, and in MIT mode as long as
nothing switches them. -/
structure Sound (backend : DmSerialBackend config) : Prop where
  built : Consistent backend
  logged : KeepsLog backend
  mit : KeepsMit backend

theorem Sound.idle (usb : Usb) : Sound (⟨none, usb⟩ : DmSerialBackend config) :=
  ⟨idle_consistent usb, keepsLog_idle rfl, keepsMit_idle rfl⟩

theorem Sound.move {before after : DmSerialBackend config} (move : Move before after) (sound : Sound before) :
    Sound after :=
  ⟨(serial config).kept _ _ move sound.built, sound.logged.move sound.built move, sound.mit.move sound.built move⟩

theorem Sound.follows {α : Type} {program : BackendM config α} (follows : Follows (serial config) program)
    {backend : DmSerialBackend config} (sound : Sound backend) : Sound (exec program backend).2 :=
  ((serial config).keeps Sound (fun _ _ _ move before => before.move move) (follows backend sound.built) sound.built
    sound).2

/-- Around the part of an example that is its own there are plain frames only. -/
theorem runArm_traffic {part : BackendM config Unit} (follows : Follows (service config) part) {usb : Usb}
    {result : Except Fault Unit} {after : DmSerialBackend config}
    (ran : exec (runArm platform part) ⟨none, usb⟩ = (result, after)) :
    (result ≠ .ok () ∧ ∀ frame ∈ after.usb.sent, Plain frame) ∨
      ∃ start middle outcome, Sound start ∧ start.connected = true ∧ (∀ frame ∈ start.usb.sent, Plain frame) ∧
        exec part start = (outcome, middle) ∧ Quiet middle after ∧ (result = .ok () → outcome = .ok ()) := by
  have connects : Sound (exec (connect platform) (⟨none, usb⟩ : DmSerialBackend config)).2 :=
    (Sound.idle usb).follows (connect_follows platform)
  rcases connected : exec (connect platform) (⟨none, usb⟩ : DmSerialBackend config) with ⟨fault | _, start⟩
  · rw [connected] at connects
    obtain ⟨quiet, returns⟩ := withArm_quiet (exec_bind_error connected _) connects.built ran
    obtain ⟨added, grown, plain⟩ := quiet.sent
    refine .inl ⟨?_, ?_⟩
    · intro returned
      cases returns returned
    · intro frame member
      rw [grown, List.mem_append] at member
      exact member.elim ((connect_plain connected).1 frame) (plain frame)
  · rw [connected] at connects
    have serves := connects.follows (serial_of_service follows)
    rcases done : exec part start with ⟨fault | _, middle⟩
    · rw [done] at serves
      have inside : exec (connect platform >>= fun _ => part >>= fun _ => disconnect platform) ⟨none, usb⟩ =
          (.error fault, middle) := by rw [exec_bind_ok connected, exec_bind_error done]
      obtain ⟨quiet, returns⟩ := withArm_quiet inside serves.built ran
      obtain ⟨_, host, rfl⟩ := connect_returned connected
      exact .inr ⟨_, middle, .error fault, connects, rfl, (connect_plain connected).1, done, quiet, returns⟩
    · rw [done] at serves
      have inside : exec (connect platform >>= fun _ => part >>= fun _ => disconnect platform) ⟨none, usb⟩ =
          exec (disconnect platform) middle := by rw [exec_bind_ok connected, exec_bind_ok done]
      have disconnects := disconnect_quiet platform serves.built
      have leaves := serves.follows (disconnect_follows platform)
      obtain ⟨quiet, _⟩ := withArm_quiet inside leaves.built ran
      obtain ⟨_, host, rfl⟩ := connect_returned connected
      exact .inr ⟨_, middle, .ok (), connects, rfl, (connect_plain connected).1, done, disconnects.trans quiet,
        fun _ => rfl⟩

theorem plan_mit (platform : Platform) (commands : List MitCommand) :
    (plan config platform commands).filter (fun frame => frame.kind = .mit) = plan config platform commands := by
  rw [List.filter_eq_self]
  intro frame member
  obtain ⟨entry, _, sent⟩ := List.mem_flatMap.mp member
  rw [Option.mem_toList] at sent
  cases first : resolve config entry.1.canId with
  | none =>
    rw [frameOf, first] at sent
    cases sent
  | some motor =>
    cases second : resolve config (initData config motor).canId with
    | none =>
      rw [frameOf, first, Option.bind_eq_bind, Option.bind_some, second] at sent
      cases sent
    | some limiting =>
      rw [frameOf, first, Option.bind_eq_bind, Option.bind_some, second] at sent
      cases sent
      rfl

/-- A batch that throws has sent a beginning of its frames. -/
theorem sendMitAll_written (platform : Platform) (commands : List MitCommand) {backend : DmSerialBackend config}
    (built : Consistent backend) (same : commands.length = config.motors.length) :
    Written (fun backend => backend.usb.sent) backend (exec (sendMitAll platform commands) backend)
      (plan config platform commands) := by
  rcases backend with ⟨_ | control, usb⟩
  · have refused : exec (sendMitAll platform commands) (⟨none, usb⟩ : DmSerialBackend config) =
        (.error notConnected, ⟨none, usb⟩) := rfl
    rw [refused]
    refine ⟨[], (List.append_nil _).symm, List.nil_prefix, ?_⟩
    intro value returned
    cases returned
  · have stopped := sendMitAll_stopped platform same ⟨control, usb⟩ (built control rfl)
    cases stops : failing (Host.mk control usb).usb.script config.motors.length with
    | none =>
      rw [stops] at stopped
      exact ⟨_, stopped.2, List.prefix_refl _, fun _ _ => rfl⟩
    | some failed =>
      rw [stops] at stopped
      refine ⟨_, stopped.2, List.take_prefix _ _, ?_⟩
      intro value returned
      change (exec (sendMitAll platform commands) (attach ⟨control, usb⟩)).1 = _ at returned
      rw [stopped.1] at returned
      cases returned

theorem pause_sent (backend : DmSerialBackend config) : (exec pause backend).2.usb.sent = backend.usb.sent := by
  rcases backend with ⟨_ | control, usb⟩
  · rfl
  · exact (advance_usb (Host.mk control usb)).1

/-- What every operation that serves the arm keeps, and what held before it if it holds afterwards. -/
structure Serves (good late : DmSerialBackend config → Prop) : Prop where
  built : ∀ backend, good backend → Consistent backend
  kept : ∀ before after, Consistent before → Exchange before after → good before → good after
  earlier : ∀ before after, Exchange before after → late after → late before

theorem Serves.follows {good late : DmSerialBackend config → Prop} (serves : Serves good late) {α : Type}
    {program : BackendM config α} (follows : Follows (service config) program) {state : DmSerialBackend config}
    (holds : good state) :
    good (exec program state).2 ∧ (late (exec program state).2 → late state) := by
  have path := follows state (serves.built state holds)
  have before : ∀ last, (service config).Path state last → late last → late state := by
    intro last path
    induction path with
    | refl => exact id
    | tail _ step ih => exact fun shows => ih (serves.earlier _ _ step shows)
  exact ⟨((service config).keeps good serves.kept path (serves.built state holds) holds).2, before _ path⟩

theorem sound_serves : Serves (Sound : DmSerialBackend config → Prop) Anyhow where
  built _ sound := sound.built
  kept _ _ _ step sound := sound.move (.exchange step)
  earlier _ _ _ _ := trivial

theorem sendMitAll_outputs (platform : Platform) {commands : List MitCommand}
    (same : commands.length = config.motors.length) {good late : DmSerialBackend config → Prop}
    (serves : Serves good late) (chosen : TxFrame → Bool) :
    Outputs (fun backend => backend.usb.sent.filter chosen) good late (sendMitAll platform commands)
      ((plan config platform commands).filter chosen) := by
  intro state holds
  obtain ⟨kept, before⟩ := serves.follows (sendMitAll_follows platform commands) holds
  exact ⟨kept, fun shows => ⟨before shows,
    (sendMitAll_written platform commands (serves.built state holds) same).filter chosen⟩⟩

/-- The MIT commands that a batch writes are all of its frames. -/
theorem sendMitAll_traffic (platform : Platform) {commands : List MitCommand}
    (same : commands.length = config.motors.length) :
    Outputs mitTraffic Sound Anyhow (sendMitAll platform commands : BackendM config Unit)
      (plan config platform commands) := by
  have outputs := sendMitAll_outputs platform same sound_serves fun frame => frame.kind = .mit
  rwa [plan_mit] at outputs

/-- An operation that sends none of the chosen frames. -/
theorem Serves.silent {good late : DmSerialBackend config → Prop} (serves : Serves good late) {α : Type}
    {program : BackendM config α} (follows : Follows (service config) program) {out : DmSerialBackend config → List TxFrame}
    (same : ∀ state, good state → out (exec program state).2 = out state) : Outputs out good late program [] := by
  intro state holds
  obtain ⟨kept, before⟩ := serves.follows follows holds
  exact ⟨kept, fun shows => ⟨before shows, .unchanged (same state holds)⟩⟩

section Silent
variable {good late : DmSerialBackend config → Prop} (serves : Serves good late) (chosen : TxFrame → Bool)
include serves

theorem pause_outputs : Outputs (fun backend => backend.usb.sent.filter chosen) good late pause [] :=
  serves.silent pause_follows fun state _ => congrArg (List.filter chosen) (pause_sent state)

theorem readStates_outputs : Outputs (fun backend => backend.usb.sent.filter chosen) good late readStates [] := by
  apply (pause_outputs serves chosen).silent_bind
  intro _
  apply Outputs.get_bind
  intro backend
  cases states backend with
  | error fault => exact .throw fault
  | ok reported => exact .pure reported

end Silent

/-- What the examples that read the states begin with: a zero batch, a pause, and the states. -/
def opening (platform : Platform) : BackendM config (List MotorState) := do
  sendZeroMitAll platform
  pause
  readStates

theorem opening_bind (platform : Platform) (next : List MotorState → BackendM config Unit) :
    (do
      sendZeroMitAll platform
      pause
      let reported ← readStates
      next reported) = opening platform >>= next := by
  simp only [opening, bind_assoc]

/-- The zero batch has been sent when the states have been read, and the states are those of the log. -/
theorem opening_cases (platform : Platform) {start : DmSerialBackend config} (sound : Sound start) :
    (∃ fault middle items, exec (opening platform) start = (.error fault, middle) ∧
        mitTraffic middle = mitTraffic start ++ items ∧
        items <+: plan config platform (List.replicate config.motors.length {})) ∨
      ∃ reported middle, exec (opening platform) start = (.ok reported, middle) ∧ Sound middle ∧
        states middle = .ok reported ∧
        mitTraffic middle = mitTraffic start ++ plan config platform (List.replicate config.motors.length {}) := by
  have zero : Outputs mitTraffic Sound Anyhow (sendZeroMitAll platform : BackendM config Unit)
      (plan config platform (List.replicate config.motors.length {})) :=
    sendMitAll_traffic platform List.length_replicate
  have opens : Outputs mitTraffic Sound Anyhow (opening platform : BackendM config (List MotorState))
      (plan config platform (List.replicate config.motors.length {}) ++ []) :=
    zero.bind fun _ => (pause_outputs sound_serves _).silent_bind fun _ => readStates_outputs sound_serves _
  rw [List.append_nil] at opens
  obtain ⟨kept, writes⟩ := opens start sound
  have written := (writes trivial).2
  rcases outcome : exec (opening platform) start with ⟨fault | reported, middle⟩
  · rw [outcome] at written
    obtain ⟨items, grown, early, _⟩ := written
    exact .inl ⟨fault, middle, items, rfl, grown, early⟩
  · rw [outcome] at kept written
    refine .inr ⟨reported, middle, rfl, kept, ?_, written.returned⟩
    obtain ⟨_, _, _, rest⟩ := exec_bind_eq_ok outcome
    obtain ⟨_, _, _, rest⟩ := exec_bind_eq_ok rest
    obtain ⟨_, now, _, read⟩ := exec_bind_eq_ok rest
    rw [exec_get_bind] at read
    cases shown : states now with
    | error fault =>
      rw [shown] at read
      cases read
    | ok entries =>
      rw [shown] at read
      cases read
      exact shown

end DmOpenarm.ExampleTraffic
