import DmOpenarm.Lifecycle

/-! What a step of a session does with the backend, and what it logs of that. -/

namespace DmOpenarm.SessionBus
open Types hiding ControlMode
open MotorBus Backend Session SessionMoves Lifecycle
open Operations hiding Action Move machine
open Library.Effect Library.Readings Library.Runs
variable {config : ArmConfig}

/-- Events that tell nothing about batches or connections, nor of an operation that has thrown. -/
def mute : Event → Bool
  | .batch _ _ => false
  | .zeroBatch _ => false
  | .returned .enable => false
  | .returned .disable => false
  | .raised call _ => call.op.isNone
  | _ => true

/-- The event with which an operation ends. -/
def ended (call : Call) : Except Fault Unit → Event
  | .ok _ => .returned call
  | .error fault => .raised call fault

/-- What a step does with the backend. A step that does nothing with it says nothing of it. -/
inductive Touch (platform : Platform) (state : State config) (after : State config) : Prop where
  | nothing (backend : after.backend = state.backend) (log : Grown mute state.log after.log)
  | heard (arrival : Arrival) (received : act platform state.backend (.receive arrival) = some after.backend)
      (log : after.log = state.log)
  | batch (script : List Slot) (commands : List MitCommand)
      (backend : after.backend = (exec (sendMitAll platform commands) (state.backend.withScript script)).2)
      (log : after.log =
        .batch commands (after.backend.usb.sent.length - state.backend.usb.sent.length) :: state.log)
  | zero (script : List Slot)
      (backend : after.backend = (exec (sendZeroMitAll platform) (state.backend.withScript script)).2)
      (log : Grown mute
        (.zeroBatch (after.backend.usb.sent.length - state.backend.usb.sent.length) :: state.log) after.log)
  | zeroed (script : List Slot) (call : Call) (op : Op) (result : Except Fault Unit) (behind : call.op = some op)
      (serves : op.serves = true)
      (ran : exec (op.perform platform) (state.backend.withScript script) = (result, after.backend))
      (log : after.log = ended call result :: state.log)
  | connects (script : List Slot) (result : Except Fault Unit)
      (ran : exec (connect platform) (state.backend.withScript script) = (result, after.backend))
      (log : after.log = ended .enable result :: state.log)
  | disconnects (script : List Slot)
      (ran : exec (disconnect platform) (state.backend.withScript script) = (.ok (), after.backend))
      (log : after.log = .returned .disable :: state.log)

/-- The operations that set zeros, and the calls that are nothing else. -/
theorem zeroes_of_op {call : Call} {op : Op} (behind : call.op = some op) (serves : op.serves = true) :
    (∃ canId persist, call = .setZero canId persist ∧ op = .setZero canId persist) ∨
      ∃ persist, call = .setZeroAll persist ∧ op = .setZeroAll persist := by
  cases call with
  | enable =>
    cases behind
    cases serves
  | setZero canId persist =>
    cases behind
    exact .inl ⟨canId, persist, rfl, rfl⟩
  | setZeroAll persist =>
    cases behind
    exact .inr ⟨persist, rfl, rfl⟩
  | _ => cases behind

/-- The steps of the caller that are operations of the backend. -/
def operates : Pc → Bool
  | .operate => true
  | .stopZero => true
  | .disconnect => true
  | _ => false

section Mute
variable {platform : Platform} {state after : State config} {call : Call} {pc : Pc}

theorem stage_of_returns (free : mayReturn pc = true) (apart : operates pc = false) :
    stage pc = .assign ∨ stage pc = .wait := by
  cases pc with
  | assign updates => exact .inl rfl
  | poll deadline | late deadline => exact .inr rfl
  | operate | disconnect => cases apart
  | _ => cases free

/-- Away from the operations neither enable() nor disable() ends. -/
theorem ne_of_stage (member : stage pc ∈ stages call) (free : mayReturn pc = true) (apart : operates pc = false) :
    call ≠ .enable ∧ call ≠ .disable := by
  constructor
  · intro same
    subst same
    rcases stage_of_returns free apart with here | here <;> simp [here, stages] at member
  · intro same
    subst same
    rcases stage_of_returns free apart with here | here <;> simp [here, stages] at member

/-- A call behind which there is an operation is nothing else. -/
theorem op_of_stage (member : stage pc ∈ stages call) (apart : stage pc ≠ .operate) : call.op = none := by
  cases call with
  | enable | setZero canId persist | setZeroAll persist => exact absurd (List.mem_singleton.mp member) apart
  | _ => rfl

theorem stage_of_operates (apart : operates pc = false) : stage pc ≠ .operate := by
  cases pc with
  | operate => cases apart
  | _ => exact Stage.noConfusion

theorem mute_raised (other : call.op = none) (fault : Fault) : mute (.raised call fault) = true := by
  rw [mute, other]
  rfl

theorem mute_returned (first : call ≠ .enable) (second : call ≠ .disable) : mute (.returned call) = true := by
  cases call with
  | enable => exact absurd rfl first
  | disable => exact absurd rfl second
  | _ => rfl

theorem mute_stopMitLoop (other : call.op = none) {event : Event} (member : event ∈ (stopMitLoopReturned call).events) :
    mute event = true := by
  cases call with
  | enable => cases other
  | disable => cases member
  | _ =>
    cases List.mem_singleton.mp member
    rfl

theorem mute_startReturned (member : stage pc ∈ stages call) (starts : stage pc = .start) {event : Event}
    (logged : event ∈ (startReturned call).events) : mute event = true := by
  rw [starts] at member
  cases call with
  | startMitLoop hz zeroTimeout => cases logged
  | enable | disable => simp [stages] at member
  | _ =>
    cases List.mem_singleton.mp logged
    rfl

theorem mute_stopReturned (other : call.op = none) {event : Event} (member : event ∈ (stopReturned call).events) :
    mute event = true := by
  cases call with
  | enable => cases other
  | destroy =>
    cases List.mem_singleton.mp member
    rfl
  | _ =>
    rcases List.mem_append.mp member with early | late
    · exact mute_stopMitLoop other early
    · cases List.mem_singleton.mp late
      rfl

theorem mute_stopThrew (other : call.op = none) {fault : Fault} :
    ∀ event ∈ (stopThrew call fault).events, mute event = true := by
  intro event member
  cases call with
  | enable => cases other
  | destroy =>
    cases List.mem_singleton.mp member
    rfl
  | _ =>
    rcases List.mem_cons.mp member with rfl | late
    · exact mute_raised other fault
    · cases List.mem_singleton.mp late
      rfl

/-- The turns of the caller away from the operations. -/
theorem mute_turn {exit : Exit} (turn : Turn state call pc exit) (member : stage pc ∈ stages call)
    (apart : operates pc = false) : ∀ event ∈ exit.events, mute event = true := by
  intro event logged
  cases turn with
  | returned free =>
    obtain ⟨first, second⟩ := ne_of_stage member free apart
    cases List.mem_singleton.mp logged
    exact mute_returned first second
  | raised fault free =>
    cases List.mem_singleton.mp logged
    exact mute_raised (op_of_stage member (stage_of_operates apart)) fault
  | already running => exact mute_startReturned member rfl logged
  | needed halted => cases logged
  | guarded running => cases logged
  | skipped halted => exact mute_stopMitLoop (op_of_stage member (stage_of_operates apart)) logged
  | stopped clean => exact mute_stopReturned (op_of_stage member (stage_of_operates apart)) logged
  | waited here there => cases logged

/-- Only the operations touch the backend. -/
theorem backend_same {script : List Slot} {available : Bool} (apart : operates pc = false)
    (stepped : pcStep platform state script available call pc = some after) : after.backend = state.backend := by
  cases pc with
  | operate | stopZero | disconnect => cases apart
  | startJoin =>
    obtain ⟨joined, waited, same⟩ := Option.map_eq_some_iff.mp stepped
    rw [← same, (join_eq_some waited).1]
    rfl
  | stopJoin wasRunning =>
    obtain ⟨joined, waited, same⟩ := Option.map_eq_some_iff.mp stepped
    rw [← same, (join_eq_some waited).1]
    rfl
  | assign updates =>
    cases updates with
    | nil =>
      cases stepped
      rfl
    | cons update rest =>
      simp only [pcStep] at stepped
      split at stepped <;> cases stepped <;> rfl
  | stopRethrow =>
    simp only [pcStep] at stepped
    split at stepped
    · cases stepped
      rfl
    · cases stepped
      cases call <;> rfl
  | _ =>
    simp only [pcStep] at stepped
    repeat' split at stepped
    all_goals
      cases stepped
      rfl

/-- What a step of the caller away from the operations logs. -/
theorem caller_mutes {script : List Slot} {available : Bool} (busy : state.caller = .busy call pc)
    (member : stage pc ∈ stages call) (apart : operates pc = false) (alive : after.terminated = false)
    (move : Move state (.caller script available) after) :
    Grown mute state.log after.log := by
  have same {other : Call} {next : Pc} (place : state.caller = .busy other next) : other = call ∧ next = pc := by
    rw [busy] at place
    cases place
    exact ⟨rfl, rfl⟩
  cases move with
  | ended dead log => cases dead.symm.trans alive
  | endedZero emitted dead place log => cases dead.symm.trans alive
  | endedSend emitted dead here log => cases dead.symm.trans alive
  | turned obeys place turn =>
    obtain ⟨rfl, rfl⟩ := same place
    exact .append (mute_turn turn member apart) state.log
  | installed place install ran => exact .one rfl state.log
  | joined place joining done => exact .refl state.log
  | reset place => exact setException_grown (fun _ => rfl) state none
  | flagged place => exact .one rfl state.log
  | spawned place free =>
    obtain ⟨rfl, rfl⟩ := same place
    exact .append (fun event logged => mute_startReturned member rfl logged) state.log
  | exchanged place => exact .refl state.log
  | zeroed obeys emitted place zeroed =>
    obtain ⟨rfl, rfl⟩ := same place
    cases apart
  | @rethrown _ _ other fault place held =>
    cases other with
    | destroy => exact (setException_grown (fun _ => rfl) state none).cons rfl
    | _ => exact (Grown.one rfl state.log).cons rfl
  | released place => exact setException_grown (fun _ => rfl) state none
  | outside obeys clock => exact .refl state.log

theorem caller_nothing {script : List Slot} {available : Bool} (busy : state.caller = .busy call pc)
    (member : stage pc ∈ stages call) (apart : operates pc = false) (alive : after.terminated = false)
    (moved : step platform state (.caller script available) = some after) : Touch platform state after :=
  .nothing (backend_same apart (step_caller busy moved)) (caller_mutes busy member apart alive (step_move moved))

end Mute

section Operation
variable {platform : Platform} {state after : State config} {script : List Slot} {available : Bool} {call : Call}

theorem worker_touch {thread : Nat} (alive : after.terminated = false)
    (moved : step platform state (.worker thread script) = some after) : Touch platform state after := by
  have stepped := step_worker moved
  cases here : state.threads thread with
  | finished =>
    rw [here] at stepped
    cases stepped
  | store fault =>
    rw [here] at stepped
    cases stepped
    exact .nothing rfl (setException_grown (fun _ => rfl) state (some fault))
  | test | sleep =>
    rw [here] at stepped
    cases stepped
    exact .nothing rfl (.refl state.log)
  | copy | clear fault =>
    rw [here] at stepped
    cases stepped
    exact .nothing rfl (.one rfl state.log)
  | send snapshot =>
    rw [here] at stepped
    simp only [workerStep, Option.some.injEq] at stepped
    subst stepped
    rcases resume_alive alive with ⟨_, _, same⟩ | ⟨fault, _, same⟩
    · rw [same]
      exact .batch script snapshot rfl rfl
    · rw [same]
      exact .batch script snapshot rfl rfl

theorem zero_touch (member : stage .stopZero ∈ stages call) (busy : state.caller = .busy call .stopZero)
    (alive : after.terminated = false) (moved : step platform state (.caller script available) = some after) :
    Touch platform state after := by
  have stepped := step_caller busy moved
  have other : call.op = none := op_of_stage member Stage.noConfusion
  simp only [pcStep, Option.some.injEq] at stepped
  subst stepped
  rcases resume_alive alive with ⟨_, _, same⟩ | ⟨fault, _, same⟩
  · rw [same]
    exact .zero script rfl (.refl _)
  · rw [same]
    exact .zero script rfl (.append (mute_stopThrew other) _)

/-- What becomes of an operation behind a call. -/
theorem operation_cases (op : Op) (alive : (state.resume (exec (op.perform platform) (state.backend.withScript script))
      (fun next => next.exit (.returned call)) fun next fault => next.exit (.raised call fault)).terminated = false) :
    ∃ result backend, exec (op.perform platform) (state.backend.withScript script) = (result, backend) ∧
      (state.resume (exec (op.perform platform) (state.backend.withScript script))
        (fun next => next.exit (.returned call)) fun next fault => next.exit (.raised call fault)) =
        { state with backend }.exit (match result with
          | .ok _ => .returned call
          | .error fault => .raised call fault) := by
  rcases ran : exec (op.perform platform) (state.backend.withScript script) with ⟨result, backend⟩
  rw [ran] at alive
  refine ⟨result, backend, rfl, ?_⟩
  rcases resume_alive alive with ⟨_, returned, same⟩ | ⟨fault, threw, same⟩
  · cases returned
    exact same
  · cases threw
    exact same

theorem operate_touch (member : stage .operate ∈ stages call) (busy : state.caller = .busy call .operate)
    (alive : after.terminated = false) (moved : step platform state (.caller script available) = some after) :
    Touch platform state after := by
  have stepped := step_caller busy moved
  cases call with
  | enable =>
    cases stepped
    obtain ⟨result, backend, ran, same⟩ := operation_cases Op.connect alive
    rw [same]
    refine .connects script result ran ?_
    cases result <;> rfl
  | states =>
    simp only [pcStep, Call.op] at stepped
    split at stepped
    · cases stepped
      exact .nothing rfl (.one rfl state.log)
    · cases stepped
      exact .nothing rfl (.one rfl state.log)
  | setZero canId persist =>
    cases stepped
    obtain ⟨result, backend, ran, same⟩ := operation_cases (Op.setZero canId persist) alive
    rw [same]
    refine .zeroed script (.setZero canId persist) _ result rfl rfl ran ?_
    cases result <;> rfl
  | setZeroAll persist =>
    cases stepped
    obtain ⟨result, backend, ran, same⟩ := operation_cases (Op.setZeroAll persist) alive
    rw [same]
    refine .zeroed script (.setZeroAll persist) _ result rfl rfl ran ?_
    cases result <;> rfl
  | _ => simp [stage, stages] at member

theorem disconnect_touch (busy : state.caller = .busy .disable .disconnect) (alive : after.terminated = false)
    (moved : step platform state (.caller script available) = some after) : Touch platform state after := by
  have stepped := step_caller busy moved
  cases stepped
  obtain ⟨result, backend, ran, same⟩ := operation_cases Op.disconnect alive
  change exec (disconnect platform) (state.backend.withScript script) = (result, backend) at ran
  rcases disconnect_cases platform (state.backend.withScript script) with threw | ⟨usb, returned⟩
  · rw [ran] at threw
    cases threw
    change (state.resume (exec (disconnect platform) (state.backend.withScript script)) _ _).terminated = false at alive
    rw [ran] at alive
    cases alive
  · rw [ran] at returned
    cases returned
    change state.resume (exec (disconnect platform) (state.backend.withScript script)) _ _ = _ at same
    rw [same]
    exact .disconnects script ran rfl

/-- Every step does one of these things with the backend. -/
theorem step_touch {action : Session.Action} (inside : Inside state.caller) (alive : after.terminated = false)
    (moved : step platform state action = some after) : Touch platform state after := by
  cases action with
  | call call =>
    obtain ⟨_, same⟩ := step_called moved
    subst same
    exact .nothing rfl (.one rfl state.log)
  | caller script available =>
    obtain ⟨call, pc, busy, _⟩ := step_inside moved
    have member := inside _ _ busy
    by_cases apart : operates pc = false
    · exact caller_nothing busy member apart alive moved
    · cases pc with
      | operate => exact operate_touch member busy alive moved
      | stopZero => exact zero_touch member busy alive moved
      | disconnect =>
        have only : call = .disable := by
          cases call with
          | disable => rfl
          | _ => simp [stage, stages] at member
        subst only
        exact disconnect_touch busy alive moved
      | _ => exact absurd rfl apart
  | worker thread script => exact worker_touch alive moved
  | receive arrival =>
    obtain ⟨backend, received, same⟩ := step_receive moved
    subst same
    exact .heard arrival received rfl
  | tick nanoseconds =>
    have same := step_tick moved
    subst same
    exact .nothing rfl (.refl state.log)

end Operation

/-- What a step does with the backend is a path of moves. -/
theorem Touch.path {platform : Platform} {state after : State config} (touch : Touch platform state after)
    (built : Consistent state.backend) : (serial config).Path state.backend after.backend := by
  cases touch with
  | nothing backend log => rw [backend]
  | heard arrival received log => exact act_path built received
  | batch script commands backend log =>
    rw [backend]
    exact perform_path platform (.sendMitAll commands) script built
  | zero script backend log =>
    rw [backend]
    exact perform_path platform .sendZeroMitAll script built
  | zeroed script call op result behind serves ran log =>
    have path := perform_path platform op script built
    rwa [ran] at path
  | connects script result ran log =>
    have path := perform_path platform .connect script built
    change (serial config).Path _ (exec (connect platform) (state.backend.withScript script)).2 at path
    rwa [ran] at path
  | disconnects script ran log =>
    have path := perform_path platform .disconnect script built
    change (serial config).Path _ (exec (disconnect platform) (state.backend.withScript script)).2 at path
    rwa [ran] at path

/-- What everything that can be done with the backend keeps holds throughout a run, while the process lives. -/
theorem reach_touches {platform : Platform} {allowed : State config → Session.Action → Prop} {inv : State config → Prop}
    (base : inv (initialState config))
    (kept : ∀ state after, Consistent state.backend → Touch platform state after → inv state → inv after)
    {state : State config} (reached : Reach (machine platform config) allowed state)
    (alive : state.terminated = false) : inv state := by
  let held (state : State config) : Prop := Inside state.caller ∧ Consistent state.backend ∧ inv state
  have start : held (initialState config) := by
    refine ⟨.idle, ?_, base⟩
    intro control same
    cases same
  have steps : ∀ before action after, allowed before action → after.terminated = false →
      step platform before action = some after → held before → held after := by
    intro before action after _ still moved given
    obtain ⟨inside, built, holds⟩ := given
    have move := step_move moved
    exact ⟨inside.move still move, (serial config).inv_path (move.obeys still built) built,
      kept before after built (step_touch inside still moved) holds⟩
  have all : Throughout (fun _ _ => True) state.log ∧ (state.terminated = false → held state) :=
    reach_steps start steps (fun _ _ _ _ _ _ _ => trivial) reached
  exact (all.2 alive).2.2

end DmOpenarm.SessionBus
