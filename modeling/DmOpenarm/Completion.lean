import DmOpenarm.Lifecycle
import DmOpenarm.Library.Progress
import DmOpenarm.YamlLoader

/-! Every call comes to its end. Whoever waits for a worker thread waits for a bounded number of its steps,
and only start_mit_loop polls until a deadline. Steps are counted and not the time that they take: a sleep is
one step that ends by itself, so stop() may wait for a whole period of the loop. -/

namespace DmOpenarm.Completion
open Types hiding ControlMode
open Session SessionMoves Lifecycle Library.Effect Library.Runs Library.Progress
variable {config : ArmConfig}

/-- The steps that a worker thread has left once the running flag is down. -/
def workerLeft : Worker → Nat
  | .finished => 0
  | .test => 1
  | .clear _ => 1
  | .sleep => 2
  | .store _ => 2
  | .send _ => 3
  | .copy => 4

theorem workerLeft_le (worker : Worker) : workerLeft worker ≤ 4 := by
  cases worker <;> simp [workerLeft]

/-- Where the caller waits for the thread behind the handle. -/
def joins : Pc → Bool
  | .startJoin => true
  | .stopJoin _ => true
  | _ => false

/-- The steps that the caller has left, not counting those of the thread it waits for. -/
def fewest : Pc → Nat
  | .operate => 1
  | .assign updates => updates.length + 1
  | .startTest => 14
  | .startJoin => 9
  | .startReset => 8
  | .startFlag => 7
  | .startSpawn => 6
  | .readStates => 5
  | .home _ => 4
  | .deadline => 3
  | .pause _ => 3
  | .poll _ => 2
  | .late _ => 1
  | .guard => 10
  | .stopExchange => 9
  | .stopJoin _ => 4
  | .stopZero => 3
  | .stopRethrow => 2
  | .disconnect => 1
  | .release => 1

/-- The steps that a call has left at most. -/
def most (pc : Pc) : Nat := fewest pc + if joins pc then 4 else 0

def handleLeft (state : State config) : Nat := (state.worker.map fun thread => workerLeft (state.threads thread)).getD 0

def left (state : State config) : Nat :=
  match state.caller with
  | .busy _ pc => fewest pc + if joins pc then handleLeft state else 0
  | _ => 0

/-- start_mit_loop polls until its deadline, which is still to come. -/
def Polls (state : State config) : Prop :=
  ∃ call deadline, deadline.le (.finite state.clock) = false ∧
    (state.caller = .busy call (.poll deadline) ∨ state.caller = .busy call (.late deadline) ∨
      state.caller = .busy call (.pause deadline))

/-- The call has ended, or the process has, or the call waits for time to pass. -/
def Over (state : State config) : Prop :=
  state.terminated = true ∨ (∀ call pc, state.caller ≠ .busy call pc) ∨ Polls state

/-- The steps of the caller, and those of the thread that it waits for. -/
inductive Own (state : State config) : Session.Action → Prop where
  | caller (script : List MotorBus.Slot) (available : Bool) : Own state (.caller script available)
  | joined {call : Call} {pc : Pc} {thread : Nat} (script : List MotorBus.Slot) (busy : state.caller = .busy call pc)
      (waits : joins pc = true) (behind : state.worker = some thread) : Own state (.worker thread script)

section Left
variable {state after : State config} {call : Call} {pc : Pc}

theorem left_busy (busy : state.caller = .busy call pc) :
    left state = fewest pc + if joins pc then handleLeft state else 0 := by
  rw [left, busy]

theorem handleLeft_le (state : State config) : handleLeft state ≤ 4 := by
  unfold handleLeft
  cases state.worker with
  | none => exact Nat.zero_le _
  | some thread => exact workerLeft_le _

theorem fewest_le_left (busy : state.caller = .busy call pc) : fewest pc ≤ left state := by
  rw [left_busy busy]
  exact Nat.le_add_right _ _

theorem left_le_most (busy : state.caller = .busy call pc) : left state ≤ most pc := by
  have share := handleLeft_le state
  rw [left_busy busy, most]
  split
  · omega
  · exact le_rfl

theorem fewest_pos (pc : Pc) : 0 < fewest pc := by
  cases pc <;> simp [fewest]

/-- Inside a call that does not wait for time. -/
theorem inside_of_not_over (going : ¬Over state) :
    state.terminated = false ∧ (∃ call pc, state.caller = .busy call pc) ∧ ¬Polls state := by
  simp only [Over, not_or, Bool.not_eq_true, not_forall, not_not] at going
  exact going

theorem over_of_ended (dead : state.terminated = true) : Over state := .inl dead

theorem over_of_idle (idle : state.caller = .idle) : Over state := by
  refine .inr (.inl ?_)
  intro call pc busy
  rw [idle] at busy
  cases busy

/-- The caller goes where fewer steps are left. -/
theorem lower_of_next {other : Call} {next : Pc} (before : state.caller = .busy call pc)
    (busy : after.caller = .busy other next) (fewer : most next < fewest pc) : left after < left state :=
  lt_of_le_of_lt (left_le_most busy) (lt_of_lt_of_le fewer (fewest_le_left before))

end Left

section Lower
variable {platform : MotorBus.Platform} {state after : State config} {script : List MotorBus.Slot} {available : Bool}
variable {call : Call} {pc : Pc}

/-- The call is over, or goes on where fewer steps are left. -/
def Lower (after : State config) (pc : Pc) : Prop :=
  Over after ∨ ∃ call next, after.caller = .busy call next ∧ most next < fewest pc

theorem lower_returned (state : State config) (call : Call) (pc : Pc) : Lower (state.exit (.returned call)) pc :=
  .inl (over_of_idle rfl)

theorem lower_raised (state : State config) (call : Call) (fault : Fault) (pc : Pc) :
    Lower (state.exit (.raised call fault)) pc :=
  .inl (over_of_idle rfl)

theorem lower_proceed {next : Pc} (state : State config) (call : Call) (fewer : most next < fewest pc) :
    Lower (state.exit (.proceed call next)) pc :=
  .inr ⟨call, next, rfl, fewer⟩

/-- Once its deadline has passed, the wait of start_mit_loop ends too. -/
theorem waiting_lower (busy : state.caller = .busy call pc) (waiting : waits pc = true) (ready : ¬Polls state)
    (stepped : pcStep platform state script available call pc = some after) : Lower after pc := by
  cases pc with
  | readStates =>
    simp only [pcStep] at stepped
    cases read : Backend.states state.backend with
    | ok entries =>
      simp only [read, Option.some.injEq] at stepped
      exact stepped ▸ lower_proceed state call (by simp [most, fewest, joins])
    | error fault =>
      simp only [read, Option.some.injEq] at stepped
      exact stepped ▸ lower_raised state call fault _
  | home count =>
    simp only [pcStep] at stepped
    cases changed : CommandTable.setAllCommands state.commands (List.replicate count homeCommand) with
    | ok commands =>
      simp only [changed, Option.some.injEq] at stepped
      exact stepped ▸ .inr ⟨call, .deadline, rfl, by simp [most, fewest, joins]⟩
    | error fault =>
      simp only [changed, Option.some.injEq] at stepped
      exact stepped ▸ lower_raised state call fault _
  | deadline =>
    simp only [pcStep, Option.some.injEq] at stepped
    exact stepped ▸ lower_proceed state call (by simp [most, fewest, joins])
  | poll deadline =>
    simp only [pcStep] at stepped
    cases read : Backend.states state.backend with
    | ok entries =>
      simp only [read] at stepped
      split at stepped
      · exact Option.some.inj stepped ▸ lower_returned state call _
      · exact Option.some.inj stepped ▸ lower_proceed state call (by simp [most, fewest, joins])
    | error fault =>
      simp only [read, Option.some.injEq] at stepped
      exact stepped ▸ lower_raised state call fault _
  | late deadline =>
    have passed : deadline.le (.finite state.clock) = true := by
      by_contra future
      exact ready ⟨call, deadline, Bool.eq_false_iff.mpr future, .inr (.inl busy)⟩
    simp only [pcStep, if_pos passed, Option.some.injEq] at stepped
    exact stepped ▸ lower_returned state call _
  | pause deadline =>
    simp only [pcStep, Option.some.injEq] at stepped
    exact stepped ▸ lower_proceed state call (by simp [most, fewest, joins])
  | _ => cases waiting

theorem lower_of_caller {other : Call} (next : Pc) (moved : after.caller = .busy other next)
    (fewer : most next < fewest pc) : Lower after pc := .inr ⟨other, next, moved, fewer⟩

/-- Where the code after start() goes on. -/
theorem lower_started (state : State config) (call : Call) (more : most .readStates < fewest pc) :
    Lower (state.exit (startReturned call)) pc := by
  cases call with
  | startMitLoop hz zeroTimeout => exact lower_proceed state _ more
  | _ => exact lower_returned state _ _

theorem lower_left (state : State config) (call : Call) (more : most .disconnect < fewest pc) :
    Lower (state.exit (stopMitLoopReturned call)) pc := by
  cases call with
  | disable => exact lower_proceed state _ more
  | _ => exact lower_returned state _ _

theorem lower_stopped (state : State config) (call : Call) (more : 1 < fewest pc) :
    Lower (state.exit (stopReturned call)) pc := by
  cases call with
  | disable => exact lower_of_caller .disconnect rfl more
  | destroy => exact lower_of_caller .release rfl more
  | _ => exact .inl (over_of_idle rfl)

theorem lower_rethrown (state : State config) (call : Call) (fault : Fault) :
    Lower (rethrow state call fault) .stopRethrow := by
  cases call with
  | destroy => exact lower_of_caller .release rfl (by decide)
  | _ => exact .inl (over_of_idle rfl)

theorem resume_lower {α : Type} {outcome : Except Fault α × Backend.DmSerialBackend config}
    {returned : State config → State config} {thrown : State config → Fault → State config}
    (fine : ∀ next, Lower (returned next) pc) (failed : ∀ next fault, Lower (thrown next fault) pc) :
    Lower (state.resume outcome returned thrown) pc := by
  rcases resume_cases state outcome returned thrown with ⟨dead, _⟩ | ⟨_, _, same⟩ | ⟨fault, _, same⟩
  · exact .inl (over_of_ended dead)
  · exact same ▸ fine _
  · exact same ▸ failed _ fault

theorem join_lower {next : Pc} (fewer : most next < fewest pc)
    (stepped : (join state).map (fun joined => joined.exit (.proceed call next)) = some after) : Lower after pc := by
  obtain ⟨joined, _, same⟩ := Option.map_eq_some_iff.mp stepped
  exact same ▸ lower_proceed joined call fewer

/-- Every step of the caller leaves it less to do. -/
theorem caller_lower (busy : state.caller = .busy call pc) (ready : ¬Polls state)
    (stepped : pcStep platform state script available call pc = some after) : Lower after pc := by
  cases pc with
  | operate =>
    simp only [pcStep] at stepped
    cases behind : call.op with
    | some op =>
      simp only [behind, Option.some.injEq] at stepped
      exact stepped ▸ resume_lower (fun next => lower_returned next call _) fun next fault =>
        lower_raised next call fault _
    | none =>
      cases read : Backend.states state.backend with
      | ok entries =>
        simp only [behind, read, Option.some.injEq] at stepped
        exact stepped ▸ lower_returned state call _
      | error fault =>
        simp only [behind, read, Option.some.injEq] at stepped
        exact stepped ▸ lower_raised state call fault _
  | assign updates =>
    cases updates with
    | nil =>
      simp only [pcStep, Option.some.injEq] at stepped
      exact stepped ▸ lower_returned state call _
    | cons update rest =>
      simp only [pcStep] at stepped
      cases ran : update.run (CommandTable.canIds config) state.commands with
      | ok changed =>
        simp only [ran, Option.some.injEq] at stepped
        exact stepped ▸ lower_of_caller (.assign rest) rfl (by simp [most, fewest, joins])
      | error fault =>
        simp only [ran, Option.some.injEq] at stepped
        exact stepped ▸ lower_raised state call fault _
  | startTest =>
    simp only [pcStep] at stepped
    split at stepped
    · exact Option.some.inj stepped ▸ lower_raised state call _ _
    · split at stepped
      · exact Option.some.inj stepped ▸ lower_started state call (by decide)
      · exact Option.some.inj stepped ▸ lower_proceed state call (by decide)
  | startJoin => exact join_lower (by decide) stepped
  | startReset =>
    simp only [pcStep, Option.some.injEq] at stepped
    exact stepped ▸ lower_proceed _ call (by decide)
  | startFlag =>
    simp only [pcStep, Option.some.injEq] at stepped
    exact stepped ▸ lower_of_caller .startSpawn rfl (by decide)
  | startSpawn =>
    simp only [pcStep] at stepped
    split at stepped
    · split at stepped
      · exact Option.some.inj stepped ▸ .inl (over_of_ended rfl)
      · exact Option.some.inj stepped ▸ lower_started _ call (by decide)
    · exact Option.some.inj stepped ▸ lower_raised state call _ _
  | guard =>
    simp only [pcStep] at stepped
    split at stepped
    · exact Option.some.inj stepped ▸ lower_proceed state call (by decide)
    · exact Option.some.inj stepped ▸ lower_left state call (by decide)
  | stopExchange =>
    simp only [pcStep, Option.some.injEq] at stepped
    exact stepped ▸ lower_proceed _ call (by simp [most, fewest, joins])
  | stopJoin wasRunning =>
    refine join_lower ?_ stepped
    cases wasRunning <;> decide
  | stopZero =>
    simp only [pcStep, Option.some.injEq] at stepped
    refine stepped ▸ resume_lower (fun next => lower_proceed next call (by decide)) ?_
    intro next fault
    cases call with
    | destroy => exact lower_of_caller .release rfl (by decide)
    | _ => exact .inl (over_of_idle rfl)
  | stopRethrow =>
    simp only [pcStep] at stepped
    cases held : state.workerException with
    | none =>
      simp only [held, Option.some.injEq] at stepped
      exact stepped ▸ lower_stopped state call (by decide)
    | some fault =>
      simp only [held, Option.some.injEq] at stepped
      exact stepped ▸ lower_rethrown state call fault
  | disconnect =>
    simp only [pcStep, Option.some.injEq] at stepped
    exact stepped ▸ resume_lower (fun next => lower_returned next call _) fun next fault =>
      lower_raised next call fault _
  | release =>
    simp only [pcStep] at stepped
    split at stepped
    · exact Option.some.inj stepped ▸ .inl (over_of_ended rfl)
    · refine Option.some.inj stepped ▸ .inl (.inr (.inl ?_))
      intro other next place
      cases place
  | _ => exact waiting_lower busy rfl ready stepped

end Lower

section Worker
variable {platform : MotorBus.Platform} {state after : State config} {script : List MotorBus.Slot} {thread : Nat}

/-- A worker's step leaves the caller, the handle and the other threads alone. -/
structure Moved (state after : State config) (thread : Nat) (next : Worker) : Prop where
  caller : after.caller = state.caller
  worker : after.worker = state.worker
  threads : after.threads = Function.update state.threads thread next

theorem worker_moved (stepped : workerStep platform state thread script (state.threads thread) = some after) :
    Over after ∨ ∃ next, Moved state after thread next ∧
      (state.running = false → workerLeft next < workerLeft (state.threads thread)) := by
  cases here : state.threads thread with
  | test =>
    simp only [here, workerStep, Option.some.injEq] at stepped
    subst stepped
    refine .inr ⟨_, ⟨rfl, rfl, rfl⟩, ?_⟩
    intro halted
    rw [halted]
    decide
  | copy =>
    simp only [here, workerStep, Option.some.injEq] at stepped
    subst stepped
    exact .inr ⟨_, ⟨rfl, rfl, rfl⟩, fun _ => by simp [workerLeft]⟩
  | send snapshot =>
    simp only [here, workerStep, Option.some.injEq] at stepped
    rw [← stepped]
    rcases resume_cases _ _ _ _ with ⟨dead, _⟩ | ⟨_, _, same⟩ | ⟨fault, _, same⟩
    · exact .inl (over_of_ended dead)
    · rw [same]
      exact .inr ⟨.sleep, ⟨rfl, rfl, rfl⟩, fun _ => by simp [workerLeft]⟩
    · rw [same]
      exact .inr ⟨.store fault, ⟨rfl, rfl, rfl⟩, fun _ => by simp [workerLeft]⟩
  | sleep =>
    simp only [here, workerStep, Option.some.injEq] at stepped
    subst stepped
    exact .inr ⟨.test, ⟨rfl, rfl, rfl⟩, fun _ => by simp [workerLeft]⟩
  | store fault =>
    simp only [here, workerStep, Option.some.injEq] at stepped
    subst stepped
    exact .inr ⟨.clear fault, ⟨rfl, rfl, rfl⟩, fun _ => by simp [workerLeft]⟩
  | clear fault =>
    simp only [here, workerStep, Option.some.injEq] at stepped
    subst stepped
    exact .inr ⟨.finished, ⟨rfl, rfl, rfl⟩, fun _ => by simp [workerLeft]⟩
  | finished =>
    simp only [here, workerStep, reduceCtorEq] at stepped

theorem left_congr (caller : after.caller = state.caller) (handle : ∀ call pc, state.caller = .busy call pc →
    joins pc = true → handleLeft after = handleLeft state) : left after = left state := by
  unfold left
  rw [caller]
  cases place : state.caller with
  | busy call pc =>
    by_cases joining : joins pc = true
    · simp only [handle call pc place joining]
    · simp only [if_neg joining]
  | _ => rfl

/-- The thread behind the handle gets closer to its end while the caller waits for it. -/
theorem joined_lower {next : Worker} {call : Call} {pc : Pc} (moved : Moved state after thread next)
    (busy : state.caller = .busy call pc) (joining : joins pc = true) (behind : state.worker = some thread)
    (fewer : workerLeft next < workerLeft (state.threads thread)) : left after < left state := by
  have before : handleLeft state = workerLeft (state.threads thread) := by simp [handleLeft, behind]
  have later : handleLeft after = workerLeft next := by simp [handleLeft, moved.worker, behind, moved.threads]
  rw [left_busy busy, left_busy (moved.caller.trans busy), if_pos joining, if_pos joining, before, later]
  omega

/-- Other threads do not touch what the caller waits for. -/
theorem elsewhere_same {next : Worker} (moved : Moved state after thread next)
    (apart : ¬Own state (.worker thread script)) : left after = left state := by
  refine left_congr moved.caller ?_
  intro call pc busy joining
  unfold handleLeft
  rw [moved.worker, moved.threads]
  cases behind : state.worker with
  | none => rfl
  | some other =>
    have different : other ≠ thread := fun same => apart (.joined script busy joining (same ▸ behind))
    simp only [Option.map_some, Function.update_of_ne different]

end Worker

/-- Whoever waits at a join has taken the running flag down. -/
theorem halted_of_joins {running : Bool} {worker : Option Nat} {pc : Pc} (expected : Expected running worker pc)
    (joining : joins pc = true) : running = false := by
  cases pc with
  | startJoin => exact expected
  | stopJoin wasRunning => exact expected
  | _ => cases joining

section Enabled
variable {state : State config} {call : Call} {pc : Pc}

theorem join_goes_on (free : ∀ thread, state.worker = some thread → state.threads thread = .finished) :
    ∃ joined, join state = some joined := by
  unfold join
  cases behind : state.worker with
  | none => exact ⟨_, rfl⟩
  | some thread => exact ⟨_, if_pos (free thread behind)⟩

/-- The caller can go on, unless it waits for a thread that has not finished. -/
theorem caller_goes_on (platform : MotorBus.Platform) (call : Call)
    (free : joins pc = true → ∀ thread, state.worker = some thread → state.threads thread = .finished) :
    ∃ after, pcStep platform state [] true call pc = some after := by
  cases pc with
  | startJoin =>
    obtain ⟨joined, same⟩ := join_goes_on (free rfl)
    exact ⟨_, Option.map_eq_some_iff.mpr ⟨joined, same, rfl⟩⟩
  | stopJoin wasRunning =>
    obtain ⟨joined, same⟩ := join_goes_on (free rfl)
    exact ⟨_, Option.map_eq_some_iff.mpr ⟨joined, same, rfl⟩⟩
  | assign updates =>
    rw [← Option.isSome_iff_exists]
    cases updates with
    | nil => rfl
    | cons update rest =>
      simp only [pcStep]
      split <;> rfl
  | _ =>
    rw [← Option.isSome_iff_exists]
    simp only [pcStep]
    repeat' split
    all_goals rfl

theorem worker_goes_on (platform : MotorBus.Platform) {thread : Nat} (active : state.threads thread ≠ .finished) :
    ∃ after, workerStep platform state thread [] (state.threads thread) = some after := by
  cases here : state.threads thread with
  | finished => exact absurd here active
  | _ => exact ⟨_, rfl⟩

/-- While the call is not over, the caller can go on, or the thread that it waits for can. -/
theorem own_enabled (platform : MotorBus.Platform) (going : ¬Over state) :
    ∃ action after, Own state action ∧ step platform state action = some after := by
  obtain ⟨alive, ⟨call, pc, busy⟩, _⟩ := inside_of_not_over going
  by_cases blocked : joins pc = true ∧ ∃ thread, state.worker = some thread ∧ state.threads thread ≠ .finished
  · obtain ⟨joining, thread, behind, active⟩ := blocked
    obtain ⟨after, stepped⟩ := worker_goes_on platform active
    refine ⟨.worker thread [], after, .joined [] busy joining behind, ?_⟩
    rw [step.eq_def, if_neg (Bool.eq_false_iff.mp alive)]
    exact stepped
  · have free : joins pc = true → ∀ thread, state.worker = some thread → state.threads thread = .finished := by
      intro joining thread behind
      by_contra active
      exact blocked ⟨joining, thread, behind, active⟩
    obtain ⟨after, stepped⟩ := caller_goes_on platform call free
    exact ⟨.caller [] true, after, .caller [] true, (step_busy alive busy).trans stepped⟩

end Enabled

section Bounded
variable {platform : MotorBus.Platform} {state after : State config} {action : Session.Action}

theorem own_lower (ordered : Ordered state) (going : ¬Over state) (own : Own state action)
    (moved : step platform state action = some after) : Over after ∨ left after < left state := by
  obtain ⟨_, ⟨call, pc, busy⟩, ready⟩ := inside_of_not_over going
  cases own with
  | caller script available =>
    rcases caller_lower busy ready (step_caller busy moved) with done | ⟨other, next, place, fewer⟩
    · exact .inl done
    · exact .inr (lower_of_next busy place fewer)
  | joined script here joining behind =>
    rcases worker_moved (step_worker moved) with done | ⟨next, kept, fewer⟩
    · exact .inl done
    · exact .inr (joined_lower kept here joining behind (fewer (halted_of_joins (ordered.placed _ _ here) joining)))

theorem other_keeps (going : ¬Over state) (foreign : ¬Own state action)
    (moved : step platform state action = some after) : Over after ∨ left after ≤ left state := by
  obtain ⟨_, ⟨call, pc, busy⟩, _⟩ := inside_of_not_over going
  cases action with
  | call other =>
    have idle := (step_called moved).1
    rw [busy] at idle
    cases idle
  | caller script available => exact absurd (.caller script available) foreign
  | worker thread script =>
    rcases worker_moved (step_worker moved) with done | ⟨next, kept, _⟩
    · exact .inl done
    · exact .inr (elsewhere_same kept foreign).le
  | receive arrival =>
    obtain ⟨backend, _, same⟩ := step_receive moved
    subst same
    exact .inr (left_congr rfl fun _ _ _ _ => rfl).le
  | tick nanoseconds =>
    have same := step_tick moved
    subst same
    exact .inr (left_congr rfl fun _ _ _ _ => rfl).le

/-- What a session has left to do, as a bound in the sense of the library. -/
theorem bounded (platform : MotorBus.Platform) (config : ArmConfig) :
    Bounded (machine platform config) (Reach (machine platform config) Anything) Over Own left where
  kept _ _ _ moved reached := reached.next trivial moved
  positive state _ going := by
    obtain ⟨_, ⟨call, pc, busy⟩, _⟩ := inside_of_not_over going
    exact lt_of_lt_of_le (fewest_pos pc) (fewest_le_left busy)
  foreign _ _ _ _ going foreign moved := other_keeps going foreign moved
  lowered _ _ _ reached going own moved :=
    own_lower (ordered_of_reach reached (inside_of_not_over going).1) going own moved
  enabled _ _ going := own_enabled platform going

end Bounded

/-- A call that has begun takes a bounded number of steps, its own and those of the thread that it joins, whatever
else happens meanwhile; and one of them can always be taken, unless start_mit_loop waits for its deadline. The
sleep of the thread is one of these steps, however long it lasts, and it ends by itself. -/
theorem calls_complete (platform : MotorBus.Platform) (config : ArmConfig) {start : State config} {call : Call} {pc : Pc}
    (reached : Reach (machine platform config) Anything start) (busy : start.caller = .busy call pc)
    {number : Nat} {state : State config} (during : During (machine platform config) Over Own start number state) :
    number ≤ most pc ∧
      (¬Over state → ∃ action after, Own state action ∧ step platform state action = some after) := by
  obtain ⟨few, enabled⟩ := during.completes (bounded platform config) reached
  exact ⟨few.trans (left_le_most busy), enabled⟩

/-- stop() waits for a worker that is asleep, and the worker wakes up. -/
theorem stop_completes : ∃ start state : State (YamlLoader.joints [(1, 0x11)]),
    (start.caller = .busy .stop (.stopJoin true) ∧ state.threads 0 = .test) ∧ 1 ≤ most (.stopJoin true) ∧
      (¬Over state → ∃ action after, Own state action ∧ step MotorBus.Platform.wrapping state action = some after) := by
  have ran : ((machine MotorBus.Platform.wrapping (YamlLoader.joints [(1, 0x11)])).run (fun _ _ => true)
      (oneBatch ++ [.call .stop, quietly]) (initialState (YamlLoader.joints [(1, 0x11)]))).bind (fun start =>
        ((machine MotorBus.Platform.wrapping (YamlLoader.joints [(1, 0x11)])).step start loops).map fun state =>
          decide (start.terminated = false ∧ start.caller = .busy .stop (.stopJoin true) ∧ start.worker = some 0 ∧
            state.threads 0 = .test)) = some true := by decide +kernel
  obtain ⟨start, state, reached, moved, alive, busy, behind, awake⟩ := Machine.reach_step_checked rfl ran
  have going : ¬Over start := by
    rintro (dead | idle | ⟨call, deadline, _, place | place | place⟩)
    · cases alive.symm.trans dead
    · exact idle _ _ busy
    · cases busy.symm.trans place
    · cases busy.symm.trans place
    · cases busy.symm.trans place
  exact ⟨start, state, ⟨busy, awake⟩,
    calls_complete MotorBus.Platform.wrapping _ reached.anything busy (.own .begin going (.joined [] busy rfl behind) moved)⟩

end DmOpenarm.Completion
