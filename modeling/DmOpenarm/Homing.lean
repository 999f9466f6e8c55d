import DmOpenarm.Lifecycle
import DmOpenarm.SessionLog
import DmOpenarm.YamlLoader

/-! What a restarted loop sends. The worker starts before start_mit_loop() installs the homing
commands, and its first copies of the table are what an earlier session has left there. -/

namespace DmOpenarm.Homing
open Types hiding ControlMode
open MotorBus CommandTable Session SessionMoves SessionLog Lifecycle YamlLoader Library.Readings Library.Runs
variable {config : ArmConfig}

/-- The calls that a run may consist of. -/
def permitted : Call → Bool
  | .enable => true
  | .startMitLoop _ _ => true
  | .mit _ => true
  | .stopMitLoop => true
  | _ => false

/-- A worker copies the table only once this session's homing commands are in it, unless no
command has ever been. -/
def careful (state : State config) : Session.Action → Bool
  | .call call => permitted call
  | .worker thread _ => state.threads thread ≠ .copy || fresh state.log || untouched state.log
  | _ => true

structure Homes (state : State config) : Prop where
  size : state.commands.length = (canIds config).length
  table : Live state → fresh state.log = true →
    state.commands = tableAfter (canIds config) (updates (current state.log))
  zero : Live state → fresh state.log = true → homing state.log = true → ∀ command ∈ state.commands, command.q = 0
  initial : untouched state.log = true → state.commands = initialCommands (canIds config)
  caller : ∀ call pc, state.caller = .busy call pc → permitted call = true ∧
    ((∃ commands, call = .mit commands) → homing state.log = false)
  sends : ∀ thread snapshot, state.threads thread = .send snapshot → lastSnapshot state.log = some snapshot ∧
    (homing state.log = true → ∀ command ∈ snapshot, command.q = 0)

/-- Two logs that tell the same of the table, its copies, and who commands it. -/
def SameTold (log other : List Event) : Prop := tables log = tables other ∧ homing log = homing other

theorem SameTold.grown {log after : List Event} (grown : Grown ending log after) : SameTold after log :=
  ⟨grown.read tables_ending, grown.read homing_ending⟩

theorem SameTold.setException (state : State config) (exception : Option Fault) :
    SameTold (setException state exception).log state.log := .grown (setException_grown (fun _ => rfl) state exception)

/-- A step that neither calls, nor changes the table, nor copies it, nor starts the loop. -/
theorem Homes.frame {state after : State config} (homes : Homes state) (told : SameTold after.log state.log)
    (commands : after.commands = state.commands) (live : Live after → Live state)
    (caller : ∀ call pc, after.caller = .busy call pc → ∃ before, state.caller = .busy call before)
    (threads : ∀ thread snapshot, after.threads thread = .send snapshot → state.threads thread = .send snapshot) :
    Homes after := by
  obtain ⟨same, home⟩ := told
  obtain ⟨fresh, updates, untouched, copied⟩ := tables_eq same
  refine ⟨?_, ?_, ?_, ?_, ?_, ?_⟩
  · rw [commands]
    exact homes.size
  · intro now renewed
    rw [fresh] at renewed
    rw [commands, updates]
    exact homes.table (live now) renewed
  · intro now renewed homed
    rw [fresh] at renewed
    rw [home] at homed
    rw [commands]
    exact homes.zero (live now) renewed homed
  · intro never
    rw [untouched] at never
    rw [commands]
    exact homes.initial never
  · intro call pc busy
    obtain ⟨before, place⟩ := caller call pc busy
    rw [home]
    exact homes.caller call before place
  · intro thread snapshot here
    rw [copied, home]
    exact homes.sends thread snapshot (threads thread snapshot here)

theorem zero_initialCommands (ids : List Id) : ∀ command ∈ initialCommands ids, command.q = 0 := by
  intro command member
  rw [List.eq_of_mem_replicate member]

theorem zero_homing (count : Nat) : ∀ command ∈ List.replicate count homeCommand, command.q = 0 := by
  intro command member
  rw [List.eq_of_mem_replicate member]
  rfl

/-- An update that returns has made the table that it makes of any table. -/
theorem run_eq_apply {ids : List Id} {commands changed : List MitCommand} {update : Update}
    (ran : update.run ids commands = .ok changed) : update.apply ids commands = changed := by
  rw [Update.apply, ran]

/-- A whole table forgets what was there before. -/
theorem setAllCommands_forgets {ids : List Id} {commands changed replacement other : List MitCommand}
    (ran : (Update.setAllCommands replacement).run ids commands = .ok changed) (same : other.length = commands.length) :
    changed = replacement ∧ (Update.setAllCommands replacement).apply ids other = changed := by
  by_cases wrong : replacement.length ≠ commands.length
  · rw [Update.run, setAllCommands, if_pos wrong] at ran
    cases ran
  · rw [Update.run, setAllCommands, if_neg wrong] at ran
    cases ran
    refine ⟨rfl, run_eq_apply ?_⟩
    rw [Update.run, setAllCommands, same, if_neg wrong]
    rfl

theorem length_tableAfter (ids : List Id) (history : List Update) : (tableAfter ids history).length = ids.length := by
  induction history using List.reverseRecOn with
  | nil => exact List.length_replicate
  | append_singleton history update ih =>
    rw [tableAfter_append, Update.length_apply]
    exact ih

/-- A step of the caller after which it does not wait for a worker that stop() has told to end. -/
theorem live_back {state after : State config} (running : after.running = state.running)
    (elsewhere : ∀ call, after.caller ≠ .busy call (.stopJoin true)) (live : Live after) : Live state := by
  left
  rw [← running]
  exact live.running elsewhere

/-- A step of the caller that stays in its call and leaves the table and the threads alone. -/
theorem Homes.moveCaller {state after : State config} (homes : Homes state) {call : Call} {pc : Pc}
    (busy : state.caller = .busy call pc) (told : SameTold after.log state.log)
    (commands : after.commands = state.commands) (running : after.running = state.running)
    (threads : after.threads = state.threads)
    (goes : ∀ other next, after.caller = .busy other next → other = call ∧ next ≠ .stopJoin true) :
    Homes after := by
  refine homes.frame told commands (live_back running ?_) ?_ ?_
  · intro other waiting
    exact (goes _ _ waiting).2 rfl
  · intro other next place
    rw [(goes _ _ place).1]
    exact ⟨pc, busy⟩
  · intro thread snapshot sending
    rwa [threads] at sending

theorem Homes.called {state : State config} (homes : Homes state) (ordered : Ordered state) {call : Call}
    (allowed : permitted call = true) (idle : state.caller = .idle) :
    Homes (state.exit ⟨.busy call call.entry, [.called call state.running]⟩) := by
  obtain ⟨same, updates, _⟩ := tables_eq (tables_called call state.running state.log)
  have told {after : State config} (live : Live after) (caller : after.caller = .busy call call.entry)
      (running : after.running = state.running) : state.running = true := by
    rw [← running]
    apply live.running
    intro other waiting
    rw [caller] at waiting
    cases call <;> cases waiting
  have homed (running : state.running = true)
      (now : homing (.called call state.running :: state.log) = true) : homing state.log = true := by
    rw [running] at now
    cases call with
    | mit commands => cases now
    | _ => exact now
  refine ⟨homes.size, ?_, ?_, homes.initial, ?_, ?_⟩
  · intro live renewed
    have running := told live rfl rfl
    change fresh (.called call state.running :: state.log) = true at renewed
    rw [same] at renewed
    exact (homes.table (.inl running) renewed).trans (congrArg _ updates.symm)
  · intro live renewed now
    have running := told live rfl rfl
    change fresh (.called call state.running :: state.log) = true at renewed
    rw [same] at renewed
    exact homes.zero (.inl running) renewed (homed running now)
  · intro other pc busy
    cases busy
    refine ⟨allowed, ?_⟩
    intro given
    obtain ⟨commands, rfl⟩ := given
    rfl
  · intro thread snapshot here
    have live : Live state := ordered.live thread fun finished => by cases here.symm.trans finished
    have running := live.running fun other waiting => by rw [idle] at waiting; cases waiting
    obtain ⟨copied, zero⟩ := homes.sends thread snapshot here
    exact ⟨copied, fun now => zero (homed running now)⟩

/-- An update of the table, by mit() or by the homing of start_mit_loop(). -/
theorem Homes.installed {state : State config} (homes : Homes state) (inside : Inside state.caller) {call : Call}
    {pc next : Pc} {update : Update} {changed : List MitCommand} (busy : state.caller = .busy call pc)
    (install : Install pc update next) (ran : update.run (canIds config) state.commands = .ok changed) :
    Homes ({ state with commands := changed }.exit ⟨.busy call next, [.installed update]⟩) := by
  have applied := run_eq_apply ran
  have table : updates (current (.installed update :: state.log)) = updates (current state.log) ++ [update] := by
    rw [current_cons Event.noConfusion, updates_installed]
  have back {after : State config} (live : Live after) (caller : after.caller = .busy call next)
      (running : after.running = state.running) : Live state := by
    apply live_back running _ live
    intro other waiting
    rw [caller] at waiting
    cases install <;> cases waiting
  refine ⟨?_, ?_, ?_, ?_, ?_, ?_⟩
  · change changed.length = _
    rw [← applied, Update.length_apply]
    exact homes.size
  · intro live renewed
    change changed = tableAfter (canIds config) (updates (current (.installed update :: state.log)))
    rw [table, tableAfter_append]
    cases update with
    | setAllCommands replacement =>
      exact (setAllCommands_forgets ran ((length_tableAfter _ _).trans homes.size.symm)).2.symm
    | setCommand canId command =>
      change fresh (.installed _ :: state.log) = true at renewed
      rw [fresh_cons Event.noConfusion] at renewed
      rw [← homes.table (back live rfl rfl) renewed]
      exact applied.symm
  · intro live renewed now
    change ∀ command ∈ changed, command.q = 0
    cases install with
    | home count =>
      rw [(setAllCommands_forgets ran rfl).1]
      exact zero_homing count
    | assign update rest =>
      obtain ⟨allowed, quiet⟩ := homes.caller call _ busy
      have mit : ∃ commands, call = .mit commands := by
        have member := inside call _ busy
        cases call with
        | mit commands => exact ⟨commands, rfl⟩
        | update change => cases allowed
        | _ => simp [stage, stages] at member
      cases (quiet mit).symm.trans now
  · intro never
    cases never
  · intro other pc place
    cases place
    exact homes.caller call _ busy
  · intro thread snapshot here
    exact homes.sends thread snapshot here

theorem Homes.flagged {state : State config} (homes : Homes state) (ordered : Ordered state) {call : Call}
    (busy : state.caller = .busy call .startFlag) :
    Homes ({ state with running := true }.exit ⟨.busy call .startSpawn, [.began]⟩) := by
  have finished := ordered.finished_of_joined (ordered.placed _ _ busy).2
  refine ⟨homes.size, ?_, ?_, homes.initial, ?_, ?_⟩
  · intro live renewed
    cases renewed
  · intro live renewed
    cases renewed
  · intro other pc place
    cases place
    exact homes.caller call _ busy
  · intro thread snapshot here
    cases (finished thread).symm.trans here

/-- What a worker copies is nothing that an earlier session has left. -/
theorem Homes.clean {state : State config} (homes : Homes state) (live : Live state)
    (care : fresh state.log = true ∨ untouched state.log = true) :
    state.commands = tableAfter (canIds config) (updates (current state.log)) ∧
      (homing state.log = true → ∀ command ∈ state.commands, command.q = 0) := by
  rcases care with renewed | never
  · exact ⟨homes.table live renewed, homes.zero live renewed⟩
  · have initial := homes.initial never
    constructor
    · rw [updates_of_untouched never]
      exact initial
    · intro _
      rw [initial]
      exact zero_initialCommands _

theorem careful_copy {state : State config} {thread : Nat} {script : List Slot}
    (care : careful state (.worker thread script) = true) (here : state.threads thread = .copy) :
    fresh state.log = true ∨ untouched state.log = true := by
  simpa [careful, here] using care

theorem Homes.copied {state : State config} (homes : Homes state) (ordered : Ordered state) {thread : Nat}
    {script : List Slot} (care : careful state (.worker thread script) = true) (here : state.threads thread = .copy) :
    Homes ((state.setThread thread (.send state.commands)).record (.snapshot state.commands)) := by
  have active : state.threads thread ≠ .finished := by
    rw [here]
    exact Worker.noConfusion
  have zero := (homes.clean (ordered.live thread active) (careful_copy care here)).2
  refine ⟨homes.size, ?_, ?_, homes.initial, homes.caller, ?_⟩
  · intro live renewed
    change fresh (.snapshot state.commands :: state.log) = true at renewed
    rw [fresh_cons Event.noConfusion] at renewed
    change state.commands = tableAfter _ (updates (current (.snapshot state.commands :: state.log)))
    rw [current_cons Event.noConfusion, updates_other rfl]
    exact homes.table live renewed
  · intro live renewed now
    change fresh (.snapshot state.commands :: state.log) = true at renewed
    rw [fresh_cons Event.noConfusion] at renewed
    exact homes.zero live renewed now
  · intro other snapshot sending
    change Function.update state.threads thread (.send state.commands) other = .send snapshot at sending
    by_cases same : other = thread
    · rw [same, Function.update_self] at sending
      cases sending
      exact ⟨rfl, zero⟩
    · rw [Function.update_of_ne same, ordered.alone active same] at sending
      cases sending

theorem Homes.move {state after : State config} {action : Session.Action} (homes : Homes state)
    (ordered : Ordered state) (inside : Inside state.caller) (care : careful state action = true)
    (alive : after.terminated = false) (move : Move state action after) : Homes after := by
  have keeps {log : List Event} : SameTold log log := ⟨rfl, rfl⟩
  cases move with
  | ended dead log => cases dead.symm.trans alive
  | endedZero emitted dead busy log => cases dead.symm.trans alive
  | endedSend emitted dead here log => cases dead.symm.trans alive
  | called call idle => exact homes.called ordered care idle
  | turned obeys busy turn =>
    refine homes.moveCaller busy (.grown turn.grown) rfl rfl rfl ?_
    intro other next place
    refine ⟨turn.call_eq place, ?_⟩
    intro same
    subst same
    exact ((Turn.settled turn).2 other).1 place
  | installed busy install ran => exact homes.installed inside busy install ran
  | joined busy joining done =>
    refine homes.moveCaller busy keeps rfl rfl rfl ?_
    intro other next place
    cases place
    refine ⟨rfl, ?_⟩
    intro same
    subst same
    cases joining
  | reset busy =>
    refine homes.moveCaller busy (.setException state none) rfl rfl rfl ?_
    intro other next place
    cases place
    exact ⟨rfl, Pc.noConfusion⟩
  | flagged busy => exact homes.flagged ordered busy
  | @spawned _ _ call busy free =>
    refine homes.frame (.grown (startReturned_grown call state.log)) rfl
      (live_back rfl fun other => (settled_startReturned call other).1) ?_ (sends_back fun _ => Worker.noConfusion)
    intro other next place
    rw [(startReturned_next place).1]
    exact ⟨_, busy⟩
  | exchanged busy =>
    refine homes.frame keeps rfl ?_ ?_ fun _ _ => id
    · intro given
      rcases given with running | ⟨call, waiting⟩
      · cases running
      · exact .inl (Pc.stopJoin.inj (Caller.busy.inj waiting).2)
    · intro other next place
      cases place
      exact ⟨_, busy⟩
  | @zeroed _ _ call exit _ obeys emitted busy zeroed =>
    have told : SameTold (exit.events ++ .zeroBatch emitted :: state.log) state.log := by
      cases zeroed with
      | returned => exact keeps
      | threw fault =>
        have stopped := SameTold.grown (stopThrew_grown call fault (.zeroBatch emitted :: state.log))
        exact stopped
    refine homes.moveCaller busy told rfl rfl rfl ?_
    intro other next place
    obtain ⟨same, there⟩ := zeroed.next place
    refine ⟨same, ?_⟩
    rcases there with rfl | rfl <;> exact Pc.noConfusion
  | @rethrown _ _ call fault busy held =>
    obtain ⟨running, _, threads, commands⟩ := rethrow_keeps state call fault
    refine homes.moveCaller busy (.grown (rethrow_grown state call fault)) commands running threads ?_
    intro other next place
    obtain ⟨stays, rfl⟩ := rethrow_next place
    exact ⟨stays, Pc.noConfusion⟩
  | released busy =>
    refine homes.moveCaller busy (.setException state none) rfl rfl rfl ?_
    intro other next place
    cases place
  | looped looping =>
    exact homes.frame keeps rfl id (fun _ pc busy => ⟨pc, busy⟩) (sends_back looping.ne_send)
  | copied here => exact homes.copied ordered care here
  | sent obeys emitted here sent =>
    exact homes.frame keeps rfl id (fun _ pc busy => ⟨pc, busy⟩) (sends_back sent.ne_send)
  | @stored _ _ fault here =>
    exact homes.frame (.setException state (some fault)) rfl id (fun _ pc busy => ⟨pc, busy⟩)
      (sends_back fun _ => Worker.noConfusion)
  | cleared here =>
    refine homes.frame keeps rfl ?_ (fun _ pc busy => ⟨pc, busy⟩) (sends_back fun _ => Worker.noConfusion)
    intro given
    rcases given with running | waiting
    · cases running
    · exact .inr waiting
  | outside obeys clock =>
    exact homes.frame keeps rfl id (fun _ pc busy => ⟨pc, busy⟩) fun _ _ => id

theorem Homes.start : Homes (initialState config) := by
  refine ⟨List.length_replicate, ?_, ?_, fun _ => rfl, ?_, ?_⟩
  · intro live renewed
    cases renewed
  · intro live renewed
    cases renewed
  · intro call pc busy
    cases busy
  · intro thread snapshot here
    cases here

/-- A worker copies what has been installed since the stop_mit_loop() before its session, and sends
what it has copied; between a start_mit_loop() and the next mit() that is position zero. -/
def Clean (ids : List Id) : Event → List Event → Prop
  | .snapshot commands, earlier => commands = tableAfter ids (updates (current earlier))
  | .batch commands _, earlier => lastSnapshot earlier = some commands ∧
      (homing earlier = true → ∀ command ∈ commands, command.q = 0)
  | _, _ => True

theorem Homes.logs {state : State config} (homes : Homes state) (ordered : Ordered state) {action : Session.Action}
    (care : careful state action = true) {event : Event} {earlier : List Event}
    (logs : Logs state action event earlier) : Clean (canIds config) event earlier := by
  cases logs with
  | plain free =>
    cases event with
    | called | raised | installed | began | failed => exact trivial
    | _ => cases free
  | snapshot here =>
    have live := ordered.live _ (by rw [here]; exact Worker.noConfusion)
    exact (homes.clean live (careful_copy care here)).1
  | batch emitted here => exact homes.sends _ _ here
  | _ => exact trivial

theorem restarts_are_clean {platform : Platform} {state : State config}
    (reached : Reach (machine platform config) (fun before action => careful before action = true) state) :
    Throughout (Clean (canIds config)) state.log := by
  let inv (state : State config) : Prop := Ordered state ∧ Inside state.caller ∧ Homes state
  have base : inv (initialState config) := ⟨.initial, .idle, .start⟩
  have kept : ∀ before action after, careful before action = true → after.terminated = false →
      Move before action after → inv before → inv after :=
    fun _ _ _ care alive move all =>
      ⟨all.1.move alive move, all.2.1.move alive move, all.2.2.move all.1 all.2.1 care alive move⟩
  have logged : ∀ before action event earlier, careful before action = true → inv before →
      Logs before action event earlier → Clean (canIds config) event earlier :=
    fun _ _ _ _ care all logs => all.2.2.logs all.1 care logs
  exact (reach_logs base kept logged reached).1

/-- An arm that homes before its worker copies, is moved, stopped and started again. -/
def patientRestart : List Session.Action :=
  [.call .enable, quietly, .call (.startMitLoop (.finite 1000) (.finite 5)), quietly, quietly, quietly, quietly,
    quietly, quietly, quietly, loops, loops, loops, quietly, quietly, .call (.mit [(1, { q := 1 })]), quietly, quietly,
    loops, loops, loops, loops, .call .stopMitLoop, quietly, quietly, loops, loops, quietly, quietly, quietly,
    .call (.startMitLoop (.finite 1000) (.finite 5)), quietly, quietly, quietly, quietly]

/-- If the second session homes first, it sends position zero. -/
theorem patient_restart_homes : ∃ state : State (joints [(1, 0x11)]),
    state.log.head? = some (.batch [homeCommand] 1) ∧ Throughout (Clean [1]) state.log := by
  have ran : ((machine Platform.wrapping (joints [(1, 0x11)])).run careful
      (patientRestart ++ [quietly, quietly, quietly, .worker 1 [], .worker 1 [], .worker 1 []])
      (initialState (joints [(1, 0x11)]))).map (fun state =>
        decide (state.log.head? = some (.batch [homeCommand] 1))) = some true := by decide +kernel
  obtain ⟨state, reached, top⟩ := Machine.reach_checked rfl ran
  exact ⟨state, top, restarts_are_clean reached⟩

/-- If its worker is faster, it sends the last target of the session before. -/
theorem hasty_restart_moves : ∃ (state : State (joints [(1, 0x11)])) (earlier : List Event),
    Reach (machine Platform.wrapping (joints [(1, 0x11)]))
      (fun _ action => ∀ call, action = .call call → permitted call = true) state ∧
    state.log = .batch [{ q := 1 }] 1 :: earlier ∧ homing earlier = true ∧
    updates (current earlier) = [] := by
  have ran : ((machine Platform.wrapping (joints [(1, 0x11)])).run
      (fun _ action => match action with | .call call => permitted call | _ => true)
      (patientRestart ++ [quietly, .worker 1 [], .worker 1 [], .worker 1 []])
      (initialState (joints [(1, 0x11)]))).map (fun state =>
        decide (state.log = .batch [{ q := 1 }] 1 :: state.log.tail ∧ homing state.log.tail = true ∧
          updates (current state.log.tail) = [])) = some true := by decide +kernel
  obtain ⟨state, reached, log, home, none⟩ := Machine.reach_checked rfl ran
  refine ⟨state, _, reached.weaken ?_, log, home, none⟩
  intro before action allowed call same
  subst same
  exact allowed

end DmOpenarm.Homing
