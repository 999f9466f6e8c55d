import DmOpenarm.SessionLog

/-! What one step of a session does to the table and its copies, and which call it belongs to. -/

namespace DmOpenarm.SessionWrites
open Types hiding ControlMode
open MotorBus CommandTable Session SessionMoves SessionLog Library.Readings
variable {config : ArmConfig}

/-- A call that a log entry records. -/
def callOf : Event → Option Call
  | .called call _ => some call
  | _ => none

def latestCall (log : List Event) : Option Call := log.findSome? callOf

/-- What the log tells about calls, the table and its copies. -/
def writes (log : List Event) : Option Call × List Event × List Update × Option (List MitCommand) :=
  (latestCall log, beforeCall log, updates log, lastSnapshot log)

theorem writes_eq {log other : List Event} (same : writes log = writes other) : latestCall log = latestCall other ∧
    beforeCall log = beforeCall other ∧ updates log = updates other ∧ lastSnapshot log = lastSnapshot other := by
  simpa only [writes, Prod.mk.injEq] using same

theorem writes_ending (event : Event) (ends : ending event = true) : Passes writes event := by
  cases event with
  | returned | raised | stopped | rethrown | discarded => exact fun _ => rfl
  | _ => cases ends

/-- A step that neither calls, nor changes the table, nor copies it. -/
structure Untouched (state after : State config) : Prop where
  log : writes after.log = writes state.log
  commands : after.commands = state.commands
  sends : ∀ thread snapshot, after.threads thread = .send snapshot → state.threads thread = .send snapshot

/-- What a step does to the table and its copies. -/
inductive Writes (state : State config) : Session.Action → State config → Prop where
  | called (call : Call) (idle : state.caller = .idle) :
      Writes state (.call call) (state.exit ⟨.busy call call.entry, [.called call state.running]⟩)
  | installed {script : List Slot} {available : Bool} {call : Call} {pc next : Pc} {update : Update}
      {changed : List MitCommand} (busy : state.caller = .busy call pc) (install : Install pc update next)
      (ran : update.run (canIds config) state.commands = .ok changed) : Writes state (.caller script available)
        ({ state with commands := changed }.exit ⟨.busy call next, [.installed update]⟩)
  | copied {script : List Slot} {thread : Nat} (here : state.threads thread = .copy) :
      Writes state (.worker thread script)
        ((state.setThread thread (.send state.commands)).record (.snapshot state.commands))
  | turned {script : List Slot} {available : Bool} {after : State config} {call : Call} {pc : Pc}
      (busy : state.caller = .busy call pc)
      (stays : ∀ other next, after.caller = .busy other next → other = call) (untouched : Untouched state after) :
      Writes state (.caller script available) after
  | apart {action : Session.Action} {after : State config} (caller : after.caller = state.caller)
      (untouched : Untouched state after) : Writes state action after

theorem writes_of_move {state after : State config} {action : Session.Action} (alive : after.terminated = false)
    (move : Move state action after) : Writes state action after := by
  have reset (exception : Option Fault) : writes (setException state exception).log = writes state.log :=
    (setException_grown (fun _ => rfl) state exception).read writes_ending
  cases move with
  | ended dead log => cases dead.symm.trans alive
  | endedZero emitted dead busy log => cases dead.symm.trans alive
  | endedSend emitted dead here log => cases dead.symm.trans alive
  | called call idle => exact .called call idle
  | turned obeys busy turn =>
    have same := turn.grown.read writes_ending
    exact .turned busy (fun other next place => turn.call_eq place) ⟨same, rfl, fun _ _ => id⟩
  | installed busy install ran => exact .installed busy install ran
  | joined busy joining done =>
    refine .turned busy ?_ ⟨rfl, rfl, fun _ _ => id⟩
    intro other next place
    cases place
    rfl
  | reset busy =>
    refine .turned busy ?_ ⟨reset none, rfl, fun _ _ => id⟩
    intro other next place
    cases place
    rfl
  | flagged busy =>
    refine .turned busy ?_ ⟨rfl, rfl, fun _ _ => id⟩
    intro other next place
    cases place
    rfl
  | @spawned _ _ call busy free =>
    have same := (startReturned_grown call state.log).read writes_ending
    exact .turned busy (fun other next place => (startReturned_next place).1)
      ⟨same, rfl, sends_back fun _ => Worker.noConfusion⟩
  | exchanged busy =>
    refine .turned busy ?_ ⟨rfl, rfl, fun _ _ => id⟩
    intro other next place
    cases place
    rfl
  | @zeroed _ _ call exit _ obeys emitted busy zeroed =>
    have same : writes (exit.events ++ .zeroBatch emitted :: state.log) = writes state.log := by
      cases zeroed with
      | returned => rfl
      | threw fault => exact (stopThrew_grown call fault (.zeroBatch emitted :: state.log)).read writes_ending
    exact .turned busy (fun other next place => (zeroed.next place).1) ⟨same, rfl, fun _ _ => id⟩
  | @rethrown _ _ call fault busy held =>
    have same := (rethrow_grown state call fault).read writes_ending
    obtain ⟨_, _, threads, commands⟩ := rethrow_keeps state call fault
    refine .turned busy (fun other next place => (rethrow_next place).1) ⟨same, commands, ?_⟩
    intro thread snapshot here
    rwa [threads] at here
  | released busy =>
    refine .turned busy ?_ ⟨reset none, rfl, fun _ _ => id⟩
    intro other next place
    cases place
  | looped looping => exact .apart rfl ⟨rfl, rfl, sends_back looping.ne_send⟩
  | copied here => exact .copied here
  | sent obeys emitted here sent => exact .apart rfl ⟨rfl, rfl, sends_back sent.ne_send⟩
  | @stored _ _ fault here => exact .apart rfl ⟨reset (some fault), rfl, sends_back fun _ => Worker.noConfusion⟩
  | cleared here => exact .apart rfl ⟨rfl, rfl, sends_back fun _ => Worker.noConfusion⟩
  | outside obeys clock => exact .apart rfl ⟨rfl, rfl, fun _ _ => id⟩

/-- A call begins where the caller was idle, and goes on until it is over. -/
theorem Writes.stays {state after : State config} {action : Session.Action} (writes : Writes state action after)
    {call : Call} {pc : Pc} (busy : after.caller = .busy call pc) :
    action = .call call ∨ ∃ before, state.caller = .busy call before := by
  cases writes with
  | called call idle =>
    cases busy
    exact .inl rfl
  | installed place install ran =>
    cases busy
    exact .inr ⟨_, place⟩
  | copied here => exact .inr ⟨pc, busy⟩
  | turned place stays untouched => exact .inr ⟨_, stays call pc busy ▸ place⟩
  | apart caller untouched => exact .inr ⟨pc, caller ▸ busy⟩

end DmOpenarm.SessionWrites
