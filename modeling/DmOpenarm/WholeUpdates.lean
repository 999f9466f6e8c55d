import DmOpenarm.Library.Writes
import DmOpenarm.Lifecycle
import DmOpenarm.SessionWrites
import DmOpenarm.YamlLoader

/-! What the worker sees of a dict that mit() writes entry by entry while the loop runs. -/

namespace DmOpenarm.WholeUpdates
open Types hiding ControlMode
open MotorBus CommandTable Session SessionMoves SessionLog SessionWrites Lifecycle YamlLoader Library.Runs Library.Writes
variable {config : ArmConfig}

abbrev Entries := List (Id × MitCommand)

/-- The updates that a dict makes, in its order. -/
def assignments (dict : Entries) : List Update := dict.map fun entry => .setCommand entry.1 entry.2

/-- A dict of CAN IDs of the arm has each of its keys once. -/
def Listed (ids : List Id) (dict : Entries) : Prop := (dict.map Prod.fst).Nodup ∧ ∀ entry ∈ dict, entry.1 ∈ ids

instance (ids : List Id) (dict : Entries) : Decidable (Listed ids dict) :=
  inferInstanceAs (Decidable (_ ∧ _))

theorem foldl_assignments (ids : List Id) (table : List MitCommand) (dict : Entries) :
    (assignments dict).foldl (Update.apply ids) table = writeAll table (located (place ids) dict) := by
  induction dict generalizing table with
  | nil => rfl
  | cons entry rest ih =>
    rw [assignments, List.map_cons, List.foldl_cons]
    cases search : motorIndex ids entry.1 with
    | ok index =>
      have found : place ids entry.1 = some index := by rw [place, search]; rfl
      have written : (Update.setCommand entry.1 entry.2).apply ids table = table.set index entry.2 := by
        rw [Update.apply, Update.run, setCommand, search]
        rfl
      rw [written, located_cons_some found, writeAll_cons]
      exact ih _
    | error fault =>
      have absent : place ids entry.1 = none := by rw [place, search]; rfl
      have kept : (Update.setCommand entry.1 entry.2).apply ids table = table := by
        rw [Update.apply, Update.run, setCommand, search]
        rfl
      rw [kept, located_cons_none absent]
      exact ih _

theorem tableAfter_assignments (ids : List Id) (history : List Update) (dict : Entries) :
    tableAfter ids (history ++ assignments dict) =
      writeAll (tableAfter ids history) (located (place ids) dict) := by
  rw [tableAfter, List.foldl_append]
  exact foldl_assignments ids _ dict

/-- The table follows the log, and a dict is written as far as its call has come. -/
structure Writing (state : State config) : Prop where
  table : state.commands = tableAfter (canIds config) (updates state.log)
  latest : ∀ call pc, state.caller = .busy call pc → latestCall state.log = some call
  during : ∀ dict pc, state.caller = .busy (.mit dict) pc → ∃ written rest, dict = written ++ rest ∧
    pc = .assign (assignments rest) ∧ updates state.log = updates (beforeCall state.log) ++ assignments written
  done : ∀ dict, latestCall state.log = some (.mit dict) → Listed (canIds config) dict →
    (∃ pc, state.caller = .busy (.mit dict) pc) ∨
      updates state.log = updates (beforeCall state.log) ++ assignments dict
  sends : ∀ thread snapshot, state.threads thread = .send snapshot → lastSnapshot state.log = some snapshot

theorem Writing.called {state : State config} (writing : Writing state) (call : Call) :
    Writing (state.exit ⟨.busy call call.entry, [.called call state.running]⟩) where
  table := writing.table
  latest other pc busy := by
    cases busy
    rfl
  during dict pc busy := by
    cases busy
    exact ⟨[], dict, rfl, rfl, (List.append_nil _).symm⟩
  done dict latest _ := by
    cases latest
    exact .inl ⟨_, rfl⟩
  sends := writing.sends

/-- One more update of the table. -/
theorem Writing.installed {state : State config} (writing : Writing state) {call : Call} {pc next : Pc}
    {update : Update} {changed : List MitCommand} (busy : state.caller = .busy call pc) (install : Install pc update next)
    (ran : update.run (canIds config) state.commands = .ok changed) :
    Writing ({ state with commands := changed }.exit ⟨.busy call next, [.installed update]⟩) := by
  have same : latestCall (.installed update :: state.log) = latestCall state.log := rfl
  have latest := writing.latest call pc busy
  refine ⟨?_, ?_, ?_, ?_, writing.sends⟩
  · change changed = tableAfter _ (updates (.installed update :: state.log))
    rw [updates_installed, tableAfter_append, ← writing.table, Update.apply, ran]
  · intro other pc place
    cases place
    exact latest
  · intro dict pc place
    cases place
    obtain ⟨written, rest, split, here, stands⟩ := writing.during dict _ busy
    cases rest with
    | nil =>
      subst here
      cases install
    | cons entry rest =>
      subst here
      cases install
      refine ⟨written ++ [entry], rest, by rw [split, List.append_assoc]; rfl, rfl, ?_⟩
      change updates (.installed _ :: state.log) = updates (beforeCall state.log) ++ _
      rw [updates_installed, stands, assignments, assignments, List.map_append, List.append_assoc]
      rfl
  · intro dict other _
    cases other.symm.trans (same.trans latest)
    exact .inl ⟨_, rfl⟩

theorem Writing.copied {state : State config} (writing : Writing state) (ordered : Ordered state) {thread : Nat}
    (here : state.threads thread = .copy) :
    Writing ((state.setThread thread (.send state.commands)).record (.snapshot state.commands)) where
  table := by
    change state.commands = tableAfter _ (updates (.snapshot state.commands :: state.log))
    rw [updates_other rfl]
    exact writing.table
  latest := writing.latest
  during := writing.during
  done := writing.done
  sends other snapshot sending := by
    change Function.update state.threads thread (.send state.commands) other = .send snapshot at sending
    by_cases same : other = thread
    · rw [same, Function.update_self] at sending
      cases sending
      rfl
    · have active : state.threads thread ≠ .finished := by
        rw [here]
        exact Worker.noConfusion
      rw [Function.update_of_ne same, ordered.alone active same] at sending
      cases sending

/-- A step that leaves the table alone, of a caller that stays where it is or is in no dict update. -/
theorem Writing.untouched {state after : State config} (writing : Writing state) (untouched : Untouched state after)
    (stays : ∀ call pc, after.caller = .busy call pc → ∃ before, state.caller = .busy call before)
    (mits : ∀ dict pc, state.caller = .busy (.mit dict) pc → after.caller = .busy (.mit dict) pc) :
    Writing after := by
  obtain ⟨latestSame, beforeSame, updatesSame, snapshotSame⟩ := writes_eq untouched.log
  refine ⟨?_, ?_, ?_, ?_, ?_⟩
  · rw [untouched.commands, updatesSame]
    exact writing.table
  · intro call pc busy
    obtain ⟨before, place⟩ := stays call pc busy
    rw [latestSame]
    exact writing.latest call before place
  · intro dict pc busy
    obtain ⟨before, place⟩ := stays _ pc busy
    cases (mits dict before place).symm.trans busy
    rw [updatesSame, beforeSame]
    exact writing.during dict pc place
  · intro dict latest listed
    rw [latestSame] at latest
    rw [updatesSame, beforeSame]
    rcases writing.done dict latest listed with ⟨pc, place⟩ | finished
    · exact .inl ⟨pc, mits dict pc place⟩
    · exact .inr finished
  · intro thread snapshot here
    rw [snapshotSame]
    exact writing.sends thread snapshot (untouched.sends thread snapshot here)

/-- The call of mit() is over. -/
theorem Writing.ended {state : State config} (writing : Writing state) {dict : Entries} {pc : Pc}
    (busy : state.caller = .busy (.mit dict) pc) {events : List Event}
    (same : writes (events ++ state.log) = writes state.log) (whole : Listed (canIds config) dict →
      updates state.log = updates (beforeCall state.log) ++ assignments dict) :
    Writing (state.exit ⟨.idle, events⟩) := by
  obtain ⟨latestSame, beforeSame, updatesSame, snapshotSame⟩ := writes_eq same
  refine ⟨?_, ?_, ?_, ?_, ?_⟩
  · change state.commands = tableAfter _ (updates (events ++ state.log))
    rw [updatesSame]
    exact writing.table
  · intro call pc place
    cases place
  · intro other pc place
    cases place
  · intro other latest listed
    change latestCall (events ++ state.log) = some (.mit other) at latest
    rw [latestSame, writing.latest _ _ busy] at latest
    cases latest
    right
    change updates (events ++ state.log) = updates (beforeCall (events ++ state.log)) ++ _
    rw [updatesSame, beforeSame]
    exact whole listed
  · intro thread snapshot here
    change lastSnapshot (events ++ state.log) = some snapshot
    rw [snapshotSame]
    exact writing.sends thread snapshot here

/-- One step of the caller in mit(): the next entry, or the end. -/
theorem Writing.mit {platform : Platform} {state after : State config} (writing : Writing state) {script : List Slot}
    {available : Bool} {dict : Entries} {pc : Pc} (busy : state.caller = .busy (.mit dict) pc)
    (moved : pcStep platform state script available (.mit dict) pc = some after) : Writing after := by
  obtain ⟨written, rest, split, here, stands⟩ := writing.during dict pc busy
  subst here
  cases rest with
  | nil =>
    rw [List.append_nil] at split
    simp only [assignments, List.map_nil, pcStep, Option.some.injEq] at moved
    subst moved split
    exact writing.ended busy rfl fun _ => stands
  | cons entry rest =>
    have known (listed : Listed (canIds config) dict) : entry.1 ∈ canIds config :=
      listed.2 entry (by rw [split]; simp)
    rw [assignments, List.map_cons] at busy moved
    cases ran : (Update.setCommand entry.1 entry.2).run (canIds config) state.commands with
    | ok changed =>
      simp only [pcStep, ran, Option.some.injEq] at moved
      exact moved ▸ writing.installed busy (.assign _ _) ran
    | error fault =>
      simp only [pcStep, ran, Option.some.injEq] at moved
      subst moved
      refine writing.ended busy rfl ?_
      intro listed
      obtain ⟨index, found⟩ := Option.isSome_iff_exists.mp (place_isSome (known listed))
      rw [Update.run, setCommand, place_eq_some found] at ran
      cases ran

theorem Writing.step {platform : Platform} {state after : State config} {action : Session.Action}
    (writing : Writing state) (ordered : Ordered state) (alive : after.terminated = false)
    (moved : Session.step platform state action = some after) : Writing after := by
  cases writes_of_move alive (step_move moved) with
  | called call idle => exact writing.called call
  | installed busy install ran => exact writing.installed busy install ran
  | copied here => exact writing.copied ordered here
  | @turned _ _ _ call pc busy stays untouched =>
    by_cases mits : ∃ dict, call = .mit dict
    · obtain ⟨dict, rfl⟩ := mits
      exact writing.mit busy (step_caller busy moved)
    · refine writing.untouched untouched ?_ ?_
      · intro other next place
        exact ⟨pc, stays other next place ▸ busy⟩
      · intro dict next place
        cases busy.symm.trans place
        exact absurd ⟨dict, rfl⟩ mits
  | apart caller untouched =>
    refine writing.untouched untouched ?_ ?_
    · intro call pc place
      exact ⟨pc, caller ▸ place⟩
    · intro dict pc place
      exact caller.trans place

theorem Writing.initial : Writing (initialState config) := by
  refine ⟨rfl, ?_, ?_, ?_, ?_⟩
  · intro call pc busy
    cases busy
  · intro dict pc busy
    cases busy
  · intro dict latest
    cases latest
  · intro thread snapshot here
    cases here

/-- The table already holds the entry. -/
def repeats (ids : List Id) (table : List MitCommand) (entry : Id × MitCommand) : Bool :=
  match place ids entry.1 with
  | some index => table[index]? = some entry.2
  | none => false

theorem holds_of_repeats {ids : List Id} {table : List MitCommand} {entry : Id × MitCommand}
    (same : repeats ids table entry = true) : Holds (place ids) table entry := by
  unfold repeats at same
  cases found : place ids entry.1 with
  | none =>
    rw [found] at same
    cases same
  | some index =>
    rw [found] at same
    exact ⟨index, found, of_decide_eq_true same⟩

/-- A worker that copies the table in the middle of a dict update finds that the entries written
so far, or those still to be written, only repeat the table from before the call. -/
def undivided (state : State config) : Session.Action → Bool
  | .worker thread _ =>
      match state.threads thread, state.caller with
      | .copy, .busy (.mit dict) (.assign rest) =>
          let before := tableAfter (canIds config) (updates (beforeCall state.log))
          let written := dict.length - rest.length
          !decide (Listed (canIds config) dict) || (dict.take written).all (repeats (canIds config) before) ||
            (dict.drop written).all (repeats (canIds config) before)
      | _, _ => true
  | _ => true

/-- What the worker copies during a mit() of a dict, and after it until the next call, is the table
from before the call without any of the entries or with all of them; and it sends what it has
copied. -/
def Whole (ids : List Id) : Event → List Event → Prop
  | .snapshot commands, earlier => ∀ dict, latestCall earlier = some (.mit dict) → Listed ids dict →
      commands = tableAfter ids (updates (beforeCall earlier)) ∨
        commands = tableAfter ids (updates (beforeCall earlier) ++ assignments dict)
  | .batch commands _, earlier => lastSnapshot earlier = some commands
  | _, _ => True

theorem located_of_listed {ids : List Id} {dict : Entries} (listed : ∀ entry ∈ dict, entry.1 ∈ ids) :
    ∀ entry ∈ dict, (place ids entry.1).isSome = true :=
  fun entry member => place_isSome (listed entry member)

/-- Entries that the table holds already can be written or not. -/
theorem writeAll_repeated {ids : List Id} {table : List MitCommand} {dict : Entries} (listed : Listed ids dict)
    (held : ∀ entry ∈ dict, repeats ids table entry = true) : writeAll table (located (place ids) dict) = table := by
  have writes := (located_held_iff (located_of_listed listed.2)).mpr fun entry member =>
    holds_of_repeats (held entry member)
  apply (writeAll_eq_self_iff (distinct_located place_inj listed.1) ?_).mpr writes
  exact fun write member => (List.getElem?_eq_some_iff.mp (writes write member)).1

theorem Writing.whole {state : State config} (writing : Writing state) {thread : Nat} {script : List Slot}
    (care : undivided state (.worker thread script) = true) (here : state.threads thread = .copy) :
    Whole (canIds config) (.snapshot state.commands) state.log := by
  intro dict latest listed
  rcases writing.done dict latest listed with ⟨pc, busy⟩ | finished
  · obtain ⟨written, rest, split, place, stands⟩ := writing.during dict pc busy
    have table := writing.table
    rw [stands, tableAfter_assignments] at table
    subst split place
    have count : (written ++ rest).length - (assignments rest).length = written.length := by
      rw [List.length_append, assignments, List.length_map]
      omega
    simp only [undivided, here, busy, count, List.take_left, List.drop_left, Bool.or_eq_true, Bool.not_eq_true',
      decide_eq_false_iff_not, List.all_eq_true] at care
    have distinct := listed.1
    rw [List.map_append] at distinct
    rcases care with (unlisted | repeated) | pending
    · exact absurd listed unlisted
    · left
      rw [table]
      apply writeAll_repeated ⟨distinct.of_append_left, ?_⟩ repeated
      exact fun entry member => listed.2 entry (List.mem_append_left _ member)
    · right
      have quiet := writeAll_repeated ⟨distinct.of_append_right, fun entry member =>
        listed.2 entry (List.mem_append_right _ member)⟩ pending
      rw [tableAfter_assignments, located_append, writeAll_comm, writeAll_append, quiet, table]
      intro write member inside
      obtain ⟨entry, among, found, _⟩ := mem_located.mp member
      obtain ⟨other, within, same⟩ := List.mem_map.mp inside
      obtain ⟨later, elsewhere, there, _⟩ := mem_located.mp within
      have equal : entry.1 = later.1 := place_inj found (there.trans (congrArg some same))
      exact List.disjoint_of_nodup_append distinct (List.mem_map_of_mem among) (equal ▸ List.mem_map_of_mem elsewhere)
  · right
    rw [writing.table, finished]

theorem dicts_are_whole {platform : Platform} {state : State config}
    (reached : Reach (machine platform config) (fun before action => undivided before action = true) state) :
    Throughout (Whole (canIds config)) state.log := by
  let inv (state : State config) : Prop := Ordered state ∧ Writing state
  have base : inv (initialState config) := ⟨.initial, .initial⟩
  have kept : ∀ before action after, undivided before action = true → after.terminated = false →
      step platform before action = some after → inv before → inv after :=
    fun _ _ _ _ alive moved both => ⟨both.1.move alive (step_move moved), both.2.step both.1 alive moved⟩
  have logged : ∀ before action event earlier, undivided before action = true → inv before →
      Logs before action event earlier → Whole (canIds config) event earlier := by
    intro before action event earlier care both logs
    cases logs with
    | plain free =>
      cases event with
      | called | raised | installed | began | failed => exact trivial
      | _ => cases free
    | snapshot here => exact both.2.whole care here
    | batch emitted here => exact both.2.sends _ _ here
    | _ => exact trivial
  exact (reach_steps base kept logged reached).1

/-- Two joints on a loop that has sent its first batch, up to the first write of a dict. -/
def firstWrite : List Session.Action :=
  oneBatch ++ [loops, loops, .call (.mit [(1, { q := 1 }), (2, { q := 2 })]), quietly]

theorem late_copy_is_whole : ∃ state : State (joints [(1, 0x11), (2, 0x12)]),
    state.log.head? = some (.batch [{ q := 1 }, { q := 2 }] 2) ∧ Throughout (Whole [1, 2]) state.log := by
  have ran : ((machine Platform.wrapping (joints [(1, 0x11), (2, 0x12)])).run undivided
      (firstWrite ++ [quietly, loops, loops]) (initialState (joints [(1, 0x11), (2, 0x12)]))).map (fun state =>
        decide (state.log.head? = some (.batch [{ q := 1 }, { q := 2 }] 2))) = some true := by decide +kernel
  obtain ⟨state, reached, top⟩ := Machine.reach_checked rfl ran
  exact ⟨state, top, dicts_are_whole reached⟩

/-- The worker copies the table between the two writes, and sends one new command and one old. -/
theorem early_copy_is_divided : ∃ state : State (joints [(1, 0x11), (2, 0x12)]),
    Reach (machine Platform.wrapping (joints [(1, 0x11), (2, 0x12)])) Anything state ∧
    state.log.head? = some (.batch [{ q := 1 }, {}] 2) ∧ Listed [1, 2] [(1, { q := 1 }), (2, { q := 2 })] ∧
    ¬Throughout (Whole [1, 2]) state.log := by
  have ran : ((machine Platform.wrapping (joints [(1, 0x11), (2, 0x12)])).run (fun _ _ => true)
      (firstWrite ++ [loops, loops]) (initialState (joints [(1, 0x11), (2, 0x12)]))).map (fun state =>
        decide (state.log = .batch [{ q := 1 }, {}] 2 :: .snapshot [{ q := 1 }, {}] :: state.log.drop 2 ∧
          latestCall (state.log.drop 2) = some (.mit [(1, { q := 1 }), (2, { q := 2 })]) ∧
          tableAfter [1, 2] (updates (beforeCall (state.log.drop 2))) = [{}, {}])) = some true := by decide +kernel
  obtain ⟨state, reached, log, latest, table⟩ := Machine.reach_checked rfl ran
  have listed : Listed [1, 2] [(1, { q := 1 }), (2, { q := 2 })] := by decide
  refine ⟨state, reached.anything, by rw [log]; rfl, listed, ?_⟩
  rw [log]
  intro given
  obtain ⟨_, whole, _⟩ := given
  have divided := whole _ latest listed
  rw [tableAfter_assignments, table] at divided
  revert divided
  decide

end DmOpenarm.WholeUpdates
