import Mathlib.Logic.Relation

/-! Programs that read and write a state and may throw. What was written before a throw
stays written, so the exception is carried outside the state, as in C++. -/

namespace Library.Effect
variable {σ ε α β : Type}

abbrev Throwing (σ ε : Type) := ExceptT ε (StateM σ)

def exec (program : Throwing σ ε α) (state : σ) : Except ε α × σ :=
  Id.run (program.run.run state)

theorem exec_bind (program : Throwing σ ε α) (next : α → Throwing σ ε β) (state : σ) :
    exec (program >>= next) state =
      match exec program state with
      | (.ok value, middle) => exec (next value) middle
      | (.error error, middle) => (.error error, middle) := by
  have unfolded : exec (program >>= next) state =
      Id.run ((ExceptT.bindCont next (exec program state).1).run (exec program state).2) := rfl
  rw [unfolded]
  rcases exec program state with ⟨_ | _, middle⟩ <;> rfl

theorem exec_bind_ok {program : Throwing σ ε α} {state middle : σ} {value : α}
    (returned : exec program state = (.ok value, middle)) (next : α → Throwing σ ε β) :
    exec (program >>= next) state = exec (next value) middle := by
  rw [exec_bind, returned]

theorem exec_bind_error {program : Throwing σ ε α} {state middle : σ} {error : ε}
    (thrown : exec program state = (.error error, middle)) (next : α → Throwing σ ε β) :
    exec (program >>= next) state = (.error error, middle) := by
  rw [exec_bind, thrown]

theorem exec_bind_eq_ok {program : Throwing σ ε α} {next : α → Throwing σ ε β} {state last : σ} {result : β}
    (returned : exec (program >>= next) state = (.ok result, last)) :
    ∃ value middle, exec program state = (.ok value, middle) ∧ exec (next value) middle = (.ok result, last) := by
  rcases outcome : exec program state with ⟨error | value, middle⟩
  · rw [exec_bind_error outcome] at returned
    cases returned
  · rw [exec_bind_ok outcome] at returned
    exact ⟨value, middle, rfl, returned⟩

theorem exec_get_bind (next : σ → Throwing σ ε β) (state : σ) :
    exec (get >>= next) state = exec (next state) state := rfl

theorem exec_modify_bind (update : σ → σ) (next : PUnit → Throwing σ ε β) (state : σ) :
    exec (modify update >>= next) state = exec (next ()) (update state) := rfl

theorem exec_tryCatch (program : Throwing σ ε α) (handler : ε → Throwing σ ε α) (state : σ) :
    exec (tryCatch program handler) state =
      match exec program state with
      | (.ok value, middle) => (.ok value, middle)
      | (.error error, middle) => exec (handler error) middle := by
  have unfolded : exec (tryCatch program handler) state = Id.run ((match (exec program state).1 with
      | .ok value => (Pure.pure (.ok value) : StateM σ (Except ε α))
      | .error error => (handler error).run).run (exec program state).2) := rfl
  rw [unfolded]
  rcases exec program state with ⟨_ | _, middle⟩ <;> rfl

/-- A computation that may throw but does not touch the state. -/
theorem exec_ofExcept_bind (outcome : Except ε α) (next : α → Throwing σ ε β) (state : σ) :
    exec (MonadExcept.ofExcept outcome >>= next) state =
      match outcome with
      | .ok value => exec (next value) state
      | .error error => (.error error, state) := by
  cases outcome with
  | error error => rfl
  | ok value => rfl

/-- A sequence of computations that may throw returns only if each of them did. -/
theorem bind_eq_ok {first : Except ε α} {next : α → Except ε β} {result : β} :
    (first >>= next) = .ok result ↔ ∃ value, first = .ok value ∧ next value = .ok result := by
  cases first with
  | error error =>
    constructor
    · intro returned
      cases returned
    · intro given
      obtain ⟨_, returned, _⟩ := given
      cases returned
  | ok value =>
    constructor
    · intro returned
      exact ⟨value, rfl, returned⟩
    · intro given
      obtain ⟨_, same, returned⟩ := given
      cases same
      exact returned

theorem pure_eq_ok {value result : α} : (pure value : Except ε α) = .ok result ↔ value = result :=
  ⟨fun same => Except.ok.inj same, fun same => congrArg Except.ok same⟩

theorem throw_ne_ok {error : ε} {result : α} : (throw error : Except ε α) ≠ .ok result := by
  intro same
  cases same

/-- A check that throws when it fails. -/
theorem check_eq_ok {refused : Prop} [Decidable refused] {error : ε} {rest : Except ε α} {result : α} :
    (if refused then throw error else rest) = .ok result ↔ ¬refused ∧ rest = .ok result := by
  by_cases failed : refused
  · rw [if_pos failed]
    exact iff_of_false throw_ne_ok fun passed => passed.1 failed
  · rw [if_neg failed]
    exact (and_iff_right failed).symm

/-- Primitive steps on a state, and an invariant that each of them keeps. -/
structure Discipline (σ : Type) where
  inv : σ → Prop
  step : σ → σ → Prop
  kept : ∀ before after, step before after → inv before → inv after

namespace Discipline
variable {rules : Discipline σ}

abbrev Path (rules : Discipline σ) : σ → σ → Prop := Relation.ReflTransGen rules.step

/-- What each step keeps wherever the invariant holds, a path keeps. -/
theorem keeps (also : σ → Prop)
    (kept : ∀ before after, rules.inv before → rules.step before after → also before → also after)
    {state last : σ} (path : rules.Path state last) (holds : rules.inv state) (starts : also state) :
    rules.inv last ∧ also last := by
  induction path with
  | refl => exact ⟨holds, starts⟩
  | tail _ last ih => exact ⟨rules.kept _ _ last ih.1, kept _ _ ih.1 last ih.2⟩

theorem inv_path {state last : σ} (path : rules.Path state last) (holds : rules.inv state) :
    rules.inv last :=
  (keeps (fun _ => True) (fun _ _ _ _ _ => trivial) path holds trivial).1

theorem path_bind {program : Throwing σ ε α} {next : α → Throwing σ ε β} {state : σ}
    (first : rules.Path state (exec program state).2)
    (rest : ∀ value middle, exec program state = (.ok value, middle) →
      rules.Path middle (exec (next value) middle).2) :
    rules.Path state (exec (program >>= next) state).2 := by
  rcases outcome : exec program state with ⟨error | value, middle⟩
  · rw [outcome] at first
    rw [exec_bind_error outcome]
    exact first
  · rw [outcome] at first
    rw [exec_bind_ok outcome]
    exact first.trans (rest value middle outcome)

end Discipline

/-- A loop that computes one result for each item, none of which throws. -/
theorem mapM_ok {items : List α} {compute : α → Except ε β} {value : Fin items.length → β}
    (each : ∀ index, compute (items.get index) = .ok (value index)) :
    items.mapM compute = .ok (List.ofFn value) := by
  induction items with
  | nil => rfl
  | cons item rest ih =>
    have first : compute item = .ok (value 0) := each 0
    rw [List.mapM_cons, first, ih fun index => each index.succ, List.ofFn_succ]
    rfl

/-- Every run of the program, whether it returns or throws, is a path of primitive steps. -/
def Follows (rules : Discipline σ) (program : Throwing σ ε α) : Prop :=
  ∀ state, rules.inv state → rules.Path state (exec program state).2

namespace Follows
variable {rules : Discipline σ}

/-- A program that obeys some rules obeys weaker ones. -/
theorem weaken {wider : Discipline σ} {program : Throwing σ ε α} (follows : Follows rules program)
    (inv : ∀ state, wider.inv state → rules.inv state)
    (step : ∀ before after, rules.step before after → wider.step before after) : Follows wider program :=
  fun state holds => Relation.ReflTransGen.mono step _ _ (follows state (inv state holds))

theorem pure (value : α) : Follows rules (pure value : Throwing σ ε α) :=
  fun _ _ => .refl

theorem throw (error : ε) : Follows rules (throw error : Throwing σ ε α) :=
  fun _ _ => .refl

theorem modify {update : σ → σ}
    (allowed : ∀ state, rules.inv state → rules.Path state (update state)) :
    Follows rules (modify update : Throwing σ ε PUnit) :=
  allowed

/-- A program that only reads the state, and then one that depends on what was read. -/
theorem read_bind {program : Throwing σ ε α} {view : σ → Except ε α}
    (reads : ∀ state, exec program state = (view state, state)) {next : α → Throwing σ ε β}
    (rest : ∀ state value, rules.inv state → view state = .ok value →
      rules.Path state (exec (next value) state).2) :
    Follows rules (program >>= next) := by
  intro state holds
  have read := reads state
  cases seen : view state with
  | error error =>
    rw [seen] at read
    rw [exec_bind_error read]
  | ok value =>
    rw [seen] at read
    rw [exec_bind_ok read]
    exact rest state value holds seen

/-- The same where the rest follows the rules whatever was read. -/
theorem after_read {program : Throwing σ ε α} {view : σ → Except ε α}
    (reads : ∀ state, exec program state = (view state, state)) {next : α → Throwing σ ε β}
    (rest : ∀ value, Follows rules (next value)) : Follows rules (program >>= next) :=
  read_bind reads fun state value holds _ => rest value state holds

theorem get_bind {next : σ → Throwing σ ε β}
    (rest : ∀ state, rules.inv state → rules.Path state (exec (next state) state).2) :
    Follows rules (get >>= next) :=
  rest

theorem bind {program : Throwing σ ε α} {next : α → Throwing σ ε β}
    (first : Follows rules program) (rest : ∀ value, Follows rules (next value)) :
    Follows rules (program >>= next) := by
  intro state holds
  apply Discipline.path_bind (first state holds)
  intro value middle outcome
  have middleHolds := rules.inv_path (first state holds) holds
  rw [outcome] at middleHolds
  exact rest value middle middleHolds

theorem tryCatch {program : Throwing σ ε α} {handler : ε → Throwing σ ε α}
    (first : Follows rules program) (handled : ∀ error, Follows rules (handler error)) :
    Follows rules (tryCatch program handler) := by
  intro state holds
  have path := first state holds
  have middleHolds := rules.inv_path path holds
  rw [exec_tryCatch]
  rcases outcome : exec program state with ⟨error | value, middle⟩
  · rw [outcome] at path middleHolds
    exact path.trans (handled error middle middleHolds)
  · rw [outcome] at path
    exact path

theorem forM {body : α → Throwing σ ε PUnit} (items : List α)
    (each : ∀ item ∈ items, Follows rules (body item)) : Follows rules (items.forM body) := by
  induction items with
  | nil => exact pure _
  | cons item rest ih =>
    exact bind (each item (by simp)) fun _ =>
      ih fun other member => each other (List.mem_cons_of_mem _ member)

/-- A loop that returns has run its body, to its end, on each item. -/
theorem forM_visits {body : α → Throwing σ ε PUnit} {items : List α}
    (each : ∀ item ∈ items, Follows rules (body item)) {state last : σ} (holds : rules.inv state)
    (returned : exec (items.forM body) state = (.ok (), last)) {item : α} (member : item ∈ items) :
    ∃ before after, rules.Path state before ∧ exec (body item) before = (.ok (), after) ∧
      rules.Path after last := by
  induction items generalizing state with
  | nil => cases member
  | cons first rest ih =>
    obtain ⟨_, middle, one, others⟩ := exec_bind_eq_ok returned
    have path := each first (by simp) state holds
    have later : ∀ other ∈ rest, Follows rules (body other) :=
      fun other inside => each other (List.mem_cons_of_mem _ inside)
    rw [one] at path
    have middleHolds := rules.inv_path path holds
    rcases List.mem_cons.mp member with same | inside
    · have remaining := forM rest later middle middleHolds
      rw [others] at remaining
      exact ⟨state, middle, .refl, same ▸ one, remaining⟩
    · obtain ⟨before, after, reached, ran, remaining⟩ := ih later middleHolds others inside
      exact ⟨before, after, path.trans reached, ran, remaining⟩

end Follows

/-- Wherever the rules hold, the program throws nothing but what is permitted. -/
def Throws (rules : Discipline σ) (permits : ε → Prop) (program : Throwing σ ε α) : Prop :=
  ∀ state, rules.inv state → ∀ error, (exec program state).1 = .error error → permits error

theorem Follows.throws_bind {rules : Discipline σ} {permits : ε → Prop} {program : Throwing σ ε α}
    {next : α → Throwing σ ε β} (follows : Follows rules program) (first : Throws rules permits program)
    (rest : ∀ value, Throws rules permits (next value)) : Throws rules permits (program >>= next) := by
  intro state holds error thrown
  have middleHolds := rules.inv_path (follows state holds) holds
  rcases outcome : exec program state with ⟨fault | value, middle⟩
  · rw [exec_bind_error outcome] at thrown
    cases thrown
    exact first state holds error (by rw [outcome])
  · rw [exec_bind_ok outcome] at thrown
    rw [outcome] at middleHolds
    exact rest value middle middleHolds error thrown

namespace Throws
variable {rules : Discipline σ} {permits : ε → Prop}

theorem pure (value : α) : Throws rules permits (pure value : Throwing σ ε α) := by
  intro state _ error thrown
  cases thrown

theorem throw {error : ε} (permitted : permits error) : Throws rules permits (throw error : Throwing σ ε α) := by
  intro state _ other thrown
  cases thrown
  exact permitted

theorem modify (update : σ → σ) : Throws rules permits (modify update : Throwing σ ε PUnit) := by
  intro state _ error thrown
  cases thrown

theorem get_bind {next : σ → Throwing σ ε β}
    (rest : ∀ state, rules.inv state → ∀ error, (exec (next state) state).1 = .error error → permits error) :
    Throws rules permits (get >>= next) :=
  rest

/-- A program that only reads the state, and then one that depends on what was read. -/
theorem read_bind {program : Throwing σ ε α} {view : σ → Except ε α}
    (reads : ∀ state, exec program state = (view state, state)) {next : α → Throwing σ ε β}
    (fails : ∀ state error, rules.inv state → view state = .error error → permits error)
    (rest : ∀ state value, rules.inv state → view state = .ok value →
      ∀ error, (exec (next value) state).1 = .error error → permits error) :
    Throws rules permits (program >>= next) := by
  intro state holds error thrown
  have read := reads state
  cases seen : view state with
  | error fault =>
    rw [seen] at read
    rw [exec_bind_error read] at thrown
    cases thrown
    exact fails state _ holds seen
  | ok value =>
    rw [seen] at read
    rw [exec_bind_ok read] at thrown
    exact rest state value holds seen error thrown

/-- The same for a program that always returns, where the rest may throw what is permitted
whatever was read. -/
theorem after_read {program : Throwing σ ε α} {view : σ → α}
    (reads : ∀ state, exec program state = (.ok (view state), state)) {next : α → Throwing σ ε β}
    (rest : ∀ value, Throws rules permits (next value)) : Throws rules permits (program >>= next) := by
  intro state holds error thrown
  rw [exec_bind_ok (reads state)] at thrown
  exact rest (view state) state holds error thrown

theorem weaken {wider : ε → Prop} {program : Throwing σ ε α} (throws : Throws rules permits program)
    (implies : ∀ error, permits error → wider error) : Throws rules wider program :=
  fun state holds error thrown => implies error (throws state holds error thrown)

theorem forM {body : α → Throwing σ ε PUnit} (items : List α)
    (follows : ∀ item ∈ items, Follows rules (body item))
    (each : ∀ item ∈ items, Throws rules permits (body item)) : Throws rules permits (items.forM body) := by
  induction items with
  | nil => exact pure _
  | cons item rest ih =>
    refine (follows item List.mem_cons_self).throws_bind (each item List.mem_cons_self) fun _ => ?_
    exact ih (fun other member => follows other (List.mem_cons_of_mem _ member))
      fun other member => each other (List.mem_cons_of_mem _ member)

end Throws

/-- From a good state the program returns normally and ends in a good state. -/
def Succeeds (good : σ → Prop) (program : Throwing σ ε α) : Prop :=
  ∀ state, good state → ∃ value after, exec program state = (.ok value, after) ∧ good after

namespace Succeeds
variable {good : σ → Prop}

theorem pure (value : α) : Succeeds good (pure value : Throwing σ ε α) :=
  fun state holds => ⟨value, state, rfl, holds⟩

theorem get_bind {next : σ → Throwing σ ε β} (rest : ∀ state, good state → Succeeds good (next state)) :
    Succeeds good (get >>= next) :=
  fun state holds => rest state holds state holds

theorem modify {update : σ → σ} (kept : ∀ state, good state → good (update state)) :
    Succeeds good (modify update : Throwing σ ε PUnit) :=
  fun state holds => ⟨_, _, rfl, kept state holds⟩

theorem bind {program : Throwing σ ε α} {next : α → Throwing σ ε β}
    (first : Succeeds good program) (rest : ∀ value, Succeeds good (next value)) :
    Succeeds good (program >>= next) := by
  intro state holds
  obtain ⟨value, middle, returned, kept⟩ := first state holds
  obtain ⟨result, after, finished, done⟩ := rest value middle kept
  exact ⟨result, after, (exec_bind_ok returned next).trans finished, done⟩

theorem forM {body : α → Throwing σ ε PUnit} (items : List α)
    (each : ∀ item ∈ items, Succeeds good (body item)) : Succeeds good (items.forM body) := by
  induction items with
  | nil => exact pure _
  | cons item rest ih =>
    exact bind (each item (by simp)) fun _ =>
      ih fun other member => each other (List.mem_cons_of_mem _ member)

theorem read_bind {program : Throwing σ ε α} {view : σ → α} (reads : ∀ state, exec program state = (.ok (view state), state))
    {next : α → Throwing σ ε β} (rest : ∀ value, Succeeds good (next value)) : Succeeds good (program >>= next) := by
  intro state holds
  rw [exec_bind_ok (reads state)]
  exact rest (view state) state holds

end Succeeds

/-- From a good state the program throws a certain error and ends in a good state. -/
def Fails (good : σ → Prop) (error : ε) (program : Throwing σ ε α) : Prop :=
  ∀ state, good state → ∃ after, exec program state = (.error error, after) ∧ good after

namespace Fails
variable {good : σ → Prop} {error : ε}

theorem throw : Fails good error (throw error : Throwing σ ε α) :=
  fun state holds => ⟨state, rfl, holds⟩

theorem bind {program : Throwing σ ε α} (fails : Fails good error program) (next : α → Throwing σ ε β) :
    Fails good error (program >>= next) := by
  intro state holds
  obtain ⟨after, threw, kept⟩ := fails state holds
  exact ⟨after, exec_bind_error threw next, kept⟩

theorem after {program : Throwing σ ε α} {next : α → Throwing σ ε β} (first : Succeeds good program)
    (rest : ∀ value, Fails good error (next value)) : Fails good error (program >>= next) := by
  intro state holds
  obtain ⟨value, middle, returned, kept⟩ := first state holds
  obtain ⟨last, threw, done⟩ := rest value middle kept
  exact ⟨last, (exec_bind_ok returned next).trans threw, done⟩

end Fails

end Library.Effect
