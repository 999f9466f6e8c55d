import DmOpenarm.Library.Effect
import Mathlib.Data.List.Flatten

/-! Programs that write to a log. One that returns has written all that it set out to write, and
one that throws has written a beginning of it. -/

namespace Library.Output
open Library.Effect
variable {σ ε α β τ : Type} {out : σ → List τ} {good late : σ → Prop}

/-- What a run from a state has written of a plan. -/
def Written (out : σ → List τ) (start : σ) (outcome : Except ε α × σ) (plan : List τ) : Prop :=
  ∃ items, out outcome.2 = out start ++ items ∧ items <+: plan ∧ ∀ value, outcome.1 = .ok value → items = plan

namespace Written

theorem unchanged {start : σ} {outcome : Except ε α × σ} (same : out outcome.2 = out start) :
    Written out start outcome [] :=
  ⟨[], by rw [same, List.append_nil], List.nil_prefix, fun _ _ => rfl⟩

theorem returned {start after : σ} {value : α} {plan : List τ}
    (written : Written out start ((.ok value, after) : Except ε α × σ) plan) : out after = out start ++ plan := by
  obtain ⟨items, grown, _, whole⟩ := written
  rw [grown, whole value rfl]

/-- A first part that returns, and what is written after it. -/
theorem append {start middle : σ} {first : List τ} {outcome : Except ε β × σ} {rest : List τ}
    (begun : out middle = out start ++ first) (written : Written out middle outcome rest) :
    Written out start outcome (first ++ rest) := by
  obtain ⟨items, grown, early, whole⟩ := written
  refine ⟨first ++ items, ?_, List.prefix_append_right_inj first |>.mpr early, ?_⟩
  · rw [grown, begun, List.append_assoc]
  · intro value same
    rw [whole value same]

/-- A first part that throws. -/
theorem threw {start after : σ} {error : ε} {plan : List τ}
    (written : Written out start ((.error error, after) : Except ε α × σ) plan) (rest : List τ) :
    Written out start ((.error error, after) : Except ε β × σ) (plan ++ rest) := by
  obtain ⟨items, grown, early, _⟩ := written
  refine ⟨items, grown, early.trans (List.prefix_append plan rest), ?_⟩
  intro value same
  cases same

/-- Of what has been written a part can be chosen. -/
theorem filter {start : σ} {outcome : Except ε α × σ} {plan : List τ} (written : Written out start outcome plan)
    (chosen : τ → Bool) : Written (fun state => (out state).filter chosen) start outcome (plan.filter chosen) := by
  obtain ⟨items, grown, early, whole⟩ := written
  refine ⟨items.filter chosen, ?_, early.filter chosen, ?_⟩
  · dsimp only
    rw [grown, List.filter_append]
  · intro value returned
    rw [whole value returned]

end Written

/-- From every good state the program ends in a good state. If it ends with something that shows only
late, that held from the start, and the program has written the plan, or a beginning of it. -/
def Outputs (out : σ → List τ) (good late : σ → Prop) (program : Throwing σ ε α) (plan : List τ) : Prop :=
  ∀ state, good state → good (exec program state).2 ∧
    (late (exec program state).2 → late state ∧ Written out state (exec program state) plan)

/-- No restriction on how a run ends. -/
abbrev Anyhow : σ → Prop := fun _ => True

namespace Outputs

theorem pure (value : α) : Outputs out good late (pure value : Throwing σ ε α) [] :=
  fun _ holds => ⟨holds, fun shows => ⟨shows, .unchanged rfl⟩⟩

theorem throw (error : ε) : Outputs out good late (throw error : Throwing σ ε α) [] :=
  fun _ holds => ⟨holds, fun shows => ⟨shows, .unchanged rfl⟩⟩

theorem get_bind {next : σ → Throwing σ ε β} {plan : List τ} (rest : ∀ state, Outputs out good late (next state) plan) :
    Outputs out good late (get >>= next) plan :=
  fun state holds => rest state state holds

/-- A program that only reads the state, and then one that depends on what was read. -/
theorem read_bind {program : Throwing σ ε α} {view : σ → α} (reads : ∀ state, exec program state = (.ok (view state), state))
    {next : α → Throwing σ ε β} {plan : List τ} (rest : ∀ state, good state → Outputs out good late (next (view state)) plan) :
    Outputs out good late (program >>= next) plan := by
  intro state holds
  rw [exec_bind_ok (reads state)]
  exact rest state holds state holds

theorem bind {program : Throwing σ ε α} {next : α → Throwing σ ε β} {plan rest : List τ}
    (first : Outputs out good late program plan) (later : ∀ value, Outputs out good late (next value) rest) :
    Outputs out good late (program >>= next) (plan ++ rest) := by
  intro state holds
  obtain ⟨kept, writes⟩ := first state holds
  rcases outcome : exec program state with ⟨error | value, middle⟩
  · rw [outcome] at kept writes
    rw [exec_bind_error outcome]
    refine ⟨kept, fun shows => ?_⟩
    obtain ⟨before, written⟩ := writes shows
    exact ⟨before, written.threw rest⟩
  · rw [outcome] at kept writes
    rw [exec_bind_ok outcome]
    obtain ⟨done, finishes⟩ := later value middle kept
    refine ⟨done, fun shows => ?_⟩
    obtain ⟨between, others⟩ := finishes shows
    obtain ⟨before, written⟩ := writes between
    exact ⟨before, .append written.returned others⟩

/-- The same where the first part writes nothing. -/
theorem silent_bind {program : Throwing σ ε α} {next : α → Throwing σ ε β} {rest : List τ}
    (first : Outputs out good late program []) (later : ∀ value, Outputs out good late (next value) rest) :
    Outputs out good late (program >>= next) rest :=
  first.bind later

theorem forM {body : α → Throwing σ ε PUnit} {plan : α → List τ} (items : List α)
    (each : ∀ item ∈ items, Outputs out good late (body item) (plan item)) :
    Outputs out good late (items.forM body) (items.flatMap plan) := by
  induction items with
  | nil => exact pure _
  | cons item rest ih =>
    rw [List.flatMap_cons]
    exact (each item List.mem_cons_self).bind fun _ =>
      ih fun other member => each other (List.mem_cons_of_mem _ member)

end Outputs

end Library.Output
