import DmOpenarm.Library.Runs

/-! Work that is under way in a transition system. Some steps are its own, the rest are those of others. -/

namespace Library.Progress
open Runs
variable {σ α : Type}

/-- What may follow from a state until the work is over, with the number of its own steps so far. -/
inductive During (machine : Machine σ α) (ended : σ → Prop) (own : σ → α → Prop) (start : σ) : Nat → σ → Prop where
  | begin : During machine ended own start 0 start
  | other {number : Nat} {state after : σ} {action : α} (before : During machine ended own start number state)
      (going : ¬ended state) (foreign : ¬own state action) (moved : machine.step state action = some after) :
      During machine ended own start number after
  | own {number : Nat} {state after : σ} {action : α} (before : During machine ended own start number state)
      (going : ¬ended state) (mine : own state action) (moved : machine.step state action = some after) :
      During machine ended own start (number + 1) after

/-- A bound on the own steps that are left: others never raise it, each own step lowers it, and until the
work is over one of them can be taken. -/
structure Bounded (machine : Machine σ α) (inv ended : σ → Prop) (own : σ → α → Prop) (left : σ → Nat) : Prop where
  kept : ∀ state action after, machine.step state action = some after → inv state → inv after
  positive : ∀ state, inv state → ¬ended state → 0 < left state
  foreign : ∀ state action after, inv state → ¬ended state → ¬own state action →
    machine.step state action = some after → ended after ∨ left after ≤ left state
  lowered : ∀ state action after, inv state → ¬ended state → own state action →
    machine.step state action = some after → ended after ∨ left after < left state
  enabled : ∀ state, inv state → ¬ended state → ∃ action after, own state action ∧ machine.step state action = some after

variable {machine : Machine σ α} {inv ended : σ → Prop} {own : σ → α → Prop} {left : σ → Nat} {start state : σ}
variable {number : Nat}

theorem During.held (bounded : Bounded machine inv ended own left) (begins : inv start)
    (during : During machine ended own start number state) : inv state := by
  induction during with
  | begin => exact begins
  | other _ _ _ moved ih => exact bounded.kept _ _ _ moved ih
  | own _ _ _ moved ih => exact bounded.kept _ _ _ moved ih

/-- What has been done and what is left never exceed what was left at the start. -/
theorem During.spent (bounded : Bounded machine inv ended own left) (begins : inv start)
    (during : During machine ended own start number state) :
    number ≤ left start ∧ (ended state ∨ number + left state ≤ left start) := by
  induction during with
  | begin => exact ⟨Nat.zero_le _, .inr (by omega)⟩
  | @other number state after action before going foreign moved ih =>
    have sum := ih.2.resolve_left going
    refine ⟨ih.1, ?_⟩
    rcases bounded.foreign state action after (before.held bounded begins) going foreign moved with done | fewer
    · exact .inl done
    · exact .inr (by omega)
  | @own number state after action before going mine moved ih =>
    have sum := ih.2.resolve_left going
    have held := before.held bounded begins
    have positive := bounded.positive state held going
    refine ⟨by omega, ?_⟩
    rcases bounded.lowered state action after held going mine moved with done | fewer
    · exact .inl done
    · exact .inr (by omega)

/-- The work takes a bounded number of steps of its own, and is never stuck before it is over. -/
theorem During.completes (bounded : Bounded machine inv ended own left) (begins : inv start)
    (during : During machine ended own start number state) :
    number ≤ left start ∧
      (¬ended state → ∃ action after, own state action ∧ machine.step state action = some after) :=
  ⟨(during.spent bounded begins).1, bounded.enabled state (during.held bounded begins)⟩

end Library.Progress
