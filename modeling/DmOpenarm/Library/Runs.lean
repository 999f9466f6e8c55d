import Mathlib.Logic.Function.Basic

/-! Transition systems with a partial step function, the states they reach by allowed steps,
and histories kept newest first. -/

namespace Library.Runs
variable {σ α ε : Type}

structure Machine (σ α : Type) where
  initial : σ → Prop
  step : σ → α → Option σ

/-- States reached from an initial one by steps that are all allowed. -/
inductive Reach (machine : Machine σ α) (allowed : σ → α → Prop) : σ → Prop where
  | start {state : σ} (begins : machine.initial state) : Reach machine allowed state
  | next {state after : σ} {action : α} (before : Reach machine allowed state)
      (permitted : allowed state action) (moved : machine.step state action = some after) :
      Reach machine allowed after

abbrev Anything : σ → α → Prop := fun _ _ => True

namespace Reach
variable {machine : Machine σ α} {allowed : σ → α → Prop}

theorem invariant {inv : σ → Prop} (base : ∀ state, machine.initial state → inv state)
    (kept : ∀ state action after, allowed state action → machine.step state action = some after →
      inv state → inv after) {state : σ} (reached : Reach machine allowed state) : inv state := by
  induction reached with
  | start begins => exact base _ begins
  | next _ permitted moved ih => exact kept _ _ _ permitted moved ih

theorem weaken {wider : σ → α → Prop} (implies : ∀ state action, allowed state action → wider state action)
    {state : σ} (reached : Reach machine allowed state) : Reach machine wider state := by
  induction reached with
  | start begins => exact .start begins
  | next _ permitted moved ih => exact .next ih (implies _ _ permitted) moved

theorem anything {state : σ} (reached : Reach machine allowed state) :
    Reach machine Anything state :=
  reached.weaken fun _ _ _ => trivial

end Reach

/-- The same machine, begun in a given state. -/
def Machine.onward (machine : Machine σ α) (start : σ) : Machine σ α where
  initial state := state = start
  step := machine.step

/-- What a reached state leads on to is reached. -/
theorem Reach.onward {machine : Machine σ α} {allowed later : σ → α → Prop} {start state : σ}
    (reached : Reach machine allowed start) (implies : ∀ state action, later state action → allowed state action)
    (leads : Reach (machine.onward start) later state) : Reach machine allowed state := by
  induction leads with
  | start begins =>
    cases begins
    exact reached
  | next _ permitted moved ih => exact .next ih (implies _ _ permitted) moved

/-- Run a list of actions, giving up at the first one that is not allowed or not enabled. -/
def Machine.run (machine : Machine σ α) (allowed : σ → α → Bool) : List α → σ → Option σ
  | [], state => some state
  | action :: rest, state =>
      if allowed state action then
        match machine.step state action with
        | some after => machine.run allowed rest after
        | none => none
      else none

theorem Machine.reach_run {machine : Machine σ α} {allowed : σ → α → Bool} {actions : List α}
    {state last : σ} (start : Reach machine (fun s a => allowed s a = true) state)
    (ran : machine.run allowed actions state = some last) :
    Reach machine (fun s a => allowed s a = true) last := by
  induction actions generalizing state with
  | nil =>
    simp only [Machine.run, Option.some.injEq] at ran
    exact ran ▸ start
  | cons action rest ih =>
    by_cases permitted : allowed state action = true
    · cases moved : machine.step state action with
      | none => simp [Machine.run, permitted, moved] at ran
      | some after =>
        simp only [Machine.run, permitted, ↓reduceIte, moved] at ran
        exact ih (start.next permitted moved) ran
    · simp [Machine.run, permitted] at ran

/-- A run that was computed ends in a state that can be reached. -/
theorem Machine.reach_checked {machine : Machine σ α} {allowed : σ → α → Bool} {actions : List α} {start : σ}
    {holds : σ → Prop} [DecidablePred holds] (begins : machine.initial start)
    (ran : (machine.run allowed actions start).map (fun state => decide (holds state)) = some true) :
    ∃ state, Reach machine (fun s a => allowed s a = true) state ∧ holds state := by
  obtain ⟨state, run, facts⟩ := Option.map_eq_some_iff.mp ran
  exact ⟨state, reach_run (.start begins) run, of_decide_eq_true facts⟩

/-- A run that was computed, and one step after it. -/
theorem Machine.reach_step_checked {machine : Machine σ α} {allowed : σ → α → Bool} {actions : List α} {start : σ}
    {action : α} {holds : σ → σ → Prop} [∀ state after, Decidable (holds state after)] (begins : machine.initial start)
    (ran : (machine.run allowed actions start).bind (fun state =>
      (machine.step state action).map fun after => decide (holds state after)) = some true) :
    ∃ state after, Reach machine (fun s a => allowed s a = true) state ∧ machine.step state action = some after ∧
      holds state after := by
  obtain ⟨state, run, rest⟩ := Option.bind_eq_some_iff.mp ran
  obtain ⟨after, moved, facts⟩ := Option.map_eq_some_iff.mp rest
  exact ⟨state, after, reach_run (.start begins) run, moved, of_decide_eq_true facts⟩

/-- Every event of a history satisfies a property of itself and what came before it. -/
def Throughout (holds : ε → List ε → Prop) : List ε → Prop
  | [] => True
  | event :: earlier => holds event earlier ∧ Throughout holds earlier

/-- A property of events with a longer past holds throughout a history no longer than that. -/
theorem throughout_of_short (holds : ε → List ε → Prop) {history : List ε} {length : Nat}
    (short : history.length ≤ length) :
    Throughout (fun event earlier => length ≤ earlier.length → holds event earlier) history := by
  induction history with
  | nil => exact trivial
  | cons event earlier ih =>
    rw [List.length_cons] at short
    exact ⟨fun long => by omega, ih (by omega)⟩

theorem Throughout.imp {holds implied : ε → List ε → Prop} {history : List ε} (held : Throughout holds history)
    (implies : ∀ event earlier, holds event earlier → implied event earlier) : Throughout implied history := by
  induction history with
  | nil => exact trivial
  | cons event earlier ih => exact ⟨implies event earlier held.1, ih held.2⟩

theorem Throughout.both {first second holds : ε → List ε → Prop} {history : List ε} (one : Throughout first history)
    (other : Throughout second history)
    (implies : ∀ event earlier, first event earlier → second event earlier → holds event earlier) :
    Throughout holds history := by
  induction history with
  | nil => exact trivial
  | cons event earlier ih => exact ⟨implies event earlier one.1 other.1, ih one.2 other.2⟩

theorem throughout_iff (holds : ε → List ε → Prop) (history : List ε) :
    Throughout holds history ↔
      ∀ later event earlier, history = later ++ event :: earlier → holds event earlier := by
  induction history with
  | nil => simp [Throughout]
  | cons event earlier ih =>
    simp only [Throughout, ih]
    constructor
    · intro given later other rest same
      obtain ⟨now, before⟩ := given
      cases later with
      | nil =>
        simp only [List.nil_append, List.cons.injEq] at same
        exact same.1 ▸ same.2 ▸ now
      | cons first later =>
        simp only [List.cons_append, List.cons.injEq] at same
        exact before later other rest same.2
    · intro each
      exact ⟨each [] event earlier rfl,
        fun later other rest same => each (event :: later) other rest (by simp [same])⟩

end Library.Runs
