import Mathlib.Data.List.Basic

/-! What is read off a history that is kept newest first. Events that a reading passes over can be left out of
the history, whatever came before them. -/

namespace Library.Readings
variable {ε α : Type}

/-- An event that leaves a reading as it was. -/
def Passes (reading : List ε → α) (event : ε) : Prop := ∀ earlier, reading (event :: earlier) = reading earlier

/-- A history that has only marked events more than another. -/
def Grown (marked : ε → Bool) (earlier later : List ε) : Prop :=
  ∃ events, later = events ++ earlier ∧ ∀ event ∈ events, marked event = true

namespace Grown
variable {marked : ε → Bool} {earlier later : List ε}

theorem refl (history : List ε) : Grown marked history history := ⟨[], rfl, List.forall_mem_nil _⟩

theorem append {events : List ε} (each : ∀ event ∈ events, marked event = true) (history : List ε) :
    Grown marked history (events ++ history) := ⟨events, rfl, each⟩

theorem one {event : ε} (mark : marked event = true) (history : List ε) : Grown marked history (event :: history) :=
  .append (List.forall_mem_singleton.mpr mark) history

theorem cons {event : ε} (mark : marked event = true) (grown : Grown marked earlier later) :
    Grown marked earlier (event :: later) := by
  obtain ⟨events, same, each⟩ := grown
  exact ⟨event :: events, congrArg (List.cons event) same, List.forall_mem_cons.mpr ⟨mark, each⟩⟩

/-- A reading that passes over all marked events is the same before and after them. -/
theorem read (grown : Grown marked earlier later) {reading : List ε → α}
    (passes : ∀ event, marked event = true → Passes reading event) : reading later = reading earlier := by
  obtain ⟨events, rfl, each⟩ := grown
  induction events with
  | nil => rfl
  | cons event rest ih =>
    have passed := passes event (each event List.mem_cons_self)
    exact (passed _).trans (ih fun other member => each other (List.mem_cons_of_mem event member))

end Grown

end Library.Readings
