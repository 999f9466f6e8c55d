import Mathlib.Data.List.Induction

/-! The latest value that a history gives, where each event may give one. -/

namespace Library.Latest
variable {ε α : Type}

/-- The value given by the last event, oldest first, that gives one. -/
def latest (gives : ε → Option α) (history : List ε) : Option α := history.reverse.findSome? gives

theorem latest_append (gives : ε → Option α) (history : List ε) (event : ε) :
    latest gives (history ++ [event]) = (gives event).or (latest gives history) := by
  unfold latest
  rw [List.reverse_append, List.reverse_singleton, List.singleton_append, List.findSome?_cons]
  cases gives event with
  | none => rfl
  | some value => rfl

theorem latest_append_list (gives : ε → Option α) (earlier later : List ε) :
    latest gives (earlier ++ later) = (latest gives later).or (latest gives earlier) := by
  unfold latest
  rw [List.reverse_append, List.findSome?_append]

theorem latest_map {β : Type} (gives : ε → Option α) (view : α → β) (history : List ε) :
    latest (fun event => (gives event).map view) history = (latest gives history).map view := by
  induction history using List.reverseRecOn with
  | nil => rfl
  | append_singleton history event ih =>
    rw [latest_append, latest_append, ih]
    cases gives event with
    | none => rfl
    | some value => rfl

/-- A value that each event replaces or keeps is the latest one given, or the first value. -/
theorem foldl_eq_latest (gives : ε → Option α) (history : List ε) (first : α) :
    history.foldl (fun value event => (gives event).getD value) first = (latest gives history).getD first := by
  induction history using List.reverseRecOn with
  | nil => rfl
  | append_singleton history event ih =>
    rw [List.foldl_append, ih, latest_append]
    change (gives event).getD _ = _
    cases gives event with
    | none => rfl
    | some value => rfl

theorem latest_eq_some {gives : ε → Option α} {history : List ε} {value : α}
    (found : latest gives history = some value) :
    ∃ before event after, history = before ++ event :: after ∧ gives event = some value ∧
      ∀ later ∈ after, gives later = none := by
  induction history using List.reverseRecOn with
  | nil => cases found
  | append_singleton history event ih =>
    rw [latest_append] at found
    cases given : gives event with
    | some other =>
      rw [given] at found
      exact ⟨history, event, [], rfl, given.trans found, by simp⟩
    | none =>
      rw [given] at found
      obtain ⟨before, chosen, after, same, gave, silent⟩ := ih found
      refine ⟨before, chosen, after ++ [event], by rw [same]; simp, gave, ?_⟩
      intro later member
      rcases List.mem_append.mp member with old | new
      · exact silent later old
      · rw [List.mem_singleton] at new
        exact new ▸ given

end Library.Latest
