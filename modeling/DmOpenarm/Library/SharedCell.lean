import DmOpenarm.Library.Runs
import Mathlib.Data.List.Basic

/-! A cell that clients update one at a time and a reader copies, both atomically. Every copy is
the value after a prefix of the updates, and the prefixes grow along the history. -/

namespace Library.SharedCell
open Library.Runs
variable {υ α : Type}

/-- What happens to the cell. A completed update names its place in the order of the commits. -/
inductive Event (υ α : Type) where
  | commit (update : υ)
  | complete (update : υ) (serial : Nat)
  | read (value : α)

/-- The updates of a history that is kept newest first, oldest first. -/
def commits : List (Event υ α) → List υ
  | [] => []
  | .commit update :: earlier => commits earlier ++ [update]
  | _ :: earlier => commits earlier

def reads : List (Event υ α) → List α
  | [] => []
  | .read value :: earlier => reads earlier ++ [value]
  | _ :: earlier => reads earlier

/-- How many updates came before the read of a given number. -/
def cut : List (Event υ α) → Nat → Nat
  | [], _ => 0
  | .read _ :: earlier, index => if index = (reads earlier).length then (commits earlier).length else cut earlier index
  | _ :: earlier, index => cut earlier index

/-- A read gives the value at that moment, and an update completes after its commit. -/
def Legal (apply : α → υ → α) (initial : α) (event : Event υ α) (earlier : List (Event υ α)) : Prop :=
  match event with
  | .commit _ => True
  | .complete update serial => (commits earlier)[serial]? = some update
  | .read value => value = (commits earlier).foldl apply initial

def Atomic (apply : α → υ → α) (initial : α) (history : List (Event υ α)) : Prop :=
  Throughout (Legal apply initial) history

theorem commits_grow (later earlier : List (Event υ α)) : commits earlier <+: commits (later ++ earlier) := by
  induction later with
  | nil => exact List.prefix_refl _
  | cons event rest ih =>
    cases event with
    | commit update => exact ih.trans (List.prefix_append _ _)
    | complete update serial => exact ih
    | read value => exact ih

theorem cut_le_commits (history : List (Event υ α)) (index : Nat) : cut history index ≤ (commits history).length := by
  induction history with
  | nil => exact Nat.le_refl 0
  | cons event earlier ih =>
    cases event with
    | commit update =>
      have grown : (commits earlier ++ [update]).length = (commits earlier).length + 1 := by simp
      change cut earlier index ≤ (commits earlier ++ [update]).length
      omega
    | complete update serial => exact ih
    | read value =>
      change (if index = (reads earlier).length then (commits earlier).length else cut earlier index) ≤ _
      by_cases last : index = (reads earlier).length
      · rw [if_pos last]
        exact Nat.le_refl _
      · rw [if_neg last]
        exact ih

theorem take_commits (event : Event υ α) (earlier : List (Event υ α)) {count : Nat}
    (within : count ≤ (commits earlier).length) :
    (commits (event :: earlier)).take count = (commits earlier).take count := by
  cases event with
  | commit update => exact List.take_append_of_le_length within
  | complete update serial => rfl
  | read value => rfl

/-- The prefixes that successive reads see never go backwards. -/
theorem cut_mono {history : List (Event υ α)} {first second : Nat} (ordered : first ≤ second)
    (made : second < (reads history).length) : cut history first ≤ cut history second := by
  induction history with
  | nil => exact absurd made (Nat.not_lt_zero second)
  | cons event earlier ih =>
    cases event with
    | commit update => exact ih made
    | complete update serial => exact ih made
    | read value =>
      have grown : (reads (.read value :: earlier)).length = (reads earlier).length + 1 := by simp [reads]
      by_cases last : second = (reads earlier).length
      · have whole : cut (.read value :: earlier) second = (commits earlier).length := if_pos last
        rw [whole]
        exact cut_le_commits (.read value :: earlier) first
      · have secondOld : cut (.read value :: earlier) second = cut earlier second := if_neg last
        have firstOld : cut (.read value :: earlier) first = cut earlier first := if_neg (by omega)
        rw [secondOld, firstOld]
        exact ih (by omega)

/-- Each read gives the value after the updates of its prefix. -/
theorem read_eq {apply : α → υ → α} {initial : α} {history : List (Event υ α)}
    (atomic : Atomic apply initial history) {index : Nat} {value : α}
    (read : (reads history)[index]? = some value) :
    value = ((commits history).take (cut history index)).foldl apply initial := by
  induction history with
  | nil => cases read
  | cons event earlier ih =>
    obtain ⟨legal, before⟩ := atomic
    cases event with
    | commit update =>
      rw [show cut (.commit update :: earlier) index = cut earlier index from rfl,
        take_commits _ _ (cut_le_commits earlier index)]
      exact ih before read
    | complete update serial => exact ih before read
    | read seen =>
      by_cases last : index = (reads earlier).length
      · have whole : cut (.read seen :: earlier) index = (commits earlier).length := if_pos last
        rw [last] at read
        have same : seen = value := by simpa [reads] using read
        rw [whole, take_commits _ _ (Nat.le_refl _), List.take_length, ← same]
        exact legal
      · have old : cut (.read seen :: earlier) index = cut earlier index := if_neg last
        have inside : index < (reads earlier).length := by
          have bound := (List.getElem?_eq_some_iff.mp read).1
          simp only [reads, List.length_append, List.length_singleton] at bound
          omega
        have readOld : (reads earlier)[index]? = some value := by
          rw [← read]
          exact (List.getElem?_append_left inside).symm
        rw [old, take_commits _ _ (cut_le_commits earlier index)]
        exact ih before readOld

theorem reads_grow (later earlier : List (Event υ α)) : (reads earlier).length ≤ (reads (later ++ earlier)).length := by
  induction later with
  | nil => exact Nat.le_refl _
  | cons event rest ih =>
    cases event with
    | commit update => exact ih
    | complete update serial => exact ih
    | read value =>
      simp only [List.cons_append, reads, List.length_append, List.length_singleton]
      omega

theorem cut_of_split (later earlier : List (Event υ α)) (value : α) :
    cut (later ++ .read value :: earlier) (reads earlier).length = (commits earlier).length := by
  induction later with
  | nil => exact if_pos rfl
  | cons event rest ih =>
    cases event with
    | commit update => exact ih
    | complete update serial => exact ih
    | read other =>
      have more := reads_grow rest (.read value :: earlier)
      simp only [reads, List.length_append, List.length_singleton] at more
      have old : cut (.read other :: (rest ++ .read value :: earlier)) (reads earlier).length =
          cut (rest ++ .read value :: earlier) (reads earlier).length := if_neg (by omega)
      exact old.trans ih

/-- An update that completed before a read is in the prefix of that read. -/
theorem completed_before_read {apply : α → υ → α} {initial : α} {later earlier : List (Event υ α)} {value : α}
    (atomic : Atomic apply initial (later ++ .read value :: earlier)) {update : υ} {serial : Nat}
    (completed : .complete update serial ∈ earlier) :
    ((commits (later ++ .read value :: earlier)).take
      (cut (later ++ .read value :: earlier) (reads earlier).length))[serial]? = some update := by
  obtain ⟨between, before, same⟩ := List.append_of_mem completed
  have legal := (throughout_iff _ _).mp atomic (later ++ .read value :: between) (.complete update serial) before
    (by simp [same])
  have inside := (List.getElem?_eq_some_iff.mp (show (commits before)[serial]? = some update from legal)).1
  have shorter : commits before <+: commits earlier := by
    rw [same, show between ++ .complete update serial :: before = (between ++ [.complete update serial]) ++ before by simp]
    exact commits_grow _ _
  have whole : commits earlier <+: commits (later ++ .read value :: earlier) := by
    rw [show later ++ .read value :: earlier = (later ++ [.read value]) ++ earlier by simp]
    exact commits_grow _ _
  rw [cut_of_split, List.prefix_iff_eq_take.mp whole |>.symm]
  obtain ⟨added, grown⟩ := shorter
  rw [← grown, List.getElem?_append_left inside]
  exact legal

end Library.SharedCell
