import Mathlib.Data.List.Basic

/-! A text cut into segments that each end in a mark, and the part after the last mark. The cut is
unique, and cutting what is left together with more text continues it. -/

namespace Library.Segments
variable {α : Type} {mark : α} {text more rest last : List α} {segments later : List (List α)}

structure Segmented (mark : α) (text : List α) (segments : List (List α)) (rest : List α) : Prop where
  joined : text = (segments.map (· ++ [mark])).flatten ++ rest
  whole : ∀ segment ∈ segments, mark ∉ segment
  open_end : mark ∉ rest

/-- The place of the first mark cuts the text there. -/
theorem cut_at [DecidableEq α] {place : Nat} (found : text.idxOf? mark = some place) :
    text = text.take place ++ mark :: text.drop (place + 1) ∧ mark ∉ text.take place := by
  obtain ⟨inside, here, before⟩ := List.idxOf?_eq_some_iff.mp found
  constructor
  · calc text = text.take place ++ text.drop place := (List.take_append_drop place text).symm
      _ = text.take place ++ mark :: text.drop (place + 1) := by rw [List.drop_eq_getElem_cons inside, here]
  · intro member
    obtain ⟨earlier, bound, same⟩ := List.mem_take_iff_getElem.mp member
    exact before earlier (by omega) same

/-- What stands before the first mark is determined by the text. -/
theorem first_segment_unique {segment other : List α} (absent : mark ∉ segment) (free : mark ∉ other)
    (same : segment ++ mark :: rest = other ++ mark :: last) : segment = other ∧ rest = last := by
  induction segment generalizing other with
  | nil =>
    cases other with
    | nil => exact ⟨rfl, (List.cons.inj same).2⟩
    | cons c other => exact absurd ((List.cons.inj same).1 ▸ List.mem_cons_self) free
  | cons c segment ih =>
    cases other with
    | nil => exact absurd ((List.cons.inj same).1 ▸ List.mem_cons_self) absent
    | cons d other =>
      obtain ⟨head, tails⟩ := List.cons.inj same
      obtain ⟨segments, rests⟩ := ih (fun inside => absent (List.mem_cons_of_mem _ inside))
        (fun inside => free (List.mem_cons_of_mem _ inside)) tails
      exact ⟨by rw [head, segments], rests⟩

theorem segmented_of_not_mem (absent : mark ∉ text) : Segmented mark text [] text := by
  refine ⟨rfl, ?_, absent⟩
  intro segment member
  cases member

theorem segmented_cons {segment : List α} (absent : mark ∉ segment) (remaining : Segmented mark text segments rest) :
    Segmented mark (segment ++ mark :: text) (segment :: segments) rest := by
  refine ⟨?_, ?_, remaining.open_end⟩
  · rw [remaining.joined]
    simp
  · intro other member
    rcases List.mem_cons.mp member with rfl | inside
    · exact absent
    · exact remaining.whole other inside

namespace Segmented

theorem append (first : Segmented mark text segments rest) (second : Segmented mark (rest ++ more) later last) :
    Segmented mark (text ++ more) (segments ++ later) last := by
  refine ⟨?_, ?_, second.open_end⟩
  · have continued : rest ++ more = (later.map (· ++ [mark])).flatten ++ last := second.joined
    calc text ++ more = (segments.map (· ++ [mark])).flatten ++ (rest ++ more) := by
          rw [first.joined, List.append_assoc]
      _ = ((segments ++ later).map (· ++ [mark])).flatten ++ last := by
          rw [continued, List.map_append, List.flatten_append, List.append_assoc]
  · intro segment member
    rcases List.mem_append.mp member with before | after
    · exact first.whole segment before
    · exact second.whole segment after

theorem unique (one : Segmented mark text segments rest) (other : Segmented mark text later last) :
    segments = later ∧ rest = last := by
  induction segments generalizing text later with
  | nil =>
    have ends : text = rest := one.joined
    cases later with
    | nil => exact ⟨rfl, ends.symm.trans other.joined⟩
    | cons first later =>
      have inside : mark ∈ text := by
        rw [other.joined]
        simp
      exact absurd (ends ▸ inside) one.open_end
  | cons segment segments ih =>
    have ends : text = segment ++ mark :: ((segments.map (· ++ [mark])).flatten ++ rest) := by
      rw [one.joined]
      simp
    cases later with
    | nil =>
      have inside : mark ∈ text := by
        rw [ends]
        simp
      have whole : text = last := other.joined
      exact absurd (whole ▸ inside) other.open_end
    | cons first later =>
      have also : text = first ++ mark :: ((later.map (· ++ [mark])).flatten ++ last) := by
        rw [other.joined]
        simp
      obtain ⟨same, remaining⟩ := first_segment_unique (one.whole segment List.mem_cons_self)
        (other.whole first List.mem_cons_self) (ends.symm.trans also)
      obtain ⟨rfl, rfl⟩ := ih ⟨rfl, fun segment member => one.whole segment (List.mem_cons_of_mem _ member),
        one.open_end⟩ ⟨remaining, fun segment member => other.whole segment (List.mem_cons_of_mem _ member),
        other.open_end⟩
      exact ⟨by rw [same], rfl⟩

end Segmented
end Library.Segments
