import Mathlib.Data.List.Nodup

/-! A finite map filled by insertions that never overwrite: the first value bound to a key
stays. Lookup in a map built from a list is therefore lookup of the first match in the list. -/

namespace Library.FirstWins
variable {κ α : Type} [DecidableEq κ]

theorem lookup_eq_none_iff (bindings : List (κ × α)) (key : κ) :
    bindings.lookup key = none ↔ key ∉ bindings.map Prod.fst := by
  induction bindings with
  | nil => simp
  | cons binding rest ih =>
    rcases binding with ⟨other, value⟩
    by_cases same : key = other
    · simp [same]
    · have different : (key == other) = false := by simpa using same
      simp [List.lookup_cons, different, same, ih]

theorem mem_of_lookup {bindings : List (κ × α)} {key : κ} {value : α}
    (found : bindings.lookup key = some value) : (key, value) ∈ bindings := by
  induction bindings with
  | nil => simp at found
  | cons binding rest ih =>
    rcases binding with ⟨other, bound⟩
    by_cases same : key = other
    · subst other
      simp only [List.lookup_cons, beq_self_eq_true, Option.some.injEq] at found
      simp [found]
    · have different : (key == other) = false := by simpa using same
      simp only [List.lookup_cons, different] at found
      exact List.mem_cons_of_mem _ (ih found)

theorem lookup_of_mem {bindings : List (κ × α)} (distinct : (bindings.map Prod.fst).Nodup)
    {key : κ} {value : α} (member : (key, value) ∈ bindings) :
    bindings.lookup key = some value := by
  induction bindings with
  | nil => simp at member
  | cons binding rest ih =>
    rcases binding with ⟨other, bound⟩
    simp only [List.map_cons, List.nodup_cons] at distinct
    rcases List.mem_cons.mp member with same | later
    · cases same
      simp
    · have different : (key == other) = false := by
        have apart : key ≠ other := fun same =>
          distinct.1 (same ▸ List.mem_map_of_mem (f := Prod.fst) later)
        simpa using apart
      simp only [List.lookup_cons, different]
      exact ih distinct.2 later

/-- Bindings in order of insertion, at most one for each key. -/
structure FirstMap (κ α : Type) where
  entries : List (κ × α)
  distinct : (entries.map Prod.fst).Nodup

namespace FirstMap

def empty : FirstMap κ α := ⟨[], by simp⟩

def find? (map : FirstMap κ α) (key : κ) : Option α := map.entries.lookup key

def insert (map : FirstMap κ α) (key : κ) (value : α) : FirstMap κ α :=
  if fresh : map.find? key = none then
    ⟨map.entries ++ [(key, value)], by
      have absent := (lookup_eq_none_iff map.entries key).mp fresh
      rw [List.map_append, List.nodup_append]
      refine ⟨map.distinct, by simp, ?_⟩
      intro other member added last same
      rw [List.map_singleton, List.mem_singleton] at last
      have here : other = key := same.trans last
      exact absent (here ▸ member)⟩
  else map

theorem find?_insert (map : FirstMap κ α) (key : κ) (value : α) (other : κ) :
    (map.insert key value).find? other =
      (map.find? other).or (if other = key then some value else none) := by
  by_cases fresh : map.find? key = none
  · have grown : (map.insert key value).find? other =
        (map.entries ++ [(key, value)]).lookup other := by
      unfold insert
      rw [dif_pos fresh]
      rfl
    rw [grown, List.lookup_append]
    by_cases same : other = key
    · simp [find?, same]
    · have different : (other == key) = false := by simpa using same
      simp [find?, List.lookup_cons, different, same]
  · have kept : map.insert key value = map := by
      unfold insert
      rw [dif_neg fresh]
    rw [kept]
    by_cases same : other = key
    · subst same
      obtain ⟨bound, found⟩ := Option.ne_none_iff_exists'.mp fresh
      simp [found]
    · simp [same]

theorem mem_entries_iff (map : FirstMap κ α) (key : κ) (value : α) :
    (key, value) ∈ map.entries ↔ map.find? key = some value :=
  ⟨lookup_of_mem map.distinct, mem_of_lookup⟩

end FirstMap
end Library.FirstWins
