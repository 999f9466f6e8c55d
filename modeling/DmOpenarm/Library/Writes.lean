import Mathlib.Data.List.Nodup

/-! A table written at several positions, one after the other, and a table that is written
through keys, each of which names one position or none. -/

namespace Library.Writes
variable {κ α : Type}

def writeAll (table : List α) (writes : List (Nat × α)) : List α :=
  writes.foldl (fun table write => table.set write.1 write.2) table

theorem writeAll_cons (table : List α) (write : Nat × α) (rest : List (Nat × α)) :
    writeAll table (write :: rest) = writeAll (table.set write.1 write.2) rest := rfl

theorem writeAll_append (table : List α) (first second : List (Nat × α)) :
    writeAll table (first ++ second) = writeAll (writeAll table first) second :=
  List.foldl_append

/-- A position that is not written keeps its value. -/
theorem writeAll_other {writes : List (Nat × α)} {position : Nat} (other : position ∉ writes.map Prod.fst)
    (table : List α) : (writeAll table writes)[position]? = table[position]? := by
  induction writes generalizing table with
  | nil => rfl
  | cons write rest ih =>
    rw [List.map_cons, List.mem_cons, not_or] at other
    rw [writeAll_cons, ih other.2, List.getElem?_set_ne (Ne.symm other.1)]

theorem writeAll_set {writes : List (Nat × α)} {position : Nat} (other : position ∉ writes.map Prod.fst) (value : α)
    (table : List α) : writeAll (table.set position value) writes = (writeAll table writes).set position value := by
  induction writes generalizing table with
  | nil => rfl
  | cons write rest ih =>
    rw [List.map_cons, List.mem_cons, not_or] at other
    rw [writeAll_cons, writeAll_cons, List.set_comm _ _ other.1, ih other.2]

/-- Writes to different positions can be made in either order. -/
theorem writeAll_comm {first second : List (Nat × α)} (apart : ∀ write ∈ first, write.1 ∉ second.map Prod.fst)
    (table : List α) : writeAll table (first ++ second) = writeAll table (second ++ first) := by
  induction first generalizing table with
  | nil => rw [List.nil_append, List.append_nil]
  | cons write rest ih =>
    have later := ih fun other member => apart other (List.mem_cons_of_mem _ member)
    rw [List.cons_append, writeAll_cons, later, writeAll_append, writeAll_append, writeAll_cons,
      writeAll_set (apart write List.mem_cons_self)]

/-- A position that is written once holds what was written. -/
theorem writeAll_written {writes : List (Nat × α)} (distinct : (writes.map Prod.fst).Nodup) {write : Nat × α}
    (member : write ∈ writes) {table : List α} (inside : write.1 < table.length) :
    (writeAll table writes)[write.1]? = some write.2 := by
  induction writes generalizing table with
  | nil => cases member
  | cons first rest ih =>
    rw [List.map_cons, List.nodup_cons] at distinct
    rw [writeAll_cons]
    rcases List.mem_cons.mp member with same | later
    · subst same
      rw [writeAll_other distinct.1, List.getElem?_set_self inside]
    · apply ih distinct.2 later
      rw [List.length_set]
      exact inside

/-- Writes that repeat what the table holds are the ones that leave it alone. -/
theorem writeAll_eq_self_iff {writes : List (Nat × α)} (distinct : (writes.map Prod.fst).Nodup) {table : List α}
    (inside : ∀ write ∈ writes, write.1 < table.length) :
    writeAll table writes = table ↔ ∀ write ∈ writes, table[write.1]? = some write.2 := by
  constructor
  · intro same write member
    have written := writeAll_written distinct member (inside write member)
    rwa [same] at written
  · intro repeated
    clear distinct
    induction writes with
    | nil => rfl
    | cons write rest ih =>
      obtain ⟨bound, here⟩ := List.getElem?_eq_some_iff.mp (repeated write List.mem_cons_self)
      rw [writeAll_cons, ← here, List.set_getElem_self]
      apply ih
      · exact fun other later => inside other (List.mem_cons_of_mem _ later)
      · exact fun other later => repeated other (List.mem_cons_of_mem _ later)

section Keys
variable (position : κ → Option Nat)

/-- The positions that the keys name, with their values. -/
def located (items : List (κ × α)) : List (Nat × α) :=
  items.filterMap fun item => (position item.1).map fun index => (index, item.2)

/-- The table holds the value at the position that the key names. -/
def Holds (table : List α) (item : κ × α) : Prop :=
  ∃ index, position item.1 = some index ∧ table[index]? = some item.2

variable {position}

theorem located_cons_some {item : κ × α} {index : Nat} (found : position item.1 = some index) (rest : List (κ × α)) :
    located position (item :: rest) = (index, item.2) :: located position rest := by
  rw [located, List.filterMap_cons, found]
  rfl

theorem located_cons_none {item : κ × α} (absent : position item.1 = none) (rest : List (κ × α)) :
    located position (item :: rest) = located position rest := by
  rw [located, List.filterMap_cons, absent]
  rfl

theorem located_append (first second : List (κ × α)) :
    located position (first ++ second) = located position first ++ located position second :=
  List.filterMap_append

theorem mem_located {items : List (κ × α)} {write : Nat × α} :
    write ∈ located position items ↔ ∃ item ∈ items, position item.1 = some write.1 ∧ item.2 = write.2 := by
  simp [located, Prod.ext_iff]

theorem distinct_located (apart : ∀ {key other index}, position key = some index → position other = some index → key = other)
    {items : List (κ × α)} (distinct : (items.map Prod.fst).Nodup) :
    ((located position items).map Prod.fst).Nodup := by
  induction items with
  | nil => exact List.nodup_nil
  | cons item rest ih =>
    rw [List.map_cons, List.nodup_cons] at distinct
    cases found : position item.1 with
    | none =>
      rw [located_cons_none found]
      exact ih distinct.2
    | some index =>
      rw [located_cons_some found, List.map_cons, List.nodup_cons]
      refine ⟨?_, ih distinct.2⟩
      intro member
      obtain ⟨write, among, same⟩ := List.mem_map.mp member
      obtain ⟨other, inside, there, _⟩ := mem_located.mp among
      have equal : item.1 = other.1 := apart (found.trans (congrArg some same.symm)) there
      exact distinct.1 (equal ▸ List.mem_map_of_mem inside)

theorem located_held_iff {table : List α} {items : List (κ × α)} (found : ∀ item ∈ items, (position item.1).isSome) :
    (∀ write ∈ located position items, table[write.1]? = some write.2) ↔ ∀ item ∈ items, Holds position table item := by
  constructor
  · intro held item member
    obtain ⟨index, place⟩ := Option.isSome_iff_exists.mp (found item member)
    exact ⟨index, place, held (index, item.2) (mem_located.mpr ⟨item, member, place, rfl⟩)⟩
  · intro held write member
    obtain ⟨item, among, place, same⟩ := mem_located.mp member
    obtain ⟨index, there, holds⟩ := held item among
    rw [place] at there
    cases there
    rw [holds, same]

end Keys

end Library.Writes
