import DmOpenarm.ArmMitControl
import DmOpenarm.Library.Segments

/-! The FIFO reader of arm_mit_control with its two loops: read() until it gives nothing, then cut
off one line after another. -/

namespace DmOpenarm.FifoLines
open ArmMitControl Library.Segments

/-- What one read() gives, which has room for 256 bytes. -/
structure Chunk where
  bytes : List Char
  given : bytes ≠ []
  room : bytes.length ≤ 256

@[ext]
structure FifoCommandReader where
  pending : List Char := []

namespace FifoCommandReader

/-- The first loop, which ends when read() has nothing more. -/
def receive (reader : FifoCommandReader) (chunks : List Chunk) : FifoCommandReader :=
  chunks.foldl (fun reader chunk => { pending := reader.pending ++ chunk.bytes }) reader

/-- The second loop: find, substr and erase. -/
def takeLines (reader : FifoCommandReader) : List String × FifoCommandReader :=
  match _found : reader.pending.idxOf? '\n' with
  | none => ([], reader)
  | some newline =>
      let rest := takeLines { pending := reader.pending.drop (newline + 1) }
      (String.ofList (reader.pending.take newline) :: rest.1, rest.2)
termination_by reader.pending.length
decreasing_by
  have inside : newline < reader.pending.length := (List.findIdx?_eq_some_iff_findIdx_eq.mp _found).1
  rw [List.length_drop]
  omega

def readLines (reader : FifoCommandReader) (chunks : List Chunk) : List String × FifoCommandReader :=
  (reader.receive chunks).takeLines

/-- Successive calls, each with the chunks that arrived before it: all lines returned. -/
def readAll (reader : FifoCommandReader) : List (List Chunk) → List String × FifoCommandReader
  | [] => ([], reader)
  | chunks :: calls =>
      let first := reader.readLines chunks
      let rest := readAll first.2 calls
      (first.1 ++ rest.1, rest.2)

theorem strings_eq {first second : List String} (same : first.map String.toList = second.map String.toList) :
    first = second :=
  List.map_injective_iff.mpr (fun _ _ equal => String.toList_injective equal) same

theorem receive_pending (reader : FifoCommandReader) (chunks : List Chunk) :
    (reader.receive chunks).pending = reader.pending ++ chunks.flatMap Chunk.bytes := by
  induction chunks generalizing reader with
  | nil => exact (List.append_nil _).symm
  | cons chunk chunks ih =>
    have received : reader.receive (chunk :: chunks) =
        receive { pending := reader.pending ++ chunk.bytes } chunks := rfl
    rw [received, ih, List.flatMap_cons, List.append_assoc]

theorem takeLines_segmented (reader : FifoCommandReader) :
    Segmented '\n' reader.pending (reader.takeLines.1.map String.toList) reader.takeLines.2.pending := by
  fun_induction takeLines reader with
  | case1 reader absent => exact segmented_of_not_mem (List.idxOf?_eq_none_iff.mp absent)
  | case2 reader newline found rest ih =>
    obtain ⟨cut, free⟩ := cut_at found
    rw [List.map_cons, String.toList_ofList]
    conv => arg 2; rw [cut]
    exact segmented_cons free ih

theorem readLines_segmented (reader : FifoCommandReader) (chunks : List Chunk) :
    Segmented '\n' (reader.pending ++ chunks.flatMap Chunk.bytes) ((reader.readLines chunks).1.map String.toList)
      (reader.readLines chunks).2.pending := by
  rw [← receive_pending]
  exact takeLines_segmented _

theorem splitLines_segmented (text : List Char) : Segmented '\n' text (splitLines text).1 (splitLines text).2 := by
  fun_induction splitLines text with
  | case1 => exact segmented_of_not_mem List.not_mem_nil
  | case2 text rest ih => exact segmented_cons List.not_mem_nil ih
  | case3 c text other pending split ih =>
    rw [split] at ih
    have whole : text = pending := ih.joined
    rw [whole]
    refine segmented_of_not_mem ?_
    intro member
    rcases List.mem_cons.mp member with same | inside
    · exact other same.symm
    · exact ih.open_end inside
  | case4 c text other line lines pending split ih =>
    rw [split] at ih
    refine ⟨?_, ?_, ih.open_end⟩
    · rw [ih.joined]
      simp
    · intro segment member
      rcases List.mem_cons.mp member with rfl | later
      · intro inside
        rcases List.mem_cons.mp inside with same | inside
        · exact other same.symm
        · exact ih.whole line List.mem_cons_self inside
      · exact ih.whole segment (List.mem_cons_of_mem _ later)

/-- The program's reader, cut off in one go, is what the two loops give. -/
theorem readLines_eq (reader : FifoCommandReader) (chunks : List Chunk) :
    ArmMitControl.readLines reader.pending (chunks.map Chunk.bytes) =
      ((reader.readLines chunks).1, (reader.readLines chunks).2.pending) := by
  have atOnce := splitLines_segmented (reader.pending ++ chunks.flatMap Chunk.bytes)
  obtain ⟨lines, pending⟩ := atOnce.unique (readLines_segmented reader chunks)
  rw [ArmMitControl.readLines, ← List.flatMap_def]
  refine Prod.ext ?_ pending
  refine strings_eq ?_
  rw [List.map_map, ← lines]
  simp

/-- The chunks of all calls, one after the other. -/
def stream (calls : List (List Chunk)) : List Char := calls.flatten.flatMap Chunk.bytes

/-- What stays pending after a call is part of what the later calls cut. -/
theorem readAll_segmented {reader : FifoCommandReader} (calls : List (List Chunk))
    (open_end : '\n' ∉ reader.pending) :
    Segmented '\n' (reader.pending ++ stream calls) ((reader.readAll calls).1.map String.toList)
      (reader.readAll calls).2.pending := by
  induction calls generalizing reader with
  | nil =>
    have nothing : reader.pending ++ stream [] = reader.pending := List.append_nil _
    rw [nothing]
    exact segmented_of_not_mem open_end
  | cons chunks calls ih =>
    have first := readLines_segmented reader chunks
    have rest := ih first.open_end
    have whole : reader.pending ++ stream (chunks :: calls) =
        reader.pending ++ chunks.flatMap Chunk.bytes ++ stream calls := by
      rw [stream, stream, List.flatten_cons, List.flatMap_append, List.append_assoc]
    rw [whole, readAll, List.map_append]
    exact first.append rest

/-- The lines returned are the segments of the stream that end in a newline, whatever the chunks
and calls were. -/
theorem lines_assembled (calls : List (List Chunk)) :
    Segmented '\n' (stream calls) ((readAll {} calls).1.map String.toList) (readAll {} calls).2.pending ∧
      ∀ others, stream others = stream calls → readAll {} others = readAll {} calls := by
  have segmented (calls : List (List Chunk)) : Segmented '\n' (stream calls)
      ((readAll {} calls).1.map String.toList) (readAll {} calls).2.pending :=
    @readAll_segmented {} calls List.not_mem_nil
  refine ⟨segmented calls, ?_⟩
  intro others same
  have other := segmented others
  rw [same] at other
  obtain ⟨lines, pending⟩ := other.unique (segmented calls)
  have sameLines : (readAll {} others).1 = (readAll {} calls).1 := strings_eq lines
  have samePending : (readAll {} others).2 = (readAll {} calls).2 := FifoCommandReader.ext pending
  exact Prod.ext sameLines samePending

end FifoCommandReader
end DmOpenarm.FifoLines
