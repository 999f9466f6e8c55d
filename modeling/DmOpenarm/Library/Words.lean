import Mathlib.Data.List.Basic

/-! A line read as its words: the longest runs of what is not a space. -/

namespace Library.Words
variable {α : Type} {space : α → Bool} {blanks word rest line : List α} {tokens : List (List α)}

def words (space : α → Bool) (line : List α) : List (List α) :=
  (line.splitOnP space).filter fun word => !word.isEmpty

theorem splitOnP_no_space {line word : List α} (member : word ∈ line.splitOnP space) :
    ∀ c ∈ word, space c = false := by
  induction line generalizing word with
  | nil =>
    rw [List.splitOnP_nil, List.mem_singleton] at member
    subst member
    intro c inside
    cases inside
  | cons head rest ih =>
    rw [List.splitOnP_cons_eq_if_modifyHead] at member
    by_cases ends : space head
    · rw [if_pos ends, List.mem_cons] at member
      rcases member with rfl | later
      · intro c inside
        cases inside
      · exact ih later
    · rw [if_neg ends] at member
      rcases pieces : rest.splitOnP space with _ | ⟨first, others⟩
      · exact absurd pieces (List.splitOnP_ne_nil space rest)
      · rw [pieces, List.modifyHead_cons, List.mem_cons] at member
        rw [pieces] at ih
        rcases member with rfl | later
        · intro c inside
          rcases List.mem_cons.mp inside with rfl | inside
          · exact Bool.eq_false_iff.mpr ends
          · exact ih List.mem_cons_self c inside
        · exact ih (List.mem_cons_of_mem first later)

theorem word_no_space {line word : List α} (member : word ∈ words space line) :
    word ≠ [] ∧ ∀ c ∈ word, space c = false := by
  rw [words, List.mem_filter] at member
  refine ⟨?_, splitOnP_no_space member.1⟩
  intro same
  subst same
  cases member.2

/-- A line that shows the words in order, with blanks before, between and after them. -/
inductive Spaced (space : α → Bool) : List (List α) → List α → Prop where
  | blank {blanks : List α} (blank : ∀ c ∈ blanks, space c = true) : Spaced space [] blanks
  | word {blanks word rest : List α} {tokens : List (List α)} (blank : ∀ c ∈ blanks, space c = true)
      (present : word ≠ []) (solid : ∀ c ∈ word, space c = false) (ends : ∀ c ∈ rest.head?, space c = true)
      (later : Spaced space tokens rest) : Spaced space (word :: tokens) (blanks ++ (word ++ rest))

theorem words_blanks (blank : ∀ c ∈ blanks, space c = true) : words space (blanks ++ line) = words space line := by
  induction blanks with
  | nil => rfl
  | cons c blanks ih =>
    have first : space c = true := blank c List.mem_cons_self
    have later := ih fun other member => blank other (List.mem_cons_of_mem c member)
    rw [← later, words, List.cons_append, List.splitOnP_cons_eq_if_modifyHead, if_pos first]
    rfl

theorem words_word (present : word ≠ []) (solid : ∀ c ∈ word, space c = false) (ends : ∀ c ∈ rest.head?, space c = true) :
    words space (word ++ rest) = word :: words space rest := by
  have kept : (!word.isEmpty) = true := by
    rw [Bool.not_eq_true', List.isEmpty_eq_false_iff]
    exact present
  cases rest with
  | nil =>
    rw [List.append_nil, words, List.splitOnP_eq_singleton solid, List.filter_cons, if_pos kept]
    rfl
  | cons c rest =>
    have separates : space c = true := ends c rfl
    have after : words space ([c] ++ rest) = words space rest := words_blanks (List.forall_mem_singleton.mpr separates)
    rw [List.singleton_append] at after
    rw [after, words, List.splitOnP_append_cons_of_forall_mem solid c separates, List.filter_cons, if_pos kept, words]

theorem words_spaced (spaced : Spaced space tokens line) : words space line = tokens := by
  induction spaced with
  | blank blank =>
    have all : words space (_ ++ []) = words space [] := words_blanks blank
    rw [List.append_nil] at all
    exact all
  | word blank present solid ends _ ih => rw [words_blanks blank, words_word present solid ends, ih]

/-- Every line shows its words. -/
theorem exists_spaced (space : α → Bool) (line : List α) : ∃ tokens, Spaced space tokens line := by
  induction line with
  | nil => exact ⟨[], .blank (List.forall_mem_nil _)⟩
  | cons c line ih =>
    obtain ⟨tokens, spaced⟩ := ih
    cases separates : space c with
    | true =>
      have more {blanks : List α} (blank : ∀ other ∈ blanks, space other = true) :
          ∀ other ∈ c :: blanks, space other = true := List.forall_mem_cons.mpr ⟨separates, blank⟩
      cases spaced with
      | blank blank => exact ⟨_, .blank (more blank)⟩
      | word blank present solid ends later => exact ⟨_, .word (more blank) present solid ends later⟩
    | false =>
      have alone (ends : ∀ other ∈ line.head?, space other = true) (spaced : Spaced space tokens line) :
          Spaced space ([c] :: tokens) (c :: line) :=
        @Spaced.word α space [] [c] line tokens (List.forall_mem_nil _) (List.cons_ne_nil c []) (List.forall_mem_singleton.mpr separates) ends spaced
      cases spaced with
      | blank blank => exact ⟨_, alone (fun other first => blank other (List.mem_of_mem_head? first)) (.blank blank)⟩
      | @word blanks word rest _ blank present solid ends later =>
        cases blanks with
        | nil =>
          exact ⟨_, @Spaced.word α space [] (c :: word) _ _ (List.forall_mem_nil _) (List.cons_ne_nil c word)
            (List.forall_mem_cons.mpr ⟨separates, solid⟩) ends later⟩
        | cons b blanks =>
          refine ⟨_, alone ?_ (.word blank present solid ends later)⟩
          intro other first
          cases first
          exact blank b List.mem_cons_self

end Library.Words
