import Mathlib.Algebra.GroupWithZero.Nat
import Polyphony.Text.Pieces

/-! Cutting a text is the inverse of joining pieces that are free of the separator. -/
namespace Polyphony.Text

variable {separator : Char}

/-- Pieces with the separator between them. -/
def joined (separator : Char) (first : List Char) (others : List (List Char)) : List Char :=
  first ++ others.flatMap (separator :: ·)

/-- Pieces with the separator between them; there is nothing between no pieces. -/
def spliced (separator : Char) : List (List Char) → List Char
  | [] => []
  | first :: others => joined separator first others

theorem mem_joined {first piece : List Char} {others : List (List Char)} {c : Char}
    (member : piece ∈ first :: others) (inside : c ∈ piece) :
    c ∈ joined separator first others := by
  rcases List.mem_cons.mp member with rfl | later
  · exact List.mem_append_left _ inside
  · exact List.mem_append_right _
      (List.mem_flatMap.mpr ⟨piece, later, List.mem_cons_of_mem separator inside⟩)

theorem eq_or_mem_of_mem_spliced {texts : List (List Char)} {c : Char}
    (member : c ∈ spliced separator texts) : c = separator ∨ ∃ piece ∈ texts, c ∈ piece := by
  cases texts with
  | nil => exact absurd member List.not_mem_nil
  | cons first others =>
      rcases List.mem_append.mp member with inFirst | inOthers
      · exact .inr ⟨first, List.mem_cons_self, inFirst⟩
      · obtain ⟨piece, found, inside⟩ := List.mem_flatMap.mp inOthers
        rcases List.mem_cons.mp inside with same | inside
        · exact .inl same
        · exact .inr ⟨piece, List.mem_cons_of_mem first found, inside⟩

theorem pieces_ne_nil (text : List Char) : pieces separator text ≠ [] := by
  cases text with
  | nil => exact List.cons_ne_nil _ _
  | cons c text =>
      unfold pieces
      split
      · exact List.cons_ne_nil _ _
      · split <;> exact List.cons_ne_nil _ _

theorem pieces_cons_of_ne {c : Char} (different : c ≠ separator) {text first : List Char}
    {others : List (List Char)} (cut : pieces separator text = first :: others) :
    pieces separator (c :: text) = (c :: first) :: others := by
  rw [pieces, if_neg different, cut]

theorem pieces_of_not_mem {text : List Char} (free : separator ∉ text) :
    pieces separator text = [text] := by
  induction text with
  | nil => rfl
  | cons c text ih =>
      rw [List.mem_cons, not_or] at free
      exact pieces_cons_of_ne (Ne.symm free.1) (ih free.2)

theorem pieces_separator_cons (text : List Char) :
    pieces separator (separator :: text) = [] :: pieces separator text := by
  rw [pieces, if_pos rfl]

theorem pieces_append_separator (first rest : List Char) :
    pieces separator (first ++ separator :: rest) =
      pieces separator first ++ pieces separator rest := by
  induction first with
  | nil => exact pieces_separator_cons rest
  | cons c first ih =>
      by_cases same : c = separator
      · subst same
        rw [List.cons_append, pieces_separator_cons, pieces_separator_cons, ih, List.cons_append]
      · obtain ⟨head, tail, cut⟩ := List.exists_cons_of_ne_nil (pieces_ne_nil first)
        rw [cut, List.cons_append] at ih
        rw [pieces_cons_of_ne same cut]
        exact pieces_cons_of_ne same ih

theorem pieces_append_cons {first : List Char} (free : separator ∉ first) (rest : List Char) :
    pieces separator (first ++ separator :: rest) = first :: pieces separator rest := by
  rw [pieces_append_separator, pieces_of_not_mem free]
  rfl

/-- What is added at the end of a text is added to its last piece. -/
theorem exists_pieces_append {suffix : List Char} (text : List Char) (free : separator ∉ suffix) :
    ∃ before last, pieces separator text = before ++ [last] ∧
      pieces separator (text ++ suffix) = before ++ [last ++ suffix] := by
  induction text with
  | nil => exact ⟨[], [], rfl, pieces_of_not_mem free⟩
  | cons c text ih =>
      obtain ⟨before, last, cut, longer⟩ := ih
      by_cases same : c = separator
      · subst same
        refine ⟨[] :: before, last, ?_, ?_⟩
        · rw [pieces_separator_cons, cut, List.cons_append]
        · rw [List.cons_append, pieces_separator_cons, longer, List.cons_append]
      · cases before with
        | nil =>
            exact ⟨[], c :: last, pieces_cons_of_ne same cut, pieces_cons_of_ne same longer⟩
        | cons head tail =>
            exact ⟨(c :: head) :: tail, last, pieces_cons_of_ne same cut,
              pieces_cons_of_ne same longer⟩

theorem pieces_append_of_free {behind first head : List Char} {others : List (List Char)}
    (free : separator ∉ first) (cut : pieces separator behind = head :: others) :
    pieces separator (first ++ behind) = (first ++ head) :: others := by
  induction first with
  | nil => exact cut
  | cons c first ih =>
      rw [List.mem_cons, not_or] at free
      exact pieces_cons_of_ne (Ne.symm free.1) (ih free.2)

/-- Characters may be written otherwise before the cut or after it, if the separator is written as
itself and nothing else is written with it. -/
theorem pieces_flatMap {written : Char → List Char} (kept : written separator = [separator])
    (free : ∀ c, c ≠ separator → separator ∉ written c) (text : List Char) :
    pieces separator (text.flatMap written) =
      (pieces separator text).map (List.flatMap written) := by
  induction text with
  | nil => rfl
  | cons c text ih =>
      by_cases same : c = separator
      · subst same
        rw [List.flatMap_cons, kept, List.singleton_append, pieces_separator_cons,
          pieces_separator_cons, ih]
        rfl
      · obtain ⟨first, others, cut⟩ := List.exists_cons_of_ne_nil (pieces_ne_nil text)
        rw [cut, List.map_cons] at ih
        rw [List.flatMap_cons, pieces_append_of_free (free c same) ih, pieces_cons_of_ne same cut]
        rfl

theorem pieces_joined {first : List Char} {others : List (List Char)} (free : separator ∉ first)
    (others_free : ∀ piece ∈ others, separator ∉ piece) :
    pieces separator (joined separator first others) = first :: others := by
  induction others generalizing first with
  | nil => simpa only [joined, List.flatMap_nil, List.append_nil] using pieces_of_not_mem free
  | cons second others ih =>
      have later := ih (others_free second List.mem_cons_self)
        fun piece member => others_free piece (List.mem_cons_of_mem second member)
      have cut := pieces_append_cons free (joined separator second others)
      rw [later] at cut
      exact cut

theorem pieces_spliced {texts : List (List Char)} (nonempty : texts ≠ [])
    (free : ∀ piece ∈ texts, separator ∉ piece) :
    pieces separator (spliced separator texts) = texts := by
  cases texts with
  | nil => exact absurd rfl nonempty
  | cons first others =>
      obtain ⟨first_free, others_free⟩ := List.forall_mem_cons.mp free
      exact pieces_joined first_free others_free

theorem joined_of_pieces {text first : List Char} {others : List (List Char)}
    (cut : pieces separator text = first :: others) :
    text = joined separator first others ∧ separator ∉ first ∧
      ∀ piece ∈ others, separator ∉ piece := by
  induction text generalizing first others with
  | nil =>
      cases cut
      exact ⟨rfl, List.not_mem_nil, fun _ member => absurd member List.not_mem_nil⟩
  | cons c text ih =>
      obtain ⟨head, tail, rest⟩ : ∃ head tail, pieces separator text = head :: tail :=
        List.exists_cons_of_ne_nil (pieces_ne_nil text)
      by_cases same : c = separator
      · rw [pieces, if_pos same, rest] at cut
        cases cut
        obtain ⟨whole, head_free, tail_free⟩ := ih rest
        refine ⟨?_, List.not_mem_nil, ?_⟩
        · rw [same, whole]
          rfl
        · intro piece member
          rcases List.mem_cons.mp member with rfl | later
          · exact head_free
          · exact tail_free piece later
      · rw [pieces_cons_of_ne same rest] at cut
        cases cut
        obtain ⟨whole, head_free, tail_free⟩ := ih rest
        refine ⟨?_, ?_, tail_free⟩
        · rw [whole]
          rfl
        · rw [List.mem_cons, not_or]
          exact ⟨Ne.symm same, head_free⟩

/-- Pieces are free of the separator and hold nothing that the text does not. -/
theorem piece_of_mem_pieces {text piece : List Char} (member : piece ∈ pieces separator text) :
    separator ∉ piece ∧ ∀ c ∈ piece, c ∈ text := by
  obtain ⟨first, others, cut⟩ := List.exists_cons_of_ne_nil (pieces_ne_nil text)
  rw [cut] at member
  obtain ⟨whole, first_free, others_free⟩ := joined_of_pieces cut
  refine ⟨?_, fun c inside => whole ▸ mem_joined member inside⟩
  rcases List.mem_cons.mp member with rfl | later
  · exact first_free
  · exact others_free piece later

theorem length_pieces (text : List Char) :
    (pieces separator text).length = text.count separator + 1 := by
  induction text with
  | nil => rfl
  | cons c text ih =>
      by_cases same : c = separator
      · subst same
        rw [pieces_separator_cons, List.length_cons, ih, List.count_cons_self]
      · obtain ⟨first, others, cut⟩ := List.exists_cons_of_ne_nil (pieces_ne_nil text)
        rw [pieces_cons_of_ne same cut, List.count_cons_of_ne same, ← ih, cut]
        rfl

theorem sum_count_pieces {c : Char} (different : c ≠ separator) (text : List Char) :
    ((pieces separator text).map (List.count c)).sum = text.count c := by
  induction text with
  | nil => rfl
  | cons head text ih =>
      by_cases same : head = separator
      · subst same
        rw [pieces_separator_cons, List.map_cons, List.sum_cons, ih, List.count_nil,
          Nat.zero_add, List.count_cons_of_ne (Ne.symm different)]
      · obtain ⟨first, others, cut⟩ := List.exists_cons_of_ne_nil (pieces_ne_nil text)
        rw [cut, List.map_cons, List.sum_cons] at ih
        rw [pieces_cons_of_ne same cut, List.map_cons, List.sum_cons, List.count_cons,
          List.count_cons, ← ih]
        omega

theorem sum_length_pieces (texts : List (List Char)) :
    ((texts.map (pieces separator)).map List.length).sum =
      (texts.map (List.count separator)).sum + texts.length := by
  induction texts with
  | nil => rfl
  | cons text texts ih =>
      simp only [List.map_cons, List.sum_cons, List.length_cons, length_pieces, ih]
      omega

end Polyphony.Text
