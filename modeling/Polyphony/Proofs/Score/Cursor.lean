import Polyphony.Score.Cursor

/-! A cursor read as the list of characters ahead of it. -/
namespace Polyphony.Score.Cursor

theorem ahead_pass (c : Cursor) (n : Nat) : (c.pass n).ahead = c.ahead.drop n := rfl

theorem byteLength_append (first second : List Char) :
    byteLength (first ++ second) = byteLength first + byteLength second := by
  induction first with
  | nil => exact (Nat.zero_add _).symm
  | cons c rest ih =>
      change c.utf8Size + byteLength (rest ++ second) = c.utf8Size + byteLength rest + _
      rw [ih, Nat.add_assoc]

theorem pass_zero (c : Cursor) : c.pass 0 = c := rfl

theorem pass_pass (c : Cursor) (m n : Nat) : (c.pass m).pass n = c.pass (m + n) := by
  have bytes : byteLength (c.ahead.take (m + n)) =
      byteLength (c.ahead.take m) + byteLength ((c.ahead.drop m).take n) := by
    rw [List.take_add, byteLength_append]
  simp only [pass, bytes, List.drop_drop, Nat.add_assoc]

theorem ahead_pass_append {c : Cursor} {behind rest : List Char}
    (ahead : c.ahead = behind ++ rest) : (c.pass behind.length).ahead = rest := by
  rw [ahead_pass, ahead, List.drop_left]

theorem next?_nil {c : Cursor} (ahead : c.ahead = []) : c.next? = none := by
  rw [next?, ahead]
  rfl

theorem next?_cons {c : Cursor} {char : Char} {rest : List Char} (ahead : c.ahead = char :: rest) :
    c.next? = some (char, c.pass 1) := by
  rw [next?, ahead]
  rfl

theorem ahead_of_next? {c after : Cursor} {char : Char} (next : c.next? = some (char, after)) :
    c.ahead = char :: after.ahead ∧ after = c.pass 1 := by
  cases ahead : c.ahead with
  | nil => rw [next?_nil ahead] at next; cases next
  | cons first rest =>
      rw [next?_cons ahead] at next
      cases next
      exact ⟨by rw [ahead_pass, ahead]; rfl, rfl⟩

/-- A run is the longest when what follows it does not continue it. -/
theorem skipWhile_append {p : Char → Bool} {c : Cursor} {run rest : List Char}
    (ahead : c.ahead = run ++ rest) (all : ∀ x ∈ run, p x) (stops : ∀ x ∈ rest.head?, ¬ p x) :
    c.skipWhile p = (run.length, c.pass run.length) := by
  have longest : c.ahead.takeWhile p = run := by
    rw [ahead, List.takeWhile_append_of_pos all]
    cases rest with
    | nil => rw [List.takeWhile_nil, List.append_nil]
    | cons x rest => rw [List.takeWhile_cons_of_neg (stops x rfl), List.append_nil]
  rw [skipWhile, longest]

theorem dropWhile_ahead (p : Char → Bool) (c : Cursor) :
    (c.skipWhile p).2.ahead = c.ahead.dropWhile p :=
  ahead_pass_append List.takeWhile_append_dropWhile.symm

theorem ahead_skipWhile (p : Char → Bool) (c : Cursor) :
    c.ahead = c.ahead.takeWhile p ++ (c.skipWhile p).2.ahead := by
  rw [dropWhile_ahead]
  exact List.takeWhile_append_dropWhile.symm

theorem head?_skipWhile {p : Char → Bool} {c : Cursor} {char : Char}
    (first : char ∈ (c.skipWhile p).2.ahead.head?) : p char = false := by
  have stops := List.head?_dropWhile_not p c.ahead
  rwa [← dropWhile_ahead, Option.mem_def.mp first] at stops

theorem scanTo?_append_cons {delimiter : Char} {c : Cursor} {before rest : List Char}
    (ahead : c.ahead = before ++ delimiter :: rest) (free : delimiter ∉ before) :
    c.scanTo? delimiter = some (before, c.pass (before.length + 1)) := by
  have plain : ∀ x ∈ before, decide (x ≠ delimiter) = true := by
    intro x member
    exact decide_eq_true fun same => free (same ▸ member)
  have found : c.ahead.takeWhile (· ≠ delimiter) = before := by
    rw [ahead, List.takeWhile_append_of_pos plain, List.takeWhile_cons_of_neg (by simp),
      List.append_nil]
  rw [scanTo?, if_pos (by rw [ahead]; simp), found]

theorem ahead_of_scanTo? {delimiter : Char} {c after : Cursor} {before : List Char}
    (found : c.scanTo? delimiter = some (before, after)) :
    c.ahead = before ++ delimiter :: after.ahead ∧ delimiter ∉ before := by
  by_cases present : delimiter ∈ c.ahead
  · obtain ⟨run, rest, ahead, free⟩ := List.eq_append_cons_of_mem present
    rw [scanTo?_append_cons ahead free] at found
    cases found
    refine ⟨?_, free⟩
    have left : (c.pass (before ++ [delimiter]).length).ahead = rest :=
      ahead_pass_append (by rw [ahead, List.append_assoc, List.singleton_append])
    rw [List.length_append, List.length_singleton] at left
    rw [left]
    exact ahead
  · rw [scanTo?, if_neg present] at found
    cases found

end Polyphony.Score.Cursor
