/-! The cursor knows the characters ahead of it and counts those behind it, both as characters and
as UTF-8 bytes. It only moves forward. -/
namespace Polyphony.Score

/-- The length of a text in UTF-8. -/
def byteLength (text : List Char) : Nat := text.foldr (fun c rest => c.utf8Size + rest) 0

structure Cursor where
  /-- Bytes in the whole text. -/
  size : Nat
  /-- Bytes behind the cursor. -/
  offset : Nat := 0
  /-- Characters behind the cursor. -/
  index : Nat := 0
  /-- Characters not yet read. -/
  ahead : List Char

namespace Cursor

def ofList (text : List Char) : Cursor := { size := byteLength text, ahead := text }

/-- The character `n` places ahead, without moving. -/
def peek? (c : Cursor) (n : Nat) : Option Char := c.ahead[n]?

def atEnd (c : Cursor) : Bool := c.size ≤ c.offset

/-- Move past the next `n` characters. -/
def pass (c : Cursor) (n : Nat) : Cursor :=
  { c with
    offset := c.offset + byteLength (c.ahead.take n)
    index := c.index + n
    ahead := c.ahead.drop n }

def next? (c : Cursor) : Option (Char × Cursor) :=
  c.ahead.head?.map fun char => (char, c.pass 1)

/-- Move past the longest run of characters with `p`, and count them. -/
def skipWhile (p : Char → Bool) (c : Cursor) : Nat × Cursor :=
  let run := (c.ahead.takeWhile p).length
  (run, c.pass run)

/-- The text before the next `delimiter`, moving past both; nothing if there is none ahead. -/
def scanTo? (delimiter : Char) (c : Cursor) : Option (List Char × Cursor) :=
  if delimiter ∈ c.ahead then
    let before := c.ahead.takeWhile (· ≠ delimiter)
    some (before, c.pass (before.length + 1))
  else none

@[simp] theorem length_ahead_pass (c : Cursor) (n : Nat) :
    (c.pass n).ahead.length = c.ahead.length - n := List.length_drop

theorem length_ahead_skipWhile (p : Char → Bool) (c : Cursor) :
    (c.skipWhile p).2.ahead.length ≤ c.ahead.length := by
  simp only [skipWhile, length_ahead_pass]
  omega

theorem length_ahead_scanTo? {delimiter : Char} {c after : Cursor} {before : List Char}
    (h : c.scanTo? delimiter = some (before, after)) : after.ahead.length ≤ c.ahead.length := by
  unfold scanTo? at h
  split at h
  · simp only [Option.some.injEq, Prod.mk.injEq] at h
    rw [← h.2, length_ahead_pass]
    omega
  · contradiction

theorem length_ahead_next? {c after : Cursor} {char : Char} (h : c.next? = some (char, after)) :
    after.ahead.length < c.ahead.length := by
  unfold next? at h
  cases ahead : c.ahead with
  | nil => simp [ahead] at h
  | cons first rest =>
      simp only [ahead, List.head?_cons, Option.map_some, Option.some.injEq, Prod.mk.injEq] at h
      rw [← h.2, length_ahead_pass, ahead, List.length_cons]
      omega

end Cursor
end Polyphony.Score
