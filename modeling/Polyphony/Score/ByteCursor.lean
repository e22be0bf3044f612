import Polyphony.Score.Cursor

/-! The cursor as it is kept over a text that stays whole: an offset into its UTF-8, and a count of
the characters behind it. What is ahead is cut off the text at the offset; an offset inside a
character, or behind the end, cuts nothing off. -/
namespace Polyphony.Score

structure ByteCursor where
  text : String
  /-- Bytes behind the cursor. -/
  offset : Nat := 0
  /-- Characters behind the cursor. -/
  index : Nat := 0

namespace ByteCursor

def ofString (text : String) : ByteCursor := { text }

/-- The text from an offset on, if a character begins or the text ends there. -/
def cutFrom? (text : String) (offset : Nat) : Option String :=
  if boundary : (⟨offset⟩ : String.Pos.Raw).IsValid text then
    some (text.sliceFrom ⟨⟨offset⟩, boundary⟩).copy
  else none

/-- The text before an offset, likewise. -/
def cutTo? (text : String) (offset : Nat) : Option String :=
  if boundary : (⟨offset⟩ : String.Pos.Raw).IsValid text then
    some (text.sliceTo ⟨⟨offset⟩, boundary⟩).copy
  else none

def rest? (b : ByteCursor) : Option String := cutFrom? b.text b.offset

def atEnd (b : ByteCursor) : Bool := b.text.utf8ByteSize ≤ b.offset

/-- The character `n` places ahead, without moving. -/
def peek? (n : Nat) (b : ByteCursor) : Option (Option Char) := b.rest?.map (·.toList[n]?)

/-- Move past a character, by as many bytes as it has. -/
def next? (b : ByteCursor) : Option (Option Char × ByteCursor) :=
  b.rest?.map fun rest => match rest.toList with
    | [] => (none, b)
    | char :: _ => (some char, { b with
        offset := b.offset + char.utf8Size
        index := b.index + 1 })

theorem append_of_cutFrom? {text rest : String} {offset : Nat}
    (cut : cutFrom? text offset = some rest) :
    ∃ before, text = before ++ rest ∧ offset = before.utf8ByteSize := by
  unfold cutFrom? at cut
  split at cut
  · next boundary =>
      have splits := String.Pos.splits (⟨⟨offset⟩, boundary⟩ : text.Pos)
      refine ⟨_, ?_, congrArg String.Pos.Raw.byteIdx splits.offset_eq_rawEndPos⟩
      rw [← Option.some.inj cut]
      exact splits.eq_append
  · contradiction

/-- A character is only ever moved past before the end. -/
theorem offset_lt_of_next? {b after : ByteCursor} {char : Char}
    (next : b.next? = some (some char, after)) :
    after.text = b.text ∧ b.offset < after.offset ∧ b.offset < b.text.utf8ByteSize := by
  obtain ⟨rest, cut, moved⟩ := Option.map_eq_some_iff.mp next
  obtain ⟨before, whole, size⟩ := append_of_cutFrom? cut
  split at moved
  · cases moved
  · next first later ahead =>
      cases moved
      have nonempty : rest.utf8ByteSize ≠ 0 := by
        intro empty
        rw [String.utf8ByteSize_eq_zero_iff.mp empty] at ahead
        cases ahead
      refine ⟨rfl, Nat.lt_add_of_pos_right char.utf8Size_pos, ?_⟩
      rw [whole, size, String.utf8ByteSize_append]
      omega

/-- Move past characters one by one while they have `p`, and count them. -/
def skipWhile? (p : Char → Bool) (b : ByteCursor) : Option (Nat × ByteCursor) :=
  match b.peek? 0 with
  | none => none
  | some none => some (0, b)
  | some (some char) =>
    if p char then
      match _ : b.next? with
      | some (some _, after) => (after.skipWhile? p).map fun (count, last) => (count + 1, last)
      | _ => none
    else some (0, b)
termination_by b.text.utf8ByteSize - b.offset
decreasing_by
  obtain ⟨same, forward, within⟩ := offset_lt_of_next? (by assumption)
  rw [same]
  omega

/-- The text before the next `delimiter`, found by its offset, moving past both. -/
def scanTo? (delimiter : Char) (b : ByteCursor) : Option (Option String × ByteCursor) := do
  let rest ← b.rest?
  match rest.find? delimiter with
  | none => return (none, b)
  | some found =>
    let before ← cutTo? rest found.offset.byteIdx
    return (some before, { b with
      offset := b.offset + (found.offset.byteIdx + delimiter.utf8Size)
      index := b.index + (before.length + 1) })

end ByteCursor
end Polyphony.Score
