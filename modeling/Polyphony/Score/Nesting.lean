import Polyphony.Score.Lexeme

/-! Chords and shapes. A shape may stand inside a chord, never a chord inside a shape. -/
namespace Polyphony.Score

/-- What is open at a point of a voice. A chord holds its notes so far; a shape holds the running
pitch to which its notes are added. The running pitch has 32 bits and is not bounded here: it takes
a shape of nearly two hundred million notes to leave them. -/
inductive Nesting where
  | free
  | chord (notes : List NoteCode)
  | shape (offset : Int)
  | chordShape (notes : List NoteCode) (offset : Int)
  deriving DecidableEq, Repr

namespace Nesting

/-- The tokens that a lexeme completes, and what is open after it. -/
def accept : Nesting → Lexeme → Except LexCause (List Token × Nesting)
  | state, .directives block => .ok (block.map .directive, state)
  | .free, .note pitch length => .ok ([.note ⟨pitch, length⟩], .free)
  | .chord notes, .note pitch length => .ok ([], .chord (notes ++ [⟨pitch, length⟩]))
  | .shape offset, .note pitch length =>
    .ok ([.note ⟨offset + pitch, length⟩], .shape (offset + pitch))
  | .chordShape notes offset, .note pitch length =>
    .ok ([], .chordShape (notes ++ [⟨offset + pitch, length⟩]) (offset + pitch))
  | .free, .rest length => .ok ([.rest length], .free)
  | .chord _, .rest _ => .error .restInChord
  | .shape _, .rest _ => .error .restInShape
  | .chordShape .., .rest _ => .error .restInShape
  | .free, .openChord => .ok ([], .chord [])
  | .shape _, .openChord => .error .chordInShape
  | .chord _, .openChord => .error .nestedChord
  | .chordShape .., .openChord => .error .nestedChord
  | .chord [], .closeChord => .error .emptyChord
  | .chord notes, .closeChord => .ok ([.chord notes], .free)
  | .chordShape .., .closeChord => .error .shapeOpenInChord
  | .free, .closeChord => .error .noChordToClose
  | .shape _, .closeChord => .error .noChordToClose
  | .free, .openShape => .ok ([], .shape 0)
  | .chord notes, .openShape => .ok ([], .chordShape notes 0)
  | .shape _, .openShape => .error .nestedShape
  | .chordShape .., .openShape => .error .nestedShape
  | .shape _, .closeShape => .ok ([], .free)
  | .chordShape notes _, .closeShape => .ok ([], .chord notes)
  | .free, .closeShape => .error .noShapeToClose
  | .chord _, .closeShape => .error .noShapeToClose

/-- What is missing where a voice ends, if anything is open. -/
def unclosed? : Nesting → Option LexCause
  | .free => none
  | .chord _ => some .unclosedChord
  | .shape _ => some .unclosedShape
  | .chordShape .. => some .unclosedShape

end Nesting
end Polyphony.Score
