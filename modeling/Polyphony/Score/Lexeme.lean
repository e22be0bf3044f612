import Polyphony.Score.Token
import Polyphony.Score.Cursor
import Polyphony.Text.Pieces

/-! The symbols of a voice, before chords and shapes are put together: a note or rest with its
length marks, a bracket, or one or more directives. -/
namespace Polyphony.Score

inductive LexCause where
  | unknownSymbol (symbol : Char)
  | strayApostrophe
  | strayTilde
  | restInShape
  | restInChord
  | nestedChord
  | chordInShape
  | emptyChord
  | shapeOpenInChord
  | noChordToClose
  | nestedShape
  | noShapeToClose
  | unclosedChord
  | unclosedShape
  | unclosedBlock
  | emptyBlock
  | namelessEntry (entry : String)
  deriving DecidableEq, Repr

def LexCause.message : LexCause → String
  | .unknownSymbol symbol => "Unknown symbol: " ++ symbol.toString
  | .strayApostrophe => "' symbols must follow notes or rests"
  | .strayTilde => "~ symbols must follow notes"
  | .restInShape => "Rests disallowed in shape"
  | .restInChord => "Rests disallowed in chord"
  | .nestedChord => "Cannot nest chords"
  | .chordInShape => "Cannot nest chords inside shapes"
  | .emptyChord => "Chords must contain at least one note"
  | .shapeOpenInChord => "Close open shape before closing chords"
  | .noChordToClose => "Attempt to close chord when not in chord"
  | .nestedShape => "Cannot nest shapes"
  | .noShapeToClose => "Attempt to close shape when not in shape"
  | .unclosedChord => "Chords must be closed"
  | .unclosedShape => "Chord shapes must be closed"
  | .unclosedBlock => "Unclosed meta"
  | .emptyBlock => "Null meta"
  | .namelessEntry entry => "Meta entry '" ++ entry ++ "' has no name"

/-- A cause, and the number of characters of the voice that were read when it arose. -/
structure LexFault where
  cause : LexCause
  index : Nat
  deriving DecidableEq, Repr

inductive Lexeme where
  | note (pitchClass : Nat) (length : Int)
  | rest (length : Int)
  | openChord
  | closeChord
  | openShape
  | closeShape
  | directives (directives : List Directive)
  deriving DecidableEq, Repr

def apostrophe : Char := '\x27'
def openBrace : Char := '\x7b'
def closeBrace : Char := '\x7d'

/-- Ten digits, and two letters for the last two of the twelve pitch classes. -/
def pitchClass? (c : Char) : Option Nat :=
  if c.isDigit then some (c.toNat - '0'.toNat)
  else if c = 'T' then some 10
  else if c = 'E' then some 11
  else none

/-- The directives that are written as one character. -/
def shorthand? (c : Char) : Option Effect :=
  if c = '^' then some .octaveUp
  else if c = 'V' then some .octaveDown
  else if c = 'L' then some .slurUp
  else if c = 'S' then some .slurDown
  else none

/-- A run of apostrophes, as a code of halvings. The code has 32 bits and is not bounded here: it
takes a run of `2^31` marks to leave them. -/
def readHalvings (c : Cursor) : Int × Cursor :=
  let (count, after) := c.skipWhile (· = apostrophe)
  (-count, after)

/-- The length marks of a note. Tildes come first; only where there is none are apostrophes read.
The code is no more bounded than that of `readHalvings`. -/
def readLength (c : Cursor) : Int × Cursor :=
  let (tildes, after) := c.skipWhile (· = '~')
  if tildes = 0 then readHalvings c else (tildes, after)

/-- A directive as it stands between the commas of a block: a name, and a value after the first
equals sign, if there is one. -/
def readEntry (entry : List Char) : Except LexCause Directive :=
  let name := entry.takeWhile (· ≠ '=')
  let value := (entry.dropWhile (· ≠ '=')).tail?
  if name.isEmpty then .error (.namelessEntry (String.ofList entry))
  else .ok ⟨.ofName (String.ofList name), value.map String.ofList⟩

/-- The directives of a block, whose opening brace is already read. -/
def readBlock (c : Cursor) : Except LexFault (List Directive × Cursor) :=
  match c.scanTo? closeBrace with
  | none => .error ⟨.unclosedBlock, c.index⟩
  | some ([], after) => .error ⟨.emptyBlock, after.index⟩
  | some (contents, after) =>
    match (Text.pieces ',' contents).mapM readEntry with
    | .error cause => .error ⟨cause, after.index⟩
    | .ok directives => .ok (directives, after)

/-- The lexeme that begins with the symbol just read. -/
def Lexeme.read (symbol : Char) (c : Cursor) : Except LexFault (Lexeme × Cursor) :=
  match pitchClass? symbol, shorthand? symbol with
  | some pitch, _ =>
    let read := readLength c
    .ok (.note pitch read.1, read.2)
  | none, some effect => .ok (.directives [⟨effect, none⟩], c)
  | none, none =>
    if symbol = '-' then
      let read := readHalvings c
      .ok (.rest read.1, read.2)
    else if symbol = '[' then .ok (.openChord, c)
    else if symbol = ']' then .ok (.closeChord, c)
    else if symbol = '<' then .ok (.openShape, c)
    else if symbol = '>' then .ok (.closeShape, c)
    else if symbol = openBrace then
      match readBlock c with
      | .error fault => .error fault
      | .ok (block, after) => .ok (.directives block, after)
    else if symbol = apostrophe then .error ⟨.strayApostrophe, c.index⟩
    else if symbol = '~' then .error ⟨.strayTilde, c.index⟩
    else .error ⟨.unknownSymbol symbol, c.index⟩

theorem length_ahead_readHalvings (c : Cursor) :
    (readHalvings c).2.ahead.length ≤ c.ahead.length :=
  Cursor.length_ahead_skipWhile _ c

theorem length_ahead_readLength (c : Cursor) :
    (readLength c).2.ahead.length ≤ c.ahead.length := by
  unfold readLength
  dsimp only
  split
  · exact length_ahead_readHalvings c
  · exact Cursor.length_ahead_skipWhile _ c

theorem length_ahead_readBlock {c after : Cursor} {directives : List Directive}
    (h : readBlock c = .ok (directives, after)) : after.ahead.length ≤ c.ahead.length := by
  unfold readBlock at h
  split at h
  · contradiction
  · contradiction
  · next found =>
      split at h
      · contradiction
      · simp only [Except.ok.injEq, Prod.mk.injEq] at h
        exact h.2 ▸ Cursor.length_ahead_scanTo? found

theorem Lexeme.length_ahead_read {symbol : Char} {c after : Cursor} {lexeme : Lexeme}
    (h : Lexeme.read symbol c = .ok (lexeme, after)) : after.ahead.length ≤ c.ahead.length := by
  unfold Lexeme.read at h
  repeat' split at h
  all_goals simp only [Except.ok.injEq, Prod.mk.injEq, reduceCtorEq] at h
  all_goals rw [← h.2]
  all_goals first
    | exact Nat.le_refl _
    | exact length_ahead_readLength c
    | exact length_ahead_readHalvings c
    | exact length_ahead_readBlock (by assumption)

end Polyphony.Score
