import Mathlib.Algebra.GroupWithZero.Nat
import Polyphony.Score.Lexeme

/-! A voice is a list of items, and an item is written in signs. A tree of the grammar has its
signs, hence its text, and it has its tokens; both are read off the tree alone. -/
namespace Polyphony.Score

/-- The symbols of the twelve pitch classes. -/
def pitchSymbol (pitchClass : Fin 12) : Char :=
  ['0', '1', '2', '3', '4', '5', '6', '7', '8', '9', 'T', 'E'].get pitchClass

/-- The length marks of a note are of one kind. -/
inductive Marks where
  | tildes (count : Nat)
  | apostrophes (count : Nat)

namespace Marks

def text : Marks → List Char
  | tildes count => List.replicate count '~'
  | apostrophes count => List.replicate count apostrophe

def code : Marks → Int
  | tildes count => count
  | apostrophes count => -count

end Marks

structure NoteSign where
  pitchClass : Fin 12
  marks : Marks

inductive Shorthand where
  | octaveUp
  | octaveDown
  | slurUp
  | slurDown

namespace Shorthand

def symbol : Shorthand → Char
  | octaveUp => '^'
  | octaveDown => 'V'
  | slurUp => 'L'
  | slurDown => 'S'

def effect : Shorthand → Effect
  | octaveUp => .octaveUp
  | octaveDown => .octaveDown
  | slurUp => .slurUp
  | slurDown => .slurDown

end Shorthand

/-- A name and, after an equals sign, a value. Only the first equals sign divides them. -/
structure Entry where
  name : List Char
  value : Option (List Char)
  named : name ≠ []
  name_plain : ∀ c ∈ name, c ≠ '=' ∧ c ≠ ',' ∧ c ≠ closeBrace
  value_plain : ∀ text ∈ value, ∀ c ∈ text, c ≠ ',' ∧ c ≠ closeBrace

namespace Entry

def text (e : Entry) : List Char :=
  e.name ++ match e.value with
    | none => []
    | some value => '=' :: value

def directive (e : Entry) : Directive :=
  ⟨.ofName (String.ofList e.name), e.value.map String.ofList⟩

end Entry

/-- One shorthand, or the entries of a block. -/
inductive Instruction where
  | shorthand (sign : Shorthand)
  | block (first : Entry) (others : List Entry)

namespace Instruction

def text : Instruction → List Char
  | shorthand sign => [sign.symbol]
  | block first others =>
    openBrace :: (first.text ++ others.flatMap fun e => ',' :: e.text) ++ [closeBrace]

def directives : Instruction → List Directive
  | shorthand sign => [⟨sign.effect, none⟩]
  | block first others => (first :: others).map Entry.directive

end Instruction

inductive Sign where
  | note (note : NoteSign)
  | rest (apostrophes : Nat)
  | instruction (instruction : Instruction)
  | openChord
  | closeChord
  | openShape
  | closeShape

def Sign.text : Sign → List Char
  | note n => pitchSymbol n.pitchClass :: n.marks.text
  | rest count => '-' :: List.replicate count apostrophe
  | instruction i => i.text
  | openChord => ['[']
  | closeChord => [']']
  | openShape => ['<']
  | closeShape => ['>']

/-- What a shape holds. -/
inductive Part where
  | note (note : NoteSign)
  | instruction (instruction : Instruction)

namespace Part

def sign : Part → Sign
  | note n => .note n
  | instruction i => .instruction i

/-- How far a part of a shape raises the pitch. -/
def step : Part → Nat
  | note n => n.pitchClass
  | instruction _ => 0

/-- The tokens of a part whose note, if it is one, has the given pitch. -/
def tokensAt (pitch : Int) : Part → List Token
  | note n => [.note ⟨pitch, n.marks.code⟩]
  | instruction i => i.directives.map .directive

def tokens (p : Part) : List Token := p.tokensAt p.step

end Part

/-- The `k`-th note of a shape has the sum of the shape's first `k` pitch classes. -/
def shapeTokens (parts : List Part) : List Token :=
  parts.zipIdx.flatMap fun (part, i) =>
    part.tokensAt ((parts.take (i + 1)).map Part.step).sum

def shapeSigns (parts : List Part) : List Sign :=
  .openShape :: parts.map Part.sign ++ [.closeShape]

/-- What a chord holds. -/
inductive ChordPart where
  | part (part : Part)
  | shape (parts : List Part)

namespace ChordPart

def signs : ChordPart → List Sign
  | part p => [p.sign]
  | shape parts => shapeSigns parts

def tokens : ChordPart → List Token
  | part p => p.tokens
  | shape parts => shapeTokens parts

end ChordPart

def Token.note? : Token → Option NoteCode
  | .note code => some code
  | _ => none

def Token.directive? : Token → Option Directive
  | .directive d => some d
  | _ => none

/-- The notes among some tokens, as they are gathered in a chord. -/
def gathered (tokens : List Token) : List NoteCode := tokens.filterMap Token.note?

/-- The directives among some tokens, which do not wait for the chord to close. -/
def hoisted (tokens : List Token) : List Token :=
  (tokens.filterMap Token.directive?).map .directive

/-- A chord holds at least one note. -/
inductive Item where
  | part (part : Part)
  | rest (apostrophes : Nat)
  | shape (parts : List Part)
  | chord (parts : List ChordPart) (sounds : gathered (parts.flatMap ChordPart.tokens) ≠ [])

namespace Item

def signs : Item → List Sign
  | part p => [p.sign]
  | rest count => [.rest count]
  | shape parts => shapeSigns parts
  | chord parts _ => .openChord :: parts.flatMap ChordPart.signs ++ [.closeChord]

def text (item : Item) : List Char := item.signs.flatMap Sign.text

/-- The directives inside a chord come before the chord itself. -/
def tokens : Item → List Token
  | part p => p.tokens
  | rest count => [.rest (-count)]
  | shape parts => shapeTokens parts
  | chord parts _ =>
    let inner := parts.flatMap ChordPart.tokens
    hoisted inner ++ [.chord (gathered inner)]

end Item
end Polyphony.Score
