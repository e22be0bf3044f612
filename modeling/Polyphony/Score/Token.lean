/-! The parts of a score: fragments of voices, voices of tokens. -/
namespace Polyphony.Score

/-- A pitch relative to the octave in force, and a signed length code. A positive code lengthens
the note that many times over, a negative one halves it that many times. Both are numbers of 32
bits, and what is computed from them is checked for that when the note is played. -/
structure NoteCode where
  pitch : Int
  length : Int
  deriving DecidableEq, Repr

inductive Effect where
  | octaveUp
  | octaveDown
  | slurUp
  | slurDown
  | volume
  | noteLength
  | rhythm
  | tempo
  | unknown (name : String)
  deriving DecidableEq, Repr

/-- ASCII letters in lower case, all else as it is. -/
def lowered (text : String) : String := String.ofList (text.toList.map Char.toLower)

/-- The effects that a block can name. -/
def Effect.named : List (String × Effect) :=
  [("vol", .volume), ("notelength", .noteLength), ("rhythm", .rhythm), ("tempo", .tempo)]

/-- Names are compared without regard to ASCII case; an unknown name is kept as written. -/
def Effect.ofName (name : String) : Effect :=
  (named.lookup (lowered name)).getD (.unknown name)

def Effect.name : Effect → String
  | .octaveUp => "octave_up"
  | .octaveDown => "octave_down"
  | .slurUp => "slur_up"
  | .slurDown => "slur_down"
  | .volume => "vol"
  | .noteLength => "notelength"
  | .rhythm => "rhythm"
  | .tempo => "tempo"
  | .unknown name => name

structure Directive where
  effect : Effect
  value : Option String := none
  deriving DecidableEq, Repr

inductive Token where
  | note (code : NoteCode)
  | chord (notes : List NoteCode)
  | rest (length : Int)
  | directive (directive : Directive)
  deriving DecidableEq, Repr

/-- How the voices of a fragment are lined up: to end with the last one, or not at all. -/
inductive Rhythm where
  | relative
  | absolute (mode : String)
  deriving DecidableEq, Repr

def Rhythm.ofValue (value : String) : Rhythm :=
  if lowered value = "relative" then .relative else .absolute value

abbrev Voice := List Token

/-- Voices that start together. -/
structure Fragment where
  voices : List Voice
  rhythm : Rhythm := .relative
  deriving DecidableEq, Repr

end Polyphony.Score
