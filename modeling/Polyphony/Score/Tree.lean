import Polyphony.Json
import Polyphony.Score.Token

/-! A score as a JSON tree, and the score that a tree stands for. -/
namespace Polyphony.Score

namespace NoteCode

def fields (code : NoteCode) : List (String × Json) :=
  [("pitch", .int code.pitch), ("length", .int code.length)]

def toJson (code : NoteCode) : Json := .object code.fields

def ofJson? (tree : Json) : Option NoteCode := do
  let pitch ← (← tree.field? "pitch").int?
  let length ← (← tree.field? "length").int?
  return ⟨pitch, length⟩

end NoteCode

namespace Effect

/-- The effects that are written as one word. -/
def words : List (String × Effect) :=
  [("octave_up", .octaveUp), ("octave_down", .octaveDown), ("slur_up", .slurUp),
    ("slur_down", .slurDown), ("volume", .volume), ("note_length", .noteLength),
    ("rhythm", .rhythm), ("tempo", .tempo)]

def toJson : Effect → Json
  | .octaveUp => .string "octave_up"
  | .octaveDown => .string "octave_down"
  | .slurUp => .string "slur_up"
  | .slurDown => .string "slur_down"
  | .volume => .string "volume"
  | .noteLength => .string "note_length"
  | .rhythm => .string "rhythm"
  | .tempo => .string "tempo"
  | .unknown name => .object [("unknown", .string name)]

def ofJson? : Json → Option Effect
  | .string word => words.lookup word
  | tree => do return .unknown (← (← tree.field? "unknown").string?)

end Effect

namespace Directive

/-- A missing value has no field. -/
def fields (d : Directive) : List (String × Json) :=
  ("effect", d.effect.toJson) :: (d.value.map fun value => ("value", Json.string value)).toList

def ofJson? (tree : Json) : Option Directive := do
  let effect ← Effect.ofJson? (← tree.field? "effect")
  match tree.field? "value" with
  | none => return ⟨effect, none⟩
  | some value => return ⟨effect, some (← value.string?)⟩

end Directive

namespace Token

/-- The kind of token is the field `type`, beside the token's own fields. -/
def toJson : Token → Json
  | .note code => .object (("type", .string "note") :: code.fields)
  | .chord notes =>
    .object [("type", .string "chord"), ("notes", .array (notes.map NoteCode.toJson))]
  | .rest length => .object [("type", .string "rest"), ("length", .int length)]
  | .directive d => .object (("type", .string "meta") :: d.fields)

def ofJson? (tree : Json) : Option Token := do
  let kind ← (← tree.field? "type").string?
  if kind = "note" then return .note (← NoteCode.ofJson? tree)
  else if kind = "chord" then
    return .chord (← (← (← tree.field? "notes").array?).mapM NoteCode.ofJson?)
  else if kind = "rest" then return .rest (← (← tree.field? "length").int?)
  else if kind = "meta" then return .directive (← Directive.ofJson? tree)
  else none

end Token

namespace Rhythm

def toJson : Rhythm → Json
  | .relative => .string "relative"
  | .absolute mode => .object [("absolute", .string mode)]

def ofJson? : Json → Option Rhythm
  | .string word => if word = "relative" then some .relative else none
  | tree => do return .absolute (← (← tree.field? "absolute").string?)

end Rhythm

namespace Fragment

def toJson (f : Fragment) : Json :=
  .object [("sequences", .array (f.voices.map fun voice => .array (voice.map Token.toJson))),
    ("rhythm", f.rhythm.toJson)]

def ofJson? (tree : Json) : Option Fragment := do
  let voices ← (← (← tree.field? "sequences").array?).mapM fun voice => do
    (← voice.array?).mapM Token.ofJson?
  let rhythm ← Rhythm.ofJson? (← tree.field? "rhythm")
  return { voices, rhythm }

end Fragment

def toJson (fragments : List Fragment) : Json := .array (fragments.map Fragment.toJson)

def ofJson? (tree : Json) : Option (List Fragment) := do
  (← tree.array?).mapM Fragment.ofJson?

end Polyphony.Score
