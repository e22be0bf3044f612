import Polyphony.Score.Tree

/-! A score as its tokens, for reading or as JSON. -/
namespace Polyphony.Report

open Score

/-- A constructor with named fields, as a dump shows it. -/
def record (name : String) (fields : List (String × String)) : String :=
  name ++ " \x7b " ++ ", ".intercalate (fields.map fun f => f.1 ++ ": " ++ f.2) ++ " \x7d"

def listed (items : List String) : String := "[" ++ ", ".intercalate items ++ "]"

def noteCode (code : NoteCode) : String :=
  record "NoteCode" [("pitch", toString code.pitch), ("length", toString code.length)]

def effect : Effect → String
  | .octaveUp => "OctaveUp"
  | .octaveDown => "OctaveDown"
  | .slurUp => "SlurUp"
  | .slurDown => "SlurDown"
  | .volume => "Volume"
  | .noteLength => "NoteLength"
  | .rhythm => "Rhythm"
  | .tempo => "Tempo"
  | .unknown name => "Unknown(" ++ Text.dump name ++ ")"

def value : Option String → String
  | none => "None"
  | some text => "Some(" ++ Text.dump text ++ ")"

def token : Token → String
  | .note code => "Note(" ++ noteCode code ++ ")"
  | .chord notes => record "Chord" [("notes", listed (notes.map noteCode))]
  | .rest length => record "Rest" [("length", toString length)]
  | .directive d =>
    "Meta(" ++ record "Meta" [("effect", effect d.effect), ("value", value d.value)] ++ ")"

def rhythm : Rhythm → String
  | .relative => "Relative"
  | .absolute mode => "Absolute(" ++ Text.dump mode ++ ")"

def voiceLine (index : Nat) (voice : Voice) : String :=
  "  voice " ++ toString index ++ " (" ++ toString voice.length ++ " tokens): " ++
    listed (voice.map token) ++ "\n"

def fragmentBlock (index : Nat) (f : Fragment) : String :=
  "fragment " ++ toString index ++ " (" ++ rhythm f.rhythm ++ ")\n" ++
    String.join (f.voices.zipIdx.map fun (voice, i) => voiceLine i voice)

def tokens (fragments : List Fragment) : String :=
  String.join (fragments.zipIdx.map fun (fragment, index) => fragmentBlock index fragment)

def tokensJson (fragments : List Fragment) : String :=
  (Score.toJson fragments).pretty 0 ++ "\n"

end Polyphony.Report
