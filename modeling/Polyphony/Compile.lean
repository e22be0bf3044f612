import Polyphony.Score.Document
import Polyphony.Score.Layout
import Polyphony.Timeline.Playable
import Polyphony.Timeline.Schedule

/-! From the text of a score to the tracks that play it. -/
namespace Polyphony

open Timeline (Track)

inductive Error where
  | lex (error : Score.LexError)
  | schedule (fault : Timeline.Fault)
  | noteLength (noteLength : Binary64)
  | unplayable (unplayable : Timeline.Unplayable)
  deriving DecidableEq

def Error.message : Error → String
  | .lex error => error.message
  | .schedule (.overflow operation) => (Timeline.Fault.overflow operation).message
  | .schedule fault => "Schedule error: " ++ fault.message
  | .noteLength x =>
    "Invalid configuration: note-length must be a positive number, got " ++
      Decimal.message.write x
  | .unplayable u => u.message

def Options.check (o : Options) : Except Error Unit :=
  if o.noteLength.isFinite ∧ 0 < o.noteLength then .ok () else .error (.noteLength o.noteLength)

/-- The options are checked first, then the whole text is lexed, then it is scheduled. -/
def compile (o : Options) (source : String) : Except Error (List Track) := do
  o.check
  let fragments ← (Score.lex (Score.normalise source.toList)).mapError .lex
  (Timeline.schedule o fragments).mapError .schedule

/-- Refuse tracks that cannot be played. -/
def checkPlayable (tracks : List Track) : Except Error Unit :=
  match Timeline.unplayable? tracks with
  | some u => .error (.unplayable u)
  | none => .ok ()

def compileChecked (o : Options) (source : String) : Except Error (List Track) := do
  let tracks ← compile o source
  checkPlayable tracks
  return tracks

end Polyphony
