import Polyphony.Decimal.Style
import Polyphony.Keyboard
import Polyphony.Timeline.Track

/-! Which events can be handed to a player: the timeline itself never checks these ranges. -/
namespace Polyphony.Timeline

inductive Violation where
  | volume (volume : Binary64)
  | pitch (pitch : Int)
  | start (start : Binary64)
  | durations (held played : Binary64)
  deriving DecidableEq

def Violation.message : Violation → String
  | .volume x => "volume " ++ Decimal.message.write x ++ " is outside (0, 1]"
  | .pitch code =>
    "pitch code " ++ toString code ++ " is outside the keyboard (0.." ++
      toString Keyboard.size ++ ")"
  | .start time => "start time " ++ Decimal.message.write time ++ " is invalid"
  | .durations held played =>
    "scheduled duration " ++ Decimal.message.write held ++ " is shorter than play duration " ++
      Decimal.message.write played

/-- The first rule that an event breaks, in the order volume, pitch, start, durations. -/
def Event.violation? (e : Event) : Option Violation :=
  if ¬(0 < e.volume ∧ e.volume ≤ 1) then some (.volume e.volume)
  else if !Keyboard.onKeyboard e.pitch then some (.pitch e.pitch)
  else if ¬(e.start.isFinite ∧ 0 ≤ e.start) then some (.start e.start)
  else if e.held < e.played then some (.durations e.held e.played)
  else none

/-- A violation, and which event of which track it is in. -/
structure Unplayable where
  track : Nat
  event : Nat
  violation : Violation
  deriving DecidableEq

def Unplayable.message (u : Unplayable) : String :=
  "Validation error in track " ++ toString u.track ++ ", event " ++ toString u.event ++ ": " ++
    u.violation.message

/-- The first event that breaks a rule. -/
def unplayable? (tracks : List Track) : Option Unplayable :=
  tracks.zipIdx.findSome? fun (t, track) =>
    t.events.zipIdx.findSome? fun (e, event) =>
      e.violation?.map fun violation => { track, event, violation }

end Polyphony.Timeline
