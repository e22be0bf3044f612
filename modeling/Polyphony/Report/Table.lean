import Polyphony.Decimal.Fixed
import Polyphony.Keyboard
import Polyphony.Timeline.Track

/-! Tracks as a table for reading. -/
namespace Polyphony.Report

open Timeline (Event Track)

def blanks (n : Nat) : String := String.ofList (List.replicate n ' ')

def padLeft (width : Nat) (s : String) : String := blanks (width - s.length) ++ s

def padRight (width : Nat) (s : String) : String := s ++ blanks (width - s.length)

def eventRow (e : Event) : String :=
  "  " ++ padLeft 8 (Decimal.fixed 3 e.start) ++
    "  play " ++ padLeft 6 (Decimal.fixed 3 e.played) ++
    "  hold " ++ padLeft 6 (Decimal.fixed 3 e.held) ++
    "  " ++ padLeft 4 (toString e.pitch) ++
    " " ++ padRight 4 ((Keyboard.name? e.pitch).getD "?") ++
    " vol " ++ Decimal.fixed 2 e.volume ++ "\n"

def trackBlock (index : Nat) (t : Track) : String :=
  "track " ++ toString index ++ " (" ++ toString t.events.length ++ " events, ends at " ++
    Decimal.fixed 3 t.finish ++ "s)\n" ++ String.join (t.events.map eventRow)

def table (tracks : List Track) : String :=
  String.join (tracks.zipIdx.map fun (track, index) => trackBlock index track)

end Polyphony.Report
