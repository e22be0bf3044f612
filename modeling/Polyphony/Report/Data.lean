import Polyphony.Json
import Polyphony.Timeline.Track

/-! Tracks as data, in JSON and in YAML. Read positions are not part of it. -/
namespace Polyphony.Report

open Timeline (Event Track)

def eventFields (e : Event) : List (String × Json) := [
  ("startTime", .number e.start),
  ("scheduledDuration", .number e.held),
  ("playDuration", .number e.played),
  ("pitchCode", .int e.pitch),
  ("volume", .number e.volume)]

def trackJson (t : Track) : Json :=
  .object [("events", .array (t.events.map fun e => .object (eventFields e)))]

def json (tracks : List Track) : String :=
  (Json.array (tracks.map trackJson)).pretty 0 ++ "\n"

/-- The first field follows the dash of its item, and the others stand below it. -/
def eventYaml (e : Event) : String :=
  "  - startTime: " ++ Decimal.data.write e.start ++ "\n" ++
    "    scheduledDuration: " ++ Decimal.data.write e.held ++ "\n" ++
    "    playDuration: " ++ Decimal.data.write e.played ++ "\n" ++
    "    pitchCode: " ++ toString e.pitch ++ "\n" ++
    "    volume: " ++ Decimal.data.write e.volume ++ "\n"

def trackYaml (t : Track) : String :=
  if t.events.isEmpty then "- events: []\n"
  else "- events:\n" ++ String.join (t.events.map eventYaml)

def yaml (tracks : List Track) : String :=
  if tracks.isEmpty then "[]\n" else String.join (tracks.map trackYaml)

end Polyphony.Report
