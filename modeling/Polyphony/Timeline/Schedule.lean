import Polyphony.Timeline.Scope

/-! The voices of a fragment are played from time zero, lined up if the rhythm is relative when the
last of them ends, and moved to where the fragment starts. A fragment starts where the latest voice
of the one before it ends. -/
namespace Polyphony.Timeline

open Score (Voice Fragment)

/-- The tracks of the voices in order, and the fragment's scope after the last. -/
def playVoices (o : Options) (scope : FragmentScope) :
    List Voice → Except Fault (List Track × FragmentScope)
  | [] => .ok ([], scope)
  | voice :: rest => do
    let (events, inner) ← Scope.playAll ⟨scope, .start o⟩ voice
    let (tracks, last) ← playVoices o inner rest
    return ({ events } :: tracks, last)

/-- Scale a track so that it ends at `target`; one that ends at zero is left alone. -/
def stretch (target : Binary64) (track : Track) : Except Fault Track :=
  let finish := track.finish
  if 0 < finish then
    let ratio := target / finish
    if ratio.isFinite then .ok (track.scale ratio) else .error (.cannotStretch finish target)
  else .ok track

/-- Every track but the last is stretched to end with the last, if that ends after zero. -/
def align (tracks : List Track) : Except Fault (List Track) :=
  match tracks.getLast? with
  | none => .ok tracks
  | some last =>
    if last.finish ≤ 0 then .ok tracks
    else do
      let others ← tracks.dropLast.mapM (stretch last.finish)
      return others ++ [last]

/-- The tracks of a fragment that starts at time zero. -/
def playFragment (o : Options) (fragment : Fragment) : Except Fault (List Track) := do
  let (tracks, scope) ← playVoices o ⟨o.noteLength, fragment.rhythm⟩ fragment.voices
  if scope.rhythm = .relative then align tracks else return tracks

/-- A track moved to its start, provided that every event still ends at a finite time. -/
def place (start : Binary64) (track : Track) : Except Fault Track :=
  let moved := track.shift start
  match moved.events.find? fun event => !event.finish.isFinite with
  | some event => .error (.timingOverflow event.start)
  | none => .ok moved

/-- The latest end among the tracks with events, and no earlier than `start`. -/
def latestFinish (start : Binary64) (tracks : List Track) : Binary64 :=
  ((tracks.filter fun track => !track.events.isEmpty).map Track.finish).foldl Binary64.max start

/-- The tracks of the fragments in order, the first of them starting at `start`. -/
def scheduleFrom (o : Options) (start : Binary64) : List Fragment → Except Fault (List Track)
  | [] => .ok []
  | fragment :: rest => do
    let played ← playFragment o fragment
    let placed ← played.mapM (place start)
    let later ← scheduleFrom o (latestFinish start placed) rest
    return placed ++ later

/-- One track for every voice, in the order of the score. -/
def schedule (o : Options) (fragments : List Fragment) : Except Fault (List Track) :=
  scheduleFrom o (.zero false) fragments

end Polyphony.Timeline
