import Polyphony.Timeline.Track

/-! Handing out events as the playhead moves. -/
namespace Polyphony.Timeline

structure Transport where
  tracks : List Track := []

namespace Transport

/-- Every event not yet taken that starts before `now + lookahead`, track by track. -/
def poll (now lookahead : Binary64) (t : Transport) : List Event × Transport :=
  let taken := t.tracks.map (·.takeBefore (now + lookahead))
  (taken.flatMap (·.1), ⟨taken.map (·.2)⟩)

def isFinished (t : Transport) : Bool := t.tracks.all fun track => !track.hasMore

def rewind (t : Transport) : Transport := ⟨t.tracks.map Track.rewind⟩

/-- The latest end over all tracks. -/
def duration (t : Transport) : Binary64 :=
  (t.tracks.map Track.finish).foldl Binary64.max (.zero false)

end Transport
end Polyphony.Timeline
