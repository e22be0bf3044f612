import Polyphony.Binary64.Basic

/-! Notes in time. A track is the events of one voice, in order, with a read position. -/
namespace Polyphony.Timeline

/-- Times in seconds. A note sounds for `played` and is held, to the eye, for `held`. -/
structure Event where
  start : Binary64
  held : Binary64
  played : Binary64
  pitch : Int
  volume : Binary64
  deriving DecidableEq

/-- The later of the sounding end and the held end. -/
def Event.finish (e : Event) : Binary64 := e.start + e.held.max e.played

def Event.scale (ratio : Binary64) (e : Event) : Event :=
  { e with start := e.start * ratio, held := e.held * ratio, played := e.played * ratio }

def Event.shift (offset : Binary64) (e : Event) : Event := { e with start := e.start + offset }

structure Track where
  events : List Event
  /-- How many events have been taken. -/
  position : Nat := 0
  deriving DecidableEq

namespace Track

/-- The end of the last event, and zero for an empty track. An earlier event that lasts longer
does not count. -/
def finish (t : Track) : Binary64 := (t.events.getLast?.map Event.finish).getD (.zero false)

def scale (ratio : Binary64) (t : Track) : Track :=
  { t with events := t.events.map (·.scale ratio) }

def shift (offset : Binary64) (t : Track) : Track :=
  { t with events := t.events.map (·.shift offset) }

/-- The events that are still to be taken. -/
def remaining (t : Track) : List Event := t.events.drop t.position

def hasMore (t : Track) : Bool := t.position < t.events.length

def peek? (t : Track) : Option Event := t.events[t.position]?

def take? (t : Track) : Option (Event × Track) :=
  t.peek?.map fun event => (event, { t with position := t.position + 1 })

def rewind (t : Track) : Track := { t with position := 0 }

/-- Take events for as long as they start before `horizon`. -/
def takeBefore (horizon : Binary64) (t : Track) : List Event × Track :=
  let due := t.remaining.takeWhile fun event => event.start < horizon
  (due, { t with position := t.position + due.length })

end Track
end Polyphony.Timeline
