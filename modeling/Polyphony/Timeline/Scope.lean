import Polyphony.Decimal.Reading
import Polyphony.Options
import Polyphony.Score.Token
import Polyphony.Timeline.Fault
import Polyphony.Timeline.NoteLength
import Polyphony.Timeline.Track

/-! Octave, slur, volume and clock belong to one voice. The note length and the rhythm belong to the
fragment: a voice that changes them changes them for itself and for the voices after it. -/
namespace Polyphony.Timeline

open Score (NoteCode Directive Token Voice Rhythm)

structure FragmentScope where
  noteLength : Binary64
  rhythm : Rhythm
  deriving DecidableEq

structure VoiceScope where
  build : Build
  bias : Int
  slur : Nat := 1
  volume : Binary64 := 1
  clock : Binary64 := .zero false
  deriving DecidableEq

/-- A voice starts at the root note. -/
def VoiceScope.start (o : Options) : VoiceScope where
  build := o.build
  bias := o.rootNote.toInt

structure Scope where
  fragment : FragmentScope
  voice : VoiceScope
  deriving DecidableEq

/-- A signed sum, if the build goes on after it. -/
def Scope.sumInt (s : Scope) (operation : Operation) (n : Int) : Except Fault Int :=
  if s.voice.build.HoldsInt n then .ok (s.voice.build.keptInt n) else .error (.overflow operation)

/-- An unsigned sum, if the build goes on after it. -/
def Scope.sumNat (s : Scope) (n : Nat) : Except Fault Nat :=
  if s.voice.build.HoldsNat n then .ok (s.voice.build.keptNat n) else .error (.overflow .add)

/-- How long a note or a rest takes. A code at one of the ends of 32 bits ends a checked build. It
ends a wrapping build here too: the lengths that one goes on with, `-2^31` base lengths for the
greatest code and no finite one for the least, are left out. -/
def Scope.lengthOf (s : Scope) (code : Int) : Except Fault Binary64 :=
  if Soundable code then .ok (sounding s.fragment.noteLength code)
  else .error (.overflow (if 0 < code then .add else .negate))

/-- The event of a note at the clock. Slurs widen how long it is held, not how long it sounds. -/
def Scope.event (s : Scope) (code : NoteCode) : Except Fault Event := do
  let played ← s.lengthOf code.length
  let held := played.max (s.fragment.noteLength * .ofNat s.voice.slur)
  if held.isFinite then
    let pitch ← s.sumInt .add (code.pitch + s.voice.bias)
    return { start := s.voice.clock, held, played, pitch, volume := s.voice.volume }
  else .error (.noteOverflow s.voice.clock)

def Scope.advance (s : Scope) (span : Binary64) : Except Fault Scope :=
  let clock := s.voice.clock + span
  if clock.isFinite then .ok { s with voice := { s.voice with clock } }
  else .error (.clockOverflow s.voice.clock)

/-- The number that a directive carries; a missing value counts as empty text. -/
def number (d : Directive) : Except Fault Binary64 :=
  let value := d.value.getD ""
  match Decimal.read? value.toList with
  | some x => .ok x
  | none => .error (.notANumber value d.effect.name)

/-- The number itself, provided that it is finite and above zero. -/
def positive (d : Directive) (x : Binary64) : Except Fault Binary64 :=
  if x.isFinite ∧ 0 < x then .ok x else .error (.notPositive d.effect.name x)

def Scope.withNoteLength (s : Scope) (x : Binary64) : Scope :=
  { s with fragment := { s.fragment with noteLength := x } }

/-- What a directive changes. A tempo of `t` beats a minute sets the note length to `60 / t`. -/
def Scope.apply (s : Scope) (d : Directive) : Except Fault Scope :=
  match d.effect with
  | .octaveUp => do
    let bias ← s.sumInt .add (s.voice.bias + 12)
    return { s with voice := { s.voice with bias } }
  | .octaveDown => do
    let bias ← s.sumInt .subtract (s.voice.bias - 12)
    return { s with voice := { s.voice with bias } }
  | .slurUp => do
    let slur ← s.sumNat (s.voice.slur + 1)
    return { s with voice := { s.voice with slur } }
  | .slurDown => .ok { s with voice := { s.voice with slur := Nat.max (s.voice.slur - 1) 1 } }
  | .volume => do
    let volume ← number d
    return { s with voice := { s.voice with volume } }
  | .noteLength => do
    let x ← number d
    return s.withNoteLength (← positive d x)
  | .tempo => do
    let x ← number d
    let tempo ← positive d x
    return s.withNoteLength (← positive d (60 / tempo))
  | .rhythm =>
    .ok { s with fragment := { s.fragment with rhythm := .ofValue (d.value.getD "") } }
  | .unknown name => .error (.undefinedEffect name)

/-- The shortest sounding length among some events. -/
def shortest (events : List Event) : Binary64 :=
  (events.map (·.played)).foldl Binary64.min (.infinite false)

/-- The events of a token, and the scope after it. A chord starts together and moves the clock by
its shortest member; an empty chord moves nothing. -/
def Scope.play (s : Scope) : Token → Except Fault (List Event × Scope)
  | .note code => do
    let event ← s.event code
    let next ← s.advance event.played
    return ([event], next)
  | .chord notes => do
    let events ← notes.mapM s.event
    let next ← if events.isEmpty then pure s else s.advance (shortest events)
    return (events, next)
  | .rest length => do
    let span ← s.lengthOf length
    let next ← s.advance span
    return ([], next)
  | .directive d => do
    let next ← s.apply d
    return ([], next)

/-- The events of the tokens in order, and the fragment's scope after them. -/
def Scope.playAll (s : Scope) : Voice → Except Fault (List Event × FragmentScope)
  | [] => .ok ([], s.fragment)
  | token :: rest => do
    let (events, next) ← s.play token
    let (later, last) ← next.playAll rest
    return (events ++ later, last)

end Polyphony.Timeline
