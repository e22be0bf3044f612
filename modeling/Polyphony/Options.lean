import Polyphony.Binary64.Basic
import Polyphony.Build
import Polyphony.Keyboard

/-! What a score leaves open. -/
namespace Polyphony

structure Options where
  /-- Seconds for a note without length marks. -/
  noteLength : Binary64 := 1
  /-- The pitch of note 0 before any octave directive. -/
  rootNote : Int32 := Keyboard.rootNote
  /-- The build that compiles the score. -/
  build : Build := .checked
  deriving DecidableEq

end Polyphony
