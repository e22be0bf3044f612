import Polyphony.Decimal.Style

/-! Why a score cannot be put on the timeline. -/
namespace Polyphony.Timeline

/-- An operation on numbers of 32 bits. -/
inductive Operation where
  | add
  | subtract
  | negate
  deriving DecidableEq

def Operation.name : Operation → String
  | .add => "add"
  | .subtract => "subtract"
  | .negate => "negate"

/-- All but the last are errors, which are reported. An overflow of 32 bits ends the program. -/
inductive Fault where
  | undefinedEffect (name : String)
  | notANumber (value effect : String)
  | notPositive (effect : String) (number : Binary64)
  | noteOverflow (clock : Binary64)
  | clockOverflow (after : Binary64)
  | timingOverflow (start : Binary64)
  | cannotStretch (finish target : Binary64)
  | overflow (operation : Operation)
  deriving DecidableEq

def seconds (x : Binary64) : String := Decimal.message.write x ++ "s"

def Fault.message : Fault → String
  | .undefinedEffect name => "Undefined meta effect: " ++ name
  | .notANumber value effect =>
    "Invalid value '" ++ value ++ "' for meta effect " ++ effect
  | .notPositive effect number =>
    "Meta effect " ++ effect ++ " must be a positive number, got " ++
      Decimal.message.write number
  | .noteOverflow clock => "Note duration overflows at " ++ seconds clock
  | .clockOverflow after => "Voice time overflows after " ++ seconds after
  | .timingOverflow start => "Note timing overflows (start " ++ seconds start ++ ")"
  | .cannotStretch finish target =>
    "Cannot stretch a voice ending at " ++ seconds finish ++ " to " ++ seconds target
  | .overflow operation => "attempt to " ++ operation.name ++ " with overflow"

end Polyphony.Timeline
