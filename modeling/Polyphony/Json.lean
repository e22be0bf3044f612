import Polyphony.Decimal.Style
import Polyphony.Text.Quoted

/-! JSON values, and how they are written over several lines. -/
namespace Polyphony

inductive Json where
  | null
  | bool (value : Bool)
  | int (value : Int)
  | number (value : Binary64)
  | string (value : String)
  | array (items : List Json)
  | object (fields : List (String × Json))
  deriving Inhabited

namespace Json

/-- The first field with a name. -/
def field? (key : String) : Json → Option Json
  | .object fields => fields.lookup key
  | _ => none

def int? : Json → Option Int
  | .int n => some n
  | _ => none

def string? : Json → Option String
  | .string s => some s
  | _ => none

def array? : Json → Option (List Json)
  | .array items => some items
  | _ => none

/-- Numbers are written as data, with a sign on every exponent. -/
def numberStyle : Decimal.Style := { Decimal.data with exponentPlus := true }

/-- JSON has no word for what is not finite. -/
def writeNumber (x : Binary64) : String := if x.isFinite then numberStyle.write x else "null"

def margin (depth : Nat) : String := String.ofList (List.replicate (2 * depth) ' ')

def newline (depth : Nat) : String := "\n" ++ margin depth

mutual

/-- Two spaces for each level, one item or field to a line; empty brackets stay closed. -/
def pretty (depth : Nat) : Json → String
  | .null => "null"
  | .bool value => if value then "true" else "false"
  | .int value => toString value
  | .number value => writeNumber value
  | .string value => Text.json value
  | .array [] => "[]"
  | .array (first :: rest) =>
    "[" ++ newline (depth + 1) ++ pretty (depth + 1) first ++ prettyItems (depth + 1) rest ++
      newline depth ++ "]"
  | .object [] => "\x7b\x7d"
  | .object ((key, value) :: rest) =>
    "\x7b" ++ newline (depth + 1) ++ Text.json key ++ ": " ++ pretty (depth + 1) value ++
      prettyFields (depth + 1) rest ++ newline depth ++ "\x7d"

/-- The items after the first. -/
def prettyItems (depth : Nat) : List Json → String
  | [] => ""
  | item :: rest => "," ++ newline depth ++ pretty depth item ++ prettyItems depth rest

/-- The fields after the first. -/
def prettyFields (depth : Nat) : List (String × Json) → String
  | [] => ""
  | (key, value) :: rest =>
    "," ++ newline depth ++ Text.json key ++ ": " ++ pretty depth value ++
      prettyFields depth rest

end

end Json
end Polyphony
