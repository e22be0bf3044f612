import Polyphony.Decimal.Reading

/-! Scalars of a YAML document, and the values that plain ones stand for. -/
namespace Polyphony.Yaml

def word (s : String) : List Char := s.toList

/-- How a scalar is written: as it is, as a literal block, or in any other way. -/
inductive Style where
  | plain
  | literal
  | other
  deriving DecidableEq, Repr

structure Scalar where
  text : List Char
  style : Style := .plain
  /-- The tag in full, if one is given. -/
  tag : Option (List Char) := none
  deriving DecidableEq, Repr

/-- What the shorthand `!!` stands for. -/
def coreTags : List Char := word "tag:yaml.org,2002:"

/-- A scalar that may be missing. Without a tag, nothing at all and a plain null word stand for a
missing value; with the tag of null, only a null word will do; any other tag calls for a value. -/
def Scalar.present? (s : Scalar) : Option (Option Scalar) :=
  let isNullWord := (["~", "null", "Null", "NULL"].map word).contains s.text
  if s.style ≠ .plain then some (some s)
  else match s.tag with
    | none => some (if s.text.isEmpty || isNullWord then none else some s)
    | some tag =>
      if tag = coreTags ++ word "null" then (if isNullWord then some none else none)
      else some (some s)

/-- The text that a kind of value may be read from. A literal block is one only under the tag of
that kind. -/
def Scalar.textAs? (s : Scalar) (kind : String) : Option (List Char) :=
  match s.style with
  | .plain => some s.text
  | .literal => if s.tag = some (coreTags ++ word kind) then some s.text else none
  | .other => none

def bool? (text : List Char) : Option Bool :=
  if (["true", "True", "TRUE"].map word).contains text then some true
  else if (["false", "False", "FALSE"].map word).contains text then some false
  else none

/-- The text without a plus sign in front; a second sign is refused. -/
def unsigned? : List Char → Option (List Char)
  | '+' :: '+' :: _ => none
  | '+' :: '-' :: _ => none
  | '+' :: rest => some rest
  | text => some text

def float? (text : List Char) : Option Binary64 := do
  let rest ← unsigned? text
  if ([".inf", ".Inf", ".INF"].map word).contains rest then return .infinite false
  else if (["-.inf", "-.Inf", "-.INF"].map word).contains text then return .infinite true
  else if ([".nan", ".NaN", ".NAN"].map word).contains text then return .nan
  else
    let x ← Decimal.read? rest
    if x.isFinite then return x else none

/-- The value of a digit, of either case of letter. -/
def digit? (base : Nat) (c : Char) : Option Nat :=
  let value :=
    if c.isDigit then c.toNat - '0'.toNat
    else if 'a' ≤ c ∧ c ≤ 'z' then c.toNat - 'a'.toNat + 10
    else if 'A' ≤ c ∧ c ≤ 'Z' then c.toNat - 'A'.toNat + 10
    else base
  if value < base then some value else none

/-- One or more digits of a base. -/
def digits? (base : Nat) (text : List Char) : Option Nat :=
  if text.isEmpty then none
  else (text.mapM (digit? base)).map fun values => values.foldl (fun n v => base * n + v) 0

/-- Digits after an optional sign; decimal digits take no leading zero. -/
def int? (text : List Char) : Option Int := do
  let rest ← unsigned? text
  let (negative, body) := match rest with
    | '-' :: body => (true, body)
    | body => (false, body)
  let n ← match body with
    | '0' :: 'x' :: digits => digits? 16 digits
    | '0' :: 'o' :: digits => digits? 8 digits
    | '0' :: 'b' :: digits => digits? 2 digits
    | '0' :: _ :: _ => none
    | digits => digits? 10 digits
  return if negative then -n else n

end Polyphony.Yaml
