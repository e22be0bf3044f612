import Polyphony.Decimal.Shortest

/-! Laying out the shortest digits of a number as text. A `Style` holds every choice that differs
between the places where numbers are written. -/
namespace Polyphony.Decimal

structure Style where
  /-- Exponents of the leading digit that are written without an exponent part; `none` is all. -/
  positional : Option (Int × Int)
  /-- Whether a whole number is written with `.0`. -/
  wholePoint : Bool
  /-- Whether a positive exponent is written with `+`. -/
  exponentPlus : Bool
  tie : Tie
  nan : String
  infinity : String

def zeros (n : Nat) : List Char := List.replicate n '0'

/-- Digits with the point in its place and no exponent part. -/
def layPlain (wholePoint : Bool) (d : Numeral) : List Char :=
  let ds := Nat.toDigits 10 d.digits
  if 0 ≤ d.exponent then
    ds ++ zeros d.exponent.toNat ++
      (if wholePoint then ['.', '0'] else [])
  else
    let places := (-d.exponent).toNat
    if places < ds.length then
      ds.take (ds.length - places) ++ '.' :: ds.drop (ds.length - places)
    else '0' :: '.' :: zeros (places - ds.length) ++ ds

/-- The exponent of the leading digit. -/
def Numeral.leading (d : Numeral) : Int := (Nat.toDigits 10 d.digits).length + d.exponent - 1

/-- One digit before the point, if there is a point, and the exponent after `e`. -/
def layScientific (exponentPlus : Bool) (d : Numeral) : List Char :=
  let e := d.leading
  let significand := match Nat.toDigits 10 d.digits with
    | first :: second :: rest => first :: '.' :: second :: rest
    | ds => ds
  let sign := if e < 0 then ['-'] else if exponentPlus then ['+'] else []
  significand ++ 'e' :: sign ++ Nat.toDigits 10 e.natAbs

def Style.lay (style : Style) (d : Numeral) : List Char :=
  match style.positional with
  | none => layPlain style.wholePoint d
  | some (low, high) =>
    if d.digits = 0 ∨ (low ≤ d.leading ∧ d.leading ≤ high) then layPlain style.wholePoint d
    else layScientific style.exponentPlus d

def sign (negative : Bool) : String := if negative then "-" else ""

def Style.write (style : Style) : Binary64 → String
  | .nan => style.nan
  | .infinite negative => sign negative ++ style.infinity
  | .finite negative units _ =>
    let d := if units = 0 then ⟨0, 0⟩ else shortest style.tie units
    sign negative ++ String.ofList (style.lay d)

/-- Numbers inside messages: always positional, and a whole number has no point. -/
def message : Style where
  positional := none
  wholePoint := false
  exponentPlus := false
  tie := .up
  nan := "NaN"
  infinity := "inf"

/-- Numbers as data: a point or an exponent always shows that they are not integers. -/
def data : Style where
  positional := some (-5, 15)
  wholePoint := true
  exponentPlus := false
  tie := .toEven
  nan := ".nan"
  infinity := ".inf"

end Polyphony.Decimal
