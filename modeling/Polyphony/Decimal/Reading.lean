import Polyphony.Binary64.Basic

/-! Reading a decimal numeral as the binary64 number nearest to it. -/
namespace Polyphony

namespace Binary64

/-- The binary64 number nearest to `digits * 10^exponent`. Far outside the range the answer is
known from the position of the leading digit alone. -/
def ofDecimal (negative : Bool) (digits : Nat) (exponent : Int) : Binary64 :=
  let leading : Int := (Nat.toDigits 10 digits).length + exponent
  if digits = 0 ∨ leading < -330 then zero negative
  else if 320 < leading then .infinite negative
  else
    ofRatio negative (digits * Nat.pow 10 exponent.toNat * unitsPerOne)
      (Nat.pow 10 (-exponent).toNat)

end Binary64

namespace Decimal

/-- The number that a run of decimal digits writes. -/
def natOf (digits : List Char) : Nat :=
  digits.foldl (fun n d => 10 * n + (d.toNat - '0'.toNat)) 0

/-- An optional sign, `true` for minus, and what follows it. -/
def splitSign : List Char → Bool × List Char
  | '-' :: rest => (true, rest)
  | '+' :: rest => (false, rest)
  | text => (false, text)

/-- The exponent part of a numeral: nothing, or a mark, an optional sign and at least one digit. -/
def readExponent? : List Char → Option Int
  | [] => some 0
  | mark :: text =>
    if mark ≠ 'e' ∧ mark ≠ 'E' then none
    else
      let (negative, digits) := splitSign text
      if digits.isEmpty ∨ !digits.all Char.isDigit then none
      else some (if negative then -(natOf digits) else natOf digits)

/-- Digits with at most one point among them, at least one digit, and an optional exponent. -/
def readUnsigned? (negative : Bool) (text : List Char) : Option Binary64 :=
  let whole := text.takeWhile Char.isDigit
  let afterWhole := text.dropWhile Char.isDigit
  let (fraction, afterFraction) := match afterWhole with
    | '.' :: rest => (rest.takeWhile Char.isDigit, rest.dropWhile Char.isDigit)
    | rest => ([], rest)
  if whole.isEmpty ∧ fraction.isEmpty then none
  else (readExponent? afterFraction).map fun exponent =>
    .ofDecimal negative (natOf (whole ++ fraction)) (exponent - fraction.length)

/-- A numeral, or `inf`, `infinity` or `nan` in any case, each after an optional sign. -/
def read? (text : List Char) : Option Binary64 :=
  let (negative, rest) := splitSign text
  let word := rest.map Char.toLower
  if word = ['i', 'n', 'f'] ∨ word = ['i', 'n', 'f', 'i', 'n', 'i', 't', 'y'] then
    some (.infinite negative)
  else if word = ['n', 'a', 'n'] then some .nan
  else readUnsigned? negative rest

end Decimal
end Polyphony
