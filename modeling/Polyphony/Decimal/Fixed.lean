import Polyphony.Decimal.Style

/-! A number with a fixed count of decimal places: its exact value rounded once, a half to the
even neighbour. -/
namespace Polyphony.Decimal

/-- The nearest multiple of `10^-places`, as a count of them. -/
def roundedUnits (places units : Nat) : Nat :=
  roundDiv (units * Nat.pow 10 places) Binary64.unitsPerOne

/-- A count of `10^-places` with the point in its place; at least one digit stands before it. -/
def layFixed (places n : Nat) : List Char :=
  let ds := Nat.toDigits 10 n
  let padded := zeros (places + 1 - ds.length) ++ ds
  padded.take (padded.length - places) ++ '.' :: padded.drop (padded.length - places)

def fixed (places : Nat) : Binary64 → String
  | .nan => message.nan
  | .infinite negative => sign negative ++ message.infinity
  | .finite negative units _ =>
    sign negative ++ String.ofList (layFixed places (roundedUnits places units))

end Polyphony.Decimal
