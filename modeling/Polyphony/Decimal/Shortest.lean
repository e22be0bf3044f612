import Polyphony.Binary64.Basic

/-!
The shortest decimal that reads back as a given positive binary64 number.

The reals that round to a number form an interval around it. The search goes from one digit up to
seventeen; on each grid only the two neighbours of the number can be the nearest point inside.
-/
namespace Polyphony.Decimal

open Binary64 (unitsPerOne)

/-- `digits * 10^exponent`. -/
structure Numeral where
  digits : Nat
  exponent : Int
  deriving DecidableEq, Repr

/-- What is taken of two equally near candidates. -/
inductive Tie where
  | toEven
  | up
  deriving DecidableEq

/-- The end below which reals round to a smaller number, in quarters of a unit. Just above a power
of two the gap downwards is half as wide. -/
def lowerEnd (units : Nat) : Nat :=
  let s := units.log2 - 52
  if s ≠ 0 ∧ units = Nat.pow 2 (52 + s) then 4 * units - Nat.pow 2 s
  else 4 * units - 2 * Nat.pow 2 s

/-- The end above which reals round to a larger number, in quarters of a unit. -/
def upperEnd (units : Nat) : Nat := 4 * units + 2 * Nat.pow 2 (units.log2 - 52)

/-- The ends themselves round to the number exactly when its significand is even. -/
def endsIncluded (units : Nat) : Bool := units / Nat.pow 2 (units.log2 - 52) % 2 = 0

/-- Whether a decimal lies among the reals that round to `units`. -/
def Numeral.readsBack (d : Numeral) (units : Nat) : Bool :=
  let point := 4 * d.digits * Nat.pow 10 d.exponent.toNat * unitsPerOne
  let low := lowerEnd units * Nat.pow 10 (-d.exponent).toNat
  let high := upperEnd units * Nat.pow 10 (-d.exponent).toNat
  if endsIncluded units then low ≤ point ∧ point ≤ high else low < point ∧ point < high

/-- The least `k` with `units` below `10^k`, for a positive number of units. -/
def scale (units : Nat) : Int :=
  if unitsPerOne ≤ units then (Nat.toDigits 10 (units / unitsPerOne)).length
  else 1 - (Nat.toDigits 10 ((unitsPerOne - 1) / units)).length

/-- The nearer of the two neighbours on the grid of `10^exponent` that read back. -/
def onGrid? (tie : Tie) (units : Nat) (exponent : Int) : Option Numeral :=
  let num := units * Nat.pow 10 (-exponent).toNat
  let den := unitsPerOne * Nat.pow 10 exponent.toNat
  let below : Numeral := ⟨num / den, exponent⟩
  let above : Numeral := ⟨num / den + 1, exponent⟩
  match below.readsBack units, above.readsBack units with
  | false, false => none
  | true, false => some below
  | false, true => some above
  | true, true =>
    let twice := 2 * (num % den)
    if twice < den then some below
    else if den < twice then some above
    else match tie with
      | .up => some above
      | .toEven => some (if below.digits % 2 = 0 then below else above)

/-- Trailing zeros of the digits move into the exponent. -/
def Numeral.strip (d : Numeral) : Numeral :=
  if h : d.digits ≠ 0 ∧ d.digits % 10 = 0 then
    Numeral.strip ⟨d.digits / 10, d.exponent + 1⟩
  else d
termination_by d.digits
decreasing_by omega

/-- The exact value: a unit is `5^1074 * 10^-1074`. -/
def exactly (units : Nat) : Numeral := ⟨units * Nat.pow 5 1074, -1074⟩

/-- The decimal with the fewest digits that reads back, and of those the nearest. -/
def shortest (tie : Tie) (units : Nat) : Numeral :=
  let k := scale units
  let hit := (List.range 17).findSome? fun n => onGrid? tie units (k - (n + 1 : Nat))
  (hit.getD (exactly units)).strip

end Polyphony.Decimal
