/-! Every finite value of the binary64 format is a whole number of units of `2^-1074`, so a finite
number is held as a sign and that natural number. Each operation computes the exact result as a
quotient of naturals and rounds it once, to nearest with ties to even: the arithmetic is correctly
rounded by definition, and comparison is comparison of integers. -/
namespace Polyphony

/-- The quotient of `num` by `den`, rounded to the nearest natural; a half goes to the even one. -/
def roundDiv (num den : Nat) : Nat :=
  let q := num / den
  let r := num % den
  if 2 * r < den then q else if den < 2 * r then q + 1 else q + q % 2

theorem roundDiv_le (num den : Nat) : roundDiv num den ≤ num / den + 1 := by
  unfold roundDiv
  dsimp only
  split
  · omega
  · split <;> omega

theorem le_roundDiv (num den : Nat) : num / den ≤ roundDiv num den := by
  unfold roundDiv
  dsimp only
  split
  · omega
  · split <;> omega

namespace Binary64

/-- The unit is `2^-1074`, the least positive binary64 number. -/
def unitsPerOne : Nat := Nat.pow 2 1074

/-- The unit limit as a power of two; it stands for `2^1024`. -/
def limitExponent : Nat := 2098

/-- Every finite magnitude lies below this many units. -/
def unitLimit : Nat := Nat.pow 2 limitExponent

/-- At most 53 significant bits, and below the limit. -/
def Representable (units : Nat) : Prop :=
  units < unitLimit ∧ Nat.pow 2 (units.log2 - 52) ∣ units

instance (units : Nat) : Decidable (Representable units) :=
  inferInstanceAs (Decidable (_ ∧ _))

/-- The spacing of 53-bit numbers around `num / den`. -/
def spacing (num den : Nat) : Nat := Nat.pow 2 ((num / den).log2 - 52)

/-- The quotient `num / den` rounded to 53 significant bits, and to whole units. -/
def roundUnits (num den : Nat) : Nat :=
  roundDiv num (den * spacing num den) * spacing num den

theorem significand_le (num den : Nat) : roundDiv num (den * spacing num den) ≤ Nat.pow 2 53 := by
  refine Nat.le_trans (roundDiv_le _ _) ?_
  rw [← Nat.div_div_eq_div_mul, Nat.pow_eq]
  have floor_lt : num / den / spacing num den < 2 ^ 53 := by
    rw [spacing, Nat.pow_eq]
    refine Nat.div_lt_of_lt_mul ?_
    rw [← Nat.pow_add]
    refine Nat.lt_of_lt_of_le Nat.lt_log2_self ?_
    exact Nat.pow_le_pow_right (by decide) (by omega)
  omega

theorem dvd_of_significand_le {m s : Nat} (hm : m ≤ Nat.pow 2 53) :
    Nat.pow 2 ((m * Nat.pow 2 s).log2 - 52) ∣ m * Nat.pow 2 s := by
  simp only [Nat.pow_eq] at hm ⊢
  rcases Nat.eq_zero_or_pos m with rfl | positive
  · simp
  rcases Nat.lt_or_ge m (2 ^ 53) with small | large
  · refine Nat.dvd_trans ?_ (Nat.dvd_mul_left (2 ^ s) m)
    refine Nat.pow_dvd_pow 2 ?_
    have bound : (m * 2 ^ s).log2 < 53 + s := by
      refine (Nat.log2_lt (Nat.ne_of_gt (Nat.mul_pos positive (Nat.two_pow_pos s)))).2 ?_
      rw [Nat.pow_add]
      exact Nat.mul_lt_mul_of_pos_right small (Nat.two_pow_pos s)
    omega
  · obtain rfl : m = 2 ^ 53 := Nat.le_antisymm hm large
    rw [← Nat.pow_add, Nat.log2_two_pow]
    exact Nat.pow_dvd_pow 2 (by omega)

theorem representable_roundUnits {num den : Nat} (h : roundUnits num den < unitLimit) :
    Representable (roundUnits num den) :=
  ⟨h, dvd_of_significand_le (significand_le num den)⟩

theorem two_pow_pos (n : Nat) : 0 < Nat.pow 2 n := Nat.two_pow_pos n

theorem two_pow_le_unitLimit {n : Nat} (below : n ≤ limitExponent) : Nat.pow 2 n ≤ unitLimit := by
  unfold unitLimit
  generalize limitExponent = limit at below
  exact Nat.pow_le_pow_right (by decide) below

theorem unitLimit_pos : 0 < unitLimit :=
  Nat.lt_of_lt_of_le (two_pow_pos 0) (two_pow_le_unitLimit (Nat.zero_le _))

theorem representable_zero : Representable 0 := ⟨unitLimit_pos, Nat.dvd_zero _⟩

end Binary64

/-- A number of the binary64 format. There is one NaN; zeros and infinities carry a sign. -/
inductive Binary64 where
  | nan
  | infinite (negative : Bool)
  | finite (negative : Bool) (units : Nat) (representable : Binary64.Representable units)
  deriving DecidableEq

namespace Binary64

def zero (negative : Bool) : Binary64 := .finite negative 0 representable_zero

/-- The binary64 number nearest to `num / den` units; beyond the limit it is infinite. -/
def ofRatio (negative : Bool) (num den : Nat) : Binary64 :=
  if h : roundUnits num den < unitLimit then
    .finite negative (roundUnits num den) (representable_roundUnits h)
  else .infinite negative

def ofNat (n : Nat) : Binary64 := ofRatio false (n * unitsPerOne) 1

def ofInt (n : Int) : Binary64 := ofRatio (n < 0) (n.natAbs * unitsPerOne) 1

instance (n : Nat) : OfNat Binary64 n := ⟨ofNat n⟩

instance : Inhabited Binary64 := ⟨zero false⟩

def isNaN : Binary64 → Bool
  | .nan => true
  | _ => false

def isFinite : Binary64 → Bool
  | .finite .. => true
  | _ => false

def isNegative : Binary64 → Bool
  | .nan => false
  | .infinite negative => negative
  | .finite negative _ _ => negative

def signed (negative : Bool) (units : Nat) : Int := if negative then -units else units

/-- Where a number stands on the line, in units; an infinity stands just past the largest finite
number, and NaN nowhere. -/
def position? : Binary64 → Option Int
  | .nan => none
  | .infinite negative => some (signed negative unitLimit)
  | .finite negative units _ => some (signed negative units)

/-- False when either side is NaN. The two zeros are equal. -/
def lt (x y : Binary64) : Bool :=
  match x.position?, y.position? with
  | some a, some b => a < b
  | _, _ => false

/-- False when either side is NaN. -/
def le (x y : Binary64) : Bool :=
  match x.position?, y.position? with
  | some a, some b => a ≤ b
  | _, _ => false

instance : LT Binary64 := ⟨fun x y => x.lt y⟩
instance : LE Binary64 := ⟨fun x y => x.le y⟩
instance (x y : Binary64) : Decidable (x < y) := inferInstanceAs (Decidable (x.lt y = true))
instance (x y : Binary64) : Decidable (x ≤ y) := inferInstanceAs (Decidable (x.le y = true))

/-- A sum of zero is negative only when both terms are. -/
def add : Binary64 → Binary64 → Binary64
  | .finite m a _, .finite n b _ =>
    let sum := signed m a + signed n b
    if sum = 0 then zero (m && n) else ofRatio (sum < 0) sum.natAbs 1
  | .infinite m, .infinite n => if m = n then .infinite m else .nan
  | .infinite m, .finite .. => .infinite m
  | .finite .., .infinite n => .infinite n
  | .nan, _ => .nan
  | _, .nan => .nan

def mul : Binary64 → Binary64 → Binary64
  | .finite m a _, .finite n b _ => ofRatio (m != n) (a * b) unitsPerOne
  | .infinite m, .infinite n => .infinite (m != n)
  | .infinite m, .finite n b _ => if b = 0 then .nan else .infinite (m != n)
  | .finite m a _, .infinite n => if a = 0 then .nan else .infinite (m != n)
  | .nan, _ => .nan
  | _, .nan => .nan

def div : Binary64 → Binary64 → Binary64
  | .finite m a _, .finite n b _ =>
    if b = 0 then if a = 0 then .nan else .infinite (m != n)
    else ofRatio (m != n) (a * unitsPerOne) b
  | .infinite _, .infinite _ => .nan
  | .infinite m, .finite n _ _ => .infinite (m != n)
  | .finite m _ _, .infinite n => zero (m != n)
  | .nan, _ => .nan
  | _, .nan => .nan

instance : Add Binary64 := ⟨add⟩
instance : Mul Binary64 := ⟨mul⟩
instance : Div Binary64 := ⟨div⟩

/-- The larger number. A NaN gives way to the other side, and of two zeros the second is taken. -/
def max (x y : Binary64) : Binary64 :=
  if y.isNaN then x else if y < x then x else y

/-- The smaller number. A NaN gives way to the other side, and of two zeros the second is taken. -/
def min (x y : Binary64) : Binary64 :=
  if y.isNaN then x else if x < y then x else y

/-- `2^n`, infinite from `2^1024` on. -/
def twoPow (n : Nat) : Binary64 := if n < 1024 then ofNat (Nat.pow 2 n) else .infinite false

end Binary64
end Polyphony
