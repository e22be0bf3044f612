import Polyphony.Proofs.Binary64.Sign

/-! A product grows with its factor and a quotient shrinks as its divisor grows, also where the
factor or the divisor is infinite. Powers of two are exact until they leave the range. -/
namespace Polyphony.Binary64

variable {x y z : Binary64}

theorem natAbs_le_of_position {a : Int} (stands : x.position? = some a) : a.natAbs ≤ unitLimit := by
  cases x with
  | nan => cases stands
  | infinite negative =>
      cases stands
      rw [natAbs_signed]
  | finite negative units representable =>
      cases stands
      rw [natAbs_signed]
      exact Nat.le_of_lt representable.1

theorem le_infinite (number : x.isNaN = false) : x ≤ infinite false := by
  obtain ⟨a, stands⟩ := exists_position number
  have most := natAbs_le_of_position stands
  refine le_iff.mpr ⟨a, _, stands, rfl, ?_⟩
  rw [signed, if_neg Bool.false_ne_true]
  omega

theorem eq_infinite_of_pos (positive : 0 < x) (endless : ¬ x.isFinite) : x = infinite false := by
  obtain ⟨number, plus⟩ := unsigned_of_pos positive
  cases x with
  | nan => cases number
  | infinite negative => cases plus; rfl
  | finite negative units representable => exact absurd rfl endless

theorem div_infinite (finite : x.isFinite) (unsigned : Unsigned x) :
    x / infinite false = zero false := by
  have plus := unsigned.plus
  cases x with
  | nan => cases finite
  | infinite negative => cases finite
  | finite negative units representable => cases plus; rfl

/-- A product with a larger factor is no smaller. -/
theorem mul_le_mul_left (finite : x.isFinite) (x_pos : 0 < x) (y_pos : 0 < y) (le : y ≤ z) :
    x * y ≤ x * z := by
  by_cases z_finite : z.isFinite
  · have y_finite := isFinite_of_le (le_of_lt y_pos) le z_finite
    obtain ⟨a, left, a_pos⟩ := pos_iff.mp x_pos
    obtain ⟨b, c, middle, right, le⟩ := le_iff.mp le
    refine le_iff.mpr ⟨_, _, position?_mul finite y_finite left middle,
      position?_mul finite z_finite left right, ?_⟩
    exact rounded_mono unitsPerOne_pos (Int.mul_le_mul_of_nonneg_left le (Int.le_of_lt a_pos))
  · rw [eq_infinite_of_pos (lt_of_lt_of_le y_pos le) z_finite, mul_infinite finite x_pos]
    exact le_infinite (unsigned_mul_of_pos finite x_pos y_pos).number

/-- A quotient with a larger divisor is no larger. -/
theorem div_le_div_left (finite : x.isFinite) (unsigned : Unsigned x) (y_pos : 0 < y)
    (le : y ≤ z) : x / z ≤ x / y := by
  by_cases z_finite : z.isFinite
  · have y_finite := isFinite_of_le (le_of_lt y_pos) le z_finite
    obtain ⟨a, left, a_nonneg⟩ := nonneg_iff.mp unsigned.nonneg
    obtain ⟨b, middle, b_pos⟩ := pos_iff.mp y_pos
    obtain ⟨b', c, middle', right, le⟩ := le_iff.mp le
    obtain rfl := Option.some.inj (middle.symm.trans middle')
    refine le_iff.mpr ⟨_, _, position?_div finite z_finite left right (Int.lt_of_lt_of_le b_pos le),
      position?_div finite y_finite left middle b_pos, ?_⟩
    have num_nonneg : 0 ≤ a * (unitsPerOne : Int) :=
      Int.mul_nonneg a_nonneg (Int.natCast_nonneg unitsPerOne)
    rw [rounded_of_nonneg num_nonneg, rounded_of_nonneg num_nonneg]
    refine Int.ofNat_le.mpr (clamp_mono (roundUnits_mono (by omega) (by omega) ?_))
    exact Nat.mul_le_mul_left _ (by omega)
  · rw [eq_infinite_of_pos (lt_of_lt_of_le y_pos le) z_finite, div_infinite finite unsigned,
      ← ofNat_zero]
    exact div_nonneg unsigned.nonneg y_pos (isNaN_div finite y_pos)

theorem representable_two_pow {n : Nat} (below : n < limitExponent) :
    Representable (Nat.pow 2 n) := by
  constructor
  · unfold unitLimit
    generalize limitExponent = limit at below
    exact Nat.pow_lt_pow_right Nat.one_lt_two below
  · rw [Nat.pow_eq, Nat.pow_eq, Nat.log2_two_pow]
    exact Nat.pow_dvd_pow 2 (Nat.sub_le n 52)

theorem position?_ofNat {n : Nat} (representable : Representable (n * unitsPerOne)) :
    (ofNat n).position? = some ((n * unitsPerOne : Nat) : Int) := by
  have exact := roundUnits_exact Nat.one_pos representable.2
  rw [Nat.mul_one] at exact
  rw [ofNat, position?_ofRatio, exact, clamp_of_lt representable.1]
  rfl

/-- As a number of units a power of two is a power of two. -/
theorem two_pow_mul_unitsPerOne (n : Nat) :
    Nat.pow 2 n * unitsPerOne = Nat.pow 2 (n + 1074) := by
  unfold unitsPerOne
  generalize 1074 = unit
  exact (Nat.pow_add 2 n unit).symm

theorem position?_twoPow {n : Nat} (below : n < 1024) :
    (twoPow n).position? = some ((Nat.pow 2 n * unitsPerOne : Nat) : Int) := by
  rw [twoPow, if_pos below]
  apply position?_ofNat
  rw [two_pow_mul_unitsPerOne]
  exact representable_two_pow (by unfold limitExponent; omega)

theorem isFinite_twoPow {n : Nat} (below : n < 1024) : (twoPow n).isFinite := by
  refine isFinite_of_position (position?_twoPow below) ?_
  rw [Int.natAbs_natCast, two_pow_mul_unitsPerOne]
  exact (representable_two_pow (by unfold limitExponent; omega)).1

theorem twoPow_mono {m n : Nat} (le : m ≤ n) : twoPow m ≤ twoPow n := by
  rcases Nat.lt_or_ge n 1024 with below | beyond
  · refine le_iff.mpr ⟨_, _, position?_twoPow (Nat.lt_of_le_of_lt le below),
      position?_twoPow below, ?_⟩
    exact Int.ofNat_le.mpr (Nat.mul_le_mul_right _ (Nat.pow_le_pow_right Nat.two_pos le))
  · rw [twoPow, twoPow, if_neg (Nat.not_lt_of_le beyond)]
    exact le_infinite (unsigned_of_pos (twoPow_pos m)).number

theorem twoPow_zero : twoPow 0 = 1 := by
  rw [twoPow, if_pos (by omega), ofNat_eq]

theorem ofInt_one : ofInt 1 = 1 := by
  rw [ofNat_eq, ofInt, ofNat]
  generalize unitsPerOne = unit
  rfl

theorem ofInt_mono {m n : Int} (nonneg : 0 ≤ m) (le : m ≤ n) : ofInt m ≤ ofInt n := by
  rw [ofInt, ofInt, decide_eq_false (Int.not_lt.mpr nonneg), decide_eq_false (by omega)]
  refine le_iff.mpr ⟨_, _, position?_ofRatio _ _ _, position?_ofRatio _ _ _, ?_⟩
  refine Int.ofNat_le.mpr (clamp_mono (roundUnits_mono Nat.one_pos Nat.one_pos ?_))
  exact Nat.mul_le_mul_right _ (Nat.mul_le_mul_right _ (by omega))

theorem position?_one : (1 : Binary64).position? = some (unitsPerOne : Int) := by
  rw [← twoPow_zero, position?_twoPow (by omega), Nat.pow_eq, Nat.pow_zero, Nat.one_mul]

theorem one_pos : 0 < (1 : Binary64) := by
  rw [← twoPow_zero]
  exact twoPow_pos 0

theorem isFinite_one : (1 : Binary64).isFinite := by
  rw [← twoPow_zero]
  exact isFinite_twoPow (by omega)

theorem rounded_mul_unitsPerOne {a : Int} (nonneg : 0 ≤ a)
    (representable : Representable a.natAbs) :
    rounded (a * unitsPerOne) unitsPerOne = a := by
  have num_nonneg : 0 ≤ a * (unitsPerOne : Int) :=
    Int.mul_nonneg nonneg (Int.natCast_nonneg unitsPerOne)
  rw [rounded_of_nonneg num_nonneg, Int.natAbs_mul, Int.natAbs_natCast,
    roundUnits_exact unitsPerOne_pos representable.2, clamp_of_lt representable.1]
  omega

theorem Unsigned.exists_units (unsigned : Unsigned x) (finite : x.isFinite) :
    ∃ a, x.position? = some a ∧ 0 ≤ a ∧ Representable a.natAbs := by
  obtain ⟨a, stands, nonneg⟩ := nonneg_iff.mp unsigned.nonneg
  obtain ⟨_, found, representable⟩ := exists_position_of_isFinite finite
  obtain rfl := Option.some.inj (stands.symm.trans found)
  exact ⟨a, stands, nonneg, representable⟩

theorem Unsigned.mul_one (unsigned : Unsigned x) (finite : x.isFinite) : x * 1 = x := by
  obtain ⟨a, stands, nonneg, representable⟩ := unsigned.exists_units finite
  have product := position?_mul finite isFinite_one stands position?_one
  rw [rounded_mul_unitsPerOne nonneg representable] at product
  exact (unsigned.mul (unsigned_of_pos one_pos) finite isFinite_one).eq_of_position unsigned
    product stands

theorem Unsigned.div_one (unsigned : Unsigned x) (finite : x.isFinite) : x / 1 = x := by
  obtain ⟨a, stands, nonneg, representable⟩ := unsigned.exists_units finite
  have quotient := position?_div finite isFinite_one stands position?_one
    (Int.natCast_pos.mpr unitsPerOne_pos)
  rw [Int.natAbs_natCast, rounded_mul_unitsPerOne nonneg representable] at quotient
  exact (unsigned.div (unsigned_of_pos one_pos) (isNaN_div finite one_pos)).eq_of_position unsigned
    quotient stands

end Polyphony.Binary64
