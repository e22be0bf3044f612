import Polyphony.Proofs.Binary64.Rounding

/-! Finite numbers and infinities are ordered by their position, and every operation moves positions
monotonically, because rounding does. NaN has no position, so a number that is compared with
anything is not NaN. -/
namespace Polyphony.Binary64

variable {x y z : Binary64}

theorem le_iff : x ≤ y ↔ ∃ a b, x.position? = some a ∧ y.position? = some b ∧ a ≤ b := by
  change x.le y = true ↔ _
  unfold le
  split
  · next a b left right => simp [left, right]
  · next none =>
      refine iff_of_false (by simp) ?_
      rintro ⟨a, b, left, right, _⟩
      exact none a b left right

theorem lt_iff : x < y ↔ ∃ a b, x.position? = some a ∧ y.position? = some b ∧ a < b := by
  change x.lt y = true ↔ _
  unfold lt
  split
  · next a b left right => simp [left, right]
  · next none =>
      refine iff_of_false (by simp) ?_
      rintro ⟨a, b, left, right, _⟩
      exact none a b left right

theorem exists_position (number : x.isNaN = false) : ∃ a, x.position? = some a := by
  cases x with
  | nan => cases number
  | infinite negative => exact ⟨_, rfl⟩
  | finite negative units representable => exact ⟨_, rfl⟩

theorem isNaN_of_position {a : Int} (found : x.position? = some a) : x.isNaN = false := by
  cases x with
  | nan => cases found
  | infinite negative => rfl
  | finite negative units representable => rfl

theorem isNaN_of_isFinite (finite : x.isFinite) : x.isNaN = false := by
  cases x with
  | nan => cases finite
  | infinite negative => cases finite
  | finite negative units representable => rfl

theorem le_refl (number : x.isNaN = false) : x ≤ x := by
  obtain ⟨a, position⟩ := exists_position number
  exact le_iff.mpr ⟨a, a, position, position, Int.le_refl a⟩

theorem le_trans (first : x ≤ y) (second : y ≤ z) : x ≤ z := by
  obtain ⟨a, b, left, middle, first⟩ := le_iff.mp first
  obtain ⟨b', c, middle', right, second⟩ := le_iff.mp second
  rw [middle] at middle'
  cases middle'
  exact le_iff.mpr ⟨a, c, left, right, Int.le_trans first second⟩

theorem lt_of_lt_of_le (first : x < y) (second : y ≤ z) : x < z := by
  obtain ⟨a, b, left, middle, first⟩ := lt_iff.mp first
  obtain ⟨b', c, middle', right, second⟩ := le_iff.mp second
  rw [middle] at middle'
  cases middle'
  exact lt_iff.mpr ⟨a, c, left, right, Int.lt_of_lt_of_le first second⟩

theorem lt_of_le_of_lt (first : x ≤ y) (second : y < z) : x < z := by
  obtain ⟨a, b, left, middle, first⟩ := le_iff.mp first
  obtain ⟨b', c, middle', right, second⟩ := lt_iff.mp second
  rw [middle] at middle'
  cases middle'
  exact lt_iff.mpr ⟨a, c, left, right, Int.lt_of_le_of_lt first second⟩

theorem le_of_lt (strict : x < y) : x ≤ y := by
  obtain ⟨a, b, left, right, strict⟩ := lt_iff.mp strict
  exact le_iff.mpr ⟨a, b, left, right, Int.le_of_lt strict⟩

theorem le_of_not_lt (x_number : x.isNaN = false) (y_number : y.isNaN = false) (not : ¬ x < y) :
    y ≤ x := by
  obtain ⟨a, left⟩ := exists_position x_number
  obtain ⟨b, right⟩ := exists_position y_number
  refine le_iff.mpr ⟨b, a, right, left, Int.not_lt.mp fun strict => not ?_⟩
  exact lt_iff.mpr ⟨a, b, left, right, strict⟩

theorem not_lt_of_le (le : x ≤ y) : ¬ y < x := by
  intro strict
  obtain ⟨a, b, left, right, le⟩ := le_iff.mp le
  obtain ⟨b', a', right', left', strict⟩ := lt_iff.mp strict
  rw [left] at left'
  rw [right] at right'
  cases left'
  cases right'
  exact Int.not_lt.mpr le strict

theorem isNaN_right_of_le (le : x ≤ y) : y.isNaN = false := by
  obtain ⟨a, b, left, right, le⟩ := le_iff.mp le
  exact isNaN_of_position right

theorem isNaN_right_of_lt (strict : x < y) : y.isNaN = false := isNaN_right_of_le (le_of_lt strict)

theorem ofNat_eq (n : Nat) : (OfNat.ofNat n : Binary64) = ofNat n := by
  with_reducible_and_instances rfl

theorem ofNat_zero : (0 : Binary64) = zero false := by
  have rounds : roundUnits (0 * unitsPerOne) 1 = 0 := by
    rw [Nat.zero_mul, roundUnits_zero]
  have below : roundUnits (0 * unitsPerOne) 1 < unitLimit := by
    rw [rounds]
    exact unitLimit_pos
  rw [ofNat_eq, ofNat, ofRatio, dif_pos below]
  simp only [zero, rounds]

theorem position?_zero : (0 : Binary64).position? = some 0 := by
  rw [ofNat_zero]
  rfl

theorem nonneg_iff : 0 ≤ x ↔ ∃ a, x.position? = some a ∧ 0 ≤ a := by
  rw [le_iff, position?_zero]
  constructor
  · rintro ⟨_, b, ⟨⟩, right, le⟩
    exact ⟨b, right, le⟩
  · rintro ⟨b, right, le⟩
    exact ⟨0, b, rfl, right, le⟩

theorem pos_iff : 0 < x ↔ ∃ a, x.position? = some a ∧ 0 < a := by
  rw [lt_iff, position?_zero]
  constructor
  · rintro ⟨_, b, ⟨⟩, right, lt⟩
    exact ⟨b, right, lt⟩
  · rintro ⟨b, right, lt⟩
    exact ⟨0, b, rfl, right, lt⟩

/-- The magnitude of an infinity stands for all that is beyond the limit. -/
def clamp (units : Nat) : Nat := if units < unitLimit then units else unitLimit

theorem clamp_of_lt {units : Nat} (below : units < unitLimit) : clamp units = units :=
  if_pos below

theorem clamp_eq_of_clamp_lt {units : Nat} (below : clamp units < unitLimit) :
    clamp units = units := by
  unfold clamp at below ⊢
  split
  · rfl
  · next beyond =>
      rw [if_neg beyond] at below
      exact absurd below (Nat.lt_irrefl _)

theorem clamp_mono {m n : Nat} (le : m ≤ n) : clamp m ≤ clamp n := by
  unfold clamp
  split
  · split <;> omega
  · rw [if_neg (by omega)]

/-- Where the quotient of `num` by `den` stands once it is rounded. -/
def rounded (num : Int) (den : Nat) : Int :=
  signed (num < 0) (clamp (roundUnits num.natAbs den))

theorem rounded_of_nonneg {num : Int} (nonneg : 0 ≤ num) (den : Nat) :
    rounded num den = clamp (roundUnits num.natAbs den) := by
  rw [rounded, decide_eq_false (Int.not_lt.mpr nonneg)]
  rfl

theorem rounded_of_neg {num : Int} (negative : num < 0) (den : Nat) :
    rounded num den = -clamp (roundUnits num.natAbs den) := by
  rw [rounded, decide_eq_true negative]
  rfl

theorem rounded_mono {a b : Int} {den : Nat} (den_pos : 0 < den) (le : a ≤ b) :
    rounded a den ≤ rounded b den := by
  have magnitude : ∀ m n : Nat, m ≤ n →
      clamp (roundUnits m den) ≤ clamp (roundUnits n den) := fun m n le =>
    clamp_mono (roundUnits_mono den_pos den_pos (Nat.mul_le_mul_right den le))
  rcases Int.lt_or_le a 0 with a_neg | a_nonneg
  · rcases Int.lt_or_le b 0 with b_neg | b_nonneg
    · rw [rounded_of_neg a_neg, rounded_of_neg b_neg]
      have := magnitude b.natAbs a.natAbs (by omega)
      omega
    · rw [rounded_of_neg a_neg, rounded_of_nonneg b_nonneg]
      omega
  · rw [rounded_of_nonneg a_nonneg, rounded_of_nonneg (Int.le_trans a_nonneg le)]
    have := magnitude a.natAbs b.natAbs (by omega)
    omega

theorem rounded_zero (den : Nat) : rounded 0 den = 0 := by
  rw [rounded_of_nonneg (Int.le_refl 0), Int.natAbs_zero, roundUnits_zero,
    clamp_of_lt unitLimit_pos]
  rfl

theorem rounded_nonneg {a : Int} {den : Nat} (den_pos : 0 < den) (nonneg : 0 ≤ a) :
    0 ≤ rounded a den := by
  have mono := rounded_mono den_pos nonneg
  rwa [rounded_zero] at mono

/-- A whole number of units that is representable is not moved. -/
theorem rounded_exact {a : Int} (representable : Representable a.natAbs) : rounded a 1 = a := by
  have magnitude : clamp (roundUnits a.natAbs 1) = a.natAbs := by
    have exact := roundUnits_exact Nat.one_pos representable.2
    rw [Nat.mul_one] at exact
    rw [exact, clamp_of_lt representable.1]
  rcases Int.lt_or_le a 0 with negative | nonneg
  · rw [rounded_of_neg negative, magnitude]
    omega
  · rw [rounded_of_nonneg nonneg, magnitude]
    omega

theorem position?_ofRatio (negative : Bool) (num den : Nat) :
    (ofRatio negative num den).position? =
      some (signed negative (clamp (roundUnits num den))) := by
  unfold ofRatio clamp
  split <;> rfl

theorem natAbs_signed (negative : Bool) (units : Nat) : (signed negative units).natAbs = units := by
  cases negative with
  | false => rfl
  | true => exact Int.natAbs_neg units

/-- Finite numbers are those with a representable position. -/
theorem exists_position_of_isFinite (finite : x.isFinite) :
    ∃ a, x.position? = some a ∧ Representable a.natAbs := by
  cases x with
  | nan => cases finite
  | infinite negative => cases finite
  | finite negative units representable =>
      exact ⟨_, rfl, (natAbs_signed negative units).symm ▸ representable⟩

theorem isFinite_of_position {a : Int} (found : x.position? = some a)
    (below : a.natAbs < unitLimit) : x.isFinite := by
  cases x with
  | nan => cases found
  | infinite negative =>
      cases found
      rw [natAbs_signed] at below
      exact absurd below (Nat.lt_irrefl _)
  | finite negative units representable => rfl

theorem add_eq (x y : Binary64) : x + y = add x y := rfl

theorem mul_eq (x y : Binary64) : x * y = mul x y := rfl

theorem div_eq (x y : Binary64) : x / y = div x y := rfl

theorem position?_add {a b : Int} (x_finite : x.isFinite) (y_finite : y.isFinite)
    (left : x.position? = some a) (right : y.position? = some b) :
    (x + y).position? = some (rounded (a + b) 1) := by
  cases x with
  | nan => cases x_finite
  | infinite negative => cases x_finite
  | finite m u hu =>
      cases y with
      | nan => cases y_finite
      | infinite negative => cases y_finite
      | finite n v hv =>
          cases left
          cases right
          rw [add_eq, add]
          split
          · next cancel =>
              rw [cancel, rounded_zero]
              cases m && n <;> rfl
          · exact position?_ofRatio _ _ _

theorem signed_mul (m n : Bool) (u v : Nat) :
    signed m u * signed n v = signed (m != n) (u * v) := by
  cases m <;> cases n <;> simp [signed]

/-- The sign of a zero does not move it. -/
theorem rounded_signed (negative : Bool) (units den : Nat) :
    rounded (signed negative units) den = signed negative (clamp (roundUnits units den)) := by
  rcases Nat.eq_zero_or_pos units with rfl | positive
  · have none : signed negative 0 = 0 := by cases negative <;> rfl
    have stays : signed negative (clamp 0) = 0 := by
      rw [clamp_of_lt unitLimit_pos]
      cases negative <;> rfl
    rw [none, rounded_zero, roundUnits_zero, stays]
  · cases negative with
    | false => exact rounded_of_nonneg (Int.natCast_nonneg units) den
    | true =>
        have below : signed true units < 0 := by
          rw [signed, if_pos rfl]
          omega
        rw [rounded_of_neg below, natAbs_signed]
        rfl

theorem position?_mul {a b : Int} (x_finite : x.isFinite) (y_finite : y.isFinite)
    (left : x.position? = some a) (right : y.position? = some b) :
    (x * y).position? = some (rounded (a * b) unitsPerOne) := by
  cases x with
  | nan => cases x_finite
  | infinite negative => cases x_finite
  | finite m u hu =>
      cases y with
      | nan => cases y_finite
      | infinite negative => cases y_finite
      | finite n v hv =>
          cases left
          cases right
          rw [mul_eq, mul, position?_ofRatio, signed_mul, rounded_signed]

theorem unitsPerOne_pos : 0 < unitsPerOne := by
  unfold unitsPerOne
  generalize 1074 = n
  exact two_pow_pos n

theorem add_le_add_right (x_finite : x.isFinite) (y_finite : y.isFinite) (z_finite : z.isFinite)
    (le : x ≤ y) : x + z ≤ y + z := by
  obtain ⟨a, b, left, right, le⟩ := le_iff.mp le
  obtain ⟨c, offset, _⟩ := exists_position_of_isFinite z_finite
  refine le_iff.mpr ⟨_, _, position?_add x_finite z_finite left offset,
    position?_add y_finite z_finite right offset, ?_⟩
  exact rounded_mono Nat.one_pos (Int.add_le_add_right le c)

theorem mul_le_mul_right (x_finite : x.isFinite) (y_finite : y.isFinite) (z_finite : z.isFinite)
    (nonneg : 0 ≤ z) (le : x ≤ y) : x * z ≤ y * z := by
  obtain ⟨a, b, left, right, le⟩ := le_iff.mp le
  obtain ⟨c, factor, nonneg⟩ := nonneg_iff.mp nonneg
  refine le_iff.mpr ⟨_, _, position?_mul x_finite z_finite left factor,
    position?_mul y_finite z_finite right factor, ?_⟩
  exact rounded_mono unitsPerOne_pos (Int.mul_le_mul_of_nonneg_right le nonneg)

theorem add_nonneg (x_finite : x.isFinite) (y_finite : y.isFinite) (x_nonneg : 0 ≤ x)
    (y_nonneg : 0 ≤ y) : 0 ≤ x + y := by
  obtain ⟨a, left, x_nonneg⟩ := nonneg_iff.mp x_nonneg
  obtain ⟨b, right, y_nonneg⟩ := nonneg_iff.mp y_nonneg
  refine nonneg_iff.mpr ⟨_, position?_add x_finite y_finite left right, ?_⟩
  exact rounded_nonneg Nat.one_pos (Int.add_nonneg x_nonneg y_nonneg)

theorem mul_nonneg (x_finite : x.isFinite) (y_finite : y.isFinite) (x_nonneg : 0 ≤ x)
    (y_nonneg : 0 ≤ y) : 0 ≤ x * y := by
  obtain ⟨a, left, x_nonneg⟩ := nonneg_iff.mp x_nonneg
  obtain ⟨b, right, y_nonneg⟩ := nonneg_iff.mp y_nonneg
  refine nonneg_iff.mpr ⟨_, position?_mul x_finite y_finite left right, ?_⟩
  exact rounded_nonneg unitsPerOne_pos (Int.mul_nonneg x_nonneg y_nonneg)

/-- A sum is no smaller than its first term, because that term rounds to itself. -/
theorem le_add_of_nonneg (x_finite : x.isFinite) (y_finite : y.isFinite) (nonneg : 0 ≤ y) :
    x ≤ x + y := by
  obtain ⟨a, left, representable⟩ := exists_position_of_isFinite x_finite
  obtain ⟨b, right, nonneg⟩ := nonneg_iff.mp nonneg
  refine le_iff.mpr ⟨_, _, left, position?_add x_finite y_finite left right, ?_⟩
  calc a = rounded a 1 := (rounded_exact representable).symm
    _ ≤ rounded (a + b) 1 := rounded_mono Nat.one_pos (by omega)

theorem isFinite_of_add (finite : (x + y).isFinite) : x.isFinite ∧ y.isFinite := by
  cases x with
  | nan => cases y <;> cases finite
  | infinite m =>
      cases y with
      | nan => cases finite
      | infinite n => rw [add_eq, add] at finite; split at finite <;> cases finite
      | finite n v hv => cases finite
  | finite m u hu =>
      cases y with
      | nan => cases finite
      | infinite n => cases finite
      | finite n v hv => exact ⟨rfl, rfl⟩

theorem isFinite_of_div (finite : (x / y).isFinite) (y_finite : y.isFinite) : x.isFinite := by
  cases x with
  | nan => cases finite
  | infinite m =>
      cases y with
      | nan => cases finite
      | infinite n => cases y_finite
      | finite n v hv => cases finite
  | finite m u hu => rfl

theorem isFinite_of_le (nonneg : 0 ≤ x) (le : x ≤ y) (finite : y.isFinite) : x.isFinite := by
  obtain ⟨a, left, nonneg⟩ := nonneg_iff.mp nonneg
  obtain ⟨a', b, left', right, le⟩ := le_iff.mp le
  obtain ⟨b', right', representable⟩ := exists_position_of_isFinite finite
  rw [left] at left'
  rw [right] at right'
  cases left'
  cases right'
  have below := representable.1
  exact isFinite_of_position left (by omega)

theorem nonpos_of_not_pos (number : x.isNaN = false) (not : ¬ 0 < x) : x ≤ 0 :=
  le_of_not_lt (by rw [ofNat_zero]; rfl) number not

theorem isFinite_of_not_pos (nonneg : 0 ≤ x) (not : ¬ 0 < x) : x.isFinite := by
  obtain ⟨a, position, a_nonneg⟩ := nonneg_iff.mp nonneg
  have most : ¬ 0 < a := fun positive => not (pos_iff.mpr ⟨a, position, positive⟩)
  obtain rfl : a = 0 := Int.le_antisymm (Int.not_lt.mp most) a_nonneg
  exact isFinite_of_position position unitLimit_pos

theorem isFinite_zero (negative : Bool) : (zero negative).isFinite := rfl

theorem zero_nonneg (negative : Bool) : 0 ≤ zero negative :=
  nonneg_iff.mpr ⟨0, by cases negative <;> rfl, Int.le_refl 0⟩

theorem infinite_nonneg : 0 ≤ infinite false :=
  nonneg_iff.mpr ⟨_, rfl, Int.natCast_nonneg unitLimit⟩

theorem infinite_pos : 0 < infinite false :=
  pos_iff.mpr ⟨_, rfl, Int.natCast_pos.mpr unitLimit_pos⟩

theorem not_nonneg_infinite_true : ¬ 0 ≤ infinite true := by
  intro nonneg
  obtain ⟨a, position, nonneg⟩ := nonneg_iff.mp nonneg
  have below : signed true unitLimit < 0 := by
    rw [signed, if_pos rfl]
    exact Int.neg_neg_of_pos (Int.natCast_pos.mpr unitLimit_pos)
  rw [← Option.some.inj position] at nonneg
  exact Int.not_lt.mpr nonneg below

theorem one_lt_unitLimit : 1 < unitLimit := by
  have nonzero : limitExponent ≠ 0 := by decide
  unfold unitLimit
  generalize limitExponent = n at nonzero
  exact Nat.one_lt_two_pow nonzero

/-- A quotient of at least one unit does not vanish. -/
theorem ofRatio_pos {num den : Nat} (den_pos : 0 < den) (unit : den ≤ num) :
    0 < ofRatio false num den := by
  refine pos_iff.mpr ⟨_, position?_ofRatio false num den, Int.natCast_pos.mpr ?_⟩
  have mono := clamp_mono (one_le_roundUnits den_pos unit)
  rw [clamp_of_lt one_lt_unitLimit] at mono
  exact mono

theorem ofNat_pos {n : Nat} (positive : 0 < n) : 0 < ofNat n :=
  ofRatio_pos Nat.one_pos (Nat.mul_pos positive unitsPerOne_pos)

theorem ofInt_pos {n : Int} (positive : 0 < n) : 0 < ofInt n := by
  rw [ofInt, decide_eq_false (by omega)]
  exact ofRatio_pos Nat.one_pos (Nat.mul_pos (by omega) unitsPerOne_pos)

theorem twoPow_pos (n : Nat) : 0 < twoPow n := by
  unfold twoPow
  split
  · exact ofNat_pos (Nat.two_pow_pos n)
  · exact infinite_pos

theorem clamp_pos_iff {units : Nat} : 0 < clamp units ↔ 0 < units := by
  unfold clamp
  split
  · exact Iff.rfl
  · next beyond => exact iff_of_true unitLimit_pos (by have := unitLimit_pos; omega)

/-- The exact product of two numbers is more than half a unit, so it does not round to zero. -/
def ProductExceedsHalf (x y : Binary64) : Prop :=
  ∃ a ∈ x.position?, ∃ b ∈ y.position?, unitsPerOne < 2 * (a * b)

instance (x y : Binary64) : Decidable (ProductExceedsHalf x y) :=
  inferInstanceAs (Decidable (∃ _ ∈ _, _))

/-- A product of positive numbers vanishes when it is no more than half of the least one. -/
theorem mul_pos_iff (x_finite : x.isFinite) (y_finite : y.isFinite) (x_nonneg : 0 ≤ x)
    (y_nonneg : 0 ≤ y) : 0 < x * y ↔ ProductExceedsHalf x y := by
  obtain ⟨a, left, a_nonneg⟩ := nonneg_iff.mp x_nonneg
  obtain ⟨b, right, b_nonneg⟩ := nonneg_iff.mp y_nonneg
  have product := Int.mul_nonneg a_nonneg b_nonneg
  have exceeds : ProductExceedsHalf x y ↔ (unitsPerOne : Int) < 2 * (a * b) := by
    constructor
    · rintro ⟨_, left', _, right', more⟩
      obtain rfl := Option.some.inj (left.symm.trans left')
      obtain rfl := Option.some.inj (right.symm.trans right')
      exact more
    · intro more
      exact ⟨a, left, b, right, more⟩
  rw [exceeds, pos_iff]
  simp only [position?_mul x_finite y_finite left right, Option.some.injEq, exists_eq_left',
    rounded_of_nonneg product, Int.natCast_pos, clamp_pos_iff, roundUnits_pos_iff unitsPerOne_pos]
  omega

theorem position?_div {a b : Int} (x_finite : x.isFinite) (y_finite : y.isFinite)
    (left : x.position? = some a) (right : y.position? = some b) (b_pos : 0 < b) :
    (x / y).position? = some (rounded (a * unitsPerOne) b.natAbs) := by
  cases x with
  | nan => cases x_finite
  | infinite negative => cases x_finite
  | finite m u hu =>
      cases y with
      | nan => cases y_finite
      | infinite negative => cases y_finite
      | finite n v hv =>
          have positive : n = false ∧ v ≠ 0 := by
            cases right
            cases n with
            | false =>
                refine ⟨rfl, ?_⟩
                rintro rfl
                exact absurd b_pos (by decide)
            | true => rw [signed, if_pos rfl] at b_pos; omega
          obtain ⟨rfl, nonzero⟩ := positive
          cases left
          cases right
          have scaled : signed m u * unitsPerOne = signed m (u * unitsPerOne) := by
            have factor : (unitsPerOne : Int) = signed false unitsPerOne := rfl
            rw [factor, signed_mul, Bool.bne_false]
          rw [div_eq, div, if_neg nonzero, position?_ofRatio, Bool.bne_false, scaled,
            rounded_signed, natAbs_signed]

/-- A nonnegative number over a positive one is nonnegative, unless both are infinite. -/
theorem div_nonneg (x_nonneg : 0 ≤ x) (y_pos : 0 < y) (number : (x / y).isNaN = false) :
    0 ≤ x / y := by
  cases y with
  | nan => obtain ⟨b, position, _⟩ := pos_iff.mp y_pos; cases position
  | infinite n =>
      cases x with
      | nan => cases number
      | infinite m => cases number
      | finite m u hu => exact zero_nonneg (m != n)
  | finite n v hv =>
      obtain ⟨b, right, b_pos⟩ := pos_iff.mp y_pos
      cases x with
      | nan => cases number
      | infinite m =>
          cases m with
          | true => exact absurd x_nonneg not_nonneg_infinite_true
          | false =>
              cases n with
              | false => exact infinite_nonneg
              | true =>
                  cases right
                  rw [signed, if_pos rfl] at b_pos
                  omega
      | finite m u hu =>
          obtain ⟨a, left, a_nonneg⟩ := nonneg_iff.mp x_nonneg
          refine nonneg_iff.mpr ⟨_, position?_div rfl rfl left right b_pos, ?_⟩
          refine rounded_nonneg (Int.natAbs_pos.mpr (by omega)) ?_
          exact Int.mul_nonneg a_nonneg (Int.natCast_nonneg _)

theorem isNaN_div (x_finite : x.isFinite) (y_pos : 0 < y) : (x / y).isNaN = false := by
  cases y with
  | nan => obtain ⟨b, position, _⟩ := pos_iff.mp y_pos; cases position
  | infinite n =>
      cases x with
      | nan => cases x_finite
      | infinite m => cases x_finite
      | finite m u hu => rfl
  | finite n v hv =>
      obtain ⟨a, left, _⟩ := exists_position_of_isFinite x_finite
      obtain ⟨b, right, b_pos⟩ := pos_iff.mp y_pos
      exact isNaN_of_position (position?_div x_finite rfl left right b_pos)

theorem max_eq_or (x y : Binary64) : max x y = x ∨ max x y = y := by
  unfold max
  split
  · exact .inl rfl
  · split
    · exact .inl rfl
    · exact .inr rfl

theorem min_eq_or (x y : Binary64) : min x y = x ∨ min x y = y := by
  unfold min
  split
  · exact .inl rfl
  · split
    · exact .inl rfl
    · exact .inr rfl

theorem le_max_left (y : Binary64) (number : x.isNaN = false) : x ≤ max x y := by
  unfold max
  split
  · exact le_refl number
  · next y_number =>
      split
      · exact le_refl number
      · next notBelow => exact le_of_not_lt (by simpa using y_number) number notBelow

theorem le_max_right (x : Binary64) (number : y.isNaN = false) : y ≤ max x y := by
  unfold max
  rw [number, if_neg Bool.false_ne_true]
  by_cases below : y < x
  · rw [if_pos below]
    exact le_of_lt below
  · rw [if_neg below]
    exact le_refl number

theorem max_le_max {x' y' : Binary64} (left : x ≤ x') (right : y ≤ y') : max x y ≤ max x' y' := by
  rcases max_eq_or x y with same | same
  · rw [same]
    exact le_trans left (le_max_left y' (isNaN_right_of_le left))
  · rw [same]
    exact le_trans right (le_max_right x' (isNaN_right_of_le right))

end Polyphony.Binary64
