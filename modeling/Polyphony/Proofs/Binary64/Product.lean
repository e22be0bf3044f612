import Polyphony.Proofs.Binary64.Factor

/-! A number that is multiplied by finite factors one after the other stays a number unless it
overflows and is then multiplied by zero. A number that is no larger overflows no sooner. -/
namespace Polyphony.Binary64

variable {x y z : Binary64} {factors : List Binary64}

theorem isFinite_of_mul (finite : (x * y).isFinite) : x.isFinite ∧ y.isFinite := by
  cases x with
  | nan => cases y <;> cases finite
  | infinite m =>
      cases y with
      | nan => cases finite
      | infinite n => cases finite
      | finite n v hv => rw [mul_eq, mul] at finite; split at finite <;> cases finite
  | finite m u hu =>
      cases y with
      | nan => cases finite
      | infinite n => rw [mul_eq, mul] at finite; split at finite <;> cases finite
      | finite n v hv => exact ⟨rfl, rfl⟩

theorem isNaN_ofRatio (negative : Bool) (num den : Nat) :
    (ofRatio negative num den).isNaN = false := by
  unfold ofRatio
  split <;> rfl

theorem eq_nan_of_isNaN (nan : x.isNaN = true) : x = .nan := by
  cases x with
  | nan => rfl
  | infinite m => cases nan
  | finite m u hu => cases nan

theorem nan_mul (y : Binary64) : nan * y = nan := by
  cases y <;> rfl

/-- Among numbers only an infinity and zero have no product. -/
theorem isNaN_mul_iff (number : x.isNaN = false) (finite : y.isFinite) :
    (x * y).isNaN = true ↔ (∃ m, x = infinite m) ∧ ∃ n, y = zero n := by
  cases y with
  | nan => cases finite
  | infinite n => cases finite
  | finite n v hv =>
      cases x with
      | nan => cases number
      | infinite m =>
          rw [mul_eq, mul]
          split
          · next none =>
              subst none
              exact iff_of_true rfl ⟨⟨m, rfl⟩, n, rfl⟩
          · next some =>
              refine iff_of_false Bool.false_ne_true ?_
              rintro ⟨_, _, ⟨⟩⟩
              exact some rfl
      | finite m u hu =>
          have number := isNaN_ofRatio (m != n) (u * v) unitsPerOne
          refine iff_of_false ?_ ?_
          · rw [mul_eq, mul, number]
            exact Bool.false_ne_true
          · rintro ⟨⟨_, ⟨⟩⟩, _⟩

theorem infinite_mul {m : Bool} (finite : y.isFinite) (number : (infinite m * y).isNaN = false) :
    ∃ n, infinite m * y = infinite n := by
  cases y with
  | nan => cases finite
  | infinite n => cases finite
  | finite n v hv =>
      rw [mul_eq, mul] at number ⊢
      split at number
      · cases number
      · next nonzero => exact ⟨m != n, if_neg nonzero⟩

def product (x : Binary64) (factors : List Binary64) : Binary64 := factors.foldl (· * ·) x

theorem product_cons (x factor : Binary64) (factors : List Binary64) :
    product x (factor :: factors) = product (x * factor) factors := rfl

theorem product_nan (factors : List Binary64) : product nan factors = nan := by
  induction factors with
  | nil => rfl
  | cons factor factors ih => rw [product_cons, nan_mul, ih]

/-- Some of the factors lead out of range, and the next one is zero. -/
def Lost (x : Binary64) (factors : List Binary64) : Prop :=
  ∃ before m n after, factors = before ++ zero n :: after ∧ product x before = infinite m

theorem lost_cons {factor : Binary64} : Lost x (factor :: factors) ↔
    ((∃ m, x = infinite m) ∧ ∃ n, factor = zero n) ∨ Lost (x * factor) factors := by
  constructor
  · rintro ⟨before, m, n, after, same, endless⟩
    cases before with
    | nil =>
        obtain ⟨rfl, rfl⟩ := List.cons.inj same
        exact .inl ⟨⟨m, endless⟩, n, rfl⟩
    | cons first before =>
        obtain ⟨rfl, rfl⟩ := List.cons.inj same
        exact .inr ⟨before, m, n, after, rfl, endless⟩
  · rintro (⟨⟨m, rfl⟩, n, rfl⟩ | ⟨before, m, n, after, rfl, endless⟩)
    · exact ⟨[], m, n, factors, rfl, rfl⟩
    · exact ⟨factor :: before, m, n, after, rfl, endless⟩

theorem isNaN_product_iff (number : x.isNaN = false)
    (finite : ∀ factor ∈ factors, factor.isFinite) :
    (product x factors).isNaN = true ↔ Lost x factors := by
  induction factors generalizing x with
  | nil =>
      refine iff_of_false (by rw [product, List.foldl_nil, number]; exact Bool.false_ne_true) ?_
      rintro ⟨before, m, n, after, none, _⟩
      exact absurd none (by simp)
  | cons factor factors ih =>
      obtain ⟨first, rest⟩ := List.forall_mem_cons.mp finite
      rw [product_cons, lost_cons, ← isNaN_mul_iff number first]
      cases nan : (x * factor).isNaN with
      | false => rw [ih nan rest, or_iff_right Bool.false_ne_true]
      | true =>
          rw [eq_nan_of_isNaN nan, product_nan]
          exact iff_of_true rfl (.inl rfl)

/-- The first number is no larger in magnitude than the second, if the second is one. -/
def Bounded (x y : Binary64) : Prop :=
  y.isNaN = true ∨ ∃ a b, x.position? = some a ∧ y.position? = some b ∧ a.natAbs ≤ b.natAbs

theorem bounded_of_le (nonneg : 0 ≤ x) (le : x ≤ y) : Bounded x y := by
  obtain ⟨a, stands, nonneg⟩ := nonneg_iff.mp nonneg
  obtain ⟨a', b, same, right, le⟩ := le_iff.mp le
  obtain rfl := Option.some.inj (stands.symm.trans same)
  exact .inr ⟨a, b, stands, right, by omega⟩

theorem Bounded.isNaN (bounded : Bounded x y) (nan : x.isNaN = true) : y.isNaN = true := by
  rcases bounded with none | ⟨a, b, stands, _, _⟩
  · exact none
  · rw [isNaN_of_position stands] at nan
    cases nan

theorem natAbs_rounded_mono {a b : Int} {den : Nat} (den_pos : 0 < den) (le : a.natAbs ≤ b.natAbs) :
    (rounded a den).natAbs ≤ (rounded b den).natAbs := by
  rw [rounded, rounded, natAbs_signed, natAbs_signed]
  exact clamp_mono (roundUnits_mono den_pos den_pos (Nat.mul_le_mul_right den le))

theorem bounded_infinite (number : x.isNaN = false) (negative : Bool) :
    Bounded x (infinite negative) := by
  obtain ⟨a, stands⟩ := exists_position number
  refine .inr ⟨a, _, stands, rfl, ?_⟩
  rw [natAbs_signed]
  exact natAbs_le_of_position stands

theorem bounded_mul_of_isFinite {a b : Int} (y_finite : y.isFinite) (z_finite : z.isFinite)
    (left : x.position? = some a) (right : y.position? = some b) (le : a.natAbs ≤ b.natAbs) :
    Bounded (x * z) (y * z) := by
  obtain ⟨b', found, representable⟩ := exists_position_of_isFinite y_finite
  obtain rfl := Option.some.inj (right.symm.trans found)
  have x_finite := isFinite_of_position left (Nat.lt_of_le_of_lt le representable.1)
  obtain ⟨c, factor, _⟩ := exists_position_of_isFinite z_finite
  refine .inr ⟨_, _, position?_mul x_finite z_finite left factor,
    position?_mul y_finite z_finite right factor, ?_⟩
  apply natAbs_rounded_mono unitsPerOne_pos
  rw [Int.natAbs_mul, Int.natAbs_mul]
  exact Nat.mul_le_mul_right _ le

theorem Bounded.mul (bounded : Bounded x y) (finite : z.isFinite) : Bounded (x * z) (y * z) := by
  cases number : (y * z).isNaN with
  | true => exact .inl number
  | false =>
      rcases bounded with none | ⟨a, b, left, right, le⟩
      · rw [eq_nan_of_isNaN none, nan_mul] at number
        cases number
      · cases y with
        | nan => cases right
        | finite n v hv => exact bounded_mul_of_isFinite rfl finite left right le
        | infinite n =>
            obtain ⟨k, same⟩ := infinite_mul finite number
            rw [same]
            apply bounded_infinite
            -- a factor of zero would lose the larger one too
            rw [← Bool.not_eq_true, isNaN_mul_iff (isNaN_of_position left) finite]
            rintro ⟨_, zero⟩
            cases number.symm.trans ((isNaN_mul_iff rfl finite).mpr ⟨⟨n, rfl⟩, zero⟩)

theorem Bounded.product (bounded : Bounded x y) (finite : ∀ factor ∈ factors, factor.isFinite) :
    Bounded (product x factors) (product y factors) := by
  induction factors generalizing x y with
  | nil => exact bounded
  | cons factor factors ih =>
      obtain ⟨first, rest⟩ := List.forall_mem_cons.mp finite
      exact ih (bounded.mul first) rest

end Polyphony.Binary64
