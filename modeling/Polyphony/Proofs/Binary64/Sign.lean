import Polyphony.Proofs.Binary64.Order

/-! Two zeros are equal but not the same, so a sum with zero need not give a number back. It does
for a number without a minus sign, and the operations on times never write one. -/
namespace Polyphony.Binary64

variable {x y z : Binary64}

/-- A number from zero up that is written without a minus sign. -/
structure Unsigned (x : Binary64) : Prop where
  number : x.isNaN = false
  plus : x.isNegative = false

theorem unsigned_zero : Unsigned (zero false) := ⟨rfl, rfl⟩

theorem unsigned_infinite : Unsigned (infinite false) := ⟨rfl, rfl⟩

theorem unsigned_ofRatio (num den : Nat) : Unsigned (ofRatio false num den) := by
  unfold ofRatio
  split
  · exact ⟨rfl, rfl⟩
  · exact ⟨rfl, rfl⟩

theorem Unsigned.nonneg (unsigned : Unsigned x) : 0 ≤ x := by
  obtain ⟨number, plus⟩ := unsigned
  cases x with
  | nan => cases number
  | infinite negative => cases plus; exact infinite_nonneg
  | finite negative units representable =>
      cases plus
      exact nonneg_iff.mpr ⟨_, rfl, Int.natCast_nonneg units⟩

theorem not_pos_of_isNegative (minus : x.isNegative = true) : ¬ 0 < x := by
  intro positive
  obtain ⟨a, position, above⟩ := pos_iff.mp positive
  have below : ∀ units : Nat, signed true units ≤ 0 := fun units =>
    Int.neg_nonpos_of_nonneg (Int.natCast_nonneg units)
  cases x with
  | nan => cases minus
  | infinite negative =>
      cases minus
      rw [← Option.some.inj position] at above
      exact Int.not_lt.mpr (below unitLimit) above
  | finite negative units representable =>
      cases minus
      rw [← Option.some.inj position] at above
      exact Int.not_lt.mpr (below units) above

theorem unsigned_of_pos (positive : 0 < x) : Unsigned x := by
  refine ⟨isNaN_right_of_lt positive, ?_⟩
  apply Bool.eq_false_of_not_eq_true
  intro minus
  exact not_pos_of_isNegative minus positive

theorem Unsigned.eq_of_position {a : Int} (left : Unsigned x) (right : Unsigned y)
    (position : x.position? = some a) (position' : y.position? = some a) : x = y := by
  obtain ⟨number, plus⟩ := left
  obtain ⟨number', plus'⟩ := right
  cases x with
  | nan => cases number
  | infinite m =>
      cases plus
      cases y with
      | nan => cases number'
      | infinite n => cases plus'; rfl
      | finite n v hv =>
          cases plus'
          have beyond : (v : Int) = unitLimit := Option.some.inj (position'.trans position.symm)
          exact absurd hv.1 (by omega)
  | finite m u hu =>
      cases plus
      cases y with
      | nan => cases number'
      | infinite n =>
          cases plus'
          have beyond : (u : Int) = unitLimit := Option.some.inj (position.trans position'.symm)
          exact absurd hu.1 (by omega)
      | finite n v hv =>
          cases plus'
          have units : (u : Int) = v := Option.some.inj (position.trans position'.symm)
          obtain rfl := Int.ofNat.inj units
          rfl

theorem add_comm (x y : Binary64) : x + y = y + x := by
  rw [add_eq, add_eq]
  cases x with
  | nan => cases y <;> rfl
  | infinite m =>
      cases y with
      | nan => rfl
      | infinite n => cases m <;> cases n <;> rfl
      | finite n v hv => rfl
  | finite m u hu =>
      cases y with
      | nan => rfl
      | infinite n => rfl
      | finite n v hv =>
          simp only [add, Int.add_comm (signed m u), Bool.and_comm m]

theorem Unsigned.add (unsigned : Unsigned x) (nonneg : 0 ≤ y) : Unsigned (x + y) := by
  obtain ⟨number, plus⟩ := unsigned
  rw [add_eq]
  cases x with
  | nan => cases number
  | infinite m =>
      cases plus
      cases y with
      | nan => cases isNaN_right_of_le nonneg
      | infinite n =>
          cases n with
          | false => exact unsigned_infinite
          | true => exact absurd nonneg not_nonneg_infinite_true
      | finite n v hv => exact unsigned_infinite
  | finite m u hu =>
      cases plus
      cases y with
      | nan => cases isNaN_right_of_le nonneg
      | infinite n =>
          cases n with
          | false => exact unsigned_infinite
          | true => exact absurd nonneg not_nonneg_infinite_true
      | finite n v hv =>
          obtain ⟨b, position, b_nonneg⟩ := nonneg_iff.mp nonneg
          cases position
          have sum : 0 ≤ signed false u + signed n v :=
            Int.add_nonneg (Int.natCast_nonneg u) b_nonneg
          unfold Binary64.add
          dsimp only
          split
          · exact unsigned_zero
          · rw [decide_eq_false (Int.not_lt.mpr sum)]
            exact unsigned_ofRatio _ _

theorem ofRatio_units {units : Nat} (representable : Representable units) :
    ofRatio false units 1 = finite false units representable := by
  have exact := roundUnits_exact Nat.one_pos representable.2
  rw [Nat.mul_one] at exact
  have below : roundUnits units 1 < unitLimit := by
    rw [exact]
    exact representable.1
  rw [ofRatio, dif_pos below]
  simp only [exact]

/-- A negative zero would come out as zero. -/
theorem Unsigned.add_zero (unsigned : Unsigned x) : x + zero false = x := by
  obtain ⟨number, plus⟩ := unsigned
  rw [add_eq, zero]
  cases x with
  | nan => cases number
  | infinite m => rfl
  | finite m u hu =>
      cases plus
      have sum : signed false u + signed false 0 = u := Int.add_zero (u : Int)
      unfold Binary64.add
      dsimp only
      rw [sum]
      split
      · next none =>
          obtain rfl : u = 0 := Int.ofNat_eq_zero.mp none
          rfl
      · rw [decide_eq_false (Int.not_lt.mpr (Int.natCast_nonneg u)), Int.natAbs_natCast]
        exact ofRatio_units hu

theorem Unsigned.mul (left : Unsigned x) (right : Unsigned y) (x_finite : x.isFinite)
    (y_finite : y.isFinite) : Unsigned (x * y) := by
  rw [mul_eq]
  cases x with
  | nan => cases x_finite
  | infinite m => cases x_finite
  | finite m u hu =>
      cases y with
      | nan => cases y_finite
      | infinite n => cases y_finite
      | finite n v hv =>
          cases left.plus
          cases right.plus
          exact unsigned_ofRatio _ _

theorem mul_infinite (finite : x.isFinite) (positive : 0 < x) :
    x * infinite false = infinite false := by
  have plus := (unsigned_of_pos positive).plus
  cases x with
  | nan => cases finite
  | infinite negative => cases finite
  | finite negative units representable =>
      cases plus
      obtain ⟨a, stands, positive⟩ := pos_iff.mp positive
      have nonzero : units ≠ 0 := by
        rintro rfl
        cases stands
        exact Int.lt_irrefl 0 positive
      rw [mul_eq, mul, if_neg nonzero]
      rfl

/-- The second factor may be infinite, as the first is not zero. -/
theorem unsigned_mul_of_pos (finite : x.isFinite) (x_pos : 0 < x) (y_pos : 0 < y) :
    Unsigned (x * y) := by
  have right := unsigned_of_pos y_pos
  cases y with
  | nan => cases right.number
  | infinite n =>
      cases right.plus
      rw [mul_infinite finite x_pos]
      exact unsigned_infinite
  | finite n v hv => exact (unsigned_of_pos x_pos).mul right finite rfl

theorem Unsigned.div (left : Unsigned x) (right : Unsigned y)
    (number : (x / y).isNaN = false) : Unsigned (x / y) := by
  refine ⟨number, ?_⟩
  rw [div_eq] at number ⊢
  cases x with
  | nan => cases number
  | infinite m =>
      cases y with
      | nan => cases number
      | infinite n => cases number
      | finite n v hv => cases left.plus; cases right.plus; rfl
  | finite m u hu =>
      cases y with
      | nan => cases number
      | infinite n => cases left.plus; cases right.plus; rfl
      | finite n v hv =>
          cases left.plus
          cases right.plus
          unfold Binary64.div
          dsimp only
          split
          · split <;> rfl
          · exact (unsigned_ofRatio _ _).plus

theorem Unsigned.max_zero (unsigned : Unsigned x) : max x (zero false) = x := by
  by_cases positive : 0 < x
  · rw [ofNat_zero] at positive
    exact if_pos positive
  · have most : x ≤ zero false := by
      rw [← ofNat_zero]
      exact nonpos_of_not_pos unsigned.number positive
    obtain ⟨number, plus⟩ := unsigned
    cases x with
    | nan => cases number
    | infinite m => cases plus; exact absurd infinite_pos positive
    | finite m u hu =>
        cases plus
        obtain ⟨_, _, ⟨⟩, ⟨⟩, le⟩ := le_iff.mp most
        obtain rfl : u = 0 := Nat.le_zero.mp (Int.ofNat_le.mp le)
        rfl

/-- Of two numbers without a minus sign that are not the same, one is smaller. -/
theorem Unsigned.eq_of_not_lt (left : Unsigned x) (right : Unsigned y) (first : ¬ x < y)
    (second : ¬ y < x) : x = y := by
  obtain ⟨a, position⟩ := exists_position left.number
  obtain ⟨b, position'⟩ := exists_position right.number
  have same : a = b := by
    apply Int.le_antisymm
    · exact Int.not_lt.mp fun below => second (lt_iff.mpr ⟨b, a, position', position, below⟩)
    · exact Int.not_lt.mp fun below => first (lt_iff.mpr ⟨a, b, position, position', below⟩)
  subst same
  exact left.eq_of_position right position position'

theorem Unsigned.min_eq_left (left : Unsigned x) (right : Unsigned y) (le : x ≤ y) :
    min x y = x := by
  rw [min, right.number, if_neg Bool.false_ne_true]
  by_cases below : x < y
  · rw [if_pos below]
  · rw [if_neg below]
    exact (left.eq_of_not_lt right below (not_lt_of_le le)).symm

theorem Unsigned.min_eq_right (x : Binary64) (unsigned : Unsigned y) (le : y ≤ x) :
    min x y = y := by
  rw [min, unsigned.number, if_neg Bool.false_ne_true, if_neg (not_lt_of_le le)]

/-- A fold that keeps one of two items by a strict order may meet items in either order, if those
that the order does not tell apart are the same. -/
theorem keep_right_comm (before : Binary64 → Binary64 → Prop) [DecidableRel before]
    (asymm : before x y → ¬ before y x) (same : ¬ before x y → ¬ before y x → x = y)
    (over_left : before z x → ¬ before z y → before y x)
    (over_right : before z y → ¬ before z x → before x y) :
    (let kept := if before z x then z else x
      if before kept y then kept else y) =
    let kept := if before z y then z else y
      if before kept x then kept else x := by
  dsimp only
  by_cases left : before z x
  · by_cases right : before z y
    · simp only [left, right, if_true]
    · simp only [left, right, over_left left right, if_true, if_false]
  · by_cases right : before z y
    · simp only [left, right, over_right right left, if_true, if_false]
    · simp only [left, right, if_false]
      by_cases first : before x y
      · rw [if_pos first, if_neg (asymm first)]
      · by_cases second : before y x
        · rw [if_neg first, if_pos second]
        · rw [same first second]

theorem not_lt_of_lt (below : x < y) : ¬ y < x := not_lt_of_le (le_of_lt below)

theorem Unsigned.max_right_comm (z : Binary64) (left : Unsigned x) (right : Unsigned y) :
    (z.max x).max y = (z.max y).max x := by
  have beyond : ∀ {x y : Binary64}, y.isNaN = false → x < z → ¬ y < z → x < y :=
    fun number below notBelow =>
      lt_of_lt_of_le below (le_of_not_lt number (isNaN_right_of_lt below) notBelow)
  have kept := keep_right_comm (z := z) (fun a b => b < a) not_lt_of_lt
    (fun first second => left.eq_of_not_lt right second first) (beyond right.number)
    (beyond left.number)
  simpa only [max, left.number, right.number, Bool.false_eq_true, if_false] using kept

theorem foldl_max_perm {times times' : List Binary64} (reordered : times.Perm times')
    (unsigned : ∀ time ∈ times, Unsigned time) (bound : Binary64) :
    times.foldl max bound = times'.foldl max bound :=
  reordered.foldl_eq' (fun x left y right z =>
    (unsigned x left).max_right_comm z (unsigned y right)) bound

/-- A least time is what is left of all of them. -/
theorem foldl_min_eq {times : List Binary64} {least bound : Binary64}
    (unsigned : ∀ time ∈ bound :: times, Unsigned time) (member : least ∈ bound :: times)
    (below : ∀ time ∈ bound :: times, least ≤ time) : times.foldl min bound = least := by
  induction times generalizing bound with
  | nil => exact (List.mem_singleton.mp member).symm
  | cons time rest ih =>
      obtain ⟨bound_unsigned, unsigned⟩ := List.forall_mem_cons.mp unsigned
      obtain ⟨time_unsigned, rest_unsigned⟩ := List.forall_mem_cons.mp unsigned
      obtain ⟨le_bound, below⟩ := List.forall_mem_cons.mp below
      obtain ⟨le_time, le_rest⟩ := List.forall_mem_cons.mp below
      have kept : ∀ {P : Binary64 → Prop}, P bound → P time → P (min bound time) := by
        intro P first second
        rcases min_eq_or bound time with same | same <;> rwa [same]
      rw [List.foldl_cons]
      refine ih ?_ ?_ ?_
      · exact List.forall_mem_cons.mpr ⟨kept bound_unsigned time_unsigned, rest_unsigned⟩
      · rcases List.mem_cons.mp member with rfl | later
        · rw [bound_unsigned.min_eq_left time_unsigned le_time]
          exact List.mem_cons_self
        · rcases List.mem_cons.mp later with rfl | later
          · rw [time_unsigned.min_eq_right bound le_bound]
            exact List.mem_cons_self
          · exact List.mem_cons_of_mem _ later
      · exact List.forall_mem_cons.mpr ⟨kept le_bound le_time, le_rest⟩

end Polyphony.Binary64
