import Mathlib.Data.List.Forall2

/-! When a computation that may fail gives a value, and when it fails. -/
namespace Polyphony

variable {ε ε' α β : Type}

/-- What is not checked can be read as a check that always passes. -/
theorem ok_eq_ok_iff {a b : α} : (Except.ok a : Except ε α) = .ok b ↔ True ∧ a = b := by
  rw [Except.ok.injEq, true_and]

theorem ite_eq_ok_iff {p : Prop} [Decidable p] {a b : α} {e : ε} :
    (if p then Except.ok a else .error e) = .ok b ↔ p ∧ a = b := by
  by_cases holds : p
  · rw [if_pos holds, Except.ok.injEq]
    exact (and_iff_right holds).symm
  · rw [if_neg holds]
    exact iff_of_false (fun h => by cases h) fun h => holds h.1

theorem ok_bind (a : α) (f : α → Except ε β) : (Except.ok a >>= f) = f a := rfl

theorem bind_eq_ok_iff {x : Except ε α} {f : α → Except ε β} {b : β} :
    x >>= f = .ok b ↔ ∃ a, x = .ok a ∧ f a = .ok b := by
  constructor
  · intro bound
    cases x with
    | error e => cases bound
    | ok a => exact ⟨a, rfl, bound⟩
  · rintro ⟨a, rfl, rest⟩
    exact rest

/-- When the value that is gone on with, if there is one, is known beforehand. -/
theorem bind_ok_eq_ok_iff {x : Except ε α} {P : Prop} {a : α}
    (known : ∀ a', x = .ok a' ↔ P ∧ a = a')
    {f : α → β} {b : β} : (x >>= fun a => .ok (f a)) = .ok b ↔ P ∧ f a = b := by
  rw [bind_eq_ok_iff]
  constructor
  · rintro ⟨a', given, rest⟩
    obtain ⟨holds, rfl⟩ := (known a').mp given
    exact ⟨holds, Except.ok.inj rest⟩
  · rintro ⟨holds, rfl⟩
    exact ⟨a, (known a).mpr ⟨holds, rfl⟩, rfl⟩

theorem map_eq_ok_iff {x : Except ε α} {f : α → β} {b : β} :
    x.map f = .ok b ↔ ∃ a, x = .ok a ∧ f a = b := by
  constructor
  · intro mapped
    cases x with
    | error e => cases mapped
    | ok a => exact ⟨a, rfl, Except.ok.inj mapped⟩
  · rintro ⟨a, rfl, rfl⟩
    rfl

theorem mapError_eq_ok_iff {x : Except ε α} {f : ε → ε'} {a : α} :
    x.mapError f = .ok a ↔ x = .ok a := by
  constructor
  · intro mapped
    cases x with
    | error e => cases mapped
    | ok b => exact congrArg Except.ok (Except.ok.inj mapped)
  · rintro rfl
    rfl

theorem mapM_eq_ok_iff {f : α → Except ε β} {items : List α} {results : List β} :
    items.mapM f = .ok results ↔ List.Forall₂ (fun a b => f a = .ok b) items results := by
  induction items generalizing results with
  | nil =>
      rw [List.mapM_nil, List.forall₂_nil_left_iff]
      exact ⟨fun h => (Except.ok.inj h).symm, fun h => congrArg Except.ok h.symm⟩
  | cons a items ih =>
      rw [List.mapM_cons, List.forall₂_cons_left_iff]
      constructor
      · intro h
        obtain ⟨b, first, h⟩ := bind_eq_ok_iff.mp h
        obtain ⟨later, rest, h⟩ := bind_eq_ok_iff.mp h
        exact ⟨b, later, first, ih.mp rest, (Except.ok.inj h).symm⟩
      · rintro ⟨b, later, first, rest, rfl⟩
        exact bind_eq_ok_iff.mpr ⟨b, first, bind_eq_ok_iff.mpr ⟨later, ih.mpr rest, rfl⟩⟩

/-- When what comes of an item, if anything does, is known beforehand. -/
theorem mapM_eq_ok_iff_map {f : α → Except ε β} {P : α → Prop} {g : α → β}
    (each : ∀ a b, f a = .ok b ↔ P a ∧ g a = b) {items : List α} {results : List β} :
    items.mapM f = .ok results ↔ (∀ a ∈ items, P a) ∧ items.map g = results := by
  simp only [mapM_eq_ok_iff, each, List.forall₂_and_left]
  rw [← List.forall₂_map_left_iff, List.forall₂_eq_eq_eq]

theorem map_eq_error_iff {x : Except ε α} {f : α → β} {e : ε} :
    x.map f = .error e ↔ x = .error e := by
  cases x with
  | error e' => exact ⟨fun h => congrArg Except.error (Except.error.inj h), fun h => by rw [h]; rfl⟩
  | ok a => exact iff_of_false (fun h => by cases h) fun h => by cases h

theorem mapError_eq_error_iff {x : Except ε α} {f : ε → ε'} {e' : ε'} :
    x.mapError f = .error e' ↔ ∃ e, x = .error e ∧ f e = e' := by
  constructor
  · intro mapped
    cases x with
    | error e => exact ⟨e, rfl, Except.error.inj mapped⟩
    | ok a => cases mapped
  · rintro ⟨e, rfl, rfl⟩
    rfl

theorem bind_eq_error_iff {x : Except ε α} {f : α → Except ε β} {e : ε} :
    x >>= f = .error e ↔ x = .error e ∨ ∃ a, x = .ok a ∧ f a = .error e := by
  constructor
  · intro bound
    cases x with
    | error e' => exact .inl (congrArg Except.error (Except.error.inj bound))
    | ok a => exact .inr ⟨a, rfl, bound⟩
  · rintro (rfl | ⟨a, rfl, rest⟩)
    · rfl
    · exact rest

/-- The first item that fails decides, whatever comes after it. -/
theorem mapM_eq_error_iff {f : α → Except ε β} {items : List α} {e : ε} :
    items.mapM f = .error e ↔ ∃ (i : Nat) (a : α), items[i]? = some a ∧ f a = .error e ∧
      ∀ j < i, ∀ earlier ∈ items[j]?, ∃ b, f earlier = .ok b := by
  induction items with
  | nil =>
      rw [List.mapM_nil]
      refine iff_of_false (fun h => by cases h) ?_
      rintro ⟨i, a, found, _⟩
      cases found
  | cons first items ih =>
      rw [List.mapM_cons]
      constructor
      · intro h
        rcases bind_eq_error_iff.mp h with failed | ⟨b, passed, h⟩
        · exact ⟨0, first, rfl, failed, fun j before => absurd before (Nat.not_lt_zero j)⟩
        · rcases bind_eq_error_iff.mp h with failed | ⟨later, _, h⟩
          · obtain ⟨i, a, found, failed, passes⟩ := ih.mp failed
            refine ⟨i + 1, a, found, failed, fun j before earlier member => ?_⟩
            cases j with
            | zero => cases member; exact ⟨b, passed⟩
            | succ j => exact passes j (Nat.lt_of_succ_lt_succ before) earlier member
          · cases h
      · rintro ⟨i, a, found, failed, passes⟩
        cases i with
        | zero =>
            cases found
            exact bind_eq_error_iff.mpr (.inl failed)
        | succ i =>
            obtain ⟨b, passed⟩ := passes 0 (Nat.succ_pos i) first rfl
            refine bind_eq_error_iff.mpr (.inr ⟨b, passed, bind_eq_error_iff.mpr (.inl ?_)⟩)
            refine ih.mpr ⟨i, a, found, failed, fun j before earlier member => ?_⟩
            exact passes (j + 1) (Nat.succ_lt_succ before) earlier member

theorem forall₂_comp {γ : Type} {R : α → β → Prop} {S : β → γ → Prop} {first : List α}
    {second : List β} {third : List γ} (left : List.Forall₂ R first second)
    (right : List.Forall₂ S second third) :
    List.Forall₂ (fun a c => ∃ b, R a b ∧ S b c) first third := by
  induction left generalizing third with
  | nil =>
      cases right
      exact .nil
  | cons related _ ih =>
      cases right with
      | cons related' rest => exact .cons ⟨_, related, related'⟩ (ih rest)

/-- Related lists have common relatives if related items have. -/
theorem exists_forall₂_and {γ : Type} {R : α → β → Prop} {S : α → γ → Prop} {T : β → γ → Prop}
    {first : List α} {second : List β} (related : List.Forall₂ R first second)
    (each : ∀ a b, R a b → ∃ c, S a c ∧ T b c) :
    ∃ third, List.Forall₂ S first third ∧ List.Forall₂ T second third := by
  induction related with
  | nil => exact ⟨[], .nil, .nil⟩
  | cons head _ ih =>
      obtain ⟨c, left, right⟩ := each _ _ head
      obtain ⟨third, lefts, rights⟩ := ih
      exact ⟨c :: third, .cons left lefts, .cons right rights⟩

theorem exists_forall₂_iff {R : α → β → Prop} {items : List α} :
    (∃ results, List.Forall₂ R items results) ↔ ∀ a ∈ items, ∃ b, R a b := by
  induction items with
  | nil => exact iff_of_true ⟨[], .nil⟩ (List.forall_mem_nil _)
  | cons a items ih =>
      rw [List.forall_mem_cons, ← ih]
      constructor
      · rintro ⟨_, related⟩
        obtain ⟨b, results, first, rest, rfl⟩ := List.forall₂_cons_left_iff.mp related
        exact ⟨⟨b, first⟩, results, rest⟩
      · rintro ⟨⟨b, first⟩, results, rest⟩
        exact ⟨b :: results, .cons first rest⟩

theorem forall₂_congr_of_mem {R S : α → β → Prop} {items : List α} {results : List β}
    (same : ∀ a ∈ items, ∀ b, R a b ↔ S a b) :
    List.Forall₂ R items results ↔ List.Forall₂ S items results := by
  have kept : ∀ {T : α → β → Prop}, List.Forall₂ T items results ↔
      List.Forall₂ (fun a b => (∀ b, R a b ↔ S a b) ∧ T a b) items results := by
    intro T
    rw [List.forall₂_and_left]
    exact (and_iff_right same).symm
  rw [kept, kept (T := S)]
  have each : (fun a b => (∀ b, R a b ↔ S a b) ∧ R a b) =
      fun a b => (∀ b, R a b ↔ S a b) ∧ S a b := by
    ext a b
    exact and_congr_right fun agree => agree b
  rw [each]

theorem forall₂_append_left {R : α → β → Prop} {first second : List α} {results : List β}
    (related : List.Forall₂ R (first ++ second) results) :
    ∃ left right, List.Forall₂ R first left ∧ List.Forall₂ R second right ∧
      results = left ++ right := by
  induction first generalizing results with
  | nil => exact ⟨[], results, .nil, related, rfl⟩
  | cons a first ih =>
      cases related with
      | cons head tail =>
          obtain ⟨left, right, heads, tails, rfl⟩ := ih tail
          exact ⟨_ :: left, right, .cons head heads, tails, rfl⟩

/-- Where the position of an item makes no difference to what comes of it. -/
theorem mapM_zipIdx_eq_ok_iff {f : α × Nat → Except ε β} {R : α → β → Prop}
    (each : ∀ a i b, f (a, i) = .ok b ↔ R a b) {items : List α} {results : List β} :
    items.zipIdx.mapM f = .ok results ↔ List.Forall₂ R items results := by
  have same : (fun p b => f p = .ok b) = fun (p : α × Nat) b => R p.1 b := by
    ext p b
    exact each p.1 p.2 b
  rw [mapM_eq_ok_iff, same, ← List.forall₂_map_left_iff, List.zipIdx_map_fst]

theorem mapM_zipIdx_eq_error_iff {f : α × Nat → Except ε β} {items : List α} {e : ε} :
    items.zipIdx.mapM f = .error e ↔ ∃ (i : Nat) (a : α), items[i]? = some a ∧
      f (a, i) = .error e ∧ ∀ j < i, ∀ earlier ∈ items[j]?, ∃ b, f (earlier, j) = .ok b := by
  have position : ∀ i : Nat, items.zipIdx[i]? = items[i]?.map (·, i) := by
    intro i
    rw [List.getElem?_zipIdx, Nat.zero_add]
  simp only [mapM_eq_error_iff, position, Option.mem_def, Option.map_eq_some_iff]
  constructor
  · rintro ⟨i, _, ⟨a, found, rfl⟩, failed, passes⟩
    exact ⟨i, a, found, failed, fun j before earlier member =>
      passes j before _ ⟨earlier, member, rfl⟩⟩
  · rintro ⟨i, a, found, failed, passes⟩
    refine ⟨i, _, ⟨a, found, rfl⟩, failed, ?_⟩
    rintro j before _ ⟨earlier, member, rfl⟩
    exact passes j before earlier member

theorem mapM_mapError {f : α → Except ε β} {g : ε → ε'} (items : List α) :
    items.mapM (fun a => (f a).mapError g) = (items.mapM f).mapError g := by
  induction items with
  | nil => rfl
  | cons first items ih =>
      rw [List.mapM_cons, List.mapM_cons, ih]
      cases f first with
      | error e => rfl
      | ok b => cases items.mapM f <;> rfl

theorem exists_of_mem_right {R : α → β → Prop} {items : List α} {results : List β} {b : β}
    (related : List.Forall₂ R items results) (member : b ∈ results) : ∃ a ∈ items, R a b := by
  induction related with
  | nil => exact absurd member List.not_mem_nil
  | cons first _ ih =>
      rcases List.mem_cons.mp member with rfl | later
      · exact ⟨_, List.mem_cons_self, first⟩
      · obtain ⟨a, found, holds⟩ := ih later
        exact ⟨a, List.mem_cons_of_mem _ found, holds⟩

end Polyphony
