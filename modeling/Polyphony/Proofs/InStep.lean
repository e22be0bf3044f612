import Mathlib.Data.List.Perm.Basic
import Polyphony.Proofs.Outcome

/-! What a change to the input does is told by running both inputs side by side: the computations
fail together, or both go on with values that are still related. -/
namespace Polyphony

variable {ε α β γ δ : Type} {E : ε → ε → Prop} {R : α → β → Prop} {S : γ → δ → Prop}

/-- Both fail, for reasons related by `E`, or both give values, related by `R`. -/
inductive InStep (E : ε → ε → Prop) (R : α → β → Prop) : Except ε α → Except ε β → Prop where
  | fail {e e' : ε} (reasons : E e e') : InStep E R (.error e) (.error e')
  | give {a : α} {b : β} (values : R a b) : InStep E R (.ok a) (.ok b)

namespace InStep

variable {x : Except ε α} {y : Except ε β}

/-- The values that are gone on with are those that the first steps gave. -/
theorem bind {f : α → Except ε γ} {g : β → Except ε δ} (first : InStep E R x y)
    (rest : ∀ a b, x = .ok a → y = .ok b → R a b → InStep E S (f a) (g b)) :
    InStep E S (x >>= f) (y >>= g) := by
  cases first with
  | fail reasons => exact .fail reasons
  | give values => exact rest _ _ rfl rfl values

theorem imp {E' : ε → ε → Prop} (steps : InStep E R x y)
    (reasons : ∀ e e', E e e' → E' e e') : InStep E' R x y := by
  cases steps with
  | fail related => exact .fail (reasons _ _ related)
  | give values => exact .give values

theorem refl {R : α → α → Prop} (reasons : ∀ e, E e e) (values : ∀ a, x = .ok a → R a a) :
    InStep E R x x := by
  cases x with
  | error e => exact .fail (reasons e)
  | ok a => exact .give (values a rfl)

theorem same (x : Except ε α) : InStep Eq Eq x x := .refl (fun _ => rfl) fun _ _ => rfl

theorem of_ok (reasons : ∀ e e', x = .error e → y = .error e' → E e e')
    (forth : ∀ a, x = .ok a → ∃ b, y = .ok b ∧ R a b) (back : ∀ b, y = .ok b → ∃ a, x = .ok a) :
    InStep E R x y := by
  cases given : x with
  | ok a =>
      obtain ⟨b, given', values⟩ := forth a given
      rw [given']
      exact .give values
  | error e =>
      cases given' : y with
      | ok b =>
          obtain ⟨a, given''⟩ := back b given'
          rw [given] at given''
          cases given''
      | error e' => exact .fail (reasons e e' given given')

/-- Nothing but the value or the reason counts. -/
theorem cases_on (steps : InStep E R x y) :
    (∃ e e', E e e' ∧ x = .error e ∧ y = .error e') ∨ ∃ a b, R a b ∧ x = .ok a ∧ y = .ok b := by
  cases steps with
  | fail reasons => exact .inl ⟨_, _, reasons, rfl, rfl⟩
  | give values => exact .inr ⟨_, _, values, rfl, rfl⟩

end InStep

/-- The items that are looked at one by one either all pass or not, in whatever order. -/
theorem inStep_mapM_perm {f : α → Except ε β} {P : α → Prop} {g : α → β} {items items' : List α}
    (each : ∀ a b, f a = .ok b ↔ P a ∧ g a = b)
    (reasons : ∀ a a' e e', f a = .error e → f a' = .error e' → E e e')
    (reordered : items.Perm items') :
    InStep E (fun results results' => results = items.map g ∧ results' = items'.map g)
      (items.mapM f) (items'.mapM f) := by
  refine .of_ok ?_ ?_ ?_
  · intro e e' failed failed'
    obtain ⟨_, a, _, raised, _⟩ := mapM_eq_error_iff.mp failed
    obtain ⟨_, a', _, raised', _⟩ := mapM_eq_error_iff.mp failed'
    exact reasons a a' e e' raised raised'
  · intro results given
    obtain ⟨passes, rfl⟩ := (mapM_eq_ok_iff_map each).mp given
    refine ⟨items'.map g, (mapM_eq_ok_iff_map each).mpr ⟨?_, rfl⟩, rfl, rfl⟩
    exact fun a member => passes a (reordered.mem_iff.mpr member)
  · intro results given
    obtain ⟨passes, rfl⟩ := (mapM_eq_ok_iff_map each).mp given
    refine ⟨items.map g, (mapM_eq_ok_iff_map each).mpr ⟨?_, rfl⟩⟩
    exact fun a member => passes a (reordered.mem_iff.mp member)

/-- Of the items made from `front` and so many others, those from `front` are made from `front'`
instead, each as before. -/
def Shuffled (front front' : List α) (others : Nat) (items items' : List β) : Prop :=
  ∃ (make : α → β) (rest : List β), rest.length = others ∧
    items = front.map make ++ rest ∧ items' = front'.map make ++ rest

section Shuffled

variable {front front' : List α} {others : Nat} {items items' : List β}

theorem Shuffled.perm (shuffled : Shuffled front front' others items items')
    (reordered : front.Perm front') : items.Perm items' := by
  obtain ⟨make, rest, _, rfl, rfl⟩ := shuffled
  exact (reordered.map make).append_right rest

theorem Shuffled.append_right (shuffled : Shuffled front front' others items items')
    (later : List β) :
    Shuffled front front' (others + later.length) (items ++ later) (items' ++ later) := by
  obtain ⟨make, rest, rfl, rfl, rfl⟩ := shuffled
  refine ⟨make, rest ++ later, List.length_append, ?_, ?_⟩
  · exact List.append_assoc _ _ _
  · exact List.append_assoc _ _ _

/-- Which item fails first goes by their order. -/
theorem Shuffled.mapM {f : β → Except ε γ} {P : β → Prop} {g : β → γ}
    (shuffled : Shuffled front front' others items items') (reordered : front.Perm front')
    (each : ∀ a b, f a = .ok b ↔ P a ∧ g a = b) :
    InStep (fun _ _ => True) (Shuffled front front' others) (items.mapM f) (items'.mapM f) := by
  obtain ⟨make, rest, rfl, rfl, rfl⟩ := shuffled
  rw [List.mapM_append, List.mapM_append]
  refine .bind (inStep_mapM_perm each (fun _ _ _ _ _ _ => trivial) (reordered.map make)) ?_
  rintro _ _ _ _ ⟨rfl, rfl⟩
  refine .bind (.refl (fun _ => trivial) fun _ _ => rfl) ?_
  rintro results _ given _ rfl
  refine .give ⟨g ∘ make, results, (mapM_eq_ok_iff.mp given).length_eq.symm, ?_, ?_⟩
  · rw [List.map_map]
  · rw [List.map_map]

end Shuffled

/-- The lists differ in the item behind the first `place` of them, and there by `R`. -/
def DifferAt (place : Nat) (R : α → α → Prop) (items items' : List α) : Prop :=
  ∃ before a a' after, before.length = place ∧ items = before ++ a :: after ∧
    items' = before ++ a' :: after ∧ R a a'

section DifferAt

variable {place : Nat} {R : α → α → Prop} {S : β → β → Prop} {items items' : List α}

theorem DifferAt.append_left (differ : DifferAt place R items items') (earlier : List α) :
    DifferAt (earlier.length + place) R (earlier ++ items) (earlier ++ items') := by
  obtain ⟨before, a, a', after, rfl, rfl, rfl, related⟩ := differ
  refine ⟨earlier ++ before, a, a', after, List.length_append, ?_, ?_, related⟩
  · exact (List.append_assoc _ _ _).symm
  · exact (List.append_assoc _ _ _).symm

theorem DifferAt.append_right (differ : DifferAt place R items items') (later : List α) :
    DifferAt place R (items ++ later) (items' ++ later) := by
  obtain ⟨before, a, a', after, rfl, rfl, rfl, related⟩ := differ
  refine ⟨before, a, a', after ++ later, rfl, ?_, ?_, related⟩
  · exact List.append_assoc _ _ _
  · exact List.append_assoc _ _ _

theorem DifferAt.mapM {f : α → Except ε β} (steps : ∀ a a', R a a' → InStep Eq S (f a) (f a'))
    (differ : DifferAt place R items items') :
    InStep Eq (DifferAt place S) (items.mapM f) (items'.mapM f) := by
  obtain ⟨before, a, a', after, rfl, rfl, rfl, related⟩ := differ
  rw [List.mapM_append, List.mapM_append]
  refine .bind (.same _) ?_
  rintro results _ given _ rfl
  have length := (mapM_eq_ok_iff.mp given).length_eq
  rw [List.mapM_cons, List.mapM_cons]
  refine .bind (R := DifferAt 0 S) (.bind (steps a a' related) ?_) ?_
  · intro b b' _ _ values
    refine .bind (.same _) ?_
    rintro rest _ _ _ rfl
    exact .give ⟨[], b, b', rest, rfl, rfl, rfl, values⟩
  · intro rest rest' _ _ differ
    have whole := differ.append_left results
    rw [← length] at whole
    exact .give whole

end DifferAt
end Polyphony
