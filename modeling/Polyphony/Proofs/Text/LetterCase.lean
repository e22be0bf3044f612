import Mathlib.Order.Basic
import Polyphony.Text.UpperCase

/-! Only ASCII letters have a case to `Char.toUpper` and `Char.toLower`. The full upper case knows
many more characters, but none that is written with a bar or a colon and is none itself. -/
namespace Polyphony.Text

variable {c separator : Char}

theorem forall_ascii {P : Char → Prop} (each : ∀ n < 128, P (Char.ofNat n))
    (ascii : c.toNat < 128) : P c := by
  have holds := each c.toNat ascii
  rwa [Char.ofNat_toNat] at holds

theorem toUpper_of_not_ascii (beyond : ¬ c.toNat < 128) : c.toUpper = c := by
  unfold Char.toUpper
  split
  · next letter =>
      have le := UInt32.le_iff_toNat_le.mp letter.2
      exact absurd (Nat.lt_of_le_of_lt le (by decide)) beyond
  · rfl

theorem toLower_of_not_ascii (beyond : ¬ c.toNat < 128) : c.toLower = c := by
  unfold Char.toLower
  split
  · next letter =>
      have le := UInt32.le_iff_toNat_le.mp letter.2
      exact absurd (Nat.lt_of_le_of_lt le (by decide)) beyond
  · rfl

/-- Only among the ASCII characters is there a case to change. -/
theorem toUpper_cases {P : Char → Char → Prop} (same : ∀ c, P c c)
    (ascii : ∀ n < 128, P (Char.ofNat n) (Char.ofNat n).toUpper) (c : Char) : P c c.toUpper := by
  by_cases inside : c.toNat < 128
  · exact forall_ascii (P := fun c => P c c.toUpper) ascii inside
  · rw [toUpper_of_not_ascii inside]
    exact same c

theorem toLower_cases {P : Char → Char → Prop} (same : ∀ c, P c c)
    (ascii : ∀ n < 128, P (Char.ofNat n) (Char.ofNat n).toLower) (c : Char) : P c c.toLower := by
  by_cases inside : c.toNat < 128
  · exact forall_ascii (P := fun c => P c c.toLower) ascii inside
  · rw [toLower_of_not_ascii inside]
    exact same c

/-- A code point that the table neither changes nor leads to. -/
def Untouched (point : Nat) : Prop :=
  (∀ entry ∈ upperExpansions, entry.1 ≠ point ∧ point ∉ entry.2) ∧
    ∀ run ∈ upperRuns, (point < run.first ∨ run.last < point) ∧
      (point < (run.first + run.shift).toNat ∨ (run.last + run.shift).toNat < point)

instance (point : Nat) : Decidable (Untouched point) := inferInstanceAs (Decidable (_ ∧ _))

theorem Untouched.mem_upperPoints_iff {point n : Nat} (untouched : Untouched point) :
    point ∈ upperPoints n ↔ point = n := by
  obtain ⟨expansions, runs⟩ := untouched
  unfold upperPoints
  split
  · next points found =>
      obtain ⟨before, after, table, _⟩ := List.lookup_eq_some_iff.mp found
      have entry : (n, points) ∈ upperExpansions := by
        rw [table]
        exact List.mem_append_right before List.mem_cons_self
      have untouched := expansions (n, points) entry
      exact iff_of_false untouched.2 (Ne.symm untouched.1)
  · split
    · next run found =>
        have holds := List.find?_some found
        simp only [CaseRun.holds, Bool.and_eq_true, decide_eq_true_eq] at holds
        have outside := runs run (List.mem_of_find?_eq_some found)
        rw [List.mem_singleton]
        omega
    · exact List.mem_singleton

theorem toNat_of_ofNat {n : Nat} (made : Char.ofNat n = c) (nonzero : c.toNat ≠ 0) :
    n = c.toNat := by
  subst made
  by_cases valid : n.isValidChar
  · rw [show Char.ofNat n = Char.ofNatAux n valid from dif_pos valid]
    rfl
  · rw [show Char.ofNat n = ⟨0, by decide⟩ from dif_neg valid] at nonzero
    exact absurd rfl nonzero

theorem mem_upper_iff (untouched : Untouched separator.toNat) (nonzero : separator.toNat ≠ 0) :
    separator ∈ upper c ↔ separator = c := by
  have point : separator ∈ upper c ↔ separator.toNat ∈ upperPoints c.toNat := by
    rw [upper, List.mem_map]
    constructor
    · intro found
      obtain ⟨n, member, made⟩ := found
      rwa [← toNat_of_ofNat made nonzero]
    · intro member
      exact ⟨separator.toNat, member, Char.ofNat_toNat separator⟩
  rw [point, untouched.mem_upperPoints_iff, Char.toNat_inj]

theorem untouched_bar : Untouched '|'.toNat := by decide +kernel

theorem untouched_colon : Untouched ':'.toNat := by decide +kernel

end Polyphony.Text
