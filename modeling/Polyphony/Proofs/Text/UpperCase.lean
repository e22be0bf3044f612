import Polyphony.Proofs.Text.LetterCase
import Polyphony.Text.Blank

/-! Every character of an upper case is its own upper case and no white space. The table of cases is
compared with itself as sets of code points. Each set is kept as the bits of one number, so that two
sets of more than a thousand points are seen to be apart by one conjunction. -/
namespace Polyphony.Text

variable {c d : Char} {n point : Nat}

/-- `count` bits from the lowest one on, every `step`-th of them. -/
def stripes (step : Nat) : Nat → Nat
  | 0 => 0
  | count + 1 => 1 ||| stripes step count <<< step

theorem testBit_stripes (step count n : Nat) :
    (stripes step count).testBit n ↔ ∃ k < count, n = step * k := by
  induction count generalizing n with
  | zero => simp [stripes]
  | succ count ih =>
      rw [stripes, Nat.testBit_or, Bool.or_eq_true, Nat.testBit_shiftLeft, Bool.and_eq_true,
        decide_eq_true_eq, Nat.testBit_one_eq_true_iff_self_eq_zero, ih]
      constructor
      · rintro (rfl | ⟨le, k, lt, rest⟩)
        · exact ⟨0, Nat.succ_pos count, rfl⟩
        · exact ⟨k + 1, Nat.succ_lt_succ lt, by rw [Nat.mul_succ]; omega⟩
      · rintro ⟨k, lt, rfl⟩
        cases k with
        | zero => exact .inl rfl
        | succ k =>
            refine .inr ⟨Nat.le_add_left _ _, k, Nat.lt_of_succ_lt_succ lt, ?_⟩
            exact Nat.add_sub_cancel_right _ _

/-- `count` points from `first` on, every `step`-th of them. -/
def spaced (first step count : Nat) : Nat := stripes step count <<< first

theorem testBit_spaced (first step count n : Nat) :
    (spaced first step count).testBit n ↔ ∃ k < count, n = first + step * k := by
  rw [spaced, Nat.testBit_shiftLeft, Bool.and_eq_true, decide_eq_true_eq, testBit_stripes]
  constructor
  · rintro ⟨le, k, lt, rest⟩
    exact ⟨k, lt, by omega⟩
  · rintro ⟨k, lt, rfl⟩
    exact ⟨Nat.le_add_right _ _, k, lt, Nat.add_sub_cancel_left _ _⟩

theorem testBit_one_shiftLeft (point n : Nat) : (1 <<< point).testBit n ↔ n = point := by
  rw [Nat.one_shiftLeft, Nat.testBit_two_pow, decide_eq_true_eq, eq_comm]

def union {α : Type} (set : α → Nat) (items : List α) : Nat :=
  items.foldr (fun item rest => set item ||| rest) 0

theorem testBit_union {α : Type} (set : α → Nat) (items : List α) (n : Nat) :
    (union set items).testBit n ↔ ∃ item ∈ items, (set item).testBit n := by
  induction items with
  | nil => simp [union]
  | cons item rest ih =>
      change (set item ||| union set rest).testBit n ↔ _
      simp only [Nat.testBit_or, Bool.or_eq_true, ih, List.mem_cons, exists_eq_or_imp]

theorem not_testBit_of_apart {set other : Nat} (apart : set &&& other = 0)
    (member : set.testBit n) : ¬ other.testBit n := by
  have both : (set &&& other).testBit n = other.testBit n := by
    rw [Nat.testBit_and, member, Bool.true_and]
  rw [← both, apart, Nat.zero_testBit]
  exact Bool.false_ne_true

def CaseRun.count (run : CaseRun) : Nat := (run.last - run.first) / run.step + 1

/-- The code points with an upper case other than themselves. -/
def casedPoints : Nat :=
  union (fun run => spaced run.first run.step run.count) upperRuns |||
    union (fun entry => 1 <<< entry.1) upperExpansions

/-- The code points in the upper cases of those. -/
def capitalPoints : Nat :=
  union (fun run => spaced (run.first + run.shift).toNat run.step run.count) upperRuns |||
    union (fun entry => union (1 <<< ·) entry.2) upperExpansions

def blankPoints : Nat := union (fun r => spaced r.1 1 (r.2 + 1 - r.1)) blankRanges

theorem capitals_apart : capitalPoints &&& (casedPoints ||| blankPoints) = 0 := by
  decide +kernel

theorem testBit_casedPoints : casedPoints.testBit n ↔
    (∃ run ∈ upperRuns, ∃ k < run.count, n = run.first + run.step * k) ∨
      ∃ entry ∈ upperExpansions, n = entry.1 := by
  simp only [casedPoints, Nat.testBit_or, Bool.or_eq_true, testBit_union, testBit_spaced,
    testBit_one_shiftLeft]

theorem testBit_capitalPoints : capitalPoints.testBit n ↔
    (∃ run ∈ upperRuns, ∃ k < run.count, n = (run.first + run.shift).toNat + run.step * k) ∨
      ∃ entry ∈ upperExpansions, n ∈ entry.2 := by
  simp only [capitalPoints, Nat.testBit_or, Bool.or_eq_true, testBit_union, testBit_spaced,
    testBit_one_shiftLeft, exists_eq_right']

theorem isBlank_iff : isBlank c ↔ blankPoints.testBit c.toNat := by
  simp only [isBlank, blankPoints, List.any_eq_true, testBit_union, testBit_spaced,
    Bool.and_eq_true, decide_eq_true_eq]
  refine exists_congr fun r => and_congr_right fun _ => ?_
  constructor
  · rintro ⟨first, last⟩
    exact ⟨c.toNat - r.1, by omega, by omega⟩
  · rintro ⟨k, lt, at_k⟩
    omega

theorem CaseRun.exists_of_holds {run : CaseRun} (holds : run.holds n) :
    ∃ k < run.count, n = run.first + run.step * k := by
  simp only [CaseRun.holds, Bool.and_eq_true, decide_eq_true_eq, beq_iff_eq] at holds
  obtain ⟨⟨first, last⟩, whole⟩ := holds
  refine ⟨(n - run.first) / run.step, ?_, ?_⟩
  · exact Nat.lt_succ_of_le (Nat.div_le_div_right (Nat.sub_le_sub_right last _))
  · rw [Nat.mul_div_cancel' (Nat.dvd_of_mod_eq_zero whole), Nat.add_sub_cancel' first]

theorem lookup_upperExpansions (other : ∀ entry ∈ upperExpansions, n ≠ entry.1) :
    upperExpansions.lookup n = none :=
  List.lookup_eq_none_iff.mpr fun entry member => bne_iff_ne.mpr (other entry member)

theorem upperPoints_of_not_cased (uncased : ¬ casedPoints.testBit n) : upperPoints n = [n] := by
  rw [testBit_casedPoints, not_or] at uncased
  have expansion : upperExpansions.lookup n = none :=
    lookup_upperExpansions fun entry member same => uncased.2 ⟨entry, member, same⟩
  have run : upperRuns.find? (·.holds n) = none := by
    apply List.find?_eq_none.mpr
    intro run member holds
    exact uncased.1 ⟨run, member, CaseRun.exists_of_holds holds⟩
  rw [upperPoints, expansion, run]

theorem shift_nonneg : ∀ run ∈ upperRuns, 0 ≤ run.first + run.shift := by
  decide +kernel

theorem upperPoints_cases (n : Nat) :
    upperPoints n = [n] ∨ ∀ point ∈ upperPoints n, capitalPoints.testBit point := by
  unfold upperPoints
  split
  · next points found =>
      obtain ⟨before, after, table, _⟩ := List.lookup_eq_some_iff.mp found
      refine .inr fun point member => testBit_capitalPoints.mpr (.inr ?_)
      exact ⟨(n, points), table ▸ List.mem_append_right before List.mem_cons_self, member⟩
  · split
    · next run found =>
        have member := List.mem_of_find?_eq_some found
        have holds := List.find?_some found
        obtain ⟨k, lt, rfl⟩ := CaseRun.exists_of_holds holds
        refine .inr fun point image => testBit_capitalPoints.mpr (.inl ⟨run, member, k, lt, ?_⟩)
        have positive := shift_nonneg run member
        rw [List.mem_singleton.mp image]
        omega
    · exact .inl rfl

theorem upperPoints_of_ascii (ascii : n < 128) :
    upperPoints n = [if 0x61 ≤ n ∧ n ≤ 0x7a then n - 32 else n] := by
  have beyond : (∀ run ∈ upperRuns.tail, 128 ≤ run.first) ∧
      ∀ entry ∈ upperExpansions, 128 ≤ entry.1 := by decide +kernel
  have expansion : upperExpansions.lookup n = none := by
    apply lookup_upperExpansions
    intro entry member
    exact Nat.ne_of_lt (Nat.lt_of_lt_of_le ascii (beyond.2 entry member))
  have later : upperRuns.tail.find? (·.holds n) = none := by
    apply List.find?_eq_none.mpr
    intro run member holds
    obtain ⟨k, _, rfl⟩ := CaseRun.exists_of_holds holds
    have far := beyond.1 run member
    omega
  have table : upperRuns = ⟨0x61, 0x7a, 1, -32⟩ :: upperRuns.tail := rfl
  have letters : CaseRun.holds ⟨0x61, 0x7a, 1, -32⟩ n = decide (0x61 ≤ n ∧ n ≤ 0x7a) := by
    simp only [CaseRun.holds, Nat.mod_one, beq_self_eq_true, Bool.and_true, Bool.decide_and]
  rw [upperPoints, expansion, table, List.find?_cons, letters, later]
  by_cases letter : 0x61 ≤ n ∧ n ≤ 0x7a
  · rw [if_pos letter, decide_eq_true letter]
    exact congrArg (fun point => [point]) (Int.toNat_sub n 32)
  · rw [if_neg letter, decide_eq_false letter]

theorem upper_of_ascii (ascii : c.toNat < 128) : upper c = [c.toUpper] := by
  have moved : Char.ofNat (if 0x61 ≤ c.toNat ∧ c.toNat ≤ 0x7a then c.toNat - 32 else c.toNat) =
      c.toUpper :=
    forall_ascii (P := fun c => Char.ofNat (if 0x61 ≤ c.toNat ∧ c.toNat ≤ 0x7a then
      c.toNat - 32 else c.toNat) = c.toUpper) (by decide) ascii
  rw [upper, upperPoints_of_ascii ascii, List.map_singleton, moved]

/-- A character that stays as it is: it is no white space, and its own upper case. -/
def Settled (c : Char) : Prop := isBlank c = false ∧ upper c = [c]

instance (c : Char) : Decidable (Settled c) := inferInstanceAs (Decidable (_ ∧ _))

theorem settled_of_not_testBit (plain : ¬ (casedPoints ||| blankPoints).testBit c.toNat) :
    Settled c := by
  rw [Nat.testBit_or, Bool.or_eq_true, not_or] at plain
  constructor
  · rw [← Bool.not_eq_true, isBlank_iff]
    exact plain.2
  · rw [upper, upperPoints_of_not_cased plain.1, List.map_singleton, Char.ofNat_toNat]

theorem settled_of_capital (capital : capitalPoints.testBit point) :
    Settled (Char.ofNat point) := by
  by_cases null : (Char.ofNat point).toNat = 0
  · have same : Char.ofNat point = '\x00' := Char.toNat_inj.mp null
    rw [same]
    decide
  · apply settled_of_not_testBit
    rw [← toNat_of_ofNat rfl null]
    exact not_testBit_of_apart capitals_apart capital

theorem settled_of_mem_upper (visible : isBlank c = false) (member : d ∈ upper c) : Settled d := by
  rcases upperPoints_cases c.toNat with same | capitals
  · have own : upper c = [c] := by
      rw [upper, same, List.map_singleton, Char.ofNat_toNat]
    rw [own, List.mem_singleton] at member
    exact member ▸ ⟨visible, own⟩
  · obtain ⟨point, found, rfl⟩ := List.mem_map.mp member
    exact settled_of_capital (capitals point found)

end Polyphony.Text
