import Mathlib.Data.List.TakeWhile
import Polyphony.Decimal.Reading
import Polyphony.Proofs.Text.LetterCase

/-! A numeral is written in ASCII letters and digits, signs and points, and it may be written in
upper case. -/
namespace Polyphony.Decimal

variable {text : List Char} {c : Char}

def numeralChars : List Char := "0123456789+-.AEFINTYaefinty".toList

def Numeric (c : Char) : Prop := c ∈ numeralChars

instance (c : Char) : Decidable (Numeric c) := inferInstanceAs (Decidable (c ∈ numeralChars))

theorem numeric_of_isDigit (digit : c.isDigit) : Numeric c := by
  have bounds := digit
  simp only [Char.isDigit, Bool.and_eq_true, decide_eq_true_eq, UInt32.le_iff_toNat_le] at bounds
  have ascii : c.toNat < 128 := Nat.lt_of_le_of_lt bounds.2 (by decide)
  exact Text.forall_ascii (P := fun c => c.isDigit → Numeric c) (by decide) ascii digit

theorem splitSign_cons (c : Char) (rest : List Char) :
    splitSign (c :: rest) =
      if c = '-' then (true, rest) else if c = '+' then (false, rest) else (false, c :: rest) := by
  unfold splitSign
  split <;> simp_all

theorem numeric_of_splitSign (numeric : ∀ c ∈ (splitSign text).2, Numeric c) :
    ∀ c ∈ text, Numeric c := by
  cases text with
  | nil => exact numeric
  | cons first rest =>
      rw [splitSign_cons] at numeric
      split_ifs at numeric with minus plus
      · exact List.forall_mem_cons.mpr ⟨by subst minus; decide, numeric⟩
      · exact List.forall_mem_cons.mpr ⟨by subst plus; decide, numeric⟩
      · exact numeric

theorem readExponent?_cons (mark : Char) (rest : List Char) :
    readExponent? (mark :: rest) =
      let (negative, digits) := splitSign rest
      if (mark = 'e' ∨ mark = 'E') ∧ digits ≠ [] ∧ digits.all Char.isDigit then
        some (if negative then -(natOf digits) else natOf digits)
      else none := by
  simp only [readExponent?]
  by_cases letter : mark = 'e' ∨ mark = 'E'
  · have noMark : ¬ (mark ≠ 'e' ∧ mark ≠ 'E') := by grind
    rw [if_neg noMark]
    simp only [letter, true_and, List.isEmpty_iff]
    grind
  · have noMark : mark ≠ 'e' ∧ mark ≠ 'E' := by grind
    rw [if_pos noMark, if_neg fun accepted => letter accepted.1]

theorem numeric_of_readExponent? {exponent : Int} (read : readExponent? text = some exponent) :
    ∀ c ∈ text, Numeric c := by
  cases text with
  | nil => exact List.forall_mem_nil _
  | cons mark rest =>
      rw [readExponent?_cons] at read
      dsimp only at read
      split at read
      · next accepted =>
          refine List.forall_mem_cons.mpr ⟨?_, numeric_of_splitSign ?_⟩
          · rcases accepted.1 with rfl | rfl <;> decide
          · intro c member
            exact numeric_of_isDigit (List.all_eq_true.mp accepted.2.2 c member)
      · cases read

/-- The digits behind a point, if there is one, and what follows them. -/
def pointed : List Char → List Char × List Char
  | '.' :: rest => (rest.takeWhile Char.isDigit, rest.dropWhile Char.isDigit)
  | text => ([], text)

theorem pointed_cons (c : Char) (rest : List Char) :
    pointed (c :: rest) =
      if c = '.' then (rest.takeWhile Char.isDigit, rest.dropWhile Char.isDigit)
      else ([], c :: rest) := by
  unfold pointed
  split <;> simp_all

theorem readUnsigned?_eq (negative : Bool) (text : List Char) :
    readUnsigned? negative text =
      let whole := text.takeWhile Char.isDigit
      let (fraction, after) := pointed (text.dropWhile Char.isDigit)
      if whole.isEmpty ∧ fraction.isEmpty then none
      else (readExponent? after).map fun exponent =>
        .ofDecimal negative (natOf (whole ++ fraction)) (exponent - fraction.length) := by
  unfold readUnsigned? pointed
  cases text.dropWhile Char.isDigit with
  | nil => rfl
  | cons c rest => rfl

theorem numeric_of_takeWhile (numeric : ∀ c ∈ text.dropWhile Char.isDigit, Numeric c) :
    ∀ c ∈ text, Numeric c := by
  intro c member
  rw [← List.takeWhile_append_dropWhile (p := Char.isDigit) (l := text)] at member
  rcases List.mem_append.mp member with digit | rest
  · exact numeric_of_isDigit (List.mem_takeWhile_imp digit)
  · exact numeric c rest

theorem numeric_of_pointed (numeric : ∀ c ∈ (pointed text).2, Numeric c) :
    ∀ c ∈ text, Numeric c := by
  cases text with
  | nil => exact numeric
  | cons first rest =>
      rw [pointed_cons] at numeric
      split at numeric
      · next point =>
          subst point
          exact List.forall_mem_cons.mpr ⟨by decide, numeric_of_takeWhile numeric⟩
      · exact numeric

theorem numeric_of_readUnsigned? {negative : Bool} {x : Binary64}
    (read : readUnsigned? negative text = some x) : ∀ c ∈ text, Numeric c := by
  rw [readUnsigned?_eq] at read
  dsimp only at read
  split at read
  · cases read
  · obtain ⟨exponent, exponent_read, _⟩ := Option.map_eq_some_iff.mp read
    exact numeric_of_takeWhile (numeric_of_pointed (numeric_of_readExponent? exponent_read))

def wordLetters : List Char := ['a', 'f', 'i', 'n', 't', 'y']

theorem numeric_of_toLower : c.toLower ∈ wordLetters → Numeric c := by
  have letters : wordLetters.all (· ∈ numeralChars) := by decide
  have same : ∀ c, c ∈ wordLetters → Numeric c := fun c member =>
    of_decide_eq_true (List.all_eq_true.mp letters c member)
  exact Text.toLower_cases (P := fun c lower => lower ∈ wordLetters → Numeric c) same
    (by decide) c

/-- A word in some letter case. -/
theorem numeric_of_word {word : List Char} (same : text.map Char.toLower = word)
    (letters : word.all (· ∈ wordLetters)) : ∀ c ∈ text, Numeric c := by
  intro c member
  have letter := List.all_eq_true.mp letters c.toLower (same ▸ List.mem_map_of_mem member)
  exact numeric_of_toLower (of_decide_eq_true letter)

theorem numeric_of_read? {x : Binary64} (read : read? text = some x) :
    ∀ c ∈ text, Numeric c := by
  apply numeric_of_splitSign
  unfold read? at read
  dsimp only at read
  split at read
  · next infinite =>
      rcases infinite with same | same
      · exact numeric_of_word same (by decide)
      · exact numeric_of_word same (by decide)
  · split at read
    · next same => exact numeric_of_word same (by decide)
    · exact numeric_of_readUnsigned? read

theorem isDigit_toUpper (c : Char) : c.toUpper.isDigit = c.isDigit :=
  Text.toUpper_cases (P := fun c upper => upper.isDigit = c.isDigit) (fun _ => rfl)
    (by decide) c

theorem toUpper_of_isDigit : c.isDigit → c.toUpper = c :=
  Text.toUpper_cases (P := fun c upper => c.isDigit → upper = c) (fun _ _ => rfl)
    (by decide) c

theorem toLower_toUpper (c : Char) : c.toUpper.toLower = c.toLower :=
  Text.toUpper_cases (P := fun c upper => upper.toLower = c.toLower) (fun _ => rfl)
    (by decide) c

theorem toUpper_eq_iff (c : Char) :
    (c.toUpper = '+' ↔ c = '+') ∧ (c.toUpper = '-' ↔ c = '-') ∧ (c.toUpper = '.' ↔ c = '.') :=
  Text.toUpper_cases (P := fun c upper =>
      (upper = '+' ↔ c = '+') ∧ (upper = '-' ↔ c = '-') ∧ (upper = '.' ↔ c = '.'))
    (fun _ => ⟨Iff.rfl, Iff.rfl, Iff.rfl⟩) (by decide) c

theorem toUpper_eq_mark_iff : c.toUpper = 'e' ∨ c.toUpper = 'E' ↔ c = 'e' ∨ c = 'E' :=
  Text.toUpper_cases (P := fun c upper => upper = 'e' ∨ upper = 'E' ↔ c = 'e' ∨ c = 'E')
    (fun _ => Iff.rfl) (by decide) c

theorem map_toUpper_of_isDigit (digits : ∀ c ∈ text, c.isDigit) : text.map Char.toUpper = text :=
  (List.map_congr_left fun c member => toUpper_of_isDigit (digits c member)).trans (List.map_id _)

theorem takeWhile_toUpper (text : List Char) :
    (text.map Char.toUpper).takeWhile Char.isDigit = text.takeWhile Char.isDigit := by
  have same : Char.isDigit ∘ Char.toUpper = Char.isDigit := funext isDigit_toUpper
  rw [List.takeWhile_map, same]
  exact map_toUpper_of_isDigit fun c member => List.mem_takeWhile_imp member

theorem dropWhile_toUpper (text : List Char) :
    (text.map Char.toUpper).dropWhile Char.isDigit =
      (text.dropWhile Char.isDigit).map Char.toUpper := by
  have same : Char.isDigit ∘ Char.toUpper = Char.isDigit := funext isDigit_toUpper
  rw [List.dropWhile_map, same]

theorem splitSign_toUpper (text : List Char) :
    splitSign (text.map Char.toUpper) =
      ((splitSign text).1, (splitSign text).2.map Char.toUpper) := by
  cases text with
  | nil => rfl
  | cons c rest =>
      obtain ⟨plus, minus, _⟩ := toUpper_eq_iff c
      simp only [List.map_cons, splitSign_cons, minus, plus]
      split_ifs <;> rfl

theorem pointed_toUpper (text : List Char) :
    pointed (text.map Char.toUpper) = ((pointed text).1, (pointed text).2.map Char.toUpper) := by
  cases text with
  | nil => rfl
  | cons c rest =>
      obtain ⟨_, _, point⟩ := toUpper_eq_iff c
      simp only [List.map_cons, pointed_cons, point, takeWhile_toUpper, dropWhile_toUpper]
      split_ifs <;> rfl

theorem readExponent?_toUpper (text : List Char) :
    readExponent? (text.map Char.toUpper) = readExponent? text := by
  cases text with
  | nil => rfl
  | cons mark rest =>
      have same : Char.isDigit ∘ Char.toUpper = Char.isDigit := funext isDigit_toUpper
      rw [List.map_cons, readExponent?_cons, readExponent?_cons, splitSign_toUpper]
      simp only [toUpper_eq_mark_iff, ne_eq, List.map_eq_nil_iff, List.all_map, same]
      by_cases digits : (splitSign rest).2.all Char.isDigit
      · rw [map_toUpper_of_isDigit (List.all_eq_true.mp digits)]
      · rw [if_neg fun accepted => digits accepted.2.2, if_neg fun accepted => digits accepted.2.2]

/-- Letter case carries no meaning in a numeral. -/
theorem read?_toUpper (text : List Char) : read? (text.map Char.toUpper) = read? text := by
  have lower : Char.toLower ∘ Char.toUpper = Char.toLower := funext toLower_toUpper
  have unsigned : ∀ negative text,
      readUnsigned? negative (text.map Char.toUpper) = readUnsigned? negative text := by
    intro negative text
    rw [readUnsigned?_eq, readUnsigned?_eq, takeWhile_toUpper, dropWhile_toUpper, pointed_toUpper]
    simp only [readExponent?_toUpper]
  unfold read?
  rw [splitSign_toUpper]
  simp only [List.map_map, lower, unsigned]

end Polyphony.Decimal
