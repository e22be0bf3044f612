import Mathlib.Data.List.Basic
import Mathlib.Logic.Relation
import Polyphony.Proofs.Text.Pieces
import Polyphony.Proofs.Text.UpperCase
import Polyphony.Score.Document
import Polyphony.Score.Layout

/-! A score is cut into the same voices before its layout is taken out and after. What is left has
no layout any more, and no edit of the layout changes it. -/
namespace Polyphony.Score

variable {text : List Char} {c separator : Char}

/-- What is left of a character when the layout is taken out. -/
def shown (c : Char) : List Char := if Text.isBlank c then [] else Text.upper c

theorem normalise_eq_flatMap (text : List Char) : normalise text = text.flatMap shown := by
  induction text with
  | nil => rfl
  | cons c text ih =>
      rw [List.flatMap_cons, ← ih, normalise, normalise, List.filter_cons, shown]
      cases Text.isBlank c <;> rfl

theorem normalise_eq_map (plain : ∀ c ∈ text, shown c = [c.toUpper]) :
    normalise text = text.map Char.toUpper := by
  rw [normalise_eq_flatMap, List.map_eq_flatMap]
  exact List.flatMap_congr plain

theorem pieces_normalise (untouched : Text.Untouched separator.toNat)
    (kept : shown separator = [separator]) (nonzero : separator.toNat ≠ 0) (text : List Char) :
    Text.pieces separator (normalise text) = (Text.pieces separator text).map normalise := by
  have written : normalise = List.flatMap shown := funext normalise_eq_flatMap
  rw [written]
  apply Text.pieces_flatMap kept
  intro c different member
  unfold shown at member
  split at member
  · exact List.not_mem_nil member
  · exact different ((Text.mem_upper_iff untouched nonzero).mp member).symm

theorem voiceTexts_normalise (text : List Char) :
    voiceTexts (normalise text) = (voiceTexts text).map (List.map normalise) := by
  have bars := pieces_normalise Text.untouched_bar (by decide) (by decide) text
  have colons := pieces_normalise Text.untouched_colon (by decide) (by decide)
  rw [voiceTexts, voiceTexts, bars, List.map_map, List.map_map]
  exact List.map_congr_left fun piece _ => colons piece

theorem shown_of_blank (blank : Text.isBlank c) : shown c = [] := if_pos blank

theorem shown_of_visible (visible : Text.isBlank c = false) : shown c = Text.upper c := by
  rw [shown, visible]
  rfl

theorem settled_of_mem_shown {d : Char} (member : d ∈ shown c) : Text.Settled d := by
  cases visible : Text.isBlank c with
  | true =>
      rw [shown_of_blank visible] at member
      cases member
  | false =>
      rw [shown_of_visible visible] at member
      exact Text.settled_of_mem_upper visible member

theorem settled_of_mem_normalise (member : c ∈ normalise text) : Text.Settled c := by
  rw [normalise_eq_flatMap, List.mem_flatMap] at member
  obtain ⟨_, _, found⟩ := member
  exact settled_of_mem_shown found

theorem normalise_eq_self_iff : normalise text = text ↔ ∀ c ∈ text, Text.Settled c := by
  constructor
  · intro same c member
    rw [← same] at member
    exact settled_of_mem_normalise member
  · intro settled
    have each : ∀ c ∈ text, shown c = [c] := by
      intro c member
      obtain ⟨visible, own⟩ := settled c member
      rw [shown_of_visible visible, own]
    rw [normalise_eq_flatMap, List.flatMap_congr each, List.flatMap_singleton']

theorem normalise_normalise (text : List Char) : normalise (normalise text) = normalise text :=
  normalise_eq_self_iff.mpr fun _ => settled_of_mem_normalise

/-- An ASCII letter in its other case, and all else as it is. -/
def otherCase (c : Char) : Char := if c.isUpper then c.toLower else c.toUpper

/-- One change to the layout of a text: white space is put in or taken out, or a letter is written
in its other case. -/
inductive Edit : List Char → List Char → Prop
  | insert (before after : List Char) (c : Char) :
      Text.isBlank c → Edit (before ++ after) (before ++ c :: after)
  | delete (before after : List Char) (c : Char) :
      Text.isBlank c → Edit (before ++ c :: after) (before ++ after)
  | recase (before after : List Char) (c : Char) :
      c.isAlpha → Edit (before ++ c :: after) (before ++ otherCase c :: after)

/-- One text is made of another by edits of the layout alone. -/
def Relaid : List Char → List Char → Prop := Relation.ReflTransGen Edit

theorem shown_of_ascii (ascii : c.toNat < 128) :
    shown c = if Text.isBlank c then [] else [c.toUpper] := by
  rw [shown, Text.upper_of_ascii ascii]

theorem shown_otherCase (c : Char) : shown (otherCase c) = shown c := by
  by_cases ascii : c.toNat < 128
  · have alike : (otherCase c).toNat < 128 ∧ Text.isBlank (otherCase c) = Text.isBlank c ∧
        (otherCase c).toUpper = c.toUpper :=
      Text.forall_ascii (P := fun c => (otherCase c).toNat < 128 ∧
        Text.isBlank (otherCase c) = Text.isBlank c ∧ (otherCase c).toUpper = c.toUpper)
        (by decide) ascii
    obtain ⟨within, blank, upper⟩ := alike
    rw [shown_of_ascii within, shown_of_ascii ascii, blank, upper]
  · have kept : otherCase c = c := by
      rw [otherCase, Text.toLower_of_not_ascii ascii, Text.toUpper_of_not_ascii ascii, ite_self]
    rw [kept]

variable {edited : List Char}

theorem Edit.normalise_eq (edit : Edit text edited) : normalise edited = normalise text := by
  simp only [normalise_eq_flatMap]
  cases edit with
  | insert before after c blank =>
      rw [List.flatMap_append, List.flatMap_cons, shown_of_blank blank, List.nil_append,
        List.flatMap_append]
  | delete before after c blank =>
      rw [List.flatMap_append, List.flatMap_append, List.flatMap_cons, shown_of_blank blank,
        List.nil_append]
  | recase before after c letter =>
      rw [List.flatMap_append, List.flatMap_append, List.flatMap_cons, List.flatMap_cons,
        shown_otherCase]

theorem Relaid.normalise_eq (relaid : Relaid text edited) : normalise edited = normalise text := by
  induction relaid with
  | refl => rfl
  | tail _ edit ih => exact edit.normalise_eq.trans ih

end Polyphony.Score
