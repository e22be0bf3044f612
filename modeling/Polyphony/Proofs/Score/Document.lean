import Polyphony.Proofs.Score.Derivation
import Polyphony.Score.Layout

/-! Voices are read one by one, so texts that are joined by a bar are read side by side, and what is
added to the end of a text is read at the end of its last voice. -/
namespace Polyphony.Score

variable {text first second : List Char} {fragments : List Fragment} {fragment : Fragment}
  {voice later : Voice}

theorem normalise_append (first second : List Char) :
    normalise (first ++ second) = normalise first ++ normalise second := by
  simp [normalise]

theorem normalise_bar : normalise ['|'] = ['|'] := by decide

/-- The fragment is what the texts of its voices are read to. -/
def Fragment.ReadFrom (texts : List (List Char)) (fragment : Fragment) : Prop :=
  ∃ voices, List.Forall₂ (fun text voice => lexVoice text = .ok voice) texts voices ∧
    fragment = { voices }

theorem lexFragment_eq_ok_iff {k : Nat} {texts : List (List Char)} :
    lexFragment k texts = .ok fragment ↔ fragment.ReadFrom texts := by
  have voices : ∀ {result : List Voice}, texts.zipIdx.mapM (fun item =>
        (lexVoice item.1).mapError (LexError.mk · k item.2)) = .ok result ↔
      List.Forall₂ (fun text voice => lexVoice text = .ok voice) texts result :=
    mapM_zipIdx_eq_ok_iff fun _ _ _ => mapError_eq_ok_iff
  constructor
  · intro lexed
    obtain ⟨result, each, built⟩ := bind_eq_ok_iff.mp lexed
    exact ⟨result, voices.mp each, (Except.ok.inj built).symm⟩
  · rintro ⟨result, each, rfl⟩
    exact bind_eq_ok_iff.mpr ⟨result, voices.mpr each, rfl⟩

theorem lex_eq_ok_iff :
    lex text = .ok fragments ↔
      List.Forall₂ (fun texts fragment => Fragment.ReadFrom texts fragment)
        (voiceTexts text) fragments :=
  mapM_zipIdx_eq_ok_iff fun _ _ _ => lexFragment_eq_ok_iff

theorem voiceTexts_append_bar (first second : List Char) :
    voiceTexts (first ++ '|' :: second) = voiceTexts first ++ voiceTexts second := by
  rw [voiceTexts, Text.pieces_append_separator, List.map_append]
  rfl

/-- Texts on both sides of a bar are read each on its own. -/
theorem lex_append_bar :
    lex (first ++ '|' :: second) = .ok fragments ↔
      ∃ left right, lex first = .ok left ∧ lex second = .ok right ∧ fragments = left ++ right := by
  simp only [lex_eq_ok_iff, voiceTexts_append_bar]
  constructor
  · exact forall₂_append_left
  · rintro ⟨left, right, before, after, rfl⟩
    exact List.rel_append before after

/-- A voice that is complete leaves nothing open for the text behind it. -/
theorem lexVoice_append (before : lexVoice first = .ok voice)
    (after : lexVoice second = .ok later) : lexVoice (first ++ second) = .ok (voice ++ later) := by
  obtain ⟨items, rfl, rfl⟩ := lexVoice_eq_ok_iff.mp before
  obtain ⟨others, rfl, rfl⟩ := lexVoice_eq_ok_iff.mp after
  refine lexVoice_eq_ok_iff.mpr ⟨items ++ others, ?_, ?_⟩
  · exact List.flatMap_append
  · exact List.flatMap_append

/-- What stands behind a text of one fragment goes on with its last voice. -/
theorem lex_append_of_single (single : lex first = .ok [fragment])
    (noBar : '|' ∉ second) (noColon : ':' ∉ second) (read : lexVoice second = .ok later) :
    ∃ others last, fragment = { voices := others ++ [last] } ∧
      lex (first ++ second) = .ok [{ voices := others ++ [last ++ later] }] := by
  obtain ⟨before, text, cut, longer⟩ := Text.exists_pieces_append first noBar
  have fragments := lex_eq_ok_iff.mp single
  rw [voiceTexts, cut] at fragments
  cases before with
  | cons head tail =>
      have length := fragments.length_eq
      simp at length
  | nil =>
      obtain ⟨_, _, ⟨voices, each, rfl⟩, _, same⟩ := List.forall₂_cons_left_iff.mp fragments
      obtain ⟨rfl, _⟩ := List.cons.inj same
      obtain ⟨texts, final, inner, extended⟩ := Text.exists_pieces_append text noColon
      rw [inner] at each
      obtain ⟨others, tail, befores, lasts, rfl⟩ := forall₂_append_left each
      obtain ⟨last, _, ends, none, rfl⟩ := List.forall₂_cons_left_iff.mp lasts
      cases none
      refine ⟨others, last, rfl, lex_eq_ok_iff.mpr ?_⟩
      rw [voiceTexts, longer]
      refine .cons ⟨others ++ [last ++ later], ?_, rfl⟩ .nil
      rw [extended]
      exact List.rel_append befores (.cons (lexVoice_append ends read) .nil)

end Polyphony.Score
