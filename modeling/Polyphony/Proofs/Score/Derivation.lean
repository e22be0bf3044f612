import Polyphony.Proofs.Score.Signs
import Polyphony.Score.Document

/-! A text lexes to the tokens of any list of items it is the text of, and to nothing else. -/
namespace Polyphony.Score

theorem text_items (items : List Item) :
    items.flatMap Item.text = (items.flatMap Item.signs).flatMap Sign.text := by
  rw [List.flatMap_assoc]
  rfl

theorem lexVoice_eq_ok_iff {text : List Char} {voice : Voice} :
    lexVoice text = .ok voice ↔
      ∃ items : List Item, items.flatMap Item.text = text ∧ items.flatMap Item.tokens = voice := by
  rw [lexVoice, lexFrom_eq_ok_iff]
  constructor
  · rintro ⟨signs, ahead, run⟩
    obtain ⟨items, rfl, tokens⟩ := run_free_iff.mp run
    exact ⟨items, by rw [text_items, ← ahead]; rfl, tokens.symm⟩
  · rintro ⟨items, rfl, rfl⟩
    exact ⟨items.flatMap Item.signs, text_items items, run_items items⟩

theorem voiceTexts_of_undivided {text : List Char} (noBar : '|' ∉ text) (noColon : ':' ∉ text) :
    voiceTexts text = [[text]] := by
  rw [voiceTexts, Text.pieces_of_not_mem noBar, List.map_singleton,
    Text.pieces_of_not_mem noColon]

/-- A text without bars and colons is one voice of one fragment. -/
theorem lex_of_undivided {text : List Char} (noBar : '|' ∉ text) (noColon : ':' ∉ text) :
    lex text = ((lexVoice text).mapError (⟨·, 0, 0⟩)).map fun voice => [{ voices := [voice] }] := by
  rw [lex, voiceTexts_of_undivided noBar noColon]
  simp only [List.zipIdx_singleton, List.mapM_cons, List.mapM_nil, lexFragment]
  cases lexVoice text <;> rfl

/-- A text lexes exactly when it is derived from the grammar, and then to the tokens of its
derivation, whichever derivation that is. -/
theorem lex_eq_ok_iff_derived {text : List Char} (noBar : '|' ∉ text) (noColon : ':' ∉ text)
    (fragments : List Fragment) :
    lex text = .ok fragments ↔
      ∃ items : List Item, items.flatMap Item.text = text ∧
        fragments = [{ voices := [items.flatMap Item.tokens] }] := by
  rw [lex_of_undivided noBar noColon, map_eq_ok_iff]
  constructor
  · rintro ⟨voice, lexed, rfl⟩
    obtain ⟨items, derived, rfl⟩ := lexVoice_eq_ok_iff.mp (mapError_eq_ok_iff.mp lexed)
    exact ⟨items, derived, rfl⟩
  · rintro ⟨items, derived, rfl⟩
    exact ⟨_, mapError_eq_ok_iff.mpr (lexVoice_eq_ok_iff.mpr ⟨items, derived, rfl⟩), rfl⟩

/-- The block comes out of its chord, and the shape's steps are added up. -/
theorem lex_chord_with_shape_and_block :
    '|' ∉ "0~[5<34>\x7bVOL=1\x7d]-'".toList ∧ ':' ∉ "0~[5<34>\x7bVOL=1\x7d]-'".toList ∧
      lex "0~[5<34>\x7bVOL=1\x7d]-'".toList = .ok [{ voices := [[.note ⟨0, 1⟩,
        .directive ⟨.volume, some "1"⟩, .chord [⟨5, 0⟩, ⟨3, 0⟩, ⟨7, 0⟩], .rest (-1)]] }] := by
  refine ⟨by decide, by decide, (lex_eq_ok_iff_derived (by decide) (by decide) _).mpr ?_⟩
  let volume : Entry :=
    ⟨['V', 'O', 'L'], some ['1'], by decide, by simp [closeBrace], by simp [closeBrace]⟩
  refine ⟨[.part (.note ⟨0, .tildes 1⟩), .chord [.part (.note ⟨5, .tildes 0⟩),
    .shape [.note ⟨3, .tildes 0⟩, .note ⟨4, .apostrophes 0⟩],
    .part (.instruction (.block volume []))] (by decide), .rest 1], by decide, by decide⟩

end Polyphony.Score
