import Polyphony.Proofs.Compile
import Polyphony.Proofs.Decimal.Numeral
import Polyphony.Proofs.Score.Document
import Polyphony.Proofs.Score.Layout
import Polyphony.Proofs.Timeline.Silence

/-! Rests, shorthands and volumes behind the last note of a voice are not heard. A score compiles to
the same tracks with them, unless something runs out: the time in which they are counted, or the
bits of an octave or a slur. -/
namespace Polyphony.Score

theorem normalise_numeric {number : List Char} (numeric : ∀ c ∈ number, Decimal.Numeric c) :
    normalise number = number.map Char.toUpper := by
  have table : Decimal.numeralChars.all fun c => shown c = [c.toUpper] := by decide +kernel
  apply normalise_eq_map
  intro c member
  exact of_decide_eq_true (List.all_eq_true.mp table c (numeric c member))

theorem volume_plain : ∀ c ∈ ['V', 'O', 'L'], c ≠ '=' ∧ c ≠ ',' ∧ c ≠ closeBrace := by
  simp [closeBrace]

theorem number_plain {number : List Char} (numeric : ∀ c ∈ number, Decimal.Numeric c) :
    ∀ text ∈ some (number.map Char.toUpper), ∀ c ∈ text, c ≠ ',' ∧ c ≠ closeBrace := by
  have table : Decimal.numeralChars.all fun c => c.toUpper ≠ ',' ∧ c.toUpper ≠ closeBrace := by
    decide +kernel
  intro text same c member
  cases same
  obtain ⟨digit, inside, rfl⟩ := List.mem_map.mp member
  exact of_decide_eq_true (List.all_eq_true.mp table digit (numeric digit inside))

/-- A block that sets the volume, in upper case. -/
def volumeEntry (number : List Char) (numeric : ∀ c ∈ number, Decimal.Numeric c) : Entry where
  name := ['V', 'O', 'L']
  value := some (number.map Char.toUpper)
  named := List.cons_ne_nil _ _
  name_plain := volume_plain
  value_plain := number_plain numeric

theorem ofName_volume : Effect.ofName (String.ofList ['V', 'O', 'L']) = .volume := by decide

/-- A rest, a shorthand, or a block that sets the volume to a number. -/
inductive Silence where
  | rest (apostrophes : Nat)
  | shorthand (sign : Shorthand)
  | volume (number : List Char) (x : Binary64) (reads : Decimal.read? number = some x)

namespace Silence

def text : Silence → List Char
  | rest count => '-' :: List.replicate count apostrophe
  | shorthand sign => [sign.symbol]
  | volume number _ _ => openBrace :: 'v' :: 'o' :: 'l' :: '=' :: number ++ [closeBrace]

def sign : Silence → Sign
  | rest count => .rest count
  | shorthand sign => .instruction (.shorthand sign)
  | volume number _ reads =>
    .instruction (.block (volumeEntry number (Decimal.numeric_of_read? reads)) [])

def token : Silence → Token
  | rest count => .rest (-count)
  | shorthand sign => .directive ⟨sign.effect, none⟩
  | volume number _ _ => .directive ⟨.volume, some (String.ofList (number.map Char.toUpper))⟩

theorem normalise_text (silence : Silence) : normalise silence.text = silence.sign.text := by
  cases silence with
  | rest count =>
      have marks : ∀ c ∈ '-' :: List.replicate count apostrophe, c = '-' ∨ c = apostrophe := by
        intro c member
        exact (List.mem_cons.mp member).imp_right List.eq_of_mem_replicate
      rw [text, normalise_eq_map, List.map_cons, List.map_replicate]
      · rfl
      · intro c member
        rcases marks c member with rfl | rfl <;> decide
  | shorthand sign => cases sign <;> decide
  | volume number x reads =>
      have opening : normalise [openBrace, 'v', 'o', 'l', '='] =
          [openBrace, 'V', 'O', 'L', '='] := by decide
      have closing : normalise [closeBrace] = [closeBrace] := by decide
      change normalise ([openBrace, 'v', 'o', 'l', '='] ++ number ++ [closeBrace]) = _
      rw [normalise_append, normalise_append, opening, closing,
        normalise_numeric (Decimal.numeric_of_read? reads), sign, Sign.text, Instruction.text,
        List.flatMap_nil, List.append_nil]
      rfl

theorem accept_sign (silence : Silence) :
    Nesting.free.accept silence.sign.lexeme = .ok ([silence.token], .free) := by
  cases silence with
  | rest count => rfl
  | shorthand sign => cases sign <;> rfl
  | volume number x reads =>
      change Except.ok ([Token.directive ⟨.ofName _, _⟩], Nesting.free) = _
      rw [volumeEntry, ofName_volume]
      rfl

theorem lexVoice_texts (silences : List Silence) :
    lexVoice (normalise (silences.flatMap text)) = .ok (silences.map token) := by
  induction silences with
  | nil => exact lexFrom_eq_ok_iff.mpr ⟨[], rfl, .nil .free⟩
  | cons silence silences ih =>
      have first : lexVoice silence.sign.text = .ok [silence.token] := lexFrom_eq_ok_iff.mpr
        ⟨[silence.sign], (List.flatMap_singleton _ _).symm, .single silence.accept_sign⟩
      rw [List.flatMap_cons, normalise_append, normalise_text]
      exact lexVoice_append first ih

theorem silent_token (silence : Silence) : silence.token.Silent := by
  cases silence with
  | rest count => trivial
  | shorthand sign => cases sign <;> exact ⟨trivial, by decide⟩
  | volume number x reads =>
      refine ⟨⟨x, ?_⟩, ?_⟩
      · rw [Directive.number?, Option.getD_some, String.toList_ofList, Decimal.read?_toUpper, reads]
      · simp [Directive.Shared]

end Silence

/-- The second text is the first one with silence behind it. -/
def FollowedBySilence (text text' : List Char) : Prop :=
  ∃ silences : List Silence, text' = text ++ silences.flatMap Silence.text

theorem lexVoice_followed {text text' : List Char} {voice : Voice}
    (followed : FollowedBySilence text text') (lexed : lexVoice (normalise text) = .ok voice) :
    ∃ voice', lexVoice (normalise text') = .ok voice' ∧ Timeline.Lengthened voice voice' := by
  obtain ⟨silences, rfl⟩ := followed
  refine ⟨voice ++ silences.map Silence.token, ?_, silences.map Silence.token, ?_, rfl⟩
  · rw [normalise_append]
    exact lexVoice_append lexed (Silence.lexVoice_texts silences)
  · intro token member
    obtain ⟨silence, _, rfl⟩ := List.mem_map.mp member
    exact silence.silent_token

/-- Silence behind voices leaves the rest of their fragment as it was. -/
theorem readFrom_followed {texts texts' : List (List Char)} {fragment : Fragment}
    (followed : List.Forall₂ FollowedBySilence texts texts')
    (read : Fragment.ReadFrom (texts.map normalise) fragment) :
    ∃ fragment', Fragment.ReadFrom (texts'.map normalise) fragment' ∧
      Timeline.FragmentLengthened fragment fragment' := by
  obtain ⟨voices, each, rfl⟩ := read
  rw [List.forall₂_map_left_iff] at each
  obtain ⟨voices', each', lengthened⟩ := exists_forall₂_and (forall₂_comp followed.flip each)
    fun text' voice found => by
      obtain ⟨text, followed, lexed⟩ := found
      exact lexVoice_followed followed lexed
  refine ⟨{ voices := voices' }, ⟨voices', ?_, rfl⟩, rfl, lengthened⟩
  exact List.forall₂_map_left_iff.mpr each'

theorem lex_followed {text text' : List Char} {fragments : List Fragment}
    (followed : List.Forall₂ (List.Forall₂ FollowedBySilence) (voiceTexts text) (voiceTexts text'))
    (lexed : lex (normalise text) = .ok fragments) :
    ∃ fragments', lex (normalise text') = .ok fragments' ∧
      List.Forall₂ Timeline.FragmentLengthened fragments fragments' := by
  rw [lex_eq_ok_iff, voiceTexts_normalise, List.forall₂_map_left_iff] at lexed
  simp only [lex_eq_ok_iff, voiceTexts_normalise, List.forall₂_map_left_iff]
  apply exists_forall₂_and (forall₂_comp followed.flip lexed)
  intro texts' fragment found
  obtain ⟨texts, followed, read⟩ := found
  exact readFrom_followed followed read

end Polyphony.Score

namespace Polyphony

open Score (FollowedBySilence Silence lex normalise voiceTexts)
open Timeline (Fits Track schedule seconds)

/-- Silence behind the voices of a score changes nothing in any track. It can only let the time of a
voice overflow, and then that is what the error says, or call for a number that does not fit into 32
bits, which ends the program. -/
theorem compile_trailing_silence (o : Options) (source source' : String) (tracks : List Track)
    (compiled : compile o source = .ok tracks)
    (followed : List.Forall₂ (List.Forall₂ FollowedBySilence) (voiceTexts source.toList)
      (voiceTexts source'.toList)) :
    compile o source' = .ok tracks ∨
      (∃ clock, compile o source' = .error (.schedule (.clockOverflow clock)) ∧
        (Error.schedule (.clockOverflow clock)).message =
          "Schedule error: " ++ ("Voice time overflows after " ++ seconds clock)) ∨
      ∃ fragments operation, lex (normalise source'.toList) = .ok fragments ∧ ¬ Fits o fragments ∧
        compile o source' = .error (.schedule (.overflow operation)) := by
  obtain ⟨usable, fragments, lexed, scheduled⟩ := compile_eq_ok_iff.mp compiled
  obtain ⟨fragments', lexed', lengthened⟩ := Score.lex_followed followed lexed
  have stages : compile o source' = (schedule o fragments').mapError .schedule := by
    rw [compile, check_eq_ok_iff.mpr usable, ok_bind, lexed']
    rfl
  have outcome : Timeline.SameUnlessExhausted (schedule o fragments) (schedule o fragments') :=
    Timeline.scheduleFrom_lengthened lengthened
  rcases outcome with same | ⟨fault, failed, ⟨clock, rfl⟩ | ⟨operation, rfl⟩⟩
  · left
    rw [stages, same]
    exact mapError_eq_ok_iff.mpr scheduled
  · right
    left
    refine ⟨clock, ?_, rfl⟩
    rw [stages, failed]
    rfl
  · right
    right
    refine ⟨fragments', operation, lexed', ?_, ?_⟩
    · exact Timeline.not_fits_of_overflow failed ⟨operation, rfl⟩
    · rw [stages, failed]
      rfl

/-- The last fragment starts when it did, and the voices before it last as long as they did. Behind
a note of `1e308` seconds there is no time for a rest, and behind one that starts from the highest
root note a checked build has no octave. -/
theorem compile_quiet_endings :
    let source := "00:1~|3"
    let source' := "00-''\x7bvol=0.5\x7d:1~^-S|3VL-"
    let tracks : List Track :=
      [{ events := [⟨0, 1, 1, 48, 1⟩, ⟨1, 1, 1, 48, 1⟩] }, { events := [⟨0, 2, 2, 49, 1⟩] },
        { events := [⟨2, 1, 1, 51, 1⟩] }]
    let long := "\x7bnotelength=1e308\x7d0"
    let late := "\x7bnotelength=1e308\x7d0-"
    let huge : Binary64 := .ofNat (10 ^ 308)
    let highest : Options := { rootNote := 2147483647 }
    compile {} source = .ok tracks ∧ compile {} source' = .ok tracks ∧
      compile {} long = .ok [{ events := [⟨0, huge, huge, 48, 1⟩] }] ∧
      compile {} late = .error (.schedule (.clockOverflow huge)) ∧
      (∃ clock, compile {} late = .error (.schedule (.clockOverflow clock)) ∧
        (Error.schedule (.clockOverflow clock)).message =
          "Schedule error: " ++ ("Voice time overflows after " ++ seconds clock)) ∧
      ∃ fragments operation, lex (normalise "0^".toList) = .ok fragments ∧
        ¬ Fits highest fragments ∧ compile highest "0^" = .error (.schedule (.overflow operation)) := by
  intro source source' tracks long late huge highest
  have compiled : compile {} source = .ok tracks := by decide +kernel
  have quiet : compile {} source' = .ok tracks := by decide +kernel
  have compiled' : compile {} long = .ok [{ events := [⟨0, huge, huge, 48, 1⟩] }] := by
    decide +kernel
  have failed : compile {} late = .error (.schedule (.clockOverflow huge)) := by decide +kernel
  have half : Decimal.read? "0.5".toList = some (1 / 2) := by decide +kernel
  have followed : List.Forall₂ (List.Forall₂ FollowedBySilence) (voiceTexts source.toList)
      (voiceTexts source'.toList) := by
    have texts : voiceTexts source.toList = [["00".toList, "1~".toList], ["3".toList]] := by
      decide +kernel
    have texts' : voiceTexts source'.toList =
        [["00-''\x7bvol=0.5\x7d".toList, "1~^-S".toList], ["3VL-".toList]] := by decide +kernel
    rw [texts, texts']
    refine .cons (.cons ⟨[.rest 2, .volume _ _ half], ?_⟩ (.cons ⟨[.shorthand .octaveUp, .rest 0,
      .shorthand .slurDown], ?_⟩ .nil)) (.cons (.cons ⟨[.shorthand .octaveDown, .shorthand .slurUp,
      .rest 0], ?_⟩ .nil) .nil)
    · rfl
    · rfl
    · rfl
  have followed' : List.Forall₂ (List.Forall₂ FollowedBySilence) (voiceTexts long.toList)
      (voiceTexts late.toList) := by
    have texts : voiceTexts long.toList = [[long.toList]] := by decide +kernel
    have texts' : voiceTexts late.toList = [[late.toList]] := by decide +kernel
    rw [texts, texts']
    refine .cons (.cons ⟨[.rest 0], ?_⟩ .nil) .nil
    decide +kernel
  have followed'' : List.Forall₂ (List.Forall₂ FollowedBySilence) (voiceTexts "0".toList)
      (voiceTexts "0^".toList) := by
    have texts : voiceTexts "0".toList = [["0".toList]] := by decide +kernel
    have texts' : voiceTexts "0^".toList = [["0^".toList]] := by decide +kernel
    rw [texts, texts']
    exact .cons (.cons ⟨[.shorthand .octaveUp], rfl⟩ .nil) .nil
  have compiled'' : compile highest "0" = .ok [{ events := [⟨0, 1, 1, 2147483647, 1⟩] }] := by
    decide +kernel
  have ended : compile highest "0^" = .error (.schedule (.overflow .add)) := by decide +kernel
  refine ⟨compiled, ?_, compiled', failed, ?_, ?_⟩
  · rcases compile_trailing_silence {} source source' tracks compiled followed with
      given | ⟨clock, overflow, _⟩ | ⟨_, _, _, _, overflow⟩
    · exact given
    · rw [quiet] at overflow
      cases overflow
    · rw [quiet] at overflow
      cases overflow
  · rcases compile_trailing_silence {} long late _ compiled' followed' with
      given | overflow | ⟨_, _, _, _, overflow⟩
    · rw [failed] at given
      cases given
    · exact overflow
    · rw [failed] at overflow
      cases overflow
  · rcases compile_trailing_silence highest "0" "0^" _ compiled'' followed'' with
      given | ⟨clock, overflow, _⟩ | overflow
    · rw [ended] at given
      cases given
    · rw [ended] at overflow
      cases overflow
    · exact overflow

end Polyphony
