import Polyphony.Proofs.Score.Document
import Polyphony.Proofs.Score.Written

/-! Every voice that comes out of lexing can be written down, and what is written down is read back,
so lexing yields exactly the scores that can be written. The invariant of the scanner is that the
pitch of an open shape is that of the note right before it. -/
namespace Polyphony.Score

open Nesting (Run)

variable {text : List Char} {before : Option Int} {state inner last : Nesting} {sign : Sign}
  {tokens : List Token} {code : NoteCode} {name : String} {value : Option String}

theorem Undivided.of_subset {part : List Char} (undivided : Undivided text)
    (inside : ∀ c ∈ part, c ∈ text) : Undivided part :=
  ⟨fun member => undivided.1 (inside _ member), fun member => undivided.2 (inside _ member)⟩

theorem Undivided.ne {c : Char} (undivided : Undivided text) (member : c ∈ text) :
    c ≠ '|' ∧ c ≠ ':' :=
  ⟨fun same => undivided.1 (same ▸ member), fun same => undivided.2 (same ▸ member)⟩

theorem writable_ofName (named : NameText name) (values : ∀ text ∈ value, ValueText text) :
    Directive.Writable ⟨.ofName name, value⟩ := by
  by_cases known : Known name
  · obtain ⟨entry, member, same⟩ := known
    have effects : ∀ entry ∈ Effect.named, Effect.named.lookup entry.1 = some entry.2 ∧
        entry.2 ∈ [.volume, .noteLength, .rhythm, .tempo] := by decide
    obtain ⟨found, told⟩ := effects entry member
    rw [Effect.ofName, same, found, Option.getD_some]
    simp only [List.mem_cons, List.not_mem_nil, or_false] at told
    rcases told with same | same | same | same
    · rw [same]; exact values
    · rw [same]; exact values
    · rw [same]; exact values
    · rw [same]; exact values
  · rw [ofName_of_not_known known]
    exact ⟨⟨named, known⟩, values⟩

theorem Entry.writable (e : Entry) (undivided : Undivided e.text) : e.directive.Writable := by
  have name_inside : ∀ c ∈ e.name, c ∈ e.text := fun c member => List.mem_append_left _ member
  refine writable_ofName ⟨?_, ?_⟩ ?_
  · intro empty
    exact e.named (String.ofList_eq_empty_iff.mp empty)
  · intro c member
    rw [String.toList_ofList] at member
    obtain ⟨equals, comma, brace⟩ := e.name_plain c member
    obtain ⟨bar, colon⟩ := undivided.ne (name_inside c member)
    exact ⟨equals, by simp [Separators, comma, brace, bar, colon]⟩
  · intro value written c member
    obtain ⟨characters, found, rfl⟩ := Option.map_eq_some_iff.mp written
    rw [String.toList_ofList] at member
    obtain ⟨comma, brace⟩ := e.value_plain characters found c member
    have inside : c ∈ e.text := by
      rw [Entry.text, found]
      exact List.mem_append_right _ (List.mem_cons_of_mem '=' member)
    obtain ⟨bar, colon⟩ := undivided.ne inside
    simp [Separators, comma, brace, bar, colon]

theorem Instruction.writable (i : Instruction) (undivided : Undivided i.text) :
    ∀ d ∈ i.directives, d.Writable := by
  cases i with
  | shorthand s =>
      intro d member
      obtain rfl := List.mem_singleton.mp member
      cases s <;> rfl
  | block first others =>
      intro d member
      obtain ⟨e, found, rfl⟩ := List.mem_map.mp member
      refine e.writable (undivided.of_subset fun c inside => ?_)
      have piece : e.text ∈ first.text :: others.map Entry.text :=
        List.mem_map_of_mem (f := Entry.text) found
      rw [text_block]
      exact List.mem_cons_of_mem _ (List.mem_append_left _ (Text.mem_joined piece inside))

theorem writableFrom_append {first second : Voice} :
    WritableFrom before (first ++ second) ↔
      WritableFrom before first ∧ WritableFrom (first.foldl pitchAfter before) second := by
  induction first generalizing before with
  | nil => exact (true_and _).symm.to_iff
  | cons token rest ih =>
      change _ ∧ WritableFrom _ (rest ++ second) ↔ (_ ∧ _) ∧ _
      rw [ih, and_assoc]
      rfl

theorem writableFrom_directives (block : List Directive) :
    WritableFrom before (block.map .directive) ↔ ∀ d ∈ block, d.Writable := by
  induction block with
  | nil => exact iff_of_true trivial (List.forall_mem_nil _)
  | cons d block ih =>
      rw [List.forall_mem_cons, ← ih]
      rfl

theorem pitchAfter_directives (block : List Directive) :
    (block.map Token.directive).foldl pitchAfter before = before := by
  induction block with
  | nil => rfl
  | cons d block ih => exact ih

theorem inReach_concat {notes : List NoteCode} :
    InReach before (notes ++ [code]) ↔ InReach before notes ∧
      Reachable ((notes.getLast?.map NoteCode.pitch).or before) code.pitch := by
  induction notes generalizing before with
  | nil => exact and_comm
  | cons first rest ih =>
      change _ ∧ InReach _ (rest ++ [code]) ↔ (_ ∧ _) ∧ _
      rw [ih, and_assoc, List.getLast?_cons]
      cases rest.getLast? <;> rfl

/-- A shape that is open has the pitch of the note right before it, unless it has no note yet. -/
def Nesting.Follows (before : Option Int) : Nesting → Prop
  | .free => True
  | .shape offset => 0 ≤ offset ∧ (offset = 0 ∨ before = some offset)
  | .chord notes => InReach none notes
  | .chordShape notes offset => InReach none notes ∧ 0 ≤ offset ∧
      (offset = 0 ∨ notes.getLast?.map NoteCode.pitch = some offset)

theorem reachable_class (p : Fin 12) : Reachable before p.val := by
  have class_le := p.isLt
  exact ⟨by omega, fun high => by omega⟩

theorem reachable_risen {offset : Int} (nonneg : 0 ≤ offset)
    (follows : offset = 0 ∨ before = some offset) (p : Fin 12) :
    Reachable before (offset + p.val) := by
  rcases follows with rfl | rfl
  · rw [Int.zero_add]
    exact reachable_class p
  · refine ⟨by omega, fun _ => ⟨offset, rfl, ?_, ?_⟩⟩
    · omega
    · omega

/-- One sign completes tokens that can be written, and leaves open what follows them. -/
theorem Nesting.Follows.accept (follows : state.Follows before) (undivided : Undivided sign.text)
    (accepted : state.accept sign.lexeme = .ok (tokens, inner)) :
    WritableFrom before tokens ∧ inner.Follows (tokens.foldl pitchAfter before) := by
  cases sign with
  | instruction i =>
      have block : tokens = i.directives.map .directive ∧ inner = state := by
        cases state <;> cases accepted <;> exact ⟨rfl, rfl⟩
      obtain ⟨rfl, rfl⟩ := block
      rw [pitchAfter_directives, writableFrom_directives]
      exact ⟨i.writable undivided, follows⟩
  | note n =>
      cases state with
      | free => cases accepted; exact ⟨⟨reachable_class n.pitchClass, trivial⟩, trivial⟩
      | shape offset =>
          cases accepted
          have reachable := reachable_risen follows.1 follows.2 n.pitchClass
          exact ⟨⟨reachable, trivial⟩, reachable.1, .inr rfl⟩
      | chord notes =>
          cases accepted
          exact ⟨trivial, inReach_concat.mpr ⟨follows, reachable_class n.pitchClass⟩⟩
      | chordShape notes offset =>
          cases accepted
          obtain ⟨reach, nonneg, rises⟩ := follows
          have reachable := reachable_risen nonneg rises n.pitchClass
          refine ⟨trivial, inReach_concat.mpr ⟨reach, ?_⟩, reachable.1, .inr ?_⟩
          · rwa [Option.or_none]
          · rw [List.getLast?_concat]
            rfl
  | rest count =>
      cases state <;> cases accepted
      have nonpos : -(count : Int) ≤ 0 := by omega
      exact ⟨⟨nonpos, trivial⟩, trivial⟩
  | openChord =>
      cases state <;> cases accepted
      exact ⟨trivial, trivial⟩
  | closeChord =>
      cases state with
      | chord notes =>
          cases notes with
          | nil => cases accepted
          | cons note notes =>
              cases accepted
              exact ⟨⟨⟨List.cons_ne_nil _ _, follows⟩, trivial⟩, trivial⟩
      | free => cases accepted
      | shape offset => cases accepted
      | chordShape notes offset => cases accepted
  | openShape =>
      cases state with
      | free => cases accepted; exact ⟨trivial, Int.le_refl 0, .inl rfl⟩
      | chord notes => cases accepted; exact ⟨trivial, follows, Int.le_refl 0, .inl rfl⟩
      | shape offset => cases accepted
      | chordShape notes offset => cases accepted
  | closeShape =>
      cases state with
      | shape offset => cases accepted; exact ⟨trivial, trivial⟩
      | chordShape notes offset => cases accepted; exact ⟨trivial, follows.1⟩
      | free => cases accepted
      | chord notes => cases accepted

theorem writable_of_run {signs : List Sign} (run : Run state signs tokens last)
    (follows : state.Follows before) (undivided : ∀ sign ∈ signs, Undivided sign.text) :
    WritableFrom before tokens := by
  induction run generalizing before with
  | nil state => trivial
  | cons accepted rest ih =>
      obtain ⟨first, others⟩ := List.forall_mem_cons.mp undivided
      obtain ⟨writable, follows⟩ := follows.accept first accepted
      exact writableFrom_append.mpr ⟨writable, ih follows others⟩

theorem writable_of_lexVoice {voice : Voice} (undivided : Undivided text)
    (lexed : lexVoice text = .ok voice) : Writable voice := by
  obtain ⟨signs, ahead, run⟩ := lexFrom_eq_ok_iff.mp lexed
  have same : text = signs.flatMap Sign.text := ahead
  refine writable_of_run run trivial fun sign member => undivided.of_subset fun c inside => ?_
  rw [same]
  exact List.mem_flatMap.mpr ⟨sign, member, inside⟩

theorem writable_of_readFrom {texts : List (List Char)} {fragment : Fragment}
    (nonempty : texts ≠ []) (undivided : ∀ text ∈ texts, Undivided text)
    (read : fragment.ReadFrom texts) : fragment.Writable := by
  obtain ⟨voices, each, rfl⟩ := read
  refine ⟨?_, rfl, fun voice member => ?_⟩
  · rintro (rfl : voices = [])
    exact nonempty (List.forall₂_nil_right_iff.mp each)
  · obtain ⟨text, found, lexed⟩ := exists_of_mem_right each member
    exact writable_of_lexVoice (undivided text found) lexed

/-- A score that is read has a fragment, and all its fragments can be written. -/
theorem writable_of_lex {fragments : List Fragment} (lexed : lex text = .ok fragments) :
    fragments ≠ [] ∧ ∀ fragment ∈ fragments, fragment.Writable := by
  have read := lex_eq_ok_iff.mp lexed
  constructor
  · rintro rfl
    have none := List.forall₂_nil_right_iff.mp read
    exact Text.pieces_ne_nil text (List.map_eq_nil_iff.mp none)
  · intro fragment member
    obtain ⟨texts, found, read⟩ := exists_of_mem_right read member
    obtain ⟨piece, cut, rfl⟩ := List.mem_map.mp found
    refine writable_of_readFrom (Text.pieces_ne_nil piece) (fun voice inside => ?_) read
    obtain ⟨noColon, inPiece⟩ := Text.piece_of_mem_pieces inside
    exact ⟨fun bar => (Text.piece_of_mem_pieces cut).1 (inPiece _ bar), noColon⟩

theorem Fragment.Writable.voices_undivided {fragment : Fragment} (writable : fragment.Writable) :
    ∀ text ∈ fragment.voices.map voiceText, Undivided text := by
  intro text member
  obtain ⟨voice, found, rfl⟩ := List.mem_map.mp member
  exact undivided_voiceText (writable.each voice found)

theorem Fragment.Writable.readFrom {fragment : Fragment} (writable : fragment.Writable) :
    fragment.ReadFrom (Text.pieces ':' fragment.text) := by
  have undivided := writable.voices_undivided
  have nonempty : fragment.voices.map voiceText ≠ [] := fun empty =>
    writable.voices_ne_nil (List.map_eq_nil_iff.mp empty)
  rw [Fragment.text, Text.pieces_spliced nonempty fun text member => (undivided text member).2]
  refine ⟨fragment.voices, ?_, ?_⟩
  · rw [List.forall₂_map_left_iff, List.forall₂_same]
    exact fun voice member => lexVoice_voiceText (writable.each voice member)
  · rw [← writable.relative]

theorem Fragment.Writable.bar_not_mem {fragment : Fragment} (writable : fragment.Writable) :
    '|' ∉ fragment.text := by
  intro member
  rcases Text.eq_or_mem_of_mem_spliced member with colon | ⟨text, found, inside⟩
  · exact absurd colon (by decide)
  · exact (writable.voices_undivided text found).1 inside

theorem lex_scoreText {fragments : List Fragment} (nonempty : fragments ≠ [])
    (writable : ∀ fragment ∈ fragments, fragment.Writable) :
    lex (scoreText fragments) = .ok fragments := by
  have texts_ne_nil : fragments.map Fragment.text ≠ [] := fun empty =>
    nonempty (List.map_eq_nil_iff.mp empty)
  have no_bar : ∀ text ∈ fragments.map Fragment.text, '|' ∉ text := by
    intro text member
    obtain ⟨fragment, found, rfl⟩ := List.mem_map.mp member
    exact (writable fragment found).bar_not_mem
  rw [lex_eq_ok_iff, voiceTexts, scoreText, Text.pieces_spliced texts_ne_nil no_bar, List.map_map,
    List.forall₂_map_left_iff, List.forall₂_same]
  exact fun fragment member => (writable fragment member).readFrom

theorem lex_voiceText {voice : Voice} (writable : Writable voice) :
    lex (voiceText voice) = .ok [{ voices := [voice] }] := by
  have undivided := undivided_voiceText writable
  rw [lex_of_undivided undivided.1 undivided.2, lexVoice_voiceText writable]
  rfl

/-- Lexing yields exactly the voices that can be written, and of these exactly the scores with a
fragment that has a voice. What is written for them is read back. -/
theorem lex_yields_what_can_be_written :
    (∀ voice : Voice, (∃ text, Undivided text ∧ lex text = .ok [{ voices := [voice] }]) ↔
      Writable voice) ∧
    (∀ voice : Voice, Writable voice → Undivided (voiceText voice) ∧
      lex (voiceText voice) = .ok [{ voices := [voice] }]) ∧
    (∀ fragments : List Fragment, (∃ text, lex text = .ok fragments) ↔
      fragments ≠ [] ∧ ∀ fragment ∈ fragments, fragment.Writable) ∧
    ∀ fragments : List Fragment, fragments ≠ [] → (∀ fragment ∈ fragments, fragment.Writable) →
      lex (scoreText fragments) = .ok fragments := by
  refine ⟨fun voice => ⟨?_, fun writable => ?_⟩, fun voice writable => ?_,
    fun fragments => ⟨?_, fun writable => ?_⟩, fun fragments => lex_scoreText⟩
  · rintro ⟨text, _, lexed⟩
    exact ((writable_of_lex lexed).2 _ (List.mem_singleton_self _)).each voice
      (List.mem_singleton_self voice)
  · exact ⟨voiceText voice, undivided_voiceText writable, lex_voiceText writable⟩
  · exact ⟨undivided_voiceText writable, lex_voiceText writable⟩
  · rintro ⟨text, lexed⟩
    exact writable_of_lex lexed
  · exact ⟨scoreText fragments, lex_scoreText writable.1 writable.2⟩

/-- A shape that climbs past two octaves with a block on the way, a chord with a shape of its own,
and a rest; then a pitch that nothing before it leads up to. -/
def climb : Voice :=
  [.note ⟨7, 0⟩, .note ⟨18, -1⟩, .directive ⟨.unknown "ECHO", some "A=B"⟩, .note ⟨29, 2⟩,
    .chord [⟨0, 0⟩, ⟨11, 0⟩, ⟨22, 1⟩], .rest (-2), .note ⟨4, 0⟩]

theorem lex_climb :
    Writable climb ∧
      lex "<7E'{ECHO=A=B}E~~>".toList = .ok [{ voices := [climb.take 4] }] ∧
      lex (voiceText climb) = .ok [{ voices := [climb] }] ∧
      ¬ Writable (climb ++ [.note ⟨16, 0⟩]) ∧
      ¬ ∃ text, Undivided text ∧ lex text = .ok [{ voices := [climb ++ [.note ⟨16, 0⟩]] }] := by
  have writable : Writable climb := by decide
  have high : ¬ Writable (climb ++ [.note ⟨16, 0⟩]) := by decide
  obtain ⟨image, written, _⟩ := lex_yields_what_can_be_written
  exact ⟨writable, by decide +kernel, (written climb writable).2, high,
    fun read => high ((image _).mp read)⟩

end Polyphony.Score
