import Polyphony.Proofs.Score.Refusal

/-! A voice is refused at the first character that nothing can follow to make it right: up to there
it is the beginning of a voice that can be read, and from there on it is refused whatever comes
next. Only a voice that ends too early and a block without an end depend on where the text stops. -/
namespace Polyphony.Score

open Nesting (Run Reads)

variable {state inner : Nesting} {signs : List Sign} {tokens : List Token}
  {text core rest : List Char} {cause : LexCause} {index : Nat}

/-- The text is the beginning of a voice that can be read. -/
def Extendable (text : List Char) : Prop := ∃ rest, Undivided rest ∧ Readable (text ++ rest)

theorem Extendable.of_append (undivided : Undivided rest) (extendable : Extendable (text ++ rest)) :
    Extendable text := by
  obtain ⟨more, plain, readable⟩ := extendable
  exact ⟨rest ++ more, undivided_append.mpr ⟨undivided, plain⟩, by rwa [← List.append_assoc]⟩

/-- Whatever is open can be closed. An open chord is given a note, in case it has none. -/
theorem exists_reads_free (state : Nesting) : ∃ text tokens, Reads state text tokens .free := by
  have closeChord : ∀ notes, ∃ text tokens, Reads (.chord notes) text tokens .free := by
    intro notes
    have note : Reads (.chord notes) ['0'] [] (.chord (notes ++ [⟨0, 0⟩])) :=
      .sign (.note ⟨0, .tildes 0⟩) (by decide) rfl
    have sounds : notes ++ [⟨0, 0⟩] ≠ [] := List.append_ne_nil_of_right_ne_nil _ (by decide)
    exact ⟨_, _, note.append (.sign .closeChord (by decide) (accept_closeChord sounds))⟩
  cases state with
  | free => exact ⟨[], [], .nil .free⟩
  | chord notes => exact closeChord notes
  | shape offset => exact ⟨_, _, .sign .closeShape (by decide) rfl⟩
  | chordShape notes offset =>
      obtain ⟨text, tokens, closes⟩ := closeChord notes
      have closeShape : Reads (.chordShape notes offset) ['>'] [] (.chord notes) :=
        .sign .closeShape (by decide) rfl
      exact ⟨_, _, closeShape.append closes⟩

theorem extendable_of_run (run : Run .free signs tokens inner)
    (undivided : Undivided (signs.flatMap Sign.text)) : Extendable (signs.flatMap Sign.text) := by
  have reads : Reads .free (signs.flatMap Sign.text) tokens inner := ⟨undivided, signs, rfl, run⟩
  obtain ⟨text, later, closes⟩ := exists_reads_free inner
  have whole := reads.append closes
  exact ⟨text, closes.undivided,
    (readable_iff whole.undivided).mpr ⟨_, lexVoice_of_reads whole⟩⟩

/-- What a cause is about: the end of the voice, a block without an end, the contents of a block,
or a single symbol. -/
inductive LexCause.Kind where
  | ending
  | openBlock
  | block
  | symbol

def LexCause.kind : LexCause → LexCause.Kind
  | .unclosedChord | .unclosedShape => .ending
  | .unclosedBlock => .openBlock
  | .emptyBlock | .namelessEntry _ => .block
  | _ => .symbol

theorem kind_of_unclosed? (missing : state.unclosed? = some cause) : cause.kind = .ending := by
  cases state <;> cases missing <;> rfl

theorem kind_of_accept {lexeme : Lexeme} (refused : state.accept lexeme = .error cause) :
    cause.kind = .symbol := by
  unfold Nesting.accept at refused
  split at refused <;> cases refused <;> rfl

theorem kind_of_readEntry {entry : List Char} (failed : readEntry entry = .error cause) :
    cause.kind = .block := by
  unfold readEntry at failed
  dsimp only at failed
  split at failed
  · cases failed; rfl
  · cases failed

theorem BlockFault.kind {contents : List Char} (faulty : BlockFault contents cause) :
    cause.kind = .block := by
  cases faulty with
  | empty => rfl
  | entry filled refused =>
      obtain ⟨_, _, _, failed, _⟩ := mapM_eq_error_iff.mp refused
      exact kind_of_readEntry failed

/-- Nothing mends a single symbol, or a block whose contents are at fault. -/
theorem Stuck.kind (stuck : Stuck state core cause) :
    (cause.kind = .symbol ∧ core.length = 1) ∨ cause.kind = .block ∧
      ∃ contents, core = openBrace :: (contents ++ [closeBrace]) ∧ closeBrace ∉ contents := by
  cases stuck with
  | misplaced bare refused => exact .inl ⟨kind_of_accept refused, rfl⟩
  | strayApostrophe => exact .inl ⟨rfl, rfl⟩
  | strayTilde => exact .inl ⟨rfl, rfl⟩
  | unknownSymbol noPitch noShorthand unknown => exact .inl ⟨rfl, rfl⟩
  | block closed faulty => exact .inr ⟨faulty.kind, _, rfl, closed⟩

/-- The index of a fault counts the characters up to the first that nothing can follow to make the
voice right. -/
structure LexFault.Located (text : List Char) (fault : LexFault) : Prop where
  one_le : 1 ≤ fault.index
  le_length : fault.index ≤ text.length
  ending : fault.cause.kind = .ending → fault.index = text.length ∧ Extendable text
  decided : fault.cause.kind = .symbol ∨ fault.cause.kind = .block → ∀ other, Undivided other →
    text.take fault.index <+: other → lex other = .error ⟨fault, 0, 0⟩
  before : fault.cause.kind = .symbol ∨ fault.cause.kind = .ending →
    Extendable (text.take (fault.index - 1))
  openBlock : fault.cause.kind = .openBlock → text[fault.index - 1]? = some openBrace ∧
    closeBrace ∉ text.drop fault.index ∧ Extendable (text.take (fault.index - 1))
  block : fault.cause.kind = .block → text[fault.index - 1]? = some closeBrace ∧
    ∃ before contents rest, text = before ++ openBrace :: (contents ++ closeBrace :: rest) ∧
      fault.index = before.length + contents.length + 2 ∧ closeBrace ∉ contents ∧
      Extendable before

theorem Extendable.take (undivided : Undivided text) (extendable : Extendable text) (n : Nat) :
    Extendable (text.take n) := by
  rw [← List.take_append_drop n text] at undivided extendable
  exact extendable.of_append (undivided_append.mp undivided).2

theorem located_of_ended (nonempty : text ≠ []) (kind : cause.kind = .ending)
    (undivided : Undivided text) (extendable : Extendable text) :
    LexFault.Located text ⟨cause, text.length⟩ where
  one_le := List.length_pos_iff.mpr nonempty
  le_length := Nat.le_refl _
  ending := fun _ => ⟨rfl, extendable⟩
  decided := fun other => by rw [kind] at other; rcases other with other | other <;> cases other
  before := fun _ => extendable.take undivided _
  openBlock := fun other => by rw [kind] at other; cases other
  block := fun other => by rw [kind] at other; cases other

theorem located_of_unclosedBlock {read : List Char} (extendable : Extendable read)
    (unclosed : closeBrace ∉ rest) :
    LexFault.Located (read ++ openBrace :: rest) ⟨.unclosedBlock, read.length + 1⟩ where
  one_le := Nat.le_add_left _ _
  le_length := by
    rw [List.length_append, List.length_cons]
    exact Nat.add_le_add_left (Nat.le_add_left 1 _) _
  ending := fun other => by cases other
  decided := fun other => by rcases other with other | other <;> cases other
  before := fun other => by rcases other with other | other <;> cases other
  openBlock := fun _ => by
    refine ⟨?_, ?_, ?_⟩
    · rw [Nat.add_sub_cancel, List.getElem?_append_right (Nat.le_refl _), Nat.sub_self]
      rfl
    · have behind : (read ++ openBrace :: rest).drop (read.length + 1) = rest := by
        rw [List.drop_length_add_append]
        rfl
      rwa [behind]
    · rwa [Nat.add_sub_cancel, List.take_left]
  block := fun other => by cases other

/-- Whatever comes behind the text that nothing mends, the fault is the same. -/
theorem located_of_stuck {read : List Char} (extendable : Extendable read)
    (stuck : Stuck inner core cause)
    (refusal : ∀ rest, Refusal .free (read ++ (core ++ rest)) cause (read.length + core.length))
    (rest : List Char) :
    LexFault.Located (read ++ (core ++ rest)) ⟨cause, read.length + core.length⟩ where
  one_le := by
    have length := List.length_pos_iff.mpr stuck.ne_nil
    exact Nat.le_trans length (Nat.le_add_left _ _)
  le_length := by
    rw [List.length_append, List.length_append, ← Nat.add_assoc]
    exact Nat.le_add_right _ _
  ending := fun other => by
    rcases stuck.kind with ⟨kind, _⟩ | ⟨kind, _⟩ <;> rw [kind] at other <;> cases other
  decided := fun _ other undivided shared => by
    rw [← List.append_assoc, ← List.length_append, List.take_left] at shared
    obtain ⟨more, rfl⟩ := shared
    rw [List.append_assoc] at undivided ⊢
    exact (lex_eq_error_iff_lexVoice undivided).mpr
      ⟨rfl, rfl, lexVoice_eq_error_iff.mpr (refusal more)⟩
  before := fun other => by
    rcases stuck.kind with ⟨_, single⟩ | ⟨kind, _⟩
    · rwa [single, Nat.add_sub_cancel, List.take_left]
    · rw [kind] at other
      rcases other with other | other <;> cases other
  openBlock := fun other => by
    rcases stuck.kind with ⟨kind, _⟩ | ⟨kind, _⟩ <;> rw [kind] at other <;> cases other
  block := fun other => by
    rcases stuck.kind with ⟨kind, _⟩ | ⟨_, contents, rfl, closed⟩
    · rw [kind] at other
      cases other
    · have whole : read ++ (openBrace :: (contents ++ [closeBrace]) ++ rest) =
          read ++ openBrace :: contents ++ closeBrace :: rest := by
        simp only [List.append_assoc, List.cons_append, List.nil_append]
      have length : (openBrace :: (contents ++ [closeBrace])).length = contents.length + 2 :=
        congrArg (· + 1) List.length_append
      have passed : (read ++ openBrace :: contents).length = read.length + contents.length + 1 :=
        List.length_append
      refine ⟨?_, read, contents, rest, ?_, ?_, closed, extendable⟩
      · rw [whole, length, ← Nat.add_assoc, Nat.add_sub_cancel (m := 1), ← passed,
          List.getElem?_append_right (Nat.le_refl _), Nat.sub_self]
        rfl
      · rw [whole, List.append_assoc, List.cons_append]
      · rw [length, Nat.add_assoc]

theorem ne_nil_of_run (run : Run .free signs tokens inner) (missing : inner.unclosed? = some cause) :
    signs.flatMap Sign.text ≠ [] := by
  cases run with
  | nil => cases missing
  | @cons _ _ _ sign signs _ _ accepted run =>
      rw [List.flatMap_cons]
      exact List.append_ne_nil_of_left_ne_nil sign.text_ne_nil _

theorem located_of_refusal (undivided : Undivided text) (refusal : Refusal .free text cause index) :
    LexFault.Located text ⟨cause, index⟩ := by
  cases refusal with
  | ended run missing =>
      exact located_of_ended (ne_nil_of_run run missing) (kind_of_unclosed? missing) undivided
        (extendable_of_run run undivided)
  | unclosedBlock run unclosed =>
      have extendable := extendable_of_run run (undivided_append.mp undivided).1
      exact located_of_unclosedBlock extendable unclosed
  | stuck run stuck ends rest =>
      have extendable := extendable_of_run run (undivided_append.mp undivided).1
      exact located_of_stuck extendable stuck (.stuck run stuck ends) rest

/-- A voice is refused at the first character that no continuation can mend. -/
theorem lex_fault_located {text : List Char} (undivided : Undivided text) {e : LexError}
    (refused : lex text = .error e) : e.fragment = 0 ∧ e.voice = 0 ∧ e.fault.Located text := by
  obtain ⟨fragment, voice, failed⟩ := (lex_eq_error_iff_lexVoice undivided).mp refused
  exact ⟨fragment, voice, located_of_refusal undivided (lexVoice_eq_error_iff.mp failed)⟩

/-- The block in the shape is refused for its second entry, whatever stands behind it. What stands
before it can still become a voice. -/
theorem lex_nameless_entry :
    Undivided "0~[3<4\x7bVOL=1,=2\x7d5".toList ∧
      lex "0~[3<4\x7bVOL=1,=2\x7d5".toList = .error ⟨⟨.namelessEntry "=2", 16⟩, 0, 0⟩ ∧
      lex "0~[3<4\x7bVOL=1,=2\x7d>]-".toList = .error ⟨⟨.namelessEntry "=2", 16⟩, 0, 0⟩ ∧
      ∃ before contents rest, "0~[3<4\x7bVOL=1,=2\x7d5".toList =
          before ++ openBrace :: (contents ++ closeBrace :: rest) ∧
        16 = before.length + contents.length + 2 ∧ closeBrace ∉ contents ∧ Extendable before := by
  have undivided : Undivided "0~[3<4\x7bVOL=1,=2\x7d5".toList := by decide
  have refused : lex "0~[3<4\x7bVOL=1,=2\x7d5".toList =
      .error ⟨⟨.namelessEntry "=2", 16⟩, 0, 0⟩ := by decide +kernel
  obtain ⟨_, _, located⟩ := lex_fault_located undivided refused
  exact ⟨undivided, refused, located.decided (.inr rfl) _ (by decide) (by decide),
    (located.block rfl).2⟩

end Polyphony.Score
