import Polyphony.Proofs.Score.Voices

/-! The scanner reads signs to the end of the text, to a block without an end, or to a text that
nothing behind it mends, and that is the only way in which it fails. The index of a fault counts the
characters up to there, so what is read before only moves it. -/
namespace Polyphony.Score

open Nesting (Run)

variable {state inner : Nesting} {signs : List Sign} {tokens : List Token} {sign : Sign}
  {text core rest : List Char} {cause : LexCause} {index : Nat} {c : Cursor} {fault : LexFault}

/-- What is wrong with the contents of a block. -/
inductive BlockFault : List Char → LexCause → Prop where
  | empty : BlockFault [] .emptyBlock
  | entry {contents : List Char} {cause : LexCause} (filled : contents ≠ [])
      (refused : (Text.pieces ',' contents).mapM readEntry = .error cause) :
      BlockFault contents cause

theorem readBlock_eq_unclosed (unclosed : closeBrace ∉ c.ahead) :
    readBlock c = .error ⟨.unclosedBlock, c.index⟩ := by
  rw [readBlock, Cursor.scanTo?, if_neg unclosed]

theorem readBlock_eq_error {contents : List Char}
    (ahead : c.ahead = contents ++ closeBrace :: rest) (closed : closeBrace ∉ contents)
    (faulty : BlockFault contents cause) :
    readBlock c = .error ⟨cause, c.index + (contents.length + 1)⟩ := by
  have found := Cursor.scanTo?_append_cons ahead closed
  cases faulty with
  | empty => rw [readBlock, found]; rfl
  | entry filled refused =>
      unfold readBlock
      split
      · next none => rw [found] at none; cases none
      · next empty =>
          rw [found, Option.some.injEq, Prod.mk.injEq] at empty
          exact absurd empty.1 filled
      · next some =>
          rw [found] at some
          cases some
          rw [refused]
          rfl

theorem fault_of_readBlock (failed : readBlock c = .error fault) :
    (closeBrace ∉ c.ahead ∧ fault = ⟨.unclosedBlock, c.index⟩) ∨
      ∃ contents rest, c.ahead = contents ++ closeBrace :: rest ∧ closeBrace ∉ contents ∧
        BlockFault contents fault.cause ∧ fault.index = c.index + (contents.length + 1) := by
  by_cases present : closeBrace ∈ c.ahead
  · obtain ⟨contents, rest, ahead, closed⟩ := List.eq_append_cons_of_mem present
    refine .inr ⟨contents, rest, ahead, closed, ?_⟩
    have found := Cursor.scanTo?_append_cons ahead closed
    unfold readBlock at failed
    split at failed
    · next none => rw [found] at none; cases none
    · next empty =>
        rw [found] at empty
        cases empty
        cases failed
        exact ⟨.empty, rfl⟩
    · next filled some =>
        rw [found] at some
        cases some
        split at failed
        · next refused =>
            cases failed
            exact ⟨.entry filled refused, rfl⟩
        · cases failed
  · rw [readBlock_eq_unclosed present] at failed
    exact .inl ⟨present, (Except.error.inj failed).symm⟩

/-- With so much open, this text cannot be gone on with, whatever comes behind it. -/
inductive Stuck (state : Nesting) : List Char → LexCause → Prop where
  | misplaced {sign : Sign} {symbol : Char} {cause : LexCause} (bare : sign.text = [symbol])
      (refused : state.accept sign.lexeme = .error cause) : Stuck state [symbol] cause
  | strayApostrophe : Stuck state [apostrophe] .strayApostrophe
  | strayTilde : Stuck state ['~'] .strayTilde
  | unknownSymbol {symbol : Char} (noPitch : pitchClass? symbol = none)
      (noShorthand : shorthand? symbol = none)
      (unknown : symbol ∉ ['-', '[', ']', '<', '>', openBrace, apostrophe, '~']) :
      Stuck state [symbol] (.unknownSymbol symbol)
  | block {contents : List Char} {cause : LexCause} (closed : closeBrace ∉ contents)
      (faulty : BlockFault contents cause) :
      Stuck state (openBrace :: (contents ++ [closeBrace])) cause

theorem Stuck.ne_nil (stuck : Stuck state core cause) : core ≠ [] := by
  cases stuck <;> exact List.cons_ne_nil _ _

theorem lexFrom_of_refused {symbol : Char} {lexeme : Lexeme} {after : Cursor}
    (ahead : c.ahead = symbol :: rest) (read : Lexeme.read symbol (c.pass 1) = .ok (lexeme, after))
    (refused : state.accept lexeme = .error cause) :
    lexFrom state c = .error ⟨cause, c.index + 1⟩ := by
  rw [lexFrom_cons ahead, read]
  dsimp only
  rw [refused]

theorem lexFrom_of_fault {symbol : Char} (ahead : c.ahead = symbol :: rest)
    (failed : Lexeme.read symbol (c.pass 1) = .error fault) : lexFrom state c = .error fault := by
  rw [lexFrom_cons ahead, failed]

theorem read_openBrace (c : Cursor) :
    Lexeme.read openBrace c = (readBlock c).map fun read => (.directives read.1, read.2) := by
  unfold Lexeme.read
  cases readBlock c <;> rfl

theorem read_unknown {symbol : Char} (noPitch : pitchClass? symbol = none)
    (noShorthand : shorthand? symbol = none)
    (unknown : symbol ∉ ['-', '[', ']', '<', '>', openBrace, apostrophe, '~']) (c : Cursor) :
    Lexeme.read symbol c = .error ⟨.unknownSymbol symbol, c.index⟩ := by
  simp only [List.mem_cons, List.not_mem_nil, or_false, not_or] at unknown
  simp only [Lexeme.read, noPitch, noShorthand, unknown, if_false]

/-- Which mark a rest carries makes no difference to whether it may stand there. -/
theorem accept_rest_error {m : Int} (refused : state.accept (.rest m) = .error cause) (n : Int) :
    state.accept (.rest n) = .error cause := by
  cases state with
  | free => cases refused
  | _ => exact refused

theorem accept_note_ne_error (n : NoteSign) : state.accept (Sign.note n).lexeme ≠ .error cause := by
  cases state <;> exact fun refused => by cases refused

theorem accept_instruction_ne_error (i : Instruction) :
    state.accept (Sign.instruction i).lexeme ≠ .error cause := by
  cases state <;> exact fun refused => by cases refused

theorem lexFrom_of_stuck (stuck : Stuck state core cause) (ahead : c.ahead = core ++ rest) :
    lexFrom state c = .error ⟨cause, c.index + core.length⟩ := by
  cases stuck with
  | @misplaced sign symbol _ bare refused =>
      cases sign with
      | note n => exact absurd refused (accept_note_ne_error n)
      | instruction i => exact absurd refused (accept_instruction_ne_error i)
      | rest count =>
          obtain ⟨rfl, _⟩ := List.cons.inj bare
          exact lexFrom_of_refused ahead rfl (accept_rest_error refused _)
      | openChord => cases bare; exact lexFrom_of_refused ahead rfl refused
      | closeChord => cases bare; exact lexFrom_of_refused ahead rfl refused
      | openShape => cases bare; exact lexFrom_of_refused ahead rfl refused
      | closeShape => cases bare; exact lexFrom_of_refused ahead rfl refused
  | strayApostrophe => exact lexFrom_of_fault ahead rfl
  | strayTilde => exact lexFrom_of_fault ahead rfl
  | unknownSymbol noPitch noShorthand unknown =>
      exact lexFrom_of_fault ahead (read_unknown noPitch noShorthand unknown _)
  | @block contents _ closed faulty =>
      rw [List.cons_append, List.append_assoc] at ahead
      have behind : (c.pass 1).ahead = contents ++ closeBrace :: rest :=
        @Cursor.ahead_pass_append c [openBrace] _ ahead
      have failed := readBlock_eq_error behind closed faulty
      rw [lexFrom_of_fault ahead (by rw [read_openBrace, failed]; rfl)]
      have length : (openBrace :: (contents ++ [closeBrace])).length = contents.length + 2 :=
        congrArg (· + 1) List.length_append
      rw [length]
      change Except.error (LexFault.mk cause (c.index + 1 + (contents.length + 1))) = _
      congr 2
      omega

/-- A sign that is refused is refused for its first character. -/
theorem stuck_of_refused {symbol : Char} {tail : List Char} (text : sign.text = symbol :: tail)
    (refused : state.accept sign.lexeme = .error cause) : Stuck state [symbol] cause := by
  cases sign with
  | note n => exact absurd refused (accept_note_ne_error n)
  | instruction i => exact absurd refused (accept_instruction_ne_error i)
  | rest count =>
      cases text
      exact @Stuck.misplaced state (.rest 0) _ _ rfl (accept_rest_error refused 0)
  | openChord => cases text; exact .misplaced rfl refused
  | closeChord => cases text; exact .misplaced rfl refused
  | openShape => cases text; exact .misplaced rfl refused
  | closeShape => cases text; exact .misplaced rfl refused

/-- Reading fails at a block without an end, or at a text that nothing mends. -/
theorem stuck_of_read {symbol : Char} (state : Nesting)
    (failed : Lexeme.read symbol c = .error fault) :
    (symbol = openBrace ∧ closeBrace ∉ c.ahead ∧ fault = ⟨.unclosedBlock, c.index⟩) ∨
      ∃ core rest, symbol :: c.ahead = core ++ rest ∧ Stuck state core fault.cause ∧
        fault.index + 1 = c.index + core.length := by
  have single : ∀ {cause : LexCause}, Stuck state [symbol] cause → fault = ⟨cause, c.index⟩ →
      ∃ core rest, symbol :: c.ahead = core ++ rest ∧ Stuck state core fault.cause ∧
        fault.index + 1 = c.index + core.length := by
    rintro cause stuck rfl
    exact ⟨[symbol], c.ahead, rfl, stuck, rfl⟩
  cases noPitch : pitchClass? symbol with
  | some pitch => rw [Lexeme.read, noPitch] at failed; cases failed
  | none =>
      cases noShorthand : shorthand? symbol with
      | some effect => rw [Lexeme.read, noPitch, noShorthand] at failed; cases failed
      | none =>
          by_cases known : symbol ∈ ['-', '[', ']', '<', '>', openBrace, apostrophe, '~']
          · simp only [List.mem_cons, List.not_mem_nil, or_false] at known
            rcases known with rfl | rfl | rfl | rfl | rfl | rfl | rfl | rfl
            · cases failed
            · cases failed
            · cases failed
            · cases failed
            · cases failed
            · rw [read_openBrace, map_eq_error_iff] at failed
              rcases fault_of_readBlock failed with ⟨unclosed, same⟩ |
                ⟨contents, rest, ahead, closed, faulty, index⟩
              · exact .inl ⟨rfl, unclosed, same⟩
              · refine .inr ⟨_, rest, ?_, .block closed faulty, ?_⟩
                · rw [ahead, List.cons_append, List.append_assoc, List.singleton_append]
                · rw [index, List.length_cons, List.length_append, List.length_singleton]
                  omega
            · exact .inr (single .strayApostrophe (Except.error.inj failed).symm)
            · exact .inr (single .strayTilde (Except.error.inj failed).symm)
          · rw [read_unknown noPitch noShorthand known] at failed
            exact .inr (single (.unknownSymbol noPitch noShorthand known)
              (Except.error.inj failed).symm)

/-- How a text is refused: signs are read to the end of the text, to a block without an end, or to
where nothing helps. The number counts the characters up to the point of refusal. -/
inductive Refusal (state : Nesting) : List Char → LexCause → Nat → Prop where
  | ended {signs : List Sign} {tokens : List Token} {inner : Nesting} {cause : LexCause}
      (run : Run state signs tokens inner) (missing : inner.unclosed? = some cause) :
      Refusal state (signs.flatMap Sign.text) cause (signs.flatMap Sign.text).length
  | unclosedBlock {signs : List Sign} {tokens : List Token} {inner : Nesting}
      (run : Run state signs tokens inner) {rest : List Char} (unclosed : closeBrace ∉ rest) :
      Refusal state (signs.flatMap Sign.text ++ openBrace :: rest) .unclosedBlock
        ((signs.flatMap Sign.text).length + 1)
  | stuck {signs : List Sign} {tokens : List Token} {inner : Nesting} {cause : LexCause}
      (run : Run state signs tokens inner) {core : List Char} (stuck : Stuck inner core cause)
      (ends : EndBefore signs core) (rest : List Char) :
      Refusal state (signs.flatMap Sign.text ++ (core ++ rest)) cause
        ((signs.flatMap Sign.text).length + core.length)

theorem Refusal.at_once (stuck : Stuck state core cause) (rest : List Char) :
    Refusal state (core ++ rest) cause core.length := by
  have refusal := Refusal.stuck (.nil state) stuck (fun _ none => by cases none) rest
  rwa [List.flatMap_nil, List.nil_append, List.length_nil, Nat.zero_add] at refusal

theorem EndBefore.of_stuck (stuck : Stuck inner core cause) :
    EndBefore signs (core ++ rest) ↔ EndBefore signs core := by
  obtain ⟨first, others, rfl⟩ := List.exists_cons_of_ne_nil stuck.ne_nil
  rfl

theorem EndBefore.append {signs' : List Sign}
    (first : EndBefore signs (signs'.flatMap Sign.text ++ text)) (second : EndBefore signs' text) :
    EndBefore (signs ++ signs') text := by
  rcases List.eq_nil_or_concat' signs' with rfl | ⟨before, last, rfl⟩
  · rwa [List.append_nil]
  · intro sign member
    rw [← List.append_assoc, List.getLast?_concat] at member
    exact second sign (by rwa [List.getLast?_concat])

/-- What is read first moves the point of refusal. -/
theorem Refusal.after (refusal : Refusal inner text cause index)
    (run : Run state signs tokens inner) (ends : EndBefore signs text) :
    Refusal state (signs.flatMap Sign.text ++ text) cause
      ((signs.flatMap Sign.text).length + index) := by
  cases refusal with
  | ended run' missing =>
      have whole := Refusal.ended (run.append run') missing
      rwa [List.flatMap_append, List.length_append] at whole
  | unclosedBlock run' unclosed =>
      have whole := Refusal.unclosedBlock (run.append run') unclosed
      rwa [List.flatMap_append, List.length_append, List.append_assoc, Nat.add_assoc] at whole
  | stuck run' stuck ends' rest =>
      have joined := ends.append ((EndBefore.of_stuck stuck).mpr ends')
      have whole := Refusal.stuck (run.append run') stuck ((EndBefore.of_stuck stuck).mp joined) rest
      rwa [List.flatMap_append, List.length_append, List.append_assoc, Nat.add_assoc] at whole

theorem endBefore_openBrace (signs : List Sign) (rest : List Char) :
    EndBefore signs (openBrace :: rest) := by
  have unmarked : Unmarked (openBrace :: rest) := fun c first => by cases first; decide
  exact fun sign _ => unmarked.endsSign sign

theorem lexFrom_of_refusal (refusal : Refusal state c.ahead cause index) :
    lexFrom state c = .error ⟨cause, c.index + index⟩ := by
  generalize same : c.ahead = text at refusal
  cases refusal with
  | ended run missing =>
      rw [← List.append_nil (List.flatMap _ _)] at same
      rw [lexFrom_run run same (endBefore_nil _), lexFrom_nil (Cursor.ahead_pass_append same),
        missing]
      rfl
  | @unclosedBlock signs _ _ run rest unclosed =>
      have behind := Cursor.ahead_pass_append same
      have inside : closeBrace ∉ ((c.pass (signs.flatMap Sign.text).length).pass 1).ahead := by
        rwa [Cursor.ahead_pass, behind]
      rw [lexFrom_run run same (endBefore_openBrace _ _),
        lexFrom_of_fault behind (by rw [read_openBrace, readBlock_eq_unclosed inside]; rfl)]
      exact congrArg (fun index => Except.error (LexFault.mk _ index)) (Nat.add_assoc _ _ _)
  | stuck run stuck ends rest =>
      rw [lexFrom_run run same ((EndBefore.of_stuck stuck).mpr ends),
        lexFrom_of_stuck stuck (Cursor.ahead_pass_append same)]
      exact congrArg (fun index => Except.error (LexFault.mk _ index)) (Nat.add_assoc _ _ _)

theorem index_of_read {symbol : Char} {lexeme : Lexeme} {after : Cursor}
    (read : Lexeme.read symbol c = .ok (lexeme, after)) :
    ∃ sign : Sign, sign.lexeme = lexeme ∧ symbol :: c.ahead = sign.text ++ after.ahead ∧
      sign.EndsBefore after.ahead ∧ after.index + 1 = c.index + sign.text.length := by
  obtain ⟨sign, same, text, ends⟩ := sign_of_read read
  refine ⟨sign, same, text, ends, ?_⟩
  obtain ⟨head, tail, cut⟩ := List.exists_cons_of_ne_nil sign.text_ne_nil
  rw [cut, List.cons_append] at text
  obtain ⟨rfl, ahead⟩ := List.cons.inj text
  rw [read_sign sign cut ahead ends] at read
  cases read
  rw [cut]
  exact Nat.add_assoc _ _ _

theorem refusal_of_lexFrom (failed : lexFrom state c = .error fault) :
    ∃ index, Refusal state c.ahead fault.cause index ∧ fault.index = c.index + index := by
  fun_induction lexFrom state c with
  | case1 => cases failed
  | case2 state c none cause missing =>
      cases failed
      have ahead : c.ahead = [] := by
        cases ahead : c.ahead with
        | nil => rfl
        | cons first rest => rw [Cursor.next?_cons ahead] at none; cases none
      rw [ahead]
      exact ⟨0, .ended (.nil state) missing, rfl⟩
  | case3 state c symbol after next fault' read =>
      cases failed
      obtain ⟨ahead, passed⟩ := Cursor.ahead_of_next? next
      have moved : after.index = c.index + 1 := by rw [passed]; rfl
      rcases stuck_of_read state read with ⟨rfl, unclosed, rfl⟩ | ⟨core, rest, text, stuck, index⟩
      · rw [ahead]
        exact ⟨1, .unclosedBlock (.nil state) unclosed, moved⟩
      · rw [ahead, text]
        exact ⟨core.length, .at_once stuck rest, by omega⟩
  | case4 state c symbol after next lexeme rest read cause refused =>
      cases failed
      obtain ⟨ahead, passed⟩ := Cursor.ahead_of_next? next
      obtain ⟨sign, rfl, text, ends, moved⟩ := index_of_read read
      obtain ⟨head, tail, cut⟩ := List.exists_cons_of_ne_nil sign.text_ne_nil
      rw [cut, List.cons_append] at text
      obtain ⟨rfl, _⟩ := List.cons.inj text
      rw [ahead]
      exact ⟨1, .at_once (stuck_of_refused cut refused) _, by rw [passed]; rfl⟩
  | case5 state c symbol after next lexeme rest read first inner accepted ih =>
      obtain ⟨index, refusal, same⟩ := ih (map_eq_error_iff.mp failed)
      obtain ⟨ahead, passed⟩ := Cursor.ahead_of_next? next
      obtain ⟨sign, rfl, text, ends, moved⟩ := index_of_read read
      have whole := refusal.after (.single accepted) fun _ last => by cases last; exact ends
      rw [List.flatMap_singleton] at whole
      refine ⟨sign.text.length + index, ?_, ?_⟩
      · rwa [ahead, text]
      · have moved' : after.index = c.index + 1 := by rw [passed]; rfl
        omega

theorem lexFrom_eq_error_iff :
    lexFrom state c = .error fault ↔
      ∃ index, Refusal state c.ahead fault.cause index ∧ fault.index = c.index + index := by
  constructor
  · exact refusal_of_lexFrom
  · rintro ⟨index, refusal, same⟩
    rw [lexFrom_of_refusal refusal, ← same]

theorem lexVoice_eq_error_iff :
    lexVoice text = .error fault ↔ Refusal .free text fault.cause fault.index := by
  rw [lexVoice, lexFrom_eq_error_iff]
  constructor
  · rintro ⟨index, refusal, same⟩
    rw [same]
    exact (Nat.zero_add index).symm ▸ refusal
  · intro refusal
    exact ⟨fault.index, refusal, (Nat.zero_add _).symm⟩

theorem lexVoice_append_of_read {first second : List Char} {voice : Voice}
    (read : lexVoice first = .ok voice) (unmarked : Unmarked second) :
    lexVoice (first ++ second) = match lexVoice second with
      | .ok later => .ok (voice ++ later)
      | .error fault => .error ⟨fault.cause, first.length + fault.index⟩ := by
  cases later : lexVoice second with
  | ok later => exact lexVoice_append read later
  | error fault =>
      obtain ⟨signs, ahead, run⟩ := lexFrom_eq_ok_iff.mp read
      obtain rfl : first = signs.flatMap Sign.text := ahead
      have refusal := lexVoice_eq_error_iff.mp later
      exact lexVoice_eq_error_iff.mpr (refusal.after run fun sign _ => unmarked.endsSign sign)

/-- What stands behind a voice that can be read is read or refused as if it stood alone, unless it
begins with a mark that lengthens or shortens the last note. -/
theorem lex_append_of_read {first second : List Char} (undivided : Undivided first)
    (undivided' : Undivided second) {voice : Voice}
    (read : lex first = .ok [{ voices := [voice] }]) (unmarked : Unmarked second) :
    ((∃ fragments, lex (first ++ second) = .ok fragments) ↔
      ∃ fragments, lex second = .ok fragments) ∧
    (∀ later, lex (first ++ second) = .ok [{ voices := [voice ++ later] }] ↔
      lex second = .ok [{ voices := [later] }]) ∧
    ∀ cause index, lex (first ++ second) = .error ⟨⟨cause, first.length + index⟩, 0, 0⟩ ↔
      lex second = .error ⟨⟨cause, index⟩, 0, 0⟩ := by
  have whole := undivided_append.mpr ⟨undivided, undivided'⟩
  have joined := lexVoice_append_of_read ((lex_eq_ok_iff_lexVoice undivided).mp read) unmarked
  rw [lex_of_undivided whole.1 whole.2, lex_of_undivided undivided'.1 undivided'.2, joined]
  cases lexVoice second with
  | ok later => simp [Except.map, Except.mapError]
  | error fault =>
      obtain ⟨cause, index⟩ := fault
      simp [Except.map, Except.mapError]

/-- The chord behind the note is refused where it would be refused alone, three characters on. -/
theorem lex_behind_note :
    Undivided "0''".toList ∧ Undivided "[-]".toList ∧ Unmarked "[-]".toList ∧
      lex "0''".toList = .ok [{ voices := [[.note ⟨0, -2⟩]] }] ∧
      lex "[-]".toList = .error ⟨⟨.restInChord, 2⟩, 0, 0⟩ ∧
      lex ("0''".toList ++ "[-]".toList) = .error ⟨⟨.restInChord, 3 + 2⟩, 0, 0⟩ := by
  have undivided : Undivided "0''".toList := by decide
  have undivided' : Undivided "[-]".toList := by decide
  have unmarked : Unmarked "[-]".toList := fun c first => by cases first; decide
  have read : lex "0''".toList = .ok [{ voices := [[.note ⟨0, -2⟩]] }] := by decide +kernel
  have refused : lex "[-]".toList = .error ⟨⟨.restInChord, 2⟩, 0, 0⟩ := by decide +kernel
  obtain ⟨_, _, faults⟩ := lex_append_of_read undivided undivided' read unmarked
  exact ⟨undivided, undivided', unmarked, read, refused, (faults .restInChord 2).mpr refused⟩

end Polyphony.Score
