import Polyphony.Proofs.Outcome
import Polyphony.Proofs.Score.Cursor
import Polyphony.Proofs.Score.Items
import Polyphony.Proofs.Text.Pieces
import Polyphony.Score.Voice

/-! Each step of the scanner reads the text of one sign, and the longest one, which leaves only the
acceptance of signs to speak of. -/
namespace Polyphony.Score

/-- No length mark comes first, so a run of marks ends before this text. -/
def Unmarked (text : List Char) : Prop := ∀ c ∈ text.head?, c ≠ '~' ∧ c ≠ apostrophe

/-- Right behind the marks, this character would be one more of them. -/
def Marks.GoOnWith : Marks → Char → Prop
  | tildes (_ + 1), c => c = '~'
  | apostrophes (_ + 1), c => c = apostrophe
  | _, c => c = '~' ∨ c = apostrophe

def Sign.GoesOnWith : Sign → Char → Prop
  | note n, c => n.marks.GoOnWith c
  | rest _, c => c = apostrophe
  | _, _ => False

/-- The text that comes next adds no mark to the sign. -/
def Sign.EndsBefore (sign : Sign) (text : List Char) : Prop :=
  ∀ c ∈ text.head?, ¬ sign.GoesOnWith c

theorem Marks.not_goOnWith (marks : Marks) {c : Char} (plain : c ≠ '~' ∧ c ≠ apostrophe) :
    ¬ marks.GoOnWith c := by
  intro more
  cases marks with
  | tildes count =>
      cases count with
      | zero => exact more.elim plain.1 plain.2
      | succ count => exact plain.1 more
  | apostrophes count =>
      cases count with
      | zero => exact more.elim plain.1 plain.2
      | succ count => exact plain.2 more

theorem Unmarked.endsSign {text : List Char} (unmarked : Unmarked text) (sign : Sign) :
    sign.EndsBefore text := by
  intro c first more
  cases sign with
  | note n => exact n.marks.not_goOnWith (unmarked c first) more
  | rest count => exact (unmarked c first).2 more
  | _ => exact more

theorem pitchClass?_pitchSymbol (p : Fin 12) : pitchClass? (pitchSymbol p) = some p.val := by
  revert p
  decide

theorem pitchSymbol_digit (d : Fin 10) :
    pitchSymbol (d.castLE (by decide)) = Char.ofNat (48 + d) := by
  revert d
  decide

theorem pitchSymbol_of_pitchClass? {c : Char} {n : Nat} (read : pitchClass? c = some n) :
    ∃ p : Fin 12, pitchSymbol p = c ∧ p = n := by
  unfold pitchClass? at read
  split at read
  · next digit =>
      cases read
      obtain ⟨low, high⟩ : 48 ≤ c.toNat ∧ c.toNat ≤ 57 := Char.isDigit_iff_toNat.mp digit
      refine ⟨Fin.castLE (by decide) (⟨c.toNat - 48, by omega⟩ : Fin 10), ?_, rfl⟩
      rw [pitchSymbol_digit, Nat.add_sub_cancel' low, Char.ofNat_toNat]
  · split at read
    · next same => cases read; exact ⟨10, same.symm, rfl⟩
    · split at read
      · next same => cases read; exact ⟨11, same.symm, rfl⟩
      · cases read

theorem shorthand?_symbol (sign : Shorthand) :
    pitchClass? sign.symbol = none ∧ shorthand? sign.symbol = some sign.effect := by
  cases sign <;> exact ⟨rfl, rfl⟩

theorem symbol_of_shorthand? {c : Char} {effect : Effect} (read : shorthand? c = some effect) :
    ∃ sign : Shorthand, sign.symbol = c ∧ sign.effect = effect := by
  unfold shorthand? at read
  split at read
  · next same => cases read; exact ⟨.octaveUp, same.symm, rfl⟩
  · split at read
    · next same => cases read; exact ⟨.octaveDown, same.symm, rfl⟩
    · split at read
      · next same => cases read; exact ⟨.slurUp, same.symm, rfl⟩
      · split at read
        · next same => cases read; exact ⟨.slurDown, same.symm, rfl⟩
        · cases read

theorem readHalvings_replicate {c : Cursor} {count : Nat} {rest : List Char}
    (ahead : c.ahead = List.replicate count apostrophe ++ rest)
    (stops : ∀ x ∈ rest.head?, x ≠ apostrophe) :
    readHalvings c = (-(count : Int), c.pass count) := by
  have run := Cursor.skipWhile_append (p := (· = apostrophe)) ahead
    (fun x member => decide_eq_true (List.eq_of_mem_replicate member))
    (fun x first => by simpa using stops x first)
  rw [List.length_replicate] at run
  rw [readHalvings, run]

theorem readLength_marks {c : Cursor} (marks : Marks) {rest : List Char}
    (ahead : c.ahead = marks.text ++ rest) (ends : ∀ x ∈ rest.head?, ¬ marks.GoOnWith x) :
    readLength c = (marks.code, c.pass marks.text.length) := by
  -- without a mark, neither run may find one
  have unmarked : c.ahead = rest → (∀ x ∈ rest.head?, x ≠ '~' ∧ x ≠ apostrophe) →
      readLength c = (0, c.pass 0) := by
    intro bare plain
    have run := @Cursor.skipWhile_append (· = '~') c [] rest bare
      (fun x member => absurd member List.not_mem_nil)
      (fun x first => by simpa using (plain x first).1)
    rw [readLength, run]
    exact @readHalvings_replicate c 0 rest bare fun x first => (plain x first).2
  cases marks with
  | tildes count =>
      cases count with
      | zero => exact unmarked ahead fun x first => not_or.mp (ends x first)
      | succ count =>
          have run := Cursor.skipWhile_append (p := (· = '~')) ahead
            (fun x member => decide_eq_true (List.eq_of_mem_replicate member))
            (fun x first => by simpa [Marks.GoOnWith] using ends x first)
          rw [readLength, run]
          simp only [Marks.text, Marks.code, List.length_replicate, Nat.succ_ne_zero, if_false]
  | apostrophes count =>
      cases count with
      | zero => exact unmarked ahead fun x first => not_or.mp (ends x first)
      | succ count =>
          have run := @Cursor.skipWhile_append (· = '~') c [] c.ahead rfl
            (fun x member => absurd member List.not_mem_nil) (by
              intro x first
              rw [ahead] at first
              cases first
              decide)
          rw [readLength, run]
          simpa only [Marks.text, Marks.code, List.length_replicate, List.length_nil, if_true] using
            readHalvings_replicate ahead ends

theorem takeWhile_eq_replicate (char : Char) (text : List Char) :
    text.takeWhile (· = char) = List.replicate (text.takeWhile (· = char)).length char :=
  List.eq_replicate_of_mem fun x member =>
    of_decide_eq_true (List.all_eq_true.mp List.all_takeWhile x member)

theorem ahead_readHalvings (c : Cursor) :
    ∃ count : Nat, (readHalvings c).1 = -(count : Int) ∧
      c.ahead = List.replicate count apostrophe ++ (readHalvings c).2.ahead ∧
      ∀ x ∈ (readHalvings c).2.ahead.head?, x ≠ apostrophe := by
  refine ⟨(c.ahead.takeWhile (· = apostrophe)).length, rfl, ?_, ?_⟩
  · rw [← takeWhile_eq_replicate]
    exact Cursor.ahead_skipWhile (· = apostrophe) c
  · intro x first
    simpa using Cursor.head?_skipWhile first

/-- The marks that are read are all that there are. -/
theorem ahead_readLength (c : Cursor) :
    ∃ marks : Marks, (readLength c).1 = marks.code ∧
      c.ahead = marks.text ++ (readLength c).2.ahead ∧
      ∀ x ∈ (readLength c).2.ahead.head?, ¬ marks.GoOnWith x := by
  have stops : ∀ x ∈ (c.skipWhile (· = '~')).2.ahead.head?, x ≠ '~' := by
    intro x first
    simpa using Cursor.head?_skipWhile first
  unfold readLength
  dsimp only
  split
  · next none =>
      obtain ⟨count, code, ahead, ends⟩ := ahead_readHalvings c
      refine ⟨.apostrophes count, code, ahead, fun x first => ?_⟩
      cases count with
      | succ count => exact ends x first
      | zero =>
          -- then both runs are empty, and the same character stops them
          have empty : c.ahead.takeWhile (· = '~') = [] := List.length_eq_zero_iff.mp none
          have still := Cursor.ahead_skipWhile (· = '~') c
          rw [empty, List.nil_append] at still
          rw [← still, ahead] at stops
          exact not_or.mpr ⟨stops x first, ends x first⟩
  · next some =>
      obtain ⟨count, longer⟩ := Nat.exists_eq_succ_of_ne_zero some
      refine ⟨.tildes (count + 1), congrArg Int.ofNat longer, ?_, stops⟩
      rw [Marks.text, ← Nat.succ_eq_add_one, ← longer]
      change c.ahead = List.replicate (c.ahead.takeWhile (· = '~')).length '~' ++ _
      rw [← takeWhile_eq_replicate]
      exact Cursor.ahead_skipWhile (· = '~') c

theorem Entry.divided (e : Entry) :
    e.text.takeWhile (· ≠ '=') = e.name ∧ (e.text.dropWhile (· ≠ '=')).tail? = e.value := by
  have plain : ∀ c ∈ e.name, decide (c ≠ '=') = true :=
    fun c member => decide_eq_true (e.name_plain c member).1
  rw [Entry.text, List.takeWhile_append_of_pos plain, List.dropWhile_append_of_pos plain]
  cases e.value with
  | none => simp
  | some value => simp

theorem readEntry_text (e : Entry) : readEntry e.text = .ok e.directive := by
  have named : e.name.isEmpty = false := by simpa using e.named
  simp only [readEntry, e.divided, named]
  rfl

theorem entry_of_readEntry {text : List Char} {d : Directive} (read : readEntry text = .ok d)
    (plain : ∀ c ∈ text, c ≠ ',' ∧ c ≠ closeBrace) :
    ∃ e : Entry, e.text = text ∧ e.directive = d := by
  have cut : text.takeWhile (· ≠ '=') ++ text.dropWhile (· ≠ '=') = text :=
    List.takeWhile_append_dropWhile
  have name_plain : ∀ c ∈ text.takeWhile (· ≠ '='), c ≠ '=' ∧ c ≠ ',' ∧ c ≠ closeBrace := by
    intro c member
    refine ⟨of_decide_eq_true (List.all_eq_true.mp List.all_takeWhile c member), ?_⟩
    exact plain c ((List.takeWhile_sublist _).mem member)
  unfold readEntry at read
  dsimp only at read
  split at read
  · cases read
  · next named =>
      cases read
      have named : text.takeWhile (· ≠ '=') ≠ [] := by simpa using named
      cases ahead : text.dropWhile (· ≠ '=') with
      | nil =>
          refine ⟨⟨text.takeWhile (· ≠ '='), none, named, name_plain, by simp⟩, ?_, ?_⟩
          · rw [ahead] at cut
            exact cut
          · simp only [Entry.directive, List.tail?_nil]
      | cons c value =>
          have equals : c = '=' := by
            have stops := List.head?_dropWhile_not (· ≠ '=') text
            rw [ahead] at stops
            simpa using stops
          have value_plain : ∀ x ∈ some value, ∀ c ∈ x, c ≠ ',' ∧ c ≠ closeBrace := by
            rintro _ ⟨⟩ x member
            refine plain x ((List.dropWhile_sublist (· ≠ '=')).mem ?_)
            rw [ahead]
            exact List.mem_cons_of_mem c member
          refine ⟨⟨text.takeWhile (· ≠ '='), some value, named, name_plain, value_plain⟩, ?_, ?_⟩
          · rw [ahead, equals] at cut
            exact cut
          · simp only [Entry.directive, List.tail?_cons]

theorem Entry.text_plain (e : Entry) : ∀ c ∈ e.text, c ≠ ',' ∧ c ≠ closeBrace := by
  intro c member
  rcases List.mem_append.mp member with inName | inValue
  · exact (e.name_plain c inName).2
  · cases value : e.value with
    | none => rw [value] at inValue; cases inValue
    | some text =>
        rw [value] at inValue
        rcases List.mem_cons.mp inValue with rfl | inText
        · decide
        · exact e.value_plain text value c inText

theorem Entry.text_ne_nil (e : Entry) : e.text ≠ [] :=
  List.append_ne_nil_of_left_ne_nil e.named _

theorem mapM_readEntry_text (entries : List Entry) :
    (entries.map Entry.text).mapM readEntry = .ok (entries.map Entry.directive) := by
  rw [mapM_eq_ok_iff, List.forall₂_map_left_iff, List.forall₂_map_right_iff]
  exact List.forall₂_same.mpr fun e _ => readEntry_text e

theorem entries_of_mapM_readEntry {texts : List (List Char)} {directives : List Directive}
    (read : texts.mapM readEntry = .ok directives)
    (plain : ∀ text ∈ texts, ∀ c ∈ text, c ≠ ',' ∧ c ≠ closeBrace) :
    ∃ entries : List Entry,
      entries.map Entry.text = texts ∧ entries.map Entry.directive = directives := by
  rw [mapM_eq_ok_iff] at read
  induction read with
  | nil => exact ⟨[], rfl, rfl⟩
  | cons first _ ih =>
      obtain ⟨e, text, directive⟩ := entry_of_readEntry first (plain _ List.mem_cons_self)
      obtain ⟨entries, texts, directives⟩ :=
        ih fun text member => plain text (List.mem_cons_of_mem _ member)
      exact ⟨e :: entries, by rw [List.map_cons, text, texts], by
        rw [List.map_cons, directive, directives]⟩

/-- What stands between the braces of a block. -/
def blockText (first : Entry) (others : List Entry) : List Char :=
  Text.joined ',' first.text (others.map Entry.text)

theorem text_block (first : Entry) (others : List Entry) :
    (Instruction.block first others).text =
      openBrace :: (blockText first others ++ [closeBrace]) := by
  rw [Instruction.text, blockText, Text.joined, List.flatMap_map]
  rfl

theorem closeBrace_not_mem_blockText (first : Entry) (others : List Entry) :
    closeBrace ∉ blockText first others := by
  intro member
  rcases List.mem_append.mp member with inFirst | inOthers
  · exact (first.text_plain _ inFirst).2 rfl
  · obtain ⟨text, ofEntry, member⟩ := List.mem_flatMap.mp inOthers
    obtain ⟨e, _, rfl⟩ := List.mem_map.mp ofEntry
    rcases List.mem_cons.mp member with comma | inText
    · exact absurd comma (by decide)
    · exact (e.text_plain _ inText).2 rfl

theorem pieces_blockText (first : Entry) (others : List Entry) :
    Text.pieces ',' (blockText first others) = (first :: others).map Entry.text := by
  refine Text.pieces_joined (fun member => (first.text_plain _ member).1 rfl) ?_
  intro text ofEntry member
  obtain ⟨e, _, rfl⟩ := List.mem_map.mp ofEntry
  exact (e.text_plain _ member).1 rfl

theorem readBlock_text {c : Cursor} (first : Entry) (others : List Entry) {rest : List Char}
    (ahead : c.ahead = blockText first others ++ closeBrace :: rest) :
    readBlock c = .ok ((first :: others).map Entry.directive,
      c.pass ((blockText first others).length + 1)) := by
  have found := Cursor.scanTo?_append_cons ahead (closeBrace_not_mem_blockText first others)
  have filled : blockText first others ≠ [] :=
    List.append_ne_nil_of_left_ne_nil first.text_ne_nil _
  have read := mapM_readEntry_text (first :: others)
  rw [← pieces_blockText] at read
  unfold readBlock
  split
  · next none => rw [found] at none; cases none
  · next empty =>
      rw [found, Option.some.injEq, Prod.mk.injEq] at empty
      exact absurd empty.1 filled
  · next some =>
      rw [found] at some
      cases some
      rw [read]

theorem block_of_readBlock {c after : Cursor} {directives : List Directive}
    (read : readBlock c = .ok (directives, after)) :
    ∃ first others, (first :: others).map Entry.directive = directives ∧
      c.ahead = blockText first others ++ closeBrace :: after.ahead := by
  unfold readBlock at read
  split at read
  · cases read
  · cases read
  · next contents _ filled found =>
      split at read
      · cases read
      · next each =>
          cases read
          obtain ⟨ahead, free⟩ := Cursor.ahead_of_scanTo? found
          obtain ⟨head, tail, cut⟩ := List.exists_cons_of_ne_nil (Text.pieces_ne_nil contents)
          obtain ⟨whole, head_free, tail_free⟩ := Text.joined_of_pieces cut
          have no_comma : ∀ text ∈ head :: tail, ',' ∉ text := by
            intro text member
            rcases List.mem_cons.mp member with rfl | later
            · exact head_free
            · exact tail_free text later
          have plain : ∀ text ∈ head :: tail, ∀ c ∈ text, c ≠ ',' ∧ c ≠ closeBrace := by
            intro text member c inText
            refine ⟨fun same => no_comma text member (same ▸ inText), fun same => free ?_⟩
            rw [whole, ← same]
            exact Text.mem_joined member inText
          rw [cut] at each
          obtain ⟨entries, texts, directives⟩ := entries_of_mapM_readEntry each plain
          cases entries with
          | nil => cases texts
          | cons first others =>
              rw [List.map_cons, List.cons.injEq] at texts
              refine ⟨first, others, directives, ?_⟩
              rw [ahead, whole, blockText, texts.1, texts.2]

theorem Sign.text_ne_nil (sign : Sign) : sign.text ≠ [] := by
  cases sign with
  | instruction i =>
      cases i with
      | shorthand s => exact List.cons_ne_nil _ _
      | block first others => rw [Sign.text, text_block]; exact List.cons_ne_nil _ _
  | _ => exact List.cons_ne_nil _ _

theorem unmarked_pitchSymbol (p : Fin 12) : pitchSymbol p ≠ '~' ∧ pitchSymbol p ≠ apostrophe := by
  revert p
  decide

/-- A sign never begins with a length mark, so no run of marks goes on into the next sign. -/
theorem unmarked_text (sign : Sign) (rest : List Char) : Unmarked (sign.text ++ rest) := by
  intro c first
  cases sign with
  | note n => cases first; exact unmarked_pitchSymbol n.pitchClass
  | instruction i =>
      cases i with
      | shorthand s => cases first; cases s <;> decide
      | block first' others =>
          rw [Sign.text, text_block] at first
          cases first
          decide
  | _ => cases first; decide

/-- The scanner reads a sign to its end. -/
theorem read_sign (sign : Sign) {c : Cursor} {head : Char} {tail rest : List Char}
    (text : sign.text = head :: tail) (ahead : c.ahead = tail ++ rest)
    (ends : sign.EndsBefore rest) :
    Lexeme.read head c = .ok (sign.lexeme, c.pass tail.length) := by
  cases sign with
  | note n =>
      cases text
      have marks := readLength_marks n.marks ahead ends
      simp only [Lexeme.read, pitchClass?_pitchSymbol, marks, Sign.lexeme]
  | rest count =>
      cases text
      have marks := readHalvings_replicate ahead ends
      simp only [Lexeme.read, marks, Sign.lexeme, List.length_replicate]
      rfl
  | instruction i =>
      cases i with
      | shorthand s =>
          cases text
          obtain ⟨noPitch, effect⟩ := shorthand?_symbol s
          simp only [Lexeme.read, noPitch, effect]
          rfl
      | block first others =>
          rw [Sign.text, text_block] at text
          cases text
          rw [List.append_assoc, List.singleton_append] at ahead
          have block := readBlock_text first others ahead
          have length : (blockText first others ++ [closeBrace]).length =
              (blockText first others).length + 1 := List.length_append
          rw [length]
          simp only [Lexeme.read, block, Sign.lexeme]
          rfl
  | openChord => cases text; rfl
  | closeChord => cases text; rfl
  | openShape => cases text; rfl
  | closeShape => cases text; rfl

/-- What the scanner reads is a sign, and all of it. -/
theorem sign_of_read {symbol : Char} {c after : Cursor} {lexeme : Lexeme}
    (read : Lexeme.read symbol c = .ok (lexeme, after)) :
    ∃ sign : Sign, sign.lexeme = lexeme ∧ symbol :: c.ahead = sign.text ++ after.ahead ∧
      sign.EndsBefore after.ahead := by
  unfold Lexeme.read at read
  split at read
  · next pitch =>
      cases read
      obtain ⟨p, symbol, value⟩ := pitchSymbol_of_pitchClass? pitch
      obtain ⟨marks, code, ahead, ends⟩ := ahead_readLength c
      refine ⟨.note ⟨p, marks⟩, ?_, ?_, ends⟩
      · rw [Sign.lexeme, value, code]
      · rw [Sign.text, symbol, List.cons_append, ← ahead]
  · next effect =>
      cases read
      obtain ⟨s, symbol, same⟩ := symbol_of_shorthand? effect
      refine ⟨.instruction (.shorthand s), ?_, ?_, fun _ _ => id⟩
      · rw [Sign.lexeme, Instruction.directives, same]
      · rw [Sign.text, Instruction.text, symbol]
        rfl
  · split at read
    · next dash =>
        cases read
        obtain ⟨count, code, ahead, ends⟩ := ahead_readHalvings c
        refine ⟨.rest count, ?_, ?_, ends⟩
        · rw [Sign.lexeme, code]
        · rw [Sign.text, dash, List.cons_append, ← ahead]
    · split at read
      · next same => cases read; exact ⟨.openChord, rfl, by rw [same]; rfl, fun _ _ => id⟩
      · split at read
        · next same => cases read; exact ⟨.closeChord, rfl, by rw [same]; rfl, fun _ _ => id⟩
        · split at read
          · next same => cases read; exact ⟨.openShape, rfl, by rw [same]; rfl, fun _ _ => id⟩
          · split at read
            · next same => cases read; exact ⟨.closeShape, rfl, by rw [same]; rfl, fun _ _ => id⟩
            · split at read
              · next brace =>
                  split at read
                  · cases read
                  · next block =>
                      cases read
                      obtain ⟨first, others, directives, ahead⟩ := block_of_readBlock block
                      refine ⟨.instruction (.block first others), ?_, ?_, fun _ _ => id⟩
                      · rw [Sign.lexeme, Instruction.directives, directives]
                      · rw [Sign.text, text_block, brace, ahead, List.cons_append,
                          List.append_assoc, List.singleton_append]
              · split at read
                · cases read
                · split at read <;> cases read

open Nesting (Run)

theorem lexFrom_nil {state : Nesting} {c : Cursor} (ahead : c.ahead = []) :
    lexFrom state c = match state.unclosed? with
      | none => .ok []
      | some cause => .error ⟨cause, c.index⟩ := by
  have next := Cursor.next?_nil ahead
  rw [lexFrom]
  split
  · rfl
  · next some => rw [next] at some; cases some

theorem lexFrom_cons {state : Nesting} {c : Cursor} {symbol : Char} {rest : List Char}
    (ahead : c.ahead = symbol :: rest) :
    lexFrom state c = match Lexeme.read symbol (c.pass 1) with
      | .error fault => .error fault
      | .ok (lexeme, after) => match state.accept lexeme with
        | .error cause => .error ⟨cause, c.index + 1⟩
        | .ok (tokens, inner) => (lexFrom inner after).map (tokens ++ ·) := by
  have next := Cursor.next?_cons ahead
  rw [lexFrom]
  split
  · next none => rw [next] at none; cases none
  · next symbol after some =>
      rw [next] at some
      cases some
      split
      · next failed => rw [failed]
      · next read =>
          rw [read]
          rfl

theorem lexFrom_sign {state inner : Nesting} {c : Cursor} {sign : Sign} {rest : List Char}
    {tokens : List Token} (ahead : c.ahead = sign.text ++ rest) (ends : sign.EndsBefore rest)
    (accepted : state.accept sign.lexeme = .ok (tokens, inner)) :
    lexFrom state c = (lexFrom inner (c.pass sign.text.length)).map (tokens ++ ·) := by
  obtain ⟨head, tail, text⟩ := List.exists_cons_of_ne_nil sign.text_ne_nil
  rw [text] at ahead
  have behind : (c.pass 1).ahead = tail ++ rest := @Cursor.ahead_pass_append c [head] _ ahead
  have passed : (c.pass 1).pass tail.length = c.pass sign.text.length := by
    rw [text, List.length_cons, Nat.add_comm, Cursor.pass_pass]
  rw [lexFrom_cons ahead, read_sign sign text behind ends]
  dsimp only
  rw [accepted, passed]

/-- The last sign, if there is one, ends before the text. -/
def EndBefore (signs : List Sign) (text : List Char) : Prop :=
  ∀ sign ∈ signs.getLast?, sign.EndsBefore text

theorem endBefore_nil (signs : List Sign) : EndBefore signs [] := fun _ _ c first => by cases first

/-- The scanner goes through accepted signs and goes on from what they leave open. -/
theorem lexFrom_run {state last : Nesting} {signs : List Sign} {tokens : List Token}
    (run : Run state signs tokens last) {c : Cursor} {rest : List Char}
    (ahead : c.ahead = signs.flatMap Sign.text ++ rest) (ends : EndBefore signs rest) :
    lexFrom state c =
      (lexFrom last (c.pass (signs.flatMap Sign.text).length)).map (tokens ++ ·) := by
  induction run generalizing c with
  | nil state =>
      change _ = (lexFrom state (c.pass 0)).map id
      rw [Cursor.pass_zero]
      cases lexFrom state c <;> rfl
  | @cons _ _ _ sign signs tokens later accepted run ih =>
      rw [List.flatMap_cons, List.append_assoc] at ahead
      have signEnds : sign.EndsBefore (signs.flatMap Sign.text ++ rest) := by
        cases signs with
        | nil => exact ends sign rfl
        | cons next signs =>
            rw [List.flatMap_cons, List.append_assoc]
            exact (unmarked_text next _).endsSign sign
      have laterEnd : EndBefore signs rest := by
        intro last member
        refine ends last ?_
        rw [List.getLast?_cons, Option.mem_def.mp member]
        rfl
      rw [lexFrom_sign ahead signEnds accepted, ih (Cursor.ahead_pass_append ahead) laterEnd,
        Cursor.pass_pass, List.flatMap_cons, List.length_append]
      cases lexFrom _ _ with
      | error fault => rfl
      | ok tokens' => exact congrArg Except.ok (List.append_assoc tokens later tokens').symm

theorem lexFrom_of_run {state last : Nesting} {signs : List Sign} {tokens : List Token}
    (run : Run state signs tokens last) (closed : last = .free) {c : Cursor}
    (ahead : c.ahead = signs.flatMap Sign.text) : lexFrom state c = .ok tokens := by
  subst closed
  have whole : c.ahead = signs.flatMap Sign.text ++ [] := by rw [List.append_nil, ahead]
  rw [lexFrom_run run whole (endBefore_nil signs), lexFrom_nil (Cursor.ahead_pass_append whole)]
  exact congrArg Except.ok (List.append_nil tokens)

theorem run_of_lexFrom {state : Nesting} {c : Cursor} {tokens : List Token}
    (lexed : lexFrom state c = .ok tokens) :
    ∃ signs : List Sign, c.ahead = signs.flatMap Sign.text ∧ Run state signs tokens .free := by
  fun_induction lexFrom state c generalizing tokens with
  | case1 state c none closed =>
      cases lexed
      have free : state = .free := by cases state with
        | free => rfl
        | _ => cases closed
      subst free
      have ahead : c.ahead = [] := by
        cases ahead : c.ahead with
        | nil => rfl
        | cons first rest => rw [Cursor.next?_cons ahead] at none; cases none
      exact ⟨[], ahead, .nil .free⟩
  | case2 => cases lexed
  | case3 => cases lexed
  | case4 => cases lexed
  | case5 state c symbol after next lexeme rest read first inner accepted ih =>
      obtain ⟨later, lexedRest, rfl⟩ := map_eq_ok_iff.mp lexed
      obtain ⟨signs, ahead, run⟩ := ih lexedRest
      obtain ⟨sign, rfl, text, _⟩ := sign_of_read read
      refine ⟨sign :: signs, ?_, .cons accepted run⟩
      rw [(Cursor.ahead_of_next? next).1, text, ahead, List.flatMap_cons]

theorem lexFrom_eq_ok_iff {state : Nesting} {c : Cursor} {tokens : List Token} :
    lexFrom state c = .ok tokens ↔
      ∃ signs : List Sign, c.ahead = signs.flatMap Sign.text ∧ Run state signs tokens .free := by
  constructor
  · exact run_of_lexFrom
  · rintro ⟨signs, ahead, run⟩
    exact lexFrom_of_run run rfl ahead

end Polyphony.Score
