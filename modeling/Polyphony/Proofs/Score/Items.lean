import Polyphony.Proofs.Score.Grammar
import Polyphony.Score.Nesting

/-! A run of `Nesting.accept` over signs starts and ends with nothing open exactly when the signs
are those of a list of items. -/
namespace Polyphony.Score

def Sign.lexeme : Sign → Lexeme
  | note n => .note n.pitchClass n.marks.code
  | rest count => .rest (-count)
  | instruction i => .directives i.directives
  | openChord => .openChord
  | closeChord => .closeChord
  | openShape => .openShape
  | closeShape => .closeShape

namespace Nesting

/-- The signs are accepted one after the other, from one state to another. -/
inductive Run : Nesting → List Sign → List Token → Nesting → Prop
  | nil (state : Nesting) : Run state [] [] state
  | cons {state inner last : Nesting} {sign : Sign} {signs : List Sign}
      {tokens later : List Token} :
      state.accept sign.lexeme = .ok (tokens, inner) → Run inner signs later last →
      Run state (sign :: signs) (tokens ++ later) last

theorem Run.single {state inner : Nesting} {sign : Sign} {tokens : List Token}
    (accepted : state.accept sign.lexeme = .ok (tokens, inner)) :
    Run state [sign] tokens inner := by
  simpa only [List.append_nil] using Run.cons accepted (.nil inner)

theorem Run.append {state middle last : Nesting} {signs signs' : List Sign}
    {tokens tokens' : List Token} (first : Run state signs tokens middle)
    (second : Run middle signs' tokens' last) :
    Run state (signs ++ signs') (tokens ++ tokens') last := by
  induction first with
  | nil state => exact second
  | cons accepted rest ih =>
      rw [List.cons_append, List.append_assoc]
      exact .cons accepted (ih second)

end Nesting

open Nesting (Run)

@[simp] theorem gathered_nil : gathered [] = [] := rfl

@[simp] theorem hoisted_nil : hoisted [] = [] := rfl

@[simp] theorem gathered_append (tokens tokens' : List Token) :
    gathered (tokens ++ tokens') = gathered tokens ++ gathered tokens' :=
  List.filterMap_append

@[simp] theorem hoisted_append (tokens tokens' : List Token) :
    hoisted (tokens ++ tokens') = hoisted tokens ++ hoisted tokens' := by
  simp only [hoisted, List.filterMap_append, List.map_append]

@[simp] theorem gathered_directives (block : List Directive) :
    gathered (block.map .directive) = [] := by
  induction block with
  | nil => rfl
  | cons d block ih => exact ih

@[simp] theorem hoisted_directives (block : List Directive) :
    hoisted (block.map .directive) = block.map .directive := by
  induction block with
  | nil => rfl
  | cons d block ih => exact congrArg (Token.directive d :: ·) ih

/-- The tokens of the parts of a shape whose pitch has already risen by `offset`. -/
def shapeFrom (offset : Int) : List Part → List Token
  | [] => []
  | part :: rest => part.tokensAt (offset + part.step) ++ shapeFrom (offset + part.step) rest

/-- The sum over what came before is the running offset. -/
theorem shapeFrom_eq_flatMap (before parts : List Part) :
    (parts.zipIdx before.length).flatMap (fun (part, i) =>
        part.tokensAt (((before ++ parts).take (i + 1)).map Part.step).sum) =
      shapeFrom (before.map Part.step).sum parts := by
  induction parts generalizing before with
  | nil => rfl
  | cons part parts ih =>
      have later := ih (before ++ [part])
      simp only [List.append_assoc, List.singleton_append, List.length_append,
        List.length_singleton] at later
      have upTo : (before ++ part :: parts).take (before.length + 1) = before ++ [part] := by
        rw [List.take_length_add_append]
        rfl
      have risen : (((before ++ [part]).map Part.step).sum : Int) =
          (before.map Part.step).sum + part.step := by
        simp
      rw [List.zipIdx_cons, List.flatMap_cons, later]
      simp only [shapeFrom, upTo, ← risen]

theorem shapeTokens_eq_shapeFrom (parts : List Part) : shapeTokens parts = shapeFrom 0 parts :=
  shapeFrom_eq_flatMap [] parts

theorem run_part (part : Part) : Run .free [part.sign] part.tokens .free := by
  cases part with
  | note n => exact .single rfl
  | instruction i => exact .single rfl

theorem run_part_in_shape (part : Part) (offset : Int) :
    Run (.shape offset) [part.sign] (part.tokensAt (offset + part.step))
      (.shape (offset + part.step)) := by
  cases part with
  | note n => exact .single rfl
  | instruction i =>
      refine .single ?_
      simp only [Part.sign, Sign.lexeme, Nesting.accept, Part.tokensAt, Part.step, Int.natCast_zero,
        Int.add_zero]

theorem run_shape_parts (parts : List Part) (offset : Int) :
    ∃ risen, Run (.shape offset) (parts.map Part.sign) (shapeFrom offset parts) (.shape risen) := by
  induction parts generalizing offset with
  | nil => exact ⟨offset, .nil _⟩
  | cons part parts ih =>
      obtain ⟨risen, later⟩ := ih (offset + part.step)
      exact ⟨risen, (run_part_in_shape part offset).append later⟩

theorem run_shape (parts : List Part) :
    Run .free (shapeSigns parts) (shapeTokens parts) .free := by
  obtain ⟨risen, inner⟩ := run_shape_parts parts 0
  have opened : Run .free [.openShape] [] (.shape 0) := .single rfl
  have closed : Run (.shape risen) [.closeShape] [] .free := .single rfl
  rw [shapeTokens_eq_shapeFrom]
  simpa only [shapeSigns, List.cons_append, List.nil_append, List.append_nil] using
    (opened.append inner).append closed

/-- What a run inside a chord does to the chord: notes are gathered, directives come out. -/
theorem run_part_in_chord (part : Part) (notes : List NoteCode) :
    Run (.chord notes) [part.sign] (hoisted part.tokens)
      (.chord (notes ++ gathered part.tokens)) := by
  cases part with
  | note n =>
      refine .single ?_
      rfl
  | instruction i =>
      refine .single ?_
      simp only [Part.sign, Sign.lexeme, Nesting.accept, Part.tokens, Part.tokensAt,
        hoisted_directives, gathered_directives, List.append_nil]

theorem run_part_in_chordShape (part : Part) (notes : List NoteCode) (offset : Int) :
    Run (.chordShape notes offset) [part.sign] (hoisted (part.tokensAt (offset + part.step)))
      (.chordShape (notes ++ gathered (part.tokensAt (offset + part.step)))
        (offset + part.step)) := by
  cases part with
  | note n => exact .single rfl
  | instruction i =>
      refine .single ?_
      simp only [Part.sign, Sign.lexeme, Nesting.accept, Part.tokensAt, Part.step, Int.natCast_zero,
        Int.add_zero, hoisted_directives, gathered_directives, List.append_nil]

theorem run_chordShape_parts (parts : List Part) (notes : List NoteCode) (offset : Int) :
    ∃ risen, Run (.chordShape notes offset) (parts.map Part.sign)
      (hoisted (shapeFrom offset parts))
      (.chordShape (notes ++ gathered (shapeFrom offset parts)) risen) := by
  induction parts generalizing notes offset with
  | nil =>
      refine ⟨offset, ?_⟩
      simpa only [shapeFrom, List.map_nil, gathered_nil, hoisted_nil, List.append_nil] using
        Run.nil (.chordShape notes offset)
  | cons part parts ih =>
      have first := run_part_in_chordShape part notes offset
      obtain ⟨risen, later⟩ :=
        ih (notes ++ gathered (part.tokensAt (offset + part.step))) (offset + part.step)
      refine ⟨risen, ?_⟩
      simpa only [shapeFrom, List.map_cons, hoisted_append, gathered_append, List.append_assoc,
        List.cons_append, List.nil_append] using first.append later

theorem run_chord_part (part : ChordPart) (notes : List NoteCode) :
    Run (.chord notes) part.signs (hoisted part.tokens)
      (.chord (notes ++ gathered part.tokens)) := by
  cases part with
  | part p => exact run_part_in_chord p notes
  | shape parts =>
      obtain ⟨risen, inner⟩ := run_chordShape_parts parts notes 0
      have opened : Run (.chord notes) [.openShape] [] (.chordShape notes 0) := .single rfl
      have closed : Run (.chordShape (notes ++ gathered (shapeFrom 0 parts)) risen) [.closeShape] []
          (.chord (notes ++ gathered (shapeFrom 0 parts))) := .single rfl
      simp only [ChordPart.signs, ChordPart.tokens, shapeTokens_eq_shapeFrom]
      simpa only [shapeSigns, List.cons_append, List.nil_append, List.append_nil] using
        (opened.append inner).append closed

theorem run_chord_parts (parts : List ChordPart) (notes : List NoteCode) :
    Run (.chord notes) (parts.flatMap ChordPart.signs)
      (hoisted (parts.flatMap ChordPart.tokens))
      (.chord (notes ++ gathered (parts.flatMap ChordPart.tokens))) := by
  induction parts generalizing notes with
  | nil =>
      simpa only [List.flatMap_nil, gathered_nil, hoisted_nil, List.append_nil] using
        Run.nil (.chord notes)
  | cons part parts ih =>
      simpa only [List.flatMap_cons, hoisted_append, gathered_append, List.append_assoc] using
        (run_chord_part part notes).append (ih (notes ++ gathered part.tokens))

theorem accept_closeChord {notes : List NoteCode} (sounds : notes ≠ []) :
    Nesting.accept (.chord notes) .closeChord = .ok ([.chord notes], .free) := by
  cases notes with
  | nil => exact absurd rfl sounds
  | cons note notes => rfl

theorem run_item (item : Item) : Run .free item.signs item.tokens .free := by
  cases item with
  | part p => exact run_part p
  | rest count => exact .single rfl
  | shape parts => exact run_shape parts
  | chord parts sounds =>
      have opened : Run .free [.openChord] [] (.chord []) := .single rfl
      have closed : Run (.chord _) [.closeChord] [.chord _] .free :=
        .single (accept_closeChord sounds)
      simpa only [Item.signs, Item.tokens, List.cons_append, List.nil_append] using
        (opened.append (run_chord_parts parts [])).append closed

theorem run_items (items : List Item) :
    Run .free (items.flatMap Item.signs) (items.flatMap Item.tokens) .free := by
  induction items with
  | nil => exact .nil .free
  | cons item items ih => exact (run_item item).append ih

/-- What may follow, by what is open: the rest of the open shape and chord, then items. -/
def Remainder : Nesting → List Sign → List Token → Prop
  | .free, signs, tokens =>
    ∃ items : List Item,
      signs = items.flatMap Item.signs ∧ tokens = items.flatMap Item.tokens
  | .shape offset, signs, tokens =>
    ∃ (parts : List Part) (items : List Item),
      signs = parts.map Part.sign ++ .closeShape :: items.flatMap Item.signs ∧
      tokens = shapeFrom offset parts ++ items.flatMap Item.tokens
  | .chord notes, signs, tokens =>
    ∃ (parts : List ChordPart) (items : List Item),
      let inner := parts.flatMap ChordPart.tokens
      signs = parts.flatMap ChordPart.signs ++ .closeChord :: items.flatMap Item.signs ∧
      notes ++ gathered inner ≠ [] ∧
      tokens = hoisted inner ++ .chord (notes ++ gathered inner) :: items.flatMap Item.tokens
  | .chordShape notes offset, signs, tokens =>
    ∃ (shape : List Part) (parts : List ChordPart) (items : List Item),
      let inner := shapeFrom offset shape ++ parts.flatMap ChordPart.tokens
      signs = shape.map Part.sign ++ .closeShape :: (parts.flatMap ChordPart.signs ++
        .closeChord :: items.flatMap Item.signs) ∧
      notes ++ gathered inner ≠ [] ∧
      tokens = hoisted inner ++ .chord (notes ++ gathered inner) :: items.flatMap Item.tokens

variable {signs : List Sign} {tokens : List Token}

theorem Remainder.item (item : Item) (rest : Remainder .free signs tokens) :
    Remainder .free (item.signs ++ signs) (item.tokens ++ tokens) := by
  obtain ⟨items, rfl, rfl⟩ := rest
  exact ⟨item :: items, rfl, rfl⟩

theorem Remainder.part_in_shape (part : Part) {offset : Int}
    (rest : Remainder (.shape (offset + part.step)) signs tokens) :
    Remainder (.shape offset) (part.sign :: signs)
      (part.tokensAt (offset + part.step) ++ tokens) := by
  obtain ⟨parts, items, rfl, rfl⟩ := rest
  refine ⟨part :: parts, items, rfl, ?_⟩
  rw [shapeFrom, List.append_assoc]

theorem Remainder.chord_part (part : ChordPart) {notes : List NoteCode}
    (rest : Remainder (.chord (notes ++ gathered part.tokens)) signs tokens) :
    Remainder (.chord notes) (part.signs ++ signs) (hoisted part.tokens ++ tokens) := by
  obtain ⟨parts, items, rfl, sounds, rfl⟩ := rest
  refine ⟨part :: parts, items, ?_, ?_, ?_⟩
  · rw [List.flatMap_cons, List.append_assoc]
  · simpa only [List.flatMap_cons, gathered_append, List.append_assoc] using sounds
  · simp only [List.flatMap_cons, gathered_append, hoisted_append, List.append_assoc]

theorem Remainder.part_in_chordShape (part : Part) {notes : List NoteCode} {offset : Int}
    (rest : Remainder (.chordShape (notes ++ gathered (part.tokensAt (offset + part.step)))
      (offset + part.step)) signs tokens) :
    Remainder (.chordShape notes offset) (part.sign :: signs)
      (hoisted (part.tokensAt (offset + part.step)) ++ tokens) := by
  obtain ⟨shape, parts, items, rfl, sounds, rfl⟩ := rest
  refine ⟨part :: shape, parts, items, rfl, ?_, ?_⟩
  · simpa only [shapeFrom, gathered_append, List.append_assoc] using sounds
  · simp only [shapeFrom, gathered_append, hoisted_append, List.append_assoc]

theorem Remainder.openShape (rest : Remainder (.shape 0) signs tokens) :
    Remainder .free (.openShape :: signs) tokens := by
  obtain ⟨parts, items, rfl, rfl⟩ := rest
  refine ⟨.shape parts :: items, ?_, ?_⟩
  · simp only [List.flatMap_cons, Item.signs, shapeSigns, List.cons_append, List.append_assoc,
      List.nil_append]
  · rw [List.flatMap_cons, Item.tokens, shapeTokens_eq_shapeFrom]

theorem Remainder.openChord (rest : Remainder (.chord []) signs tokens) :
    Remainder .free (.openChord :: signs) tokens := by
  obtain ⟨parts, items, rfl, sounds, rfl⟩ := rest
  refine ⟨.chord parts sounds :: items, ?_, ?_⟩
  · simp only [List.flatMap_cons, Item.signs, List.cons_append, List.append_assoc, List.nil_append]
  · simp only [List.flatMap_cons, Item.tokens, List.append_assoc, List.cons_append,
      List.nil_append]

theorem Remainder.openShape_in_chord {notes : List NoteCode}
    (rest : Remainder (.chordShape notes 0) signs tokens) :
    Remainder (.chord notes) (.openShape :: signs) tokens := by
  obtain ⟨shape, parts, items, rfl, sounds, rfl⟩ := rest
  refine ⟨.shape shape :: parts, items, ?_, ?_, ?_⟩
  · simp only [List.flatMap_cons, ChordPart.signs, shapeSigns, List.cons_append, List.append_assoc,
      List.nil_append]
  · simpa only [List.flatMap_cons, ChordPart.tokens, shapeTokens_eq_shapeFrom] using sounds
  · simp only [List.flatMap_cons, ChordPart.tokens, shapeTokens_eq_shapeFrom]

theorem Remainder.closeShape {offset : Int} (rest : Remainder .free signs tokens) :
    Remainder (.shape offset) (.closeShape :: signs) tokens := by
  obtain ⟨items, rfl, rfl⟩ := rest
  exact ⟨[], items, rfl, rfl⟩

theorem Remainder.closeShape_in_chord {notes : List NoteCode} {offset : Int}
    (rest : Remainder (.chord notes) signs tokens) :
    Remainder (.chordShape notes offset) (.closeShape :: signs) tokens := by
  obtain ⟨parts, items, rfl, sounds, rfl⟩ := rest
  exact ⟨[], parts, items, rfl, sounds, rfl⟩

theorem Remainder.closeChord {notes : List NoteCode} (sounds : notes ≠ [])
    (rest : Remainder .free signs tokens) :
    Remainder (.chord notes) (.closeChord :: signs) (.chord notes :: tokens) := by
  obtain ⟨items, rfl, rfl⟩ := rest
  refine ⟨[], items, rfl, ?_, ?_⟩
  · simpa only [List.flatMap_nil, gathered_nil, List.append_nil] using sounds
  · simp only [List.flatMap_nil, gathered_nil, hoisted_nil, List.append_nil, List.nil_append]

/-- An instruction may stand anywhere, and changes nothing that is open. -/
theorem Remainder.instruction (i : Instruction) {state : Nesting}
    (rest : Remainder state signs tokens) :
    Remainder state (.instruction i :: signs) (i.directives.map .directive ++ tokens) := by
  cases state with
  | free => exact rest.item (.part (.instruction i))
  | shape offset =>
      refine Remainder.part_in_shape (.instruction i) ?_
      simpa only [Part.step, Int.natCast_zero, Int.add_zero] using rest
  | chord notes =>
      have whole : Remainder (.chord notes) (.instruction i :: signs)
          (hoisted (i.directives.map .directive) ++ tokens) :=
        Remainder.chord_part (.part (.instruction i))
          (by simpa only [ChordPart.tokens, Part.tokens, Part.tokensAt, gathered_directives,
            List.append_nil] using rest)
      simpa only [hoisted_directives] using whole
  | chordShape notes offset =>
      have whole : Remainder (.chordShape notes offset) (.instruction i :: signs)
          (hoisted (i.directives.map .directive) ++ tokens) :=
        Remainder.part_in_chordShape (.instruction i)
          (by simpa only [Part.tokensAt, Part.step, Int.natCast_zero, Int.add_zero,
            gathered_directives, List.append_nil] using rest)
      simpa only [hoisted_directives] using whole

/-- A sign that is accepted goes in front of any remainder of the state it leads to. -/
theorem Remainder.cons {state inner : Nesting} {sign : Sign} {first : List Token}
    (accepted : state.accept sign.lexeme = .ok (first, inner))
    (rest : Remainder inner signs tokens) : Remainder state (sign :: signs) (first ++ tokens) := by
  cases state with
  | free =>
      cases sign with
      | note n => cases accepted; exact rest.item (.part (.note n))
      | rest count => cases accepted; exact rest.item (.rest count)
      | instruction i => cases accepted; exact rest.instruction i
      | openChord => cases accepted; exact rest.openChord
      | openShape => cases accepted; exact rest.openShape
      | closeChord => cases accepted
      | closeShape => cases accepted
  | shape offset =>
      cases sign with
      | note n => cases accepted; exact Remainder.part_in_shape (.note n) rest
      | instruction i => cases accepted; exact rest.instruction i
      | closeShape => cases accepted; exact rest.closeShape
      | rest count => cases accepted
      | openChord => cases accepted
      | closeChord => cases accepted
      | openShape => cases accepted
  | chord notes =>
      cases sign with
      | note n => cases accepted; exact Remainder.chord_part (.part (.note n)) rest
      | instruction i => cases accepted; exact rest.instruction i
      | closeChord =>
          cases notes with
          | nil => cases accepted
          | cons note notes => cases accepted; exact rest.closeChord (List.cons_ne_nil _ _)
      | openShape => cases accepted; exact rest.openShape_in_chord
      | rest count => cases accepted
      | openChord => cases accepted
      | closeShape => cases accepted
  | chordShape notes offset =>
      cases sign with
      | note n => cases accepted; exact Remainder.part_in_chordShape (.note n) rest
      | instruction i => cases accepted; exact rest.instruction i
      | closeShape => cases accepted; exact rest.closeShape_in_chord
      | rest count => cases accepted
      | openChord => cases accepted
      | closeChord => cases accepted
      | openShape => cases accepted

theorem Remainder.of_run {state last : Nesting} (run : Run state signs tokens last)
    (closed : last = .free) : Remainder state signs tokens := by
  induction run with
  | nil state =>
      subst closed
      exact ⟨[], rfl, rfl⟩
  | cons accepted _ ih => exact .cons accepted (ih closed)

theorem run_free_iff :
    Run .free signs tokens .free ↔
      ∃ items : List Item,
        signs = items.flatMap Item.signs ∧ tokens = items.flatMap Item.tokens := by
  constructor
  · intro run
    exact Remainder.of_run run rfl
  · rintro ⟨items, rfl, rfl⟩
    exact run_items items

end Polyphony.Score
