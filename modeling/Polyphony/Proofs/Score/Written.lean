import Polyphony.Proofs.Score.Derivation

/-! Which voices and scores can be written at all, and a text for each of them. Every note is
written in a shape: one within the octave opens a shape of its own, a higher one goes on with the
shape of the note right before it. -/
namespace Polyphony.Score

open Nesting (Run)

/-- A pitch within the octave can stand anywhere; a higher one rises from the pitch right before it
by one pitch class. -/
def Reachable (before : Option Int) (pitch : Int) : Prop :=
  0 ≤ pitch ∧ (11 < pitch → ∃ previous ∈ before, 0 ≤ pitch - previous ∧ pitch - previous ≤ 11)

instance (before : Option Int) (pitch : Int) : Decidable (Reachable before pitch) :=
  inferInstanceAs (Decidable (_ ∧ _))

/-- The members of a chord, the first of them after `before`. -/
def InReach (before : Option Int) : List NoteCode → Prop
  | [] => True
  | code :: rest => Reachable before code.pitch ∧ InReach (some code.pitch) rest

instance decidableInReach (before : Option Int) :
    (codes : List NoteCode) → Decidable (InReach before codes)
  | [] => inferInstanceAs (Decidable True)
  | code :: rest =>
    have := decidableInReach (some code.pitch) rest
    inferInstanceAs (Decidable (_ ∧ _))

/-- Names end at an equals sign; names and values end at what ends an entry, a block or a voice. -/
def Separators : List Char := [',', closeBrace, '|', ':']

def NameText (name : String) : Prop := name ≠ "" ∧ ∀ c ∈ name.toList, c ≠ '=' ∧ c ∉ Separators

def ValueText (value : String) : Prop := ∀ c ∈ value.toList, c ∉ Separators

instance (name : String) : Decidable (NameText name) :=
  have := List.decidableBAll (fun c => c ≠ '=' ∧ c ∉ Separators) name.toList
  inferInstanceAs (Decidable (_ ∧ _))

instance (value : String) : Decidable (ValueText value) :=
  List.decidableBAll (· ∉ Separators) value.toList

/-- Whether the name, in whatever case, is that of an effect. -/
def Known (name : String) : Prop := ∃ known ∈ Effect.named, lowered name = known.1

instance (name : String) : Decidable (Known name) := inferInstanceAs (Decidable (∃ _ ∈ _, _))

/-- The shorthands carry no value. -/
def Directive.Writable (d : Directive) : Prop :=
  match d.effect with
  | .octaveUp | .octaveDown | .slurUp | .slurDown => d.value = none
  | .volume | .noteLength | .rhythm | .tempo => ∀ value ∈ d.value, ValueText value
  | .unknown name => (NameText name ∧ ¬ Known name) ∧ ∀ value ∈ d.value, ValueText value

instance : (d : Directive) → Decidable d.Writable
  | ⟨.octaveUp, value⟩ | ⟨.octaveDown, value⟩ | ⟨.slurUp, value⟩ | ⟨.slurDown, value⟩ =>
    inferInstanceAs (Decidable (value = none))
  | ⟨.volume, value⟩ | ⟨.noteLength, value⟩ | ⟨.rhythm, value⟩ | ⟨.tempo, value⟩ =>
    inferInstanceAs (Decidable (∀ text ∈ value, ValueText text))
  | ⟨.unknown _, _⟩ => inferInstanceAs (Decidable (_ ∧ _))

/-- A token that stands right after a note of pitch `before`, directives aside. -/
def Token.WritableAfter (before : Option Int) : Token → Prop
  | .note code => Reachable before code.pitch
  | .chord codes => codes ≠ [] ∧ InReach none codes
  | .rest length => length ≤ 0
  | .directive d => d.Writable

instance (before : Option Int) : (token : Token) → Decidable (token.WritableAfter before)
  | .note code => inferInstanceAs (Decidable (Reachable before code.pitch))
  | .chord codes => inferInstanceAs (Decidable (codes ≠ [] ∧ InReach none codes))
  | .rest length => inferInstanceAs (Decidable (length ≤ 0))
  | .directive d => inferInstanceAs (Decidable d.Writable)

/-- The pitch of the note that was written last, unless a rest or a chord came after it. -/
def pitchAfter (before : Option Int) : Token → Option Int
  | .note code => some code.pitch
  | .directive _ => before
  | .rest _ => none
  | .chord _ => none

def WritableFrom (before : Option Int) : Voice → Prop
  | [] => True
  | token :: rest => token.WritableAfter before ∧ WritableFrom (pitchAfter before token) rest

instance decidableWritableFrom (before : Option Int) :
    (voice : Voice) → Decidable (WritableFrom before voice)
  | [] => inferInstanceAs (Decidable True)
  | token :: rest =>
    have := decidableWritableFrom (pitchAfter before token) rest
    inferInstanceAs (Decidable (_ ∧ _))

def Writable (voice : Voice) : Prop := WritableFrom none voice

instance (voice : Voice) : Decidable (Writable voice) :=
  inferInstanceAs (Decidable (WritableFrom none voice))

/-- A fragment as a text has it: of at least one voice, and with no rhythm but what its directives
set. -/
structure Fragment.Writable (fragment : Fragment) : Prop where
  voices_ne_nil : fragment.voices ≠ []
  relative : fragment.rhythm = .relative
  each : ∀ voice ∈ fragment.voices, Score.Writable voice

/-- The text of a note of the pitch class `step`. -/
def noteSign (step length : Int) : NoteSign where
  pitchClass := Fin.ofNat 12 step.toNat
  marks := if 0 ≤ length then .tildes length.toNat else .apostrophes length.natAbs

/-- Close the shape that is open at a pitch, if one is. -/
def closeText : Option Int → List Char
  | none => []
  | some _ => ['>']

def NoteCode.textAfter (before : Option Int) (code : NoteCode) : List Char :=
  if code.pitch ≤ 11 then
    closeText before ++ '<' :: (Sign.note (noteSign code.pitch code.length)).text
  else (Sign.note (noteSign (code.pitch - before.getD 0) code.length)).text

def chordText (before : Option Int) : List NoteCode → List Char
  | [] => closeText before
  | code :: rest => code.textAfter before ++ chordText (some code.pitch) rest

/-- A value with its equals sign. -/
def valueText : Option String → List Char
  | none => []
  | some value => '=' :: value.toList

def Directive.text (d : Directive) : List Char :=
  match d.effect with
  | .octaveUp => ['^']
  | .octaveDown => ['V']
  | .slurUp => ['L']
  | .slurDown => ['S']
  | effect => openBrace :: (effect.name.toList ++ valueText d.value) ++ [closeBrace]

def Token.textAfter (before : Option Int) : Token → List Char
  | .note code => code.textAfter before
  | .chord codes => closeText before ++ ('[' :: chordText none codes ++ [']'])
  | .rest length => closeText before ++ '-' :: List.replicate length.natAbs apostrophe
  | .directive d => d.text

/-- The text of some tokens where a shape is open at the pitch `before`. -/
def textFrom (before : Option Int) : Voice → List Char
  | [] => closeText before
  | token :: rest => token.textAfter before ++ textFrom (pitchAfter before token) rest

def voiceText (voice : Voice) : List Char := textFrom none voice

def Fragment.text (fragment : Fragment) : List Char :=
  Text.spliced ':' (fragment.voices.map voiceText)

def scoreText (fragments : List Fragment) : List Char :=
  Text.spliced '|' (fragments.map Fragment.text)

/-- Not cut by the bars and colons of a score. -/
def Undivided (text : List Char) : Prop := '|' ∉ text ∧ ':' ∉ text

instance (text : List Char) : Decidable (Undivided text) := inferInstanceAs (Decidable (_ ∧ _))

theorem undivided_append {first second : List Char} :
    Undivided (first ++ second) ↔ Undivided first ∧ Undivided second := by
  simp only [Undivided, List.mem_append, not_or]
  exact and_and_and_comm

theorem undivided_cons {c : Char} {text : List Char} (bar : '|' ≠ c) (colon : ':' ≠ c)
    (rest : Undivided text) : Undivided (c :: text) :=
  ⟨List.not_mem_cons_of_ne_of_not_mem bar rest.1, List.not_mem_cons_of_ne_of_not_mem colon rest.2⟩

/-- The text is that of signs which the scanner accepts from one state to the other. -/
structure Nesting.Reads (state : Nesting) (text : List Char) (tokens : List Token)
    (last : Nesting) : Prop where
  undivided : Undivided text
  accepted : ∃ signs : List Sign, signs.flatMap Sign.text = text ∧ Run state signs tokens last

open Nesting (Reads)

variable {state inner last : Nesting} {text text' : List Char} {tokens tokens' : List Token}

theorem Nesting.Reads.nil (state : Nesting) : Reads state [] [] state :=
  ⟨⟨List.not_mem_nil, List.not_mem_nil⟩, [], rfl, .nil state⟩

theorem Nesting.Reads.append (first : Reads state text tokens inner)
    (second : Reads inner text' tokens' last) :
    Reads state (text ++ text') (tokens ++ tokens') last := by
  obtain ⟨signs, rfl, run⟩ := first.accepted
  obtain ⟨signs', rfl, run'⟩ := second.accepted
  refine ⟨undivided_append.mpr ⟨first.undivided, second.undivided⟩, signs ++ signs', ?_, ?_⟩
  · exact List.flatMap_append
  · exact run.append run'

theorem Nesting.Reads.sign (sign : Sign) (undivided : Undivided sign.text)
    (accepted : state.accept sign.lexeme = .ok (tokens, inner)) :
    Reads state sign.text tokens inner := by
  refine ⟨undivided, [sign], ?_, .single accepted⟩
  rw [List.flatMap_singleton]

theorem lexVoice_of_reads (reads : Reads .free text tokens .free) : lexVoice text = .ok tokens := by
  obtain ⟨signs, rfl, run⟩ := reads.accepted
  exact lexFrom_eq_ok_iff.mpr ⟨signs, rfl, run⟩

/-- What is open: the notes of a chord, if one is, and the pitch of a shape, if one is. -/
def Nesting.within : Option (List NoteCode) → Option Int → Nesting
  | none, none => .free
  | none, some offset => .shape offset
  | some notes, none => .chord notes
  | some notes, some offset => .chordShape notes offset

open Nesting (within)

variable {chord : Option (List NoteCode)} {before : Option Int} {code : NoteCode}

theorem undivided_replicate {c : Char} (bar : '|' ≠ c) (colon : ':' ≠ c) (count : Nat) :
    Undivided (List.replicate count c) :=
  ⟨fun member => bar (List.eq_of_mem_replicate member),
    fun member => colon (List.eq_of_mem_replicate member)⟩

theorem pitchSymbol_ne (p : Fin 12) : '|' ≠ pitchSymbol p ∧ ':' ≠ pitchSymbol p := by
  revert p
  decide

theorem undivided_note (n : NoteSign) : Undivided (Sign.note n).text := by
  obtain ⟨bar, colon⟩ := pitchSymbol_ne n.pitchClass
  refine undivided_cons bar colon ?_
  cases n.marks with
  | tildes count => exact undivided_replicate (by decide) (by decide) count
  | apostrophes count => exact undivided_replicate (by decide) (by decide) count

theorem code_noteSign (step length : Int) : (noteSign step length).marks.code = length := by
  unfold noteSign
  dsimp only
  split
  · next longer => exact Int.toNat_of_nonneg longer
  · next shorter => simp only [Marks.code]; omega

theorem pitchClass_noteSign {step length : Int} (nonneg : 0 ≤ step) (le : step ≤ 11) :
    ((noteSign step length).pitchClass : Int) = step := by
  change ((step.toNat % 12 : Nat) : Int) = step
  omega

theorem reads_closeText (chord : Option (List NoteCode)) (before : Option Int) :
    Reads (within chord before) (closeText before) [] (within chord none) := by
  cases before with
  | none => exact .nil _
  | some pitch =>
      have closed : (within chord (some pitch)).accept Sign.closeShape.lexeme =
          .ok ([], within chord none) := by
        cases chord <;> rfl
      exact .sign .closeShape (by decide) closed

/-- The tokens that a note completes where a chord may be open. -/
def completed (chord : Option (List NoteCode)) (code : NoteCode) : List Token :=
  if chord.isSome then [] else [.note code]

/-- A note in an open shape is as far above the shape's pitch as its class. -/
theorem reads_note_in_shape (chord : Option (List NoteCode)) {offset : Int}
    (nonneg : 0 ≤ code.pitch - offset) (le : code.pitch - offset ≤ 11) :
    Reads (within chord (some offset)) (Sign.note (noteSign (code.pitch - offset) code.length)).text
      (completed chord code) (within (chord.map (· ++ [code])) (some code.pitch)) := by
  have risen : offset + ((noteSign (code.pitch - offset) code.length).pitchClass : Int) =
      code.pitch := by
    rw [pitchClass_noteSign nonneg le]
    omega
  refine .sign _ (undivided_note _) ?_
  cases chord with
  | none => simp only [Sign.lexeme, within, Nesting.accept, risen, code_noteSign]; rfl
  | some notes => simp only [Sign.lexeme, within, Nesting.accept, risen, code_noteSign]; rfl

theorem reads_note (chord : Option (List NoteCode)) (reachable : Reachable before code.pitch) :
    Reads (within chord before) (code.textAfter before) (completed chord code)
      (within (chord.map (· ++ [code])) (some code.pitch)) := by
  unfold NoteCode.textAfter
  split
  · next low =>
      have opened : (within chord none).accept Sign.openShape.lexeme =
          .ok ([], within chord (some 0)) := by
        cases chord <;> rfl
      have opens : Reads (within chord none) ['<'] [] (within chord (some 0)) :=
        .sign .openShape (by decide) opened
      have nonneg : 0 ≤ code.pitch - 0 := by
        have := reachable.1
        omega
      have note := reads_note_in_shape chord nonneg (by omega)
      rw [Int.sub_zero] at note
      exact (reads_closeText chord before).append (opens.append note)
  · next high =>
      obtain ⟨previous, same, nonneg, le⟩ := reachable.2 (by omega)
      obtain rfl := Option.mem_def.mp same
      exact reads_note_in_shape chord nonneg le

theorem reads_chordText (notes : List NoteCode) {codes : List NoteCode}
    (reach : InReach before codes) :
    Reads (within (some notes) before) (chordText before codes) []
      (.chord (notes ++ codes)) := by
  induction codes generalizing before notes with
  | nil =>
      rw [List.append_nil]
      exact reads_closeText (some notes) before
  | cons code rest ih =>
      have first : Reads (within (some notes) before) (code.textAfter before) []
          (within (some (notes ++ [code])) (some code.pitch)) :=
        reads_note (some notes) reach.1
      have later := ih (notes ++ [code]) reach.2
      rw [List.append_assoc, List.singleton_append] at later
      exact first.append later

theorem reads_chord {codes : List NoteCode} (members : codes ≠ []) (reach : InReach none codes) :
    Reads .free ('[' :: chordText none codes ++ [']']) [.chord codes] .free := by
  have opened : Reads .free ['['] [] (.chord []) := .sign .openChord (by decide) rfl
  have closed : Reads (.chord codes) [']'] [.chord codes] .free :=
    .sign .closeChord (by decide) (accept_closeChord members)
  exact (opened.append (reads_chordText [] reach)).append closed

theorem reads_rest {length : Int} (nonpos : length ≤ 0) :
    Reads .free ('-' :: List.replicate length.natAbs apostrophe) [.rest length] .free := by
  have code : (-(length.natAbs : Int)) = length := by omega
  refine .sign (.rest length.natAbs) ?_ ?_
  · exact undivided_cons (by decide) (by decide) (undivided_replicate (by decide) (by decide) _)
  · simp only [Sign.lexeme, Nesting.accept, code]

theorem not_mem_separators {c : Char} (plain : c ∉ Separators) :
    c ≠ ',' ∧ c ≠ closeBrace ∧ c ≠ '|' ∧ c ≠ ':' := by
  simpa [Separators] using plain

theorem undivided_of_plain {text : List Char} (plain : ∀ c ∈ text, c ∉ Separators) :
    Undivided text :=
  ⟨fun member => plain _ member (by decide), fun member => plain _ member (by decide)⟩

theorem ofName_of_not_known {name : String} (unknown : ¬ Known name) :
    Effect.ofName name = .unknown name := by
  have none : Effect.named.lookup (lowered name) = none := by
    refine List.lookup_eq_none_iff.mpr fun known member => ?_
    exact bne_iff_ne.mpr fun same => unknown ⟨known, member, same⟩
  rw [Effect.ofName, none]
  rfl

/-- An effect that is told by its name stands in a block with its value. -/
theorem exists_entry (effect : Effect) (named : NameText effect.name)
    (told : Effect.ofName effect.name = effect) {value : Option String}
    (values : ∀ text ∈ value, ValueText text) :
    ∃ e : Entry, e.directive = ⟨effect, value⟩ ∧
      e.text = effect.name.toList ++ valueText value := by
  have name_plain : ∀ c ∈ effect.name.toList, c ≠ '=' ∧ c ≠ ',' ∧ c ≠ closeBrace := by
    intro c member
    obtain ⟨equals, plain⟩ := named.2 c member
    obtain ⟨comma, brace, _⟩ := not_mem_separators plain
    exact ⟨equals, comma, brace⟩
  have value_plain : ∀ text ∈ value.map String.toList, ∀ c ∈ text, c ≠ ',' ∧ c ≠ closeBrace := by
    intro text written c member
    obtain ⟨value, found, rfl⟩ := Option.map_eq_some_iff.mp written
    obtain ⟨comma, brace, _⟩ := not_mem_separators (values value found c member)
    exact ⟨comma, brace⟩
  have filled : effect.name.toList ≠ [] := fun empty => named.1 (String.toList_eq_nil_iff.mp empty)
  have kept : (value.map String.toList).map String.ofList = value := by
    cases value with
    | none => rfl
    | some value => exact congrArg some String.ofList_toList
  refine ⟨⟨effect.name.toList, value.map String.toList, filled, name_plain, value_plain⟩, ?_, ?_⟩
  · simp only [Entry.directive, String.ofList_toList, told, kept]
  · cases value <;> rfl

theorem undivided_entry {name : String} (named : NameText name) {value : Option String}
    (values : ∀ text ∈ value, ValueText text) : Undivided (name.toList ++ valueText value) := by
  refine undivided_append.mpr ⟨undivided_of_plain fun c member => (named.2 c member).2, ?_⟩
  cases value with
  | none => exact ⟨List.not_mem_nil, List.not_mem_nil⟩
  | some value =>
      exact undivided_cons (by decide) (by decide) (undivided_of_plain (values value rfl))

theorem exists_block (effect : Effect) (named : NameText effect.name)
    (told : Effect.ofName effect.name = effect) {value : Option String}
    (values : ∀ text ∈ value, ValueText text) :
    ∃ i : Instruction, i.directives = [⟨effect, value⟩] ∧
      i.text = openBrace :: (effect.name.toList ++ valueText value) ++ [closeBrace] ∧
      Undivided i.text := by
  obtain ⟨e, same, written⟩ := exists_entry effect named told values
  have block : (Instruction.block e []).text =
      [openBrace] ++ (effect.name.toList ++ valueText value) ++ [closeBrace] := by
    rw [Instruction.text, List.flatMap_nil, List.append_nil, written]
    rfl
  refine ⟨.block e [], congrArg (fun d => [d]) same, block, ?_⟩
  rw [block]
  exact undivided_append.mpr
    ⟨undivided_append.mpr ⟨by decide, undivided_entry named values⟩, by decide⟩

theorem exists_instruction {d : Directive} (writable : d.Writable) :
    ∃ i : Instruction, i.directives = [d] ∧ i.text = d.text ∧ Undivided i.text := by
  obtain ⟨effect, value⟩ := d
  cases effect with
  | octaveUp => obtain rfl := writable; exact ⟨.shorthand .octaveUp, rfl, rfl, by decide⟩
  | octaveDown => obtain rfl := writable; exact ⟨.shorthand .octaveDown, rfl, rfl, by decide⟩
  | slurUp => obtain rfl := writable; exact ⟨.shorthand .slurUp, rfl, rfl, by decide⟩
  | slurDown => obtain rfl := writable; exact ⟨.shorthand .slurDown, rfl, rfl, by decide⟩
  | volume => exact exists_block .volume (by decide) (by decide) writable
  | noteLength => exact exists_block .noteLength (by decide) (by decide) writable
  | rhythm => exact exists_block .rhythm (by decide) (by decide) writable
  | tempo => exact exists_block .tempo (by decide) (by decide) writable
  | unknown name =>
      obtain ⟨⟨named, unknown⟩, values⟩ := writable
      exact exists_block (.unknown name) named (ofName_of_not_known unknown) values

theorem reads_directive {d : Directive} (writable : d.Writable) :
    Reads state d.text [.directive d] state := by
  obtain ⟨i, directives, text, undivided⟩ := exists_instruction writable
  rw [← text]
  refine .sign (.instruction i) undivided ?_
  rw [Sign.lexeme, Nesting.accept, directives]
  rfl

theorem reads_token {token : Token} (writable : token.WritableAfter before) :
    Reads (within none before) (token.textAfter before) [token]
      (within none (pitchAfter before token)) := by
  have closed : Reads (within none before) (closeText before) [] .free :=
    reads_closeText none before
  cases token with
  | note code => exact reads_note none writable
  | chord codes => exact closed.append (reads_chord writable.1 writable.2)
  | rest length => exact closed.append (reads_rest writable)
  | directive d => exact reads_directive writable

theorem reads_textFrom {voice : Voice} (writable : WritableFrom before voice) :
    Reads (within none before) (textFrom before voice) voice .free := by
  induction voice generalizing before with
  | nil => exact reads_closeText none before
  | cons token rest ih => exact (reads_token writable.1).append (ih writable.2)

theorem undivided_voiceText {voice : Voice} (writable : Writable voice) :
    Undivided (voiceText voice) :=
  (reads_textFrom writable).undivided

/-- What is written is read back. -/
theorem lexVoice_voiceText {voice : Voice} (writable : Writable voice) :
    lexVoice (voiceText voice) = .ok voice :=
  lexVoice_of_reads (reads_textFrom writable)

end Polyphony.Score
