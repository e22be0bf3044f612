import Polyphony.Command.Run
import Polyphony.Proofs.Compile
import Polyphony.Proofs.Score.Document
import Polyphony.Proofs.Timeline.Notes

/-! A voice has as many notes as its text has note symbols outside blocks, and its track has as many
events. While a voice is read, the notes of an open chord wait to be counted. -/
namespace Polyphony.Score

/-- The characters of a text outside its blocks. The flag tells whether it begins inside one. -/
def outside : Bool → List Char → List Char
  | _, [] => []
  | true, c :: rest => outside (c ≠ closeBrace) rest
  | false, c :: rest => if c = openBrace then outside true rest else c :: outside false rest

def isNoteSymbol (c : Char) : Bool := c ∈ "0123456789TE".toList

/-- The number of note symbols outside blocks. -/
def noteCount (text : List Char) : Nat := (outside false text).countP isNoteSymbol

theorem outside_append_of_not_mem {text : List Char} (free : openBrace ∉ text)
    (rest : List Char) : outside false (text ++ rest) = text ++ outside false rest := by
  induction text with
  | nil => rfl
  | cons c text ih =>
      obtain ⟨different, free⟩ := not_or.mp (mt List.mem_cons.mpr free)
      rw [List.cons_append, outside, if_neg (Ne.symm different), ih free, List.cons_append]

/-- A block ends with the first closing brace, whatever stands before that. -/
theorem outside_append_closeBrace {contents : List Char} (free : closeBrace ∉ contents)
    (rest : List Char) :
    outside true (contents ++ closeBrace :: rest) = outside false rest := by
  induction contents with
  | nil => rfl
  | cons c contents ih =>
      obtain ⟨different, free⟩ := not_or.mp (mt List.mem_cons.mpr free)
      rw [List.cons_append, outside, decide_eq_true (Ne.symm different), ih free]

theorem noteCount_append_of_not_mem {text : List Char} (free : openBrace ∉ text)
    (rest : List Char) :
    noteCount (text ++ rest) = text.countP isNoteSymbol + noteCount rest := by
  rw [noteCount, outside_append_of_not_mem free, List.countP_append, noteCount]

/-- How many notes a sign is. -/
def Sign.sounds : Sign → Nat
  | .note _ => 1
  | _ => 0

theorem Marks.text_plain (marks : Marks) :
    openBrace ∉ marks.text ∧ marks.text.countP isNoteSymbol = 0 := by
  cases marks with
  | tildes count =>
      refine ⟨fun member => absurd (List.eq_of_mem_replicate member) (by decide), ?_⟩
      exact List.countP_replicate.trans (if_neg (by decide))
  | apostrophes count =>
      refine ⟨fun member => absurd (List.eq_of_mem_replicate member) (by decide), ?_⟩
      exact List.countP_replicate.trans (if_neg (by decide))

theorem pitchSymbol_sounds (p : Fin 12) :
    pitchSymbol p ≠ openBrace ∧ isNoteSymbol (pitchSymbol p) = true := by
  revert p
  decide

theorem noteCount_symbol {symbol : Char} (noBrace : symbol ≠ openBrace) (marks : Marks)
    (rest : List Char) :
    noteCount (symbol :: marks.text ++ rest) =
      (if isNoteSymbol symbol then 1 else 0) + noteCount rest := by
  obtain ⟨free, silent⟩ := marks.text_plain
  have text_free : openBrace ∉ symbol :: marks.text := by
    intro member
    rcases List.mem_cons.mp member with same | inMarks
    · exact noBrace same.symm
    · exact free inMarks
  rw [noteCount_append_of_not_mem text_free, List.countP_cons, silent, Nat.zero_add]

theorem noteCount_sign (sign : Sign) (rest : List Char) :
    noteCount (sign.text ++ rest) = sign.sounds + noteCount rest := by
  cases sign with
  | note n =>
      obtain ⟨noBrace, sounds⟩ := pitchSymbol_sounds n.pitchClass
      rw [Sign.text, noteCount_symbol noBrace, if_pos sounds, Sign.sounds]
  | rest count => exact noteCount_symbol (by decide) (.apostrophes count) rest
  | instruction i =>
      cases i with
      | shorthand s =>
          cases s <;> exact noteCount_append_of_not_mem (by decide) rest
      | block first others =>
          rw [Sign.text, text_block, List.cons_append, List.append_assoc, List.singleton_append,
            noteCount, outside, if_pos rfl,
            outside_append_closeBrace (closeBrace_not_mem_blockText first others)]
          exact (Nat.zero_add _).symm
  | openChord => exact noteCount_append_of_not_mem (by decide) rest
  | closeChord => exact noteCount_append_of_not_mem (by decide) rest
  | openShape => exact noteCount_append_of_not_mem (by decide) rest
  | closeShape => exact noteCount_append_of_not_mem (by decide) rest

theorem noteCount_signs (signs : List Sign) :
    noteCount (signs.flatMap Sign.text) = (signs.map Sign.sounds).sum := by
  induction signs with
  | nil => rfl
  | cons sign signs ih => rw [List.flatMap_cons, noteCount_sign, ih, List.map_cons, List.sum_cons]

/-- The notes that have been read but are not in any token yet. -/
def Nesting.waiting : Nesting → List NoteCode
  | .free => []
  | .chord notes => notes
  | .shape _ => []
  | .chordShape notes _ => notes

/-- The number of notes in some tokens. -/
def codeCount (tokens : List Token) : Nat := (tokens.flatMap Token.codes).length

theorem codeCount_append (first second : List Token) :
    codeCount (first ++ second) = codeCount first + codeCount second := by
  rw [codeCount, List.flatMap_append, List.length_append]
  rfl

theorem codeCount_directives (block : List Directive) : codeCount (block.map .directive) = 0 := by
  induction block with
  | nil => rfl
  | cons d block ih => exact ih

/-- A note that is read comes out or waits, and what comes out was waiting or is just read. -/
theorem Nesting.accept_conserves {state inner : Nesting} {sign : Sign} {tokens : List Token}
    (accepted : state.accept sign.lexeme = .ok (tokens, inner)) :
    state.waiting.length + sign.sounds = codeCount tokens + inner.waiting.length := by
  cases sign with
  | instruction i =>
      cases accepted
      rw [codeCount_directives, Nat.zero_add]
      rfl
  | note n =>
      cases state with
      | free => cases accepted; rfl
      | shape offset => cases accepted; rfl
      | chord notes =>
          cases accepted
          simp only [waiting, Sign.sounds, List.length_append, List.length_singleton, codeCount,
            List.flatMap_nil, List.length_nil, Nat.zero_add]
      | chordShape notes offset =>
          cases accepted
          simp only [waiting, Sign.sounds, List.length_append, List.length_singleton, codeCount,
            List.flatMap_nil, List.length_nil, Nat.zero_add]
  | rest count => cases state <;> cases accepted; rfl
  | openChord => cases state <;> cases accepted; rfl
  | closeChord =>
      cases state with
      | chord notes =>
          cases notes with
          | nil => cases accepted
          | cons note notes =>
              cases accepted
              rw [codeCount, List.flatMap_singleton]
              rfl
      | _ => cases accepted
  | openShape =>
      cases state with
      | free => cases accepted; rfl
      | chord notes => cases accepted; exact (Nat.zero_add _).symm
      | _ => cases accepted
  | closeShape =>
      cases state with
      | shape offset => cases accepted; rfl
      | chordShape notes offset => cases accepted; exact (Nat.zero_add _).symm
      | _ => cases accepted

theorem Nesting.Run.conserves {state last : Nesting} {signs : List Sign} {tokens : List Token}
    (run : Nesting.Run state signs tokens last) :
    state.waiting.length + (signs.map Sign.sounds).sum =
      codeCount tokens + last.waiting.length := by
  induction run with
  | nil state => exact Nat.add_comm _ 0
  | cons accepted _ ih =>
      have first := Nesting.accept_conserves accepted
      rw [List.map_cons, List.sum_cons, codeCount_append]
      omega

theorem codeCount_of_lexVoice {text : List Char} {voice : Voice}
    (lexed : lexVoice text = .ok voice) : codeCount voice = noteCount text := by
  obtain ⟨signs, ahead, run⟩ := lexFrom_eq_ok_iff.mp lexed
  have conserved := run.conserves
  rw [← noteCount_signs, ← ahead] at conserved
  exact conserved.symm.trans (Nat.zero_add _)

theorem length_voiceTexts (text : List Char) :
    (voiceTexts text).flatten.length = text.count '|' + text.count ':' + 1 := by
  rw [List.length_flatten, voiceTexts, Text.sum_length_pieces,
    Text.sum_count_pieces (by decide), Text.length_pieces]
  omega

theorem forall₂_lexVoice_of_lex {text : List Char} {fragments : List Fragment}
    (lexed : lex text = .ok fragments) :
    List.Forall₂ (fun text voice => lexVoice text = .ok voice) (voiceTexts text).flatten
      (fragments.flatMap Fragment.voices) := by
  have read := (lex_eq_ok_iff.mp lexed).imp
    (S := fun texts fragment =>
      List.Forall₂ (fun text voice => lexVoice text = .ok voice) texts fragment.voices)
    fun texts fragment => by rintro ⟨voices, each, rfl⟩; exact each
  exact List.rel_flatten (List.forall₂_map_right_iff.mpr read)

end Polyphony.Score

namespace Polyphony.Timeline

open Score

variable {o : Options}

theorem length_notesAfter (before tokens : List Token) :
    (notesAfter before tokens).length = codeCount tokens := by
  induction tokens generalizing before with
  | nil => rfl
  | cons token tokens ih =>
      rw [notesAfter_cons, List.length_append, List.length_map, ih, codeCount, codeCount,
        List.flatMap_cons, List.length_append]

theorem Renders.length {voice : Voice} {track : Track} (renders : Renders o voice track) :
    track.events.length = codeCount voice := by
  obtain ⟨rhythm, sung, change, retimed⟩ := renders
  rw [retimed.2, trackAt, List.length_map, List.length_map, length_notesAfter]

end Polyphony.Timeline

namespace Polyphony

open Score (normalise voiceTexts noteCount)

/-- The event counts of the tracks are the note counts of the voices in the text. -/
theorem compile_counts {o : Options} {source : String} {tracks : List Timeline.Track}
    (compiled : compile o source = .ok tracks) :
    List.Forall₂ (fun text track => track.events.length = noteCount text)
      (voiceTexts (normalise source.toList)).flatten tracks := by
  obtain ⟨_, fragments, lexed, scheduled⟩ := compile_eq_ok_iff.mp compiled
  refine (forall₂_comp (Score.forall₂_lexVoice_of_lex lexed)
    (Timeline.scheduleFrom_renders scheduled)).imp ?_
  rintro text track ⟨voice, read, renders⟩
  exact renders.length.trans (Score.codeCount_of_lexVoice read)

theorem sum_eventCounts {texts : List (List Char)} {tracks : List Timeline.Track}
    (counts : List.Forall₂ (fun text track => track.events.length = noteCount text) texts tracks) :
    (tracks.flatMap (·.events)).length = (texts.map noteCount).sum := by
  induction counts with
  | nil => rfl
  | cons first _ ih =>
      rw [List.flatMap_cons, List.length_append, List.map_cons, List.sum_cons, first, ih]

end Polyphony

namespace Polyphony.Command

open Score (normalise voiceTexts noteCount)

variable {ε α β : Type} {build : Build} {world : World Id} {arguments : List String}
  {request : Request}
  {input : Input} {path : Option String} {config : Config} {source stdout : String}
  {tracks : List Timeline.Track}

theorem run_bind_eq_ok_iff {x : ExceptT ε Id α} {f : α → ExceptT ε Id β} {b : β} :
    (x >>= f).run = (.ok b : Except ε β) ↔
      ∃ a, x.run = (.ok a : Except ε α) ∧ (f a).run = (.ok b : Except ε β) := by
  have bound : (x >>= f).run = ((x.run : Except ε α) >>= fun a => (f a).run : Except ε β) := by
    change ExceptT.bindCont f x.run = Except.bind x.run _
    cases x.run <;> rfl
  rw [bound]
  exact bind_eq_ok_iff

theorem compile_of_compileWith (compiled : compileWith build config source = .ok tracks) :
    compile { config.options with build } source = .ok tracks := by
  unfold compileWith at compiled
  split at compiled
  · cases compiled
  · cases compiled
  · next done =>
      split at compiled
      · split at compiled
        · cases compiled
        · cases compiled
          exact done
      · cases compiled
        exact done

theorem run_of_request (asked : request? arguments = some request) :
    run world arguments = match ((request.run world).run : Except Failure String) with
      | .ok stdout => (⟨0, stdout, ""⟩ : Outcome)
      | .error failure => failure.outcome := by
  rw [run, asked]
  change (match (request.run world).run with | .ok _ => _ | .error _ => _) = _
  cases (request.run world).run <;> rfl

theorem Failure.exit_ne_zero (failure : Failure) : failure.outcome.exit ≠ 0 := by
  cases failure with
  | reported context cause => cases context <;> exact Nat.one_ne_zero
  | ended => decide

/-- Only a request that succeeds ends with status zero. -/
theorem run_of_exit_zero (asked : request? arguments = some request)
    (accepted : (run world arguments).exit = 0) :
    ∃ stdout, (request.run world).run = (.ok stdout : Except Failure String) ∧
      run world arguments = (⟨0, stdout, ""⟩ : Outcome) := by
  have outcome := @run_of_request world _ _ asked
  cases answered : (request.run world).run with
  | ok stdout =>
      rw [answered] at outcome
      exact ⟨stdout, rfl, outcome⟩
  | error failure =>
      rw [answered] at outcome
      rw [outcome] at accepted
      exact absurd accepted failure.exit_ne_zero

theorem check_eq_ok (read : readInput world input = (.ok source : Except Failure String))
    (answered : ((Request.check input path).run world).run =
      (.ok stdout : Except Failure String)) :
    ∃ o tracks, compile o source = .ok tracks ∧
      stdout = "ok: " ++ toString tracks.length ++ " tracks, " ++
        toString (tracks.flatMap (·.events)).length ++ " events\n" := by
  obtain ⟨config, _, answered⟩ := run_bind_eq_ok_iff.mp answered
  obtain ⟨_, again, answered⟩ := run_bind_eq_ok_iff.mp answered
  obtain rfl := Except.ok.inj (read.symm.trans again)
  obtain ⟨tracks, compiled, answered⟩ := run_bind_eq_ok_iff.mp answered
  exact ⟨_, tracks, compile_of_compileWith compiled, (Except.ok.inj answered).symm⟩

end Polyphony.Command

namespace Polyphony

open Score (normalise voiceTexts noteCount)
open Command (World Input request? readInput)

/-- There is one track for every voice of the text, and one event for every note symbol that the
voice has outside its blocks. A check that passes prints both numbers. -/
theorem compile_counts_notes :
    (∀ (o : Options) (source : String) (tracks : List Timeline.Track),
      compile o source = .ok tracks →
        tracks.length = (voiceTexts (normalise source.toList)).flatten.length ∧
        List.Forall₂ (fun text track => track.events.length = noteCount text)
          (voiceTexts (normalise source.toList)).flatten tracks) ∧
    (∀ (world : World Id) (arguments : List String) (input : Input) (config : Option String)
      (source : String), request? arguments = some (.check input config) →
        readInput world input = (.ok source : Except Command.Failure String) →
        (Command.run world arguments).exit = 0 →
        let text := normalise source.toList
        (Command.run world arguments).stdout =
          "ok: " ++ toString (text.count '|' + text.count ':' + 1) ++ " tracks, " ++
            toString ((voiceTexts text).flatten.map noteCount).sum ++ " events\n") := by
  constructor
  · intro o source tracks compiled
    have counts := compile_counts compiled
    exact ⟨counts.length_eq.symm, counts⟩
  · intro world arguments input config source asked read accepted text
    obtain ⟨stdout, answered, ended⟩ := Command.run_of_exit_zero asked accepted
    obtain ⟨o, tracks, compiled, rfl⟩ := Command.check_eq_ok read answered
    have counts := compile_counts compiled
    rw [ended, sum_eventCounts counts, ← counts.length_eq, Score.length_voiceTexts]

/-- Four notes in the first voice, two of them in a shape in a chord; none in a block, in the second
voice or in the last. -/
def fourNotes : World Id where
  fileBytes := fun _ => (.error .missing : Except Command.ReadFault ByteArray)
  standardBytes :=
    (.ok "0\x7bvol=1\x7d[<3E>T]:-|".toUTF8 : Except Command.ReadFault ByteArray)

theorem check_fourNotes :
    let source := "0\x7bvol=1\x7d[<3E>T]:-|"
    let tracks : List Timeline.Track :=
      [{ events := [⟨0, 1, 1, 48, 1⟩, ⟨1, 1, 1, 51, 1⟩, ⟨1, 1, 1, 62, 1⟩, ⟨1, 1, 1, 58, 1⟩] },
        { events := [] }, { events := [] }]
    compile {} source = .ok tracks ∧
      List.Forall₂ (fun text track => track.events.length = noteCount text)
        (voiceTexts (normalise source.toList)).flatten tracks ∧
      request? ["check", "-"] = some (.check .standard none) ∧
      (Command.run fourNotes ["check", "-"]).exit = 0 ∧
      (Command.run fourNotes ["check", "-"]).stdout = "ok: 3 tracks, 4 events\n" := by
  intro source tracks
  have compiled : compile {} source = .ok tracks := by decide +kernel
  have sorted : Command.sort? [Command.verbose, Command.config] {} ["-"] =
      some { inputs := ["-"] } := by
    rw [Command.sort?, if_neg (by decide), Command.sort?]
    · rfl
    · decide
  have asked : request? ["check", "-"] = some (.check .standard none) := by
    change Command.checkRequest? ["-"] = _
    rw [Command.checkRequest?, sorted]
    rfl
  have accepted : (Command.run fourNotes ["check", "-"]).exit = 0 := by decide +kernel
  have printed := compile_counts_notes.2 fourNotes _ _ _ source asked rfl accepted
  have counted : (normalise source.toList).count '|' + (normalise source.toList).count ':' + 1 = 3 ∧
      ((voiceTexts (normalise source.toList)).flatten.map noteCount).sum = 4 := by decide +kernel
  simp only [counted] at printed
  refine ⟨compiled, (compile_counts_notes.1 _ _ _ compiled).2, asked, accepted, printed.trans ?_⟩
  rfl

end Polyphony
