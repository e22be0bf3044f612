import Polyphony.Proofs.Score.Document
import Polyphony.Proofs.Score.Written

/-! Bars and colons cut a score before anything is read, so no voice changes what another is read
to. Of several faults the first in the order of the score is reported, with its place in the score
and its index in its voice. -/
namespace Polyphony.Score

variable {text first second : List Char} {texts : List (List Char)} {voice : Voice} {e : LexError}

/-- A text that can be read as one voice. -/
def Readable (text : List Char) : Prop := ∃ voice, lex text = .ok [{ voices := [voice] }]

theorem lex_eq_ok_iff_lexVoice (undivided : Undivided text) :
    lex text = .ok [{ voices := [voice] }] ↔ lexVoice text = .ok voice := by
  rw [lex_of_undivided undivided.1 undivided.2, map_eq_ok_iff]
  constructor
  · rintro ⟨read, lexed, same⟩
    cases same
    exact mapError_eq_ok_iff.mp lexed
  · intro lexed
    exact ⟨voice, mapError_eq_ok_iff.mpr lexed, rfl⟩

theorem lex_eq_error_iff_lexVoice (undivided : Undivided text) :
    lex text = .error e ↔ e.fragment = 0 ∧ e.voice = 0 ∧ lexVoice text = .error e.fault := by
  rw [lex_of_undivided undivided.1 undivided.2, map_eq_error_iff, mapError_eq_error_iff]
  constructor
  · rintro ⟨fault, lexed, rfl⟩
    exact ⟨rfl, rfl, lexed⟩
  · obtain ⟨fault, fragment, voice⟩ := e
    rintro ⟨rfl, rfl, lexed⟩
    exact ⟨fault, lexed, rfl⟩

theorem readable_iff (undivided : Undivided text) :
    Readable text ↔ ∃ voice, lexVoice text = .ok voice := by
  simp only [Readable, lex_eq_ok_iff_lexVoice undivided]

theorem spliced_pieces (separator : Char) (text : List Char) :
    Text.spliced separator (Text.pieces separator text) = text := by
  obtain ⟨first, others, cut⟩ : ∃ first others, Text.pieces separator text = first :: others :=
    List.exists_cons_of_ne_nil (Text.pieces_ne_nil text)
  rw [cut]
  exact (Text.joined_of_pieces cut).1.symm

theorem spliced_voiceTexts (text : List Char) :
    Text.spliced '|' ((voiceTexts text).map (Text.spliced ':')) = text := by
  have inner : Text.spliced ':' ∘ Text.pieces ':' = id := by
    funext piece
    exact spliced_pieces ':' piece
  rw [voiceTexts, List.map_map, inner, List.map_id, spliced_pieces]

theorem undivided_of_mem_voiceTexts (member : texts ∈ voiceTexts text) {piece : List Char}
    (inside : piece ∈ texts) : Undivided piece := by
  obtain ⟨fragment, cut, rfl⟩ := List.mem_map.mp member
  obtain ⟨noColon, kept⟩ := Text.piece_of_mem_pieces inside
  exact ⟨fun bar => (Text.piece_of_mem_pieces cut).1 (kept _ bar), noColon⟩

/-- The text of a voice, by its place in the score. -/
def voiceAt? (text : List Char) (fragment voice : Nat) : Option (List Char) :=
  (voiceTexts text)[fragment]?.bind (·[voice]?)

theorem undivided_of_voiceAt? {fragment voice : Nat} {piece : List Char}
    (found : voiceAt? text fragment voice = some piece) : Undivided piece := by
  obtain ⟨texts, row, column⟩ := Option.bind_eq_some_iff.mp found
  exact undivided_of_mem_voiceTexts (List.mem_of_getElem? row) (List.mem_of_getElem? column)

/-- A fragment is read when each of its voices is. -/
theorem exists_lexFragment_iff {k : Nat} :
    (∃ fragment, lexFragment k texts = .ok fragment) ↔
      ∀ piece ∈ texts, ∃ voice, lexVoice piece = .ok voice := by
  rw [← exists_forall₂_iff]
  constructor
  · rintro ⟨fragment, lexed⟩
    obtain ⟨voices, each, _⟩ := lexFragment_eq_ok_iff.mp lexed
    exact ⟨voices, each⟩
  · rintro ⟨voices, each⟩
    exact ⟨_, lexFragment_eq_ok_iff.mpr ⟨voices, each, rfl⟩⟩

/-- In a fragment that was read, each voice is what its text alone is read to. -/
theorem readFrom_iff {fragment : Fragment} (undivided : ∀ piece ∈ texts, Undivided piece) :
    fragment.ReadFrom texts ↔ fragment.rhythm = .relative ∧ List.Forall₂ (fun piece voice =>
      lex piece = .ok [{ voices := [voice] }]) texts fragment.voices := by
  have each : ∀ {voices : List Voice}, List.Forall₂ (fun piece voice =>
        lex piece = .ok [{ voices := [voice] }]) texts voices ↔
      List.Forall₂ (fun piece voice => lexVoice piece = .ok voice) texts voices :=
    forall₂_congr_of_mem fun piece inside _ => lex_eq_ok_iff_lexVoice (undivided piece inside)
  rw [each]
  constructor
  · rintro ⟨voices, read, rfl⟩
    exact ⟨rfl, read⟩
  · obtain ⟨voices, rhythm⟩ := fragment
    rintro ⟨rfl, read⟩
    exact ⟨voices, read, rfl⟩

theorem exists_lex_iff :
    (∃ fragments, lex text = .ok fragments) ↔
      ∀ texts ∈ voiceTexts text, ∀ piece ∈ texts, Readable piece := by
  have each : ∀ texts ∈ voiceTexts text,
      ((∃ fragment, Fragment.ReadFrom texts fragment) ↔ ∀ piece ∈ texts, Readable piece) := by
    intro texts member
    simp only [← lexFragment_eq_ok_iff (k := 0)]
    rw [exists_lexFragment_iff]
    exact forall₂_congr fun piece inside =>
      (readable_iff (undivided_of_mem_voiceTexts member inside)).symm
  simp only [lex_eq_ok_iff, exists_forall₂_iff]
  exact forall₂_congr each

theorem lexFragment_eq_error_iff {k : Nat} :
    lexFragment k texts = .error e ↔ e.fragment = k ∧ ∃ piece, texts[e.voice]? = some piece ∧
      lexVoice piece = .error e.fault ∧
      ∀ j < e.voice, ∀ earlier ∈ texts[j]?, ∃ voice, lexVoice earlier = .ok voice := by
  have voices : lexFragment k texts = .error e ↔ texts.zipIdx.mapM (fun item =>
      (lexVoice item.1).mapError (LexError.mk · k item.2)) = .error e := by
    refine bind_eq_error_iff.trans (or_iff_left ?_)
    rintro ⟨_, _, failed⟩
    cases failed
  simp only [voices, mapM_zipIdx_eq_error_iff, mapError_eq_error_iff, mapError_eq_ok_iff]
  constructor
  · rintro ⟨_, piece, found, ⟨fault, failed, rfl⟩, passes⟩
    exact ⟨rfl, piece, found, failed, passes⟩
  · rintro ⟨rfl, piece, found, failed, passes⟩
    exact ⟨e.voice, piece, found, ⟨e.fault, failed, rfl⟩, passes⟩

/-- A place is before another in the order of the score. -/
def Precedes (k j fragment voice : Nat) : Prop := k < fragment ∨ k = fragment ∧ j < voice

theorem lex_eq_error_iff :
    lex text = .error e ↔ ∃ piece, voiceAt? text e.fragment e.voice = some piece ∧
      lexVoice piece = .error e.fault ∧
      ∀ k j, Precedes k j e.fragment e.voice → ∀ earlier ∈ voiceAt? text k j,
        ∃ voice, lexVoice earlier = .ok voice := by
  rw [lex, mapM_zipIdx_eq_error_iff]
  simp only [lexFragment_eq_error_iff, exists_lexFragment_iff]
  constructor
  · rintro ⟨_, texts, row, ⟨rfl, piece, column, failed, passes⟩, before⟩
    refine ⟨piece, Option.bind_eq_some_iff.mpr ⟨texts, row, column⟩, failed, ?_⟩
    rintro k j precedes earlier found
    obtain ⟨others, row', column'⟩ := Option.bind_eq_some_iff.mp found
    rcases precedes with sooner | ⟨rfl, sooner⟩
    · exact before k sooner others row' earlier (List.mem_of_getElem? column')
    · obtain rfl := Option.some.inj (row.symm.trans row')
      exact passes j sooner earlier column'
  · rintro ⟨piece, found, failed, passes⟩
    obtain ⟨texts, row, column⟩ := Option.bind_eq_some_iff.mp found
    refine ⟨e.fragment, texts, row, ⟨rfl, piece, column, failed, ?_⟩, ?_⟩
    · intro j sooner earlier column'
      exact passes e.fragment j (.inr ⟨rfl, sooner⟩) earlier
        (Option.bind_eq_some_iff.mpr ⟨texts, row, column'⟩)
    · intro k sooner others row' earlier member
      obtain ⟨j, column'⟩ := List.mem_iff_getElem?.mp member
      exact passes k j (.inl sooner) earlier
        (Option.bind_eq_some_iff.mpr ⟨others, row', column'⟩)

/-- The error where so many fragments come before it. -/
def LexError.behind (count : Nat) (e : LexError) : LexError :=
  { e with fragment := count + e.fragment }

theorem lexFragment_behind (count k : Nat) (texts : List (List Char)) :
    lexFragment (count + k) texts = (lexFragment k texts).mapError (LexError.behind count) := by
  have each : (fun item : List Char × Nat =>
        (lexVoice item.1).mapError (LexError.mk · (count + k) item.2)) = fun item =>
      ((lexVoice item.1).mapError (LexError.mk · k item.2)).mapError (LexError.behind count) := by
    funext item
    cases lexVoice item.1 <;> rfl
  rw [lexFragment, each, mapM_mapError, lexFragment]
  cases texts.zipIdx.mapM fun item => (lexVoice item.1).mapError (LexError.mk · k item.2) <;> rfl

theorem length_of_lex {fragments : List Fragment} (lexed : lex text = .ok fragments) :
    (voiceTexts text).length = fragments.length :=
  (lex_eq_ok_iff.mp lexed).length_eq

theorem lex_eq_mapM (text : List Char) :
    lex text = (voiceTexts text).zipIdx.mapM fun item => lexFragment item.2 item.1 := rfl

/-- The first part is read as it stands alone, and only if it can be is the second part read. -/
theorem lex_append_bar_eq (first second : List Char) :
    lex (first ++ '|' :: second) = (do
      let before ← lex first
      let after ← (lex second).mapError (LexError.behind before.length)
      return before ++ after) := by
  have later : ((voiceTexts second).zipIdx (voiceTexts first).length).mapM
        (fun item => lexFragment item.2 item.1) =
      (lex second).mapError (LexError.behind (voiceTexts first).length) := by
    rw [List.zipIdx_eq_map_add, List.mapM_map, lex_eq_mapM, ← mapM_mapError]
    congr 1
    funext item
    exact lexFragment_behind _ _ _
  rw [lex_eq_mapM, voiceTexts_append_bar, List.zipIdx_append, List.mapM_append, Nat.zero_add,
    later, ← lex_eq_mapM]
  cases lexed : lex first with
  | error e => rfl
  | ok before => rw [length_of_lex lexed]; rfl

/-- A score is read exactly when each of its voices is, taken alone, and then to what they are read
to. Otherwise the first of them that is not decides, whatever comes after it. -/
theorem lex_reads_voices_alone (text : List Char) :
    Text.spliced '|' ((voiceTexts text).map (Text.spliced ':')) = text ∧
    (∀ texts ∈ voiceTexts text, ∀ piece ∈ texts, Undivided piece) ∧
    ((∃ fragments, lex text = .ok fragments) ↔
      ∀ texts ∈ voiceTexts text, ∀ piece ∈ texts, Readable piece) ∧
    (∀ fragments, lex text = .ok fragments ↔ List.Forall₂ (fun texts fragment =>
        fragment.rhythm = .relative ∧ List.Forall₂ (fun piece voice =>
          lex piece = .ok [{ voices := [voice] }]) texts fragment.voices)
      (voiceTexts text) fragments) ∧
    (∀ e, lex text = .error e ↔ ∃ piece, voiceAt? text e.fragment e.voice = some piece ∧
      lex piece = .error ⟨e.fault, 0, 0⟩ ∧
      ∀ k j, Precedes k j e.fragment e.voice → ∀ earlier ∈ voiceAt? text k j, Readable earlier) ∧
    ∀ later, lex (text ++ '|' :: later) = (do
      let before ← lex text
      let after ← (lex later).mapError (LexError.behind before.length)
      return before ++ after) := by
  refine ⟨spliced_voiceTexts text, fun _ member _ => undivided_of_mem_voiceTexts member,
    exists_lex_iff, ?_, ?_, lex_append_bar_eq text⟩
  · intro fragments
    rw [lex_eq_ok_iff]
    refine forall₂_congr_of_mem fun texts member fragment => ?_
    exact readFrom_iff fun piece inside => undivided_of_mem_voiceTexts member inside
  · intro e
    rw [lex_eq_error_iff]
    refine exists_congr fun piece => and_congr_right fun found => and_congr ?_ ?_
    · rw [lex_eq_error_iff_lexVoice (undivided_of_voiceAt? found)]
      exact (and_iff_right rfl).trans (and_iff_right rfl) |>.symm
    · refine forall₂_congr fun k j => forall_congr' fun _ => forall₂_congr fun earlier member => ?_
      exact (readable_iff (undivided_of_voiceAt? member)).symm

/-- A colon cuts a block too, and the chord left open behind it is not reported. -/
example : lex "0|1:\x7bVOL:=1\x7d|[".toList = .error ⟨⟨.unclosedBlock, 1⟩, 1, 1⟩ := by
  decide +kernel

end Polyphony.Score
