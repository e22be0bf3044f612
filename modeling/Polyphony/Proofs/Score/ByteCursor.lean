import Mathlib.Data.List.TakeWhile
import Polyphony.Proofs.Score.Cursor
import Polyphony.Score.ByteCursor

/-! Over bytes or over characters, a cursor answers every sequence of calls from the list of
characters ahead of it. The cursor over bytes always stands between two characters, so that nothing
is ever cut off inside one, and its two counts never part. What carries the proofs is the text
behind and ahead of both cursors: one call moves the same characters from the one to the other. -/
namespace Polyphony.Score

variable {behind ahead before rest : List Char} {delimiter : Char}

theorem utf8ByteSize_ofList (text : List Char) :
    (String.ofList text).utf8ByteSize = byteLength text := by
  induction text with
  | nil => rfl
  | cons c rest ih =>
      rw [String.ofList_cons, String.utf8ByteSize_append, String.utf8ByteSize_singleton, ih]
      rfl

theorem byteLength_append_le_iff :
    byteLength (behind ++ ahead) ≤ byteLength behind ↔ ahead = [] := by
  rw [Cursor.byteLength_append]
  cases ahead with
  | nil => exact iff_of_true (Nat.le_refl _) rfl
  | cons c rest =>
      refine iff_of_false (fun le => ?_) (List.cons_ne_nil c rest)
      have size := c.utf8Size_pos
      change byteLength behind + (c.utf8Size + byteLength rest) ≤ byteLength behind at le
      omega

theorem boundary_between (behind ahead : List Char) :
    (⟨byteLength behind⟩ : String.Pos.Raw).IsValid (String.ofList (behind ++ ahead)) := by
  rw [String.Pos.Raw.isValid_iff_exists_append]
  refine ⟨String.ofList behind, String.ofList ahead, String.ofList_append, ?_⟩
  exact congrArg String.Pos.Raw.mk (utf8ByteSize_ofList behind).symm

theorem splits_between (behind ahead : List Char) :
    (⟨⟨byteLength behind⟩, boundary_between behind ahead⟩ :
      (String.ofList (behind ++ ahead)).Pos).Splits (String.ofList behind) (String.ofList ahead) where
  eq_append := String.ofList_append
  offset_eq_rawEndPos := congrArg String.Pos.Raw.mk (utf8ByteSize_ofList behind).symm

theorem find?_of_not_mem (absent : delimiter ∉ ahead) :
    (String.ofList ahead).find? delimiter = none := by
  apply Option.eq_none_iff_forall_ne_some.mpr
  intro found here
  obtain ⟨before, rest, splits, _⟩ := String.find?_char_eq_some_iff_splits.mp here
  have whole := congrArg String.toList splits.eq_append
  rw [String.toList_ofList, String.toList_append, String.toList_append,
    String.toList_singleton] at whole
  rw [whole] at absent
  simp at absent

theorem find?_append_cons (free : delimiter ∉ before) (rest : List Char) :
    ∃ found, (String.ofList (before ++ delimiter :: rest)).find? delimiter = some found ∧
      found.offset.byteIdx = byteLength before := by
  have splits := splits_between before (delimiter :: rest)
  rw [String.ofList_cons] at splits
  rw [← String.toList_ofList (l := before)] at free
  exact ⟨_, String.find?_char_eq_some_iff_splits.mpr ⟨_, _, splits, free⟩, rfl⟩

namespace ByteCursor

theorem cutFrom?_append (behind ahead : List Char) :
    cutFrom? (String.ofList (behind ++ ahead)) (byteLength behind) =
      some (String.ofList ahead) := by
  rw [cutFrom?, dif_pos (boundary_between behind ahead),
    (splits_between behind ahead).copy_sliceFrom_eq]

theorem cutTo?_append (behind ahead : List Char) :
    cutTo? (String.ofList (behind ++ ahead)) (byteLength behind) =
      some (String.ofList behind) := by
  rw [cutTo?, dif_pos (boundary_between behind ahead),
    (splits_between behind ahead).copy_sliceTo_eq]

def between (behind ahead : List Char) : ByteCursor where
  text := String.ofList (behind ++ ahead)
  offset := byteLength behind
  index := behind.length

theorem rest?_between (behind ahead : List Char) :
    (between behind ahead).rest? = some (String.ofList ahead) := cutFrom?_append behind ahead

theorem peek?_between (n : Nat) (behind ahead : List Char) :
    (between behind ahead).peek? n = some ahead[n]? := by
  rw [peek?, rest?_between, Option.map_some, String.toList_ofList]

theorem next?_between_nil (behind : List Char) :
    (between behind []).next? = some (none, between behind []) := by
  rw [next?, rest?_between, Option.map_some, String.toList_ofList]

/-- Where the characters behind end later, the offset and the index are as much greater. -/
theorem between_append (behind read rest : List Char) :
    { between behind (read ++ rest) with
      offset := byteLength behind + byteLength read
      index := behind.length + read.length } = between (behind ++ read) rest := by
  simp only [between, List.append_assoc, Cursor.byteLength_append, List.length_append]

theorem next?_between_cons (behind : List Char) (c : Char) (rest : List Char) :
    (between behind (c :: rest)).next? = some (some c, between (behind ++ [c]) rest) := by
  rw [next?, rest?_between, Option.map_some, String.toList_ofList, ← between_append]
  rfl

theorem skipWhile?_of_next {p : Char → Bool} {b after : ByteCursor} {c : Char} (holds : p c)
    (peeked : b.peek? 0 = some (some c)) (next : b.next? = some (some c, after)) :
    b.skipWhile? p = (after.skipWhile? p).map fun (count, last) => (count + 1, last) := by
  rw [skipWhile?, peeked]
  simp only [holds, if_true]
  split
  · next same =>
      rw [next] at same
      cases same
      rfl
  · next other => exact absurd next (other c after)

theorem skipWhile?_of_stop {p : Char → Bool} {b : ByteCursor} {char : Option Char}
    (stops : ∀ c ∈ char, ¬ p c) (peeked : b.peek? 0 = some char) :
    b.skipWhile? p = some (0, b) := by
  rw [skipWhile?, peeked]
  cases char with
  | none => rfl
  | some c => exact if_neg (stops c rfl)

theorem skipWhile?_between {p : Char → Bool} {run : List Char} (all : ∀ c ∈ run, p c)
    (stops : ∀ c ∈ rest.head?, ¬ p c) (behind : List Char) :
    (between behind (run ++ rest)).skipWhile? p =
      some (run.length, between (behind ++ run) rest) := by
  induction run generalizing behind with
  | nil =>
      rw [List.nil_append, List.append_nil]
      rw [List.head?_eq_getElem?] at stops
      exact skipWhile?_of_stop stops (peek?_between 0 behind rest)
  | cons c run ih =>
      have first : (between behind (c :: (run ++ rest))).peek? 0 = some (some c) :=
        peek?_between 0 behind _
      have later := ih (fun d member => all d (List.mem_cons_of_mem c member)) (behind ++ [c])
      rw [List.cons_append, skipWhile?_of_next (all c List.mem_cons_self) first
        (next?_between_cons behind c (run ++ rest)), later, List.append_assoc]
      rfl

theorem scanTo?_between_of_not_mem (absent : delimiter ∉ ahead) (behind : List Char) :
    (between behind ahead).scanTo? delimiter = some (none, between behind ahead) := by
  rw [scanTo?, rest?_between]
  simp only [Option.bind_eq_bind, Option.bind_some, find?_of_not_mem absent, pure]

theorem scanTo?_between (free : delimiter ∉ before) (behind rest : List Char) :
    (between behind (before ++ delimiter :: rest)).scanTo? delimiter =
      some (some (String.ofList before), between (behind ++ (before ++ [delimiter])) rest) := by
  obtain ⟨found, here, offset⟩ := find?_append_cons free rest
  have size : byteLength (before ++ [delimiter]) = byteLength before + delimiter.utf8Size :=
    Cursor.byteLength_append before [delimiter]
  rw [scanTo?, rest?_between, ← between_append, size, List.length_append, List.append_assoc]
  simp only [Option.bind_eq_bind, Option.bind_some, here, offset, cutTo?_append, pure,
    String.length_ofList]
  rfl

end ByteCursor

namespace Cursor

def between (behind ahead : List Char) : Cursor where
  size := byteLength (behind ++ ahead)
  offset := byteLength behind
  index := behind.length
  ahead := ahead

theorem pass_between (behind read rest : List Char) :
    (between behind (read ++ rest)).pass read.length = between (behind ++ read) rest := by
  simp only [pass, between, List.take_left, List.drop_left, List.append_assoc, byteLength_append,
    List.length_append]

end Cursor

/-- What a cursor can be asked. -/
inductive Call where
  | peek (n : Nat)
  | next
  | skipWhile (p : Char → Bool)
  | scanTo (delimiter : Char)

inductive Answer where
  | char (char : Option Char)
  | count (n : Nat)
  | text (before : Option (List Char))
  deriving DecidableEq

/-- What a call answers when these characters are ahead, and which of them are ahead after it. -/
inductive Call.Reads : Call → List Char → Answer → List Char → Prop
  | peek (n : Nat) (ahead : List Char) : Reads (.peek n) ahead (.char ahead[n]?) ahead
  | next (c : Char) (rest : List Char) : Reads .next (c :: rest) (.char (some c)) rest
  | atEnd : Reads .next [] (.char none) []
  | skipWhile {p : Char → Bool} {run rest : List Char} (all : ∀ c ∈ run, p c)
      (stops : ∀ c ∈ rest.head?, ¬ p c) :
      Reads (.skipWhile p) (run ++ rest) (.count run.length) rest
  | scanTo {delimiter : Char} {before : List Char} (free : delimiter ∉ before) (rest : List Char) :
      Reads (.scanTo delimiter) (before ++ delimiter :: rest) (.text (some before)) rest
  | missing {delimiter : Char} {ahead : List Char} (absent : delimiter ∉ ahead) :
      Reads (.scanTo delimiter) ahead (.text none) ahead

/-- The answers to calls that are made one after another. -/
inductive ReadsAll : List Call → List Char → List Answer → List Char → Prop
  | nil (ahead : List Char) : ReadsAll [] ahead [] ahead
  | cons {call : Call} {calls : List Call} {ahead middle rest : List Char} {answer : Answer}
      {answers : List Answer} : call.Reads ahead answer middle →
      ReadsAll calls middle answers rest →
      ReadsAll (call :: calls) ahead (answer :: answers) rest

def Cursor.answer (c : Cursor) : Call → Answer × Cursor
  | .peek n => (.char (c.peek? n), c)
  | .next => match c.next? with
    | none => (.char none, c)
    | some (char, after) => (.char (some char), after)
  | .skipWhile p => (.count (c.skipWhile p).1, (c.skipWhile p).2)
  | .scanTo delimiter => match c.scanTo? delimiter with
    | none => (.text none, c)
    | some (before, after) => (.text (some before), after)

def Cursor.answers : Cursor → List Call → List Answer × Cursor
  | c, [] => ([], c)
  | c, call :: calls =>
    let (first, after) := c.answer call
    let (later, last) := after.answers calls
    (first :: later, last)

/-- Nothing, if the text had to be cut where it cannot be. -/
def ByteCursor.answer? (b : ByteCursor) : Call → Option (Answer × ByteCursor)
  | .peek n => (b.peek? n).map fun char => (.char char, b)
  | .next => b.next?.map fun (char, after) => (.char char, after)
  | .skipWhile p => (b.skipWhile? p).map fun (n, after) => (.count n, after)
  | .scanTo delimiter => (b.scanTo? delimiter).map fun (before, after) =>
    (.text (before.map String.toList), after)

def ByteCursor.answers? : ByteCursor → List Call → Option (List Answer × ByteCursor)
  | b, [] => some ([], b)
  | b, call :: calls => do
    let (first, after) ← b.answer? call
    let (later, last) ← after.answers? calls
    return (first :: later, last)

variable {call : Call} {calls : List Call} {answer : Answer} {answers : List Answer}

theorem Call.exists_reads (call : Call) (ahead : List Char) :
    ∃ answer rest, call.Reads ahead answer rest := by
  cases call with
  | peek n => exact ⟨_, _, .peek n ahead⟩
  | next =>
      cases ahead with
      | nil => exact ⟨_, _, .atEnd⟩
      | cons c rest => exact ⟨_, _, .next c rest⟩
  | skipWhile p =>
      have parts := List.takeWhile_append_dropWhile (p := p) (l := ahead)
      have stops : ∀ c ∈ (ahead.dropWhile p).head?, ¬ p c := by
        intro c first
        have holds := List.head?_dropWhile_not p ahead
        rw [Option.mem_def.mp first] at holds
        exact Bool.not_eq_true _ ▸ holds
      have all : ∀ c ∈ ahead.takeWhile p, p c := fun c member => List.mem_takeWhile_imp member
      have reads := Call.Reads.skipWhile all stops
      rw [parts] at reads
      exact ⟨_, _, reads⟩
  | scanTo delimiter =>
      by_cases present : delimiter ∈ ahead
      · obtain ⟨before, rest, rfl, free⟩ := List.eq_append_cons_of_mem present
        exact ⟨_, _, .scanTo free rest⟩
      · exact ⟨_, _, .missing present⟩

/-- A call moves what it reads from ahead of the cursors to behind them. -/
theorem Call.Reads.answer_eq (reads : call.Reads ahead answer rest) (behind : List Char) :
    ∃ read, ahead = read ++ rest ∧
      (ByteCursor.between behind ahead).answer? call =
        some (answer, .between (behind ++ read) rest) ∧
      (Cursor.between behind ahead).answer call = (answer, .between (behind ++ read) rest) := by
  cases reads with
  | peek n ahead =>
      refine ⟨[], rfl, ?_, ?_⟩
      · rw [ByteCursor.answer?, ByteCursor.peek?_between, List.append_nil]
        rfl
      · rw [List.append_nil]
        rfl
  | next c rest =>
      refine ⟨[c], rfl, ?_, ?_⟩
      · rw [ByteCursor.answer?, ByteCursor.next?_between_cons]
        rfl
      · have passed := Cursor.pass_between behind [c] rest
        rw [← passed]
        rfl
  | atEnd =>
      refine ⟨[], rfl, ?_, ?_⟩
      · rw [ByteCursor.answer?, ByteCursor.next?_between_nil, List.append_nil]
        rfl
      · rw [List.append_nil]
        rfl
  | skipWhile all stops =>
      refine ⟨_, rfl, ?_, ?_⟩
      · rw [ByteCursor.answer?, ByteCursor.skipWhile?_between all stops]
        rfl
      · rw [Cursor.answer, Cursor.skipWhile_append rfl all stops, Cursor.pass_between]
  | @scanTo delimiter before free rest =>
      have parts : before ++ delimiter :: rest = (before ++ [delimiter]) ++ rest := by
        rw [List.append_assoc, List.singleton_append]
      refine ⟨before ++ [delimiter], parts, ?_, ?_⟩
      · rw [ByteCursor.answer?, ByteCursor.scanTo?_between free]
        simp only [Option.map_some, String.toList_ofList]
      · have passed := Cursor.pass_between behind (before ++ [delimiter]) rest
        rw [← parts, List.length_append] at passed
        rw [Cursor.answer, Cursor.scanTo?_append_cons rfl free]
        exact congrArg _ passed
  | missing absent =>
      refine ⟨[], rfl, ?_, ?_⟩
      · rw [ByteCursor.answer?, ByteCursor.scanTo?_between_of_not_mem absent, List.append_nil]
        rfl
      · have none : (Cursor.between behind ahead).scanTo? _ = none := if_neg absent
        rw [Cursor.answer, none, List.append_nil]

theorem ReadsAll.answers_eq (reads : ReadsAll calls ahead answers rest) (behind : List Char) :
    ∃ read, ahead = read ++ rest ∧
      (ByteCursor.between behind ahead).answers? calls =
        some (answers, .between (behind ++ read) rest) ∧
      (Cursor.between behind ahead).answers calls =
        (answers, .between (behind ++ read) rest) := by
  induction reads generalizing behind with
  | nil ahead => exact ⟨[], rfl, by rw [List.append_nil]; rfl, by rw [List.append_nil]; rfl⟩
  | cons first later ih =>
      obtain ⟨read, rfl, byBytes, byCharacters⟩ := first.answer_eq behind
      obtain ⟨more, rfl, restByBytes, restByCharacters⟩ := ih (behind ++ read)
      refine ⟨read ++ more, (List.append_assoc _ _ _).symm, ?_, ?_⟩
      · rw [ByteCursor.answers?, byBytes]
        simp only [Option.bind_eq_bind, Option.bind_some, restByBytes, List.append_assoc, pure]
      · rw [Cursor.answers, byCharacters]
        simp only [restByCharacters, List.append_assoc]

theorem exists_readsAll (calls : List Call) (ahead : List Char) :
    ∃ answers rest, ReadsAll calls ahead answers rest := by
  induction calls generalizing ahead with
  | nil => exact ⟨_, _, .nil ahead⟩
  | cons call calls ih =>
      obtain ⟨answer, middle, first⟩ := call.exists_reads ahead
      obtain ⟨answers, rest, later⟩ := ih middle
      exact ⟨_, _, .cons first later⟩

/-- Both cursors stand in the text behind the same characters. -/
structure StandAt (text : String) (behind ahead : List Char) (b : ByteCursor) (c : Cursor) :
    Prop where
  whole : text.toList = behind ++ ahead
  same_text : b.text = text
  boundary : (⟨b.offset⟩ : String.Pos.Raw).IsValid text
  offset : b.offset = (String.ofList behind).utf8ByteSize
  index : b.index = behind.length
  same_counts : c.offset = b.offset ∧ c.index = b.index
  same_ahead : c.ahead = ahead
  atEnd : (b.atEnd ↔ ahead = []) ∧ (c.atEnd ↔ ahead = [])

theorem standAt_between (behind ahead : List Char) :
    StandAt (String.ofList (behind ++ ahead)) behind ahead (.between behind ahead)
      (.between behind ahead) where
  whole := String.toList_ofList
  same_text := rfl
  boundary := boundary_between behind ahead
  offset := (utf8ByteSize_ofList behind).symm
  index := rfl
  same_counts := ⟨rfl, rfl⟩
  same_ahead := rfl
  atEnd := by
    constructor
    · rw [ByteCursor.atEnd, decide_eq_true_eq]
      change (String.ofList (behind ++ ahead)).utf8ByteSize ≤ byteLength behind ↔ _
      rw [utf8ByteSize_ofList]
      exact byteLength_append_le_iff
    · rw [Cursor.atEnd, decide_eq_true_eq]
      exact byteLength_append_le_iff

/-- Every sequence of calls has one reading of the characters ahead, and both cursors give it. Where
it leaves them is a place between two characters, which the characters ahead fix alone: a call that
reads nothing leaves a cursor exactly as it was. -/
theorem calls_read_characters (text : String) (calls : List Call) :
    ∃ (answers : List Answer) (behind ahead : List Char) (b : ByteCursor) (c : Cursor),
      (ByteCursor.ofString text).answers? calls = some (answers, b) ∧
      (Cursor.ofList text.toList).answers calls = (answers, c) ∧
      (∀ answers' ahead', ReadsAll calls text.toList answers' ahead' ↔
        answers' = answers ∧ ahead' = ahead) ∧
      StandAt text behind ahead b c := by
  obtain ⟨answers, ahead, reads⟩ := exists_readsAll calls text.toList
  obtain ⟨behind, whole, byBytes, byCharacters⟩ := reads.answers_eq []
  have text_eq : text = String.ofList (behind ++ ahead) := by
    rw [← whole, String.ofList_toList]
  have start : ByteCursor.between [] text.toList = .ofString text := by
    rw [ByteCursor.between, List.nil_append, String.ofList_toList]
    rfl
  rw [start] at byBytes
  refine ⟨answers, behind, ahead, _, _, byBytes, byCharacters, ?_, ?_⟩
  · intro answers' ahead'
    constructor
    · intro reads'
      obtain ⟨_, _, _, again⟩ := reads'.answers_eq []
      rw [byCharacters] at again
      obtain ⟨same, sameCursor⟩ := Prod.mk.inj again
      exact ⟨same.symm, congrArg Cursor.ahead sameCursor.symm⟩
    · rintro ⟨rfl, rfl⟩
      exact reads
  · rw [text_eq]
    exact standAt_between behind ahead

end Polyphony.Score
