import Polyphony.Proofs.Timeline.Exchange

/-! The members of a chord start together and the shortest of them moves the clock, so their order
is only heard of as the order of their events. It can matter in one place: the last event of a voice
tells where the voice ends. -/
namespace Polyphony.Timeline

open Score
open Score.Directive (Usable)
open Binary64 (Unsigned)

variable {o : Options} {s last : Scope} {codes codes' : List NoteCode} {sound : NoteCode → Event}
  {count : Nat} {track track' : Track} {events : List Event} {tokens : Voice}

/-- The events of notes that start together and last as their length codes tell. -/
structure Struck (sound : NoteCode → Event) : Prop where
  start : ∀ code code', (sound code).start = (sound code').start
  held : ∀ code code', code.length = code'.length → (sound code).held = (sound code').held
  played : ∀ code code', code.length = code'.length → (sound code).played = (sound code').played

theorem Struck.scale (struck : Struck sound) (ratio : Binary64) :
    Struck fun code => (sound code).scale ratio where
  start := fun code code' => congrArg (· * ratio) (struck.start code code')
  held := fun code code' same => congrArg (· * ratio) (struck.held code code' same)
  played := fun code code' same => congrArg (· * ratio) (struck.played code code' same)

theorem Struck.shift (struck : Struck sound) (offset : Binary64) :
    Struck fun code => (sound code).shift offset where
  start := fun code code' => congrArg (· + offset) (struck.start code code')
  held := struck.held
  played := struck.played

theorem Struck.finish (struck : Struck sound) {code code' : NoteCode}
    (same : code.length = code'.length) : (sound code).finish = (sound code').finish := by
  rw [Event.finish, Event.finish, struck.start code code', struck.held _ _ same,
    struck.played _ _ same]

/-- Which member is found first depends on their order, but not when it starts. -/
theorem Struck.find?_start (struck : Struck sound) (reordered : codes.Perm codes')
    (p : Event → Bool) :
    ((codes.map sound).find? p).map Event.start = ((codes'.map sound).find? p).map Event.start := by
  have member : ∀ {codes : List NoteCode} {event : Event},
      (codes.map sound).find? p = some event → ∃ code ∈ codes, sound code = event :=
    fun found => List.mem_map.mp (List.mem_of_find?_eq_some found)
  have none_of_perm : ∀ {codes codes' : List NoteCode}, codes.Perm codes' →
      (codes.map sound).find? p = none → (codes'.map sound).find? p = none := by
    intro codes codes' reordered none
    rw [List.find?_eq_none] at none ⊢
    exact fun event inside => none event ((reordered.map sound).mem_iff.mpr inside)
  cases found : (codes.map sound).find? p with
  | none => rw [none_of_perm reordered found]
  | some event =>
      cases found' : (codes'.map sound).find? p with
      | none =>
          rw [none_of_perm reordered.symm found'] at found
          cases found
      | some event' =>
          obtain ⟨code, _, rfl⟩ := member found
          obtain ⟨code', _, rfl⟩ := member found'
          exact congrArg some (struck.start code code')

/-- The tracks differ in the order of the events of a chord, which has so many events before it.
When it ends the track, its last members are equally long. -/
def Reordered (codes codes' : List NoteCode) (count : Nat) (track track' : Track) : Prop :=
  ∃ first sound rest, Struck sound ∧ first.length = count ∧
    (rest = [] → codes.getLast?.map (·.length) = codes'.getLast?.map (·.length)) ∧
    track = { events := first ++ codes.map sound ++ rest } ∧
    track' = { events := first ++ codes'.map sound ++ rest }

/-- What changes every event of a track changes both tracks alike. -/
theorem Reordered.map {change : Event → Event}
    (kept : ∀ sound, Struck sound → Struck fun code => change (sound code))
    (tracks : Reordered codes codes' count track track') :
    Reordered codes codes' count { track with events := track.events.map change }
      { track' with events := track'.events.map change } := by
  obtain ⟨first, sound, rest, struck, length, ends, rfl, rfl⟩ := tracks
  refine ⟨first.map change, fun code => change (sound code), rest.map change, kept sound struck,
    ?_, fun empty => ends (List.map_eq_nil_iff.mp empty), ?_, ?_⟩
  · rw [List.length_map, length]
  · simp only [List.map_append, List.map_map, Function.comp_def]
  · simp only [List.map_append, List.map_map, Function.comp_def]

theorem Reordered.scale (tracks : Reordered codes codes' count track track') (ratio : Binary64) :
    Reordered codes codes' count (track.scale ratio) (track'.scale ratio) :=
  tracks.map fun _ struck => struck.scale ratio

theorem Reordered.shift (tracks : Reordered codes codes' count track track') (offset : Binary64) :
    Reordered codes codes' count (track.shift offset) (track'.shift offset) :=
  tracks.map fun _ struck => struck.shift offset

theorem Reordered.finish (tracks : Reordered codes codes' count track track') :
    track.finish = track'.finish := by
  obtain ⟨first, sound, rest, struck, _, ends, rfl, rfl⟩ := tracks
  simp only [Track.finish, List.getLast?_append, List.getLast?_map]
  cases final : rest.getLast? with
  | some event => rfl
  | none =>
      have same := ends (List.getLast?_eq_none_iff.mp final)
      cases member : codes.getLast? with
      | none =>
          rw [member] at same
          rw [Option.map_eq_none_iff.mp same.symm]
      | some code =>
          rw [member] at same
          obtain ⟨code', member', length⟩ := Option.map_eq_some_iff.mp same.symm
          rw [member']
          exact struck.finish length.symm

theorem Reordered.isEmpty (reordered : codes.Perm codes')
    (tracks : Reordered codes codes' count track track') :
    track.events.isEmpty = track'.events.isEmpty := by
  obtain ⟨first, sound, rest, _, _, _, rfl, rfl⟩ := tracks
  have none : codes = [] ↔ codes' = [] := by
    rw [← List.isEmpty_iff, ← List.isEmpty_iff, reordered.isEmpty_eq]
  rw [Bool.eq_iff_iff]
  simp only [List.isEmpty_iff, List.append_eq_nil_iff, List.map_eq_nil_iff, none]

theorem Reordered.place (reordered : codes.Perm codes')
    (tracks : Reordered codes codes' count track track') (start : Binary64) :
    InStep Eq (Reordered codes codes' count) (place start track) (place start track') := by
  have moved := tracks.shift start
  rw [place_eq, place_eq]
  generalize track.shift start = early at moved
  generalize track'.shift start = early' at moved
  have found : (early.events.find? fun event => !event.finish.isFinite).map Event.start =
      (early'.events.find? fun event => !event.finish.isFinite).map Event.start := by
    obtain ⟨first, sound, rest, struck, _, _, rfl, rfl⟩ := moved
    simp only [List.find?_append, Option.map_or, struck.find?_start reordered]
  rw [← found]
  cases (early.events.find? fun event => !event.finish.isFinite).map Event.start with
  | none => exact .give moved
  | some time => exact .fail rfl

theorem Scope.Step.length {next : Scope} {token : Token} (step : s.Step token events next) :
    events.length = token.codes.length := by
  cases step with
  | note code admits moves => rfl
  | chord codes members admits moves => exact List.length_map _
  | silence => rfl
  | rest length moves soundable => rfl
  | directive d admissible room => rfl

theorem Scope.Run.length (run : s.Run tokens events last) :
    events.length = (tokens.flatMap Token.codes).length := by
  induction run with
  | done s => rfl
  | step first run ih =>
      rw [List.length_append, List.flatMap_cons, List.length_append, first.length, ih]

/-- A chord that ends its voice lets the next fragment start where its last member ends. -/
example :
    let score := fun codes : List NoteCode =>
      [{ voices := [[.chord codes]] : Fragment }, { voices := [[.note ⟨5, 0⟩]] }]
    (schedule {} (score [⟨0, 1⟩, ⟨3, 0⟩])).map (·.getLast?) =
        .ok (some { events := [⟨1, 1, 1, 53, 1⟩] }) ∧
      (schedule {} (score [⟨3, 0⟩, ⟨0, 1⟩])).map (·.getLast?) =
        .ok (some { events := [⟨2, 1, 1, 53, 1⟩] }) := by
  decide +kernel

/-- Above the highest root note there is no pitch in a checked build. Whether that ends the program
or a note that is too long is reported goes by the order. -/
example :
    let o : Options := { noteLength := .ofNat (10 ^ 308), rootNote := 2147483647 }
    let score := fun codes : List NoteCode =>
      [{ voices := [[.chord codes, .note ⟨0, 0⟩]] : Fragment }]
    schedule o (score [⟨0, 1⟩, ⟨1, 0⟩]) = .error (.noteOverflow 0) ∧
      schedule o (score [⟨1, 0⟩, ⟨0, 1⟩]) = .error (.overflow .add) := by
  decide +kernel

end Polyphony.Timeline
