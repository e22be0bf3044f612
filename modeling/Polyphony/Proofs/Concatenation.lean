import Polyphony.Proofs.Compile
import Polyphony.Proofs.Score.Document
import Polyphony.Proofs.Timeline.Notes
import Polyphony.Proofs.Timeline.Placement

/-! Nothing of a fragment reaches into the next but the time at which it ends. A score behind a bar
is compiled as on its own, only later: its tracks are those of its own, moved. -/
namespace Polyphony.Timeline

open Score (Fragment Token Voice)
open Score.Directive (Usable)

variable {o : Options} {start later : Binary64} {tracks results : List Track}
  {fragments : List Fragment}

theorem scheduleFrom_append_eq (o : Options) (start : Binary64) (first second : List Fragment) :
    scheduleFrom o start (first ++ second) = (do
      let left ← scheduleFrom o start first
      let right ← scheduleFrom o (latestFinish start left) second
      return left ++ right) := by
  induction first generalizing start with
  | nil => exact (bind_pure _).symm
  | cons fragment rest ih =>
      simp only [List.cons_append, scheduleFrom, ih, bind_assoc, pure_bind, latestFinish_append,
        List.append_assoc]

theorem scheduleFrom_append {first second : List Fragment} :
    scheduleFrom o start (first ++ second) = .ok tracks ↔
      ∃ left right, scheduleFrom o start first = .ok left ∧
        scheduleFrom o (latestFinish start left) second = .ok right ∧ tracks = left ++ right := by
  rw [scheduleFrom_append_eq, bind_eq_ok_iff]
  simp only [bind_eq_ok_iff]
  constructor
  · rintro ⟨left, begun, right, continued, joined⟩
    exact ⟨left, right, begun, continued, (Except.ok.inj joined).symm⟩
  · rintro ⟨left, right, begun, continued, rfl⟩
    exact ⟨left, begun, right, continued, rfl⟩

/-- Every event keeps all but its start. -/
def Moved (track result : Track) : Prop :=
  result.position = track.position ∧
    List.Forall₂ (fun e e' => e' = { e with start := e'.start }) track.events result.events

theorem moved_shift (track : Track) (start later : Binary64) :
    Moved (track.shift start) (track.shift later) := by
  refine ⟨rfl, ?_⟩
  rw [Track.shift, Track.shift, List.forall₂_map_left_iff, List.forall₂_map_right_iff,
    List.forall₂_same]
  intro event _
  rfl

theorem moved_map_shift (tracks : List Track) (start later : Binary64) :
    List.Forall₂ Moved (tracks.map (·.shift start)) (tracks.map (·.shift later)) := by
  rw [List.forall₂_map_left_iff, List.forall₂_map_right_iff, List.forall₂_same]
  exact fun track _ => moved_shift track start later

/-- The same fragments can only be scheduled alike but for their starts. -/
theorem scheduleFrom_moved (scheduled : scheduleFrom o start fragments = .ok tracks)
    (scheduled' : scheduleFrom o later fragments = .ok results) :
    List.Forall₂ Moved tracks results := by
  induction fragments generalizing start later tracks results with
  | nil =>
      obtain rfl := scheduleFrom_nil_eq_ok_iff.mp scheduled
      obtain rfl := scheduleFrom_nil_eq_ok_iff.mp scheduled'
      exact .nil
  | cons fragment rest ih =>
      obtain ⟨played, _, others, plays, places, continued, rfl⟩ :=
        scheduleFrom_cons_eq_ok_iff.mp scheduled
      obtain ⟨played', _, others', plays', places', continued', rfl⟩ :=
        scheduleFrom_cons_eq_ok_iff.mp scheduled'
      obtain rfl := Except.ok.inj (plays.symm.trans plays')
      obtain ⟨_, rfl⟩ := places_iff.mp places
      obtain ⟨_, rfl⟩ := places_iff.mp places'
      exact List.rel_append (moved_map_shift played start later) (ih continued continued')

/-- What can be scheduled can be scheduled earlier. -/
theorem scheduleFrom_earlier (usable : Usable o.noteLength) (startable : Startable start)
    (startable' : Startable later) (le : start ≤ later)
    (scheduled : scheduleFrom o later fragments = .ok results) :
    ∃ tracks, scheduleFrom o start fragments = .ok tracks := by
  induction fragments generalizing start later results with
  | nil => exact ⟨[], rfl⟩
  | cons fragment rest ih =>
      obtain ⟨played, placed, others, plays, places, continued, rfl⟩ :=
        scheduleFrom_cons_eq_ok_iff.mp scheduled
      obtain ⟨ends, rfl⟩ := places_iff.mp places
      have sooner := fun track member =>
        place_earlier (playFragment_forward usable plays track member) startable le
          (ends track member)
      have ends' := fun track member => (sooner track member).1
      have first := playFragment_placedFrom usable plays startable ends'
      have first' := playFragment_placedFrom usable plays startable' ends
      have next := (startable_latestFinish startable first).1
      have next' := (startable_latestFinish startable' first').1
      have next_le : latestFinish start (played.map (·.shift start)) ≤
          latestFinish later (played.map (·.shift later)) := by
        refine latestFinish_mono startable startable' first first' ?_ le
        rw [List.forall₂_map_left_iff, List.forall₂_map_right_iff, List.forall₂_same]
        exact fun track member => (sooner track member).2
      obtain ⟨tracks, before⟩ := ih next next' next_le continued
      exact ⟨_, scheduleFrom_cons_eq_ok_iff.mpr
        ⟨played, _, tracks, plays, places_iff.mpr ⟨ends', rfl⟩, before, rfl⟩⟩

theorem playFragment_length {fragment : Fragment} (plays : playFragment o fragment = .ok tracks) :
    tracks.length = fragment.voices.length := by
  have lined := playFragment_trackAt plays
  dsimp only at lined
  split at lined
  · rw [← lined.fitted.length_eq, length_tracksAt]
  · rw [lined, length_tracksAt]

/-- The first fragment of a score begins where the score does, whatever comes after it. -/
theorem scheduleFrom_cons_moved {fragment : Fragment} {rest : List Fragment}
    (usable : Usable o.noteLength) (alone : schedule o (fragment :: rest) = .ok tracks)
    (scheduled : scheduleFrom o later (fragment :: rest) = .ok results) :
    results.take fragment.voices.length =
      (tracks.take fragment.voices.length).map (·.shift later) := by
  obtain ⟨played, _, others, plays, places, _, rfl⟩ := scheduleFrom_cons_eq_ok_iff.mp alone
  obtain ⟨played', _, others', plays', places', _, rfl⟩ := scheduleFrom_cons_eq_ok_iff.mp scheduled
  obtain rfl := Except.ok.inj (plays.symm.trans plays')
  obtain ⟨_, rfl⟩ := places_iff.mp places
  obtain ⟨_, rfl⟩ := places_iff.mp places'
  rw [map_shift_zero (playFragment_unsigned usable plays), ← playFragment_length plays,
    List.take_left, List.take_left' (List.length_map _)]

/-- What is scheduled second begins when everything before it has ended. -/
theorem schedule_append {first second : List Fragment} (usable : Usable o.noteLength)
    (scheduled : schedule o (first ++ second) = .ok tracks) :
    ∃ before after moved, schedule o first = .ok before ∧ schedule o second = .ok after ∧
      scheduleFrom o (Transport.mk before).duration second = .ok moved ∧
      tracks = before ++ moved ∧ List.Forall₂ Moved after moved ∧
      ∀ late ∈ moved, ∀ event ∈ late.events, (Transport.mk before).duration ≤ event.start ∧
        ∀ track ∈ before, track.finish ≤ event.start := by
  obtain ⟨before, moved, begun, continued, rfl⟩ := scheduleFrom_append.mp scheduled
  have placed := scheduleFrom_placedFrom usable startable_zero begun
  have unsigned : ∀ track ∈ before, track.finish.Unsigned := fun track member =>
    (placed track member).finish_unsigned
  obtain ⟨ends, le⟩ := startable_latestFinish startable_zero placed
  rw [← duration_eq_latestFinish unsigned] at ends le continued
  obtain ⟨after, alone⟩ := scheduleFrom_earlier usable startable_zero ends le continued
  have same := scheduleFrom_moved alone continued
  refine ⟨before, after, moved, begun, alone, continued, rfl, same, ?_⟩
  intro late member event inside
  have starts := (scheduleFrom_placedFrom usable ends continued late member event inside).start_le
  refine ⟨starts, fun track found => Binary64.le_trans ?_ starts⟩
  exact le_foldl_max_of_mem (List.mem_map_of_mem found) (unsigned track found).number

end Polyphony.Timeline

namespace Polyphony

open Timeline
open Score (normalise lex)

theorem exists_lex_cons {text : List Char} {fragments : List Score.Fragment}
    (lexed : lex text = .ok fragments) : ∃ fragment rest, fragments = fragment :: rest := by
  cases fragments with
  | cons fragment rest => exact ⟨fragment, rest, rfl⟩
  | nil =>
      have none := List.forall₂_nil_right_iff.mp (Score.lex_eq_ok_iff.mp lexed)
      exact absurd (List.map_eq_nil_iff.mp none) (Text.pieces_ne_nil text)

/-- A score behind a bar is that score moved to where the one before it ends: its first fragment is
moved by exactly that time, and what follows starts no earlier. -/
theorem compile_append_bar (o : Options) (first second : String) (tracks : List Track)
    (compiled : compile o (first ++ "|" ++ second) = .ok tracks) :
    ∃ before after moved, compile o first = .ok before ∧ compile o second = .ok after ∧
      tracks = before ++ moved ∧ List.Forall₂ Moved after moved ∧
      (∃ fragment rest, lex (normalise second.toList) = .ok (fragment :: rest) ∧
        moved.take fragment.voices.length =
          (after.take fragment.voices.length).map (·.shift (Transport.mk before).duration)) ∧
      ∀ late ∈ moved, ∀ event ∈ late.events, (Transport.mk before).duration ≤ event.start ∧
        ∀ track ∈ before, track.finish ≤ event.start := by
  obtain ⟨usable, fragments, document, scheduled⟩ := compile_eq_ok_iff.mp compiled
  have text : normalise (first ++ "|" ++ second).toList =
      normalise first.toList ++ '|' :: normalise second.toList := by
    rw [String.toList_append, String.toList_append, Score.normalise_append,
      Score.normalise_append, List.append_assoc]
    exact congrArg _ (congrArg (· ++ _) Score.normalise_bar)
  rw [text] at document
  obtain ⟨left, right, lexed, lexed', rfl⟩ := Score.lex_append_bar.mp document
  obtain ⟨fragment, rest, rfl⟩ := exists_lex_cons lexed'
  obtain ⟨before, after, moved, begun, alone, continued, joined, same, starts⟩ :=
    schedule_append usable scheduled
  refine ⟨before, after, moved, ?_, ?_, joined, same, ⟨fragment, rest, lexed', ?_⟩, starts⟩
  · exact compile_eq_ok_iff.mpr ⟨usable, left, lexed, begun⟩
  · exact compile_eq_ok_iff.mpr ⟨usable, _, lexed', alone⟩
  · exact scheduleFrom_cons_moved usable alone continued

/-- The first score has two notes and a rest. Two voices of the second one start after two seconds,
the first of them squeezed to half its length as it is on its own. -/
theorem compile_notes_and_answer :
    compile {} ("00:-" ++ "|" ++ "01:2|3") = .ok
        [{ events := [⟨0, 1, 1, 48, 1⟩, ⟨1, 1, 1, 48, 1⟩] }, { events := [] },
          { events := [⟨2, 1 / 2, 1 / 2, 48, 1⟩, ⟨5 / 2, 1 / 2, 1 / 2, 49, 1⟩] },
          { events := [⟨2, 1, 1, 50, 1⟩] }, { events := [⟨3, 1, 1, 51, 1⟩] }] ∧
      ∃ before after moved, compile {} "00:-" = .ok before ∧ compile {} "01:2|3" = .ok after ∧
        before.length + after.length = 5 ∧ List.Forall₂ Moved after moved := by
  have compiled : compile {} ("00:-" ++ "|" ++ "01:2|3") = .ok
      [{ events := [⟨0, 1, 1, 48, 1⟩, ⟨1, 1, 1, 48, 1⟩] }, { events := [] },
        { events := [⟨2, 1 / 2, 1 / 2, 48, 1⟩, ⟨5 / 2, 1 / 2, 1 / 2, 49, 1⟩] },
        { events := [⟨2, 1, 1, 50, 1⟩] }, { events := [⟨3, 1, 1, 51, 1⟩] }] := by decide +kernel
  obtain ⟨before, after, moved, alone, alone', joined, same, _⟩ :=
    compile_append_bar {} "00:-" "01:2|3" _ compiled
  have lengths := congrArg List.length joined
  rw [List.length_append, ← same.length_eq] at lengths
  exact ⟨compiled, before, after, moved, alone, alone', lengths.symm, same⟩

end Polyphony
