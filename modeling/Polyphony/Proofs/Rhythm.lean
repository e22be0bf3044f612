import Polyphony.Proofs.Compile
import Polyphony.Proofs.Score.Document
import Polyphony.Proofs.Timeline.Notes
import Polyphony.Proofs.Timeline.Placement

/-! A rhythm directive behind the last voice has the last word on the rhythm and changes nothing
else, so a score of one fragment can be compiled with one rhythm and with the other: the voices are
the same, and in relative rhythm each is scaled as a whole to end with the last. -/
namespace Polyphony.Timeline

open Score
open Score.Directive (Usable)

variable {o : Options} {rhythm : Rhythm} {tracks results : List Track}

theorem notesAfter_concat (before tokens : List Token) (token : Token) :
    notesAfter before (tokens ++ [token]) =
      notesAfter before tokens ++ token.codes.map (before ++ tokens, ·) := by
  simp [notesAfter, withEarlier_concat]

/-- A directive behind the last note leaves no trace in the track. -/
theorem trackAt_concat_directive (o : Options) (rhythm : Rhythm) (sung : List Token)
    (voice : Voice) (d : Directive) :
    trackAt o rhythm sung (voice ++ [.directive d]) = trackAt o rhythm sung voice := by
  simp [trackAt, notesAfter_concat, Token.codes]

theorem tracksAt_concat_directive (o : Options) (rhythm : Rhythm) (sung : List Token)
    (others : List Voice) (last : Voice) (d : Directive) :
    tracksAt o rhythm sung (others ++ [last ++ [.directive d]]) =
      tracksAt o rhythm sung (others ++ [last]) := by
  rw [tracksAt_append, tracksAt_append, tracksAt_cons, tracksAt_cons, trackAt_concat_directive]
  rfl

theorem finalRhythm_concat_directive (others : List Voice) (last : Voice) (value : String) :
    finalRhythm { voices := others ++ [last ++ [.directive ⟨.rhythm, some value⟩]] } =
      .ofValue value := by
  rw [finalRhythm, List.flatten_concat, ← List.append_assoc, latest_concat]
  rfl

/-- The last voice fixes the end, and every other voice that ends after zero is scaled. -/
theorem Aligned.exists_stretched (aligned : Aligned tracks results) (nonempty : tracks ≠ []) :
    ∃ others stretched last, tracks = others ++ [last] ∧ results = stretched ++ [last] ∧
      (last.finish ≤ 0 → results = tracks) ∧
      (¬ last.finish ≤ 0 → List.Forall₂ (fun track result =>
        (0 < track.finish → result = track.scale (last.finish / track.finish)) ∧
        (track.finish ≤ 0 → result = track)) others stretched) := by
  cases aligned with
  | none => exact absurd rfl nonempty
  | silent others last ends =>
      exact ⟨others, others, last, rfl, rfl, fun _ => rfl, fun sounds => absurd ends sounds⟩
  | stretched others stretched last ends each =>
      refine ⟨others, stretched, last, rfl, rfl, fun silent => absurd silent ends, fun _ => ?_⟩
      refine each.imp fun track result fits => ?_
      have scaled := (stretch_eq_ok_iff.mp fits).2
      constructor
      · intro sounds
        rw [if_pos sounds] at scaled
        exact scaled
      · intro silent
        rw [if_neg (Binary64.not_lt_of_le silent)] at scaled
        exact scaled

/-- A fragment of its own is placed at zero, where it was played. -/
theorem schedule_single {fragment : Fragment} (usable : Usable o.noteLength)
    (scheduled : schedule o [fragment] = .ok tracks) : playFragment o fragment = .ok tracks := by
  obtain ⟨played, placed, later, plays, places, ended, rfl⟩ :=
    scheduleFrom_cons_eq_ok_iff.mp scheduled
  obtain rfl := scheduleFrom_nil_eq_ok_iff.mp ended
  obtain ⟨_, rfl⟩ := places_iff.mp places
  have unsigned := playFragment_unsigned usable plays
  rwa [List.append_nil, map_shift_zero unsigned]

end Polyphony.Timeline

namespace Polyphony

open Timeline
open Score (normalise lex lexVoice Rhythm)

variable {o : Options} {source written value : String} {fragment : Score.Fragment}
  {tracks : List Track}

/-- The directive decides the rhythm of the fragment whose voices are those of the source. -/
theorem compile_with_rhythm (lexed : lex (normalise source.toList) = .ok [fragment])
    (noBar : '|' ∉ normalise written.toList) (noColon : ':' ∉ normalise written.toList)
    (read : lexVoice (normalise written.toList) = .ok [.directive ⟨.rhythm, some value⟩])
    (compiled : compile o (source ++ written) = .ok tracks) :
    let drafts := tracksAt o fragment.rhythm [] fragment.voices
    drafts ≠ [] ∧
      if Rhythm.ofValue value = .relative then Aligned drafts tracks else tracks = drafts := by
  obtain ⟨usable, fragments, document, scheduled⟩ := compile_eq_ok_iff.mp compiled
  obtain ⟨others, last, rfl, longer⟩ := Score.lex_append_of_single lexed noBar noColon read
  rw [String.toList_append, Score.normalise_append, longer] at document
  cases document
  have lined := playFragment_trackAt (schedule_single usable scheduled)
  have voices : (tracksAt o .relative [] (others ++ [last])).length ≠ 0 := by
    rw [length_tracksAt, List.length_append]
    exact Nat.succ_ne_zero _
  refine ⟨List.length_pos_iff.mp (Nat.pos_of_ne_zero voices), ?_⟩
  rw [finalRhythm_concat_directive, tracksAt_concat_directive] at lined
  exact lined

/-- With the rhythm set at its end, a score of one fragment has the same notes either way. In
relative rhythm the last track is as in absolute rhythm, and the others are scaled to end with it;
tracks that end at zero are left alone, and all are when the last of them ends at zero. -/
theorem compile_relative_of_absolute (o : Options) (source : String) (fragment : Score.Fragment)
    (lexed : lex (normalise source.toList) = .ok [fragment]) (relative absolute : List Track)
    (compiled : compile o (source ++ "\x7brhythm=relative\x7d") = .ok relative)
    (compiled' : compile o (source ++ "\x7brhythm=absolute\x7d") = .ok absolute) :
    List.Forall₂ SameNotes absolute relative ∧
    ∃ others stretched last, absolute = others ++ [last] ∧ relative = stretched ++ [last] ∧
      (last.finish ≤ 0 → relative = absolute) ∧
      (¬ last.finish ≤ 0 → List.Forall₂ (fun track result =>
        (0 < track.finish → result = track.scale (last.finish / track.finish)) ∧
        (track.finish ≤ 0 → result = track)) others stretched) := by
  have read : lexVoice (normalise "\x7brhythm=relative\x7d".toList) =
      .ok [.directive ⟨.rhythm, some "RELATIVE"⟩] := by decide +kernel
  have read' : lexVoice (normalise "\x7brhythm=absolute\x7d".toList) =
      .ok [.directive ⟨.rhythm, some "ABSOLUTE"⟩] := by decide +kernel
  obtain ⟨nonempty, aligned⟩ :=
    compile_with_rhythm lexed (by decide +kernel) (by decide +kernel) read compiled
  obtain ⟨_, same⟩ :=
    compile_with_rhythm lexed (by decide +kernel) (by decide +kernel) read' compiled'
  rw [if_pos (by decide)] at aligned
  rw [if_neg (by decide)] at same
  subst same
  refine ⟨?_, aligned.exists_stretched nonempty⟩
  refine aligned.fitted.imp fun track result fitted => ?_
  obtain ⟨change, retimed⟩ := retimed_of_fitted fitted
  exact retimed.same_notes

/-- Two notes, a rest and one note. The two notes are squeezed to half their length. -/
theorem compile_two_against_one :
    let source := "\x7brhythm=swing\x7d00:-:3"
    let relative : List Track :=
      [{ events := [⟨0, 1 / 2, 1 / 2, 48, 1⟩, ⟨1 / 2, 1 / 2, 1 / 2, 48, 1⟩] }, { events := [] },
        { events := [⟨0, 1, 1, 51, 1⟩] }]
    let absolute : List Track :=
      [{ events := [⟨0, 1, 1, 48, 1⟩, ⟨1, 1, 1, 48, 1⟩] }, { events := [] },
        { events := [⟨0, 1, 1, 51, 1⟩] }]
    lex (normalise source.toList) = .ok [{ voices :=
      [[.directive ⟨.rhythm, some "SWING"⟩, .note ⟨0, 0⟩, .note ⟨0, 0⟩], [.rest 0],
        [.note ⟨3, 0⟩]] }] ∧
    compile {} (source ++ "\x7brhythm=relative\x7d") = .ok relative ∧
    compile {} (source ++ "\x7brhythm=absolute\x7d") = .ok absolute ∧
    ∃ others stretched last, absolute = others ++ [last] ∧ relative = stretched ++ [last] ∧
      (¬ last.finish ≤ 0 → List.Forall₂ (fun track result =>
        (0 < track.finish → result = track.scale (last.finish / track.finish)) ∧
        (track.finish ≤ 0 → result = track)) others stretched) := by
  intro source relative absolute
  have lexed : lex (normalise source.toList) = .ok [{ voices :=
      [[.directive ⟨.rhythm, some "SWING"⟩, .note ⟨0, 0⟩, .note ⟨0, 0⟩], [.rest 0],
        [.note ⟨3, 0⟩]] }] := by decide +kernel
  have compiled : compile {} (source ++ "\x7brhythm=relative\x7d") = .ok relative := by
    decide +kernel
  have compiled' : compile {} (source ++ "\x7brhythm=absolute\x7d") = .ok absolute := by
    decide +kernel
  obtain ⟨_, others, stretched, last, same, same', _, fits⟩ :=
    compile_relative_of_absolute {} source _ lexed relative absolute compiled compiled'
  exact ⟨lexed, compiled, compiled', others, stretched, last, same, same', fits⟩

end Polyphony
