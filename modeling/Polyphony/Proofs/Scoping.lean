import Polyphony.Proofs.Concatenation

/-! Octave, slur, volume and clock end with their voice. The note length is handed on to the voices
after it, the rhythm to the alignment of the whole fragment, and neither to the next fragment. -/
namespace Polyphony.Timeline

open Score

variable {o : Options} {rhythm rhythm' : Rhythm} {sung sung' : List Token} {voice : Voice}
  {track track' : Track} {tracks tracks' : List Track}

theorem noteLengthAt_append_congr (same : noteLengthAt o sung = noteLengthAt o sung')
    (tokens : List Token) : noteLengthAt o (sung ++ tokens) = noteLengthAt o (sung' ++ tokens) := by
  rw [noteLengthAt, noteLengthAt, latest_append, latest_append]
  exact congrArg (latest Directive.noteLength? · tokens) same

theorem clockAt_congr (same : noteLengthAt o sung = noteLengthAt o sung') (earlier : List Token) :
    clockAt o sung earlier = clockAt o sung' earlier := by
  simp only [clockAt, noteLengthAt_append_congr same]

/-- A voice is played alike after any voices that leave the same note length behind. -/
theorem trackAt_congr (same : noteLengthAt o sung = noteLengthAt o sung') (voice : Voice) :
    trackAt o rhythm sung voice = trackAt o rhythm' sung' voice := by
  refine congrArg (fun events => Track.mk events 0) (List.map_congr_left ?_)
  rintro ⟨before, code⟩ _
  simp only [Scope.sounded, scopeAt, noteLengthAt_append_congr same, clockAt_congr same]

theorem tracksAt_congr (same : noteLengthAt o sung = noteLengthAt o sung') (voices : List Voice) :
    tracksAt o rhythm sung voices = tracksAt o rhythm sung' voices := by
  induction voices generalizing sung sung' with
  | nil => rfl
  | cons voice voices ih =>
      have first : trackAt o rhythm sung voice = trackAt o rhythm sung' voice :=
        trackAt_congr same voice
      rw [tracksAt_cons, tracksAt_cons, first, ih (noteLengthAt_append_congr same voice)]

theorem Renders.same_notes (renders : Renders o voice track) (renders' : Renders o voice track') :
    SameNotes track track' := by
  obtain ⟨rhythm, sung, change, kept, events⟩ := renders
  obtain ⟨rhythm', sung', change', kept', events'⟩ := renders'
  rw [SameNotes, events, events', trackAt, trackAt, List.map_map, List.map_map,
    List.forall₂_map_left_iff, List.forall₂_map_right_iff, List.forall₂_same]
  rintro ⟨before, code⟩ _
  obtain ⟨pitch, volume⟩ := kept ((scopeAt o rhythm sung before).sounded code)
  obtain ⟨pitch', volume'⟩ := kept' ((scopeAt o rhythm' sung' before).sounded code)
  exact ⟨pitch'.trans pitch.symm, volume'.trans volume.symm⟩

theorem renders_same_notes {voices : List Voice} (renders : List.Forall₂ (Renders o) voices tracks)
    (renders' : List.Forall₂ (Renders o) voices tracks') :
    List.Forall₂ SameNotes tracks tracks' := by
  refine (forall₂_comp renders.flip renders').imp ?_
  rintro track track' ⟨voice, plays, plays'⟩
  exact Renders.same_notes plays plays'

/-- A fragment, written around one of its voices. -/
def around (rhythm : Rhythm) (left : List Voice) (voice : Voice) (right : List Voice) : Fragment :=
  { voices := left ++ voice :: right, rhythm }

/-- A fragment that is not aligned is only moved to its start. -/
theorem placed_of_absolute {fragment : Fragment} {start : Binary64} {played placed : List Track}
    (plays : playFragment o fragment = .ok played)
    (places : List.Forall₂ (fun track result => place start track = .ok result) played placed)
    (absolute : finalRhythm fragment ≠ .relative) :
    placed = (tracksAt o fragment.rhythm [] fragment.voices).map (·.shift start) := by
  have lined := playFragment_trackAt plays
  dsimp only at lined
  rw [if_neg absolute] at lined
  obtain ⟨_, rfl⟩ := places_iff.mp places
  rw [lined]

/-- The tracks of a fragment, cut at one of its voices. -/
theorem fragment_around {left right : List Voice} {start : Binary64} {played placed : List Track}
    (plays : playFragment o (around rhythm left voice right) = .ok played)
    (places : List.Forall₂ (fun track result => place start track = .ok result) played placed) :
    ∃ before track after, placed = before ++ track :: after ∧
      List.Forall₂ (Renders o) left before ∧ List.Forall₂ (Renders o) right after ∧
      (finalRhythm (around rhythm left voice right) ≠ .relative →
        before = (tracksAt o rhythm [] left).map (·.shift start) ∧
        after = (tracksAt o rhythm (left.flatten ++ voice) right).map (·.shift start)) := by
  obtain ⟨before, rest, lefts, others, rfl⟩ := forall₂_append_left (fragment_renders plays places)
  obtain ⟨track, after, _, rights, rfl⟩ := List.forall₂_cons_left_iff.mp others
  refine ⟨before, track, after, rfl, lefts, rights, fun absolute => ?_⟩
  -- Both cuts are at the same length, so they are the same cut.
  have whole := placed_of_absolute plays places absolute
  rw [around, tracksAt_append, tracksAt_cons, List.map_append, List.map_cons] at whole
  have lengths : before.length = ((tracksAt o rhythm [] left).map (·.shift start)).length := by
    rw [List.length_map, length_tracksAt, lefts.length_eq]
  obtain ⟨same, rest⟩ := List.append_inj whole lengths
  exact ⟨same, (List.cons.inj rest).2⟩

/-- Two scores that differ in the tokens of one voice. The fragments before it are as they were,
those after it are moved at most, and the other voices of its fragment keep their notes. Unless
they are aligned, the voices before it are as they were, and so are those after it if it hands on
the same note length. -/
theorem schedule_edited_voice (o : Options) (before after : List Fragment) (rhythm : Rhythm)
    (left right : List Voice) (voice voice' : Voice) (tracks tracks' : List Track)
    (scheduled : schedule o (before ++ around rhythm left voice right :: after) = .ok tracks)
    (scheduled' : schedule o (before ++ around rhythm left voice' right :: after) = .ok tracks') :
    ∃ earlier lefts track rights later lefts' track' rights' later',
      tracks = earlier ++ (lefts ++ track :: rights) ++ later ∧
      tracks' = earlier ++ (lefts' ++ track' :: rights') ++ later' ∧
      earlier.length = (before.flatMap Fragment.voices).length ∧
      lefts.length = left.length ∧ rights.length = right.length ∧
      later.length = (after.flatMap Fragment.voices).length ∧
      List.Forall₂ Moved later later' ∧
      List.Forall₂ SameNotes lefts lefts' ∧ List.Forall₂ SameNotes rights rights' ∧
      (finalRhythm (around rhythm left voice right) ≠ .relative →
        finalRhythm (around rhythm left voice' right) ≠ .relative →
          lefts' = lefts ∧
          (noteLengthAt o (left.flatten ++ voice) = noteLengthAt o (left.flatten ++ voice') →
            rights' = rights)) := by
  obtain ⟨earlier, rest, begun, continued, rfl⟩ := scheduleFrom_append.mp scheduled
  obtain ⟨earlier', rest', begun', continued', rfl⟩ := scheduleFrom_append.mp scheduled'
  -- The same fragments up to here, so the edited one starts where it did.
  obtain rfl := Except.ok.inj (begun.symm.trans begun')
  obtain ⟨played, placed, later, plays, places, ended, rfl⟩ :=
    scheduleFrom_cons_eq_ok_iff.mp continued
  obtain ⟨played', placed', later', plays', places', ended', rfl⟩ :=
    scheduleFrom_cons_eq_ok_iff.mp continued'
  obtain ⟨lefts, track, rights, rfl, renders, renders_right, absolute⟩ :=
    fragment_around plays places
  obtain ⟨lefts', track', rights', rfl, renders', renders_right', absolute'⟩ :=
    fragment_around plays' places'
  refine ⟨earlier, lefts, track, rights, later, lefts', track', rights', later',
    (List.append_assoc _ _ _).symm, (List.append_assoc _ _ _).symm,
    (scheduleFrom_renders begun).length_eq.symm, renders.length_eq.symm,
    renders_right.length_eq.symm, (scheduleFrom_renders ended).length_eq.symm,
    scheduleFrom_moved ended ended', renders_same_notes renders renders',
    renders_same_notes renders_right renders_right', ?_⟩
  intro free free'
  obtain ⟨rfl, rfl⟩ := absolute free
  obtain ⟨rfl, rfl⟩ := absolute' free'
  refine ⟨rfl, fun same => ?_⟩
  rw [tracksAt_congr same]

/-- The middle voice of three becomes longer and higher. The fragment is not aligned, so only that
voice changes in it, and the fragment behind it starts later. -/
theorem schedule_longer_middle :
    let before : List Fragment := [{ voices := [[.note ⟨0, 0⟩]] }]
    let after : List Fragment := [{ voices := [[.note ⟨3, 0⟩]] }]
    let short : Voice := [.note ⟨1, 0⟩]
    let long : Voice := [.directive ⟨.octaveUp, none⟩, .note ⟨1, 1⟩]
    let piece := fun voice => before ++
      around (.absolute "free") [[.note ⟨0, 0⟩]] voice [[.note ⟨2, 0⟩]] :: after
    let tracks : List Track :=
      [{ events := [⟨0, 1, 1, 48, 1⟩] }, { events := [⟨1, 1, 1, 48, 1⟩] },
        { events := [⟨1, 1, 1, 49, 1⟩] }, { events := [⟨1, 1, 1, 50, 1⟩] },
        { events := [⟨2, 1, 1, 51, 1⟩] }]
    let tracks' : List Track :=
      [{ events := [⟨0, 1, 1, 48, 1⟩] }, { events := [⟨1, 1, 1, 48, 1⟩] },
        { events := [⟨1, 2, 2, 61, 1⟩] }, { events := [⟨1, 1, 1, 50, 1⟩] },
        { events := [⟨3, 1, 1, 51, 1⟩] }]
    schedule {} (piece short) = .ok tracks ∧ schedule {} (piece long) = .ok tracks' ∧
      ∃ earlier lefts track track' rights later later',
        tracks = earlier ++ (lefts ++ track :: rights) ++ later ∧
        tracks' = earlier ++ (lefts ++ track' :: rights) ++ later' ∧
        earlier.length = 1 ∧ lefts.length = 1 ∧ List.Forall₂ Moved later later' := by
  intro before after short long piece tracks tracks'
  have scheduled : schedule {} (piece short) = .ok tracks := by decide +kernel
  have scheduled' : schedule {} (piece long) = .ok tracks' := by decide +kernel
  obtain ⟨earlier, lefts, track, rights, later, lefts', track', rights', later', joined, joined',
    first, second, _, _, moved, _, _, absolute⟩ :=
    schedule_edited_voice {} before after _ _ _ short long _ _ scheduled scheduled'
  obtain ⟨rfl, same⟩ := absolute (by decide +kernel) (by decide +kernel)
  obtain rfl := same (by decide +kernel)
  exact ⟨scheduled, scheduled', earlier, lefts', track, track', rights', later, later', joined,
    joined', first, second, moved⟩

end Polyphony.Timeline
