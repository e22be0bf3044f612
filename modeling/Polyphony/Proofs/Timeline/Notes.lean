import Polyphony.Proofs.Timeline.InForce

/-! Every voice has its track and every note its event, in order, and an event is told from the
tokens before its note. -/
namespace Polyphony.Timeline

open Score

variable {o : Options} {rhythm : Rhythm} {sung : List Token} {start : Binary64}

/-- Each voice with the tokens of the voices before it. -/
def withSung (sung : List Token) : List Voice → List (List Token × Voice)
  | [] => []
  | voice :: rest => (sung, voice) :: withSung (sung ++ voice) rest

theorem map_snd_withSung (sung : List Token) (voices : List Voice) :
    (withSung sung voices).map Prod.snd = voices := by
  induction voices generalizing sung with
  | nil => rfl
  | cons voice voices ih => exact congrArg (voice :: ·) (ih (sung ++ voice))

theorem length_withSung (sung : List Token) (voices : List Voice) :
    (withSung sung voices).length = voices.length := by
  induction voices generalizing sung with
  | nil => rfl
  | cons voice rest ih => exact congrArg (· + 1) (ih _)

theorem withSung_append (sung : List Token) (voices later : List Voice) :
    withSung sung (voices ++ later) =
      withSung sung voices ++ withSung (sung ++ voices.flatten) later := by
  induction voices generalizing sung with
  | nil => rw [List.flatten_nil, List.append_nil]; rfl
  | cons voice voices ih =>
      rw [List.cons_append, withSung, withSung, ih, List.flatten_cons, List.append_assoc]
      rfl

/-- The track of a voice, before it is aligned and placed. -/
def trackAt (o : Options) (rhythm : Rhythm) (sung : List Token) (voice : Voice) : Track where
  events := (notesAfter [] voice).map fun (before, code) =>
    (scopeAt o rhythm sung before).sounded code

/-- The tracks of some voices in order, the first of them coming after `sung`. -/
def tracksAt (o : Options) (rhythm : Rhythm) (sung : List Token) (voices : List Voice) :
    List Track :=
  (withSung sung voices).map fun (sung, voice) => trackAt o rhythm sung voice

theorem tracksAt_cons (o : Options) (rhythm : Rhythm) (sung : List Token) (voice : Voice)
    (voices : List Voice) :
    tracksAt o rhythm sung (voice :: voices) =
      trackAt o rhythm sung voice :: tracksAt o rhythm (sung ++ voice) voices := rfl

theorem tracksAt_append (o : Options) (rhythm : Rhythm) (sung : List Token)
    (voices later : List Voice) :
    tracksAt o rhythm sung (voices ++ later) =
      tracksAt o rhythm sung voices ++ tracksAt o rhythm (sung ++ voices.flatten) later := by
  rw [tracksAt, withSung_append, List.map_append]
  rfl

theorem length_tracksAt (o : Options) (rhythm : Rhythm) (sung : List Token)
    (voices : List Voice) : (tracksAt o rhythm sung voices).length = voices.length := by
  rw [tracksAt, List.length_map, length_withSung]

theorem scopeAt_nil (o : Options) (rhythm : Rhythm) (sung : List Token) :
    (⟨(scopeAt o rhythm sung []).fragment, .start o⟩ : Scope) =
      scopeAt o rhythm sung [] := by
  have root : o.build.keptInt (o.rootNote.toInt + 12 * octaves []) = o.rootNote.toInt :=
    (congrArg o.build.keptInt (Int.add_zero _)).trans (o.build.keptInt_toInt o.rootNote)
  rw [scopeAt, root]
  rfl

theorem scopeAt_fragment (o : Options) (rhythm : Rhythm) (sung earlier : List Token) :
    (scopeAt o rhythm sung earlier).fragment =
      (scopeAt o rhythm (sung ++ earlier) []).fragment := by
  rw [scopeAt, scopeAt, List.append_nil]

theorem playVoices_scopeAt {voices : List Voice} {tracks : List Track} {last : FragmentScope}
    (played : playVoices o (scopeAt o rhythm sung []).fragment voices =
      .ok (tracks, last)) :
    tracks = tracksAt o rhythm sung voices ∧
      last = (scopeAt o rhythm (sung ++ voices.flatten) []).fragment := by
  induction voices generalizing sung tracks with
  | nil =>
      obtain ⟨rfl, rfl⟩ := playVoices_nil_eq_ok_iff.mp played
      exact ⟨rfl, by rw [List.flatten_nil, List.append_nil]⟩
  | cons voice rest ih =>
      obtain ⟨events, inner, later, run, continued, rfl⟩ := playVoices_cons_eq_ok_iff.mp played
      obtain ⟨rfl, rfl⟩ := run_scopeAt run (scopeAt_nil o rhythm sung)
      rw [scopeAt_fragment, List.nil_append] at continued
      obtain ⟨rfl, rfl⟩ := ih continued
      refine ⟨rfl, ?_⟩
      rw [List.flatten_cons, List.append_assoc]

/-- The rhythm that the directives of a fragment leave behind. -/
def finalRhythm (fragment : Fragment) : Rhythm :=
  latest Directive.rhythm? fragment.rhythm fragment.voices.flatten

theorem playFragment_trackAt {fragment : Fragment} {results : List Track}
    (played : playFragment o fragment = .ok results) :
    let tracks := tracksAt o fragment.rhythm [] fragment.voices
    if finalRhythm fragment = .relative then Aligned tracks results else results = tracks := by
  obtain ⟨tracks, scope, voices, lined⟩ := playFragment_eq_ok_iff.mp played
  change playVoices o (scopeAt o fragment.rhythm [] []).fragment _ = _ at voices
  obtain ⟨rfl, rfl⟩ := playVoices_scopeAt voices
  have final : (scopeAt o fragment.rhythm ([] ++ fragment.voices.flatten) []).fragment.rhythm =
      finalRhythm fragment := by
    rw [scopeAt, List.nil_append, List.append_nil, finalRhythm]
  rwa [final] at lined

/-- All events of a track are changed alike, and keep their pitch and volume. -/
def Retimed (change : Event → Event) (track result : Track) : Prop :=
  (∀ event, (change event).pitch = event.pitch ∧ (change event).volume = event.volume) ∧
    result.events = track.events.map change

theorem retimed_of_fitted {tracks : List Track} {track result : Track}
    (fitted : Fitted tracks track result) : ∃ change, Retimed change track result := by
  rcases fitted with rfl | ⟨last, member, ends, finite, rfl⟩
  · exact ⟨id, fun event => ⟨rfl, rfl⟩, (List.map_id _).symm⟩
  · exact ⟨Event.scale _, fun event => ⟨rfl, rfl⟩, rfl⟩

theorem Retimed.shift {change : Event → Event} {track result : Track}
    (retimed : Retimed change track result) (start : Binary64) :
    Retimed (Event.shift start ∘ change) track (result.shift start) := by
  refine ⟨retimed.1, ?_⟩
  rw [Track.shift, retimed.2, List.map_map]

/-- The events agree in number, pitch and volume. -/
def SameNotes (track result : Track) : Prop :=
  List.Forall₂ (fun e e' => e'.pitch = e.pitch ∧ e'.volume = e.volume) track.events result.events

theorem Retimed.same_notes {change : Event → Event} {track result : Track}
    (retimed : Retimed change track result) : SameNotes track result := by
  rw [SameNotes, retimed.2, List.forall₂_map_right_iff, List.forall₂_same]
  intro event _
  exact retimed.1 event

/-- The tracks of a fragment are retimed, and only moved unless its rhythm ends up relative. -/
theorem placed_retimed {tracks played placed : List Track} {ended : Rhythm}
    (lined : if ended = .relative then Aligned tracks played else played = tracks)
    (places : List.Forall₂ (fun track result => place start track = .ok result) played placed) :
    List.Forall₂ (fun track result => ∃ change, Retimed change track result ∧
      (ended ≠ .relative → change = Event.shift start)) tracks placed := by
  have moved := places.imp fun track result placed => (place_eq_ok_iff.mp placed).2
  have fits : List.Forall₂ (fun track result => ∃ change, Retimed change track result ∧
      (ended ≠ .relative → change = id)) tracks played := by
    by_cases relative : ended = .relative
    · rw [if_pos relative] at lined
      refine lined.fitted.imp fun track result fitted => ?_
      obtain ⟨change, retimed⟩ := retimed_of_fitted fitted
      exact ⟨change, retimed, fun absolute => absurd relative absolute⟩
    · rw [if_neg relative] at lined
      rw [lined]
      apply List.forall₂_same.mpr
      intro track _
      exact ⟨id, ⟨fun event => ⟨rfl, rfl⟩, (List.map_id _).symm⟩, fun _ => rfl⟩
  refine (forall₂_comp fits moved).imp ?_
  rintro track _ ⟨result, ⟨change, retimed, unscaled⟩, rfl⟩
  refine ⟨_, retimed.shift start, ?_⟩
  intro absolute
  rw [unscaled absolute]
  rfl

theorem fragment_retimed {fragment : Fragment} {played placed : List Track}
    (plays : playFragment o fragment = .ok played)
    (places : List.Forall₂ (fun track result => place start track = .ok result) played placed) :
    List.Forall₂ (fun (sung, voice) track => ∃ change,
        Retimed change (trackAt o fragment.rhythm sung voice) track ∧
        (finalRhythm fragment ≠ .relative → change = Event.shift start))
      (withSung [] fragment.voices) placed :=
  List.forall₂_map_left_iff.mp (placed_retimed (playFragment_trackAt plays) places)

/-- The track is that of the voice in some fragment, retimed. -/
def Renders (o : Options) (voice : Voice) (track : Track) : Prop :=
  ∃ rhythm sung change, Retimed change (trackAt o rhythm sung voice) track

theorem fragment_renders {fragment : Fragment} {played placed : List Track}
    (plays : playFragment o fragment = .ok played)
    (places : List.Forall₂ (fun track result => place start track = .ok result) played placed) :
    List.Forall₂ (Renders o) fragment.voices placed := by
  rw [← map_snd_withSung [] fragment.voices, List.forall₂_map_left_iff]
  refine (fragment_retimed plays places).imp ?_
  rintro ⟨sung, voice⟩ track ⟨change, retimed, _⟩
  exact ⟨fragment.rhythm, sung, change, retimed⟩

/-- The tracks of a score are those of its voices, in order. -/
theorem scheduleFrom_renders {fragments : List Fragment} {tracks : List Track}
    (scheduled : scheduleFrom o start fragments = .ok tracks) :
    List.Forall₂ (Renders o) (fragments.flatMap Fragment.voices) tracks := by
  induction fragments generalizing start tracks with
  | nil =>
      obtain rfl := scheduleFrom_nil_eq_ok_iff.mp scheduled
      exact .nil
  | cons fragment rest ih =>
      obtain ⟨played, placed, later, plays, places, continued, rfl⟩ :=
        scheduleFrom_cons_eq_ok_iff.mp scheduled
      exact List.rel_append (fragment_renders plays places) (ih continued)

end Polyphony.Timeline
