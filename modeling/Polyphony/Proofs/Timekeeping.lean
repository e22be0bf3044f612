import Mathlib.Data.List.Induction
import Polyphony.Proofs.Timeline.Notes
import Polyphony.Proofs.Timeline.Placement

/-! Pitch, octave, volume and slur have no say in when a note of a voice starts and how long it
sounds. A slur widens how long the note is held, though, and with the last note of a voice it widens
the voice, by which other voices are aligned and later fragments are placed. So two scores that are
alike but for all these keep the same time if the last notes of their voices are under the same
slurs. -/
namespace Polyphony.Score

/-- The effects that a time can depend on. -/
def Effect.timing : Effect → Bool
  | .octaveUp => false
  | .octaveDown => false
  | .slurUp => false
  | .slurDown => false
  | .volume => false
  | _ => true

def NoteCode.bare (code : NoteCode) : NoteCode := { code with pitch := 0 }

/-- Notes at pitch zero, and only the directives that a time can depend on. -/
def Token.bare? : Token → Option Token
  | .note code => some (.note code.bare)
  | .chord codes => some (.chord (codes.map NoteCode.bare))
  | .rest length => some (.rest length)
  | .directive d => if d.effect.timing then some (.directive d) else none

def bare (tokens : List Token) : List Token := tokens.filterMap Token.bare?

def Fragment.bare (fragment : Fragment) : Fragment :=
  { fragment with voices := fragment.voices.map Score.bare }

variable {α : Type} {before : List Token} {token : Token}

theorem bare_append (first second : List Token) :
    bare (first ++ second) = bare first ++ bare second := List.filterMap_append

theorem bare_cons (token : Token) (tokens : List Token) :
    bare (token :: tokens) = token.bare?.toList ++ bare tokens := by
  rw [bare]
  cases shown : token.bare? with
  | none => rw [List.filterMap_cons_none shown]; rfl
  | some kept => rw [List.filterMap_cons_some shown]; rfl

theorem bare_concat (earlier : List Token) (token : Token) :
    bare (earlier ++ [token]) = bare earlier ++ token.bare?.toList := by
  rw [bare_append, bare_cons]
  exact congrArg (bare earlier ++ ·) (List.append_nil _)

theorem directives_bare (tokens : List Token) :
    directives (bare tokens) = (directives tokens).filter fun d => d.effect.timing := by
  induction tokens with
  | nil => rfl
  | cons token tokens ih =>
      rw [bare_cons]
      cases token with
      | directive d =>
          change directives (Option.toList (if d.effect.timing then _ else _) ++ _) =
            (d :: directives tokens).filter fun d => d.effect.timing
          rw [List.filter_cons, ← ih]
          split <;> rfl
      | _ => exact ih

/-- What only directives for times set is not changed by leaving out the others. -/
theorem latest_bare {sets : Directive → Option α}
    (silent : ∀ d, d.effect.timing = false → sets d = none) (initial : α) (tokens : List Token) :
    latest sets initial (bare tokens) = latest sets initial tokens := by
  have same : (fun d => if d.effect.timing then sets d else none) = sets := by
    funext d
    by_cases timing : d.effect.timing = true
    · exact if_pos timing
    · rw [if_neg timing, silent d (Bool.not_eq_true _ ▸ timing)]
  rw [latest, latest, directives_bare, List.filterMap_filter, same]

theorem silent_noteLength? (d : Directive) (untimed : d.effect.timing = false) :
    d.noteLength? = none := by
  obtain ⟨effect, value⟩ := d
  cases effect with
  | noteLength => cases untimed
  | tempo => cases untimed
  | _ => rfl

theorem silent_rhythm? (d : Directive) (untimed : d.effect.timing = false) :
    d.rhythm? = none := by
  obtain ⟨effect, value⟩ := d
  cases effect with
  | rhythm => cases untimed
  | _ => rfl

/-- The slurs of the notes of a voice. -/
def slurs (b : Build) (voice : Voice) : List Nat :=
  (notesAfter [] voice).map fun (before, _) => slur b before

/-- The slur of the last note in each voice. -/
def Fragment.lastSlurs (b : Build) (fragment : Fragment) : List (Option Nat) :=
  fragment.voices.map fun voice => (slurs b voice).getLast?

/-- A note with the tokens before it, all of them bare. -/
def bareNote (note : List Token × NoteCode) : List Token × NoteCode := (bare note.1, note.2.bare)

theorem notesAfter_bare_token (before rest : List Token) (token : Token) :
    notesAfter before (token.bare?.toList ++ rest) =
      (token.codes.map NoteCode.bare).map (before, ·) ++
        notesAfter (before ++ token.bare?.toList) rest := by
  cases token with
  | note code => rfl
  | chord codes => rfl
  | rest length => rfl
  | directive d =>
      rw [Token.bare?]
      split
      · rfl
      · rw [Option.toList_none, List.append_nil]
        rfl

theorem notesAfter_bare (before tokens : List Token) :
    notesAfter (bare before) (bare tokens) = (notesAfter before tokens).map bareNote := by
  induction tokens generalizing before with
  | nil => rfl
  | cons token tokens ih =>
      rw [bare_cons, notesAfter_bare_token, ← bare_concat, ih, notesAfter_cons, List.map_append,
        List.map_map, List.map_map]
      rfl

end Polyphony.Score

namespace Polyphony.Timeline

open Score

variable {b : Build} {o : Options} {rhythm rhythm' : Rhythm} {sung sung' : List Token}
  {voice voice' : Voice} {track track' : Track} {voices voices' : List Voice}
  {tracks tracks' : List Track}

theorem noteLengthAt_bare (o : Options) (tokens : List Token) :
    noteLengthAt o (bare tokens) = noteLengthAt o tokens :=
  latest_bare silent_noteLength? o.noteLength tokens

theorem span?_bare (noteLength : Binary64) (token : Token) :
    token.bare?.bind (span? noteLength) = span? noteLength token := by
  cases token with
  | note code => rfl
  | chord codes =>
      cases codes with
      | nil => rfl
      | cons code codes =>
          simp only [Token.bare?, Option.bind_some, List.map_cons, span?, List.map_map]
          rfl
  | rest length => rfl
  | directive d =>
      rw [Token.bare?]
      split <;> rfl

theorem clockAt_bare (o : Options) (sung earlier : List Token) :
    clockAt o (bare sung) (bare earlier) = clockAt o sung earlier := by
  -- From the last token, as the clock moves on at the end.
  induction earlier using List.reverseRecOn with
  | nil => rfl
  | append_singleton earlier token ih =>
      have same :
          noteLengthAt o (bare sung ++ bare earlier) = noteLengthAt o (sung ++ earlier) := by
        rw [← bare_append, noteLengthAt_bare]
      rw [clockAt_concat, ← span?_bare, bare_concat]
      cases token.bare? with
      | none => rw [Option.toList_none, List.append_nil]; exact ih
      | some kept => rw [Option.toList_some, clockAt_concat, ih, same]; rfl

theorem starts_trackAt (o : Options) (rhythm : Rhythm) (sung : List Token) (voice : Voice) :
    (trackAt o rhythm sung voice).events.map (·.start) =
      (notesAfter [] (bare voice)).map fun (before, _) => clockAt o (bare sung) before := by
  have notes : notesAfter [] (bare voice) = _ := notesAfter_bare [] voice
  rw [notes, trackAt, List.map_map, List.map_map]
  exact List.map_congr_left fun note _ => (clockAt_bare o sung note.1).symm

theorem played_trackAt (o : Options) (rhythm : Rhythm) (sung : List Token) (voice : Voice) :
    (trackAt o rhythm sung voice).events.map (·.played) =
      (notesAfter [] (bare voice)).map fun (before, code) =>
        sounding (noteLengthAt o (bare sung ++ before)) code.length := by
  have notes : notesAfter [] (bare voice) = _ := notesAfter_bare [] voice
  rw [notes, trackAt, List.map_map, List.map_map]
  refine List.map_congr_left fun note _ => ?_
  change sounding (noteLengthAt o (sung ++ note.1)) note.2.length =
    sounding (noteLengthAt o (bare sung ++ bare note.1)) note.2.length
  rw [← bare_append, noteLengthAt_bare]

/-- How long a note is held under a slur. -/
def heldUnder (o : Options) (sung : List Token) (note : List Token × NoteCode) (slur : Nat) :
    Binary64 :=
  (sounding (noteLengthAt o (sung ++ note.1)) note.2.length).max
    (noteLengthAt o (sung ++ note.1) * .ofNat slur)

theorem held_trackAt (o : Options) (rhythm : Rhythm) (sung : List Token) (voice : Voice) :
    (trackAt o rhythm sung voice).events.map (·.held) =
      List.zipWith (heldUnder o (bare sung)) (notesAfter [] (bare voice)) (slurs o.build voice) := by
  have notes : notesAfter [] (bare voice) = _ := notesAfter_bare [] voice
  rw [notes, slurs, List.zipWith_map, List.zipWith_self, trackAt, List.map_map]
  refine List.map_congr_left fun note _ => ?_
  change heldUnder o sung note (slur o.build note.1) = heldUnder o (bare sung) (bareNote note) _
  rw [heldUnder, heldUnder, bareNote, ← bare_append, noteLengthAt_bare]
  rfl

/-- Two tracks of two voices keep the same time: their events start together and sound equally long,
those under the same slur are held equally long, and so is the last of them. -/
structure InTime (b : Build) (voice voice' : Voice) (track track' : Track) : Prop where
  count : track.events.length = (slurs b voice).length
  count' : track'.events.length = (slurs b voice').length
  starts : track.events.map (·.start) = track'.events.map (·.start)
  played : track.events.map (·.played) = track'.events.map (·.played)
  held : ∀ i : Nat, (slurs b voice)[i]? = (slurs b voice')[i]? →
    (track.events.map (·.held))[i]? = (track'.events.map (·.held))[i]?
  last : (track.events.map (·.held)).getLast? = (track'.events.map (·.held)).getLast?

theorem length_trackAt (o : Options) (rhythm : Rhythm) (sung : List Token) (voice : Voice) :
    (trackAt o rhythm sung voice).events.length = (slurs o.build voice).length := by
  rw [trackAt, slurs, List.length_map, List.length_map]

theorem getLast?_eq_of_agree {α β : Type} {first second : List α} {results results' : List β}
    (length : first.length = second.length) (results_length : results.length = first.length)
    (results_length' : results'.length = second.length)
    (agree : ∀ i : Nat, first[i]? = second[i]? → results[i]? = results'[i]?)
    (last : first.getLast? = second.getLast?) : results.getLast? = results'.getLast? := by
  rw [List.getLast?_eq_getElem?, List.getLast?_eq_getElem?, ← length] at last
  rw [List.getLast?_eq_getElem?, List.getLast?_eq_getElem?, results_length, results_length',
    ← length]
  exact agree _ last

/-- The tracks of voices that are alike are in time, whatever the root notes. -/
theorem trackAt_inTime {noteLength : Binary64} {root root' : Int32}
    (alike : bare voice = bare voice')
    (alike_sung : bare sung = bare sung')
    (last : (slurs b voice).getLast? = (slurs b voice').getLast?) :
    InTime b voice voice' (trackAt ⟨noteLength, root, b⟩ rhythm sung voice)
      (trackAt ⟨noteLength, root', b⟩ rhythm' sung' voice') := by
  have starts := starts_trackAt ⟨noteLength, root, b⟩ rhythm sung voice
  have played := played_trackAt ⟨noteLength, root, b⟩ rhythm sung voice
  have held := held_trackAt ⟨noteLength, root, b⟩ rhythm sung voice
  rw [alike, alike_sung] at starts played held
  have starts := starts.trans (starts_trackAt ⟨noteLength, root', b⟩ rhythm' sung' voice').symm
  have played := played.trans (played_trackAt ⟨noteLength, root', b⟩ rhythm' sung' voice').symm
  have held' := held_trackAt ⟨noteLength, root', b⟩ rhythm' sung' voice'
  have length := congrArg List.length starts
  rw [List.length_map, List.length_map, length_trackAt, length_trackAt] at length
  have agree : ∀ i : Nat, (slurs b voice)[i]? = (slurs b voice')[i]? →
      ((trackAt ⟨noteLength, root, b⟩ rhythm sung voice).events.map (·.held))[i]? =
        ((trackAt ⟨noteLength, root', b⟩ rhythm' sung' voice').events.map (·.held))[i]? := by
    intro i same
    rw [held, held', List.getElem?_zipWith, List.getElem?_zipWith, same]
    rfl
  refine ⟨length_trackAt _ _ _ _, length_trackAt _ _ _ _, starts, played, agree, ?_⟩
  -- The last place is one at which the slurs agree.
  refine getLast?_eq_of_agree length ?_ ?_ agree last
  · exact (List.length_map _).trans (length_trackAt _ _ _ _)
  · exact (List.length_map _).trans (length_trackAt _ _ _ _)

namespace InTime

theorem map_changed {time : Event → Binary64} {change : Event → Event} {act : Binary64 → Binary64}
    (each : ∀ event, time (change event) = act (time event)) (events : List Event) :
    (events.map change).map time = (events.map time).map act := by
  rw [List.map_map, List.map_map]
  exact List.map_congr_left fun event _ => each event

/-- Any change that each time undergoes on its own keeps two tracks in time. -/
theorem changed (same : InTime b voice voice' track track') {change : Event → Event}
    (start played held : Binary64 → Binary64)
    (starts : ∀ event, (change event).start = start event.start)
    (plays : ∀ event, (change event).played = played event.played)
    (holds : ∀ event, (change event).held = held event.held) :
    InTime b voice voice' { track with events := track.events.map change }
      { track' with events := track'.events.map change } := by
  refine ⟨?_, ?_, ?_, ?_, ?_, ?_⟩
  · exact (List.length_map _).trans same.count
  · exact (List.length_map _).trans same.count'
  · rw [map_changed starts, map_changed starts, same.starts]
  · rw [map_changed plays, map_changed plays, same.played]
  · intro i agree
    have kept := congrArg (Option.map held) (same.held i agree)
    rw [map_changed holds, map_changed holds]
    exact List.getElem?_map.trans (kept.trans List.getElem?_map.symm)
  · have kept := congrArg (Option.map held) same.last
    rw [map_changed holds, map_changed holds]
    exact List.getLast?_map.trans (kept.trans List.getLast?_map.symm)

theorem scale (same : InTime b voice voice' track track') (ratio : Binary64) :
    InTime b voice voice' (track.scale ratio) (track'.scale ratio) :=
  same.changed (· * ratio) (· * ratio) (· * ratio) (fun _ => rfl) (fun _ => rfl) fun _ => rfl

theorem shift (same : InTime b voice voice' track track') (offset : Binary64) :
    InTime b voice voice' (track.shift offset) (track'.shift offset) :=
  same.changed (· + offset) id id (fun _ => rfl) (fun _ => rfl) fun _ => rfl

theorem isEmpty (same : InTime b voice voice' track track') :
    track.events.isEmpty = track'.events.isEmpty := by
  rw [← List.isEmpty_map (f := fun e : Event => e.start), same.starts, List.isEmpty_map]

theorem finish (same : InTime b voice voice' track track') : track.finish = track'.finish := by
  have starts := congrArg List.getLast? same.starts
  have played := congrArg List.getLast? same.played
  have held := same.last
  rw [List.getLast?_map, List.getLast?_map] at starts played held
  rw [Track.finish, Track.finish]
  cases ends : track.events.getLast? with
  | none =>
      cases ends' : track'.events.getLast? with
      | none => rfl
      | some event' => rw [ends, ends'] at starts; cases starts
  | some event =>
      cases ends' : track'.events.getLast? with
      | none => rw [ends, ends'] at starts; cases starts
      | some event' =>
          simp only [ends, ends', Option.map_some, Option.some.injEq] at starts played held
          exact congrArg₂ (· + ·) starts (congrArg₂ Binary64.max held played)

end InTime

/-- What a track that ends at `finish` is scaled by to end at `target`. -/
def ratio? (target finish : Binary64) : Option Binary64 :=
  if 0 < finish then some (target / finish) else none

/-- What each track is scaled by, if it is scaled, when tracks with these ends are aligned. -/
def ratios (ends : List Binary64) : List (Option Binary64) :=
  match ends.getLast? with
  | none => []
  | some last =>
    if last ≤ 0 then ends.map fun _ => none
    else ends.dropLast.map (ratio? last) ++ [none]

def Track.fit : Option Binary64 → Track → Track
  | none, track => track
  | some ratio, track => track.scale ratio

theorem zipWith_fit_none (tracks : List Track) :
    List.zipWith Track.fit (tracks.map fun _ => none) tracks = tracks := by
  rw [List.zipWith_map_left, List.zipWith_self]
  exact List.map_id tracks

theorem ratios_concat (ends : List Binary64) (last : Binary64) :
    ratios (ends ++ [last]) = if last ≤ 0 then (ends ++ [last]).map fun _ => none
      else ends.map (ratio? last) ++ [none] := by
  rw [ratios, List.getLast?_concat, List.dropLast_concat]

theorem stretch_eq_fit {target : Binary64} {result : Track}
    (stretched : stretch target track = .ok result) :
    result = track.fit (ratio? target track.finish) := by
  have scaled := (stretch_eq_ok_iff.mp stretched).2
  by_cases sounds : 0 < track.finish
  · rw [scaled, ratio?, if_pos sounds, if_pos sounds]
    rfl
  · rw [scaled, ratio?, if_neg sounds, if_neg sounds]
    rfl

theorem Aligned.eq_zipWith {results : List Track} (aligned : Aligned tracks results) :
    results = List.zipWith Track.fit (ratios (tracks.map Track.finish)) tracks := by
  cases aligned with
  | none => rfl
  | silent others last ends =>
      have whole : others.map Track.finish ++ [last.finish] =
          (others ++ [last]).map Track.finish := by
        rw [List.map_append, List.map_singleton]
      rw [← whole, ratios_concat, if_pos ends, whole, List.map_map]
      exact (zipWith_fit_none _).symm
  | stretched others results last ends each =>
      have fitted : results =
          List.zipWith Track.fit ((others.map Track.finish).map (ratio? last.finish)) others := by
        induction each with
        | nil => rfl
        | cons first _ ih =>
            rw [List.map_cons, List.map_cons, List.zipWith_cons_cons, ← ih, stretch_eq_fit first]
      rw [List.map_append, List.map_singleton, ratios_concat, if_neg ends,
        List.zipWith_append (by rw [List.length_map, List.length_map]), ← fitted]
      rfl

theorem length_ratios (ends : List Binary64) : (ratios ends).length = ends.length := by
  rcases List.eq_nil_or_concat' ends with rfl | ⟨others, last, rfl⟩
  · rfl
  · rw [ratios_concat]
    split
    · exact List.length_map _
    · rw [List.length_append, List.length_map, List.length_append]
      rfl

/-- Voice by voice, two scores keep the same time. -/
inductive AllInTime (b : Build) : List Voice → List Voice → List Track → List Track → Prop where
  | nil : AllInTime b [] [] [] []
  | cons {voice voice' : Voice} {track track' : Track} {voices voices' : List Voice}
      {tracks tracks' : List Track} :
      InTime b voice voice' track track' → AllInTime b voices voices' tracks tracks' →
      AllInTime b (voice :: voices) (voice' :: voices') (track :: tracks) (track' :: tracks')

namespace AllInTime

theorem append {others others' : List Voice} {later later' : List Track}
    (first : AllInTime b voices voices' tracks tracks')
    (second : AllInTime b others others' later later') :
    AllInTime b (voices ++ others) (voices' ++ others') (tracks ++ later) (tracks' ++ later') := by
  induction first with
  | nil => exact second
  | cons same _ ih => exact .cons same ih

theorem map_finish (same : AllInTime b voices voices' tracks tracks') :
    tracks.map Track.finish = tracks'.map Track.finish := by
  induction same with
  | nil => rfl
  | cons first _ ih => rw [List.map_cons, List.map_cons, first.finish, ih]

theorem latestFinish_eq (same : AllInTime b voices voices' tracks tracks') (start : Binary64) :
    latestFinish start tracks = latestFinish start tracks' := by
  induction same generalizing start with
  | nil => rfl
  | cons first _ ih =>
      rw [latestFinish_cons, latestFinish_cons, first.isEmpty, first.finish, ih, ih]

theorem shift (same : AllInTime b voices voices' tracks tracks') (start : Binary64) :
    AllInTime b voices voices' (tracks.map (·.shift start)) (tracks'.map (·.shift start)) := by
  induction same with
  | nil => exact .nil
  | cons first _ ih => exact .cons (first.shift start) ih

theorem fit (same : AllInTime b voices voices' tracks tracks') {ratios : List (Option Binary64)}
    (each : ratios.length = tracks.length) :
    AllInTime b voices voices' (List.zipWith Track.fit ratios tracks)
      (List.zipWith Track.fit ratios tracks') := by
  induction same generalizing ratios with
  | nil =>
      cases ratios with
      | nil => exact .nil
      | cons ratio ratios => cases each
  | cons first _ ih =>
      cases ratios with
      | nil => cases each
      | cons ratio ratios =>
          refine .cons ?_ (ih (Nat.succ.inj each))
          cases ratio with
          | none => exact first
          | some ratio => exact first.scale ratio

end AllInTime

/-- Voices that are alike but for pitch, volume and slurs, and end under the same slur. -/
def Alike (b : Build) (voice voice' : Voice) : Prop :=
  bare voice = bare voice' ∧ (slurs b voice).getLast? = (slurs b voice').getLast?

/-- Fragments of voices that are alike. -/
structure FragmentAlike (b : Build) (fragment fragment' : Fragment) : Prop where
  rhythm : fragment.rhythm = fragment'.rhythm
  voices : List.Forall₂ (Alike b) fragment.voices fragment'.voices

theorem tracksAt_inTime (noteLength : Binary64) (root root' : Int32) (rhythm rhythm' : Rhythm)
    (alike : List.Forall₂ (Alike b) voices voices') (alike_sung : bare sung = bare sung') :
    AllInTime b voices voices' (tracksAt ⟨noteLength, root, b⟩ rhythm sung voices)
      (tracksAt ⟨noteLength, root', b⟩ rhythm' sung' voices') := by
  induction alike generalizing sung sung' with
  | nil => exact .nil
  | @cons voice voice' voices voices' first _ ih =>
      have next : bare (sung ++ voice) = bare (sung' ++ voice') := by
        rw [bare_append, bare_append, alike_sung, first.1]
      exact .cons (trackAt_inTime first.1 alike_sung first.2) (ih next)

theorem bare_flatten (alike : List.Forall₂ (Alike b) voices voices') :
    bare voices.flatten = bare voices'.flatten := by
  induction alike with
  | nil => rfl
  | cons first _ ih =>
      rw [List.flatten_cons, List.flatten_cons, bare_append, bare_append, first.1, ih]

theorem finalRhythm_eq {fragment fragment' : Fragment}
    (alike : FragmentAlike b fragment fragment') :
    finalRhythm fragment = finalRhythm fragment' := by
  rw [finalRhythm, finalRhythm, ← latest_bare silent_rhythm?, bare_flatten alike.voices,
    latest_bare silent_rhythm?, alike.rhythm]

theorem playFragment_inTime {noteLength : Binary64} {root root' : Int32}
    {fragment fragment' : Fragment} (alike : FragmentAlike b fragment fragment')
    (plays : playFragment ⟨noteLength, root, b⟩ fragment = .ok tracks)
    (plays' : playFragment ⟨noteLength, root', b⟩ fragment' = .ok tracks') :
    AllInTime b fragment.voices fragment'.voices tracks tracks' := by
  have nothing : bare [] = bare [] := rfl
  have drafts :=
    tracksAt_inTime noteLength root root' fragment.rhythm fragment'.rhythm alike.voices nothing
  have lined := playFragment_trackAt plays
  have lined' := playFragment_trackAt plays'
  dsimp only at lined lined'
  rw [← finalRhythm_eq alike] at lined'
  split at lined
  · next relative =>
      rw [if_pos relative] at lined'
      -- Equal ends make equal ratios.
      rw [lined.eq_zipWith, lined'.eq_zipWith, ← drafts.map_finish]
      exact drafts.fit ((length_ratios _).trans (List.length_map _))
  · next absolute =>
      rw [if_neg absolute] at lined'
      rw [lined, lined']
      exact drafts

theorem scheduleFrom_inTime {noteLength start : Binary64} {root root' : Int32}
    {fragments fragments' : List Fragment}
    (alike : List.Forall₂ (FragmentAlike b) fragments fragments')
    (scheduled : scheduleFrom ⟨noteLength, root, b⟩ start fragments = .ok tracks)
    (scheduled' : scheduleFrom ⟨noteLength, root', b⟩ start fragments' = .ok tracks') :
    AllInTime b (fragments.flatMap Fragment.voices) (fragments'.flatMap Fragment.voices)
      tracks tracks' := by
  induction alike generalizing start tracks tracks' with
  | nil =>
      obtain rfl := scheduleFrom_nil_eq_ok_iff.mp scheduled
      obtain rfl := scheduleFrom_nil_eq_ok_iff.mp scheduled'
      exact .nil
  | @cons fragment fragment' _ _ first _ ih =>
      obtain ⟨played, placed, later, plays, places, continued, rfl⟩ :=
        scheduleFrom_cons_eq_ok_iff.mp scheduled
      obtain ⟨played', placed', later', plays', places', continued', rfl⟩ :=
        scheduleFrom_cons_eq_ok_iff.mp scheduled'
      -- Fragments in time end together, so what follows them starts together.
      have inTime : AllInTime b fragment.voices fragment'.voices placed placed' := by
        obtain ⟨_, rfl⟩ := places_iff.mp places
        obtain ⟨_, rfl⟩ := places_iff.mp places'
        exact (playFragment_inTime first plays plays').shift start
      rw [← inTime.latestFinish_eq] at continued'
      exact inTime.append (ih continued continued')

theorem fragmentAlike_of_bare {fragment fragment' : Fragment}
    (same : fragment.bare = fragment'.bare) (ends : fragment.lastSlurs b = fragment'.lastSlurs b) :
    FragmentAlike b fragment fragment' := by
  obtain ⟨voices, rhythm⟩ := Fragment.mk.inj same
  refine ⟨rhythm, ?_⟩
  rw [Fragment.lastSlurs, Fragment.lastSlurs] at ends
  rw [← List.forall₂_eq_eq_eq, List.forall₂_map_left_iff, List.forall₂_map_right_iff] at voices ends
  exact List.Forall₂.mp (fun _ _ same last => ⟨same, last⟩) voices ends

theorem forall₂_fragmentAlike {fragments fragments' : List Fragment}
    (same : fragments.map Fragment.bare = fragments'.map Fragment.bare)
    (ends : fragments.map (Fragment.lastSlurs b) = fragments'.map (Fragment.lastSlurs b)) :
    List.Forall₂ (FragmentAlike b) fragments fragments' := by
  rw [← List.forall₂_eq_eq_eq, List.forall₂_map_left_iff, List.forall₂_map_right_iff] at same ends
  exact List.Forall₂.mp (fun _ _ => fragmentAlike_of_bare) same ends

/-- Pitches, volumes and slurs of a score, and the root note, have no say in its times, as long as
the last note of each voice is under the same slur. -/
theorem schedule_times_of_bare (noteLength : Binary64) (root root' : Int32) (b : Build)
    (fragments fragments' : List Fragment) (tracks tracks' : List Track)
    (same : fragments.map Fragment.bare = fragments'.map Fragment.bare)
    (ends : fragments.map (Fragment.lastSlurs b) = fragments'.map (Fragment.lastSlurs b))
    (scheduled : schedule ⟨noteLength, root, b⟩ fragments = .ok tracks)
    (scheduled' : schedule ⟨noteLength, root', b⟩ fragments' = .ok tracks') :
    AllInTime b (fragments.flatMap Fragment.voices) (fragments'.flatMap Fragment.voices)
      tracks tracks' :=
  scheduleFrom_inTime (forall₂_fragmentAlike same ends) scheduled scheduled'

/-- Two notes against one, and one after them; once plain, and once with other pitches, a volume and
a slur that is taken back before the last note. -/
theorem schedule_plain_and_slurred :
    let plain : List Fragment :=
      [{ voices := [[.note ⟨0, 0⟩, .note ⟨0, 0⟩], [.note ⟨0, 0⟩]] },
        { voices := [[.note ⟨0, 0⟩]] }]
    let slurred : List Fragment :=
      [{ voices :=
          [[.directive ⟨.slurUp, none⟩, .note ⟨4, 0⟩, .directive ⟨.slurDown, none⟩, .note ⟨7, 0⟩],
            [.directive ⟨.octaveUp, none⟩, .directive ⟨.volume, some "0.5"⟩, .note ⟨2, 0⟩]] },
        { voices := [[.note ⟨9, 0⟩]] }]
    let tracks : List Track :=
      [{ events := [⟨0, 1 / 2, 1 / 2, 48, 1⟩, ⟨1 / 2, 1 / 2, 1 / 2, 48, 1⟩] },
        { events := [⟨0, 1, 1, 48, 1⟩] }, { events := [⟨1, 1, 1, 48, 1⟩] }]
    let tracks' : List Track :=
      [{ events := [⟨0, 1, 1 / 2, 54, 1⟩, ⟨1 / 2, 1 / 2, 1 / 2, 57, 1⟩] },
        { events := [⟨0, 1, 1, 64, 1 / 2⟩] }, { events := [⟨1, 1, 1, 59, 1⟩] }]
    plain.map Fragment.bare = slurred.map Fragment.bare ∧
      plain.map (Fragment.lastSlurs .checked) = slurred.map (Fragment.lastSlurs .checked) ∧
      schedule ⟨1, 48, .checked⟩ plain = .ok tracks ∧
      schedule ⟨1, 50, .checked⟩ slurred = .ok tracks' ∧
      AllInTime .checked (plain.flatMap Fragment.voices) (slurred.flatMap Fragment.voices)
        tracks tracks' := by
  intro plain slurred tracks tracks'
  have same : plain.map Fragment.bare = slurred.map Fragment.bare := by decide
  have ends : plain.map (Fragment.lastSlurs .checked) =
      slurred.map (Fragment.lastSlurs .checked) := by decide
  have scheduled : schedule ⟨1, 48, .checked⟩ plain = .ok tracks := by decide +kernel
  have scheduled' : schedule ⟨1, 50, .checked⟩ slurred = .ok tracks' := by decide +kernel
  exact ⟨same, ends, scheduled, scheduled',
    schedule_times_of_bare 1 48 50 .checked plain slurred tracks tracks' same ends scheduled
      scheduled'⟩

end Polyphony.Timeline
