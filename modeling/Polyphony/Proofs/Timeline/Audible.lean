import Polyphony.Compile
import Polyphony.Proofs.Timeline.Placement

/-! Notes are lost in one place only, where voices are stretched to end together: a voice that has
no end is scaled by zero, and a note that is short enough is rounded to nothing. Neither is refused.
-/
namespace Polyphony.Timeline

open Score (Fragment)
open Score.Directive (Usable)

variable {o : Options} {start target : Binary64} {track result : Track}
  {drafts played placed : List Track} {fragment : Fragment}

/-- Every note that sounds in the first track sounds in the second. -/
def Track.KeepsSounding (track result : Track) : Prop :=
  List.Forall₂ (fun e e' => 0 < e.played → 0 < e'.played) track.events result.events

theorem keepsSounding_self (track : Track) : track.KeepsSounding track :=
  List.forall₂_same.mpr fun _ _ => id

theorem keepsSounding_shift : track.KeepsSounding (result.shift start) ↔
    track.KeepsSounding result :=
  List.forall₂_map_right_iff

theorem keepsSounding_scale {ratio : Binary64} : track.KeepsSounding (track.scale ratio) ↔
    ∀ event ∈ track.events, 0 < event.played → 0 < event.played * ratio :=
  List.forall₂_map_right_iff.trans List.forall₂_same

/-- The track that ends at `target`, unless it ends at zero. -/
def Track.stretched (target : Binary64) (track : Track) : Track :=
  if 0 < track.finish then track.scale (target / track.finish) else track

theorem stretches_iff :
    List.Forall₂ (fun track result => stretch target track = .ok result) drafts played ↔
      (∀ track ∈ drafts, 0 < track.finish → (target / track.finish).isFinite) ∧
        drafts.map (Track.stretched target) = played := by
  have same : (fun track result => stretch target track = .ok result) = fun track result =>
      (0 < track.finish → (target / track.finish).isFinite) ∧ track.stretched target = result := by
    ext track result
    rw [stretch_eq_ok_iff, eq_comm (a := result)]
    rfl
  rw [same, List.forall₂_and_left, ← List.forall₂_map_left_iff, List.forall₂_eq_eq_eq]

/-- A track that has an end, and notes long enough for the ratio it is scaled by. -/
def Track.Stretchable (target : Binary64) (track : Track) : Prop :=
  0 < track.finish → track.finish.isFinite ∧ ∀ event ∈ track.events, 0 < event.played →
    Binary64.ProductExceedsHalf event.played (target / track.finish)

instance (target : Binary64) (track : Track) : Decidable (track.Stretchable target) :=
  inferInstanceAs (Decidable (_ → _ ∧ _))

theorem stretched_keepsSounding_iff (drafted : track.Drafted) (nonneg : 0 ≤ target)
    (ratio : 0 < track.finish → (target / track.finish).isFinite) :
    track.finish.isFinite ∧ track.KeepsSounding (track.stretched target) ↔
      track.Stretchable target := by
  unfold Track.stretched Track.Stretchable
  by_cases sounds : 0 < track.finish
  · have finite := ratio sounds
    have number := Binary64.isNaN_of_isFinite finite
    have each : ∀ event ∈ track.events, 0 < event.played * (target / track.finish) ↔
        Binary64.ProductExceedsHalf event.played (target / track.finish) := fun event member =>
      Binary64.mul_pos_iff (drafted event member).played_finite finite
        (drafted event member).played_nonneg (Binary64.div_nonneg nonneg sounds number)
    rw [if_pos sounds, keepsSounding_scale, forall_prop_of_true sounds]
    exact and_congr_right' (forall₂_congr fun event member => imp_congr_right fun _ =>
      each event member)
  · rw [if_neg sounds]
    refine iff_of_true ⟨?_, keepsSounding_self track⟩ fun ends => absurd ends sounds
    exact Binary64.isFinite_of_not_pos (finish_nonneg_of_drafted drafted) sounds

/-- No draft is endless, and none loses a note. -/
structure Heard (drafts results : List Track) : Prop where
  ends : ∀ draft ∈ drafts, draft.finish.isFinite
  sounds : List.Forall₂ Track.KeepsSounding drafts results

theorem heard_shift : Heard drafts (played.map (·.shift start)) ↔ Heard drafts played := by
  have same : List.Forall₂ Track.KeepsSounding drafts (played.map (·.shift start)) ↔
      List.Forall₂ Track.KeepsSounding drafts played := by
    rw [List.forall₂_map_right_iff]
    simp only [keepsSounding_shift]
  constructor
  · rintro ⟨ends, sounds⟩
    exact ⟨ends, same.mp sounds⟩
  · rintro ⟨ends, sounds⟩
    exact ⟨ends, same.mpr sounds⟩

theorem heard_map {change : Track → Track} : Heard drafts (drafts.map change) ↔
    ∀ draft ∈ drafts, draft.finish.isFinite ∧ draft.KeepsSounding (change draft) := by
  have each : List.Forall₂ Track.KeepsSounding drafts (drafts.map change) ↔
      ∀ draft ∈ drafts, draft.KeepsSounding (change draft) := by
    rw [List.forall₂_map_right_iff, List.forall₂_same]
  constructor
  · rintro ⟨ends, sounds⟩ draft member
    exact ⟨ends draft member, each.mp sounds draft member⟩
  · intro both
    exact ⟨fun draft member => (both draft member).1,
      each.mpr fun draft member => (both draft member).2⟩

theorem heard_self (ends : ∀ draft ∈ drafts, draft.finish.isFinite) : Heard drafts drafts :=
  ⟨ends, List.forall₂_same.mpr fun track _ => keepsSounding_self track⟩

/-- What it takes to end all voices with the last of them. -/
def Alignable (drafts : List Track) : Prop :=
  ∀ last ∈ drafts.getLast?, 0 < last.finish → ∀ track ∈ drafts.dropLast,
    track.Stretchable last.finish

instance (drafts : List Track) : Decidable (Alignable drafts) :=
  inferInstanceAs (Decidable (∀ _ ∈ _, _ → _))

theorem alignable_concat {others : List Track} {last : Track} :
    Alignable (others ++ [last]) ↔
      (0 < last.finish → ∀ track ∈ others, track.Stretchable last.finish) := by
  simp [Alignable]

theorem heard_concat {others results : List Track} {last : Track} :
    Heard (others ++ [last]) (results ++ [last]) ↔
      Heard others results ∧ last.finish.isFinite := by
  constructor
  · rintro ⟨ends, sounds⟩
    obtain ⟨left, right, heads, tails, joined⟩ := forall₂_append_left sounds
    obtain ⟨_, _, _, none, rfl⟩ := List.forall₂_cons_left_iff.mp tails
    cases none
    obtain ⟨rfl, _⟩ := List.append_inj' joined rfl
    exact ⟨⟨fun track member => ends track (List.mem_append_left _ member), heads⟩,
      ends last List.mem_concat_self⟩
  · rintro ⟨⟨ends, sounds⟩, finite⟩
    refine ⟨?_, List.rel_append sounds (.cons (keepsSounding_self last) .nil)⟩
    intro track member
    rcases List.mem_append.mp member with found | found
    · exact ends track found
    · rwa [List.mem_singleton.mp found]

/-- A track that alignment returns as it is has an end, since otherwise it could not be placed. -/
theorem aligned_heard_iff (aligned : Aligned drafts played)
    (drafted : ∀ draft ∈ drafts, draft.Drafted)
    (kept : ∀ draft ∈ drafts, draft ∈ played → draft.finish.isFinite) :
    Heard drafts played ↔ Alignable drafts := by
  cases aligned with
  | none => exact iff_of_true (heard_self (List.forall_mem_nil _)) (by rintro last ⟨⟩)
  | silent others last ends =>
      refine iff_of_true (heard_self fun draft member => kept draft member member) ?_
      exact alignable_concat.mpr fun sounds => absurd sounds (Binary64.not_lt_of_le ends)
  | stretched others results last ends each =>
      obtain ⟨ratios, rfl⟩ := stretches_iff.mp each
      obtain ⟨before, last_drafted⟩ := List.forall_mem_append.mp drafted
      have member : last ∈ [last] := List.mem_singleton_self last
      have nonneg := finish_nonneg_of_drafted (last_drafted last member)
      have positive : 0 < last.finish := by
        by_contra silent
        exact ends (Binary64.nonpos_of_not_pos (Binary64.isNaN_right_of_le nonneg) silent)
      have finite := kept last (List.mem_append_right _ member) (List.mem_append_right _ member)
      rw [heard_concat, and_iff_left finite, heard_map, alignable_concat,
        forall_prop_of_true positive]
      exact forall₂_congr fun track member =>
        stretched_keepsSounding_iff (before track member) nonneg (ratios track member)

/-- An unscaled track has an end if it can be placed at all. -/
theorem finish_isFinite_of_place (drafted : track.Drafted) (unsigned : track.Unsigned)
    (startable : Startable start)
    (ends : ∀ event ∈ (track.shift start).events, event.finish.isFinite) :
    track.finish.isFinite := by
  have le : Binary64.zero false ≤ start := by
    rw [← Binary64.ofNat_zero]
    exact startable.toUnsigned.nonneg
  have placed := place_earlier (fun event member => (drafted event member).toForward)
    startable_zero le ends
  rw [unsigned.shift_zero] at placed
  exact finish_isFinite_of placed.1

theorem fragment_heard_iff (usable : Usable o.noteLength) (startable : Startable start)
    (plays : playFragment o fragment = .ok played)
    (places : List.Forall₂ (fun track result => place start track = .ok result) played placed) :
    ∃ drafts scope,
      playVoices o ⟨o.noteLength, fragment.rhythm⟩ fragment.voices = .ok (drafts, scope) ∧
      placed.length = drafts.length ∧
      (Heard drafts placed ↔ (scope.rhythm = .relative → Alignable drafts)) := by
  obtain ⟨drafts, scope, voices, lined⟩ := playFragment_eq_ok_iff.mp plays
  obtain ⟨ends, rfl⟩ := places_iff.mp places
  have drafted : ∀ draft ∈ drafts, draft.Drafted := fun draft member =>
    (playVoices_played voices usable draft member).drafted
  have kept : ∀ draft ∈ drafts, draft ∈ played → draft.finish.isFinite := fun draft member found =>
    finish_isFinite_of_place (drafted draft member) (playVoices_unsigned voices usable draft member)
      startable (ends draft found)
  refine ⟨drafts, scope, voices, ?_, ?_⟩
  · rw [List.length_map]
    split at lined
    · exact lined.fitted.length_eq.symm
    · rw [lined]
  · rw [heard_shift]
    split at lined
    · next relative =>
        rw [forall_prop_of_true relative]
        exact aligned_heard_iff lined drafted kept
    · next absolute =>
        subst lined
        exact iff_of_true (heard_self fun draft member => kept draft member member)
          fun relative => absurd relative absolute

/-- A fragment in relative rhythm is returned with all its notes exactly when its voices can be
aligned without loss, and every other fragment always is. -/
theorem schedule_heard_iff (o : Options) (fragments : List Fragment) (tracks : List Track)
    (usable : Usable o.noteLength) (scheduled : schedule o fragments = .ok tracks) :
    ∃ parts : List (List Track), tracks = parts.flatten ∧ parts.length = fragments.length ∧
      ∀ (k : Nat) (fragment : Fragment) (part : List Track), fragments[k]? = some fragment →
        parts[k]? = some part → ∃ drafts scope,
          playVoices o ⟨o.noteLength, fragment.rhythm⟩ fragment.voices =
            .ok (drafts, scope) ∧
          part.length = drafts.length ∧
          (Heard drafts part ↔ (scope.rhythm = .relative → Alignable drafts)) := by
  obtain ⟨parts, rfl, same, each⟩ := scheduleFrom_parts scheduled
  refine ⟨parts, rfl, same, ?_⟩
  intro k fragment part found foundPart
  obtain ⟨played, plays, places⟩ := each k fragment part found foundPart
  have before : ∀ track ∈ (parts.take k).flatten, track.PlacedFrom (.zero false) := by
    intro track member
    obtain ⟨earlier, taken, inside⟩ := List.mem_flatten.mp member
    exact scheduleFrom_placedFrom usable startable_zero scheduled track
      (List.mem_flatten.mpr ⟨earlier, List.mem_of_mem_take taken, inside⟩)
  exact fragment_heard_iff usable (startable_latestFinish startable_zero before).1 plays places

/-- Two notes against one, squeezed to half their length. -/
def twoAgainstOne : Fragment := { voices := [[.note ⟨0, 0⟩, .note ⟨2, 0⟩], [.note ⟨4, 0⟩]] }

def twoAgainstOneDrafts : List Track :=
  [{ events := [⟨0, 1, 1, 48, 1⟩, ⟨1, 1, 1, 50, 1⟩] }, { events := [⟨0, 1, 1, 52, 1⟩] }]

def twoAgainstOneTracks : List Track :=
  [{ events := [⟨0, 1 / 2, 1 / 2, 48, 1⟩, ⟨1 / 2, 1 / 2, 1 / 2, 50, 1⟩] },
    { events := [⟨0, 1, 1, 52, 1⟩] }]

theorem schedule_twoAgainstOne :
    schedule {} [twoAgainstOne] = .ok twoAgainstOneTracks ∧
      playVoices {} ⟨1, twoAgainstOne.rhythm⟩ twoAgainstOne.voices =
        .ok (twoAgainstOneDrafts, ⟨1, .relative⟩) ∧
      Alignable twoAgainstOneDrafts ∧ Heard twoAgainstOneDrafts twoAgainstOneTracks := by
  have scheduled : schedule {} [twoAgainstOne] = .ok twoAgainstOneTracks := by decide +kernel
  have voices : playVoices {} ⟨1, twoAgainstOne.rhythm⟩ twoAgainstOne.voices =
      .ok (twoAgainstOneDrafts, ⟨1, .relative⟩) := by decide +kernel
  have alignable : Alignable twoAgainstOneDrafts := by decide +kernel
  have usable : Usable ({} : Options).noteLength := ⟨by decide +kernel, by decide +kernel⟩
  obtain ⟨parts, flat, same, each⟩ := schedule_heard_iff {} _ _ usable scheduled
  obtain ⟨part, rfl⟩ := List.length_eq_one_iff.mp same
  obtain ⟨drafts, scope, plays, _, heard⟩ := each 0 _ part rfl rfl
  obtain ⟨rfl, rfl⟩ := Prod.mk.inj (Except.ok.inj (voices.symm.trans plays))
  rw [List.flatten_singleton] at flat
  rw [flat]
  exact ⟨flat ▸ scheduled, voices, alignable, heard.mpr fun _ => alignable⟩

/-- A voice of two notes, the second held for longer than there is time, before one of a second. -/
def heldForever : Fragment :=
  { voices :=
      [[.directive ⟨.noteLength, some "1E308"⟩, .note ⟨0, 0⟩, .note ⟨0, -1⟩],
        [.directive ⟨.noteLength, some "1"⟩, .note ⟨0, 0⟩]] }

def heldForeverDrafts : List Track :=
  let long : Binary64 := .ofNat (10 ^ 308)
  [{ events := [⟨0, long, long, 48, 1⟩, ⟨long, long, long / 2, 48, 1⟩] },
    { events := [⟨0, 1, 1, 48, 1⟩] }]

/-- Both notes of the first voice sound until the voices are aligned, and neither does after. -/
theorem compile_heldForever :
    Score.lex (Score.normalise "\x7bnotelength=1e308\x7d00':\x7bnotelength=1\x7d0".toList) =
        .ok [heldForever] ∧
      playVoices {} ⟨1, heldForever.rhythm⟩ heldForever.voices =
        .ok (heldForeverDrafts, ⟨1, .relative⟩) ∧
      heldForeverDrafts.map Track.finish = [.infinite false, 1] ∧
      (∀ draft ∈ heldForeverDrafts, ∀ event ∈ draft.events, 0 < event.played) ∧
      compile {} "\x7bnotelength=1e308\x7d00':\x7bnotelength=1\x7d0" = .ok
        [{ events := [⟨0, 0, 0, 48, 1⟩, ⟨0, 0, 0, 48, 1⟩] }, { events := [⟨0, 1, 1, 48, 1⟩] }] := by
  refine ⟨?_, ?_, ?_, ?_, ?_⟩
  · decide +kernel
  · decide +kernel
  · decide +kernel
  · decide +kernel
  · decide +kernel

end Polyphony.Timeline
