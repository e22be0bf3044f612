import Polyphony.Proofs.InStep
import Polyphony.Proofs.Scoping

/-! Voices share the note length and the rhythm of their fragment, and nothing else. Where no voice
sets either, each is played as if it were alone, so their order is only heard of as the order of
their tracks. The last voice keeps its place if the others are aligned with it. -/
namespace Polyphony.Score

/-- The voice sets nothing that the voices after it share. -/
def KeepsToItself (voice : Voice) : Prop :=
  ∀ d ∈ directives voice, ¬ d.Shared

instance (voice : Voice) : Decidable (KeepsToItself voice) :=
  inferInstanceAs (Decidable (∀ d ∈ directives voice, _))

theorem KeepsToItself.of_cons {token : Token} {rest : Voice}
    (apart : KeepsToItself (token :: rest)) : KeepsToItself rest := by
  intro d member
  obtain ⟨token', inside, carries⟩ := List.mem_filterMap.mp member
  exact apart d (List.mem_filterMap.mpr ⟨token', List.mem_cons_of_mem _ inside, carries⟩)

end Polyphony.Score

namespace Polyphony.Timeline

open Score
open Score.Directive (Usable)

variable {o : Options} {s next last : Scope} {scope : FragmentScope}
  {rhythm : Rhythm} {front front' back : List Voice} {token : Token} {tokens voice : Voice}
  {events : List Event} {start : Binary64} {tracks tracks' : List Track} {others : Nat}

theorem run_fragment (run : s.Run tokens events last) (apart : KeepsToItself tokens) :
    last.fragment = s.fragment := by
  induction run with
  | done s => rfl
  | step first run ih =>
      rw [ih apart.of_cons]
      apply step_fragment first
      rintro d rfl
      exact apart d List.mem_cons_self

/-- The track of a voice that is played in this scope, whatever is played after it. -/
def playAlone (o : Options) (scope : FragmentScope) (voice : Voice) : Except Fault Track :=
  (Scope.playAll ⟨scope, .start o⟩ voice).map fun played => { events := played.1 }

theorem playAlone_eq_ok_iff (o : Options) (rhythm : Rhythm) (voice : Voice) (track : Track) :
    playAlone o ⟨o.noteLength, rhythm⟩ voice = .ok track ↔
      (∃ played, Scope.playAll ⟨⟨o.noteLength, rhythm⟩, .start o⟩ voice =
        .ok played) ∧ trackAt o rhythm [] voice = track := by
  rw [playAlone, map_eq_ok_iff]
  have same : ∀ played,
      Scope.playAll ⟨⟨o.noteLength, rhythm⟩, .start o⟩ voice = .ok played →
        trackAt o rhythm [] voice = { events := played.1 } := by
    rintro ⟨events, ended⟩ given
    obtain ⟨last, run, _⟩ := playAll_eq_ok_iff.mp given
    have inForce := run_scopeAt run (scopeAt_nil o rhythm [])
    rw [inForce.1, trackAt]
  constructor
  · rintro ⟨played, given, rfl⟩
    exact ⟨⟨played, given⟩, same played given⟩
  · rintro ⟨⟨played, given⟩, rfl⟩
    exact ⟨played, given, (same played given).symm⟩

/-- Voices that keep to themselves are played one by one, each in the scope of the first. -/
theorem playVoices_eq_mapM {voices : List Voice} (apart : ∀ voice ∈ voices, KeepsToItself voice) :
    playVoices o scope voices =
      (voices.mapM (playAlone o scope)).map fun tracks => (tracks, scope) := by
  induction voices with
  | nil => rfl
  | cons voice voices ih =>
      rw [List.mapM_cons, playVoices, playAlone]
      cases played : Scope.playAll ⟨scope, .start o⟩ voice with
      | error fault => rfl
      | ok result =>
          obtain ⟨events, inner⟩ := result
          obtain ⟨last, run, rfl⟩ := playAll_eq_ok_iff.mp played
          have same := run_fragment run (apart voice List.mem_cons_self)
          have rest := ih fun voice member => apart voice (List.mem_cons_of_mem _ member)
          rw [same]
          change playVoices o scope voices >>= _ = Except.map _ (_ >>= _)
          rw [rest]
          cases voices.mapM (playAlone o scope) <;> rfl

theorem align_shuffled (shuffled : Shuffled front front' others tracks tracks')
    (reordered : front.Perm front') (fixed : front ≠ [] → others ≠ 0) :
    InStep (fun _ _ => True) (Shuffled front front' others) (align tracks) (align tracks') := by
  obtain ⟨make, rest, rfl, rfl, rfl⟩ := shuffled
  rcases List.eq_nil_or_concat' rest with rfl | ⟨rest, last, rfl⟩
  · obtain rfl : front = [] := by
      by_contra voices
      exact fixed voices rfl
    obtain rfl := List.nil_perm.mp reordered
    exact .give ⟨make, [], rfl, rfl, rfl⟩
  · have shuffled : Shuffled front front' rest.length (front.map make ++ rest)
        (front'.map make ++ rest) := ⟨make, rest, rfl, rfl, rfl⟩
    rw [← List.append_assoc, ← List.append_assoc, align_concat_eq, align_concat_eq,
      List.length_append]
    split
    · exact .give (shuffled.append_right [last])
    · refine .bind (shuffled.mapM reordered fun track result =>
        stretch_eq_ok_iff.trans (and_congr_right' eq_comm)) ?_
      intro stretched stretched' _ _ shuffled
      exact .give (shuffled.append_right [last])

/-- Only where tracks end tells where the next fragment starts. -/
theorem latestFinish_perm (reordered : tracks.Perm tracks')
    (unsigned : ∀ track ∈ tracks, track.finish.Unsigned) :
    latestFinish start tracks = latestFinish start tracks' := by
  apply Binary64.foldl_max_perm ((reordered.filter _).map _)
  intro time member
  obtain ⟨track, found, rfl⟩ := List.mem_map.mp member
  exact unsigned track (List.mem_of_mem_filter found)

theorem playFragment_shuffled (reordered : front.Perm front')
    (fixed : rhythm = .relative → front ≠ [] → back ≠ [])
    (apart : ∀ voice ∈ front ++ back, KeepsToItself voice) :
    InStep (fun _ _ => True) (Shuffled front front' back.length)
      (playFragment o { voices := front ++ back, rhythm })
      (playFragment o { voices := front' ++ back, rhythm }) := by
  have apart' : ∀ voice ∈ front' ++ back, KeepsToItself voice := fun voice member =>
    apart voice ((reordered.append_right back).mem_iff.mpr member)
  have voices : Shuffled front front' back.length (front ++ back) (front' ++ back) :=
    ⟨id, back, rfl, by rw [List.map_id], by rw [List.map_id]⟩
  have tracks := voices.mapM reordered (playAlone_eq_ok_iff o rhythm)
  rw [playFragment, playFragment, playVoices_eq_mapM apart, playVoices_eq_mapM apart']
  rcases tracks.cases_on with ⟨_, _, _, failed, failed'⟩ | ⟨_, _, shuffled, given, given'⟩
  · rw [failed, failed']
    exact .fail trivial
  · rw [given, given']
    change InStep _ _ (if rhythm = .relative then align _ else _)
      (if rhythm = .relative then align _ else _)
    by_cases relative : rhythm = .relative
    · rw [if_pos relative, if_pos relative]
      apply align_shuffled shuffled reordered
      intro some none
      exact fixed relative some (List.length_eq_zero_iff.mp none)
    · rw [if_neg relative, if_neg relative]
      exact .give shuffled

/-- The fragments after it start when they did. -/
theorem scheduleFrom_shuffled (usable : Usable o.noteLength) (startable : Startable start)
    (after : List Fragment) (reordered : front.Perm front')
    (fixed : rhythm = .relative → front ≠ [] → back ≠ [])
    (apart : ∀ voice ∈ front ++ back, KeepsToItself voice) :
    InStep (fun _ _ => True)
      (Shuffled front front' (back.length + (after.flatMap Fragment.voices).length))
      (scheduleFrom o start ({ voices := front ++ back, rhythm } :: after))
      (scheduleFrom o start ({ voices := front' ++ back, rhythm } :: after)) := by
  refine .bind (playFragment_shuffled reordered fixed apart) ?_
  intro played played' plays _ shuffled
  refine .bind (shuffled.mapM reordered fun _ _ => place_eq_ok_iff) ?_
  intro placed placed' places _ shuffled
  obtain ⟨ends, moved⟩ := places_iff.mp (mapM_eq_ok_iff.mp places)
  have placedFrom := playFragment_placedFrom usable plays startable ends
  rw [moved] at placedFrom
  have unsigned := fun track member => (placedFrom track member).finish_unsigned
  rw [latestFinish_perm (shuffled.perm reordered) unsigned]
  refine .bind (.refl (fun _ => trivial) fun _ _ => rfl) ?_
  rintro later _ continued _ rfl
  rw [(scheduleFrom_renders continued).length_eq]
  exact .give (shuffled.append_right later)

/-- The voices of a fragment may be written in any order if none of them sets anything they share,
and if that voice stays last with which the others are aligned. The score is scheduled or refused as
before, and its tracks are those from before, in the order of their voices. -/
theorem schedule_voices_reordered (o : Options) (usable : Usable o.noteLength)
    (before after : List Fragment) (rhythm : Rhythm) (front front' back : List Voice)
    (reordered : front.Perm front') (fixed : rhythm = .relative → front ≠ [] → back ≠ [])
    (apart : ∀ voice ∈ front ++ back, KeepsToItself voice) :
    let score := fun front => before ++ { voices := front ++ back, rhythm } :: after
    (∃ fault fault', schedule o (score front) = .error fault ∧
      schedule o (score front') = .error fault') ∨
    ∃ (earlier rest : List Track) (make : Voice → Track),
      earlier.length = (before.flatMap Fragment.voices).length ∧
      schedule o (score front) = .ok (earlier ++ (front.map make ++ rest)) ∧
      schedule o (score front') = .ok (earlier ++ (front'.map make ++ rest)) := by
  intro score
  have steps : InStep (fun _ _ => True) (fun tracks tracks' => ∃ earlier shuffled shuffled',
        earlier.length = (before.flatMap Fragment.voices).length ∧
        Shuffled front front' (back.length + (after.flatMap Fragment.voices).length)
          shuffled shuffled' ∧
        tracks = earlier ++ shuffled ∧ tracks' = earlier ++ shuffled')
      (schedule o (score front)) (schedule o (score front')) := by
    rw [schedule, schedule, scheduleFrom_append_eq, scheduleFrom_append_eq]
    refine .bind (.refl (fun _ => trivial) fun _ _ => rfl) ?_
    rintro earlier _ begun _ rfl
    have placed := scheduleFrom_placedFrom usable startable_zero begun
    have startable := (startable_latestFinish startable_zero placed).1
    refine .bind (scheduleFrom_shuffled usable startable after reordered fixed apart) ?_
    intro tracks tracks' _ _ shuffled
    exact .give ⟨earlier, tracks, tracks', (scheduleFrom_renders begun).length_eq.symm, shuffled,
      rfl, rfl⟩
  rcases steps.cases_on with ⟨fault, fault', _, failed, failed'⟩ | ⟨_, _, whole, given, given'⟩
  · exact .inl ⟨fault, fault', failed, failed'⟩
  · obtain ⟨earlier, _, _, length, ⟨make, rest, _, rfl, rfl⟩, rfl, rfl⟩ := whole
    exact .inr ⟨earlier, rest, make, length, given, given'⟩

/-- Two voices, an octave lower and in long loud notes, change places in front of a third one, with
which both of them are aligned. A fragment before them and one after them stay as they are. -/
theorem schedule_low_and_loud :
    let low : Voice := [.directive ⟨.octaveDown, none⟩, .note ⟨0, 0⟩, .note ⟨2, 0⟩]
    let loud : Voice := [.directive ⟨.volume, some "2"⟩, .chord [⟨4, 2⟩, ⟨7, 2⟩]]
    let before : List Fragment := [{ voices := [[.note ⟨0, 0⟩]] }]
    let after : List Fragment := [{ voices := [[.note ⟨9, 0⟩]] }]
    let score := fun front =>
      before ++ { voices := front ++ [[.note ⟨5, 0⟩]], rhythm := .relative } :: after
    let earlier : List Track := [{ events := [⟨0, 1, 1, 48, 1⟩] }]
    let lowered : Track := { events := [⟨1, 1 / 2, 1 / 2, 36, 1⟩, ⟨3 / 2, 1 / 2, 1 / 2, 38, 1⟩] }
    let louder : Track := { events := [⟨1, 1, 1, 52, 2⟩, ⟨1, 1, 1, 55, 2⟩] }
    let rest : List Track := [{ events := [⟨1, 1, 1, 53, 1⟩] }, { events := [⟨2, 1, 1, 57, 1⟩] }]
    schedule {} (score [low, loud]) = .ok (earlier ++ [lowered, louder] ++ rest) ∧
      schedule {} (score [loud, low]) = .ok (earlier ++ [louder, lowered] ++ rest) ∧
      ∃ (earlier rest : List Track) (make : Voice → Track), earlier.length = 1 ∧
        schedule {} (score [low, loud]) = .ok (earlier ++ ([low, loud].map make ++ rest)) ∧
        schedule {} (score [loud, low]) = .ok (earlier ++ ([loud, low].map make ++ rest)) := by
  intro low loud before after score earlier lowered louder rest
  have scheduled : schedule {} (score [low, loud]) =
      .ok (earlier ++ [lowered, louder] ++ rest) := by decide +kernel
  have scheduled' : schedule {} (score [loud, low]) =
      .ok (earlier ++ [louder, lowered] ++ rest) := by decide +kernel
  refine ⟨scheduled, scheduled', ?_⟩
  have usable : Usable (Options.noteLength {}) := ⟨by decide +kernel, by decide +kernel⟩
  have apart : ∀ voice ∈ [low, loud] ++ [[.note ⟨5, 0⟩]], KeepsToItself voice := by decide
  rcases schedule_voices_reordered {} usable before after .relative [low, loud] [loud, low]
    [[.note ⟨5, 0⟩]] (.swap loud low []) (fun _ _ => List.cons_ne_nil _ _) apart with
    ⟨fault, _, failed, _⟩ | given
  · rw [scheduled] at failed
    cases failed
  · exact given

end Polyphony.Timeline
