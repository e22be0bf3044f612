import Polyphony.Proofs.Binary64.Accuracy
import Polyphony.Proofs.Timeline.Audible

/-! Only the last event of a voice decides where it ends. That end is rounded before the voice is
stretched, the ratio is, both times of the event are when they are scaled, and so is their sum. Away
from underflow each is off by a `2^53`-rd at most, and all of it by less than eight of those. -/
namespace Polyphony.Timeline

open Score (Fragment)
open Score.Directive (Usable)

variable {o : Options} {fragment : Fragment} {scope : FragmentScope} {e : Event}
  {ratio target : Binary64} {track last : Track} {others results : List Track}

/-- No event sounds for longer than it is held. -/
theorem Event.Forward.value_max (forward : e.Forward) (finite : e.finish.isFinite) :
    (e.held.max e.played).value = e.held.value := by
  have lasts := (Binary64.isFinite_of_add finite).2
  exact (Binary64.value_max_of_le (forward.held_finite lasts) forward.played_le_held).2

theorem Event.Forward.finish_approximates (forward : e.Forward) (finite : e.finish.isFinite) :
    e.finish.Approximates (e.start.value + e.held.value) := by
  rw [← forward.value_max finite]
  exact Binary64.add_approximates forward.start_nonneg
    (max_nonneg forward.held_nonneg forward.played_nonneg) finite

/-- Scaling an event does not underflow: what was not zero is at least the least normal number
after. How long it sounds does not matter, since it is held for no less. -/
structure Event.StaysNormal (e : Event) (ratio : Binary64) : Prop where
  start : e.start.value = 0 ∨ 1 / 2 ^ 1022 ≤ (e.scale ratio).start.value
  held : e.held.value = 0 ∨ 1 / 2 ^ 1022 ≤ (e.scale ratio).held.value

/-- An event with a finite end that is not rounded. -/
structure Event.EndsExactly (e : Event) : Prop where
  finite : e.finish.isFinite
  sum : e.finish.value = e.start.value + (e.held.max e.played).value

/-- Neither the times of an event are rounded when it is scaled, nor its end before and after. -/
structure Event.ScalesExactly (e : Event) (ratio : Binary64) : Prop where
  before : e.EndsExactly
  start : (e.scale ratio).start.value = e.start.value * ratio.value
  held : (e.scale ratio).held.value = e.held.value * ratio.value
  after : (e.scale ratio).EndsExactly

/-- The roundings of an end, of the ratio that brings it to `target`, and of all that is scaled. -/
theorem abs_sub_le_of_roundings {start held finish ratio target start' held' finish' : ℚ}
    (finish_pos : 0 < finish) (ratio_nonneg : 0 ≤ ratio) (target_pos : 0 < target)
    (before : |finish - (start + held)| ≤ finish / 2 ^ 53)
    (quotient : |ratio - target / finish| ≤ ratio / 2 ^ 53)
    (starts : |start' - start * ratio| ≤ start' / 2 ^ 53)
    (holds : |held' - held * ratio| ≤ held' / 2 ^ 53)
    (after : |finish' - (start' + held')| ≤ finish' / 2 ^ 53) :
    |finish' - target| ≤ 1 / 2 ^ 50 * target := by
  -- both sides of the first two roundings are brought to the scale of the others
  have reached : |finish * ratio - target| ≤ finish * ratio / 2 ^ 53 := by
    calc |finish * ratio - target| = finish * |ratio - target / finish| := by
          rw [← abs_of_pos finish_pos, ← abs_mul, abs_of_pos finish_pos, mul_sub,
            mul_div_cancel₀ _ finish_pos.ne']
      _ ≤ finish * (ratio / 2 ^ 53) := by gcongr
      _ = finish * ratio / 2 ^ 53 := (mul_div_assoc ..).symm
  have split : |finish * ratio - (start * ratio + held * ratio)| ≤ finish * ratio / 2 ^ 53 := by
    calc |finish * ratio - (start * ratio + held * ratio)|
        = |finish - (start + held)| * ratio := by
          rw [← add_mul, ← sub_mul, abs_mul, abs_of_nonneg ratio_nonneg]
      _ ≤ finish / 2 ^ 53 * ratio := by gcongr
      _ = finish * ratio / 2 ^ 53 := div_mul_eq_mul_div ..
  rw [abs_le] at reached split starts holds after ⊢
  constructor <;> linarith

/-- An event that is to be scaled to end at `target`. -/
structure Event.Scalable (target : Binary64) (e : Event) : Prop extends e.Drafted where
  finish_pos : 0 < e.finish
  finish_finite : e.finish.isFinite
  target_pos : 0 < target
  ratio_finite : (target / e.finish).isFinite

theorem Event.Scalable.target_finite (scalable : e.Scalable target) : target.isFinite :=
  Binary64.isFinite_of_div scalable.ratio_finite scalable.finish_finite

theorem Event.Scalable.ratio_nonneg (scalable : e.Scalable target) : 0 ≤ target / e.finish :=
  Binary64.div_nonneg (Binary64.le_of_lt scalable.target_pos) scalable.finish_pos
    (Binary64.isNaN_of_isFinite scalable.ratio_finite)

theorem Event.Scalable.scale_forward (scalable : e.Scalable target) :
    (e.scale (target / e.finish)).Forward :=
  Timeline.scale_forward scalable.toDrafted scalable.ratio_finite scalable.ratio_nonneg

theorem Event.Scalable.finish_near (scalable : e.Scalable target)
    (normal : 1 / 2 ^ 1022 ≤ (target / e.finish).value)
    (stays : e.StaysNormal (target / e.finish))
    (finite : (e.scale (target / e.finish)).finish.isFinite) :
    |(e.scale (target / e.finish)).finish.value - target.value| ≤ 1 / 2 ^ 50 * target.value := by
  obtain ⟨starts_finite, lasts⟩ := Binary64.isFinite_of_add finite
  have forward := scalable.scale_forward
  have ratio := Binary64.div_approximates scalable.target_finite scalable.finish_finite
    (Binary64.le_of_lt scalable.target_pos) scalable.finish_pos scalable.ratio_finite normal
  have starts := Binary64.mul_approximates scalable.start_finite scalable.ratio_finite
    scalable.start_nonneg scalable.ratio_nonneg starts_finite stays.start
  have holds := Binary64.mul_approximates scalable.held_finite scalable.ratio_finite
    scalable.toForward.held_nonneg scalable.ratio_nonneg (forward.held_finite lasts) stays.held
  exact abs_sub_le_of_roundings
    (Binary64.value_pos scalable.finish_finite scalable.finish_pos)
    (Binary64.value_nonneg scalable.ratio_finite scalable.ratio_nonneg)
    (Binary64.value_pos scalable.target_finite scalable.target_pos)
    (scalable.toForward.finish_approximates scalable.finish_finite) ratio starts holds
    (forward.finish_approximates finite)

theorem Event.Scalable.finish_eq (scalable : e.Scalable target)
    (quotient : (target / e.finish).value = target.value / e.finish.value)
    (exactly : e.ScalesExactly (target / e.finish)) :
    (e.scale (target / e.finish)).finish = target := by
  have finish_pos := Binary64.value_pos scalable.finish_finite scalable.finish_pos
  have target_pos := Binary64.value_pos scalable.target_finite scalable.target_pos
  have before := exactly.before.sum
  rw [scalable.toForward.value_max scalable.finish_finite] at before
  have after := exactly.after.sum
  rw [scalable.scale_forward.value_max exactly.after.finite] at after
  have same : (e.scale (target / e.finish)).finish.value = target.value := by
    calc (e.scale (target / e.finish)).finish.value
        = (e.start.value + e.held.value) * (target / e.finish).value := by
          rw [after, exactly.start, exactly.held, add_mul]
      _ = e.finish.value * (target.value / e.finish.value) := by
          rw [← before, quotient]
      _ = target.value := mul_div_cancel₀ _ finish_pos.ne'
  exact Binary64.eq_of_value (same ▸ target_pos) same

theorem Track.finish_of_getLast? (ends : track.events.getLast? = some e) :
    track.finish = e.finish := by
  rw [Track.finish, ends]
  rfl

theorem Track.finish_scale (ends : track.events.getLast? = some e) :
    (track.scale ratio).finish = (e.scale ratio).finish := by
  apply Track.finish_of_getLast?
  rw [Track.scale, List.getLast?_map, ends]
  rfl

/-- A track that ends after zero has a last event. -/
theorem Track.exists_last_of_finish_pos (sounds : 0 < track.finish) :
    ∃ e, track.events.getLast? = some e := by
  cases ends : track.events.getLast? with
  | some e => exact ⟨e, rfl⟩
  | none =>
      have zero : track.finish = .zero false := by rw [Track.finish, ends]; rfl
      rw [zero] at sounds
      exact absurd sounds (by decide +kernel)

theorem align_concat (target : 0 < last.finish) (aligned : align (others ++ [last]) = .ok results) :
    (∀ track ∈ others, 0 < track.finish → (last.finish / track.finish).isFinite) ∧
      results = others.map (Track.stretched last.finish) ++ [last] := by
  generalize same : others ++ [last] = drafts at aligned
  cases align_eq_ok_iff.mp aligned with
  | none => exact absurd same (List.concat_ne_nil last others)
  | silent _ _ ends =>
      obtain ⟨rfl, lasts⟩ := List.append_inj' same rfl
      cases lasts
      exact absurd target (Binary64.not_lt_of_le ends)
  | stretched _ _ _ ends each =>
      obtain ⟨rfl, lasts⟩ := List.append_inj' same rfl
      cases lasts
      obtain ⟨finite, rfl⟩ := stretches_iff.mp each
      exact ⟨finite, rfl⟩

/-- A voice that is stretched ends where the last voice does: within a `2^50`-th where nothing
underflows or overflows, and on the spot where nothing is rounded. -/
theorem align_ends_together {i : Nat} (usable : Usable o.noteLength)
    (played : playVoices o ⟨o.noteLength, fragment.rhythm⟩ fragment.voices =
      .ok (others ++ [last], scope))
    (target : 0 < last.finish) (found : others[i]? = some track) (sounds : 0 < track.finish)
    (finite : track.finish.isFinite) (aligned : align (others ++ [last]) = .ok results) :
    ∃ result e, results[i]? = some result ∧ track.events.getLast? = some e ∧
      results.getLast? = some last ∧ last.finish.isFinite ∧
      (1 / 2 ^ 1022 ≤ (last.finish / track.finish).value →
        e.StaysNormal (last.finish / track.finish) → result.finish.isFinite →
          |result.finish.value - last.finish.value| ≤ 1 / 2 ^ 50 * last.finish.value) ∧
      ((last.finish / track.finish).value = last.finish.value / track.finish.value →
        e.ScalesExactly (last.finish / track.finish) → result.finish = last.finish) := by
  obtain ⟨e, ends⟩ := Track.exists_last_of_finish_pos sounds
  have ends_at := Track.finish_of_getLast? ends
  obtain ⟨ratio_finite, rfl⟩ := align_concat target aligned
  have member := List.mem_of_getElem? found
  have drafted : track.Drafted :=
    (playVoices_played played usable track (List.mem_append_left _ member)).drafted
  have scalable : e.Scalable last.finish :=
    { toDrafted := drafted e (List.mem_of_getLast? ends)
      finish_pos := ends_at ▸ sounds
      finish_finite := ends_at ▸ finite
      target_pos := target
      ratio_finite := ends_at ▸ ratio_finite track member sounds }
  have stretched : track.stretched last.finish = track.scale (last.finish / track.finish) :=
    if_pos sounds
  refine ⟨track.stretched last.finish, e, ?_, ends, List.getLast?_concat, scalable.target_finite,
    ?_, ?_⟩
  · obtain ⟨bound, _⟩ := List.getElem?_eq_some_iff.mp found
    rw [List.getElem?_append_left (by rwa [List.length_map]), List.getElem?_map, found]
    rfl
  · rw [stretched, Track.finish_scale ends, ends_at]
    exact scalable.finish_near
  · rw [stretched, Track.finish_scale ends, ends_at]
    exact scalable.finish_eq

/-- Seven notes and four notes against three: four go into three exactly, and seven do not. -/
def sevenAndFourAgainstThree : Fragment :=
  { voices :=
      [List.replicate 7 (.note ⟨0, 0⟩), List.replicate 4 (.note ⟨0, 0⟩),
        List.replicate 3 (.note ⟨3, 0⟩)] }

/-- Notes of one second, one after the other. -/
def beats (count : Nat) (pitch : Int) : Track :=
  { events := (List.range count).map fun k => ⟨.ofNat k, 1, 1, pitch, 1⟩ }

theorem align_sevenAndFourAgainstThree :
    let o : Options := {}
    Score.lex "0000000:0000:333".toList = .ok [sevenAndFourAgainstThree] ∧
      playVoices o ⟨o.noteLength, sevenAndFourAgainstThree.rhythm⟩
          sevenAndFourAgainstThree.voices =
        .ok ([beats 7 48, beats 4 48] ++ [beats 3 51], ⟨1, .relative⟩) ∧
      ∃ seven four, align [beats 7 48, beats 4 48, beats 3 51] = .ok [seven, four, beats 3 51] ∧
        |seven.finish.value - 3| ≤ 1 / 2 ^ 50 * 3 ∧ four.finish = 3 := by
  intro o
  have usable : Usable o.noteLength := ⟨by decide +kernel, by decide +kernel⟩
  have played : playVoices o ⟨o.noteLength, sevenAndFourAgainstThree.rhythm⟩
        sevenAndFourAgainstThree.voices =
      .ok ([beats 7 48, beats 4 48] ++ [beats 3 51], ⟨1, .relative⟩) := by decide +kernel
  have ends : (beats 3 51).finish = 3 := by decide +kernel
  have value : (3 : Binary64).value = 3 := by decide +kernel
  have aligned : align [beats 7 48, beats 4 48, beats 3 51] =
      .ok [(beats 7 48).scale (3 / 7), (beats 4 48).scale (3 / 4), beats 3 51] := by decide +kernel
  refine ⟨by decide +kernel, played, _, _, aligned, ?_, ?_⟩
  · obtain ⟨seven, e, found, last, _, _, near, _⟩ :=
      align_ends_together (i := 0) usable played (by decide +kernel) rfl (by decide +kernel)
        (by decide +kernel) aligned
    have seventh : (beats 7 48).events.getLast? = some ⟨6, 1, 1, 48, 1⟩ := by decide +kernel
    obtain rfl := Option.some.inj (seventh.symm.trans last)
    cases found
    rw [ends, value] at near
    exact near (by decide +kernel) ⟨by decide +kernel, by decide +kernel⟩ (by decide +kernel)
  · obtain ⟨four, e, found, last, _, _, _, same⟩ :=
      align_ends_together (i := 1) usable played (by decide +kernel) rfl (by decide +kernel)
        (by decide +kernel) aligned
    have fourth : (beats 4 48).events.getLast? = some ⟨3, 1, 1, 48, 1⟩ := by decide +kernel
    obtain rfl := Option.some.inj (fourth.symm.trans last)
    cases found
    rw [ends] at same
    exact same (by decide +kernel)
      { before := ⟨by decide +kernel, by decide +kernel⟩
        start := by decide +kernel
        held := by decide +kernel
        after := ⟨by decide +kernel, by decide +kernel⟩ }

end Polyphony.Timeline
