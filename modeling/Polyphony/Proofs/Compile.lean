import Polyphony.Compile
import Polyphony.Proofs.Timeline.Playable
import Polyphony.Proofs.Timeline.Timing

/-! The stages of a successful compile, and what a player may expect of its tracks. -/
namespace Polyphony

open Score (Fragment)
open Score.Directive (Usable)
open Timeline

variable {o : Options} {source : String} {tracks : List Track} {event : Event} {error : Error}

theorem check_eq_ok_iff : o.check = .ok () ↔ Usable o.noteLength :=
  ite_eq_ok_iff.trans (and_iff_left rfl)

theorem compile_eq_ok_iff :
    compile o source = .ok tracks ↔ Usable o.noteLength ∧
      ∃ fragments, Score.lex (Score.normalise source.toList) = .ok fragments ∧
        schedule o fragments = .ok tracks := by
  constructor
  · intro compiled
    obtain ⟨⟨⟩, checked, compiled⟩ := bind_eq_ok_iff.mp compiled
    obtain ⟨fragments, lexed, scheduled⟩ := bind_eq_ok_iff.mp compiled
    refine ⟨check_eq_ok_iff.mp checked, fragments, mapError_eq_ok_iff.mp lexed, ?_⟩
    exact mapError_eq_ok_iff.mp scheduled
  · rintro ⟨usable, fragments, lexed, scheduled⟩
    refine bind_eq_ok_iff.mpr ⟨(), check_eq_ok_iff.mpr usable, ?_⟩
    refine bind_eq_ok_iff.mpr ⟨fragments, mapError_eq_ok_iff.mpr lexed, ?_⟩
    exact mapError_eq_ok_iff.mpr scheduled

theorem checkPlayable_eq_ok_iff :
    checkPlayable tracks = .ok () ↔
      ∀ track ∈ tracks, ∀ event ∈ track.events, ∀ v, ¬ event.Breaks v := by
  rw [← unplayable?_eq_none_iff, checkPlayable]
  cases unplayable? tracks with
  | none => exact iff_of_true rfl rfl
  | some u => exact iff_of_false (fun h => by cases h) fun h => by cases h

theorem checkPlayable_eq_error_iff : checkPlayable tracks = .error error ↔
    ∃ u, error = .unplayable u ∧ FirstUnplayable tracks u := by
  rw [checkPlayable]
  cases found : unplayable? tracks with
  | none =>
      refine iff_of_false (fun h => by cases h) ?_
      rintro ⟨u, rfl, first⟩
      cases found.symm.trans (unplayable?_eq_some_iff.mpr first)
  | some u =>
      dsimp only
      rw [Except.error.injEq]
      constructor
      · rintro rfl
        exact ⟨u, rfl, unplayable?_eq_some_iff.mp found⟩
      · rintro ⟨u', rfl, first⟩
        rw [Option.some.inj (found.symm.trans (unplayable?_eq_some_iff.mpr first))]

/-- An event whose times are right can still be too loud or off the keyboard. -/
theorem breaks_of_wellTimed (timed : event.WellTimed) {v : Violation} (breaks : event.Breaks v) :
    (∃ volume, v = .volume volume) ∨ ∃ pitch, v = .pitch pitch := by
  cases breaks with
  | volume outside => exact .inl ⟨_, rfl⟩
  | pitch outside => exact .inr ⟨_, rfl⟩
  | start invalid => exact absurd ⟨timed.start_finite, timed.start_nonneg⟩ invalid
  | durations shorter => exact absurd shorter (Binary64.not_lt_of_le timed.played_le_held)

theorem unbroken_iff (timed : event.WellTimed) :
    (∀ v, ¬ event.Breaks v) ↔
      (0 < event.volume ∧ event.volume ≤ 1) ∧ 0 ≤ event.pitch ∧ event.pitch < 88 := by
  constructor
  · intro unbroken
    exact ⟨Decidable.of_not_not fun outside => unbroken _ (.volume outside),
      Decidable.of_not_not fun outside => unbroken _ (.pitch outside)⟩
  · rintro ⟨loud, on⟩ v breaks
    cases breaks with
    | volume outside => exact outside loud
    | pitch outside => exact outside on
    | start invalid => exact invalid ⟨timed.start_finite, timed.start_nonneg⟩
    | durations shorter => exact Binary64.not_lt_of_le timed.played_le_held shorter

theorem compile_tracks_wellTimed (compiled : compile o source = .ok tracks) :
    ∀ track ∈ tracks, ∀ event ∈ track.events, event.WellTimed := by
  obtain ⟨usable, fragments, _, scheduled⟩ := compile_eq_ok_iff.mp compiled
  exact schedule_wellTimed usable scheduled

/-- Whatever compiles is well timed, so only a volume or a pitch can make it unplayable. -/
theorem compile_wellTimed (o : Options) (source : String) (tracks : List Track)
    (compiled : compile o source = .ok tracks) :
    (∀ track ∈ tracks, ∀ event ∈ track.events, event.WellTimed) ∧
      (checkPlayable tracks = .ok () ↔ ∀ track ∈ tracks, ∀ event ∈ track.events,
        (0 < event.volume ∧ event.volume ≤ 1) ∧ 0 ≤ event.pitch ∧ event.pitch < 88) ∧
      ∀ error, checkPlayable tracks = .error error → ∃ u, error = .unplayable u ∧
        ((∃ volume, u.violation = .volume volume) ∨ ∃ pitch, u.violation = .pitch pitch) := by
  have timed := compile_tracks_wellTimed compiled
  refine ⟨timed, ?_, ?_⟩
  · rw [checkPlayable_eq_ok_iff]
    constructor
    · intro passes track member event inside
      exact (unbroken_iff (timed track member event inside)).mp (passes track member event inside)
    · intro ranges track member event inside
      exact (unbroken_iff (timed track member event inside)).mpr (ranges track member event inside)
  · intro error refused
    obtain ⟨u, rfl, first⟩ := checkPlayable_eq_error_iff.mp refused
    obtain ⟨track, event, inTracks, inTrack, breaks, _⟩ := first.broken
    refine ⟨u, rfl, breaks_of_wellTimed ?_ breaks⟩
    exact timed track (List.mem_of_getElem? inTracks) event (List.mem_of_getElem? inTrack)

/-- The first voice is squeezed to half its length, and the second one is off the keyboard. -/
theorem compile_off_keyboard :
    compile {} "[05]1:^^^^2" = .ok
        [{ events := [⟨0, 1 / 2, 1 / 2, 48, 1⟩, ⟨0, 1 / 2, 1 / 2, 53, 1⟩,
            ⟨1 / 2, 1 / 2, 1 / 2, 49, 1⟩] },
          { events := [⟨0, 1, 1, 98, 1⟩] }] ∧
      ¬ ∃ tracks, compile {} "[05]1:^^^^2" = .ok tracks ∧ checkPlayable tracks = .ok () := by
  have compiled : compile {} "[05]1:^^^^2" = .ok
      [{ events := [⟨0, 1 / 2, 1 / 2, 48, 1⟩, ⟨0, 1 / 2, 1 / 2, 53, 1⟩,
          ⟨1 / 2, 1 / 2, 1 / 2, 49, 1⟩] },
        { events := [⟨0, 1, 1, 98, 1⟩] }] := by decide +kernel
  refine ⟨compiled, ?_⟩
  rintro ⟨tracks, again, passes⟩
  obtain rfl := Except.ok.inj (compiled.symm.trans again)
  have ranges := (compile_wellTimed _ _ _ compiled).2.1.mp passes _
    (List.mem_cons_of_mem _ List.mem_cons_self) _ List.mem_cons_self
  exact absurd ranges.2.2 (by decide)

end Polyphony
