import Polyphony.Proofs.Binary64.Product
import Polyphony.Proofs.Compile

/-! The tracks of a score may be scaled and moved by any numbers before they are checked. Volume,
pitch and start are compared so that NaN is refused; the durations are compared so that it is not.
They are NaN when a scaling took them out of range and a later one was by zero. -/
namespace Polyphony

namespace Timeline

/-- What may be done to a track once it is compiled. -/
inductive Adjustment where
  | scale (ratio : Binary64)
  | shift (offset : Binary64)

namespace Adjustment

def event : Adjustment → Event → Event
  | .scale ratio => Event.scale ratio
  | .shift offset => Event.shift offset

def track : Adjustment → Track → Track
  | .scale ratio => Track.scale ratio
  | .shift offset => Track.shift offset

def ratio? : Adjustment → Option Binary64
  | .scale ratio => some ratio
  | .shift _ => none

end Adjustment

variable {adjustments : List Adjustment} {e : Event}

def Track.adjust (t : Track) (adjustments : List Adjustment) : Track :=
  adjustments.foldl (fun t adjustment => adjustment.track t) t

def Event.adjust (e : Event) (adjustments : List Adjustment) : Event :=
  adjustments.foldl (fun e adjustment => adjustment.event e) e

/-- The ratios of the scalings, in order. -/
def Adjustment.ratios (adjustments : List Adjustment) : List Binary64 :=
  adjustments.filterMap Adjustment.ratio?

theorem events_adjust (t : Track) (adjustments : List Adjustment) :
    (t.adjust adjustments).events = t.events.map (·.adjust adjustments) := by
  induction adjustments generalizing t with
  | nil => exact (List.map_id _).symm
  | cons adjustment adjustments ih =>
      have first : (adjustment.track t).events = t.events.map adjustment.event := by
        cases adjustment <;> rfl
      change ((adjustment.track t).adjust adjustments).events = _
      rw [ih, first, List.map_map]
      rfl

theorem adjust_durations (e : Event) (adjustments : List Adjustment) :
    (e.adjust adjustments).held = e.held.product (Adjustment.ratios adjustments) ∧
      (e.adjust adjustments).played = e.played.product (Adjustment.ratios adjustments) := by
  induction adjustments generalizing e with
  | nil => exact ⟨rfl, rfl⟩
  | cons adjustment adjustments ih =>
      cases adjustment with
      | scale ratio => exact ih (e.scale ratio)
      | shift offset => exact ih (e.shift offset)

/-- A start that is finite in the end was finite all along, and so was every ratio. -/
theorem finite_of_adjust (finite : (e.adjust adjustments).start.isFinite) :
    e.start.isFinite ∧ ∀ ratio ∈ Adjustment.ratios adjustments, ratio.isFinite := by
  induction adjustments generalizing e with
  | nil => exact ⟨finite, List.forall_mem_nil _⟩
  | cons adjustment adjustments ih =>
      obtain ⟨moved, rest⟩ := ih (e := adjustment.event e) finite
      cases adjustment with
      | scale ratio =>
          obtain ⟨start, first⟩ := Binary64.isFinite_of_mul moved
          exact ⟨start, List.forall_mem_cons.mpr ⟨first, rest⟩⟩
      | shift offset => exact ⟨(Binary64.isFinite_of_add moved).1, rest⟩

/-- The durations stay in order for as long as the longer one is a number. -/
theorem adjust_played_le_held_iff (timed : e.WellTimed)
    (finite : (e.adjust adjustments).start.isFinite)
    (lasts : ¬ (e.adjust adjustments).held < (e.adjust adjustments).played) :
    (e.adjust adjustments).played ≤ (e.adjust adjustments).held ↔
      ¬ Binary64.Lost e.held (Adjustment.ratios adjustments) := by
  obtain ⟨_, factors⟩ := finite_of_adjust finite
  have held_number := Binary64.isNaN_of_isFinite timed.held_finite
  rw [← Binary64.isNaN_product_iff held_number factors]
  obtain ⟨held, played⟩ := adjust_durations e adjustments
  rw [held, played] at lasts ⊢
  constructor
  · intro le nan
    cases (Binary64.isNaN_right_of_le le).symm.trans nan
  · intro number
    have bounded := Binary64.bounded_of_le timed.played_nonneg timed.played_le_held
    have played_number : ¬ (e.played.product (Adjustment.ratios adjustments)).isNaN = true :=
      fun nan => number ((bounded.product factors).isNaN nan)
    rw [Bool.not_eq_true] at number played_number
    exact Binary64.le_of_not_lt number played_number lasts

/-- Tracks are adjusted one after the other, each told by its index. -/
def adjustTracks (tracks : List Track) (adjustments : List (Nat × Adjustment)) : List Track :=
  adjustments.foldl (fun tracks (i, adjustment) => tracks.modify i adjustment.track) tracks

def adjustmentsOf (i : Nat) (adjustments : List (Nat × Adjustment)) : List Adjustment :=
  adjustments.filterMap fun (k, adjustment) => if k = i then some adjustment else none

theorem adjustmentsOf_cons (i k : Nat) (adjustment : Adjustment)
    (adjustments : List (Nat × Adjustment)) :
    adjustmentsOf i ((k, adjustment) :: adjustments) =
      if k = i then adjustment :: adjustmentsOf i adjustments else adjustmentsOf i adjustments := by
  unfold adjustmentsOf
  split
  · next here => exact List.filterMap_cons_some (if_pos here)
  · next elsewhere => exact List.filterMap_cons_none (if_neg elsewhere)

theorem adjustTracks_getElem? (tracks : List Track) (adjustments : List (Nat × Adjustment))
    (i : Nat) : (adjustTracks tracks adjustments)[i]? =
      tracks[i]?.map (·.adjust (adjustmentsOf i adjustments)) := by
  induction adjustments generalizing tracks with
  | nil => exact Option.map_id'.symm
  | cons first adjustments ih =>
      obtain ⟨k, adjustment⟩ := first
      change (adjustTracks (tracks.modify k adjustment.track) adjustments)[i]? = _
      rw [ih, List.getElem?_modify, adjustmentsOf_cons]
      split
      · cases tracks[i]? <;> rfl
      · cases tracks[i]? <;> rfl

end Timeline

open Timeline

/-- Whatever is done to the tracks of a score, those that are accepted keep the rules for volume,
pitch and start. They keep the one for durations just where the longer duration has not been
lost. -/
theorem adjusted_rules (o : Options) (source : String) (tracks : List Track)
    (adjustments : List (Nat × Adjustment)) (compiled : compile o source = .ok tracks)
    (accepted : checkPlayable (adjustTracks tracks adjustments) = .ok ()) :
    ∀ (i j : Nat) (track : Track) (event : Event),
      (adjustTracks tracks adjustments)[i]? = some track → track.events[j]? = some event →
        (0 < event.volume ∧ event.volume ≤ 1) ∧ (0 ≤ event.pitch ∧ event.pitch < 88) ∧
        (event.start.isFinite ∧ 0 ≤ event.start) ∧
        ∃ before original, tracks[i]? = some before ∧ before.events[j]? = some original ∧
          (event.played ≤ event.held ↔
            ¬ original.held.Lost (Adjustment.ratios (adjustmentsOf i adjustments))) := by
  intro i j track event stands inside
  have unbroken := checkPlayable_eq_ok_iff.mp accepted track (List.mem_of_getElem? stands) event
    (List.mem_of_getElem? inside)
  have loud : 0 < event.volume ∧ event.volume ≤ 1 :=
    Decidable.of_not_not fun outside => unbroken _ (.volume outside)
  have on : 0 ≤ event.pitch ∧ event.pitch < 88 :=
    Decidable.of_not_not fun outside => unbroken _ (.pitch outside)
  have starts : event.start.isFinite ∧ 0 ≤ event.start :=
    Decidable.of_not_not fun invalid => unbroken _ (.start invalid)
  have lasts : ¬ event.held < event.played := fun shorter => unbroken _ (.durations shorter)
  rw [adjustTracks_getElem?] at stands
  obtain ⟨before, found, rfl⟩ := Option.map_eq_some_iff.mp stands
  rw [events_adjust, List.getElem?_map] at inside
  obtain ⟨original, first, rfl⟩ := Option.map_eq_some_iff.mp inside
  have timed := compile_tracks_wellTimed compiled before (List.mem_of_getElem? found) original
    (List.mem_of_getElem? first)
  exact ⟨loud, on, starts, before, original, found, first,
    adjust_played_le_held_iff timed starts.1 lasts⟩

/-- A note doubled, moved and halved again. -/
theorem adjusted_twice :
    let note : Event := ⟨0, 1, 1, 48, 1⟩
    let adjustments : List (Nat × Adjustment) := [(0, .scale 2), (0, .shift 3), (0, .scale (1 / 2))]
    let e : Event := ⟨3 / 2, 1, 1, 48, 1⟩
    compile {} "0" = .ok [{ events := [note] }] ∧
      adjustTracks [{ events := [note] }] adjustments = [{ events := [e] }] ∧
      checkPlayable [{ events := [e] }] = .ok () ∧ (0 < e.volume ∧ e.volume ≤ 1) ∧
      ¬ note.held.Lost [2, 1 / 2] ∧ e.played ≤ e.held := by
  intro note adjustments e
  have compiled : compile {} "0" = .ok [{ events := [note] }] := by decide +kernel
  have adjusted : adjustTracks [{ events := [note] }] adjustments = [{ events := [e] }] := by
    decide +kernel
  have accepted : checkPlayable [{ events := [e] }] = .ok () := by decide +kernel
  obtain ⟨loud, _, _, before, original, found, first, lasts⟩ :=
    adjusted_rules {} "0" [{ events := [note] }] adjustments compiled (adjusted.symm ▸ accepted)
      0 0 { events := [e] } e (by rw [adjusted]; rfl) rfl
  obtain rfl := Option.some.inj found
  obtain rfl := Option.some.inj first
  have kept : ¬ note.held.Lost [2, 1 / 2] := by
    rw [← Binary64.isNaN_product_iff (by decide +kernel) (by decide +kernel)]
    decide +kernel
  exact ⟨compiled, adjusted, accepted, loud, kept, lasts.mpr kept⟩

/-- A note that is doubled out of range and then scaled to nothing has no duration to compare, and
is accepted. -/
theorem accepted_without_duration :
    let long : Binary64 := .ofNat (10 ^ 308)
    let adjustments : List (Nat × Adjustment) := [(0, .scale 2), (0, .scale 0)]
    let e : Event := ⟨0, .nan, .nan, 48, 1⟩
    compile {} "\x7bnotelength=1e308\x7d0" = .ok [{ events := [⟨0, long, long, 48, 1⟩] }] ∧
      adjustTracks [{ events := [⟨0, long, long, 48, 1⟩] }] adjustments = [{ events := [e] }] ∧
      checkPlayable [{ events := [e] }] = .ok () ∧ ¬ e.played ≤ e.held := by
  refine ⟨?_, ?_, ?_, ?_⟩
  · decide +kernel
  · decide +kernel
  · decide +kernel
  · decide +kernel

end Polyphony
