import Mathlib.Logic.Basic
import Polyphony.Timeline.Playable

/-! Tracks are looked through in order and the events of each in order, and an event is held against
the rules in order. What is reported is the first rule that the first such event breaks. -/
namespace Polyphony

section

variable {α β : Type} {f : α × Nat → Option β} {P : α → Prop} {items : List α} {b : β}

theorem findSome?_zipIdx_eq_none_iff (passes : ∀ a i, f (a, i) = none ↔ P a) :
    items.zipIdx.findSome? f = none ↔ ∀ a ∈ items, P a := by
  rw [List.findSome?_eq_none_iff]
  constructor
  · intro none a member
    obtain ⟨i, found⟩ := List.mem_iff_getElem?.mp member
    exact (passes a i).mp (none (a, i) (List.mem_zipIdx_iff_getElem?.mpr found))
  · rintro all ⟨a, i⟩ member
    exact (passes a i).mpr (all a (List.fst_mem_of_mem_zipIdx member))

theorem exists_of_findSome?_zipIdx (passes : ∀ a i, f (a, i) = none ↔ P a)
    (found : items.zipIdx.findSome? f = some b) :
    ∃ i a, items[i]? = some a ∧ f (a, i) = some b ∧ ∀ j < i, ∀ c, items[j]? = some c → P c := by
  obtain ⟨before, ⟨a, i⟩, after, cut, hit, missed⟩ := List.findSome?_eq_some_iff.mp found
  obtain ⟨front, back, rfl, rfl, rest⟩ := List.zipIdx_eq_append_iff.mp cut
  obtain ⟨a, back, rfl, same, _⟩ := List.zipIdx_eq_cons_iff.mp rest.symm
  obtain ⟨rfl, rfl⟩ := Prod.mk.inj same
  rw [Nat.zero_add] at hit
  have stands : (front ++ a :: back)[front.length]? = some a := by
    rw [List.getElem?_append_right (Nat.le_refl _), Nat.sub_self]
    rfl
  refine ⟨front.length, a, stands, hit, ?_⟩
  intro j early c stands
  rw [List.getElem?_append_left early] at stands
  exact (passes c j).mp (missed (c, j) (List.mem_zipIdx_iff_getElem?.mpr stands))

/-- The first item that is not passed over is the one that is found. -/
theorem findSome?_zipIdx_eq_some_iff (passes : ∀ a i, f (a, i) = none ↔ P a) :
    items.zipIdx.findSome? f = some b ↔
      ∃ i a, items[i]? = some a ∧ f (a, i) = some b ∧ ∀ j < i, ∀ c, items[j]? = some c → P c := by
  refine ⟨exists_of_findSome?_zipIdx passes, ?_⟩
  rintro ⟨i, a, stands, hit, earlier⟩
  have fails : ¬ P a := by
    rw [← passes a i, hit]
    exact Option.some_ne_none b
  cases found : items.zipIdx.findSome? f with
  | none =>
      have all := (findSome?_zipIdx_eq_none_iff passes).mp found
      exact absurd (all a (List.mem_of_getElem? stands)) fails
  | some b' =>
      obtain ⟨i', a', stands', hit', earlier'⟩ := exists_of_findSome?_zipIdx passes found
      rcases Nat.lt_trichotomy i i' with before | rfl | after
      · exact absurd (earlier' i before a stands) fails
      · obtain rfl := Option.some.inj (stands.symm.trans stands')
        exact hit'.symm.trans hit
      · have passed := (passes a' i').mpr (earlier i' after a' stands')
        cases passed.symm.trans hit'

end

namespace Timeline

variable {e : Event} {v w : Violation} {tracks first second : List Track} {u : Unplayable}

theorem onKeyboard_iff {pitch : Int} :
    Keyboard.onKeyboard pitch = true ↔ 0 ≤ pitch ∧ pitch < 88 := by
  rw [Keyboard.onKeyboard, Bool.and_eq_true, decide_eq_true_iff, decide_eq_true_iff]
  rfl

/-- The event breaks the rule, whatever it does to the others. -/
inductive Event.Breaks (e : Event) : Violation → Prop where
  | volume (outside : ¬ (0 < e.volume ∧ e.volume ≤ 1)) : Breaks e (.volume e.volume)
  | pitch (outside : ¬ (0 ≤ e.pitch ∧ e.pitch < 88)) : Breaks e (.pitch e.pitch)
  | start (invalid : ¬ (e.start.isFinite ∧ 0 ≤ e.start)) : Breaks e (.start e.start)
  | durations (shorter : e.held < e.played) : Breaks e (.durations e.held e.played)

/-- Where the rule stands in the order that the rules are looked at. -/
def Violation.rank : Violation → Nat
  | .volume _ => 0
  | .pitch _ => 1
  | .start _ => 2
  | .durations _ _ => 3

/-- Of the rules that the event breaks, the first. -/
def Event.BreaksFirst (e : Event) (v : Violation) : Prop :=
  e.Breaks v ∧ ∀ w, e.Breaks w → v.rank ≤ w.rank

theorem Event.Breaks.eq_of_rank (first : e.Breaks v) (second : e.Breaks w)
    (same : v.rank = w.rank) : v = w := by
  cases first <;> cases second <;> first | rfl | cases same

theorem Event.BreaksFirst.unique (first : e.BreaksFirst v) (second : e.BreaksFirst w) : v = w :=
  first.1.eq_of_rank second.1 (Nat.le_antisymm (first.2 w second.1) (second.2 v first.1))

/-- Either no rule is broken, or the first that is broken is reported. -/
theorem violation?_cases (e : Event) :
    (e.violation? = none ∧ ∀ v, ¬ e.Breaks v) ∨ ∃ v, e.violation? = some v ∧ e.BreaksFirst v := by
  unfold Event.violation?
  by_cases loud : 0 < e.volume ∧ e.volume ≤ 1
  case neg => exact .inr ⟨_, if_pos loud, .volume loud, fun w _ => Nat.zero_le w.rank⟩
  rw [if_neg (not_not.mpr loud)]
  by_cases on : 0 ≤ e.pitch ∧ e.pitch < 88
  case neg =>
    have off : (!Keyboard.onKeyboard e.pitch) = true := by
      rwa [Bool.not_eq_true', ← Bool.not_eq_true, onKeyboard_iff]
    refine .inr ⟨_, if_pos off, .pitch on, ?_⟩
    intro w breaks
    cases breaks with
    | volume outside => exact absurd loud outside
    | _ => exact Nat.le_of_ble_eq_true rfl
  rw [onKeyboard_iff.mpr on, Bool.not_true, if_neg Bool.false_ne_true]
  by_cases starts : e.start.isFinite ∧ 0 ≤ e.start
  case neg =>
    refine .inr ⟨_, if_pos starts, .start starts, ?_⟩
    intro w breaks
    cases breaks with
    | volume outside => exact absurd loud outside
    | pitch outside => exact absurd on outside
    | _ => exact Nat.le_of_ble_eq_true rfl
  rw [if_neg (not_not.mpr starts)]
  by_cases shorter : e.held < e.played
  case pos =>
    refine .inr ⟨_, if_pos shorter, .durations shorter, ?_⟩
    intro w breaks
    cases breaks with
    | volume outside => exact absurd loud outside
    | pitch outside => exact absurd on outside
    | start invalid => exact absurd starts invalid
    | durations _ => exact Nat.le_refl 3
  refine .inl ⟨if_neg shorter, ?_⟩
  intro v breaks
  cases breaks with
  | volume outside => exact outside loud
  | pitch outside => exact outside on
  | start invalid => exact invalid starts
  | durations shorter' => exact shorter shorter'

theorem violation?_eq_none_iff : e.violation? = none ↔ ∀ v, ¬ e.Breaks v := by
  rcases violation?_cases e with ⟨none, unbroken⟩ | ⟨v, found, breaks, _⟩
  · exact iff_of_true none unbroken
  · rw [found]
    exact iff_of_false (Option.some_ne_none v) fun unbroken => unbroken v breaks

theorem violation?_eq_some_iff : e.violation? = some v ↔ e.BreaksFirst v := by
  rcases violation?_cases e with ⟨none, unbroken⟩ | ⟨w, found, first⟩
  · rw [none]
    exact iff_of_false (fun h => by cases h) fun first => unbroken v first.1
  · rw [found, Option.some.injEq]
    constructor
    · rintro rfl
      exact first
    · exact first.unique

/-- The event at the place breaks the rule first, and no event before it breaks any: none in the
tracks before, and none before it in its own. -/
structure FirstUnplayable (tracks : List Track) (u : Unplayable) : Prop where
  broken : ∃ track event, tracks[u.track]? = some track ∧ track.events[u.event]? = some event ∧
    event.BreaksFirst u.violation
  earlier : ∀ (i j : Nat) (track : Track) (event : Event), tracks[i]? = some track →
    track.events[j]? = some event → (i < u.track ∨ i = u.track ∧ j < u.event) →
    ∀ v, ¬ event.Breaks v

/-- What is found in one track, which is named by its index. -/
def Track.unplayable? (t : Nat) (track : Track) : Option Unplayable :=
  track.events.zipIdx.findSome? fun (event, e) =>
    event.violation?.map fun violation => { track := t, event := e, violation }

theorem unplayable?_eq (tracks : List Track) :
    unplayable? tracks = tracks.zipIdx.findSome? fun (track, t) => track.unplayable? t := rfl

theorem track_unplayable?_eq_none_iff {t : Nat} {track : Track} :
    track.unplayable? t = none ↔ ∀ event ∈ track.events, ∀ v, ¬ event.Breaks v :=
  findSome?_zipIdx_eq_none_iff fun _ _ => Option.map_eq_none_iff.trans violation?_eq_none_iff

theorem track_unplayable?_eq_some_iff {t : Nat} {track : Track} :
    track.unplayable? t = some u ↔ u.track = t ∧ ∃ event, track.events[u.event]? = some event ∧
      event.BreaksFirst u.violation ∧
      ∀ j < u.event, ∀ earlier, track.events[j]? = some earlier → ∀ v, ¬ earlier.Breaks v := by
  refine Iff.trans (findSome?_zipIdx_eq_some_iff fun _ _ =>
    Option.map_eq_none_iff.trans violation?_eq_none_iff) ?_
  constructor
  · rintro ⟨e, event, inTrack, found, earlier⟩
    obtain ⟨violation, breaks, rfl⟩ := Option.map_eq_some_iff.mp found
    exact ⟨rfl, event, inTrack, violation?_eq_some_iff.mp breaks, earlier⟩
  · rintro ⟨rfl, event, inTrack, breaks, earlier⟩
    exact ⟨u.event, event, inTrack,
      Option.map_eq_some_iff.mpr ⟨u.violation, violation?_eq_some_iff.mpr breaks, rfl⟩, earlier⟩

theorem unplayable?_eq_none_iff :
    unplayable? tracks = none ↔
      ∀ track ∈ tracks, ∀ event ∈ track.events, ∀ v, ¬ event.Breaks v := by
  rw [unplayable?_eq]
  exact findSome?_zipIdx_eq_none_iff fun _ _ => track_unplayable?_eq_none_iff

theorem unplayable?_eq_some_iff : unplayable? tracks = some u ↔ FirstUnplayable tracks u := by
  rw [unplayable?_eq]
  refine Iff.trans (findSome?_zipIdx_eq_some_iff fun _ _ => track_unplayable?_eq_none_iff) ?_
  constructor
  · rintro ⟨t, track, inTracks, found, before⟩
    obtain ⟨rfl, event, inTrack, breaks, inFront⟩ := track_unplayable?_eq_some_iff.mp found
    refine ⟨⟨track, event, inTracks, inTrack, breaks⟩, ?_⟩
    rintro i j track' event' stands inside (sooner | ⟨rfl, sooner⟩)
    · exact before i sooner track' stands event' (List.mem_of_getElem? inside)
    · obtain rfl := Option.some.inj (inTracks.symm.trans stands)
      exact inFront j sooner event' inside
  · rintro ⟨⟨track, event, inTracks, inTrack, breaks⟩, earlier⟩
    refine ⟨u.track, track, inTracks, ?_, ?_⟩
    · refine track_unplayable?_eq_some_iff.mpr ⟨rfl, event, inTrack, breaks, ?_⟩
      intro j sooner event' inside
      exact earlier u.track j track event' inTracks inside (.inr ⟨rfl, sooner⟩)
    · intro i sooner track' stands event' member
      obtain ⟨j, inside⟩ := List.mem_iff_getElem?.mp member
      exact earlier i j track' event' stands inside (.inl sooner)

/-- The same event, with other tracks in front of its own. -/
def Unplayable.behind (count : Nat) (u : Unplayable) : Unplayable :=
  { u with track := count + u.track }

end Timeline
end Polyphony
