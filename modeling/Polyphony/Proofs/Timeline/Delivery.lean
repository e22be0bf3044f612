import Polyphony.Proofs.Pushes
import Polyphony.Timeline.Transport

/-! However time is cut into polls, a track hands out its events from where it was read up to the
greatest horizon polled, each once and in order. A poll at an earlier time, or at none, hands out
nothing; a rewind begins anew. -/
namespace Polyphony.Binary64

variable {x y : Binary64}

/-- The greatest of some numbers, and NaN when there is none. -/
def greatest (numbers : List Binary64) : Binary64 := numbers.foldr max nan

/-- The greatest of those that are numbers at all. -/
def IsGreatest (numbers : List Binary64) (x : Binary64) : Prop :=
  (∀ y ∈ numbers, y.isNaN = false → y ≤ x) ∧ (x ∈ numbers ∨ x = nan)

theorem isGreatest_greatest (numbers : List Binary64) : IsGreatest numbers (greatest numbers) := by
  induction numbers with
  | nil => exact ⟨List.forall_mem_nil _, .inr rfl⟩
  | cons x rest ih =>
      obtain ⟨bound, among⟩ := ih
      constructor
      · intro y member number
        rcases List.mem_cons.mp member with rfl | later
        · exact le_max_left (greatest rest) number
        · have below := bound y later number
          exact le_trans below (le_max_right x (isNaN_right_of_le below))
      · change max x (greatest rest) ∈ _ ∨ max x (greatest rest) = _
        rcases max_eq_or x (greatest rest) with same | same
        · rw [same]
          exact .inl List.mem_cons_self
        · rw [same]
          exact among.imp_left fun member => List.mem_cons_of_mem _ member

end Polyphony.Binary64

namespace Polyphony.Timeline

open Binary64 (greatest IsGreatest)

variable {events : List Event} {horizon : Binary64} {horizons : List Binary64} {track : Track}

/-- The number of events that start before a horizon. -/
def dueCount (horizon : Binary64) (events : List Event) : Nat :=
  events.countP fun event => event.start < horizon

theorem dueCount_nan (events : List Event) : dueCount .nan events = 0 := by
  apply List.countP_eq_zero.mpr
  intro event _ due
  cases Binary64.isNaN_right_of_lt (of_decide_eq_true due)

theorem dueCount_mono {x y : Binary64} (le : x ≤ y) (events : List Event) :
    dueCount x events ≤ dueCount y events := by
  apply List.countP_mono_left
  intro event _ due
  exact decide_eq_true (Binary64.lt_of_lt_of_le (of_decide_eq_true due) le)

theorem dueCount_max (x y : Binary64) (events : List Event) :
    dueCount (x.max y) events = max (dueCount x events) (dueCount y events) := by
  have left : dueCount x events ≤ dueCount (x.max y) events := by
    cases x with
    | nan => rw [dueCount_nan]; exact Nat.zero_le _
    | _ => exact dueCount_mono (Binary64.le_max_left y rfl) events
  have right : dueCount y events ≤ dueCount (x.max y) events := by
    cases y with
    | nan => rw [dueCount_nan]; exact Nat.zero_le _
    | _ => exact dueCount_mono (Binary64.le_max_right x rfl) events
  rcases Binary64.max_eq_or x y with same | same
  · rw [same] at right ⊢
    exact (Nat.max_eq_left right).symm
  · rw [same] at left ⊢
    exact (Nat.max_eq_right left).symm

theorem dueCount_cons_of_due {first : Event} (due : first.start < horizon) (rest : List Event) :
    dueCount horizon (first :: rest) = dueCount horizon rest + 1 :=
  List.countP_cons_of_pos (decide_eq_true due)

/-- Behind an event that is not due nothing is due. -/
theorem dueCount_of_not_due {first : Event} {rest : List Event} (ordered : InOrder (first :: rest))
    (notDue : ¬ first.start < horizon) :
    dueCount horizon rest = 0 ∧ dueCount horizon (first :: rest) = 0 := by
  have later : dueCount horizon rest = 0 := by
    apply List.countP_eq_zero.mpr
    intro event member due
    have before := (List.pairwise_cons.mp ordered).1 event member
    exact notDue (Binary64.lt_of_le_of_lt before (of_decide_eq_true due))
  refine ⟨later, ?_⟩
  rw [dueCount, List.countP_cons_of_neg (by simpa using notDue)]
  exact later

/-- In events that are in order, those that are due come first. -/
theorem length_takeWhile_due (ordered : InOrder events) (horizon : Binary64) :
    (events.takeWhile fun event => event.start < horizon).length = dueCount horizon events := by
  induction events with
  | nil => rfl
  | cons first rest ih =>
      by_cases due : first.start < horizon
      · rw [dueCount_cons_of_due due, ← ih (List.pairwise_cons.mp ordered).2]
        simp [due]
      · rw [(dueCount_of_not_due ordered due).2]
        simp [due]

theorem dueCount_drop (ordered : InOrder events) (horizon : Binary64) (n : Nat) :
    dueCount horizon (events.drop n) = dueCount horizon events - n := by
  induction events generalizing n with
  | nil => rw [List.drop_nil]; exact (Nat.zero_sub n).symm
  | cons first rest ih =>
      cases n with
      | zero => rfl
      | succ n =>
          rw [List.drop_succ_cons, ih (List.pairwise_cons.mp ordered).2]
          by_cases due : first.start < horizon
          · rw [dueCount_cons_of_due due, Nat.add_sub_add_right]
          · obtain ⟨later, whole⟩ := dueCount_of_not_due ordered due
            rw [later, whole, Nat.zero_sub, Nat.zero_sub]

namespace Track

/-- The events from one index to just before another. -/
def between (t : Track) (first last : Nat) : List Event := (t.events.drop first).take (last - first)

theorem between_self (t : Track) (n : Nat) : t.between n n = [] := by
  rw [between, Nat.sub_self, List.take_zero]

theorem between_append (t : Track) {first middle last : Nat} (le : first ≤ middle)
    (le' : middle ≤ last) :
    t.between first middle ++ t.between middle last = t.between first last := by
  obtain ⟨gap, rfl⟩ := Nat.exists_eq_add_of_le le
  obtain ⟨rest, rfl⟩ := Nat.exists_eq_add_of_le le'
  rw [Nat.add_assoc, between, between, between, Nat.add_sub_cancel_left, Nat.add_sub_cancel_left,
    ← Nat.add_assoc, Nat.add_sub_cancel_left, List.take_add, List.drop_drop]

/-- How far a track is read once it has been polled up to a horizon. -/
def reach (t : Track) (horizon : Binary64) : Nat := max t.position (dueCount horizon t.events)

/-- A poll reads a track on to the first event that is not due. -/
theorem takeBefore_eq (ordered : InOrder track.events) (horizon : Binary64) :
    track.takeBefore horizon =
      (track.between track.position (track.reach horizon),
        { track with position := track.reach horizon }) := by
  have behind : InOrder track.remaining := ordered.sublist (List.drop_sublist _ _)
  have count : (track.remaining.takeWhile fun event => event.start < horizon).length =
      track.reach horizon - track.position := by
    rw [length_takeWhile_due behind, remaining, dueCount_drop ordered, reach]
    omega
  have due : (track.remaining.takeWhile fun event => event.start < horizon) =
      track.between track.position (track.reach horizon) := by
    rw [between, ← count]
    exact List.prefix_iff_eq_take.mp (List.takeWhile_prefix _)
  have length := congrArg List.length due
  rw [count] at length
  have le : track.position ≤ track.reach horizon := Nat.le_max_left _ _
  simp only [takeBefore, due, ← length, Nat.add_sub_cancel' le]

/-- What a track gives to one poll after the other, and the track after the last. -/
def gives (t : Track) : List Binary64 → List (List Event) × Track
  | [] => ([], t)
  | horizon :: rest =>
    let (due, next) := t.takeBefore horizon
    let (later, last) := next.gives rest
    (due :: later, last)

theorem takeBefore_rewind (t : Track) (horizon : Binary64) :
    (t.takeBefore horizon).2.rewind = t.rewind := rfl

theorem length_gives (t : Track) (horizons : List Binary64) :
    (t.gives horizons).1.length = horizons.length := by
  induction horizons generalizing t with
  | nil => rfl
  | cons horizon rest ih => exact congrArg (· + 1) (ih _)

theorem reach_nan (t : Track) : t.reach .nan = t.position := by
  rw [reach, dueCount_nan]
  exact Nat.max_eq_left (Nat.zero_le _)

theorem reach_reach (t : Track) (x y : Binary64) :
    ({ t with position := t.reach x } : Track).reach y = t.reach (x.max y) := by
  simp only [reach, dueCount_max]
  omega

/-- However its polls are cut, a track gives what lies between its position and its reach. -/
theorem gives_eq (ordered : InOrder track.events) (horizons : List Binary64) :
    (track.gives horizons).1.flatten =
        track.between track.position (track.reach (greatest horizons)) ∧
      (track.gives horizons).2 = { track with position := track.reach (greatest horizons) } := by
  induction horizons generalizing track with
  | nil =>
      change [] = track.between _ (track.reach .nan) ∧
        track = { track with position := track.reach .nan }
      rw [reach_nan, between_self]
      exact ⟨rfl, rfl⟩
  | cons horizon rest ih =>
      obtain ⟨later, last⟩ := @ih { track with position := track.reach horizon } ordered
      rw [reach_reach] at later last
      have first : track.position ≤ track.reach horizon := Nat.le_max_left _ _
      have second : track.reach horizon ≤ track.reach (horizon.max (greatest rest)) := by
        simp only [reach, dueCount_max]
        omega
      simp only [gives, takeBefore_eq ordered, List.flatten_cons, later, last]
      exact ⟨between_append track first second, rfl⟩

end Track

/-- What can be asked of a transport. -/
inductive Call where
  | poll (now lookahead : Binary64)
  | rewind

namespace Transport

def answer (t : Transport) : Call → List Event × Transport
  | .poll now lookahead => t.poll now lookahead
  | .rewind => ([], t.rewind)

/-- What each call hands out, and the transport after the last. -/
def answers (t : Transport) : List Call → List (List Event) × Transport
  | [] => ([], t)
  | call :: rest =>
    let (events, next) := t.answer call
    let (later, last) := next.answers rest
    (events :: later, last)

theorem poll_eq (tracks : List Track) (now lookahead : Binary64) :
    (⟨tracks⟩ : Transport).poll now lookahead =
      (tracks.flatMap fun track => (track.takeBefore (now + lookahead)).1,
        ⟨tracks.map fun track => (track.takeBefore (now + lookahead)).2⟩) := by
  simp only [poll, List.flatMap_map, List.map_map]
  rfl

/-- Every track answers polls as if it were alone, and a poll is answered track by track. -/
theorem answers_polls (tracks : List Track) (polls : List (Binary64 × Binary64)) :
    let horizons := polls.map fun p => p.1 + p.2
    (⟨tracks⟩ : Transport).answers (polls.map fun p => .poll p.1 p.2) =
      ((List.range polls.length).map fun j =>
          tracks.flatMap fun track => ((track.gives horizons).1[j]?).getD [],
        ⟨tracks.map fun track => (track.gives horizons).2⟩) := by
  induction polls generalizing tracks with
  | nil =>
      have kept : tracks.map (fun track => track) = tracks := List.map_id tracks
      exact congrArg (fun kept => ([], Transport.mk kept)) kept.symm
  | cons first rest ih =>
      have later := ih (tracks.map fun track => (track.takeBefore (first.1 + first.2)).2)
      simp only [List.flatMap_map, List.map_map] at later
      simp only [List.map_cons, List.length_cons, answers, answer, poll_eq, later,
        List.range_succ_eq_map, List.map_map]
      rfl

/-- A rewind undoes whatever was asked before it. -/
theorem rewind_answers (t : Transport) (calls : List Call) :
    (t.answers calls).2.rewind = t.rewind := by
  induction calls generalizing t with
  | nil => rfl
  | cons call rest ih =>
      rw [answers]
      dsimp only
      rw [ih]
      cases call with
      | poll now lookahead => simp [answer, poll, rewind, Track.takeBefore_rewind]
      | rewind => simp [answer, rewind, Track.rewind]

theorem answers_concat (t : Transport) (calls : List Call) (call : Call) :
    (t.answers (calls ++ [call])).2 = ((t.answers calls).2.answer call).2 := by
  induction calls generalizing t with
  | nil => rfl
  | cons first rest ih => exact ih (t.answer first).2

/-- A transport that is new or just rewound reads its tracks from where they stand, or from their
beginning. -/
theorem tracks_of_fresh (t : Transport) {calls : List Call}
    (fresh : calls = [] ∨ calls.getLast? = some .rewind) :
    (t.answers calls).2 =
      ⟨t.tracks.map fun track => if calls = [] then track else track.rewind⟩ := by
  rcases fresh with rfl | rewound
  · simp [answers]
  · obtain ⟨before, rfl⟩ := List.getLast?_eq_some_iff.mp rewound
    rw [answers_concat]
    change (t.answers before).2.rewind = _
    rw [rewind_answers]
    simp [rewind]

end Transport

theorem Track.between_reach_eq_drop_iff (t : Track) (horizon : Binary64) :
    t.between t.position (t.reach horizon) = t.events.drop t.position ↔
      t.events.length ≤ t.reach horizon := by
  have le : t.position ≤ t.reach horizon := Nat.le_max_left _ _
  have count : (t.events.drop t.position).length = t.events.length - t.position := List.length_drop
  constructor
  · intro whole
    have length := congrArg List.length whole
    rw [Track.between, List.length_take, count] at length
    omega
  · intro past
    exact List.take_of_length_le (by omega)

/-- Since a transport was new or rewound, each track has given the events from its position to the
first that is not due at the greatest horizon, in order and unaltered, whatever the polls were. -/
theorem answers_deliver_each_event_once (t : Transport)
    (ordered : ∀ track ∈ t.tracks, track.events.Pairwise fun a b => a.start ≤ b.start)
    (earlier : List Call) (fresh : earlier = [] ∨ earlier.getLast? = some .rewind)
    (polls : List (Binary64 × Binary64)) :
    let begun := t.tracks.map fun track => if earlier = [] then track else track.rewind
    let horizons := polls.map fun p => p.1 + p.2
    let run := (t.answers earlier).2.answers (polls.map fun p => .poll p.1 p.2)
    (run.1 = (List.range polls.length).map fun j =>
      begun.flatMap fun track => ((track.gives horizons).1[j]?).getD []) ∧
    IsGreatest horizons (greatest horizons) ∧
    (∀ track ∈ begun, (track.gives horizons).1.length = polls.length ∧
      (track.gives horizons).1.flatten = track.between track.position
        (max track.position (track.events.countP fun e => e.start < greatest horizons))) ∧
    run.2.tracks.map Track.events = t.tracks.map Track.events ∧
    (run.2.isFinished = true ↔ ∀ track ∈ begun,
      (track.gives horizons).1.flatten = track.events.drop track.position) := by
  intro begun horizons run
  have begun_ordered : ∀ track ∈ begun, InOrder track.events := by
    intro track member
    obtain ⟨original, found, rfl⟩ := List.mem_map.mp member
    split
    · exact ordered original found
    · exact ordered original found
  have alone := Transport.answers_polls begun polls
  rw [← Transport.tracks_of_fresh t fresh] at alone
  have ran : run = (_, ⟨begun.map fun track => (track.gives horizons).2⟩) := alone
  have gives : ∀ track ∈ begun, _ := fun track member =>
    Track.gives_eq (begun_ordered track member) horizons
  refine ⟨by rw [ran], Binary64.isGreatest_greatest horizons, ?_, ?_, ?_⟩
  · intro track member
    refine ⟨?_, (gives track member).1⟩
    rw [Track.length_gives, List.length_map]
  · have kept : ∀ track ∈ begun, (track.gives horizons).2.events = track.events := by
      intro track member
      rw [(gives track member).2]
    rw [ran, List.map_map]
    apply (List.map_congr_left kept).trans
    rw [List.map_map]
    apply List.map_congr_left
    intro track _
    by_cases none : earlier = []
    · simp [none]
    · simp [none, Track.rewind]
  · rw [ran, Transport.isFinished, List.all_map, List.all_eq_true]
    apply forall_congr'
    intro track
    apply forall_congr'
    intro member
    obtain ⟨given, last⟩ := gives track member
    rw [given, Track.between_reach_eq_drop_iff]
    simp [last, Track.hasMore]

/-- A track half read and a track of three events, two of them at once. Polls go back and ask for
nothing in between; after the rewind the first track gives its events from the beginning. -/
theorem answers_of_restless_player :
    let first : Track := ⟨[⟨0, 1, 1, 48, 1⟩, ⟨1, 1, 1, 50, 1⟩], 1⟩
    let second : Track := ⟨[⟨0, 1, 1, 52, 1⟩, ⟨2, 1, 1, 53, 1⟩, ⟨2, 1, 1, 55, 1⟩], 0⟩
    let earlier : List Call := [.poll 5 5, .rewind]
    let polls : List (Binary64 × Binary64) :=
      [(0, 1), (.nan, 1), (.infinite true, 0), (2, 0), (1, 2)]
    let run := ((⟨[first, second]⟩ : Transport).answers earlier).2.answers
      (polls.map fun p => .poll p.1 p.2)
    (∀ track ∈ [first, second], track.events.Pairwise fun a b => a.start ≤ b.start) ∧
      earlier.getLast? = some .rewind ∧
      run.1 = [[⟨0, 1, 1, 48, 1⟩, ⟨0, 1, 1, 52, 1⟩], [], [], [⟨1, 1, 1, 50, 1⟩],
        [⟨2, 1, 1, 53, 1⟩, ⟨2, 1, 1, 55, 1⟩]] ∧
      run.2.isFinished = true := by
  intro first second earlier polls run
  have ordered : ∀ track ∈ [first, second], track.events.Pairwise fun a b => a.start ≤ b.start := by
    decide +kernel
  obtain ⟨rows, _, _, _, finished⟩ :=
    answers_deliver_each_event_once ⟨[first, second]⟩ ordered earlier (.inr rfl) polls
  refine ⟨ordered, rfl, ?_, ?_⟩
  · rw [rows]
    decide +kernel
  · refine finished.mpr ?_
    decide +kernel

end Polyphony.Timeline
