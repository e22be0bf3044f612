import Polyphony.Proofs.Binary64.Sign
import Polyphony.Proofs.Timeline.Timing
import Polyphony.Timeline.Transport

/-! No start is ever a negative zero, so a track that is placed at zero stays as it is, and the
latest end may be taken over all tracks or only over those with events. -/
namespace Polyphony.Timeline

open Score (Token Voice Fragment)
open Score.Directive (Usable)
open Binary64 (Unsigned)

variable {s next last : Scope} {token : Token} {events : List Event} {e : Event}
  {track result : Track} {tracks results : List Track} {start later : Binary64} {o : Options}
  {fragments : List Fragment}

def Track.Unsigned (t : Track) : Prop := ∀ event ∈ t.events, event.start.Unsigned

theorem step_unsigned (step : s.Step token events next) (timed : s.WellTimed)
    (unsigned : s.voice.clock.Unsigned) :
    next.voice.clock.Unsigned ∧ ∀ event ∈ events, event.start.Unsigned := by
  cases step with
  | note code admits moves =>
      refine ⟨unsigned.add (sounded_forward timed code).played_nonneg, ?_⟩
      intro event member
      obtain rfl := List.mem_singleton.mp member
      exact unsigned
  | chord codes members admits moves =>
      refine ⟨unsigned.add (shortest_sounded_nonneg timed codes), ?_⟩
      intro event member
      obtain ⟨code, _, rfl⟩ := List.mem_map.mp member
      exact unsigned
  | silence => exact ⟨unsigned, List.forall_mem_nil _⟩
  | rest length moves soundable =>
      exact ⟨unsigned.add (sounding_nonneg timed.noteLength length), List.forall_mem_nil _⟩
  | directive d admissible room => exact ⟨unsigned, List.forall_mem_nil _⟩

theorem run_unsigned {tokens : Voice} (run : s.Run tokens events last) (timed : s.WellTimed)
    (unsigned : s.voice.clock.Unsigned) : ∀ event ∈ events, event.start.Unsigned := by
  induction run with
  | done s => exact List.forall_mem_nil _
  | step first run ih =>
      obtain ⟨clock, starts⟩ := step_unsigned first timed unsigned
      have later := ih (step_wellTimed first timed).1 clock
      intro event member
      rcases List.mem_append.mp member with first | rest
      · exact starts event first
      · exact later event rest

theorem playVoices_unsigned {scope ended : FragmentScope} {voices : List Voice}
    (played : playVoices o scope voices = .ok (tracks, ended))
    (usable : Usable scope.noteLength) : ∀ track ∈ tracks, track.Unsigned := by
  induction voices generalizing scope tracks with
  | nil =>
      obtain ⟨rfl, rfl⟩ := playVoices_nil_eq_ok_iff.mp played
      exact List.forall_mem_nil _
  | cons voice rest ih =>
      obtain ⟨events, inner, later, run, continued, rfl⟩ := playVoices_cons_eq_ok_iff.mp played
      have begins := wellTimed_of_usable usable o
      intro track member
      rcases List.mem_cons.mp member with rfl | member
      · exact run_unsigned run begins Binary64.unsigned_zero
      · exact ih continued (run_wellTimed run begins).1.noteLength track member

theorem Event.Forward.finish_unsigned (forward : e.Forward) (unsigned : e.start.Unsigned) :
    e.finish.Unsigned :=
  unsigned.add (max_nonneg forward.held_nonneg forward.played_nonneg)

theorem Track.Unsigned.finish (unsigned : track.Unsigned)
    (forward : ∀ event ∈ track.events, event.Forward) : track.finish.Unsigned := by
  unfold Track.finish
  cases ends : track.events.getLast? with
  | none => exact Binary64.unsigned_zero
  | some event =>
      have member := List.mem_of_getLast? ends
      exact (forward event member).finish_unsigned (unsigned event member)

theorem playFragment_unsigned {fragment : Fragment} (usable : Usable o.noteLength)
    (played : playFragment o fragment = .ok results) : ∀ result ∈ results, result.Unsigned := by
  obtain ⟨tracks, scope, voices, lined⟩ := playFragment_eq_ok_iff.mp played
  have unsigned := playVoices_unsigned voices usable
  have drafted : ∀ track ∈ tracks, track.Drafted := fun track member =>
    (playVoices_played voices usable track member).drafted
  intro result member
  split at lined
  · obtain ⟨track, found, fitted⟩ := exists_of_mem_right lined.fitted member
    rcases fitted with rfl | ⟨last, inside, ends, finite, rfl⟩
    · exact unsigned result found
    · have target : last.finish.Unsigned :=
        (unsigned last inside).finish fun event member =>
          (drafted last inside event member).toForward
      have ratio := target.div (Binary64.unsigned_of_pos ends) (Binary64.isNaN_of_isFinite finite)
      intro event scaled
      obtain ⟨event, drawn, rfl⟩ := List.mem_map.mp scaled
      exact (unsigned track found event drawn).mul ratio
        (drafted track found event drawn).start_finite finite
  · rw [lined] at member
    exact unsigned result member

theorem playFragment_forward {fragment : Fragment} (usable : Usable o.noteLength)
    (played : playFragment o fragment = .ok results) :
    ∀ result ∈ results, ∀ event ∈ result.events, event.Forward := by
  intro result member
  obtain ⟨track, sung, rescaled⟩ := playFragment_rescaled usable played result member
  exact rescaled_forward sung rescaled

theorem Track.Unsigned.shift_zero (unsigned : track.Unsigned) :
    track.shift (.zero false) = track := by
  have kept : track.events.map (Event.shift (.zero false)) = track.events := by
    apply (List.map_congr_left _).trans (List.map_id _)
    intro event member
    exact congrArg (fun start => { event with start }) (unsigned event member).add_zero
  exact congrArg (fun events => { track with events }) kept

/-- Placing moves all tracks of a fragment alike, provided that all of it ends at finite times. -/
theorem places_iff :
    List.Forall₂ (fun track result => place start track = .ok result) tracks results ↔
      (∀ track ∈ tracks, ∀ event ∈ (track.shift start).events, event.finish.isFinite) ∧
        tracks.map (·.shift start) = results := by
  simp only [place_eq_ok_iff, List.forall₂_and_left]
  rw [← List.forall₂_map_left_iff, List.forall₂_eq_eq_eq]

theorem map_shift_zero (unsigned : ∀ track ∈ tracks, track.Unsigned) :
    tracks.map (·.shift (.zero false)) = tracks := by
  apply (List.map_congr_left _).trans (List.map_id _)
  intro track member
  exact (unsigned track member).shift_zero

theorem le_foldl_max {bound : Binary64} (number : bound.isNaN = false) (times : List Binary64) :
    bound ≤ times.foldl Binary64.max bound := by
  induction times generalizing bound with
  | nil => exact Binary64.le_refl number
  | cons time rest ih =>
      have first := Binary64.le_max_left time number
      exact Binary64.le_trans first (ih (Binary64.isNaN_right_of_le first))

theorem le_foldl_max_of_mem {bound time : Binary64} {times : List Binary64}
    (member : time ∈ times) (number : time.isNaN = false) :
    time ≤ times.foldl Binary64.max bound := by
  induction times generalizing bound with
  | nil => exact absurd member List.not_mem_nil
  | cons first rest ih =>
      rcases List.mem_cons.mp member with rfl | later
      · have reached := Binary64.le_max_right bound number
        exact Binary64.le_trans reached (le_foldl_max (Binary64.isNaN_right_of_le reached) rest)
      · exact ih later

theorem foldl_max_mono {times later : List Binary64} (each : List.Forall₂ (· ≤ ·) times later)
    {bound bound' : Binary64} (le : bound ≤ bound') :
    times.foldl Binary64.max bound ≤ later.foldl Binary64.max bound' := by
  induction each generalizing bound bound' with
  | nil => exact le
  | cons first _ ih => exact ih (Binary64.max_le_max le first)

/-- An empty track ends at zero, which no other end comes before. -/
theorem latestFinish_eq_foldl (start_unsigned : start.Unsigned)
    (unsigned : ∀ track ∈ tracks, track.finish.Unsigned) :
    latestFinish start tracks = (tracks.map Track.finish).foldl Binary64.max start := by
  induction tracks generalizing start with
  | nil => rfl
  | cons track rest ih =>
      obtain ⟨first, later⟩ := List.forall_mem_cons.mp unsigned
      have next : (start.max track.finish).Unsigned := by
        rcases Binary64.max_eq_or start track.finish with same | same
        · rwa [same]
        · rwa [same]
      rw [List.map_cons, List.foldl_cons, ← ih next later]
      cases events : track.events with
      | nil =>
          have zero : track.finish = .zero false := by rw [Track.finish, events]; rfl
          rw [zero, start_unsigned.max_zero]
          simp [latestFinish, events]
      | cons event others => simp [latestFinish, events]

theorem latestFinish_unsigned (start_unsigned : start.Unsigned)
    (unsigned : ∀ track ∈ tracks, track.finish.Unsigned) :
    (latestFinish start tracks).Unsigned := by
  apply foldl_of_choice Binary64.max_eq_or _ start_unsigned
  intro time member
  obtain ⟨track, found, rfl⟩ := List.mem_map.mp member
  exact unsigned track (List.mem_of_mem_filter found)

theorem duration_eq_latestFinish (unsigned : ∀ track ∈ tracks, track.finish.Unsigned) :
    (Transport.mk tracks).duration = latestFinish (.zero false) tracks :=
  (latestFinish_eq_foldl Binary64.unsigned_zero unsigned).symm

/-- When a fragment can start: at a finite time from zero up. -/
structure Startable (start : Binary64) : Prop extends start.Unsigned where
  finite : start.isFinite

theorem startable_zero : Startable (.zero false) := ⟨Binary64.unsigned_zero, rfl⟩

theorem Event.Forward.earlier (forward : e.Forward) (startable : Startable start)
    (le : start ≤ later) (ends : (e.shift later).finish.isFinite) :
    (e.shift start).finish ≤ (e.shift later).finish ∧ (e.shift start).finish.isFinite := by
  have moved : (e.start + later).isFinite ∧ (e.held.max e.played).isFinite :=
    Binary64.isFinite_of_add ends
  have begins := Binary64.isFinite_of_add moved.1
  have nonneg := startable.toUnsigned.nonneg
  have sooner : e.start + start ≤ e.start + later := by
    rw [Binary64.add_comm, Binary64.add_comm e.start]
    exact Binary64.add_le_add_right startable.finite begins.2 begins.1 le
  have first := Binary64.add_nonneg begins.1 startable.finite forward.start_nonneg nonneg
  have finite := Binary64.isFinite_of_le first sooner moved.1
  have lasts := max_nonneg forward.held_nonneg forward.played_nonneg
  have finishes : (e.shift start).finish ≤ (e.shift later).finish :=
    Binary64.add_le_add_right finite moved.1 moved.2 sooner
  exact ⟨finishes, Binary64.isFinite_of_le (Binary64.add_nonneg finite moved.2 first lasts)
    finishes ends⟩

/-- What can be placed can be placed earlier, and ends no later then. -/
theorem place_earlier (forward : ∀ event ∈ track.events, event.Forward)
    (startable : Startable start) (le : start ≤ later)
    (ends : ∀ event ∈ (track.shift later).events, event.finish.isFinite) :
    (∀ event ∈ (track.shift start).events, event.finish.isFinite) ∧
      (track.shift start).finish ≤ (track.shift later).finish := by
  have each : ∀ event ∈ track.events,
      (event.shift start).finish ≤ (event.shift later).finish ∧
        (event.shift start).finish.isFinite := by
    intro event member
    exact (forward event member).earlier startable le (ends _ (List.mem_map_of_mem member))
  constructor
  · intro moved member
    obtain ⟨event, found, rfl⟩ := List.mem_map.mp member
    exact (each event found).2
  · unfold Track.finish Track.shift
    rw [List.getLast?_map, List.getLast?_map]
    cases last : track.events.getLast? with
    | none => exact Binary64.le_refl rfl
    | some event => exact (each event (List.mem_of_getLast? last)).1

/-- An event as it is returned by a schedule that begins at `start`. -/
structure Event.PlacedFrom (start : Binary64) (e : Event) : Prop extends e.WellTimed where
  unsigned : e.start.Unsigned
  start_le : start ≤ e.start

def Track.PlacedFrom (start : Binary64) (t : Track) : Prop :=
  ∀ event ∈ t.events, event.PlacedFrom start

theorem shift_placedFrom (forward : e.Forward) (unsigned : e.start.Unsigned)
    (startable : Startable start) (ends : (e.shift start).finish.isFinite) :
    (e.shift start).PlacedFrom start := by
  have nonneg := startable.toUnsigned.nonneg
  have timed := shift_wellTimed forward startable.finite nonneg ends
  refine { timed with unsigned := unsigned.add nonneg, start_le := ?_ }
  have begins := (Binary64.isFinite_of_add timed.start_finite).1
  change start ≤ e.start + start
  rw [Binary64.add_comm]
  exact Binary64.le_add_of_nonneg startable.finite begins forward.start_nonneg

theorem Event.PlacedFrom.mono (placed : e.PlacedFrom later) (le : start ≤ later) :
    e.PlacedFrom start :=
  { placed with start_le := Binary64.le_trans le placed.start_le }

theorem Track.PlacedFrom.finish_unsigned (placed : track.PlacedFrom start) :
    track.finish.Unsigned :=
  Track.Unsigned.finish (fun event member => (placed event member).unsigned)
    fun event member => (placed event member).forward

/-- Tracks that end no later leave room for what follows no later. -/
theorem latestFinish_mono (startable : Startable start) (startable' : Startable later)
    (placed : ∀ track ∈ tracks, track.PlacedFrom start)
    (placed' : ∀ track ∈ results, track.PlacedFrom later)
    (each : List.Forall₂ (fun track result => track.finish ≤ result.finish) tracks results)
    (le : start ≤ later) : latestFinish start tracks ≤ latestFinish later results := by
  have unsigned := fun track member => (placed track member).finish_unsigned
  have unsigned' := fun track member => (placed' track member).finish_unsigned
  rw [latestFinish_eq_foldl startable.toUnsigned unsigned,
    latestFinish_eq_foldl startable'.toUnsigned unsigned']
  refine foldl_max_mono ?_ le
  rwa [List.forall₂_map_left_iff, List.forall₂_map_right_iff]

/-- A fragment can start where the tracks before it end. -/
theorem startable_latestFinish (startable : Startable start)
    (placed : ∀ track ∈ tracks, track.PlacedFrom start) :
    Startable (latestFinish start tracks) ∧ start ≤ latestFinish start tracks := by
  have timed : ∀ track ∈ tracks, track.WellTimed := fun track member event inside =>
    (placed track member event inside).toWellTimed
  have finite := (latestFinish_wellTimed startable.finite startable.toUnsigned.nonneg timed).1
  have unsigned := latestFinish_unsigned startable.toUnsigned fun track member =>
    (placed track member).finish_unsigned
  exact ⟨⟨unsigned, finite⟩, le_foldl_max startable.number _⟩

theorem playFragment_placedFrom {fragment : Fragment} (usable : Usable o.noteLength)
    (plays : playFragment o fragment = .ok tracks) (startable : Startable start)
    (ends : ∀ track ∈ tracks, ∀ event ∈ (track.shift start).events, event.finish.isFinite) :
    ∀ result ∈ tracks.map (·.shift start), result.PlacedFrom start := by
  intro result member event inside
  obtain ⟨track, found, rfl⟩ := List.mem_map.mp member
  have finish := ends track found event inside
  obtain ⟨drawn, drew, rfl⟩ := List.mem_map.mp inside
  exact shift_placedFrom (playFragment_forward usable plays track found drawn drew)
    (playFragment_unsigned usable plays track found drawn drew) startable finish

theorem scheduleFrom_placedFrom (usable : Usable o.noteLength) (startable : Startable start)
    (scheduled : scheduleFrom o start fragments = .ok tracks) :
    ∀ track ∈ tracks, track.PlacedFrom start := by
  induction fragments generalizing start tracks with
  | nil =>
      obtain rfl := scheduleFrom_nil_eq_ok_iff.mp scheduled
      exact List.forall_mem_nil _
  | cons fragment rest ih =>
      obtain ⟨played, placed, others, plays, places, continued, rfl⟩ :=
        scheduleFrom_cons_eq_ok_iff.mp scheduled
      obtain ⟨ends, rfl⟩ := places_iff.mp places
      have first := playFragment_placedFrom usable plays startable ends
      obtain ⟨next, le⟩ := startable_latestFinish startable first
      intro track member
      rcases List.mem_append.mp member with before | after
      · exact first track before
      · exact fun event inside => (ih next continued track after event inside).mono le

end Polyphony.Timeline
