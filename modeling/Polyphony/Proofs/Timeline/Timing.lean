import Polyphony.Proofs.Binary64.Sign
import Polyphony.Proofs.Timeline.Arrangement

/-! The note length stays positive, so no token moves a clock back. Scaling may overflow or vanish
but keeps the order of times, and placing a track refuses whatever is not finite by then. -/
namespace Polyphony.Timeline

open Score (NoteCode Directive Token Voice Fragment)
open Score.Directive (Usable usable_of_noteLength?)

variable {s next last : Scope} {token : Token} {events : List Event} {e : Event}
  {track result : Track} {tracks results : List Track} {start : Binary64} {o : Options}

theorem unsigned_sounding {base : Binary64} (usable : Usable base) (code : Int) :
    (sounding base code).Unsigned := by
  have plain := Binary64.unsigned_of_pos usable.2
  unfold sounding
  split
  · next longer =>
      exact Binary64.unsigned_mul_of_pos usable.1 usable.2 (Binary64.ofInt_pos (by omega))
  · split
    · have factor := Binary64.twoPow_pos code.natAbs
      exact plain.div (Binary64.unsigned_of_pos factor) (Binary64.isNaN_div usable.1 factor)
    · exact plain

theorem sounding_nonneg {base : Binary64} (usable : Usable base) (code : Int) :
    0 ≤ sounding base code := (unsigned_sounding usable code).nonneg

/-- What holds of all the times holds of the one that a fold picks. -/
theorem foldl_of_choice {pick : Binary64 → Binary64 → Binary64} {P : Binary64 → Prop}
    (choice : ∀ x y, pick x y = x ∨ pick x y = y) {times : List Binary64}
    (all : ∀ time ∈ times, P time) {bound : Binary64} (holds : P bound) :
    P (times.foldl pick bound) := by
  induction times generalizing bound with
  | nil => exact holds
  | cons time rest ih =>
      refine ih (fun other member => all other (List.mem_cons_of_mem _ member)) ?_
      rcases choice bound time with same | same
      · rw [same]
        exact holds
      · rw [same]
        exact all time List.mem_cons_self

theorem shortest_nonneg (nonneg : ∀ event ∈ events, 0 ≤ event.played) : 0 ≤ shortest events := by
  refine foldl_of_choice Binary64.min_eq_or ?_ Binary64.infinite_nonneg
  intro time member
  obtain ⟨event, found, rfl⟩ := List.mem_map.mp member
  exact nonneg event found

/-- The times of an event run forward. They may be infinite. -/
structure Event.Forward (e : Event) : Prop where
  start_nonneg : 0 ≤ e.start
  played_nonneg : 0 ≤ e.played
  played_le_held : e.played ≤ e.held

/-- An event as it is played, before its track is scaled and moved. -/
structure Event.Drafted (e : Event) : Prop extends e.Forward where
  start_finite : e.start.isFinite
  held_finite : e.held.isFinite

structure Scope.WellTimed (s : Scope) : Prop where
  noteLength : Usable s.fragment.noteLength
  clock_finite : s.voice.clock.isFinite
  clock_nonneg : 0 ≤ s.voice.clock

theorem sounded_forward (timed : s.WellTimed) (code : NoteCode) : (s.sounded code).Forward where
  start_nonneg := timed.clock_nonneg
  played_nonneg := sounding_nonneg timed.noteLength code.length
  played_le_held := by
    have nonneg := sounding_nonneg timed.noteLength code.length
    exact Binary64.le_max_left _ (Binary64.isNaN_right_of_le nonneg)

theorem after_wellTimed (timed : s.WellTimed) {span : Binary64} (nonneg : 0 ≤ span)
    (moves : (s.voice.clock + span).isFinite) : (s.after span).WellTimed where
  noteLength := timed.noteLength
  clock_finite := moves
  clock_nonneg := by
    have finite := (Binary64.isFinite_of_add moves).2
    exact Binary64.add_nonneg timed.clock_finite finite timed.clock_nonneg nonneg

theorem updated_wellTimed (timed : s.WellTimed) {d : Directive} (admissible : d.Admissible) :
    (s.updated d).WellTimed := by
  refine ⟨?_, timed.clock_finite, timed.clock_nonneg⟩
  rw [Scope.updated]
  cases sets : d.noteLength? with
  | none => exact timed.noteLength
  | some x => exact usable_of_noteLength? admissible sets

theorem shortest_sounded_nonneg (timed : s.WellTimed) (codes : List NoteCode) :
    0 ≤ shortest (codes.map s.sounded) := by
  apply shortest_nonneg
  intro event member
  obtain ⟨code, _, rfl⟩ := List.mem_map.mp member
  exact (sounded_forward timed code).played_nonneg

theorem step_wellTimed (step : s.Step token events next) (timed : s.WellTimed) :
    next.WellTimed ∧ ∀ event ∈ events, event.Drafted := by
  cases step with
  | note code admits moves =>
      refine ⟨after_wellTimed timed (sounded_forward timed code).played_nonneg moves, ?_⟩
      intro event member
      obtain rfl := List.mem_singleton.mp member
      exact ⟨sounded_forward timed code, timed.clock_finite, admits.held⟩
  | chord codes members admits moves =>
      refine ⟨after_wellTimed timed (shortest_sounded_nonneg timed codes) moves, ?_⟩
      intro event member
      obtain ⟨code, found, rfl⟩ := List.mem_map.mp member
      exact ⟨sounded_forward timed code, timed.clock_finite, (admits code found).held⟩
  | silence => exact ⟨timed, List.forall_mem_nil _⟩
  | rest length moves soundable =>
      refine ⟨after_wellTimed timed (sounding_nonneg timed.noteLength length) moves, ?_⟩
      exact List.forall_mem_nil _
  | directive d admissible room =>
      exact ⟨updated_wellTimed timed admissible, List.forall_mem_nil _⟩

/-- No token moves the clock back. -/
theorem step_clock_le (step : s.Step token events next) (timed : s.WellTimed) :
    s.voice.clock ≤ next.voice.clock := by
  have moved : ∀ {span : Binary64}, 0 ≤ span → (s.voice.clock + span).isFinite →
      s.voice.clock ≤ (s.after span).voice.clock := fun nonneg moves =>
    Binary64.le_add_of_nonneg timed.clock_finite (Binary64.isFinite_of_add moves).2 nonneg
  have still : s.voice.clock ≤ s.voice.clock :=
    Binary64.le_refl (Binary64.isNaN_of_isFinite timed.clock_finite)
  cases step with
  | note code admits moves => exact moved (sounded_forward timed code).played_nonneg moves
  | chord codes members admits moves => exact moved (shortest_sounded_nonneg timed codes) moves
  | silence => exact still
  | rest length moves soundable => exact moved (sounding_nonneg timed.noteLength length) moves
  | directive d admissible room => exact still

theorem run_wellTimed {tokens : Voice} (run : s.Run tokens events last) (timed : s.WellTimed) :
    last.WellTimed ∧ ∀ event ∈ events, event.Drafted := by
  induction run with
  | done s => exact ⟨timed, List.forall_mem_nil _⟩
  | step first run ih =>
      obtain ⟨middle, drafted⟩ := step_wellTimed first timed
      obtain ⟨last, later⟩ := ih middle
      refine ⟨last, ?_⟩
      intro event member
      rcases List.mem_append.mp member with first | rest
      · exact drafted event first
      · exact later event rest

/-- Every voice starts its clock anew. -/
theorem wellTimed_of_usable {scope : FragmentScope} (usable : Usable scope.noteLength)
    (o : Options) : (⟨scope, .start o⟩ : Scope).WellTimed :=
  ⟨usable, Binary64.isFinite_zero false, Binary64.zero_nonneg false⟩

def Track.Drafted (t : Track) : Prop := ∀ event ∈ t.events, event.Drafted

/-- The track of a run that began with its times in order. -/
def Track.Played (t : Track) : Prop :=
  ∃ s voice last, Scope.WellTimed s ∧ s.Run voice t.events last

theorem Track.Played.drafted (played : track.Played) : track.Drafted := by
  obtain ⟨s, voice, last, timed, run⟩ := played
  exact (run_wellTimed run timed).2

theorem playVoices_played {scope ended : FragmentScope} {voices : List Voice}
    (played : playVoices o scope voices = .ok (tracks, ended))
    (usable : Usable scope.noteLength) : ∀ track ∈ tracks, track.Played := by
  induction voices generalizing scope tracks with
  | nil =>
      obtain ⟨rfl, rfl⟩ := playVoices_nil_eq_ok_iff.mp played
      exact List.forall_mem_nil _
  | cons voice rest ih =>
      obtain ⟨events, inner, later, run, continued, rfl⟩ := playVoices_cons_eq_ok_iff.mp played
      have begins := wellTimed_of_usable usable o
      intro track member
      rcases List.mem_cons.mp member with rfl | member
      · exact ⟨_, voice, inner, begins, run⟩
      · exact ih continued (run_wellTimed run begins).1.noteLength track member

theorem max_nonneg {x y : Binary64} (x_nonneg : 0 ≤ x) (y_nonneg : 0 ≤ y) : 0 ≤ x.max y := by
  rcases Binary64.max_eq_or x y with same | same
  · rw [same]
    exact x_nonneg
  · rw [same]
    exact y_nonneg

theorem Event.Forward.held_nonneg (forward : e.Forward) : 0 ≤ e.held :=
  Binary64.le_trans forward.played_nonneg forward.played_le_held

theorem Event.Forward.held_finite (forward : e.Forward) (lasts : (e.held.max e.played).isFinite) :
    e.held.isFinite := by
  have number := Binary64.isNaN_right_of_le forward.held_nonneg
  exact Binary64.isFinite_of_le forward.held_nonneg (Binary64.le_max_left _ number) lasts

/-- The end of an event that starts at a finite time is no earlier than its start. -/
theorem Event.Forward.start_le_finish (forward : e.Forward) (finite : e.start.isFinite)
    (lasts : (e.held.max e.played).isFinite) : e.start ≤ e.finish :=
  Binary64.le_add_of_nonneg finite lasts (max_nonneg forward.held_nonneg forward.played_nonneg)

theorem Event.Drafted.played_finite (drafted : e.Drafted) : e.played.isFinite :=
  Binary64.isFinite_of_le drafted.played_nonneg drafted.played_le_held drafted.held_finite

theorem Event.Drafted.finish_nonneg (drafted : e.Drafted) : 0 ≤ e.finish := by
  have lasts : (e.held.max e.played).isFinite := by
    rcases Binary64.max_eq_or e.held e.played with same | same
    · rw [same]
      exact drafted.held_finite
    · rw [same]
      exact drafted.played_finite
  exact Binary64.le_trans drafted.start_nonneg
    (drafted.start_le_finish drafted.start_finite lasts)

theorem finish_nonneg_of {t : Track} (nonneg : ∀ event ∈ t.events, 0 ≤ event.finish) :
    0 ≤ t.finish := by
  unfold Track.finish
  cases ends : t.events.getLast? with
  | none => exact Binary64.zero_nonneg false
  | some event => exact nonneg event (List.mem_of_getLast? ends)

theorem finish_isFinite_of {t : Track} (finite : ∀ event ∈ t.events, event.finish.isFinite) :
    t.finish.isFinite := by
  unfold Track.finish
  cases ends : t.events.getLast? with
  | none => exact Binary64.isFinite_zero false
  | some event => exact finite event (List.mem_of_getLast? ends)

theorem scale_forward (drafted : e.Drafted) {ratio : Binary64} (finite : ratio.isFinite)
    (nonneg : 0 ≤ ratio) : (e.scale ratio).Forward where
  start_nonneg := Binary64.mul_nonneg drafted.start_finite finite drafted.start_nonneg nonneg
  played_nonneg := Binary64.mul_nonneg drafted.played_finite finite drafted.played_nonneg nonneg
  played_le_held := Binary64.mul_le_mul_right drafted.played_finite drafted.held_finite finite
    nonneg drafted.played_le_held

/-- What a player may rely on. -/
structure Event.WellTimed (e : Event) : Prop where
  start_finite : e.start.isFinite
  start_nonneg : 0 ≤ e.start
  played_finite : e.played.isFinite
  played_nonneg : 0 ≤ e.played
  held_finite : e.held.isFinite
  played_le_held : e.played ≤ e.held
  finish_finite : e.finish.isFinite

/-- A finite end leaves no room for an infinite start or duration. -/
theorem shift_wellTimed (forward : e.Forward) (finite : start.isFinite) (nonneg : 0 ≤ start)
    (ends : (e.shift start).finish.isFinite) : (e.shift start).WellTimed := by
  have moved : (e.start + start).isFinite ∧ (e.held.max e.played).isFinite :=
    Binary64.isFinite_of_add ends
  have begins := Binary64.isFinite_of_add moved.1
  have held_finite := forward.held_finite moved.2
  exact
    { start_finite := moved.1
      start_nonneg := Binary64.add_nonneg begins.1 finite forward.start_nonneg nonneg
      played_finite :=
        Binary64.isFinite_of_le forward.played_nonneg forward.played_le_held held_finite
      played_nonneg := forward.played_nonneg
      held_finite := held_finite
      played_le_held := forward.played_le_held
      finish_finite := ends }

theorem Event.WellTimed.forward (timed : e.WellTimed) : e.Forward :=
  ⟨timed.start_nonneg, timed.played_nonneg, timed.played_le_held⟩

theorem Event.WellTimed.start_le_finish (timed : e.WellTimed) : e.start ≤ e.finish :=
  timed.forward.start_le_finish timed.start_finite
    (Binary64.isFinite_of_add timed.finish_finite).2

theorem Event.WellTimed.finish_nonneg (timed : e.WellTimed) : 0 ≤ e.finish :=
  Binary64.le_trans timed.start_nonneg timed.start_le_finish

theorem finish_nonneg_of_drafted (drafted : track.Drafted) : 0 ≤ track.finish :=
  finish_nonneg_of fun event member => (drafted event member).finish_nonneg

theorem ratio_nonneg (drafted : ∀ track ∈ tracks, track.Drafted) {last : Track}
    (member : last ∈ tracks) (ends : 0 < track.finish)
    (finite : (last.finish / track.finish).isFinite) : 0 ≤ last.finish / track.finish :=
  Binary64.div_nonneg (finish_nonneg_of_drafted (drafted last member)) ends
    (Binary64.isNaN_of_isFinite finite)

/-- A track of a fragment is as it was played, or scaled by one ratio. -/
def Track.Rescaled (track result : Track) : Prop :=
  result = track ∨ ∃ ratio : Binary64, ratio.isFinite ∧ 0 ≤ ratio ∧ result = track.scale ratio

theorem playFragment_rescaled {fragment : Fragment} (usable : Usable o.noteLength)
    (played : playFragment o fragment = .ok results) :
    ∀ result ∈ results, ∃ track : Track, track.Played ∧ track.Rescaled result := by
  obtain ⟨tracks, scope, voices, lined⟩ := playFragment_eq_ok_iff.mp played
  have sung := playVoices_played voices usable
  intro result member
  split at lined
  · obtain ⟨track, found, fitted⟩ := exists_of_mem_right lined.fitted member
    refine ⟨track, sung track found, fitted.imp_right ?_⟩
    rintro ⟨last, inside, ends, finite, scaled⟩
    have drafted : ∀ track ∈ tracks, track.Drafted := fun track found => (sung track found).drafted
    exact ⟨_, finite, ratio_nonneg drafted inside ends finite, scaled⟩
  · rw [lined] at member
    exact ⟨result, sung result member, .inl rfl⟩

theorem rescaled_forward (played : track.Played) (rescaled : track.Rescaled result) :
    ∀ event ∈ result.events, event.Forward := by
  rcases rescaled with rfl | ⟨ratio, finite, nonneg, rfl⟩
  · intro event member
    exact (played.drafted event member).toForward
  · intro event member
    obtain ⟨drawn, found, rfl⟩ := List.mem_map.mp member
    exact scale_forward (played.drafted drawn found) finite nonneg

def Track.WellTimed (t : Track) : Prop := ∀ event ∈ t.events, event.WellTimed

theorem place_wellTimed (finite : start.isFinite) (nonneg : 0 ≤ start)
    (forward : ∀ event ∈ track.events, event.Forward) (placed : place start track = .ok result) :
    result.WellTimed := by
  obtain ⟨ends, rfl⟩ := place_eq_ok_iff.mp placed
  intro event member
  have finish := ends event member
  obtain ⟨drawn, inside, rfl⟩ := List.mem_map.mp member
  exact shift_wellTimed (forward drawn inside) finite nonneg finish

theorem latestFinish_wellTimed (finite : start.isFinite) (nonneg : 0 ≤ start)
    (timed : ∀ track ∈ tracks, track.WellTimed) :
    (latestFinish start tracks).isFinite ∧ 0 ≤ latestFinish start tracks := by
  refine foldl_of_choice (P := fun time => time.isFinite ∧ 0 ≤ time) Binary64.max_eq_or ?_
    ⟨finite, nonneg⟩
  intro time member
  obtain ⟨track, found, rfl⟩ := List.mem_map.mp member
  have inside := timed track (List.mem_of_mem_filter found)
  exact ⟨finish_isFinite_of fun event found => (inside event found).finish_finite,
    finish_nonneg_of fun event found => (inside event found).finish_nonneg⟩

/-- Every track that is returned was played, rescaled, and placed at a finite time. -/
theorem scheduleFrom_placed {fragments : List Fragment} (usable : Usable o.noteLength)
    (finite : start.isFinite) (nonneg : 0 ≤ start)
    (scheduled : scheduleFrom o start fragments = .ok tracks) :
    ∀ result ∈ tracks, ∃ (track scaled : Track) (begins : Binary64), track.Played ∧
      track.Rescaled scaled ∧ begins.isFinite ∧ 0 ≤ begins ∧ place begins scaled = .ok result := by
  induction fragments generalizing start tracks with
  | nil =>
      obtain rfl := scheduleFrom_nil_eq_ok_iff.mp scheduled
      exact List.forall_mem_nil _
  | cons fragment rest ih =>
      obtain ⟨played, placed, later, plays, places, continued, rfl⟩ :=
        scheduleFrom_cons_eq_ok_iff.mp scheduled
      have origin : ∀ result ∈ placed, ∃ track scaled, Track.Played track ∧
          track.Rescaled scaled ∧ place start scaled = .ok result := by
        intro result member
        obtain ⟨scaled, found, moved⟩ := exists_of_mem_right places member
        obtain ⟨track, sung, rescaled⟩ := playFragment_rescaled usable plays scaled found
        exact ⟨track, scaled, sung, rescaled, moved⟩
      have timed : ∀ track ∈ placed, track.WellTimed := by
        intro result member
        obtain ⟨track, scaled, sung, rescaled, moved⟩ := origin result member
        exact place_wellTimed finite nonneg (rescaled_forward sung rescaled) moved
      have ends := latestFinish_wellTimed finite nonneg timed
      intro result member
      rcases List.mem_append.mp member with first | second
      · obtain ⟨track, scaled, sung, rescaled, moved⟩ := origin result first
        exact ⟨track, scaled, start, sung, rescaled, finite, nonneg, moved⟩
      · exact ih ends.1 ends.2 continued result second

theorem schedule_wellTimed {fragments : List Fragment} (usable : Usable o.noteLength)
    (scheduled : schedule o fragments = .ok tracks) : ∀ track ∈ tracks, track.WellTimed := by
  intro result member
  obtain ⟨track, scaled, begins, sung, rescaled, finite, nonneg, moved⟩ :=
    scheduleFrom_placed usable (Binary64.isFinite_zero false) (Binary64.zero_nonneg false)
      scheduled result member
  exact place_wellTimed finite nonneg (rescaled_forward sung rescaled) moved

end Polyphony.Timeline
