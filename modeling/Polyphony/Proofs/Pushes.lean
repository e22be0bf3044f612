import Polyphony.Proofs.Compile
import Polyphony.Proofs.Logged
import Polyphony.Proofs.Timeline.Notes

/-! Compiling is run again with a log of the events pushed on every track that is begun, up to the
first fault. It ends as compiling does, and every log is in order. Scaling and placing keep the
order, so the tracks that are returned are in order too. -/
namespace Polyphony.Timeline

open Score (NoteCode Token Voice Fragment)
open Score.Directive (Usable)

variable {s next last : Scope} {code : NoteCode} {token : Token} {events : List Event}
  {e : Event} {track result : Track} {start : Binary64} {o : Options}

/-- A note is pushed once it is known that nothing speaks against it. -/
def Scope.pushNote (s : Scope) (code : NoteCode) : Logged Event Fault Event :=
  match s.event code with
  | .ok event => ⟨[event], .ok event⟩
  | .error fault => ⟨[], .error fault⟩

/-- The members of a chord are pushed one by one. -/
def Scope.pushChord (s : Scope) : List NoteCode → Logged Event Fault (List Event)
  | [] => pure []
  | code :: codes => do
    let event ← s.pushNote code
    let events ← s.pushChord codes
    return event :: events

def Scope.pushToken (s : Scope) : Token → Logged Event Fault Scope
  | .note code => do
    let event ← s.pushNote code
    .silent (s.advance event.played)
  | .chord codes => do
    let events ← s.pushChord codes
    if events.isEmpty then return s else .silent (s.advance (shortest events))
  | .rest length => .silent (s.lengthOf length >>= s.advance)
  | .directive d => .silent (s.apply d)

def Scope.pushAll (s : Scope) : Voice → Logged Event Fault FragmentScope
  | [] => pure s.fragment
  | token :: rest => do
    let next ← s.pushToken token
    next.pushAll rest

theorem result_pushNote (s : Scope) (code : NoteCode) :
    (s.pushNote code).result = (s.event code).map fun event => ([event], event) := by
  unfold Scope.pushNote
  cases s.event code <;> rfl

theorem result_pushChord (s : Scope) (codes : List NoteCode) :
    (s.pushChord codes).result = (codes.mapM s.event).map fun events => (events, events) := by
  induction codes with
  | nil => rfl
  | cons code codes ih =>
      rw [Scope.pushChord, Logged.result_bind, result_pushNote, List.mapM_cons]
      cases s.event code with
      | error fault => rfl
      | ok event =>
          change (s.pushChord codes >>= fun events => pure (event :: events)).result.map _ = _
          rw [Logged.result_bind, ih]
          cases codes.mapM s.event with
          | error fault => rfl
          | ok events =>
              have logged : [event] ++ (events ++ []) = event :: events :=
                congrArg (event :: ·) (List.append_nil events)
              exact congrArg (fun log => Except.ok (log, event :: events)) logged

theorem result_pushToken (s : Scope) (token : Token) :
    (s.pushToken token).result = s.play token := by
  cases token with
  | note code =>
      rw [Scope.pushToken, Logged.result_bind, result_pushNote, Scope.play]
      cases s.event code with
      | error fault => rfl
      | ok event =>
          change (Logged.silent (s.advance event.played)).result.map _ = _
          rw [Logged.result_silent]
          change _ = s.advance event.played >>= _
          cases s.advance event.played <;> rfl
  | chord codes =>
      rw [Scope.pushToken, Logged.result_bind, result_pushChord, Scope.play]
      cases codes.mapM s.event with
      | error fault => rfl
      | ok events =>
          cases events with
          | nil => rfl
          | cons event events =>
              change (Logged.silent (s.advance (shortest (event :: events)))).result.map _ =
                s.advance (shortest (event :: events)) >>= _
              rw [Logged.result_silent]
              cases s.advance (shortest (event :: events)) with
              | error fault => rfl
              | ok next => exact congrArg (fun log => Except.ok (log, next)) (List.append_nil _)
  | rest length =>
      rw [Scope.pushToken, Logged.result_silent, Scope.play]
      cases s.lengthOf length with
      | error fault => rfl
      | ok span =>
          change (s.advance span).map _ = s.advance span >>= _
          cases s.advance span <;> rfl
  | directive d =>
      rw [Scope.pushToken, Logged.result_silent, Scope.play]
      cases s.apply d <;> rfl

theorem result_pushAll (s : Scope) (tokens : Voice) :
    (s.pushAll tokens).result = s.playAll tokens := by
  induction tokens generalizing s with
  | nil => rfl
  | cons token rest ih =>
      rw [Scope.pushAll, Logged.result_bind, result_pushToken, Scope.playAll]
      cases s.play token with
      | error fault => rfl
      | ok played =>
          change (played.2.pushAll rest).result.map _ = played.2.playAll rest >>= _
          rw [ih]
          cases played.2.playAll rest <;> rfl

/-- There is one log for every voice that is begun. -/
def pushVoices (o : Options) (scope : FragmentScope) :
    List Voice → Logged (List Event) Fault (List Track × FragmentScope)
  | [] => pure ([], scope)
  | voice :: rest => do
    let (events, inner) ← (Scope.pushAll ⟨scope, .start o⟩ voice).gathered
    let (tracks, last) ← pushVoices o inner rest
    return ({ events } :: tracks, last)

def pushFragment (o : Options) (fragment : Fragment) : Logged (List Event) Fault (List Track) := do
  let (tracks, scope) ← pushVoices o ⟨o.noteLength, fragment.rhythm⟩ fragment.voices
  .silent (if scope.rhythm = .relative then align tracks else return tracks)

def pushFrom (o : Options) (start : Binary64) :
    List Fragment → Logged (List Event) Fault (List Track)
  | [] => pure []
  | fragment :: rest => do
    let played ← pushFragment o fragment
    let placed ← .silent (played.mapM (place start))
    let later ← pushFrom o (latestFinish start placed) rest
    return placed ++ later

theorem outcome_pushVoices (o : Options) (scope : FragmentScope) (voices : List Voice) :
    (pushVoices o scope voices).outcome = playVoices o scope voices := by
  induction voices generalizing scope with
  | nil => rfl
  | cons voice rest ih =>
      rw [pushVoices, Logged.outcome_bind, playVoices, ← result_pushAll]
      congr 1
      funext played
      obtain ⟨events, inner⟩ := played
      rw [Logged.outcome_bind, ih]
      rfl

theorem outcome_pushFragment (o : Options) (fragment : Fragment) :
    (pushFragment o fragment).outcome = playFragment o fragment := by
  rw [pushFragment, Logged.outcome_bind, outcome_pushVoices]
  rfl

theorem outcome_pushFrom (o : Options) (start : Binary64) (fragments : List Fragment) :
    (pushFrom o start fragments).outcome = scheduleFrom o start fragments := by
  induction fragments generalizing start with
  | nil => rfl
  | cons fragment rest ih =>
      rw [pushFrom, Logged.outcome_bind, outcome_pushFragment, scheduleFrom]
      congr 1
      funext played
      rw [Logged.outcome_bind]
      congr 1
      funext placed
      rw [Logged.outcome_bind, ih]
      rfl

theorem log_pushVoices {scope ended : FragmentScope} {voices : List Voice}
    {tracks : List Track} (played : playVoices o scope voices = .ok (tracks, ended)) :
    (pushVoices o scope voices).log = tracks.map Track.events := by
  induction voices generalizing scope tracks with
  | nil =>
      obtain ⟨rfl, rfl⟩ := playVoices_nil_eq_ok_iff.mp played
      rfl
  | cons voice rest ih =>
      obtain ⟨events, inner, later, run, continued, rfl⟩ := playVoices_cons_eq_ok_iff.mp played
      have pushed := (result_pushAll _ voice).trans (playAll_eq_ok_iff.mpr ⟨inner, run, rfl⟩)
      have ends := (outcome_pushVoices o inner.fragment rest).trans continued
      have log := (Logged.result_eq_ok_iff.mp pushed).2
      rw [pushVoices, Logged.bind_of_ok _ pushed]
      change [_] ++ (pushVoices o inner.fragment rest >>= _).log = _
      rw [Logged.bind_of_ok _ ends, ih continued, log]
      exact congrArg (events :: ·) (List.append_nil _)

/-- When all goes well there is one log for every track, and its events are those of the track
before they were retimed. -/
theorem log_pushFrom {fragments : List Fragment} {tracks : List Track}
    (scheduled : scheduleFrom o start fragments = .ok tracks) :
    List.Forall₂ (fun log track => ∃ change, Retimed change { events := log } track)
      (pushFrom o start fragments).log tracks := by
  induction fragments generalizing start tracks with
  | nil =>
      obtain rfl := scheduleFrom_nil_eq_ok_iff.mp scheduled
      exact .nil
  | cons fragment rest ih =>
      obtain ⟨played, placed, later, plays, places, continued, rfl⟩ :=
        scheduleFrom_cons_eq_ok_iff.mp scheduled
      obtain ⟨voiced, scope, voices, lined⟩ := playFragment_eq_ok_iff.mp plays
      have first : (pushFragment o fragment).log = voiced.map Track.events := by
        have ends := (outcome_pushVoices _ _ _).trans voices
        rw [pushFragment, Logged.bind_of_ok _ ends, log_pushVoices voices]
        exact List.append_nil _
      have ends := (outcome_pushFragment o fragment).trans plays
      have retimed : List.Forall₂
          (fun log track => ∃ change, Retimed change { events := log } track)
          (pushFragment o fragment).log placed := by
        rw [first, List.forall₂_map_left_iff]
        refine (placed_retimed lined places).imp ?_
        rintro track result ⟨change, retimed, _⟩
        exact ⟨change, retimed⟩
      have placing : (Logged.silent (played.mapM (place start)) :
          Logged (List Event) Fault (List Track)).outcome = .ok placed := mapM_eq_ok_iff.mpr places
      have rests := (outcome_pushFrom o (latestFinish start placed) rest).trans continued
      rw [pushFrom, Logged.bind_of_ok _ ends, Logged.bind_of_ok _ placing,
        Logged.bind_of_ok _ rests]
      refine List.rel_append retimed ?_
      change List.Forall₂ _ ([] ++ (_ ++ [])) later
      rw [List.nil_append, List.append_nil]
      exact ih continued

/-- No event starts before one that comes earlier. -/
def InOrder (events : List Event) : Prop := events.Pairwise fun a b => a.start ≤ b.start

theorem start_of_pushNote (member : e ∈ (s.pushNote code).log) : e.start = s.voice.clock := by
  unfold Scope.pushNote at member
  split at member
  · next event sounds =>
      obtain rfl := List.mem_singleton.mp member
      rw [← (event_eq_ok_iff.mp sounds).2]
      rfl
  · exact absurd member List.not_mem_nil

theorem start_of_pushChord {codes : List NoteCode} (member : e ∈ (s.pushChord codes).log) :
    e.start = s.voice.clock := by
  induction codes with
  | nil => exact absurd member List.not_mem_nil
  | cons code codes ih =>
      rw [Scope.pushChord, Logged.mem_log_bind] at member
      rcases member with first | ⟨event, _, later⟩
      · exact start_of_pushNote first
      · exact ih ((Logged.mem_log_bind_of_silent fun _ => rfl).mp later)

/-- All that a token pushes starts at the clock, also when it fails half way through a chord. -/
theorem start_of_pushToken (member : e ∈ (s.pushToken token).log) : e.start = s.voice.clock := by
  cases token with
  | note code => exact start_of_pushNote ((Logged.mem_log_bind_of_silent fun _ => rfl).mp member)
  | chord codes =>
      refine start_of_pushChord ((Logged.mem_log_bind_of_silent ?_).mp member)
      intro events
      cases events <;> rfl
  | rest length => exact absurd member List.not_mem_nil
  | directive d => exact absurd member List.not_mem_nil

theorem pushToken_inOrder (timed : s.WellTimed) : InOrder (s.pushToken token).log := by
  refine List.pairwise_of_forall_mem_list fun a first b second => ?_
  rw [start_of_pushToken first, start_of_pushToken second]
  exact Binary64.le_refl (Binary64.isNaN_of_isFinite timed.clock_finite)

/-- The pushes of a voice are in order and none starts before its clock, however it ends. -/
theorem pushAll_inOrder (timed : s.WellTimed) (tokens : Voice) :
    (∀ e ∈ (s.pushAll tokens).log, s.voice.clock ≤ e.start) ∧ InOrder (s.pushAll tokens).log := by
  induction tokens generalizing s with
  | nil => exact ⟨fun e member => absurd member List.not_mem_nil, .nil⟩
  | cons token rest ih =>
      have atClock : ∀ e ∈ (s.pushToken token).log, s.voice.clock ≤ e.start := by
        intro e member
        rw [start_of_pushToken member]
        exact Binary64.le_refl (Binary64.isNaN_of_isFinite timed.clock_finite)
      rw [Scope.pushAll]
      cases ended : (s.pushToken token).outcome with
      | error fault =>
          rw [Logged.bind_of_error _ ended]
          exact ⟨atClock, pushToken_inOrder timed⟩
      | ok next =>
          have played : s.play token = .ok ((s.pushToken token).log, next) := by
            rw [← result_pushToken]
            exact Logged.result_eq_ok_iff.mpr ⟨ended, rfl⟩
          have step := play_eq_ok_iff.mp played
          have moves := step_clock_le step timed
          obtain ⟨later, ordered⟩ := ih (step_wellTimed step timed).1
          rw [Logged.bind_of_ok _ ended]
          constructor
          · intro e member
            rcases List.mem_append.mp member with first | second
            · exact atClock e first
            · exact Binary64.le_trans moves (later e second)
          · refine List.pairwise_append.mpr ⟨pushToken_inOrder timed, ordered, ?_⟩
            intro a first b second
            rw [start_of_pushToken first]
            exact Binary64.le_trans moves (later b second)

theorem pushVoices_inOrder {scope : FragmentScope}
    (usable : Usable scope.noteLength) (voices : List Voice) :
    ∀ log ∈ (pushVoices o scope voices).log, InOrder log := by
  induction voices generalizing scope with
  | nil => exact List.forall_mem_nil _
  | cons voice rest ih =>
      have timed := wellTimed_of_usable usable o
      intro log member
      rw [pushVoices, Logged.mem_log_bind] at member
      rcases member with first | ⟨⟨events, inner⟩, ended, later⟩
      · obtain rfl := List.mem_singleton.mp first
        exact (pushAll_inOrder timed voice).2
      · have played := (result_pushAll _ voice).symm.trans ended
        obtain ⟨last, run, rfl⟩ := playAll_eq_ok_iff.mp played
        have others := (Logged.mem_log_bind_of_silent fun _ => rfl).mp later
        exact ih (run_wellTimed run timed).1.noteLength log others

theorem pushFragment_inOrder (usable : Usable o.noteLength) (fragment : Fragment) :
    ∀ log ∈ (pushFragment o fragment).log, InOrder log := by
  intro log member
  have voices := (Logged.mem_log_bind_of_silent fun _ => rfl).mp member
  exact pushVoices_inOrder usable fragment.voices log voices

theorem pushFrom_inOrder (usable : Usable o.noteLength) (fragments : List Fragment) :
    ∀ log ∈ (pushFrom o start fragments).log, InOrder log := by
  induction fragments generalizing start with
  | nil => exact List.forall_mem_nil _
  | cons fragment rest ih =>
      intro log member
      rcases Logged.mem_log_bind.mp member with first | ⟨played, _, member⟩
      · exact pushFragment_inOrder usable fragment log first
      · rcases Logged.mem_log_bind.mp member with none | ⟨placed, _, member⟩
        · exact absurd none List.not_mem_nil
        · exact ih log ((Logged.mem_log_bind_of_silent fun _ => rfl).mp member)

theorem inOrder_map {change : Event → Event} (ordered : InOrder events)
    (keeps : ∀ a ∈ events, ∀ b ∈ events, a.start ≤ b.start → (change a).start ≤ (change b).start) :
    InOrder (events.map change) :=
  List.pairwise_map.mpr (ordered.imp_of_mem fun first second le => keeps _ first _ second le)

theorem Track.Played.inOrder (played : track.Played) : InOrder track.events := by
  obtain ⟨s, voice, last, timed, run⟩ := played
  have ran := playAll_eq_ok_iff.mpr ⟨last, run, rfl⟩
  rw [← result_pushAll] at ran
  rw [← (Logged.result_eq_ok_iff.mp ran).2]
  exact (pushAll_inOrder timed voice).2

/-- A ratio that rounds to zero, or a product beyond the limit, makes starts equal at worst. -/
theorem rescaled_inOrder (played : track.Played) (rescaled : track.Rescaled result) :
    InOrder result.events := by
  rcases rescaled with rfl | ⟨ratio, finite, nonneg, rfl⟩
  · exact played.inOrder
  · refine inOrder_map played.inOrder fun a first b second le => ?_
    have drafted := played.drafted
    exact Binary64.mul_le_mul_right (drafted a first).start_finite (drafted b second).start_finite
      finite nonneg le

theorem place_inOrder (finite : start.isFinite) (ordered : InOrder track.events)
    (placed : place start track = .ok result) : InOrder result.events := by
  obtain ⟨ends, rfl⟩ := place_eq_ok_iff.mp placed
  have starts : ∀ event ∈ track.events, event.start.isFinite := by
    intro event member
    have moved := ends (event.shift start) (List.mem_map_of_mem member)
    exact (Binary64.isFinite_of_add (Binary64.isFinite_of_add moved).1).1
  refine inOrder_map ordered fun a first b second le => ?_
  exact Binary64.add_le_add_right (starts a first) (starts b second) finite le

theorem schedule_inOrder {fragments : List Fragment} {tracks : List Track}
    (usable : Usable o.noteLength) (scheduled : schedule o fragments = .ok tracks) :
    ∀ track ∈ tracks, InOrder track.events := by
  intro result member
  obtain ⟨track, scaled, begins, sung, rescaled, finite, nonneg, moved⟩ :=
    scheduleFrom_placed usable (Binary64.isFinite_zero false) (Binary64.zero_nonneg false)
      scheduled result member
  exact place_inOrder finite (rescaled_inOrder sung rescaled) moved

end Polyphony.Timeline

namespace Polyphony

open Timeline

/-- Compiling, with a log for every track that is begun. -/
def compileLogged (o : Options) (source : String) : Logged (List Event) Error (List Track) := do
  Logged.silent o.check
  let fragments ← .silent ((Score.lex (Score.normalise source.toList)).mapError .lex)
  (pushFrom o (.zero false) fragments).mapError .schedule

theorem outcome_compileLogged (o : Options) (source : String) :
    (compileLogged o source).outcome = compile o source := by
  rw [compileLogged, Logged.outcome_bind, compile]
  congr 1
  funext _
  rw [Logged.outcome_bind]
  congr 1
  funext fragments
  rw [Logged.mapError, outcome_pushFrom]
  rfl

theorem log_compileLogged {o : Options} {source : String} {tracks : List Track}
    (compiled : compile o source = .ok tracks) :
    List.Forall₂ (fun log track => ∃ change, Retimed change { events := log } track)
      (compileLogged o source).log tracks := by
  obtain ⟨usable, fragments, lexed, scheduled⟩ := compile_eq_ok_iff.mp compiled
  have checked : (Logged.silent o.check : Logged (List Event) Error Unit).outcome = .ok () :=
    check_eq_ok_iff.mpr usable
  rw [compileLogged, Logged.bind_of_ok _ checked, lexed]
  exact log_pushFrom scheduled

theorem compileLogged_inOrder (o : Options) (source : String) :
    ∀ log ∈ (compileLogged o source).log, InOrder log := by
  intro log member
  rcases Logged.mem_log_bind.mp member with none | ⟨⟨⟩, checked, member⟩
  · exact absurd none List.not_mem_nil
  · rcases Logged.mem_log_bind.mp member with none | ⟨fragments, _, pushed⟩
    · exact absurd none List.not_mem_nil
    · exact pushFrom_inOrder (check_eq_ok_iff.mp checked) fragments log pushed

/-- However compiling ends, the events of every track that is begun are pushed in the order of their
starts. When it succeeds these are the events that are returned, retimed, and still in order. -/
theorem compile_pushes_in_order (o : Options) (source : String) :
    (compileLogged o source).outcome = compile o source ∧
      (∀ log ∈ (compileLogged o source).log, log.Pairwise fun a b => a.start ≤ b.start) ∧
      ∀ tracks, compile o source = .ok tracks →
        List.Forall₂ (fun log track => ∃ change, Retimed change { events := log } track)
          (compileLogged o source).log tracks ∧
        ∀ track ∈ tracks, track.events.Pairwise fun a b => a.start ≤ b.start := by
  refine ⟨outcome_compileLogged o source, compileLogged_inOrder o source, ?_⟩
  intro tracks compiled
  refine ⟨log_compileLogged compiled, ?_⟩
  obtain ⟨usable, fragments, _, scheduled⟩ := compile_eq_ok_iff.mp compiled
  exact schedule_inOrder usable scheduled

/-- Two notes are pushed before the tempo is refused; without the tempo they are returned. -/
theorem pushes_of_refused_tempo :
    (compileLogged {} "01\x7bTEMPO=0\x7d2").log = [[⟨0, 1, 1, 48, 1⟩, ⟨1, 1, 1, 49, 1⟩]] ∧
      (compile {} "01\x7bTEMPO=0\x7d2").toBool = false ∧
      compile {} "01" = .ok [{ events := [⟨0, 1, 1, 48, 1⟩, ⟨1, 1, 1, 49, 1⟩] }] ∧
      InOrder [⟨0, 1, 1, 48, 1⟩, ⟨1, 1, 1, 49, 1⟩] := by
  have compiled : compile {} "01" =
      .ok [{ events := [⟨0, 1, 1, 48, 1⟩, ⟨1, 1, 1, 49, 1⟩] }] := by decide +kernel
  refine ⟨by decide +kernel, by decide +kernel, compiled, ?_⟩
  exact ((compile_pushes_in_order {} "01").2.2 _ compiled).2 _ List.mem_cons_self

end Polyphony
