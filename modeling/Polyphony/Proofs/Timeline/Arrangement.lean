import Polyphony.Proofs.Timeline.Step
import Polyphony.Timeline.Schedule

/-! Each pass over the voices is inverted once: they are played one after the other, aligned with
the last of them, and placed where the fragment starts. -/
namespace Polyphony.Timeline

open Score (Voice Fragment)

variable {o : Options} {scope last : FragmentScope} {start target : Binary64}
  {track result : Track} {tracks results : List Track}

theorem playVoices_nil_eq_ok_iff :
    playVoices o scope [] = .ok (tracks, last) ↔ tracks = [] ∧ last = scope := by
  constructor
  · intro played
    cases played
    exact ⟨rfl, rfl⟩
  · rintro ⟨rfl, rfl⟩
    rfl

theorem playVoices_cons_eq_ok_iff {voice : Voice} {rest : List Voice} :
    playVoices o scope (voice :: rest) = .ok (tracks, last) ↔
      ∃ events inner later, Scope.Run ⟨scope, .start o⟩ voice events inner ∧
        playVoices o inner.fragment rest = .ok (later, last) ∧
        tracks = { events } :: later := by
  constructor
  · intro played
    obtain ⟨⟨events, inner⟩, sung, continued⟩ := bind_eq_ok_iff.mp played
    obtain ⟨⟨later, ended⟩, others, paired⟩ := bind_eq_ok_iff.mp continued
    obtain ⟨inner, run, rfl⟩ := playAll_eq_ok_iff.mp sung
    cases paired
    exact ⟨events, inner, later, run, others, rfl⟩
  · rintro ⟨events, inner, later, run, rest, rfl⟩
    refine bind_eq_ok_iff.mpr ⟨_, playAll_eq_ok_iff.mpr ⟨inner, run, rfl⟩, ?_⟩
    exact bind_eq_ok_iff.mpr ⟨_, rest, rfl⟩

theorem stretch_eq_ok_iff :
    stretch target track = .ok result ↔
      (0 < track.finish → (target / track.finish).isFinite) ∧
        result = if 0 < track.finish then track.scale (target / track.finish) else track := by
  unfold stretch
  dsimp only
  by_cases ends : 0 < track.finish
  · rw [if_pos ends, if_pos ends, ite_eq_ok_iff]
    exact and_congr ⟨fun finite _ => finite, fun finite => finite ends⟩ eq_comm
  · rw [if_neg ends, if_neg ends, Except.ok.injEq]
    exact eq_comm.trans (and_iff_right fun ends' => absurd ends' ends).symm

theorem align_concat_eq (others : List Track) (last : Track) :
    align (others ++ [last]) =
      if last.finish ≤ 0 then .ok (others ++ [last])
      else do return (← others.mapM (stretch last.finish)) ++ [last] := by
  rw [align, List.getLast?_concat]
  dsimp only
  rw [List.dropLast_concat]

/-- The tracks of a relative fragment, before and after they are aligned. -/
inductive Aligned : List Track → List Track → Prop where
  | none : Aligned [] []
  | silent (others : List Track) (last : Track) (ends : last.finish ≤ 0) :
      Aligned (others ++ [last]) (others ++ [last])
  | stretched (others results : List Track) (last : Track) (ends : ¬ last.finish ≤ 0)
      (each : List.Forall₂ (fun track result => stretch last.finish track = .ok result)
        others results) :
      Aligned (others ++ [last]) (results ++ [last])

theorem align_eq_ok_iff : align tracks = .ok results ↔ Aligned tracks results := by
  constructor
  · intro aligned
    rcases List.eq_nil_or_concat' tracks with rfl | ⟨others, last, rfl⟩
    · cases aligned
      exact .none
    · rw [align_concat_eq] at aligned
      split at aligned
      · next ends =>
          cases aligned
          exact .silent others last ends
      · next ends =>
          obtain ⟨scaled, each, aligned⟩ := bind_eq_ok_iff.mp aligned
          cases aligned
          exact .stretched others scaled last ends (mapM_eq_ok_iff.mp each)
  · intro aligned
    cases aligned with
    | none => rfl
    | silent others last ends => rw [align_concat_eq, if_pos ends]
    | stretched others scaled last ends each =>
        rw [align_concat_eq, if_neg ends]
        exact bind_eq_ok_iff.mpr ⟨scaled, mapM_eq_ok_iff.mpr each, rfl⟩

/-- A track is kept, or scaled as a whole to end with one of `tracks`. -/
def Fitted (tracks : List Track) (track result : Track) : Prop :=
  result = track ∨ ∃ last ∈ tracks, 0 < track.finish ∧
    (last.finish / track.finish).isFinite ∧ result = track.scale (last.finish / track.finish)

theorem Aligned.fitted (aligned : Aligned tracks results) :
    List.Forall₂ (Fitted tracks) tracks results := by
  cases aligned with
  | none => exact .nil
  | silent others last ends => exact List.forall₂_same.mpr fun track _ => .inl rfl
  | stretched others scaled last ends each =>
      have fitted : List.Forall₂ (Fitted (others ++ [last])) others scaled := by
        refine each.imp fun track result stretched => ?_
        obtain ⟨finite, scaled⟩ := stretch_eq_ok_iff.mp stretched
        by_cases sounds : 0 < track.finish
        · rw [if_pos sounds] at scaled
          exact .inr ⟨last, List.mem_concat_self, sounds, finite sounds, scaled⟩
        · rw [if_neg sounds] at scaled
          exact .inl scaled
      exact List.rel_append fitted (.cons (.inl rfl) .nil)

theorem playFragment_eq_ok_iff {fragment : Fragment} :
    playFragment o fragment = .ok results ↔
      ∃ tracks scope,
        playVoices o ⟨o.noteLength, fragment.rhythm⟩ fragment.voices =
          .ok (tracks, scope) ∧
        if scope.rhythm = .relative then Aligned tracks results else results = tracks := by
  constructor
  · intro played
    obtain ⟨⟨tracks, scope⟩, voices, played⟩ := bind_eq_ok_iff.mp played
    refine ⟨tracks, scope, voices, ?_⟩
    dsimp only at played
    split at played
    · next relative => rw [if_pos relative]; exact align_eq_ok_iff.mp played
    · next absolute => rw [if_neg absolute]; exact (Except.ok.inj played).symm
  · rintro ⟨tracks, scope, voices, lined⟩
    refine bind_eq_ok_iff.mpr ⟨_, voices, ?_⟩
    dsimp only
    split
    · next relative => rw [if_pos relative] at lined; exact align_eq_ok_iff.mpr lined
    · next absolute => rw [if_neg absolute] at lined; exact congrArg Except.ok lined.symm

theorem place_eq_ok_iff :
    place start track = .ok result ↔
      (∀ event ∈ (track.shift start).events, event.finish.isFinite) ∧
        track.shift start = result := by
  unfold place
  dsimp only
  split
  · next event found =>
      refine iff_of_false (fun h => by cases h) fun h => ?_
      have finite := h.1 event (List.mem_of_find?_eq_some found)
      have infinite := List.find?_some found
      rw [finite] at infinite
      cases infinite
  · next none =>
      rw [Except.ok.injEq]
      refine (and_iff_right fun event member => ?_).symm
      simpa using List.find?_eq_none.mp none event member

/-- Whether a track can be placed, and where the event starts that speaks against it. -/
theorem place_eq (start : Binary64) (track : Track) :
    place start track = match ((track.shift start).events.find? fun event =>
        !event.finish.isFinite).map Event.start with
      | some time => .error (.timingOverflow time)
      | none => .ok (track.shift start) := by
  unfold place
  dsimp only
  split
  · next event found => rw [found]; rfl
  · next none => rw [none]; rfl

theorem scheduleFrom_nil_eq_ok_iff : scheduleFrom o start [] = .ok tracks ↔ tracks = [] := by
  rw [scheduleFrom, Except.ok.injEq, eq_comm]

theorem scheduleFrom_cons_eq_ok_iff {fragment : Fragment} {rest : List Fragment} :
    scheduleFrom o start (fragment :: rest) = .ok tracks ↔
      ∃ played placed later, playFragment o fragment = .ok played ∧
        List.Forall₂ (fun track result => place start track = .ok result) played placed ∧
        scheduleFrom o (latestFinish start placed) rest = .ok later ∧ tracks = placed ++ later := by
  constructor
  · intro scheduled
    obtain ⟨played, plays, scheduled⟩ := bind_eq_ok_iff.mp scheduled
    obtain ⟨placed, places, scheduled⟩ := bind_eq_ok_iff.mp scheduled
    obtain ⟨later, rest, scheduled⟩ := bind_eq_ok_iff.mp scheduled
    exact ⟨played, placed, later, plays, mapM_eq_ok_iff.mp places, rest,
      (Except.ok.inj scheduled).symm⟩
  · rintro ⟨played, placed, later, plays, places, rest, rfl⟩
    refine bind_eq_ok_iff.mpr ⟨played, plays, ?_⟩
    refine bind_eq_ok_iff.mpr ⟨placed, mapM_eq_ok_iff.mpr places, ?_⟩
    exact bind_eq_ok_iff.mpr ⟨later, rest, rfl⟩

theorem latestFinish_cons (track : Track) (rest : List Track) :
    latestFinish start (track :: rest) =
      if track.events.isEmpty then latestFinish start rest
      else latestFinish (start.max track.finish) rest := by
  rw [latestFinish, List.filter_cons]
  cases track.events.isEmpty <;> rfl

theorem latestFinish_append (first second : List Track) :
    latestFinish start (first ++ second) = latestFinish (latestFinish start first) second := by
  rw [latestFinish, List.filter_append, List.map_append, List.foldl_append]
  rfl

/-- The tracks of a score are those of its fragments, each placed at the latest end of the tracks
before it. -/
theorem scheduleFrom_parts {fragments : List Fragment}
    (scheduled : scheduleFrom o start fragments = .ok tracks) :
    ∃ parts : List (List Track), tracks = parts.flatten ∧ parts.length = fragments.length ∧
      ∀ (k : Nat) (fragment : Fragment) (part : List Track), fragments[k]? = some fragment →
        parts[k]? = some part → ∃ played, playFragment o fragment = .ok played ∧
          List.Forall₂ (fun track result =>
              place (latestFinish start (parts.take k).flatten) track = .ok result)
            played part := by
  induction fragments generalizing start tracks with
  | nil =>
      refine ⟨[], scheduleFrom_nil_eq_ok_iff.mp scheduled, rfl, ?_⟩
      rintro k fragment part ⟨⟩
  | cons fragment rest ih =>
      obtain ⟨played, placed, later, plays, places, continued, rfl⟩ :=
        scheduleFrom_cons_eq_ok_iff.mp scheduled
      obtain ⟨parts, rfl, same, each⟩ := ih continued
      refine ⟨placed :: parts, rfl, congrArg (· + 1) same, ?_⟩
      intro k other part found foundPart
      cases k with
      | zero =>
          cases found
          cases foundPart
          exact ⟨played, plays, places⟩
      | succ k =>
          rw [List.take_succ_cons, List.flatten_cons, latestFinish_append]
          exact each k other part found foundPart

end Polyphony.Timeline
