import Polyphony.Proofs.Binary64.Factor
import Polyphony.Proofs.Timeline.ChordOrder

/-! A code of zero can be read as one base length or as an undivided one, so codes are compared as
factors from zero up and as divisors from zero down. A chord is therefore as long as its least code
tells. -/
namespace Polyphony.Timeline

open Score (NoteCode Fragment Token Voice)
open Score.Directive (Usable)
open Binary64 (Unsigned)

variable {o : Options} {base : Binary64} {m n least : Int} {s next last : Scope}
  {scope ended : FragmentScope} {codes : List NoteCode} {token : Token}
  {opening closing : Voice} {left right : List Voice} {events : List Event} {tracks : List Track}
  {fragment : Fragment} {fragments : List Fragment}

theorem sounding_of_nonneg (usable : Usable base) (nonneg : 0 ≤ n) :
    sounding base n = base * .ofInt (1 + n) := by
  unfold sounding
  split
  · rfl
  · next notLonger =>
      obtain rfl : n = 0 := Int.le_antisymm (Int.not_lt.mp notLonger) nonneg
      rw [if_neg (Int.lt_irrefl 0), Int.add_zero, Binary64.ofInt_one,
        (Binary64.unsigned_of_pos usable.2).mul_one usable.1]

theorem sounding_of_nonpos (usable : Usable base) (nonpos : n ≤ 0) :
    sounding base n = base / .twoPow n.natAbs := by
  unfold sounding
  rw [if_neg (Int.not_lt.mpr nonpos)]
  split
  · rfl
  · next notShorter =>
      obtain rfl : n = 0 := Int.le_antisymm nonpos (Int.not_lt.mp notShorter)
      rw [Int.natAbs_zero, Binary64.twoPow_zero,
        (Binary64.unsigned_of_pos usable.2).div_one usable.1]

/-- A note with a larger code never sounds shorter, though rounding can make it sound as long. -/
theorem sounding_mono (usable : Usable base) (le : m ≤ n) : sounding base m ≤ sounding base n := by
  have longer : ∀ {m n : Int}, 0 ≤ m → m ≤ n → sounding base m ≤ sounding base n := by
    intro m n nonneg le
    rw [sounding_of_nonneg usable nonneg, sounding_of_nonneg usable (Int.le_trans nonneg le)]
    exact Binary64.mul_le_mul_left usable.1 usable.2 (Binary64.ofInt_pos (by omega))
      (Binary64.ofInt_mono (by omega) (by omega))
  have shorter : ∀ {m n : Int}, n ≤ 0 → m ≤ n → sounding base m ≤ sounding base n := by
    intro m n nonpos le
    rw [sounding_of_nonpos usable nonpos, sounding_of_nonpos usable (Int.le_trans le nonpos)]
    exact Binary64.div_le_div_left usable.1 (Binary64.unsigned_of_pos usable.2)
      (Binary64.twoPow_pos n.natAbs) (Binary64.twoPow_mono (by omega))
  rcases Int.le_total 0 m with nonneg | m_nonpos
  · exact longer nonneg le
  · rcases Int.le_total n 0 with nonpos | n_nonneg
    · exact shorter nonpos le
    · exact Binary64.le_trans (shorter (Int.le_refl 0) m_nonpos)
        (longer (Int.le_refl 0) n_nonneg)

theorem shortest_sounded (usable : Usable s.fragment.noteLength)
    (member : least ∈ codes.map (·.length)) (below : ∀ code ∈ codes, least ≤ code.length) :
    shortest (codes.map s.sounded) = sounding s.fragment.noteLength least := by
  have times : (codes.map s.sounded).map (·.played) =
      codes.map fun code => sounding s.fragment.noteLength code.length := List.map_map
  rw [shortest, times]
  refine Binary64.foldl_min_eq ?_ ?_ ?_
  · refine List.forall_mem_cons.mpr ⟨Binary64.unsigned_infinite, ?_⟩
    exact List.forall_mem_map.mpr fun code _ => unsigned_sounding usable code.length
  · obtain ⟨code, found, rfl⟩ := List.mem_map.mp member
    exact List.mem_cons_of_mem _ (List.mem_map.mpr ⟨code, found, rfl⟩)
  · refine List.forall_mem_cons.mpr ⟨?_, ?_⟩
    · exact Binary64.le_infinite (unsigned_sounding usable least).number
    · exact List.forall_mem_map.mpr fun code found => sounding_mono usable (below code found)

theorem chord_advances (usable : Usable s.fragment.noteLength) (members : codes ≠ [])
    (step : s.Step (.chord codes) events next) :
    ∃ least : Int, (codes.map (·.length)).min? = some least ∧
      next.voice.clock = s.voice.clock + sounding s.fragment.noteLength least := by
  cases step with
  | silence => exact absurd rfl members
  | chord codes members admits moves =>
      obtain ⟨least, found⟩ : ∃ least, (codes.map (·.length)).min? = some least :=
        Option.isSome_iff_exists.mp (List.isSome_min?_of_ne_nil fun none =>
          members (List.map_eq_nil_iff.mp none))
      obtain ⟨member, below⟩ := List.min?_eq_some_iff.mp found
      refine ⟨least, found, ?_⟩
      rw [Scope.after, shortest_sounded usable member fun code inside =>
        below _ (List.mem_map_of_mem inside)]

/-- Playing comes with the scope to where `left` are the voices before and `opening` is the part of
the voice that has been played. -/
def Reached (o : Options) (fragment : Fragment) (left : List Voice) (opening : Voice)
    (s : Scope) : Prop :=
  ∃ tracks scope events,
    playVoices o ⟨o.noteLength, fragment.rhythm⟩ left = .ok (tracks, scope) ∧
      Scope.Run ⟨scope, .start o⟩ opening events s

theorem run_reaches (run : s.Run (opening ++ token :: closing) events last) :
    ∃ earlier during middle next, s.Run opening earlier middle ∧ middle.Step token during next := by
  induction opening generalizing s events with
  | nil =>
      cases run with
      | step first run => exact ⟨[], _, s, _, .done s, first⟩
  | cons token opening ih =>
      cases run with
      | step first run =>
          obtain ⟨earlier, during, middle, next, run, step⟩ := ih run
          exact ⟨_, during, middle, next, .step first run, step⟩

theorem playVoices_reaches
    (played : playVoices o scope (left ++ (opening ++ token :: closing) :: right) =
      .ok (tracks, ended))
    (usable : Usable scope.noteLength) :
    ∃ before inner earlier during s next, playVoices o scope left = .ok (before, inner) ∧
      Scope.Run ⟨inner, .start o⟩ opening earlier s ∧ s.WellTimed ∧
      s.Step token during next := by
  induction left generalizing scope tracks with
  | nil =>
      obtain ⟨events, inner, later, run, _, rfl⟩ := playVoices_cons_eq_ok_iff.mp played
      obtain ⟨earlier, during, s, next, run, step⟩ := run_reaches run
      have timed := (run_wellTimed run (wellTimed_of_usable usable o)).1
      exact ⟨[], scope, earlier, during, s, next, rfl, run, timed, step⟩
  | cons voice left ih =>
      obtain ⟨events, inner, later, run, continued, rfl⟩ := playVoices_cons_eq_ok_iff.mp played
      have timed := (run_wellTimed run (wellTimed_of_usable usable o)).1
      obtain ⟨before, last, earlier, during, s, next, begun, rest⟩ := ih continued timed.noteLength
      have begun := playVoices_cons_eq_ok_iff.mpr ⟨events, inner, before, run, begun, rfl⟩
      exact ⟨_, last, earlier, during, s, next, begun, rest⟩

theorem scheduleFrom_plays {start : Binary64}
    (scheduled : scheduleFrom o start fragments = .ok tracks) :
    ∀ fragment ∈ fragments, ∃ played, playFragment o fragment = .ok played := by
  induction fragments generalizing start tracks with
  | nil => exact List.forall_mem_nil _
  | cons fragment rest ih =>
      obtain ⟨played, placed, later, plays, _, continued, rfl⟩ :=
        scheduleFrom_cons_eq_ok_iff.mp scheduled
      exact List.forall_mem_cons.mpr ⟨⟨played, plays⟩, ih continued⟩

theorem schedule_reaches (usable : Usable o.noteLength)
    (scheduled : schedule o fragments = .ok tracks) (member : fragment ∈ fragments)
    (written : fragment.voices = left ++ (opening ++ token :: closing) :: right) :
    ∃ s during next, Reached o fragment left opening s ∧ Usable s.fragment.noteLength ∧
      s.Step token during next := by
  obtain ⟨played, plays⟩ := scheduleFrom_plays scheduled fragment member
  obtain ⟨drafts, ended, voices, _⟩ := playFragment_eq_ok_iff.mp plays
  rw [written] at voices
  obtain ⟨before, inner, earlier, during, s, next, begun, run, timed, step⟩ :=
    playVoices_reaches voices usable
  exact ⟨s, during, next, ⟨before, inner, earlier, begun, run⟩, timed.noteLength, step⟩

/-- A larger code never sounds shorter, and so a chord moves the clock by its least code, in
whatever order its members are written. In a score that can be scheduled every chord does. -/
theorem chord_advances_by_least_code :
    (∀ base, Usable base → ∀ m n : Int, m ≤ n → sounding base m ≤ sounding base n) ∧
      (∀ (s : Scope) (codes : List NoteCode) (events : List Event) (next : Scope),
        Usable s.fragment.noteLength → codes ≠ [] → s.play (.chord codes) = .ok (events, next) →
          ∃ least : Int, (codes.map (·.length)).min? = some least ∧
            next.voice.clock = s.voice.clock + sounding s.fragment.noteLength least) ∧
      ∀ (o : Options) (fragments : List Fragment) (tracks : List Track), Usable o.noteLength →
        schedule o fragments = .ok tracks → ∀ fragment ∈ fragments,
          ∀ (left right : List Voice) (opening closing : Voice) (codes : List NoteCode),
            fragment.voices = left ++ (opening ++ .chord codes :: closing) :: right → codes ≠ [] →
              ∃ (s : Scope) (events : List Event) (next : Scope) (least : Int),
                Reached o fragment left opening s ∧ Usable s.fragment.noteLength ∧
                s.play (.chord codes) = .ok (events, next) ∧
                (codes.map (·.length)).min? = some least ∧
                next.voice.clock = s.voice.clock + sounding s.fragment.noteLength least := by
  refine ⟨fun base usable m n => sounding_mono usable, ?_, ?_⟩
  · intro s codes events next usable members played
    exact chord_advances usable members (step_of_play played)
  · intro o fragments tracks usable scheduled fragment member left right opening closing codes
      written members
    obtain ⟨s, events, next, reached, usable, step⟩ :=
      schedule_reaches usable scheduled member written
    obtain ⟨least, found, moved⟩ := chord_advances usable members step
    exact ⟨s, events, next, least, reached, usable, play_of_step step, found, moved⟩

/-- A chord of a lengthened, a shortened and a plain member, at clock two. -/
theorem mixedChord_advances :
    let codes : List NoteCode := [⟨0, 1⟩, ⟨4, -2⟩, ⟨7, 0⟩]
    let s : Scope := ⟨⟨1, .relative⟩, { VoiceScope.start {} with clock := 2 }⟩
    let fragment : Fragment := { voices := [[.rest 1, .chord codes]] }
    sounding 1 (-2) ≤ sounding 1 1 ∧ (codes.map (·.length)).min? = some (-2) ∧
      (∃ events next, s.play (.chord codes) = .ok (events, next) ∧
        next.voice.clock = 2 + sounding 1 (-2) ∧ next.voice.clock = 9 / 4) ∧
      ∃ s events next, Reached {} fragment [] [.rest 1] s ∧
        s.play (.chord codes) = .ok (events, next) ∧
        next.voice.clock = s.voice.clock + sounding s.fragment.noteLength (-2) := by
  intro codes s fragment
  have usable : Usable (1 : Binary64) := by
    constructor <;> decide +kernel
  have members : codes ≠ [] := List.cons_ne_nil _ _
  have least : (codes.map (·.length)).min? = some (-2) := by decide
  obtain ⟨mono, advances, everywhere⟩ := chord_advances_by_least_code
  refine ⟨mono 1 usable (-2) 1 (by decide), least, ?_, ?_⟩
  · have played : s.play (.chord codes) =
        .ok (codes.map s.sounded, s.after (shortest (codes.map s.sounded))) := by
      decide +kernel
    obtain ⟨code, found, moved⟩ := advances s codes _ _ usable members played
    obtain rfl := Option.some.inj (least.symm.trans found)
    exact ⟨_, _, played, moved, by decide +kernel⟩
  · have scheduled : schedule {} [fragment] =
        .ok [{ events := [⟨2, 2, 2, 48, 1⟩, ⟨2, 1, 1 / 4, 52, 1⟩, ⟨2, 1, 1, 55, 1⟩] }] := by
      decide +kernel
    obtain ⟨s, events, next, code, reached, _, played, found, moved⟩ :=
      everywhere {} [fragment] _ usable scheduled fragment List.mem_cons_self [] [] [.rest 1] []
        codes rfl members
    obtain rfl := Option.some.inj (least.symm.trans found)
    exact ⟨s, events, next, reached, played, moved⟩

end Polyphony.Timeline
