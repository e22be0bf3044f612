import Polyphony.Proofs.Timeline.FirstFault

/-! What is played behind the last note of a voice has no events. If it sets nothing that is shared
either, it can only be noticed by something that runs out: the time, or the bits of a number. -/
namespace Polyphony.Score

/-- The token sounds nothing and sets nothing that is shared. -/
def Token.Silent : Token → Prop
  | .note _ => False
  | .chord _ => False
  | .rest _ => True
  | .directive d => d.Admissible ∧ ¬ d.Shared

end Polyphony.Score

namespace Polyphony.Timeline

open Score

variable {o : Options} {s : Scope} {scope : FragmentScope} {start : Binary64}
  {token : Token} {d : Directive} {tail voice voice' : Voice} {voices voices' : List Voice}
  {fragment fragment' : Fragment} {fragments fragments' : List Fragment} {α β : Type}

/-- Time has run out, or the bits of a number. -/
def Fault.Exhausted (fault : Fault) : Prop :=
  (∃ clock, fault = .clockOverflow clock) ∨ fault.Overflows

/-- The second computation comes to what the first one comes to, unless something runs out. -/
def SameUnlessExhausted (x y : Except Fault α) : Prop :=
  y = x ∨ ∃ fault, y = .error fault ∧ fault.Exhausted

theorem SameUnlessExhausted.bind {x y : Except Fault α} {f g : α → Except Fault β}
    (first : SameUnlessExhausted x y) (rest : ∀ a, SameUnlessExhausted (f a) (g a)) :
    SameUnlessExhausted (x >>= f) (y >>= g) := by
  rcases first with rfl | ⟨fault, rfl, exhausted⟩
  · cases y with
    | error fault => exact .inl rfl
    | ok a => exact rest a
  · exact .inr ⟨fault, rfl, exhausted⟩

theorem SameUnlessExhausted.map {x y : Except Fault α} (same : SameUnlessExhausted x y)
    (f : α → β) : SameUnlessExhausted (x.map f) (y.map f) := by
  rcases same with rfl | ⟨fault, rfl, exhausted⟩
  · exact .inl rfl
  · exact .inr ⟨fault, rfl, exhausted⟩

theorem lengthOf_sameUnlessExhausted (s : Scope) (length : Int) :
    SameUnlessExhausted (.ok (sounding s.fragment.noteLength length)) (s.lengthOf length) := by
  unfold Scope.lengthOf
  split
  · exact .inl rfl
  · exact .inr ⟨_, rfl, .inr ⟨_, rfl⟩⟩

theorem advance_sameUnlessExhausted (s : Scope) (span : Binary64) :
    SameUnlessExhausted (.ok (s.after span)) (s.advance span) := by
  unfold Scope.advance
  dsimp only
  split
  · exact .inl rfl
  · exact .inr ⟨_, rfl, .inl ⟨_, rfl⟩⟩

theorem apply_eq_error_of_no_room (full : ¬ s.HasRoom d) :
    ∃ operation, s.apply d = .error (.overflow operation) := by
  obtain ⟨effect, value⟩ := d
  cases effect with
  | octaveUp => exact ⟨.add, bind_eq_error_iff.mpr (.inl (if_neg full))⟩
  | octaveDown => exact ⟨.subtract, bind_eq_error_iff.mpr (.inl (if_neg full))⟩
  | slurUp => exact ⟨.add, bind_eq_error_iff.mpr (.inl (if_neg full))⟩
  | slurDown => exact absurd trivial full
  | volume => exact absurd trivial full
  | noteLength => exact absurd trivial full
  | tempo => exact absurd trivial full
  | rhythm => exact absurd trivial full
  | unknown name => exact absurd trivial full

theorem play_silent (s : Scope) (silent : token.Silent) : ∃ next : Scope,
    next.fragment = s.fragment ∧ SameUnlessExhausted (.ok ([], next)) (s.play token) := by
  cases token with
  | note code => exact silent.elim
  | chord codes => exact silent.elim
  | rest length =>
      refine ⟨s.after (sounding s.fragment.noteLength length), rfl, ?_⟩
      refine .bind (f := fun span => .ok ([], s.after span))
        (lengthOf_sameUnlessExhausted s length) fun span => ?_
      refine .bind (f := fun next => .ok ([], next)) (advance_sameUnlessExhausted s span) ?_
      exact fun _ => .inl rfl
  | directive d =>
      by_cases room : s.HasRoom d
      · have step : s.Step (.directive d) [] (s.updated d) := .directive d silent.1 room
        refine ⟨s.updated d, step_fragment step ?_, .inl (play_of_step step)⟩
        intro d' same
        cases same
        exact silent.2
      · obtain ⟨operation, full⟩ := apply_eq_error_of_no_room room
        have failed : s.play (.directive d) = .error (.overflow operation) :=
          bind_eq_error_iff.mpr (.inl full)
        exact ⟨s, rfl, .inr ⟨_, failed, .inr ⟨operation, rfl⟩⟩⟩

theorem playAll_silent (s : Scope) (silent : ∀ token ∈ tail, token.Silent) :
    SameUnlessExhausted (.ok ([], s.fragment)) (s.playAll tail) := by
  induction tail generalizing s with
  | nil => exact .inl rfl
  | cons token tail ih =>
      obtain ⟨first, rest⟩ := List.forall_mem_cons.mp silent
      obtain ⟨next, kept, played⟩ := play_silent s first
      rcases played with played | ⟨fault, failed, exhausted⟩
      · rw [Scope.playAll, played, ok_bind, ← kept]
        exact (ih next rest).bind fun _ => .inl rfl
      · exact .inr ⟨fault, by rw [Scope.playAll, failed]; rfl, exhausted⟩

/-- The second voice is the first one with silence behind it. -/
def Lengthened (voice voice' : Voice) : Prop :=
  ∃ tail, (∀ token ∈ tail, token.Silent) ∧ voice' = voice ++ tail

theorem playAll_lengthened (s : Scope) (lengthened : Lengthened voice voice') :
    SameUnlessExhausted (s.playAll voice) (s.playAll voice') := by
  obtain ⟨tail, silent, rfl⟩ := lengthened
  cases played : s.playAll voice with
  | error fault =>
      left
      obtain ⟨opening, token, closing, events, reached, rfl, run, failed⟩ :=
        playAll_eq_error_iff.mp played
      apply playAll_eq_error_iff.mpr
      exact ⟨opening, token, closing ++ tail, events, reached, by simp, run, failed⟩
  | ok result =>
      obtain ⟨events, inner⟩ := result
      obtain ⟨last, run, rfl⟩ := playAll_eq_ok_iff.mp played
      rw [playAll_append_of_run run]
      have rest := (playAll_silent last silent).map fun played => (events ++ played.1, played.2)
      simpa only [Except.map, List.append_nil] using rest

theorem playVoices_lengthened (lengthened : List.Forall₂ Lengthened voices voices') :
    SameUnlessExhausted (playVoices o scope voices) (playVoices o scope voices') := by
  induction lengthened generalizing scope with
  | nil => exact .inl rfl
  | cons first _ ih =>
      apply (playAll_lengthened _ first).bind
      intro played
      apply ih.bind
      exact fun _ => .inl rfl

/-- The fragments differ in silence behind their voices. -/
def FragmentLengthened (fragment fragment' : Fragment) : Prop :=
  fragment.rhythm = fragment'.rhythm ∧ List.Forall₂ Lengthened fragment.voices fragment'.voices

theorem playFragment_lengthened (lengthened : FragmentLengthened fragment fragment') :
    SameUnlessExhausted (playFragment o fragment) (playFragment o fragment') := by
  obtain ⟨rhythm, voices⟩ := lengthened
  rw [playFragment, playFragment, ← rhythm]
  apply (playVoices_lengthened voices).bind
  exact fun _ => .inl rfl

/-- Silence behind the voices of a score is only noticed if something runs out. -/
theorem scheduleFrom_lengthened
    (lengthened : List.Forall₂ FragmentLengthened fragments fragments') :
    SameUnlessExhausted (scheduleFrom o start fragments) (scheduleFrom o start fragments') := by
  induction lengthened generalizing start with
  | nil => exact .inl rfl
  | cons first _ ih =>
      apply (playFragment_lengthened first).bind
      intro played
      apply SameUnlessExhausted.bind (.inl rfl)
      intro placed
      apply ih.bind
      exact fun _ => .inl rfl

end Polyphony.Timeline
