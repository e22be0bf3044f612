import Polyphony.Proofs.InStep
import Polyphony.Proofs.Scoping
import Polyphony.Proofs.Timeline.Overflow

/-! A score is played token by token, and fragment by fragment it is aligned and placed. The first
fault on this way is the one that is reported: what comes before it has been played, and what comes
after it is not looked at. -/
namespace Polyphony.Timeline

open Score

variable {o : Options} {s s' next last : Scope} {scope : FragmentScope}
  {rhythm : Rhythm} {token : Token} {tokens : Voice} {voices : List Voice} {events : List Event}
  {tracks : List Track} {start : Binary64} {before : List Fragment} {fragment : Fragment}
  {fragments : List Fragment} {left : List Voice} {opening : Voice} {fault : Fault}

theorem playAll_eq_error_iff :
    s.playAll tokens = .error fault ↔
      ∃ opening token closing events reached, tokens = opening ++ token :: closing ∧
        s.Run opening events reached ∧ reached.play token = .error fault := by
  constructor
  · intro failed
    induction tokens generalizing s with
    | nil => cases failed
    | cons token rest ih =>
        rcases bind_eq_error_iff.mp failed with failed | ⟨⟨events, next⟩, played, failed⟩
        · exact ⟨[], token, rest, [], s, rfl, .done s, failed⟩
        · rcases bind_eq_error_iff.mp failed with failed | ⟨_, _, failed⟩
          · obtain ⟨opening, token', closing, later, reached, rfl, run, failed⟩ := ih failed
            exact ⟨token :: opening, token', closing, _, reached, rfl,
              .step (play_eq_ok_iff.mp played) run, failed⟩
          · cases failed
  · rintro ⟨opening, token, closing, events, reached, rfl, run, failed⟩
    rw [playAll_append_of_run run, map_eq_error_iff]
    exact bind_eq_error_iff.mpr (.inl failed)

end Polyphony.Timeline
