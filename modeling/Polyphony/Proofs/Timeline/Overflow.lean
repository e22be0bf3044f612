import Polyphony.Proofs.Timeline.Notes

/-! The numbers of 32 bits that a score calls for: its lengths, and the pitches, octaves and slurs
of its voices. When they all fit, no overflow ends the program. -/
namespace Polyphony.Timeline

open Score

variable {α β : Type} {x : Except Fault α} {o : Options} {s : Scope} {rhythm : Rhythm}
  {sung before : List Token} {token : Token} {voice : Voice} {voices : List Voice}
  {tracks : List Track} {start : Binary64} {fragment : Fragment} {fragments : List Fragment}
  {code : NoteCode} {d : Directive}

/-- The length of a note fits, and so does its pitch behind the tokens before it. -/
def NoteFits (o : Options) (before : List Token) (code : NoteCode) : Prop :=
  Soundable code.length ∧
    o.build.HoldsInt (code.pitch + (o.rootNote.toInt + 12 * octaves before))

/-- The numbers that a token calls for behind the tokens before it fit. -/
def TokenFits (o : Options) (before : List Token) : Token → Prop
  | .note code => NoteFits o before code
  | .chord codes => ∀ code ∈ codes, NoteFits o before code
  | .rest length => Soundable length
  | .directive d =>
    o.build.HoldsInt (o.rootNote.toInt + 12 * octaves (before ++ [.directive d])) ∧
      o.build.HoldsNat (slur o.build (before ++ [.directive d]))

/-- All tokens of a voice fit. -/
def VoiceFits (o : Options) (voice : Voice) : Prop :=
  ∀ before token after, voice = before ++ token :: after → TokenFits o before token

/-- All voices of a score fit. In a wrapping build only a length can be a number that does not. -/
def Fits (o : Options) (fragments : List Fragment) : Prop :=
  ∀ fragment ∈ fragments, ∀ voice ∈ fragment.voices, VoiceFits o voice

def Fault.Overflows (fault : Fault) : Prop := ∃ operation, fault = .overflow operation

/-- No overflow ends the computation. -/
inductive Unstopped : Except Fault α → Prop where
  | give (a : α) : Unstopped (.ok a)
  | fail {fault : Fault} (reported : ¬ fault.Overflows) : Unstopped (.error fault)

theorem Unstopped.bind {f : α → Except Fault β} (first : Unstopped x)
    (rest : ∀ a, x = .ok a → Unstopped (f a)) : Unstopped (x >>= f) := by
  cases first with
  | give a => exact rest a rfl
  | fail reported => exact .fail reported

theorem unstopped_mapM {f : α → Except Fault β} {items : List α}
    (each : ∀ a ∈ items, Unstopped (f a)) : Unstopped (items.mapM f) := by
  induction items with
  | nil => exact .give []
  | cons a items ih =>
      obtain ⟨first, rest⟩ := List.forall_mem_cons.mp each
      rw [List.mapM_cons]
      exact .bind first fun _ _ => .bind (ih rest) fun _ _ => .give _

theorem unstopped_advance (s : Scope) (span : Binary64) : Unstopped (s.advance span) := by
  unfold Scope.advance
  dsimp only
  split
  · exact .give _
  · exact .fail nofun

theorem unstopped_number (d : Directive) : Unstopped (number d) := by
  unfold number
  dsimp only
  split
  · exact .give _
  · exact .fail nofun

theorem unstopped_positive (d : Directive) (x : Binary64) : Unstopped (positive d x) := by
  unfold positive
  split
  · exact .give _
  · exact .fail nofun

theorem unstopped_lengthOf {length : Int} (soundable : Soundable length) :
    Unstopped (s.lengthOf length) := by
  rw [Scope.lengthOf, if_pos soundable]
  exact .give _

theorem unstopped_sumInt {operation : Operation} {n : Int} (holds : s.voice.build.HoldsInt n) :
    Unstopped (s.sumInt operation n) := by
  rw [Scope.sumInt, if_pos holds]
  exact .give _

theorem unstopped_sumNat {n : Nat} (holds : s.voice.build.HoldsNat n) : Unstopped (s.sumNat n) := by
  rw [Scope.sumNat, if_pos holds]
  exact .give _

theorem unstopped_event (soundable : Soundable code.length)
    (pitch : s.voice.build.HoldsInt (code.pitch + s.voice.bias)) : Unstopped (s.event code) := by
  refine .bind (unstopped_lengthOf soundable) fun played _ => ?_
  dsimp only
  split
  · exact .bind (unstopped_sumInt pitch) fun _ _ => .give _
  · exact .fail nofun

theorem unstopped_apply (room : s.HasRoom d) : Unstopped (s.apply d) := by
  obtain ⟨effect, value⟩ := d
  cases effect with
  | octaveUp => exact .bind (unstopped_sumInt room) fun _ _ => .give _
  | octaveDown => exact .bind (unstopped_sumInt room) fun _ _ => .give _
  | slurUp => exact .bind (unstopped_sumNat room) fun _ _ => .give _
  | slurDown => exact .give _
  | rhythm => exact .give _
  | unknown name => exact .fail nofun
  | volume => exact .bind (unstopped_number _) fun _ _ => .give _
  | noteLength =>
      refine .bind (unstopped_number _) fun x _ => ?_
      exact .bind (unstopped_positive _ x) fun _ _ => .give _
  | tempo =>
      refine .bind (unstopped_number _) fun x _ => .bind (unstopped_positive _ x) fun tempo _ => ?_
      exact .bind (unstopped_positive _ _) fun _ _ => .give _

/-- The scope in force has the bias that the octaves before it lead to, or the last bits of it. -/
theorem unstopped_event_scopeAt (fits : NoteFits o before code) :
    Unstopped ((scopeAt o rhythm sung before).event code) :=
  unstopped_event fits.1 ((o.build.holdsInt_add_keptInt _ _).mpr fits.2)

theorem hasRoom_scopeAt (fits : TokenFits o before (.directive d)) :
    (scopeAt o rhythm sung before).HasRoom d := by
  obtain ⟨octave, slurred⟩ := fits
  rw [← biased_octaves] at octave
  rw [slur_concat] at slurred
  obtain ⟨effect, value⟩ := d
  cases effect with
  | octaveUp => exact (o.build.holdsInt_keptInt_add _ 12).mpr octave
  | octaveDown => exact (o.build.holdsInt_keptInt_add _ (-12)).mpr octave
  | slurUp => exact Build.holdsNat_of_keptNat slurred
  | slurDown => trivial
  | volume => trivial
  | noteLength => trivial
  | tempo => trivial
  | rhythm => trivial
  | unknown name => trivial

theorem unstopped_play (fits : TokenFits o before token) :
    Unstopped ((scopeAt o rhythm sung before).play token) := by
  cases token with
  | note code =>
      refine .bind (unstopped_event_scopeAt fits) fun event _ => ?_
      exact .bind (unstopped_advance _ _) fun _ _ => .give _
  | chord codes =>
      refine .bind (unstopped_mapM fun code member => unstopped_event_scopeAt (fits code member))
        fun events _ => ?_
      dsimp only
      split
      · exact .give _
      · exact .bind (unstopped_advance _ _) fun _ _ => .give _
  | rest length =>
      refine .bind (unstopped_lengthOf fits) fun span _ => ?_
      exact .bind (unstopped_advance _ _) fun _ _ => .give _
  | directive d => exact .bind (unstopped_apply (hasRoom_scopeAt fits)) fun _ _ => .give _

theorem unstopped_playAll (fits : ∀ opening token closing, voice = opening ++ token :: closing →
      TokenFits o (before ++ opening) token) :
    Unstopped ((scopeAt o rhythm sung before).playAll voice) := by
  induction voice generalizing before with
  | nil => exact .give _
  | cons token rest ih =>
      have first := fits [] token rest rfl
      rw [List.append_nil] at first
      refine .bind (unstopped_play first) fun played given => ?_
      obtain ⟨_, inForce⟩ := step_scopeAt (step_of_play given)
      refine .bind ?_ fun _ _ => .give _
      rw [inForce]
      refine ih fun opening token' closing written => ?_
      rw [List.append_assoc]
      exact fits (token :: opening) token' closing (congrArg (token :: ·) written)

theorem unstopped_playVoices (fits : ∀ voice ∈ voices, VoiceFits o voice) :
    Unstopped (playVoices o (scopeAt o rhythm sung []).fragment voices) := by
  induction voices generalizing sung with
  | nil => exact .give _
  | cons voice rest ih =>
      obtain ⟨first, others⟩ := List.forall_mem_cons.mp fits
      have sings : Unstopped ((scopeAt o rhythm sung []).playAll voice) := unstopped_playAll first
      refine .bind (by rwa [scopeAt_nil]) fun played given => ?_
      obtain ⟨last, run, ended⟩ := playAll_eq_ok_iff.mp given
      obtain ⟨_, rfl⟩ := run_scopeAt run (scopeAt_nil o rhythm sung)
      refine .bind ?_ fun _ _ => .give _
      rw [← ended, scopeAt_fragment]
      exact ih others

theorem unstopped_stretch (target : Binary64) (track : Track) :
    Unstopped (stretch target track) := by
  unfold stretch
  dsimp only
  split
  · split
    · exact .give _
    · exact .fail nofun
  · exact .give _

theorem unstopped_align (tracks : List Track) : Unstopped (align tracks) := by
  unfold align
  split
  · exact .give _
  · split
    · exact .give _
    · exact .bind (unstopped_mapM fun track _ => unstopped_stretch _ track) fun _ _ =>
        .give _

theorem unstopped_place (start : Binary64) (track : Track) : Unstopped (place start track) := by
  unfold place
  dsimp only
  split
  · exact .fail nofun
  · exact .give _

theorem unstopped_playFragment (fits : ∀ voice ∈ fragment.voices, VoiceFits o voice) :
    Unstopped (playFragment o fragment) := by
  have begins : (scopeAt o fragment.rhythm [] []).fragment = ⟨o.noteLength, fragment.rhythm⟩ := rfl
  refine .bind (begins ▸ unstopped_playVoices fits) fun played _ => ?_
  dsimp only
  split
  · exact unstopped_align played.1
  · exact .give _

theorem unstopped_scheduleFrom (fits : Fits o fragments) :
    Unstopped (scheduleFrom o start fragments) := by
  induction fragments generalizing start with
  | nil => exact .give _
  | cons fragment rest ih =>
      obtain ⟨first, others⟩ := List.forall_mem_cons.mp fits
      refine .bind (unstopped_playFragment first) fun played _ => ?_
      refine .bind (unstopped_mapM fun track _ => unstopped_place start track) fun placed _ => ?_
      exact .bind (ih others) fun _ _ => .give _

/-- A score that fits is scheduled, or refused with an error that is reported. -/
theorem not_fits_of_overflow {fault : Fault} (stopped : schedule o fragments = .error fault)
    (overflows : fault.Overflows) : ¬ Fits o fragments := by
  obtain ⟨operation, rfl⟩ := overflows
  intro fits
  have unstopped : Unstopped (schedule o fragments) := unstopped_scheduleFrom fits
  rw [stopped] at unstopped
  cases unstopped with
  | fail reported => exact reported ⟨operation, rfl⟩

/-- One above the highest pitch a checked build ends, and a wrapping one goes on from the lowest. -/
example :
    let score : List Fragment := [{ voices := [[.note ⟨1, 0⟩]] }]
    schedule { rootNote := 2147483647 } score = .error (.overflow .add) ∧
      schedule { rootNote := 2147483647, build := .wrapping } score =
        .ok [{ events := [⟨0, 1, 1, -2147483648, 1⟩] }] := by
  decide +kernel

end Polyphony.Timeline
