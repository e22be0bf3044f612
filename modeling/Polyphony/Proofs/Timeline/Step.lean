import Polyphony.Proofs.Outcome
import Polyphony.Timeline.Scope

/-! A directive is first read on its own, with no scope: the number it carries and what it sets.
Then everything that playing one token can do is a step, and playing a voice is a run of steps. -/
namespace Polyphony.Score.Directive

def number? (d : Directive) : Option Binary64 := Decimal.read? (d.value.getD "").toList

def biased (b : Build) (bias : Int) (d : Directive) : Int :=
  match d.effect with
  | .octaveUp => b.keptInt (bias + 12)
  | .octaveDown => b.keptInt (bias - 12)
  | _ => bias

def slurred (b : Build) (slur : Nat) (d : Directive) : Nat :=
  match d.effect with
  | .slurUp => b.keptNat (slur + 1)
  | .slurDown => Nat.max (slur - 1) 1
  | _ => slur

def volume? (d : Directive) : Option Binary64 :=
  match d.effect with
  | .volume => d.number?
  | _ => none

/-- A tempo sets a note length too. -/
def noteLength? (d : Directive) : Option Binary64 :=
  match d.effect with
  | .noteLength => d.number?
  | .tempo => d.number?.map (60 / ·)
  | _ => none

def rhythm? (d : Directive) : Option Rhythm :=
  match d.effect with
  | .rhythm => some (.ofValue (d.value.getD ""))
  | _ => none

/-- A note length or a tempo must be usable: finite and above zero. -/
def Usable (x : Binary64) : Prop := x.isFinite ∧ 0 < x

/-- What a directive must carry, if it is to be obeyed. -/
def Admissible (d : Directive) : Prop :=
  match d.effect with
  | .volume => ∃ x, d.number? = some x
  | .noteLength => ∃ x, d.number? = some x ∧ Usable x
  | .tempo => ∃ x, d.number? = some x ∧ Usable x ∧ Usable (60 / x)
  | .unknown _ => False
  | _ => True

/-- The directive sets something that the voices of a fragment share. -/
def Shared (d : Directive) : Prop :=
  d.effect = .noteLength ∨ d.effect = .tempo ∨ d.effect = .rhythm

instance (d : Directive) : Decidable d.Shared := inferInstanceAs (Decidable (_ ∨ _))

theorem usable_of_noteLength? {d : Directive} {x : Binary64} (admissible : d.Admissible)
    (sets : d.noteLength? = some x) : Usable x := by
  unfold noteLength? at sets
  unfold Admissible at admissible
  cases effect : d.effect <;> rw [effect] at sets admissible
  case noteLength =>
      obtain ⟨y, carries, usable⟩ := admissible
      cases carries.symm.trans sets
      exact usable
  case tempo =>
      obtain ⟨y, carries, _, usable⟩ := admissible
      rw [carries, Option.map_some, Option.some.injEq] at sets
      rwa [← sets]
  all_goals cases sets

end Polyphony.Score.Directive

namespace Polyphony.Timeline

open Score (NoteCode Directive Token Voice Rhythm)

variable {s next last : Scope} {code : NoteCode} {d : Directive} {token : Token}
  {event : Event} {events : List Event} {span x y : Binary64} {length : Int}

/-- The event of a note, before it is known whether the note is played. -/
def Scope.sounded (s : Scope) (code : NoteCode) : Event where
  start := s.voice.clock
  held := (sounding s.fragment.noteLength code.length).max
    (s.fragment.noteLength * .ofNat s.voice.slur)
  played := sounding s.fragment.noteLength code.length
  pitch := s.voice.build.keptInt (code.pitch + s.voice.bias)
  volume := s.voice.volume

/-- The scope with its clock moved on. -/
def Scope.after (s : Scope) (span : Binary64) : Scope :=
  { s with voice := { s.voice with clock := s.voice.clock + span } }

/-- The scope with what the directive sets. -/
def Scope.updated (s : Scope) (d : Directive) : Scope where
  fragment :=
    { noteLength := d.noteLength?.getD s.fragment.noteLength
      rhythm := d.rhythm?.getD s.fragment.rhythm }
  voice :=
    { build := s.voice.build
      bias := d.biased s.voice.build s.voice.bias
      slur := d.slurred s.voice.build s.voice.slur
      volume := d.volume?.getD s.voice.volume
      clock := s.voice.clock }

/-- All that is asked of a note: that its length and its pitch can be computed, and that it is held
for a finite time. -/
structure Scope.Admits (s : Scope) (code : NoteCode) : Prop where
  soundable : Soundable code.length
  held : (s.sounded code).held.isFinite
  pitch : s.voice.build.HoldsInt (code.pitch + s.voice.bias)

/-- The sum that the directive calls for can be computed. -/
def Scope.HasRoom (s : Scope) (d : Directive) : Prop :=
  match d.effect with
  | .octaveUp => s.voice.build.HoldsInt (s.voice.bias + 12)
  | .octaveDown => s.voice.build.HoldsInt (s.voice.bias - 12)
  | .slurUp => s.voice.build.HoldsNat (s.voice.slur + 1)
  | _ => True

theorem lengthOf_eq_ok_iff :
    s.lengthOf length = .ok x ↔ Soundable length ∧ sounding s.fragment.noteLength length = x :=
  ite_eq_ok_iff

theorem sumInt_eq_ok_iff {operation : Operation} {m n : Int} :
    s.sumInt operation m = .ok n ↔ s.voice.build.HoldsInt m ∧ s.voice.build.keptInt m = n :=
  ite_eq_ok_iff

theorem sumNat_eq_ok_iff {m n : Nat} :
    s.sumNat m = .ok n ↔ s.voice.build.HoldsNat m ∧ s.voice.build.keptNat m = n := ite_eq_ok_iff

theorem event_eq_ok_iff : s.event code = .ok event ↔ s.Admits code ∧ s.sounded code = event := by
  simp only [Scope.event, bind_eq_ok_iff, lengthOf_eq_ok_iff]
  constructor
  · rintro ⟨_, ⟨soundable, rfl⟩, played⟩
    split at played
    · next held =>
        obtain ⟨_, summed, played⟩ := bind_eq_ok_iff.mp played
        obtain ⟨pitch, rfl⟩ := sumInt_eq_ok_iff.mp summed
        exact ⟨⟨soundable, held, pitch⟩, Except.ok.inj played⟩
    · cases played
  · rintro ⟨⟨soundable, held, pitch⟩, rfl⟩
    refine ⟨_, ⟨soundable, rfl⟩, ?_⟩
    exact (if_pos held).trans (bind_eq_ok_iff.mpr ⟨_, sumInt_eq_ok_iff.mpr ⟨pitch, rfl⟩, rfl⟩)

theorem advance_eq_ok_iff :
    s.advance span = .ok next ↔ (s.voice.clock + span).isFinite ∧ s.after span = next :=
  ite_eq_ok_iff

theorem number_eq_ok_iff : number d = .ok x ↔ d.number? = some x := by
  unfold number Directive.number?
  dsimp only
  split
  · next y read =>
      rw [read, Except.ok.injEq, Option.some.injEq]
  · next missing =>
      rw [missing]
      exact iff_of_false (fun h => by cases h) fun h => by cases h

theorem positive_eq_ok_iff : positive d x = .ok y ↔ Directive.Usable x ∧ x = y := ite_eq_ok_iff

theorem apply_eq_ok_iff :
    s.apply d = .ok next ↔ d.Admissible ∧ s.HasRoom d ∧ s.updated d = next := by
  obtain ⟨effect, value⟩ := d
  cases effect with
  | octaveUp =>
      exact (bind_ok_eq_ok_iff fun _ => sumInt_eq_ok_iff).trans (and_iff_right trivial).symm
  | octaveDown =>
      exact (bind_ok_eq_ok_iff fun _ => sumInt_eq_ok_iff).trans (and_iff_right trivial).symm
  | slurUp => exact (bind_ok_eq_ok_iff fun _ => sumNat_eq_ok_iff).trans (and_iff_right trivial).symm
  | slurDown => exact ok_eq_ok_iff.trans (and_iff_right trivial).symm
  | rhythm => exact ok_eq_ok_iff.trans (and_iff_right trivial).symm
  | unknown name => exact iff_of_false (fun h => by cases h) fun h => h.1
  | volume =>
      change number _ >>= _ = _ ↔ _
      simp only [bind_eq_ok_iff, number_eq_ok_iff, Directive.Admissible, Scope.HasRoom, true_and,
        Scope.updated, Directive.volume?]
      constructor
      · rintro ⟨x, carries, set⟩
        rw [carries]
        exact ⟨⟨x, rfl⟩, Except.ok.inj set⟩
      · rintro ⟨⟨x, carries⟩, set⟩
        rw [carries] at set
        exact ⟨x, carries, congrArg Except.ok set⟩
  | noteLength =>
      change number _ >>= _ = _ ↔ _
      simp only [bind_eq_ok_iff, number_eq_ok_iff, positive_eq_ok_iff, Directive.Admissible,
        Scope.HasRoom, true_and, Scope.updated, Directive.noteLength?]
      constructor
      · rintro ⟨x, carries, y, ⟨usable, rfl⟩, set⟩
        rw [carries]
        exact ⟨⟨x, rfl, usable⟩, Except.ok.inj set⟩
      · rintro ⟨⟨x, carries, usable⟩, set⟩
        rw [carries] at set
        exact ⟨x, carries, x, ⟨usable, rfl⟩, congrArg Except.ok set⟩
  | tempo =>
      change number _ >>= _ = _ ↔ _
      simp only [bind_eq_ok_iff, number_eq_ok_iff, positive_eq_ok_iff, Directive.Admissible,
        Scope.HasRoom, true_and, Scope.updated, Directive.noteLength?]
      constructor
      · rintro ⟨x, carries, tempo, ⟨usable, rfl⟩, length, ⟨ulength, rfl⟩, set⟩
        rw [carries]
        exact ⟨⟨x, rfl, usable, ulength⟩, Except.ok.inj set⟩
      · rintro ⟨⟨x, carries, usable, ulength⟩, set⟩
        rw [carries] at set
        exact ⟨x, carries, x, ⟨usable, rfl⟩, 60 / x, ⟨ulength, rfl⟩, congrArg Except.ok set⟩

/-- A token is played, and every check on the way is passed. -/
inductive Scope.Step (s : Scope) : Token → List Event → Scope → Prop where
  | note (code : NoteCode) (admits : s.Admits code)
      (moves : (s.voice.clock + (s.sounded code).played).isFinite) :
      Step s (.note code) [s.sounded code] (s.after (s.sounded code).played)
  | chord (codes : List NoteCode) (members : codes ≠ [])
      (admits : ∀ code ∈ codes, s.Admits code)
      (moves : (s.voice.clock + shortest (codes.map s.sounded)).isFinite) :
      Step s (.chord codes) (codes.map s.sounded) (s.after (shortest (codes.map s.sounded)))
  | silence : Step s (.chord []) [] s
  | rest (length : Int)
      (moves : (s.voice.clock + sounding s.fragment.noteLength length).isFinite)
      (soundable : Soundable length) :
      Step s (.rest length) [] (s.after (sounding s.fragment.noteLength length))
  | directive (d : Directive) (admissible : d.Admissible) (room : s.HasRoom d) :
      Step s (.directive d) [] (s.updated d)

theorem mapM_event_eq_ok_iff {codes : List NoteCode} :
    codes.mapM s.event = .ok events ↔
      (∀ code ∈ codes, s.Admits code) ∧ codes.map s.sounded = events :=
  mapM_eq_ok_iff_map fun _ _ => event_eq_ok_iff

theorem step_of_play (played : s.play token = .ok (events, next)) : s.Step token events next := by
  cases token with
  | note code =>
      obtain ⟨event, sounds, played⟩ := bind_eq_ok_iff.mp played
      obtain ⟨scope, moves, played⟩ := bind_eq_ok_iff.mp played
      obtain ⟨admits, rfl⟩ := event_eq_ok_iff.mp sounds
      obtain ⟨finite, rfl⟩ := advance_eq_ok_iff.mp moves
      cases played
      exact .note code admits finite
  | chord codes =>
      obtain ⟨members, sound, played⟩ := bind_eq_ok_iff.mp played
      obtain ⟨admits, rfl⟩ := mapM_event_eq_ok_iff.mp sound
      cases codes with
      | nil =>
          cases played
          exact .silence
      | cons code codes =>
          change s.advance (shortest ((code :: codes).map s.sounded)) >>= _ = _ at played
          obtain ⟨scope, moves, played⟩ := bind_eq_ok_iff.mp played
          obtain ⟨finite, rfl⟩ := advance_eq_ok_iff.mp moves
          cases played
          exact .chord _ (List.cons_ne_nil code codes) admits finite
  | rest length =>
      obtain ⟨span, lasts, played⟩ := bind_eq_ok_iff.mp played
      obtain ⟨scope, moves, played⟩ := bind_eq_ok_iff.mp played
      obtain ⟨soundable, rfl⟩ := lengthOf_eq_ok_iff.mp lasts
      obtain ⟨finite, rfl⟩ := advance_eq_ok_iff.mp moves
      cases played
      exact .rest length finite soundable
  | directive d =>
      obtain ⟨scope, sets, played⟩ := bind_eq_ok_iff.mp played
      obtain ⟨admissible, room, rfl⟩ := apply_eq_ok_iff.mp sets
      cases played
      exact .directive d admissible room

theorem play_of_step (step : s.Step token events next) : s.play token = .ok (events, next) := by
  cases step with
  | note code admits moves =>
      refine bind_eq_ok_iff.mpr ⟨_, event_eq_ok_iff.mpr ⟨admits, rfl⟩, ?_⟩
      exact bind_eq_ok_iff.mpr ⟨_, advance_eq_ok_iff.mpr ⟨moves, rfl⟩, rfl⟩
  | chord codes members admits moves =>
      refine bind_eq_ok_iff.mpr ⟨_, mapM_event_eq_ok_iff.mpr ⟨admits, rfl⟩, ?_⟩
      cases codes with
      | nil => exact absurd rfl members
      | cons code codes => exact bind_eq_ok_iff.mpr ⟨_, advance_eq_ok_iff.mpr ⟨moves, rfl⟩, rfl⟩
  | silence => rfl
  | rest length moves soundable =>
      refine bind_eq_ok_iff.mpr ⟨_, lengthOf_eq_ok_iff.mpr ⟨soundable, rfl⟩, ?_⟩
      exact bind_eq_ok_iff.mpr ⟨_, advance_eq_ok_iff.mpr ⟨moves, rfl⟩, rfl⟩
  | directive d admissible room =>
      exact bind_eq_ok_iff.mpr ⟨_, apply_eq_ok_iff.mpr ⟨admissible, room, rfl⟩, rfl⟩

theorem play_eq_ok_iff : s.play token = .ok (events, next) ↔ s.Step token events next :=
  ⟨step_of_play, play_of_step⟩

/-- Nothing that is shared is set but by directives that say so. -/
theorem step_fragment (step : s.Step token events next)
    (apart : ∀ d, token = .directive d → ¬ d.Shared) : next.fragment = s.fragment := by
  cases step with
  | note code admits moves => rfl
  | chord codes members admits moves => rfl
  | silence => rfl
  | rest length moves soundable => rfl
  | directive d admissible room =>
      have unshared := apart d rfl
      obtain ⟨effect, value⟩ := d
      cases effect with
      | noteLength => exact absurd (.inl rfl) unshared
      | tempo => exact absurd (.inr (.inl rfl)) unshared
      | rhythm => exact absurd (.inr (.inr rfl)) unshared
      | octaveUp => rfl
      | octaveDown => rfl
      | slurUp => rfl
      | slurDown => rfl
      | volume => rfl
      | unknown name => rfl

/-- The tokens of a voice are played one after the other. -/
inductive Scope.Run : Scope → Voice → List Event → Scope → Prop where
  | done (s : Scope) : Run s [] [] s
  | step {s middle last : Scope} {token : Token} {rest : Voice} {events later : List Event}
      (first : s.Step token events middle) (run : Run middle rest later last) :
      Run s (token :: rest) (events ++ later) last

theorem playAll_eq_ok_iff {tokens : Voice} {scope : FragmentScope} :
    s.playAll tokens = .ok (events, scope) ↔
      ∃ last, s.Run tokens events last ∧ last.fragment = scope := by
  induction tokens generalizing s events scope with
  | nil =>
      constructor
      · intro played
        cases played
        exact ⟨s, .done s, rfl⟩
      · rintro ⟨last, run, rfl⟩
        cases run
        rfl
  | cons token rest ih =>
      constructor
      · intro played
        obtain ⟨⟨first, middle⟩, step, played⟩ := bind_eq_ok_iff.mp played
        obtain ⟨⟨later, ended⟩, continued, played⟩ := bind_eq_ok_iff.mp played
        obtain ⟨last, run, rfl⟩ := ih.mp continued
        cases played
        exact ⟨last, .step (play_eq_ok_iff.mp step) run, rfl⟩
      · rintro ⟨last, run, rfl⟩
        cases run with
        | step first run =>
            refine bind_eq_ok_iff.mpr ⟨_, play_eq_ok_iff.mpr first, ?_⟩
            exact bind_eq_ok_iff.mpr ⟨_, ih.mpr ⟨last, run, rfl⟩, rfl⟩

theorem playAll_append_of_run {opening : Voice} (run : s.Run opening events last) (rest : Voice) :
    s.playAll (opening ++ rest) =
      (last.playAll rest).map fun played => (events ++ played.1, played.2) := by
  induction run with
  | done s =>
      rw [List.nil_append]
      cases s.playAll rest <;> rfl
  | step first run ih =>
      rw [List.cons_append, Scope.playAll, play_of_step first, ok_bind]
      dsimp only
      rw [ih]
      cases Scope.playAll _ rest with
      | error fault => rfl
      | ok played =>
          rw [Except.map, Except.map, ok_bind, List.append_assoc]
          rfl

end Polyphony.Timeline
