import Polyphony.Proofs.Build
import Polyphony.Proofs.Score.Grammar
import Polyphony.Proofs.Timeline.Arrangement

/-! Everything that a note needs is read off the tokens before it: those of its own voice for
octave, slur, volume and clock, and those of the voices before it as well for note length and
rhythm. The scope that playing threads through a voice holds just that. -/
namespace Polyphony.Score

variable {α : Type} {before earlier : List Token} {token : Token} {d : Directive}

/-- The notes of a token, a chord's in order. -/
def Token.codes : Token → List NoteCode
  | .note code => [code]
  | .chord codes => codes
  | .rest _ => []
  | .directive _ => []

/-- Each token with those before it, the first of them having `before`. -/
def withEarlier (before : List Token) : List Token → List (List Token × Token)
  | [] => []
  | token :: rest => (before, token) :: withEarlier (before ++ [token]) rest

theorem withEarlier_concat (before tokens : List Token) (token : Token) :
    withEarlier before (tokens ++ [token]) =
      withEarlier before tokens ++ [(before ++ tokens, token)] := by
  induction tokens generalizing before with
  | nil => rw [List.nil_append, withEarlier, withEarlier, withEarlier, List.append_nil]; rfl
  | cons first rest ih =>
      rw [List.cons_append, withEarlier, withEarlier, ih, List.append_assoc]
      rfl

/-- The notes of some tokens in order, each with the tokens before its own. -/
def notesAfter (before tokens : List Token) : List (List Token × NoteCode) :=
  (withEarlier before tokens).flatMap fun (earlier, token) => token.codes.map (earlier, ·)

theorem notesAfter_cons (before rest : List Token) (token : Token) :
    notesAfter before (token :: rest) =
      token.codes.map (before, ·) ++ notesAfter (before ++ [token]) rest := rfl

def directives (tokens : List Token) : List Directive := tokens.filterMap Token.directive?

theorem directives_concat (earlier : List Token) (token : Token) :
    directives (earlier ++ [token]) = directives earlier ++ token.directive?.toList := by
  rw [directives, List.filterMap_append]
  cases token <;> rfl

/-- The last value that directives among some tokens set, and `initial` when none sets any. -/
def latest (sets : Directive → Option α) (initial : α) (tokens : List Token) : α :=
  ((directives tokens).filterMap sets).getLast?.getD initial

theorem latest_concat (sets : Directive → Option α) (initial : α) (earlier : List Token)
    (token : Token) :
    latest sets initial (earlier ++ [token]) =
      (token.directive?.bind sets).getD (latest sets initial earlier) := by
  rw [latest, latest, directives_concat, List.filterMap_append]
  cases token.directive? with
  | none => rw [Option.toList_none, List.filterMap_nil, List.append_nil]; rfl
  | some d =>
      rw [Option.toList_some, List.filterMap_cons, List.filterMap_nil, Option.bind_some]
      cases sets d with
      | none => rw [List.append_nil]; rfl
      | some value => rw [List.getLast?_concat]; rfl

theorem latest_append (sets : Directive → Option α) (initial : α) (first second : List Token) :
    latest sets initial (first ++ second) = latest sets (latest sets initial first) second := by
  rw [latest, directives, List.filterMap_append, List.filterMap_append, List.getLast?_append]
  cases last : ((second.filterMap Token.directive?).filterMap sets).getLast? with
  | none => rw [latest, directives, last]; rfl
  | some value => rw [latest, directives, last]; rfl

/-- Octaves up less octaves down. -/
def octaves (tokens : List Token) : Int :=
  ((directives tokens).countP (·.effect = .octaveUp) : Int) -
    (directives tokens).countP (·.effect = .octaveDown)

/-- Octave marks move the exact bias of a voice, of which a wrapping build keeps the last bits. -/
theorem biased_octaves (root : Int) (earlier : List Token) (d : Directive) :
    d.biased .checked (root + 12 * octaves earlier) =
      root + 12 * octaves (earlier ++ [.directive d]) := by
  have counted : ∀ effect : Effect,
      (directives (earlier ++ [.directive d])).countP (·.effect = effect) =
        (directives earlier).countP (·.effect = effect) + if d.effect = effect then 1 else 0 := by
    intro effect
    rw [directives_concat, Token.directive?, Option.toList_some, List.countP_append,
      List.countP_singleton]
    simp only [decide_eq_true_eq]
  rw [octaves, octaves, counted, counted, Directive.biased]
  cases d.effect <;> simp [Build.keptInt] <;> omega

theorem biased_keptInt (b : Build) (bias : Int) (d : Directive) :
    d.biased b (b.keptInt bias) = b.keptInt (d.biased .checked bias) := by
  unfold Directive.biased
  split
  · exact b.keptInt_keptInt_add bias 12
  · exact b.keptInt_keptInt_add bias (-12)
  · rfl

/-- The slur that the directives among some tokens lead to, from one. -/
def slur (b : Build) (tokens : List Token) : Nat :=
  (directives tokens).foldl (Directive.slurred b) 1

theorem slur_concat (b : Build) (earlier : List Token) (d : Directive) :
    slur b (earlier ++ [.directive d]) = d.slurred b (slur b earlier) := by
  rw [slur, directives_concat, Token.directive?, Option.toList_some, List.foldl_concat]
  rfl

end Polyphony.Score

namespace Polyphony.Timeline

open Score

variable {o : Options} {rhythm : Rhythm} {sung earlier : List Token} {token : Token}
  {events : List Event} {next last : Scope}

/-- How long a token takes at a note length, a chord as long as its shortest member. An empty chord
and a directive move nothing. -/
def span? (noteLength : Binary64) : Token → Option Binary64
  | .note code => some (sounding noteLength code.length)
  | .chord [] => none
  | .chord (first :: rest) =>
    some (((first :: rest).map fun code => sounding noteLength code.length).foldl Binary64.min
      (.infinite false))
  | .rest length => some (sounding noteLength length)
  | .directive _ => none

def noteLengthAt (o : Options) (tokens : List Token) : Binary64 :=
  latest Directive.noteLength? o.noteLength tokens

/-- The clock of a voice after some of its tokens, when `sung` are those of the voices before. -/
def clockAt (o : Options) (sung earlier : List Token) : Binary64 :=
  ((withEarlier [] earlier).filterMap fun (before, token) =>
    span? (noteLengthAt o (sung ++ before)) token).foldl (· + ·) (.zero false)

theorem clockAt_concat (o : Options) (sung earlier : List Token) (token : Token) :
    clockAt o sung (earlier ++ [token]) =
      (span? (noteLengthAt o (sung ++ earlier)) token).elim (clockAt o sung earlier)
        (clockAt o sung earlier + ·) := by
  rw [clockAt, clockAt, withEarlier_concat, List.filterMap_append, List.foldl_append,
    List.nil_append, List.filterMap_cons, List.filterMap_nil]
  dsimp only
  cases span? (noteLengthAt o (sung ++ earlier)) token <;> rfl

/-- The scope that the tokens before a place call for. -/
def scopeAt (o : Options) (rhythm : Rhythm) (sung earlier : List Token) : Scope where
  fragment :=
    { noteLength := noteLengthAt o (sung ++ earlier)
      rhythm := latest Directive.rhythm? rhythm (sung ++ earlier) }
  voice :=
    { build := o.build
      bias := o.build.keptInt (o.rootNote.toInt + 12 * octaves earlier)
      slur := slur o.build earlier
      volume := latest Directive.volume? 1 earlier
      clock := clockAt o sung earlier }

/-- A token that is no directive moves the clock at most. -/
theorem scopeAt_concat (sets : token.directive? = none) :
    scopeAt o rhythm sung (earlier ++ [token]) =
      (span? (noteLengthAt o (sung ++ earlier)) token).elim (scopeAt o rhythm sung earlier)
        (scopeAt o rhythm sung earlier).after := by
  have same : directives (earlier ++ [token]) = directives earlier := by
    rw [directives_concat, sets, Option.toList_none, List.append_nil]
  simp only [scopeAt, noteLengthAt, octaves, slur, same, ← List.append_assoc, latest_concat, sets,
    Option.bind_none, Option.getD_none, clockAt_concat]
  cases span? (latest Directive.noteLength? o.noteLength (sung ++ earlier)) token <;> rfl

theorem scopeAt_concat_directive (d : Directive) :
    scopeAt o rhythm sung (earlier ++ [.directive d]) =
      (scopeAt o rhythm sung earlier).updated d := by
  simp only [scopeAt, Scope.updated, noteLengthAt, ← biased_octaves, biased_keptInt, slur_concat,
    ← List.append_assoc, latest_concat, Token.directive?, Option.bind_some, clockAt_concat, span?,
    Option.elim_none]

/-- A step keeps the scope in force. -/
theorem step_scopeAt (step : (scopeAt o rhythm sung earlier).Step token events next) :
    events = token.codes.map (scopeAt o rhythm sung earlier).sounded ∧
      next = scopeAt o rhythm sung (earlier ++ [token]) := by
  cases step with
  | note code admits moves =>
      rw [scopeAt_concat rfl]
      exact ⟨rfl, rfl⟩
  | chord codes members admits moves =>
      refine ⟨rfl, ?_⟩
      rw [scopeAt_concat rfl]
      cases codes with
      | nil => exact absurd rfl members
      | cons code codes => rw [span?, shortest, List.map_map]; rfl
  | silence =>
      rw [scopeAt_concat rfl]
      exact ⟨rfl, rfl⟩
  | rest length moves soundable =>
      rw [scopeAt_concat rfl]
      exact ⟨rfl, rfl⟩
  | directive d admissible room => exact ⟨rfl, (scopeAt_concat_directive d).symm⟩

theorem run_scopeAt {tokens : Voice} {s : Scope} (run : s.Run tokens events last)
    (inForce : s = scopeAt o rhythm sung earlier) :
    events = (notesAfter earlier tokens).map (fun (before, code) =>
        (scopeAt o rhythm sung before).sounded code) ∧
      last = scopeAt o rhythm sung (earlier ++ tokens) := by
  induction run generalizing earlier with
  | done s => exact ⟨rfl, by rw [inForce, List.append_nil]⟩
  | step first run ih =>
      subst inForce
      obtain ⟨rfl, next⟩ := step_scopeAt first
      obtain ⟨rfl, ended⟩ := ih next
      rw [notesAfter_cons, List.map_append, List.map_map, ended, List.append_assoc]
      exact ⟨rfl, rfl⟩

end Polyphony.Timeline
