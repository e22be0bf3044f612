import Polyphony.Proofs.Outcome

/-! Computations that keep a log of what they have done, also when they fail. -/
namespace Polyphony

structure Logged (ω ε α : Type) where
  log : List ω
  outcome : Except ε α

namespace Logged

variable {ω ε ε' α β : Type}

def bind (x : Logged ω ε α) (f : α → Logged ω ε β) : Logged ω ε β :=
  match x.outcome with
  | .ok a => ⟨x.log ++ (f a).log, (f a).outcome⟩
  | .error e => ⟨x.log, .error e⟩

instance : Monad (Logged ω ε) where
  pure a := ⟨[], .ok a⟩
  bind := bind

/-- A computation that adds nothing to the log. -/
def silent (x : Except ε α) : Logged ω ε α := ⟨[], x⟩

def mapError (f : ε → ε') (x : Logged ω ε α) : Logged ω ε' α := ⟨x.log, x.outcome.mapError f⟩

/-- What comes of a computation, with its log if it succeeds. -/
def result (x : Logged ω ε α) : Except ε (List ω × α) := x.outcome.map (x.log, ·)

/-- The whole log as one entry of a longer one. -/
def gathered (x : Logged ω ε α) : Logged (List ω) ε (List ω × α) := ⟨[x.log], x.result⟩

theorem bind_of_ok {x : Logged ω ε α} {a : α} (f : α → Logged ω ε β) (ok : x.outcome = .ok a) :
    x >>= f = ⟨x.log ++ (f a).log, (f a).outcome⟩ := by
  change bind x f = _
  rw [bind, ok]

theorem bind_of_error {x : Logged ω ε α} {e : ε} (f : α → Logged ω ε β)
    (error : x.outcome = .error e) : x >>= f = ⟨x.log, .error e⟩ := by
  change bind x f = _
  rw [bind, error]

theorem result_eq_ok_iff {x : Logged ω ε α} {log : List ω} {a : α} :
    x.result = .ok (log, a) ↔ x.outcome = .ok a ∧ x.log = log := by
  rw [result, map_eq_ok_iff]
  constructor
  · rintro ⟨b, ended, same⟩
    cases same
    exact ⟨ended, rfl⟩
  · rintro ⟨ended, rfl⟩
    exact ⟨a, ended, rfl⟩

theorem outcome_bind (x : Logged ω ε α) (f : α → Logged ω ε β) :
    (x >>= f).outcome = x.outcome >>= fun a => (f a).outcome := by
  cases ended : x.outcome with
  | ok a => rw [bind_of_ok f ended]; rfl
  | error e => rw [bind_of_error f ended]; rfl

theorem result_bind (x : Logged ω ε α) (f : α → Logged ω ε β) :
    (x >>= f).result =
      x.result >>= fun (log, a) => (f a).result.map fun (later, b) => (log ++ later, b) := by
  cases ended : x.outcome with
  | ok a =>
      rw [bind_of_ok f ended, result, result, ended]
      change _ = (f a).result.map _
      rw [result]
      cases (f a).outcome <;> rfl
  | error e => rw [bind_of_error f ended, result, result, ended]; rfl

theorem result_silent (x : Except ε α) : (silent x : Logged ω ε α).result = x.map ([], ·) := rfl

/-- An entry is logged by the first part, or by the second if it is reached. -/
theorem mem_log_bind {x : Logged ω ε α} {f : α → Logged ω ε β} {entry : ω} :
    entry ∈ (x >>= f).log ↔
      entry ∈ x.log ∨ ∃ a, x.outcome = .ok a ∧ entry ∈ (f a).log := by
  cases ended : x.outcome with
  | ok a =>
      rw [bind_of_ok f ended, List.mem_append]
      refine or_congr_right ⟨fun later => ⟨a, rfl, later⟩, ?_⟩
      rintro ⟨b, same, later⟩
      cases same
      exact later
  | error e =>
      rw [bind_of_error f ended]
      refine (or_iff_left ?_).symm
      rintro ⟨b, same, _⟩
      cases same

theorem mem_log_bind_of_silent {x : Logged ω ε α} {f : α → Logged ω ε β} {entry : ω}
    (nothing : ∀ a, (f a).log = []) : entry ∈ (x >>= f).log ↔ entry ∈ x.log := by
  rw [mem_log_bind]
  refine or_iff_left ?_
  rintro ⟨a, _, later⟩
  rw [nothing] at later
  exact List.not_mem_nil later

end Logged
end Polyphony
