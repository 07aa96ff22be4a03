/-! Results that may be failures, and how they are made of each other. -/
namespace ConventionLint

theorem bind_eq_error {ε α β : Type} {v : Except ε α} {f : α → Except ε β} {e : ε} :
    v >>= f = .error e ↔ v = .error e ∨ ∃ a, v = .ok a ∧ f a = .error e := by
  cases v <;> simp [bind, Except.bind]

/-- A test that a result passes tells that it is no failure. -/
theorem exists_ok_of_any {ε α : Type} {v : Except ε α} {test : α → Bool}
    (h : v.toOption.any test = true) : ∃ a, v = .ok a ∧ test a = true := by
  cases v with
  | error e => cases h
  | ok a => exact ⟨a, rfl, h⟩

theorem exists_error_of_isNone {ε α : Type} {v : Except ε α} (h : v.toOption.isNone = true) :
    ∃ e, v = .error e := by
  cases v with
  | error e => exact ⟨e, rfl⟩
  | ok a => cases h

/-- Two results that are the same but for the reason of a failure. -/
theorem cases_of_toOption {ε ε' α : Type} {v : Except ε α} {w : Except ε' α}
    (h : v.toOption = w.toOption) :
    (∃ e e', v = .error e ∧ w = .error e') ∨ ∃ a, v = .ok a ∧ w = .ok a := by
  cases v with
  | error e =>
    cases w with
    | error e' => exact Or.inl ⟨e, e', rfl, rfl⟩
    | ok b => cases h
  | ok a =>
    cases w with
    | error e' => cases h
    | ok b =>
      cases h
      exact Or.inr ⟨a, rfl, rfl⟩

end ConventionLint
