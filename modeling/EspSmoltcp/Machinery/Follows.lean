import Mathlib.Logic.Basic

/-!
# Machinery/Follows — a computation that follows another

Two computations in `Except` with errors of different kinds: the second *follows* the first if it fails where the
first does, with that error as its own kind knows it, and returns something related where the first returns.
`Follows.bind` composes steps; what only the second does in between must return (`Follows.step`).
-/

variable {ε ε' α α' β β' γ : Type} {err : ε → ε'}

/-- A sequence returns if both its parts do. -/
theorem Except.bind_eq_ok_iff {x : Except ε α} {f : α → Except ε β} {b : β} :
    x >>= f = .ok b ↔ ∃ a, x = .ok a ∧ f a = .ok b := by
  constructor
  · intro h
    cases x with
    | ok a => exact ⟨a, rfl, h⟩
    | error e => cases h
  · rintro ⟨a, rfl, h⟩
    exact h

/-- The second computation follows the first. -/
inductive Follows (err : ε → ε') (R : α → β → Prop) : Except ε α → Except ε' β → Prop
  | ok {a : α} {b : β} (h : R a b) : Follows err R (.ok a) (.ok b)
  | error (e : ε) : Follows err R (.error e) (.error (err e))

namespace Follows

variable {R : α → β → Prop} {Q : α' → β' → Prop} {x : Except ε α} {y : Except ε' β}

theorem bind {f : α → Except ε α'} {g : β → Except ε' β'} (h : Follows err R x y)
    (hf : ∀ a b, R a b → Follows err Q (f a) (g b)) : Follows err Q (x >>= f) (y >>= g) := by
  cases h with
  | ok h => exact hf _ _ h
  | error e => exact .error e

/-- A step that the second computation takes alone. -/
theorem step {z : Except ε' γ} {c : γ} {g : γ → Except ε' β} (hz : z = .ok c) (h : Follows err R x (g c)) :
    Follows err R x (z >>= g) := by
  rw [hz]
  exact h

theorem ite {c c' : Prop} [Decidable c] [Decidable c'] {x₁ x₂ : Except ε α} {y₁ y₂ : Except ε' β} (hc : c ↔ c')
    (h₁ : c → Follows err R x₁ y₁) (h₂ : ¬ c → Follows err R x₂ y₂) :
    Follows err R (if c then x₁ else x₂) (if c' then y₁ else y₂) := by
  by_cases h : c
  · rw [if_pos h, if_pos (hc.mp h)]
    exact h₁ h
  · rw [if_neg h, if_neg (mt hc.mpr h)]
    exact h₂ h

/-- Where the first computation returns, so does the second. -/
theorem exists_ok {a : α} (h : Follows err R (.ok a) y) : ∃ b, y = .ok b ∧ R a b := by
  cases h with
  | ok h => exact ⟨_, rfl, h⟩

end Follows
