import Mathlib.Logic.Function.Basic

/-!
# Machinery/Owned — every block has one owner

A heap says which blocks are live; holders hold some.  `Owned` is that every live block is held by exactly one
holder and that nothing else is held, so that a holder who frees what it holds frees it once, and nobody is left
with it.

A block is allocated for a holder, handed on and freed, with one rule each; a rule takes the holders after the
step from those before it.
-/

variable {κ ω α : Type} {live : κ → Option α} {holds holds' : ω → κ → Prop} {k : κ} {o : ω}

/-- Every live block is held once, and every block that is held is live. -/
structure Owned (live : κ → Option α) (holds : ω → κ → Prop) : Prop where
  live_iff : ∀ k, (live k).isSome = true ↔ ∃ o, holds o k
  unique : ∀ k o o', holds o k → holds o' k → o = o'

namespace Owned

/-- Nothing has been allocated. -/
theorem start (h : ∀ o k, ¬ holds o k) : Owned (fun _ : κ => (none : Option α)) holds := by
  refine ⟨fun k => iff_of_false (by simp) ?_, fun k o _ ho => absurd ho (h o k)⟩
  rintro ⟨o, ho⟩
  exact h o k ho

theorem isSome (h : Owned live holds) (ho : holds o k) : (live k).isSome = true := (h.live_iff k).mpr ⟨o, ho⟩

/-- A block that nobody holds is free. -/
theorem eq_none (h : Owned live holds) (hnone : ∀ o, ¬ holds o k) : live k = none := by
  rcases hk : live k with _ | a
  · rfl
  · obtain ⟨o, ho⟩ := (h.live_iff k).mp (by rw [hk]; rfl)
    exact absurd ho (hnone o)

/-- A free block is held by nobody. -/
theorem not_holds (h : Owned live holds) (hk : live k = none) (o : ω) : ¬ holds o k := by
  intro ho
  have := h.isSome ho
  rw [hk] at this
  cases this

theorem congr (h : Owned live holds) (heq : ∀ o k, holds' o k ↔ holds o k) : Owned live holds' := by
  have : holds' = holds := funext fun o => funext fun k => propext (heq o k)
  rwa [this]

/-- A block changes hands. -/
theorem move (h : Owned live holds) (o' : ω) (ho : holds o k) (hself : ∀ o₁, holds' o₁ k ↔ o₁ = o')
    (hother : ∀ o₁ k₁, k₁ ≠ k → (holds' o₁ k₁ ↔ holds o₁ k₁)) : Owned live holds' := by
  refine ⟨fun k₁ => ?_, fun k₁ o₁ o₂ h₁ h₂ => ?_⟩
  · by_cases hk : k₁ = k
    · subst hk
      exact iff_of_true (h.isSome ho) ⟨o', (hself o').mpr rfl⟩
    · simp only [h.live_iff, hother _ k₁ hk]
  · by_cases hk : k₁ = k
    · subst hk
      rw [hself] at h₁ h₂
      rw [h₁, h₂]
    · rw [hother _ k₁ hk] at h₁ h₂
      exact h.unique k₁ o₁ o₂ h₁ h₂

variable [DecidableEq κ]

/-- **A block is allocated for a holder.** -/
theorem alloc (h : Owned live holds) (a : α) (hself : ∀ o₁, holds' o₁ k ↔ o₁ = o)
    (hother : ∀ o₁ k₁, k₁ ≠ k → (holds' o₁ k₁ ↔ holds o₁ k₁)) :
    Owned (Function.update live k (some a)) holds' := by
  refine ⟨fun k₁ => ?_, fun k₁ o₁ o₂ h₁ h₂ => ?_⟩
  · by_cases hk₁ : k₁ = k
    · subst hk₁
      rw [Function.update_self]
      exact iff_of_true rfl ⟨o, (hself o).mpr rfl⟩
    · simp only [Function.update_of_ne hk₁, h.live_iff, hother _ k₁ hk₁]
  · by_cases hk₁ : k₁ = k
    · subst hk₁
      rw [hself] at h₁ h₂
      rw [h₁, h₂]
    · rw [hother _ k₁ hk₁] at h₁ h₂
      exact h.unique k₁ o₁ o₂ h₁ h₂

/-- A live block is written to. -/
theorem write (h : Owned live holds) (hk : (live k).isSome = true) (a : α) :
    Owned (Function.update live k (some a)) holds := by
  refine ⟨fun k₁ => ?_, h.unique⟩
  by_cases hk₁ : k₁ = k
  · subst hk₁
    rw [Function.update_self, ← h.live_iff]
    exact iff_of_true rfl hk
  · rw [Function.update_of_ne hk₁, h.live_iff]

/-- **A block is freed by its holder.** -/
theorem free (h : Owned live holds) (hself : ∀ o₁, ¬ holds' o₁ k)
    (hother : ∀ o₁ k₁, k₁ ≠ k → (holds' o₁ k₁ ↔ holds o₁ k₁)) :
    Owned (Function.update live k none) holds' := by
  refine ⟨fun k₁ => ?_, fun k₁ o₁ o₂ h₁ h₂ => ?_⟩
  · by_cases hk₁ : k₁ = k
    · subst hk₁
      rw [Function.update_self]
      refine iff_of_false (by simp) ?_
      rintro ⟨o₁, h₁⟩
      exact hself o₁ h₁
    · simp only [Function.update_of_ne hk₁, h.live_iff, hother _ k₁ hk₁]
  · by_cases hk₁ : k₁ = k
    · subst hk₁
      exact absurd h₁ (hself o₁)
    · rw [hother _ k₁ hk₁] at h₁ h₂
      exact h.unique k₁ o₁ o₂ h₁ h₂

end Owned
