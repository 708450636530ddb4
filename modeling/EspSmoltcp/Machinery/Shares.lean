import EspSmoltcp.Machinery.Owned
import Mathlib.Data.List.Nodup

/-!
# Machinery/Shares — a heap, dealt out

Each holder has a share, a list of blocks.  `Shares` is that every live block is in one share, once, and that nothing
else is.  A holder allocates a block, frees one, or hands its share to another; a rule takes the shares up to
reordering.
-/

variable {κ ω α : Type} {live : κ → Option α} {share share' : ω → List κ} {k : κ} {o o' : ω}

/-- Every live block is in one share, once. -/
structure Shares (live : κ → Option α) (share : ω → List κ) : Prop where
  owned : Owned live fun o k => k ∈ share o
  nodup : ∀ o, (share o).Nodup

namespace Shares

/-- Nothing has been allocated. -/
theorem start : Shares (fun _ : κ => (none : Option α)) fun _ : ω => [] :=
  ⟨.start fun _ _ => List.not_mem_nil, fun _ => List.nodup_nil⟩

/-- A block in the share of one holder is not in that of another. -/
theorem ne (h : Shares live share) (hne : o' ≠ o) (hk : k ∈ share o) : ∀ k' ∈ share o', k' ≠ k := by
  rintro k' hk' rfl
  exact hne (h.owned.unique k' o' o hk' hk)

/-- The shares are only reordered. -/
theorem perm (h : Shares live share) (hperm : ∀ o, (share' o).Perm (share o)) : Shares live share' :=
  ⟨h.owned.congr fun o _ => (hperm o).mem_iff, fun o => (hperm o).nodup_iff.mpr (h.nodup o)⟩

/-- A holder hands its share to another. -/
theorem give (h : Shares live share) (hne : o ≠ o') (hfrom : share' o = [])
    (hto : (share' o').Perm (share o ++ share o'))
    (hother : ∀ o₁, o₁ ≠ o → o₁ ≠ o' → share' o₁ = share o₁) : Shares live share' := by
  have hmem : ∀ o₁ k, k ∈ share' o₁ ↔ o₁ = o' ∧ k ∈ share o ∨ o₁ ≠ o ∧ k ∈ share o₁ := by
    intro o₁ k
    by_cases ho : o₁ = o
    · subst ho
      simp [hfrom, hne]
    by_cases ho' : o₁ = o'
    · subst ho'
      simp [hto.mem_iff, ho]
    · simp [hother o₁ ho ho', ho, ho']
  refine ⟨⟨fun k => ?_, fun k o₁ o₂ h₁ h₂ => ?_⟩, fun o₁ => ?_⟩
  · simp only [h.owned.live_iff, hmem]
    constructor
    · rintro ⟨o₁, hk⟩
      by_cases ho : o₁ = o
      · exact ⟨o', .inl ⟨rfl, ho ▸ hk⟩⟩
      · exact ⟨o₁, .inr ⟨ho, hk⟩⟩
    · rintro ⟨o₁, ⟨-, hk⟩ | ⟨-, hk⟩⟩
      · exact ⟨o, hk⟩
      · exact ⟨o₁, hk⟩
  · simp only [hmem] at h₁ h₂
    obtain ⟨rfl, h₁⟩ | ⟨hn₁, h₁⟩ := h₁
    · obtain ⟨rfl, -⟩ | ⟨hn₂, h₂⟩ := h₂
      · rfl
      · exact absurd (h.owned.unique k o₂ o h₂ h₁) hn₂
    · obtain ⟨rfl, h₂⟩ | ⟨hn₂, h₂⟩ := h₂
      · exact absurd (h.owned.unique k o₁ o h₁ h₂) hn₁
      · exact h.owned.unique k o₁ o₂ h₁ h₂
  · by_cases ho : o₁ = o
    · rw [ho, hfrom]
      exact List.nodup_nil
    by_cases ho' : o₁ = o'
    · rw [ho', hto.nodup_iff, List.nodup_append]
      exact ⟨h.nodup o, h.nodup o', fun k hk k' hk' => (h.ne hne.symm hk k' hk').symm⟩
    · rw [hother o₁ ho ho']
      exact h.nodup o₁

variable [DecidableEq κ]

/-- A block in a share is written to. -/
theorem write (h : Shares live share) (hk : k ∈ share o) (a : α) : Shares (Function.update live k (some a)) share :=
  ⟨h.owned.write (h.owned.isSome (o := o) hk) a, h.nodup⟩

/-- **A holder allocates a block.** -/
theorem alloc (h : Shares live share) (hk : live k = none) (a : α) (ho : (share' o).Perm (k :: share o))
    (hother : ∀ o₁, o₁ ≠ o → share' o₁ = share o₁) : Shares (Function.update live k (some a)) share' := by
  have hnot : ∀ o₁, k ∉ share o₁ := h.owned.not_holds hk
  refine ⟨h.owned.alloc (o := o) a (fun o₁ => ?_) fun o₁ k₁ hk₁ => ?_, fun o₁ => ?_⟩
  · by_cases ho₁ : o₁ = o
    · simp [ho₁, ho.mem_iff]
    · simp [ho₁, hother o₁ ho₁, hnot o₁]
  · by_cases ho₁ : o₁ = o
    · simp [ho₁, ho.mem_iff, hk₁]
    · rw [hother o₁ ho₁]
  · by_cases ho₁ : o₁ = o
    · rw [ho₁, ho.nodup_iff, List.nodup_cons]
      exact ⟨hnot o, h.nodup o⟩
    · rw [hother o₁ ho₁]
      exact h.nodup o₁

/-- **A holder frees a block.** -/
theorem free (h : Shares live share) (ho : (share o).Perm (k :: share' o))
    (hother : ∀ o₁, o₁ ≠ o → share' o₁ = share o₁) : Shares (Function.update live k none) share' := by
  have hk : k ∈ share o := ho.mem_iff.mpr List.mem_cons_self
  obtain ⟨hnot, hnodup⟩ := List.nodup_cons.mp (ho.nodup_iff.mp (h.nodup o))
  refine ⟨h.owned.free (fun o₁ => ?_) fun o₁ k₁ hk₁ => ?_, fun o₁ => ?_⟩
  · by_cases ho₁ : o₁ = o
    · rwa [ho₁]
    · rw [hother o₁ ho₁]
      intro hk₁
      exact h.ne ho₁ hk k hk₁ rfl
  · by_cases ho₁ : o₁ = o
    · simp [ho₁, ho.mem_iff, hk₁]
    · rw [hother o₁ ho₁]
  · by_cases ho₁ : o₁ = o
    · rwa [ho₁]
    · rw [hother o₁ ho₁]
      exact h.nodup o₁

end Shares
