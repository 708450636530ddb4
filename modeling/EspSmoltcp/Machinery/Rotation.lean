import Mathlib.Data.Nat.Notation
import Mathlib.Tactic.SplitIfs

/-!
# Machinery/Rotation — how far a round robin is from a position

Positions `0 … n - 1` of a ring are served from a pointer `p` on, and serving one puts the pointer right
behind it.  `dist n p t` is how many steps ahead of the pointer `t` is.  Serving a position that comes
before `t` brings `t` closer (`dist_next`), so a position that is always ready is served within `n`
services.
-/

namespace Rotation

variable {n p t k : ℕ}

/-- How many steps ahead of `p` the position `t` is. -/
def dist (n p t : ℕ) : ℕ := if p ≤ t then t - p else n - p + t

theorem dist_lt (hp : p < n) (ht : t < n) : dist n p t < n := by
  rw [dist]
  split_ifs <;> omega

/-- A step around the ring either stays on the lap or starts the next one. -/
theorem add_mod_cases (hp : p < n) (hk : k < n) :
    p + k < n ∧ (p + k) % n = p + k ∨ n ≤ p + k ∧ (p + k) % n = p + k - n := by
  by_cases h : p + k < n
  · exact .inl ⟨h, Nat.mod_eq_of_lt h⟩
  · refine .inr ⟨Nat.not_lt.mp h, ?_⟩
    rw [Nat.mod_eq_sub_mod (Nat.not_lt.mp h), Nat.mod_eq_of_lt (by omega)]

/-- That many steps ahead of `p` is `t`. -/
theorem add_dist (hp : p < n) (ht : t < n) : (p + dist n p t) % n = t := by
  have hlt := dist_lt hp ht
  obtain ⟨h, he⟩ | ⟨h, he⟩ := add_mod_cases hp hlt
  · rw [he, dist]
    rw [dist] at h
    split_ifs at h ⊢ <;> omega
  · rw [he, dist]
    rw [dist] at h
    split_ifs at h ⊢ <;> omega

/-- **Serving what comes before `t` brings `t` closer.** -/
theorem dist_next (hp : p < n) (ht : t < n) (hk : k < dist n p t) :
    dist n (((p + k) % n + 1) % n) t + (k + 1) = dist n p t := by
  have hlt := dist_lt hp ht
  have hnext : ((p + k) % n + 1) % n = (p + (k + 1)) % n := by
    rw [Nat.add_mod, Nat.mod_mod, ← Nat.add_mod, Nat.add_assoc]
  obtain ⟨h, he⟩ | ⟨h, he⟩ := add_mod_cases hp (show k + 1 < n by omega)
  · rw [hnext, he, dist, dist]
    rw [dist] at hk hlt
    split_ifs at hk hlt ⊢ <;> omega
  · rw [hnext, he, dist, dist]
    rw [dist] at hk hlt
    split_ifs at hk hlt ⊢ <;> omega

/-- The position just served is the only one a whole lap away. -/
theorem dist_succ_lt (hp : p < n) (ht : t < n) (h : p ≠ t) : dist n ((p + 1) % n) t + 1 < n := by
  obtain ⟨hlt, he⟩ | ⟨hge, he⟩ := add_mod_cases hp (show 1 < n by omega)
  · rw [he, dist]
    split_ifs <;> omega
  · rw [he, dist]
    split_ifs <;> omega

end Rotation
