import Mathlib.Algebra.Order.Group.Nat
import Mathlib.Data.List.Chain

/-!
# Machinery/Ticks — sleeping on a tick clock

A `TickClock` ticks at a fixed rate; time itself is finer.  A sleep of `n` ticks ends at the `n`th tick
after it began (`due`): it takes at most `n` periods (`due_le`), and unless `n = 0` it takes some time
(`lt_due`).  So something that goes round and sleeps each time goes round no more often than the clock ticks
(`countP_add_ticks_le`).
-/

/-- A clock whose ticks are `period` apart, with `phase` the time since the last tick at time 0. -/
structure TickClock where
  period : ℕ
  period_pos : 0 < period
  phase : ℕ

namespace TickClock

variable (c : TickClock) {t t' n : ℕ}

/-- The tick count at a time. -/
def ticks (t : ℕ) : ℕ := (t + c.phase) / c.period

/-- When a sleep of `n` ticks ends that begins at a time. -/
def due (t n : ℕ) : ℕ := (c.ticks t + n) * c.period - c.phase

theorem ticks_mono (h : t ≤ t') : c.ticks t ≤ c.ticks t' :=
  Nat.div_le_div_right (Nat.add_le_add_right h c.phase)

/-- **A sleep takes no more than its ticks.** -/
theorem due_le (t n : ℕ) : c.due t n ≤ t + n * c.period := by
  have hfloor : c.ticks t * c.period ≤ t + c.phase := Nat.div_mul_le_self ..
  rw [due, Nat.add_mul]
  omega

theorem lt_next (t : ℕ) : t + c.phase < (c.ticks t + 1) * c.period := by
  have hlt := Nat.lt_mul_div_succ (t + c.phase) c.period_pos
  rwa [Nat.mul_comm] at hlt

/-- **It takes some time**: it ends at a later tick. -/
theorem ticks_due (hn : 0 < n) : c.ticks (c.due t n) = c.ticks t + n := by
  have hnext := c.lt_next t
  have hle : (c.ticks t + 1) * c.period ≤ (c.ticks t + n) * c.period :=
    Nat.mul_le_mul_right _ (by omega)
  have hphase : c.due t n + c.phase = (c.ticks t + n) * c.period := by
    rw [due]
    omega
  rw [ticks, hphase, Nat.mul_div_cancel _ c.period_pos]

theorem lt_due (hn : 0 < n) : t < c.due t n := by
  have hnext := c.lt_next t
  have hle : (c.ticks t + 1) * c.period ≤ (c.ticks t + n) * c.period :=
    Nat.mul_le_mul_right _ (by omega)
  rw [due]
  omega

/-! ## Going round -/

section Rounds

variable {α : Type} {sleep wake : α → ℕ}

/-- **Rounds that sleep their time out are no more than the ticks that pass.** -/
theorem countP_add_ticks_le (timedOut : α → Bool)
    (hround : ∀ a, sleep a ≤ wake a ∧ (timedOut a = true → c.ticks (sleep a) < c.ticks (wake a)))
    (a : α) (l : List α) (hchain : List.IsChain (fun a b => wake a ≤ sleep b) (a :: l)) :
    (a :: l).countP timedOut + c.ticks (sleep a) ≤
      c.ticks (wake ((a :: l).getLast (List.cons_ne_nil a l))) := by
  induction l generalizing a with
  | nil =>
    rw [List.getLast_singleton, List.countP_singleton]
    split_ifs with ha
    · have hlt := (hround a).2 ha
      omega
    · have hle := c.ticks_mono (hround a).1
      omega
  | cons b l ih =>
    obtain ⟨hab, hchain⟩ := List.isChain_cons_cons.mp hchain
    have hrest := ih b hchain
    have hgap := c.ticks_mono hab
    rw [List.countP_cons, List.getLast_cons (List.cons_ne_nil b l)]
    split_ifs with ha
    · have hlt := (hround a).2 ha
      omega
    · have hle := c.ticks_mono (hround a).1
      omega

end Rounds

end TickClock
