import Mathlib.Data.List.Basic

/-!
# Machinery/Window — parts of a list by their offset

A format is written by appending parts and read back by offset.  `l.StandsAt i a` is what relates the
two: the part `a` stands in `l` from offset `i` on.
-/

namespace List

variable {α : Type} {l a b : List α} {i k : ℕ} {x : α}

/-- The part `a` stands in `l` from offset `i` on. -/
def StandsAt (l : List α) (i : ℕ) (a : List α) : Prop := ∃ p q, p.length = i ∧ l = p ++ (a ++ q)

theorem standsAt_zero (a q : List α) : (a ++ q).StandsAt 0 a := ⟨[], q, rfl, rfl⟩

theorem StandsAt.le (h : l.StandsAt i a) : i + a.length ≤ l.length := by
  obtain ⟨p, q, rfl, rfl⟩ := h
  simp only [length_append]
  omega

/-- **Parts written one after the other are read one after the other.** -/
theorem standsAt_append :
    l.StandsAt i (a ++ b) ↔ l.StandsAt i a ∧ l.StandsAt (i + a.length) b := by
  constructor
  · rintro ⟨p, q, rfl, rfl⟩
    refine ⟨⟨p, b ++ q, rfl, ?_⟩, ⟨p ++ a, q, length_append, ?_⟩⟩
    · rw [append_assoc]
    · rw [append_assoc, append_assoc]
  · rintro ⟨⟨p, q, rfl, rfl⟩, ⟨p', q', hp', he⟩⟩
    have hpa : p' = p ++ a := by
      have := congrArg (take (p.length + a.length)) he
      rwa [← append_assoc, ← hp', take_left, hp', ← length_append, take_left, eq_comm] at this
    subst hpa
    refine ⟨p, q', rfl, ?_⟩
    rw [append_assoc] at he
    rw [he, append_assoc]

theorem standsAt_cons : l.StandsAt i (x :: a) ↔ l.StandsAt i [x] ∧ l.StandsAt (i + 1) a :=
  standsAt_append (a := [x])

/-- The part is read off element by element. -/
theorem StandsAt.getElem? (h : l.StandsAt i a) (hk : k < a.length) : l[i + k]? = a[k]? := by
  obtain ⟨p, q, rfl, rfl⟩ := h
  rw [getElem?_append_right (by omega), Nat.add_sub_cancel_left, getElem?_append_left hk]

theorem StandsAt.getElem?_cons (h : l.StandsAt i (x :: a)) : l[i]? = some x :=
  h.getElem? (k := 0) (by simp)

theorem StandsAt.getElem_cons (h : l.StandsAt i (x :: a)) (hi : i < l.length) : l[i] = x := by
  have := h.getElem?_cons
  rwa [List.getElem?_eq_getElem hi, Option.some.injEq] at this

end List
