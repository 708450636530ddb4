import Mathlib.Data.List.Basic

/-!
# Machinery/Search — looking for something while there is time

    x₁ nothing ──▸ x₂ nothing ──▸ x₃ found

A search goes through what it is given, one at a time.  It ends at the first thing that is what it looks for,
or at the first that came when the time was up; what came before decides nothing.
-/

namespace Search

variable {α β : Type} (hit : α → Option β) (late : α → Prop) [DecidablePred late]

/-- The search: what it found, or that the time was up; `none` if it still goes on. -/
def search : List α → Option (Option β)
  | [] => none
  | x :: xs => match hit x with
    | some b => some (some b)
    | none => if late x then some none else search xs

/-- Neither what is looked for nor late. -/
def Passed (x : α) : Prop := hit x = none ∧ ¬ late x

variable {hit late} {xs : List α} {x : α} {b : β}

theorem search_cons_passed (h : Passed hit late x) : search hit late (x :: xs) = search hit late xs := by
  rw [search, h.1]
  exact if_neg h.2

theorem search_cons_hit (h : hit x = some b) : search hit late (x :: xs) = some (some b) := by
  rw [search, h]

theorem search_cons_late (h : hit x = none) (hlate : late x) : search hit late (x :: xs) = some none := by
  rw [search, h]
  exact if_pos hlate

/-- Something passes, is found, or is late. -/
theorem passed_or (hit : α → Option β) (late : α → Prop) [DecidablePred late] (x : α) :
    Passed hit late x ∨ (∃ b, hit x = some b) ∨ hit x = none ∧ late x := by
  rcases hx : hit x with _ | b
  · by_cases hlate : late x
    · exact .inr (.inr ⟨rfl, hlate⟩)
    · exact .inl ⟨hx, hlate⟩
  · exact .inr (.inl ⟨b, rfl⟩)

/-- **Where a search ends is the first thing that does not pass.** -/
theorem search_cases (hit : α → Option β) (late : α → Prop) [DecidablePred late] (xs : List α) :
    ((∀ y ∈ xs, Passed hit late y) ∧ search hit late xs = none) ∨
      ∃ pre x post, xs = pre ++ x :: post ∧ (∀ y ∈ pre, Passed hit late y) ∧
        ((∃ b, hit x = some b ∧ search hit late xs = some (some b)) ∨
          hit x = none ∧ late x ∧ search hit late xs = some none) := by
  induction xs with
  | nil => exact .inl ⟨fun _ h => absurd h List.not_mem_nil, rfl⟩
  | cons x xs ih =>
    obtain hx | ⟨b, hx⟩ | ⟨hx, hlate⟩ := passed_or hit late x
    · rw [search_cons_passed hx]
      obtain ⟨hall, hnone⟩ | ⟨pre, y, post, rfl, hpre, hy⟩ := ih
      · exact .inl ⟨List.forall_mem_cons.mpr ⟨hx, hall⟩, hnone⟩
      · exact .inr ⟨x :: pre, y, post, rfl, List.forall_mem_cons.mpr ⟨hx, hpre⟩, hy⟩
    · exact .inr ⟨[], x, xs, rfl, fun _ h => absurd h List.not_mem_nil, .inl ⟨b, hx, search_cons_hit hx⟩⟩
    · exact .inr ⟨[], x, xs, rfl, fun _ h => absurd h List.not_mem_nil,
        .inr ⟨hx, hlate, search_cons_late hx hlate⟩⟩

/-- What passes at the front does not matter. -/
theorem search_append_passed {pre : List α} (h : ∀ y ∈ pre, Passed hit late y) :
    search hit late (pre ++ xs) = search hit late xs := by
  induction pre with
  | nil => rfl
  | cons y pre ih =>
    obtain ⟨hy, hpre⟩ := List.forall_mem_cons.mp h
    rw [List.cons_append, search_cons_passed hy, ih hpre]

/-- **It finds `b`** exactly if `b` comes before anything else that counts. -/
theorem search_eq_found_iff : search hit late xs = some (some b) ↔
    ∃ pre x post, xs = pre ++ x :: post ∧ (∀ y ∈ pre, Passed hit late y) ∧ hit x = some b := by
  constructor
  · intro h
    obtain ⟨-, hnone⟩ | ⟨pre, x, post, he, hpre, ⟨b', hx, hb⟩ | ⟨-, -, hlate⟩⟩ := search_cases hit late xs
    · rw [h] at hnone
      cases hnone
    · rw [h] at hb
      obtain rfl := Option.some.inj (Option.some.inj hb)
      exact ⟨pre, x, post, he, hpre, hx⟩
    · rw [h] at hlate
      cases hlate
  · rintro ⟨pre, x, post, rfl, hpre, hx⟩
    rw [search_append_passed hpre, search_cons_hit hx]

/-- **It gives up** exactly if the time is up before anything is found. -/
theorem search_eq_late_iff : search hit late xs = some none ↔
    ∃ pre x post, xs = pre ++ x :: post ∧ (∀ y ∈ pre, Passed hit late y) ∧ hit x = none ∧ late x := by
  constructor
  · intro h
    obtain ⟨-, hnone⟩ | ⟨pre, x, post, he, hpre, ⟨b', -, hb⟩ | ⟨hx, hlate, -⟩⟩ := search_cases hit late xs
    · rw [h] at hnone
      cases hnone
    · rw [h] at hb
      cases hb
    · exact ⟨pre, x, post, he, hpre, hx, hlate⟩
  · rintro ⟨pre, x, post, rfl, hpre, hx, hlate⟩
    rw [search_append_passed hpre, search_cons_late hx hlate]

/-- **It goes on** exactly if nothing has counted. -/
theorem search_eq_none_iff : search hit late xs = none ↔ ∀ y ∈ xs, Passed hit late y := by
  constructor
  · intro h
    obtain ⟨hall, -⟩ | ⟨pre, x, post, -, -, ⟨b', -, hb⟩ | ⟨-, -, hlate⟩⟩ := search_cases hit late xs
    · exact hall
    · rw [h] at hb
      cases hb
    · rw [h] at hlate
      cases hlate
  · intro h
    rw [← List.append_nil xs, search_append_passed h]
    rfl

end Search
