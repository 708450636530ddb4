import Mathlib.Data.List.Nodup
import Mathlib.Data.List.Perm.Basic
import Mathlib.Logic.Function.Basic

/-!
# Machinery/Ledger — resources, and who holds them

A registry says which keys are in use, and for what; the holders keep the keys.  A `Ledger` is a list of
held keys that records the registry exactly: every registered key once, and no other.

The registry changes at one key at a time, and the list with it (`Ledger.cons`, `Ledger.of_cons`); how
the list is spread over its holders does not matter (`Ledger.perm`, `perm_flatMap_set`).
-/

variable {κ α β : Type}

/-! ## Ledgers -/

/-- The list records the registry: every registered key once, with what it is registered for. -/
structure Ledger (reg : κ → Option α) (l : List (κ × α)) : Prop where
  nodup : l.Nodup
  mem : ∀ k a, (k, a) ∈ l ↔ reg k = some a

namespace Ledger

variable {reg : κ → Option α} {l l' : List (κ × α)} {k : κ} {a : α}

theorem nil : Ledger (fun _ : κ => (none : Option α)) [] :=
  ⟨List.nodup_nil, fun _ _ => by simp⟩

theorem perm (h : Ledger reg l) (hp : l.Perm l') : Ledger reg l' :=
  ⟨hp.nodup_iff.mp h.nodup, fun k a => hp.mem_iff.symm.trans (h.mem k a)⟩

/-- No key is held twice. -/
theorem nodup_keys (h : Ledger reg l) : (l.map Prod.fst).Nodup := by
  refine List.Nodup.map_on (fun p hp q hq heq => ?_) h.nodup
  have h₁ := (h.mem p.1 p.2).mp hp
  have h₂ := (h.mem q.1 q.2).mp hq
  rw [heq, h₂] at h₁
  exact Prod.ext heq (Option.some.inj h₁).symm

theorem mem_keys (h : Ledger reg l) : k ∈ l.map Prod.fst ↔ (reg k).isSome = true := by
  rw [List.mem_map, Option.isSome_iff_exists]
  constructor
  · rintro ⟨⟨k, a⟩, hp, rfl⟩
    exact ⟨a, (h.mem k a).mp hp⟩
  · rintro ⟨a, ha⟩
    exact ⟨(k, a), (h.mem k a).mpr ha, rfl⟩

variable [DecidableEq κ]

/-- **A key is taken into use.** -/
theorem cons (h : Ledger reg l) (hk : reg k = none) (a : α) :
    Ledger (Function.update reg k (some a)) ((k, a) :: l) := by
  have hnot : ∀ b, (k, b) ∉ l := by
    intro b hb
    rw [h.mem, hk] at hb
    cases hb
  refine ⟨List.nodup_cons.mpr ⟨hnot a, h.nodup⟩, fun k' b => ?_⟩
  by_cases hk' : k' = k
  · subst hk'
    simp [hnot b, eq_comm]
  · rw [List.mem_cons, h.mem, Function.update_of_ne hk']
    simp [hk']

/-- **A key that is held is given up.** -/
theorem of_cons (h : Ledger reg ((k, a) :: l)) : Ledger (Function.update reg k none) l := by
  obtain ⟨hnot, hnodup⟩ := List.nodup_cons.mp h.nodup
  have hreg : reg k = some a := (h.mem k a).mp List.mem_cons_self
  refine ⟨hnodup, fun k' b => ?_⟩
  by_cases hk' : k' = k
  · subst hk'
    rw [Function.update_self]
    refine iff_of_false (fun hb => hnot ?_) (by simp)
    have hb' := (h.mem k' b).mp (List.mem_cons_of_mem _ hb)
    rw [hreg] at hb'
    exact Option.some.inj hb' ▸ hb
  · rw [Function.update_of_ne hk', ← h.mem, List.mem_cons]
    simp [hk']

end Ledger

/-! ## Holders -/

/-- What one holder of a list contributes, apart from the rest. -/
theorem perm_flatMap_set (l : List α) (f : α → List β) {i : ℕ} {a : α} (h : l[i]? = some a) :
    ∃ rest, (l.flatMap f).Perm (f a ++ rest) ∧
      ∀ b, ((l.set i b).flatMap f).Perm (f b ++ rest) := by
  obtain ⟨hi, rfl⟩ := List.getElem?_eq_some_iff.mp h
  refine ⟨(l.take i).flatMap f ++ (l.drop (i + 1)).flatMap f, ?_, fun b => ?_⟩
  · have hl : l.take i ++ l[i] :: l.drop (i + 1) = l := by
      rw [← List.drop_eq_getElem_cons hi, List.take_append_drop]
    conv_lhs => rw [← hl]
    rw [List.flatMap_append, List.flatMap_cons]
    exact List.perm_append_comm_assoc ..
  · rw [List.set_eq_take_append_cons_drop, if_pos hi, List.flatMap_append, List.flatMap_cons]
    exact List.perm_append_comm_assoc ..
