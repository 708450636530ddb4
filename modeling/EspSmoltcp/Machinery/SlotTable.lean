import Mathlib.Data.Finset.Card
import Mathlib.Data.List.Dedup

/-!
# Machinery/SlotTable — a fixed table of slots, read as a finite map

Each slot has a key, and one key marks the slots not in use.  As long as no two slots in use have
the same key (`Distinct`), the first slot with a key is the only one: `lookup` is a map on the keys in
use, and storing a slot updates it at no more than two keys (`lookup_set`).  The table has room
exactly while fewer keys are in use than it has slots (`exists_free_iff`).
-/

namespace SlotTable

variable {σ κ : Type} [DecidableEq κ]

/-- The first slot with this key. -/
def lookup (key : σ → κ) (t : List σ) (k : κ) : Option σ := t.find? fun s => key s = k

/-- No two slots in use have the same key. -/
def Distinct (key : σ → κ) (free : κ) (t : List σ) : Prop :=
  ∀ (i j : ℕ) (s s' : σ), t[i]? = some s → t[j]? = some s' → key s = key s' → key s ≠ free → i = j

/-- The keys in use. -/
def keys (key : σ → κ) (free : κ) (t : List σ) : Finset κ :=
  ((t.map key).filter fun k => k ≠ free).toFinset

variable {key : σ → κ} {free : κ} {t : List σ} {s s₀ : σ} {i : ℕ} {k : κ}

theorem lookup_eq_none_iff : lookup key t k = none ↔ ∀ s ∈ t, key s ≠ k := by
  simp [lookup]

theorem key_of_lookup (h : lookup key t k = some s) : key s = k := by
  simpa using List.find?_some h

theorem mem_of_lookup (h : lookup key t k = some s) : s ∈ t := List.mem_of_find?_eq_some h

theorem mem_keys : k ∈ keys key free t ↔ k ≠ free ∧ ∃ s ∈ t, key s = k := by
  simp [keys, and_comm]

theorem mem_keys_iff_lookup : k ∈ keys key free t ↔ k ≠ free ∧ (lookup key t k).isSome = true := by
  rw [mem_keys, lookup, List.find?_isSome]
  simp

namespace Distinct

/-- The slot a key in use is found in is the only one with it. -/
theorem lookup_eq_some_iff (h : Distinct key free t) (hk : k ≠ free) :
    lookup key t k = some s ↔ key s = k ∧ s ∈ t := by
  constructor
  · intro hs
    exact ⟨key_of_lookup hs, mem_of_lookup hs⟩
  · rintro ⟨rfl, hs⟩
    obtain ⟨s', hs'⟩ : ∃ s', lookup key t (key s) = some s' := by
      rw [← Option.ne_none_iff_exists', ne_eq, lookup_eq_none_iff]
      exact fun hn => hn s hs rfl
    obtain ⟨i, hi⟩ := List.mem_iff_getElem?.mp hs
    obtain ⟨j, hj⟩ := List.mem_iff_getElem?.mp (mem_of_lookup hs')
    obtain rfl := h i j s s' hi hj (key_of_lookup hs').symm hk
    rw [hs', ← hj, hi]

omit [DecidableEq κ] in
/-- A slot may be stored over another if its key marks it free, is the key of the slot it replaces,
or is new. -/
theorem set (h : Distinct key free t) (hi : t[i]? = some s₀)
    (hs : key s = free ∨ key s = key s₀ ∨ ∀ x ∈ t, key x ≠ key s) :
    Distinct key free (t.set i s) := by
  -- A slot elsewhere with the key of `s` would be a second one with the key of `s₀`.
  have hnew : ∀ j x, t[j]? = some x → key x = key s → key s ≠ free → j = i := by
    intro j x hj hx hne
    rcases hs with hs | hs | hs
    · exact absurd hs hne
    · exact h j i x s₀ hj hi (hx.trans hs) (hx ▸ hne)
    · exact absurd hx (hs x (List.mem_of_getElem? hj))
  have hlt := (List.getElem?_eq_some_iff.mp hi).1
  intro a b x y ha hb hxy hne
  rw [List.getElem?_set] at ha hb
  split_ifs at ha hb with hia hib
  · omega
  · cases ha
    exact hia ▸ (hnew b y hb hxy.symm hne).symm
  · cases hb
    subst i
    exact hnew a x ha hxy (hxy ▸ hne)
  · exact h a b x y ha hb hxy hne

/-- **Storing a slot updates the map at its key, and drops the key it replaces.** -/
theorem lookup_set (h : Distinct key free t) (hi : t[i]? = some s₀)
    (hs : key s = free ∨ key s = key s₀ ∨ ∀ x ∈ t, key x ≠ key s) (hk : k ≠ free) :
    lookup key (t.set i s) k
      = if k = key s then some s else if k = key s₀ then none else lookup key t k := by
  have hset := h.set hi hs
  have hlt := (List.getElem?_eq_some_iff.mp hi).1
  split_ifs with h₁ h₂
  · rw [hset.lookup_eq_some_iff hk]
    exact ⟨h₁.symm, List.mem_of_getElem? (i := i) (by rw [List.getElem?_set_self hlt])⟩
  · rw [lookup_eq_none_iff]
    intro x hx hxk
    obtain ⟨j, hj⟩ := List.mem_iff_getElem?.mp hx
    rw [List.getElem?_set] at hj
    split_ifs at hj with hij
    · cases hj
      exact h₁ hxk.symm
    · exact hij (h j i x s₀ hj hi (hxk.trans h₂) (hxk ▸ hk)).symm
  · ext x
    rw [hset.lookup_eq_some_iff hk, h.lookup_eq_some_iff hk]
    refine and_congr_right fun hxk => ⟨fun hx => ?_, fun hx => ?_⟩
    · obtain ⟨j, hj⟩ := List.mem_iff_getElem?.mp hx
      rw [List.getElem?_set] at hj
      split_ifs at hj with hij
      · cases hj
        exact absurd hxk.symm h₁
      · exact List.mem_of_getElem? hj
    · obtain ⟨j, hj⟩ := List.mem_iff_getElem?.mp hx
      have hij : i ≠ j := by
        rintro rfl
        rw [hi] at hj
        cases hj
        exact h₂ hxk.symm
      exact List.mem_of_getElem? (i := j) (by rw [List.getElem?_set_ne hij, hj])

/-- The keys in use are as many as the slots in use. -/
theorem card_keys (h : Distinct key free t) :
    (keys key free t).card = (t.filter fun s => key s ≠ free).length := by
  have hpair : t.Pairwise fun s s' => key s ≠ free → key s ≠ key s' := by
    refine List.pairwise_iff_getElem.mpr fun i j hi hj hij hne heq => ?_
    have := h i j _ _ (List.getElem?_eq_getElem hi) (List.getElem?_eq_getElem hj) heq hne
    omega
  have hnodup : ((t.map key).filter fun k => k ≠ free).Nodup := by
    rw [List.filter_map, List.nodup_iff_pairwise_ne, List.pairwise_map, List.pairwise_filter]
    exact hpair.imp fun hp hne _ => hp (by simpa using hne)
  rw [keys, List.toFinset_card_of_nodup hnodup, List.filter_map, List.length_map]
  rfl

/-- **A table has a free slot until as many keys are in use as it has slots.** -/
theorem exists_free_iff (h : Distinct key free t) :
    (∃ s ∈ t, key s = free) ↔ (keys key free t).card < t.length := by
  rw [h.card_keys, List.length_filter_lt_length_iff_exists]
  simp

end Distinct

omit [DecidableEq κ] in
/-- A table of free slots is distinct. -/
theorem distinct_of_free (h : ∀ s ∈ t, key s = free) : Distinct key free t :=
  fun _ _ s _ hs _ _ hne => absurd (h s (List.mem_of_getElem? hs)) hne

end SlotTable
