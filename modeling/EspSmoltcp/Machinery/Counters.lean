import EspSmoltcp.Machinery.Ledger
import Mathlib.Algebra.BigOperators.Group.List.Basic
import Mathlib.Algebra.GroupWithZero.Nat
import Mathlib.Data.List.Perm.Basic
import Mathlib.Data.Option.Basic
import Mathlib.Logic.Relation

/-!
# Machinery/Counters — counters that tasks add to without a lock

    due ──begin──▸ loading ──load──▸ storing ──store──▸ done
                                      └ tear ┘

`x += n` on memory is a load and a store.  Where the counter is wider than a word, the store is several, and until
the last of them the counter may hold anything (`tear`).  Two tasks that add to one counter at the same time can
lose an addition, or leave a mixture of both.

As long as no two additions to the same counter are ever under way together (`Lone`), a counter is exact: unless
somebody is storing to it, it is, to its width, what was added up so far less what is still to be added
(`Exact.balance`).
-/

variable {C : Type}

namespace Counters

/-! ## Additions -/

/-- An addition under way. -/
inductive Adding (C : Type)
  | loading (c : C) (n : ℕ)
  | storing (c : C) (v : ℕ)

/-- The counter it is to. -/
def Adding.counter : Adding C → C
  | loading c _ | storing c _ => c

/-- A task's additions: the one under way, and those it has not begun. -/
structure Adder (C : Type) where
  now : Option (Adding C) := none
  due : List (C × ℕ) := []

/-- Nothing to add. -/
def Adder.Idle (a : Adder C) : Prop := a.now = none ∧ a.due = []

section Amounts

variable [DecidableEq C] (c : C)

/-- What some additions add to a counter. -/
def amounts (l : List (C × ℕ)) : List ℕ := l.filterMap fun a => if a.1 = c then some a.2 else none

/-- What a task has still to load and add. -/
def Adder.left (a : Adder C) : List ℕ :=
  match a.now with
  | some (.loading c' n) => amounts c ((c', n) :: a.due)
  | some (.storing ..) | none => amounts c a.due

end Amounts

end Counters

/-! ## The system -/

/-- The counters in memory, and the tasks that add to them. -/
structure Counters (C : Type) where
  mem : C → ℕ := fun _ => 0
  adders : List (Counters.Adder C) := []

namespace Counters

/-- The addition of a task that is under way. -/
def now (s : Counters C) (k : ℕ) : Option (Adding C) := s.adders[k]?.bind Adder.now

/-- Put a task's additions in place of those it has. -/
def setAdder (s : Counters C) (k : ℕ) (a : Adder C) : Counters C := { s with adders := s.adders.set k a }

/-- No two additions to the same counter are under way. -/
def Lone (s : Counters C) : Prop :=
  s.adders.Pairwise fun a b => ∀ x ∈ a.now, ∀ y ∈ b.now, x.counter ≠ y.counter

instance [DecidableEq C] (s : Counters C) : Decidable s.Lone :=
  inferInstanceAs (Decidable (s.adders.Pairwise _))

/-- Somebody is storing to the counter. -/
def Storing (s : Counters C) (c : C) : Prop := ∃ k v, s.now k = some (.storing c v)

section Steps

variable [DecidableEq C] (width : C → ℕ)

/-- What all tasks have still to add to a counter. -/
def left (s : Counters C) (c : C) : ℕ := (s.adders.flatMap (Adder.left c)).sum

/-- One step of an addition; a counter has as many bits as its width. -/
inductive Step (s : Counters C) : Counters C → Prop
  | begin {k : ℕ} {c : C} {n : ℕ} {due : List (C × ℕ)} (hk : s.adders[k]? = some ⟨none, (c, n) :: due⟩) :
      Step s (s.setAdder k ⟨some (.loading c n), due⟩)
  | load {k : ℕ} {c : C} {n : ℕ} {due : List (C × ℕ)} (hk : s.adders[k]? = some ⟨some (.loading c n), due⟩) :
      Step s (s.setAdder k ⟨some (.storing c ((s.mem c + n) % 2 ^ width c)), due⟩)
  | tear {k : ℕ} {c : C} {v : ℕ} (hk : s.now k = some (.storing c v)) (x : ℕ) :
      Step s { s with mem := Function.update s.mem c x }
  | store {k : ℕ} {c : C} {v : ℕ} {due : List (C × ℕ)} (hk : s.adders[k]? = some ⟨some (.storing c v), due⟩) :
      Step s { s.setAdder k ⟨none, due⟩ with mem := Function.update s.mem c v }

end Steps

theorem Lone.eq {s : Counters C} (h : s.Lone) {k k' : ℕ} {x x' : Adding C} (hk : s.now k = some x)
    (hk' : s.now k' = some x') (hx : x.counter = x'.counter) : k = k' := by
  obtain ⟨a, ha, hnow⟩ := Option.bind_eq_some_iff.mp hk
  obtain ⟨a', ha', hnow'⟩ := Option.bind_eq_some_iff.mp hk'
  obtain ⟨hlt, rfl⟩ := List.getElem?_eq_some_iff.mp ha
  obtain ⟨hlt', rfl⟩ := List.getElem?_eq_some_iff.mp ha'
  have hpair := List.pairwise_iff_getElem.mp h
  obtain hkk | rfl | hkk := Nat.lt_trichotomy k k'
  · exact absurd hx (hpair k k' hlt hlt' hkk x hnow x' hnow')
  · rfl
  · exact absurd hx.symm (hpair k' k hlt' hlt hkk x' hnow' x hnow)

/-! ## Changing one task -/

section Set

variable {s : Counters C} {k : ℕ} {a b : Adder C}

theorem now_setAdder (hk : s.adders[k]? = some a) (b : Adder C) :
    (s.setAdder k b).now = Function.update s.now k b.now := by
  funext k'
  have hlt := (List.getElem?_eq_some_iff.mp hk).1
  by_cases hk' : k' = k
  · subst hk'
    simp [now, setAdder, hlt]
  · simp [now, setAdder, Function.update_of_ne hk', List.getElem?_set_ne (Ne.symm hk')]

variable [DecidableEq C]

/-- The rest of the tasks have as much left as before. -/
theorem left_setAdder (hk : s.adders[k]? = some a) (b : Adder C) (c : C) :
    (s.setAdder k b).left c + (a.left c).sum = s.left c + (b.left c).sum := by
  obtain ⟨rest, hold, hnew⟩ := perm_flatMap_set s.adders (Adder.left c) hk
  rw [left, left, setAdder, hold.sum_eq, (hnew b).sum_eq, List.sum_append, List.sum_append]
  omega

@[simp] theorem amounts_nil (c : C) : amounts c [] = [] := rfl

@[simp] theorem sum_amounts_cons (c c' : C) (n : ℕ) (l : List (C × ℕ)) :
    (amounts c ((c', n) :: l)).sum = (if c' = c then n else 0) + (amounts c l).sum := by
  rw [amounts, List.filterMap_cons]
  split_ifs
  · rfl
  · exact (Nat.zero_add _).symm

@[simp] theorem left_now_none (c : C) (due : List (C × ℕ)) : Adder.left c ⟨none, due⟩ = amounts c due := rfl

@[simp] theorem left_loading (c c' : C) (n : ℕ) (due : List (C × ℕ)) :
    Adder.left c ⟨some (.loading c' n), due⟩ = amounts c ((c', n) :: due) := rfl

@[simp] theorem left_storing (c c' : C) (v : ℕ) (due : List (C × ℕ)) :
    Adder.left c ⟨some (.storing c' v), due⟩ = amounts c due := rfl

end Set

/-! ## Exact counters -/

/-- What a counter holds once nobody is storing to it. -/
def Settles (s : Counters C) (c : C) (x : ℕ) : Prop :=
  (∃ k, s.now k = some (.storing c x)) ∨ (¬ s.Storing c ∧ s.mem c = x)

/-- Only who is storing, and what the counters hold, matter to what they settle to. -/
theorem Settles.of_same {s s' : Counters C} {c : C} {x : ℕ} (h : s'.Settles c x)
    (hstoring : ∀ k v, s'.now k = some (.storing c v) ↔ s.now k = some (.storing c v))
    (hmem : s'.mem c = s.mem c) : s.Settles c x := by
  obtain ⟨k, hk⟩ | ⟨hnot, hx⟩ := h
  · exact .inl ⟨k, (hstoring k x).mp hk⟩
  · exact .inr ⟨fun ⟨k, v, hk⟩ => hnot ⟨k, v, (hstoring k v).mpr hk⟩, hmem ▸ hx⟩

section Exact

variable [DecidableEq C] (width : C → ℕ)

/-- What the counters settle to and what is left to add make up what has been asked for. -/
def Exact (s : Counters C) (total : C → ℕ) : Prop :=
  ∀ c x, s.Settles c x → x < 2 ^ width c ∧ (x + s.left c) % 2 ^ width c = total c % 2 ^ width c

variable {width} {s s' : Counters C} {total : C → ℕ} {k : ℕ}

theorem exact_start : Exact width ({} : Counters C) fun _ => 0 := by
  rintro c x (⟨k, hk⟩ | ⟨-, rfl⟩)
  · cases hk
  · exact ⟨Nat.two_pow_pos _, rfl⟩

namespace Exact

/-- A task comes, with nothing to add. -/
theorem join (h : Exact width s total) : Exact width { s with adders := s.adders ++ [{}] } total := by
  have hnow : ∀ k, now { s with adders := s.adders ++ [{}] } k = s.now k := by
    intro k
    rw [now, now, List.getElem?_append]
    split_ifs with hk
    · rfl
    · rw [List.getElem?_eq_none (l := s.adders) (Nat.not_lt.mp hk)]
      rcases k - s.adders.length with _ | j
      · rfl
      · rfl
  intro c x hx
  have hleft : left { s with adders := s.adders ++ [{}] } c = s.left c := by
    simp [left, Adder.left]
  rw [hleft]
  exact h c x (hx.of_same (fun k v => by rw [hnow]) rfl)

/-- A task that has nothing to add is given something. -/
theorem ask (h : Exact width s total) {a : Adder C} (hk : s.adders[k]? = some a) (hidle : a.Idle)
    (l : List (C × ℕ)) : Exact width (s.setAdder k ⟨none, l⟩) fun c => total c + (amounts c l).sum := by
  obtain ⟨now, due⟩ := a
  obtain ⟨rfl, rfl⟩ : now = none ∧ due = [] := hidle
  intro c x hx
  have hold : s.now k = none := by rw [Counters.now, hk, Option.bind_some]
  have hleft := left_setAdder hk ⟨none, l⟩ c
  rw [left_now_none, left_now_none, amounts_nil, List.sum_nil, Nat.add_zero] at hleft
  obtain ⟨hlt, hbal⟩ := h c x (hx.of_same (fun k' v => by
    rw [now_setAdder hk, ← hold, Function.update_eq_self]) rfl)
  refine ⟨hlt, ?_⟩
  rw [hleft, ← Nat.add_assoc, Nat.add_mod, hbal, ← Nat.add_mod]

/-- **A step of an addition that is alone keeps the counters exact.** -/
theorem step (h : Exact width s total) (hlone : s.Lone) (hstep : Step width s s') : Exact width s' total := by
  intro c x hx
  cases hstep with
  | @begin k c' n due hk =>
    -- The amount is still to be added.
    have hold : s.now k = none := by rw [now, hk, Option.bind_some]
    have hleft := left_setAdder hk ⟨some (.loading c' n), due⟩ c
    rw [left_now_none, left_loading, Nat.add_right_cancel_iff] at hleft
    rw [hleft]
    refine h c x (hx.of_same (fun k' v => ?_) rfl)
    rw [now_setAdder hk]
    by_cases hk' : k' = k
    · subst hk'
      simp [hold]
    · rw [Function.update_of_ne hk']
  | @load k c' n due hk =>
    have hload : s.now k = some (.loading c' n) := by rw [now, hk, Option.bind_some]
    have hleft := left_setAdder hk ⟨some (.storing c' ((s.mem c' + n) % 2 ^ width c')), due⟩ c
    rw [left_loading, left_storing, sum_amounts_cons] at hleft
    by_cases hc : c' = c
    · -- Nobody is storing to the counter, so what is loaded is what it settles to.
      subst hc
      have hnot : ¬ s.Storing c' := by
        rintro ⟨k', v, hk'⟩
        obtain rfl := hlone.eq hload hk' rfl
        rw [hload] at hk'
        cases hk'
      obtain ⟨-, hbal⟩ := h c' _ (.inr ⟨hnot, rfl⟩)
      have hval : x = (s.mem c' + n) % 2 ^ width c' := by
        obtain ⟨k', hk'⟩ | ⟨hnone, -⟩ := hx
        · rw [now_setAdder hk] at hk'
          by_cases hkk : k' = k
          · subst hkk
            rw [Function.update_self] at hk'
            cases hk'
            rfl
          · rw [Function.update_of_ne hkk] at hk'
            exact absurd ⟨k', x, hk'⟩ hnot
        · refine absurd ⟨k, (s.mem c' + n) % 2 ^ width c', ?_⟩ hnone
          rw [now_setAdder hk, Function.update_self]
      subst hval
      refine ⟨Nat.mod_lt _ (Nat.two_pow_pos _), ?_⟩
      rw [if_pos rfl] at hleft
      rw [Nat.mod_add_mod, ← hbal]
      congr 1
      omega
    · rw [if_neg hc, Nat.zero_add, Nat.add_right_cancel_iff] at hleft
      rw [hleft]
      refine h c x (hx.of_same (fun k' v => ?_) rfl)
      rw [now_setAdder hk]
      by_cases hk' : k' = k
      · subst hk'
        rw [Function.update_self, hload]
        simp [hc]
      · rw [Function.update_of_ne hk']
  | @tear k c' v hk y =>
    by_cases hc : c = c'
    · subst hc
      obtain hx | ⟨hnot, -⟩ := hx
      · exact h c x (.inl hx)
      · exact absurd ⟨k, v, hk⟩ hnot
    · exact h c x (hx.of_same (fun _ _ => Iff.rfl) (Function.update_of_ne hc ..))
  | @store k c' v due hk =>
    have hstore : s.now k = some (.storing c' v) := by rw [now, hk, Option.bind_some]
    have hleft := left_setAdder hk ⟨none, due⟩ c
    rw [left_now_none, left_storing, Nat.add_right_cancel_iff] at hleft
    have hnow := now_setAdder hk ⟨none, due⟩
    change _ ∧ (x + (s.setAdder k ⟨none, due⟩).left c) % _ = _
    rw [hleft]
    by_cases hc : c = c'
    · -- Nobody else is storing to the counter, so it has settled.
      subst hc
      obtain ⟨k', hk'⟩ | ⟨-, rfl⟩ := hx
      · change (s.setAdder k ⟨none, due⟩).now k' = _ at hk'
        rw [hnow] at hk'
        by_cases hkk : k' = k
        · subst hkk
          rw [Function.update_self] at hk'
          cases hk'
        · rw [Function.update_of_ne hkk] at hk'
          exact absurd (hlone.eq hk' hstore rfl) hkk
      · refine h c _ (.inl ⟨k, ?_⟩)
        rw [hstore]
        simp
    · refine h c x (hx.of_same (fun k' w => ?_) (Function.update_of_ne hc ..))
      change (s.setAdder k ⟨none, due⟩).now k' = _ ↔ _
      rw [hnow]
      by_cases hk' : k' = k
      · subst hk'
        rw [Function.update_self, hstore]
        simp [Ne.symm hc]
      · rw [Function.update_of_ne hk']

/-- **Unless somebody is storing to it, a counter and what is left to add make up what has been asked for.** -/
theorem balance (h : Exact width s total) {c : C} (hc : ¬ s.Storing c) :
    (s.mem c + s.left c) % 2 ^ width c = total c % 2 ^ width c := (h c _ (.inr ⟨hc, rfl⟩)).2

/-- When nobody has anything to add, the counters are what has been asked for. -/
theorem of_idle (h : Exact width s total) (hidle : ∀ a ∈ s.adders, a.Idle) (c : C) :
    s.mem c = total c % 2 ^ width c := by
  have hnot : ¬ s.Storing c := by
    rintro ⟨k, v, hk⟩
    obtain ⟨a, ha, hnow⟩ := Option.bind_eq_some_iff.mp hk
    rw [(hidle a (List.mem_of_getElem? ha)).1] at hnow
    cases hnow
  have hleft : s.adders.flatMap (Adder.left c) = [] := by
    refine List.flatMap_eq_nil_iff.mpr fun a ha => ?_
    obtain ⟨hnow, hdue⟩ := hidle a ha
    rw [Adder.left, hnow, hdue, amounts_nil]
  obtain ⟨hlt, hbal⟩ := h c _ (.inr ⟨hnot, rfl⟩)
  rwa [left, hleft, List.sum_nil, Nat.add_zero, Nat.mod_eq_of_lt hlt] at hbal

end Exact

end Exact

end Counters
