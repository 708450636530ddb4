import Mathlib.Data.Option.Basic

/-!
# Machinery/Linked — a singly linked list, read off the memory it is in

`cell k n next` says that at `k` is the node `n`, which points on to `next`.  From a pointer on, memory shows at most
one list (`Linked.unique`); it stays as long as its nodes do (`Linked.frame`), and its last node can be made to point
to another list (`Linked.join`).
-/

variable {κ ν : Type} {cell cell' : κ → ν → Option κ → Prop} {k : κ} {p q : Option κ} {n : ν} {ns ns' : List ν}

/-- From `p` on, the nodes are `ns`. -/
def Linked (cell : κ → ν → Option κ → Prop) : Option κ → List ν → Prop
  | p, [] => p = none
  | p, n :: ns => ∃ k next, p = some k ∧ cell k n next ∧ Linked cell next ns

namespace Linked

theorem nil : Linked cell none [] := rfl

theorem cons (hn : cell k n q) (h : Linked cell q ns) : Linked cell (some k) (n :: ns) := ⟨k, q, rfl, hn, h⟩

theorem of_none (h : Linked cell none ns) : ns = [] := by
  rcases ns with _ | ⟨n, ns⟩
  · rfl
  · obtain ⟨k, next, hk, -⟩ := h
    cases hk

/-- Behind a pointer is a node. -/
theorem of_some (h : Linked cell (some k) ns) :
    ∃ n ns' next, ns = n :: ns' ∧ cell k n next ∧ Linked cell next ns' := by
  rcases ns with _ | ⟨n, ns⟩
  · cases h
  · obtain ⟨k', next, hk, hn, h⟩ := h
    obtain rfl := Option.some.inj hk
    exact ⟨n, ns, next, rfl, hn, h⟩

/-- **Memory shows at most one list.** -/
theorem unique (hcell : ∀ k n next n' next', cell k n next → cell k n' next' → n = n' ∧ next = next')
    (h : Linked cell p ns) (h' : Linked cell p ns') : ns = ns' := by
  induction ns generalizing p ns' with
  | nil =>
    obtain rfl : p = none := h
    exact h'.of_none.symm
  | cons n ns ih =>
    obtain ⟨k, next, rfl, hn, h⟩ := h
    obtain ⟨n', ns'', next', rfl, hn', h'⟩ := h'.of_some
    obtain ⟨rfl, rfl⟩ := hcell k n next n' next' hn hn'
    rw [ih h h']

/-- **A list stays as long as its nodes do.** -/
theorem frame (hcell : ∀ n ∈ ns, ∀ k next, cell k n next → cell' k n next) (h : Linked cell p ns) :
    Linked cell' p ns := by
  induction ns generalizing p with
  | nil => exact h
  | cons n ns ih =>
    obtain ⟨k, next, hp, hn, h⟩ := h
    exact ⟨k, next, hp, hcell n List.mem_cons_self k next hn, ih (fun n hn => hcell n (List.mem_cons_of_mem _ hn)) h⟩

/-- **The last node is made to point to another list.** -/
theorem join (hcell : ∀ m ∈ ns, ∀ k next, cell k m next → cell' k m next)
    (hlast : ∀ k, cell k n none → cell' k n q) (h : Linked cell p (ns ++ [n])) (h' : Linked cell' q ns') :
    Linked cell' p (ns ++ [n] ++ ns') := by
  induction ns generalizing p with
  | nil =>
    obtain ⟨k, next, rfl, hn, hnext⟩ := h
    obtain rfl : next = none := hnext
    exact cons (hlast k hn) h'
  | cons m ms ih =>
    obtain ⟨k, next, rfl, hm, h⟩ := h
    exact cons (hcell m List.mem_cons_self k next hm) (ih (fun m hm => hcell m (List.mem_cons_of_mem _ hm)) h)

end Linked
