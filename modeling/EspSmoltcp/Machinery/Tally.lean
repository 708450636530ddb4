import Mathlib.Data.List.Forall2

/-!
# Machinery/Tally — what the events of a log add up to

Each event of a log, newest first, stands for a list of items: the bytes a call sent, the messages it
took.  `AddsUp R log items` is that these lists, oldest first and one after the other, are `items`.  When
an event can stand for one list only, so can the log (`AddsUp.unique`).
-/

/-- The events, newest first, stand for these items. -/
def AddsUp {ε β : Type} (R : ε → List β → Prop) (log : List ε) (items : List β) : Prop :=
  ∃ chunks, List.Forall₂ R log.reverse chunks ∧ items = chunks.flatten

namespace AddsUp

variable {ε β : Type} {R : ε → List β → Prop} {log : List ε} {e : ε} {items items' chunk : List β}

/-- Nothing has happened. -/
protected theorem nil (R : ε → List β → Prop) : AddsUp R [] [] := ⟨[], .nil, rfl⟩

/-- One more event. -/
protected theorem cons (h : AddsUp R log items) (he : R e chunk) : AddsUp R (e :: log) (items ++ chunk) := by
  obtain ⟨chunks, hc, rfl⟩ := h
  refine ⟨chunks ++ [chunk], ?_, by simp⟩
  rw [List.reverse_cons]
  exact List.rel_append hc (.cons he .nil)

/-- An event that stands for nothing. -/
theorem cons_nil (h : AddsUp R log items) (he : R e []) : AddsUp R (e :: log) items :=
  List.append_nil items ▸ h.cons he

/-- Nothing has happened, and nothing is there. -/
theorem eq_nil (h : AddsUp R [] items) : items = [] := by
  obtain ⟨chunks, hc, rfl⟩ := h
  rw [List.reverse_nil, List.forall₂_nil_left_iff] at hc
  rw [hc]
  rfl

/-- The last event stands for the end of the items. -/
theorem exists_of_cons (h : AddsUp R (e :: log) items) :
    ∃ items' chunk, AddsUp R log items' ∧ R e chunk ∧ items = items' ++ chunk := by
  obtain ⟨chunks, hc, rfl⟩ := h
  rw [← chunks.reverse_reverse, List.forall₂_reverse_iff] at hc
  obtain ⟨chunk, rest, he, hlog, hrest⟩ := List.forall₂_cons_left_iff.mp hc
  refine ⟨rest.reverse.flatten, chunk, ⟨_, ?_, rfl⟩, he, ?_⟩
  · exact List.forall₂_reverse_iff.mpr hlog
  · rw [← chunks.reverse_reverse, hrest]
    simp

/-- The log determines the items. -/
theorem unique (hR : Relator.RightUnique R) (h : AddsUp R log items) (h' : AddsUp R log items') :
    items = items' := by
  obtain ⟨chunks, hc, rfl⟩ := h
  obtain ⟨chunks', hc', rfl⟩ := h'
  exact congrArg List.flatten (List.right_unique_forall₂' hR hc hc')

end AddsUp
