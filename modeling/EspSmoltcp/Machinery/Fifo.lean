import Mathlib.Data.List.Basic

/-!
# Machinery/Fifo — bounded queues

A `Fifo` holds at most `cap` items; that it does is part of it.  A send appends, or is refused when the
queue is full; a receive takes the oldest item, or finds none.
-/

/-- A bounded queue, oldest item first. -/
structure Fifo (α : Type) (cap : ℕ) where
  items : List α
  le : items.length ≤ cap

namespace Fifo

variable {α : Type} {cap : ℕ} {q q' : Fifo α cap} {a : α}

/-- The queue with nothing in it. -/
def empty : Fifo α cap := ⟨[], Nat.zero_le cap⟩

/-- Append an item, unless the queue is full. -/
def send (q : Fifo α cap) (a : α) : Option (Fifo α cap) :=
  if h : q.items.length < cap then some ⟨q.items ++ [a], by rw [List.length_append]; exact h⟩ else none

/-- Take the oldest item. -/
def receive (q : Fifo α cap) : Option (α × Fifo α cap) :=
  match q with
  | ⟨[], _⟩ => none
  | ⟨a :: items, h⟩ => some (a, ⟨items, Nat.le_of_succ_le h⟩)

theorem send_of_lt (h : q.items.length < cap) (a : α) :
    ∃ q', q.send a = some q' ∧ q'.items = q.items ++ [a] := ⟨_, dif_pos h, rfl⟩

theorem items_send (h : q.send a = some q') : q'.items = q.items ++ [a] := by
  rw [send] at h
  split_ifs at h
  obtain rfl := Option.some.inj h
  rfl

theorem items_receive (h : q.receive = some (a, q')) : q.items = a :: q'.items := by
  obtain ⟨_ | ⟨b, items⟩, hle⟩ := q
  · cases h
  · obtain ⟨rfl, rfl⟩ := Prod.mk.inj (Option.some.inj h)
    rfl

theorem items_of_receive_none (h : q.receive = none) : q.items = [] := by
  obtain ⟨_ | ⟨b, items⟩, hle⟩ := q
  · rfl
  · cases h

theorem receive_cons {items : List α} (h : q.items = a :: items) :
    ∃ q', q.receive = some (a, q') ∧ q'.items = items := by
  obtain ⟨_ | ⟨b, rest⟩, hle⟩ := q
  · cases h
  · obtain ⟨rfl, rfl⟩ := List.cons.inj h
    exact ⟨_, rfl, rfl⟩

/-! ## Runs -/

/-- Sends and receives in any order, with what was sent and what was received, oldest first.  A send that is
refused and a receive that finds nothing are not seen. -/
inductive Run : Fifo α cap → List α → List α → Fifo α cap → Prop
  | nil (q : Fifo α cap) : Run q [] [] q
  | send {q₀ q q' : Fifo α cap} {sent got : List α} {a : α} (h : Run q₀ sent got q)
      (hs : q.send a = some q') : Run q₀ (sent ++ [a]) got q'
  | receive {q₀ q q' : Fifo α cap} {sent got : List α} {a : α} (h : Run q₀ sent got q)
      (hr : q.receive = some (a, q')) : Run q₀ sent (got ++ [a]) q'

namespace Run

variable {q₀ q₁ q₂ : Fifo α cap} {sent sent' got got' : List α}

theorem trans (h : Run q₀ sent got q₁) (h' : Run q₁ sent' got' q₂) :
    Run q₀ (sent ++ sent') (got ++ got') q₂ := by
  induction h' with
  | nil => simpa using h
  | send _ hs ih => exact List.append_assoc .. ▸ ih.send hs
  | receive _ hr ih => exact List.append_assoc .. ▸ ih.receive hr

/-- **First in, first out, and nothing lost or made up.** -/
theorem conserves (h : Run q₀ sent got q₁) : q₀.items ++ sent = got ++ q₁.items := by
  induction h with
  | nil => simp
  | send _ hs ih => rw [items_send hs, ← List.append_assoc, ih, List.append_assoc]
  | receive _ hr ih =>
    rw [ih, items_receive hr]
    simp

end Run

end Fifo
