import EspSmoltcp.Compat.LoHeap
import EspSmoltcp.Machinery.Owned
import Mathlib.Logic.Relation

/-!
# Compat/LoMemory — the heap under the loopback is safe

Every message has one owner, the queue or the task that holds it; every queue has one, its fd entry.  A step moves
ownership along, if nobody closes an fd under another call on it or under a delivery to it.

* `loMemory_safe` — in every run in which no `close` of an fd meets another call on it or a delivery to it, and no
  two `bind`s of one meet, no step touches freed memory, every block has one owner, and when all is closed nothing is
  left.
-/

namespace EspSmoltcp

open LoMem

variable {T : Type}

theorem LoPc.entry_of_binds {c : LoPc} {i : ℕ} (h : c.binds = some i) : c.entry = some i := by
  cases c with
  | binding j port | creating j port => exact h
  | _ => cases h

theorem LoPc.closes_of_gone {c : LoPc} {i : ℕ} (h : c.gone = some i) : c.closes = some i := by
  cases c with
  | deleted j => exact h
  | _ => cases h

/-! ## Owners -/

/-- Who may hold a message. -/
inductive LoHolder (T : Type)
  | queue (q : ℕ)
  | task (t : T)

namespace LoMem

/-- Who holds which message. -/
def holds (s : LoMem T) : LoHolder T → ℕ → Prop
  | .queue q, p => ∃ ps, s.queue q = some ps ∧ p ∈ ps
  | .task t, p => (s.pc t).carried = some p

/-- The queue is the entry's, and nobody has deleted it. -/
def Serves (s : LoMem T) (i q : ℕ) : Prop := s.rx i = some q ∧ ∀ t, (s.pc t).gone ≠ some i

/-- What a call has seen of its entry and counts on. -/
def Relies (s : LoMem T) : LoPc → Prop
  | .checked i _ | .filled i _ | .entered i | .peeking i | .deleted i => (s.rx i).isSome = true
  | .receiving i q => s.rx i = some q
  | .binding i _ => s.isOpen i = true
  | .creating i _ => s.rx i = none ∧ s.isOpen i = true
  | .drained i => ∀ q, s.rx i = some q → s.queue q = some []
  | .unflagging i | .freeing i => s.rx i = none
  | _ => True

/-- Every message and every queue has one owner. -/
structure Inv (s : LoMem T) : Prop where
  msgs : Owned s.msg s.holds
  nodup : ∀ q ps, s.queue q = some ps → ps.Nodup
  queues : Owned s.queue s.Serves
  flagged : ∀ i, (s.rx i).isSome = true → s.loopback i = true
  closed : ∀ i, s.isOpen i = false → s.rx i = none
  relies : ∀ t, s.Relies (s.pc t)

/-- No `close` of an entry meets another call on it or a delivery to it, and no `bind` another `bind`.  The delivery
may come from any fd: `lo_deliver` looks the slot up under the lock, and uses the queue of the entry after that. -/
structure Exclusive (s : LoMem T) : Prop where
  close : ∀ t t' i, (s.pc t).closes = some i → (s.pc t').entry = some i → t' = t
  bind : ∀ t t' i, (s.pc t).binds = some i → (s.pc t').binds = some i → t' = t

theorem inv_start : Inv ({} : LoMem T) where
  msgs := Owned.start fun o p => by
    rcases o with q | t
    · rintro ⟨ps, hps, -⟩
      cases hps
    · simp [holds, LoPc.carried]
  nodup _ _ h := by cases h
  queues := Owned.start fun _ _ h => by cases h.1
  flagged _ h := by cases h
  closed _ _ := rfl
  relies _ := trivial

variable {s : LoMem T} {t : T} {c c₀ : LoPc} {p q i : ℕ} {ps : List ℕ}

/-- To a call on an entry, the queue that the entry has is there. -/
theorem Exclusive.serves (he : s.Exclusive) (hentry : (s.pc t).entry = some i) (hgone : (s.pc t).gone = none)
    (hq : s.rx i = some q) : s.Serves i q := by
  refine ⟨hq, fun t' ht' => ?_⟩
  obtain rfl := he.close t' t i (LoPc.closes_of_gone ht') hentry
  rw [hgone] at ht'
  cases ht'

/-- **No step touches anything but live memory.** -/
theorem Inv.safe (h : s.Inv) (he : s.Exclusive) {b : Block} (hb : s.next (s.pc t) = some b) : s.Live b := by
  have hrelies := h.relies t
  have hmsg : ∀ {p}, (s.pc t).carried = some p → s.Live (.msg p) := fun hp => (h.msgs.live_iff _).mpr ⟨.task t, hp⟩
  have hqueue : ∀ {i q}, s.rx i = some q → (s.pc t).entry = some i → (s.pc t).gone = none → s.Live (.queue q) :=
    fun hq hentry hgone => h.queues.isSome (he.serves hentry hgone hq)
  have hhandle : ∀ {i}, (s.rx i).isSome = true → (s.pc t).entry = some i → (s.pc t).gone = none →
      s.Live (handle (s.rx i)) := by
    intro i hq hentry hgone
    obtain ⟨q, hq⟩ := Option.isSome_iff_exists.mp hq
    rw [hq]
    exact hqueue hq hentry hgone
  have hclosing : ∀ {i}, (s.rx i).map Block.queue = some b → (s.pc t).entry = some i → (s.pc t).gone = none →
      s.Live b := by
    intro i hq hentry hgone
    obtain ⟨q, hrx, rfl⟩ := Option.map_eq_some_iff.mp hq
    exact hqueue hrx hentry hgone
  cases hpc : s.pc t with
  | filled i p | entered i | peeking i =>
    rw [hpc] at hb hrelies hhandle
    obtain rfl := Option.some.inj hb
    exact hhandle hrelies rfl rfl
  | receiving i q =>
    rw [hpc] at hb hrelies hqueue
    obtain rfl := Option.some.inj hb
    exact hqueue hrelies rfl rfl
  | refused p | received p | copied p | draining i p =>
    rw [hpc] at hb hmsg
    obtain rfl := Option.some.inj hb
    exact hmsg rfl
  | unbound i | drained i =>
    rw [hpc] at hb hclosing
    exact hclosing hb rfl rfl
  | _ =>
    rw [hpc] at hb
    cases hb

/-! ## Steps keep the owners -/

theorem loopback_setFlag (s : LoMem T) (i : ℕ) (b : Bool) (j : ℕ) :
    (s.setFlag i b).loopback j = if j = i then b else s.loopback j := Function.update_apply ..

theorem rx_setRx (s : LoMem T) (i : ℕ) (q : Option ℕ) (j : ℕ) :
    (s.setRx i q).rx j = if j = i then q else s.rx j := Function.update_apply ..

theorem isOpen_setOpen (s : LoMem T) (i : ℕ) (b : Bool) (j : ℕ) :
    (s.setOpen i b).isOpen j = if j = i then b else s.isOpen j := Function.update_apply ..

theorem queue_setQueue (s : LoMem T) (q : ℕ) (ps : Option (List ℕ)) (q' : ℕ) :
    (s.setQueue q ps).queue q' = if q' = q then ps else s.queue q' := Function.update_apply ..

theorem relies_of_gone (h : s.Relies c) (hgone : c.gone = some i) : (s.rx i).isSome = true := by
  cases c with
  | deleted j =>
    obtain rfl := Option.some.inj hgone
    exact h
  | _ => cases hgone

/-- A call does not count on another entry. -/
theorem relies_setRx (h : s.Relies c) (hentry : c.entry ≠ some i) (o : Option ℕ) : (s.setRx i o).Relies c := by
  have hne : ∀ j, c.entry = some j → (s.setRx i o).rx j = s.rx j := by
    intro j hj
    rw [rx_setRx, if_neg]
    rintro rfl
    exact hentry hj
  cases c with
  | checked j m | filled j p | entered j | peeking j | deleted j | receiving j q | creating j port | drained j
  | unflagging j | freeing j =>
    rw [Relies, hne j rfl]
    exact h
  | binding j port => exact h
  | _ => trivial

/-- Only a `bind` counts on an entry to be open. -/
theorem relies_setOpen (h : s.Relies c) {b : Bool} (hb : b = true ∨ c.binds ≠ some i) : (s.setOpen i b).Relies c := by
  have hopen : ∀ j, c.binds = some j → s.isOpen j = true → (s.setOpen i b).isOpen j = true := by
    intro j hj hopen
    rw [isOpen_setOpen]
    split_ifs with hji
    · exact hb.resolve_right (not_not_intro (hji ▸ hj))
    · exact hopen
  cases c with
  | binding j port => exact hopen j rfl h
  | creating j port => exact ⟨h.1, hopen j rfl h.2⟩
  | _ => exact h

/-- A call that has drained a queue counts on it to stay empty. -/
theorem relies_setQueue (h : s.Relies c) {o : Option (List ℕ)}
    (ho : ∀ j, c = .drained j → s.rx j = some q → o = some []) : (s.setQueue q o).Relies c := by
  cases c with
  | drained j =>
    intro q' hq'
    rw [queue_setQueue]
    split_ifs with heq
    · exact ho j rfl (heq ▸ hq')
    · exact h q' hq'
  | _ => exact h

/-- An entry without a queue is counted on by who will create one and by who closes it. -/
theorem relies_of_none (h : s.Relies c) (hentry : c.entry = some i) (hclose : c.closes ≠ some i)
    (hbind : c.binds ≠ some i) (hnone : s.rx i = none) (o : Option ℕ) : (s.setRx i o).Relies c := by
  cases c with
  | checked j m | filled j p | entered j | peeking j | deleted j =>
    obtain rfl := Option.some.inj hentry
    rw [Relies, hnone] at h
    cases h
  | receiving j q =>
    obtain rfl := Option.some.inj hentry
    rw [Relies, hnone] at h
    cases h
  | drained j | unflagging j | freeing j => exact absurd hentry hclose
  | binding j port | creating j port => exact absurd hentry hbind
  | _ => trivial

theorem holds_queue_setQueue (q' : ℕ) :
    (s.setQueue q (some ps)).holds (.queue q') p ↔ if q' = q then p ∈ ps else s.holds (.queue q') p := by
  rw [holds, queue_setQueue]
  split_ifs
  · simp
  · rfl

/-- What a queue keeps. -/
theorem holds_setQueue_iff (hps : s.queue q = some ps) {ps' : List ℕ} (h : p ∈ ps' ↔ p ∈ ps) (o : LoHolder T) :
    (s.setQueue q (some ps')).holds o p ↔ s.holds o p := by
  rcases o with q' | t'
  · rw [holds_queue_setQueue]
    split_ifs with hq
    · rw [h, hq, holds, hps]
      simp
    · rfl
  · exact Iff.rfl

theorem nodup_setQueue (h : ∀ q ps, s.queue q = some ps → ps.Nodup) {ps : List ℕ} (hps : ps.Nodup) (q' : ℕ)
    (ps' : List ℕ) (hq' : (s.setQueue q (some ps)).queue q' = some ps') : ps'.Nodup := by
  rw [queue_setQueue] at hq'
  split_ifs at hq'
  · obtain rfl := Option.some.inj hq'
    exact hps
  · exact h q' ps' hq'

theorem pc_takeSlot (s : LoMem T) (port : UInt16) (i : ℕ) (t : T) : (s.takeSlot port i).pc t = s.pc t := by
  rw [takeSlot]
  rcases loSlotFor s.slots port with _ | k
  · rfl
  · rfl

namespace Inv

theorem slots (h : s.Inv) (slots : List LoSlot) : Inv { s with slots := slots } :=
  ⟨h.msgs, h.nodup, h.queues, h.flagged, h.closed, h.relies⟩

theorem takeSlot (h : s.Inv) (port : UInt16) (i : ℕ) : (s.takeSlot port i).Inv := by
  rw [LoMem.takeSlot]
  rcases loSlotFor s.slots port with _ | k
  · exact h
  · exact h.slots _

theorem raiseFlag (h : s.Inv) (i : ℕ) : (s.setFlag i true).Inv where
  msgs := h.msgs
  nodup := h.nodup
  queues := h.queues
  closed := h.closed
  flagged j hj := by
    rw [loopback_setFlag]
    split_ifs
    · rfl
    · exact h.flagged j hj
  relies := h.relies

theorem lowerFlag (h : s.Inv) (hi : s.rx i = none) : (s.setFlag i false).Inv where
  msgs := h.msgs
  nodup := h.nodup
  queues := h.queues
  closed := h.closed
  flagged j hj := by
    rw [loopback_setFlag]
    split_ifs with hji
    · change (s.rx j).isSome = true at hj
      rw [hji, hi] at hj
      cases hj
    · exact h.flagged j hj
  relies := h.relies

theorem setOpen (h : s.Inv) (i : ℕ) : (s.setOpen i true).Inv where
  msgs := h.msgs
  nodup := h.nodup
  queues := h.queues
  flagged := h.flagged
  closed j hj := by
    rw [isOpen_setOpen] at hj
    split_ifs at hj
    exact h.closed j hj
  relies t := relies_setOpen (h.relies t) (.inl rfl)

/-- A free entry is taken: it had no queue. -/
theorem alloc (h : s.Inv) (hfree : s.isOpen i = false) : (((s.setRx i none).setFlag i false).setOpen i true).Inv := by
  have hnone := h.closed i hfree
  have hsame : s.setRx i none = s := by
    rw [setRx, Function.update_eq_self_iff.mpr hnone.symm]
  rw [hsame]
  exact (h.lowerFlag hnone).setOpen i

end Inv

section Keeps

variable [DecidableEq T]

theorem pc_goto (t' : T) : (s.goto t c).pc t' = if t' = t then c else s.pc t' := Function.update_apply ..

/-- What a task does not take or give up. -/
theorem holds_goto_iff (h : c.carried = some p ↔ (s.pc t).carried = some p) (o : LoHolder T) :
    (s.goto t c).holds o p ↔ s.holds o p := by
  rcases o with q | t'
  · exact Iff.rfl
  · rw [holds, holds, pc_goto]
    split_ifs with ht
    · rw [ht, h]
    · rfl

theorem serves_goto_iff (h : c.gone = (s.pc t).gone) (i q : ℕ) : (s.goto t c).Serves i q ↔ s.Serves i q := by
  refine and_congr_right' (forall_congr' fun t' => ?_)
  rw [pc_goto]
  split_ifs with ht
  · rw [ht, h]
  · rfl

theorem holds_queue_goto (q p : ℕ) : (s.goto t c).holds (.queue q) p ↔ s.holds (.queue q) p := Iff.rfl

theorem relies_goto (h : ∀ t', s.Relies (s.pc t')) (hc : s.Relies c) (t' : T) :
    (s.goto t c).Relies ((s.goto t c).pc t') := by
  rw [pc_goto]
  split_ifs
  · exact hc
  · exact h t'

namespace Inv

/-- The task goes on, and memory stays as it is. -/
theorem pass (h : s.Inv) (hpc : s.pc t = c₀) (hcarried : c.carried = c₀.carried) (hgone : c.gone = c₀.gone)
    (hc : s.Relies c) : (s.goto t c).Inv where
  msgs := h.msgs.congr fun o p => holds_goto_iff (by rw [hcarried, hpc]) o
  nodup := h.nodup
  queues := h.queues.congr (serves_goto_iff (hgone.trans (by rw [hpc])))
  flagged := h.flagged
  closed := h.closed
  relies := relies_goto h.relies hc

/-- **`malloc`**: the task holds a new message. -/
theorem malloc (h : s.Inv) (hp : s.msg p = none) (m : LoMsg) (hpc : s.pc t = c₀) (hc₀ : c₀.carried = none)
    (hc : c.carried = some p) (hgone : c.gone = c₀.gone) (hrelies : s.Relies c) :
    ((s.setMsg p (some m)).goto t c).Inv where
  msgs := by
    refine h.msgs.alloc m (o := .task t) (fun o => ?_) fun o p' hp' => ?_
    · have hnot := h.msgs.not_holds hp o
      rcases o with q | t'
      · exact iff_of_false hnot (by simp)
      · rw [holds, pc_goto, LoHolder.task.injEq]
        split_ifs with ht
        · exact iff_of_true hc ht
        · exact iff_of_false hnot ht
    · refine holds_goto_iff (s := s) (iff_of_false ?_ ?_) o
      · rw [hc, Option.some.injEq]
        exact fun heq => hp' heq.symm
      · simp [hpc, hc₀]
  nodup := h.nodup
  queues := h.queues.congr (serves_goto_iff (s := s) (hgone.trans (by rw [hpc])))
  flagged := h.flagged
  closed := h.closed
  relies := relies_goto (s := s) h.relies hrelies

/-- **`free`**: the task gives up the message it holds, and nobody else holds it. -/
theorem free (h : s.Inv) (hpc : s.pc t = c₀) (hc₀ : c₀.carried = some p) (hc : c.carried = none)
    (hgone : c.gone = c₀.gone) (hrelies : s.Relies c) : ((s.setMsg p none).goto t c).Inv where
  msgs := by
    have hheld : s.holds (.task t) p := (congrArg LoPc.carried hpc).trans hc₀
    refine h.msgs.free (fun o ho => ?_) fun o p' hp' => ?_
    · rcases o with q | t'
      · cases h.msgs.unique p (.queue q) (.task t) ho hheld
      · rw [holds, pc_goto] at ho
        split_ifs at ho with ht
        · rw [hc] at ho
          cases ho
        · exact ht (LoHolder.task.inj (h.msgs.unique p (.task t') (.task t) ho hheld))
    · refine holds_goto_iff (s := s) (iff_of_false ?_ ?_) o
      · simp [hc]
      · rw [hpc, hc₀, Option.some.injEq]
        exact fun heq => hp' heq.symm
  nodup := h.nodup
  queues := h.queues.congr (serves_goto_iff (s := s) (hgone.trans (by rw [hpc])))
  flagged := h.flagged
  closed := h.closed
  relies := relies_goto (s := s) h.relies hrelies

/-- **`xQueueSend`**: the queue holds the message in the task's place. -/
theorem send (h : s.Inv) (he : s.Exclusive) (hpc : s.pc t = .filled i p) (hq : s.rx i = some q)
    (hps : s.queue q = some ps) : ((s.setQueue q (some (ps ++ [p]))).goto t .idle).Inv where
  msgs := by
    have hheld : s.holds (.task t) p := by rw [holds, hpc]; rfl
    have honly := fun o ho => h.msgs.unique p o (.task t) ho hheld
    refine h.msgs.move (.queue q) hheld (fun o => ?_) fun o p' hp' => ?_
    · rcases o with q' | t'
      · rw [LoHolder.queue.injEq, holds_queue_goto, holds_queue_setQueue]
        split_ifs with hq
        · exact iff_of_true (List.mem_append_right ps (List.mem_singleton_self p)) hq
        · exact iff_of_false (fun ho => by cases honly _ ho) hq
      · rw [holds, pc_goto]
        refine iff_of_false (fun ho => ?_) (by simp)
        split_ifs at ho with ht
        · cases ho
        · exact ht (LoHolder.task.inj (honly (.task t') ho))
    · rw [holds_goto_iff (s := s.setQueue q _) (iff_of_false (by simp [LoPc.carried]) ?_) o]
      · exact holds_setQueue_iff hps (by simp [hp']) o
      · change ¬ (s.pc t).carried = some p'
        rw [hpc, LoPc.carried, Option.some.injEq]
        exact fun heq => hp' heq.symm
  nodup := by
    refine nodup_setQueue h.nodup (List.nodup_append.mpr ⟨h.nodup q ps hps, List.nodup_singleton p, ?_⟩)
    rintro a ha b hb rfl
    rw [List.mem_singleton.mp hb] at ha
    cases h.msgs.unique p (.queue q) (.task t) ⟨ps, hps, ha⟩
      (show s.holds (.task t) p by rw [holds, hpc]; rfl)
  queues := (h.queues.write (by rw [hps]; rfl) _).congr (serves_goto_iff (s := s) (by rw [hpc]; rfl))
  flagged := h.flagged
  closed := h.closed
  relies := by
    refine relies_goto (s := s.setQueue q _) (fun t' => relies_setQueue (h.relies t') fun j hj hjq => ?_) trivial
    have hi := he.serves (i := i) (by rw [hpc]; rfl) (by rw [hpc]; rfl) hq
    have hj' := he.serves (i := j) (t := t') (by rw [hj]; rfl) (by rw [hj]; rfl) hjq
    obtain rfl := h.queues.unique q j i hj' hi
    obtain rfl := he.close t' t j (by rw [hj]; rfl) (by rw [hpc]; rfl)
    rw [hpc] at hj
    cases hj

/-- **`xQueueReceive`**: the task holds the first message in the queue's place. -/
theorem take (h : s.Inv) (hps : s.queue q = some (p :: ps)) (hpc : s.pc t = c₀) (hc₀ : c₀.carried = none)
    (hc : c.carried = some p) (hgone : c.gone = c₀.gone) (hrelies : (s.setQueue q (some ps)).Relies c) :
    ((s.setQueue q (some ps)).goto t c).Inv where
  msgs := by
    have hhead : s.holds (.queue q) p := ⟨p :: ps, hps, List.mem_cons_self⟩
    have honly := fun o ho => h.msgs.unique p o (.queue q) ho hhead
    refine h.msgs.move (.task t) hhead (fun o => ?_) fun o p' hp' => ?_
    · rcases o with q' | t'
      · refine iff_of_false ?_ (by simp)
        rw [holds_queue_goto, holds_queue_setQueue]
        split_ifs with hq
        · exact (List.nodup_cons.mp (h.nodup q _ hps)).1
        · exact fun ho => hq (LoHolder.queue.inj (honly _ ho))
      · rw [holds, pc_goto, LoHolder.task.injEq]
        split_ifs with ht
        · exact iff_of_true hc ht
        · exact iff_of_false (fun ho => by cases honly (.task t') ho) ht
    · rw [holds_goto_iff (s := s.setQueue q _) (iff_of_false ?_ ?_) o]
      · exact holds_setQueue_iff hps (by simp [hp']) o
      · rw [hc, Option.some.injEq]
        exact fun heq => hp' heq.symm
      · change ¬ (s.pc t).carried = some p'
        simp [hpc, hc₀]
  nodup := nodup_setQueue h.nodup (List.nodup_cons.mp (h.nodup q _ hps)).2
  queues := (h.queues.write (by rw [hps]; rfl) _).congr (serves_goto_iff (s := s) (hgone.trans (by rw [hpc])))
  flagged := h.flagged
  closed := h.closed
  relies := by
    refine relies_goto (s := s.setQueue q _) (fun t' => relies_setQueue (h.relies t') fun j hj hjq => ?_) hrelies
    have hempty := h.relies t'
    rw [hj] at hempty
    rw [hempty q hjq] at hps
    cases hps

/-- **`xQueueCreate`**: the entry has a new queue, and no other call has counted on its having none. -/
theorem create (h : s.Inv) (he : s.Exclusive) {port : UInt16} (hpc : s.pc t = .creating i port)
    (hq : s.queue q = none) :
    ((((s.setQueue q (some [])).setRx i (some q)).setFlag i true).goto t (.slotting i port)).Inv := by
  have hcreating := h.relies t
  rw [hpc] at hcreating
  obtain ⟨hnone, hopen⟩ := hcreating
  generalize hs' : ((s.setQueue q (some [])).setRx i (some q)).setFlag i true = s'
  have hpc' : s'.pc t = .creating i port := by
    rw [← hs']
    exact hpc
  have hrx : ∀ j, s'.rx j = if j = i then some q else s.rx j := by
    rw [← hs']
    exact rx_setRx (s.setQueue q (some [])) i (some q)
  constructor
  case msgs =>
    have hmsg : s'.msg = s.msg := by rw [← hs']; rfl
    change Owned s'.msg _
    rw [hmsg]
    refine h.msgs.congr fun o p => (holds_goto_iff (by rw [hpc']; rfl) o).trans ?_
    rw [← hs']
    rcases o with q' | t'
    · change (s.setQueue q (some [])).holds (.queue q') p ↔ _
      rw [holds_queue_setQueue]
      split_ifs with hq'
      · refine iff_of_false List.not_mem_nil ?_
        rintro ⟨ps, hps, -⟩
        rw [hq', hq] at hps
        cases hps
      · rfl
    · exact Iff.rfl
  case nodup =>
    rw [← hs']
    exact nodup_setQueue h.nodup List.nodup_nil
  case queues =>
    have hgone : ∀ t', (s.pc t').gone ≠ some i := fun t' ht' => by
      have := relies_of_gone (h.relies t') ht'
      rw [hnone] at this
      cases this
    have hserves : ∀ j q', (s'.goto t (.slotting i port)).Serves j q' ↔
        (if j = i then some q else s.rx j) = some q' ∧ ∀ t', (s.pc t').gone ≠ some j := by
      intro j q'
      rw [serves_goto_iff (by rw [hpc']; rfl), Serves, hrx, ← hs']
      rfl
    change Owned s'.queue _
    rw [← hs']
    refine h.queues.alloc [] (o := i) (fun j => ?_) fun j q' hq' => ?_
    · rw [hs', hserves]
      split_ifs with hji
      · exact iff_of_true ⟨rfl, hji ▸ hgone⟩ hji
      · exact iff_of_false (h.queues.not_holds hq j) hji
    · rw [hs', hserves]
      refine and_congr_left' ?_
      split_ifs with hji
      · rw [hji, hnone]
        simpa using Ne.symm hq'
      · rfl
  case flagged =>
    intro j hj
    change (s'.rx j).isSome = true at hj
    rw [hrx] at hj
    change s'.loopback j = true
    rw [← hs', loopback_setFlag]
    split_ifs at hj ⊢
    · rfl
    · exact h.flagged j hj
  case closed =>
    intro j hj
    change s'.isOpen j = false at hj
    rw [← hs'] at hj
    change s'.rx j = none
    rw [hrx]
    split_ifs with hji
    · rw [hji] at hj
      cases hopen.symm.trans hj
    · exact h.closed j hj
  case relies =>
    intro t'
    rw [pc_goto, ← hs']
    split_ifs with ht
    · trivial
    · have hrelies : (s.setQueue q (some [])).Relies (s.pc t') := relies_setQueue (h.relies t') fun _ _ _ => rfl
      change ((s.setQueue q (some [])).setRx i (some q)).Relies (s.pc t')
      by_cases hentry : (s.pc t').entry = some i
      · refine relies_of_none hrelies hentry (fun hclose => ht ?_) (fun hbind => ht ?_) hnone _
        · exact (he.close t' t i hclose (by rw [hpc]; rfl)).symm
        · exact he.bind t t' i (by rw [hpc]; rfl) hbind
      · exact relies_setRx hrelies hentry _

/-- **`vQueueDelete`**: the queue is gone, and the entry still points to it. -/
theorem delete (h : s.Inv) (he : s.Exclusive) (hpc : s.pc t = .drained i) (hq : s.rx i = some q) :
    ((s.setQueue q none).goto t (.deleted i)).Inv where
  msgs := h.msgs.congr fun o p => by
    rw [holds_goto_iff (s := s.setQueue q none) (by rw [show (s.setQueue q none).pc t = _ from hpc]; rfl) o]
    rcases o with q' | t'
    · rw [holds, holds, queue_setQueue]
      split_ifs with hq'
      · have hempty := h.relies t
        rw [hpc] at hempty
        rw [hq', hempty q hq]
        simp
      · rfl
    · exact Iff.rfl
  nodup q' ps' hq' := by
    change (s.setQueue q none).queue q' = some ps' at hq'
    rw [queue_setQueue] at hq'
    split_ifs at hq'
    exact h.nodup q' ps' hq'
  queues := by
    have hserves := he.serves (by rw [hpc]; rfl) (by rw [hpc]; rfl) hq
    have hi : ∀ q', ¬ ((s.setQueue q none).goto t (.deleted i)).Serves i q' := fun q' hserves' =>
      hserves'.2 t (by rw [pc_goto, if_pos rfl]; rfl)
    have hne : ∀ j q', j ≠ i → (((s.setQueue q none).goto t (.deleted i)).Serves j q' ↔ s.Serves j q') := by
      intro j q' hji
      refine and_congr_right' (forall_congr' fun t' => ?_)
      rw [pc_goto]
      split_ifs with ht
      · rw [ht, hpc]
        exact iff_of_true (fun hj => hji (Option.some.inj hj).symm) (fun hj => by cases hj)
      · rfl
    refine h.queues.free (fun j hj => ?_) fun j q' hq' => ?_
    · by_cases hji : j = i
      · exact hi q (hji ▸ hj)
      · exact hji (h.queues.unique q j i ((hne j q hji).mp hj) hserves)
    · by_cases hji : j = i
      · subst hji
        refine iff_of_false (hi q') fun hserves' => hq' ?_
        exact Option.some.inj (hserves'.1.symm.trans hq)
      · exact hne j q' hji
  flagged := h.flagged
  closed := h.closed
  relies t' := by
    rw [pc_goto]
    split_ifs with ht
    · change (s.rx i).isSome = true
      rw [hq]
      rfl
    · refine relies_setQueue (h.relies t') fun j hj hjq => absurd ?_ ht
      have hi := he.serves (by rw [hpc]; rfl) (by rw [hpc]; rfl) hq
      have hj' := he.serves (t := t') (by rw [hj]; rfl) (by rw [hj]; rfl) hjq
      obtain rfl := h.queues.unique q j i hj' hi
      exact he.close t t' j (by rw [hpc]; rfl) (by rw [hj]; rfl)

/-- The entry forgets the queue it had. -/
theorem forget (h : s.Inv) (he : s.Exclusive) (hpc : s.pc t = .deleted i) :
    ((s.setRx i none).goto t (.unflagging i)).Inv where
  msgs := h.msgs.congr fun o p =>
    holds_goto_iff (s := s.setRx i none) (by rw [show (s.setRx i none).pc t = _ from hpc]; rfl) o
  nodup := h.nodup
  queues := h.queues.congr fun j q => by
    by_cases hji : j = i
    · subst hji
      refine iff_of_false (fun hj => ?_) fun hj => hj.2 t (by rw [hpc]; rfl)
      have := hj.1
      change (s.setRx j none).rx j = some q at this
      rw [rx_setRx, if_pos rfl] at this
      cases this
    · refine and_congr ?_ (forall_congr' fun t' => ?_)
      · change (s.setRx i none).rx j = some q ↔ _
        rw [rx_setRx, if_neg hji]
      · rw [pc_goto]
        split_ifs with ht
        · rw [ht, hpc]
          exact iff_of_true (fun hj => by cases hj) (fun hj => hji (Option.some.inj hj).symm)
        · rfl
  flagged j hj := by
    change ((s.setRx i none).rx j).isSome = true at hj
    rw [rx_setRx] at hj
    split_ifs at hj
    · cases hj
    · exact h.flagged j hj
  closed j hj := by
    change (s.setRx i none).rx j = none
    rw [rx_setRx]
    split_ifs
    · rfl
    · exact h.closed j hj
  relies t' := by
    rw [pc_goto]
    change (s.setRx i none).Relies _
    split_ifs with ht
    · rw [Relies, rx_setRx, if_pos rfl]
    · refine relies_setRx (h.relies t') (fun hentry => ht ?_) none
      exact he.close t t' i (by rw [hpc]; rfl) hentry

/-- An entry is given back. -/
theorem close (h : s.Inv) (he : s.Exclusive) (hpc : s.pc t = .freeing i) :
    ((s.setOpen i false).goto t .idle).Inv where
  msgs := h.msgs.congr fun o p => holds_goto_iff (s := s.setOpen i false)
    (by rw [show (s.setOpen i false).pc t = _ from hpc]; rfl) o
  nodup := h.nodup
  queues := h.queues.congr (serves_goto_iff (s := s.setOpen i false)
    (by rw [show (s.setOpen i false).pc t = _ from hpc]; rfl))
  flagged := h.flagged
  closed j hj := by
    change (s.setOpen i false).isOpen j = false at hj
    rw [isOpen_setOpen] at hj
    split_ifs at hj with hji
    · have hnone := h.relies t
      rw [hpc] at hnone
      rw [hji]
      exact hnone
    · exact h.closed j hj
  relies t' := by
    rw [pc_goto]
    split_ifs with ht
    · trivial
    · refine relies_setOpen (h.relies t') (.inr fun hbind => ht ?_)
      exact he.close t t' i (by rw [hpc]; rfl) (LoPc.entry_of_binds hbind)

/-- **A step keeps the owners.** -/
theorem step (h : s.Inv) (he : s.Exclusive) {s' : LoMem T} (hstep : LoMemStep s t s') : s'.Inv := by
  cases hstep with
  | lookup port m hpc hlen =>
    rcases loTarget s.slots port with _ | i
    · exact h.pass hpc rfl rfl trivial
    · exact h.pass hpc rfl rfl trivial
  | check hpc =>
    split_ifs with hq
    · exact h.pass hpc rfl rfl hq
    · exact h.pass hpc rfl rfl trivial
  | malloc hpc hp =>
    have hrelies := h.relies t
    rw [hpc] at hrelies
    exact h.malloc hp _ hpc rfl rfl rfl hrelies
  | send hpc hq hps hroom => exact h.send he hpc hq hps
  | receive hpc hps => exact h.take hps hpc rfl rfl rfl trivial
  | drain hpc hq hps => exact h.take hps hpc rfl rfl rfl trivial
  | reject hpc hm | release hpc hm | freeDrained hpc hm => exact h.free hpc rfl rfl rfl trivial
  | enter hpc hopen hflag hq | look hpc hopen hflag hq => exact h.pass hpc rfl rfl hq
  | wait hpc hq => exact h.pass hpc rfl rfl hq
  | mallocFails hpc | sendFails hpc hq hps hfull | timeout hpc hps | copy hpc hm | count hpc hq hps
  | createFails hpc => exact h.pass hpc rfl rfl trivial
  | bind hpc hopen hport => exact h.pass hpc rfl rfl hopen
  | lacksQueue hpc hnone =>
    have hopen := h.relies t
    rw [hpc] at hopen
    exact h.pass hpc rfl rfl ⟨hnone, hopen⟩
  | keepQueue hpc hq => exact (h.raiseFlag _).pass hpc rfl rfl trivial
  | createQueue hpc hq => exact h.create he hpc hq
  | slot hpc => exact (h.takeSlot _ _).pass ((pc_takeSlot ..).trans hpc) rfl rfl trivial
  | alloc hpc hfree => exact h.alloc hfree
  | skip hpc hopen hflag =>
    refine h.pass hpc rfl rfl (Option.eq_none_iff_forall_ne_some.mpr fun q hq => ?_)
    have := h.flagged _ (by rw [hq]; rfl)
    rw [hflag] at this
    cases this
  | unbind port hpc hopen hflag => exact (h.slots _).pass hpc rfl rfl trivial
  | drainEnds hpc hq hps =>
    refine h.pass hpc rfl rfl fun q' hq' => ?_
    obtain rfl := Option.some.inj (hq.symm.trans hq')
    exact hps
  | noQueue hpc hnone =>
    refine h.pass hpc rfl rfl fun q' hq' => ?_
    rw [hnone] at hq'
    cases hq'
  | delete hpc hq hps => exact h.delete he hpc hq
  | noDelete hpc hnone => exact h.pass hpc rfl rfl hnone
  | forget hpc => exact h.forget he hpc
  | unflag hpc =>
    have hnone := h.relies t
    rw [hpc] at hnone
    exact (h.lowerFlag hnone).pass hpc rfl rfl hnone
  | close hpc => exact h.close he hpc

end Inv

end Keeps

end LoMem

/-! ## Runs -/

section Runs

variable [DecidableEq T]

/-- A step from where no `close` meets another call on its fd, or a delivery to it. -/
def LoMemRunStep (s s' : LoMem T) : Prop := s.Exclusive ∧ ∃ t, LoMemStep s t s'

theorem inv_of_run {s : LoMem T} (h : Relation.ReflTransGen LoMemRunStep {} s) : s.Inv := by
  induction h with
  | refl => exact inv_start
  | tail _ hstep ih =>
    obtain ⟨he, t, hstep⟩ := hstep
    exact ih.step he hstep

/-- **The heap under the loopback is safe**, in every run in which no `close` of an fd meets another call on it or a
delivery to it, and no two `bind`s of one fd meet: no step touches a freed block; every message is in one queue, once,
or in the hands of one task; every queue is that of one fd; and when all calls are over and all fds closed, nothing is
left. -/
theorem loMemory_safe {s : LoMem T} (hrun : Relation.ReflTransGen LoMemRunStep {} s) (he : s.Exclusive) :
    (∀ t b, s.next (s.pc t) = some b → s.Live b) ∧
      Owned s.msg s.holds ∧ (∀ q ps, s.queue q = some ps → ps.Nodup) ∧ Owned s.queue s.Serves ∧
      ((∀ t, s.pc t = .idle) → (∀ i, s.isOpen i = false) → (∀ p, s.msg p = none) ∧ ∀ q, s.queue q = none) := by
  have h := inv_of_run hrun
  refine ⟨fun t b hb => h.safe he hb, h.msgs, h.nodup, h.queues, fun hidle hclosed => ?_⟩
  have hqueue : ∀ q, s.queue q = none := fun q => h.queues.eq_none fun i hi => by
    cases (h.closed i (hclosed i)).symm.trans hi.1
  refine ⟨fun p => h.msgs.eq_none fun o ho => ?_, hqueue⟩
  rcases o with q | t
  · obtain ⟨ps, hps, -⟩ := ho
    rw [hqueue q] at hps
    cases hps
  · rw [holds, hidle t] at ho
    cases ho

end Runs

/-- A message of three bytes. -/
def threeBytes : LoMsg := ⟨0x0100007f, 9, [1, 2, 3]⟩

/-- Nobody closes, and only one task binds. -/
theorem exclusive_of_open {s : LoMem Bool} (hclose : ∀ t, (s.pc t).closes = none)
    (hbind : (s.pc false).binds = none) : s.Exclusive where
  close t _ i h _ := by
    rw [hclose] at h
    cases h
  bind t t' i h h' := by
    rcases t with _ | _
    · rw [hbind] at h
      cases h
    · rcases t' with _ | _
      · rw [hbind] at h'
        cases h'
      · rfl

/-- One task binds an fd and waits for a message while another has one ready for it. -/
theorem loMemory_safe_meeting : ∃ s : LoMem Bool, s.pc true = .receiving 0 7 ∧ s.pc false = .filled 0 4 ∧
    (∀ t b, s.next (s.pc t) = some b → s.Live b) ∧ Owned s.msg s.holds ∧ Owned s.queue s.Serves := by
  have hrun : ∃ s : LoMem Bool, Relation.ReflTransGen LoMemRunStep {} s ∧ s.Exclusive ∧
      s.pc true = .receiving 0 7 ∧ s.pc false = .filled 0 4 := by
    refine ⟨_, .tail (.tail (.tail (.tail (.tail (.tail (.tail (.tail (.tail (.tail .refl
      ⟨?_, true, .alloc (i := 0) rfl rfl⟩)
      ⟨?_, true, .bind (i := 0) rfl rfl (show (9 : UInt16) ≠ 0 by decide)⟩)
      ⟨?_, true, .lacksQueue (i := 0) rfl rfl⟩)
      ⟨?_, true, .createQueue (i := 0) (q := 7) rfl rfl⟩)
      ⟨?_, true, .slot (i := 0) rfl⟩)
      ⟨?_, false, .lookup 9 threeBytes rfl (by decide)⟩)
      ⟨?_, false, .check (i := 0) rfl⟩)
      ⟨?_, true, .enter (i := 0) rfl rfl rfl rfl⟩)
      ⟨?_, true, .wait (i := 0) (q := 7) rfl rfl⟩)
      ⟨?_, false, .malloc (i := 0) (p := 4) rfl rfl⟩, ?_, rfl, rfl⟩
    all_goals exact exclusive_of_open (fun t => by cases t <;> rfl) rfl
  obtain ⟨s, hrun, he, htrue, hfalse⟩ := hrun
  have h := loMemory_safe hrun he
  exact ⟨s, htrue, hfalse, h.1, h.2.1, h.2.2.2.1⟩

end EspSmoltcp
