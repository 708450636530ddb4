import EspSmoltcp.Compat.LoMemory
import EspSmoltcp.Machinery.Fifo

/-!
# Compat/Mailbox — what the loopback is for

    lo_deliver ──written──▸ task ──delivered──▸ mailbox of an fd ──taken──▸ task ──copied──▸ recvfrom
                              └──refused             └──thrown (close)

To its users an fd is a mailbox, first in first out, with room for eight messages.  `Shows` reads the mailbox off the
heap; a step of a task puts one message in or takes one out, or leaves the mailbox alone.

* `loMailbox_fifo` — in every run in which no `close` of an fd meets another call on it or a delivery to it, and no
  two `bind`s of one meet: an fd gets its messages in the order in which they were delivered to it, each once and
  unaltered.
-/

namespace EspSmoltcp

open LoMem

variable {T : Type}

/-! ## Events -/

/-- What becomes of a message.  `t` is the task, `i` the fd entry. -/
inductive LoEvent (T : Type)
  /-- `lo_deliver` has copied it from its caller. -/
  | written (t : T) (i : ℕ) (m : LoMsg)
  | delivered (t : T) (i : ℕ) (m : LoMsg)
  | refused (t : T) (i : ℕ) (m : LoMsg)
  | taken (t : T) (i : ℕ) (m : LoMsg)
  /-- `recvfrom` has copied it to its caller. -/
  | copied (t : T) (m : LoMsg)
  /-- `fd_free` has drained it. -/
  | thrown (i : ℕ) (m : LoMsg)

namespace LoEvent

/-- A message put into a mailbox. -/
def into (i : ℕ) : LoEvent T → Option LoMsg
  | delivered _ j m => if j = i then some m else none
  | _ => none

/-- A message taken out of a mailbox. -/
def outOf (i : ℕ) : LoEvent T → Option LoMsg
  | taken _ j m | thrown j m => if j = i then some m else none
  | _ => none

variable [DecidableEq T]

/-- A message a task was asked to deliver, and to which fd. -/
@[simp] def writes (t : T) : LoEvent T → Option (ℕ × LoMsg)
  | written t' i m => if t' = t then some (i, m) else none
  | _ => none

/-- A message a task is done with delivering. -/
@[simp] def settles (t : T) : LoEvent T → Option (ℕ × LoMsg)
  | delivered t' i m | refused t' i m => if t' = t then some (i, m) else none
  | _ => none

/-- A message a task took. -/
@[simp] def takes (t : T) : LoEvent T → Option LoMsg
  | taken t' _ m => if t' = t then some m else none
  | _ => none

/-- A message a task copied. -/
@[simp] def copies (t : T) : LoEvent T → Option LoMsg
  | copied t' m => if t' = t then some m else none
  | _ => none

end LoEvent

/-- What it means for a task to go on, with these messages in memory. -/
@[simp] def LoPc.event (msg : ℕ → Option LoMsg) (t : T) : LoPc → LoPc → Option (LoEvent T)
  | .checked i m, .filled _ _ => some (.written t i m)
  | .filled i p, .idle => (msg p).map (LoEvent.delivered t i)
  | .filled i p, .refused _ => (msg p).map (LoEvent.refused t i)
  | .receiving i _, .received p => (msg p).map (LoEvent.taken t i)
  | .received p, .copied _ => (msg p).map (LoEvent.copied t)
  | .unbound i, .draining _ p => (msg p).map (LoEvent.thrown i)
  | _, _ => none

/-- The message a task in `lo_deliver` has, and for which fd. -/
@[simp] def LoPc.delivering (msg : ℕ → Option LoMsg) : LoPc → List (ℕ × LoMsg)
  | .filled i p => ((msg p).map (i, ·)).toList
  | _ => []

/-- The message a task in `recvfrom` has. -/
@[simp] def LoPc.inHand (msg : ℕ → Option LoMsg) : LoPc → List LoMsg
  | .received p => (msg p).toList
  | _ => []

namespace LoMem

/-- The event of a step. -/
def event (s : LoMem T) (t : T) (s' : LoMem T) : Option (LoEvent T) := (s.pc t).event s.msg t (s'.pc t)

/-- What a task is delivering. -/
def delivering (s : LoMem T) (t : T) : List (ℕ × LoMsg) := (s.pc t).delivering s.msg

/-- What a task has taken and not copied. -/
def inHand (s : LoMem T) (t : T) : List LoMsg := (s.pc t).inHand s.msg

/-- The mailbox of an entry: the messages in its queue, or nothing. -/
def Shows (s : LoMem T) (i : ℕ) (ms : List LoMsg) : Prop :=
  (∃ q ps, s.Serves i q ∧ s.queue q = some ps ∧ ps.map s.msg = ms.map some) ∨ (∀ q, ¬ s.Serves i q) ∧ ms = []

end LoMem

/-- The events of a run, oldest first. -/
inductive LoHistory [DecidableEq T] : List (LoEvent T) → LoMem T → Prop
  | start : LoHistory [] {}
  | step {es : List (LoEvent T)} {s s' : LoMem T} {t : T} (h : LoHistory es s) (he : s.Exclusive)
      (hstep : LoMemStep s t s') : LoHistory (es ++ (s.event t s').toList) s'

section Mailboxes

variable {s s' : LoMem T} {t : T} {c c₀ : LoPc} {p q i j : ℕ} {ps : List ℕ} {ms : List LoMsg}
  {o : Option (List ℕ)}

namespace LoMem

/-- A message that a task holds is there, and in no queue. -/
theorem Inv.carried (hinv : s.Inv) (hpc : s.pc t = c₀) (hc₀ : c₀.carried = some p) :
    (∃ m, s.msg p = some m) ∧ ∀ q, ¬ s.holds (.queue q) p := by
  have hheld : s.holds (.task t) p := by rw [holds, hpc, hc₀]
  refine ⟨Option.isSome_iff_exists.mp (hinv.msgs.isSome hheld), fun q hq => ?_⟩
  cases hinv.msgs.unique p (.queue q) (.task t) hq hheld

/-- A message in a queue is there. -/
theorem Inv.queued (hinv : s.Inv) (hps : s.queue q = some ps) (hp : p ∈ ps) : ∃ m, s.msg p = some m :=
  Option.isSome_iff_exists.mp (hinv.msgs.isSome (show s.holds (.queue q) p from ⟨ps, hps, hp⟩))

namespace Shows

/-- The mailbox stays as it is, if its queue and the messages in it do. -/
theorem same (h : s.Shows i ms) (hserves : ∀ q, s'.Serves i q ↔ s.Serves i q)
    (hqueue : ∀ q, s.Serves i q → s'.queue q = s.queue q)
    (hmsg : ∀ q ps, s.queue q = some ps → ∀ p ∈ ps, s'.msg p = s.msg p) : s'.Shows i ms := by
  obtain ⟨q, ps, hq, hps, hms⟩ | ⟨hnone, hms⟩ := h
  · refine .inl ⟨q, ps, (hserves q).mpr hq, (hqueue q hq).trans hps, ?_⟩
    rw [List.map_congr_left (hmsg q ps hps), hms]
  · exact .inr ⟨fun q hq => hnone q ((hserves q).mp hq), hms⟩

/-- What is in the queue that serves an entry is what its mailbox holds. -/
theorem map_msg (h : s.Shows i ms) (hq : s.Serves i q) (hps : s.queue q = some ps) : ps.map s.msg = ms.map some := by
  obtain ⟨q', ps', hq', hps', hms⟩ | ⟨hnone, -⟩ := h
  · obtain rfl := Option.some.inj (hq.1.symm.trans hq'.1)
    obtain rfl := Option.some.inj (hps.symm.trans hps')
    exact hms
  · exact absurd hq (hnone q)

theorem eq_nil (h : s.Shows i ms) (hnone : ∀ q, ¬ s.Serves i q) : ms = [] := by
  obtain ⟨q, ps, hq, -⟩ | ⟨-, hms⟩ := h
  · exact absurd hq (hnone q)
  · exact hms

/-- A queue changes; it is that of another entry. -/
theorem setQueue_ne (h : s.Shows i ms) (hinv : s.Inv) (hserves : ∀ q, s'.Serves i q ↔ s.Serves i q)
    (hqueue : s'.queue = Function.update s.queue q o) (hmsg : s'.msg = s.msg) (hq : s.Serves j q) (hij : i ≠ j) :
    s'.Shows i ms := by
  refine h.same hserves (fun q' hq' => ?_) fun _ _ _ _ _ => congrFun hmsg _
  rw [hqueue, Function.update_of_ne]
  rintro rfl
  exact hij (hinv.queues.unique q' i j hq' hq)

theorem takeSlot (h : s.Shows i ms) (port : UInt16) : (s.takeSlot port j).Shows i ms := by
  rw [LoMem.takeSlot]
  rcases loSlotFor s.slots port with _ | k
  · exact h
  · exact h

end Shows

end LoMem

variable [DecidableEq T]

theorem LoHistory.run {es : List (LoEvent T)} (h : LoHistory es s) : Relation.ReflTransGen LoMemRunStep {} s := by
  induction h with
  | start => exact .refl
  | step _ he hstep ih => exact ih.tail ⟨he, _, hstep⟩

/-- Every run has its events. -/
theorem exists_loHistory (h : Relation.ReflTransGen LoMemRunStep ({} : LoMem T) s) : ∃ es, LoHistory es s := by
  induction h with
  | refl => exact ⟨[], .start⟩
  | tail _ hstep ih =>
    obtain ⟨es, hes⟩ := ih
    obtain ⟨he, t, hstep⟩ := hstep
    exact ⟨_, hes.step he hstep⟩

/-! ## What a step does to a mailbox -/

namespace LoMem

theorem pc_goto_self (s : LoMem T) (t : T) (c : LoPc) : (s.goto t c).pc t = c := Function.update_self ..

theorem event_goto (hpc : s.pc t = c₀) : s.event t (s'.goto t c) = c₀.event s.msg t c := by
  rw [event, hpc, pc_goto_self]

namespace Shows

/-- The task goes on, and memory stays as it is. -/
theorem pass (h : s.Shows i ms) (hpc : s.pc t = c₀) (hgone : c.gone = c₀.gone) : (s.goto t c).Shows i ms :=
  h.same (serves_goto_iff (by rw [hpc, hgone]) i) (fun _ _ => rfl) fun _ _ _ _ _ => rfl

/-- A message that is in no queue is written to or freed. -/
theorem setMsg (h : s.Shows i ms) (hpc : s.pc t = c₀) (hgone : c.gone = c₀.gone) (hp : ∀ q, ¬ s.holds (.queue q) p)
    {o : Option LoMsg} : ((s.setMsg p o).goto t c).Shows i ms := by
  refine h.same (serves_goto_iff (s := s) (by rw [hpc, hgone]) i) (fun _ _ => rfl) fun q ps hps p' hp' => ?_
  refine Function.update_of_ne ?_ _ _
  rintro rfl
  exact hp q ⟨ps, hps, hp'⟩

/-- A queue changes; it is that of the entry. -/
theorem setQueue_self (hq : s.Serves i q) (hgone : c.gone = (s.pc t).gone) (hms : ps.map s.msg = ms.map some) :
    ((s.setQueue q (some ps)).goto t c).Shows i ms :=
  .inl ⟨q, ps, (serves_goto_iff (s := s) hgone i q).mpr hq, Function.update_self .., hms⟩

/-- **`xQueueCreate`** makes an empty mailbox of an entry without one. -/
theorem create (h : s.Shows i ms) (hinv : s.Inv) (he : s.Exclusive) {port : UInt16} (hpc : s.pc t = .creating j port)
    (hq : s.queue q = none) :
    ((((s.setQueue q (some [])).setRx j (some q)).setFlag j true).goto t (.slotting j port)).Shows i ms := by
  have hnone : s.rx j = none := by
    have hrelies := hinv.relies t
    rw [hpc] at hrelies
    exact hrelies.1
  have hgone : (LoPc.slotting j port).gone = (s.pc t).gone := by
    rw [hpc]
    rfl
  have hserves : ∀ q',
      ((((s.setQueue q (some [])).setRx j (some q)).setFlag j true).goto t (.slotting j port)).Serves i q'
        ↔ (if i = j then some q else s.rx i) = some q' ∧ ∀ t', (s.pc t').gone ≠ some i := fun q' =>
    (serves_goto_iff (s := ((s.setQueue q (some [])).setRx j (some q)).setFlag j true) hgone i q').trans
      (and_congr_left' (by rw [← rx_setRx]; rfl))
  by_cases hij : i = j
  · subst hij
    obtain rfl := h.eq_nil fun q' hq' => by
      rw [Serves, hnone] at hq'
      cases hq'.1
    refine .inl ⟨q, [], (hserves q).mpr ⟨if_pos rfl, fun t' ht' => ?_⟩, Function.update_self .., rfl⟩
    obtain rfl := he.close t' t i (LoPc.closes_of_gone ht') (by rw [hpc]; rfl)
    rw [hpc] at ht'
    cases ht'
  · refine h.same (fun q' => ?_) (fun q' hq' => ?_) fun _ _ _ _ _ => rfl
    · rw [hserves, if_neg hij]
      rfl
    · refine Function.update_of_ne ?_ _ _
      rintro rfl
      exact hinv.queues.not_holds hq i hq'

/-- **`vQueueDelete`** ends a mailbox, when it is empty. -/
theorem delete (h : s.Shows i ms) (hinv : s.Inv) (he : s.Exclusive) (hpc : s.pc t = .drained j)
    (hq : s.rx j = some q) : ((s.setQueue q none).goto t (.deleted j)).Shows i ms := by
  have hserves : s.Serves j q := he.serves (by rw [hpc]; rfl) (by rw [hpc]; rfl) hq
  by_cases hij : i = j
  · subst hij
    have hempty : s.queue q = some [] := by
      have hrelies := hinv.relies t
      rw [hpc] at hrelies
      exact hrelies q hq
    have hms := h.map_msg hserves hempty
    refine .inr ⟨fun q' hq' => hq'.2 t ?_, List.map_eq_nil_iff.mp hms.symm⟩
    rw [pc_goto, if_pos rfl]
    rfl
  · refine h.setQueue_ne hinv (fun q' => and_congr_right' (forall_congr' fun t' => ?_)) rfl rfl hserves hij
    rw [pc_goto]
    split_ifs with ht
    · rw [ht, hpc]
      refine iff_of_true (fun heq => hij (Option.some.inj heq).symm) ?_
      simp [LoPc.gone]
    · rfl

/-- The pointer to a deleted queue goes. -/
theorem forget (h : s.Shows i ms) (hpc : s.pc t = .deleted j) :
    ((s.setRx j none).goto t (.unflagging j)).Shows i ms := by
  by_cases hij : i = j
  · subst hij
    refine .inr ⟨fun q' hq' => ?_, h.eq_nil fun q' hq' => hq'.2 t (by rw [hpc]; rfl)⟩
    have hrx := hq'.1
    rw [show ((s.setRx i none).goto t (.unflagging i)).rx i = (s.setRx i none).rx i from rfl, rx_setRx,
      if_pos rfl] at hrx
    cases hrx
  · have hrx : ((s.setRx j none).goto t (.unflagging j)).rx i = s.rx i := (rx_setRx ..).trans (if_neg hij)
    refine h.same (fun q' => ?_) (fun _ _ => rfl) fun _ _ _ _ _ => rfl
    refine and_congr (by rw [hrx]) (forall_congr' fun t' => ?_)
    rw [pc_goto]
    split_ifs with ht
    · rw [ht, hpc]
      refine iff_of_true (by simp [LoPc.gone]) fun heq => hij (Option.some.inj heq).symm
    · rfl

/-- A message is delivered into the mailbox of its fd. -/
theorem send (h : s.Shows i ms) (hinv : s.Inv) (he : s.Exclusive) {m : LoMsg} (hpc : s.pc t = .filled j p)
    (hm : s.msg p = some m) (hq : s.rx j = some q) (hps : s.queue q = some ps) :
    ((s.setQueue q (some (ps ++ [p]))).goto t .idle).Shows i (ms ++ (if j = i then some m else none).toList) := by
  have hserves : s.Serves j q := he.serves (by rw [hpc]; rfl) (by rw [hpc]; rfl) hq
  have hgone : LoPc.idle.gone = (s.pc t).gone := by
    rw [hpc]
    rfl
  by_cases hji : j = i
  · subst hji
    rw [if_pos rfl]
    refine setQueue_self hserves hgone ?_
    rw [List.map_append, h.map_msg hserves hps, List.map_singleton, hm, List.map_append]
    rfl
  · rw [if_neg hji]
    exact (List.append_nil ms).symm ▸
      h.setQueue_ne hinv (serves_goto_iff (s := s) hgone i) rfl rfl hserves (Ne.symm hji)

/-- The oldest message is taken out of the mailbox of its fd. -/
theorem take (h : s.Shows i ms) (hinv : s.Inv) {m : LoMsg} (hserves : s.Serves j q) (hps : s.queue q = some (p :: ps))
    (hm : s.msg p = some m) (hpc : s.pc t = c₀) (hgone : c.gone = c₀.gone) :
    ∃ ms', ms = (if j = i then some m else none).toList ++ ms' ∧
      ((s.setQueue q (some ps)).goto t c).Shows i ms' := by
  rw [← hpc] at hgone
  by_cases hji : j = i
  · subst hji
    have hms := h.map_msg hserves hps
    rw [List.map_cons, hm] at hms
    rcases ms with _ | ⟨m', ms⟩
    · cases hms
    obtain ⟨hhead, htail⟩ := List.cons.inj hms
    obtain rfl := Option.some.inj hhead
    rw [if_pos rfl]
    exact ⟨ms, rfl, setQueue_self hserves hgone htail⟩
  · rw [if_neg hji]
    exact ⟨ms, rfl, h.setQueue_ne hinv (serves_goto_iff (s := s) hgone i) rfl rfl hserves (Ne.symm hji)⟩

/-- A delivery is a send to a bounded queue… -/
theorem fifo_send {box : Fifo LoMsg loQueueDepth} (h : s.Shows i box.items) (hinv : s.Inv) (he : s.Exclusive)
    {m : LoMsg} (hpc : s.pc t = .filled j p) (hm : s.msg p = some m) (hq : s.rx j = some q)
    (hps : s.queue q = some ps) (hroom : ps.length < loQueueDepth) :
    ∃ box', ((s.setQueue q (some (ps ++ [p]))).goto t .idle).Shows i box'.items ∧
      Fifo.Run box (if j = i then some m else none).toList [] box' := by
  have hsend := h.send hinv he hpc hm hq hps
  by_cases hji : j = i
  · rw [if_pos hji] at hsend ⊢
    have hserves : s.Serves i q := hji ▸ he.serves (by rw [hpc]; rfl) (by rw [hpc]; rfl) hq
    have hlen := congrArg List.length (h.map_msg hserves hps)
    rw [List.length_map, List.length_map] at hlen
    obtain ⟨box', hbox', hitems⟩ := Fifo.send_of_lt (hlen ▸ hroom) m
    exact ⟨box', hitems ▸ hsend, (Fifo.Run.nil box).send hbox'⟩
  · rw [if_neg hji] at hsend ⊢
    exact ⟨box, List.append_nil box.items ▸ hsend, .nil box⟩

/-- …and a taking a receive from one. -/
theorem fifo_take {box : Fifo LoMsg loQueueDepth} (h : s.Shows i box.items) (hinv : s.Inv) {m : LoMsg}
    (hserves : s.Serves j q) (hps : s.queue q = some (p :: ps)) (hm : s.msg p = some m) (hpc : s.pc t = c₀)
    (hgone : c.gone = c₀.gone) : ∃ box', ((s.setQueue q (some ps)).goto t c).Shows i box'.items ∧
      Fifo.Run box [] (if j = i then some m else none).toList box' := by
  obtain ⟨ms', hitems, htake⟩ := h.take hinv hserves hps hm hpc hgone
  by_cases hji : j = i
  · rw [if_pos hji] at hitems ⊢
    obtain ⟨box', hbox', hitems'⟩ := Fifo.receive_cons hitems
    exact ⟨box', hitems' ▸ htake, (Fifo.Run.nil box).receive hbox'⟩
  · rw [if_neg hji] at hitems ⊢
    exact ⟨box, hitems ▸ htake, .nil box⟩

/-- **A step puts a message into a mailbox, takes one out, or leaves it as it is.** -/
theorem step {box : Fifo LoMsg loQueueDepth} (h : s.Shows i box.items) (hinv : s.Inv) (he : s.Exclusive)
    (hstep : LoMemStep s t s') : ∃ box', s'.Shows i box'.items ∧
      Fifo.Run box ((s.event t s').bind (LoEvent.into i)).toList
        ((s.event t s').bind (LoEvent.outOf i)).toList box' := by
  have quiet {e} (hevent : s.event t s' = e) (hinto : e.bind (LoEvent.into i) = none)
      (hout : e.bind (LoEvent.outOf i) = none) (h' : s'.Shows i box.items) : ∃ box', s'.Shows i box'.items ∧
        Fifo.Run box ((s.event t s').bind (LoEvent.into i)).toList
          ((s.event t s').bind (LoEvent.outOf i)).toList box' := by
    refine ⟨box, h', ?_⟩
    rw [hevent, hinto, hout]
    exact .nil box
  have hrelies := hinv.relies t
  cases hstep with
  | lookup port m hpc hlen =>
    generalize loTarget s.slots port = target at quiet ⊢
    rcases target with _ | j
    · exact quiet (event_goto hpc) rfl rfl (h.pass hpc rfl)
    · exact quiet (event_goto hpc) rfl rfl (h.pass hpc rfl)
  | @check j m hpc =>
    generalize (s.rx j).isSome = hasQueue at quiet ⊢
    rcases hasQueue with _ | _
    · exact quiet (event_goto hpc) rfl rfl (h.pass hpc rfl)
    · exact quiet (event_goto hpc) rfl rfl (h.pass hpc rfl)
  | malloc hpc hp =>
    exact quiet (event_goto hpc) rfl rfl (h.setMsg (c := .filled _ _) hpc rfl fun _ => hinv.msgs.not_holds hp _)
  | send hpc hq hps hroom =>
    obtain ⟨⟨m, hm⟩, -⟩ := hinv.carried hpc rfl
    obtain ⟨box', hbox', hrun⟩ := h.fifo_send hinv he hpc hm hq hps hroom
    refine ⟨box', hbox', ?_⟩
    rw [event_goto hpc, LoPc.event, hm]
    exact hrun
  | receive hpc hps =>
    rw [hpc] at hrelies
    obtain ⟨m, hm⟩ := hinv.queued hps List.mem_cons_self
    have hserves := he.serves (by rw [hpc]; rfl) (by rw [hpc]; rfl) hrelies
    obtain ⟨box', hbox', hrun⟩ := h.fifo_take (c := .received _) hinv hserves hps hm hpc rfl
    refine ⟨box', hbox', ?_⟩
    rw [event_goto hpc, LoPc.event, hm]
    exact hrun
  | drain hpc hq hps =>
    obtain ⟨m, hm⟩ := hinv.queued hps List.mem_cons_self
    have hserves := he.serves (by rw [hpc]; rfl) (by rw [hpc]; rfl) hq
    obtain ⟨box', hbox', hrun⟩ := h.fifo_take (c := .draining _ _) hinv hserves hps hm hpc rfl
    refine ⟨box', hbox', ?_⟩
    rw [event_goto hpc, LoPc.event, hm]
    exact hrun
  | reject hpc hm | release hpc hm =>
    exact quiet (event_goto hpc) rfl rfl (h.setMsg (c := .idle) hpc rfl (hinv.carried hpc rfl).2)
  | freeDrained hpc hm =>
    exact quiet (event_goto hpc) rfl rfl (h.setMsg (c := .unbound _) hpc rfl (hinv.carried hpc rfl).2)
  | sendFails hpc hq hps hfull =>
    obtain ⟨⟨m, hm⟩, -⟩ := hinv.carried hpc rfl
    refine quiet (event_goto hpc) ?_ ?_ (h.pass hpc rfl)
    · rw [LoPc.event, hm]
      rfl
    · rw [LoPc.event, hm]
      rfl
  | copy hpc hm =>
    obtain ⟨m, hm⟩ := Option.isSome_iff_exists.mp hm
    refine quiet (event_goto hpc) ?_ ?_ (h.pass hpc rfl)
    · rw [LoPc.event, hm]
      rfl
    · rw [LoPc.event, hm]
      rfl
  | enter hpc hopen hflag hq | look hpc hopen hflag hq =>
    exact quiet (event_goto hpc) rfl rfl (h.pass hpc rfl)
  | wait hpc hq => exact quiet (event_goto hpc) rfl rfl (h.pass hpc rfl)
  | mallocFails hpc | timeout hpc hps | count hpc hq hps | createFails hpc =>
    exact quiet (event_goto hpc) rfl rfl (h.pass hpc rfl)
  | bind hpc hopen hport => exact quiet (event_goto hpc) rfl rfl (h.pass hpc rfl)
  | lacksQueue hpc hnone => exact quiet (event_goto hpc) rfl rfl (h.pass hpc rfl)
  | keepQueue hpc hq => exact quiet (event_goto hpc) rfl rfl (Shows.pass (s := s.setFlag _ true) h hpc rfl)
  | createQueue hpc hq => exact quiet (event_goto hpc) rfl rfl (h.create hinv he hpc hq)
  | slot hpc => exact quiet (event_goto hpc) rfl rfl ((h.takeSlot _).pass ((pc_takeSlot ..).trans hpc) rfl)
  | @alloc j hpc hfree =>
    have hsame : s.setRx j none = s := by rw [setRx, Function.update_eq_self_iff.mpr (hinv.closed j hfree).symm]
    rw [hsame] at quiet ⊢
    exact quiet (congrArg (LoPc.event _ _ _) hpc) (by rw [hpc]; rfl) (by rw [hpc]; rfl) h
  | skip hpc hopen hflag => exact quiet (event_goto hpc) rfl rfl (h.pass hpc rfl)
  | unbind port hpc hopen hflag =>
    exact quiet (event_goto hpc) rfl rfl (Shows.pass (s := s.clearSlots port _) h hpc rfl)
  | drainEnds hpc hq hps => exact quiet (event_goto hpc) rfl rfl (h.pass hpc rfl)
  | noQueue hpc hnone => exact quiet (event_goto hpc) rfl rfl (h.pass hpc rfl)
  | delete hpc hq hps => exact quiet (event_goto hpc) rfl rfl (h.delete hinv he hpc hq)
  | noDelete hpc hnone => exact quiet (event_goto hpc) rfl rfl (h.pass hpc rfl)
  | forget hpc => exact quiet (event_goto hpc) rfl rfl (h.forget hpc)
  | unflag hpc => exact quiet (event_goto hpc) rfl rfl (Shows.pass (s := s.setFlag _ false) h hpc rfl)
  | close hpc => exact quiet (event_goto hpc) rfl rfl (Shows.pass (s := s.setOpen _ false) h hpc rfl)

end Shows

/-! ## What a step does to the message in hand -/

variable {t' : T}

/-- The other tasks stay where they are. -/
theorem pc_step (hstep : LoMemStep s t s') (ht : t' ≠ t) : s'.pc t' = s.pc t' := by
  cases hstep with
  | slot hpc => rw [pc_goto, if_neg ht, pc_takeSlot]
  | alloc hpc hfree => rfl
  | _ => exact (pc_goto t').trans (if_neg ht)

/-- What another task holds stays as it is. -/
theorem msg_step (hinv : s.Inv) (hstep : LoMemStep s t s') (ht : t' ≠ t) (hp : (s.pc t').carried = some p) :
    s'.msg p = s.msg p := by
  have hne {c₀ p'} (hpc : s.pc t = c₀) (hc₀ : c₀.carried = some p') : p ≠ p' := by
    rintro rfl
    exact ht (LoHolder.task.inj (hinv.msgs.unique p (.task t') (.task t) hp (by rw [holds, hpc, hc₀])))
  cases hstep with
  | malloc hpc hnone =>
    refine Function.update_of_ne ?_ _ _
    rintro rfl
    exact hinv.msgs.not_holds hnone (.task t') hp
  | reject hpc hm | release hpc hm | freeDrained hpc hm => exact Function.update_of_ne (hne hpc rfl) _ _
  | @slot j port hpc =>
    rw [takeSlot]
    rcases loSlotFor s.slots port with _ | k
    · rfl
    · rfl
  | _ => rfl

/-- The other tasks have what they had. -/
theorem hands_step_ne (hinv : s.Inv) (hstep : LoMemStep s t s') (ht : t' ≠ t) :
    s'.delivering t' = s.delivering t' ∧ s'.inHand t' = s.inHand t' := by
  have hpc := pc_step hstep ht
  have hmsg {p} := msg_step (p := p) hinv hstep ht
  rw [delivering, inHand, hpc, delivering, inHand]
  cases hc : s.pc t' with
  | filled i p | received p =>
    rw [hc] at hmsg
    simp only [LoPc.delivering, LoPc.inHand, hmsg rfl, and_self]
  | _ => exact ⟨rfl, rfl⟩

/-- **What a task is given it has until it is done with it.** -/
theorem hands_step (hinv : s.Inv) (hstep : LoMemStep s t s') :
    s.delivering t ++ ((s.event t s').bind (LoEvent.writes t)).toList
        = ((s.event t s').bind (LoEvent.settles t)).toList ++ s'.delivering t ∧
      s.inHand t ++ ((s.event t s').bind (LoEvent.takes t)).toList
        = ((s.event t s').bind (LoEvent.copies t)).toList ++ s'.inHand t := by
  rw [event, delivering, delivering, inHand, inHand]
  have quiet {c₀ c : LoPc} (hpc : s.pc t = c₀) (hpc' : s'.pc t = c) (hevent : c₀.event s.msg t c = none)
      (h₀ : c₀.delivering s.msg = [] ∧ c₀.inHand s.msg = []) (h : c.delivering s'.msg = [] ∧ c.inHand s'.msg = []) :
      (s.pc t).delivering s.msg ++ (((s.pc t).event s.msg t (s'.pc t)).bind (LoEvent.writes t)).toList
          = (((s.pc t).event s.msg t (s'.pc t)).bind (LoEvent.settles t)).toList ++ (s'.pc t).delivering s'.msg ∧
        (s.pc t).inHand s.msg ++ (((s.pc t).event s.msg t (s'.pc t)).bind (LoEvent.takes t)).toList
          = (((s.pc t).event s.msg t (s'.pc t)).bind (LoEvent.copies t)).toList ++ (s'.pc t).inHand s'.msg := by
    rw [hpc, hpc', hevent, h₀.1, h₀.2, h.1, h.2]
    exact ⟨rfl, rfl⟩
  cases hstep with
  | lookup port m hpc hlen =>
    generalize loTarget s.slots port = target at quiet ⊢
    rcases target with _ | j
    · exact quiet hpc (pc_goto_self ..) rfl ⟨rfl, rfl⟩ ⟨rfl, rfl⟩
    · exact quiet hpc (pc_goto_self ..) rfl ⟨rfl, rfl⟩ ⟨rfl, rfl⟩
  | @check j m hpc =>
    generalize (s.rx j).isSome = hasQueue at quiet ⊢
    rcases hasQueue with _ | _
    · exact quiet hpc (pc_goto_self ..) rfl ⟨rfl, rfl⟩ ⟨rfl, rfl⟩
    · exact quiet hpc (pc_goto_self ..) rfl ⟨rfl, rfl⟩ ⟨rfl, rfl⟩
  | malloc hpc hp =>
    rw [hpc, pc_goto_self]
    simp [setMsg, goto]
  | send hpc hq hps hroom | sendFails hpc hq hps hfull =>
    obtain ⟨⟨m, hm⟩, -⟩ := hinv.carried hpc rfl
    rw [hpc, pc_goto_self]
    simp [hm]
  | receive hpc hps =>
    obtain ⟨m, hm⟩ := hinv.queued hps List.mem_cons_self
    rw [hpc, pc_goto_self]
    simp [setQueue, goto, hm]
  | copy hpc hm =>
    obtain ⟨m, hm⟩ := Option.isSome_iff_exists.mp hm
    rw [hpc, pc_goto_self]
    simp [hm]
  | drain hpc hq hps =>
    obtain ⟨m, hm⟩ := hinv.queued hps List.mem_cons_self
    rw [hpc, pc_goto_self]
    simp [hm]
  | alloc hpc hfree => exact quiet hpc hpc rfl ⟨rfl, rfl⟩ ⟨rfl, rfl⟩
  | mallocFails hpc | count hpc hq hps | createFails hpc | bind hpc hopen hport | keepQueue hpc hq
  | lacksQueue hpc hnone => exact quiet hpc (pc_goto_self ..) rfl ⟨rfl, rfl⟩ ⟨rfl, rfl⟩
  | timeout hpc hps | look hpc hopen hflag hq | enter hpc hopen hflag hq | wait hpc hq | createQueue hpc hq | slot hpc
  | reject hpc hm | release hpc hm => exact quiet hpc (pc_goto_self ..) rfl ⟨rfl, rfl⟩ ⟨rfl, rfl⟩
  | skip hpc hopen hflag | unbind port hpc hopen hflag | freeDrained hpc hm | drainEnds hpc hq hps | noQueue hpc hnone
  | delete hpc hq hps | noDelete hpc hnone | forget hpc | unflag hpc | close hpc =>
    exact quiet hpc (pc_goto_self ..) rfl ⟨rfl, rfl⟩ ⟨rfl, rfl⟩

/-- An event is about the task that took the step. -/
theorem bind_event (s s' : LoMem T) (ht : t ≠ t') : (s.event t s').bind (LoEvent.writes t') = none ∧
    (s.event t s').bind (LoEvent.settles t') = none ∧ (s.event t s').bind (LoEvent.takes t') = none ∧
    (s.event t s').bind (LoEvent.copies t') = none := by
  rw [event]
  unfold LoPc.event
  split <;> simp [ht]

end LoMem

/-! ## Runs -/

namespace LoHistory

variable {es : List (LoEvent T)}

theorem toList_filterMap {α β : Type} (f : α → Option β) (o : Option α) :
    o.toList.filterMap f = (o.bind f).toList := by
  rcases o with _ | a
  · rfl
  · rcases h : f a with _ | b
    · simp [h]
    · simp [h]

/-- **A mailbox is a bounded queue**: what was delivered went in, and what was taken or thrown away came out. -/
theorem mailbox (h : LoHistory es s) (i : ℕ) : ∃ box : Fifo LoMsg loQueueDepth, s.Shows i box.items ∧
    Fifo.Run .empty (es.filterMap (LoEvent.into i)) (es.filterMap (LoEvent.outOf i)) box := by
  induction h with
  | start => exact ⟨.empty, .inr ⟨fun q hq => (by cases hq.1), rfl⟩, .nil _⟩
  | step h he hstep ih =>
    obtain ⟨box, hbox, hrun⟩ := ih
    obtain ⟨box', hbox', hrun'⟩ := hbox.step (inv_of_run h.run) he hstep
    refine ⟨box', hbox', ?_⟩
    rw [List.filterMap_append, List.filterMap_append, toList_filterMap, toList_filterMap]
    exact hrun.trans hrun'

/-- **A task delivers what it was asked to and copies what it took.** -/
theorem hands (h : LoHistory es s) (t : T) :
    es.filterMap (LoEvent.writes t) = es.filterMap (LoEvent.settles t) ++ s.delivering t ∧
      es.filterMap (LoEvent.takes t) = es.filterMap (LoEvent.copies t) ++ s.inHand t := by
  induction h with
  | start => exact ⟨rfl, rfl⟩
  | @step es s s' t₀ h he hstep ih =>
    have hinv := inv_of_run h.run
    simp only [List.filterMap_append, toList_filterMap]
    by_cases ht : t = t₀
    · subst ht
      obtain ⟨hdelivering, hinHand⟩ := hands_step hinv hstep
      constructor
      · rw [ih.1, List.append_assoc, hdelivering, List.append_assoc]
      · rw [ih.2, List.append_assoc, hinHand, List.append_assoc]
    · obtain ⟨hdelivering, hinHand⟩ := hands_step_ne hinv hstep ht
      obtain ⟨hwrites, hsettles, htakes, hcopies⟩ := bind_event s s' (Ne.symm ht)
      rw [hwrites, hsettles, htakes, hcopies, hdelivering, hinHand, ih.1, ih.2]
      simp

end LoHistory

/-- **The loopback is first in, first out for each fd**, in every run in which no `close` of an fd meets another call
on it or a delivery to it, and no two `bind`s of one fd meet: what was delivered to an fd is what was taken from it or
thrown away at its close, and the at most eight messages that are there, in this order; each task delivers, or is
refused, what it was asked to deliver, to the fd it found; and it copies what it took. -/
theorem loMailbox_fifo {es : List (LoEvent T)} (h : LoHistory es s) :
    (∀ i, ∃ ms, s.Shows i ms ∧ ms.length ≤ loQueueDepth ∧
      es.filterMap (LoEvent.into i) = es.filterMap (LoEvent.outOf i) ++ ms) ∧
    ∀ t, es.filterMap (LoEvent.writes t) = es.filterMap (LoEvent.settles t) ++ s.delivering t ∧
      es.filterMap (LoEvent.takes t) = es.filterMap (LoEvent.copies t) ++ s.inHand t := by
  refine ⟨fun i => ?_, h.hands⟩
  obtain ⟨box, hbox, hrun⟩ := h.mailbox i
  exact ⟨box.items, hbox, box.le, hrun.conserves⟩

end Mailboxes

/-- A message of two bytes. -/
def twoByteMsg : LoMsg := ⟨0x0100007f, 9, [4, 5]⟩

/-- Two messages are delivered to an fd, and copied in their order, while a third one waits in its queue. -/
theorem loMailbox_fifo_copied : ∃ (es : List (LoEvent Bool)) (s : LoMem Bool),
    es.filterMap (LoEvent.into 0) = [threeBytes, twoByteMsg, threeBytes] ∧
      es.filterMap (LoEvent.copies true) = [threeBytes, twoByteMsg] ∧
      (∃ ms, s.Shows 0 ms ∧ es.filterMap (LoEvent.into 0) = es.filterMap (LoEvent.outOf 0) ++ ms) ∧
      es.filterMap (LoEvent.writes false) = es.filterMap (LoEvent.settles false) ++ s.delivering false := by
  have hrun : ∃ (es : List (LoEvent Bool)) (s : LoMem Bool), LoHistory es s ∧
      es.filterMap (LoEvent.into 0) = [threeBytes, twoByteMsg, threeBytes] ∧
      es.filterMap (LoEvent.copies true) = [threeBytes, twoByteMsg] := by
    refine ⟨_, _, .step (.step (.step (.step (.step (.step (.step (.step (.step (.step (.step (.step (.step (.step
      (.step (.step (.step (.step (.step (.step (.step (.step (.step (.step (.step (.step .start
      -- one task binds the fd to port 9
      ?_ (t := true) (.alloc (i := 0) rfl rfl))
      ?_ (t := true) (.bind (i := 0) rfl rfl (show (9 : UInt16) ≠ 0 by decide)))
      ?_ (t := true) (.lacksQueue (i := 0) rfl rfl))
      ?_ (t := true) (.createQueue (i := 0) (q := 7) rfl rfl))
      ?_ (t := true) (.slot (i := 0) rfl))
      -- the other one delivers two messages
      ?_ (t := false) (.lookup 9 threeBytes rfl (by decide)))
      ?_ (t := false) (.check (i := 0) rfl))
      ?_ (t := false) (.malloc (i := 0) (p := 4) rfl rfl))
      ?_ (t := false) (.send (i := 0) (p := 4) (q := 7) rfl rfl rfl (by decide)))
      ?_ (t := false) (.lookup 9 twoByteMsg rfl (by decide)))
      ?_ (t := false) (.check (i := 0) rfl))
      ?_ (t := false) (.malloc (i := 0) (p := 5) rfl rfl))
      ?_ (t := false) (.send (i := 0) (p := 5) (q := 7) rfl rfl rfl (by decide)))
      -- the first one takes the first of them
      ?_ (t := true) (.enter (i := 0) rfl rfl rfl rfl))
      ?_ (t := true) (.wait (i := 0) (q := 7) rfl rfl))
      ?_ (t := true) (.receive (i := 0) (p := 4) (q := 7) rfl rfl))
      ?_ (t := true) (.copy (p := 4) rfl rfl))
      ?_ (t := true) (.release (p := 4) rfl rfl))
      -- and, once a third one is in, the second
      ?_ (t := false) (.lookup 9 threeBytes rfl (by decide)))
      ?_ (t := false) (.check (i := 0) rfl))
      ?_ (t := false) (.malloc (i := 0) (p := 4) rfl rfl))
      ?_ (t := false) (.send (i := 0) (p := 4) (q := 7) rfl rfl rfl (by decide)))
      ?_ (t := true) (.enter (i := 0) rfl rfl rfl rfl))
      ?_ (t := true) (.wait (i := 0) (q := 7) rfl rfl))
      ?_ (t := true) (.receive (i := 0) (p := 5) (q := 7) rfl rfl))
      ?_ (t := true) (.copy (p := 5) rfl rfl), rfl, rfl⟩
    all_goals exact exclusive_of_open (fun t => by cases t <;> rfl) rfl
  obtain ⟨es, s, hes, hinto, hcopies⟩ := hrun
  have h := loMailbox_fifo hes
  obtain ⟨ms, hms, -, hfifo⟩ := h.1 0
  exact ⟨es, s, hinto, hcopies, ⟨ms, hms, hfifo⟩, (h.2 false).1⟩

end EspSmoltcp
