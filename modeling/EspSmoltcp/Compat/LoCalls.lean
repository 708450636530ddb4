import EspSmoltcp.Compat.Holdings
import EspSmoltcp.Compat.Mailbox

/-!
# Compat/LoCalls — undisturbed, the steps of a call are the call

    statics ──one call──▸ statics
       │                     │
     heap ────steps──────▸ heap

`World` keeps the messages of a loopback queue in the fd entry, and a call does its work in one go.  On the heap the
call is a run of steps (`LoMemStep`), which nobody disturbs.

* `loCalls_tracked` — what any sequence of calls leaves in the statics, a run on the heap leaves there.
-/

namespace EspSmoltcp

open LoMem

variable {S : Smoltcp} {T : Type}

/-! ## The loopback in the statics -/

/-- The loopback as its calls see it. -/
structure Lo where
  slots : List LoSlot
  isOpen : ℕ → Bool
  loopback : ℕ → Bool
  box : ℕ → Option (List LoMsg)

namespace Lo

def setOpen (v : Lo) (i : ℕ) (b : Bool) : Lo := { v with isOpen := Function.update v.isOpen i b }

def setFlag (v : Lo) (i : ℕ) (b : Bool) : Lo := { v with loopback := Function.update v.loopback i b }

def setBox (v : Lo) (i : ℕ) (o : Option (List LoMsg)) : Lo := { v with box := Function.update v.box i o }

/-- `lo_bind` under the lock. -/
def takeSlot (v : Lo) (port : UInt16) (i : ℕ) : Lo :=
  match loSlotFor v.slots port with
  | none => v
  | some k => { v with slots := v.slots.set k ⟨port, some i⟩ }

/-- `lo_unbind` under the lock. -/
def clearSlots (v : Lo) (port : UInt16) (i : ℕ) : Lo :=
  { v with slots := v.slots.map fun sl => if sl.port = port ∧ sl.fd = some i then {} else sl }

end Lo

namespace World

/-- The loopback in the statics. -/
def lo (w : World S) : Lo where
  slots := w.loSlots
  isOpen i := (w.fdAt i).kind ≠ .free
  loopback i := (w.fdAt i).loopback
  box i := (w.fdAt i).loRx

variable {w w' : World S} {i : ℕ}

theorem lo_setFd (hi : i < w.fds.length) (e : FdEntry) :
    (w.setFd i e).lo = ((w.lo.setBox i e.loRx).setFlag i e.loopback).setOpen i (e.kind ≠ .free) := by
  have hat : ∀ j, (w.setFd i e).fdAt j = if j = i then e else w.fdAt j := by
    intro j
    split_ifs with hj
    · rw [hj, fdAt_setFd_self hi]
    · exact fdAt_setFd_ne hj e
  have hupdate {α : Type} (g : FdEntry → α) :
      (fun j => g ((w.setFd i e).fdAt j)) = Function.update (fun j => g (w.fdAt j)) i (g e) := by
    funext j
    rw [hat, Function.update_apply]
    split_ifs
    · rfl
    · rfl
  rw [lo, hupdate fun e => decide (e.kind ≠ .free), hupdate FdEntry.loopback, hupdate FdEntry.loRx]
  rfl

theorem lo_of_shim (h : SameShim w w') : w'.lo = w.lo := by
  have hat : w'.fdAt = w.fdAt := funext fun i => by rw [fdAt, h.fds, fdAt]
  rw [lo, hat, h.loSlots, lo]

/-- An entry that has a queue is one of the table. -/
theorem lt_of_loRx {ms : List LoMsg} (h : (w.fdAt i).loRx = some ms) : i < w.fds.length := by
  by_contra hge
  have hfree : w.fdAt i = {} := by simp [fdAt, not_lt.mp hge]
  rw [hfree] at h
  cases h

/-- A store to the queue of an entry. -/
theorem lo_setRx (hi : i < w.fds.length) (o : Option (List LoMsg)) :
    (w.modFd i fun e => { e with loRx := o }).lo = w.lo.setBox i o := by
  rw [modFd, lo_setFd hi]
  simp [Lo.setBox, Lo.setFlag, Lo.setOpen, lo]

/-- The queue goes, and with it the flag. -/
theorem lo_dropRx (hi : i < w.fds.length) :
    ((w.modFd i fun e => { e with loRx := e.loRx.map fun _ => [] }).modFd i fun e =>
      { e with loRx := none, loopback := false }).lo = (w.lo.setBox i none).setFlag i false := by
  rw [modFd_modFd _ hi, modFd, lo_setFd hi]
  simp [Lo.setBox, Lo.setFlag, Lo.setOpen, lo]

/-- What `fd_free` makes of a loopback entry. -/
theorem lo_unbound (hi : i < w.fds.length) (port : UInt16) :
    ((loUnbind port i w).modFd i fun e => { e with loRx := none, loopback := false }).lo
      = ((w.lo.clearSlots port i).setBox i none).setFlag i false :=
  lo_dropRx (w := { w with loSlots := (w.lo.clearSlots port i).slots }) hi

end World

/-! ## The loopback on the heap -/

section Heap

variable {s s' : LoMem T} {t : T} {c c₀ : LoPc} {i p q : ℕ} {v : Lo} {m : LoMsg} {ms : List LoMsg}

/-- The heap holds what the statics hold. -/
structure LoMem.Represents (s : LoMem T) (v : Lo) : Prop where
  slots : s.slots = v.slots
  isOpen : s.isOpen = v.isOpen
  loopback : s.loopback = v.loopback
  hasQueue : ∀ i, (s.rx i).isSome = (v.box i).isSome
  box : ∀ i, s.Shows i ((v.box i).getD [])

/-- The heap differs from the statics at one mailbox, and holds another there. -/
theorem LoMem.Represents.setBox {o : Option (List LoMsg)} (h : s.Represents v) (hslots : s'.slots = s.slots)
    (hisOpen : s'.isOpen = s.isOpen) (hloopback : s'.loopback = s.loopback) (hne : ∀ j, j ≠ i → s'.rx j = s.rx j)
    (hrx : (s'.rx i).isSome = o.isSome) (hbox : ∀ j, s'.Shows j (if j = i then o.getD [] else (v.box j).getD [])) :
    s'.Represents (v.setBox i o) := by
  have hupdate : ∀ j, (v.setBox i o).box j = if j = i then o else v.box j := fun _ => Function.update_apply ..
  refine ⟨hslots.trans h.slots, hisOpen.trans h.isOpen, hloopback.trans h.loopback, fun j => ?_, fun j => ?_⟩
  · rw [hupdate]
    split_ifs with hj
    · rw [hj, hrx]
    · rw [hne j hj, h.hasQueue]
  · rw [hupdate, apply_ite (Option.getD · [])]
    exact hbox j

/-- Some blocks have never been allocated. -/
def LoMem.Fresh (s : LoMem T) : Prop := ∃ n, ∀ a, n ≤ a → s.msg a = none ∧ s.queue a = none

theorem LoMem.Fresh.setMsg (h : s.Fresh) (p : ℕ) (o : Option LoMsg) : (s.setMsg p o).Fresh := by
  obtain ⟨n, hn⟩ := h
  refine ⟨max n (p + 1), fun a ha => ?_⟩
  obtain ⟨hna, hpa⟩ := Nat.max_le.mp ha
  exact ⟨(Function.update_of_ne (Nat.ne_of_gt (Nat.lt_of_succ_le hpa)) _ _).trans (hn a hna).1, (hn a hna).2⟩

theorem LoMem.Fresh.setQueue (h : s.Fresh) (q : ℕ) (o : Option (List ℕ)) : (s.setQueue q o).Fresh := by
  obtain ⟨n, hn⟩ := h
  refine ⟨max n (q + 1), fun a ha => ?_⟩
  obtain ⟨hna, hqa⟩ := Nat.max_le.mp ha
  exact ⟨(hn a hna).1, (Function.update_of_ne (Nat.ne_of_gt (Nat.lt_of_succ_le hqa)) _ _).trans (hn a hna).2⟩

variable [DecidableEq T]

theorem LoMem.Fresh.step (h : s.Fresh) (hstep : LoMemStep s t s') : s'.Fresh := by
  cases hstep with
  | malloc hpc hp => exact h.setMsg _ _
  | reject hpc hm | release hpc hm | freeDrained hpc hm => exact h.setMsg _ _
  | send hpc hq hps hroom | drain hpc hq hps | delete hpc hq hps => exact h.setQueue _ _
  | receive hpc hps => exact h.setQueue _ _
  | createQueue hpc hq => exact h.setQueue _ _
  | @slot i port hpc =>
    change (s.takeSlot port i).Fresh
    rw [takeSlot]
    rcases loSlotFor s.slots port with _ | k
    · exact h
    · exact h
  | _ => exact h

/-- A run has come to where the heap holds what the statics hold, and only this task is in a call. -/
structure Tracks (t : T) (s : LoMem T) (v : Lo) : Prop where
  run : Relation.ReflTransGen LoMemRunStep {} s
  alone : ∀ t', t' ≠ t → s.pc t' = .idle
  fresh : s.Fresh
  rep : s.Represents v

namespace Tracks

theorem inv (h : Tracks t s v) : s.Inv := inv_of_run h.run

theorem exclusive (h : Tracks t s v) : s.Exclusive := by
  have hidle : ∀ t' i, (s.pc t').entry = some i → t' = t := by
    intro t' i hi
    by_contra ht
    rw [h.alone t' ht] at hi
    cases hi
  have hcloses : ∀ c i, LoPc.closes c = some i → c.entry = some i := by
    intro c i hc
    cases c with
    | unbound j | draining j p | drained j | deleted j | unflagging j | freeing j => exact hc
    | _ => cases hc
  refine ⟨fun t₁ t₂ i h₁ h₂ => ?_, fun t₁ t₂ i h₁ h₂ => ?_⟩
  · rw [hidle t₂ i h₂, hidle t₁ i (hcloses _ _ h₁)]
  · rw [hidle t₂ i (LoPc.entry_of_binds h₂), hidle t₁ i (LoPc.entry_of_binds h₁)]

/-- The task takes a step. -/
theorem step {v' : Lo} (h : Tracks t s v) (hstep : LoMemStep s t s') (hrep : s'.Represents v') : Tracks t s' v' where
  run := h.run.tail ⟨h.exclusive, t, hstep⟩
  alone t' ht := (pc_step hstep ht).trans (h.alone t' ht)
  fresh := h.fresh.step hstep
  rep := hrep

/-- The task goes on, and memory stays as it is. -/
theorem pass (h : Tracks t s v) (hpc : s.pc t = c₀) (hgone : c.gone = c₀.gone) (hstep : LoMemStep s t (s.goto t c)) :
    ∃ s', Tracks t s' v ∧ s'.pc t = c := by
  refine ⟨_, h.step hstep ⟨h.rep.slots, h.rep.isOpen, h.rep.loopback, h.rep.hasQueue, fun i => ?_⟩, pc_goto_self ..⟩
  exact (h.rep.box i).pass hpc hgone

/-- A message that is in no queue is written to or freed. -/
theorem setMsg (h : Tracks t s v) {o : Option LoMsg} (hpc : s.pc t = c₀) (hgone : c.gone = c₀.gone)
    (hp : ∀ q, ¬ s.holds (.queue q) p) (hstep : LoMemStep s t ((s.setMsg p o).goto t c)) :
    ∃ s', Tracks t s' v ∧ s'.pc t = c ∧ s'.msg p = o := by
  refine ⟨_, h.step hstep ⟨h.rep.slots, h.rep.isOpen, h.rep.loopback, h.rep.hasQueue, fun i => ?_⟩, pc_goto_self ..,
    Function.update_self ..⟩
  exact (h.rep.box i).setMsg hpc hgone hp

theorem setFlag {b : Bool} (h : Tracks t s v) (hpc : s.pc t = c₀) (hgone : c.gone = c₀.gone)
    (hstep : LoMemStep s t ((s.setFlag i b).goto t c)) : ∃ s', Tracks t s' (v.setFlag i b) ∧ s'.pc t = c := by
  refine ⟨_, h.step hstep ⟨h.rep.slots, h.rep.isOpen, ?_, h.rep.hasQueue, fun j => ?_⟩, pc_goto_self ..⟩
  · rw [Lo.setFlag, ← h.rep.loopback]
    rfl
  · exact Shows.pass (s := s.setFlag i b) (h.rep.box j) hpc hgone

theorem setOpen {b : Bool} (h : Tracks t s v) (hpc : s.pc t = c₀) (hgone : c.gone = c₀.gone)
    (hstep : LoMemStep s t ((s.setOpen i b).goto t c)) : ∃ s', Tracks t s' (v.setOpen i b) ∧ s'.pc t = c := by
  refine ⟨_, h.step hstep ⟨h.rep.slots, ?_, h.rep.loopback, h.rep.hasQueue, fun j => ?_⟩, pc_goto_self ..⟩
  · rw [Lo.setOpen, ← h.rep.isOpen]
    rfl
  · exact Shows.pass (s := s.setOpen i b) (h.rep.box j) hpc hgone

theorem clearSlots {port : UInt16} (h : Tracks t s v) (hpc : s.pc t = c₀) (hgone : c.gone = c₀.gone)
    (hstep : LoMemStep s t ((s.clearSlots port i).goto t c)) :
    ∃ s', Tracks t s' (v.clearSlots port i) ∧ s'.pc t = c := by
  refine ⟨_, h.step hstep ⟨?_, h.rep.isOpen, h.rep.loopback, h.rep.hasQueue, fun j => ?_⟩, pc_goto_self ..⟩
  · rw [Lo.clearSlots, ← h.rep.slots]
    rfl
  · exact Shows.pass (s := s.clearSlots port i) (h.rep.box j) hpc hgone

theorem slot {port : UInt16} (h : Tracks t s v) (hpc : s.pc t = .slotting i port) :
    ∃ s', Tracks t s' (v.takeSlot port i) ∧ s'.pc t = .idle := by
  have hstep : LoMemStep s t ((s.takeSlot port i).goto t .idle) := .slot hpc
  rw [LoMem.takeSlot, h.rep.slots] at hstep
  rw [Lo.takeSlot]
  rcases hslot : loSlotFor v.slots port with _ | k
  · rw [hslot] at hstep
    exact h.pass hpc rfl hstep
  · rw [hslot] at hstep
    refine ⟨_, h.step hstep ⟨rfl, h.rep.isOpen, h.rep.loopback, h.rep.hasQueue, fun j => ?_⟩, pc_goto_self ..⟩
    exact Shows.pass (s := { s with slots := v.slots.set k ⟨port, some i⟩ }) (h.rep.box j) hpc rfl

theorem rx_eq_none (h : Tracks t s v) (hbox : v.box i = none) : s.rx i = none := by
  have hhas := h.rep.hasQueue i
  rw [hbox] at hhas
  exact Option.isNone_iff_eq_none.mp (Option.isSome_eq_false_iff.mp hhas)

/-- The queue of an entry, and what is in it. -/
theorem queue (h : Tracks t s v) (hbox : v.box i = some ms) (hentry : (s.pc t).entry = some i)
    (hgone : (s.pc t).gone = none) :
    ∃ q ps, s.rx i = some q ∧ s.Serves i q ∧ s.queue q = some ps ∧ ps.map s.msg = ms.map some := by
  obtain ⟨q, hq⟩ := Option.isSome_iff_exists.mp ((h.rep.hasQueue i).trans (congrArg Option.isSome hbox))
  have hserves := h.exclusive.serves hentry hgone hq
  obtain ⟨ps, hps⟩ := Option.isSome_iff_exists.mp (h.inv.queues.isSome hserves)
  have hms := (h.rep.box i).map_msg hserves hps
  rw [hbox] at hms
  exact ⟨q, ps, hq, hserves, hps, hms⟩

/-! ### Steps that change a mailbox -/

theorem send (h : Tracks t s v) (hpc : s.pc t = .filled i p) (hm : s.msg p = some m) (hbox : v.box i = some ms)
    (hroom : ms.length < loQueueDepth) :
    ∃ s', Tracks t s' (v.setBox i (some (ms ++ [m]))) ∧ s'.pc t = .idle := by
  obtain ⟨q, ps, hq, -, hps, hms⟩ := h.queue hbox (by rw [hpc]; rfl) (by rw [hpc]; rfl)
  have hlen := congrArg List.length hms
  rw [List.length_map, List.length_map] at hlen
  refine ⟨_, h.step (.send hpc hq hps (hlen ▸ hroom))
    (h.rep.setBox rfl rfl rfl (fun _ _ => rfl) (congrArg Option.isSome hq) fun j => ?_), pc_goto_self ..⟩
  have hshows := (h.rep.box j).send h.inv h.exclusive hpc hm hq hps
  split_ifs with hj
  · subst hj
    rwa [hbox, if_pos rfl] at hshows
  · rwa [if_neg (Ne.symm hj), Option.toList_none, List.append_nil] at hshows

/-- The next message goes from the queue to the task. -/
theorem take (h : Tracks t s v) (hpc : s.pc t = c₀) (hentry : c₀.entry = some i) (hgone₀ : c₀.gone = none)
    (hbox : v.box i = some (m :: ms)) : ∃ q p ps, s.rx i = some q ∧ s.queue q = some (p :: ps) ∧ s.msg p = some m ∧
      ∀ c, c.gone = none → LoMemStep s t ((s.setQueue q (some ps)).goto t c) →
        ∃ s', Tracks t s' (v.setBox i (some ms)) ∧ s'.pc t = c ∧ s'.msg p = some m := by
  obtain ⟨q, ps, hq, hserves, hps, hms⟩ := h.queue hbox (by rw [hpc, hentry]) (by rw [hpc, hgone₀])
  rcases ps with _ | ⟨p, ps⟩
  · cases hms
  obtain ⟨hm, -⟩ := List.cons.inj hms
  refine ⟨q, p, ps, hq, hps, hm, fun c hgone hstep => ⟨_, h.step hstep
    (h.rep.setBox rfl rfl rfl (fun _ _ => rfl) (congrArg Option.isSome hq) fun j => ?_), pc_goto_self .., hm⟩⟩
  obtain ⟨ms', hms', hshows⟩ := (h.rep.box j).take h.inv hserves hps hm hpc (hgone.trans hgone₀.symm)
  split_ifs with hj
  · subst hj
    rw [hbox, if_pos rfl] at hms'
    obtain ⟨-, rfl⟩ := List.cons.inj hms'
    exact hshows
  · rw [if_neg (Ne.symm hj)] at hms'
    rw [hms']
    exact hshows

theorem create (h : Tracks t s v) {port : UInt16} (hpc : s.pc t = .creating i port) (hbox : v.box i = none) :
    ∃ s', Tracks t s' ((v.setBox i (some [])).setFlag i true) ∧ s'.pc t = .slotting i port := by
  obtain ⟨n, hn⟩ := h.fresh
  have hq := (hn n le_rfl).2
  have hrx : ∀ j, (((s.setQueue n (some [])).setRx i (some n)).setFlag i true).rx j
      = if j = i then some n else s.rx j := fun _ => Function.update_apply ..
  have hrep : ((((s.setQueue n (some [])).setRx i (some n)).setFlag i true).goto t (.slotting i port)).Represents
      ((v.setFlag i true).setBox i (some [])) := by
    refine LoMem.Represents.setBox (s := s.setFlag i true) ⟨h.rep.slots, h.rep.isOpen, ?_, h.rep.hasQueue, h.rep.box⟩
      rfl rfl rfl (fun j hj => (hrx j).trans (if_neg hj)) (congrArg Option.isSome ((hrx i).trans (if_pos rfl)))
      fun j => ?_
    · rw [LoMem.setFlag, Lo.setFlag, h.rep.loopback]
    · have hshows := (h.rep.box j).create h.inv h.exclusive hpc hq
      split_ifs with hj
      · subst hj
        rwa [hbox] at hshows
      · exact hshows
  exact ⟨_, h.step (.createQueue hpc hq) hrep, pc_goto_self ..⟩

/-- A queue that is empty is deleted, and the pointer to it cleared. -/
theorem delete (h : Tracks t s v) (hpc : s.pc t = .drained i) (hbox : v.box i = some []) :
    ∃ s', Tracks t s' (v.setBox i none) ∧ s'.pc t = .unflagging i := by
  obtain ⟨q, ps, hq, hserves, hps, -⟩ := h.queue hbox (by rw [hpc]; rfl) (by rw [hpc]; rfl)
  have hdeleted : Tracks t ((s.setQueue q none).goto t (.deleted i)) v := by
    refine h.step (.delete hpc hq hps) ⟨h.rep.slots, h.rep.isOpen, h.rep.loopback, h.rep.hasQueue, fun j => ?_⟩
    exact (h.rep.box j).delete h.inv h.exclusive hpc hq
  have hpc' : ((s.setQueue q none).goto t (.deleted i)).pc t = .deleted i := pc_goto_self ..
  generalize (s.setQueue q none).goto t (.deleted i) = s₁ at hdeleted hpc'
  have hrx : ∀ j, (s₁.setRx i none).rx j = if j = i then none else s₁.rx j := fun _ => rx_setRx ..
  refine ⟨_, hdeleted.step (.forget hpc') (hdeleted.rep.setBox rfl rfl rfl (fun j hj => (hrx j).trans (if_neg hj))
    (congrArg Option.isSome ((hrx i).trans (if_pos rfl))) fun j => ?_), pc_goto_self ..⟩
  have hshows := (hdeleted.rep.box j).forget hpc'
  split_ifs with hj
  · subst hj
    rwa [hbox] at hshows
  · exact hshows

end Tracks

/-! ## Calls -/

namespace Tracks

variable {w : World S}

/-- **`lo_deliver`.** -/
theorem loDeliver (h : Tracks t s w.lo) (hpc : s.pc t = .idle) (heap : Bool) (dstPort : UInt16) (srcBe : UInt32)
    (srcPort : UInt16) (data : Bytes) :
    ∃ s', Tracks t s' (loDeliver heap dstPort srcBe srcPort data w).2.lo ∧ s'.pc t = .idle := by
  rw [EspSmoltcp.loDeliver]
  split_ifs with hlen
  · exact ⟨s, h, hpc⟩
  have hlookup := LoMemStep.lookup (s := s) dstPort ⟨srcBe, srcPort, data⟩ hpc (Nat.le_of_not_lt hlen)
  rw [h.rep.slots] at hlookup
  rcases hfound : (w.loSlots.find? fun s => s.port = dstPort).bind LoSlot.fd with _ | i
  · rw [hfound]
    rw [show loTarget w.lo.slots dstPort = none from hfound] at hlookup
    exact h.pass hpc rfl hlookup
  rw [hfound]
  rw [show loTarget w.lo.slots dstPort = some i from hfound] at hlookup
  obtain ⟨s₁, h₁, hpc₁⟩ := h.pass (c := .found i ⟨srcBe, srcPort, data⟩) hpc rfl hlookup
  have hcheck := LoMemStep.check hpc₁
  rw [h₁.rep.hasQueue] at hcheck
  simp only
  rcases hbox : (w.fdAt i).loRx with _ | ms
  · rw [show w.lo.box i = none from hbox] at hcheck
    exact h₁.pass hpc₁ rfl hcheck
  rw [show w.lo.box i = some ms from hbox] at hcheck
  obtain ⟨s₂, h₂, hpc₂⟩ := h₁.pass (c := .checked i ⟨srcBe, srcPort, data⟩) hpc₁ rfl hcheck
  simp only
  rcases heap with _ | _
  · rw [if_neg (by simp)]
    exact h₂.pass hpc₂ rfl (.mallocFails hpc₂)
  obtain ⟨n, hn⟩ := h₂.fresh
  have hfree := (hn n le_rfl).1
  obtain ⟨s₃, h₃, hpc₃, hm⟩ := h₂.setMsg (c := .filled i n) hpc₂ rfl (fun _ => h₂.inv.msgs.not_holds hfree _)
    (.malloc hpc₂ hfree)
  by_cases hroom : ms.length < loQueueDepth
  · rw [if_pos ⟨rfl, hroom⟩, World.lo_setRx (World.lt_of_loRx hbox)]
    exact h₃.send hpc₃ hm hbox hroom
  · rw [if_neg fun hboth => hroom hboth.2]
    obtain ⟨q, ps, hq, -, hps, hms⟩ := h₃.queue hbox (by rw [hpc₃]; rfl) (by rw [hpc₃]; rfl)
    have hlen := congrArg List.length hms
    rw [List.length_map, List.length_map] at hlen
    obtain ⟨s₄, h₄, hpc₄⟩ := h₃.pass (c := .refused n) hpc₃ rfl
      (.sendFails hpc₃ hq hps (hlen ▸ Nat.le_of_not_lt hroom))
    obtain ⟨⟨m', hm'⟩, hheld⟩ := h₄.inv.carried hpc₄ rfl
    obtain ⟨s₅, h₅, hpc₅, -⟩ := h₄.setMsg (c := .idle) hpc₄ rfl hheld (.reject hpc₄ (by rw [hm']; rfl))
    exact ⟨s₅, h₅, hpc₅⟩

/-- **A receive**, from a queue with a message. -/
theorem loReceive (h : Tracks t s w.lo) (hpc : s.pc t = .idle) (hk : (w.fdAt i).kind ≠ .free)
    (hflag : (w.fdAt i).loopback = true) : ∃ s', Tracks t s' (loReceive i w).2.lo ∧ s'.pc t = .idle := by
  rw [EspSmoltcp.loReceive]
  rcases hbox : (w.fdAt i).loRx with _ | _ | ⟨m, ms⟩
  · exact ⟨s, h, hpc⟩
  · exact ⟨s, h, hpc⟩
  simp only
  rw [World.lo_setRx (World.lt_of_loRx hbox)]
  have hopen : s.isOpen i = true := by
    rw [h.rep.isOpen]
    exact decide_eq_true hk
  have hloopback : s.loopback i = true := by
    rw [h.rep.loopback]
    exact hflag
  have hhas : (s.rx i).isSome = true := (h.rep.hasQueue i).trans (congrArg Option.isSome hbox)
  obtain ⟨s₁, h₁, hpc₁⟩ := h.pass (c := .entered i) hpc rfl (.enter hpc hopen hloopback hhas)
  obtain ⟨q, ps, hq, -⟩ := h₁.queue hbox (by rw [hpc₁]; rfl) (by rw [hpc₁]; rfl)
  obtain ⟨s₂, h₂, hpc₂⟩ := h₁.pass (c := .receiving i q) hpc₁ rfl (.wait hpc₁ hq)
  obtain ⟨q', p, ps, hq', hps, -, htake⟩ := h₂.take hpc₂ rfl rfl hbox
  have hsame := h₂.inv.relies t
  rw [hpc₂] at hsame
  obtain rfl := Option.some.inj (hsame.symm.trans hq')
  obtain ⟨s₃, h₃, hpc₃, hm⟩ := htake (.received p) rfl (.receive hpc₂ hps)
  obtain ⟨s₄, h₄, hpc₄⟩ := h₃.pass (c := .copied p) hpc₃ rfl (.copy hpc₃ (by rw [hm]; rfl))
  obtain ⟨⟨m', hm'⟩, hheld⟩ := h₄.inv.carried hpc₄ rfl
  obtain ⟨s₅, h₅, hpc₅, -⟩ := h₄.setMsg (c := .idle) hpc₄ rfl hheld (.release hpc₄ (by rw [hm']; rfl))
  exact ⟨s₅, h₅, hpc₅⟩

/-- **`lo_bind`.** -/
theorem loBind (h : Tracks t s w.lo) (hpc : s.pc t = .idle) (hk : (w.fdAt i).kind ≠ .free) (heap : Bool)
    (port : UInt16) : ∃ s', Tracks t s' (loBind heap port i w).2.lo ∧ s'.pc t = .idle := by
  rw [EspSmoltcp.loBind]
  by_cases hport : port = 0
  · rw [if_pos hport]
    exact ⟨s, h, hpc⟩
  rw [if_neg hport]
  have hopen : s.isOpen i = true := by
    rw [h.rep.isOpen]
    exact decide_eq_true hk
  obtain ⟨s₁, h₁, hpc₁⟩ := h.pass (c := .binding i port) hpc rfl (.bind hpc hopen hport)
  -- What is left once the entry has its queue and its flag.
  have hbound (s₂ : LoMem T) (h₂ : Tracks t s₂ (w.modFd i FdEntry.loBound).lo) (hpc₂ : s₂.pc t = .slotting i port) :
      ∃ s', Tracks t s' (match loSlotFor (w.modFd i FdEntry.loBound).loSlots port with
        | none => (EspErr.noMem, w.modFd i FdEntry.loBound)
        | some k => (.ok, { w.modFd i FdEntry.loBound with
            loSlots := (w.modFd i FdEntry.loBound).loSlots.set k ⟨port, some i⟩ })).2.lo ∧ s'.pc t = .idle := by
    have hslot := h₂.slot hpc₂
    rw [Lo.takeSlot] at hslot
    rcases hfound : loSlotFor (w.modFd i FdEntry.loBound).loSlots port with _ | k
    · rwa [show loSlotFor (w.modFd i FdEntry.loBound).lo.slots port = none from hfound] at hslot
    · rwa [show loSlotFor (w.modFd i FdEntry.loBound).lo.slots port = some k from hfound] at hslot
  have hlo : (w.modFd i FdEntry.loBound).lo
      = (w.lo.setBox i (some ((w.fdAt i).loRx.getD []))).setFlag i true := by
    rw [World.modFd, World.lo_setFd (lt_length_of_ne_free hk)]
    simp [FdEntry.loBound, Lo.setBox, Lo.setFlag, Lo.setOpen, World.lo, hk]
  rcases hbox : (w.fdAt i).loRx with _ | ms
  · obtain ⟨s₂, h₂, hpc₂⟩ := h₁.pass (c := .creating i port) hpc₁ rfl (.lacksQueue hpc₁ (h₁.rx_eq_none hbox))
    rcases heap with _ | _
    · rw [if_pos ⟨rfl, rfl⟩]
      exact h₂.pass hpc₂ rfl (.createFails hpc₂)
    · rw [if_neg (by simp)]
      obtain ⟨s₃, h₃, hpc₃⟩ := h₂.create hpc₂ hbox
      rw [hbox] at hlo
      exact hbound s₃ (hlo ▸ h₃) hpc₃
  · rw [if_neg (by simp)]
    have hhas : (s₁.rx i).isSome = true := (h₁.rep.hasQueue i).trans (congrArg Option.isSome hbox)
    obtain ⟨s₂, h₂, hpc₂⟩ := h₁.setFlag (c := .slotting i port) hpc₁ rfl (.keepQueue hpc₁ hhas)
    have hsame : w.lo.setBox i (some ms) = w.lo := by
      rw [Lo.setBox, Function.update_eq_self_iff.mpr hbox.symm]
    rw [hbox, Option.getD_some, hsame] at hlo
    exact hbound s₂ (hlo ▸ h₂) hpc₂

/-- **`fd_alloc`.** -/
theorem fdAlloc (h : Tracks t s w.lo) (hpc : s.pc t = .idle) (cfg : Config) {k : FdKind} (hk : k ≠ .free) :
    ∃ s', Tracks t s' (fdAlloc cfg k w).2.lo ∧ s'.pc t = .idle := by
  obtain hfull | ⟨i, hi, hfree, halloc⟩ := fdAlloc_cases cfg k w
  · rw [hfull]
    exact ⟨s, h, hpc⟩
  have hclosed : s.isOpen i = false := by
    rw [h.rep.isOpen]
    exact decide_eq_false (not_not_intro hfree)
  have hnone := h.inv.closed i hclosed
  have hsame : s.setRx i none = s := by rw [setRx, Function.update_eq_self_iff.mpr hnone.symm]
  have hbox : w.lo.setBox i none = w.lo := by
    have hhas := h.rep.hasQueue i
    rw [hnone] at hhas
    have hboxNone := Option.isNone_iff_eq_none.mp (Option.isSome_eq_false_iff.mp hhas.symm)
    rw [Lo.setBox, Function.update_eq_self_iff.mpr hboxNone.symm]
  have hstep : LoMemStep s t _ := .alloc hpc hclosed
  rw [hsame] at hstep
  rw [halloc, World.lo_setFd hi, hbox, decide_eq_true hk]
  refine ⟨_, h.step hstep ⟨h.rep.slots, ?_, ?_, h.rep.hasQueue, h.rep.box⟩, hpc⟩
  · rw [LoMem.setOpen, LoMem.setFlag, h.rep.isOpen]
    rfl
  · rw [LoMem.setOpen, LoMem.setFlag, h.rep.loopback]
    rfl

/-- **The drain of `lo_unbind`** empties the mailbox. -/
theorem drain (h : Tracks t s v) (hpc : s.pc t = .unbound i) (hbox : v.box i = some ms) :
    ∃ s', Tracks t s' (v.setBox i (some [])) ∧ s'.pc t = .drained i := by
  induction ms generalizing s v with
  | nil =>
    obtain ⟨q, ps, hq, -, hps, hms⟩ := h.queue hbox (by rw [hpc]; rfl) (by rw [hpc]; rfl)
    obtain rfl := List.map_eq_nil_iff.mp hms
    have hsame : v.setBox i (some []) = v := by rw [Lo.setBox, Function.update_eq_self_iff.mpr hbox.symm]
    rw [hsame]
    exact h.pass hpc rfl (.drainEnds hpc hq hps)
  | cons m ms ih =>
    obtain ⟨q, p, ps, hq, hps, -, htake⟩ := h.take hpc rfl rfl hbox
    obtain ⟨s₁, h₁, hpc₁, hm⟩ := htake (.draining i p) rfl (.drain hpc hq hps)
    obtain ⟨s₂, h₂, hpc₂, -⟩ := h₁.setMsg (c := .unbound i) hpc₁ rfl (h₁.inv.carried hpc₁ rfl).2
      (.freeDrained hpc₁ (by rw [hm]; rfl))
    obtain ⟨s₃, h₃, hpc₃⟩ := ih h₂ hpc₂ (Function.update_self ..)
    have htwice : (v.setBox i (some ms)).setBox i (some []) = v.setBox i (some []) := by
      simp [Lo.setBox]
    exact ⟨s₃, htwice ▸ h₃, hpc₃⟩

/-- **`fd_free`.** -/
theorem fdFree (h : Tracks t s w.lo) (hpc : s.pc t = .idle) (cfg : Config) (fd : ℤ) :
    ∃ s', Tracks t s' (fdFree cfg fd w).lo ∧ s'.pc t = .idle := by
  rw [EspSmoltcp.fdFree]
  rcases hfd : fdGet cfg w fd with _ | i
  · exact ⟨s, h, hpc⟩
  simp only
  have hk := (fdGet_spec hfd).2.2
  have hi := lt_length_of_fdGet hfd
  have hopen : s.isOpen i = true := by
    rw [h.rep.isOpen]
    exact decide_eq_true hk
  -- What is left once the loopback is dealt with.
  have hfreeing {w₁ : World S} (hi₁ : i < w₁.fds.length) {s₁ : LoMem T} (h₁ : Tracks t s₁ w₁.lo)
      (hpc₁ : s₁.pc t = .freeing i) (e : FdEntry) : ∃ s', Tracks t s' ((closePool e.pool
        (closeOwned e.kind e.sock w₁)).modFd i fun e => { e with kind := .free }).lo ∧ s'.pc t = .idle := by
    have hshim : SameShim w₁ (closePool e.pool (closeOwned e.kind e.sock w₁)) :=
      (SameShim.closeOwned ..).trans (SameShim.closePool ..)
    have hlo := World.lo_of_shim hshim
    generalize closePool e.pool (closeOwned e.kind e.sock w₁) = w₂ at hshim hlo
    have hclosed : (w₂.modFd i fun e => { e with kind := .free }).lo = w₁.lo.setOpen i false := by
      rw [← hlo, World.modFd, World.lo_setFd (by rw [hshim.fds]; exact hi₁)]
      simp [Lo.setBox, Lo.setFlag, Lo.setOpen, World.lo]
    rw [hclosed]
    exact h₁.setOpen hpc₁ rfl (.close hpc₁)
  rcases hflag : (w.fdAt i).loopback with _ | _
  · have hloopback : s.loopback i = false := by
      rw [h.rep.loopback]
      exact hflag
    obtain ⟨s₁, h₁, hpc₁⟩ := h.pass (c := .freeing i) hpc rfl (.skip hpc hopen hloopback)
    exact hfreeing hi h₁ hpc₁ _
  have hloopback : s.loopback i = true := by
    rw [h.rep.loopback]
    exact hflag
  obtain ⟨s₁, h₁, hpc₁⟩ := h.clearSlots (c := .unbound i) hpc rfl (.unbind (w.fdAt i).localPort hpc hopen hloopback)
  -- The queue is drained and deleted, if there is one.
  obtain ⟨s₂, h₂, hpc₂⟩ : ∃ s₂, Tracks t s₂ ((w.lo.clearSlots (w.fdAt i).localPort i).setBox i none) ∧
      s₂.pc t = .unflagging i := by
    rcases hbox : (w.fdAt i).loRx with _ | ms
    · obtain ⟨s₂, h₂, hpc₂⟩ := h₁.pass (c := .drained i) hpc₁ rfl (.noQueue hpc₁ (h₁.rx_eq_none hbox))
      have hsame : (w.lo.clearSlots (w.fdAt i).localPort i).setBox i none
          = w.lo.clearSlots (w.fdAt i).localPort i := by
        rw [Lo.setBox, Function.update_eq_self_iff.mpr (show none = (w.lo.clearSlots _ i).box i from hbox.symm)]
      rw [hsame]
      exact h₂.pass hpc₂ rfl (.noDelete hpc₂ (h₂.rx_eq_none hbox))
    · obtain ⟨s₂, h₂, hpc₂⟩ := h₁.drain hpc₁ (show (w.lo.clearSlots _ i).box i = some ms from hbox)
      obtain ⟨s₃, h₃, hpc₃⟩ := h₂.delete hpc₂ (Function.update_self ..)
      have htwice : ((w.lo.clearSlots (w.fdAt i).localPort i).setBox i (some [])).setBox i none
          = (w.lo.clearSlots (w.fdAt i).localPort i).setBox i none := by
        simp [Lo.setBox]
      exact ⟨s₃, htwice ▸ h₃, hpc₃⟩
  obtain ⟨s₃, h₃, hpc₃⟩ := h₂.setFlag (c := .freeing i) hpc₂ rfl (.unflag hpc₂)
  rw [if_pos rfl]
  refine hfreeing ?_ (?_ : Tracks t s₃ _) hpc₃ _
  · simp [loUnbind, World.length_fds_modFd, hi]
  · rw [World.lo_unbound hi]
    exact h₃

end Tracks

/-! ## Runs -/

/-- A call that touches the loopback. -/
inductive LoCall
  | socket (udp : Bool)
  | bind (heap : Bool) (fd : ℤ) (port : UInt16)
  | deliver (heap : Bool) (dstPort : UInt16) (srcBe : UInt32) (srcPort : UInt16) (data : Bytes)
  | receive (fd : ℤ)
  | close (fd : ℤ)

/-- What the call does to the statics. -/
def LoCall.run (cfg : Config) (w : World S) : LoCall → World S
  | socket udp => (fdAlloc cfg (if udp then .udp else .tcp) w).2
  | bind heap fd port =>
    match fdGet cfg w fd with
    | none => w
    | some i => (loBind heap port i w).2
  | deliver heap dstPort srcBe srcPort data => (loDeliver heap dstPort srcBe srcPort data w).2
  | receive fd =>
    match fdGet cfg w fd with
    | none => w
    | some i => if (w.fdAt i).loopback then (loReceive i w).2 else w
  | close fd => fdFree cfg fd w

/-- **A call is a run of steps.** -/
theorem Tracks.call {w : World S} (h : Tracks t s w.lo) (hpc : s.pc t = .idle) (cfg : Config) (c : LoCall) :
    ∃ s', Tracks t s' (c.run cfg w).lo ∧ s'.pc t = .idle := by
  rcases c with udp | ⟨heap, fd, port⟩ | ⟨heap, dstPort, srcBe, srcPort, data⟩ | fd | fd
  · refine h.fdAlloc hpc cfg ?_
    rcases udp with _ | _
    · exact FdKind.noConfusion
    · exact FdKind.noConfusion
  · rw [LoCall.run]
    rcases hfd : fdGet cfg w fd with _ | i
    · exact ⟨s, h, hpc⟩
    · exact h.loBind hpc (fdGet_spec hfd).2.2 heap port
  · exact h.loDeliver hpc heap dstPort srcBe srcPort data
  · rw [LoCall.run]
    rcases hfd : fdGet cfg w fd with _ | i
    · exact ⟨s, h, hpc⟩
    simp only
    split_ifs with hflag
    · exact h.loReceive hpc (fdGet_spec hfd).2.2 hflag
    · exact ⟨s, h, hpc⟩
  · exact h.fdFree hpc cfg fd

/-- **Whatever calls leave in the statics, a run leaves on the heap.**  The calls come one after the other, from any
tasks; with the heap as `loMemory_safe` and `loMailbox_fifo` take it, each mailbox holds what the fd entry holds. -/
theorem loCalls_tracked (cfg : Config) (calls : List (T × LoCall)) : ∃ s : LoMem T,
    Relation.ReflTransGen LoMemRunStep {} s ∧ (∀ t, s.pc t = .idle) ∧
      s.Represents (World.lo (calls.foldl (fun w c => c.2.run cfg w) (World.boot cfg : World S))) := by
  have key (calls : List (T × LoCall)) (w : World S) (s : LoMem T) (hrun : Relation.ReflTransGen LoMemRunStep {} s)
      (hidle : ∀ t, s.pc t = .idle) (hfresh : s.Fresh) (hrep : s.Represents w.lo) : ∃ s' : LoMem T,
      Relation.ReflTransGen LoMemRunStep {} s' ∧ (∀ t, s'.pc t = .idle) ∧
        s'.Represents (calls.foldl (fun w c => c.2.run cfg w) w).lo := by
    induction calls generalizing w s with
    | nil => exact ⟨s, hrun, hidle, hrep⟩
    | cons c calls ih =>
      obtain ⟨s', h', hpc'⟩ := Tracks.call (t := c.1) ⟨hrun, fun t' _ => hidle t', hfresh, hrep⟩ (hidle c.1) cfg c.2
      refine ih _ s' h'.run (fun t' => ?_) h'.fresh h'.rep
      by_cases ht : t' = c.1
      · rw [ht, hpc']
      · exact h'.alone t' ht
  have hboot : (World.boot cfg : World S).lo
      = ⟨List.replicate 4 {}, fun _ => false, fun _ => false, fun _ => none⟩ := by
    have hat : (World.boot cfg : World S).fdAt = fun _ => {} := by
      funext i
      rw [World.fdAt, World.boot, List.getD_eq_getElem?_getD, List.getElem?_replicate]
      split_ifs
      · rfl
      · rfl
    rw [World.lo, hat]
    rfl
  refine key calls (.boot cfg) {} .refl (fun _ => rfl) ⟨0, fun _ _ => ⟨rfl, rfl⟩⟩ ?_
  rw [hboot]
  exact ⟨rfl, rfl, rfl, fun _ => rfl, fun i => .inr ⟨fun q hq => (by cases hq.1), rfl⟩⟩

end Heap

end EspSmoltcp
