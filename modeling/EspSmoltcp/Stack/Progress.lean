import Mathlib.Logic.Function.Basic
import Mathlib.Tactic.SplitIfs

/-!
# Stack/Progress — waiting for the poll task

`net_tcp_send`, `net_tcp_recv` and `net_udp_recvfrom` probe their socket and, if that yields nothing, block
in `net_stack_wait_progress` until the poll task has polled again.  `poll_iface` tells them by
`PROGRESS_BIT`, one bit for all of them, which every wait clears when it returns.

A task that has probed and not yet begun to wait relies on the bit to stay.  It does as long as no other
task's wait takes it first (`progressKept_of_run`); with two tasks it need not (`progress_stolen`).
-/

namespace EspSmoltcp

variable {T : Type}

/-- Where a task is in such a loop. -/
inductive ProbePc
  /-- Not between a probe and its wait. -/
  | out
  /-- Its last probe yielded nothing; it is about to wait. -/
  | probed
  deriving DecidableEq

/-- `s_progress_evt`, the tasks and the poll task. -/
structure ProgressSys (T : Type) where
  /-- `PROGRESS_BIT`. -/
  bit : Bool := false
  /-- The tasks blocked in `xEventGroupWaitBits`. -/
  waiters : List T := []
  task : T → ProbePc := fun _ => .out
  /-- An interface has been polled, and the bit is still to be set for it. -/
  polled : Bool := false
  /-- History: a poll has been made between the last probe of a task and its wait… -/
  since : T → Bool := fun _ => false
  /-- …and its bit has been set before the wait. -/
  missed : T → Bool := fun _ => false

/-- Who moves next. -/
inductive ProgressAct (T : Type)
  /-- A task probes, under the lock, and gets nothing. -/
  | probe (t : T)
  /-- It calls `net_stack_wait_progress`. -/
  | wait (t : T)
  /-- Its wait is over. -/
  | timeout (t : T)
  /-- The poll task runs `smoltcp_iface_poll`. -/
  | poll
  /-- It runs `xEventGroupSetBits` for that. -/
  | set

namespace ProgressSys

variable [DecidableEq T]

/-- One step of one of them. -/
def step (s : ProgressSys T) : ProgressAct T → ProgressSys T
  | .probe t =>
    if t ∈ s.waiters then s
    else
      { s with
        task := Function.update s.task t .probed
        since := Function.update s.since t false
        missed := Function.update s.missed t false }
  | .wait t =>
    match s.task t with
    | .out => s
    | .probed =>
      if s.bit then { s with bit := false, task := Function.update s.task t .out }
      else { s with waiters := t :: s.waiters, task := Function.update s.task t .out }
  | .timeout t => { s with waiters := s.waiters.filter (· ≠ t) }
  | .poll =>
    if s.polled then s
    else { s with polled := true, since := fun t => s.since t || s.task t = .probed }
  | .set =>
    if s.polled then
      { s with
        -- All that wait are released; if there were any, the bit is cleared for them.
        bit := s.waiters.isEmpty
        waiters := []
        polled := false
        missed := fun t => s.missed t || (s.task t = .probed && s.since t) }
    else s

/-- A run from the start. -/
def run (acts : List (ProgressAct T)) : ProgressSys T := acts.foldl step {}

/-- **No task is blocked that was overtaken by a poll between its probe and its wait.** -/
def Kept (s : ProgressSys T) : Prop := ∀ t ∈ s.waiters, s.missed t = false

end ProgressSys

/-- The bit is not taken from a task that relies on it: it is not set for others while a task that the poll
overtook is on its way to its wait, and not consumed while another that it was set for is. -/
def ProgressAct.Fair (s : ProgressSys T) : ProgressAct T → Prop
  | .set => s.polled = true → s.waiters = [] ∨ ∀ t, s.task t = .probed → s.since t = false
  | .wait t => s.task t = .probed → s.bit = true → ∀ u, u ≠ t → s.task u = .probed → s.missed u = false
  | _ => True

/-- …in every step of a run. -/
def FairThroughout [DecidableEq T] : List (ProgressAct T) → ProgressSys T → Prop
  | [], _ => True
  | act :: acts, s => act.Fair s ∧ FairThroughout acts (s.step act)

namespace ProgressSys

/-- What every fair step keeps. -/
structure Inv (s : ProgressSys T) : Prop where
  /-- Nobody waits for a bit that is set. -/
  bit : s.bit = true → s.waiters = []
  out : ∀ t ∈ s.waiters, s.task t = .out
  /-- Whoever relies on the bit finds it. -/
  covered : ∀ t, s.task t = .probed → s.missed t = true → s.bit = true
  kept : s.Kept

namespace Inv

variable {s : ProgressSys T}

theorem init : Inv ({} : ProgressSys T) :=
  ⟨fun _ => rfl, fun _ _ => rfl, (fun _ h => nomatch h), fun _ h => absurd h List.not_mem_nil⟩

theorem poll (h : Inv s) (since : T → Bool) : Inv { s with polled := true, since := since } :=
  ⟨h.bit, h.out, h.covered, h.kept⟩

/-- The waiting tasks are released, or the bit is there for those still to wait. -/
theorem set (h : Inv s) (hfair : s.waiters = [] ∨ ∀ t, s.task t = .probed → s.since t = false) :
    Inv { s with
      bit := s.waiters.isEmpty
      waiters := []
      polled := false
      missed := fun t => s.missed t || (s.task t = .probed && s.since t) } := by
  refine ⟨fun _ => rfl, fun _ ht => absurd ht List.not_mem_nil, fun t ht hm => ?_,
    fun _ ht => absurd ht List.not_mem_nil⟩
  rcases hw : s.waiters with _ | ⟨w, ws⟩
  · rfl
  · -- With a task waiting the bit was clear, so nobody relied on it, and nobody is to.
    have hbit : s.bit = false := by
      by_contra hne
      rw [h.bit (Bool.not_eq_false _ ▸ hne)] at hw
      cases hw
    have hsince : s.since t = false := by
      obtain hnone | hnot := hfair
      · rw [hnone] at hw
        cases hw
      · exact hnot t ht
    have hmissed : s.missed t = false := by
      by_contra hne
      rw [h.covered t ht (Bool.not_eq_false _ ▸ hne)] at hbit
      cases hbit
    simp [hmissed, hsince] at hm

theorem timeout (h : Inv s) {ws : List T} (hws : ∀ t ∈ ws, t ∈ s.waiters)
    (hnil : s.waiters = [] → ws = []) : Inv { s with waiters := ws } :=
  ⟨fun hb => hnil (h.bit hb), fun t ht => h.out t (hws t ht), h.covered, fun t ht => h.kept t (hws t ht)⟩

variable [DecidableEq T]

theorem probe (h : Inv s) {t : T} (ht : t ∉ s.waiters) :
    Inv { s with
      task := Function.update s.task t .probed
      since := Function.update s.since t false
      missed := Function.update s.missed t false } := by
  have hne : ∀ u ∈ s.waiters, u ≠ t := by
    rintro u hu rfl
    exact ht hu
  refine ⟨h.bit, fun u hu => ?_, fun u hu hm => ?_, fun u hu => ?_⟩
  · exact (Function.update_of_ne (hne u hu) ..).trans (h.out u hu)
  · by_cases hut : u = t
    · subst hut
      simp only [Function.update_self] at hm
      cases hm
    · simp only [Function.update_of_ne hut] at hu hm
      exact h.covered u hu hm
  · exact (Function.update_of_ne (hne u hu) ..).trans (h.kept u hu)

/-- A wait that finds the bit set takes it, and nobody else needed it. -/
theorem consume (h : Inv s) {t : T} (hb : s.bit = true)
    (hfair : ∀ u, u ≠ t → s.task u = .probed → s.missed u = false) :
    Inv { s with bit := false, task := Function.update s.task t .out } := by
  refine ⟨(fun hf => nomatch hf), fun u hu => ?_, fun u hu hm => ?_, h.kept⟩
  · rw [h.bit hb] at hu
    exact absurd hu List.not_mem_nil
  · by_cases hut : u = t
    · subst hut
      simp only [Function.update_self] at hu
      cases hu
    · simp only [Function.update_of_ne hut] at hu
      rw [hfair u hut hu] at hm
      cases hm

/-- A wait that finds the bit clear blocks; no poll has overtaken it. -/
theorem block (h : Inv s) {t : T} (ht : s.task t = .probed) (hb : s.bit = false) :
    Inv { s with waiters := t :: s.waiters, task := Function.update s.task t .out } := by
  have hmissed : s.missed t = false := by
    by_contra hne
    rw [h.covered t ht (Bool.not_eq_false _ ▸ hne)] at hb
    cases hb
  refine ⟨fun hf => absurd (hb.symm.trans hf) Bool.false_ne_true, fun u hu => ?_, fun u hu hm => ?_,
    fun u hu => ?_⟩
  · by_cases hut : u = t
    · subst hut
      exact Function.update_self ..
    · exact (Function.update_of_ne hut ..).trans (h.out u ((List.mem_cons.mp hu).resolve_left hut))
  · by_cases hut : u = t
    · subst hut
      simp only [Function.update_self] at hu
      cases hu
    · simp only [Function.update_of_ne hut] at hu
      exact h.covered u hu hm
  · obtain rfl | hu := List.mem_cons.mp hu
    · exact hmissed
    · exact h.kept u hu

/-- **Every fair step keeps the invariant.** -/
theorem step (h : Inv s) {act : ProgressAct T} (hact : act.Fair s) : Inv (s.step act) := by
  cases act with
  | probe t =>
    rw [ProgressSys.step]
    split_ifs with ht
    · exact h
    · exact h.probe ht
  | wait t =>
    rw [ProgressSys.step]
    rcases ht : s.task t with _ | _
    · exact h
    · dsimp only
      split_ifs with hb
      · exact h.consume hb (hact ht hb)
      · exact h.block ht (Bool.not_eq_true _ ▸ hb)
  | timeout t =>
    refine h.timeout (fun u hu => (List.mem_filter.mp hu).1) fun hnil => ?_
    rw [hnil]
    rfl
  | poll =>
    rw [ProgressSys.step]
    split_ifs
    · exact h
    · exact h.poll _
  | set =>
    rw [ProgressSys.step]
    split_ifs with hp
    · exact h.set (hact hp)
    · exact h

theorem foldl (h : Inv s) {acts : List (ProgressAct T)} (hacts : FairThroughout acts s) :
    Inv (acts.foldl ProgressSys.step s) := by
  induction acts generalizing s with
  | nil => exact h
  | cons act acts ih => exact ih (h.step hacts.1) hacts.2

end Inv

variable [DecidableEq T]

/-- **While the bit is left to those who rely on it, no task waits for a poll that has been signalled since
its probe.** -/
theorem progressKept_of_run (acts : List (ProgressAct T)) (h : FairThroughout acts {}) : (run acts).Kept :=
  (Inv.init.foldl h).kept

/-- Two tasks: one poll wakes both from their waits, the next ends the wait of the one it overtakes at once, and
the other one, which probes after it, waits. -/
theorem progressKept_twoTasks :
    let acts := [.probe true, .wait true, .probe false, .wait false, .poll, .set,
      .probe true, .poll, .set, .wait true, .probe false, .wait false]
    false ∈ (run acts).waiters ∧ true ∉ (run acts).waiters ∧ (run acts).Kept := by
  refine ⟨by decide, by decide, progressKept_of_run _ ?_⟩
  refine ⟨trivial, ?_, trivial, ?_, trivial, ?_, trivial, trivial, ?_, ?_, trivial, ?_, trivial⟩
  · exact fun _ hbit => absurd hbit Bool.false_ne_true
  · exact fun _ hbit => absurd hbit Bool.false_ne_true
  · exact fun _ => .inr (by decide)
  · exact fun _ => .inl rfl
  · exact fun _ _ => by decide
  · exact fun _ hbit => absurd hbit Bool.false_ne_true

/-- **Two tasks: the wait of one takes the bit, and the other waits for a poll that is over.** -/
theorem progress_stolen :
    ¬ (run [.probe true, .probe false, .poll, .set, .wait false, .wait true]).Kept := by
  intro h
  exact absurd (h true (by decide)) (by decide)

end ProgressSys

end EspSmoltcp
