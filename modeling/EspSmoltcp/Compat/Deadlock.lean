import EspSmoltcp.Compat.Locking
import EspSmoltcp.Machinery.LockOrder

/-!
# Compat/Deadlock — the three mutexes are taken in one order

`fd_alloc` and `fd_free` call the stack and the loopback table with the fd lock held, and everything
calls the core with `g_smoltcp_lock` held; nothing goes the other way.  So the fd lock, the loopback lock
and `g_smoltcp_lock` are taken upwards on every path (`LockOp.heldAfter_skeleton`), callbacks of the
application run with nothing held, and no tasks can wait for each other in a circle
(`deadlockFree_of_run`).
-/

namespace EspSmoltcp

/-- The order in which the mutexes are taken. -/
def Lock.rank : Lock → ℕ
  | fdTable => 0
  | loopback => 1
  | smoltcp => 2

theorem Lock.rank_lt (l : Lock) : l.rank < 3 := by cases l <;> decide

/-- The tail of `esp_smoltcp_attach_eth`, which configures the new context under the lock. -/
def Locks.espSmoltcpAttachEth : Skeleton := .opt (smoltcpLocked (.call .eth))

/-- What a task can run. -/
inductive LockOp
  | attachEth
  | op (o : PublicOp)

namespace LockOp

def skeleton : LockOp → Skeleton
  | attachEth => Locks.espSmoltcpAttachEth
  | op o => o.skeleton

/-- It ends in a callback of the application: a tap, or `emit_event`.  Both run after the last lock is
given. -/
def CallsBack : LockOp → Prop
  | op (.pollRx _) => True
  | op (.pollIface _) => True
  | op (.linkEvent _) => True
  | _ => False

/-- The paths of an operation: through its own code, and then through whatever its callback calls. -/
inductive Path : LockOp → List (SyncStep Lock IfaceId) → Prop
  | own {o : LockOp} {tr : List (SyncStep Lock IfaceId)} (h : o.skeleton.Trace tr) : Path o tr
  | callback {o o' : LockOp} {tr tr' : List (SyncStep Lock IfaceId)} (hcb : o.CallsBack)
      (h : Path o tr) (h' : Path o' tr') : Path o (tr ++ tr')

/-- **Every operation takes the mutexes upwards and gives them all back.** -/
theorem heldAfter_skeleton (o : LockOp) : o.skeleton.heldAfter Lock.rank ∅ = some ∅ := by
  have hresolve : ∀ name i, Locks.smoltcpResolve i name = .call i ∨
      Locks.smoltcpResolve i name = .skip := fun name i => ite_eq_or_eq ..
  cases o with
  | attachEth => rfl
  | op o =>
    cases o with
    | getaddrinfo node =>
      obtain heth | heth := hresolve node .eth <;> obtain hwifi | hwifi := hresolve node .wifi <;>
        simp only [skeleton, PublicOp.skeleton, Locks.wrapLwipGetaddrinfo, Locks.anyIface, heth, hwifi] <;>
        rfl
    | gethostbyname name =>
      obtain heth | heth := hresolve name .eth <;> obtain hwifi | hwifi := hresolve name .wifi <;>
        simp only [skeleton, PublicOp.skeleton, Locks.wrapLwipGethostbyname, Locks.anyIface, heth,
          hwifi] <;>
        rfl
    | _ => rfl

/-- …callbacks included. -/
theorem Path.ascends {o : LockOp} {tr : List (SyncStep Lock IfaceId)} (h : Path o tr) :
    Sync.Ascends Lock.rank ∅ tr := by
  induction h with
  | own h => exact h.ascends_empty (heldAfter_skeleton _)
  | callback _ _ _ ih ih' => exact ih.append ih'

end LockOp

/-- One step of the tasks, which run any operations. -/
def LockStep {T : Type} [DecidableEq T] : Tasks T Lock IfaceId → Tasks T Lock IfaceId → Prop :=
  Tasks.Step fun tr => ∃ o, LockOp.Path o tr

/-- **No lock is left behind, none is taken twice, and no tasks deadlock.** -/
theorem deadlockFree_of_run {T : Type} [DecidableEq T] {s : Tasks T Lock IfaceId}
    (h : Relation.ReflTransGen LockStep .idle s) :
    (∀ t l, s.todo t = [] → s.owner l ≠ some t) ∧ (∀ t l, s.Awaits t l → s.owner l ≠ some t) ∧
      ∀ D, ¬ s.Deadlocked D := by
  have hs : s.Orderly Lock.rank := .of_run (fun tr ⟨_, htr⟩ => htr.ascends) h
  exact ⟨fun t l ht => hs.owner_of_idle ht, fun t l ht => hs.not_owner ht,
    hs.not_deadlocked Lock.rank_lt⟩

/-! ### A task that waits -/

/-- `fd_alloc`, with the first interface it asks for an address. -/
def allocating : List (SyncStep Lock IfaceId) :=
  [.take .fdTable, .take .smoltcp, .enter .eth, .leave .eth, .give .smoltcp, .give .fdTable]

theorem path_allocating : LockOp.Path (.op .socket) allocating := by
  have haddr : (Locks.netStackGetIpv4 .eth).Trace
      [.take .smoltcp, .enter .eth, .leave .eth, .give .smoltcp] :=
    .inr (Sync.Trace.locked (l := Lock.smoltcp) (.inr (.call IfaceId.eth)))
  have halloc : Locks.fdAlloc.Trace allocating :=
    Sync.Trace.locked (l := Lock.fdTable) (.inr (.seq (.inl haddr) (.inl .skip)))
  exact .own (.inr (.seq halloc (.inl .skip)))

/-- A task with the fd lock waits for the poll task, which waits for nothing. -/
theorem alloc_waits_for_poll : ∃ s : Tasks ℕ Lock IfaceId,
    s.Awaits 0 .smoltcp ∧ s.owner .smoltcp = some 1 ∧ s.owner .fdTable = some 0 ∧
      ∀ D, ¬ s.Deadlocked D := by
  refine ⟨_, ⟨allocating.drop 2, ?_⟩, ?_, ?_, (deadlockFree_of_run (.tail (.tail (.tail (.tail .refl
    (.start (t := 0) rfl ⟨_, path_allocating⟩)) (.take (t := 0) rfl rfl))
    (.start (t := 1) rfl ⟨.op (.pollIface .eth), .own trace_polling⟩))
    (.take (t := 1) rfl rfl))).2.2⟩
  · rfl
  · rfl
  · rfl

end EspSmoltcp
