import EspSmoltcp.Compat.FdTable

/-!
# Compat/LoHeap — the heap under the loopback, step by step

    lo_deliver ──malloc──▸ message ──xQueueSend──▸ queue ──xQueueReceive──▸ recvfrom ──free
                                    lo_bind: xQueueCreate ──▸ queue ──▸ fd_free: vQueueDelete

A queue holds pointers to messages, and a task holds a message between two calls.  `LoMemStep` is one step of any
task: a call of the heap or of a queue, a section under the lock, or a look at an fd entry.  What a call does with
memory of its own is no step.
-/

namespace EspSmoltcp

variable {T : Type}

/-! ## Tasks -/

/-- Where a task is in a call that touches the loopback; `i` is the fd entry, `p` a message, `q` a queue. -/
inductive LoPc
  | idle
  /-- `lo_deliver` has found its target. -/
  | found (i : ℕ) (m : LoMsg)
  /-- It has seen that the target has a queue. -/
  | checked (i : ℕ) (m : LoMsg)
  /-- It has a message, filled in. -/
  | filled (i p : ℕ)
  /-- The queue was full. -/
  | refused (p : ℕ)
  /-- `recvfrom` has seen that the entry has a queue. -/
  | entered (i : ℕ)
  /-- It is in `xQueueReceive`. -/
  | receiving (i q : ℕ)
  /-- It has a message. -/
  | received (p : ℕ)
  /-- It has copied it. -/
  | copied (p : ℕ)
  /-- `fd_readable` has seen that the entry has a queue. -/
  | peeking (i : ℕ)
  /-- `lo_bind` has checked its port. -/
  | binding (i : ℕ) (port : UInt16)
  /-- It has seen that the entry has no queue. -/
  | creating (i : ℕ) (port : UInt16)
  /-- The entry has a queue. -/
  | slotting (i : ℕ) (port : UInt16)
  /-- `fd_free` has cleared the slots. -/
  | unbound (i : ℕ)
  /-- It has drained a message. -/
  | draining (i p : ℕ)
  /-- It has found the queue empty, or none. -/
  | drained (i : ℕ)
  /-- It has deleted the queue. -/
  | deleted (i : ℕ)
  /-- The entry has no queue. -/
  | unflagging (i : ℕ)
  /-- The entry is no loopback entry. -/
  | freeing (i : ℕ)

namespace LoPc

/-- The message a task holds. -/
def carried : LoPc → Option ℕ
  | filled _ p | refused p | received p | copied p | draining _ p => some p
  | _ => none

/-- The entry a call is about. -/
def entry : LoPc → Option ℕ
  | found i _ | checked i _ | filled i _ | entered i | receiving i _ | peeking i | binding i _ | creating i _
  | slotting i _ | unbound i | draining i _ | drained i | deleted i | unflagging i | freeing i => some i
  | idle | refused _ | received _ | copied _ => none

/-- The entry a call closes. -/
def closes : LoPc → Option ℕ
  | unbound i | draining i _ | drained i | deleted i | unflagging i | freeing i => some i
  | _ => none

/-- The entry whose queue a call has deleted. -/
def gone : LoPc → Option ℕ
  | deleted i => some i
  | _ => none

/-- The entry a call may give a queue. -/
def binds : LoPc → Option ℕ
  | binding i _ | creating i _ => some i
  | _ => none

end LoPc

/-! ## Memory -/

/-- The statics of the loopback, the heap under them and the tasks.  `isOpen` are the entries in use; `queue` are
the live queues with the pointers in them, `msg` the live messages. -/
structure LoMem (T : Type) where
  slots : List LoSlot := List.replicate 4 {}
  isOpen : ℕ → Bool := fun _ => false
  rx : ℕ → Option ℕ := fun _ => none
  loopback : ℕ → Bool := fun _ => false
  queue : ℕ → Option (List ℕ) := fun _ => none
  msg : ℕ → Option LoMsg := fun _ => none
  pc : T → LoPc := fun _ => .idle

/-- A block of the heap, or `NULL`. -/
inductive Block
  | null
  | queue (q : ℕ)
  | msg (p : ℕ)

namespace LoMem

/-- The block a pointer to a queue points to. -/
def handle (q : Option ℕ) : Block := q.elim .null .queue

/-- The block that the next step of a call touches. -/
def next (s : LoMem T) : LoPc → Option Block
  | .filled i _ | .entered i | .peeking i => some (handle (s.rx i))
  | .receiving _ q => some (.queue q)
  | .refused p | .received p | .copied p | .draining _ p => some (.msg p)
  | .unbound i | .drained i => (s.rx i).map .queue
  | _ => none

/-- The block may be touched. -/
def Live (s : LoMem T) : Block → Prop
  | .null => False
  | .queue q => (s.queue q).isSome = true
  | .msg p => (s.msg p).isSome = true

def goto [DecidableEq T] (s : LoMem T) (t : T) (c : LoPc) : LoMem T := { s with pc := Function.update s.pc t c }

def setQueue (s : LoMem T) (q : ℕ) (ps : Option (List ℕ)) : LoMem T :=
  { s with queue := Function.update s.queue q ps }

def setMsg (s : LoMem T) (p : ℕ) (m : Option LoMsg) : LoMem T := { s with msg := Function.update s.msg p m }

def setRx (s : LoMem T) (i : ℕ) (q : Option ℕ) : LoMem T := { s with rx := Function.update s.rx i q }

def setFlag (s : LoMem T) (i : ℕ) (b : Bool) : LoMem T := { s with loopback := Function.update s.loopback i b }

def setOpen (s : LoMem T) (i : ℕ) (b : Bool) : LoMem T := { s with isOpen := Function.update s.isOpen i b }

/-- `lo_bind` under the lock. -/
def takeSlot (s : LoMem T) (port : UInt16) (i : ℕ) : LoMem T :=
  match loSlotFor s.slots port with
  | none => s
  | some k => { s with slots := s.slots.set k ⟨port, some i⟩ }

/-- `lo_unbind` under the lock. -/
def clearSlots (s : LoMem T) (port : UInt16) (i : ℕ) : LoMem T :=
  { s with slots := s.slots.map fun sl => if sl.port = port ∧ sl.fd = some i then {} else sl }

end LoMem

open LoMem

section Steps

variable [DecidableEq T]

/-- What `lo_deliver` finds for a port. -/
def loTarget (slots : List LoSlot) (port : UInt16) : Option ℕ := (slots.find? fun s => s.port = port).bind LoSlot.fd

/-- One step of a task: a call of the heap, of a queue or of a section under the lock, or a look at an fd entry. -/
inductive LoMemStep (s : LoMem T) (t : T) : LoMem T → Prop
  -- lo_deliver
  | lookup (port : UInt16) (m : LoMsg) (hpc : s.pc t = .idle) (hlen : m.data.length ≤ 65535) :
      LoMemStep s t (s.goto t ((loTarget s.slots port).elim .idle (.found · m)))
  | check {i : ℕ} {m : LoMsg} (hpc : s.pc t = .found i m) :
      LoMemStep s t (s.goto t (if (s.rx i).isSome then .checked i m else .idle))
  | malloc {i p : ℕ} {m : LoMsg} (hpc : s.pc t = .checked i m) (hp : s.msg p = none) :
      LoMemStep s t ((s.setMsg p (some m)).goto t (.filled i p))
  | mallocFails {i : ℕ} {m : LoMsg} (hpc : s.pc t = .checked i m) : LoMemStep s t (s.goto t .idle)
  | send {i p q : ℕ} {ps : List ℕ} (hpc : s.pc t = .filled i p) (hq : s.rx i = some q) (hps : s.queue q = some ps)
      (hroom : ps.length < loQueueDepth) : LoMemStep s t ((s.setQueue q (some (ps ++ [p]))).goto t .idle)
  | sendFails {i p q : ℕ} {ps : List ℕ} (hpc : s.pc t = .filled i p) (hq : s.rx i = some q)
      (hps : s.queue q = some ps) (hfull : loQueueDepth ≤ ps.length) : LoMemStep s t (s.goto t (.refused p))
  | reject {p : ℕ} (hpc : s.pc t = .refused p) (hm : (s.msg p).isSome = true) :
      LoMemStep s t ((s.setMsg p none).goto t .idle)
  -- recvfrom
  | enter {i : ℕ} (hpc : s.pc t = .idle) (hopen : s.isOpen i = true) (hflag : s.loopback i = true)
      (hq : (s.rx i).isSome = true) : LoMemStep s t (s.goto t (.entered i))
  | wait {i q : ℕ} (hpc : s.pc t = .entered i) (hq : s.rx i = some q) : LoMemStep s t (s.goto t (.receiving i q))
  | receive {i p q : ℕ} {ps : List ℕ} (hpc : s.pc t = .receiving i q) (hps : s.queue q = some (p :: ps)) :
      LoMemStep s t ((s.setQueue q (some ps)).goto t (.received p))
  | timeout {i q : ℕ} (hpc : s.pc t = .receiving i q) (hps : s.queue q = some []) : LoMemStep s t (s.goto t .idle)
  | copy {p : ℕ} (hpc : s.pc t = .received p) (hm : (s.msg p).isSome = true) : LoMemStep s t (s.goto t (.copied p))
  | release {p : ℕ} (hpc : s.pc t = .copied p) (hm : (s.msg p).isSome = true) :
      LoMemStep s t ((s.setMsg p none).goto t .idle)
  -- fd_readable
  | look {i : ℕ} (hpc : s.pc t = .idle) (hopen : s.isOpen i = true) (hflag : s.loopback i = true)
      (hq : (s.rx i).isSome = true) : LoMemStep s t (s.goto t (.peeking i))
  | count {i q : ℕ} {ps : List ℕ} (hpc : s.pc t = .peeking i) (hq : s.rx i = some q) (hps : s.queue q = some ps) :
      LoMemStep s t (s.goto t .idle)
  -- lo_bind
  | bind {i : ℕ} {port : UInt16} (hpc : s.pc t = .idle) (hopen : s.isOpen i = true) (hport : port ≠ 0) :
      LoMemStep s t (s.goto t (.binding i port))
  | keepQueue {i : ℕ} {port : UInt16} (hpc : s.pc t = .binding i port) (hq : (s.rx i).isSome = true) :
      LoMemStep s t ((s.setFlag i true).goto t (.slotting i port))
  | lacksQueue {i : ℕ} {port : UInt16} (hpc : s.pc t = .binding i port) (hnone : s.rx i = none) :
      LoMemStep s t (s.goto t (.creating i port))
  | createQueue {i q : ℕ} {port : UInt16} (hpc : s.pc t = .creating i port) (hq : s.queue q = none) :
      LoMemStep s t ((((s.setQueue q (some [])).setRx i (some q)).setFlag i true).goto t (.slotting i port))
  | createFails {i : ℕ} {port : UInt16} (hpc : s.pc t = .creating i port) : LoMemStep s t (s.goto t .idle)
  | slot {i : ℕ} {port : UInt16} (hpc : s.pc t = .slotting i port) :
      LoMemStep s t ((s.takeSlot port i).goto t .idle)
  -- fd_alloc
  | alloc {i : ℕ} (hpc : s.pc t = .idle) (hfree : s.isOpen i = false) :
      LoMemStep s t (((s.setRx i none).setFlag i false).setOpen i true)
  -- fd_free
  | skip {i : ℕ} (hpc : s.pc t = .idle) (hopen : s.isOpen i = true) (hflag : s.loopback i = false) :
      LoMemStep s t (s.goto t (.freeing i))
  | unbind {i : ℕ} (port : UInt16) (hpc : s.pc t = .idle) (hopen : s.isOpen i = true) (hflag : s.loopback i = true) :
      LoMemStep s t ((s.clearSlots port i).goto t (.unbound i))
  | drain {i p q : ℕ} {ps : List ℕ} (hpc : s.pc t = .unbound i) (hq : s.rx i = some q)
      (hps : s.queue q = some (p :: ps)) : LoMemStep s t ((s.setQueue q (some ps)).goto t (.draining i p))
  | freeDrained {i p : ℕ} (hpc : s.pc t = .draining i p) (hm : (s.msg p).isSome = true) :
      LoMemStep s t ((s.setMsg p none).goto t (.unbound i))
  | drainEnds {i q : ℕ} (hpc : s.pc t = .unbound i) (hq : s.rx i = some q) (hps : s.queue q = some []) :
      LoMemStep s t (s.goto t (.drained i))
  | noQueue {i : ℕ} (hpc : s.pc t = .unbound i) (hnone : s.rx i = none) : LoMemStep s t (s.goto t (.drained i))
  | delete {i q : ℕ} {ps : List ℕ} (hpc : s.pc t = .drained i) (hq : s.rx i = some q) (hps : s.queue q = some ps) :
      LoMemStep s t ((s.setQueue q none).goto t (.deleted i))
  | noDelete {i : ℕ} (hpc : s.pc t = .drained i) (hnone : s.rx i = none) : LoMemStep s t (s.goto t (.unflagging i))
  | forget {i : ℕ} (hpc : s.pc t = .deleted i) :
      LoMemStep s t ((s.setRx i none).goto t (.unflagging i))
  | unflag {i : ℕ} (hpc : s.pc t = .unflagging i) :
      LoMemStep s t ((s.setFlag i false).goto t (.freeing i))
  | close {i : ℕ} (hpc : s.pc t = .freeing i) : LoMemStep s t ((s.setOpen i false).goto t .idle)

end Steps

end EspSmoltcp
