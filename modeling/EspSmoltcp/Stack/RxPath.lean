import EspSmoltcp.Stack.FramePool

/-!
# Stack/RxPath — received frames from the driver to the stack

A buffer that a driver hands to `eth_input_cb` is copied to a frame, posted by `net_stack_post_rx`, and read by the
poll task.  Beside the frames of `RxSystem` this module keeps their contents and a log of what happened, which
decides nothing (`RxPathStep.forget`).

`rxPath_delivers`: what an interface's queue took is what the poll task reads, in that order and byte for byte as
the driver delivered it, and every callback ends in one way.
-/

namespace EspSmoltcp

variable {poolSz depth : ℕ}

/-! ## The log -/

/-- How far a frame has come on an interface. -/
inductive RxStage
  /-- `net_stack_post_rx` counts it, and will send it. -/
  | counted
  | queued
  /-- The queue was full. -/
  | dropped
  /-- The poll task has read it. -/
  | handed
  deriving DecidableEq

/-- What happens on the receive path.  A callback is named by its number; the poll task has none. -/
inductive RxEvent
  | received (buf : Bytes)
  /-- `net_frame_alloc` returned `NULL`. -/
  | noFrame (k : ℕ)
  /-- There is no such interface, or it is not enabled. -/
  | refused (k : ℕ)
  | moved (stage : RxStage) (caller : Option ℕ) (i : IfaceId) (data : Bytes)
  deriving DecidableEq

namespace RxEvent

/-- What came to a stage on an interface. -/
def frame? (stage : RxStage) (i : IfaceId) : RxEvent → Option Bytes
  | moved stage' _ j data => if stage' = stage ∧ j = i then some data else none
  | received _ | noFrame _ | refused _ => none

/-- The buffer a callback was called with. -/
def received? : RxEvent → Option Bytes
  | received buf => some buf
  | noFrame _ | refused _ | moved .. => none

/-- How a callback ends. -/
def ends (k : ℕ) : RxEvent → Bool
  | noFrame k' | refused k' => k' = k
  | moved .queued caller _ _ | moved .dropped caller _ _ => caller = some k
  | received _ | moved .counted .. | moved .handed .. => false

end RxEvent

/-- What came to a stage on an interface, oldest first. -/
def logged (stage : RxStage) (i : IfaceId) (log : List RxEvent) : List Bytes :=
  log.filterMap (RxEvent.frame? stage i)

@[simp] theorem logged_nil (stage : RxStage) (i : IfaceId) : logged stage i [] = [] := rfl

@[simp] theorem logged_append (stage : RxStage) (i : IfaceId) (l l' : List RxEvent) :
    logged stage i (l ++ l') = logged stage i l ++ logged stage i l' := List.filterMap_append ..

/-- The buffers the callbacks were called with, by their numbers. -/
def received (log : List RxEvent) : List Bytes := log.filterMap RxEvent.received?

namespace RxState

variable (r : RxState poolSz depth)

/-- What the frames hold. -/
def contents (l : List (Fin poolSz)) : List Bytes := l.map fun f => (r.slab f).data

@[simp] theorem contents_nil : r.contents [] = [] := rfl

@[simp] theorem contents_cons (f : Fin poolSz) (l : List (Fin poolSz)) :
    r.contents (f :: l) = (r.slab f).data :: r.contents l := rfl

@[simp] theorem contents_append (l l' : List (Fin poolSz)) :
    r.contents (l ++ l') = r.contents l ++ r.contents l' := List.map_append

/-- Nobody has written to these frames. -/
theorem contents_congr {r' : RxState poolSz depth} {l : List (Fin poolSz)}
    (h : ∀ f ∈ l, (r'.slab f).data = (r.slab f).data) : r'.contents l = r.contents l :=
  List.map_congr_left h

end RxState

/-! ## What the steps log -/

namespace RxCallback

/-- What the step of callback `k` adds to the log. -/
def events (k : ℕ) : RxCallback poolSz → RxState poolSz depth → List RxEvent
  | start _ buf, r =>
    match (netFrameAlloc buf.length r).1 with
    | none => [.noFrame k]
    | some _ => []
  | posting iface f, r =>
    match IfaceId.ofCode iface with
    | none => [.refused k]
    | some i => if r.enabled i then [.moved .counted k i (r.slab f).data] else [.refused k]
  | enqueuing i f, r =>
    match (r.rxQ i).send f with
    | some _ => [.moved .queued k i (r.slab f).data]
    | none => [.moved .dropped k i (r.slab f).data]
  | allocated .., _ | freeing _, _ | returned, _ => []

/-- The frame that is counted but not yet sent to an interface's queue. -/
def bound (i : IfaceId) : RxCallback poolSz → List (Fin poolSz)
  | enqueuing j f => if j = i then [f] else []
  | start .. | allocated .. | posting .. | freeing _ | returned => []

/-- The callback has only its frame to free, or nothing. -/
def decided : RxCallback poolSz → Bool
  | freeing _ | returned => true
  | start .. | allocated .. | posting .. | enqueuing .. => false

/-- The callback is about the buffer it was called with. -/
def Carries (slab : Fin poolSz → NetFrame) (buf : Bytes) : RxCallback poolSz → Prop
  | start _ b | allocated _ b _ => b = buf
  | posting _ f | enqueuing _ f | freeing f => (slab f).data = buf
  | returned => True

end RxCallback

namespace PollTask

/-- The frame that is taken but not yet read. -/
def unread (i : IfaceId) : PollTask poolSz → List (Fin poolSz)
  | holding j f => if j = i then [f] else []
  | elsewhere | draining _ | freeing .. => []

/-- `dispatch_tap` or `smoltcp_iface_rx` reads the frame. -/
def events : PollTask poolSz → RxState poolSz depth → List RxEvent
  | holding j f, r => [.moved .handed none j (r.slab f).data]
  | elsewhere, _ | draining _, _ | freeing .., _ => []

end PollTask

/-! ## The system -/

/-- The receive path with its log. -/
structure RxPath (poolSz depth : ℕ) where
  sys : RxSystem poolSz depth
  log : List RxEvent

/-- The path after `net_stack_init`. -/
def RxPath.init (poolSz depth : ℕ) (slab : Fin poolSz → NetFrame) : RxPath poolSz depth where
  sys := .init poolSz depth slab
  log := []

/-- One step of the path: a step of the system, with what it logs. -/
inductive RxPathStep (s : RxPath poolSz depth) : RxPath poolSz depth → Prop
  | receive (iface : UInt32) (buf : Bytes) :
      RxPathStep s { s with
        sys := { s.sys with callbacks := s.sys.callbacks ++ [.start iface buf] }
        log := s.log ++ [.received buf] }
  | callback (k : ℕ) (c : RxCallback poolSz) (hk : s.sys.callbacks[k]? = some c) :
      RxPathStep s {
        sys := { s.sys with
          shared := (c.step s.sys.shared).2
          callbacks := s.sys.callbacks.set k (c.step s.sys.shared).1 }
        log := s.log ++ c.events k s.sys.shared }
  | poll (i : IfaceId) :
      RxPathStep s { s with
        sys := { s.sys with
          shared := (s.sys.poll.step i s.sys.shared).2
          poll := (s.sys.poll.step i s.sys.shared).1 }
        log := s.log ++ s.sys.poll.events s.sys.shared }
  | enable (i : IfaceId) (b : Bool) :
      RxPathStep s { s with
        sys := { s.sys with shared :=
          { s.sys.shared with enabled := Function.update s.sys.shared.enabled i b } } }

/-- Without the log it is a step of the system. -/
theorem RxPathStep.forget {s s' : RxPath poolSz depth} (h : RxPathStep s s') : RxStep s.sys s'.sys := by
  obtain ⟨iface, buf⟩ | ⟨k, c, hk⟩ | ⟨i⟩ | ⟨i, b⟩ := h
  · exact .receive iface buf
  · exact .callback k c hk
  · exact .poll i
  · exact .enable i b

/-- Every step of the system is logged. -/
theorem RxStep.exists_path (s : RxPath poolSz depth) {t : RxSystem poolSz depth} (h : RxStep s.sys t) :
    ∃ s', RxPathStep s s' ∧ s'.sys = t := by
  obtain ⟨iface, buf⟩ | ⟨k, c, hk⟩ | ⟨i⟩ | ⟨i, b⟩ := h
  · exact ⟨_, .receive iface buf, rfl⟩
  · exact ⟨_, .callback k c hk, rfl⟩
  · exact ⟨_, .poll i, rfl⟩
  · exact ⟨_, .enable i b, rfl⟩

/-! ## What one step logs -/

section Framed

variable (stage : RxStage) (i : IfaceId) (k : ℕ)

@[simp] theorem logged_noFrame : logged stage i [.noFrame k] = [] := rfl

@[simp] theorem logged_refused : logged stage i [.refused k] = [] := rfl

@[simp] theorem logged_received (buf : Bytes) : logged stage i [.received buf] = [] := rfl

@[simp] theorem logged_moved (stage' : RxStage) (caller : Option ℕ) (j : IfaceId) (data : Bytes) :
    logged stage i [.moved stage' caller j data] = if stage' = stage ∧ j = i then [data] else [] := by
  rw [logged, List.filterMap_cons, RxEvent.frame?]
  split_ifs
  · rfl
  · rfl

end Framed

namespace RxCallback

variable (c : RxCallback poolSz) (r : RxState poolSz depth) (k : ℕ) (i : IfaceId)

/-- **A callback ends once**: when it first has nothing left to do but free its frame. -/
theorem ends_events (k' : ℕ) : (c.events k r).countP (RxEvent.ends k') + (if k' = k ∧ c.decided then 1 else 0) =
    if k' = k ∧ (c.step r).1.decided then 1 else 0 := by
  rcases c with ⟨iface, buf⟩ | ⟨iface, buf, f⟩ | ⟨iface, f⟩ | ⟨j, f⟩ | f | _
  · rw [events, step]
    rcases netFrameAlloc buf.length r with ⟨_ | f, r'⟩
    · simp [RxEvent.ends, decided, eq_comm]
    · simp [decided]
  · simp [events, step, decided]
  · rw [events, step]
    rcases IfaceId.ofCode iface with _ | j
    · simp [RxEvent.ends, decided, eq_comm]
    · dsimp only
      by_cases hj : r.enabled j
      · simp [hj, RxEvent.ends, decided]
      · simp [hj, RxEvent.ends, decided, eq_comm]
  · rw [events, step]
    rcases (r.rxQ j).send f with _ | q
    · simp [RxEvent.ends, decided, eq_comm]
    · simp [RxEvent.ends, decided, eq_comm]
  · simp [events, step, decided]
  · simp [events, step, decided]

/-- Only the copy writes to a frame. -/
theorem slab_step {f : Fin poolSz} (hf : ∀ iface buf, c ≠ .allocated iface buf f) :
    ((c.step r).2.slab f).data = (r.slab f).data := by
  rcases c with ⟨iface, buf⟩ | ⟨iface, buf, g⟩ | ⟨iface, g⟩ | ⟨j, g⟩ | g | _
  · rw [step, netFrameAlloc]
    split_ifs
    · rfl
    · rcases r.freeQ.receive with _ | ⟨g, q⟩
      · rfl
      · by_cases hg : f = g
        · subst hg
          simp
        · simp [Function.update_of_ne hg]
  · have hg : f ≠ g := fun h => hf iface buf (h ▸ rfl)
    simp [step, Function.update_of_ne hg]
  · rw [step]
    rcases IfaceId.ofCode iface with _ | j
    · rfl
    · dsimp only
      split_ifs
      · rfl
      · rfl
  · rw [step]
    rcases (r.rxQ j).send g with _ | q
    · rfl
    · rfl
  · rw [step, netFrameFree]
    rcases r.freeQ.send g with _ | q
    · rfl
    · rfl
  · rfl

/-- A callback logs neither a call nor a read. -/
theorem quiet_events : received (c.events k r) = [] ∧ logged .handed i (c.events k r) = [] := by
  rcases c with ⟨iface, buf⟩ | ⟨iface, buf, f⟩ | ⟨iface, f⟩ | ⟨j, f⟩ | f | _
  · rw [events]
    rcases (netFrameAlloc buf.length r).1 with _ | f
    · exact ⟨rfl, rfl⟩
    · exact ⟨rfl, rfl⟩
  · exact ⟨rfl, rfl⟩
  · rw [events]
    rcases IfaceId.ofCode iface with _ | j
    · exact ⟨rfl, rfl⟩
    · by_cases hj : r.enabled j
      · simp [hj, received, RxEvent.received?]
      · simp [hj, received, RxEvent.received?]
  · rw [events]
    rcases (r.rxQ j).send f with _ | q
    · simp [received, RxEvent.received?]
    · simp [received, RxEvent.received?]
  · exact ⟨rfl, rfl⟩
  · exact ⟨rfl, rfl⟩

/-- A frame to be sent is in the callback's hands. -/
theorem held_of_bound {f : Fin poolSz} (hf : f ∈ c.bound i) : f ∈ c.held := by
  rcases c with ⟨iface, buf⟩ | ⟨iface, buf, g⟩ | ⟨iface, g⟩ | ⟨j, g⟩ | g | _
  · cases hf
  · cases hf
  · cases hf
  · rw [bound] at hf
    split_ifs at hf
    · exact hf
    · cases hf
  · cases hf
  · cases hf

variable {c r}

/-- The buffer is copied to the frame and stays there. -/
theorem Carries.step {buf : Bytes} (h : c.Carries r.slab buf) : (c.step r).1.Carries (c.step r).2.slab buf := by
  rcases c with ⟨iface, b⟩ | ⟨iface, b, f⟩ | ⟨iface, f⟩ | ⟨j, f⟩ | f | _
  · rw [RxCallback.step]
    rcases netFrameAlloc b.length r with ⟨_ | f, r'⟩
    · trivial
    · exact h
  · rw [Carries] at h
    subst h
    simp [RxCallback.step, Carries]
  · rw [RxCallback.step]
    rcases IfaceId.ofCode iface with _ | j
    · exact h
    · dsimp only
      split_ifs
      · exact h
      · exact h
  · rw [RxCallback.step]
    rcases (r.rxQ j).send f with _ | q
    · exact h
    · trivial
  · trivial
  · trivial

/-- It is about its buffer as long as nobody writes to its frame. -/
theorem Carries.congr {slab slab' : Fin poolSz → NetFrame} {buf : Bytes} (h : c.Carries slab buf)
    (hslab : ∀ f ∈ c.held, (slab' f).data = (slab f).data) : c.Carries slab' buf := by
  rcases c with ⟨iface, b⟩ | ⟨iface, b, f⟩ | ⟨iface, f⟩ | ⟨j, f⟩ | f | _
  · exact h
  · exact h
  · exact (hslab f List.mem_cons_self).trans h
  · exact (hslab f List.mem_cons_self).trans h
  · exact (hslab f List.mem_cons_self).trans h
  · trivial

/-- What a callback logs is about its own buffer. -/
theorem Carries.events {buf : Bytes} (h : c.Carries r.slab buf) {stage : RxStage} {caller : Option ℕ}
    {data : Bytes} (he : .moved stage caller i data ∈ c.events k r) : caller = some k ∧ data = buf := by
  rcases c with ⟨iface, b⟩ | ⟨iface, b, f⟩ | ⟨iface, f⟩ | ⟨j, f⟩ | f | _
  · rw [RxCallback.events] at he
    split at he
    · simp at he
    · simp at he
  · simp [RxCallback.events] at he
  · rw [RxCallback.events] at he
    split at he
    · simp at he
    · split_ifs at he
      · simp only [List.mem_singleton, RxEvent.moved.injEq] at he
        exact ⟨he.2.1, he.2.2.2.trans h⟩
      · simp at he
  · have hdata (stage' : RxStage) (he : RxEvent.moved stage caller i data ∈
        [RxEvent.moved stage' (some k) j (r.slab f).data]) : caller = some k ∧ data = buf := by
      simp only [List.mem_singleton, RxEvent.moved.injEq] at he
      exact ⟨he.2.1, he.2.2.2.trans h⟩
    rw [RxCallback.events] at he
    split at he
    · exact hdata _ he
    · exact hdata _ he
  · simp [RxCallback.events] at he
  · simp [RxCallback.events] at he

section Queues

variable (c r)

/-- **What is counted is sent, dropped or still to be sent.** -/
theorem perm_counted :
    (logged .counted i (c.events k r) ++ r.contents (c.bound i)).Perm
      (logged .queued i (c.events k r) ++ logged .dropped i (c.events k r) ++
        r.contents ((c.step r).1.bound i)) := by
  rcases c with ⟨iface, buf⟩ | ⟨iface, buf, f⟩ | ⟨iface, f⟩ | ⟨j, f⟩ | f | _
  · rw [events, step]
    rcases netFrameAlloc buf.length r with ⟨_ | f, r'⟩
    · simp [bound]
    · simp [bound]
  · simp [events, step, bound]
  · rw [events, step]
    rcases IfaceId.ofCode iface with _ | j
    · simp [bound]
    · by_cases he : r.enabled j
      · by_cases hj : j = i
        · subst hj
          simp [he, bound]
        · simp [he, hj, bound]
      · simp [he, bound]
  · rw [events, step]
    rcases (r.rxQ j).send f with _ | q
    · by_cases hj : j = i
      · simp [hj, bound]
      · simp [hj, bound]
    · by_cases hj : j = i
      · simp [hj, bound]
      · simp [hj, bound]
  · simp [events, step, bound]
  · simp [events, step, bound]

/-- **What is sent is at the end of the queue.** -/
theorem queue_step : r.contents ((c.step r).2.rxQ i).items =
    r.contents (r.rxQ i).items ++ logged .queued i (c.events k r) := by
  rcases c with ⟨iface, buf⟩ | ⟨iface, buf, f⟩ | ⟨iface, f⟩ | ⟨j, f⟩ | f | _
  · rw [events, step, netFrameAlloc]
    split_ifs
    · simp
    · rcases r.freeQ.receive with _ | ⟨g, q⟩
      · simp
      · simp
  · simp [events, step]
  · rw [events, step]
    rcases IfaceId.ofCode iface with _ | j
    · simp
    · by_cases he : r.enabled j
      · simp [he]
      · simp [he]
  · rw [events, step]
    rcases hq : (r.rxQ j).send f with _ | q
    · simp
    · by_cases hj : j = i
      · subst hj
        simp [RxState.setRxQ, Fifo.items_send hq]
      · simp [RxState.setRxQ, Function.update_of_ne (Ne.symm hj), hj]
  · rw [events, step, netFrameFree]
    rcases r.freeQ.send f with _ | q
    · simp
    · simp
  · simp [events, step]

end Queues

end RxCallback

namespace PollTask

variable (p : PollTask poolSz) (r : RxState poolSz depth) (i j : IfaceId)

/-- The poll task writes to no frame. -/
theorem slab_step : (p.step i r).2.slab = r.slab := by
  rcases p with _ | j | ⟨j, f⟩ | ⟨j, f⟩
  · rfl
  · rw [step]
    rcases (r.rxQ j).receive with _ | ⟨f, q⟩
    · rfl
    · rfl
  · rfl
  · rw [step, netFrameFree]
    rcases r.freeQ.send f with _ | q
    · rfl
    · rfl

/-- A frame to be read is in its hands. -/
theorem held_of_unread {f : Fin poolSz} (hf : f ∈ p.unread i) : f ∈ p.held := by
  rcases p with _ | j | ⟨j, g⟩ | ⟨j, g⟩
  · cases hf
  · cases hf
  · rw [unread] at hf
    split_ifs at hf
    · exact hf
    · cases hf
  · cases hf

/-- It logs what it reads. -/
theorem mem_events {e : RxEvent} (h : e ∈ p.events r) : ∃ j data, e = .moved .handed none j data := by
  rcases p with _ | j | ⟨j, f⟩ | ⟨j, f⟩
  · cases h
  · cases h
  · exact ⟨j, _, List.mem_singleton.mp h⟩
  · cases h

/-- **What is taken from the front of the queue is read.** -/
theorem queue_step : logged .handed j (p.events r) ++ r.contents ((p.step i r).1.unread j) ++
      r.contents ((p.step i r).2.rxQ j).items =
    r.contents (p.unread j) ++ r.contents (r.rxQ j).items := by
  rcases p with _ | l | ⟨l, f⟩ | ⟨l, f⟩
  · rw [events, step]
    by_cases he : r.enabled i
    · simp [he, unread]
    · simp [he, unread]
  · rw [events, step]
    rcases hq : (r.rxQ l).receive with _ | ⟨f, q⟩
    · simp [unread]
    · by_cases hj : l = j
      · subst hj
        simp [unread, RxState.setRxQ, Fifo.items_receive hq]
      · simp [unread, RxState.setRxQ, Function.update_of_ne (Ne.symm hj), hj]
  · by_cases hj : l = j
    · simp [events, step, unread, hj]
    · simp [events, step, unread, hj]
  · rw [events, step, netFrameFree]
    rcases r.freeQ.send f with _ | q
    · simp [unread]
    · simp [unread]

end PollTask

/-! ## Frames and log agree -/

namespace RxSystem

variable {s : RxSystem poolSz depth} {k : ℕ} {c : RxCallback poolSz}

/-- **A frame in a callback's hands is nowhere else.** -/
theorem Conserved.mine (h : s.Conserved) (hk : s.callbacks[k]? = some c) {f : Fin poolSz} (hf : f ∈ c.held) :
    (∀ i, f ∉ (s.shared.rxQ i).items) ∧ f ∉ s.poll.held ∧
      ∀ k' c', s.callbacks[k']? = some c' → f ∈ c'.held → k' = k := by
  obtain ⟨x, -, hx⟩ := h.existsUnique.1 f
  have hmine : ∀ k' c', s.callbacks[k']? = some c' → f ∈ c'.held → .callback k' = x := by
    intro k' c' hk' hf'
    refine hx (.callback k') ?_
    change f ∈ (s.callbacks[k']?.map RxCallback.held).getD []
    rw [hk']
    exact hf'
  have hxk := hmine k c hk hf
  refine ⟨fun i hi => ?_, fun hp => ?_, fun k' c' hk' hf' => ?_⟩
  · cases (hx (.rxQ i) hi).trans hxk.symm
  · cases (hx .poll hp).trans hxk.symm
  · exact Place.callback.inj ((hmine k' c' hk' hf').trans hxk.symm)

end RxSystem

namespace RxPath

/-- The frames that are counted for an interface and not yet sent to its queue. -/
def inFlight (s : RxPath poolSz depth) (i : IfaceId) : List (Fin poolSz) :=
  s.sys.callbacks.flatMap (RxCallback.bound i)

/-- Frames, contents and log agree. -/
structure Exact (s : RxPath poolSz depth) : Prop where
  conserved : s.sys.Conserved
  sent : ∀ i, (logged .counted i s.log).Perm
    (logged .queued i s.log ++ logged .dropped i s.log ++ s.sys.shared.contents (s.inFlight i))
  fifo : ∀ i, logged .queued i s.log = logged .handed i s.log ++
    s.sys.shared.contents (s.sys.poll.unread i) ++ s.sys.shared.contents (s.sys.shared.rxQ i).items
  length : (received s.log).length = s.sys.callbacks.length
  carries : ∀ (k : ℕ) (c : RxCallback poolSz) (buf : Bytes), s.sys.callbacks[k]? = some c →
    (received s.log)[k]? = some buf → c.Carries s.sys.shared.slab buf
  own : ∀ stage (k : ℕ) i data, .moved stage (some k) i data ∈ s.log → (received s.log)[k]? = some data
  ends : ∀ k, s.log.countP (RxEvent.ends k) = if s.sys.callbacks[k]?.any RxCallback.decided then 1 else 0

variable {s s' : RxPath poolSz depth}

theorem received_append (l l' : List RxEvent) : received (l ++ l') = received l ++ received l' :=
  List.filterMap_append ..

theorem exact_init (poolSz depth : ℕ) (slab : Fin poolSz → NetFrame) : (init poolSz depth slab).Exact where
  conserved := RxSystem.conserved_init poolSz depth slab
  sent _ := List.Perm.nil
  fifo _ := rfl
  length := rfl
  carries k c buf hk := by cases hk
  own stage k i data he := by cases he
  ends _ := rfl

/-- **A driver calls.** -/
theorem Exact.receive (h : s.Exact) (iface : UInt32) (buf : Bytes) : Exact { s with
    sys := { s.sys with callbacks := s.sys.callbacks ++ [.start iface buf] }
    log := s.log ++ [.received buf] } where
  conserved := h.conserved.step (.receive iface buf)
  sent i := by
    have hf : (s.sys.callbacks ++ [RxCallback.start iface buf]).flatMap (RxCallback.bound i) = s.inFlight i := by
      simp [inFlight, RxCallback.bound]
    simp only [logged_append, logged_received, List.append_nil]
    rw [inFlight, hf]
    exact h.sent i
  fifo i := by
    simp only [logged_append, logged_received, List.append_nil]
    exact h.fifo i
  length := by
    rw [received_append, List.length_append, List.length_append, h.length]
    rfl
  carries k c b hk hb := by
    rw [received_append] at hb
    rw [List.getElem?_append] at hk hb
    rw [h.length] at hb
    split_ifs at hk hb
    · exact h.carries k c b hk hb
    · rcases hj : k - s.sys.callbacks.length with _ | j
      · rw [hj] at hk hb
        cases hk
        cases hb
        rfl
      · rw [hj] at hk
        cases hk
  own stage k i data he := by
    rw [List.mem_append] at he
    obtain he | he := he
    · have hdata := h.own stage k i data he
      rw [received_append, List.getElem?_append_left (List.getElem?_eq_some_iff.mp hdata).1]
      exact hdata
    · simp at he
  ends k := by
    have hk : (s.sys.callbacks ++ [RxCallback.start iface buf])[k]?.any RxCallback.decided =
        s.sys.callbacks[k]?.any RxCallback.decided := by
      rw [List.getElem?_append]
      split_ifs with hlt
      · rfl
      · rw [List.getElem?_eq_none (not_lt.mp hlt)]
        rcases k - s.sys.callbacks.length with _ | j
        · rfl
        · rfl
    rw [List.countP_append, hk]
    exact h.ends k

section Callback

variable {k : ℕ} {c : RxCallback poolSz} (h : s.Exact) (hk : s.sys.callbacks[k]? = some c)
include h hk

/-- A callback writes to no frame that is waiting, being read or about to be sent. -/
theorem Exact.contents_callback (i : IfaceId) :
    (c.step s.sys.shared).2.contents (s.sys.poll.unread i) = s.sys.shared.contents (s.sys.poll.unread i) ∧
      (c.step s.sys.shared).2.contents ((c.step s.sys.shared).2.rxQ i).items =
        s.sys.shared.contents ((c.step s.sys.shared).2.rxQ i).items ∧
      (c.step s.sys.shared).2.contents
          ((s.sys.callbacks.set k (c.step s.sys.shared).1).flatMap (RxCallback.bound i)) =
        s.sys.shared.contents
          ((s.sys.callbacks.set k (c.step s.sys.shared).1).flatMap (RxCallback.bound i)) := by
  have hmine {iface buf f} (hc : c = .allocated iface buf f) :=
    h.conserved.mine hk (f := f) (hc ▸ List.mem_singleton.mpr rfl)
  refine ⟨RxState.contents_congr _ fun f hf => ?_, RxState.contents_congr _ fun f hf => ?_,
    RxState.contents_congr _ fun f hf => ?_⟩
  · exact c.slab_step _ fun iface buf hc => (hmine hc).2.1 (PollTask.held_of_unread _ _ hf)
  · refine c.slab_step _ fun iface buf hc => (hmine hc).1 i ?_
    subst hc
    exact hf
  · refine c.slab_step _ fun iface buf hc => ?_
    obtain ⟨c', hmem, hb⟩ := List.mem_flatMap.mp hf
    obtain ⟨k', hk'⟩ := List.mem_iff_getElem?.mp hmem
    rw [List.getElem?_set] at hk'
    split_ifs at hk' with hkk hlt
    · obtain rfl := Option.some.inj hk'
      subst hc
      cases hb
    · exact hkk ((hmine hc).2.2 k' c' hk' (c'.held_of_bound i hb)).symm

/-- **A callback takes a step.** -/
theorem Exact.callback : Exact {
    sys := { s.sys with
      shared := (c.step s.sys.shared).2
      callbacks := s.sys.callbacks.set k (c.step s.sys.shared).1 }
    log := s.log ++ c.events k s.sys.shared } where
  conserved := h.conserved.step (.callback k c hk)
  sent i := by
    obtain ⟨rest, hold, hnew⟩ := perm_flatMap_set s.sys.callbacks (RxCallback.bound i) hk
    have hcounted := List.perm_iff_count.mp (c.perm_counted s.sys.shared k i)
    have hsent := List.perm_iff_count.mp (h.sent i)
    have hold' := List.perm_iff_count.mp (hold.map fun f => (s.sys.shared.slab f).data)
    have hnew' := List.perm_iff_count.mp ((hnew (c.step s.sys.shared).1).map fun f => (s.sys.shared.slab f).data)
    rw [inFlight, (h.contents_callback hk i).2.2]
    refine List.perm_iff_count.mpr fun data => ?_
    have h₁ := hcounted data
    have h₂ := hsent data
    have h₃ := hold' data
    have h₄ := hnew' data
    simp only [logged_append, List.count_append, List.map_append, inFlight, RxState.contents] at *
    omega
  fifo i := by
    rw [logged_append, logged_append, (c.quiet_events _ k i).2, List.append_nil, (h.contents_callback hk i).1,
      (h.contents_callback hk i).2.1, c.queue_step _ k i, ← List.append_assoc, ← h.fifo i]
  length := by
    rw [received_append, (c.quiet_events s.sys.shared k .eth).1, List.append_nil, h.length]
    exact List.length_set.symm
  carries k' c' buf hk' hb := by
    rw [received_append, (c.quiet_events s.sys.shared k .eth).1, List.append_nil] at hb
    rw [List.getElem?_set] at hk'
    split_ifs at hk' with hkk hlt
    · obtain rfl := Option.some.inj hk'
      subst hkk
      exact (h.carries k c buf hk hb).step
    · refine (h.carries k' c' buf hk' hb).congr fun f hf => c.slab_step _ fun iface b hc => hkk ?_
      exact ((h.conserved.mine hk (hc ▸ List.mem_singleton.mpr rfl)).2.2 k' c' hk' hf).symm
  own stage k' i data he := by
    rw [received_append, (c.quiet_events s.sys.shared k .eth).1, List.append_nil]
    rw [List.mem_append] at he
    obtain he | he := he
    · exact h.own stage k' i data he
    · have hlt : k < (received s.log).length := by
        rw [h.length]
        exact (List.getElem?_eq_some_iff.mp hk).1
      obtain ⟨hk', hdata⟩ := (h.carries k c _ hk (List.getElem?_eq_getElem hlt)).events k i he
      obtain rfl := Option.some.inj hk'
      rw [List.getElem?_eq_getElem hlt, hdata]
  ends k' := by
    have hlt := (List.getElem?_eq_some_iff.mp hk).1
    have hends := c.ends_events s.sys.shared k k'
    rw [List.countP_append, h.ends k', List.getElem?_set]
    by_cases hkk : k = k'
    · subst hkk
      simp only [hk, hlt, if_true, true_and, Option.any_some] at hends ⊢
      omega
    · simp only [hkk, Ne.symm hkk, if_false, false_and] at hends ⊢
      omega

end Callback

/-- Events of the poll task are reads. -/
theorem quiet_poll (p : PollTask poolSz) (r : RxState poolSz depth) (i : IfaceId) (k : ℕ) :
    received (p.events r) = [] ∧ logged .counted i (p.events r) = [] ∧ logged .queued i (p.events r) = [] ∧
      logged .dropped i (p.events r) = [] ∧ (p.events r).countP (RxEvent.ends k) = 0 := by
  rcases p with _ | j | ⟨j, f⟩ | ⟨j, f⟩
  · exact ⟨rfl, rfl, rfl, rfl, rfl⟩
  · exact ⟨rfl, rfl, rfl, rfl, rfl⟩
  · simp [PollTask.events, received, RxEvent.received?, RxEvent.ends]
  · exact ⟨rfl, rfl, rfl, rfl, rfl⟩

/-- **The poll task takes a step.** -/
theorem Exact.poll (h : s.Exact) (i : IfaceId) : Exact { s with
    sys := { s.sys with
      shared := (s.sys.poll.step i s.sys.shared).2
      poll := (s.sys.poll.step i s.sys.shared).1 }
    log := s.log ++ s.sys.poll.events s.sys.shared } := by
  have hslab := s.sys.poll.slab_step s.sys.shared i
  have hcontents (l : List (Fin poolSz)) :
      (s.sys.poll.step i s.sys.shared).2.contents l = s.sys.shared.contents l := by
    rw [RxState.contents, RxState.contents, hslab]
  have hquiet := quiet_poll s.sys.poll s.sys.shared
  refine ⟨h.conserved.step (.poll i), fun j => ?_, fun j => ?_, ?_, ?_, ?_, fun k => ?_⟩
  · rw [hcontents]
    simp only [logged_append, (hquiet j 0).2.1, (hquiet j 0).2.2.1, (hquiet j 0).2.2.2.1, List.append_nil]
    exact h.sent j
  · have hqueue := s.sys.poll.queue_step s.sys.shared i j
    rw [List.append_assoc] at hqueue
    rw [hcontents, hcontents]
    simp only [logged_append, (hquiet j 0).2.2.1, List.append_nil, List.append_assoc]
    rw [hqueue, ← List.append_assoc]
    exact h.fifo j
  · rw [received_append, (hquiet i 0).1, List.append_nil]
    exact h.length
  · rw [hslab, received_append, (hquiet i 0).1, List.append_nil]
    exact h.carries
  · intro stage k j data he
    rw [received_append, (hquiet i 0).1, List.append_nil]
    rw [List.mem_append] at he
    obtain he | he := he
    · exact h.own stage k j data he
    · obtain ⟨j', data', heq⟩ := s.sys.poll.mem_events s.sys.shared he
      cases heq
  · rw [List.countP_append, (hquiet i k).2.2.2.2]
    exact h.ends k

/-- **Every step keeps them in agreement.** -/
theorem Exact.step (h : s.Exact) (hs : RxPathStep s s') : s'.Exact := by
  obtain ⟨iface, buf⟩ | ⟨k, c, hk⟩ | ⟨i⟩ | ⟨i, b⟩ := hs
  · exact h.receive iface buf
  · exact h.callback hk
  · exact h.poll i
  · exact ⟨h.conserved.step (.enable i b), h.sent, h.fifo, h.length, h.carries, h.own, h.ends⟩

theorem exact_of_run {slab : Fin poolSz → NetFrame}
    (h : Relation.ReflTransGen RxPathStep (init poolSz depth slab) s) : s.Exact := by
  induction h with
  | refl => exact exact_init poolSz depth slab
  | tail _ hstep ih => exact ih.step hstep

/-! ## The receive path -/

end RxPath

section Runs

variable {slab : Fin poolSz → NetFrame} {s : RxPath poolSz depth}

/-- **Received frames are delivered in order, once and unaltered.**  However callbacks and poll task
interleave, what an interface's queue took is what the poll task has read, what it holds unread and what is
in the queue, in this order; whatever is logged of a callback is the buffer it was called with; and a callback
gets no frame, is refused, has its frame queued or has it dropped, once. -/
theorem rxPath_delivers (h : Relation.ReflTransGen RxPathStep (.init poolSz depth slab) s) :
    (∀ i, logged .queued i s.log = logged .handed i s.log ++
      s.sys.shared.contents (s.sys.poll.unread i) ++ s.sys.shared.contents (s.sys.shared.rxQ i).items) ∧
    (∀ stage k i data, .moved stage (some k) i data ∈ s.log → (received s.log)[k]? = some data) ∧
    ∀ k, s.log.countP (RxEvent.ends k) = if s.sys.callbacks[k]?.any RxCallback.decided then 1 else 0 :=
  ⟨(RxPath.exact_of_run h).fifo, (RxPath.exact_of_run h).own, (RxPath.exact_of_run h).ends⟩

/-- Two frames are received and posted, the second while the first is copied; the poll task reads the first. -/
theorem rxPath_delivers_two : ∃ s : RxPath 2 2,
    Relation.ReflTransGen RxPathStep (.init 2 2 fun _ => { data := [] }) s ∧
      logged .queued .eth s.log = [[7], [8, 9]] ∧ logged .handed .eth s.log = [[7]] ∧
      logged .queued .eth s.log = logged .handed .eth s.log ++
        s.sys.shared.contents (s.sys.poll.unread .eth) ++ s.sys.shared.contents (s.sys.shared.rxQ .eth).items := by
  have hcalled : Relation.ReflTransGen RxPathStep (RxPath.init 2 2 fun _ => { data := [] }) _ :=
    ((((Relation.ReflTransGen.single (.enable .eth true)).tail (.receive 0 [7])).tail
      (.callback 0 _ rfl)).tail (.receive 0 [8, 9])).tail (.callback 1 _ rfl)
  have hsent := (((((hcalled.tail (.callback 0 _ rfl)).tail (.callback 0 _ rfl)).tail (.callback 0 _ rfl)).tail
    (.callback 1 _ rfl)).tail (.callback 1 _ rfl)).tail (.callback 1 _ rfl)
  have hrun := ((hsent.tail (.poll .eth)).tail (.poll .eth)).tail (.poll .eth)
  exact ⟨_, hrun, rfl, rfl, (rxPath_delivers hrun).1 .eth⟩

end Runs

end EspSmoltcp
