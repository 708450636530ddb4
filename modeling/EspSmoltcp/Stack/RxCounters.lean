import EspSmoltcp.Machinery.Counters
import EspSmoltcp.Stack.RxPath

/-!
# Stack/RxCounters — the counters of the receive path

    posting ──▸ rx_frames++ ──▸ rx_bytes += len ──▸ enqueuing ──full──▸ rx_drops++ ──▸ freeing

`net_frame_alloc` and `net_stack_post_rx` count without a lock.  Each of these additions is a load and a store, and
between any two of their steps the other callbacks and the poll task may take some.

* `rxCounters_exact` — as long as no two callbacks are at the same counter together, each counter and what is still
  to be added to it are, to its width, the frames read, under way and dropped.
* `rxCounters_lost` — two callbacks at the same counter together can count one frame for both of theirs.
-/

namespace EspSmoltcp

open Relation (ReflTransGen)

variable {poolSz depth : ℕ}

/-- The counters: `rx_frames`, `rx_bytes` and `rx_drops` of an interface, and `s_frame_alloc_fail`. -/
inductive RxCounter
  | frames (i : IfaceId)
  | bytes (i : IfaceId)
  | drops (i : IfaceId)
  | allocFail
  deriving DecidableEq

/-- Their bits. -/
def RxCounter.width : RxCounter → ℕ
  | bytes _ => 64
  | frames _ | drops _ | allocFail => 32

/-- What a callback has to count after a step, before it takes the next. -/
def RxCallback.counts : RxCallback poolSz → RxState poolSz depth → List (RxCounter × ℕ)
  | start _ buf, r =>
    match (netFrameAlloc buf.length r).1 with
    | none => [(.allocFail, 1)]
    | some _ => []
  | posting iface f, r =>
    match IfaceId.ofCode iface with
    | none => []
    | some i => if r.enabled i then [(.frames i, 1), (.bytes i, (r.slab f).data.length)] else []
  | enqueuing i f, r =>
    match (r.rxQ i).send f with
    | some _ => []
    | none => [(.drops i, 1)]
  | allocated .., _ | freeing _, _ | returned, _ => []

/-! ## The system -/

/-- The receive path with its counters; each callback is a task that adds to them. -/
structure RxCounted (poolSz depth : ℕ) where
  path : RxPath poolSz depth
  counters : Counters RxCounter

namespace RxCounted

/-- The path after `net_stack_init`. -/
def init (poolSz depth : ℕ) (slab : Fin poolSz → NetFrame) : RxCounted poolSz depth where
  path := .init poolSz depth slab
  counters := {}

/-- `net_stack_frame_drops`. -/
def netStackFrameDrops (s : RxCounted poolSz depth) : ℕ := s.counters.mem .allocFail

end RxCounted

/-- One step of the path, or of an addition.  A callback goes on once it has counted. -/
inductive RxCountedStep (s : RxCounted poolSz depth) : RxCounted poolSz depth → Prop
  | receive (iface : UInt32) (buf : Bytes) :
      RxCountedStep s {
        path := { s.path with
          sys := { s.path.sys with callbacks := s.path.sys.callbacks ++ [.start iface buf] }
          log := s.path.log ++ [.received buf] }
        counters := { s.counters with adders := s.counters.adders ++ [{}] } }
  | callback (k : ℕ) (c : RxCallback poolSz) (hk : s.path.sys.callbacks[k]? = some c)
      {a : Counters.Adder RxCounter} (ha : s.counters.adders[k]? = some a) (hidle : a.Idle) :
      RxCountedStep s {
        path := {
          sys := { s.path.sys with
            shared := (c.step s.path.sys.shared).2
            callbacks := s.path.sys.callbacks.set k (c.step s.path.sys.shared).1 }
          log := s.path.log ++ c.events k s.path.sys.shared }
        counters := s.counters.setAdder k ⟨none, c.counts s.path.sys.shared⟩ }
  | poll (i : IfaceId) :
      RxCountedStep s { s with path := { s.path with
        sys := { s.path.sys with
          shared := (s.path.sys.poll.step i s.path.sys.shared).2
          poll := (s.path.sys.poll.step i s.path.sys.shared).1 }
        log := s.path.log ++ s.path.sys.poll.events s.path.sys.shared } }
  | enable (i : IfaceId) (b : Bool) :
      RxCountedStep s { s with path := { s.path with
        sys := { s.path.sys with shared :=
          { s.path.sys.shared with enabled := Function.update s.path.sys.shared.enabled i b } } } }
  | count {t : Counters RxCounter} (h : Counters.Step RxCounter.width s.counters t) :
      RxCountedStep s { s with counters := t }

/-- Without the counters it is a step of the path, or none. -/
theorem RxCountedStep.forget {s s' : RxCounted poolSz depth} (h : RxCountedStep s s') :
    s'.path = s.path ∨ RxPathStep s.path s'.path := by
  obtain ⟨iface, buf⟩ | ⟨k, c, hk, -, -⟩ | ⟨i⟩ | ⟨i, b⟩ | - := h
  · exact .inr (.receive iface buf)
  · exact .inr (.callback k c hk)
  · exact .inr (.poll i)
  · exact .inr (.enable i b)
  · exact .inl rfl

/-- A step while no two callbacks are at the same counter. -/
def LoneStep (s s' : RxCounted poolSz depth) : Prop := s.counters.Lone ∧ RxCountedStep s s'

/-! ## What the log says -/

/-- All bytes of some frames. -/
def byteSum (frames : List Bytes) : ℕ := (frames.map List.length).sum

@[simp] theorem byteSum_append (l l' : List Bytes) : byteSum (l ++ l') = byteSum l + byteSum l' := by
  simp [byteSum]

theorem byteSum_perm {l l' : List Bytes} (h : l.Perm l') : byteSum l = byteSum l' := (h.map _).sum_eq

/-- `net_frame_alloc` has failed. -/
def RxEvent.isNoFrame : RxEvent → Bool
  | noFrame _ => true
  | received _ | refused _ | moved .. => false

/-- What the log has for a counter. -/
def counted (log : List RxEvent) : RxCounter → ℕ
  | .frames i => (logged .counted i log).length
  | .bytes i => byteSum (logged .counted i log)
  | .drops i => (logged .dropped i log).length
  | .allocFail => log.countP RxEvent.isNoFrame

theorem counted_append (l l' : List RxEvent) (x : RxCounter) : counted (l ++ l') x = counted l x + counted l' x := by
  cases x with
  | frames i => simp [counted]
  | bytes i => simp [counted]
  | drops i => simp [counted]
  | allocFail => simp [counted]

/-- **A callback counts what it logs.** -/
theorem RxCallback.counted_events (c : RxCallback poolSz) (r : RxState poolSz depth) (k : ℕ) (x : RxCounter) :
    counted (c.events k r) x = (Counters.amounts x (c.counts r)).sum := by
  rcases c with ⟨iface, buf⟩ | ⟨iface, buf, f⟩ | ⟨iface, f⟩ | ⟨j, f⟩ | f | _
  · rw [events, counts]
    rcases (netFrameAlloc buf.length r).1 with _ | f
    · cases x <;> simp [counted, byteSum, RxEvent.isNoFrame]
    · cases x <;> simp [counted, byteSum]
  · cases x <;> rfl
  · rw [events, counts]
    rcases IfaceId.ofCode iface with _ | j
    · cases x <;> simp [counted, byteSum, RxEvent.isNoFrame]
    · dsimp only
      split_ifs
      · rcases x with i | i | i | _
        · simp [counted, apply_ite]
        · by_cases hj : j = i
          · simp [counted, byteSum, hj]
          · simp [counted, byteSum, hj]
        · simp [counted]
        · simp [counted, RxEvent.isNoFrame]
      · cases x <;> simp [counted, byteSum, RxEvent.isNoFrame]
  · rw [events, counts]
    rcases (r.rxQ j).send f with _ | q
    · cases x <;> simp [counted, byteSum, RxEvent.isNoFrame, apply_ite]
    · cases x <;> simp [counted, byteSum, RxEvent.isNoFrame]
  · cases x <;> rfl
  · cases x <;> rfl

/-- The poll task counts nothing. -/
theorem PollTask.counted_events (p : PollTask poolSz) (r : RxState poolSz depth) (x : RxCounter) :
    counted (p.events r) x = 0 := by
  rcases p with _ | j | ⟨j, f⟩ | ⟨j, f⟩
  · cases x <;> rfl
  · cases x <;> rfl
  · cases x <;> simp [events, counted, byteSum, RxEvent.isNoFrame]
  · cases x <;> rfl

/-- **Every step keeps the counters in agreement with the log.** -/
theorem LoneStep.exact {s s' : RxCounted poolSz depth} (hs : LoneStep s s')
    (h : s.counters.Exact RxCounter.width (counted s.path.log)) :
    s'.counters.Exact RxCounter.width (counted s'.path.log) := by
  obtain ⟨hlone, hstep⟩ := hs
  cases hstep with
  | receive iface buf =>
    have hlog : counted (s.path.log ++ [.received buf]) = counted s.path.log := by
      funext x
      rw [counted_append]
      cases x <;> rfl
    change Counters.Exact _ _ (counted (s.path.log ++ [.received buf]))
    rw [hlog]
    exact h.join
  | callback k c hk ha hidle =>
    have hlog : counted (s.path.log ++ c.events k s.path.sys.shared) = fun x =>
        counted s.path.log x + (Counters.amounts x (c.counts s.path.sys.shared)).sum := by
      funext x
      rw [counted_append, c.counted_events]
    change Counters.Exact _ _ (counted (s.path.log ++ c.events k s.path.sys.shared))
    rw [hlog]
    exact h.ask ha hidle _
  | poll i =>
    have hlog : counted (s.path.log ++ s.path.sys.poll.events s.path.sys.shared) = counted s.path.log := by
      funext x
      rw [counted_append, PollTask.counted_events, Nat.add_zero]
    change Counters.Exact _ _ (counted (s.path.log ++ s.path.sys.poll.events s.path.sys.shared))
    rwa [hlog]
  | enable i b => exact h
  | count hcount => exact h.step hlone hcount

/-! ## The receive counters -/

namespace RxPath

/-- What is under way to the poll task on an interface: to be counted and sent, in the queue, or taken and not yet
read. -/
def underWay (s : RxPath poolSz depth) (i : IfaceId) : List Bytes :=
  s.sys.shared.contents (s.sys.poll.unread i) ++ s.sys.shared.contents (s.sys.shared.rxQ i).items ++
    s.sys.shared.contents (s.inFlight i)

/-- What the counters should say. -/
def account (s : RxPath poolSz depth) : RxCounter → ℕ
  | .frames i => (logged .dropped i s.log).length + (logged .handed i s.log).length + (s.underWay i).length
  | .bytes i => byteSum (logged .dropped i s.log) + byteSum (logged .handed i s.log) + byteSum (s.underWay i)
  | .drops i => (logged .dropped i s.log).length
  | .allocFail => s.log.countP RxEvent.isNoFrame

variable {s : RxPath poolSz depth}

/-- A frame that is counted has been read, is under way, or was dropped. -/
theorem Exact.perm_counted (h : s.Exact) (i : IfaceId) : (logged .counted i s.log).Perm
    (logged .handed i s.log ++ s.underWay i ++ logged .dropped i s.log) := by
  refine List.perm_iff_count.mpr fun data => ?_
  have hsent := (h.sent i).count_eq data
  have hfifo := congrArg (List.count data) (h.fifo i)
  simp only [underWay, List.count_append] at *
  omega

theorem Exact.counted_log (h : s.Exact) (x : RxCounter) : counted s.log x = s.account x := by
  cases x with
  | frames i =>
    have hlen := (h.perm_counted i).length_eq
    simp only [counted, account, List.length_append] at hlen ⊢
    omega
  | bytes i =>
    have hbytes := byteSum_perm (h.perm_counted i)
    simp only [counted, account, byteSum_append] at hbytes ⊢
    omega
  | drops i => rfl
  | allocFail => rfl

end RxPath

section Runs

variable {slab : Fin poolSz → NetFrame} {s : RxCounted poolSz depth}

theorem exact_of_loneRun (h : ReflTransGen LoneStep (.init poolSz depth slab) s) :
    s.path.Exact ∧ s.counters.Exact RxCounter.width (counted s.path.log) := by
  induction h with
  | refl =>
    have hzero : counted [] = fun _ => 0 := by
      funext x
      cases x <;> rfl
    refine ⟨RxPath.exact_init poolSz depth slab, ?_⟩
    change Counters.Exact _ {} (counted [])
    rw [hzero]
    exact Counters.exact_start
  | tail _ hstep ih =>
    refine ⟨?_, hstep.exact ih.2⟩
    obtain hsame | hpath := hstep.2.forget
    · rw [hsame]
      exact ih.1
    · exact ih.1.step hpath

/-- **The receive counters are exact as long as no two callbacks are at the same counter together.**  Unless it is
being stored to, a counter and what the callbacks have still to add to it are, to its width, what it should say:
`rx_frames` the frames dropped, read and under way, `rx_bytes` their bytes, `rx_drops` the frames dropped, and
`s_frame_alloc_fail` the callbacks that got no frame.  When nothing is left to add, the counters say it. -/
theorem rxCounters_exact (h : ReflTransGen LoneStep (.init poolSz depth slab) s) (x : RxCounter) :
    (¬ s.counters.Storing x →
      (s.counters.mem x + s.counters.left x) % 2 ^ x.width = s.path.account x % 2 ^ x.width) ∧
    ((∀ a ∈ s.counters.adders, a.Idle) → s.counters.mem x = s.path.account x % 2 ^ x.width) := by
  obtain ⟨hpath, hcounters⟩ := exact_of_loneRun h
  rw [← hpath.counted_log]
  exact ⟨hcounters.balance, fun hidle => hcounters.of_idle hidle x⟩

end Runs

/-- Two frames for a queue of one, one after the other: both are counted, and the second as dropped. -/
theorem rxCounters_exact_full : ∃ s : RxCounted 2 1,
    ReflTransGen LoneStep (.init 2 1 fun _ => { data := [] }) s ∧ s.counters.mem (.drops .eth) = 1 ∧
      s.counters.mem (.bytes .eth) = s.path.account (.bytes .eth) % 2 ^ 64 := by
  have hposted : ReflTransGen LoneStep (RxCounted.init 2 1 fun _ => { data := [] }) _ :=
    ((((ReflTransGen.single ⟨by decide, .enable .eth true⟩).tail ⟨by decide, .receive 0 [7]⟩).tail
      ⟨by decide, .callback 0 _ rfl rfl ⟨rfl, rfl⟩⟩).tail ⟨by decide, .callback 0 _ rfl rfl ⟨rfl, rfl⟩⟩).tail
      ⟨by decide, .callback 0 _ rfl rfl ⟨rfl, rfl⟩⟩
  have hcounted := (((((hposted.tail ⟨by decide, .count (.begin (k := 0) rfl)⟩).tail
    ⟨by decide, .count (.load (k := 0) rfl)⟩).tail ⟨by decide, .count (.store (k := 0) rfl)⟩).tail
    ⟨by decide, .count (.begin (k := 0) rfl)⟩).tail ⟨by decide, .count (.load (k := 0) rfl)⟩).tail
    ⟨by decide, .count (.store (k := 0) rfl)⟩
  have hsecond := ((((hcounted.tail ⟨by decide, .callback 0 _ rfl rfl ⟨rfl, rfl⟩⟩).tail
    ⟨by decide, .receive 0 [8, 9]⟩).tail ⟨by decide, .callback 1 _ rfl rfl ⟨rfl, rfl⟩⟩).tail
    ⟨by decide, .callback 1 _ rfl rfl ⟨rfl, rfl⟩⟩).tail ⟨by decide, .callback 1 _ rfl rfl ⟨rfl, rfl⟩⟩
  have hagain := (((((hsecond.tail ⟨by decide, .count (.begin (k := 1) rfl)⟩).tail
    ⟨by decide, .count (.load (k := 1) rfl)⟩).tail ⟨by decide, .count (.store (k := 1) rfl)⟩).tail
    ⟨by decide, .count (.begin (k := 1) rfl)⟩).tail ⟨by decide, .count (.load (k := 1) rfl)⟩).tail
    ⟨by decide, .count (.store (k := 1) rfl)⟩
  have hrun := (((hagain.tail ⟨by decide, .callback 1 _ rfl rfl ⟨rfl, rfl⟩⟩).tail
    ⟨by decide, .count (.begin (k := 1) rfl)⟩).tail ⟨by decide, .count (.load (k := 1) rfl)⟩).tail
    ⟨by decide, .count (.store (k := 1) rfl)⟩
  refine ⟨_, hrun, rfl, (rxCounters_exact hrun (.bytes .eth)).2 ?_⟩
  exact List.forall_mem_cons.mpr ⟨⟨rfl, rfl⟩, List.forall_mem_singleton.mpr ⟨rfl, rfl⟩⟩

/-- **Two callbacks at the same counter together can lose a frame**: both load `rx_frames` before either stores it. -/
theorem rxCounters_lost : ∃ s : RxCounted 2 2,
    ReflTransGen RxCountedStep (.init 2 2 fun _ => { data := [] }) s ∧
      (∀ a ∈ s.counters.adders, a.Idle) ∧ s.counters.mem (.frames .eth) = 1 ∧ s.path.account (.frames .eth) = 2 := by
  have hposted : ReflTransGen RxCountedStep (RxCounted.init 2 2 fun _ => { data := [] }) _ :=
    ((((((((ReflTransGen.single (.enable .eth true)).tail (.receive 0 [7])).tail (.receive 0 [8])).tail
      (.callback 0 _ rfl rfl ⟨rfl, rfl⟩)).tail (.callback 0 _ rfl rfl ⟨rfl, rfl⟩)).tail
      (.callback 0 _ rfl rfl ⟨rfl, rfl⟩)).tail (.callback 1 _ rfl rfl ⟨rfl, rfl⟩)).tail
      (.callback 1 _ rfl rfl ⟨rfl, rfl⟩)).tail (.callback 1 _ rfl rfl ⟨rfl, rfl⟩)
  have hframes := (((((hposted.tail (.count (.begin (k := 0) rfl))).tail (.count (.begin (k := 1) rfl))).tail
    (.count (.load (k := 0) rfl))).tail (.count (.load (k := 1) rfl))).tail
    (.count (.store (k := 0) rfl))).tail (.count (.store (k := 1) rfl))
  have hbytes := (((((hframes.tail (.count (.begin (k := 0) rfl))).tail (.count (.load (k := 0) rfl))).tail
    (.count (.store (k := 0) rfl))).tail (.count (.begin (k := 1) rfl))).tail
    (.count (.load (k := 1) rfl))).tail (.count (.store (k := 1) rfl))
  refine ⟨_, hbytes, ?_, rfl, rfl⟩
  exact List.forall_mem_cons.mpr ⟨⟨rfl, rfl⟩, List.forall_mem_singleton.mpr ⟨rfl, rfl⟩⟩

end EspSmoltcp
