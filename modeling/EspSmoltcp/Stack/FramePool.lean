import EspSmoltcp.Machinery.Fifo
import EspSmoltcp.Machinery.Ledger
import EspSmoltcp.World
import Mathlib.Logic.Relation

/-!
# Stack/FramePool — the frames of the receive path

Received frames travel in a fixed slab.  A driver callback takes a frame from the free queue, fills it and
posts it to an interface's queue; the poll task takes it from there, hands it on and frees it.  Every drop
path frees the frame it holds.

Callbacks and the poll task interleave at their queue operations, each of which is atomic.  A frame is always
in one place (`Conserved`), so the free queue has room for whatever a task is about to free.
-/

namespace EspSmoltcp

/-! ## The shared state -/

/-- `NET_FRAME_BUF`. -/
def netFrameBuf : ℕ := 1536

/-- What callbacks and poll task share: the slab, its free queue of `POOL_SZ`, the interfaces' queues and
their `enabled` flags. -/
structure RxState (poolSz depth : ℕ) where
  slab : Fin poolSz → NetFrame
  freeQ : Fifo (Fin poolSz) poolSz
  rxQ : IfaceId → Fifo (Fin poolSz) depth
  enabled : IfaceId → Bool

variable {poolSz depth : ℕ}

namespace RxState

/-- The frames that lie in a queue. -/
def queued (r : RxState poolSz depth) : List (Fin poolSz) :=
  r.freeQ.items ++ ((r.rxQ .eth).items ++ (r.rxQ .wifi).items)

/-- Put a queue in place of an interface's. -/
def setRxQ (r : RxState poolSz depth) (i : IfaceId) (q : Fifo (Fin poolSz) depth) : RxState poolSz depth :=
  { r with rxQ := Function.update r.rxQ i q }

end RxState

/-- The loop of `frame_pool_init`. -/
def framePoolInit (poolSz : ℕ) : Fifo (Fin poolSz) poolSz :=
  (List.finRange poolSz).foldl (fun q f => (q.send f).getD q) .empty

/-- `net_frame_alloc`; the length is written with the contents, and failures are counted in `Stack/RxCounters`. -/
def netFrameAlloc (len : ℕ) (r : RxState poolSz depth) : Option (Fin poolSz) × RxState poolSz depth :=
  if netFrameBuf < len then (none, r)
  else match r.freeQ.receive with
    | none => (none, r)
    | some (f, q) =>
      (some f, { r with freeQ := q, slab := Function.update r.slab f { r.slab f with hwTsNs := -1 } })

/-- `net_frame_free`: whether the send succeeded, which the source does not look at. -/
def netFrameFree (f : Fin poolSz) (r : RxState poolSz depth) : Bool × RxState poolSz depth :=
  match r.freeQ.send f with
  | some q => (true, { r with freeQ := q })
  | none => (false, r)

/-! ## The tasks -/

/-- A driver callback between its steps: `eth_input_cb`, and `net_stack_post_rx` inside it.  `iface` is the
interface posted to, which for `eth_input_cb` is `NET_IFACE_ETH`. -/
inductive RxCallback (poolSz : ℕ)
  | start (iface : UInt32) (buf : Bytes)
  | allocated (iface : UInt32) (buf : Bytes) (f : Fin poolSz)
  | posting (iface : UInt32) (f : Fin poolSz)
  | enqueuing (i : IfaceId) (f : Fin poolSz)
  | freeing (f : Fin poolSz)
  | returned

namespace RxCallback

/-- The frame in the hands of a callback. -/
def held : RxCallback poolSz → List (Fin poolSz)
  | start .. | returned => []
  | allocated _ _ f | posting _ f | enqueuing _ f | freeing f => [f]

/-- One step of a callback. -/
def step : RxCallback poolSz → RxState poolSz depth → RxCallback poolSz × RxState poolSz depth
  | start iface buf, r =>
    match netFrameAlloc buf.length r with
    | (none, r) => (returned, r)
    | (some f, r) => (allocated iface buf f, r)
  | allocated iface buf f, r =>
    (posting iface f, { r with slab := Function.update r.slab f { r.slab f with data := buf } })
  | posting iface f, r =>
    match IfaceId.ofCode iface with
    | none => (freeing f, r)
    | some i => if r.enabled i then (enqueuing i f, r) else (freeing f, r)
  | enqueuing i f, r =>
    match (r.rxQ i).send f with
    | some q => (returned, r.setRxQ i q)
    | none => (freeing f, r)
  | freeing f, r => (returned, (netFrameFree f r).2)
  | returned, r => (returned, r)

end RxCallback

/-- The poll task between its steps, in the drain loop of `poll_iface`. -/
inductive PollTask (poolSz : ℕ)
  | elsewhere
  | draining (i : IfaceId)
  /-- `dispatch_tap` or `smoltcp_iface_rx` is about to read the frame. -/
  | holding (i : IfaceId) (f : Fin poolSz)
  | freeing (i : IfaceId) (f : Fin poolSz)

namespace PollTask

/-- The frame in the hands of the poll task. -/
def held : PollTask poolSz → List (Fin poolSz)
  | elsewhere | draining _ => []
  | holding _ f | freeing _ f => [f]

/-- One step of the poll task; `i` is the interface it turns to next. -/
def step (i : IfaceId) : PollTask poolSz → RxState poolSz depth → PollTask poolSz × RxState poolSz depth
  | elsewhere, r => (if r.enabled i then draining i else elsewhere, r)
  | draining j, r =>
    match (r.rxQ j).receive with
    | none => (elsewhere, r)
    | some (f, q) => (holding j f, r.setRxQ j q)
  | holding j f, r => (freeing j f, r)
  | freeing j f, r => (draining j, (netFrameFree f r).2)

end PollTask

/-! ## The system -/

/-- The shared state, any number of callbacks, and the poll task. -/
structure RxSystem (poolSz depth : ℕ) where
  shared : RxState poolSz depth
  callbacks : List (RxCallback poolSz)
  poll : PollTask poolSz

/-- `net_stack_init`: every frame free, the interfaces' queues empty. -/
def RxSystem.init (poolSz depth : ℕ) (slab : Fin poolSz → NetFrame) : RxSystem poolSz depth where
  shared :=
    { slab := slab, freeQ := framePoolInit poolSz, rxQ := fun _ => .empty, enabled := fun _ => false }
  callbacks := []
  poll := .elsewhere

/-- One step of the system. -/
inductive RxStep (s : RxSystem poolSz depth) : RxSystem poolSz depth → Prop
  /-- A driver receives a frame. -/
  | receive (iface : UInt32) (buf : Bytes) :
      RxStep s { s with callbacks := s.callbacks ++ [.start iface buf] }
  | callback (k : ℕ) (c : RxCallback poolSz) (hk : s.callbacks[k]? = some c) :
      RxStep s { s with shared := (c.step s.shared).2, callbacks := s.callbacks.set k (c.step s.shared).1 }
  | poll (i : IfaceId) :
      RxStep s { s with shared := (s.poll.step i s.shared).2, poll := (s.poll.step i s.shared).1 }
  /-- An interface is attached, or an attach fails. -/
  | enable (i : IfaceId) (b : Bool) :
      RxStep s { s with shared := { s.shared with enabled := Function.update s.shared.enabled i b } }

/-! ## Where the frames are -/

namespace RxState

variable (r : RxState poolSz depth)

/-- What one interface's queue contributes, apart from the rest. -/
theorem perm_queued (i : IfaceId) : ∃ rest, r.queued.Perm ((r.rxQ i).items ++ rest) ∧
    ∀ q, (r.setRxQ i q).queued.Perm (q.items ++ rest) := by
  cases i with
  | eth =>
    refine ⟨r.freeQ.items ++ (r.rxQ .wifi).items, List.perm_append_comm_assoc .., fun q => ?_⟩
    exact List.perm_append_comm_assoc ..
  | wifi =>
    refine ⟨r.freeQ.items ++ (r.rxQ .eth).items, ?_, fun q => ?_⟩
    · rw [queued, ← List.append_assoc]
      exact List.perm_append_comm
    · rw [queued, ← List.append_assoc]
      exact List.perm_append_comm

/-- A frame is posted. -/
theorem perm_queued_send {i : IfaceId} {f : Fin poolSz} {q : Fifo (Fin poolSz) depth}
    (h : (r.rxQ i).send f = some q) : (r.setRxQ i q).queued.Perm (f :: r.queued) := by
  obtain ⟨rest, hold, hnew⟩ := r.perm_queued i
  refine (hnew q).trans ?_
  rw [Fifo.items_send h, List.append_assoc]
  exact List.perm_middle.trans (hold.symm.cons f)

/-- A frame is taken from an interface's queue. -/
theorem perm_queued_receive {i : IfaceId} {f : Fin poolSz} {q : Fifo (Fin poolSz) depth}
    (h : (r.rxQ i).receive = some (f, q)) : (f :: (r.setRxQ i q).queued).Perm r.queued := by
  obtain ⟨rest, hold, hnew⟩ := r.perm_queued i
  refine ((hnew q).cons f).trans ?_
  rw [Fifo.items_receive h] at hold
  exact hold.symm

end RxState

section Steps

variable (r : RxState poolSz depth)

/-- **Freeing never fails while somebody holds a frame.** -/
theorem netFrameFree_of_room (f : Fin poolSz) (hroom : r.queued.length < poolSz) :
    (netFrameFree f r).1 = true ∧ (netFrameFree f r).2.queued.Perm (f :: r.queued) := by
  have hlt : r.freeQ.items.length < poolSz := by
    rw [RxState.queued, List.length_append] at hroom
    omega
  obtain ⟨q, hq, hitems⟩ := Fifo.send_of_lt hlt f
  rw [netFrameFree, hq]
  refine ⟨rfl, ?_⟩
  rw [RxState.queued, RxState.queued, hitems, List.append_assoc]
  exact List.perm_middle

/-- A frame is allocated, or none. -/
theorem perm_netFrameAlloc (len : ℕ) :
    ((netFrameAlloc len r).1.toList ++ (netFrameAlloc len r).2.queued).Perm r.queued := by
  rw [netFrameAlloc]
  split_ifs
  · exact List.Perm.refl _
  · rcases hq : r.freeQ.receive with _ | ⟨f, q⟩
    · exact List.Perm.refl _
    · have hitems := Fifo.items_receive hq
      rw [RxState.queued, RxState.queued, hitems]
      exact List.Perm.refl _

/-- **A callback's step neither loses a frame nor makes one.** -/
theorem RxCallback.perm_step (c : RxCallback poolSz) (hroom : c.held.length + r.queued.length ≤ poolSz) :
    ((c.step r).1.held ++ (c.step r).2.queued).Perm (c.held ++ r.queued) := by
  rcases c with ⟨iface, buf⟩ | ⟨iface, buf, f⟩ | ⟨iface, f⟩ | ⟨i, f⟩ | f | _
  · have halloc := perm_netFrameAlloc r buf.length
    rw [step]
    rcases ha : netFrameAlloc buf.length r with ⟨_ | f, r'⟩
    · rw [ha] at halloc
      exact halloc
    · rw [ha] at halloc
      exact halloc
  · exact List.Perm.refl _
  · rw [step]
    rcases IfaceId.ofCode iface with _ | i
    · exact List.Perm.refl _
    · dsimp only
      split_ifs
      · exact List.Perm.refl _
      · exact List.Perm.refl _
  · rw [step]
    rcases hq : (r.rxQ i).send f with _ | q
    · exact List.Perm.refl _
    · exact r.perm_queued_send hq
  · rw [held, List.length_singleton] at hroom
    exact (netFrameFree_of_room r f (by omega)).2
  · exact List.Perm.refl _

/-- **Nor does a step of the poll task.** -/
theorem PollTask.perm_step (i : IfaceId) (p : PollTask poolSz)
    (hroom : p.held.length + r.queued.length ≤ poolSz) :
    ((p.step i r).1.held ++ (p.step i r).2.queued).Perm (p.held ++ r.queued) := by
  rcases p with _ | j | ⟨j, f⟩ | ⟨j, f⟩
  · rw [step]
    split_ifs
    · exact List.Perm.refl _
    · exact List.Perm.refl _
  · rw [step]
    rcases hq : (r.rxQ j).receive with _ | ⟨f, q⟩
    · exact List.Perm.refl _
    · exact r.perm_queued_receive hq
  · exact List.Perm.refl _
  · rw [held, List.length_singleton] at hroom
    exact (netFrameFree_of_room r f (by omega)).2

end Steps

/-! ## Conservation -/

namespace RxSystem

/-- All the places a frame can be in, one after the other. -/
def places (s : RxSystem poolSz depth) : List (Fin poolSz) :=
  s.shared.queued ++ (s.callbacks.flatMap RxCallback.held ++ s.poll.held)

/-- The places hold every frame of the slab, once. -/
structure Conserved (s : RxSystem poolSz depth) : Prop where
  perm : s.places.Perm (List.finRange poolSz)

variable {s s' : RxSystem poolSz depth}

theorem items_framePoolInit (poolSz : ℕ) : (framePoolInit poolSz).items = List.finRange poolSz := by
  have key : ∀ (l : List (Fin poolSz)) (q : Fifo (Fin poolSz) poolSz), q.items.length + l.length ≤ poolSz →
      (l.foldl (fun q f => (q.send f).getD q) q).items = q.items ++ l := by
    intro l
    induction l with
    | nil =>
      intro q _
      exact (List.append_nil _).symm
    | cons f l ih =>
      intro q hle
      rw [List.length_cons] at hle
      obtain ⟨q', hq', hitems⟩ := Fifo.send_of_lt (q := q) (by omega) f
      rw [List.foldl_cons, hq', Option.getD_some, ih q' (by rw [hitems, List.length_append]; simp; omega),
        hitems, List.append_assoc]
      rfl
  rw [framePoolInit, key _ _ (by simp [Fifo.empty])]
  rfl

theorem conserved_init (poolSz depth : ℕ) (slab : Fin poolSz → NetFrame) :
    (init poolSz depth slab).Conserved := by
  refine ⟨?_⟩
  change ((framePoolInit poolSz).items ++ ([] ++ []) ++ ([] ++ [])).Perm _
  rw [items_framePoolInit]
  simp

theorem Conserved.length (h : s.Conserved) : s.places.length = poolSz := by
  rw [h.perm.length_eq, List.length_finRange]

/-- What a callback and the queues hold, apart from the rest. -/
theorem perm_places_callback {k : ℕ} {c : RxCallback poolSz} (hk : s.callbacks[k]? = some c) :
    ∃ rest, s.places.Perm (c.held ++ s.shared.queued ++ rest) ∧
      ∀ (c' : RxCallback poolSz) (r' : RxState poolSz depth),
        (places { s with shared := r', callbacks := s.callbacks.set k c' }).Perm
          (c'.held ++ r'.queued ++ rest) := by
  obtain ⟨rest, hold, hnew⟩ := perm_flatMap_set s.callbacks RxCallback.held hk
  have key : ∀ (q c l : List (Fin poolSz)), l.Perm (c ++ rest) →
      (q ++ (l ++ s.poll.held)).Perm (c ++ q ++ (rest ++ s.poll.held)) := by
    intro q c l hl
    refine ((hl.append_right _).append_left q).trans (List.perm_iff_count.mpr fun f => ?_)
    simp only [List.count_append]
    omega
  exact ⟨rest ++ s.poll.held, key _ _ _ hold, fun c' r' => key _ _ _ (hnew c')⟩

/-- What the poll task and the queues hold, apart from the rest. -/
theorem perm_places_poll (s : RxSystem poolSz depth) (p' : PollTask poolSz) (r' : RxState poolSz depth) :
    (places { s with shared := r', poll := p' }).Perm
      (p'.held ++ r'.queued ++ s.callbacks.flatMap RxCallback.held) := by
  refine List.perm_iff_count.mpr fun f => ?_
  simp only [places, List.count_append]
  omega

/-- A step that trades what one task and the queues hold for as much conserves the frames. -/
theorem Conserved.trade (h : s.Conserved) {held held' rest : List (Fin poolSz)}
    {r' : RxState poolSz depth} (hold : s.places.Perm (held ++ s.shared.queued ++ rest))
    (hnew : s'.places.Perm (held' ++ r'.queued ++ rest))
    (hstep : held.length + s.shared.queued.length ≤ poolSz →
      (held' ++ r'.queued).Perm (held ++ s.shared.queued)) : s'.Conserved := by
  have hlen := h.length
  rw [hold.length_eq, List.length_append, List.length_append] at hlen
  exact ⟨hnew.trans (((hstep (by omega)).append_right rest).trans (hold.symm.trans h.perm))⟩

/-- **Every step conserves the frames.** -/
theorem Conserved.step (h : s.Conserved) (hs : RxStep s s') : s'.Conserved := by
  obtain ⟨iface, buf⟩ | ⟨k, c, hk⟩ | ⟨i⟩ | ⟨i, b⟩ := hs
  · refine ⟨?_⟩
    rw [places, List.flatMap_append]
    simpa [places, RxCallback.held] using h.perm
  · obtain ⟨rest, hold, hnew⟩ := perm_places_callback hk
    exact h.trade hold (hnew _ _) (c.perm_step s.shared)
  · exact h.trade (s.perm_places_poll s.poll s.shared) (s.perm_places_poll _ _)
      (s.poll.perm_step s.shared i)
  · exact ⟨h.perm⟩

theorem conserved_of_run {slab : Fin poolSz → NetFrame}
    (h : Relation.ReflTransGen RxStep (init poolSz depth slab) s) : s.Conserved := by
  induction h with
  | refl => exact conserved_init poolSz depth slab
  | tail _ hstep ih => exact ih.step hstep

/-! ## Exactly one place -/

/-- The places a frame can be in. -/
inductive Place
  | freeQ
  | rxQ (i : IfaceId)
  | callback (k : ℕ)
  | poll
  deriving DecidableEq

/-- The frames in a place. -/
def framesAt (s : RxSystem poolSz depth) : Place → List (Fin poolSz)
  | .freeQ => s.shared.freeQ.items
  | .rxQ i => (s.shared.rxQ i).items
  | .callback k => (s.callbacks[k]?.map RxCallback.held).getD []
  | .poll => s.poll.held

/-- Every place that can hold a frame. -/
def allPlaces (s : RxSystem poolSz depth) : List Place :=
  [.freeQ, .rxQ .eth, .rxQ .wifi] ++ (List.range s.callbacks.length).map .callback ++ [.poll]

/-- The callbacks' places, one by one. -/
theorem flatMap_callbacks (s : RxSystem poolSz depth) :
    (List.range s.callbacks.length).flatMap (fun k => s.framesAt (.callback k)) =
      s.callbacks.flatMap RxCallback.held := by
  rw [List.flatMap_def, List.flatMap_def]
  congr 1
  refine List.ext_getElem (by simp) fun k _ hk => ?_
  simp only [List.length_map] at hk
  simp [framesAt, hk]

theorem places_eq_flatMap (s : RxSystem poolSz depth) : s.places = s.allPlaces.flatMap s.framesAt := by
  rw [allPlaces, List.flatMap_append, List.flatMap_append, List.flatMap_map, flatMap_callbacks]
  simp [places, RxState.queued, framesAt]

/-- A frame is nowhere but in the places listed. -/
theorem mem_allPlaces {x : Place} {f : Fin poolSz} (h : f ∈ s.framesAt x) : x ∈ s.allPlaces := by
  rcases x with _ | i | k | _
  · simp [allPlaces]
  · cases i with
    | eth => simp [allPlaces]
    | wifi => simp [allPlaces]
  · have hk : k < s.callbacks.length := by
      by_contra hk
      rw [framesAt, List.getElem?_eq_none (not_lt.mp hk)] at h
      cases h
    simp [allPlaces, hk]
  · simp [allPlaces]

/-- **Conserved frames are each in one place, and there once.** -/
theorem Conserved.existsUnique (h : s.Conserved) :
    (∀ f, ∃! x, f ∈ s.framesAt x) ∧ ∀ x, (s.framesAt x).Nodup := by
  have hp := h.perm
  rw [places_eq_flatMap] at hp
  obtain ⟨hnodup, hdisj⟩ := List.nodup_flatMap.mp (hp.nodup_iff.mpr (List.nodup_finRange poolSz))
  refine ⟨fun f => ?_, fun x => ?_⟩
  · obtain ⟨x, hx, hf⟩ := List.mem_flatMap.mp (hp.mem_iff.mpr (List.mem_finRange f))
    have hsymm : Std.Symm (Function.onFun List.Disjoint s.framesAt) := ⟨fun _ _ hxy _ ha hb => hxy hb ha⟩
    refine ⟨x, hf, fun y hy => ?_⟩
    by_contra hne
    exact hdisj.forall hx (mem_allPlaces hy) (Ne.symm hne) hf hy
  · by_cases hx : x ∈ s.allPlaces
    · exact hnodup x hx
    · rw [List.eq_nil_iff_forall_not_mem.mpr fun f hf => hx (mem_allPlaces hf)]
      exact List.nodup_nil

/-- A task is about to call `net_frame_free` on a frame. -/
def AboutToFree (s : RxSystem poolSz depth) (f : Fin poolSz) : Prop :=
  .freeing f ∈ s.callbacks ∨ ∃ i, s.poll = .freeing i f

/-- A frame in a task's hands leaves room in the free queue. -/
theorem Conserved.room (h : s.Conserved) {f : Fin poolSz} (hf : s.AboutToFree f) :
    s.shared.queued.length < poolSz := by
  have hlen := h.length
  rw [places, List.length_append, List.length_append] at hlen
  rcases hf with hmem | ⟨i, hpoll⟩
  · have hpos : 0 < (s.callbacks.flatMap RxCallback.held).length :=
      List.length_pos_of_mem (List.mem_flatMap.mpr ⟨_, hmem, List.mem_singleton.mpr rfl⟩)
    omega
  · rw [hpoll, PollTask.held, List.length_singleton] at hlen
    omega

/-- The interfaces' queues are drained and no task holds a frame. -/
structure Quiet (s : RxSystem poolSz depth) : Prop where
  rxQ : ∀ i, (s.shared.rxQ i).items = []
  callbacks : ∀ c ∈ s.callbacks, c.held = []
  poll : s.poll.held = []

/-- **When all is quiet, every frame is free.** -/
theorem Conserved.freeQ (h : s.Conserved) (hq : s.Quiet) :
    s.shared.freeQ.items.Perm (List.finRange poolSz) := by
  have hp := h.perm
  rw [places, RxState.queued, hq.rxQ, hq.rxQ, hq.poll, List.flatMap_eq_nil_iff.mpr hq.callbacks] at hp
  simpa using hp

end RxSystem

/-- **Frames of the receive path are neither lost nor duplicated.**  However callbacks and poll task
interleave, every frame of the slab is in exactly one place and there once; a `net_frame_free` that is about
to be called succeeds; and once the queues are drained and no task holds a frame, all are free. -/
theorem frame_conservation {slab : Fin poolSz → NetFrame} {s : RxSystem poolSz depth}
    (h : Relation.ReflTransGen RxStep (.init poolSz depth slab) s) :
    ((∀ f, ∃! x, f ∈ s.framesAt x) ∧ ∀ x, (s.framesAt x).Nodup) ∧
      (∀ f, s.AboutToFree f → (netFrameFree f s.shared).1 = true) ∧
      (s.Quiet → s.shared.freeQ.items.Perm (List.finRange poolSz)) := by
  have hcons := RxSystem.conserved_of_run h
  refine ⟨hcons.existsUnique, fun f hf => ?_, hcons.freeQ⟩
  exact (netFrameFree_of_room s.shared f (hcons.room hf)).1

/-- A frame arrives before the interface is attached: its callback allocates and fills it, and is about to
free it. -/
theorem frame_conservation_refused : ∃ s : RxSystem 1 1,
    Relation.ReflTransGen RxStep (.init 1 1 fun _ => { data := [], hwTsNs := 0 }) s ∧ s.AboutToFree 0 ∧
      (netFrameFree 0 s.shared).1 = true := by
  have hrun : Relation.ReflTransGen RxStep (RxSystem.init 1 1 fun _ => { data := [], hwTsNs := 0 }) _ :=
    (((Relation.ReflTransGen.single (.receive 0 [1])).tail (.callback 0 _ rfl)).tail
      (.callback 0 _ rfl)).tail (.callback 0 _ rfl)
  refine ⟨_, hrun, .inl List.mem_cons_self, ?_⟩
  exact (frame_conservation hrun).2.1 0 (.inl List.mem_cons_self)

end EspSmoltcp
