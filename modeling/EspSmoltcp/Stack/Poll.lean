import EspSmoltcp.Smoltcp.Reference
import EspSmoltcp.World

/-!
# Stack/Poll — received frames through `poll_iface`

`poll_iface` drains the interface's queue: a frame whose EtherType has a tap goes to that tap's
callback, every other one is pushed into the device's inbox.  Only then is smoltcp polled, and it
pulls the inbox through `Device::receive`.

The inbox has one slot and the drain does not poll in between, so of the untapped frames of one
call smoltcp sees the first and no other: `noFrameLost_iff`.
-/

namespace EspSmoltcp

variable {S : Smoltcp}

/-! ## The tap table -/

/-- The EtherType of a frame of at least 14 bytes. -/
def ethertypeOf (f : NetFrame) : UInt16 :=
  (f.data.getD 12 0).toUInt16 <<< 8 ||| (f.data.getD 13 0).toUInt16

/-- A tap callback being called. -/
structure TapCall where
  cb : TapCb
  user : ℕ
  iface : IfaceId
  frame : NetFrame
  deriving DecidableEq

/-- `dispatch_tap`: the call it makes, `none` if it returns false. -/
def dispatchTap (taps : List L2Tap) (i : IfaceId) (f : NetFrame) : Option TapCall :=
  if f.data.length < 14 then none
  else taps.findSome? fun t =>
    if t.ethertype = ethertypeOf f then t.cb.map fun cb => ⟨cb, t.user, i, f⟩ else none

/-- A tap callback is registered for the frame's EtherType. -/
def Tapped (taps : List L2Tap) (f : NetFrame) : Prop :=
  14 ≤ f.data.length ∧ ∃ t ∈ taps, t.ethertype = ethertypeOf f ∧ t.cb.isSome = true

instance (taps : List L2Tap) : DecidablePred (Tapped taps) := fun _ =>
  inferInstanceAs (Decidable (_ ∧ _))

/-- The callback, its argument and the frame of a call are those of a matching tap. -/
def TapCall.Matches (taps : List L2Tap) (i : IfaceId) (c : TapCall) : Prop :=
  c.iface = i ∧ ∃ t ∈ taps, t.ethertype = ethertypeOf c.frame ∧ t.cb = some c.cb ∧ t.user = c.user

/-- What a call of `dispatch_tap` that returns true did. -/
theorem of_dispatchTap_some {taps : List L2Tap} {i : IfaceId} {f : NetFrame} {c : TapCall}
    (h : dispatchTap taps i f = some c) : Tapped taps f ∧ c.frame = f ∧ c.Matches taps i := by
  unfold dispatchTap at h
  split_ifs at h with hlen
  obtain ⟨t, ht, hc⟩ := List.exists_of_findSome?_eq_some h
  split_ifs at hc with het
  obtain ⟨cb, hcb, rfl⟩ := Option.map_eq_some_iff.mp hc
  exact ⟨⟨not_lt.mp hlen, t, ht, het, by simp [hcb]⟩, rfl, rfl, t, ht, het, hcb, rfl⟩

/-- **`dispatch_tap` returns true exactly on the tapped frames.** -/
theorem dispatchTap_eq_none_iff {taps : List L2Tap} {i : IfaceId} {f : NetFrame} :
    dispatchTap taps i f = none ↔ ¬ Tapped taps f := by
  constructor
  · rintro h ⟨hlen, t, ht, het, hcb⟩
    rw [dispatchTap, if_neg (not_lt.mpr hlen), List.findSome?_eq_none_iff] at h
    have := h t ht
    simp only [het, if_true, Option.map_eq_none_iff] at this
    simp [this] at hcb
  · intro h
    by_contra hne
    obtain ⟨c, hc⟩ := Option.ne_none_iff_exists'.mp hne
    exact h (of_dispatchTap_some hc).1

/-! ## One call -/

/-- The drain loop of `poll_iface`, on the frames `xQueueReceive` returns in this call. -/
def drainRx (taps : List L2Tap) (i : IfaceId) :
    List NetFrame → IfaceCtx S → List TapCall × IfaceCtx S
  | [], ctx => ([], ctx)
  | f :: q, ctx =>
    match dispatchTap taps i f with
    | some call =>
      let (calls, ctx) := drainRx taps i q ctx
      (call :: calls, ctx)
    | none => drainRx taps i q (smoltcpIfaceRx ctx f.data)

/-- `poll_iface` as far as received frames go: it makes these tap calls, and in the
`smoltcp_iface_poll` that follows smoltcp pulls these frames. -/
inductive PollRx (w : World S) (i : IfaceId) : List TapCall → List Bytes → Prop
  | poll {ctx : IfaceCtx S} {rxs : List Bytes} {dev' : EspDevice} {pool' : TxPool}
      (hctx : w.ctx i = some ctx)
      (hrun : DeviceRun (drainRx w.taps i (w.ifaces i).rxQueue ctx).2.dev w.txPool rxs dev' pool') :
      PollRx w i (drainRx w.taps i (w.ifaces i).rxQueue ctx).1 rxs

/-- The drain taps the tapped frames… -/
theorem drainRx_calls (taps : List L2Tap) (i : IfaceId) (q : List NetFrame) (ctx : IfaceCtx S) :
    (drainRx taps i q ctx).1 = q.filterMap (dispatchTap taps i) := by
  induction q generalizing ctx with
  | nil => rfl
  | cons f q ih =>
    cases h : dispatchTap taps i f with
    | none => rw [drainRx, h, List.filterMap_cons_none h]; exact ih _
    | some c => rw [drainRx, h, List.filterMap_cons_some h]; exact congrArg (c :: ·) (ih ctx)

/-- …and pushes the others into the inbox, in order. -/
theorem drainRx_dev (taps : List L2Tap) (i : IfaceId) (q : List NetFrame) (ctx : IfaceCtx S) :
    (drainRx taps i q ctx).2.dev
      = ((q.filter fun f => ¬ Tapped taps f).map NetFrame.data).foldl EspDevice.pushRx ctx.dev := by
  induction q generalizing ctx with
  | nil => rfl
  | cons f q ih =>
    cases h : dispatchTap taps i f with
    | none =>
      have hf : ¬ Tapped taps f := dispatchTap_eq_none_iff.mp h
      rw [drainRx, h, List.filter_cons_of_pos (by simpa using hf)]
      exact ih _
    | some c =>
      have hf : Tapped taps f := (of_dispatchTap_some h).1
      rw [drainRx, h, List.filter_cons_of_neg (by simpa using hf)]
      exact ih ctx

/-! ## No frame is lost — when there is at most one to lose -/

/-- Every dequeued frame went to exactly one matching tap, or to smoltcp unchanged and in queue
order. -/
structure NoFrameLost (w : World S) (i : IfaceId) (calls : List TapCall) (rxs : List Bytes) :
    Prop where
  tapped : calls.map TapCall.frame = (w.ifaces i).rxQueue.filter fun f => Tapped w.taps f
  matching : ∀ c ∈ calls, c.Matches w.taps i
  handed : rxs = ((w.ifaces i).rxQueue.filter fun f => ¬ Tapped w.taps f).map NetFrame.data

/-- The tapped frames are never lost. -/
theorem map_frame_filterMap_dispatchTap (taps : List L2Tap) (i : IfaceId) (q : List NetFrame) :
    (q.filterMap (dispatchTap taps i)).map TapCall.frame = q.filter fun f => Tapped taps f := by
  induction q with
  | nil => rfl
  | cons f q ih =>
    cases h : dispatchTap taps i f with
    | none =>
      have hf : ¬ Tapped taps f := dispatchTap_eq_none_iff.mp h
      rw [List.filterMap_cons_none h, List.filter_cons_of_neg (by simpa using hf), ih]
    | some c =>
      obtain ⟨hf, rfl, -⟩ := of_dispatchTap_some h
      rw [List.filterMap_cons_some h, List.filter_cons_of_pos (by simpa using hf), List.map_cons,
        ih]

/-- **One call of `poll_iface` loses no frame exactly when its queue holds at most one untapped
frame.** -/
theorem noFrameLost_iff {w : World S} {i : IfaceId} {calls : List TapCall} {rxs : List Bytes}
    (h : PollRx w i calls rxs) (hempty : ∀ ctx, w.ctx i = some ctx → ctx.dev.rxInbox = none)
    (hfree : w.txPool.freeMask ≠ 0#32) :
    NoFrameLost w i calls rxs
      ↔ ((w.ifaces i).rxQueue.filter fun f => ¬ Tapped w.taps f).length ≤ 1 := by
  obtain ⟨hctx, hrun⟩ := h
  rename_i ctx dev' pool'
  set untapped := (w.ifaces i).rxQueue.filter fun f => ¬ Tapped w.taps f with hU
  -- smoltcp is handed the first untapped frame, if there is one.
  have hrxs : rxs = (untapped.map NetFrame.data).head?.toList := by
    rw [hrun.frames_eq hfree, drainRx_dev, EspDevice.rxInbox_foldl_pushRx, hempty ctx hctx,
      Option.none_or]
  have hcalls := drainRx_calls w.taps i (w.ifaces i).rxQueue ctx
  constructor
  · intro hn
    have hlen := congrArg List.length (hrxs.symm.trans hn.handed)
    rw [← hU, List.length_map] at hlen
    rw [← hlen]
    cases (untapped.map NetFrame.data).head? <;> simp
  · intro hle
    refine ⟨?_, fun c hc => ?_, ?_⟩
    · rw [hcalls, map_frame_filterMap_dispatchTap]
    · rw [hcalls, List.mem_filterMap] at hc
      obtain ⟨f, -, hf⟩ := hc
      exact (of_dispatchTap_some hf).2.2
    · rw [hrxs, ← hU]
      rcases untapped with _ | ⟨f, _ | ⟨g, rest⟩⟩
      · rfl
      · rfl
      · simp at hle

/-! ### Two frames in the queue -/

/-- An IPv4 frame carrying one distinguishing byte. -/
def ipv4Frame (b : UInt8) : NetFrame := { data := List.replicate 12 0xFF ++ [0x08, 0x00, b] }

/-- An attached interface with the given frames in its queue and no tap registered. -/
def queued (frames : List NetFrame) : World .reference :=
  let w := (World.boot .default).attach .eth fun _ => 0
  { w with ifaces := Function.update w.ifaces .eth { w.ifaces .eth with rxQueue := frames } }

theorem ctx_queued (frames : List NetFrame) :
    (queued frames).ctx .eth = some (.new 0 fun _ => 0) := rfl

/-- The poll of an interface with two untapped frames hands over the first only. -/
theorem pollRx_two : PollRx (queued [ipv4Frame 1, ipv4Frame 2]) .eth [] [(ipv4Frame 1).data] :=
  .poll (ctx_queued _) (.frame rfl (.done rfl))

/-- **A burst of two loses the second frame.** -/
theorem burst_of_two_loses_frame : ∃ calls rxs,
    PollRx (queued [ipv4Frame 1, ipv4Frame 2]) .eth calls rxs ∧
      ¬ NoFrameLost (queued [ipv4Frame 1, ipv4Frame 2]) .eth calls rxs := by
  refine ⟨_, _, pollRx_two, fun h => ?_⟩
  have := congrArg List.length h.handed
  revert this
  decide

/-- With one untapped frame in the queue nothing is lost. -/
theorem noFrameLost_one : NoFrameLost (queued [ipv4Frame 1]) .eth [] [(ipv4Frame 1).data] :=
  (noFrameLost_iff (.poll (ctx_queued _) (.frame rfl (.done rfl)))
    (fun ctx h => by cases h; rfl) (by decide)).mpr (by decide)

end EspSmoltcp
