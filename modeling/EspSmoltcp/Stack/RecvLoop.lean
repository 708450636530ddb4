import EspSmoltcp.Stack.Handles

/-!
# Stack/RecvLoop — how the receive loop ends

`net_tcp_recv` and `net_udp_recvfrom` probe, and wait, until a probe delivers or a clock reading is past
the deadline.  `fate` says which of the two comes first, from the world, what the others do and the
clock readings alone; `recvLoop_fate` is that the loop ends so.

`tcpRecvProbe` delivers exactly when bytes are queued, and otherwise leaves the world as it is.
-/

namespace EspSmoltcp

variable {S : Smoltcp} {β : Type}

/-! ## One turn -/

section Turn

variable {call : Call} {deadline : UInt32} {probe : World S → (Int × β) × World S} {nothing : β}
  {w : World S} {m : Moment (World S)} {ms : List (Moment (World S))} {l : List (Event S)}

/-- A turn that goes round has waited. -/
theorem recvTurn_progress :
    Thread.Progress (fun _ => 0) fun (_ : Unit) => recvTurn call deadline probe nothing := by
  rintro ⟨⟩ ⟨w, _ | ⟨m, ms⟩, l⟩ ⟨⟩ s' h
  · cases h
  · change recvTurn call deadline probe nothing _ = _ at h
    rw [recvTurn, xTaskGetTickCount_bind_cons] at h
    split_ifs at h
    · rw [atomically_bind_apply] at h
      split_ifs at h
      · cases h
      · rcases ms with _ | ⟨v, ms⟩
        · cases h
        · obtain ⟨-, rfl⟩ := Prod.mk.inj h
          simp only [List.length_cons]
          omega
    · cases h

theorem recvLoop_eq (s : Sys (World S) (Event S)) : recvLoop call deadline probe nothing s
    = Thread.afterTurn (fun _ => recvLoop call deadline probe nothing)
        (recvTurn call deadline probe nothing s) := Thread.loop_eq recvTurn_progress () s

theorem recvLoop_nil : recvLoop call deadline probe nothing ⟨w, [], l⟩ = (none, ⟨w, [], l⟩) := by
  rw [recvLoop_eq, recvTurn, xTaskGetTickCount_bind_nil]
  rfl

/-- A reading past the deadline ends the loop. -/
theorem recvLoop_late (h : ¬ m.now ≤ deadline) : recvLoop call deadline probe nothing ⟨w, m :: ms, l⟩
    = (some (0, nothing), ⟨m.env w, ms, l⟩) := by
  rw [recvLoop_eq, recvTurn, xTaskGetTickCount_bind_cons, if_neg h]
  rfl

/-- A probe that delivers ends the loop. -/
theorem recvLoop_hit (h : m.now ≤ deadline) (hp : 0 < (probe (m.env w)).1.1) :
    recvLoop call deadline probe nothing ⟨w, m :: ms, l⟩ = (some (probe (m.env w)).1,
      ⟨(probe (m.env w)).2, ms, .step call (m.env w) (probe (m.env w)).2 :: l⟩) := by
  rw [recvLoop_eq, recvTurn, xTaskGetTickCount_bind_cons, if_pos h,
    atomically_bind_apply, if_pos hp]
  rfl

/-- A probe that does not deliver waits… -/
theorem recvLoop_miss {v : Moment (World S)} (h : m.now ≤ deadline)
    (hp : ¬ 0 < (probe (m.env w)).1.1) :
    recvLoop call deadline probe nothing ⟨w, m :: v :: ms, l⟩ = recvLoop call deadline probe nothing
      ⟨v.env (probe (m.env w)).2, ms, .wait :: .step call (m.env w) (probe (m.env w)).2 :: l⟩ := by
  rw [recvLoop_eq, recvTurn, xTaskGetTickCount_bind_cons, if_pos h,
    atomically_bind_apply, if_neg hp]
  rfl

/-- …for as long as there is something to wait for. -/
theorem recvLoop_miss_nil (h : m.now ≤ deadline) (hp : ¬ 0 < (probe (m.env w)).1.1) :
    recvLoop call deadline probe nothing ⟨w, [m], l⟩ = (none,
      ⟨(probe (m.env w)).2, [], .wait :: .step call (m.env w) (probe (m.env w)).2 :: l⟩) := by
  rw [recvLoop_eq, recvTurn, xTaskGetTickCount_bind_cons, if_pos h,
    atomically_bind_apply, if_neg hp]
  rfl

end Turn

/-! ## The whole loop -/

/-- How a receive loop ends: a probe delivers, a reading is past the deadline, or neither yet. -/
inductive Fate (S : Smoltcp)
  | hit (w : World S)
  | late (w : World S)
  | pending

/-- How a receive loop ends if its probes deliver where `ready` holds and leave the world alone
elsewhere: the readings alternate with waits. -/
def fate (deadline : UInt32) (ready : World S → Bool) : World S → List (Moment (World S)) → Fate S
  | _, [] => .pending
  | w, [m] =>
    if m.now ≤ deadline then if ready (m.env w) then .hit (m.env w) else .pending
    else .late (m.env w)
  | w, m :: v :: ms =>
    if m.now ≤ deadline then
      if ready (m.env w) then .hit (m.env w) else fate deadline ready (v.env (m.env w)) ms
    else .late (m.env w)

/-- A run of the loop that ends so. -/
def Fate.Ends (probe : World S → (Int × β) × World S) (nothing : β) :
    Fate S → Option (Int × β) × Sys (World S) (Event S) → Prop
  | .hit w, r => 0 < (probe w).1.1 ∧ r.1 = some (probe w).1 ∧ r.2.world = (probe w).2
  | .late w, r => r.1 = some (0, nothing) ∧ r.2.world = w
  | .pending, r => r.1 = none

/-- On these worlds the probe delivers where `ready` holds, and leaves the world alone elsewhere. -/
structure ProbeSpec (good : World S → Prop) (ready : World S → Bool)
    (probe : World S → (Int × β) × World S) : Prop where
  hit : ∀ w, good w → ready w = true → 0 < (probe w).1.1
  miss : ∀ w, good w → ready w = false → ¬ 0 < (probe w).1.1 ∧ (probe w).2 = w

/-- **The receive loop ends as its fate says.** -/
theorem recvLoop_fate {good : World S → Prop} {ready : World S → Bool}
    {probe : World S → (Int × β) × World S} (hp : ProbeSpec good ready probe) (call : Call)
    (deadline : UInt32) (nothing : β) (w : World S) (sched : List (Moment (World S)))
    (l : List (Event S)) (hw : good w) (henv : ∀ m ∈ sched, ∀ w, good w → good (m.env w)) :
    (fate deadline ready w sched).Ends probe nothing
      (recvLoop call deadline probe nothing ⟨w, sched, l⟩) := by
  induction w, sched using fate.induct deadline ready generalizing l with
  | case1 w =>
    rw [fate, recvLoop_nil]
    rfl
  | case2 w m hm hr =>
    have hpos := hp.hit _ (henv m (by simp) w hw) hr
    rw [fate, if_pos hm, if_pos hr, recvLoop_hit hm hpos]
    exact ⟨hpos, rfl, rfl⟩
  | case3 w m hm hr =>
    have hmiss := hp.miss _ (henv m (by simp) w hw) (Bool.eq_false_iff.mpr hr)
    rw [fate, if_pos hm, if_neg hr, recvLoop_miss_nil hm hmiss.1]
    rfl
  | case4 w m hm =>
    rw [fate, if_neg hm, recvLoop_late hm]
    exact ⟨rfl, rfl⟩
  | case5 w m v ms hm hr =>
    have hpos := hp.hit _ (henv m (by simp) w hw) hr
    rw [fate, if_pos hm, if_pos hr, recvLoop_hit hm hpos]
    exact ⟨hpos, rfl, rfl⟩
  | case6 w m v ms hm hr ih =>
    have hgood := henv m (by simp) w hw
    have hmiss := hp.miss _ hgood (Bool.eq_false_iff.mpr hr)
    rw [fate, if_pos hm, if_neg hr, recvLoop_miss hm hmiss.1, hmiss.2]
    exact ih _ (henv v (by simp) _ hgood) fun m' hm' => henv m' (by simp [hm'])
  | case7 w m v ms hm =>
    rw [fate, if_neg hm, recvLoop_late hm]
    exact ⟨rfl, rfl⟩

/-- What the others keep still holds where the loop ends. -/
theorem fate_keeps {P : World S → Prop} {deadline : UInt32} {ready : World S → Bool} (w : World S)
    (sched : List (Moment (World S))) (hw : P w)
    (henv : ∀ m ∈ sched, ∀ w, P w → P (m.env w)) (w' : World S)
    (h : fate deadline ready w sched = .hit w' ∨ fate deadline ready w sched = .late w') :
    P w' := by
  induction w, sched using fate.induct deadline ready with
  | case1 w => simp [fate] at h
  | case2 w m hm hr =>
    rw [fate, if_pos hm, if_pos hr] at h
    simp only [Fate.hit.injEq, reduceCtorEq, or_false] at h
    exact h ▸ henv m (by simp) w hw
  | case3 w m hm hr => simp [fate, hm, hr] at h
  | case4 w m hm =>
    rw [fate, if_neg hm] at h
    simp only [Fate.late.injEq, reduceCtorEq, false_or] at h
    exact h ▸ henv m (by simp) w hw
  | case5 w m v ms hm hr =>
    rw [fate, if_pos hm, if_pos hr] at h
    simp only [Fate.hit.injEq, reduceCtorEq, or_false] at h
    exact h ▸ henv m (by simp) w hw
  | case6 w m v ms hm hr ih =>
    rw [fate, if_pos hm, if_neg hr] at h
    exact ih (henv v (by simp) _ (henv m (by simp) w hw)) (fun m' hm' => henv m' (by simp [hm'])) h
  | case7 w m v ms hm =>
    rw [fate, if_neg hm] at h
    simp only [Fate.late.injEq, reduceCtorEq, false_or] at h
    exact h ▸ henv m (by simp) w hw

/-! ## The TCP probe -/

/-- The handle stands for nothing or for a TCP socket, so a TCP call on it does not panic. -/
def World.NamesTcp (w : World S) (s : NetSock) : Prop :=
  ∀ i ctx sh, s.iface = i.code → w.ctx i = some ctx → ctx.lookup s.localId = some sh →
    ∃ x, ctx.sockets.lookup sh = some (.tcp x)

/-- Bytes are queued for the handle. -/
def tcpReady (s : NetSock) (w : World S) : Bool := (w.tcpOf s).any fun x => !(S.tcp.rxQueue x).isEmpty

/-- What `smoltcp_tcp_recv` makes of the outcome of `recv_slice`. -/
def recvCode : Option Bytes → Int × Bytes
  | some data => (data.length, data)
  | none => (-1, [])

/-- A probe of a TCP socket is a `recv_slice` on it. -/
theorem tcpRecvProbe_of_tcp {w : World S} {s : NetSock} {h : IfaceId} {ctx : IfaceCtx S}
    {sh : SocketHandle} {x : S.tcp.Socket} (hctx : w.ctx h = some ctx)
    (he : ctx.entryAt s.localId = some (sh, .tcp x)) (cap : ℕ) :
    tcpRecvProbe h s.localId cap w = (recvCode (S.tcp.recvSlice x cap).1,
      w.setCtx h (ctx.setSocket sh (.tcp (S.tcp.recvSlice x cap).2))) := by
  rw [tcpRecvProbe, World.ffi_of_ctx hctx, smoltcpTcpRecv, IfaceCtx.withTcp_of_tcp he]
  rcases S.tcp.recvSlice x cap with ⟨_ | data, x'⟩
  · rfl
  · rfl

/-- A probe of a handle that stands for nothing fails. -/
theorem tcpRecvProbe_of_none {w : World S} {s : NetSock} {h : IfaceId} (hs : s.iface = h.code)
    (hn : w.NamesTcp s) (h0 : w.tcpOf s = none) (cap : ℕ) :
    tcpRecvProbe h s.localId cap w = ((-1, []), w) := by
  rw [tcpRecvProbe]
  rcases hctx : w.ctx h with _ | ctx
  · rw [World.ffi, hctx]
  · have hl : ctx.lookup s.localId = none := by
      by_contra hne
      obtain ⟨sh, hl⟩ := Option.ne_none_iff_exists'.mp hne
      obtain ⟨x, hx⟩ := hn h ctx sh hs hctx hl
      have hsome := World.tcpOf_eq_some.mpr
        ⟨h, ctx, sh, hs, hctx, IfaceCtx.entryAt_eq_some.mpr ⟨hl, hx⟩⟩
      rw [h0] at hsome
      cases hsome
    rw [World.ffi_of_ctx hctx, smoltcpTcpRecv, IfaceCtx.withTcp, hl]
    simp only [World.setCtx_self hctx]

/-- With nothing queued a `recv_slice` delivers nothing and leaves the socket alone. -/
theorem recvSlice_of_empty {x : S.tcp.Socket} (h : S.tcp.rxQueue x = []) (cap : ℕ) :
    ¬ 0 < (recvCode (S.tcp.recvSlice x cap).1).1 ∧ (S.tcp.recvSlice x cap).2 = x := by
  rcases ho : (S.tcp.state x).rxOpen with _ | _
  · rw [S.tcp.recvSlice_err x cap h ho]
    exact ⟨by simp [recvCode], rfl⟩
  · rw [S.tcp.recvSlice_open x cap h ho]
    exact ⟨by simp [recvCode], rfl⟩

/-- **The TCP probe delivers exactly when bytes are queued.** -/
theorem tcpRecvProbe_spec {s : NetSock} {h : IfaceId} (hs : s.iface = h.code) {cap : ℕ}
    (hcap : 0 < cap) :
    ProbeSpec (World.NamesTcp · s) (tcpReady (S := S) s) (tcpRecvProbe h s.localId cap) := by
  refine ⟨fun w hn hr => ?_, fun w hn hr => ?_⟩
  · rw [tcpReady, Option.any_eq_true] at hr
    obtain ⟨x, hx, hq⟩ := hr
    obtain ⟨i, ctx, sh, hi, hctx, he⟩ := World.tcpOf_eq_some.mp hx
    obtain rfl := IfaceId.code_inj (hs.symm.trans hi)
    have hne : S.tcp.rxQueue x ≠ [] := by simpa using hq
    have hpos := List.length_pos_iff.mpr hne
    rw [tcpRecvProbe_of_tcp hctx he, (S.tcp.recvSlice_data x cap hne).1, recvCode, List.length_take]
    exact Int.natCast_pos.mpr (lt_min hcap hpos)
  · rcases hx : w.tcpOf s with _ | x
    · rw [tcpRecvProbe_of_none hs hn hx]
      exact ⟨by simp, rfl⟩
    · obtain ⟨i, ctx, sh, hi, hctx, he⟩ := World.tcpOf_eq_some.mp hx
      obtain rfl := IfaceId.code_inj (hs.symm.trans hi)
      have hq : S.tcp.rxQueue x = [] := by simpa [tcpReady, hx] using hr
      obtain ⟨hlt, hsame⟩ := recvSlice_of_empty hq cap
      rw [tcpRecvProbe_of_tcp hctx he]
      refine ⟨hlt, ?_⟩
      rw [hsame, IfaceCtx.setSocket_self (IfaceCtx.entryAt_eq_some.mp he).2, World.setCtx_self hctx]

/-! ## The UDP probe -/

/-- The datagrams queued for the handle. -/
def udpQueue (s : NetSock) (w : World S) : List Datagram := (w.udpOf s).elim [] S.udp.rxQueue

/-- What `smoltcp_udp_recvfrom` makes of the outcome of `recv_slice`. -/
def recvfromCode : Option (List UInt8 × IpEndpoint) → Int × Option UdpRecv
  | some (data, src) =>
    let srcBe := match src.addr with
      | .ipv4 a => some (ipv4ToBe a)
      | .ipv6 _ => none
    (data.length, some ⟨data, srcBe, src.port⟩)
  | none => (-1, none)

/-- A probe of a UDP socket is a `recv_slice` on it. -/
theorem udpRecvProbe_of_udp {w : World S} {s : NetSock} {h : IfaceId} {ctx : IfaceCtx S}
    {sh : SocketHandle} {x : S.udp.Socket} (hctx : w.ctx h = some ctx)
    (he : ctx.entryAt s.localId = some (sh, .udp x)) (cap : ℕ) :
    udpRecvProbe h s.localId cap w = (recvfromCode (S.udp.recvSlice x cap).1,
      w.setCtx h (ctx.setSocket sh (.udp (S.udp.recvSlice x cap).2))) := by
  rw [udpRecvProbe, World.ffi_of_ctx hctx, smoltcpUdpRecvfrom, IfaceCtx.withUdp_of_udp he]
  rcases S.udp.recvSlice x cap with ⟨_ | ⟨data, src⟩, x'⟩
  · rfl
  · rfl

/-- What a handle stands for after its socket was replaced. -/
theorem World.entryOf_setSocket {w : World S} {s : NetSock} {h : IfaceId} {ctx : IfaceCtx S}
    {sh : SocketHandle} {x : Socket S} (hs : s.iface = h.code)
    (he : ctx.entryAt s.localId = some (sh, x)) (x' : Socket S) :
    (w.setCtx h (ctx.setSocket sh x')).entryOf s = some (sh, x') := by
  obtain ⟨hl, hx⟩ := IfaceCtx.entryAt_eq_some.mp he
  rw [entryOf_of_ctx hs (ctx_setCtx_self w h _), IfaceCtx.entryAt_eq_some]
  refine ⟨hl, ?_⟩
  rw [IfaceCtx.setSocket, SocketSet.lookup_replace, if_pos rfl, hx]
  rfl

section Recvfrom

variable {cfg : Config} {s : NetSock} {w : World S}

/-- Without an interface it fails at once… -/
theorem netUdpRecvfrom_of_none (h : handleFor w s.iface = none) (cap : ℕ) (timeoutMs : UInt32)
    (sched : List (Moment (World S))) (l : List (Event S)) :
    netUdpRecvfrom cfg s cap timeoutMs ⟨w, sched, l⟩ = (some (-1, none), ⟨w, sched, l⟩) := by
  rw [netUdpRecvfrom, Thread.world_bind_apply]
  simp only [h]
  rfl

variable (cfg) in
/-- …and otherwise is its loop, after one reading. -/
theorem netUdpRecvfrom_of_some {h : IfaceId} (hf : handleFor w s.iface = some h) (cap : ℕ)
    (timeoutMs : UInt32) (m : Moment (World S)) (ms : List (Moment (World S))) (l : List (Event S)) :
    netUdpRecvfrom cfg s cap timeoutMs ⟨w, m :: ms, l⟩
      = recvLoop (.udpRecv s) (m.now + cfg.msToTicks timeoutMs)
          (udpRecvProbe h s.localId cap) none ⟨m.env w, ms, l⟩ := by
  rw [netUdpRecvfrom, Thread.world_bind_apply]
  simp only [hf, xTaskGetTickCount_bind_cons]

end Recvfrom

end EspSmoltcp
