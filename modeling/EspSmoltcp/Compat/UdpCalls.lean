import EspSmoltcp.Compat.Readiness
import EspSmoltcp.Stack.Kinds

/-!
# Compat/UdpCalls — `send` and `sendto`, `recv` and `recvfrom` on a UDP fd

A connected UDP fd stores its peer, and `send` and `recv` are meant to be `sendto` and `recvfrom` for that
peer.  Of the four only `sendto` and `recvfrom` know of the in-RAM loopback, and of the two receiving calls
only `recv` reports an empty non-blocking fd as `EWOULDBLOCK`.

`send_agrees_iff` and `recv_agrees_iff` say on which states the calls agree nevertheless.
-/

namespace EspSmoltcp

open Thread (Along Stable Triple)

variable {S : Smoltcp} {cfg : Config} {heap : Bool} {fd : ℤ} {i : ℕ} {w : World S}

/-! ## Sending -/

/-- `send` returns what `sendto` to that peer returns, and leaves the world it leaves. -/
def SendAgrees (cfg : Config) (heap : Bool) (fd : ℤ) (buf : Bytes) (ipBe : UInt32) (port : UInt16)
    (w : World S) : Prop :=
  ∀ sched, ((wrapLwipSend cfg fd buf).run w sched).1
      = some (wrapLwipSendto cfg heap fd buf ⟨2, ipBe, port⟩ sizeofSockAddrIn w).1 ∧
    ((wrapLwipSend cfg fd buf).run w sched).2.world
      = (wrapLwipSendto cfg heap fd buf ⟨2, ipBe, port⟩ sizeofSockAddrIn w).2

/-- The loopback refuses: the message is too long, no fd is bound to the port, or its queue takes no more. -/
def LoRefuses (heap : Bool) (port : UInt16) (len : ℕ) (w : World S) : Prop :=
  65535 < len ∨ ∀ i q, (w.loSlots.find? fun s => s.port = port).bind LoSlot.fd = some i →
    (w.fdAt i).loRx = some q → heap = false ∨ loQueueDepth ≤ q.length

/-- smoltcp refuses: the handle names no socket, or one that does not accept the datagram.  A handle of
another type panics, which can happen once. -/
def StackRefuses (s : NetSock) (data : Bytes) (dst : IpEndpoint) (w : World S) : Prop :=
  ∀ h ctx sh, handleFor w s.iface = some h → w.ctx h = some ctx → ctx.lookup s.localId = some sh →
    match ctx.sockets.lookup sh with
    | some (.udp x) => S.udp.sendSlice x data dst = none
    | _ => ctx.panicked = true

/-- **`lo_deliver` refuses, or its target's queue grows.** -/
theorem loDeliver_eq_self_iff (heap : Bool) (port srcPort : UInt16) (srcBe : UInt32) (data : Bytes)
    (w : World S) :
    LoRefuses heap port data.length w ∧ loDeliver heap port srcBe srcPort data w = (-1, w) ∨
      ¬ LoRefuses heap port data.length w ∧ (loDeliver heap port srcBe srcPort data w).2.fds ≠ w.fds := by
  rw [loDeliver]
  by_cases hlen : 65535 < data.length
  · exact .inl ⟨.inl hlen, if_pos hlen⟩
  rw [if_neg hlen]
  rcases hslot : (w.loSlots.find? fun s => s.port = port).bind LoSlot.fd with _ | i
  · rw [hslot]
    refine .inl ⟨.inr fun i q hi => ?_, rfl⟩
    rw [hslot] at hi
    cases hi
  rw [hslot]
  dsimp only
  rcases hq : (w.fdAt i).loRx with _ | q
  · refine .inl ⟨.inr fun j q hj hjq => ?_, rfl⟩
    obtain rfl := Option.some.inj (hslot.symm.trans hj)
    rw [hq] at hjq
    cases hjq
  dsimp only
  split_ifs with hroom
  · refine .inr ⟨?_, fun hsame => ?_⟩
    · rintro (hlong | hall)
      · exact hlen hlong
      · rcases hall i q hslot hq with hheap | hfull
        · rw [hheap] at hroom
          cases hroom.1
        · omega
    · have hi : i < w.fds.length := by
        by_contra hge
        have hfree : w.fdAt i = {} := by simp [World.fdAt, not_lt.mp hge]
        rw [hfree] at hq
        cases hq
      have hat := World.fdAt_modFd_self (w := w)
        (fun e => { e with loRx := some (q ++ [⟨srcBe, srcPort, data⟩]) }) hi
      rw [World.fdAt, hsame, ← World.fdAt] at hat
      rw [hat] at hq
      simp at hq
  · refine .inl ⟨.inr fun j q' hj hjq => ?_, rfl⟩
    obtain rfl := Option.some.inj (hslot.symm.trans hj)
    obtain rfl := Option.some.inj (hq.symm.trans hjq)
    rcases heap with _ | _
    · exact .inl rfl
    · exact .inr (by simpa using hroom)

/-- A call on a context that gives it back leaves the world as it was, and conversely. -/
theorem setCtx_eq_self_iff {h : IfaceId} {ctx ctx' : IfaceCtx S} (hctx : w.ctx h = some ctx) :
    w.setCtx h ctx' = w ↔ ctx' = ctx := by
  constructor
  · intro hsame
    have hat := World.ctx_setCtx_self w h ctx'
    rw [hsame, hctx] at hat
    exact (Option.some.inj hat).symm
  · rintro rfl
    exact World.setCtx_self hctx

theorem panic_eq_self_iff (ctx : IfaceCtx S) : ctx.panic = ctx ↔ ctx.panicked = true := by
  constructor
  · intro h
    rw [← h]
    rfl
  · intro h
    rw [IfaceCtx.panic, ← h]

/-- **`net_udp_sendto` does nothing exactly where smoltcp refuses.** -/
theorem netUdpSendto_eq_self_iff {s : NetSock} {data : Bytes} {dstBe : UInt32} {dstPort : UInt16} :
    netUdpSendto s data dstBe dstPort w = (-1, w) ↔ StackRefuses s data (endpointOf dstBe dstPort) w := by
  rw [netUdpSendto]
  rcases hh : handleFor w s.iface with _ | h
  · refine iff_of_true rfl fun h ctx sh hh' => ?_
    rw [hh] at hh'
    cases hh'
  obtain ⟨-, ctx, hctx⟩ := of_handleFor_eq_some hh
  dsimp only
  have hrefuses : StackRefuses s data (endpointOf dstBe dstPort) w ↔
      ∀ sh, ctx.lookup s.localId = some sh →
        match ctx.sockets.lookup sh with
        | some (.udp x) => S.udp.sendSlice x data (endpointOf dstBe dstPort) = none
        | _ => ctx.panicked = true := by
    refine ⟨fun hall sh => hall h ctx sh hh hctx, fun hall h' ctx' sh hh' hctx' => ?_⟩
    obtain rfl := Option.some.inj (hh.symm.trans hh')
    obtain rfl := Option.some.inj (hctx.symm.trans hctx')
    exact hall sh
  rw [hrefuses, World.ffi_of_ctx hctx, Prod.mk.injEq, setCtx_eq_self_iff hctx, smoltcpUdpSendto,
    IfaceCtx.withUdp]
  rcases hl : ctx.lookup s.localId with _ | sh
  · simp
  simp only [Option.some.injEq, forall_eq']
  rcases hx : ctx.sockets.lookup sh with _ | x | x | _
  · simpa using panic_eq_self_iff ctx
  · simpa using panic_eq_self_iff ctx
  · dsimp only
    rcases hsend : S.udp.sendSlice x data (endpointOf dstBe dstPort) with _ | x'
    · dsimp only
      rw [SocketSet.replace_self hx]
      simp
    · refine iff_of_false (fun heq => ?_) (by simp)
      have hlen : (data.length : ℤ) = -1 := heq.1
      omega
  · simpa using panic_eq_self_iff ctx

/-- `send` on a connected UDP fd is one `net_udp_sendto`. -/
theorem wrapLwipSend_udp (hfd : fdGet cfg w fd = some i) (hk : (w.fdAt i).kind = .udp)
    (hc : (w.fdAt i).connected = true) (buf : Bytes) (sched : List (Moment (World S))) :
    ((wrapLwipSend cfg fd buf).run w sched).1 = some ⟨(netUdpSendto (w.fdAt i).sock buf
        (w.fdAt i).localIpv4Be (w.fdAt i).localPort w).1, none⟩ ∧
      ((wrapLwipSend cfg fd buf).run w sched).2.world = (netUdpSendto (w.fdAt i).sock buf
        (w.fdAt i).localIpv4Be (w.fdAt i).localPort w).2 := by
  rw [Code.run, wrapLwipSend, Thread.world_bind_apply, hfd]
  dsimp only
  rw [Thread.world_bind_apply, hc]
  dsimp only
  rw [if_neg (by simp), hk]
  exact ⟨rfl, rfl⟩

/-- `sendto` on a UDP fd, by its destination. -/
theorem wrapLwipSendto_udp (hfd : fdGet cfg w fd = some i) (hk : (w.fdAt i).kind = .udp) (buf : Bytes)
    (ipBe : UInt32) (port : UInt16) :
    wrapLwipSendto cfg heap fd buf ⟨2, ipBe, port⟩ sizeofSockAddrIn w =
      let r := if isLoopbackIp ipBe then
        loDeliver heap port (w.fdAt i).localIpv4Be (w.fdAt i).localPort buf w
      else netUdpSendto (w.fdAt i).sock buf ipBe port w
      (⟨r.1, none⟩, r.2) := by
  rw [wrapLwipSendto, hfd]
  dsimp only
  rw [if_neg (not_not.mpr hk), if_neg (lt_irrefl _)]

/-- **`send` and `sendto` agree unless the peer is on the loopback and either would take the datagram.** -/
theorem send_agrees_iff (hfd : fdGet cfg w fd = some i) (hk : (w.fdAt i).kind = .udp)
    (hc : (w.fdAt i).connected = true) (heap : Bool) (buf : Bytes) :
    SendAgrees cfg heap fd buf (w.fdAt i).localIpv4Be (w.fdAt i).localPort w ↔
      (isLoopbackIp (w.fdAt i).localIpv4Be = true →
        LoRefuses heap (w.fdAt i).localPort buf.length w ∧
          StackRefuses (w.fdAt i).sock buf (endpointOf (w.fdAt i).localIpv4Be (w.fdAt i).localPort) w) := by
  have hsend := wrapLwipSend_udp hfd hk hc buf
  rw [SendAgrees, wrapLwipSendto_udp hfd hk]
  by_cases hlo : isLoopbackIp (w.fdAt i).localIpv4Be = true
  · rw [if_pos hlo]
    simp only [hlo, forall_const]
    rw [← netUdpSendto_eq_self_iff]
    have hfds := (SameShim.netUdpSendto (w.fdAt i).sock buf (w.fdAt i).localIpv4Be
      (w.fdAt i).localPort w).fds
    constructor
    · intro hagree
      obtain ⟨hret, hworld⟩ := hagree []
      rw [(hsend []).1] at hret
      rw [(hsend []).2] at hworld
      rcases loDeliver_eq_self_iff heap (w.fdAt i).localPort (w.fdAt i).localPort (w.fdAt i).localIpv4Be
        buf w with h | h
      · rw [h.2] at hret hworld
        refine ⟨h.1, Prod.ext ?_ hworld⟩
        exact congrArg Ret.ret (Option.some.inj hret)
      · exact absurd (hworld ▸ hfds) h.2
    · rintro ⟨hrefuses, hself⟩ sched
      rw [(hsend sched).1, (hsend sched).2, hself]
      rcases loDeliver_eq_self_iff heap (w.fdAt i).localPort (w.fdAt i).localPort (w.fdAt i).localIpv4Be
        buf w with h | h
      · rw [h.2]
        exact ⟨rfl, rfl⟩
      · exact absurd hrefuses h.1
  · rw [if_neg hlo]
    exact iff_of_true (fun sched => hsend sched) fun h => absurd h hlo

/-! ## Receiving -/

/-- The others leave an entry alone, but for what is in its loopback queue. -/
def Undisturbed (i : ℕ) (env : World S → World S) : Prop :=
  ∀ w, ∃ q, (env w).fdAt i = { w.fdAt i with loRx := q }

/-- `recv` returns what `recvfrom` returns, with the same bytes, and leaves the world it leaves: however
datagrams arrive meanwhile. -/
def RecvAgrees (cfg : Config) (fd : ℤ) (i len : ℕ) (w : World S) : Prop :=
  ∀ sched, (∀ m ∈ sched, Undisturbed i m.env) →
    ((wrapLwipRecv cfg fd len).run w sched).1
        = ((wrapLwipRecvfrom cfg fd len).run w sched).1.map (fun r => (r.1, r.2.1)) ∧
      ((wrapLwipRecv cfg fd len).run w sched).2.world = ((wrapLwipRecvfrom cfg fd len).run w sched).2.world

/-- `recvfrom` on a UDP fd without a loopback queue is `net_udp_recvfrom`. -/
theorem wrapLwipRecvfrom_udp (hfd : fdGet cfg w fd = some i) (hk : (w.fdAt i).kind = .udp)
    (hlo : ¬ ((w.fdAt i).loopback = true ∧ (w.fdAt i).loRx.isSome = true)) (len : ℕ)
    (sched : List (Moment (World S))) (l : List (Event S)) :
    wrapLwipRecvfrom cfg fd len ⟨w, sched, l⟩
      = (netUdpRecvfrom cfg (w.fdAt i).sock len (rcvTimeout (w.fdAt i)) >>= fun r =>
          pure (⟨r.1, none⟩, (r.2.map UdpRecv.data).getD [],
            if 0 < r.1 then r.2.map fun m => (m.srcBe.getD 0, m.srcPort) else none)) ⟨w, sched, l⟩ := by
  rw [wrapLwipRecvfrom, Thread.world_bind_apply, hfd]
  dsimp only
  rw [Thread.world_bind_apply, if_neg (not_not.mpr hk), if_neg hlo]

/-- The fd blocks. -/
def Blocking (i : ℕ) (w : World S) : Prop := (w.fdAt i).nonblocking = false

/-- Calls on a handle leave the fd table alone, and so do the others: the fd stays a blocking one. -/
theorem kept_blocking (k : SockKind) (s : NetSock) :
    Kept (Undisturbed (S := S) i) (Blocking i) k s where
  stable env henv w hw := by
    obtain ⟨q, hq⟩ := henv w
    rw [Blocking, hq]
    exact hw
  call h err g _ _ w hw := by
    rw [Blocking, World.fdAt, (SameShim.ffi w h err g).fds]
    exact hw

/-- A blocking fd without a loopback queue: the two calls are the same. -/
theorem recvAgrees_of_blocking (hfd : fdGet cfg w fd = some i) (hk : (w.fdAt i).kind = .udp)
    (hlo : ¬ ((w.fdAt i).loopback = true ∧ (w.fdAt i).loRx.isSome = true)) (hb : Blocking i w) (len : ℕ) :
    RecvAgrees cfg fd i len w := by
  intro sched hsched
  have halong := (kept_blocking (S := S) (i := i) .udp (w.fdAt i).sock).netUdpRecvfrom
    (E := fun _ => True) (fun _ _ => trivial) cfg len (rcvTimeout (w.fdAt i))
  rw [Code.run, Code.run, wrapLwipRecv_udp hfd hk, wrapLwipRecvfrom_udp hfd hk hlo]
  rcases hrun : netUdpRecvfrom cfg (w.fdAt i).sock len (rcvTimeout (w.fdAt i)) ⟨w, sched, []⟩
    with ⟨_ | r, s'⟩
  · rw [Thread.bind_of_none hrun, Thread.bind_of_none hrun]
    exact ⟨rfl, rfl⟩
  · have hb' : (s'.world.fdAt i).nonblocking = false := (halong.of_some ⟨hb, hsched⟩ hrun).1
    rw [Thread.bind_of_some hrun, Thread.bind_of_some hrun, Thread.world_bind_apply, hb']
    refine ⟨?_, rfl⟩
    simp [recvRet]

/-- With no interface behind the handle both calls fail at once. -/
theorem recvAgrees_of_none (hfd : fdGet cfg w fd = some i) (hk : (w.fdAt i).kind = .udp)
    (hlo : ¬ ((w.fdAt i).loopback = true ∧ (w.fdAt i).loRx.isSome = true))
    (hf : handleFor w (w.fdAt i).sock.iface = none) (len : ℕ) : RecvAgrees cfg fd i len w := by
  intro sched _
  rw [Code.run, Code.run, wrapLwipRecv_udp hfd hk, wrapLwipRecvfrom_udp hfd hk hlo,
    Thread.bind_of_some (netUdpRecvfrom_of_none hf ..), Thread.bind_of_some (netUdpRecvfrom_of_none hf ..),
    Thread.world_bind_apply]
  exact ⟨rfl, rfl⟩

theorem undisturbed_idle (t : UInt32) : Undisturbed i (idle (S := S) t).env := fun w => ⟨(w.fdAt i).loRx, rfl⟩

/-- An empty non-blocking fd tells the calls apart. -/
theorem not_recvAgrees_of_nonblocking (hfd : fdGet cfg w fd = some i) (hk : (w.fdAt i).kind = .udp)
    (hlo : ¬ ((w.fdAt i).loopback = true ∧ (w.fdAt i).loRx.isSome = true))
    (hb : (w.fdAt i).nonblocking = true) {h : IfaceId}
    (hf : handleFor w (w.fdAt i).sock.iface = some h) (len : ℕ) : ¬ RecvAgrees cfg fd i len w := by
  intro hagree
  obtain ⟨hret, -⟩ := hagree [idle 0, idle 1] (by simp [undisturbed_idle])
  have ht : rcvTimeout (w.fdAt i) = 0 := by rw [rcvTimeout, if_pos hb]
  have hrun : netUdpRecvfrom cfg (w.fdAt i).sock len (rcvTimeout (w.fdAt i)) ⟨w, [idle 0, idle 1], []⟩
      = (some (0, none), ⟨w, [], []⟩) := by
    rw [netUdpRecvfrom_of_some cfg hf, recvLoop_late]
    · rfl
    · rw [ht, Config.msToTicks_zero]
      exact (by decide : ¬ (1 : UInt32) ≤ 0 + 0)
  rw [Code.run, Code.run, wrapLwipRecv_udp hfd hk, wrapLwipRecvfrom_udp hfd hk hlo,
    Thread.bind_of_some hrun, Thread.bind_of_some hrun, Thread.world_bind_apply, hb] at hret
  cases hret

/-- Another fd sends to the entry over the loopback. -/
def loArrives (i : ℕ) (m : LoMsg) (w : World S) : World S :=
  w.modFd i fun e => { e with loRx := some [m] }

theorem undisturbed_loArrives (m : LoMsg) : Undisturbed i (loArrives (S := S) i m) := by
  intro w
  by_cases hi : i < w.fds.length
  · exact ⟨some [m], World.fdAt_modFd_self _ hi⟩
  · refine ⟨(w.fdAt i).loRx, ?_⟩
    rw [loArrives, World.fdAt, World.modFd, World.fds_setFd, List.set_eq_of_length_le (not_lt.mp hi)]
    rfl

/-- A queue that is not empty when the call looks delivers its head. -/
theorem loReceiveWait_hit {m : LoMsg} {w' : World S} {v : Moment (World S)}
    (h : loReceive i (v.env w) = (some m, w')) (timeoutMs : UInt32)
    (ms : List (Moment (World S))) (l : List (Event S)) :
    loReceiveWait cfg i timeoutMs ⟨w, v :: ms, l⟩
      = (some (some m), ⟨w', ms, .step .other (v.env w) w' :: l⟩) := by
  rw [loReceiveWait, xTaskGetTickCount_bind_cons, Thread.loop, Thread.loopN_succ, loReceiveTurn,
    atomically_bind_apply, h]
  rfl

/-- `recvfrom` on a fd with a loopback queue takes the head of that queue. -/
theorem recvfrom_of_loReceive (hfd : fdGet cfg w fd = some i) (hk : (w.fdAt i).kind = .udp)
    (hlo : (w.fdAt i).loopback = true ∧ (w.fdAt i).loRx.isSome = true) {m : LoMsg} {w' : World S}
    {v : Moment (World S)} (h : loReceive i (v.env w) = (some m, w')) (len : ℕ)
    (ms : List (Moment (World S))) :
    (∃ r : Bytes × Option (UInt32 × UInt16), ((wrapLwipRecvfrom cfg fd len).run w (v :: ms)).1
        = some (⟨(min m.data.length len : ℕ), none⟩, r)) ∧
      ((wrapLwipRecvfrom cfg fd len).run w (v :: ms)).2.world = w' := by
  rw [Code.run, wrapLwipRecvfrom, Thread.world_bind_apply, hfd]
  dsimp only
  rw [Thread.world_bind_apply, if_neg (not_not.mpr hk), if_pos hlo,
    Thread.bind_of_some (loReceiveWait_hit h _ ms [])]
  exact ⟨⟨_, rfl⟩, rfl⟩

/-- A datagram that arrives over the loopback tells the calls apart. -/
theorem not_recvAgrees_of_loopback (hfd : fdGet cfg w fd = some i) (hk : (w.fdAt i).kind = .udp)
    (hlo : (w.fdAt i).loopback = true ∧ (w.fdAt i).loRx.isSome = true) (len : ℕ) :
    ¬ RecvAgrees cfg fd i len w := by
  intro hagree
  have hi := lt_length_of_fdGet hfd
  -- The clock starts where the deadline of `recv` is zero, and is past it at the first look.
  let v : Moment (World S) :=
    ⟨0 - cfg.msToTicks (rcvTimeout (w.fdAt i)), loArrives i ⟨0, 0, []⟩⟩
  obtain ⟨hret, hworld⟩ := hagree [v, idle 1] (by simp [v, undisturbed_idle, undisturbed_loArrives])
  have hq : ((v.env w).fdAt i).loRx = some [⟨0, 0, []⟩] := by
    rw [show (v.env w).fdAt i = _ from World.fdAt_modFd_self _ hi]
  have htake : loReceive i (v.env w)
      = (some ⟨0, 0, []⟩, (v.env w).modFd i fun e => { e with loRx := some [] }) := by
    rw [loReceive, hq]
  obtain ⟨⟨r, hr⟩, hw'⟩ := recvfrom_of_loReceive hfd hk hlo htake len [idle 1]
  rw [hr, Code.run, wrapLwipRecv_udp hfd hk] at hret
  rw [hw', Code.run, wrapLwipRecv_udp hfd hk] at hworld
  rcases hf : handleFor w (w.fdAt i).sock.iface with _ | h
  · rw [Thread.bind_of_some (netUdpRecvfrom_of_none hf ..)] at hret
    cases hret
  · have hlate : ¬ (idle (S := S) 1).now ≤ v.now + cfg.msToTicks (rcvTimeout (w.fdAt i)) := by
      change ¬ (1 : UInt32) ≤ 0 - _ + _
      rw [UInt32.sub_add_cancel]
      decide
    rw [Thread.bind_of_some ((netUdpRecvfrom_of_some cfg hf len _ v [idle 1] []).trans
      (recvLoop_late hlate))] at hworld
    have hi' : i < (v.env w).fds.length := by
      change i < (w.modFd i _).fds.length
      rw [World.length_fds_modFd]
      exact hi
    have hleft : (v.env w).fdAt i = _ := congrArg (World.fdAt · i) hworld
    rw [World.fdAt_modFd_self _ hi'] at hleft
    rw [hleft] at hq
    cases hq

/-- **`recv` and `recvfrom` agree exactly on the fds without a loopback queue that block**, or that have no
interface to receive from. -/
theorem recv_agrees_iff (hfd : fdGet cfg w fd = some i) (hk : (w.fdAt i).kind = .udp) (len : ℕ) :
    RecvAgrees cfg fd i len w ↔
      ¬ ((w.fdAt i).loopback = true ∧ (w.fdAt i).loRx.isSome = true) ∧
        ((w.fdAt i).nonblocking = false ∨ handleFor w (w.fdAt i).sock.iface = none) := by
  by_cases hlo : (w.fdAt i).loopback = true ∧ (w.fdAt i).loRx.isSome = true
  · exact iff_of_false (not_recvAgrees_of_loopback hfd hk hlo len) fun h => h.1 hlo
  rcases hb : (w.fdAt i).nonblocking with _ | _
  · exact iff_of_true (recvAgrees_of_blocking hfd hk hlo hb len) ⟨hlo, .inl rfl⟩
  rcases hf : handleFor w (w.fdAt i).sock.iface with _ | h
  · exact iff_of_true (recvAgrees_of_none hfd hk hlo hf len) ⟨hlo, .inr rfl⟩
  · exact iff_of_false (not_recvAgrees_of_nonblocking hfd hk hlo hb hf len) (by simp)

/-! ## Both pairs -/

/-- **When the connected and the unconnected calls agree on a UDP fd**: sending, unless the peer is on the
loopback and either call would take the datagram; receiving, if there is no loopback queue and the fd
blocks. -/
theorem udp_calls_agree_iff (hfd : fdGet cfg w fd = some i) (hk : (w.fdAt i).kind = .udp) :
    ((w.fdAt i).connected = true → ∀ (heap : Bool) (buf : Bytes),
      SendAgrees cfg heap fd buf (w.fdAt i).localIpv4Be (w.fdAt i).localPort w ↔
        (isLoopbackIp (w.fdAt i).localIpv4Be = true →
          LoRefuses heap (w.fdAt i).localPort buf.length w ∧
            StackRefuses (w.fdAt i).sock buf (endpointOf (w.fdAt i).localIpv4Be (w.fdAt i).localPort) w)) ∧
    ∀ len, RecvAgrees cfg fd i len w ↔
      ¬ ((w.fdAt i).loopback = true ∧ (w.fdAt i).loRx.isSome = true) ∧
        ((w.fdAt i).nonblocking = false ∨ handleFor w (w.fdAt i).sock.iface = none) :=
  ⟨fun hc => send_agrees_iff hfd hk hc, recv_agrees_iff hfd hk⟩

/-- Ethernet is attached and an application has opened a UDP fd, bound it to `127.0.0.1:5000` and connected
it to that address. -/
def echoFd : World .reference :=
  let w := (World.boot .default).attach .eth fun _ => 0
  let w := (wrapLwipSocket .default 2 2 w).2
  let w := (wrapLwipBind .default true 48 ⟨2, 0x0100007F, 5000⟩ sizeofSockAddrIn w).2
  ((wrapLwipConnect .default 48 ⟨2, 0x0100007F, 5000⟩ sizeofSockAddrIn 0).run w []).2.world

/-- Its own queue has room, so a `send` from there does not agree with its `sendto`. -/
theorem udp_calls_agree_echo : ¬ SendAgrees .default true 48 [1] 0x0100007F 5000 echoFd := by
  have hfd : fdGet .default echoFd 48 = some 0 := rfl
  have hagree := (udp_calls_agree_iff hfd rfl).1 rfl true [1]
  refine fun h => absurd ((hagree.mp h) rfl).1 ?_
  rintro (hlong | hall)
  · exact absurd hlong (by decide)
  · rcases hall 0 [] rfl rfl with hheap | hfull
    · cases hheap
    · exact absurd hfull (by decide)

/-- **A connected fd does not reach itself**: `send` fails where `sendto` delivers, and what is delivered
`recv` does not see. -/
theorem echo_disagrees : ¬ SendAgrees .default true 48 [1] 0x0100007F 5000 echoFd ∧
    ¬ RecvAgrees .default 48 0 16 echoFd := by
  constructor
  · intro hagree
    exact absurd (hagree []).1 (by decide)
  · exact not_recvAgrees_of_loopback rfl rfl ⟨rfl, rfl⟩ 16

end EspSmoltcp
