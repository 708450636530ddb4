import EspSmoltcp.Compat.Ownership
import EspSmoltcp.Compat.ScanEffects
import EspSmoltcp.Stack.Traffic

/-!
# Compat/Calls — invariants of the core over whole runs

`SockStep` is one step of any socket call of any task, or one event of the network; the calls of the shim
and of the native API interleave step by step.

An invariant of an `IfaceCtx` that every call of `lib.rs` keeps (`CtxInv`) holds of every interface in
every state such a run reaches (`CtxInv.of_run`): nothing in C touches a context except through those
calls.
-/

namespace EspSmoltcp

open Thread (Logs)

variable {S : Smoltcp} {α : Type} {P : IfaceCtx S → Prop} {w w' : World S}

/-! ## Invariants of a context -/

/-- Every call of `lib.rs` on a socket keeps `P`, and so does what the network does to one. -/
structure CtxInv (P : IfaceCtx S → Prop) : Prop where
  panic : ∀ ctx, P ctx → P ctx.panic
  tcpOpen : ∀ ctx, P ctx → P (smoltcpTcpOpen ctx).2
  tcpConnect : ∀ ctx id dstBe dstPort localPort rand, P ctx →
    P (smoltcpTcpConnect ctx id dstBe dstPort localPort rand).2
  tcpListen : ∀ ctx id port, P ctx → P (smoltcpTcpListen ctx id port).2
  tcpSend : ∀ ctx id data, P ctx → P (smoltcpTcpSend ctx id data).2
  tcpRecv : ∀ ctx id cap, P ctx → P (smoltcpTcpRecv ctx id cap).2
  tcpClose : ∀ ctx id, P ctx → P (smoltcpTcpClose ctx id)
  udpOpen : ∀ ctx port, P ctx → P (smoltcpUdpOpen ctx port).2
  udpSendto : ∀ ctx id data dstBe dstPort, P ctx → P (smoltcpUdpSendto ctx id data dstBe dstPort).2
  udpRecvfrom : ∀ ctx id cap, P ctx → P (smoltcpUdpRecvfrom ctx id cap).2
  udpClose : ∀ ctx id, P ctx → P (smoltcpUdpClose ctx id)
  event : ∀ ctx sh x ev, ctx.sockets.lookup sh = some (.tcp x) → P ctx →
    P (ctx.setSocket sh (.tcp (S.tcp.onEvent ev x)))

/-- `P` holds of every published context. -/
structure World.All (P : IfaceCtx S → Prop) (w : World S) : Prop where
  ctx : ∀ i ctx, w.ctx i = some ctx → P ctx

namespace World.All

theorem of_ifaces (h : w.All P) (he : w'.ifaces = w.ifaces) : w'.All P :=
  ⟨fun i ctx hctx => h.ctx i ctx (by rwa [World.ctx, he] at hctx)⟩

theorem modFd (h : w.All P) (k : ℕ) (f : FdEntry → FdEntry) : (w.modFd k f).All P := h.of_ifaces rfl

theorem setCtx (h : w.All P) {i : IfaceId} {ctx : IfaceCtx S} (hctx : P ctx) :
    (w.setCtx i ctx).All P := by
  refine ⟨fun j ctx' hj => ?_⟩
  by_cases hij : j = i
  · subst hij
    rw [ctx_setCtx_self] at hj
    exact Option.some.inj hj ▸ hctx
  · rw [ctx_setCtx_ne w hij] at hj
    exact h.ctx j ctx' hj

/-- A call into the core that keeps `P` of the context. -/
theorem ffi (h : w.All P) (i : IfaceId) (err : α) {f : IfaceCtx S → α × IfaceCtx S}
    (hf : ∀ ctx, P ctx → P (f ctx).2) : (w.ffi i err f).2.All P := by
  rcases hctx : w.ctx i with _ | ctx
  · rw [World.ffi, hctx]
    exact h
  · rw [ffi_of_ctx hctx]
    exact h.setCtx (hf ctx (h.ctx i ctx hctx))

end World.All

/-! ## Statics of the shim -/

/-- `fd_free` on an fd of the table: the closes, on the interfaces as they were. -/
theorem ifaces_fdFree {cfg : Config} {fd : ℤ} {k : ℕ} (hk : fdGet cfg w fd = some k) :
    ∃ w', w'.ifaces = w.ifaces ∧ (fdFree cfg fd w).ifaces
      = (closePool (w.fdAt k).pool (closeOwned (w.fdAt k).kind (w.fdAt k).sock w')).ifaces := by
  rw [fdFree, hk]
  refine ⟨_, ?_, rfl⟩
  split_ifs
  · exact ((SameHandles.loUnbind _ k w).trans (SameHandles.modFd _ k fun _ => rfl)).ifaces
  · rfl

/-! ## Calls that do not block -/

namespace CtxInv

variable (hP : CtxInv P)

include hP

theorem netTcpOpen (h : w.All P) (i : IfaceId) : (netTcpOpen i w).2.All P := by
  rw [EspSmoltcp.netTcpOpen]
  rcases handleFor w i.code with _ | j
  · exact h
  · exact h.ffi j 0 hP.tcpOpen

theorem netUdpOpen (h : w.All P) (i : IfaceId) (port : UInt16) : (netUdpOpen i port w).2.All P := by
  rw [EspSmoltcp.netUdpOpen]
  rcases handleFor w i.code with _ | j
  · exact h
  · exact h.ffi j 0 fun ctx => hP.udpOpen ctx port

theorem netTcpClose (h : w.All P) (s : NetSock) : (netTcpClose s w).2.All P := by
  rw [EspSmoltcp.netTcpClose]
  rcases handleFor w s.iface with _ | i
  · exact h
  · exact h.ffi i () fun ctx => hP.tcpClose ctx s.localId

theorem netUdpClose (h : w.All P) (s : NetSock) : (netUdpClose s w).2.All P := by
  rw [EspSmoltcp.netUdpClose]
  rcases handleFor w s.iface with _ | i
  · exact h
  · exact h.ffi i () fun ctx => hP.udpClose ctx s.localId

theorem netTcpListen (h : w.All P) (s : NetSock) (port : UInt16) : (netTcpListen s port w).2.All P := by
  rw [EspSmoltcp.netTcpListen]
  rcases handleFor w s.iface with _ | i
  · exact h
  · exact h.ffi i (-1) fun ctx => hP.tcpListen ctx s.localId port

/-- A query only panics, if that. -/
theorem queryTcp (h : w.All P) (i : IfaceId) (id : UInt32) (err : α) (f : S.tcp.Socket → α) :
    (w.ffi i err fun ctx => ctx.queryTcp id err f).2.All P := by
  refine h.ffi i err fun ctx hctx => ?_
  obtain hc | hc | ⟨_, _, -, hc⟩ := ctx.queryTcp_cases id err f
  · rw [hc]
    exact hctx
  · rw [hc]
    exact hP.panic ctx hctx
  · rw [hc]
    exact hctx

theorem netTcpIsConnected (h : w.All P) (s : NetSock) : (netTcpIsConnected s w).2.All P := by
  rw [EspSmoltcp.netTcpIsConnected]
  rcases handleFor w s.iface with _ | i
  · exact h
  · exact hP.queryTcp h i s.localId _ _

theorem netTcpRecvQueue (h : w.All P) (s : NetSock) : (netTcpRecvQueue s w).2.All P := by
  rw [EspSmoltcp.netTcpRecvQueue]
  rcases handleFor w s.iface with _ | i
  · exact h
  · exact hP.queryTcp h i s.localId _ _

theorem netTcpSendCapacity (h : w.All P) (s : NetSock) : (netTcpSendCapacity s w).2.All P := by
  rw [EspSmoltcp.netTcpSendCapacity]
  rcases handleFor w s.iface with _ | i
  · exact h
  · exact hP.queryTcp h i s.localId _ _

theorem netUdpSendto (h : w.All P) (s : NetSock) (data : Bytes) (dstBe : UInt32) (dstPort : UInt16) :
    (netUdpSendto s data dstBe dstPort w).2.All P := by
  rw [EspSmoltcp.netUdpSendto]
  rcases handleFor w s.iface with _ | i
  · exact h
  · exact h.ffi i (-1) fun ctx => hP.udpSendto ctx s.localId data dstBe dstPort

theorem deliver (h : w.All P) (i : IfaceId) (sh : SocketHandle) (ev : TcpEvent) :
    (w.deliver i sh ev).All P := by
  obtain he | ⟨ctx, x, hctx, hs, he⟩ := World.deliver_cases i sh ev w
  · rw [he]
    exact h
  · rw [he]
    exact h.setCtx (hP.event ctx sh x ev hs (h.ctx i ctx hctx))

/-! ### The shim -/

theorem closePool (h : w.All P) (pool : List NetSock) : (closePool pool w).All P := by
  induction pool generalizing w with
  | nil => exact h
  | cons s pool ih =>
    rw [EspSmoltcp.closePool, List.foldl_cons]
    split_ifs
    · exact ih (hP.netTcpClose h s)
    · exact ih h

theorem closeOwned (h : w.All P) (kind : FdKind) (s : NetSock) : (closeOwned kind s w).All P := by
  rw [EspSmoltcp.closeOwned]
  split_ifs
  · exact hP.netUdpClose h s
  · exact hP.netTcpClose h s
  · exact h

theorem fdFree (h : w.All P) (cfg : Config) (fd : ℤ) : (fdFree cfg fd w).All P := by
  rcases hk : fdGet cfg w fd with _ | k
  · rw [EspSmoltcp.fdFree, hk]
    exact h
  · obtain ⟨w', hw', he⟩ := ifaces_fdFree hk
    exact (hP.closePool (hP.closeOwned (h.of_ifaces hw') _ _) _).of_ifaces he

theorem wrapLwipSocket (h : w.All P) (cfg : Config) (domain : ℤ) (type : ℕ) :
    (wrapLwipSocket cfg domain type w).2.All P := by
  have hspec := wrapLwipSocket_spec cfg domain type w
  generalize EspSmoltcp.wrapLwipSocket cfg domain type w = r at hspec ⊢
  cases hspec with
  | refused => exact h
  | @filled k i w₁ r _ _ hw hr =>
    have h₁ : w₁.All P := hw ▸ h.of_ifaces rfl
    have hput := (hP.netUdpOpen h₁ (w₁.fdAt i).iface 0).modFd i
      fun e => { e with sock := (EspSmoltcp.netUdpOpen (w₁.fdAt i).iface 0 w₁).1 }
    cases hr with
    | outside => exact h₁
    | stream => exact h₁
    | datagram _ ho => exact ho ▸ hput
    | dropped _ ho => exact hP.fdFree (ho ▸ hput) cfg _

theorem wrapLwipBind (h : w.All P) (cfg : Config) (heap : Bool) (fd : ℤ) (addr : SockAddrIn)
    (alen : ℕ) : (wrapLwipBind cfg heap fd addr alen w).2.All P := by
  have hspec := wrapLwipBind_spec cfg heap fd addr alen w
  generalize EspSmoltcp.wrapLwipBind cfg heap fd addr alen w = r at hspec ⊢
  cases hspec with
  | refused => exact h
  | @stored i w₁ r _ hw hr =>
    have h₁ : w₁.All P := hw ▸ h.modFd i _
    cases hr with
    | stream => exact h₁
    | loopback _ _ ho => exact ho ▸ h₁.of_ifaces (SameHandles.loBind heap _ i _).ifaces
    | @reopened _ _ w₂ o hclose ho =>
      have h₂ : w₂.All P := by
        rw [← hclose]
        split_ifs
        · exact hP.netUdpClose h₁ _
        · exact h₁
      subst ho
      exact (hP.netUdpOpen h₂ (w₁.fdAt i).iface addr.port).modFd i fun e =>
        { e with sock := (EspSmoltcp.netUdpOpen (w₁.fdAt i).iface addr.port w₂).1 }

theorem armSlots (h : w.All P) (i k n : ℕ) : (armSlots i k n w).2.All P := by
  induction n generalizing k w with
  | zero => exact h
  | succ n ih =>
    have hopen := (hP.netTcpOpen h (w.fdAt i).iface).modFd i fun e =>
      { e with pool := e.pool.set k (EspSmoltcp.netTcpOpen (w.fdAt i).iface w).1 }
    have hlisten := hP.netTcpListen hopen (EspSmoltcp.netTcpOpen (w.fdAt i).iface w).1 (w.fdAt i).port
    rw [EspSmoltcp.armSlots]
    simp only
    split_ifs
    · exact ih hlisten _
    · exact hlisten
    · exact hopen

theorem wrapLwipListen (h : w.All P) (cfg : Config) (heap : Bool) (fd backlog : ℤ) :
    (wrapLwipListen cfg heap fd backlog w).2.All P := by
  have hspec := wrapLwipListen_spec cfg heap fd backlog w
  generalize EspSmoltcp.wrapLwipListen cfg heap fd backlog w = r at hspec ⊢
  cases hspec with
  | refused => exact h
  | @armed i w₁ _ _ _ hw => exact hP.armSlots (hw ▸ h.modFd i _) i 0 _

theorem handOver (h : w.All P) (cfg : Config) (i idx : ℕ) (cand : NetSock) :
    (handOver cfg i idx cand w).2.All P := by
  have hspec := handOver_spec cfg i idx cand w
  generalize EspSmoltcp.handOver cfg i idx cand w = r at hspec ⊢
  cases hspec with
  | full => exact h
  | outside _ _ hw => exact hw ▸ h.of_ifaces rfl
  | @given n v port w₁ w₃ w₄ o _ _ _ hw ho hput harm =>
    have h₁ : w₁.All P := hw ▸ h.of_ifaces rfl
    have h₃ : w₃.All P := hput ▸ (ho ▸ hP.netTcpOpen h₁ v : o.2.All P).modFd i _
    dsimp only
    refine World.All.modFd ?_ i _
    rw [← harm]
    split_ifs
    · exact hP.netTcpListen h₃ _ _
    · exact h₃

theorem acceptScan (h : w.All P) (cfg : Config) (i : ℕ) (ks : List ℕ) :
    (acceptScan cfg i ks w).2.All P := by
  induction ks generalizing w with
  | nil => exact h
  | cons k ks ih =>
    rw [EspSmoltcp.acceptScan]
    simp only
    split_ifs
    · exact hP.handOver (hP.netTcpIsConnected h _) cfg i _ _
    · exact ih (hP.netTcpIsConnected h _)

theorem wrapLwipSendto (h : w.All P) (cfg : Config) (heap : Bool) (fd : ℤ) (buf : Bytes)
    (dst : SockAddrIn) (tolen : ℕ) : (wrapLwipSendto cfg heap fd buf dst tolen w).2.All P := by
  rw [EspSmoltcp.wrapLwipSendto]
  rcases fdGet cfg w fd with _ | k
  · exact h
  simp only
  split_ifs
  · exact h
  · exact h
  · exact h.of_ifaces (SameHandles.loDeliver ..).ifaces
  · exact hP.netUdpSendto h _ _ _ _

theorem wrapLwipShutdown (h : w.All P) (cfg : Config) (fd : ℤ) :
    (wrapLwipShutdown cfg fd w).2.All P := by
  rw [EspSmoltcp.wrapLwipShutdown]
  rcases fdGet cfg w fd with _ | k
  · exact h
  simp only
  split_ifs
  · dsimp only
    exact (hP.netTcpClose h _).modFd k _
  · exact h

end CtxInv

/-! ## Calls that block -/

/-- A step that keeps `P` of every context. -/
def Event.Keeps (P : IfaceCtx S → Prop) : Event S → Prop
  | .step _ w w' => w.All P → w'.All P
  | _ => True

theorem logs_keeps {call : Call} {f : World S → α × World S} (h : ∀ w, w.All P → (f w).2.All P) :
    Logs (Event.Keeps P) (atomically f call) := logs_atomically h

namespace CtxInv

variable (hP : CtxInv P) (cfg : Config)

include hP

theorem scanOk : ScanOk cfg (Event.Keeps P) where
  wait := trivial
  connected s _ h := hP.netTcpIsConnected h s
  recvQueue s _ h := hP.netTcpRecvQueue h s
  sendCapacity s _ h := hP.netTcpSendCapacity h s
  probe s i _ _ h := h.ffi i _ fun ctx => hP.udpRecvfrom ctx s.localId 0
  answer _ _ _ _ _ _ _ := trivial

theorem logs_netTcpConnect (s : NetSock) (ipv4Be : UInt32) (port : UInt16)
    (timeoutMs rand : UInt32) :
    Logs (Event.Keeps P) (netTcpConnect cfg s ipv4Be port timeoutMs rand) :=
  EspSmoltcp.logs_netTcpConnect trivial
    (fun i _ h => h.ffi i _ fun ctx => hP.tcpConnect ctx _ _ _ _ _)
    (fun i _ h => hP.queryTcp h i _ _ _) timeoutMs

theorem logs_netTcpSend (s : NetSock) (buf : Bytes) (timeoutMs : UInt32) :
    Logs (Event.Keeps P) (netTcpSend cfg s buf timeoutMs) := by
  refine Logs.world.bind fun w => ?_
  rcases handleFor w s.iface with _ | i
  · exact Logs.pure _
  refine logs_xTaskGetTickCount.bind fun start =>
    (Logs.loop (fun total => ?_) 0).bind fun _ => Logs.pure _
  split_ifs
  · refine (logs_keeps fun w h => h.ffi i _ fun ctx => hP.tcpSend ctx _ _).bind fun n => ?_
    split_ifs
    · exact Logs.pure _
    · refine logs_xTaskGetTickCount.bind fun now => ?_
      split_ifs
      · exact Logs.pure _
      · exact (logs_blockingWait trivial).bind fun _ => Logs.pure _
  · exact Logs.pure _

theorem logs_netTcpRecv (s : NetSock) (cap : ℕ) (timeoutMs : UInt32) :
    Logs (Event.Keeps P) (netTcpRecv cfg s cap timeoutMs) := by
  refine Logs.world.bind fun w => ?_
  rcases handleFor w s.iface with _ | i
  · exact Logs.pure _
  · exact logs_xTaskGetTickCount.bind fun start =>
      logs_recvLoop trivial (fun w h => h.ffi i _ fun ctx => hP.tcpRecv ctx s.localId cap) _ _

theorem logs_netUdpRecvfrom (s : NetSock) (cap : ℕ) (timeoutMs : UInt32) :
    Logs (Event.Keeps P) (netUdpRecvfrom cfg s cap timeoutMs) :=
  EspSmoltcp.logs_netUdpRecvfrom trivial
    (fun i _ _ h => h.ffi i _ fun ctx => hP.udpRecvfrom ctx s.localId cap) cfg timeoutMs

theorem logs_wrapLwipAccept (fd : ℤ) :
    Logs (Event.Keeps P) (wrapLwipAccept cfg fd) := by
  refine Logs.world.bind fun w => ?_
  rcases fdGet cfg w fd with _ | i
  · exact Logs.pure _
  refine Logs.world.bind fun w => ?_
  split_ifs
  · exact Logs.pure _
  refine logs_xTaskGetTickCount.bind fun start => Logs.loop (fun _ => Logs.world.bind fun w => ?_) ()
  refine (logs_keeps fun w h => hP.acceptScan h cfg i _).bind fun r => ?_
  rcases r with _ | r
  · refine Logs.world.bind fun w => ?_
    split_ifs
    · exact Logs.pure _
    · refine logs_xTaskGetTickCount.bind fun now => ?_
      split_ifs
      · exact Logs.pure _
      · exact (logs_blockingWait trivial).bind fun _ => Logs.pure _
  · exact Logs.pure _

theorem logs_wrapLwipConnect (fd : ℤ) (addr : SockAddrIn) (alen : ℕ) (rand : UInt32) :
    Logs (Event.Keeps P) (wrapLwipConnect cfg fd addr alen rand) :=
  EspSmoltcp.logs_wrapLwipConnect
    (fun iface i _ h => (hP.netTcpOpen h iface).modFd i _)
    (fun s timeoutMs => hP.logs_netTcpConnect cfg s _ _ timeoutMs rand)
    (fun _ _ h => h.of_ifaces rfl) (fun _ _ h => h.of_ifaces rfl) fd alen

theorem logs_wrapLwipSend (fd : ℤ) (buf : Bytes) :
    Logs (Event.Keeps P) (wrapLwipSend cfg fd buf) := by
  refine Logs.world.bind fun w => ?_
  rcases fdGet cfg w fd with _ | i
  · exact Logs.pure _
  refine Logs.world.bind fun w => ?_
  by_cases hc : (!(w.fdAt i).connected) = true
  · simp only [if_pos hc]
    exact Logs.pure _
  simp only [if_neg hc]
  rcases (w.fdAt i).kind with _ | _ | _ | _
  · exact Logs.pure _
  · exact (hP.logs_netTcpSend cfg _ _ _).bind fun _ => Logs.pure _
  · exact (logs_keeps fun w h => hP.netUdpSendto h _ _ _ _).bind fun _ => Logs.pure _
  · exact Logs.pure _

theorem logs_wrapLwipRecv (fd : ℤ) (len : ℕ) :
    Logs (Event.Keeps P) (wrapLwipRecv cfg fd len) := by
  refine Logs.world.bind fun w => ?_
  rcases fdGet cfg w fd with _ | i
  · exact Logs.pure _
  refine Logs.world.bind fun w => ?_
  simp only
  rcases (w.fdAt i).kind with _ | _ | _ | _
  · exact Logs.pure _
  · exact (hP.logs_netTcpRecv cfg _ _ _).bind fun _ => Logs.world.bind fun _ => Logs.pure _
  · exact (hP.logs_netUdpRecvfrom cfg _ _ _).bind fun _ => Logs.world.bind fun _ => Logs.pure _
  · exact Logs.pure _

omit hP in
theorem logs_loReceiveWait (i : ℕ) (timeoutMs : UInt32) :
    Logs (Event.Keeps P) (loReceiveWait cfg i timeoutMs) :=
  EspSmoltcp.logs_loReceiveWait trivial
    (fun w h => h.of_ifaces (SameHandles.loReceive i w).ifaces) timeoutMs

theorem logs_wrapLwipRecvfrom (fd : ℤ) (len : ℕ) :
    Logs (Event.Keeps P) (wrapLwipRecvfrom cfg fd len) :=
  EspSmoltcp.logs_wrapLwipRecvfrom (logs_loReceiveWait cfg)
    (fun s timeoutMs => hP.logs_netUdpRecvfrom cfg s len timeoutMs) fd

end CtxInv

/-! ## The system -/

/-- The socket calls, of the shim and of the native API. -/
inductive SockCall
  | shim (c : ShimCall)
  | send (fd : ℤ) (buf : Bytes)
  | sendto (heap : Bool) (fd : ℤ) (buf : Bytes) (dst : SockAddrIn) (tolen : ℕ)
  | recv (fd : ℤ) (len : ℕ)
  | recvfrom (fd : ℤ) (len : ℕ)
  | select (nfds : ℤ) (rd wr : Finset ℤ) (timeout : Option TimeVal)
  | poll (fds : List PollFd) (timeoutMs : ℤ)
  | tcpOpen (iface : IfaceId)
  | tcpConnect (s : NetSock) (ipv4Be : UInt32) (port : UInt16) (timeoutMs rand : UInt32)
  | tcpListen (s : NetSock) (port : UInt16)
  | tcpIsConnected (s : NetSock)
  | tcpRecvQueue (s : NetSock)
  | tcpSendCapacity (s : NetSock)
  | tcpSend (s : NetSock) (buf : Bytes) (timeoutMs : UInt32)
  | tcpRecv (s : NetSock) (cap : ℕ) (timeoutMs : UInt32)
  | tcpClose (s : NetSock)
  | udpOpen (iface : IfaceId) (localPort : UInt16)
  | udpSendto (s : NetSock) (data : Bytes) (dstBe : UInt32) (dstPort : UInt16)
  | udpRecvfrom (s : NetSock) (cap : ℕ) (timeoutMs : UInt32)
  | udpClose (s : NetSock)

/-- What the call runs, its result dropped. -/
def SockCall.code (cfg : Config) : SockCall → Code S Unit
  | shim c => discard (c.code cfg)
  | send fd buf => discard (wrapLwipSend cfg fd buf)
  | sendto heap fd buf dst tolen => discard (atomically (wrapLwipSendto cfg heap fd buf dst tolen))
  | recv fd len => discard (wrapLwipRecv cfg fd len)
  | recvfrom fd len => discard (wrapLwipRecvfrom cfg fd len)
  | select nfds rd wr timeout => discard (wrapLwipSelect cfg nfds rd wr timeout)
  | poll fds timeoutMs => discard (wrapLwipPoll cfg fds timeoutMs)
  | tcpOpen iface => discard (atomically (netTcpOpen iface))
  | tcpConnect s ipv4Be port timeoutMs rand =>
    discard (netTcpConnect cfg s ipv4Be port timeoutMs rand)
  | tcpListen s port => discard (atomically (netTcpListen s port))
  | tcpIsConnected s => discard (atomically (netTcpIsConnected s))
  | tcpRecvQueue s => discard (atomically (netTcpRecvQueue s))
  | tcpSendCapacity s => discard (atomically (netTcpSendCapacity s))
  | tcpSend s buf timeoutMs => discard (netTcpSend cfg s buf timeoutMs)
  | tcpRecv s cap timeoutMs => discard (netTcpRecv cfg s cap timeoutMs)
  | tcpClose s => discard (atomically (netTcpClose s))
  | udpOpen iface localPort => discard (atomically (netUdpOpen iface localPort))
  | udpSendto s data dstBe dstPort => discard (atomically (netUdpSendto s data dstBe dstPort))
  | udpRecvfrom s cap timeoutMs => discard (netUdpRecvfrom cfg s cap timeoutMs)
  | udpClose s => discard (atomically (netUdpClose s))

namespace CtxInv

variable (hP : CtxInv P)

include hP

theorem logs_shimCall (cfg : Config) (c : ShimCall) :
    Logs (Event.Keeps P) (c.code cfg) := by
  rcases c with ⟨domain, type⟩ | ⟨heap, fd, addr, alen⟩ | ⟨heap, fd, backlog⟩ | fd |
    ⟨fd, addr, alen, rand⟩ | fd | fd
  · exact logs_keeps fun w h => hP.wrapLwipSocket h cfg domain type
  · exact logs_keeps fun w h => hP.wrapLwipBind h cfg heap fd addr alen
  · exact logs_keeps fun w h => hP.wrapLwipListen h cfg heap fd backlog
  · exact hP.logs_wrapLwipAccept cfg fd
  · exact hP.logs_wrapLwipConnect cfg fd addr alen rand
  · exact logs_keeps fun w h => hP.wrapLwipShutdown h cfg fd
  · refine logs_keeps fun w h => ?_
    rw [wrapLwipClose_snd]
    exact hP.fdFree h cfg fd

/-- **Every step of every call keeps `P`.** -/
theorem logs_sockCall (cfg : Config) (c : SockCall) :
    Logs (Event.Keeps P) (c.code cfg) := by
  have drop : ∀ {β : Type} {t : Code S β}, Logs (Event.Keeps P) t →
      Logs (Event.Keeps P) (discard t) := fun ht => ht.bind fun _ => Logs.pure _
  rcases c with c | ⟨fd, buf⟩ | ⟨heap, fd, buf, dst, tolen⟩ | ⟨fd, len⟩ | ⟨fd, len⟩ |
    ⟨nfds, rd, wr, timeout⟩ | ⟨fds, timeoutMs⟩ | iface | ⟨s, ip, port, timeoutMs, rand⟩ | ⟨s, port⟩ |
    s | s | s | ⟨s, buf, timeoutMs⟩ | ⟨s, cap, timeoutMs⟩ | s | ⟨iface, port⟩ |
    ⟨s, data, dst, port⟩ | ⟨s, cap, timeoutMs⟩ | s
  · exact drop (hP.logs_shimCall cfg c)
  · exact drop (hP.logs_wrapLwipSend cfg fd buf)
  · exact drop (logs_keeps fun w h => hP.wrapLwipSendto h cfg heap fd buf dst tolen)
  · exact drop (hP.logs_wrapLwipRecv cfg fd len)
  · exact drop (hP.logs_wrapLwipRecvfrom cfg fd len)
  · exact drop ((hP.scanOk cfg).wrapLwipSelect nfds rd wr timeout)
  · exact drop ((hP.scanOk cfg).wrapLwipPoll fds timeoutMs)
  · exact drop (logs_keeps fun w h => hP.netTcpOpen h iface)
  · exact drop (hP.logs_netTcpConnect cfg s ip port timeoutMs rand)
  · exact drop (logs_keeps fun w h => hP.netTcpListen h s port)
  · exact drop (logs_keeps fun w h => hP.netTcpIsConnected h s)
  · exact drop (logs_keeps fun w h => hP.netTcpRecvQueue h s)
  · exact drop (logs_keeps fun w h => hP.netTcpSendCapacity h s)
  · exact drop (hP.logs_netTcpSend cfg s buf timeoutMs)
  · exact drop (hP.logs_netTcpRecv cfg s cap timeoutMs)
  · exact drop (logs_keeps fun w h => hP.netTcpClose h s)
  · exact drop (logs_keeps fun w h => hP.netUdpOpen h iface port)
  · exact drop (logs_keeps fun w h => hP.netUdpSendto h s data dst port)
  · exact drop (hP.logs_netUdpRecvfrom cfg s cap timeoutMs)
  · exact drop (logs_keeps fun w h => hP.netUdpClose h s)

end CtxInv

/-- One step of the system: a step that some run of a call makes, or an event of the network.  The calls
of any number of tasks interleave step by step. -/
inductive SockStep (cfg : Config) : World S → World S → Prop
  | call {w w' w₀ : World S} (c : SockCall) (sched : List (Moment (World S))) {call : Call}
      (h : .step call w w' ∈ ((c.code cfg).run w₀ sched).2.log) : SockStep cfg w w'
  | event {w : World S} (i : IfaceId) (sh : SocketHandle) (ev : TcpEvent) :
      SockStep cfg w (w.deliver i sh ev)

theorem CtxInv.sockStep (hP : CtxInv P) {cfg : Config} (h : w.All P) (hs : SockStep cfg w w') :
    w'.All P := by
  obtain ⟨c, sched, hmem⟩ | ⟨i, sh, ev⟩ := hs
  · exact (hP.logs_sockCall cfg c).run _ sched _ hmem h
  · exact hP.deliver h i sh ev

/-- **An invariant of the core holds in every reachable state.** -/
theorem CtxInv.of_run (hP : CtxInv P) (hnew : ∀ n mac, P (.new n mac)) {cfg : Config}
    {ifs : List (IfaceId × (Fin 6 → UInt8))}
    (h : Relation.ReflTransGen (SockStep cfg) (.booted cfg ifs) w) : w.All P := by
  induction h with
  | refl =>
    refine ⟨fun i ctx hctx => ?_⟩
    obtain ⟨n, mac, rfl⟩ := (blank_booted cfg ifs).ctx i ctx hctx
    exact hnew n mac
  | tail _ hstep ih => exact hP.sockStep ih hstep

end EspSmoltcp
