import EspSmoltcp.Compat.EndOfStream
import EspSmoltcp.Compat.SelectWrap

/-!
# Compat/ScanEffects — what a readiness scan does to the queues it asks about

Every branch of `fd_readable` and `fd_writable` only looks, except one: a UDP fd is probed by a receive
with a zero-length buffer, which takes the head datagram off and then cannot report it.  So a scan leaves
the queues alone exactly when every such probe finds nothing (`rxSame_udpRecvProbe_iff`), and a datagram
that is waiting is never reported (`fdReadable_udp`).

These are the only three kinds of things a scan is seen to do (`scanOk_scanEvent`).
-/

namespace EspSmoltcp

variable {S : Smoltcp} {α : Type}

/-! ## Receive queues -/

/-- What is queued for reading in a socket: bytes, or datagrams. -/
def Socket.rx : Socket S → List UInt8 ⊕ List Datagram
  | .tcp x => .inl (S.tcp.rxQueue x)
  | .udp x => .inr (S.udp.rxQueue x)
  | .dhcpv4 => .inl []

/-- The receive queue of a socket of the core. -/
def World.rxOf (w : World S) (i : IfaceId) (sh : SocketHandle) :
    Option (List UInt8 ⊕ List Datagram) :=
  (w.ctx i).bind fun ctx => (ctx.sockets.lookup sh).map Socket.rx

/-- No receive queue differs: not of a TCP or UDP socket, and not of a loopback fd. -/
structure RxSame (w w' : World S) : Prop where
  sockets : w'.rxOf = w.rxOf
  loopback : ∀ i, (w'.fdAt i).loRx = (w.fdAt i).loRx

theorem RxSame.refl (w : World S) : RxSame w w := ⟨rfl, fun _ => rfl⟩

/-- A call that leaves the `SocketSet` alone leaves the queues alone. -/
theorem rxSame_setCtx {w : World S} {i : IfaceId} {ctx ctx' : IfaceCtx S} (hctx : w.ctx i = some ctx)
    (h : ctx'.sockets = ctx.sockets) : RxSame w (w.setCtx i ctx') := by
  refine ⟨funext fun j => funext fun sh => ?_, fun _ => rfl⟩
  rw [World.rxOf, World.rxOf]
  by_cases hj : j = i
  · subst hj
    rw [World.ctx_setCtx_self, hctx, Option.bind_some, Option.bind_some, h]
  · rw [World.ctx_setCtx_ne w hj]

theorem rxSame_ffi (w : World S) (i : IfaceId) (err : α) {f : IfaceCtx S → α × IfaceCtx S}
    (h : ∀ ctx, (f ctx).2.sockets = ctx.sockets) : RxSame w (w.ffi i err f).2 := by
  rcases hctx : w.ctx i with _ | ctx
  · rw [World.ffi, hctx]
    exact RxSame.refl w
  · rw [World.ffi_of_ctx hctx]
    exact rxSame_setCtx hctx (h ctx)

/-! ## Queries -/

theorem rxSame_netTcpIsConnected (s : NetSock) (w : World S) : RxSame w (netTcpIsConnected s w).2 := by
  rw [netTcpIsConnected]
  rcases handleFor w s.iface with _ | h
  · exact RxSame.refl w
  · exact rxSame_ffi w h false fun ctx => ctx.sockets_queryTcp ..

theorem rxSame_netTcpRecvQueue (s : NetSock) (w : World S) : RxSame w (netTcpRecvQueue s w).2 := by
  rw [netTcpRecvQueue]
  rcases handleFor w s.iface with _ | h
  · exact RxSame.refl w
  · exact rxSame_ffi w h 0 fun ctx => ctx.sockets_queryTcp ..

theorem rxSame_netTcpSendCapacity (s : NetSock) (w : World S) :
    RxSame w (netTcpSendCapacity s w).2 := by
  rw [netTcpSendCapacity]
  rcases handleFor w s.iface with _ | h
  · exact RxSame.refl w
  · exact rxSame_ffi w h 0 fun ctx => ctx.sockets_queryTcp ..

/-! ## The zero-length receive -/

/-- A receive on an empty queue leaves every socket as it is. -/
theorem sockets_withUdp_of_empty {ctx : IfaceCtx S} {id : UInt32} (err : α)
    {f : S.udp.Socket → α × S.udp.Socket}
    (h : ∀ sh x, ctx.entryAt id = some (sh, .udp x) → (f x).2 = x) :
    (ctx.withUdp id err f).2.sockets = ctx.sockets := by
  obtain hc | hc | ⟨sh, x, he, hc⟩ := ctx.withUdp_cases id err f
  · rw [hc]
  · rw [hc]
    rfl
  · rw [hc, h sh x he, IfaceCtx.setSocket_self (IfaceCtx.entryAt_eq_some.mp he).2]

/-- **The probe of a UDP fd leaves the queues alone exactly when nothing is queued.** -/
theorem rxSame_udpRecvProbe_iff {w : World S} {s : NetSock} {h : IfaceId} (hs : s.iface = h.code)
    (cap : ℕ) : RxSame w (udpRecvProbe h s.localId cap w).2 ↔ udpQueue s w = [] := by
  constructor
  · intro hsame
    rcases hu : w.udpOf s with _ | x
    · rw [udpQueue, hu]
      rfl
    · obtain ⟨i, ctx, sh, hi, hctx, he⟩ := World.udpOf_eq_some.mp hu
      obtain rfl := IfaceId.code_inj (hs.symm.trans hi)
      rw [udpQueue, hu, Option.elim_some]
      rcases hq : S.udp.rxQueue x with _ | ⟨d, q⟩
      · rfl
      · -- The queue of this very socket is now `q`.
        have hsh := (IfaceCtx.entryAt_eq_some.mp he).2
        have hrx := congrFun (congrFun hsame.sockets h) sh
        rw [udpRecvProbe_of_udp hctx he, World.rxOf, World.rxOf, World.ctx_setCtx_self, hctx,
          Option.bind_some, Option.bind_some, IfaceCtx.setSocket, SocketSet.lookup_replace,
          if_pos rfl, hsh] at hrx
        have hlost : S.udp.rxQueue (S.udp.recvSlice x cap).2 = S.udp.rxQueue x :=
          Sum.inr.inj (Option.some.inj hrx)
        rw [(S.udp.recvSlice_cons x cap d q hq).2, hq] at hlost
        exact absurd hlost.symm (List.cons_ne_self d q)
  · intro hq
    rcases hctx : w.ctx h with _ | ctx
    · rw [udpRecvProbe, World.ffi, hctx]
      exact RxSame.refl w
    · rw [udpRecvProbe, World.ffi_of_ctx hctx]
      refine rxSame_setCtx hctx (sockets_withUdp_of_empty _ fun sh x he => ?_)
      have hu := World.udpOf_eq_some.mpr ⟨h, ctx, sh, hs, hctx, he⟩
      rw [udpQueue, hu, Option.elim_some] at hq
      rw [S.udp.recvSlice_nil x cap hq]

/-- **A zero-length receive never delivers.** -/
theorem udpRecvProbe_zero_le (h : IfaceId) (id : UInt32) (w : World S) :
    (udpRecvProbe h id 0 w).1.1 ≤ 0 := by
  have hneg : (-1 : ℤ) ≤ 0 := by decide
  rcases hctx : w.ctx h with _ | ctx
  · rw [udpRecvProbe, World.ffi, hctx]
    exact hneg
  · rw [udpRecvProbe, World.ffi_of_ctx hctx, smoltcpUdpRecvfrom]
    obtain hc | hc | ⟨sh, x, -, hc⟩ := ctx.withUdp_cases id (-1, none) _
    · rw [hc]
      exact hneg
    · rw [hc]
      exact hneg
    · rw [hc]
      rcases hq : S.udp.rxQueue x with _ | ⟨d, q⟩
      · rw [S.udp.recvSlice_nil x 0 hq]
        exact hneg
      · have hret := (S.udp.recvSlice_cons x 0 d q hq).1
        rcases hr : S.udp.recvSlice x 0 with ⟨_ | ⟨data, src⟩, x'⟩
        · exact hneg
        · rw [hr] at hret
          split_ifs at hret with hlen
          obtain ⟨rfl, -⟩ := Prod.mk.inj (Option.some.inj hret)
          exact Int.ofNat_le.mpr hlen

/-- So the loop of a zero-length receive ends at its deadline, with 0. -/
theorem recvLoop_le_zero (call : Call) (deadline : UInt32)
    {probe : World S → (Int × α) × World S} (h : ∀ w, (probe w).1.1 ≤ 0) (nothing : α) :
    Thread.Triple (fun _ => True) (recvLoop call deadline probe nothing) (fun r _ => r.1 ≤ 0)
      fun _ => True := by
  refine Thread.Triple.loop (I := fun _ _ => True) (fun _ _ _ => trivial) (fun _ => ?_) ()
  refine Thread.Triple.bind (Q := fun _ _ => True)
    (Thread.Triple.elapse (fun _ _ => trivial) fun _ _ _ _ _ => trivial) fun now => ?_
  split_ifs
  · rintro ⟨w, sched, l⟩ -
    rw [atomically_bind_apply, if_neg (not_lt.mpr (h w))]
    rcases sched with _ | ⟨m, ms⟩
    · trivial
    · trivial
  · exact Thread.Triple.pure _ fun _ _ => le_refl (0 : ℤ)

/-- **A UDP fd that is not bound to loopback is never found readable.** -/
theorem fdReadable_udp {cfg : Config} {w : World S} {i : ℕ} (hk : (w.fdAt i).kind = .udp)
    (hlo : ¬ ((w.fdAt i).loopback = true ∧ (w.fdAt i).loRx.isSome = true))
    {sched : List (Moment (World S))} {l : List (Event S)} {b : Bool} {s' : Sys (World S) (Event S)}
    (h : fdReadable cfg i ⟨w, sched, l⟩ = (some b, s')) : b = false := by
  rw [fdReadable, Thread.world_bind_apply] at h
  simp only [hk, reduceCtorEq, if_false, if_neg hlo] at h
  obtain ⟨r, s₁, hrecv, hb⟩ := Thread.bind_eq_some.mp h
  obtain rfl : decide (0 < r.1) = b := Option.some.inj (Prod.mk.inj hb).1
  rw [decide_eq_false_iff_not, not_lt]
  rw [netUdpRecvfrom, Thread.world_bind_apply] at hrecv
  rcases hf : handleFor w (w.fdAt i).sock.iface with _ | h
  · simp only [hf] at hrecv
    obtain rfl := Option.some.inj (Prod.mk.inj hrecv).1
    exact Int.neg_nonpos_of_nonneg (by decide)
  · simp only [hf] at hrecv
    obtain ⟨start, s₂, -, hloop⟩ := Thread.bind_eq_some.mp hrecv
    exact (recvLoop_le_zero _ _ (udpRecvProbe_zero_le h _) none).of_some trivial hloop

/-! ## What a blocking call logs -/

section Logs

open Thread (Logs)

variable {ok : Event S → Prop} {cfg : Config}

theorem logs_recvLoop {call : Call} {probe : World S → (Int × α) × World S} (hwait : ok .wait)
    (h : ∀ w, ok (.step call w (probe w).2)) (deadline : UInt32) (nothing : α) :
    Logs ok (recvLoop call deadline probe nothing) := by
  refine Logs.loop (fun _ => logs_xTaskGetTickCount.bind fun now => ?_) ()
  split_ifs
  · refine (logs_atomically h).bind fun r => ?_
    split_ifs
    · exact Logs.pure _
    · exact (logs_blockingWait hwait).bind fun _ => Logs.pure _
  · exact Logs.pure _

theorem logs_netUdpRecvfrom {cap : ℕ} {s : NetSock} (hwait : ok .wait)
    (h : ∀ i w, s.iface = i.code → ok (.step (.udpRecv s) w (udpRecvProbe i s.localId cap w).2))
    (cfg : Config) (timeoutMs : UInt32) : Logs ok (netUdpRecvfrom cfg s cap timeoutMs) := by
  refine Logs.world.bind fun w => ?_
  rcases hf : handleFor w s.iface with _ | i
  · exact Logs.pure _
  · have hs := (of_handleFor_eq_some hf).1
    exact logs_xTaskGetTickCount.bind fun start => logs_recvLoop hwait (fun w => h i w hs) _ none

theorem logs_netTcpConnect {s : NetSock} {ipv4Be : UInt32} {port : UInt16} {rand : UInt32}
    (hwait : ok .wait)
    (hconn : ∀ i w, ok (.step .other w
      (w.ffi i (-1) (smoltcpTcpConnect · s.localId ipv4Be port 0 rand)).2))
    (hactive : ∀ i w, ok (.step .other w (w.ffi i false (smoltcpTcpIsActive · s.localId)).2))
    (timeoutMs : UInt32) : Logs ok (netTcpConnect cfg s ipv4Be port timeoutMs rand) := by
  refine Logs.world.bind fun w => ?_
  rcases handleFor w s.iface with _ | i
  · exact Logs.pure _
  refine (logs_atomically (hconn i)).bind fun rc => ?_
  split_ifs
  · exact Logs.pure _
  refine logs_xTaskGetTickCount.bind fun start => Logs.loop (fun _ => ?_) ()
  refine logs_xTaskGetTickCount.bind fun now => ?_
  split_ifs
  · refine (logs_atomically (hactive i)).bind fun active => ?_
    split_ifs
    · exact Logs.pure _
    · exact (logs_blockingWait hwait).bind fun _ => Logs.pure _
  · exact Logs.pure _

theorem logs_wrapLwipConnect {addr : SockAddrIn} {rand : UInt32}
    (hopen : ∀ iface i w, ok (.step .other w ((netTcpOpen iface w).2.modFd i fun e =>
      { e with sock := (netTcpOpen iface w).1 })))
    (hconn : ∀ s timeoutMs, Logs ok (netTcpConnect cfg s addr.addrBe addr.port timeoutMs rand))
    (hdone : ∀ i w, ok (.step .other w (w.modFd i fun e => { e with connected := true })))
    (hpeer : ∀ i w, ok (.step .other w (w.modFd i fun e =>
      { e with localIpv4Be := addr.addrBe, localPort := addr.port, connected := true })))
    (fd : ℤ) (alen : ℕ) : Logs ok (wrapLwipConnect cfg fd addr alen rand) := by
  refine Logs.world.bind fun w => ?_
  rcases fdGet cfg w fd with _ | i
  · exact Logs.pure _
  simp only
  split_ifs
  · exact Logs.pure _
  refine Logs.world.bind fun w₀ => ?_
  rcases (w₀.fdAt i).kind with _ | _ | _ | _
  · exact Logs.pure _
  · refine (logs_atomically (hopen (w₀.fdAt i).iface i)).bind fun s => ?_
    by_cases hv : (!s.valid) = true
    · rw [if_pos hv]
      exact Logs.pure _
    · rw [if_neg hv]
      refine (hconn s _).bind fun er => ?_
      split_ifs
      · exact Logs.pure _
      · exact (logs_atomically (hdone i)).bind fun _ => Logs.pure _
  · exact (logs_atomically (hpeer i)).bind fun _ => Logs.pure _
  · exact Logs.pure _

theorem logs_loReceiveWait {i : ℕ} (hwait : ok .wait)
    (h : ∀ w, ok (.step .other w (loReceive i w).2)) (timeoutMs : UInt32) :
    Logs ok (loReceiveWait cfg i timeoutMs) := by
  refine logs_xTaskGetTickCount.bind fun start => Logs.loop (fun now => ?_) start
  refine (logs_atomically h).bind fun r => ?_
  rcases r with _ | m
  · simp only
    split_ifs
    · exact Logs.pure _
    · exact (Logs.emit hwait).bind fun _ => Logs.elapse.bind fun _ => Logs.pure _
  · exact Logs.pure _

theorem logs_wrapLwipRecvfrom {len : ℕ}
    (hlo : ∀ i timeoutMs, Logs ok (loReceiveWait cfg i timeoutMs))
    (hudp : ∀ s timeoutMs, Logs ok (netUdpRecvfrom cfg s len timeoutMs)) (fd : ℤ) :
    Logs ok (wrapLwipRecvfrom cfg fd len) := by
  refine Logs.world.bind fun w => ?_
  rcases fdGet cfg w fd with _ | i
  · exact Logs.pure _
  refine Logs.world.bind fun w => ?_
  simp only
  split_ifs
  · exact Logs.pure _
  · refine (hlo i _).bind fun r => ?_
    rcases r with _ | m
    · exact Logs.world.bind fun _ => Logs.pure _
    · exact Logs.pure _
  · exact (hudp _ _).bind fun _ => Logs.pure _

/-! ## What a scan logs -/

/-- Everything a scan asks of a TCP socket meets `ok`. -/
structure QueryOk (ok : Event S → Prop) : Prop where
  connected : ∀ s w, ok (.step .other w (netTcpIsConnected s w).2)
  recvQueue : ∀ s w, ok (.step .other w (netTcpRecvQueue s w).2)
  sendCapacity : ∀ s w, ok (.step .other w (netTcpSendCapacity s w).2)

namespace QueryOk

variable (h : QueryOk ok)

include h

theorem anyConnected (ss : List NetSock) : Logs ok (anyConnected ss) := by
  induction ss with
  | nil => exact Logs.pure false
  | cons s ss ih =>
    refine (logs_atomically (h.connected s)).bind fun b => ?_
    split_ifs
    · exact Logs.pure true
    · exact ih

theorem fdWritable (i : ℕ) : Logs ok (fdWritable i) := by
  refine Logs.world.bind fun w => ?_
  simp only
  rcases (w.fdAt i).kind with _ | _ | _ | _
  · exact Logs.pure _
  · simp only
    split_ifs
    · exact (logs_atomically (h.sendCapacity _)).bind fun _ => Logs.pure _
    · exact Logs.pure _
  · exact Logs.pure _
  · exact Logs.pure _

end QueryOk

/-- Everything a scan can do meets `ok`. -/
structure ScanOk (cfg : Config) (ok : Event S → Prop) : Prop extends QueryOk ok where
  wait : ok .wait
  probe : ∀ s h w, s.iface = h.code → ok (.step (.udpRecv s) w (udpRecvProbe h s.localId 0 w).2)
  answer : ∀ i w sched l b s', fdReadable cfg i ⟨w, sched, l⟩ = (some b, s') → ok (.readable i w b)

namespace ScanOk

variable (h : ScanOk cfg ok)

include h

theorem fdReadable (i : ℕ) : Logs ok (fdReadable cfg i) := by
  refine Logs.world.bind fun w => ?_
  simp only
  split_ifs
  · exact h.toQueryOk.anyConnected _
  · exact Logs.pure _
  · rcases (w.fdAt i).kind with _ | _ | _ | _
    · exact Logs.pure _
    · refine (logs_atomically (h.recvQueue _)).bind fun n => ?_
      split_ifs
      · exact Logs.pure _
      · exact (logs_atomically (h.connected _)).bind fun up => Logs.world.bind fun _ => Logs.pure _
    · exact (logs_netUdpRecvfrom h.wait (h.probe _) cfg 0).bind fun _ => Logs.pure _
    · exact Logs.pure _

theorem askReadable (i : ℕ) : Logs ok (askReadable cfg i) := by
  rintro ⟨w, sched, l⟩ hl
  rw [EspSmoltcp.askReadable, Thread.world_bind_apply]
  rcases hrun : EspSmoltcp.fdReadable cfg i ⟨w, sched, l⟩ with ⟨_ | b, s'⟩
  · rw [Thread.bind_of_none hrun]
    exact (h.fdReadable i).of_none hl hrun
  · rw [Thread.bind_of_some hrun]
    intro e he
    obtain rfl | he := List.mem_cons.mp he
    · exact h.answer i w sched l b s' hrun
    · exact (h.fdReadable i).of_some hl hrun e he

theorem scanFd (rdIn wrIn : Finset ℤ) (fd : ℤ) (r : Ready) : Logs ok (scanFd cfg rdIn wrIn fd r) := by
  refine Logs.world.bind fun w => ?_
  rcases fdGet cfg w fd with _ | i
  · exact Logs.pure r
  · simp only
    split_ifs
    · exact (h.askReadable i).bind fun _ => (h.toQueryOk.fdWritable i).bind fun _ => Logs.pure _
    · exact (h.askReadable i).bind fun _ => (Logs.pure false).bind fun _ => Logs.pure _
    · exact (Logs.pure false).bind fun _ => (h.toQueryOk.fdWritable i).bind fun _ => Logs.pure _
    · exact (Logs.pure false).bind fun _ => (Logs.pure false).bind fun _ => Logs.pure _

theorem selectScan (rdIn wrIn : Finset ℤ) (fds : List ℤ) (r : Ready) :
    Logs ok (selectScan cfg rdIn wrIn fds r) := by
  induction fds generalizing r with
  | nil => exact Logs.pure r
  | cons fd fds ih => exact (h.scanFd rdIn wrIn fd r).bind ih

theorem selectTurn (nfds : ℤ) (rdIn wrIn : Finset ℤ) (deadline : UInt32) :
    Logs ok (selectTurn cfg nfds rdIn wrIn deadline) := by
  have hwait : Logs ok (do blockingWait; pure (.inl ()) : Code S (Unit ⊕ Ready)) :=
    (logs_blockingWait h.wait).bind fun _ => Logs.pure _
  refine (h.selectScan rdIn wrIn _ {}).bind fun r => ?_
  split_ifs
  · exact Logs.pure _
  · exact hwait
  · refine logs_xTaskGetTickCount.bind fun now => ?_
    split_ifs
    · exact Logs.pure _
    · exact hwait

theorem wrapLwipSelect (nfds : ℤ) (rd wr : Finset ℤ) (timeout : Option TimeVal) :
    Logs ok (wrapLwipSelect cfg nfds rd wr timeout) := by
  have hloop : ∀ deadline, Logs ok (selectLoop cfg nfds rd wr deadline) :=
    fun deadline => Logs.loop (fun _ => h.selectTurn nfds rd wr deadline) ()
  rcases timeout with _ | tv
  · exact hloop portMaxDelay
  · exact logs_xTaskGetTickCount.bind fun start => hloop _

theorem wrapLwipPoll (fds : List PollFd) (timeoutMs : ℤ) : Logs ok (wrapLwipPoll cfg fds timeoutMs) := by
  refine (h.wrapLwipSelect _ _ _ _).bind fun r => ?_
  split_ifs
  · exact Logs.pure _
  · exact Logs.pure _

end ScanOk

end Logs

/-- The fd is a UDP one that is not bound to loopback. -/
def FdEntry.plainUdp (e : FdEntry) : Prop :=
  e.kind = .udp ∧ ¬ (e.loopback = true ∧ e.loRx.isSome = true)

/-- What a scan does to the queues: zero-length receives, queries that leave them alone, and answers that
never report a plain UDP fd. -/
inductive ScanEvent : Event S → Prop
  | probe {s : NetSock} {h : IfaceId} (hs : s.iface = h.code) (w : World S) :
      ScanEvent (.step (.udpRecv s) w (udpRecvProbe h s.localId 0 w).2)
  | query {w w' : World S} (h : RxSame w w') : ScanEvent (.step .other w w')
  | answer {w : World S} {i : ℕ} {b : Bool} (h : (w.fdAt i).plainUdp → b = false) :
      ScanEvent (.readable i w b)
  | wait : ScanEvent .wait

theorem scanOk_scanEvent (cfg : Config) : ScanOk cfg (ScanEvent (S := S)) where
  wait := .wait
  connected s w := .query (rxSame_netTcpIsConnected s w)
  recvQueue s w := .query (rxSame_netTcpRecvQueue s w)
  sendCapacity s w := .query (rxSame_netTcpSendCapacity s w)
  probe _ _ w hs := .probe hs w
  answer _ _ _ _ _ _ hrun := .answer fun hu => fdReadable_udp hu.1 hu.2 hrun

end EspSmoltcp
