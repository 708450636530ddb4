import EspSmoltcp.Compat.Calls

/-!
# Compat/Teardown — what a connection still owes when it is ended

`smoltcp_tcp_close` calls `close()` and takes the socket out of the `SocketSet` in the same breath, so
whatever the socket had not sent yet is never sent.  Every way of ending a connection — `close`, through
`fd_free`, `shutdown` and `net_tcp_close` — goes through it.

A socket that is removed owes nothing exactly when it had nothing unsent and `close()` asked for no FIN
(`drains_iff`): no socket that is still in the set has an unsent FIN, since only a close asks for one.
-/

namespace EspSmoltcp

variable {S : Smoltcp} {α : Type}

/-! ## TCP sockets by handle -/

/-- The TCP socket behind a handle of the `SocketSet`. -/
def IfaceCtx.tcpAt (ctx : IfaceCtx S) (sh : SocketHandle) : Option S.tcp.Socket :=
  (ctx.sockets.lookup sh).bind Socket.tcp?

/-- The TCP socket behind a handle of an interface's `SocketSet`. -/
def World.tcpAt (w : World S) (i : IfaceId) (sh : SocketHandle) : Option S.tcp.Socket :=
  (w.ctx i).bind fun ctx => ctx.tcpAt sh

theorem World.tcpAt_of_ctx {w : World S} {i : IfaceId} {ctx : IfaceCtx S} (h : w.ctx i = some ctx)
    (sh : SocketHandle) : w.tcpAt i sh = ctx.tcpAt sh := by rw [tcpAt, h, Option.bind_some]

/-- Everything accepted was transmitted, the FIN included. -/
def Drained (x : S.tcp.Socket) : Prop := S.tcp.unsent x = [] ∧ S.tcp.finUnsent x = false

theorem World.tcpAt_of_ifaces {w w' : World S} (h : w'.ifaces = w.ifaces) : w'.tcpAt = w.tcpAt := by
  funext i sh
  rw [tcpAt, tcpAt, World.ctx, World.ctx, h]

/-! ## No unsent FIN -/

/-- No socket of an interface has an unsent FIN. -/
structure IfaceCtx.NoFin (ctx : IfaceCtx S) : Prop where
  fin : ∀ sh x, ctx.tcpAt sh = some x → S.tcp.finUnsent x = false

namespace IfaceCtx.NoFin

variable {ctx ctx' : IfaceCtx S}

theorem of_sockets (h : ctx.NoFin) (he : ctx'.sockets = ctx.sockets) : ctx'.NoFin := by
  refine ⟨fun sh x hx => h.fin sh x ?_⟩
  rwa [tcpAt, he] at hx

theorem openSocket (h : ctx.NoFin) {x : Socket S}
    (hx : ∀ t, x.tcp? = some t → S.tcp.finUnsent t = false) : (ctx.openSocket x).2.NoFin := by
  refine ⟨fun sh t ht => ?_⟩
  by_cases hsh : sh = S.slot ctx.sockets.keys
  · subst hsh
    refine hx t ?_
    rwa [tcpAt, show (ctx.openSocket x).2.sockets.lookup _ = some x from AList.lookup_insert _] at ht
  · refine h.fin sh t ?_
    rwa [tcpAt, show (ctx.openSocket x).2.sockets.lookup sh = ctx.sockets.lookup sh from
      AList.lookup_insert_ne hsh] at ht

/-- A socket that is replaced gets no FIN to send. -/
theorem setSocket (h : ctx.NoFin) {sh : SocketHandle} {x x' : Socket S}
    (hs : ctx.sockets.lookup sh = some x)
    (hfin : (∀ t, x.tcp? = some t → S.tcp.finUnsent t = false) →
      ∀ t, x'.tcp? = some t → S.tcp.finUnsent t = false) : (ctx.setSocket sh x').NoFin := by
  refine ⟨fun sh' t ht => ?_⟩
  rw [tcpAt, IfaceCtx.setSocket, SocketSet.lookup_replace, hs] at ht
  split_ifs at ht
  · exact hfin (fun t h' => h.fin sh t (by rwa [tcpAt, hs])) t ht
  · exact h.fin sh' t ht

theorem withTcp (h : ctx.NoFin) (id : UInt32) (err : α) {f : S.tcp.Socket → α × S.tcp.Socket}
    (hf : ∀ x, S.tcp.finUnsent x = false → S.tcp.finUnsent (f x).2 = false) :
    (ctx.withTcp id err f).2.NoFin := by
  obtain hc | hc | ⟨sh, x, he, hc⟩ := ctx.withTcp_cases id err f
  · rw [hc]
    exact h
  · rw [hc]
    exact h.of_sockets rfl
  · rw [hc]
    refine h.setSocket (entryAt_eq_some.mp he).2 fun h t ht => ?_
    obtain rfl := Option.some.inj ht
    exact hf x (h x rfl)

theorem withUdp (h : ctx.NoFin) (id : UInt32) (err : α) (f : S.udp.Socket → α × S.udp.Socket) :
    (ctx.withUdp id err f).2.NoFin := by
  obtain hc | hc | ⟨sh, x, he, hc⟩ := ctx.withUdp_cases id err f
  · rw [hc]
    exact h
  · rw [hc]
    exact h.of_sockets rfl
  · rw [hc]
    exact h.setSocket (entryAt_eq_some.mp he).2 fun _ t ht => by cases ht

theorem closeSocket (h : ctx.NoFin) (id : UInt32) (close : Socket S → Option (Socket S)) :
    (ctx.closeSocket id close).NoFin := by
  obtain hc | hc | ⟨sh, _, _, -, -, hc⟩ := ctx.closeSocket_cases id close
  · rw [hc]
    exact h
  · rw [hc]
    exact h.of_sockets rfl
  · rw [hc]
    refine ⟨fun sh' t ht => ?_⟩
    by_cases hsh : sh' = sh
    · subst hsh
      rw [tcpAt, unregister, AList.lookup_erase] at ht
      cases ht
    · rw [tcpAt, unregister, AList.lookup_erase_ne hsh] at ht
      exact h.fin sh' t ht

end IfaceCtx.NoFin

/-- **Only a close asks for a FIN**, and what is closed is gone. -/
theorem ctxInv_noFin : CtxInv (IfaceCtx.NoFin (S := S)) where
  panic _ h := h.of_sockets rfl
  tcpOpen _ h := h.openSocket fun t ht => by
    obtain rfl := Option.some.inj ht
    exact S.tcp.finUnsent_new
  tcpConnect _ id dstBe dstPort localPort rand h := by
    refine h.withTcp id (-1) fun x hx => ?_
    rcases hc : S.tcp.connect x (endpointOf dstBe dstPort) (connectPort localPort rand) with _ | x'
    · exact hx
    · exact (S.tcp.connect_spec _ _ _ _ hc).2
  tcpListen _ id port h := by
    refine h.withTcp id (-1) fun x hx => ?_
    rcases hl : S.tcp.listen x port with _ | x'
    · exact hx
    · exact (S.tcp.listen_spec _ _ _ hl).2
  tcpSend _ id data h := by
    refine h.withTcp id (-1) fun x hx => ?_
    rcases hs : S.tcp.sendSlice x data with _ | ⟨n, x'⟩
    · exact hx
    · exact (S.tcp.sendSlice_spec _ _ _ _ hs).2.2.trans hx
  tcpRecv _ id cap h := by
    refine h.withTcp id _ fun x hx => ?_
    have hfin := (S.tcp.finUnsent_recvSlice x cap).trans hx
    rcases hr : S.tcp.recvSlice x cap with ⟨_ | data, x'⟩
    · rwa [hr] at hfin
    · rwa [hr] at hfin
  tcpClose _ id h := h.closeSocket id _
  udpOpen ctx port h := by
    rw [smoltcpUdpOpen]
    split_ifs
    · exact h.openSocket fun t ht => by cases ht
    · rcases S.udp.bind S.udp.new port with _ | u
      · exact h
      · exact h.openSocket fun t ht => by cases ht
  udpSendto _ id _ _ _ h := h.withUdp id _ _
  udpRecvfrom _ id _ h := h.withUdp id _ _
  udpClose _ id h := h.closeSocket id _
  event _ sh x ev hs h := h.setSocket hs fun hx t ht => by
    obtain rfl := Option.some.inj ht
    by_contra hfin
    have hfin' := S.tcp.finUnsent_onEvent ev x (by simpa using hfin)
    rw [hx x rfl] at hfin'
    cases hfin'

/-! ## Closes -/

/-- The socket a handle reaches: its interface and its handle in the set. -/
def World.reaches (w : World S) (t : NetSock) : Option (IfaceId × SocketHandle) :=
  (handleFor w t.iface).bind fun i => (w.ctx i).bind fun ctx => (ctx.lookup t.localId).map (i, ·)

/-- The body of `net_tcp_close` and `net_udp_close`. -/
def closeThrough (close : Socket S → Option (Socket S)) (t : NetSock) (w : World S) : World S :=
  match handleFor w t.iface with
  | none => w
  | some h => (w.ffi h () fun ctx => ((), ctx.closeSocket t.localId close)).2

theorem netTcpClose_eq (t : NetSock) (w : World S) :
    (netTcpClose t w).2 = closeThrough Socket.closeTcp t w := by
  rw [netTcpClose, closeThrough]
  rcases handleFor w t.iface with _ | h
  · rfl
  · rfl

theorem netUdpClose_eq (t : NetSock) (w : World S) :
    (netUdpClose t w).2 = closeThrough Socket.closeUdp t w := by
  rw [netUdpClose, closeThrough]
  rcases handleFor w t.iface with _ | h
  · rfl
  · rfl

theorem handleFor_setCtx {w : World S} {i : IfaceId} {ctx ctx' : IfaceCtx S} (h : w.ctx i = some ctx)
    (n : UInt32) : handleFor (w.setCtx i ctx') n = handleFor w n := by
  rw [handleFor, handleFor]
  rcases IfaceId.ofCode n with _ | j
  · rfl
  · have hsome : ((w.setCtx i ctx').ctx j).isSome = (w.ctx j).isSome := by
      by_cases hj : j = i
      · subst hj
        rw [World.ctx_setCtx_self, h]
        rfl
      · rw [World.ctx_setCtx_ne w hj]
    simp only [World.enabled_setCtx, hsome]

theorem World.reaches_eq_some {w : World S} {t : NetSock} {i : IfaceId} {sh : SocketHandle} :
    w.reaches t = some (i, sh) ↔ handleFor w t.iface = some i ∧
      ∃ ctx, w.ctx i = some ctx ∧ ctx.lookup t.localId = some sh := by
  rw [reaches, Option.bind_eq_some_iff]
  constructor
  · rintro ⟨j, hj, h⟩
    obtain ⟨ctx, hctx, h⟩ := Option.bind_eq_some_iff.mp h
    obtain ⟨sh', hl, he⟩ := Option.map_eq_some_iff.mp h
    obtain ⟨rfl, rfl⟩ := Prod.mk.inj he
    exact ⟨hj, ctx, hctx, hl⟩
  · rintro ⟨hi, ctx, hctx, hl⟩
    exact ⟨i, hi, by rw [hctx, Option.bind_some, hl]; rfl⟩

/-- **What a close does to a TCP socket**: it is removed if the handle reaches it and the close accepts
it; otherwise it stays, within reach of the same handles. -/
inductive CloseEffect (hit : Prop) (i : IfaceId) (sh : SocketHandle) (x : S.tcp.Socket) (w w' : World S) :
    Prop
  | removed (hhit : hit) (hgone : w'.tcpAt i sh = none)
  | kept (hmiss : ¬ hit) (hstay : w'.tcpAt i sh = some x)
      (hreach : ∀ u, w'.reaches u = some (i, sh) ↔ w.reaches u = some (i, sh))

theorem CloseEffect.refl {hit : Prop} {i : IfaceId} {sh : SocketHandle} {x : S.tcp.Socket} {w : World S}
    (hmiss : ¬ hit) (hx : w.tcpAt i sh = some x) : CloseEffect hit i sh x w w :=
  .kept hmiss hx fun _ => Iff.rfl

/-- A context is replaced by one in which the socket stays, under the same ids. -/
theorem CloseEffect.setCtx {hit : Prop} {i j : IfaceId} {sh : SocketHandle} {x : S.tcp.Socket}
    {w : World S} {ctx ctx' : IfaceCtx S} (hmiss : ¬ hit) (hx : w.tcpAt i sh = some x)
    (hctx : w.ctx j = some ctx) (hsock : i = j → ctx'.tcpAt sh = ctx.tcpAt sh)
    (hids : i = j → ∀ id, ctx'.lookup id = some sh ↔ ctx.lookup id = some sh) :
    CloseEffect hit i sh x w (w.setCtx j ctx') := by
  by_cases hij : i = j
  · subst hij
    refine .kept hmiss ?_ fun u => ?_
    · rw [World.tcpAt_of_ctx (World.ctx_setCtx_self ..), hsock rfl, ← World.tcpAt_of_ctx hctx, hx]
    · rw [World.reaches_eq_some, World.reaches_eq_some, handleFor_setCtx hctx, World.ctx_setCtx_self, hctx]
      simp only [Option.some.injEq, exists_eq_left', hids rfl]
  · refine .kept hmiss ?_ fun u => ?_
    · rw [World.tcpAt, World.ctx_setCtx_ne w hij]
      exact hx
    · rw [World.reaches_eq_some, World.reaches_eq_some, handleFor_setCtx hctx, World.ctx_setCtx_ne w hij]

variable {i : IfaceId} {sh : SocketHandle} {x : S.tcp.Socket} {w : World S}

theorem closeThrough_effect (hx : w.tcpAt i sh = some x) (close : Socket S → Option (Socket S))
    (t : NetSock) :
    CloseEffect (w.reaches t = some (i, sh) ∧ (close (.tcp x)).isSome = true) i sh x w
      (closeThrough close t w) := by
  rcases hf : handleFor w t.iface with _ | j
  · rw [closeThrough, hf]
    refine .refl (fun h => ?_) hx
    rw [World.reaches_eq_some, hf] at h
    cases h.1.1
  obtain ⟨-, ctx, hctx⟩ := of_handleFor_eq_some hf
  have hsame : i = j → ctx.tcpAt sh = some x := by
    rintro rfl
    rw [← World.tcpAt_of_ctx hctx, hx]
  have hlook : i = j → ctx.sockets.lookup sh = some (.tcp x) := by
    intro hij
    obtain ⟨y, hy, hyx⟩ := Option.bind_eq_some_iff.mp (hsame hij)
    rcases y with y | _ | _
    · rw [hy, Option.some.inj hyx]
    · cases hyx
    · cases hyx
  simp only [closeThrough, hf, World.ffi_of_ctx hctx]
  by_cases hhit : w.reaches t = some (i, sh) ∧ (close (.tcp x)).isSome = true
  · obtain ⟨hf', ctx', hctx', hl⟩ := World.reaches_eq_some.mp hhit.1
    obtain rfl := Option.some.inj (hf'.symm.trans hf)
    obtain rfl := Option.some.inj (hctx'.symm.trans hctx)
    obtain ⟨x', hx'⟩ := Option.isSome_iff_exists.mp hhit.2
    rw [IfaceCtx.closeSocket_of_some (IfaceCtx.entryAt_eq_some.mpr ⟨hl, hlook rfl⟩) hx']
    refine .removed hhit ?_
    rw [World.tcpAt_of_ctx (World.ctx_setCtx_self ..), IfaceCtx.tcpAt, IfaceCtx.unregister,
      AList.lookup_erase]
    rfl
  · obtain hc | hc | ⟨sh', y, y', he, hy, hc⟩ := ctx.closeSocket_cases t.localId close
    · rw [hc, World.setCtx_self hctx]
      exact .refl hhit hx
    · rw [hc]
      exact .setCtx hhit hx hctx (fun _ => rfl) fun _ _ => Iff.rfl
    · rw [hc]
      obtain ⟨hl, hs⟩ := IfaceCtx.entryAt_eq_some.mp he
      have hne : i = j → sh ≠ sh' := by
        rintro rfl rfl
        obtain rfl := Option.some.inj (hs.symm.trans (hlook rfl))
        exact hhit ⟨World.reaches_eq_some.mpr ⟨hf, ctx, hctx, hl⟩, by rw [hy]; rfl⟩
      refine .setCtx hhit hx hctx (fun hij => ?_) fun hij id => ?_
      · rw [IfaceCtx.tcpAt, IfaceCtx.unregister, AList.lookup_erase_ne (hne hij)]
        rfl
      · rw [IfaceCtx.lookup_unregister]
        by_cases hid : id = t.localId
        · subst hid
          rw [Function.update_self, hl]
          simpa using (hne hij).symm
        · rw [Function.update_of_ne hid]

/-- A close brings no socket into the set. -/
theorem tcpAt_closeThrough (close : Socket S → Option (Socket S)) (t : NetSock) (i : IfaceId)
    (sh : SocketHandle) (w : World S) :
    (closeThrough close t w).tcpAt i sh = w.tcpAt i sh ∨ (closeThrough close t w).tcpAt i sh = none := by
  rcases hf : handleFor w t.iface with _ | j
  · exact .inl (by rw [closeThrough, hf])
  obtain ⟨-, ctx, hctx⟩ := of_handleFor_eq_some hf
  simp only [closeThrough, hf, World.ffi_of_ctx hctx]
  by_cases hij : i = j
  · subst hij
    rw [World.tcpAt_of_ctx hctx, World.tcpAt_of_ctx (World.ctx_setCtx_self ..)]
    obtain hc | hc | ⟨sh', _, _, -, -, hc⟩ := ctx.closeSocket_cases t.localId close
    · exact .inl (by rw [hc])
    · exact .inl (by rw [hc]; rfl)
    · rw [hc]
      by_cases hsh : sh = sh'
      · subst hsh
        refine .inr ?_
        rw [IfaceCtx.tcpAt, IfaceCtx.unregister, AList.lookup_erase]
        rfl
      · refine .inl ?_
        rw [IfaceCtx.tcpAt, IfaceCtx.unregister, AList.lookup_erase_ne hsh]
        rfl
  · refine .inl ?_
    rw [World.tcpAt, World.ctx_setCtx_ne w hij]
    rfl

/-- `net_tcp_close`, handle by handle. -/
def closeEach (ts : List NetSock) (w : World S) : World S :=
  ts.foldl (fun w t => (netTcpClose t w).2) w

theorem closePool_eq (ts : List NetSock) (w : World S) :
    closePool ts w = closeEach (ts.filter NetSock.valid) w := by
  rw [closePool, closeEach, List.foldl_filter]

theorem closeEach_cons (t : NetSock) (ts : List NetSock) (w : World S) :
    closeEach (t :: ts) w = closeEach ts (closeThrough Socket.closeTcp t w) := by
  rw [← netTcpClose_eq]
  rfl

theorem closeEach_of_none (h : w.tcpAt i sh = none) (ts : List NetSock) :
    (closeEach ts w).tcpAt i sh = none := by
  induction ts generalizing w with
  | nil => exact h
  | cons t ts ih =>
    rw [closeEach_cons]
    refine ih ?_
    obtain he | he := tcpAt_closeThrough Socket.closeTcp t i sh w
    · rw [he, h]
    · exact he

/-- **The handles closed remove exactly the sockets they reach.** -/
theorem closeEach_eq_none (hx : w.tcpAt i sh = some x) (ts : List NetSock) :
    (closeEach ts w).tcpAt i sh = none ↔ ∃ t ∈ ts, w.reaches t = some (i, sh) := by
  induction ts generalizing w with
  | nil => simp [closeEach, hx]
  | cons t ts ih =>
    rw [closeEach_cons, List.exists_mem_cons_iff]
    obtain ⟨hhit, hgone⟩ | ⟨hmiss, hstay, hreach⟩ := closeThrough_effect hx Socket.closeTcp t
    · exact iff_of_true (closeEach_of_none hgone ts) (.inl hhit.1)
    · rw [ih hstay, or_iff_right fun h => hmiss ⟨h, rfl⟩]
      simp only [hreach]

/-! ## What `fd_free` closes -/

/-- The handles of an entry that `fd_free` passes to `net_tcp_close`. -/
def FdEntry.tcpHandles (e : FdEntry) : List NetSock :=
  ((if e.kind = .udp then [] else [e.sock]) ++ e.pool).filter NetSock.valid

theorem World.reaches_of_ifaces {w w' : World S} (h : w'.ifaces = w.ifaces) :
    w'.reaches = w.reaches := by
  obtain ⟨ifaces, _, _, _, _⟩ := w
  obtain ⟨ifaces', _, _, _, _⟩ := w'
  obtain rfl : ifaces' = ifaces := h
  rfl

/-- An entry that is not a UDP socket is closed handle by handle. -/
theorem closePool_closeOwned {e : FdEntry} (hk : e.kind ≠ .udp) (w : World S) :
    closePool e.pool (closeOwned e.kind e.sock w) = closeEach e.tcpHandles w := by
  have howned : closeOwned e.kind e.sock w = closePool [e.sock] w := by
    rw [closeOwned, if_neg hk]
    rfl
  rw [FdEntry.tcpHandles, if_neg hk, ← closePool_eq, howned, closePool, closePool, closePool,
    List.foldl_append]

/-- **The TCP sockets `fd_free` removes**, before the entry is marked free. -/
theorem closePool_closeOwned_eq_none (hx : w.tcpAt i sh = some x) (e : FdEntry) :
    (closePool e.pool (closeOwned e.kind e.sock w)).tcpAt i sh = none ↔
      ∃ t ∈ e.tcpHandles, w.reaches t = some (i, sh) := by
  by_cases hk : e.kind = .udp
  · have hpool : e.tcpHandles = e.pool.filter NetSock.valid := by
      rw [FdEntry.tcpHandles, if_pos hk, List.nil_append]
    rw [closePool_eq, ← hpool, closeOwned, if_pos hk]
    split_ifs
    · rw [netUdpClose_eq]
      obtain ⟨hhit, -⟩ | ⟨-, hstay, hreach⟩ := closeThrough_effect hx Socket.closeUdp e.sock
      · cases hhit.2
      · rw [closeEach_eq_none hstay]
        simp only [hreach]
    · exact closeEach_eq_none hx _
  · rw [closePool_closeOwned hk]
    exact closeEach_eq_none hx _

/-- What `fd_free` passes to `net_tcp_close`. -/
def fdTcpHandles (cfg : Config) (fd : ℤ) (w : World S) : List NetSock :=
  match fdGet cfg w fd with
  | none => []
  | some k => (w.fdAt k).tcpHandles

theorem fdFree_eq_none (hx : w.tcpAt i sh = some x) (cfg : Config) (fd : ℤ) :
    (fdFree cfg fd w).tcpAt i sh = none ↔
      ∃ t ∈ fdTcpHandles cfg fd w, w.reaches t = some (i, sh) := by
  rcases hk : fdGet cfg w fd with _ | k
  · simp [fdFree, fdTcpHandles, hk, hx]
  · obtain ⟨w', hw', he⟩ := ifaces_fdFree hk
    rw [← World.tcpAt_of_ifaces hw'] at hx
    rw [World.tcpAt_of_ifaces he, closePool_closeOwned_eq_none hx, World.reaches_of_ifaces hw',
      fdTcpHandles, hk]

/-! ## Ending a connection -/

/-- The ways a TCP connection is ended. -/
inductive Ending
  | close (fd : ℤ)
  | shutdown (fd : ℤ)
  | tcpClose (s : NetSock)

namespace Ending

/-- The world an ending leaves. -/
def run (cfg : Config) (w : World S) : Ending → World S
  | close fd => (wrapLwipClose cfg fd w).2
  | shutdown fd => (wrapLwipShutdown cfg fd w).2
  | tcpClose s => (netTcpClose s w).2

/-- The handles an ending passes to `net_tcp_close`. -/
def handles (cfg : Config) (w : World S) : Ending → List NetSock
  | close fd => fdTcpHandles cfg fd w
  | shutdown fd =>
    match fdGet cfg w fd with
    | none => []
    | some k => if (w.fdAt k).kind = .tcp ∧ (w.fdAt k).sock.valid then [(w.fdAt k).sock] else []
  | tcpClose s => [s]

/-- The sockets to be closed have nothing unsent, and are in a state in which `close()` asks for no
FIN. -/
def Ripe (cfg : Config) (w : World S) (e : Ending) : Prop :=
  ∀ t ∈ e.handles cfg w, ∀ i sh x, w.reaches t = some (i, sh) → w.tcpAt i sh = some x →
    S.tcp.unsent x = [] ∧ (S.tcp.state x).closeQueuesFin = false

/-- **An ending removes exactly the sockets its handles reach.** -/
theorem run_eq_none {w : World S} {i : IfaceId} {sh : SocketHandle} {x : S.tcp.Socket}
    (hx : w.tcpAt i sh = some x) (cfg : Config) (e : Ending) :
    (e.run cfg w).tcpAt i sh = none ↔ ∃ t ∈ e.handles cfg w, w.reaches t = some (i, sh) := by
  rcases e with fd | fd | s
  · rw [run, wrapLwipClose_snd]
    exact fdFree_eq_none hx cfg fd
  · rcases hk : fdGet cfg w fd with _ | k
    · simp [run, handles, wrapLwipShutdown, hk, hx]
    · simp only [run, handles, wrapLwipShutdown, hk]
      split_ifs
      · rw [World.tcpAt_of_ifaces (World.ifaces_modFd _)]
        exact closeEach_eq_none hx [_]
      · simp [hx]
  · exact closeEach_eq_none hx [s]

end Ending

/-- **Whatever is removed was drained**: a TCP socket that goes has transmitted all that was accepted and
the FIN its `close()` asked for. -/
def Drains (w w' : World S) : Prop :=
  ∀ i sh x, w.tcpAt i sh = some x → w'.tcpAt i sh = none → Drained (S.tcp.close x)

/-- Right before a `close()` that asks for no FIN, nothing is unsent. -/
theorem drained_close_iff {x : S.tcp.Socket} (h : S.tcp.finUnsent x = false) :
    Drained (S.tcp.close x) ↔ S.tcp.unsent x = [] ∧ (S.tcp.state x).closeQueuesFin = false := by
  obtain ⟨hunsent, hfin⟩ := S.tcp.close_spec x
  rw [Drained, hunsent, hfin, h, Bool.false_or]

/-- **In every reachable state, ending a connection loses nothing exactly when what is closed is ripe.** -/
theorem drains_iff {cfg : Config} {ifs : List (IfaceId × (Fin 6 → UInt8))} {w : World S}
    (h : Relation.ReflTransGen (SockStep cfg) (.booted cfg ifs) w) (e : Ending) :
    Drains w (e.run cfg w) ↔ e.Ripe cfg w := by
  have hall := ctxInv_noFin.of_run (fun n mac => ⟨fun sh x hx => by cases hx⟩) h
  have hfin : ∀ i sh x, w.tcpAt i sh = some x → S.tcp.finUnsent x = false := by
    intro i sh x hx
    obtain ⟨ctx, hctx, hx⟩ := Option.bind_eq_some_iff.mp hx
    exact (hall.ctx i ctx hctx).fin sh x hx
  constructor
  · intro hd t ht i sh x hreach hx
    rw [← drained_close_iff (hfin i sh x hx)]
    exact hd i sh x hx ((Ending.run_eq_none hx cfg e).mpr ⟨t, ht, hreach⟩)
  · intro hr i sh x hx hgone
    obtain ⟨t, ht, hreach⟩ := (Ending.run_eq_none hx cfg e).mp hgone
    rw [drained_close_iff (hfin i sh x hx)]
    exact hr t ht i sh x hreach hx

/-! ### A response that is still queued -/

/-- A socket of the Ethernet interface listens on port 80. -/
def listening : World .reference :=
  (netTcpListen ⟨1⟩ 80 (netTcpOpen .eth (.booted .default [(.eth, fun _ => 0)])).2).2

/-- A peer has connected to it. -/
def peerIn : World .reference := (listening.deliver .eth 0 .connect).deliver .eth 0 .connect

/-- Three bytes were accepted by `net_tcp_send`. -/
def responded : World .reference := (peerIn.ffi .eth (-1) (smoltcpTcpSend · 1 [1, 2, 3])).2

theorem run_listening : Relation.ReflTransGen (SockStep .default)
    (.booted .default [(.eth, fun _ => 0)]) listening := by
  refine .tail (.single (.call (.tcpOpen .eth) [] (.head _))) ?_
  exact .call (.tcpListen ⟨1⟩ 80) [] (.head _)

theorem run_responded : Relation.ReflTransGen (SockStep .default)
    (.booted .default [(.eth, fun _ => 0)]) responded := by
  have hsend : .step .other peerIn responded ∈
      (((SockCall.tcpSend ⟨1⟩ [1, 2, 3] 5000).code .default).run peerIn [idle 0]).2.log := .head _
  refine .tail (.tail (.tail run_listening (.event .eth 0 .connect)) (.event .eth 0 .connect)) ?_
  exact .call (.tcpSend ⟨1⟩ [1, 2, 3] 5000) [idle 0] hsend

/-- The three bytes have left, and the peer, which has them, has reset the connection: there is no FIN to send. -/
def answered : World .reference := (responded.deliver .eth 0 .transmit).deliver .eth 0 .reset

/-- A connection whose bytes have all left and which its peer has ended is ripe. -/
theorem drains_answered : answered.tcpAt .eth 0 = some { state := .closed } ∧
    Drains answered ((Ending.tcpClose ⟨1⟩).run .default answered) := by
  refine ⟨rfl, (drains_iff (run_responded.tail (.event .eth 0 .transmit) |>.tail (.event .eth 0 .reset))
    _).mpr fun t ht i sh x hreach hx => ?_⟩
  obtain rfl := List.mem_singleton.mp ht
  obtain ⟨rfl, rfl⟩ : IfaceId.eth = i ∧ 0 = sh := Prod.mk.inj (Option.some.inj hreach)
  obtain rfl : ({ state := .closed } : RefTcp) = x := Option.some.inj hx
  exact ⟨rfl, rfl⟩

/-- **The response is accepted, and `net_tcp_close` throws it away.** -/
theorem close_drops_response :
    Relation.ReflTransGen (SockStep .default) (.booted .default [(.eth, fun _ => 0)]) responded ∧
      ((netTcpSend .default ⟨1⟩ [1, 2, 3] 5000).run peerIn [idle 0]).1 = some 3 ∧
      ¬ Drains responded ((Ending.tcpClose ⟨1⟩).run .default responded) := by
  refine ⟨run_responded, rfl, fun h => ?_⟩
  cases (h .eth 0 _ rfl rfl).2

end EspSmoltcp
