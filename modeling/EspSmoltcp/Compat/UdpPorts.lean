import EspSmoltcp.Compat.Ownership
import EspSmoltcp.Stack.RecvLoop

/-!
# Compat/UdpPorts — which local port a UDP fd sends from

smoltcp sends from no socket without a local port.  `socket()` opens a UDP socket on port 0, which leaves
it without one, and only `bind` to an address outside `127/8` opens it on another: `bind` to a loopback
address, `connect`, `sendto` and `recvfrom` leave the port alone (`UdpRun.sendsFrom`).

So `sendto` works exactly on the fds whose last such `bind` named a port (`sendto_works_iff`): there is no
ephemeral port, as there is for a TCP connect.
-/

namespace EspSmoltcp

open Thread (Along Stable Triple)

variable {S : Smoltcp}

/-! ## What smoltcp does with the port -/

/-- The documented behaviour of `udp::Socket` around its local port and its transmit buffer. -/
structure UdpTx (U : UdpApi) where
  /-- The port the socket was bound to, or 0. -/
  localPort : U.Socket → UInt16
  /-- A datagram of this length fits the free transmit space. -/
  fits : U.Socket → ℕ → Prop
  localPort_new : localPort U.new = 0
  localPort_bind : ∀ x p x', U.bind x p = some x' → localPort x' = p
  localPort_recvSlice : ∀ x n, localPort (U.recvSlice x n).2 = localPort x
  localPort_sendSlice : ∀ x d dst x', U.sendSlice x d dst = some x' → localPort x' = localPort x
  sendSlice_unbound : ∀ x d dst, localPort x = 0 → U.sendSlice x d dst = none
  sendSlice_bound : ∀ x d a p, localPort x ≠ 0 → a ≠ ⟨0, 0, 0, 0⟩ → p ≠ 0 → fits x d.length →
    (U.sendSlice x d ⟨.ipv4 a, p⟩).isSome = true

theorem RefUdp.port_bind {x x' : RefUdp} {p : UInt16} (h : x.bind p = some x') : x'.port = p := by
  rw [RefUdp.bind] at h
  split_ifs at h
  exact Option.some.inj h ▸ rfl

theorem RefUdp.port_recvSlice (x : RefUdp) (n : ℕ) : (x.recvSlice n).2.port = x.port := by
  rw [RefUdp.recvSlice.eq_def]
  split <;> rfl

theorem RefUdp.port_sendSlice {x x' : RefUdp} (h : (if x.port = 0 then none else some x) = some x') :
    x'.port = x.port := by
  split_ifs at h
  exact Option.some.inj h ▸ rfl

/-- The reference socket has room for everything. -/
def UdpTx.reference : UdpTx UdpApi.reference where
  localPort := RefUdp.port
  fits _ _ := True
  localPort_new := rfl
  localPort_bind _ _ _ := RefUdp.port_bind
  localPort_recvSlice := RefUdp.port_recvSlice
  localPort_sendSlice _ _ _ _ := RefUdp.port_sendSlice
  sendSlice_unbound _ _ _ h := if_pos h
  sendSlice_bound _ _ _ _ h _ _ _ := congrArg Option.isSome (if_neg h)

/-- An open on a port gives a socket on that port. -/
theorem UdpFresh.localPort (T : UdpTx S.udp) {port : UInt16} {u : S.udp.Socket} (h : UdpFresh port u) :
    T.localPort u = port := by
  obtain ⟨rfl, rfl⟩ | ⟨-, hbind⟩ := h
  · exact T.localPort_new
  · exact T.localPort_bind _ _ _ hbind

/-! ## The socket of the fd -/

/-- The fd is a UDP fd with a socket on this local port. -/
structure SendsFrom (T : UdpTx S.udp) (cfg : Config) (fd : ℤ) (i : ℕ) (port : UInt16) (w : World S) :
    Prop where
  wf : w.Wf
  index : fdIndex cfg fd = some i
  kind : (w.fdAt i).kind = .udp
  sock : ∃ x, w.udpOf (w.fdAt i).sock = some x ∧ T.localPort x = port

/-- What others may do between the calls on the fd and during them: they use no handle of its entry to
change the port. -/
structure Bystander (T : UdpTx S.udp) (i : ℕ) (w w' : World S) : Prop where
  wf : w.Wf → w'.Wf
  kind : (w'.fdAt i).kind = (w.fdAt i).kind
  sock : (w'.fdAt i).sock = (w.fdAt i).sock
  port : ∀ x, w.udpOf (w.fdAt i).sock = some x →
    ∃ x', w'.udpOf (w.fdAt i).sock = some x' ∧ T.localPort x' = T.localPort x

section Steps

variable {T : UdpTx S.udp} {cfg : Config} {fd : ℤ} {i : ℕ} {port : UInt16} {w w' : World S}

namespace SendsFrom

theorem fdGet (h : SendsFrom T cfg fd i port w) : fdGet cfg w fd = some i := by
  rw [EspSmoltcp.fdGet, h.index]
  simp [h.kind]

theorem lt (h : SendsFrom T cfg fd i port w) : i < w.fds.length := lt_length_of_fdGet h.fdGet

theorem bystander (h : SendsFrom T cfg fd i port w) (hs : Bystander T i w w') :
    SendsFrom T cfg fd i port w' := by
  obtain ⟨x, hx, hport⟩ := h.sock
  obtain ⟨x', hx', hport'⟩ := hs.port x hx
  exact ⟨hs.wf h.wf, h.index, hs.kind.trans h.kind, x', hs.sock ▸ hx', hport'.trans hport⟩

/-- A change of the statics that moves no handle. -/
theorem same (h : SendsFrom T cfg fd i port w) (hs : SameHandles w w') : SendsFrom T cfg fd i port w' := by
  refine h.bystander ⟨fun hw => hw.of_ifaces hs.ifaces, hs.kind i, hs.sock i, fun x hx => ⟨x, ?_, rfl⟩⟩
  rw [World.udpOf, World.entryOf_of_ifaces hs.ifaces]
  exact hx

/-- A call that puts another socket of the same port in the place of the socket. -/
theorem replace (h : SendsFrom T cfg fd i port w) {iface : IfaceId} {ctx : IfaceCtx S} {sh : SocketHandle}
    {x x' : S.udp.Socket} (hs : (w.fdAt i).sock.iface = iface.code) (hctx : w.ctx iface = some ctx)
    (he : ctx.entryAt (w.fdAt i).sock.localId = some (sh, .udp x)) (hport : T.localPort x' = T.localPort x) :
    SendsFrom T cfg fd i port (w.setCtx iface (ctx.setSocket sh (.udp x'))) := by
  refine h.bystander ⟨fun hw => hw.setCtx hctx ((hw.ctx iface ctx hctx).setSocket sh rfl), rfl, rfl,
    fun y hy => ⟨x', ?_, ?_⟩⟩
  · rw [World.udpOf, World.entryOf_setSocket hs he]
    rfl
  · rw [hport]
    have hx : w.udpOf (w.fdAt i).sock = some x := World.udpOf_eq_some.mpr ⟨iface, ctx, sh, hs, hctx, he⟩
    rw [hx] at hy
    rw [Option.some.inj hy]

/-- The socket, and how it is reached. -/
theorem reached (h : SendsFrom T cfg fd i port w) : ∃ iface ctx sh x,
    (w.fdAt i).sock.iface = iface.code ∧ w.ctx iface = some ctx ∧
      ctx.entryAt (w.fdAt i).sock.localId = some (sh, .udp x) ∧ T.localPort x = port ∧
      handleFor w (w.fdAt i).sock.iface = some iface := by
  obtain ⟨x, hx, hport⟩ := h.sock
  obtain ⟨iface, ctx, sh, hs, hctx, he⟩ := World.udpOf_eq_some.mp hx
  exact ⟨iface, ctx, sh, x, hs, hctx, he, hport, handleFor_of_ctx h.wf hs hctx⟩

/-- An open into the `sock` field of the entry. -/
theorem opened {iface : IfaceId} {r : NetSock × World S} (hindex : fdIndex cfg fd = some i)
    (hkind : (w.fdAt i).kind = .udp)
    (ho : Opened (fun x => ∃ u, x = .udp u ∧ UdpFresh port u) iface w r.1 r.2) :
    SendsFrom T cfg fd i port (r.2.modFd i fun e => { e with sock := r.1 }) := by
  have he : r.2.fdAt i = w.fdAt i := by rw [World.fdAt, ho.fds, ← World.fdAt]
  have hlt : i < r.2.fds.length := by
    rw [ho.fds]
    exact lt_length_of_ne_free (hkind ▸ FdKind.noConfusion)
  have hat := World.fdAt_modFd_self (fun e => { e with sock := r.1 }) hlt
  obtain ⟨sh, _, ⟨u, rfl, hfresh⟩, -, hentry⟩ := ho.entry
  refine ⟨ho.wf.of_ifaces rfl, hindex, by rw [hat, he]; exact hkind, u, ?_, hfresh.localPort T⟩
  rw [hat, World.udpOf, World.entryOf_of_ifaces (World.ifaces_modFd _), hentry, Function.update_self]
  rfl

/-! ### The calls -/

/-- `bind` to an address of the stack gives the fd the port of the address; a loopback address leaves the
socket alone. -/
theorem bind (h : SendsFrom T cfg fd i port w) {heap : Bool} {addr : SockAddrIn} {alen : ℕ}
    (hids : w.counter (w.fdAt i).iface < 2 ^ 24) (hret : (wrapLwipBind cfg heap fd addr alen w).1.ret = 0) :
    SendsFrom T cfg fd i (if isLoopbackIp addr.addrBe then port else addr.port)
      (wrapLwipBind cfg heap fd addr alen w).2 := by
  have hspec := wrapLwipBind_spec cfg heap fd addr alen w
  generalize wrapLwipBind cfg heap fd addr alen w = r at hspec hret ⊢
  cases hspec with
  | refused e => exact absurd hret (Ret.ret_fail_ne_zero _)
  | @stored j w₁ r hj hw hr =>
    obtain rfl : i = j := Option.some.inj (h.fdGet.symm.trans hj)
    have hbound : SameHandles w w₁ := hw ▸ SameHandles.modFd w i fun _ => rfl
    have h₁ := h.same hbound
    cases hr with
    | stream hk => exact absurd h₁.kind hk
    | loopback _ hlo ho =>
      rw [if_pos hlo]
      exact ho ▸ h₁.same (SameHandles.loBind ..)
    | @reopened hk hlo w₂ o hclose ho =>
      rw [if_neg (by rw [hlo]; decide)]
      have hclosed : w₂.Wf ∧ w₂.fds = w₁.fds ∧ w₂.counter = w₁.counter := by
        rw [← hclose]
        split_ifs
        · have hspec := h₁.wf.netUdpClose_spec (w₁.fdAt i).sock
          exact ⟨hspec.wf, hspec.fds, hspec.counter⟩
        · exact ⟨h₁.wf, rfl, rfl⟩
      obtain ⟨hwf, hfds, hcounter⟩ := hclosed
      have hkind : (w₂.fdAt i).kind = .udp := by
        rw [World.fdAt, hfds, ← World.fdAt]
        exact h₁.kind
      have hiface : (w₁.fdAt i).iface = (w.fdAt i).iface := by
        rw [← hw, World.fdAt_modFd_self _ h.lt]
        rfl
      have hids₂ : w₂.counter (w₁.fdAt i).iface < 2 ^ 24 := by
        rw [hcounter, World.counter_of_ifaces hbound.ifaces, hiface]
        exact hids
      obtain hrefused | hopened := (netUdpOpen_fresh (w₁.fdAt i).iface addr.port w₂).cases hwf
        (by rintro _ ⟨u, rfl, -⟩; rfl) hids₂
      · rw [ho] at hrefused
        rw [hrefused] at hret
        exact absurd hret (Ret.ret_fail_ne_zero _)
      · exact ho ▸ SendsFrom.opened h.index hkind hopened

/-- `connect` stores the peer. -/
theorem connect (h : SendsFrom T cfg fd i port w) {addr : SockAddrIn} {alen : ℕ} {rand : UInt32}
    {sched : List (Moment (World S))} {r : Ret} {sys : Sys (World S) (Event S)}
    (hrun : (wrapLwipConnect cfg fd addr alen rand).run w sched = (some r, sys)) :
    SendsFrom T cfg fd i port sys.world := by
  rw [Code.run, wrapLwipConnect, Thread.world_bind_apply] at hrun
  simp only [h.fdGet] at hrun
  by_cases hbad : alen < sizeofSockAddrIn
  · rw [if_pos hbad] at hrun
    obtain ⟨-, rfl⟩ := Prod.mk.inj hrun
    exact h
  · rw [if_neg hbad, Thread.world_bind_apply] at hrun
    simp only [h.kind] at hrun
    obtain ⟨-, rfl⟩ := Prod.mk.inj hrun
    exact h.same (SameHandles.modFd w i (f := fun e =>
      { e with localIpv4Be := addr.addrBe, localPort := addr.port, connected := true }) fun _ => rfl)

/-- `sendto` leaves the port alone. -/
theorem sendto (h : SendsFrom T cfg fd i port w) (heap : Bool) (buf : Bytes) (dst : SockAddrIn) (tolen : ℕ) :
    SendsFrom T cfg fd i port (wrapLwipSendto cfg heap fd buf dst tolen w).2 := by
  rw [wrapLwipSendto, h.fdGet]
  simp only [h.kind, ne_eq, not_true_eq_false, if_false]
  by_cases hbad : tolen < sizeofSockAddrIn
  · rw [if_pos hbad]
    exact h
  rw [if_neg hbad]
  by_cases hlo : isLoopbackIp dst.addrBe = true
  · rw [if_pos hlo]
    exact h.same (SameHandles.loDeliver ..)
  · rw [if_neg hlo]
    obtain ⟨iface, ctx, sh, x, hs, hctx, he, hport, hf⟩ := h.reached
    simp only [netUdpSendto, hf, World.ffi_of_ctx hctx, smoltcpUdpSendto, IfaceCtx.withUdp_of_udp he]
    rcases hsend : S.udp.sendSlice x buf (endpointOf dst.addrBe dst.port) with _ | x'
    · exact h.replace hs hctx he rfl
    · exact h.replace hs hctx he (T.localPort_sendSlice _ _ _ _ hsend)

theorem stable : Stable (fun env => ∀ w, Bystander T i w (env w)) (SendsFrom T cfg fd i port) :=
  fun _ henv w h => h.bystander (henv w)

/-- `net_udp_recvfrom` on the socket of the fd. -/
theorem netUdpRecvfrom {s : NetSock} {len : ℕ} {timeoutMs : UInt32} :
    Triple (Along (fun env => ∀ w, Bystander T i w (env w)) fun w =>
        SendsFrom T cfg fd i port w ∧ (w.fdAt i).sock = s)
      (netUdpRecvfrom cfg s len timeoutMs)
      (fun _ => Along (fun env => ∀ w, Bystander T i w (env w)) fun w =>
        SendsFrom T cfg fd i port w ∧ (w.fdAt i).sock = s) fun _ => True := by
  have hst : Stable (fun env => ∀ w, Bystander T i w (env w)) fun w =>
      SendsFrom T cfg fd i port w ∧ (w.fdAt i).sock = s :=
    fun env henv w h => ⟨h.1.bystander (henv w), (henv w).sock.trans h.2⟩
  refine Triple.bind (Q := fun _ => Along _ _) (Triple.world fun _ hs => hs) fun w₀ => ?_
  rcases hf : handleFor w₀ s.iface with _ | iface
  · exact Triple.pure _ fun _ hs => hs
  refine Triple.bind (along_xTaskGetTickCount hst fun _ _ => trivial) fun start => ?_
  refine Kept.recvLoop hst (fun _ _ => trivial) (fun w h => ?_) _ _ _
  obtain ⟨h, rfl⟩ := h
  obtain ⟨iface', ctx, sh, x, hs, hctx, he, hport, -⟩ := h.reached
  obtain rfl := IfaceId.code_inj ((of_handleFor_eq_some hf).1.symm.trans hs)
  rw [udpRecvProbe_of_udp hctx he]
  exact ⟨h.replace hs hctx he (T.localPort_recvSlice x len), rfl⟩

/-- `recvfrom` leaves the port alone. -/
theorem recvfrom (h : SendsFrom T cfg fd i port w) {len : ℕ} {sched : List (Moment (World S))}
    (henv : ∀ m ∈ sched, ∀ w, Bystander T i w (m.env w)) {r : Ret × Bytes × Option (UInt32 × UInt16)}
    {sys : Sys (World S) (Event S)} (hrun : (wrapLwipRecvfrom cfg fd len).run w sched = (some r, sys)) :
    SendsFrom T cfg fd i port sys.world := by
  rw [Code.run, wrapLwipRecvfrom, Thread.world_bind_apply] at hrun
  simp only [h.fdGet] at hrun
  rw [Thread.world_bind_apply] at hrun
  simp only [h.kind, ne_eq, not_true_eq_false, if_false] at hrun
  split_ifs at hrun with hlo
  · obtain ⟨a, s₁, hwait, hrest⟩ := Thread.bind_eq_some.mp hrun
    have hstart : Along (fun env => ∀ w, Bystander T i w (env w)) (SendsFrom T cfg fd i port)
        (⟨w, sched, []⟩ : Sys (World S) (Event S)) := ⟨h, henv⟩
    have h₁ := (along_loWait stable (E := fun _ => True) (fun _ _ => trivial)
      (fun w hw => hw.same (SameHandles.loReceive i w)) _).of_some hstart hwait
    rcases a with _ | m
    · obtain ⟨-, rfl⟩ := Prod.mk.inj hrest
      exact h₁.1
    · obtain ⟨-, rfl⟩ := Prod.mk.inj hrest
      exact h₁.1
  · obtain ⟨a, s₁, hrecv, hrest⟩ := Thread.bind_eq_some.mp hrun
    obtain ⟨-, rfl⟩ := Prod.mk.inj hrest
    have hstart : Along (fun env => ∀ w, Bystander T i w (env w)) (fun w' =>
        SendsFrom T cfg fd i port w' ∧ (w'.fdAt i).sock = (w.fdAt i).sock)
        (⟨w, sched, []⟩ : Sys (World S) (Event S)) := ⟨⟨h, rfl⟩, henv⟩
    exact (SendsFrom.netUdpRecvfrom.of_some hstart hrecv).1.1

/-- `socket` leaves a UDP fd without a port. -/
theorem of_socket (hw : w.Wf) (hids : ∀ iface, w.counter iface < 2 ^ 24) {domain : ℤ} {type : ℕ}
    {r : Ret × World S} (hr : wrapLwipSocket cfg domain type w = r)
    (hfd : EspSmoltcp.fdGet cfg r.2 r.1.ret = some i) (hkind : (r.2.fdAt i).kind = .udp) :
    SendsFrom T cfg r.1.ret i 0 r.2 := by
  have hspec := hr ▸ wrapLwipSocket_spec cfg domain type w
  have hindex := (Option.filter_eq_some_iff.mp hfd).1
  cases hspec with
  | refused e => cases (fdGet_neg_one cfg _).symm.trans hfd
  | @filled k n w₁ r hn _ hset hfilled =>
    have hat : w₁.fdAt n = { kind := k, iface := fdDefaultIface cfg w } :=
      hset ▸ World.fdAt_setFd_self hn _
    have hwf₁ : w₁.Wf := hset ▸ hw.of_ifaces rfl
    have hids₁ : w₁.counter (w₁.fdAt n).iface < 2 ^ 24 := by
      rw [← hset, World.counter_of_ifaces (World.ifaces_setFd ..)]
      exact hids _
    have hnames : r.1.ret = cfg.fdOffset + n → i = n := by
      intro hret
      have := (fdGet_spec hfd).1
      omega
    cases hfilled with
    | outside => cases (fdGet_neg_one cfg _).symm.trans hfd
    | dropped => cases (fdGet_neg_one cfg _).symm.trans hfd
    | stream hk =>
      obtain rfl := hnames rfl
      rw [hat] at hkind
      exact absurd hkind hk
    | datagram hk ho hv =>
      obtain rfl := hnames rfl
      subst ho
      obtain hrefused | hopened := (netUdpOpen_fresh (w₁.fdAt i).iface 0 w₁).cases hwf₁
        (by rintro _ ⟨u, rfl, -⟩; rfl) hids₁
      · rw [hrefused] at hv
        cases hv
      · exact SendsFrom.opened hindex (by rw [hat]; exact hk) hopened

end SendsFrom

/-- `sendto` puts the datagram into the socket of the fd and returns its length. -/
def Enqueues (cfg : Config) (heap : Bool) (fd : ℤ) (i : ℕ) (buf : Bytes) (dst : SockAddrIn) (tolen : ℕ)
    (w : World S) : Prop :=
  (wrapLwipSendto cfg heap fd buf dst tolen w).1.ret = buf.length ∧
    ∃ x x', w.udpOf (w.fdAt i).sock = some x ∧
      S.udp.sendSlice x buf (endpointOf dst.addrBe dst.port) = some x' ∧
      (wrapLwipSendto cfg heap fd buf dst tolen w).2.udpOf (w.fdAt i).sock = some x'

/-- It does so if the socket has a port, for every datagram that smoltcp has reason to take. -/
theorem SendsFrom.enqueues_iff (h : SendsFrom T cfg fd i port w) (heap : Bool) {buf : Bytes}
    {dst : SockAddrIn} {tolen : ℕ} (htolen : sizeofSockAddrIn ≤ tolen)
    (hlo : isLoopbackIp dst.addrBe = false) (haddr : dst.addrBe ≠ 0) (hdst : dst.port ≠ 0)
    (hfits : ∀ x, w.udpOf (w.fdAt i).sock = some x → T.fits x buf.length) :
    Enqueues cfg heap fd i buf dst tolen w ↔ port ≠ 0 := by
  obtain ⟨iface, ctx, sh, x, hs, hctx, he, hport, hf⟩ := h.reached
  have hx : w.udpOf (w.fdAt i).sock = some x := World.udpOf_eq_some.mpr ⟨iface, ctx, sh, hs, hctx, he⟩
  rw [Enqueues, wrapLwipSendto, h.fdGet]
  simp only [h.kind, ne_eq, not_true_eq_false, if_false, if_neg (not_lt.mpr htolen), hlo,
    Bool.false_eq_true, netUdpSendto, hf, World.ffi_of_ctx hctx, smoltcpUdpSendto,
    IfaceCtx.withUdp_of_udp he]
  by_cases hzero : port = 0
  · have hnone := T.sendSlice_unbound x buf (endpointOf dst.addrBe dst.port) (hport.trans hzero)
    rw [hnone]
    refine iff_of_false (fun hret => ?_) (not_not_intro hzero)
    have hlen : (-1 : Int) = buf.length := hret.1
    omega
  · have hspecified : ipv4FromBe dst.addrBe ≠ ⟨0, 0, 0, 0⟩ := by
      intro hnull
      rw [← ipv4ToBe_ipv4FromBe dst.addrBe, hnull] at haddr
      exact haddr rfl
    obtain ⟨x', hsend⟩ := Option.isSome_iff_exists.mp (T.sendSlice_bound x buf _ dst.port
      (hport ▸ hzero) hspecified hdst (hfits x hx))
    have hsend' : S.udp.sendSlice x buf (endpointOf dst.addrBe dst.port) = some x' := hsend
    rw [hsend']
    refine iff_of_true ⟨rfl, x, x', hx, hsend', ?_⟩ hzero
    rw [World.udpOf, World.entryOf_setSocket hs he]
    rfl

end Steps

/-! ## Runs -/

/-- A run of calls on a UDP fd from `socket()` on, all of which succeed; others act between them.  The port
is that of the last `bind` to an address outside `127/8`, or 0. -/
inductive UdpRun (T : UdpTx S.udp) (cfg : Config) (fd : ℤ) (i : ℕ) : UInt16 → World S → Prop
  | socket {w : World S} {domain : ℤ} {type : ℕ} (hw : w.Wf) (hids : ∀ iface, w.counter iface < 2 ^ 24)
      (hret : (wrapLwipSocket cfg domain type w).1.ret = fd)
      (hfd : fdGet cfg (wrapLwipSocket cfg domain type w).2 fd = some i)
      (hkind : ((wrapLwipSocket cfg domain type w).2.fdAt i).kind = .udp) :
      UdpRun T cfg fd i 0 (wrapLwipSocket cfg domain type w).2
  | bind {port : UInt16} {w : World S} {heap : Bool} {addr : SockAddrIn} {alen : ℕ}
      (hrun : UdpRun T cfg fd i port w) (hids : w.counter (w.fdAt i).iface < 2 ^ 24)
      (hret : (wrapLwipBind cfg heap fd addr alen w).1.ret = 0) :
      UdpRun T cfg fd i (if isLoopbackIp addr.addrBe then port else addr.port)
        (wrapLwipBind cfg heap fd addr alen w).2
  | connect {port : UInt16} {w : World S} {addr : SockAddrIn} {alen : ℕ} {rand : UInt32}
      {sched : List (Moment (World S))} {r : Ret} {sys : Sys (World S) (Event S)}
      (hrun : UdpRun T cfg fd i port w)
      (hcall : (wrapLwipConnect cfg fd addr alen rand).run w sched = (some r, sys)) (hret : r.ret = 0) :
      UdpRun T cfg fd i port sys.world
  | sendto {port : UInt16} {w : World S} {heap : Bool} {buf : Bytes} {dst : SockAddrIn} {tolen : ℕ}
      (hrun : UdpRun T cfg fd i port w) (hret : 0 ≤ (wrapLwipSendto cfg heap fd buf dst tolen w).1.ret) :
      UdpRun T cfg fd i port (wrapLwipSendto cfg heap fd buf dst tolen w).2
  | recvfrom {port : UInt16} {w : World S} {len : ℕ} {sched : List (Moment (World S))}
      {r : Ret × Bytes × Option (UInt32 × UInt16)} {sys : Sys (World S) (Event S)}
      (hrun : UdpRun T cfg fd i port w) (henv : ∀ m ∈ sched, ∀ w, Bystander T i w (m.env w))
      (hcall : (wrapLwipRecvfrom cfg fd len).run w sched = (some r, sys)) (hret : 0 ≤ r.1.ret) :
      UdpRun T cfg fd i port sys.world
  | others {port : UInt16} {w w' : World S} (hrun : UdpRun T cfg fd i port w) (h : Bystander T i w w') :
      UdpRun T cfg fd i port w'

section Runs

variable {T : UdpTx S.udp} {cfg : Config} {fd : ℤ} {i : ℕ} {port : UInt16} {w : World S}

/-- **Only `bind` gives the socket of a UDP fd a port.** -/
theorem UdpRun.sendsFrom (h : UdpRun T cfg fd i port w) : SendsFrom T cfg fd i port w := by
  induction h with
  | socket hw hids hret hfd hkind =>
    subst hret
    exact SendsFrom.of_socket hw hids rfl hfd hkind
  | bind _ hids hret ih => exact ih.bind hids hret
  | connect _ hcall _ ih => exact ih.connect hcall
  | sendto _ _ ih => exact ih.sendto _ _ _ _
  | recvfrom _ henv hcall _ ih => exact ih.recvfrom henv hcall
  | others _ h ih => exact ih.bystander h

/-- **After any run of successful calls `sendto` enqueues what smoltcp has room for exactly if the last
`bind` to an address outside `127/8` named a port.** -/
theorem sendto_works_iff (hrun : UdpRun T cfg fd i port w) (heap : Bool) {buf : Bytes} {dst : SockAddrIn}
    {tolen : ℕ} (htolen : sizeofSockAddrIn ≤ tolen) (hlo : isLoopbackIp dst.addrBe = false)
    (haddr : dst.addrBe ≠ 0) (hdst : dst.port ≠ 0)
    (hfits : ∀ x, w.udpOf (w.fdAt i).sock = some x → T.fits x buf.length) :
    Enqueues cfg heap fd i buf dst tolen w ↔ port ≠ 0 :=
  hrun.sendsFrom.enqueues_iff heap htolen hlo haddr hdst hfits

end Runs

/-! ### A client that does not bind -/

/-- Ethernet is attached and an application opens a UDP fd. -/
def clientFd : World .reference := (wrapLwipSocket .default 2 2 (.booted .default [(.eth, fun _ => 0)])).2

theorem run_clientFd : UdpRun .reference .default 48 0 0 clientFd := by
  refine .socket (World.wf_attachAll [(.eth, fun _ => 0)] (World.wf_boot .default)) ?_ rfl rfl rfl
  intro iface
  cases iface <;> decide

/-- **A datagram to `10.0.0.1:53` from an fd that was never bound is refused.** -/
theorem sendto_without_bind : UdpRun .reference .default 48 0 0 clientFd ∧
    (wrapLwipSendto .default true 48 [1] ⟨2, 0x0100000A, 53⟩ 16 clientFd).1.ret = -1 ∧
    ¬ Enqueues .default true 48 0 [1] ⟨2, 0x0100000A, 53⟩ 16 clientFd :=
  ⟨run_clientFd, rfl, fun h => absurd h.1 (by decide)⟩

/-- Bound to `0.0.0.0:5000` the fd sends it. -/
theorem sendto_after_bind : Enqueues .default true 48 0 [1] ⟨2, 0x0100000A, 53⟩ 16
    (wrapLwipBind .default true 48 ⟨2, 0, 5000⟩ 16 clientFd).2 :=
  (sendto_works_iff (.bind run_clientFd (by decide) rfl) true (by decide) (by decide) (by decide)
    (by decide) fun _ _ => trivial).mpr (by decide)

end EspSmoltcp
