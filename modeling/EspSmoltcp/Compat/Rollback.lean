import EspSmoltcp.Compat.Capacity
import Mathlib.Data.Set.Insert

/-!
# Compat/Rollback — what a failed `listen` or `bind` leaves behind

`__wrap_lwip_socket` frees its fd again when it fails.  `listen` and `bind` write the entry first and
return from wherever they fail:

* `listen` has made the entry a listener before it arms the first slot, so any failure past its checks
  leaves a listener that no call accepts (`listen_undone_iff`);
* `bind` has stored the address, closed the socket or turned the fd into a loopback one before the step
  that fails (`bind_undone_iff`).
-/

namespace EspSmoltcp

variable {S : Smoltcp}

/-! ## As before -/

/-- The sockets of an interface: the handle of each id, and the handles in use. -/
def World.openSockets (w : World S) (i : IfaceId) :
    Option ((UInt32 → Option SocketHandle) × Set SocketHandle) :=
  (w.ctx i).map fun ctx => (ctx.lookup, {sh | sh ∈ ctx.sockets})

/-- The entries, the loopback slots and the open sockets are what they were. -/
structure AsBefore (w w' : World S) : Prop where
  fds : w'.fds = w.fds
  loSlots : w'.loSlots = w.loSlots
  sockets : w'.openSockets = w.openSockets

theorem AsBefore.refl (w : World S) : AsBefore w w := ⟨rfl, rfl, rfl⟩

theorem AsBefore.fdAt {w w' : World S} (h : AsBefore w w') (i : ℕ) : w'.fdAt i = w.fdAt i := by
  rw [World.fdAt, h.fds, ← World.fdAt]

/-- A call of this outcome has failed without a trace, if it has failed. -/
def FailureUndone (w : World S) (r : Ret × World S) : Prop := r.1.ret = -1 → AsBefore w r.2

theorem failureUndone_fail (e : Errno) (w : World S) : FailureUndone w (.fail e, w) :=
  fun _ => AsBefore.refl w

theorem failureUndone_of_zero {w w' : World S} {e : Option Errno} : FailureUndone w (⟨0, e⟩, w') :=
  fun h => absurd h (show (0 : ℤ) ≠ -1 by decide)

/-! ## `listen` -/

/-- Each of this many slots gets a socket, and each socket goes into `LISTEN`. -/
def SlotsArm (iface : IfaceId) (port : UInt16) : ℕ → World S → Prop
  | 0, _ => True
  | n + 1, w =>
    let opened := netTcpOpen iface w
    let listening := netTcpListen opened.1 port opened.2
    opened.1.valid = true ∧ listening.1 = .ok ∧ SlotsArm iface port n listening.2

section Core

variable {w w' : World S}

/-- A call into the core depends on the interfaces only, and changes nothing else. -/
theorem World.ffi_congr {α : Type} (h : w'.ifaces = w.ifaces) (i : IfaceId) (err : α)
    (f : IfaceCtx S → α × IfaceCtx S) :
    (w'.ffi i err f).1 = (w.ffi i err f).1 ∧ (w'.ffi i err f).2.ifaces = (w.ffi i err f).2.ifaces := by
  have hctx : w'.ctx i = w.ctx i := by rw [World.ctx, h, World.ctx]
  rw [World.ffi, World.ffi, hctx]
  rcases w.ctx i with _ | ctx
  · exact ⟨rfl, h⟩
  · refine ⟨rfl, ?_⟩
    simp only [World.setCtx, h]

theorem handleFor_congr (h : w'.ifaces = w.ifaces) (n : UInt32) : handleFor w' n = handleFor w n := by
  cases w
  cases w'
  subst h
  rfl

theorem netTcpOpen_congr (h : w'.ifaces = w.ifaces) (i : IfaceId) :
    (netTcpOpen i w').1 = (netTcpOpen i w).1 ∧
      (netTcpOpen i w').2.ifaces = (netTcpOpen i w).2.ifaces := by
  rw [netTcpOpen, netTcpOpen, handleFor_congr h]
  rcases handleFor w i.code with _ | j
  · exact ⟨rfl, h⟩
  · obtain ⟨hid, hifaces⟩ := World.ffi_congr h j 0 smoltcpTcpOpen
    exact ⟨congrArg (handleOf i) hid, hifaces⟩

theorem netTcpListen_congr (h : w'.ifaces = w.ifaces) (s : NetSock) (port : UInt16) :
    (netTcpListen s port w').1 = (netTcpListen s port w).1 ∧
      (netTcpListen s port w').2.ifaces = (netTcpListen s port w).2.ifaces := by
  rw [netTcpListen, netTcpListen, handleFor_congr h]
  rcases handleFor w s.iface with _ | j
  · exact ⟨rfl, h⟩
  · obtain ⟨hrc, hifaces⟩ := World.ffi_congr h j (-1) (smoltcpTcpListen · s.localId port)
    dsimp only
    rw [hrc]
    exact ⟨rfl, hifaces⟩

theorem slotsArm_congr {iface : IfaceId} {port : UInt16} {n : ℕ} (h : w'.ifaces = w.ifaces) :
    SlotsArm iface port n w' ↔ SlotsArm iface port n w := by
  induction n generalizing w w' with
  | zero => exact Iff.rfl
  | succ n ih =>
    obtain ⟨hs, ho⟩ := netTcpOpen_congr h iface
    simp only [SlotsArm, hs]
    obtain ⟨hrc, hl⟩ := netTcpListen_congr ho (netTcpOpen iface w).1 port
    simp only [hrc, ih hl]

end Core

/-- A fresh socket takes `listen`. -/
theorem NewTcp.netTcpListen_ok {w : World S} {s : NetSock} (hn : NewTcp w s) (h : w.Wf) {port : UInt16}
    (hport : port ≠ 0) : (EspSmoltcp.netTcpListen s port w).1 = .ok := by
  obtain ⟨sh, he⟩ := hn
  obtain ⟨i, ctx, hi, hctx, he⟩ := World.entryOf_eq_some.mp he
  obtain ⟨x, hx⟩ := Option.isSome_iff_exists.mp (S.tcp.listen_new port hport)
  simp only [EspSmoltcp.netTcpListen, handleFor_of_ctx h hi hctx, World.ffi_of_ctx hctx,
    smoltcpTcpListen, IfaceCtx.withTcp_of_tcp he, hx, if_true]

/-- On an attached interface the slots arm, as long as the ids stay below `2^24`… -/
theorem slotsArm_of_attached {iface : IfaceId} {port : UInt16} {n : ℕ} {w : World S} (hw : w.Wf)
    (hport : port ≠ 0) (hids : w.counter iface + n ≤ 2 ^ 24) {ctx : IfaceCtx S}
    (hctx : w.ctx iface = some ctx) : SlotsArm iface port n w := by
  induction n generalizing w ctx with
  | zero => trivial
  | succ n ih =>
    have ho : Opened (· = .tcp S.tcp.new) iface w (netTcpOpen iface w).1 (netTcpOpen iface w).2 :=
      ((netTcpOpen_spec iface w).cases hw (by rintro x rfl; rfl) (by omega)).resolve_left
        (netTcpOpen_ne_refused hw hctx (by omega))
    rw [SlotsArm]
    generalize netTcpOpen iface w = o at ho ⊢
    obtain ⟨sh, _, rfl, -, hent⟩ := ho.entry
    have hnew : NewTcp o.2 o.1 := ⟨sh, by rw [hent, Function.update_self]⟩
    have hcalm := ho.wf.calm_netTcpListen o.1 port
    -- The interface is still attached: the socket is on it.
    obtain ⟨x, hx, -⟩ := hnew.netTcpListen ho.wf hport
    obtain ⟨j, ctx', -, hj, hctx', -⟩ := World.tcpOf_eq_some.mp hx
    obtain rfl := IfaceId.code_inj (hj.symm.trans ho.iface)
    refine ⟨ho.valid, hnew.netTcpListen_ok ho.wf hport, ih hcalm.wf ?_ hctx'⟩
    rw [hcalm.counter, ho.counter, Function.update_self]
    omega

/-- …and elsewhere they do not. -/
theorem attached_of_slotsArm {iface : IfaceId} {port : UInt16} {n : ℕ} {w : World S} (hn : 0 < n)
    (h : SlotsArm iface port n w) : ∃ ctx, w.ctx iface = some ctx := by
  obtain ⟨n, rfl⟩ := Nat.exists_eq_succ_of_ne_zero hn.ne'
  by_contra hnone
  have hf : handleFor w iface.code = none := by
    by_contra hne
    obtain ⟨j, hj⟩ := Option.ne_none_iff_exists'.mp hne
    exact hnone (of_handleFor_code hj).2
  have hv := h.1
  rw [netTcpOpen, hf] at hv
  cases hv

section Listen

variable {cfg : Config} {heap : Bool} {fd backlog : ℤ} {i : ℕ} {w : World S}

/-- **The loop of `listen` fails exactly where some slot does not arm.** -/
theorem armSlots_ret (k n : ℕ) (hi : i < w.fds.length) :
    (armSlots i k n w).1.ret = -1 ↔ ¬ SlotsArm (w.fdAt i).iface (w.fdAt i).port n w := by
  induction n generalizing k w with
  | zero => exact iff_of_false (show (0 : ℤ) ≠ -1 by decide) (not_not_intro trivial)
  | succ n ih =>
    rw [armSlots, SlotsArm]
    have hopen := (SameShim.netTcpOpen (w.fdAt i).iface w).fds
    generalize netTcpOpen (w.fdAt i).iface w = o at hopen ⊢
    obtain ⟨s, w₁⟩ := o
    simp only at hopen ⊢
    have hif : (w₁.modFd i fun e => { e with pool := e.pool.set k s }).ifaces = w₁.ifaces := rfl
    obtain ⟨hrc, hl⟩ := netTcpListen_congr hif s (w.fdAt i).port
    have hfds := (SameShim.netTcpListen s (w.fdAt i).port
      (w₁.modFd i fun e => { e with pool := e.pool.set k s })).fds
    have hlt : i < w₁.fds.length := hopen ▸ hi
    have he := World.fdAt_modFd_self (fun e => { e with pool := e.pool.set k s }) hlt
    have hw₁ : w₁.fdAt i = w.fdAt i := by rw [World.fdAt, hopen, ← World.fdAt]
    split_ifs with hv hok
    · have he₂ : (netTcpListen s (w.fdAt i).port
          (w₁.modFd i fun e => { e with pool := e.pool.set k s })).2.fdAt i
            = { w.fdAt i with pool := (w.fdAt i).pool.set k s } := by
        rw [World.fdAt, hfds, ← World.fdAt, he, hw₁]
      rw [ih (k + 1) (by rw [hfds, World.length_fds_modFd]; exact hlt), he₂, slotsArm_congr hl]
      simp [hv, ← hrc, hok]
    · rw [hrc] at hok
      exact iff_of_true rfl fun h => hok h.2.1
    · exact iff_of_true rfl fun h => hv h.1

theorem listen_undone (hfd : fdGet cfg w fd = some i) :
    FailureUndone w (wrapLwipListen cfg heap fd backlog w) ↔
      (w.fdAt i).kind ≠ .tcp ∨ (w.fdAt i).localPort = 0 ∨ heap = false ∨
        SlotsArm (w.fdAt i).iface (w.fdAt i).localPort (poolSize cfg backlog) w := by
  by_cases hchecks : (w.fdAt i).kind ≠ .tcp ∨ (w.fdAt i).localPort = 0 ∨ heap = false
  · obtain ⟨e, he⟩ := wrapLwipListen_refused hfd hchecks backlog
    rw [he]
    exact iff_of_true (failureUndone_fail e w) (hchecks.imp_right (.imp_right .inl))
  rw [← or_assoc, ← or_assoc, or_iff_right (mt or_assoc.mp hchecks)]
  obtain ⟨hk, hport, hheap⟩ : _ ∧ _ ∧ _ := by simpa only [not_or, not_not, Bool.not_eq_false] using hchecks
  subst hheap
  rw [wrapLwipListen_listener hfd hk hport]
  have hi := lt_length_of_fdGet hfd
  have he := World.fdAt_modFd_self (·.listening (poolSize cfg backlog)) hi
  have hif := World.ifaces_modFd (w := w) (i := i) (·.listening (poolSize cfg backlog))
  have hlt : i < (w.modFd i (·.listening (poolSize cfg backlog))).fds.length := by
    rw [World.length_fds_modFd]
    exact hi
  generalize w.modFd i _ = w₁ at he hif hlt ⊢
  have hret := armSlots_ret 0 (poolSize cfg backlog) hlt
  rw [he, slotsArm_congr hif] at hret
  constructor
  · -- A listener is not what the entry was.
    intro hundone
    by_contra hnot
    have hkind := (armSlots_ring 0 (poolSize cfg backlog) hlt).1
    rw [(hundone (hret.mpr hnot)).fdAt i, he, hk] at hkind
    cases hkind
  · intro harm hfail
    exact absurd harm (hret.mp hfail)

/-- **A failed `listen` is undone exactly where it fails its checks, or does not fail at all**: where the
interface of the fd is attached, as long as the ids stay below `2^24`. -/
theorem listen_undone_iff (hfd : fdGet cfg w fd = some i) :
    (FailureUndone w (wrapLwipListen cfg heap fd backlog w) ↔
      (w.fdAt i).kind ≠ .tcp ∨ (w.fdAt i).localPort = 0 ∨ heap = false ∨
        SlotsArm (w.fdAt i).iface (w.fdAt i).localPort (poolSize cfg backlog) w) ∧
    (w.Wf → (w.fdAt i).localPort ≠ 0 → w.counter (w.fdAt i).iface + poolSize cfg backlog ≤ 2 ^ 24 →
      (SlotsArm (w.fdAt i).iface (w.fdAt i).localPort (poolSize cfg backlog) w ↔
        ∃ ctx, w.ctx (w.fdAt i).iface = some ctx)) := by
  refine ⟨listen_undone hfd, fun hw hport hids => ⟨attached_of_slotsArm (poolSize_pos cfg backlog), ?_⟩⟩
  rintro ⟨ctx, hctx⟩
  exact slotsArm_of_attached hw hport hids hctx

end Listen

/-- An fd bound to port 80, before any interface is attached. -/
def boundTcp : World .reference :=
  (wrapLwipBind .default true 48 ⟨2, 0, 80⟩ 16 (wrapLwipSocket .default 2 1 (.boot .default)).2).2

/-- **A `listen` before the interface is attached fails and leaves a listener**, which takes neither
another `listen` nor a `connect`. -/
theorem listen_not_undone : ¬ FailureUndone boundTcp (wrapLwipListen .default true 48 4 boundTcp) ∧
    (wrapLwipListen .default true 48 4 (wrapLwipListen .default true 48 4 boundTcp).2).1
      = .fail .ebadf := by
  refine ⟨fun h => ?_, rfl⟩
  have hkind := congrArg FdEntry.kind ((h rfl).fdAt 0)
  revert hkind
  decide

/-- Without memory for the pool nothing is touched. -/
theorem listen_undone_nomem : FailureUndone boundTcp (wrapLwipListen .default false 48 4 boundTcp) :=
  (listen_undone_iff (i := 0) rfl).1.mpr (.inr (.inr (.inl rfl)))

/-! ## `bind` -/

/-- `net_udp_open` would return a handle: the interface is attached, smoltcp takes the port, and the id
fits a handle. -/
def UdpOpens (iface : IfaceId) (port : UInt16) (w : World S) : Prop :=
  ∃ ctx, handleFor w iface.code = some iface ∧ w.ctx iface = some ctx ∧
    (port = 0 ∨ (S.udp.bind S.udp.new port).isSome = true) ∧ (handleOf iface ctx.nextId).valid = true

/-- `net_udp_open` would not even reach `SocketSet::add`. -/
def UdpRefused (iface : IfaceId) (port : UInt16) (w : World S) : Prop :=
  handleFor w iface.code = none ∨ port ≠ 0 ∧ S.udp.bind S.udp.new port = none

/-- `lo_bind` would succeed. -/
def LoBinds (heap : Bool) (port : UInt16) (e : FdEntry) (w : World S) : Prop :=
  port ≠ 0 ∧ (e.loRx.isSome = true ∨ heap = true) ∧ (loSlotFor w.loSlots port).isSome = true

/-- The entry is already what a `bind` to this address that fails makes of it. -/
def FdEntry.RefusedAlready (heap : Bool) (addr : SockAddrIn) (w : World S) (e : FdEntry) : Prop :=
  e.localIpv4Be = addr.addrBe ∧ e.localPort = addr.port ∧
    if isLoopbackIp addr.addrBe then
      addr.port = 0 ∨ (e.loRx = none ∧ heap = false) ∨ (e.loRx.isSome = true ∧ e.loopback = true)
    else e.sock = .invalid ∧ UdpRefused e.iface addr.port w

section Bind

variable {cfg : Config} {heap : Bool} {fd : ℤ} {addr : SockAddrIn} {alen i : ℕ} {w : World S}
  {iface : IfaceId} {port : UInt16}

/-- An open leaves one more handle in use. -/
theorem openSockets_openSocket {ctx : IfaceCtx S} (hctx : w.ctx iface = some ctx) (x : Socket S) :
    (w.setCtx iface (ctx.openSocket x).2).openSockets ≠ w.openSockets := by
  intro h
  have hi := congrFun h iface
  rw [World.openSockets, World.openSockets, World.ctx_setCtx_self, hctx, Option.map_some, Option.map_some,
    Option.some.injEq, Prod.mk.injEq] at hi
  have hmem : S.slot ctx.sockets.keys ∈ {sh | sh ∈ (ctx.openSocket x).2.sockets} :=
    (AList.mem_insert _).mpr (.inl rfl)
  rw [hi.2] at hmem
  exact ctx.sockets.slot_notMem hmem

/-- **`net_udp_open` is refused without effect, or opens a socket and returns its handle or none.** -/
theorem netUdpOpen_cases (iface : IfaceId) (port : UInt16) (w : World S) :
    (UdpRefused iface port w ∧ netUdpOpen iface port w = (.invalid, w)) ∨
      ∃ ctx x, handleFor w iface.code = some iface ∧ w.ctx iface = some ctx ∧
        (port = 0 ∨ (S.udp.bind S.udp.new port).isSome = true) ∧
        netUdpOpen iface port w
          = (handleOf iface ctx.nextId, w.setCtx iface (ctx.openSocket x).2) := by
  rw [UdpRefused, netUdpOpen]
  rcases hf : handleFor w iface.code with _ | j
  · exact .inl ⟨.inl rfl, rfl⟩
  obtain ⟨rfl, ctx, hctx⟩ := of_handleFor_code hf
  simp only [World.ffi_of_ctx hctx, smoltcpUdpOpen]
  split_ifs with hport
  · exact .inr ⟨ctx, _, trivial, hctx, .inl hport, rfl⟩
  · cases hb : S.udp.bind S.udp.new port with
    | none =>
      simp only [World.setCtx_self hctx]
      exact .inl ⟨.inr ⟨hport, trivial⟩, rfl⟩
    | some u => exact .inr ⟨ctx, _, trivial, hctx, .inr rfl, rfl⟩

theorem netUdpOpen_refused (h : UdpRefused iface port w) : netUdpOpen iface port w = (.invalid, w) := by
  obtain ⟨-, he⟩ | ⟨ctx, x, hf, -, hport, -⟩ := netUdpOpen_cases iface port w
  · exact he
  · rcases h with hnone | ⟨hne, hnone⟩
    · rw [hnone] at hf
      cases hf
    · rw [hnone] at hport
      exact absurd hport (not_or.mpr ⟨hne, Bool.false_ne_true⟩)

theorem valid_netUdpOpen_iff : (netUdpOpen iface port w).1.valid = true ↔ UdpOpens iface port w := by
  obtain ⟨hrefused, he⟩ | ⟨ctx, x, hf, hctx, hport, he⟩ := netUdpOpen_cases iface port w
  · rw [he]
    refine iff_of_false Bool.false_ne_true ?_
    rintro ⟨ctx, hf, -, hport, -⟩
    rcases hrefused with hnone | ⟨hne, hnone⟩
    · rw [hnone] at hf
      cases hf
    · rw [hnone] at hport
      exact hport.elim hne Bool.false_ne_true
  · rw [he]
    refine ⟨fun hv => ⟨ctx, hf, hctx, hport, hv⟩, ?_⟩
    rintro ⟨ctx', -, hctx', -, hv⟩
    rw [hctx] at hctx'
    obtain rfl := Option.some.inj hctx'
    exact hv

/-- A close leaves the interfaces and their counters as they were. -/
theorem udpOpens_close (s : NetSock) :
    UdpOpens iface port (netUdpClose s w).2 ↔ UdpOpens iface port w := by
  rw [netUdpClose]
  rcases hf : handleFor w s.iface with _ | j
  · exact Iff.rfl
  obtain ⟨-, ctx, hctx⟩ := of_handleFor_eq_some hf
  simp only [World.ffi_of_ctx hctx]
  have hnext : (smoltcpUdpClose ctx s.localId).nextId = ctx.nextId := by
    rw [smoltcpUdpClose]
    obtain h | h | ⟨sh, x, x', -, -, h⟩ := ctx.closeSocket_cases s.localId Socket.closeUdp <;> rw [h] <;> rfl
  generalize smoltcpUdpClose ctx s.localId = ctx' at hnext ⊢
  have hhandle : ∀ n, handleFor (w.setCtx j ctx') n = handleFor w n := by
    intro n
    rw [handleFor, handleFor]
    rcases IfaceId.ofCode n with _ | k
    · rfl
    · by_cases hkj : k = j
      · subst hkj
        simp [hctx]
      · simp [World.ctx_setCtx_ne w hkj]
  rw [UdpOpens, UdpOpens, hhandle]
  by_cases hij : iface = j
  · subst hij
    simp [hctx, hnext]
  · rw [World.ctx_setCtx_ne w hij]

/-- A store into the entry is undone if it stored what was there. -/
theorem asBefore_modFd_iff (hi : i < w.fds.length) (f : FdEntry → FdEntry) :
    AsBefore w (w.modFd i f) ↔ f (w.fdAt i) = w.fdAt i := by
  constructor
  · intro h
    rw [← World.fdAt_modFd_self f hi, h.fdAt]
  · intro h
    rw [World.modFd_eq_self f hi h]
    exact AsBefore.refl w

theorem bound_eq_self_iff {e : FdEntry} :
    e.bound addr = e ↔ e.localIpv4Be = addr.addrBe ∧ e.localPort = addr.port := by
  obtain ⟨⟩ := e
  simp [FdEntry.bound, eq_comm]

/-- The store of `lo_bind` on top of it. -/
theorem loBound_eq_self_iff {e : FdEntry} :
    { e.bound addr with loRx := some ((e.bound addr).loRx.getD []), loopback := true } = e ↔
      e.localIpv4Be = addr.addrBe ∧ e.localPort = addr.port ∧ e.loRx.isSome = true ∧
        e.loopback = true := by
  obtain ⟨_, _, _, _, _ | q, _, _, _, _, _, _, _, _, _⟩ := e
  · simp [FdEntry.bound]
  · simp [FdEntry.bound, eq_comm]
    tauto

/-- **The loopback side of `bind`.** -/
theorem loBind_undone_iff (hi : i < w.fds.length) (hlo : isLoopbackIp addr.addrBe = true) :
    FailureUndone w ((if (loBind heap addr.port i (w.modFd i (·.bound addr))).1 = .ok then ⟨0, none⟩
        else ⟨-1, none⟩ : Ret), (loBind heap addr.port i (w.modFd i (·.bound addr))).2) ↔
      LoBinds heap addr.port (w.fdAt i) w ∨ (w.fdAt i).RefusedAlready heap addr w := by
  have he := World.fdAt_modFd_self (·.bound addr) hi
  rw [loBind, he, LoBinds, FdEntry.RefusedAlready, if_pos hlo]
  by_cases hport : addr.port = 0
  · rw [if_pos hport]
    simp [FailureUndone, asBefore_modFd_iff hi, bound_eq_self_iff, hport]
  rw [if_neg hport]
  have hnomem : ((w.fdAt i).bound addr).loRx.isNone = true ∧ (!heap) = true ↔
      (w.fdAt i).loRx = none ∧ heap = false := by
    simp [FdEntry.bound]
  by_cases hmem : ((w.fdAt i).bound addr).loRx.isNone = true ∧ (!heap) = true
  · rw [if_pos hmem]
    rw [hnomem] at hmem
    simp [FailureUndone, asBefore_modFd_iff hi, bound_eq_self_iff, hport, hmem]
  rw [if_neg hmem, World.modFd_modFd _ hi]
  rw [hnomem] at hmem
  have hqueue : (w.fdAt i).loRx.isSome = true ∨ heap = true := by
    rcases hrx : (w.fdAt i).loRx with _ | q
    · exact .inr (by simpa [hrx] using hmem)
    · exact .inl rfl
  simp only [show ∀ f, (w.modFd i f).loSlots = w.loSlots from fun _ => rfl]
  rcases hslot : loSlotFor w.loSlots addr.port with _ | k
  · simp only [reduceCtorEq, if_false, FailureUndone, asBefore_modFd_iff hi, Function.comp_apply,
      loBound_eq_self_iff, hport, hmem, Option.isSome_none, Bool.false_eq_true, and_false, false_or,
      forall_const]
  · exact iff_of_true failureUndone_of_zero (.inl ⟨hport, hqueue, rfl⟩)

/-- The socket is closed, if there is one, before the new one is opened. -/
def reopenFrom (w : World S) (i : ℕ) (addr : SockAddrIn) : World S :=
  if (w.fdAt i).sock.valid then (netUdpClose (w.fdAt i).sock (w.modFd i (·.bound addr))).2
  else w.modFd i (·.bound addr)

theorem fds_reopenFrom : (reopenFrom w i addr).fds = (w.modFd i (·.bound addr)).fds := by
  rw [reopenFrom]
  split_ifs
  · exact (SameShim.netUdpClose ..).fds
  · rfl

theorem udpOpens_reopenFrom : UdpOpens iface port (reopenFrom w i addr) ↔ UdpOpens iface port w := by
  have hbound : UdpOpens iface port (w.modFd i (·.bound addr)) ↔ UdpOpens iface port w := by
    rw [UdpOpens, UdpOpens, handleFor_congr (World.ifaces_modFd _)]
    rfl
  rw [reopenFrom]
  split_ifs
  · rw [udpOpens_close, hbound]
  · exact hbound

/-- **The stack side of `bind`.** -/
theorem reopen_undone_iff (hi : i < w.fds.length) (hlo : isLoopbackIp addr.addrBe = false) :
    FailureUndone w
        ((if (netUdpOpen (w.fdAt i).iface addr.port (reopenFrom w i addr)).1.valid then ⟨0, none⟩
          else .fail .eaddrinuse : Ret),
        (netUdpOpen (w.fdAt i).iface addr.port (reopenFrom w i addr)).2.modFd i fun e =>
          { e with sock := (netUdpOpen (w.fdAt i).iface addr.port (reopenFrom w i addr)).1 }) ↔
      UdpOpens (w.fdAt i).iface addr.port w ∨ (w.fdAt i).RefusedAlready heap addr w := by
  have hvalid : (netUdpOpen (w.fdAt i).iface addr.port (reopenFrom w i addr)).1.valid = true ↔
      UdpOpens (w.fdAt i).iface addr.port w :=
    valid_netUdpOpen_iff.trans udpOpens_reopenFrom
  by_cases hopens : UdpOpens (w.fdAt i).iface addr.port w
  · rw [if_pos (hvalid.mpr hopens)]
    exact iff_of_true failureUndone_of_zero (.inl hopens)
  have hinv := mt hvalid.mp hopens
  rw [if_neg hinv, or_iff_right hopens, FdEntry.RefusedAlready, if_neg (by simp [hlo])]
  constructor
  · intro hundone
    have hbefore := hundone rfl
    have hlen : i < (netUdpOpen (w.fdAt i).iface addr.port (reopenFrom w i addr)).2.fds.length := by
      rw [(SameShim.netUdpOpen ..).fds, fds_reopenFrom, World.length_fds_modFd]
      exact hi
    have he := hbefore.fdAt i
    rw [World.fdAt_modFd_self _ hlen, World.fdAt, (SameShim.netUdpOpen ..).fds, fds_reopenFrom, ← World.fdAt,
      World.fdAt_modFd_self _ hi] at he
    have hsock : (w.fdAt i).sock = .invalid := by
      rw [← he]
      exact NetSock.eq_invalid hinv
    refine ⟨(congrArg FdEntry.localIpv4Be he).symm, (congrArg FdEntry.localPort he).symm, hsock, ?_⟩
    -- The socket was not valid, so nothing has been closed; an open would show.
    have hfrom : reopenFrom w i addr = w.modFd i (·.bound addr) := by
      rw [reopenFrom, hsock, if_neg (by decide)]
    rw [hfrom] at hbefore
    obtain ⟨hrefused, -⟩ | ⟨ctx, x, -, hctx, -, hopen⟩ :=
      netUdpOpen_cases (w.fdAt i).iface addr.port (w.modFd i (·.bound addr))
    · rw [UdpRefused, handleFor_congr (World.ifaces_modFd _)] at hrefused
      exact hrefused
    · have hsockets := hbefore.sockets
      rw [hopen] at hsockets
      exact absurd hsockets (openSockets_openSocket hctx x)
  · rintro ⟨haddr, hport, hsock, hrefused⟩ -
    have hfrom : reopenFrom w i addr = w := by
      rw [reopenFrom, hsock, if_neg (by decide)]
      exact World.modFd_eq_self _ hi (bound_eq_self_iff.mpr ⟨haddr, hport⟩)
    rw [hfrom, netUdpOpen_refused hrefused, asBefore_modFd_iff hi]
    exact hsock ▸ rfl

/-- **A failed `bind` is undone exactly where it fails a check or does not fail at all, or where it
writes what the entry already holds.** -/
theorem bind_undone_iff (hfd : fdGet cfg w fd = some i) :
    FailureUndone w (wrapLwipBind cfg heap fd addr alen w) ↔
      alen < sizeofSockAddrIn ∨ addr.family ≠ 2 ∨ (w.fdAt i).kind ≠ .udp ∨
        (if isLoopbackIp addr.addrBe then LoBinds heap addr.port (w.fdAt i) w
          else UdpOpens (w.fdAt i).iface addr.port w) ∨
        (w.fdAt i).RefusedAlready heap addr w := by
  have hi := lt_length_of_fdGet hfd
  rw [wrapLwipBind, hfd]
  simp only
  by_cases hbad : alen < sizeofSockAddrIn ∨ addr.family ≠ 2
  · rw [if_pos hbad]
    exact iff_of_true (failureUndone_fail _ w) (or_assoc.mp (.inl hbad))
  rw [if_neg hbad, ← or_assoc, or_iff_right hbad]
  have he := World.fdAt_modFd_self (·.bound addr) hi
  simp only [FdEntry.bound] at he
  rw [he]
  by_cases hk : (w.fdAt i).kind = .udp
  · rw [if_pos hk, or_iff_right (not_not_intro hk)]
    by_cases hlo : isLoopbackIp addr.addrBe = true
    · rw [if_pos hlo, if_pos hlo]
      exact loBind_undone_iff hi hlo
    · rw [if_neg hlo, if_neg hlo]
      exact reopen_undone_iff hi (Bool.eq_false_iff.mpr hlo)
  · rw [if_neg hk]
    exact iff_of_true failureUndone_of_zero (.inl hk)

end Bind

/-- Five UDP fds, the first four of which serve the ports 1 to 4 of `127.0.0.1`. -/
def slotsTaken : World .reference :=
  [1, 2, 3, 4].foldl
    (fun w (k : UInt16) => (wrapLwipBind .default true (47 + k.toNat) ⟨2, 0x0100007F, k⟩ 16 w).2)
    ((fun w => (wrapLwipSocket .default 2 2 w).2)^[5] (.booted .default [(.eth, fun _ => 0)]))

/-- **A loopback `bind` that finds no slot fails and leaves the fd receiving from its loopback queue**,
which nobody can deliver to, and not from its socket. -/
theorem bind_not_undone :
    ¬ FailureUndone slotsTaken (wrapLwipBind .default true 52 ⟨2, 0x0100007F, 5⟩ 16 slotsTaken) ∧
      (slotsTaken.fdAt 4).loopback = false ∧
      ((wrapLwipBind .default true 52 ⟨2, 0x0100007F, 5⟩ 16 slotsTaken).2.fdAt 4).loopback = true ∧
      ((wrapLwipBind .default true 52 ⟨2, 0x0100007F, 5⟩ 16 slotsTaken).2.fdAt 4).loRx = some [] := by
  refine ⟨fun h => ?_, rfl, rfl, rfl⟩
  have hflag := congrArg FdEntry.loopback ((h rfl).fdAt 4)
  revert hflag
  decide

/-- Refused once more, the `bind` finds in the entry what it wrote there the first time. -/
theorem bind_undone_refusedAgain :
    let refused := (wrapLwipBind .default true 52 ⟨2, 0x0100007F, 5⟩ 16 slotsTaken).2
    let again := wrapLwipBind .default true 52 ⟨2, 0x0100007F, 5⟩ 16 refused
    again.1.ret = -1 ∧ FailureUndone refused again :=
  ⟨rfl, (bind_undone_iff (i := 4) rfl).mpr (.inr (.inr (.inr (.inr ⟨rfl, rfl, .inr (.inr ⟨rfl, rfl⟩)⟩))))⟩

end EspSmoltcp
