import EspSmoltcp.Compat.Ownership
import EspSmoltcp.Stack.Traffic

/-!
# Compat/Capacity — the pool of a listener, over runs of `accept`

`listen()` arms every slot of the pool, and `accept()` arms a slot again when it hands its connection
over.  In between the slots are driven by the peers: connections come up, send, close and are reset.

A reset during the handshake puts a slot back to `Listen`.  A reset of a connection that nobody has
accepted yet closes the slot's socket, and nothing arms it again: `accept` passes it over for ever.  Short
of that, no slot is ever lost (`slotAlive_of_run`).
-/

namespace EspSmoltcp

open Thread (Along Stable Triple)

variable {S : Smoltcp} {α : Type}

/-! ## Slots -/

/-- The handle stands for a TCP socket that is listening, in handshake or connected. -/
def SlotAlive (w : World S) (s : NetSock) : Prop :=
  ∃ x, w.tcpOf s = some x ∧ (S.tcp.state x).passive = true

theorem SlotAlive.of_entryOf {w w' : World S} {s : NetSock} (h : SlotAlive w s)
    (he : w'.entryOf s = w.entryOf s) : SlotAlive w' s := by
  obtain ⟨x, hx, hp⟩ := h
  exact ⟨x, by rw [World.tcpOf, he]; exact hx, hp⟩

/-- The event is no reset of a connection that waits in the pool of the listener. -/
def Spares (i : ℕ) (w : World S) (iface : IfaceId) (sh : SocketHandle) (ev : TcpEvent) : Prop :=
  ev = .reset → ∀ s ∈ (w.fdAt i).pool, ∀ x, s.iface = iface.code → w.entryOf s = some (sh, .tcp x) →
    S.tcp.state x = .listen ∨ S.tcp.state x = .synReceived

/-- **Short of a reset of its connection, an event leaves a slot alive.** -/
theorem SlotAlive.deliver {w : World S} {i : ℕ} {s : NetSock} (h : SlotAlive w s)
    (hs : s ∈ (w.fdAt i).pool) {iface : IfaceId} {sh : SocketHandle} {ev : TcpEvent}
    (hev : Spares i w iface sh ev) : SlotAlive (w.deliver iface sh ev) s := by
  obtain ⟨x, hx, hp⟩ := h
  obtain ⟨j, ctx, sh', hj, hctx, hent⟩ := World.tcpOf_eq_some.mp hx
  have he := World.entryOf_eq_some.mpr ⟨j, ctx, hj, hctx, hent⟩
  refine ⟨_, by rw [World.tcpOf, World.entryOf_deliver he]; rfl, ?_⟩
  split_ifs with hit
  · obtain ⟨hi, rfl⟩ := hit
    by_cases hr : ev = .reset
    · subst hr
      rw [S.tcp.reset_handshake x (hev rfl s hs x hi he)]
      rfl
    · exact S.tcp.passive_onEvent ev x hr hp
  · exact hp

/-! ## Arming a slot -/

/-- A handle that stands for a fresh TCP socket. -/
def NewTcp (w : World S) (s : NetSock) : Prop := ∃ sh, w.entryOf s = some (sh, .tcp S.tcp.new)

theorem netTcpListen_entryOf {w : World S} (h : w.Wf) {s t : NetSock} (ht : t ≠ s) (port : UInt16) :
    (netTcpListen s port w).2.entryOf t = w.entryOf t := by
  rw [netTcpListen]
  rcases hf : handleFor w s.iface with _ | i
  · rfl
  · refine (congrFun (h.entryOf_withTcp (of_handleFor_eq_some hf).1 _ _) t).trans ?_
    rcases w.entryOf s with _ | ⟨sh, _ | _ | _⟩
    · rfl
    · exact Function.update_of_ne ht ..
    · rfl
    · rfl

/-- **A fresh socket is armed by `net_tcp_listen`.** -/
theorem NewTcp.netTcpListen {w : World S} {s : NetSock} (hn : NewTcp w s) (h : w.Wf) {port : UInt16}
    (hport : port ≠ 0) : SlotAlive (netTcpListen s port w).2 s := by
  obtain ⟨sh, he⟩ := hn
  obtain ⟨i, ctx, hi, hctx, -⟩ := World.entryOf_eq_some.mp he
  obtain ⟨x, hx⟩ := Option.isSome_iff_exists.mp (S.tcp.listen_new port hport)
  refine ⟨x, ?_, by rw [(S.tcp.listen_spec _ _ _ hx).1]; rfl⟩
  rw [World.tcpOf, EspSmoltcp.netTcpListen, handleFor_of_ctx h hi hctx]
  refine (congrArg (Option.bind · _) (congrFun (h.entryOf_withTcp hi _ _) s)).trans ?_
  simp only [he, hx, Function.update_self]
  rfl

/-! ## The listener -/

/-- A listener whose slots are alive, as far as they are armed. -/
structure Armed (i : ℕ) (w : World S) : Prop where
  lt : i < w.fds.length
  kind : (w.fdAt i).kind = .tcpListen
  port : (w.fdAt i).port ≠ 0
  alive : ∀ s ∈ (w.fdAt i).pool, s.valid = true →
    s.iface = (w.fdAt i).iface.code ∧ SlotAlive w s

/-- A listener whose slots are all armed. -/
structure Manned (i : ℕ) (w : World S) : Prop extends Armed i w where
  pool : (w.fdAt i).pool ≠ []
  valid : ∀ s ∈ (w.fdAt i).pool, s.valid = true

/-- A handle fresh from an open on this interface. -/
structure FreshFor (i : ℕ) (iface : IfaceId) (w : World S) (s : NetSock) : Prop where
  new : NewTcp w s
  iface : s.iface = iface.code
  ne : ∀ t ∈ (w.fdAt i).pool, t.valid = true → t ≠ s

/-- The fields of an entry that make it a listener. -/
def FdEntry.listener (e : FdEntry) : FdKind × UInt16 × IfaceId × List NetSock :=
  (e.kind, e.port, e.iface, e.pool)

section Keeps

variable {i j : ℕ} {w w' : World S} {s : NetSock}

/-- The entry of the listener, and what its slots stand for, are all that matters. -/
theorem Armed.congr (h : Armed i w) (hlen : w'.fds.length = w.fds.length)
    (he : (w'.fdAt i).listener = (w.fdAt i).listener)
    (halive : ∀ s ∈ (w.fdAt i).pool, s.valid = true → SlotAlive w s → SlotAlive w' s) :
    Armed i w' := by
  obtain ⟨hkind, hport, hiface, hpool⟩ : _ ∧ _ ∧ _ ∧ _ := by
    simpa only [FdEntry.listener, Prod.mk.injEq] using he
  refine ⟨hlen ▸ h.lt, hkind.trans h.kind, hport ▸ h.port, ?_⟩
  rw [hpool, hiface]
  exact fun s hs hv => ⟨(h.alive s hs hv).1, halive s hs hv (h.alive s hs hv).2⟩

theorem Manned.congr (h : Manned i w) (hlen : w'.fds.length = w.fds.length)
    (he : (w'.fdAt i).listener = (w.fdAt i).listener)
    (halive : ∀ s ∈ (w.fdAt i).pool, s.valid = true → SlotAlive w s → SlotAlive w' s) :
    Manned i w' := by
  have hpool : (w'.fdAt i).pool = (w.fdAt i).pool := congrArg (·.2.2.2) he
  exact ⟨h.toArmed.congr hlen he halive, hpool ▸ h.pool, hpool ▸ h.valid⟩

/-- A change of the shim's statics that leaves the listener alone. -/
theorem Manned.of_ifaces (h : Manned i w) (hi : w'.ifaces = w.ifaces)
    (hlen : w'.fds.length = w.fds.length) (he : (w'.fdAt i).listener = (w.fdAt i).listener) :
    Manned i w' :=
  h.congr hlen he fun s _ _ ha => ha.of_entryOf (congrFun (World.entryOf_of_ifaces hi) s)

/-- A call that leaves the fd table alone. -/
theorem Manned.of_fds (h : Manned i w) (hf : w'.fds = w.fds)
    (halive : ∀ s ∈ (w.fdAt i).pool, s.valid = true → SlotAlive w s → SlotAlive w' s) :
    Manned i w' :=
  h.congr (by rw [hf]) (by rw [World.fdAt, hf]; rfl) halive

/-- **Short of a reset of a waiting connection, an event leaves the listener manned.** -/
theorem Manned.deliver (h : Manned i w) (hw : w.Wf) {iface : IfaceId} {sh : SocketHandle}
    {ev : TcpEvent} (hev : Spares i w iface sh ev) : Manned i (w.deliver iface sh ev) :=
  h.of_fds (hw.calm_deliver iface sh ev).fds fun _ hs _ ha => ha.deliver hs hev

/-- The interface of a listener is attached. -/
theorem Manned.attached (h : Manned i w) : ∃ ctx, w.ctx (w.fdAt i).iface = some ctx := by
  obtain ⟨s, hs⟩ := List.exists_mem_of_ne_nil _ h.pool
  obtain ⟨hi, x, hx, -⟩ := h.alive s hs (h.valid s hs)
  obtain ⟨j, ctx, -, hj, hctx, -⟩ := World.tcpOf_eq_some.mp hx
  obtain rfl := IfaceId.code_inj (hj.symm.trans hi)
  exact ⟨ctx, hctx⟩

/-! ## Opens -/

/-- A handle fresh from an open is in no slot: a slot that is alive stands for something. -/
theorem Armed.fresh {iface : IfaceId} (h : Armed i w)
    (ho : Opened (· = .tcp S.tcp.new) iface w s w') : FreshFor i iface w' s := by
  obtain ⟨sh, _, rfl, -, hent⟩ := ho.entry
  refine ⟨⟨sh, by rw [hent, Function.update_self]⟩, ho.iface, ?_⟩
  rw [show w'.fdAt i = w.fdAt i by rw [World.fdAt, ho.fds]; rfl]
  rintro t ht hv rfl
  obtain ⟨-, x, hx, -⟩ := h.alive t ht hv
  rw [World.tcpOf, ho.fresh] at hx
  cases hx

/-- An open disturbs no slot. -/
theorem SlotAlive.opened {iface : IfaceId} {t : NetSock} (h : SlotAlive w t)
    (ho : Opened (· = .tcp S.tcp.new) iface w s w') : SlotAlive w' t := by
  obtain ⟨sh, _, rfl, -, hent⟩ := ho.entry
  refine h.of_entryOf ?_
  rw [hent, Function.update_of_ne]
  rintro rfl
  obtain ⟨x, hx, -⟩ := h
  rw [World.tcpOf, ho.fresh] at hx
  cases hx

/-- On an attached interface an open is not refused. -/
theorem netTcpOpen_ne_refused (hw : w.Wf) {iface : IfaceId} {ctx : IfaceCtx S}
    (hctx : w.ctx iface = some ctx) (hb : w.counter iface ≤ 2 ^ 24) :
    netTcpOpen iface w ≠ (.invalid, w) := by
  intro he
  have hcount : w.counter iface + 1 < 2 ^ 32 := by omega
  rw [World.counter_of_ctx hctx] at hcount
  rw [netTcpOpen_of_ctx hw hctx] at he
  have := congrFun (World.counter_openSocket hctx (.tcp S.tcp.new) hcount) iface
  rw [(Prod.mk.inj he).2, Function.update_self] at this
  omega

/-! ## Arming -/

/-- **A slot is armed with a fresh socket.** -/
theorem Armed.arm (h : Armed i w) (hw : w.Wf) (hs : FreshFor i (w.fdAt i).iface w s) (idx : ℕ) :
    Armed i (EspSmoltcp.netTcpListen s (w.fdAt i).port
      (w.modFd i fun e => { e with pool := e.pool.set idx s })).2 := by
  have he := World.fdAt_modFd_self (fun e => { e with pool := e.pool.set idx s }) h.lt
  have hent : (w.modFd i fun e => { e with pool := e.pool.set idx s }).entryOf = w.entryOf :=
    World.entryOf_of_ifaces rfl
  have hlen : i < (w.modFd i fun e => { e with pool := e.pool.set idx s }).fds.length := by
    rw [World.length_fds_modFd]
    exact h.lt
  have hw₁ : (w.modFd i fun e => { e with pool := e.pool.set idx s }).Wf := hw.of_ifaces rfl
  have hnew : NewTcp (w.modFd i fun e => { e with pool := e.pool.set idx s }) s := by
    obtain ⟨sh, hsh⟩ := hs.new
    exact ⟨sh, by rw [hent]; exact hsh⟩
  generalize w.modFd i (fun e => { e with pool := e.pool.set idx s }) = w₁ at *
  have hfds := (hw₁.calm_netTcpListen s (w.fdAt i).port).fds
  have he₂ : (EspSmoltcp.netTcpListen s (w.fdAt i).port w₁).2.fdAt i = w₁.fdAt i := by
    rw [World.fdAt, hfds]
    rfl
  refine ⟨hfds ▸ hlen, ?_, ?_, ?_⟩
  · rw [he₂, he]
    exact h.kind
  · rw [he₂, he]
    exact h.port
  · rw [he₂, he]
    intro t ht hv
    obtain ht | rfl := List.mem_or_eq_of_mem_set ht
    · refine ⟨(h.alive t ht hv).1, (h.alive t ht hv).2.of_entryOf ?_⟩
      rw [netTcpListen_entryOf hw₁ (hs.ne t ht hv), hent]
    · exact ⟨hs.iface, hnew.netTcpListen hw₁ h.port⟩

/-- Arming a handle that is in no slot disturbs no slot. -/
theorem Manned.netTcpListen (h : Manned i w) (hw : w.Wf)
    (hs : ∀ t ∈ (w.fdAt i).pool, t.valid = true → t ≠ s) (port : UInt16) :
    Manned i (netTcpListen s port w).2 :=
  h.of_fds (hw.calm_netTcpListen s port).fds fun t ht hv ha =>
    ha.of_entryOf (netTcpListen_entryOf hw (hs t ht hv) port)

/-! ## `accept` -/

/-- What an open leaves for a listener: it is still manned, and the handle, if there is one, is fresh. -/
def Opening (i : ℕ) (iface : IfaceId) (s : NetSock) (w : World S) : Prop :=
  Manned i w ∧ (s.valid = true → FreshFor i iface w s) ∧ ((w.fdAt i).iface = iface → s.valid = true)

theorem InIds.opening (h : InIds 0 (Manned i) w) (iface : IfaceId) :
    InIds 1 (Opening i iface (netTcpOpen iface w).1) (netTcpOpen iface w).2 := by
  refine h.opened (netTcpOpen_spec iface w) (by rintro x rfl; rfl) (by decide) ?_ fun hm ho => ?_
  · intro hm hr
    have hne : (w.fdAt i).iface ≠ iface := by
      rintro rfl
      obtain ⟨ctx, hctx⟩ := hm.attached
      exact netTcpOpen_ne_refused h.wf hctx (h.bound _) hr
    rw [hr]
    exact ⟨hm, fun hv => absurd hv Bool.false_ne_true, fun he => absurd he hne⟩
  · exact ⟨hm.of_fds ho.fds fun t _ _ ha => ha.opened ho, fun _ => hm.fresh ho, fun _ => ho.valid⟩

/-- The slot of a listener takes a fresh socket, and is armed. -/
theorem Manned.rearm {idx : ℕ} (h : Manned i w) (hw : w.Wf) (hs : FreshFor i (w.fdAt i).iface w s)
    (hv : s.valid = true) : Manned i (EspSmoltcp.netTcpListen s (w.fdAt i).port
      (w.modFd i fun e => { e with pool := e.pool.set idx s })).2 := by
  have hfds := ((hw.of_ifaces (World.ifaces_modFd (i := i) fun e =>
    { e with pool := e.pool.set idx s })).calm_netTcpListen s (w.fdAt i).port).fds
  have hpool : ((EspSmoltcp.netTcpListen s (w.fdAt i).port
      (w.modFd i fun e => { e with pool := e.pool.set idx s })).2.fdAt i).pool
        = (w.fdAt i).pool.set idx s := by
    rw [World.fdAt, hfds]
    exact congrArg FdEntry.pool (World.fdAt_modFd_self (fun e =>
      { e with pool := e.pool.set idx s }) h.lt)
  refine ⟨h.toArmed.arm hw hs idx, ?_, ?_⟩
  · rw [hpool]
    exact fun he => h.pool (by simpa using he)
  · rw [hpool]
    intro t ht
    obtain ht | rfl := List.mem_or_eq_of_mem_set ht
    · exact h.valid t ht
    · exact hv

/-- The slot of one listener takes what the open returned, and no other listener notices. -/
theorem InIds.replenish (h : InIds 1 (Opening i (w.fdAt j).iface s) w) (idx : ℕ) :
    InIds 1 (Manned i) ((if s.valid = true then (netTcpListen s (w.fdAt j).port
        (w.modFd j fun e => { e with pool := e.pool.set idx s })).2
      else w.modFd j fun e => { e with pool := e.pool.set idx s }).modFd j
        fun e => { e with poolNext := (idx + 1) % e.pool.length }) := by
  generalize hw₁ : (w.modFd j fun e => { e with pool := e.pool.set idx s }) = w₁
  have hif₁ : w₁.ifaces = w.ifaces := by
    rw [← hw₁]
    rfl
  have hwf₁ := h.wf.of_ifaces hif₁
  generalize hw₂ : (if s.valid = true then (netTcpListen s (w.fdAt j).port w₁).2 else w₁) = w₂
  have hcalm : Calm w₁ w₂ := by
    rw [← hw₂]
    split_ifs
    · exact hwf₁.calm_netTcpListen ..
    · exact hwf₁.calm_refl
  refine h.step (hcalm.wf.of_ifaces rfl)
    ((World.counter_of_ifaces rfl).trans (hcalm.counter.trans (World.counter_of_ifaces hif₁))) ?_
  rintro ⟨hm, hfresh, hval⟩
  suffices hm₂ : Manned i w₂ by
    refine hm₂.of_ifaces rfl (World.length_fds_modFd _) ?_
    by_cases hij : i = j
    · subst hij
      rw [World.fdAt_modFd_self _ hm₂.lt]
      rfl
    · rw [World.fdAt_modFd_ne _ hij]
  rw [← hw₂]
  by_cases hij : i = j
  · subst hij
    have hv := hval rfl
    rw [if_pos hv, ← hw₁]
    exact hm.rearm h.wf (hfresh hv) hv
  · have he₁ : w₁.fdAt i = w.fdAt i := by rw [← hw₁, World.fdAt_modFd_ne _ hij]
    have hm₁ : Manned i w₁ := hm.of_ifaces hif₁ (by rw [← hw₁, World.length_fds_modFd]) (by rw [he₁])
    split_ifs with hv
    · exact hm₁.netTcpListen hwf₁ (by rw [he₁]; exact (hfresh hv).ne) _
    · exact hm₁

/-- An entry that was free is no listener's. -/
theorem InIds.setFree (h : InIds 0 (Manned i) w) {n : ℕ} (hfree : (w.fdAt n).kind = .free) (e : FdEntry) :
    InIds 0 (Manned i) (w.setFd n e) := by
  refine h.step (h.wf.of_ifaces rfl) (World.counter_of_ifaces rfl) fun hm => ?_
  have hne : i ≠ n := by
    rintro rfl
    rw [hm.kind] at hfree
    cases hfree
  exact hm.of_ifaces rfl (by rw [World.fds_setFd, List.length_set]) (by rw [World.fdAt_setFd_ne hne])

/-- **Handing a connection over keeps every listener manned.** -/
theorem InIds.handOver (h : InIds 0 (Manned i) w) (cfg : Config) (hk : (w.fdAt j).kind = .tcpListen)
    (idx : ℕ) (cand : NetSock) : InIds 1 (Manned i) (handOver cfg j idx cand w).2 := by
  have hspec := handOver_spec cfg j idx cand w
  generalize EspSmoltcp.handOver cfg j idx cand w = r at hspec ⊢
  cases hspec with
  | full => exact h.mono (Nat.zero_le 1)
  | outside _ hfree hw => exact (hw ▸ h.setFree hfree _).mono (Nat.zero_le 1)
  | @given n v port w₁ w₃ w₄ o hn hfree he hw ho hput harm =>
    have hnj : n ≠ j := by
      rintro rfl
      rw [hk] at hfree
      cases hfree
    obtain ⟨rfl, rfl⟩ := he hnj
    have h₁ : InIds 0 (Manned i) w₁ := hw ▸ h.setFree hfree _
    have he₁ : w₁.fdAt j = w.fdAt j := hw ▸ World.fdAt_setFd_ne hnj.symm _
    have he₂ : o.2.fdAt j = w.fdAt j := by
      rw [← he₁, ← ho, World.fdAt, (netTcpOpen_spec (w.fdAt j).iface w₁).fds]
      rfl
    have h₂ := h₁.opening (w.fdAt j).iface
    rw [ho, ← he₂] at h₂
    rw [← he₂] at harm
    rw [← harm, ← hput]
    exact h₂.replenish idx

/-- A query changes what no handle stands for. -/
theorem netTcpIsConnected_entryOf (s : NetSock) (w : World S) :
    (netTcpIsConnected s w).2.entryOf = w.entryOf := by
  rw [netTcpIsConnected]
  rcases handleFor w s.iface with _ | i
  · rfl
  simp only
  rcases hctx : w.ctx i with _ | ctx
  · rw [World.ffi, hctx]
  rw [World.ffi_of_ctx hctx]
  refine World.entryOf_congr fun j => ?_
  by_cases hj : j = i
  · subst hj
    have hent : (smoltcpTcpIsConnected ctx s.localId).2.entryAt = ctx.entryAt := by
      obtain h | h | ⟨_, _, _, h⟩ := ctx.queryTcp_cases s.localId false _
      · rw [smoltcpTcpIsConnected, h]
      · rw [smoltcpTcpIsConnected, h, IfaceCtx.entryAt_panic]
      · rw [smoltcpTcpIsConnected, h]
    rw [World.ctx_setCtx_self, hctx, Option.map_some, Option.map_some, hent]
  · rw [World.ctx_setCtx_ne w hj]

/-- The state `accept` on listener `j` waits in. -/
def Waiting (i j : ℕ) (w : World S) : Prop :=
  InIds 0 (Manned i) w ∧ j < w.fds.length ∧ (w.fdAt j).kind = .tcpListen

theorem Waiting.of_calm (h : Waiting i j w) (hc : Calm w w')
    (halive : Manned i w → ∀ s ∈ (w.fdAt i).pool, s.valid = true → SlotAlive w s → SlotAlive w' s) :
    Waiting i j w' := by
  refine ⟨h.1.step hc.wf hc.counter fun hm => hm.of_fds hc.fds (halive hm), hc.fds ▸ h.2.1, ?_⟩
  rw [World.fdAt, hc.fds]
  exact h.2.2

/-- A scan of any listener's pool. -/
theorem Waiting.acceptScan (h : Waiting i j w) (cfg : Config) (ks : List ℕ) :
    ((acceptScan cfg j ks w).1 = none → Waiting i j (acceptScan cfg j ks w).2) ∧
      InIds 1 (Manned i) (acceptScan cfg j ks w).2 := by
  induction ks generalizing w with
  | nil => exact ⟨fun _ => h, h.1.mono (Nat.zero_le 1)⟩
  | cons k ks ih =>
    rw [EspSmoltcp.acceptScan]
    simp only
    generalize (w.fdAt j).pool.getD _ .invalid = cand
    have h₁ : Waiting i j (netTcpIsConnected cand w).2 :=
      h.of_calm (h.1.wf.calm_netTcpIsConnected cand) fun _ s _ _ ha =>
        ha.of_entryOf (congrFun (netTcpIsConnected_entryOf cand w) s)
    split_ifs
    · exact ⟨False.elim, h₁.1.handOver cfg h₁.2.2 _ cand⟩
    · exact ih h₁

theorem Waiting.stable : Stable (PeerMoves (Spares i)) (Waiting (S := S) i j) := by
  intro env henv w hw
  have key : ∀ w', Relation.ReflTransGen (Delivery (Spares i)) w w' → Waiting i j w' := by
    intro w' h
    induction h with
    | refl => exact hw
    | tail _ hd ih =>
      obtain ⟨iface, sh, ev, hok, rfl⟩ := hd
      exact ih.of_calm (ih.1.wf.calm_deliver iface sh ev) fun _ s hs _ ha => ha.deliver hs hok
  exact key _ (henv w)

/-- **`accept` on any fd keeps a listener manned.** -/
theorem along_accept_manned (cfg : Config) (fd : ℤ) :
    Triple (Along (PeerMoves (Spares i)) (InIds 0 (Manned (S := S) i))) (wrapLwipAccept cfg fd)
      (fun _ => Along (PeerMoves (Spares i)) (InIds 1 (Manned i))) fun _ => True := by
  refine along_wrapLwipAccept (J := Waiting i) (fun j => Waiting.stable) (fun _ _ _ => trivial)
    (fun w h => h.mono (Nat.zero_le 1)) (fun j w h => h.1.mono (Nat.zero_le 1)) ?_ ?_
  · exact fun w j h hfd hk => ⟨h, lt_length_of_fdGet hfd, hk⟩
  · exact fun j w h => h.acceptScan cfg _

/-! ## `listen` -/

/-- Arming the slots keeps the size of the ring. -/
theorem armSlots_ring (k n : ℕ) {w : World S} (hi : i < w.fds.length) :
    ((armSlots i k n w).2.fdAt i).kind = (w.fdAt i).kind ∧
      ((armSlots i k n w).2.fdAt i).pool.length = (w.fdAt i).pool.length ∧
      ((armSlots i k n w).2.fdAt i).poolNext = (w.fdAt i).poolNext := by
  induction n generalizing k w with
  | zero => exact ⟨rfl, rfl, rfl⟩
  | succ n ih =>
    rw [armSlots]
    have hopen := (SameShim.netTcpOpen (w.fdAt i).iface w).fds
    generalize netTcpOpen (w.fdAt i).iface w = o at hopen ⊢
    have hlt : i < o.2.fds.length := hopen ▸ hi
    have he : (o.2.modFd i fun e => { e with pool := e.pool.set k o.1 }).fdAt i
        = { w.fdAt i with pool := (w.fdAt i).pool.set k o.1 } := by
      rw [World.fdAt_modFd_self _ hlt, World.fdAt, hopen, ← World.fdAt]
    have hlt' : i < (o.2.modFd i fun e => { e with pool := e.pool.set k o.1 }).fds.length := by
      rw [World.length_fds_modFd]
      exact hlt
    simp only
    generalize o.2.modFd i _ = w₁ at he hlt' ⊢
    have hw₁ : (w₁.fdAt i).kind = (w.fdAt i).kind ∧
        (w₁.fdAt i).pool.length = (w.fdAt i).pool.length ∧
        (w₁.fdAt i).poolNext = (w.fdAt i).poolNext := by
      rw [he]
      exact ⟨rfl, List.length_set, rfl⟩
    split_ifs
    · have hlisten := (SameShim.netTcpListen o.1 (w.fdAt i).port w₁).fds
      have he₂ : (netTcpListen o.1 (w.fdAt i).port w₁).2.fdAt i = w₁.fdAt i := by
        rw [World.fdAt, hlisten, ← World.fdAt]
      obtain ⟨hkind, hlen, hnext⟩ := ih (k + 1) (hlisten ▸ hlt')
      rw [he₂] at hkind hlen hnext
      exact ⟨hkind.trans hw₁.1, hlen.trans hw₁.2.1, hnext.trans hw₁.2.2⟩
    · rw [World.fdAt, (SameShim.netTcpListen ..).fds, ← World.fdAt]
      exact hw₁
    · exact hw₁

/-- A listener whose first `k` slots are armed, with `n` to go. -/
def Arming (k n i : ℕ) (w : World S) : Prop :=
  Armed i w ∧ (w.fdAt i).pool.length = k + n ∧
    ∀ j < k, ∀ t, (w.fdAt i).pool[j]? = some t → t.valid = true

theorem Arming.manned {k : ℕ} (h : Arming k 0 i w) (hk : 0 < k) : Manned i w := by
  obtain ⟨harmed, hlen, hvalid⟩ := h
  refine ⟨harmed, fun hnil => ?_, fun t ht => ?_⟩
  · rw [hnil, List.length_nil] at hlen
    omega
  · obtain ⟨j, hj⟩ := List.mem_iff_getElem?.mp ht
    obtain ⟨hlt, -⟩ := List.getElem?_eq_some_iff.mp hj
    exact hvalid j (by omega) t hj

theorem InIds.armSlots {k m n : ℕ} (h : InIds m (Arming k n i) w) (hm : m + n ≤ 2 ^ 8)
    (hr : (armSlots i k n w).1.ret = 0) : InIds (m + n) (Arming (k + n) 0 i) (armSlots i k n w).2 := by
  induction n generalizing k m w with
  | zero => exact h
  | succ n ih =>
    rw [EspSmoltcp.armSlots] at hr ⊢
    simp only at hr ⊢
    have hspec := netTcpOpen_spec (w.fdAt i).iface w
    have h₁ : InIds (m + 1) (fun w' => Arming k (n + 1) i w' ∧
        ((netTcpOpen (w.fdAt i).iface w).1.valid = true →
          FreshFor i (w.fdAt i).iface w' (netTcpOpen (w.fdAt i).iface w).1))
        (netTcpOpen (w.fdAt i).iface w).2 := by
      refine h.opened hspec (by rintro x rfl; rfl) (by omega) (fun ha he => ?_) fun ha ho => ?_
      · rw [he]
        exact ⟨ha, fun hv => absurd hv Bool.false_ne_true⟩
      · have he : (netTcpOpen (w.fdAt i).iface w).2.fdAt i = w.fdAt i := by
          rw [World.fdAt, ho.fds]
          rfl
        refine ⟨⟨ha.1.congr (by rw [ho.fds]) (by rw [he]) fun t _ _ hta => hta.opened ho, ?_⟩,
          fun _ => ha.1.fresh ho⟩
        rw [he]
        exact ha.2
    have he : (netTcpOpen (w.fdAt i).iface w).2.fdAt i = w.fdAt i := by
      rw [World.fdAt, hspec.fds]
      rfl
    generalize (netTcpOpen (w.fdAt i).iface w).1 = s at h₁ hr ⊢
    generalize (netTcpOpen (w.fdAt i).iface w).2 = w₁ at h₁ he hr ⊢
    rw [← he] at h₁ hr ⊢
    split_ifs at hr ⊢ with hv hok
    · have hif := World.ifaces_modFd (w := w₁) (i := i) fun e => { e with pool := e.pool.set k s }
      have hcalm := (h₁.wf.of_ifaces hif).calm_netTcpListen s (w₁.fdAt i).port
      have h₂ : InIds (m + 1) (Arming (k + 1) n i) (netTcpListen s (w₁.fdAt i).port
          (w₁.modFd i fun e => { e with pool := e.pool.set k s })).2 := by
        refine h₁.step hcalm.wf (hcalm.counter.trans (World.counter_of_ifaces hif)) ?_
        rintro ⟨⟨harmed, hlen, hvalid⟩, hfresh⟩
        refine ⟨harmed.arm h₁.wf (hfresh hv) k, ?_⟩
        rw [World.fdAt, hcalm.fds, ← World.fdAt, World.fdAt_modFd_self _ harmed.lt]
        refine ⟨by rw [List.length_set, hlen]; omega, fun j hj t ht => ?_⟩
        by_cases hjk : k = j
        · subst hjk
          rw [List.getElem?_set_self (by omega)] at ht
          exact Option.some.inj ht ▸ hv
        · rw [List.getElem?_set_ne hjk] at ht
          exact hvalid j (by omega) t ht
      rw [show m + (n + 1) = m + 1 + n by omega, show k + (n + 1) = k + 1 + n by omega]
      exact ih h₂ (by omega) hr
    · exact absurd hr (Ret.ret_fail_ne_zero _)
    · exact absurd hr (Ret.ret_fail_ne_zero _)

/-- **`listen()` mans the listener it returns success for.** -/
theorem manned_of_listen {cfg : Config} {heap : Bool} {fd backlog : ℤ} (hw : w.Wf)
    (hids : ∀ k, w.counter k ≤ 2 ^ 24) (hfd : fdGet cfg w fd = some i)
    (hr : (wrapLwipListen cfg heap fd backlog w).1.ret = 0)
    (hids' : ∀ k, (wrapLwipListen cfg heap fd backlog w).2.counter k ≤ 2 ^ 24) :
    InIds 0 (Manned i) (wrapLwipListen cfg heap fd backlog w).2 := by
  have hpool := cfg.listenerPool_range
  have hsize : 0 < poolSize cfg backlog ∧ poolSize cfg backlog ≤ 2 ^ 8 := by
    rw [poolSize]
    split_ifs <;> omega
  suffices h : InIds (0 + poolSize cfg backlog) (Manned i) (wrapLwipListen cfg heap fd backlog w).2 from
    ⟨h.wf, hids', h.holds⟩
  have hspec := wrapLwipListen_spec cfg heap fd backlog w
  generalize wrapLwipListen cfg heap fd backlog w = r at hspec hr ⊢
  cases hspec with
  | refused => exact absurd hr (Ret.ret_fail_ne_zero _)
  | @armed j w₁ hj _ hport hw₁ hlt he =>
    obtain rfl : i = j := Option.some.inj (hfd.symm.trans hj)
    have hslots : (w₁.fdAt i).pool = List.replicate (poolSize cfg backlog) .invalid := by rw [he]; rfl
    have h₁ : InIds 0 (Arming 0 (poolSize cfg backlog) i) w₁ := by
      refine ⟨hw₁ ▸ hw.of_ifaces rfl, fun k => hw₁ ▸ hids k, fun _ =>
        ⟨⟨hlt, by rw [he]; rfl, by rw [he]; exact hport, ?_⟩, ?_, fun j hj => by omega⟩⟩
      · rw [hslots]
        intro t ht hv
        rw [List.eq_of_mem_replicate ht] at hv
        cases hv
      · rw [hslots, List.length_replicate, Nat.zero_add]
    exact (h₁.armSlots (by omega) hr).imp fun _ ha => ha.manned (by omega)

end Keeps

/-! ## Runs -/

/-- One step of a run: an `accept` that returns, with ids still below `2^24`, while the peers make moves
of this kind; or one such move. -/
inductive ListenerStep (cfg : Config) (ok : World S → IfaceId → SocketHandle → TcpEvent → Prop) :
    World S → World S → Prop
  | accept {w : World S} (fd : ℤ) (sched : List (Moment (World S))) {r : Ret}
      {sys : Sys (World S) (Event S)} (hpeers : ∀ m ∈ sched, PeerMoves ok m.env)
      (hrun : (wrapLwipAccept cfg fd).run w sched = (some r, sys))
      (hids : ∀ k, sys.world.counter k ≤ 2 ^ 24) : ListenerStep cfg ok w sys.world
  | event {w w' : World S} (h : Delivery ok w w') : ListenerStep cfg ok w w'

theorem InIds.listenerStep {cfg : Config} {i : ℕ} {w w' : World S} (h : InIds 0 (Manned i) w)
    (hs : ListenerStep cfg (Spares i) w w') : InIds 0 (Manned i) w' := by
  obtain ⟨fd, sched, hpeers, hrun, hids⟩ | ⟨iface, sh, ev, hok, rfl⟩ := hs
  · have hend := (along_accept_manned cfg fd).of_some (s := ⟨w, sched, []⟩) ⟨h, hpeers⟩ hrun
    exact ⟨hend.1.wf, hids, hend.1.holds⟩
  · have hcalm := h.wf.calm_deliver iface sh ev
    exact h.step hcalm.wf hcalm.counter fun hm => hm.deliver h.wf hok

/-- **In every run in which no peer resets a connection that waits to be accepted, every slot of the
listener stays alive.** -/
theorem slotAlive_of_run {cfg : Config} {heap : Bool} {fd backlog : ℤ} {i : ℕ} {w₀ w : World S}
    (hw : w₀.Wf) (hids : ∀ k, w₀.counter k ≤ 2 ^ 24) (hfd : fdGet cfg w₀ fd = some i)
    (hlisten : (wrapLwipListen cfg heap fd backlog w₀).1.ret = 0)
    (hids' : ∀ k, (wrapLwipListen cfg heap fd backlog w₀).2.counter k ≤ 2 ^ 24)
    (hrun : Relation.ReflTransGen (ListenerStep cfg (Spares i))
      (wrapLwipListen cfg heap fd backlog w₀).2 w) :
    ∀ s ∈ (w.fdAt i).pool, SlotAlive w s := by
  have hinv : InIds 0 (Manned i) w := by
    induction hrun with
    | refl => exact manned_of_listen hw hids hfd hlisten hids'
    | tail _ hstep ih => exact ih.listenerStep hstep
  have hm : Manned i w := hinv.holds hinv.bound
  exact fun s hs => (hm.alive s hs (hm.valid s hs)).2

/-! ### A connection that is reset before it is accepted -/

/-- A TCP fd bound to port 80. -/
def boundFd : World .reference :=
  (wrapLwipBind .default true 48 ⟨2, 0, 80⟩ 16
    (wrapLwipSocket .default 2 1 (.booted .default [(.eth, fun _ => 0)])).2).2

/-- It listens with one slot. -/
def oneSlot : World .reference := (wrapLwipListen .default true 48 1 boundFd).2

/-- A peer has connected to the slot. -/
def peerConnected : World .reference := (oneSlot.deliver .eth 0 .connect).deliver .eth 0 .connect

/-- The peer has reset the connection. -/
def peerReset : World .reference := peerConnected.deliver .eth 0 .reset

theorem wf_boundFd : boundFd.Wf := by
  have hblank := blank_booted (S := .reference) .default [(.eth, fun _ => 0)]
  have hacc := hblank.accounted (World.wf_attachAll [(.eth, fun _ => 0)] (World.wf_boot .default))
  exact ((hacc.wrapLwipSocket (by decide) .default 2 1).wrapLwipBind (by decide) .default true 48
    ⟨2, 0, 80⟩ 16).held.wf

/-- The slot is alive once a peer has connected to it. -/
theorem slotAlive_peerConnected :
    (peerConnected.fdAt 0).pool = [⟨1⟩] ∧ SlotAlive peerConnected ⟨1⟩ := by
  refine ⟨rfl, @slotAlive_of_run .reference .default true 48 1 0 boundFd peerConnected wf_boundFd
    (fun i => by cases i <;> decide) rfl rfl (fun i => by cases i <;> decide) ?_ ⟨1⟩
    (List.mem_singleton.mpr rfl)⟩
  refine .tail (.single (.event ⟨.eth, 0, .connect, ?_, rfl⟩)) (.event ⟨.eth, 0, .connect, ?_, rfl⟩)
  · exact fun h => by cases h
  · exact fun h => by cases h

/-- **A reset before the `accept` leaves a dead slot behind**, which `accept` does not arm again. -/
theorem accept_leaves_dead_slot : ∃ r sys,
    (wrapLwipListen .default true 48 1 boundFd).1.ret = 0 ∧
      Relation.ReflTransGen (ListenerStep .default fun _ _ _ _ => True) oneSlot peerReset ∧
      (wrapLwipAccept .default 48).run peerReset [idle 0, idle 60001] = (some r, sys) ∧
      ListenerStep .default (fun _ _ _ _ => True) peerReset sys.world ∧
      ¬ ∀ s ∈ (sys.world.fdAt 0).pool, SlotAlive sys.world s := by
  refine ⟨⟨-1, some .etimedout⟩, _, rfl, ?_, rfl, ?_, fun h => ?_⟩
  · refine .tail (.tail (.single (.event ⟨.eth, 0, .connect, trivial, rfl⟩))
      (.event ⟨.eth, 0, .connect, trivial, rfl⟩)) (.event ⟨.eth, 0, .reset, trivial, rfl⟩)
  · refine .accept 48 [idle 0, idle 60001] (fun m hm w => ?_) rfl fun i => by cases i <;> decide
    obtain rfl | rfl : m = idle 0 ∨ m = idle 60001 := by simpa using hm
    · exact .refl
    · exact .refl
  · obtain ⟨x, hx, hp⟩ := h ⟨1⟩ (List.mem_singleton.mpr rfl)
    obtain rfl := Option.some.inj hx
    cases hp

end EspSmoltcp
