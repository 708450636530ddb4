import EspSmoltcp.Stack.Handles

/-!
# Stack/Kinds — calls that find a socket of their type

`SocketSet::get_mut` and `remove` panic on a handle that is dead or of another type.  A call on an id panics
exactly when the id is registered and names no socket of the call's type (`panicked_withTcp` and its
siblings), so what matters is what a holder of a handle may still assume after everybody else has moved.

`OfKind` is what: the handle's id was issued, and stands for a socket of that type or for none.  Ids are not
issued twice below `2^24`, so no open and no close takes that away (`OfKind.mono`).
-/

namespace EspSmoltcp

open Thread (Along Stable Triple)

variable {S : Smoltcp} {α : Type} {k : SockKind}

/-! ## When a call panics -/

namespace IfaceCtx

/-- The id is not registered, or names a socket of this type. -/
def Names (ctx : IfaceCtx S) (k : SockKind) (id : UInt32) : Prop :=
  ∀ sh, ctx.lookup id = some sh → ∃ x, ctx.sockets.lookup sh = some x ∧ x.kind? = some k

theorem names_of_lookup_none {ctx : IfaceCtx S} {id : UInt32} (h : ctx.lookup id = none) :
    ctx.Names k id := by
  intro sh hl
  rw [h] at hl
  cases hl

theorem names_iff_of_lookup {ctx : IfaceCtx S} {id : UInt32} {sh : SocketHandle}
    (hl : ctx.lookup id = some sh) :
    ctx.Names k id ↔ ∃ x, ctx.sockets.lookup sh = some x ∧ x.kind? = some k := by
  constructor
  · exact fun h => h sh hl
  · rintro h sh' hl'
    obtain rfl := Option.some.inj (hl.symm.trans hl')
    exact h

/-- **A call on a TCP id panics exactly if the id is registered and names no TCP socket.** -/
theorem panicked_withTcp (ctx : IfaceCtx S) (id : UInt32) (err : α)
    (f : S.tcp.Socket → α × S.tcp.Socket) :
    (ctx.withTcp id err f).2.panicked = true ↔ ctx.panicked = true ∨ ¬ ctx.Names .tcp id := by
  rcases hl : ctx.lookup id with _ | sh
  · simp [withTcp, hl, names_of_lookup_none hl]
  · rw [names_iff_of_lookup hl]
    rcases hs : ctx.sockets.lookup sh with _ | x | x | _ <;>
      simp [withTcp, hl, hs, panic, Socket.kind?]

/-- **So does a query.** -/
theorem panicked_queryTcp (ctx : IfaceCtx S) (id : UInt32) (err : α) (f : S.tcp.Socket → α) :
    (ctx.queryTcp id err f).2.panicked = true ↔ ctx.panicked = true ∨ ¬ ctx.Names .tcp id := by
  rcases hl : ctx.lookup id with _ | sh
  · simp [queryTcp, hl, names_of_lookup_none hl]
  · rw [names_iff_of_lookup hl]
    rcases hs : ctx.sockets.lookup sh with _ | x | x | _ <;>
      simp [queryTcp, hl, hs, panic, Socket.kind?]

/-- **The same for UDP.** -/
theorem panicked_withUdp (ctx : IfaceCtx S) (id : UInt32) (err : α)
    (f : S.udp.Socket → α × S.udp.Socket) :
    (ctx.withUdp id err f).2.panicked = true ↔ ctx.panicked = true ∨ ¬ ctx.Names .udp id := by
  rcases hl : ctx.lookup id with _ | sh
  · simp [withUdp, hl, names_of_lookup_none hl]
  · rw [names_iff_of_lookup hl]
    rcases hs : ctx.sockets.lookup sh with _ | x | x | _ <;>
      simp [withUdp, hl, hs, panic, Socket.kind?]

/-- **And for a close**, which removes the socket as well. -/
theorem panicked_closeSocket (ctx : IfaceCtx S) (id : UInt32) {close : Socket S → Option (Socket S)}
    (hclose : ∀ x, (close x).isSome = true ↔ x.kind? = some k) :
    (ctx.closeSocket id close).panicked = true ↔ ctx.panicked = true ∨ ¬ ctx.Names k id := by
  rcases hl : ctx.lookup id with _ | sh
  · simp [closeSocket, hl, names_of_lookup_none hl]
  · rw [names_iff_of_lookup hl]
    rcases hs : ctx.sockets.lookup sh with _ | x
    · simp [closeSocket, hl, hs, panic]
    · have hx := hclose x
      rcases hc : close x with _ | x' <;> simp [hc] at hx <;>
        simp [closeSocket, hl, hs, hc, panic, hx]

theorem panicked_smoltcpTcpClose {ctx : IfaceCtx S} {id : UInt32} (h : ctx.Names .tcp id) :
    (smoltcpTcpClose ctx id).panicked = ctx.panicked := by
  simpa [smoltcpTcpClose, h] using ctx.panicked_closeSocket id Socket.isSome_closeTcp

theorem panicked_smoltcpUdpClose {ctx : IfaceCtx S} {id : UInt32} (h : ctx.Names .udp id) :
    (smoltcpUdpClose ctx id).panicked = ctx.panicked := by
  simpa [smoltcpUdpClose, h] using ctx.panicked_closeSocket id Socket.isSome_closeUdp

/-- On a well-formed context an id names a socket of a type unless it stands for one of another. -/
theorem Wf.names_iff {ctx : IfaceCtx S} (h : ctx.Wf) {id : UInt32} :
    ctx.Names k id ↔ ∀ k', ctx.kindAt id = some k' → k' = k := by
  obtain hl | ⟨sh, x, he⟩ := h.lookup_cases id
  · simp [names_of_lookup_none hl, kindAt, entryAt_of_lookup_none hl]
  · obtain ⟨hl, hs⟩ := entryAt_eq_some.mp he
    obtain ⟨k', hk⟩ := Option.isSome_iff_exists.mp (h.kind_isSome he)
    rw [names_iff_of_lookup hl, kindAt, he, Option.bind_some, hs]
    simp [hk]

/-- A call on an id of this type: it opens and closes nothing, and does not panic if the id names such a
socket. -/
structure CallOn (k : SockKind) (id : UInt32) (g : IfaceCtx S → α × IfaceCtx S) : Prop where
  calm : ∀ ctx, ctx.Wf → Calm ctx (g ctx).2
  panicked : ∀ ctx, ctx.Names k id → (g ctx).2.panicked = ctx.panicked

theorem callOn_withTcp (id : UInt32) (err : α) (f : S.tcp.Socket → α × S.tcp.Socket) :
    CallOn .tcp id fun ctx => ctx.withTcp id err f where
  calm _ h := h.calm_withTcp id err f
  panicked ctx h := by simpa [h] using ctx.panicked_withTcp id err f

theorem callOn_queryTcp (id : UInt32) (err : α) (f : S.tcp.Socket → α) :
    CallOn .tcp id fun ctx => ctx.queryTcp id err f where
  calm _ h := h.calm_queryTcp id err f
  panicked ctx h := by simpa [h] using ctx.panicked_queryTcp id err f

theorem callOn_withUdp (id : UInt32) (err : α) (f : S.udp.Socket → α × S.udp.Socket) :
    CallOn .udp id fun ctx => ctx.withUdp id err f where
  calm _ h := h.calm_withUdp id err f
  panicked ctx h := by simpa [h] using ctx.panicked_withUdp id err f

end IfaceCtx

/-! ## Panics of a world -/

namespace World

variable {w : World S} {i : IfaceId} {ctx ctx' : IfaceCtx S}

/-- The core of an interface has panicked. -/
def panicked (w : World S) (i : IfaceId) : Bool := ((w.ctx i).map (·.panicked)).getD false

theorem panicked_of_ctx (h : w.ctx i = some ctx) : w.panicked i = ctx.panicked := by
  rw [panicked, h]
  rfl

theorem panicked_of_ifaces {w' : World S} (h : w'.ifaces = w.ifaces) : w'.panicked = w.panicked := by
  funext i
  rw [panicked, panicked, World.ctx, World.ctx, h]

theorem panicked_setCtx (hctx : w.ctx i = some ctx) (h : ctx'.panicked = ctx.panicked) :
    (w.setCtx i ctx').panicked = w.panicked := by
  funext j
  by_cases hj : j = i
  · subst hj
    rw [panicked_of_ctx (ctx_setCtx_self w j ctx'), panicked_of_ctx hctx, h]
  · rw [panicked, panicked, ctx_setCtx_ne w hj]

theorem panicked_ffi {err : α} {g : IfaceCtx S → α × IfaceCtx S}
    (h : ∀ ctx, w.ctx i = some ctx → (g ctx).2.panicked = ctx.panicked) :
    (w.ffi i err g).2.panicked = w.panicked := by
  rcases hctx : w.ctx i with _ | ctx
  · rw [ffi, hctx]
  · rw [ffi_of_ctx hctx]
    exact panicked_setCtx hctx (h ctx hctx)

end World

/-- A calm change during which nothing panics. -/
structure Serene (w w' : World S) : Prop extends Calm w w' where
  panicked : w'.panicked = w.panicked

theorem World.Wf.serene_refl {w : World S} (h : w.Wf) : Serene w w := ⟨h.calm_refl, rfl⟩

/-! ## What a holder of a handle may assume -/

/-- No id issued before stands for a socket it did not stand for then. -/
structure Extends (w w' : World S) : Prop where
  counter : ∀ i, w.counter i ≤ w'.counter i
  kindOf : ∀ i s k, s.iface = i.code → s.localId.toNat < w.counter i → w'.kindOf s = some k →
    w.kindOf s = some k

theorem Calm.toExtends {w w' : World S} (h : Calm w w') : Extends w w' where
  counter i := by rw [h.counter]
  kindOf _ _ _ _ _ hk := h.kinds ▸ hk

theorem CloseSpec.toExtends {w w' : World S} {s : NetSock} (h : CloseSpec k s w w') :
    Extends w w' where
  counter i := by rw [h.counter]
  kindOf _ t _ _ _ hk := by
    rw [h.kindOf_eq] at hk
    split_ifs at hk
    · by_cases ht : t = s
      · subst ht
        rw [Function.update_self] at hk
        cases hk
      · rwa [Function.update_of_ne ht] at hk
    · exact hk

/-- The id of the handle was issued, or is 0, and stands for no socket of another type. -/
structure OfKind (k : SockKind) (s : NetSock) (w : World S) : Prop where
  issued : s.localId = 0 ∨ ∃ i, s.iface = i.code ∧ s.localId.toNat < w.counter i
  kind : ∀ k', w.kindOf s = some k' → k' = k

namespace World.Wf

variable {w : World S} {s : NetSock} {i : IfaceId} {ctx : IfaceCtx S}

/-- Id 0 is never issued. -/
theorem entryOf_of_localId_zero (h : w.Wf) (hs : s.localId = 0) : w.entryOf s = none := by
  by_contra hne
  obtain ⟨r, hr⟩ := Option.ne_none_iff_exists'.mp hne
  obtain ⟨i, ctx, -, hctx, he⟩ := entryOf_eq_some.mp hr
  rw [hs, (h.ctx i ctx hctx).entryAt_zero] at he
  cases he

/-- A handle that stands for a socket is not `NET_SOCK_INVALID`. -/
theorem valid_of_entryOf (h : w.Wf) {r : SocketHandle × Socket S} (hs : w.entryOf s = some r) :
    s.valid = true := by
  by_contra hv
  obtain rfl := NetSock.eq_invalid hv
  rw [h.entryOf_of_localId_zero rfl] at hs
  cases hs

theorem kindOf_of_localId_zero (h : w.Wf) (hs : s.localId = 0) : w.kindOf s = none :=
  kindOf_of_none (h.entryOf_of_localId_zero hs)

theorem ofKind_invalid (h : w.Wf) (k : SockKind) : OfKind k .invalid w where
  issued := .inl rfl
  kind k' hk := by
    rw [h.kindOf_of_localId_zero rfl] at hk
    cases hk

end World.Wf

namespace OfKind

variable {w w' : World S} {s : NetSock} {i : IfaceId} {ctx : IfaceCtx S}

/-- **What a handle stands for is nobody else's to change.** -/
theorem mono (h : OfKind k s w) (he : Extends w w') (hw' : w'.Wf) : OfKind k s w' := by
  obtain h0 | ⟨i, hi, hlt⟩ := h.issued
  · refine ⟨.inl h0, fun k' hk => ?_⟩
    rw [hw'.kindOf_of_localId_zero h0] at hk
    cases hk
  · exact ⟨.inr ⟨i, hi, lt_of_lt_of_le hlt (he.counter i)⟩,
      fun k' hk => h.kind k' (he.kindOf i s k' hi hlt hk)⟩

/-- So on its own interface it names such a socket, or none. -/
theorem names (h : OfKind k s w) (hw : w.Wf) (hi : s.iface = i.code) (hctx : w.ctx i = some ctx) :
    ctx.Names k s.localId := by
  refine (hw.ctx i ctx hctx).names_iff.mpr fun k' hk => h.kind k' ?_
  rwa [World.kindOf, World.entryOf_of_ctx hi hctx]

end OfKind

/-! ## Opens and closes -/

section

variable {w : World S} {s : NetSock} {P : Socket S → Prop} {i : IfaceId} {r : NetSock × World S}

/-- An open never panics. -/
theorem OpenSpec.panicked (h : OpenSpec P i w r) : r.2.panicked = w.panicked := by
  obtain _ | ⟨hctx, -⟩ := h
  · rfl
  · exact World.panicked_setCtx hctx rfl

/-- The handle of an open carries the id the counter stood at. -/
theorem Opened.localId (h : Opened P i w r.1 r.2) (hr : OpenSpec P i w r) (hw : w.Wf) :
    r.1.localId.toNat = w.counter i := by
  obtain ⟨sh, x, -, -, hent⟩ := h.entry
  have hiface := h.iface
  have hfresh := h.fresh
  have hnow : r.2.entryOf r.1 = some (sh, x) := by rw [hent, Function.update_self]
  obtain _ | ⟨hctx, -⟩ := hr
  · cases h.valid
  · rename_i ctx y
    have hc := hw.ctx i ctx hctx
    rw [World.entryOf_of_ctx hiface hctx, hc.entryAt_eq_none] at hfresh
    rw [World.entryOf_of_ctx hiface (World.ctx_setCtx_self ..)] at hnow
    have hl := (IfaceCtx.entryAt_eq_some.mp hnow).1
    rw [World.counter_of_ctx hctx]
    by_contra hne
    have hid : (handleOf i ctx.nextId).localId ≠ ctx.nextId := fun he => hne (congrArg UInt32.toNat he)
    rw [IfaceCtx.lookup_openSocket, Function.update_of_ne hid, hfresh] at hl
    cases hl

/-- So it takes nothing from a handle of an earlier id… -/
theorem Opened.toExtends (h : Opened P i w r.1 r.2) (hr : OpenSpec P i w r) (hw : w.Wf) :
    Extends w r.2 where
  counter j := by
    rw [h.counter]
    by_cases hj : j = i
    · subst hj
      rw [Function.update_self]
      exact Nat.le_succ _
    · rw [Function.update_of_ne hj]
  kindOf j t k hj hlt hk := by
    obtain ⟨sh, x, -, -, hent⟩ := h.entry
    have hne : t ≠ r.1 := by
      rintro rfl
      obtain rfl := IfaceId.code_inj (hj.symm.trans h.iface)
      rw [h.localId hr hw] at hlt
      exact lt_irrefl _ hlt
    rwa [World.kindOf, hent, Function.update_of_ne hne] at hk

/-- …and its own stands for a socket of the type opened. -/
theorem Opened.ofKind (h : Opened P i w r.1 r.2) (hr : OpenSpec P i w r) (hw : w.Wf)
    (hP : ∀ x, P x → x.kind? = some k) : OfKind k r.1 r.2 := by
  obtain ⟨sh, x, hx, -, hent⟩ := h.entry
  refine ⟨.inr ⟨i, h.iface, ?_⟩, fun k' hk => ?_⟩
  · rw [h.localId hr hw, h.counter, Function.update_self]
    exact Nat.lt_succ_self _
  · rw [World.kindOf, hent, Function.update_self] at hk
    exact Option.some.inj (hk.symm.trans (hP x hx))

theorem OfKind.panicked_netTcpClose (h : OfKind .tcp s w) (hw : w.Wf) :
    (netTcpClose s w).2.panicked = w.panicked := by
  rw [netTcpClose]
  rcases hf : handleFor w s.iface with _ | i
  · rfl
  · refine World.panicked_ffi fun ctx hctx => ?_
    have hn := h.names hw (of_handleFor_eq_some hf).1 hctx
    exact IfaceCtx.panicked_smoltcpTcpClose hn

theorem OfKind.panicked_netUdpClose (h : OfKind .udp s w) (hw : w.Wf) :
    (netUdpClose s w).2.panicked = w.panicked := by
  rw [netUdpClose]
  rcases hf : handleFor w s.iface with _ | i
  · rfl
  · refine World.panicked_ffi fun ctx hctx => ?_
    have hn := h.names hw (of_handleFor_eq_some hf).1 hctx
    exact IfaceCtx.panicked_smoltcpUdpClose hn

/-- A call on such a handle changes no type and does not panic. -/
theorem OfKind.serene_ffi (h : OfKind k s w) (hw : w.Wf) (hi : s.iface = i.code) (err : α)
    {g : IfaceCtx S → α × IfaceCtx S} (hg : IfaceCtx.CallOn k s.localId g) :
    Serene w (w.ffi i err g).2 :=
  ⟨hw.calm_ffi i err hg.calm, World.panicked_ffi fun ctx hctx => hg.panicked ctx (h.names hw hi hctx)⟩

end

/-! ## Calls on a handle -/

/-- The others keep `J`, and so does every call of this type on this handle. -/
structure Kept (rely : (World S → World S) → Prop) (J : World S → Prop) (k : SockKind) (s : NetSock) :
    Prop where
  stable : Stable rely J
  call : ∀ {α : Type} (i : IfaceId) (err : α) (g : IfaceCtx S → α × IfaceCtx S), s.iface = i.code →
    IfaceCtx.CallOn k s.localId g → ∀ w, J w → J (w.ffi i err g).2

namespace Kept

variable {rely : (World S → World S) → Prop} {J : World S → Prop} {s : NetSock} {w : World S}
  {E : Sys (World S) (Event S) → Prop}

theorem netTcpListen (h : Kept rely J .tcp s) (port : UInt16) (hw : J w) :
    J (netTcpListen s port w).2 := by
  rw [EspSmoltcp.netTcpListen]
  rcases hf : handleFor w s.iface with _ | i
  · exact hw
  · exact h.call i (-1) _ (of_handleFor_eq_some hf).1 (IfaceCtx.callOn_withTcp ..) w hw

theorem netTcpIsConnected (h : Kept rely J .tcp s) (hw : J w) : J (netTcpIsConnected s w).2 := by
  rw [EspSmoltcp.netTcpIsConnected]
  rcases hf : handleFor w s.iface with _ | i
  · exact hw
  · exact h.call i false _ (of_handleFor_eq_some hf).1 (IfaceCtx.callOn_queryTcp ..) w hw

theorem netTcpRecvQueue (h : Kept rely J .tcp s) (hw : J w) : J (netTcpRecvQueue s w).2 := by
  rw [EspSmoltcp.netTcpRecvQueue]
  rcases hf : handleFor w s.iface with _ | i
  · exact hw
  · exact h.call i 0 _ (of_handleFor_eq_some hf).1 (IfaceCtx.callOn_queryTcp ..) w hw

theorem netTcpSendCapacity (h : Kept rely J .tcp s) (hw : J w) : J (netTcpSendCapacity s w).2 := by
  rw [EspSmoltcp.netTcpSendCapacity]
  rcases hf : handleFor w s.iface with _ | i
  · exact hw
  · exact h.call i 0 _ (of_handleFor_eq_some hf).1 (IfaceCtx.callOn_queryTcp ..) w hw

theorem netUdpSendto (h : Kept rely J .udp s) (data : Bytes) (dstBe : UInt32) (dstPort : UInt16)
    (hw : J w) : J (netUdpSendto s data dstBe dstPort w).2 := by
  rw [EspSmoltcp.netUdpSendto]
  rcases hf : handleFor w s.iface with _ | i
  · exact hw
  · exact h.call i (-1) _ (of_handleFor_eq_some hf).1 (IfaceCtx.callOn_withUdp ..) w hw

theorem netTcpConnect (h : Kept rely J .tcp s) (hE : ∀ s, Along rely J s → E s) (cfg : Config)
    (ipv4Be : UInt32) (port : UInt16) (timeoutMs rand : UInt32) :
    Triple (Along rely J) (netTcpConnect cfg s ipv4Be port timeoutMs rand) (fun _ => Along rely J) E := by
  refine Triple.bind (Q := fun _ => Along rely J) (Triple.world fun _ hs => hs) fun w₀ => ?_
  rcases hf : handleFor w₀ s.iface with _ | i
  · exact Triple.pure _ fun _ hs => hs
  have hi := (of_handleFor_eq_some hf).1
  refine Triple.bind (Q := fun _ => Along rely J) (along_atomically fun w hw => ?_) fun rc => ?_
  · exact h.call i (-1) _ hi (IfaceCtx.callOn_withTcp ..) w hw
  split_ifs
  · exact Triple.pure _ fun _ hs => hs
  refine Triple.bind (along_xTaskGetTickCount h.stable hE) fun start => ?_
  refine Triple.loop (I := fun _ => Along rely J) (fun _ => hE) (fun _ => ?_) ()
  refine Triple.bind (along_xTaskGetTickCount h.stable hE) fun now => ?_
  split_ifs
  · refine Triple.bind (Q := fun _ => Along rely J) (along_atomically fun w hw => ?_) fun active => ?_
    · exact h.call i false _ hi (IfaceCtx.callOn_queryTcp ..) w hw
    split_ifs
    · exact Triple.pure _ fun _ hs => hs
    · exact Triple.bind (along_blockingWait h.stable hE) fun _ => Triple.pure _ fun _ hs => hs
  · exact Triple.pure _ fun _ hs => hs

theorem netTcpSend (h : Kept rely J .tcp s) (hE : ∀ s, Along rely J s → E s) (cfg : Config) (buf : Bytes)
    (timeoutMs : UInt32) :
    Triple (Along rely J) (netTcpSend cfg s buf timeoutMs) (fun _ => Along rely J) E := by
  refine Triple.bind (Q := fun _ => Along rely J) (Triple.world fun _ hs => hs) fun w₀ => ?_
  rcases hf : handleFor w₀ s.iface with _ | i
  · exact Triple.pure _ fun _ hs => hs
  have hi := (of_handleFor_eq_some hf).1
  refine Triple.bind (along_xTaskGetTickCount h.stable hE) fun start => ?_
  refine Triple.bind (Q := fun _ => Along rely J) ?_ fun _ => Triple.pure _ fun _ hs => hs
  refine Triple.loop (I := fun _ => Along rely J) (fun _ => hE) (fun total => ?_) 0
  split_ifs
  · refine Triple.bind (Q := fun _ => Along rely J) (along_atomically fun w hw => ?_) fun n => ?_
    · exact h.call i (-1) _ hi (IfaceCtx.callOn_withTcp ..) w hw
    split_ifs
    · exact Triple.pure _ fun _ hs => hs
    · refine Triple.bind (along_xTaskGetTickCount h.stable hE) fun now => ?_
      split_ifs
      · exact Triple.pure _ fun _ hs => hs
      · exact Triple.bind (along_blockingWait h.stable hE) fun _ => Triple.pure _ fun _ hs => hs
  · exact Triple.pure _ fun _ hs => hs

/-- The receive loop keeps what its probe keeps. -/
theorem recvLoop {β : Type} {probe : World S → (Int × β) × World S} (hst : Stable rely J)
    (hE : ∀ s, Along rely J s → E s) (hprobe : ∀ w, J w → J (probe w).2) (call : Call)
    (deadline : UInt32) (nothing : β) :
    Triple (Along rely J) (recvLoop call deadline probe nothing) (fun _ => Along rely J) E := by
  refine Triple.loop (I := fun _ => Along rely J) (fun _ => hE) (fun _ => ?_) ()
  refine Triple.bind (along_xTaskGetTickCount hst hE) fun now => ?_
  split_ifs
  · refine Triple.bind (Q := fun _ => Along rely J) (along_atomically hprobe) fun r => ?_
    split_ifs
    · exact Triple.pure _ fun _ hs => hs
    · exact Triple.bind (along_blockingWait hst hE) fun _ => Triple.pure _ fun _ hs => hs
  · exact Triple.pure _ fun _ hs => hs

theorem netTcpRecv (h : Kept rely J .tcp s) (hE : ∀ s, Along rely J s → E s) (cfg : Config) (cap : ℕ)
    (timeoutMs : UInt32) :
    Triple (Along rely J) (netTcpRecv cfg s cap timeoutMs) (fun _ => Along rely J) E := by
  refine Triple.bind (Q := fun _ => Along rely J) (Triple.world fun _ hs => hs) fun w₀ => ?_
  rcases hf : handleFor w₀ s.iface with _ | i
  · exact Triple.pure _ fun _ hs => hs
  have hi := (of_handleFor_eq_some hf).1
  refine Triple.bind (along_xTaskGetTickCount h.stable hE) fun start => ?_
  exact recvLoop h.stable hE (fun w hw => h.call i _ _ hi (IfaceCtx.callOn_withTcp ..) w hw) _ _ _

theorem netUdpRecvfrom (h : Kept rely J .udp s) (hE : ∀ s, Along rely J s → E s) (cfg : Config) (cap : ℕ)
    (timeoutMs : UInt32) :
    Triple (Along rely J) (netUdpRecvfrom cfg s cap timeoutMs) (fun _ => Along rely J) E := by
  refine Triple.bind (Q := fun _ => Along rely J) (Triple.world fun _ hs => hs) fun w₀ => ?_
  rcases hf : handleFor w₀ s.iface with _ | i
  · exact Triple.pure _ fun _ hs => hs
  have hi := (of_handleFor_eq_some hf).1
  refine Triple.bind (along_xTaskGetTickCount h.stable hE) fun start => ?_
  exact recvLoop h.stable hE (fun w hw => h.call i _ _ hi (IfaceCtx.callOn_withUdp ..) w hw) _ _ _

end Kept

end EspSmoltcp
