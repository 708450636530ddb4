import EspSmoltcp.Smoltcp.Reference
import EspSmoltcp.Glue.Registry
import EspSmoltcp.Stack.Sock

/-!
# Stack/Handles — `net_sock_t` handles, read as a map to sockets

A `net_sock_t` packs an interface number and the low 24 bits of a core id.  `World.entryOf` is what a
handle stands for, across both interfaces; while the counters stay below `2^24` packing loses nothing,
and each call of `esp_smoltcp_sock.c` is an update of that map at one handle:

* an open adds an entry at a handle that stood for nothing (`OpenSpec.cases`);
* a close drops the entry, if it is of the right type (`CloseSpec`);
* any other call keeps the types of all entries (`Calm`).
-/

namespace EspSmoltcp

variable {S : Smoltcp} {α : Type}

/-! ## Packing -/

@[simp] theorem IfaceId.ofCode_eq_some {n : UInt32} {i : IfaceId} :
    ofCode n = some i ↔ n = i.code := by
  constructor
  · intro h
    unfold ofCode at h
    split_ifs at h with h0 h1
    · obtain rfl := Option.some.inj h
      exact h0
    · obtain rfl := Option.some.inj h
      exact h1
  · rintro rfl
    exact ofCode_code i

theorem IfaceId.code_inj {i j : IfaceId} (h : i.code = j.code) : i = j :=
  Option.some.inj ((ofCode_code i).symm.trans (h ▸ ofCode_code j))

theorem IfaceId.toNat_code_lt (i : IfaceId) : i.code.toNat < 2 ^ 8 := by cases i <;> decide

namespace NetSock

theorem toNat_iface (s : NetSock) : s.iface.toNat = s.id.toNat / 2 ^ 24 := by
  have hlt := s.id.toNat_lt
  rw [iface, UInt32.toNat_and, UInt32.toNat_shiftRight, Nat.shiftRight_eq_div_pow,
    show (0xFF : UInt32).toNat = 2 ^ 8 - 1 from rfl, Nat.and_two_pow_sub_one_eq_mod,
    show (24 : UInt32).toNat % 32 = 24 from rfl]
  omega

theorem toNat_localId (s : NetSock) : s.localId.toNat = s.id.toNat % 2 ^ 24 := by
  rw [localId, UInt32.toNat_and, show (0x00FFFFFF : UInt32).toNat = 2 ^ 24 - 1 from rfl,
    Nat.and_two_pow_sub_one_eq_mod]

/-- `IFACE` and `LOCAL` together are the whole handle. -/
theorem ext_parts {s s' : NetSock} (hi : s.iface = s'.iface) (hl : s.localId = s'.localId) :
    s = s' := by
  have h₁ := toNat_iface s ▸ toNat_iface s' ▸ congrArg UInt32.toNat hi
  have h₂ := toNat_localId s ▸ toNat_localId s' ▸ congrArg UInt32.toNat hl
  obtain ⟨n⟩ := s
  obtain ⟨n'⟩ := s'
  congr 1
  rw [← UInt32.toNat_inj]
  simp only at h₁ h₂
  omega

theorem toNat_id_encode (i : IfaceId) (id : UInt32) :
    (encode i id).id.toNat = i.code.toNat * 2 ^ 24 + id.toNat % 2 ^ 24 := by
  have hc := i.toNat_code_lt
  have hmod : (id &&& 0x00FFFFFF).toNat = id.toNat % 2 ^ 24 := by
    rw [UInt32.toNat_and, show (0x00FFFFFF : UInt32).toNat = 2 ^ 24 - 1 from rfl,
      Nat.and_two_pow_sub_one_eq_mod]
  rw [encode, UInt32.toNat_or, UInt32.toNat_shiftLeft, hmod,
    show (24 : UInt32).toNat % 32 = 24 from rfl, Nat.mod_eq_of_lt, Nat.shiftLeft_eq,
    ← Nat.shiftLeft_eq, ← Nat.shiftLeft_add_eq_or_of_lt (Nat.mod_lt _ (by decide)),
    Nat.shiftLeft_eq]
  rw [Nat.shiftLeft_eq]
  omega

@[simp] theorem iface_encode (i : IfaceId) (id : UInt32) : (encode i id).iface = i.code := by
  rw [← UInt32.toNat_inj, toNat_iface, toNat_id_encode]
  omega

theorem localId_encode {i : IfaceId} {id : UInt32} (h : id.toNat < 2 ^ 24) :
    (encode i id).localId = id := by
  rw [← UInt32.toNat_inj, toNat_localId, toNat_id_encode]
  omega

theorem valid_iff {s : NetSock} : s.valid = true ↔ 0 < s.id.toNat := by
  rw [valid, bne_iff_ne, ne_eq, ← UInt32.toNat_inj]
  exact Nat.pos_iff_ne_zero.symm

theorem valid_encode {i : IfaceId} {id : UInt32} (h0 : 0 < id.toNat) (h : id.toNat < 2 ^ 24) :
    (encode i id).valid = true := by
  rw [valid_iff, toNat_id_encode, Nat.mod_eq_of_lt h]
  omega

@[simp] theorem not_valid_invalid : invalid.valid = false := rfl

theorem eq_invalid {s : NetSock} (h : ¬ s.valid = true) : s = .invalid := by
  obtain ⟨n⟩ := s
  simpa [valid, invalid] using h

end NetSock

/-! ## What a handle stands for -/

/-- The TCP socket in an entry of a `SocketSet`. -/
def Socket.tcp? : Socket S → Option S.tcp.Socket
  | .tcp x => some x
  | _ => none

/-- The UDP socket in an entry of a `SocketSet`. -/
def Socket.udp? : Socket S → Option S.udp.Socket
  | .udp x => some x
  | _ => none

namespace World

/-- What a handle stands for. -/
def entryOf (w : World S) (s : NetSock) : Option (SocketHandle × Socket S) :=
  (IfaceId.ofCode s.iface).bind fun i => (w.ctx i).bind fun ctx => ctx.entryAt s.localId

/-- The type of the socket a handle stands for. -/
def kindOf (w : World S) (s : NetSock) : Option SockKind := (w.entryOf s).bind (·.2.kind?)

/-- The TCP socket a handle stands for. -/
def tcpOf (w : World S) (s : NetSock) : Option S.tcp.Socket := (w.entryOf s).bind (·.2.tcp?)

/-- The UDP socket a handle stands for. -/
def udpOf (w : World S) (s : NetSock) : Option S.udp.Socket := (w.entryOf s).bind (·.2.udp?)

/-- The counter of an interface; an interface without a context has never counted. -/
def counter (w : World S) (i : IfaceId) : ℕ := ((w.ctx i).map (·.nextId.toNat)).getD 0

/-- Every published context is in order, and only enabled interfaces have one. -/
structure Wf (w : World S) : Prop where
  ctx : ∀ i ctx, w.ctx i = some ctx → ctx.Wf
  enabled : ∀ i ctx, w.ctx i = some ctx → (w.ifaces i).enabled = true

theorem entryOf_eq_some {w : World S} {s : NetSock} {r : SocketHandle × Socket S} :
    w.entryOf s = some r ↔
      ∃ i ctx, s.iface = i.code ∧ w.ctx i = some ctx ∧ ctx.entryAt s.localId = some r := by
  rw [entryOf, Option.bind_eq_some_iff]
  constructor
  · rintro ⟨i, hi, h⟩
    obtain ⟨ctx, hctx, he⟩ := Option.bind_eq_some_iff.mp h
    exact ⟨i, ctx, IfaceId.ofCode_eq_some.mp hi, hctx, he⟩
  · rintro ⟨i, ctx, hi, hctx, he⟩
    exact ⟨i, IfaceId.ofCode_eq_some.mpr hi, by rw [hctx]; exact he⟩

theorem entryOf_of_ctx {w : World S} {s : NetSock} {i : IfaceId} {ctx : IfaceCtx S}
    (hi : s.iface = i.code) (hctx : w.ctx i = some ctx) : w.entryOf s = ctx.entryAt s.localId := by
  rw [entryOf, hi, IfaceId.ofCode_code, Option.bind_some, hctx, Option.bind_some]

theorem tcpOf_eq_some {w : World S} {s : NetSock} {x : S.tcp.Socket} :
    w.tcpOf s = some x ↔ ∃ i ctx sh, s.iface = i.code ∧ w.ctx i = some ctx ∧
      ctx.entryAt s.localId = some (sh, .tcp x) := by
  rw [tcpOf, Option.bind_eq_some_iff]
  constructor
  · rintro ⟨⟨sh, y⟩, he, hy⟩
    obtain ⟨i, ctx, hi, hctx, he⟩ := entryOf_eq_some.mp he
    rcases y with y | _ | _
    · obtain rfl := Option.some.inj hy
      exact ⟨i, ctx, sh, hi, hctx, he⟩
    · cases hy
    · cases hy
  · rintro ⟨i, ctx, sh, hi, hctx, he⟩
    exact ⟨(sh, .tcp x), entryOf_eq_some.mpr ⟨i, ctx, hi, hctx, he⟩, rfl⟩

theorem udpOf_eq_some {w : World S} {s : NetSock} {x : S.udp.Socket} :
    w.udpOf s = some x ↔ ∃ i ctx sh, s.iface = i.code ∧ w.ctx i = some ctx ∧
      ctx.entryAt s.localId = some (sh, .udp x) := by
  rw [udpOf, Option.bind_eq_some_iff]
  constructor
  · rintro ⟨⟨sh, y⟩, he, hy⟩
    obtain ⟨i, ctx, hi, hctx, he⟩ := entryOf_eq_some.mp he
    rcases y with _ | y | _
    · cases hy
    · obtain rfl := Option.some.inj hy
      exact ⟨i, ctx, sh, hi, hctx, he⟩
    · cases hy
  · rintro ⟨i, ctx, sh, hi, hctx, he⟩
    exact ⟨(sh, .udp x), entryOf_eq_some.mpr ⟨i, ctx, hi, hctx, he⟩, rfl⟩

theorem kindOf_of_none {w : World S} {s : NetSock} (h : w.entryOf s = none) : w.kindOf s = none := by
  rw [kindOf, h]
  rfl

theorem counter_of_ctx {w : World S} {i : IfaceId} {ctx : IfaceCtx S} (h : w.ctx i = some ctx) :
    w.counter i = ctx.nextId.toNat := by rw [counter, h]; rfl

theorem counter_setCtx {w : World S} {i : IfaceId} {ctx ctx' : IfaceCtx S} (hctx : w.ctx i = some ctx)
    (h : ctx'.nextId = ctx.nextId) : (w.setCtx i ctx').counter = w.counter := by
  funext j
  by_cases hj : j = i
  · subst hj
    rw [counter_of_ctx (ctx_setCtx_self w j ctx'), counter_of_ctx hctx, h]
  · rw [counter, counter, ctx_setCtx_ne w hj]

theorem setCtx_self {w : World S} {i : IfaceId} {ctx : IfaceCtx S} (h : w.ctx i = some ctx) :
    w.setCtx i ctx = w := by
  have : { w.ifaces i with smoltcpHandle := some ctx } = w.ifaces i := by rw [← h]; rfl
  rw [setCtx, this, Function.update_eq_self]

theorem Wf.setCtx {w : World S} (h : w.Wf) {i : IfaceId} {ctx ctx' : IfaceCtx S}
    (hctx : w.ctx i = some ctx) (h' : ctx'.Wf) : (w.setCtx i ctx').Wf := by
  refine ⟨fun j c hc => ?_, fun j c hc => ?_⟩
  · by_cases hj : j = i
    · subst hj
      rw [ctx_setCtx_self] at hc
      exact Option.some.inj hc ▸ h'
    · exact h.ctx j c (ctx_setCtx_ne w hj ctx' ▸ hc)
  · rw [enabled_setCtx]
    by_cases hj : j = i
    · subst hj
      exact h.enabled _ ctx hctx
    · exact h.enabled j c (ctx_setCtx_ne w hj ctx' ▸ hc)

/-- **An update of an interface's ids is an update of the handles.** -/
theorem entryOf_setCtx {w : World S} {i : IfaceId} {ctx ctx' : IfaceCtx S} {s : NetSock}
    {v : Option (SocketHandle × Socket S)} (hctx : w.ctx i = some ctx) (hi : s.iface = i.code)
    (he : ctx'.entryAt = Function.update ctx.entryAt s.localId v) :
    (w.setCtx i ctx').entryOf = Function.update w.entryOf s v := by
  funext t
  by_cases ht : t = s
  · subst ht
    rw [entryOf_of_ctx hi (ctx_setCtx_self w i ctx'), he, Function.update_self,
      Function.update_self]
  · rw [Function.update_of_ne ht]
    by_cases hti : t.iface = i.code
    · have hne : t.localId ≠ s.localId := fun hl => ht (NetSock.ext_parts (hti.trans hi.symm) hl)
      rw [entryOf_of_ctx hti (ctx_setCtx_self w i ctx'), he, Function.update_of_ne hne,
        entryOf_of_ctx hti hctx]
    · refine Option.bind_congr fun j hj => ?_
      have hji : j ≠ i := fun h => hti (h ▸ IfaceId.ofCode_eq_some.mp hj)
      rw [ctx_setCtx_ne w hji]

theorem entryOf_congr {w w' : World S} (h : ∀ i, (w'.ctx i).map IfaceCtx.entryAt
    = (w.ctx i).map IfaceCtx.entryAt) : w'.entryOf = w.entryOf := by
  funext s
  refine Option.bind_congr fun i _ => ?_
  have hi := h i
  cases hw : w.ctx i with
  | none =>
    rw [hw] at hi
    rw [Option.map_eq_none_iff.mp hi]
  | some ctx =>
    rw [hw, Option.map_some, Option.map_eq_some_iff] at hi
    obtain ⟨ctx', hw', he⟩ := hi
    rw [hw', Option.bind_some, Option.bind_some, he]

end World

/-! ## Reaching the core -/

namespace IfaceCtx

variable (ctx : IfaceCtx S) (id : UInt32) (err : α)

theorem fst_queryTcp (f : S.tcp.Socket → α) : (ctx.queryTcp id err f).1
    = ((ctx.entryAt id).bind (·.2.tcp?)).elim err f := by
  rw [queryTcp, entryAt]
  rcases ctx.lookup id with _ | sh
  · rfl
  · rcases hs : ctx.sockets.lookup sh with _ | x | x | _ <;> simp [hs, Socket.tcp?]

end IfaceCtx

theorem handleFor_of_ctx {w : World S} (h : w.Wf) {i : IfaceId} {ctx : IfaceCtx S} {n : UInt32}
    (hn : n = i.code) (hctx : w.ctx i = some ctx) : handleFor w n = some i := by
  rw [handleFor, hn, IfaceId.ofCode_code]
  exact if_pos ⟨h.enabled i ctx hctx, by rw [hctx]; rfl⟩

theorem of_handleFor_eq_some {w : World S} {n : UInt32} {i : IfaceId} (h : handleFor w n = some i) :
    n = i.code ∧ ∃ ctx, w.ctx i = some ctx := by
  unfold handleFor at h
  split at h
  · rename_i j hj
    split_ifs at h with hc
    obtain rfl := Option.some.inj h
    exact ⟨IfaceId.ofCode_eq_some.mp hj, Option.isSome_iff_exists.mp hc.2⟩
  · cases h

theorem World.ffi_of_ctx {w : World S} {i : IfaceId} {ctx : IfaceCtx S} (h : w.ctx i = some ctx)
    (err : α) (f : IfaceCtx S → α × IfaceCtx S) :
    w.ffi i err f = ((f ctx).1, w.setCtx i (f ctx).2) := by
  rw [ffi, h]

namespace World

variable {w : World S} {s : NetSock} {h : IfaceId}

/-- What a call on a handle returns depends on the socket alone, also where the call panics. -/
theorem fst_ffi (hs : s.iface = h.code) {err : α} {g : IfaceCtx S → α × IfaceCtx S}
    {v : Option (SocketHandle × Socket S) → α} (hnone : v none = err)
    (hg : ∀ ctx, (g ctx).1 = v (ctx.entryAt s.localId)) : (w.ffi h err g).1 = v (w.entryOf s) := by
  rcases hctx : w.ctx h with _ | ctx
  · rw [ffi, hctx, entryOf, hs, IfaceId.ofCode_code, Option.bind_some, hctx]
    exact hnone.symm
  · rw [ffi_of_ctx hctx, entryOf_of_ctx hs hctx]
    exact hg ctx

theorem fst_ffi_queryTcp (hs : s.iface = h.code) (err : α) (f : S.tcp.Socket → α) :
    (w.ffi h err (·.queryTcp s.localId err f)).1 = (w.tcpOf s).elim err f :=
  fst_ffi hs (v := fun r => (r.bind (·.2.tcp?)).elim err f) rfl
    fun ctx => ctx.fst_queryTcp s.localId err f

end World

/-- A handle that stands for nothing is on no interface, or its id is not registered. -/
theorem World.Wf.handle_cases {w : World S} (h : w.Wf) (s : NetSock) :
    (handleFor w s.iface = none ∧ w.entryOf s = none) ∨
      ∃ i ctx, s.iface = i.code ∧ w.ctx i = some ctx ∧ handleFor w s.iface = some i ∧
        w.entryOf s = ctx.entryAt s.localId := by
  cases hf : handleFor w s.iface with
  | some i =>
    obtain ⟨hi, ctx, hctx⟩ := of_handleFor_eq_some hf
    exact .inr ⟨i, ctx, hi, hctx, rfl, entryOf_of_ctx hi hctx⟩
  | none =>
    refine .inl ⟨rfl, ?_⟩
    by_contra hne
    obtain ⟨r, hr⟩ := Option.ne_none_iff_exists'.mp hne
    obtain ⟨i, ctx, hi, hctx, -⟩ := entryOf_eq_some.mp hr
    rw [handleFor_of_ctx h hi hctx] at hf
    cases hf

/-! ## What a call into the core leaves alone -/

/-- The statics of the shim are not touched. -/
structure SameShim (w w' : World S) : Prop where
  fds : w'.fds = w.fds
  loSlots : w'.loSlots = w.loSlots

namespace SameShim

theorem refl (w : World S) : SameShim w w := ⟨rfl, rfl⟩

theorem trans {w w' w'' : World S} (h : SameShim w w') (h' : SameShim w' w'') : SameShim w w'' :=
  ⟨h'.fds.trans h.fds, h'.loSlots.trans h.loSlots⟩

theorem ffi (w : World S) (i : IfaceId) (err : α) (f : IfaceCtx S → α × IfaceCtx S) :
    SameShim w (w.ffi i err f).2 := by
  rcases hctx : w.ctx i with _ | ctx
  · rw [World.ffi, hctx]
    exact refl w
  · rw [World.ffi_of_ctx hctx]
    exact ⟨rfl, rfl⟩

theorem netTcpOpen (i : IfaceId) (w : World S) : SameShim w (netTcpOpen i w).2 := by
  rw [EspSmoltcp.netTcpOpen]
  rcases handleFor w i.code with _ | j
  · exact refl w
  · exact ffi ..

theorem netUdpOpen (i : IfaceId) (port : UInt16) (w : World S) : SameShim w (netUdpOpen i port w).2 := by
  rw [EspSmoltcp.netUdpOpen]
  rcases handleFor w i.code with _ | j
  · exact refl w
  · exact ffi ..

theorem netTcpClose (s : NetSock) (w : World S) : SameShim w (netTcpClose s w).2 := by
  rw [EspSmoltcp.netTcpClose]
  rcases handleFor w s.iface with _ | i
  · exact refl w
  · exact ffi ..

theorem netUdpClose (s : NetSock) (w : World S) : SameShim w (netUdpClose s w).2 := by
  rw [EspSmoltcp.netUdpClose]
  rcases handleFor w s.iface with _ | i
  · exact refl w
  · exact ffi ..

theorem netTcpListen (s : NetSock) (port : UInt16) (w : World S) :
    SameShim w (netTcpListen s port w).2 := by
  rw [EspSmoltcp.netTcpListen]
  rcases handleFor w s.iface with _ | i
  · exact refl w
  · exact ffi ..

theorem netTcpIsConnected (s : NetSock) (w : World S) : SameShim w (netTcpIsConnected s w).2 := by
  rw [EspSmoltcp.netTcpIsConnected]
  rcases handleFor w s.iface with _ | i
  · exact refl w
  · exact ffi ..

theorem netUdpSendto (s : NetSock) (data : Bytes) (dstBe : UInt32) (dstPort : UInt16) (w : World S) :
    SameShim w (netUdpSendto s data dstBe dstPort w).2 := by
  rw [EspSmoltcp.netUdpSendto]
  rcases handleFor w s.iface with _ | i
  · exact refl w
  · exact ffi ..

end SameShim

/-- A call into the core: the registries stay in order, and the statics of the shim are not touched. -/
structure CoreStep (w w' : World S) : Prop where
  wf : w'.Wf
  fds : w'.fds = w.fds
  loSlots : w'.loSlots = w.loSlots

/-- A call that neither opens nor closes a socket: every handle stands for a socket of the same
type. -/
structure Calm (w w' : World S) : Prop extends CoreStep w w' where
  kinds : w'.kindOf = w.kindOf
  counter : w'.counter = w.counter

namespace World.Wf

variable {w : World S}

theorem coreStep_setCtx (h : w.Wf) {i : IfaceId} {ctx ctx' : IfaceCtx S} (hctx : w.ctx i = some ctx)
    (h' : ctx'.Wf) : CoreStep w (w.setCtx i ctx') := ⟨h.setCtx hctx h', rfl, rfl⟩

theorem calm_refl (h : w.Wf) : Calm w w := ⟨⟨h, rfl, rfl⟩, rfl, rfl⟩

theorem calm_setCtx (h : w.Wf) {i : IfaceId} {ctx ctx' : IfaceCtx S} (hctx : w.ctx i = some ctx)
    (hc : IfaceCtx.Calm ctx ctx') : Calm w (w.setCtx i ctx') := by
  refine ⟨h.coreStep_setCtx hctx hc.wf, funext fun s => ?_, counter_setCtx hctx hc.nextId⟩
  by_cases hi : s.iface = i.code
  · rw [kindOf, kindOf, entryOf_of_ctx hi hctx, entryOf_of_ctx hi (ctx_setCtx_self w i ctx')]
    exact congrFun hc.kinds s.localId
  · refine congrArg (Option.bind · _) (Option.bind_congr fun j hj => ?_)
    have hji : j ≠ i := fun hji => hi (hji ▸ IfaceId.ofCode_eq_some.mp hj)
    rw [ctx_setCtx_ne w hji]

/-- A call that is calm on the context is calm on the world. -/
theorem calm_ffi (h : w.Wf) (i : IfaceId) (err : α) {f : IfaceCtx S → α × IfaceCtx S}
    (hf : ∀ ctx, ctx.Wf → IfaceCtx.Calm ctx (f ctx).2) : Calm w (w.ffi i err f).2 := by
  cases hctx : w.ctx i with
  | none =>
    rw [ffi, hctx]
    exact h.calm_refl
  | some ctx =>
    rw [ffi_of_ctx hctx]
    exact h.calm_setCtx hctx (hf ctx (h.ctx i ctx hctx))

end World.Wf

theorem Calm.trans {w w' w'' : World S} (h : Calm w w') (h' : Calm w' w'') : Calm w w'' :=
  ⟨⟨h'.wf, h'.fds.trans h.fds, h'.loSlots.trans h.loSlots⟩, h'.kinds.trans h.kinds,
    h'.counter.trans h.counter⟩

theorem World.Wf.calm_netTcpListen {w : World S} (h : w.Wf) (s : NetSock) (port : UInt16) :
    Calm w (netTcpListen s port w).2 := by
  rw [netTcpListen]
  rcases handleFor w s.iface with _ | i
  · exact h.calm_refl
  · exact h.calm_ffi i (-1) fun ctx hc => hc.calm_withTcp ..

theorem World.Wf.calm_netTcpIsConnected {w : World S} (h : w.Wf) (s : NetSock) :
    Calm w (netTcpIsConnected s w).2 := by
  rw [netTcpIsConnected]
  rcases handleFor w s.iface with _ | i
  · exact h.calm_refl
  · exact h.calm_ffi i false fun ctx hc => hc.calm_queryTcp ..

/-! ## Opens -/

/-- A socket of an interface that was not there before. -/
def World.newSocket (i : IfaceId) (w w' : World S) : Option (SocketHandle × Socket S) :=
  (w.ctx i).bind fun ctx => (w'.ctx i).bind fun ctx' =>
    (ctx'.sockets.keys.find? (· ∉ ctx.sockets.keys)).bind fun sh =>
      (ctx'.sockets.lookup sh).map (sh, ·)

theorem World.newSocket_self (i : IfaceId) (w : World S) : newSocket i w w = none := by
  rw [newSocket]
  refine Option.bind_eq_none_iff.mpr fun ctx hctx => ?_
  rw [hctx, Option.bind_some, List.find?_eq_none.mpr]
  · rfl
  · intro sh hsh
    simpa using hsh

theorem World.newSocket_openSocket {w : World S} {i : IfaceId} {ctx : IfaceCtx S}
    (hctx : w.ctx i = some ctx) (x : Socket S) :
    newSocket i w (w.setCtx i (ctx.openSocket x).2) = some (S.slot ctx.sockets.keys, x) := by
  have hkeys : (ctx.openSocket x).2.sockets.keys.find? (· ∉ ctx.sockets.keys)
      = some (S.slot ctx.sockets.keys) := by
    have hfresh := S.slot_fresh ctx.sockets.keys
    rw [show (ctx.openSocket x).2.sockets = ctx.sockets.insert (S.slot ctx.sockets.keys) x from rfl,
      AList.keys_insert, List.find?_cons_of_pos (by simpa using hfresh)]
  rw [newSocket, hctx, Option.bind_some, ctx_setCtx_self, Option.bind_some, hkeys,
    Option.bind_some, show (ctx.openSocket x).2.sockets.lookup (S.slot ctx.sockets.keys) = some x from
      AList.lookup_insert _]
  rfl

/-- What an open does: it is refused and changes nothing, or the core opens one such socket. -/
inductive OpenSpec (P : Socket S → Prop) (i : IfaceId) (w : World S) : NetSock × World S → Prop
  | refused : OpenSpec P i w (.invalid, w)
  | opened {ctx : IfaceCtx S} {x : Socket S} (hctx : w.ctx i = some ctx) (hx : P x) :
      OpenSpec P i w (handleOf i ctx.nextId, w.setCtx i (ctx.openSocket x).2)

theorem OpenSpec.fds {P : Socket S → Prop} {i : IfaceId} {w : World S} {r : NetSock × World S}
    (h : OpenSpec P i w r) : r.2.fds = w.fds := by
  obtain _ | _ := h
  · rfl
  · rfl

theorem of_handleFor_code {w : World S} {i j : IfaceId} (h : handleFor w i.code = some j) :
    j = i ∧ ∃ ctx, w.ctx i = some ctx := by
  obtain ⟨hj, ctx, hctx⟩ := of_handleFor_eq_some h
  have hji : j = i := IfaceId.code_inj hj.symm
  exact ⟨hji, ctx, hji ▸ hctx⟩

theorem netTcpOpen_of_ctx {w : World S} (h : w.Wf) {i : IfaceId} {ctx : IfaceCtx S}
    (hctx : w.ctx i = some ctx) : netTcpOpen i w
      = (handleOf i ctx.nextId, w.setCtx i (ctx.openSocket (.tcp S.tcp.new)).2) := by
  rw [netTcpOpen, handleFor_of_ctx h rfl hctx]
  simp only [World.ffi_of_ctx hctx]
  rfl

theorem netTcpOpen_spec (i : IfaceId) (w : World S) :
    OpenSpec (· = .tcp S.tcp.new) i w (netTcpOpen i w) := by
  rw [netTcpOpen]
  cases hf : handleFor w i.code with
  | none => exact .refused
  | some j =>
    obtain ⟨rfl, ctx, hctx⟩ := of_handleFor_code hf
    simp only [World.ffi_of_ctx hctx]
    exact .opened hctx rfl

theorem OpenSpec.mono {P Q : Socket S → Prop} {i : IfaceId} {w : World S} {r : NetSock × World S}
    (h : OpenSpec P i w r) (hPQ : ∀ x, P x → Q x) : OpenSpec Q i w r := by
  obtain _ | ⟨hctx, hx⟩ := h
  · exact .refused
  · exact .opened hctx (hPQ _ hx)

/-- A UDP socket as `smoltcp_udp_open` makes it. -/
def UdpFresh (localPort : UInt16) (u : S.udp.Socket) : Prop :=
  localPort = 0 ∧ u = S.udp.new ∨ localPort ≠ 0 ∧ S.udp.bind S.udp.new localPort = some u

theorem netUdpOpen_fresh (i : IfaceId) (localPort : UInt16) (w : World S) :
    OpenSpec (fun x => ∃ u, x = .udp u ∧ UdpFresh localPort u) i w (netUdpOpen i localPort w) := by
  rw [netUdpOpen]
  cases hf : handleFor w i.code with
  | none => exact .refused
  | some j =>
    obtain ⟨rfl, ctx, hctx⟩ := of_handleFor_code hf
    simp only [World.ffi_of_ctx hctx, smoltcpUdpOpen]
    split_ifs with hport
    · exact .opened hctx ⟨_, rfl, .inl ⟨hport, rfl⟩⟩
    · cases hb : S.udp.bind S.udp.new localPort with
      | none =>
        simp only [World.setCtx_self hctx]
        exact .refused
      | some u => exact .opened hctx ⟨u, rfl, .inr ⟨hport, hb⟩⟩

theorem netUdpOpen_spec (i : IfaceId) (localPort : UInt16) (w : World S) :
    OpenSpec (fun x => ∃ u, x = .udp u) i w (netUdpOpen i localPort w) :=
  (netUdpOpen_fresh i localPort w).mono fun _ ⟨u, hu, _⟩ => ⟨u, hu⟩

/-- What an open that was not refused leaves: a handle that stood for nothing now stands for a new
socket. -/
structure Opened (P : Socket S → Prop) (i : IfaceId) (w : World S) (s : NetSock) (w' : World S) :
    Prop extends CoreStep w w' where
  valid : s.valid = true
  iface : s.iface = i.code
  fresh : w.entryOf s = none
  entry : ∃ sh x, P x ∧ World.newSocket i w w' = some (sh, x) ∧
    w'.entryOf = Function.update w.entryOf s (some (sh, x))
  counter : w'.counter = Function.update w.counter i (w.counter i + 1)

/-- The handle of an id below `2^24` is the id. -/
theorem handleOf_spec {i : IfaceId} {id : UInt32} (h0 : 0 < id.toNat) (h : id.toNat < 2 ^ 24) :
    (handleOf i id).valid = true ∧ (handleOf i id).iface = i.code ∧
      (handleOf i id).localId = id := by
  have hne : id ≠ 0 := by
    rintro rfl
    exact absurd h0 (by decide)
  rw [handleOf, if_pos hne]
  exact ⟨NetSock.valid_encode h0 h, NetSock.iface_encode i id, NetSock.localId_encode h⟩

theorem World.counter_openSocket {w : World S} {i : IfaceId} {ctx : IfaceCtx S}
    (hctx : w.ctx i = some ctx) (x : Socket S) (hn : ctx.nextId.toNat + 1 < 2 ^ 32) :
    (w.setCtx i (ctx.openSocket x).2).counter
      = Function.update w.counter i (w.counter i + 1) := by
  funext j
  by_cases hj : j = i
  · subst hj
    rw [counter_of_ctx (ctx_setCtx_self ..), Function.update_self, counter_of_ctx hctx]
    exact IfaceCtx.toNat_max_add_one hn
  · rw [Function.update_of_ne hj, World.counter, World.counter, ctx_setCtx_ne w hj]

/-- **Below `2^24` ids, an open is refused or adds one entry.** -/
theorem OpenSpec.cases {P : Socket S → Prop} {i : IfaceId} {w : World S} {r : NetSock × World S}
    (h : OpenSpec P i w r) (hw : w.Wf) (hP : ∀ x, P x → x.kind?.isSome = true)
    (hn : w.counter i < 2 ^ 24) : r = (.invalid, w) ∨ Opened P i w r.1 r.2 := by
  obtain _ | ⟨hctx, hx⟩ := h
  · exact .inl rfl
  · rename_i ctx x
    have hc := hw.ctx i ctx hctx
    rw [World.counter_of_ctx hctx] at hn
    obtain ⟨hv, hi, hl⟩ := handleOf_spec (i := i) hc.counter hn
    have hn' : ctx.nextId.toNat + 1 < 2 ^ 32 := by omega
    refine .inr ⟨hw.coreStep_setCtx hctx (hc.openSocket (hP x hx) hn'), hv, hi, ?_,
      ⟨_, x, hx, World.newSocket_openSocket hctx x, ?_⟩, World.counter_openSocket hctx x hn'⟩
    · rw [World.entryOf_of_ctx hi hctx, hl, hc.entryAt_nextId]
    · exact World.entryOf_setCtx hctx hi (by rw [hl]; exact hc.entryAt_openSocket x)

/-! ## While ids fit a handle -/

/-- `P` holds of the world as long as no counter has passed `2^24`; `n` bounds how far past they can
be. -/
structure InIds (n : ℕ) (P : World S → Prop) (w : World S) : Prop where
  wf : w.Wf
  bound : ∀ i, w.counter i ≤ 2 ^ 24 + n
  holds : (∀ i, w.counter i ≤ 2 ^ 24) → P w

namespace InIds

variable {n m : ℕ} {P P' : World S → Prop} {w w' : World S}

theorem mono (h : InIds n P w) (hnm : n ≤ m) : InIds m P w :=
  ⟨h.wf, fun i => by have := h.bound i; omega, h.holds⟩

theorem imp (h : InIds n P w) (hP : w.Wf → P w → P' w) : InIds n P' w :=
  ⟨h.wf, h.bound, fun hc => hP h.wf (h.holds hc)⟩

/-- A call that moves no counter. -/
theorem step (h : InIds n P w) (hwf : w'.Wf) (hc : w'.counter = w.counter) (hP : P w → P' w') :
    InIds n P' w' :=
  ⟨hwf, hc ▸ h.bound, fun hids => hP (h.holds (hc ▸ hids))⟩

/-- **An open is refused, adds an entry, or has moved the counter past `2^24`.** -/
theorem opened (h : InIds n P w) {Q : Socket S → Prop} {i : IfaceId} {r : NetSock × World S}
    (hr : OpenSpec Q i w r) (hQ : ∀ x, Q x → x.kind?.isSome = true) (hn : n < 2 ^ 8)
    (hrefused : P w → r = (.invalid, w) → P' r.2) (hopened : P w → Opened Q i w r.1 r.2 → P' r.2) :
    InIds (n + 1) P' r.2 := by
  by_cases hlt : w.counter i < 2 ^ 24
  · obtain rfl | ho := hr.cases h.wf hQ hlt
    · exact (h.mono (Nat.le_succ n)).imp fun _ hP => hrefused hP rfl
    · have hcount : ∀ j, w.counter j ≤ r.2.counter j ∧ r.2.counter j ≤ w.counter j + 1 := by
        intro j
        rw [ho.counter]
        by_cases hj : j = i
        · subst hj
          rw [Function.update_self]
          omega
        · rw [Function.update_of_ne hj]
          omega
      refine ⟨ho.wf, fun j => by have := h.bound j; have := hcount j; omega, fun hc => ?_⟩
      exact hopened (h.holds fun j => le_trans (hcount j).1 (hc j)) ho
  · obtain _ | ⟨hctx, hx⟩ := hr
    · exact (h.mono (Nat.le_succ n)).imp fun _ hP => hrefused hP rfl
    · rename_i ctx x
      have hb := h.bound i
      have hn' : ctx.nextId.toNat + 1 < 2 ^ 32 := by
        rw [World.counter_of_ctx hctx] at hb
        omega
      have hcount := World.counter_openSocket hctx x hn'
      refine ⟨h.wf.setCtx hctx ((h.wf.ctx i ctx hctx).openSocket (hQ x hx) hn'), fun j => ?_,
        fun hc => ?_⟩
      · have hj := h.bound j
        rw [hcount]
        by_cases hji : j = i
        · subst hji
          rw [Function.update_self]
          omega
        · rw [Function.update_of_ne hji]
          omega
      · have hci := hc i
        rw [hcount, Function.update_self] at hci
        omega

end InIds

/-! ## Closes -/

/-- What a close does: the entry goes if it is of the right type; one of another type makes the core
panic, and stays. -/
structure CloseSpec (k : SockKind) (s : NetSock) (w w' : World S) : Prop extends CoreStep w w' where
  entry : w'.entryOf
    = if w.kindOf s = some k then Function.update w.entryOf s none else w.entryOf
  counter : w'.counter = w.counter

theorem World.Wf.closeSpec_refl {w : World S} (h : w.Wf) {k : SockKind} {s : NetSock}
    (hk : w.kindOf s ≠ some k) : CloseSpec k s w w where
  toCoreStep := h.calm_refl.toCoreStep
  entry := by rw [if_neg hk]
  counter := rfl

/-- A close through the core, for a `close` that accepts exactly the sockets of one type. -/
theorem World.Wf.closeSpec_ffi {w : World S} (h : w.Wf) {k : SockKind} {s : NetSock} {i : IfaceId}
    {ctx : IfaceCtx S} {close : Socket S → Option (Socket S)} (hi : s.iface = i.code)
    (hctx : w.ctx i = some ctx) (hclose : ∀ x, (close x).isSome = true ↔ x.kind? = some k) :
    CloseSpec k s w (w.setCtx i (ctx.closeSocket s.localId close)) := by
  have hc := h.ctx i ctx hctx
  have hent := entryOf_of_ctx hi hctx
  obtain hl | ⟨sh, x, he⟩ := hc.lookup_cases s.localId
  · rw [IfaceCtx.closeSocket_of_none close hl, setCtx_self hctx]
    refine h.closeSpec_refl ?_
    rw [kindOf_of_none (hent.trans (IfaceCtx.entryAt_of_lookup_none hl))]
    simp
  · have hkind : w.kindOf s = x.kind? := by rw [kindOf, hent, he]; rfl
    cases hx : close x with
    | some x' =>
      have hl := (IfaceCtx.entryAt_eq_some.mp he).1
      rw [IfaceCtx.closeSocket_of_some he hx]
      refine ⟨h.coreStep_setCtx hctx (hc.unregister hl), ?_, counter_setCtx hctx rfl⟩
      rw [if_pos (by rw [hkind, ← hclose, hx]; rfl)]
      exact entryOf_setCtx hctx hi (hc.entryAt_unregister hl)
    | none =>
      rw [IfaceCtx.closeSocket_of_refused he hx]
      refine ⟨h.coreStep_setCtx hctx hc.panic, ?_, counter_setCtx hctx rfl⟩
      have hk : x.kind? ≠ some k := by
        rw [ne_eq, ← hclose, hx]
        exact Bool.false_ne_true
      rw [hkind, if_neg hk, entryOf_setCtx hctx hi (v := w.entryOf s)]
      · exact Function.update_eq_self s w.entryOf
      · rw [hent, Function.update_eq_self]
        rfl

theorem World.Wf.netTcpClose_spec {w : World S} (h : w.Wf) (s : NetSock) :
    CloseSpec .tcp s w (netTcpClose s w).2 := by
  obtain ⟨hf, he⟩ | ⟨i, ctx, hi, hctx, hf, -⟩ := h.handle_cases s
  · rw [netTcpClose, hf]
    exact h.closeSpec_refl (by rw [kindOf_of_none he]; simp)
  · simp only [netTcpClose, hf, ffi_of_ctx hctx]
    exact h.closeSpec_ffi hi hctx Socket.isSome_closeTcp

theorem World.Wf.netUdpClose_spec {w : World S} (h : w.Wf) (s : NetSock) :
    CloseSpec .udp s w (netUdpClose s w).2 := by
  obtain ⟨hf, he⟩ | ⟨i, ctx, hi, hctx, hf, -⟩ := h.handle_cases s
  · rw [netUdpClose, hf]
    exact h.closeSpec_refl (by rw [kindOf_of_none he]; simp)
  · simp only [netUdpClose, hf, ffi_of_ctx hctx]
    exact h.closeSpec_ffi hi hctx Socket.isSome_closeUdp

namespace CloseSpec

variable {k : SockKind} {s : NetSock} {w w' : World S}

/-- A close touches no other handle… -/
theorem entryOf_ne (h : CloseSpec k s w w') {t : NetSock} (ht : t ≠ s) :
    w'.entryOf t = w.entryOf t := by
  rw [h.entry]
  split_ifs
  · rw [Function.update_of_ne ht]
  · rfl

/-- …and its own stands for nothing afterwards, if it was of the right type. -/
theorem kindOf_eq (h : CloseSpec k s w w') :
    w'.kindOf = if w.kindOf s = some k then Function.update w.kindOf s none else w.kindOf := by
  funext t
  rw [World.kindOf, h.entry]
  split_ifs with hk
  · by_cases ht : t = s
    · subst ht
      rw [Function.update_self, Function.update_self]
      rfl
    · rw [Function.update_of_ne ht, Function.update_of_ne ht]
      rfl
  · rfl

end CloseSpec

/-! ## One socket -/

/-- An attached interface with one socket under id 1, owned by the first fd entry. -/
def oneSocket (x : Socket .reference) (e : FdEntry) : World .reference :=
  let w := World.boot .default
  { w with
    ifaces := Function.update w.ifaces .eth { w.ifaces .eth with
      enabled := true
      smoltcpHandle := some { (.new 0 fun _ => 0 : IfaceCtx .reference) with
        sockets := (∅ : SocketSet .reference).insert 0 x
        handles := (∅ : AList fun _ : UInt32 => SocketHandle).insert 1 0
        nextId := 2 } }
    fds := w.fds.set 0 { e with sock := ⟨1⟩ } }

end EspSmoltcp
