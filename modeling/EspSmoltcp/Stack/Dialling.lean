import EspSmoltcp.Compat.Handshake
import EspSmoltcp.Smoltcp.Endpoints

/-!
# Stack/Dialling — the local ports of outgoing TCP connections

`net_tcp_connect` asks for local port 0, and `smoltcp_tcp_connect` makes of it `49152 + (rand & 0x3FFF)`.
Neither looks at the sockets that are open, and smoltcp's `connect` sees only its own.

Everything else takes endpoints away or leaves them (`Fades`).  So two connections of an interface share
local port and peer exactly if a draw repeats one: `distinct_step_iff`, `distinct_of_run`.
-/

namespace EspSmoltcp

open Thread (Logs)

variable {S : Smoltcp} {α : Type}

/-! ## The endpoints in a context -/

namespace IfaceCtx

/-- The endpoints of the TCP socket at a handle. -/
def endsAt (T : TcpEnds S.tcp) (ctx : IfaceCtx S) (sh : SocketHandle) : Option (UInt16 × IpEndpoint) :=
  (ctx.sockets.lookup sh).bind fun x => x.tcp?.bind T.ends

/-- No socket gets endpoints it did not have. -/
def Fades (T : TcpEnds S.tcp) (ctx ctx' : IfaceCtx S) : Prop :=
  ∀ sh e, ctx'.endsAt T sh = some e → ctx.endsAt T sh = some e

variable (T : TcpEnds S.tcp)

theorem Fades.refl (ctx : IfaceCtx S) : Fades T ctx ctx := fun _ _ h => h

theorem endsAt_of_sockets {ctx ctx' : IfaceCtx S} (h : ctx'.sockets = ctx.sockets) (sh : SocketHandle) :
    ctx'.endsAt T sh = ctx.endsAt T sh := by
  rw [endsAt, h, ← endsAt]

theorem Fades.of_sockets {ctx ctx' : IfaceCtx S} (h : ctx'.sockets = ctx.sockets) : Fades T ctx ctx' :=
  fun sh e he => by rwa [endsAt_of_sockets T h] at he

theorem endsAt_setSocket (ctx : IfaceCtx S) (sh sh' : SocketHandle) (x : Socket S) :
    (ctx.setSocket sh x).endsAt T sh' = if sh' = sh then
      (ctx.sockets.lookup sh).bind fun _ => x.tcp?.bind T.ends else ctx.endsAt T sh' := by
  have hlookup : (ctx.setSocket sh x).sockets.lookup sh'
      = if sh' = sh then (ctx.sockets.lookup sh).map fun _ => x else ctx.sockets.lookup sh' :=
    SocketSet.lookup_replace ..
  rw [endsAt, hlookup]
  split_ifs
  · rw [Option.bind_map]
    rfl
  · rfl

/-- A socket without endpoints is added. -/
theorem Fades.openSocket (ctx : IfaceCtx S) {x : Socket S} (hx : x.tcp?.bind T.ends = none) :
    Fades T ctx (ctx.openSocket x).2 := by
  intro sh e he
  have hlookup : (ctx.openSocket x).2.sockets.lookup sh
      = if sh = S.slot ctx.sockets.keys then some x else ctx.sockets.lookup sh := by
    change (ctx.sockets.insert (S.slot ctx.sockets.keys) x).lookup sh = _
    split_ifs with h
    · rw [h, AList.lookup_insert]
    · exact AList.lookup_insert_ne h
  rw [endsAt, hlookup] at he
  split_ifs at he
  · rw [Option.bind_some, hx] at he
    cases he
  · exact he

theorem Fades.unregister (ctx : IfaceCtx S) (id : UInt32) (sh : SocketHandle) :
    Fades T ctx (ctx.unregister id sh) := by
  intro sh' e he
  have hlookup : (ctx.unregister id sh).sockets.lookup sh'
      = if sh' = sh then none else ctx.sockets.lookup sh' := by
    change (ctx.sockets.erase sh).lookup sh' = _
    split_ifs with h
    · rw [h, AList.lookup_erase]
    · exact AList.lookup_erase_ne h
  rw [endsAt, hlookup] at he
  split_ifs at he
  · cases he
  · exact he

theorem Fades.closeSocket (ctx : IfaceCtx S) (id : UInt32) (close : Socket S → Option (Socket S)) :
    Fades T ctx (ctx.closeSocket id close) := by
  obtain h | h | ⟨sh, x, x', -, -, h⟩ := ctx.closeSocket_cases id close
  · rw [h]
    exact Fades.refl T ctx
  · rw [h]
    exact Fades.of_sockets T rfl
  · rw [h]
    exact Fades.unregister T ctx id sh

end IfaceCtx

/-! ## The endpoints in the world -/

namespace World

/-- The endpoints of the TCP socket at a handle of an interface. -/
def endsAt (T : TcpEnds S.tcp) (w : World S) (i : IfaceId) (sh : SocketHandle) :
    Option (UInt16 × IpEndpoint) := (w.ctx i).bind fun ctx => ctx.endsAt T sh

/-- No socket gets endpoints it did not have. -/
def Fades (T : TcpEnds S.tcp) (w w' : World S) : Prop :=
  ∀ i sh e, w'.endsAt T i sh = some e → w.endsAt T i sh = some e

variable (T : TcpEnds S.tcp) {w : World S}

theorem Fades.refl (w : World S) : Fades T w w := fun _ _ _ h => h

theorem endsAt_of_ctx {i : IfaceId} {ctx : IfaceCtx S} (h : w.ctx i = some ctx) (sh : SocketHandle) :
    w.endsAt T i sh = ctx.endsAt T sh := by
  rw [endsAt, h, Option.bind_some]

theorem endsAt_setCtx_self (i : IfaceId) (ctx : IfaceCtx S) (sh : SocketHandle) :
    (w.setCtx i ctx).endsAt T i sh = ctx.endsAt T sh := endsAt_of_ctx T (ctx_setCtx_self w i ctx) sh

theorem endsAt_setCtx_ne {i j : IfaceId} (h : j ≠ i) (ctx : IfaceCtx S) (sh : SocketHandle) :
    (w.setCtx i ctx).endsAt T j sh = w.endsAt T j sh := by
  rw [endsAt, ctx_setCtx_ne w h, ← endsAt]

/-- A call into the core that gives no socket endpoints. -/
theorem Fades.ffi (i : IfaceId) (err : α) {f : IfaceCtx S → α × IfaceCtx S}
    (hf : ∀ ctx, IfaceCtx.Fades T ctx (f ctx).2) : Fades T w (w.ffi i err f).2 := by
  rcases hctx : w.ctx i with _ | ctx
  · rw [World.ffi, hctx]
    exact Fades.refl T w
  · rw [World.ffi_of_ctx hctx]
    intro j sh e he
    by_cases hj : j = i
    · subst hj
      rw [endsAt_setCtx_self] at he
      rw [endsAt_of_ctx T hctx]
      exact hf ctx sh e he
    · rwa [endsAt_setCtx_ne T hj] at he

theorem Fades.netTcpOpen (i : IfaceId) : Fades T w (netTcpOpen i w).2 := by
  rw [EspSmoltcp.netTcpOpen]
  rcases handleFor w i.code with _ | j
  · exact Fades.refl T w
  · exact Fades.ffi T j _ fun ctx => IfaceCtx.Fades.openSocket T ctx T.ends_new

theorem Fades.netTcpClose (s : NetSock) : Fades T w (netTcpClose s w).2 := by
  rw [EspSmoltcp.netTcpClose]
  rcases handleFor w s.iface with _ | j
  · exact Fades.refl T w
  · exact Fades.ffi T j _ fun ctx => IfaceCtx.Fades.closeSocket T ctx _ _

end World

/-! ## The first step of `net_tcp_connect` -/

/-- `smoltcp_tcp_connect` fails and leaves the sockets alone, or stores what `connect` made of the socket. -/
theorem smoltcpTcpConnect_cases (ctx : IfaceCtx S) (id dstBe : UInt32) (dstPort localPort : UInt16)
    (rand : UInt32) :
    ((smoltcpTcpConnect ctx id dstBe dstPort localPort rand).1 = -1 ∧
        (smoltcpTcpConnect ctx id dstBe dstPort localPort rand).2.sockets = ctx.sockets ∧
        ∀ sh x, ctx.entryAt id = some (sh, .tcp x) →
          S.tcp.connect x (endpointOf dstBe dstPort) (connectPort localPort rand) = none) ∨
      ∃ sh x x', ctx.entryAt id = some (sh, .tcp x) ∧
        S.tcp.connect x (endpointOf dstBe dstPort) (connectPort localPort rand) = some x' ∧
        smoltcpTcpConnect ctx id dstBe dstPort localPort rand = (0, ctx.setSocket sh (.tcp x')) := by
  rw [smoltcpTcpConnect]
  by_cases htcp : ∃ sh x, ctx.entryAt id = some (sh, .tcp x)
  · obtain ⟨sh, x, he⟩ := htcp
    rw [IfaceCtx.withTcp_of_tcp he]
    rcases hconn : S.tcp.connect x (endpointOf dstBe dstPort) (connectPort localPort rand) with _ | x'
    · refine .inl ⟨rfl, ?_, fun sh' y hy => ?_⟩
      · simp only
        rw [IfaceCtx.setSocket_self (IfaceCtx.entryAt_eq_some.mp he).2]
      · obtain ⟨rfl, hxy⟩ := Prod.mk.inj (Option.some.inj (he.symm.trans hy))
        rwa [← Socket.tcp.inj hxy]
    · exact .inr ⟨sh, x, x', he, hconn, rfl⟩
  · have hnone : ∀ sh x, ctx.entryAt id = some (sh, .tcp x) →
        S.tcp.connect x (endpointOf dstBe dstPort) (connectPort localPort rand) = none :=
      fun sh x he => absurd ⟨sh, x, he⟩ htcp
    have hsame : ∀ f : S.tcp.Socket → Int × S.tcp.Socket, (ctx.withTcp id (-1) f).1 = -1 ∧
        (ctx.withTcp id (-1) f).2.sockets = ctx.sockets := by
      intro f
      obtain h | h | ⟨sh, x, he, -⟩ := ctx.withTcp_cases id (-1) f
      · rw [h]
        exact ⟨rfl, rfl⟩
      · rw [h]
        exact ⟨rfl, rfl⟩
      · exact absurd ⟨sh, x, he⟩ htcp
    exact .inl ⟨(hsame _).1, (hsame _).2, hnone⟩

/-- The handle addresses this socket. -/
def Addresses (w : World S) (s : NetSock) (i : IfaceId) (sh : SocketHandle) : Prop :=
  IfaceId.ofCode s.iface = some i ∧ ∃ ctx, w.ctx i = some ctx ∧ ctx.lookup s.localId = some sh

/-- The handle addresses this socket, and that accepts the endpoints. -/
def Accepts (w : World S) (s : NetSock) (e : UInt16 × IpEndpoint) (i : IfaceId) (sh : SocketHandle) : Prop :=
  IfaceId.ofCode s.iface = some i ∧ ∃ ctx x, w.ctx i = some ctx ∧
    ctx.entryAt s.localId = some (sh, .tcp x) ∧ (S.tcp.connect x e.2 e.1).isSome = true

/-- `smoltcp_tcp_connect`, as `net_tcp_connect` calls it once `handle_for` has found the interface. -/
def dial (s : NetSock) (ipv4Be : UInt32) (port : UInt16) (rand : UInt32) (w : World S) : Int × World S :=
  match IfaceId.ofCode s.iface with
  | none => (-1, w)
  | some i => w.ffi i (-1) (smoltcpTcpConnect · s.localId ipv4Be port 0 rand)

/-- The endpoints of a connect: the local port drawn, and the peer. -/
def dialEnds (ipv4Be : UInt32) (port : UInt16) (rand : UInt32) : UInt16 × IpEndpoint :=
  (connectPort 0 rand, endpointOf ipv4Be port)

/-- What the step does: it fails and changes no endpoints, or gives them to the socket addressed. -/
inductive DialSpec (T : TcpEnds S.tcp) (w : World S) (s : NetSock) (e : UInt16 × IpEndpoint) :
    Int × World S → Prop
  | refused {w' : World S} (hno : ∀ i sh, ¬ Accepts w s e i sh)
      (hends : ∀ i sh, w'.endsAt T i sh = w.endsAt T i sh) : DialSpec T w s e (-1, w')
  | dialled {i : IfaceId} {sh : SocketHandle} {w' : World S} (hyes : Accepts w s e i sh)
      (hself : w'.endsAt T i sh = some e)
      (hends : ∀ j sh', (j, sh') ≠ (i, sh) → w'.endsAt T j sh' = w.endsAt T j sh') :
      DialSpec T w s e (0, w')

section Dial

variable {w : World S} {s : NetSock} {i : IfaceId}

/-- A context with the endpoints of the one before. -/
theorem World.endsAt_setCtx (T : TcpEnds S.tcp) {ctx ctx' : IfaceCtx S} (hctx : w.ctx i = some ctx)
    {j : IfaceId} {sh : SocketHandle} (h : j = i → ctx'.endsAt T sh = ctx.endsAt T sh) :
    (w.setCtx i ctx').endsAt T j sh = w.endsAt T j sh := by
  by_cases hj : j = i
  · subst hj
    rw [World.endsAt_setCtx_self, World.endsAt_of_ctx T hctx]
    exact h rfl
  · rw [World.endsAt_setCtx_ne T hj]

/-- **The step gives its endpoints to the socket addressed, or changes none.** -/
theorem dial_spec (T : TcpEnds S.tcp) (s : NetSock) (ipv4Be : UInt32) (port : UInt16) (rand : UInt32)
    (w : World S) : DialSpec T w s (dialEnds ipv4Be port rand) (dial s ipv4Be port rand w) := by
  rw [dial]
  rcases hh : IfaceId.ofCode s.iface with _ | i
  · refine .refused (fun j sh hyes => ?_) fun _ _ => rfl
    have hj := hyes.1
    rw [hh] at hj
    cases hj
  rcases hctx : w.ctx i with _ | ctx
  · simp only [World.ffi, hctx]
    refine .refused ?_ fun _ _ => rfl
    rintro j sh ⟨hj, ctx, x, hctx', -⟩
    obtain rfl := Option.some.inj (hj.symm.trans hh)
    rw [hctx] at hctx'
    cases hctx'
  simp only [World.ffi_of_ctx hctx]
  obtain ⟨hret, hsockets, hnone⟩ | ⟨sh, x, x', he, hconn, hcall⟩ :=
    smoltcpTcpConnect_cases ctx s.localId ipv4Be port 0 rand
  · rw [hret]
    refine .refused ?_ fun j sh => World.endsAt_setCtx T hctx fun _ => IfaceCtx.endsAt_of_sockets T hsockets sh
    rintro j sh ⟨hj, ctx', x, hctx', he, hsome⟩
    obtain rfl := Option.some.inj (hj.symm.trans hh)
    obtain rfl := Option.some.inj (hctx'.symm.trans hctx)
    rw [dialEnds, hnone sh x he] at hsome
    cases hsome
  · rw [hcall]
    have hset := IfaceCtx.endsAt_setSocket T ctx sh
    refine .dialled (i := i) ⟨hh, ctx, x, hctx, he, Option.isSome_iff_exists.mpr ⟨x', hconn⟩⟩ ?_
      fun j sh' hne => World.endsAt_setCtx T hctx fun hj => ?_
    · rw [World.endsAt_setCtx_self, hset, if_pos rfl, (IfaceCtx.entryAt_eq_some.mp he).2]
      exact T.ends_connect _ _ _ _ hconn
    · rw [hset, if_neg fun hsh => hne (by rw [hj, hsh])]

end Dial

/-- A query leaves the sockets alone. -/
theorem World.Fades.queryTcp (T : TcpEnds S.tcp) (w : World S) (i : IfaceId) (id : UInt32) (err : α)
    (f : S.tcp.Socket → α) : World.Fades T w (w.ffi i err (·.queryTcp id err f)).2 :=
  World.Fades.ffi T i err fun ctx => IfaceCtx.Fades.of_sockets T (ctx.sockets_queryTcp id err f)

/-- Every step of `net_tcp_connect` is that one, or gives no socket endpoints. -/
theorem logs_netTcpConnect_dial (T : TcpEnds S.tcp) (cfg : Config) (s : NetSock) (ipv4Be : UInt32)
    (port : UInt16) (timeoutMs rand : UInt32) :
    Logs (fun e => ∀ call w w', e = .step call w w' →
      w' = (dial s ipv4Be port rand w).2 ∨ World.Fades T w w')
      (netTcpConnect (S := S) cfg s ipv4Be port timeoutMs rand) := by
  refine Logs.bind Logs.world fun w₀ => ?_
  rcases hh : handleFor w₀ s.iface with _ | i
  · exact Logs.pure _
  have hi : IfaceId.ofCode s.iface = some i := IfaceId.ofCode_eq_some.mpr (of_handleFor_eq_some hh).1
  refine Logs.bind (logs_atomically fun w call v v' he => .inl ?_) fun rc => ?_
  · cases he
    rw [dial, hi]
  split_ifs
  · exact Logs.pure _
  · refine Logs.bind logs_xTaskGetTickCount fun start => ?_
    refine Logs.loop (fun _ => Logs.bind logs_xTaskGetTickCount fun now => ?_) ()
    split_ifs
    · refine Logs.bind (logs_atomically fun w call v v' he => .inr ?_) fun active => ?_
      · cases he
        exact World.Fades.queryTcp T w i _ _ _
      · split_ifs
        · exact Logs.pure _
        · exact Logs.bind (logs_blockingWait nofun) fun _ => Logs.pure _
    · exact Logs.pure _

/-! ## Runs -/

/-- The world, and which of its sockets `net_tcp_connect` has connected. -/
structure DialState (S : Smoltcp) where
  world : World S
  dialled : IfaceId → SocketHandle → Prop

/-- The step of `net_tcp_connect` that connects. -/
def DialState.connect (σ : DialState S) (s : NetSock) (ipv4Be : UInt32) (port : UInt16) (rand : UInt32) :
    DialState S :=
  let r := dial s ipv4Be port rand σ.world
  ⟨r.2, fun i sh => σ.dialled i sh ∨ r.1 = 0 ∧ Addresses σ.world s i sh⟩

/-- A call on a TCP handle, or something else. -/
inductive DialOp
  | tcpOpen (iface : IfaceId)
  | connect (s : NetSock) (ipv4Be : UInt32) (port : UInt16) (rand : UInt32)
  | close (s : NetSock)
  | others

/-- One step of a run.  Of `net_tcp_connect` this is the step that connects; the steps of its wait are among
those of the others, who close sockets, accept connections on sockets that were not dialled, and let
connections end. -/
inductive DialStep (T : TcpEnds S.tcp) (σ : DialState S) : DialOp → DialState S → Prop
  | tcpOpen (iface : IfaceId) : DialStep T σ (.tcpOpen iface) ⟨(netTcpOpen iface σ.world).2, σ.dialled⟩
  | connect (s : NetSock) (ipv4Be : UInt32) (port : UInt16) (rand : UInt32) :
      DialStep T σ (.connect s ipv4Be port rand) (σ.connect s ipv4Be port rand)
  | close (s : NetSock) : DialStep T σ (.close s) ⟨(netTcpClose s σ.world).2,
      fun i sh => σ.dialled i sh ∧ ¬ ((netTcpClose s σ.world).1 = .ok ∧ Addresses σ.world s i sh)⟩
  | others {σ' : DialState S} (hd : ∀ i sh, σ'.dialled i sh → σ.dialled i sh)
      (hw : ∀ i sh e, σ'.dialled i sh → σ'.world.endsAt T i sh = some e → σ.world.endsAt T i sh = some e) :
      DialStep T σ .others σ'

/-- No two sockets of an interface that were dialled have the same endpoints. -/
def DialState.Distinct (T : TcpEnds S.tcp) (σ : DialState S) : Prop :=
  ∀ i sh sh' e, σ.dialled i sh → σ.dialled i sh' → σ.world.endsAt T i sh = some e →
    σ.world.endsAt T i sh' = some e → sh = sh'

/-- A connect that its socket accepts draws a local port that no other dialled socket of the interface has
towards the same peer. -/
def DialOp.Fresh (T : TcpEnds S.tcp) (σ : DialState S) : DialOp → Prop
  | .connect s ipv4Be port rand => ∀ i sh, Accepts σ.world s (dialEnds ipv4Be port rand) i sh →
      ∀ sh', sh' ≠ sh → σ.dialled i sh' → σ.world.endsAt T i sh' ≠ some (dialEnds ipv4Be port rand)
  | _ => True

section Runs

variable {T : TcpEnds S.tcp} {σ σ' : DialState S}

/-- Fewer dialled sockets, with no endpoints they did not have. -/
theorem DialState.Distinct.fade (h : σ.Distinct T) (hd : ∀ i sh, σ'.dialled i sh → σ.dialled i sh)
    (hw : ∀ i sh e, σ'.dialled i sh → σ'.world.endsAt T i sh = some e →
      σ.world.endsAt T i sh = some e) : σ'.Distinct T := fun i sh sh' e hsh hsh' he he' =>
  h i sh sh' e (hd i sh hsh) (hd i sh' hsh') (hw i sh e hsh he) (hw i sh' e hsh' he')

/-- With one more socket dialled they stay distinct exactly if no other has its endpoints. -/
theorem DialState.Distinct.add_iff (h : σ.Distinct T) {w' : World S} {d : IfaceId → SocketHandle → Prop}
    {i : IfaceId} {sh : SocketHandle} {e₀ : UInt16 × IpEndpoint}
    (hd : ∀ j sh', d j sh' ↔ σ.dialled j sh' ∨ (j, sh') = (i, sh)) (hself : w'.endsAt T i sh = some e₀)
    (hends : ∀ j sh', (j, sh') ≠ (i, sh) → w'.endsAt T j sh' = σ.world.endsAt T j sh') :
    DialState.Distinct T ⟨w', d⟩ ↔
      ∀ sh', sh' ≠ sh → σ.dialled i sh' → σ.world.endsAt T i sh' ≠ some e₀ := by
  have hold : ∀ {j sh'}, (j, sh') ≠ (i, sh) → d j sh' → σ.dialled j sh' := fun hne hdj =>
    ((hd _ _).mp hdj).resolve_right hne
  constructor
  · intro hdist sh' hne hd' he
    have hother : w'.endsAt T i sh' = some e₀ := by
      rw [hends i sh' fun heq => hne (Prod.mk.inj heq).2]
      exact he
    exact hne (hdist i sh' sh e₀ ((hd i sh').mpr (.inl hd')) ((hd i sh).mpr (.inr rfl)) hother hself)
  · intro hfresh j sh₁ sh₂ e hd₁ hd₂ he₁ he₂
    by_cases h₁ : (j, sh₁) = (i, sh)
    · obtain ⟨rfl, rfl⟩ := Prod.mk.inj h₁
      by_contra hne
      have hne' : (j, sh₂) ≠ (j, sh₁) := fun heq => hne (Prod.mk.inj heq).2.symm
      refine hfresh sh₂ (Ne.symm hne) (hold hne' hd₂) ?_
      rw [← hends j sh₂ hne', ← hself, he₁, he₂]
    · by_cases h₂ : (j, sh₂) = (i, sh)
      · obtain ⟨rfl, rfl⟩ := Prod.mk.inj h₂
        by_contra hne
        refine hfresh sh₁ hne (hold h₁ hd₁) ?_
        rw [← hends j sh₁ h₁, ← hself, he₁, he₂]
      · exact h j sh₁ sh₂ e (hold h₁ hd₁) (hold h₂ hd₂) (hends j sh₁ h₁ ▸ he₁) (hends j sh₂ h₂ ▸ he₂)

theorem Accepts.addresses {w : World S} {s : NetSock} {e : UInt16 × IpEndpoint} {i : IfaceId}
    {sh : SocketHandle} (h : Accepts w s e i sh) : Addresses w s i sh := by
  obtain ⟨hi, ctx, x, hctx, he, -⟩ := h
  exact ⟨hi, ctx, hctx, (IfaceCtx.entryAt_eq_some.mp he).1⟩

theorem Addresses.unique {w : World S} {s : NetSock} {i j : IfaceId} {sh sh' : SocketHandle}
    (h : Addresses w s i sh) (h' : Addresses w s j sh') : i = j ∧ sh = sh' := by
  obtain ⟨hi, ctx, hctx, hl⟩ := h
  obtain ⟨hj, ctx', hctx', hl'⟩ := h'
  obtain rfl := Option.some.inj (hi.symm.trans hj)
  obtain rfl := Option.some.inj (hctx.symm.trans hctx')
  exact ⟨rfl, Option.some.inj (hl.symm.trans hl')⟩

/-- **A step keeps the connections distinct exactly if it is not a connect whose draw repeats one.** -/
theorem distinct_step_iff {op : DialOp} (h : σ.Distinct T) (hstep : DialStep T σ op σ') :
    σ'.Distinct T ↔ op.Fresh T σ := by
  cases hstep with
  | tcpOpen iface =>
    exact iff_of_true (h.fade (fun _ _ hd => hd) fun i sh e _ he => World.Fades.netTcpOpen T iface i sh e he)
      trivial
  | close s =>
    exact iff_of_true (h.fade (fun _ _ hd => hd.1) fun i sh e _ he => World.Fades.netTcpClose T s i sh e he)
      trivial
  | others hd hw => exact iff_of_true (h.fade hd hw) trivial
  | connect s ipv4Be port rand =>
    have hspec := dial_spec T s ipv4Be port rand σ.world
    rw [DialState.connect]
    generalize dial s ipv4Be port rand σ.world = r at hspec
    cases hspec with
    | refused hno hends =>
      refine iff_of_true (h.fade (fun i sh hd => ?_) fun i sh e _ he => hends i sh ▸ he)
        fun i sh hyes => absurd hyes (hno i sh)
      exact hd.resolve_right fun hnew => absurd hnew.1 (by simp)
    | @dialled i sh w' hyes hself hends =>
      have hadd : ∀ j sh', (σ.dialled j sh' ∨ (0 : Int) = 0 ∧ Addresses σ.world s j sh') ↔
          σ.dialled j sh' ∨ (j, sh') = (i, sh) := by
        refine fun j sh' => or_congr_right ⟨fun ha => ?_, fun heq => ?_⟩
        · obtain ⟨rfl, rfl⟩ := ha.2.unique hyes.addresses
          rfl
        · obtain ⟨rfl, rfl⟩ := Prod.mk.inj heq
          exact ⟨rfl, hyes.addresses⟩
      rw [h.add_iff hadd hself hends]
      constructor
      · intro hfresh i' sh' hyes'
        obtain ⟨rfl, rfl⟩ := hyes'.addresses.unique hyes.addresses
        exact hfresh
      · exact fun hfresh => hfresh i sh hyes

/-- A step whose draw, if it is a connect, repeats no connection. -/
def FreshStep (T : TcpEnds S.tcp) (σ σ' : DialState S) : Prop := ∃ op, DialStep T σ op σ' ∧ op.Fresh T σ

/-- **As long as no draw repeats a connection, no two connections of an interface share local port and
peer.** -/
theorem distinct_of_run (h : σ.Distinct T) (hrun : Relation.ReflTransGen (FreshStep T) σ σ') :
    σ'.Distinct T := by
  induction hrun with
  | refl => exact h
  | tail _ hstep ih =>
    obtain ⟨op, hop, hfresh⟩ := hstep
    exact (distinct_step_iff ih hop).mpr hfresh

end Runs

/-! ### Two draws -/

/-- Ethernet is attached and two TCP sockets are open. -/
def twoSockets : DialState .recording where
  world := (netTcpOpen .eth (netTcpOpen .eth ((World.boot .default).attach .eth fun _ => 0)).2).2
  dialled _ _ := False

/-- Both connect to `10.0.0.1:80`, with these draws. -/
def bothConnected (rand rand' : UInt32) : DialState .recording :=
  (twoSockets.connect ⟨1⟩ 0x0100000A 80 rand).connect ⟨2⟩ 0x0100000A 80 rand'

theorem distinct_twoSockets : twoSockets.Distinct (.recording .reference) := fun _ _ _ _ h => h.elim

/-- The first handle addresses the first socket. -/
theorem addresses_twoSockets : Addresses twoSockets.world ⟨1⟩ .eth 0 := ⟨rfl, _, rfl, rfl⟩

theorem dialled_bothConnected (rand rand' : UInt32) :
    (bothConnected rand rand').dialled .eth 0 ∧ (bothConnected rand rand').dialled .eth 1 :=
  ⟨.inl (.inr ⟨rfl, addresses_twoSockets⟩), .inr ⟨rfl, rfl, _, rfl, rfl⟩⟩

/-- **Two connects that draw the same number share local port and peer.** -/
theorem same_draw_clashes : Relation.ReflTransGen
      (fun σ σ' => ∃ op, DialStep (.recording .reference) σ op σ') twoSockets (bothConnected 7 7) ∧
    ¬ (bothConnected 7 7).Distinct (.recording .reference) := by
  refine ⟨(Relation.ReflTransGen.single ⟨_, .connect ..⟩).tail ⟨_, .connect ..⟩, fun h => ?_⟩
  obtain ⟨h₀, h₁⟩ := dialled_bothConnected 7 7
  exact absurd (h .eth 0 1 (49159, endpointOf 0x0100000A 80) h₀ h₁ rfl rfl) (by decide)

/-- Two that draw different numbers do not. -/
theorem distinct_bothConnected : (bothConnected 7 8).Distinct (.recording .reference) := by
  have hfirst : (DialOp.connect ⟨1⟩ 0x0100000A 80 7).Fresh (.recording .reference) twoSockets :=
    fun _ _ _ _ _ hd => hd.elim
  have hsecond : (DialOp.connect ⟨2⟩ 0x0100000A 80 8).Fresh (.recording .reference)
      (twoSockets.connect ⟨1⟩ 0x0100000A 80 7) := by
    rintro i sh - sh' - (hd | ⟨-, ha⟩)
    · exact hd.elim
    · obtain ⟨rfl, rfl⟩ := ha.unique addresses_twoSockets
      exact (by decide : some ((49159 : UInt16), endpointOf 0x0100000A 80) ≠ some (dialEnds 0x0100000A 80 8))
  exact distinct_of_run distinct_twoSockets
    ((Relation.ReflTransGen.single ⟨_, .connect .., hfirst⟩).tail ⟨_, .connect .., hsecond⟩)

end EspSmoltcp
