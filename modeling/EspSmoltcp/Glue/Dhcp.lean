import EspSmoltcp.Glue.Iface
import EspSmoltcp.Smoltcp.Reference

/-!
# Glue/Dhcp — leases, static addresses, and the gateway an `IfaceCtx` reports

`IfaceCtx::poll` copies what the DHCP client found into the interface.  The reported gateway and the
default route are two copies of one fact, written by separate branches of `poll` and
`smoltcp_iface_set_static`.

* `gatewayOk_iff` — the two agree, and are what the last configuration gave, exactly in the runs in which
  no configuration without a gateway meets an interface with a default route.
-/

namespace EspSmoltcp

variable {S : Smoltcp}

/-! ## The poll -/

/-- `dhcpv4::Config`, as far as `poll` reads it. -/
structure DhcpConfig where
  address : Ipv4Cidr
  prefixLen_le : address.prefixLen ≤ 32
  router : Option Ipv4Address

/-- `dhcpv4::Event`. -/
inductive DhcpEvent
  | configured (cfg : DhcpConfig)
  | deconfigured

namespace IfaceCtx

/-- What `poll` does with an event of the DHCP client. -/
def applyDhcp (ctx : IfaceCtx S) : DhcpEvent → IfaceCtx S
  | .configured cfg =>
    let ctx := { ctx with
      netmaskBe := toBe (cidrToMask cfg.address.prefixLen)
      iface := ctx.iface.dropIpv4.pushAddr S (.ipv4 cfg.address) }
    let ctx := match cfg.router with
      | some gw => { ctx with
          iface := { ctx.iface with defaultRoute := some gw }
          gatewayBe := ipv4ToBe gw }
      | none => { ctx with gatewayBe := 0 }
    { ctx with hasIp := true }
  | .deconfigured =>
    { ctx with
      iface := { ctx.iface.dropIpv4 with defaultRoute := none }
      netmaskBe := 0
      gatewayBe := 0
      hasIp := false }

/-- What `Interface::poll` does to the device and the sockets. -/
abbrev NetPoll (S : Smoltcp) := EspDevice × SocketSet S → EspDevice × SocketSet S

/-- `iface.poll`. -/
def pollNet (net : NetPoll S) (ctx : IfaceCtx S) : IfaceCtx S :=
  { ctx with dev := (net (ctx.dev, ctx.sockets)).1, sockets := (net (ctx.dev, ctx.sockets)).2 }

/-- `IfaceCtx::poll`; `ev` is what the DHCP socket yields, if it is asked. -/
def poll (net : NetPoll S) (ev : Option DhcpEvent) (ctx : IfaceCtx S) : IfaceCtx S :=
  let ctx := ctx.pollNet net
  match ctx.dhcp with
  | some dh =>
    match ctx.sockets.lookup dh with
    | some .dhcpv4 =>
      match ev with
      | none => ctx
      | some ev => ctx.applyDhcp ev
    | _ => ctx.panic
  | none => { ctx with hasIp := ctx.iface.ipv4Addr.isSome }

/-- The DHCP client is asked for an event. -/
def Polled (net : NetPoll S) (ctx : IfaceCtx S) : Prop :=
  ∃ dh, ctx.dhcp = some dh ∧ (ctx.pollNet net).sockets.lookup dh = some .dhcpv4

/-- **What a poll does**: an event is applied, or the client is not asked and the addresses, the routes and
the gateway stay as they were. -/
theorem poll_cases (net : NetPoll S) (ev : Option DhcpEvent) (ctx : IfaceCtx S) :
    (ctx.Polled net ∧ ctx.poll net ev = match ev with
      | none => ctx.pollNet net
      | some ev => (ctx.pollNet net).applyDhcp ev) ∨
    (¬ ctx.Polled net ∧ ctx.dhcp.isSome = true ∧ ctx.poll net ev = (ctx.pollNet net).panic) ∨
    (¬ ctx.Polled net ∧
      ctx.poll net ev = { ctx.pollNet net with hasIp := ctx.iface.ipv4Addr.isSome }) := by
  rcases hd : ctx.dhcp with _ | dh
  · refine .inr (.inr ⟨?_, ?_⟩)
    · rintro ⟨dh, hdh, -⟩
      rw [hd] at hdh
      cases hdh
    · have hd' : (ctx.pollNet net).dhcp = none := hd
      simp only [poll, hd']
      rfl
  · have hd' : (ctx.pollNet net).dhcp = some dh := hd
    have hnot : (ctx.pollNet net).sockets.lookup dh ≠ some .dhcpv4 → ¬ ctx.Polled net := by
      rintro hne ⟨dh', hdh', hs⟩
      rw [hd] at hdh'
      exact hne (Option.some.inj hdh' ▸ hs)
    rcases hs : (ctx.pollNet net).sockets.lookup dh with _ | x | x | _
    · exact .inr (.inl ⟨hnot (by rw [hs]; simp), rfl, by simp only [poll, hd', hs]⟩)
    · exact .inr (.inl ⟨hnot (by rw [hs]; simp), rfl, by simp only [poll, hd', hs]⟩)
    · exact .inr (.inl ⟨hnot (by rw [hs]; simp), rfl, by simp only [poll, hd', hs]⟩)
    · refine .inl ⟨⟨dh, hd, hs⟩, ?_⟩
      simp only [poll, hd', hs]

end IfaceCtx

/-! ## Configuring an interface -/

/-- The calls that configure an interface.  The prefix length is cut to a `u8`; above 32 `set_static`
panics. -/
inductive IfaceOp (S : Smoltcp)
  | poll (net : IfaceCtx.NetPoll S) (ev : Option DhcpEvent)
  | setStatic (ipv4Be prefixLen gwBe : UInt32) (h : prefixLen.toUInt8.toNat ≤ 32)
  | enableDhcp

/-- What a call does. -/
def IfaceOp.run : IfaceOp S → IfaceCtx S → IfaceCtx S
  | poll net ev, ctx => ctx.poll net ev
  | setStatic ipv4Be prefixLen gwBe _, ctx =>
    smoltcpIfaceSetStatic ctx ipv4Be prefixLen.toUInt8.toNat gwBe
  | enableDhcp, ctx => smoltcpIfaceEnableDhcp ctx

section Fields

variable (i : Interface) (c : IpCidr)

@[simp] theorem Interface.defaultRoute_pushAddr : (i.pushAddr S c).defaultRoute = i.defaultRoute := by
  rw [pushAddr]
  split_ifs
  · rfl
  · rfl

@[simp] theorem Interface.defaultRoute_dropIpv4 : i.dropIpv4.defaultRoute = i.defaultRoute := rfl

end Fields

/-! ## The gateway -/

/-- A call configures the interface, with this gateway; 0 is none. -/
inductive IfaceOp.Gives (ctx : IfaceCtx S) : IfaceOp S → UInt32 → Prop
  | configured {net : IfaceCtx.NetPoll S} (cfg : DhcpConfig) (h : ctx.Polled net) :
      Gives ctx (.poll net (some (.configured cfg))) (cfg.router.elim 0 ipv4ToBe)
  | setStatic (ipv4Be prefixLen gwBe : UInt32) (h : prefixLen.toUInt8.toNat ≤ 32) :
      Gives ctx (.setStatic ipv4Be prefixLen gwBe h) gwBe

/-- The routers a DHCP server announces are not `0.0.0.0`. -/
def IfaceOp.RouterSpecified : IfaceOp S → Prop
  | .poll _ (some (.configured cfg)) => ∀ gw, cfg.router = some gw → ipv4ToBe gw ≠ 0
  | _ => True

theorem IfaceOp.Gives.unique {ctx : IfaceCtx S} {op : IfaceOp S} {g g' : UInt32} (h : op.Gives ctx g)
    (h' : op.Gives ctx g') : g = g' := by
  cases h
  · cases h'
    rfl
  · cases h'
    rfl

/-- The reported gateway is that of the default route. -/
structure GatewayCoherent (ctx : IfaceCtx S) : Prop where
  ne_zero_iff : ctx.gatewayBe ≠ 0 ↔ ctx.iface.defaultRoute.isSome = true
  eq : ∀ gw, ctx.iface.defaultRoute = some gw → ctx.gatewayBe = ipv4ToBe gw

/-- **What a call does to the gateway and the default route.** -/
inductive GatewayStep (op : IfaceOp S) (ctx ctx' : IfaceCtx S) : Prop
  /-- Neither is touched; a configuration did this only if it gave no gateway. -/
  | keep (hgw : ctx'.gatewayBe = ctx.gatewayBe) (hroute : ctx'.iface.defaultRoute = ctx.iface.defaultRoute)
      (hgives : ∀ g, op.Gives ctx g → g = 0)
  /-- Both are set. -/
  | set (gw : Ipv4Address) (hgw : ctx'.gatewayBe = ipv4ToBe gw) (hroute : ctx'.iface.defaultRoute = some gw)
      (hgives : op.Gives ctx (ipv4ToBe gw)) (hne : op.RouterSpecified → ipv4ToBe gw ≠ 0)
  /-- The gateway is cleared and the route is left. -/
  | clear (hgw : ctx'.gatewayBe = 0) (hroute : ctx'.iface.defaultRoute = ctx.iface.defaultRoute)
      (hgives : op.Gives ctx 0)
  /-- Both are cleared. -/
  | drop (hgw : ctx'.gatewayBe = 0) (hroute : ctx'.iface.defaultRoute = none)
      (hgives : ∀ g, ¬ op.Gives ctx g)

theorem gatewayStep_poll (net : IfaceCtx.NetPoll S) (ev : Option DhcpEvent) (ctx : IfaceCtx S) :
    GatewayStep (.poll net ev) ctx (ctx.poll net ev) := by
  have hnone : ¬ ctx.Polled net → ∀ g, IfaceOp.Gives ctx (.poll net ev) g → g = 0 := by
    rintro hnp g ⟨-, hp⟩
    exact absurd hp hnp
  obtain ⟨hp, he⟩ | ⟨hnp, -, he⟩ | ⟨hnp, he⟩ := ctx.poll_cases net ev
  · rcases ev with _ | ⟨addr, hlen, _ | gw⟩ | _
    · rw [he]
      exact .keep rfl rfl (fun g hg => by cases hg)
    · rw [he]
      exact .clear rfl (by simp [IfaceCtx.applyDhcp, IfaceCtx.pollNet]) (.configured ⟨addr, hlen, none⟩ hp)
    · rw [he]
      exact .set gw rfl rfl (.configured ⟨addr, hlen, some gw⟩ hp) fun hspec => hspec gw rfl
    · rw [he]
      exact .drop rfl rfl (fun g hg => by cases hg)
  · rw [he]
    exact .keep rfl rfl (hnone hnp)
  · rw [he]
    exact .keep rfl rfl (hnone hnp)

theorem gatewayStep_setStatic (ctx : IfaceCtx S) (ipv4Be prefixLen gwBe : UInt32)
    (h : prefixLen.toUInt8.toNat ≤ 32) : GatewayStep (.setStatic ipv4Be prefixLen gwBe h) ctx
      (smoltcpIfaceSetStatic ctx ipv4Be prefixLen.toUInt8.toNat gwBe) := by
  rw [smoltcpIfaceSetStatic, if_neg (not_lt.mpr h)]
  by_cases hgw : gwBe = 0
  · simp only [hgw, ne_eq, not_true_eq_false, if_false]
    refine .keep rfl (by simp) fun g hg => ?_
    cases hg
    rfl
  · simp only [ne_eq, hgw, not_false_eq_true, if_true]
    refine .set (ipv4FromBe gwBe) (ipv4ToBe_ipv4FromBe gwBe).symm rfl ?_ fun _ => ?_
    · rw [ipv4ToBe_ipv4FromBe]
      exact .setStatic ipv4Be prefixLen gwBe h
    · rwa [ipv4ToBe_ipv4FromBe]

theorem gatewayStep_run (op : IfaceOp S) (ctx : IfaceCtx S) : GatewayStep op ctx (op.run ctx) := by
  rcases op with ⟨net, ev⟩ | ⟨ipv4Be, prefixLen, gwBe, h⟩ | _
  · exact gatewayStep_poll net ev ctx
  · exact gatewayStep_setStatic ctx ipv4Be prefixLen gwBe h
  · have hgives : ∀ g, IfaceOp.Gives ctx .enableDhcp g → g = 0 := fun g hg => by cases hg
    rw [IfaceOp.run, smoltcpIfaceEnableDhcp]
    rcases ctx.dhcp with _ | dh
    · exact .keep rfl rfl hgives
    · exact .keep rfl rfl hgives

/-! ## Whole runs -/

/-- Gateway and default route agree in every state of a run, and are what was given after each
configuration. -/
def GatewayOk : List (IfaceOp S) → IfaceCtx S → Prop
  | [], ctx => GatewayCoherent ctx
  | op :: ops, ctx => GatewayCoherent ctx ∧ (∀ g, op.Gives ctx g → (op.run ctx).gatewayBe = g) ∧
      GatewayOk ops (op.run ctx)

/-- No configuration without a gateway meets an interface with a default route. -/
def NoGatewayDropped : List (IfaceOp S) → IfaceCtx S → Prop
  | [], _ => True
  | op :: ops, ctx =>
    (op.Gives ctx 0 → ctx.iface.defaultRoute = none) ∧ NoGatewayDropped ops (op.run ctx)

theorem gatewayCoherent_new (n : ℕ) (mac : Fin 6 → UInt8) : GatewayCoherent (.new n mac : IfaceCtx S) := by
  have hroute : (.new n mac : IfaceCtx S).iface.defaultRoute = none := by
    rw [IfaceCtx.new]
    exact Interface.defaultRoute_pushAddr _ _
  refine ⟨?_, fun gw hgw => ?_⟩
  · rw [hroute]
    exact iff_of_false (not_not.mpr rfl) (by simp)
  · rw [hroute] at hgw
    cases hgw

/-- Two contexts with the same gateway and route are coherent together. -/
theorem GatewayCoherent.congr {ctx ctx' : IfaceCtx S} (h : GatewayCoherent ctx)
    (hgw : ctx'.gatewayBe = ctx.gatewayBe) (hroute : ctx'.iface.defaultRoute = ctx.iface.defaultRoute) :
    GatewayCoherent ctx' := by
  refine ⟨?_, fun gw hr => ?_⟩
  · rw [hgw, hroute]
    exact h.ne_zero_iff
  · rw [hroute] at hr
    rw [hgw]
    exact h.eq gw hr

/-- No gateway is reported exactly when there is no default route. -/
theorem GatewayCoherent.eq_zero_iff {ctx : IfaceCtx S} (h : GatewayCoherent ctx) :
    ctx.gatewayBe = 0 ↔ ctx.iface.defaultRoute = none := by
  rw [← not_iff_not, ← ne_eq, h.ne_zero_iff, Option.isSome_iff_ne_none]

/-- **What one call needs**: from a coherent state it gets to one, with the gateway it was given, unless it
was given none and there is a default route. -/
theorem GatewayCoherent.run_iff {ctx : IfaceCtx S} (h : GatewayCoherent ctx) {op : IfaceOp S}
    (hop : op.RouterSpecified) :
    (GatewayCoherent (op.run ctx) ∧ ∀ g, op.Gives ctx g → (op.run ctx).gatewayBe = g) ↔
      (op.Gives ctx 0 → ctx.iface.defaultRoute = none) := by
  obtain ⟨hgw, hroute, hgives⟩ | ⟨gw, hgw, hroute, hgives, hne⟩ | ⟨hgw, hroute, hgives⟩ |
    ⟨hgw, hroute, hgives⟩ := gatewayStep_run op ctx
  · rw [← h.eq_zero_iff, ← hgw]
    constructor
    · intro hall hg
      exact hall.2 0 hg
    · intro hzero
      refine ⟨h.congr hgw hroute, fun g hg => ?_⟩
      obtain rfl := hgives g hg
      exact hzero hg
  · refine iff_of_true ⟨⟨?_, fun gw' hgw' => ?_⟩, fun g hg => ?_⟩ fun hg => ?_
    · rw [hgw, hroute]
      exact iff_of_true (hne hop) rfl
    · rw [hroute] at hgw'
      obtain rfl := Option.some.inj hgw'
      exact hgw
    · rw [hgw, hgives.unique hg]
    · exact absurd (hgives.unique hg) (hne hop)
  · constructor
    · intro hall _
      rw [← hroute]
      exact hall.1.eq_zero_iff.mp hgw
    · intro hnone
      have hroute' := hroute.trans (hnone hgives)
      refine ⟨⟨?_, fun gw hgw' => ?_⟩, fun g hg => ?_⟩
      · rw [hgw, hroute']
        exact iff_of_false (not_not.mpr rfl) (by simp)
      · rw [hroute'] at hgw'
        cases hgw'
      · rw [hgw, hgives.unique hg]
  · refine iff_of_true ⟨⟨?_, fun gw hgw' => ?_⟩, fun g hg => ?_⟩ fun hg => ?_
    · rw [hgw, hroute]
      exact iff_of_false (not_not.mpr rfl) (by simp)
    · rw [hroute] at hgw'
      cases hgw'
    · exact absurd hg (hgives g)
    · exact absurd hg (hgives 0)

/-- **Gateway and default route agree along a run exactly when no configuration without a gateway meets an
interface with a default route.** -/
theorem GatewayCoherent.gatewayOk_iff {ctx : IfaceCtx S} (h : GatewayCoherent ctx)
    {ops : List (IfaceOp S)} (hops : ∀ op ∈ ops, op.RouterSpecified) :
    GatewayOk ops ctx ↔ NoGatewayDropped ops ctx := by
  induction ops generalizing ctx with
  | nil => exact iff_of_true h trivial
  | cons op ops ih =>
    have hop := h.run_iff (hops op List.mem_cons_self)
    have hrest := fun op' hop' => hops op' (List.mem_cons_of_mem op hop')
    have hhead : ∀ {ops : List (IfaceOp S)} {ctx : IfaceCtx S}, GatewayOk ops ctx → GatewayCoherent ctx := by
      rintro (_ | _) ctx hok
      · exact hok
      · exact hok.1
    rw [GatewayOk, NoGatewayDropped]
    constructor
    · rintro ⟨-, hgiven, hok⟩
      have hctx := hhead hok
      exact ⟨hop.mp ⟨hctx, hgiven⟩, (ih hctx hrest).mp hok⟩
    · rintro ⟨hnone, hrun⟩
      obtain ⟨hctx, hgiven⟩ := hop.mpr hnone
      exact ⟨h, hgiven, (ih hctx hrest).mpr hrun⟩

/-- **From start-up.** -/
theorem gatewayOk_new_iff (n : ℕ) (mac : Fin 6 → UInt8) (ops : List (IfaceOp S))
    (hops : ∀ op ∈ ops, op.RouterSpecified) :
    GatewayOk ops (.new n mac) ↔ NoGatewayDropped ops (.new n mac) :=
  (gatewayCoherent_new n mac).gatewayOk_iff hops

/-! ### A lease without a router after one with a router -/

/-- A poll in which the DHCP client yields a lease. -/
def leased (router : Option Ipv4Address) : IfaceOp .reference :=
  .poll id (some (.configured ⟨⟨⟨10, 0, 0, 2⟩, 24⟩, by decide, router⟩))

/-- The DHCP client is started and yields a lease with a router, then one without. -/
def routerWithdrawn : List (IfaceOp .reference) :=
  [.enableDhcp, leased (some ⟨10, 0, 0, 1⟩), leased none]

/-- A static configuration with a gateway is replaced by one without. -/
def staticWithdrawn : List (IfaceOp .reference) :=
  [.setStatic 0x0200000A 24 0x0100000A (by decide), .setStatic 0x0300000A 24 0 (by decide)]

/-- **The route outlives the reported gateway, and the reported gateway outlives its configuration.** -/
theorem gateway_outlived : ¬ GatewayOk routerWithdrawn (.new 0 fun _ => 0) ∧
    ¬ GatewayOk staticWithdrawn (.new 0 fun _ => 0) := by
  constructor
  · rintro ⟨-, -, -, -, -, -, hok⟩
    exact absurd hok.ne_zero_iff (by decide)
  · rintro ⟨-, -, -, hgiven, -⟩
    exact absurd (hgiven 0 (.setStatic ..)) (by decide)

/-- A lease with a router alone is reported as it is routed. -/
theorem gatewayOk_leased : GatewayOk [.enableDhcp, leased (some ⟨10, 0, 0, 1⟩)] (.new 0 fun _ => 0) := by
  refine (gatewayOk_new_iff 0 _ _ fun op hop => ?_).mpr ⟨fun hg => ?_, fun _ => rfl, trivial⟩
  · obtain rfl | hop := List.mem_cons.mp hop
    · trivial
    · obtain rfl := List.mem_singleton.mp hop
      rintro gw hgw
      obtain rfl := Option.some.inj hgw
      decide
  · cases hg

end EspSmoltcp
