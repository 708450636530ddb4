import EspSmoltcp.Glue.Dhcp
import EspSmoltcp.Glue.Lending

/-!
# Glue/Inventory — the sockets of a context, and the fields that name them

A socket in the `SocketSet` is polled for ever; it can be reached only through the `handles` map, through
`dhcp`, or by the call that has just added it.  `CtxOp` is the calls that add and remove sockets, and each
keeps the inventory exact but one: `smoltcp_iface_set_static` takes the handle out of `dhcp` and leaves the
DHCP client in the set.

* `exactThroughout_new_iff` — the set holds what the fields name, in every state of a run, exactly when no
  static address is set while a DHCP client runs.
-/

namespace EspSmoltcp

variable {S : Smoltcp}

/-! ## The calls -/

/-- `Interface::poll` works on the sockets in place. -/
def IfaceCtx.NetPoll.InPlace (net : IfaceCtx.NetPoll S) : Prop :=
  ∀ p sh, ((net p).2.lookup sh).map Socket.kind? = (p.2.lookup sh).map Socket.kind?

/-- A call of `smoltcp_resolve` that returns: its turns poll the interface, and one of them ends past the
deadline. -/
structure ResolveCall (S : Smoltcp) where
  name : CStr
  serverBe : UInt32
  timeoutMs : UInt32
  outBe : UInt32
  idRand : UInt32
  portRand : UInt32
  start : ℤ
  turns : List (ResolveTurn S)
  polls : ∀ t ∈ turns, ∃ net : IfaceCtx.NetPoll S, net.InPlace ∧ t.poll = IfaceCtx.pollNet net
  ends : ∃ t ∈ turns, start + 1000 * timeoutMs.toNat ≤ t.now

/-- What a call has come to when it returns. -/
def ResolveCall.run (q : ResolveCall S) (ctx : IfaceCtx S) : Resolved S :=
  smoltcpResolve ctx q.name q.serverBe q.timeoutMs q.outBe q.idRand q.portRand q.start q.turns

/-- The calls on a context that add, remove or work on sockets. -/
inductive CtxOp (S : Smoltcp)
  | tcpOpen
  | udpOpen (localPort : UInt16)
  | tcpClose (id : UInt32)
  | udpClose (id : UInt32)
  /-- Any other call on a TCP socket… -/
  | tcp (id : UInt32) (f : S.tcp.Socket → Unit × S.tcp.Socket)
  /-- …and on a UDP socket. -/
  | udp (id : UInt32) (f : S.udp.Socket → Unit × S.udp.Socket)
  | resolve (q : ResolveCall S)
  | enableDhcp
  | setStatic (ipv4Be prefixLen gwBe : UInt32)
  | poll (net : IfaceCtx.NetPoll S) (h : net.InPlace) (ev : Option DhcpEvent)

namespace CtxOp

/-- What a call does. -/
def run : CtxOp S → IfaceCtx S → IfaceCtx S
  | tcpOpen, ctx => (smoltcpTcpOpen ctx).2
  | udpOpen localPort, ctx => (smoltcpUdpOpen ctx localPort).2
  | tcpClose id, ctx => smoltcpTcpClose ctx id
  | udpClose id, ctx => smoltcpUdpClose ctx id
  | tcp id f, ctx => (ctx.withTcp id () f).2
  | udp id f, ctx => (ctx.withUdp id () f).2
  | resolve q, ctx => (q.run ctx).ctx
  | enableDhcp, ctx => smoltcpIfaceEnableDhcp ctx
  | setStatic ipv4Be prefixLen gwBe, ctx =>
    smoltcpIfaceSetStatic ctx ipv4Be prefixLen.toUInt8.toNat gwBe
  | poll net _ ev, ctx => ctx.poll net ev

/-- The calls that draw an id. -/
def isOpen : CtxOp S → Bool
  | tcpOpen | udpOpen _ => true
  | _ => false

end CtxOp

/-! ## The inventory -/

namespace IfaceCtx

/-- The sockets that the fields name. -/
def named (ctx : IfaceCtx S) : List SocketHandle :=
  ctx.handles.entries.map Sigma.snd ++ ctx.dhcp.toList

/-- **The set holds exactly the sockets that the fields name, each once**: the handles of a set are
distinct. -/
def Exact (ctx : IfaceCtx S) : Prop := ctx.sockets.keys.Perm ctx.named

/-- **What a call does to the inventory.** -/
inductive Audit (ctx ctx' : IfaceCtx S) : CtxOp S → Prop
  /-- Nothing comes or goes. -/
  | keep {op : CtxOp S} (hsockets : ∀ sh, (ctx'.sockets.lookup sh).isSome = (ctx.sockets.lookup sh).isSome)
      (hhandles : ctx'.handles = ctx.handles) (hdhcp : ctx'.dhcp = ctx.dhcp)
      (hnext : ctx'.nextId = ctx.nextId) : Audit ctx ctx' op
  /-- A socket is added and registered. -/
  | register {op : CtxOp S} (x : Socket S) (hop : op.isOpen = true) (h : ctx' = (ctx.openSocket x).2) :
      Audit ctx ctx' op
  /-- A registered socket is dropped. -/
  | unregister {op : CtxOp S} {id : UInt32} {sh : SocketHandle} {x : Socket S}
      (he : ctx.entryAt id = some (sh, x)) (h : ctx' = ctx.unregister id sh) : Audit ctx ctx' op
  /-- A DHCP client is started. -/
  | lease {op : CtxOp S} (hnone : ctx.dhcp = none)
      (h : ctx' = { ctx with
        sockets := (SocketSet.add ctx.sockets .dhcpv4).2
        dhcp := some (SocketSet.add ctx.sockets .dhcpv4).1 }) : Audit ctx ctx' op
  /-- The DHCP client is forgotten. -/
  | forget (ipv4Be prefixLen gwBe : UInt32) (hsockets : ctx'.sockets = ctx.sockets)
      (hhandles : ctx'.handles = ctx.handles) (hdhcp : ctx'.dhcp = none) (hnext : ctx'.nextId = ctx.nextId) :
      Audit ctx ctx' (.setStatic ipv4Be prefixLen gwBe)

variable {ctx ctx' : IfaceCtx S} {op : CtxOp S}

theorem Audit.refl : Audit ctx ctx op := .keep (fun _ => rfl) rfl rfl rfl

theorem Audit.panic : Audit ctx ctx.panic op := .keep (fun _ => rfl) rfl rfl rfl

/-- A call on a socket in place. -/
theorem Audit.setSocket (sh : SocketHandle) (x : Socket S) : Audit ctx (ctx.setSocket sh x) op := by
  refine .keep (fun sh' => ?_) rfl rfl rfl
  rw [IfaceCtx.setSocket, SocketSet.lookup_replace]
  split_ifs with hsh
  · rw [hsh, Option.isSome_map]
  · rfl

theorem audit_close (close : Socket S → Option (Socket S)) (id : UInt32) :
    Audit ctx (ctx.closeSocket id close) op := by
  obtain hc | hc | ⟨sh, x, x', he, -, hc⟩ := ctx.closeSocket_cases id close
  · rw [hc]
    exact .refl
  · rw [hc]
    exact .panic
  · exact .unregister he hc

/-- A change in place of the sockets of a context. -/
theorem isSome_lookup_of_kinds {set set' : SocketSet S} {sh : SocketHandle}
    (h : (set'.lookup sh).map Socket.kind? = (set.lookup sh).map Socket.kind?) :
    (set'.lookup sh).isSome = (set.lookup sh).isSome := by
  have := congrArg Option.isSome h
  rwa [Option.isSome_map, Option.isSome_map] at this

theorem audit_poll {net : NetPoll S} (hnet : net.InPlace) (ev : Option DhcpEvent) :
    Audit ctx (ctx.poll net ev) op := by
  have hsome := fun sh => isSome_lookup_of_kinds (hnet (ctx.dev, ctx.sockets) sh)
  obtain ⟨-, he⟩ | ⟨-, -, he⟩ | ⟨-, he⟩ := ctx.poll_cases net ev
  · rw [he]
    rcases ev with _ | ⟨addr, hlen, _ | gw⟩ | _
    · exact .keep hsome rfl rfl rfl
    · exact .keep hsome rfl rfl rfl
    · exact .keep hsome rfl rfl rfl
    · exact .keep hsome rfl rfl rfl
  · rw [he]
    exact .keep hsome rfl rfl rfl
  · rw [he]
    exact .keep hsome rfl rfl rfl

theorem audit_setStatic (ipv4Be prefixLen gwBe : UInt32) :
    Audit ctx ((CtxOp.setStatic ipv4Be prefixLen gwBe).run ctx) (.setStatic ipv4Be prefixLen gwBe) := by
  rw [CtxOp.run, smoltcpIfaceSetStatic]
  dsimp only
  split_ifs
  · exact .forget _ _ _ rfl rfl rfl rfl
  · exact .forget _ _ _ rfl rfl rfl rfl
  · exact .forget _ _ _ rfl rfl rfl rfl

/-! ### A lookup -/

theorem NetPoll.InPlace.inPlace {net : NetPoll S} (h : net.InPlace) (ctx : IfaceCtx S) :
    IfaceCtx.InPlace ctx (ctx.pollNet net) := ⟨rfl, rfl, rfl, h (ctx.dev, ctx.sockets)⟩

/-- The receive loop ends at the deadline, if not before. -/
theorem isSome_result_resolveLoop (sh : SocketHandle) (id : UInt16) {deadline : ℤ}
    {turns : List (ResolveTurn S)} (h : ∃ t ∈ turns, deadline ≤ t.now) (ctx : IfaceCtx S) :
    (resolveLoop sh id deadline turns ctx).result.isSome = true := by
  induction turns generalizing ctx with
  | nil =>
    obtain ⟨t, ht, -⟩ := h
    exact absurd ht List.not_mem_nil
  | cons t ts ih =>
    have hrest : ∀ ctx' : IfaceCtx S, (if deadline ≤ t.now then ⟨some none, [], ctx'⟩
        else resolveLoop sh id deadline ts ctx' : Resolving S).result.isSome = true := by
      intro ctx'
      split_ifs with hnow
      · rfl
      · refine ih ?_ ctx'
        obtain ⟨t', ht', hle⟩ := h
        obtain rfl | ht' := List.mem_cons.mp ht'
        · exact absurd hle hnow
        · exact ⟨t', ht', hle⟩
    rw [resolveLoop]
    rcases hs : (t.poll ctx).sockets.lookup sh with _ | x | s | _
    · rfl
    · rfl
    · simp only
      rcases (S.udp.recvSlice s 512).1 with _ | ⟨data, src⟩
      · exact hrest _
      · rcases hparse : parseAResponse data id with e | _ | b
        · simp only [hparse]
          rfl
        · simp only [hparse]
          exact hrest _
        · simp only [hparse]
          rfl
    · rfl

/-- …and leaves the DHCP client alone. -/
theorem dhcp_resolveLoop (sh : SocketHandle) (id : UInt16) (deadline : ℤ) {turns : List (ResolveTurn S)}
    (h : ∀ t ∈ turns, ∀ ctx, (t.poll ctx).dhcp = ctx.dhcp) (ctx : IfaceCtx S) :
    (resolveLoop sh id deadline turns ctx).ctx.dhcp = ctx.dhcp := by
  induction turns generalizing ctx with
  | nil => rfl
  | cons t ts ih =>
    have hpoll := h t List.mem_cons_self ctx
    have hrest : ∀ ctx' : IfaceCtx S, ctx'.dhcp = ctx.dhcp → (if deadline ≤ t.now then ⟨some none, [], ctx'⟩
        else resolveLoop sh id deadline ts ctx' : Resolving S).ctx.dhcp = ctx.dhcp := by
      intro ctx' hctx'
      split_ifs with hnow
      · exact hctx'
      · exact (ih (fun t' ht' => h t' (List.mem_cons_of_mem t ht')) ctx').trans hctx'
    rw [resolveLoop]
    rcases hs : (t.poll ctx).sockets.lookup sh with _ | x | s | _
    · exact hpoll
    · exact hpoll
    · simp only
      rcases (S.udp.recvSlice s 512).1 with _ | ⟨data, src⟩
      · exact hrest _ hpoll
      · rcases hparse : parseAResponse data id with e | _ | b
        · simp only [hparse]
          exact hpoll
        · simp only [hparse]
          exact hrest _ hpoll
        · simp only [hparse]
          exact hpoll
    · exact hpoll

/-- A socket that was lent out and taken back leaves the inventory as it was. -/
theorem Lent.audit_removeSocket (h : Lent (S.slot ctx.sockets.keys) ctx ctx')
    (hdhcp : ctx'.dhcp = ctx.dhcp) : Audit ctx (ctx'.removeSocket (S.slot ctx.sockets.keys)) op := by
  obtain ⟨x, hx⟩ := h.lent
  rw [removeSocket, hx, Option.isSome_some, if_pos rfl]
  refine .keep (fun sh => ?_) h.handles hdhcp h.nextId
  by_cases hsh : sh = S.slot ctx.sockets.keys
  · subst hsh
    rw [AList.lookup_erase, SocketSet.lookup_slot]
  · rw [AList.lookup_erase_ne hsh]
    exact isSome_lookup_of_kinds (h.kinds sh hsh)

theorem audit_resolve (q : ResolveCall S) : Audit ctx (q.run ctx).ctx op := by
  rw [ResolveCall.run, smoltcpResolve]
  rcases q.name.toStr with _ | cs
  · exact .refl
  rcases hquad : parseIpv4Addr cs with _ | addr
  · simp only [hquad]
    rcases querySocket S cs q.serverBe q.idRand q.portRand with _ | sock
    · exact .refl
    have hturns : ∀ t ∈ q.turns, t.InPlace := by
      intro t ht ctx
      obtain ⟨net, hnet, heq⟩ := q.polls t ht
      rw [heq]
      exact hnet.inPlace ctx
    have hlent := lent_resolveLoop (queryId q.idRand) (q.start + 1000 * q.timeoutMs.toNat) hturns
      (Lent.add ctx sock)
    have hclient : ∀ t ∈ q.turns, ∀ ctx, (t.poll ctx).dhcp = ctx.dhcp := by
      intro t ht ctx
      obtain ⟨net, -, heq⟩ := q.polls t ht
      rw [heq]
      rfl
    have hdhcp := dhcp_resolveLoop (S.slot ctx.sockets.keys) (queryId q.idRand)
      (q.start + 1000 * q.timeoutMs.toNat) hclient
      { ctx with sockets := (SocketSet.add ctx.sockets (.udp sock)).2 }
    obtain ⟨r, hr⟩ := Option.isSome_iff_exists.mp
      (isSome_result_resolveLoop (S.slot ctx.sockets.keys) (queryId q.idRand) q.ends
        { ctx with sockets := (SocketSet.add ctx.sockets (.udp sock)).2 })
    simp only [awaitAnswer, SocketSet.add] at hr hlent hdhcp ⊢
    rw [hr]
    rcases r with _ | addr
    · exact hlent.audit_removeSocket hdhcp
    · exact hlent.audit_removeSocket hdhcp
  · simp only [hquad]
    exact .refl

/-- **Every call is one of the five.** -/
theorem audit_run (op : CtxOp S) (ctx : IfaceCtx S) : Audit ctx (op.run ctx) op := by
  cases op with
  | tcpOpen => exact .register _ rfl rfl
  | udpOpen localPort =>
    rw [CtxOp.run, smoltcpUdpOpen]
    split_ifs
    · exact .register _ rfl rfl
    · rcases S.udp.bind S.udp.new localPort with _ | x
      · exact .refl
      · exact .register _ rfl rfl
  | tcpClose id => exact audit_close _ id
  | udpClose id => exact audit_close _ id
  | tcp id f =>
    rw [CtxOp.run]
    obtain hc | hc | ⟨sh, x, -, hc⟩ := ctx.withTcp_cases id () f
    · rw [hc]
      exact .refl
    · rw [hc]
      exact .panic
    · rw [hc]
      exact .setSocket _ _
  | udp id f =>
    rw [CtxOp.run]
    obtain hc | hc | ⟨sh, x, -, hc⟩ := ctx.withUdp_cases id () f
    · rw [hc]
      exact .refl
    · rw [hc]
      exact .panic
    · rw [hc]
      exact .setSocket _ _
  | resolve q => exact audit_resolve q
  | enableDhcp =>
    rw [CtxOp.run, smoltcpIfaceEnableDhcp]
    rcases hd : ctx.dhcp with _ | dh
    · exact .lease hd rfl
    · exact .refl
  | setStatic ipv4Be prefixLen gwBe => exact audit_setStatic ipv4Be prefixLen gwBe
  | poll net h ev => exact audit_poll h ev

/-! ## Runs -/

/-- This many more sockets can be opened before an id is drawn twice. -/
structure Room (ctx : IfaceCtx S) (n : ℕ) : Prop where
  room : ctx.nextId.toNat + n < 2 ^ 32
  below : ∀ id ∈ ctx.handles, id.toNat < ctx.nextId.toNat

theorem Room.mono {n m : ℕ} (h : ctx.Room n) (hm : m ≤ n) : ctx.Room m :=
  ⟨by have := h.room; omega, h.below⟩

theorem Room.nextId_notMem {n : ℕ} (h : ctx.Room n) : ctx.nextId ∉ ctx.handles := fun hmem =>
  lt_irrefl _ (h.below _ hmem)

/-- A call uses up one id if it opens a socket. -/
theorem Audit.room {n : ℕ} (h : Audit ctx ctx' op) (hr : ctx.Room (n + op.isOpen.toNat)) :
    ctx'.Room n := by
  have hless : ctx.Room n := hr.mono (Nat.le_add_right ..)
  cases h with
  | keep _ hhandles _ hnext => exact ⟨hnext ▸ hless.room, hhandles ▸ hnext ▸ hless.below⟩
  | register x hop hctx =>
    subst hctx
    have hroom := hr.room
    rw [hop, Bool.toNat_true] at hroom
    have hnext : (ctx.openSocket x).2.nextId.toNat = ctx.nextId.toNat + 1 :=
      toNat_max_add_one (n := ctx.nextId) (by omega)
    refine ⟨by rw [hnext]; omega, fun id hid => ?_⟩
    rw [hnext]
    obtain rfl | hid := (AList.mem_insert _).mp hid
    · exact Nat.lt_succ_self _
    · exact Nat.lt_succ_of_lt (hr.below id hid)
  | unregister he hctx =>
    subst hctx
    exact ⟨hless.room, fun id hid => hless.below id (AList.mem_erase.mp hid).2⟩
  | lease _ hctx =>
    subst hctx
    exact ⟨hless.room, hless.below⟩
  | forget _ _ _ _ hhandles _ hnext => exact ⟨hnext ▸ hless.room, hhandles ▸ hnext ▸ hless.below⟩

/-- What `smoltcp_iface_set_static` does to the inventory. -/
theorem fields_setStatic (ctx : IfaceCtx S) (ipv4Be prefixLen gwBe : UInt32) :
    ((CtxOp.setStatic ipv4Be prefixLen gwBe).run ctx).sockets = ctx.sockets ∧
      ((CtxOp.setStatic ipv4Be prefixLen gwBe).run ctx).named
        = ctx.handles.entries.map Sigma.snd := by
  have hnamed : ∀ {ctx' : IfaceCtx S}, ctx'.handles = ctx.handles → ctx'.dhcp = none →
      ctx'.named = ctx.handles.entries.map Sigma.snd := by
    intro ctx' hh hd
    rw [named, hh, hd, Option.toList_none, List.append_nil]
  rw [CtxOp.run, smoltcpIfaceSetStatic]
  dsimp only
  split_ifs
  · exact ⟨rfl, hnamed rfl rfl⟩
  · exact ⟨rfl, hnamed rfl rfl⟩
  · exact ⟨rfl, hnamed rfl rfl⟩

section Steps

variable (hexact : ctx.Exact)

include hexact

theorem Exact.keep (hsockets : ∀ sh, (ctx'.sockets.lookup sh).isSome = (ctx.sockets.lookup sh).isSome)
    (hnamed : ctx'.named = ctx.named) : ctx'.Exact := by
  rw [Exact, hnamed]
  refine ((List.perm_ext_iff_of_nodup ctx'.sockets.keys_nodup ctx.sockets.keys_nodup).mpr
    fun sh => ?_).trans hexact
  rw [← AList.mem_keys, ← AList.mem_keys, ← AList.lookup_isSome, ← AList.lookup_isSome, hsockets]

/-- A socket is added where the set has none. -/
theorem Exact.add (x : Socket S) :
    (SocketSet.add ctx.sockets x).2.keys.Perm (S.slot ctx.sockets.keys :: ctx.named) := by
  have hfresh : S.slot ctx.sockets.keys ∉ ctx.sockets.keys := S.slot_fresh _
  rw [SocketSet.add, AList.keys_insert, List.erase_of_not_mem hfresh]
  exact hexact.cons _

theorem Exact.register {n : ℕ} (hr : ctx.Room n) (x : Socket S) : (ctx.openSocket x).2.Exact := by
  have hnamed : (ctx.openSocket x).2.named = S.slot ctx.sockets.keys :: ctx.named := by
    have hentries := AList.entries_insert_of_notMem (b := S.slot ctx.sockets.keys) hr.nextId_notMem
    change (AList.insert ctx.nextId (S.slot ctx.sockets.keys) ctx.handles).entries.map Sigma.snd
      ++ ctx.dhcp.toList = _
    rw [hentries]
    rfl
  rw [Exact, hnamed]
  exact Exact.add hexact x

theorem Exact.unregister {id : UInt32} {sh : SocketHandle} {x : Socket S}
    (he : ctx.entryAt id = some (sh, x)) : (ctx.unregister id sh).Exact := by
  obtain ⟨hl, hx⟩ := entryAt_eq_some.mp he
  -- The entry of the id, apart from the rest of the map.
  have hmem : id ∈ ctx.handles.entries.keys := AList.lookup_isSome.mp (Option.isSome_of_eq_some hl)
  obtain ⟨sh', l₁, l₂, hnot, hentries, herase⟩ := List.exists_of_kerase hmem
  have hsh : sh' = sh := by
    have hlook : List.dlookup id ctx.handles.entries = some sh := hl
    rw [hentries, List.dlookup_append, List.dlookup_eq_none.mpr hnot, Option.none_or,
      List.dlookup_cons_eq] at hlook
    exact Option.some.inj hlook
  subst hsh
  have hnamed : ctx.named.Perm (sh' :: (ctx.unregister id sh').named) := by
    have hrest : (ctx.unregister id sh').named
        = (l₁ ++ l₂).map Sigma.snd ++ ctx.dhcp.toList := by
      rw [← herase]
      rfl
    rw [hrest, named, hentries, List.map_append, List.map_cons, List.map_append]
    simp only [List.append_assoc, List.cons_append]
    exact List.perm_middle
  have hkey : sh' ∈ ctx.sockets.keys := AList.mem_keys.mp
    (AList.lookup_isSome.mp (Option.isSome_of_eq_some hx))
  have hkeys : ctx.sockets.keys.Perm (sh' :: (ctx.unregister id sh').sockets.keys) := by
    change ctx.sockets.keys.Perm (sh' :: (ctx.sockets.erase sh').keys)
    rw [AList.keys_erase]
    exact List.perm_cons_erase hkey
  exact (hkeys.symm.trans (hexact.trans hnamed)).cons_inv

theorem Exact.lease (hnone : ctx.dhcp = none) :
    Exact { ctx with
      sockets := (SocketSet.add ctx.sockets .dhcpv4).2
      dhcp := some (SocketSet.add ctx.sockets .dhcpv4).1 } := by
  refine (Exact.add hexact .dhcpv4).trans ?_
  simp only [named, hnone, Option.toList_none, List.append_nil, Option.toList_some]
  exact (List.perm_append_singleton _ _).symm

end Steps

/-- **What one call needs**: the inventory stays exact unless a DHCP client is forgotten. -/
theorem exact_run_iff {n : ℕ} (hr : ctx.Room n) (hexact : ctx.Exact) (op : CtxOp S) :
    (op.run ctx).Exact ↔
      ∀ ipv4Be prefixLen gwBe, op = .setStatic ipv4Be prefixLen gwBe → ctx.dhcp = none := by
  constructor
  · rintro h ipv4Be prefixLen gwBe rfl
    obtain ⟨hsockets, hnamed⟩ := fields_setStatic ctx ipv4Be prefixLen gwBe
    rw [Exact, hsockets, hnamed] at h
    have hlen := (hexact.symm.trans h).length_eq
    rw [named, List.length_append, Nat.add_eq_left, List.length_eq_zero_iff,
      Option.toList_eq_nil_iff] at hlen
    exact hlen
  · intro hkept
    obtain ⟨hsockets, hhandles, hdhcp, -⟩ | ⟨x, -, h⟩ | ⟨he, h⟩ | ⟨hnone, h⟩ |
      ⟨ipv4Be, prefixLen, gwBe, hsockets, hhandles, hdhcp, -⟩ := audit_run op ctx
    · exact Exact.keep hexact hsockets (by rw [named, named, hhandles, hdhcp])
    · rw [h]
      exact Exact.register hexact hr x
    · rw [h]
      exact Exact.unregister hexact he
    · rw [h]
      exact Exact.lease hexact hnone
    · have hnone := hkept ipv4Be prefixLen gwBe rfl
      refine Exact.keep hexact (fun sh => by rw [hsockets]) ?_
      rw [named, named, hhandles, hdhcp, hnone]

end IfaceCtx

/-- The inventory is exact in every state of a run. -/
def ExactThroughout : List (CtxOp S) → IfaceCtx S → Prop
  | [], ctx => ctx.Exact
  | op :: ops, ctx => ctx.Exact ∧ ExactThroughout ops (op.run ctx)

/-- No static address is set while a DHCP client runs. -/
def NoDhcpForgotten : List (CtxOp S) → IfaceCtx S → Prop
  | [], _ => True
  | op :: ops, ctx =>
    (∀ ipv4Be prefixLen gwBe, op = .setStatic ipv4Be prefixLen gwBe → ctx.dhcp = none) ∧
      NoDhcpForgotten ops (op.run ctx)

theorem ExactThroughout.head {ops : List (CtxOp S)} {ctx : IfaceCtx S} (h : ExactThroughout ops ctx) :
    ctx.Exact := by
  cases ops with
  | nil => exact h
  | cons op ops => exact h.1

theorem IfaceCtx.Exact.exactThroughout_iff {ops : List (CtxOp S)} {ctx : IfaceCtx S} (h : ctx.Exact)
    (hr : ctx.Room (ops.countP CtxOp.isOpen)) : ExactThroughout ops ctx ↔ NoDhcpForgotten ops ctx := by
  induction ops generalizing ctx with
  | nil => exact iff_of_true h trivial
  | cons op ops ih =>
    have hop := IfaceCtx.exact_run_iff hr h op
    have hroom : (op.run ctx).Room (ops.countP CtxOp.isOpen) := by
      refine (IfaceCtx.audit_run op ctx).room ?_
      rw [List.countP_cons] at hr
      cases hopen : op.isOpen
      · simpa [hopen] using hr
      · simpa [hopen] using hr
    rw [ExactThroughout, NoDhcpForgotten]
    constructor
    · rintro ⟨-, hrest⟩
      exact ⟨hop.mp hrest.head, (ih hrest.head hroom).mp hrest⟩
    · rintro ⟨hkept, hrest⟩
      have hnext := hop.mpr hkept
      exact ⟨h, (ih hnext hroom).mpr hrest⟩

/-- **From start-up, with fewer than `2 ^ 32 - 1` opens, the set holds exactly what the fields name as long
as no static address is set while a DHCP client runs.** -/
theorem exactThroughout_new_iff (n : ℕ) (mac : Fin 6 → UInt8) (ops : List (CtxOp S))
    (hopens : ops.countP CtxOp.isOpen < 2 ^ 32 - 1) :
    ExactThroughout ops (.new n mac) ↔ NoDhcpForgotten ops (.new n mac) := by
  refine IfaceCtx.Exact.exactThroughout_iff (List.Perm.refl []) ⟨?_, fun id hid => ?_⟩
  · change 1 + _ < _
    omega
  · exact absurd hid (AList.notMem_empty id)

/-- A socket is opened and closed beside a DHCP client. -/
theorem exactThroughout_lease :
    ExactThroughout [.enableDhcp, .tcpOpen, .tcpClose 1] (.new 0 fun _ => 0 : IfaceCtx .reference) :=
  (exactThroughout_new_iff 0 _ _ (by decide)).mpr
    ⟨(fun _ _ _ h => nomatch h), (fun _ _ _ h => nomatch h), (fun _ _ _ h => nomatch h), trivial⟩

/-- **A static address leaves the DHCP client in the set, and nothing names it.** -/
theorem dhcp_client_forgotten : ¬ ExactThroughout [.enableDhcp, .setStatic 0x0200000A 24 0]
    (.new 0 fun _ => 0 : IfaceCtx .reference) := by
  rintro ⟨-, -, hexact⟩
  exact absurd hexact.length_eq (by decide)

end EspSmoltcp
