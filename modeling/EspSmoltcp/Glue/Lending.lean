import EspSmoltcp.Glue.Registry
import EspSmoltcp.Glue.Resolver

/-!
# Glue/Lending — the socket a lookup borrows

`smoltcp_resolve` adds a UDP socket to the `SocketSet` without giving it an id, and takes it out again by
its handle.  So no id ever stands for it: whatever a lookup does, and however far it gets, every id stands
for a socket of the type it stood for (`calm_smoltcpResolve`).
-/

namespace EspSmoltcp

variable {S : Smoltcp}

/-! ## A borrowed socket -/

namespace IfaceCtx

/-- A change of the sockets in place: none comes, none goes and none changes its type. -/
structure InPlace (ctx ctx' : IfaceCtx S) : Prop where
  handles : ctx'.handles = ctx.handles
  nextId : ctx'.nextId = ctx.nextId
  panicked : ctx'.panicked = ctx.panicked
  kinds : ∀ sh, (ctx'.sockets.lookup sh).map Socket.kind? = (ctx.sockets.lookup sh).map Socket.kind?

/-- The context with a UDP socket lent out at `sh`, and nothing else changed but in place. -/
structure Lent (sh : SocketHandle) (ctx ctx' : IfaceCtx S) : Prop where
  handles : ctx'.handles = ctx.handles
  nextId : ctx'.nextId = ctx.nextId
  panicked : ctx'.panicked = ctx.panicked
  kinds : ∀ sh', sh' ≠ sh →
    (ctx'.sockets.lookup sh').map Socket.kind? = (ctx.sockets.lookup sh').map Socket.kind?
  lent : ∃ x, ctx'.sockets.lookup sh = some (.udp x)

namespace Lent

variable {ctx ctx' ctx'' : IfaceCtx S} {sh : SocketHandle}

/-- `sockets.add` of a UDP socket. -/
theorem add (ctx : IfaceCtx S) (x : S.udp.Socket) :
    Lent (SocketSet.add ctx.sockets (.udp x)).1 ctx
      { ctx with sockets := (SocketSet.add ctx.sockets (.udp x)).2 } where
  handles := rfl
  nextId := rfl
  panicked := rfl
  kinds _ hne := congrArg (Option.map _) (AList.lookup_insert_ne hne)
  lent := ⟨x, AList.lookup_insert _⟩

theorem inPlace (h : Lent sh ctx ctx') (h' : InPlace ctx' ctx'') : Lent sh ctx ctx'' where
  handles := h'.handles.trans h.handles
  nextId := h'.nextId.trans h.nextId
  panicked := h'.panicked.trans h.panicked
  kinds sh' hne := (h'.kinds sh').trans (h.kinds sh' hne)
  lent := by
    obtain ⟨x, hx⟩ := h.lent
    have hk := h'.kinds sh
    rw [hx] at hk
    rcases hs : ctx''.sockets.lookup sh with _ | y | y | _ <;> simp [hs, Socket.kind?] at hk
    exact ⟨y, rfl⟩

/-- A call on the borrowed socket. -/
theorem setSocket (h : Lent sh ctx ctx') (x : S.udp.Socket) :
    Lent sh ctx (ctx'.setSocket sh (.udp x)) where
  handles := h.handles
  nextId := h.nextId
  panicked := h.panicked
  kinds sh' hne := by
    rw [IfaceCtx.setSocket, SocketSet.lookup_replace, if_neg hne]
    exact h.kinds sh' hne
  lent := by
    obtain ⟨y, hy⟩ := h.lent
    refine ⟨x, ?_⟩
    rw [IfaceCtx.setSocket, SocketSet.lookup_replace, if_pos rfl, hy]
    rfl

end Lent

/-- A context with the same ids, whose registered handles keep their types, is calm. -/
theorem Wf.calm_of_kinds {ctx ctx' : IfaceCtx S} (h : ctx.Wf) (hhandles : ctx'.handles = ctx.handles)
    (hnext : ctx'.nextId = ctx.nextId) (hkinds : ∀ id sh, ctx.lookup id = some sh →
      (ctx'.sockets.lookup sh).map Socket.kind? = (ctx.sockets.lookup sh).map Socket.kind?) :
    Calm ctx ctx' := by
  have hlook : ctx'.lookup = ctx.lookup := by
    funext id
    rw [lookup, lookup, hhandles]
  refine ⟨⟨hnext ▸ h.counter, ?_, ?_, ?_⟩, hnext, ?_⟩
  · rw [hlook, hnext]
    exact h.below
  · rw [hlook]
    intro id sh hl
    obtain ⟨x, hx, hk⟩ := h.live id sh hl
    have hsame := hkinds id sh hl
    rw [hx] at hsame
    obtain ⟨y, hy, hyk⟩ := Option.map_eq_some_iff.mp hsame
    exact ⟨y, hy, hyk ▸ hk⟩
  · rw [hlook]
    exact h.inj
  · funext id
    rw [kindAt, kindAt, entryAt, entryAt, hlook]
    rcases hl : ctx.lookup id with _ | sh
    · rfl
    · have hjoin : ∀ o : Option (Socket S), (o.map (sh, ·)).bind (·.2.kind?)
          = (o.map Socket.kind?).join := by
        rintro (_ | _)
        · rfl
        · rfl
      rw [Option.bind_some, Option.bind_some, hjoin, hjoin, hkinds id sh hl]

/-- **No id stands for a borrowed socket.** -/
theorem Wf.calm_lent {ctx ctx' : IfaceCtx S} (h : ctx.Wf) {sh : SocketHandle}
    (hsh : ∀ id, ctx.lookup id ≠ some sh) (hl : Lent sh ctx ctx') : Calm ctx ctx' := by
  refine h.calm_of_kinds hl.handles hl.nextId fun id sh' hid => hl.kinds sh' ?_
  rintro rfl
  exact hsh id hid

/-- It goes back by its handle. -/
theorem Wf.calm_removeSocket {ctx ctx' : IfaceCtx S} (h : ctx.Wf) {sh : SocketHandle}
    (hsh : ∀ id, ctx.lookup id ≠ some sh) (hl : Lent sh ctx ctx') :
    Calm ctx (ctx'.removeSocket sh) ∧ (ctx'.removeSocket sh).panicked = ctx.panicked := by
  obtain ⟨x, hx⟩ := hl.lent
  rw [removeSocket, hx, Option.isSome_some, if_pos rfl]
  refine ⟨h.calm_of_kinds hl.handles hl.nextId fun id sh' hid => ?_, hl.panicked⟩
  have hne : sh' ≠ sh := by
    rintro rfl
    exact hsh id hid
  rw [AList.lookup_erase_ne hne]
  exact hl.kinds sh' hne

end IfaceCtx

/-! ## A lookup -/

/-- `Interface::poll` works on the sockets in place. -/
def ResolveTurn.InPlace (t : ResolveTurn S) : Prop := ∀ ctx, IfaceCtx.InPlace ctx (t.poll ctx)

variable {ctx ctx' : IfaceCtx S}

/-- The receive loop finds the socket it borrowed, in every turn. -/
theorem lent_resolveLoop {sh : SocketHandle} (id : UInt16) (deadline : ℤ) {turns : List (ResolveTurn S)}
    (hturns : ∀ t ∈ turns, t.InPlace) (h : IfaceCtx.Lent sh ctx ctx') :
    IfaceCtx.Lent sh ctx (resolveLoop sh id deadline turns ctx').ctx := by
  induction turns generalizing ctx' with
  | nil => exact h
  | cons t ts ih =>
    have hpoll := h.inPlace (hturns t List.mem_cons_self ctx')
    obtain ⟨s, hs⟩ := hpoll.lent
    have hrecv := hpoll.setSocket (S.udp.recvSlice s 512).2
    rw [resolveLoop]
    simp only [hs]
    generalize hrest : (if deadline ≤ t.now then _ else _ : Resolving S) = rest
    have hctx : IfaceCtx.Lent sh ctx rest.ctx := by
      rw [← hrest]
      split_ifs
      · exact hrecv
      · exact ih (fun t' ht' => hturns t' (List.mem_cons_of_mem t ht')) hrecv
    rcases (S.udp.recvSlice s 512).1 with _ | ⟨data, src⟩
    · exact hctx
    · obtain ⟨_ | addr, hr⟩ := exists_parseAResponse data id
      · simp only [hr]
        exact hctx
      · simp only [hr]
        exact hrecv

theorem calm_awaitAnswer (h : ctx.Wf) (sock : S.udp.Socket) (id : UInt16) (deadline : ℤ) (outBe : UInt32)
    {turns : List (ResolveTurn S)} (hturns : ∀ t ∈ turns, t.InPlace) :
    IfaceCtx.Calm ctx (awaitAnswer ctx sock id deadline outBe turns).ctx ∧
      (awaitAnswer ctx sock id deadline outBe turns).ctx.panicked = ctx.panicked := by
  have hsh : ∀ id, ctx.lookup id ≠ some (SocketSet.add ctx.sockets (.udp sock)).1 :=
    fun _ hid => h.ne_slot hid rfl
  have hlent := lent_resolveLoop id deadline hturns (IfaceCtx.Lent.add ctx sock)
  rw [awaitAnswer]
  rcases hres : (resolveLoop (SocketSet.add ctx.sockets (.udp sock)).1 id deadline turns
      { ctx with sockets := (SocketSet.add ctx.sockets (.udp sock)).2 }).result with _ | _ | addr
  · simp only [hres]
    exact ⟨h.calm_lent hsh hlent, hlent.panicked⟩
  · simp only [hres]
    exact h.calm_removeSocket hsh hlent
  · simp only [hres]
    exact h.calm_removeSocket hsh hlent

/-- **A lookup leaves every id as it was, and panics nowhere.** -/
theorem calm_smoltcpResolve (h : ctx.Wf) (name : CStr) (serverBe timeoutMs outBe idRand portRand : UInt32)
    (start : ℤ) {turns : List (ResolveTurn S)} (hturns : ∀ t ∈ turns, t.InPlace) :
    IfaceCtx.Calm ctx (smoltcpResolve ctx name serverBe timeoutMs outBe idRand portRand start turns).ctx ∧
      (smoltcpResolve ctx name serverBe timeoutMs outBe idRand portRand start turns).ctx.panicked
        = ctx.panicked := by
  rw [smoltcpResolve]
  rcases name.toStr with _ | cs
  · exact ⟨h.calm_refl, rfl⟩
  rcases hquad : parseIpv4Addr cs with _ | addr
  · simp only [hquad]
    rcases querySocket S cs serverBe idRand portRand with _ | sock
    · exact ⟨h.calm_refl, rfl⟩
    · exact calm_awaitAnswer h sock _ _ _ hturns
  · simp only [hquad]
    exact ⟨h.calm_refl, trivial⟩

end EspSmoltcp
