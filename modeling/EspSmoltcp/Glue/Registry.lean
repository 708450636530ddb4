import EspSmoltcp.Glue.Iface

/-!
# Glue/Registry — the id map of an `IfaceCtx`, read as a map to sockets

The C side only ever names a socket by its id.  `entryAt` is what an id stands for: the handle it is
registered under and the socket there.  On a well-formed context (`Wf`) the operations of the Rust
core are updates of that map at one id — an open adds an entry at the counter, a close drops one, a
call on a socket replaces one — and they keep the context well formed.
-/

namespace EspSmoltcp

variable {S : Smoltcp} {α : Type}

/-- `smoltcp_tcp_close` accepts the TCP sockets… -/
theorem Socket.isSome_closeTcp (x : Socket S) : x.closeTcp.isSome = true ↔ x.kind? = some .tcp := by
  cases x <;> simp [closeTcp, kind?]

/-- …and `smoltcp_udp_close` the UDP ones. -/
theorem Socket.isSome_closeUdp (x : Socket S) : x.closeUdp.isSome = true ↔ x.kind? = some .udp := by
  cases x <;> simp [closeUdp, kind?]

namespace IfaceCtx

/-- What an id stands for. -/
def entryAt (ctx : IfaceCtx S) (id : UInt32) : Option (SocketHandle × Socket S) :=
  (ctx.lookup id).bind fun sh => (ctx.sockets.lookup sh).map (sh, ·)

/-- A registry in order: the registered ids lie below the counter and name live sockets, each its
own. -/
structure Wf (ctx : IfaceCtx S) : Prop where
  counter : 0 < ctx.nextId.toNat
  below : ∀ id sh, ctx.lookup id = some sh → 0 < id.toNat ∧ id.toNat < ctx.nextId.toNat
  live : ∀ id sh, ctx.lookup id = some sh →
    ∃ x, ctx.sockets.lookup sh = some x ∧ x.kind?.isSome = true
  inj : ∀ id id' sh, ctx.lookup id = some sh → ctx.lookup id' = some sh → id = id'

theorem wf_new (i : ℕ) (mac : Fin 6 → UInt8) : (new i mac : IfaceCtx S).Wf where
  counter := Nat.one_pos
  below _ _ h := by simp [lookup, new] at h
  live _ _ h := by simp [lookup, new] at h
  inj _ _ _ h := by simp [lookup, new] at h

theorem entryAt_eq_some {ctx : IfaceCtx S} {id : UInt32} {sh : SocketHandle} {x : Socket S} :
    ctx.entryAt id = some (sh, x) ↔ ctx.lookup id = some sh ∧ ctx.sockets.lookup sh = some x := by
  rw [entryAt, Option.bind_eq_some_iff]
  constructor
  · rintro ⟨sh', h, h'⟩
    obtain ⟨x', hx, he⟩ := Option.map_eq_some_iff.mp h'
    obtain ⟨rfl, rfl⟩ := Prod.mk.inj he
    exact ⟨h, hx⟩
  · rintro ⟨h, hx⟩
    exact ⟨sh, h, by rw [hx]; rfl⟩

/-- What an id stands for depends on its own handle only. -/
theorem entryAt_congr {ctx ctx' : IfaceCtx S} {id : UInt32} (hl : ctx'.lookup id = ctx.lookup id)
    (hs : ∀ sh, ctx.lookup id = some sh → ctx'.sockets.lookup sh = ctx.sockets.lookup sh) :
    ctx'.entryAt id = ctx.entryAt id := by
  rw [entryAt, entryAt, hl]
  cases h : ctx.lookup id with
  | none => rfl
  | some sh => rw [Option.bind_some, Option.bind_some, hs sh h]

theorem entryAt_of_lookup_none {ctx : IfaceCtx S} {id : UInt32} (h : ctx.lookup id = none) :
    ctx.entryAt id = none := by
  rw [entryAt, h]
  rfl

namespace Wf

variable {ctx : IfaceCtx S}

/-- On a well-formed context only unregistered ids stand for nothing. -/
theorem entryAt_eq_none (h : ctx.Wf) {id : UInt32} : ctx.entryAt id = none ↔ ctx.lookup id = none := by
  refine ⟨fun he => ?_, entryAt_of_lookup_none⟩
  by_contra hne
  obtain ⟨sh, hl⟩ := Option.ne_none_iff_exists'.mp hne
  obtain ⟨x, hx, -⟩ := h.live id sh hl
  rw [entryAt_eq_some.mpr ⟨hl, hx⟩] at he
  cases he

/-- Only a TCP or UDP socket is registered. -/
theorem kind_isSome (h : ctx.Wf) {id : UInt32} {sh : SocketHandle} {x : Socket S}
    (he : ctx.entryAt id = some (sh, x)) : x.kind?.isSome = true := by
  obtain ⟨hl, hx⟩ := entryAt_eq_some.mp he
  obtain ⟨x', hx', hk⟩ := h.live id sh hl
  rw [hx] at hx'
  obtain rfl := Option.some.inj hx'
  exact hk

theorem entryAt_zero (h : ctx.Wf) : ctx.entryAt 0 = none := by
  rw [h.entryAt_eq_none]
  by_contra hne
  obtain ⟨sh, hl⟩ := Option.ne_none_iff_exists'.mp hne
  exact absurd (h.below 0 sh hl).1 (by decide)

/-- The id the next open will use stands for nothing yet. -/
theorem entryAt_nextId (h : ctx.Wf) : ctx.entryAt ctx.nextId = none := by
  rw [h.entryAt_eq_none]
  by_contra hne
  obtain ⟨sh, hl⟩ := Option.ne_none_iff_exists'.mp hne
  exact absurd (h.below ctx.nextId sh hl).2 (lt_irrefl _)

/-- No registered id shares its handle with another. -/
theorem lookup_ne (h : ctx.Wf) {id id' : UInt32} {sh : SocketHandle} (hl : ctx.lookup id = some sh)
    (hne : id' ≠ id) : ctx.lookup id' ≠ some sh := fun hl' => hne (h.inj id' id sh hl' hl)

/-- The slot the next `add` takes is nobody's. -/
theorem ne_slot (h : ctx.Wf) {id : UInt32} {sh : SocketHandle} (hl : ctx.lookup id = some sh) :
    sh ≠ S.slot ctx.sockets.keys := by
  rintro rfl
  obtain ⟨x, hx, -⟩ := h.live id _ hl
  rw [ctx.sockets.lookup_slot] at hx
  cases hx

end Wf

/-! ## Replacing sockets -/

/-- The socket behind a handle is replaced. -/
def setSocket (ctx : IfaceCtx S) (sh : SocketHandle) (x : Socket S) : IfaceCtx S :=
  { ctx with sockets := ctx.sockets.replace sh x }

@[simp] theorem lookup_setSocket (ctx : IfaceCtx S) (sh : SocketHandle) (x : Socket S)
    (id : UInt32) : (ctx.setSocket sh x).lookup id = ctx.lookup id := rfl

theorem setSocket_self {ctx : IfaceCtx S} {sh : SocketHandle} {x : Socket S}
    (h : ctx.sockets.lookup sh = some x) : ctx.setSocket sh x = ctx := by
  rw [setSocket, SocketSet.replace_self h]

theorem Wf.setSocket {ctx : IfaceCtx S} (h : ctx.Wf) (sh : SocketHandle) {x : Socket S}
    (hk : x.kind?.isSome = true) : (ctx.setSocket sh x).Wf where
  counter := h.counter
  below := h.below
  live id sh' hl := by
    obtain ⟨x', hx', hk'⟩ := h.live id sh' hl
    rw [IfaceCtx.setSocket, SocketSet.lookup_replace]
    split_ifs with hsh
    · subst hsh
      exact ⟨x, by rw [hx']; rfl, hk⟩
    · exact ⟨x', hx', hk'⟩
  inj := h.inj

/-- Replacing the socket an id stands for changes nothing else. -/
theorem Wf.entryAt_setSocket {ctx : IfaceCtx S} (h : ctx.Wf) {id : UInt32} {sh : SocketHandle}
    (hl : ctx.lookup id = some sh) (x : Socket S) :
    (ctx.setSocket sh x).entryAt = Function.update ctx.entryAt id (some (sh, x)) := by
  funext id'
  by_cases hid : id' = id
  · subst hid
    obtain ⟨x', hx', -⟩ := h.live id' sh hl
    rw [Function.update_self, entryAt_eq_some]
    refine ⟨hl, ?_⟩
    rw [IfaceCtx.setSocket, SocketSet.lookup_replace, if_pos rfl, hx']
    rfl
  · rw [Function.update_of_ne hid]
    refine entryAt_congr rfl fun sh' hl' => ?_
    have hne : sh' ≠ sh := by
      rintro rfl
      exact h.lookup_ne hl hid hl'
    rw [IfaceCtx.setSocket, SocketSet.lookup_replace, if_neg hne]

@[simp] theorem entryAt_panic (ctx : IfaceCtx S) : ctx.panic.entryAt = ctx.entryAt := rfl

theorem Wf.panic {ctx : IfaceCtx S} (h : ctx.Wf) : ctx.panic.Wf :=
  ⟨h.counter, h.below, h.live, h.inj⟩

/-! ## Opening -/

theorem toNat_max_add_one {n : UInt32} (h : n.toNat + 1 < 2 ^ 32) :
    (max (n + 1) 1).toNat = n.toNat + 1 := by
  have hn : (n + 1).toNat = n.toNat + 1 := by
    rw [UInt32.toNat_add, UInt32.toNat_one, Nat.mod_eq_of_lt h]
  change (if n + 1 ≤ 1 then 1 else n + 1 : UInt32).toNat = n.toNat + 1
  split_ifs with hle
  · rw [UInt32.le_iff_toNat_le, hn, UInt32.toNat_one] at hle
    rw [UInt32.toNat_one]
    omega
  · exact hn

theorem lookup_openSocket (ctx : IfaceCtx S) (x : Socket S) :
    (ctx.openSocket x).2.lookup
      = Function.update ctx.lookup ctx.nextId (some (S.slot ctx.sockets.keys)) := by
  funext id
  by_cases hid : id = ctx.nextId
  · subst hid
    rw [Function.update_self]
    exact AList.lookup_insert _
  · rw [Function.update_of_ne hid]
    exact AList.lookup_insert_ne hid

/-- **An open adds one entry, at the counter.** -/
theorem Wf.entryAt_openSocket {ctx : IfaceCtx S} (h : ctx.Wf) (x : Socket S) :
    (ctx.openSocket x).2.entryAt
      = Function.update ctx.entryAt ctx.nextId (some (S.slot ctx.sockets.keys, x)) := by
  funext id
  by_cases hid : id = ctx.nextId
  · subst hid
    rw [Function.update_self, entryAt_eq_some, lookup_openSocket, Function.update_self]
    exact ⟨rfl, AList.lookup_insert _⟩
  · rw [Function.update_of_ne hid]
    refine entryAt_congr ?_ fun sh hl => AList.lookup_insert_ne ?_
    · rw [lookup_openSocket, Function.update_of_ne hid]
    · exact h.ne_slot hl

theorem Wf.openSocket {ctx : IfaceCtx S} (h : ctx.Wf) {x : Socket S} (hk : x.kind?.isSome = true)
    (hn : ctx.nextId.toNat + 1 < 2 ^ 32) : (ctx.openSocket x).2.Wf := by
  have hnext : (ctx.openSocket x).2.nextId.toNat = ctx.nextId.toNat + 1 := toNat_max_add_one hn
  -- An entry of the new map is the new one or an old one.
  have hcases : ∀ id sh, (ctx.openSocket x).2.lookup id = some sh →
      (id = ctx.nextId ∧ sh = S.slot ctx.sockets.keys) ∨
        (ctx.lookup id = some sh ∧ sh ≠ S.slot ctx.sockets.keys) := by
    intro id sh hl
    rw [lookup_openSocket] at hl
    by_cases hid : id = ctx.nextId
    · subst hid
      rw [Function.update_self] at hl
      exact .inl ⟨rfl, (Option.some.inj hl).symm⟩
    · rw [Function.update_of_ne hid] at hl
      exact .inr ⟨hl, h.ne_slot hl⟩
  refine ⟨by omega, fun id sh hl => ?_, fun id sh hl => ?_, fun id id' sh hl hl' => ?_⟩
  · rw [hnext]
    obtain ⟨rfl, -⟩ | ⟨hl, -⟩ := hcases id sh hl
    · exact ⟨h.counter, by omega⟩
    · have := h.below id sh hl
      omega
  · obtain ⟨-, rfl⟩ | ⟨hl, hne⟩ := hcases id sh hl
    · exact ⟨x, AList.lookup_insert _, hk⟩
    · obtain ⟨x', hx', hk'⟩ := h.live id sh hl
      exact ⟨x', (AList.lookup_insert_ne hne).trans hx', hk'⟩
  · obtain ⟨rfl, hsh⟩ | ⟨hl, hne⟩ := hcases id sh hl
    · obtain ⟨rfl, -⟩ | ⟨-, hne⟩ := hcases id' sh hl'
      · rfl
      · exact absurd hsh hne
    · obtain ⟨-, hsh⟩ | ⟨hl', -⟩ := hcases id' sh hl'
      · exact absurd hsh hne
      · exact h.inj id id' sh hl hl'

/-! ## Closing -/

/-- What a close of a registered socket leaves. -/
def unregister (ctx : IfaceCtx S) (id : UInt32) (sh : SocketHandle) : IfaceCtx S :=
  { ctx with sockets := ctx.sockets.erase sh, handles := ctx.handles.erase id }

theorem lookup_unregister (ctx : IfaceCtx S) (id : UInt32) (sh : SocketHandle) :
    (ctx.unregister id sh).lookup = Function.update ctx.lookup id none := by
  funext id'
  by_cases hid : id' = id
  · subst hid
    rw [Function.update_self]
    exact AList.lookup_erase _ _
  · rw [Function.update_of_ne hid]
    exact AList.lookup_erase_ne hid

/-- **A close drops one entry.** -/
theorem Wf.entryAt_unregister {ctx : IfaceCtx S} (h : ctx.Wf) {id : UInt32} {sh : SocketHandle}
    (hl : ctx.lookup id = some sh) :
    (ctx.unregister id sh).entryAt = Function.update ctx.entryAt id none := by
  funext id'
  have hlook := congrFun (ctx.lookup_unregister id sh) id'
  by_cases hid : id' = id
  · subst hid
    rw [Function.update_self] at hlook ⊢
    exact entryAt_of_lookup_none hlook
  · rw [Function.update_of_ne hid] at hlook ⊢
    refine entryAt_congr hlook fun sh' hl' => AList.lookup_erase_ne ?_
    rintro rfl
    exact h.lookup_ne hl hid hl'

theorem Wf.unregister {ctx : IfaceCtx S} (h : ctx.Wf) {id : UInt32} {sh : SocketHandle}
    (hl : ctx.lookup id = some sh) : (ctx.unregister id sh).Wf := by
  have hcases : ∀ id' sh', (ctx.unregister id sh).lookup id' = some sh' →
      id' ≠ id ∧ ctx.lookup id' = some sh' := by
    intro id' sh' hl'
    rw [lookup_unregister] at hl'
    by_cases hid : id' = id
    · subst hid
      rw [Function.update_self] at hl'
      cases hl'
    · rw [Function.update_of_ne hid] at hl'
      exact ⟨hid, hl'⟩
  refine ⟨h.counter, fun id' sh' hl' => h.below id' sh' (hcases id' sh' hl').2,
    fun id' sh' hl' => ?_,
    fun a b sh' ha hb => h.inj a b sh' (hcases a sh' ha).2 (hcases b sh' hb).2⟩
  obtain ⟨hid, hl'⟩ := hcases id' sh' hl'
  obtain ⟨x, hx, hk⟩ := h.live id' sh' hl'
  have hne : sh' ≠ sh := fun he => h.lookup_ne hl hid (he ▸ hl')
  exact ⟨x, (AList.lookup_erase_ne hne).trans hx, hk⟩

/-! ## The calls of `lib.rs` -/

/-- A close finds nothing, drops the entry, or panics on a socket of another type. -/
theorem closeSocket_of_none {ctx : IfaceCtx S} {id : UInt32} (close : Socket S → Option (Socket S))
    (h : ctx.lookup id = none) : ctx.closeSocket id close = ctx := by
  rw [closeSocket, h]

theorem closeSocket_of_some {ctx : IfaceCtx S} {id : UInt32} {close : Socket S → Option (Socket S)}
    {sh : SocketHandle} {x x' : Socket S} (h : ctx.entryAt id = some (sh, x))
    (hx : close x = some x') : ctx.closeSocket id close = ctx.unregister id sh := by
  obtain ⟨hl, hs⟩ := entryAt_eq_some.mp h
  rw [closeSocket, hl]
  simp only [hs, Option.bind_some, hx]
  rw [SocketSet.erase_replace]
  rfl

theorem closeSocket_of_refused {ctx : IfaceCtx S} {id : UInt32}
    {close : Socket S → Option (Socket S)} {sh : SocketHandle} {x : Socket S}
    (h : ctx.entryAt id = some (sh, x)) (hx : close x = none) :
    ctx.closeSocket id close = ctx.panic := by
  obtain ⟨hl, hs⟩ := entryAt_eq_some.mp h
  rw [closeSocket, hl]
  simp only [hs, Option.bind_some, hx]

theorem withTcp_of_tcp {ctx : IfaceCtx S} {id : UInt32} {sh : SocketHandle} {x : S.tcp.Socket}
    (h : ctx.entryAt id = some (sh, .tcp x)) (err : α) (f : S.tcp.Socket → α × S.tcp.Socket) :
    ctx.withTcp id err f = ((f x).1, ctx.setSocket sh (.tcp (f x).2)) := by
  obtain ⟨hl, hs⟩ := entryAt_eq_some.mp h
  rw [withTcp, hl]
  simp only [hs]
  rfl

theorem queryTcp_of_tcp {ctx : IfaceCtx S} {id : UInt32} {sh : SocketHandle} {x : S.tcp.Socket}
    (h : ctx.entryAt id = some (sh, .tcp x)) (err : α) (f : S.tcp.Socket → α) :
    ctx.queryTcp id err f = (f x, ctx) := by
  obtain ⟨hl, hs⟩ := entryAt_eq_some.mp h
  rw [queryTcp, hl]
  simp only [hs]

theorem withUdp_of_udp {ctx : IfaceCtx S} {id : UInt32} {sh : SocketHandle} {x : S.udp.Socket}
    (h : ctx.entryAt id = some (sh, .udp x)) (err : α) (f : S.udp.Socket → α × S.udp.Socket) :
    ctx.withUdp id err f = ((f x).1, ctx.setSocket sh (.udp (f x).2)) := by
  obtain ⟨hl, hs⟩ := entryAt_eq_some.mp h
  rw [withUdp, hl]
  simp only [hs]
  rfl

/-! ### What a call can do -/

/-- A call on a TCP socket finds none, panics on a socket of another type, or replaces the socket. -/
theorem withTcp_cases (ctx : IfaceCtx S) (id : UInt32) (err : α)
    (f : S.tcp.Socket → α × S.tcp.Socket) :
    ctx.withTcp id err f = (err, ctx) ∨ ctx.withTcp id err f = (err, ctx.panic) ∨
      ∃ sh x, ctx.entryAt id = some (sh, .tcp x) ∧
        ctx.withTcp id err f = ((f x).1, ctx.setSocket sh (.tcp (f x).2)) := by
  rcases hl : ctx.lookup id with _ | sh
  · exact .inl (by rw [withTcp, hl])
  · rcases hs : ctx.sockets.lookup sh with _ | x | _ | _
    · exact .inr (.inl (by simp only [withTcp, hl, hs]))
    · have he := entryAt_eq_some.mpr ⟨hl, hs⟩
      exact .inr (.inr ⟨sh, x, he, withTcp_of_tcp he err f⟩)
    · exact .inr (.inl (by simp only [withTcp, hl, hs]))
    · exact .inr (.inl (by simp only [withTcp, hl, hs]))

/-- A query finds no TCP socket, panics on a socket of another type, or leaves everything alone. -/
theorem queryTcp_cases (ctx : IfaceCtx S) (id : UInt32) (err : α) (f : S.tcp.Socket → α) :
    ctx.queryTcp id err f = (err, ctx) ∨ ctx.queryTcp id err f = (err, ctx.panic) ∨
      ∃ sh x, ctx.entryAt id = some (sh, .tcp x) ∧ ctx.queryTcp id err f = (f x, ctx) := by
  rcases hl : ctx.lookup id with _ | sh
  · exact .inl (by rw [queryTcp, hl])
  · rcases hs : ctx.sockets.lookup sh with _ | x | _ | _
    · exact .inr (.inl (by simp only [queryTcp, hl, hs]))
    · have he := entryAt_eq_some.mpr ⟨hl, hs⟩
      exact .inr (.inr ⟨sh, x, he, queryTcp_of_tcp he err f⟩)
    · exact .inr (.inl (by simp only [queryTcp, hl, hs]))
    · exact .inr (.inl (by simp only [queryTcp, hl, hs]))

/-- A call on a UDP socket finds none, panics on a socket of another type, or replaces the socket. -/
theorem withUdp_cases (ctx : IfaceCtx S) (id : UInt32) (err : α)
    (f : S.udp.Socket → α × S.udp.Socket) :
    ctx.withUdp id err f = (err, ctx) ∨ ctx.withUdp id err f = (err, ctx.panic) ∨
      ∃ sh x, ctx.entryAt id = some (sh, .udp x) ∧
        ctx.withUdp id err f = ((f x).1, ctx.setSocket sh (.udp (f x).2)) := by
  rcases hl : ctx.lookup id with _ | sh
  · exact .inl (by rw [withUdp, hl])
  · rcases hs : ctx.sockets.lookup sh with _ | _ | x | _
    · exact .inr (.inl (by simp only [withUdp, hl, hs]))
    · exact .inr (.inl (by simp only [withUdp, hl, hs]))
    · have he := entryAt_eq_some.mpr ⟨hl, hs⟩
      exact .inr (.inr ⟨sh, x, he, withUdp_of_udp he err f⟩)
    · exact .inr (.inl (by simp only [withUdp, hl, hs]))

/-- A close finds nothing, panics on a socket it does not accept, or drops the entry. -/
theorem closeSocket_cases (ctx : IfaceCtx S) (id : UInt32) (close : Socket S → Option (Socket S)) :
    ctx.closeSocket id close = ctx ∨ ctx.closeSocket id close = ctx.panic ∨
      ∃ sh x x', ctx.entryAt id = some (sh, x) ∧ close x = some x' ∧
        ctx.closeSocket id close = ctx.unregister id sh := by
  rcases hl : ctx.lookup id with _ | sh
  · exact .inl (closeSocket_of_none close hl)
  · rcases hs : ctx.sockets.lookup sh with _ | x
    · exact .inr (.inl (by simp only [closeSocket, hl, hs, Option.bind_none]))
    · have he := entryAt_eq_some.mpr ⟨hl, hs⟩
      rcases hx : close x with _ | x'
      · exact .inr (.inl (closeSocket_of_refused he hx))
      · exact .inr (.inr ⟨sh, x, x', he, hx, closeSocket_of_some he hx⟩)

/-- A query leaves every socket alone. -/
theorem sockets_queryTcp (ctx : IfaceCtx S) (id : UInt32) (err : α) (f : S.tcp.Socket → α) :
    (ctx.queryTcp id err f).2.sockets = ctx.sockets := by
  obtain h | h | ⟨_, _, _, h⟩ := ctx.queryTcp_cases id err f
  · rw [h]
  · rw [h]
    rfl
  · rw [h]

/-! ## Calls that open and close nothing -/

/-- The type of the socket an id stands for. -/
def kindAt (ctx : IfaceCtx S) (id : UInt32) : Option SockKind := (ctx.entryAt id).bind (·.2.kind?)

/-- A call that neither opens nor closes a socket: the ids stand for sockets of the same types. -/
structure Calm (ctx ctx' : IfaceCtx S) : Prop where
  wf : ctx'.Wf
  nextId : ctx'.nextId = ctx.nextId
  kinds : ctx'.kindAt = ctx.kindAt

namespace Wf

variable {ctx : IfaceCtx S}

theorem calm_refl (h : ctx.Wf) : Calm ctx ctx := ⟨h, rfl, rfl⟩

theorem calm_panic (h : ctx.Wf) : Calm ctx ctx.panic := ⟨h.panic, rfl, rfl⟩

theorem calm_setSocket (h : ctx.Wf) {id : UInt32} {sh : SocketHandle} {x x' : Socket S}
    (he : ctx.entryAt id = some (sh, x)) (hk : x'.kind? = x.kind?) :
    Calm ctx (ctx.setSocket sh x') := by
  refine ⟨h.setSocket sh (hk ▸ h.kind_isSome he), rfl, funext fun id' => ?_⟩
  rw [kindAt, kindAt, h.entryAt_setSocket (entryAt_eq_some.mp he).1]
  by_cases hid : id' = id
  · subst hid
    rw [Function.update_self, he]
    exact hk
  · rw [Function.update_of_ne hid]

/-- A call on an id finds nothing, or a socket. -/
theorem lookup_cases (h : ctx.Wf) (id : UInt32) :
    ctx.lookup id = none ∨ ∃ sh x, ctx.entryAt id = some (sh, x) := by
  cases hl : ctx.lookup id with
  | none => exact .inl rfl
  | some sh =>
    obtain ⟨x, hx, -⟩ := h.live id sh hl
    exact .inr ⟨sh, x, entryAt_eq_some.mpr ⟨hl, hx⟩⟩

theorem calm_withTcp (h : ctx.Wf) (id : UInt32) (err : α) (f : S.tcp.Socket → α × S.tcp.Socket) :
    Calm ctx (ctx.withTcp id err f).2 := by
  obtain hc | hc | ⟨sh, x, he, hc⟩ := ctx.withTcp_cases id err f
  · rw [hc]
    exact h.calm_refl
  · rw [hc]
    exact h.calm_panic
  · rw [hc]
    exact h.calm_setSocket he rfl

theorem calm_queryTcp (h : ctx.Wf) (id : UInt32) (err : α) (f : S.tcp.Socket → α) :
    Calm ctx (ctx.queryTcp id err f).2 := by
  obtain hc | hc | ⟨sh, x, -, hc⟩ := ctx.queryTcp_cases id err f
  · rw [hc]
    exact h.calm_refl
  · rw [hc]
    exact h.calm_panic
  · rw [hc]
    exact h.calm_refl

theorem calm_withUdp (h : ctx.Wf) (id : UInt32) (err : α) (f : S.udp.Socket → α × S.udp.Socket) :
    Calm ctx (ctx.withUdp id err f).2 := by
  obtain hc | hc | ⟨sh, x, he, hc⟩ := ctx.withUdp_cases id err f
  · rw [hc]
    exact h.calm_refl
  · rw [hc]
    exact h.calm_panic
  · rw [hc]
    exact h.calm_setSocket he rfl

end Wf

end IfaceCtx

end EspSmoltcp
