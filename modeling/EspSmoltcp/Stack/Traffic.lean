import EspSmoltcp.Stack.Handles
import Mathlib.Logic.Relation

/-!
# Stack/Traffic — what the peers do to the sockets of the core

`Interface::poll` hands what the peers sent to the sockets one at a time; `World.deliver` is one such
event.  It replaces one socket and leaves every handle standing for what it stood for.
-/

namespace EspSmoltcp

variable {S : Smoltcp} {α : Type}

/-! ## Replacing a socket -/

/-- What the ids stand for after the socket behind a handle was replaced. -/
theorem IfaceCtx.entryAt_setSocket (ctx : IfaceCtx S) (sh : SocketHandle) (x : Socket S) (id : UInt32) :
    (ctx.setSocket sh x).entryAt id
      = (ctx.entryAt id).map fun r => if r.1 = sh then (sh, x) else r := by
  rw [entryAt, entryAt, lookup_setSocket]
  rcases ctx.lookup id with _ | sh'
  · rfl
  · rw [Option.bind_some, Option.bind_some, setSocket, SocketSet.lookup_replace]
    by_cases h : sh' = sh
    · subst h
      rw [if_pos rfl]
      rcases ctx.sockets.lookup sh' with _ | y
      · rfl
      · simp
    · rw [if_neg h]
      rcases ctx.sockets.lookup sh' with _ | y
      · rfl
      · simp [h]

/-- What the handles stand for after a call on a TCP socket. -/
theorem World.Wf.entryOf_withTcp {w : World S} (h : w.Wf) {s : NetSock} {i : IfaceId}
    (hi : s.iface = i.code) (err : α) (f : S.tcp.Socket → α × S.tcp.Socket) :
    (w.ffi i err fun ctx => ctx.withTcp s.localId err f).2.entryOf = match w.entryOf s with
      | some (sh, .tcp x) => Function.update w.entryOf s (some (sh, .tcp (f x).2))
      | _ => w.entryOf := by
  rcases hctx : w.ctx i with _ | ctx
  · have hnone : w.entryOf s = none := by
      rw [entryOf, hi, IfaceId.ofCode_code, Option.bind_some, hctx]
      rfl
    rw [ffi, hctx, hnone]
  have hc := h.ctx i ctx hctx
  rw [ffi_of_ctx hctx, entryOf_of_ctx hi hctx]
  obtain hl | ⟨sh, x, he⟩ := hc.lookup_cases s.localId
  · rw [IfaceCtx.entryAt_of_lookup_none hl, IfaceCtx.withTcp, hl]
    simp only [setCtx_self hctx]
  · obtain ⟨hl, hs⟩ := IfaceCtx.entryAt_eq_some.mp he
    have hpanic : (w.setCtx i ctx.panic).entryOf = w.entryOf := by
      refine (entryOf_setCtx hctx hi (v := w.entryOf s) ?_).trans (Function.update_eq_self ..)
      rw [entryOf_of_ctx hi hctx, Function.update_eq_self]
      rfl
    rcases x with x | x | _
    · rw [he, IfaceCtx.withTcp_of_tcp he]
      exact entryOf_setCtx hctx hi (hc.entryAt_setSocket hl _)
    · rw [he]
      simpa only [IfaceCtx.withTcp, hl, hs] using hpanic
    · rw [he]
      simpa only [IfaceCtx.withTcp, hl, hs] using hpanic

/-! ## Events -/

namespace World

/-- One event of the network, for the socket behind a handle. -/
def deliver (i : IfaceId) (sh : SocketHandle) (ev : TcpEvent) (w : World S) : World S :=
  match w.ctx i with
  | none => w
  | some ctx =>
    match ctx.sockets.lookup sh with
    | some (.tcp x) => w.setCtx i (ctx.setSocket sh (.tcp (S.tcp.onEvent ev x)))
    | _ => w

/-- An event finds no TCP socket, or replaces one. -/
theorem deliver_cases (i : IfaceId) (sh : SocketHandle) (ev : TcpEvent) (w : World S) :
    w.deliver i sh ev = w ∨ ∃ ctx x, w.ctx i = some ctx ∧ ctx.sockets.lookup sh = some (.tcp x) ∧
      w.deliver i sh ev = w.setCtx i (ctx.setSocket sh (.tcp (S.tcp.onEvent ev x))) := by
  rw [deliver]
  rcases hctx : w.ctx i with _ | ctx
  · exact .inl rfl
  · rcases hs : ctx.sockets.lookup sh with _ | x | x | _
    · exact .inl (by simp only [hs])
    · exact .inr ⟨ctx, x, rfl, hs, by simp only [hs]⟩
    · exact .inl (by simp only [hs])
    · exact .inl (by simp only [hs])

/-- **An event opens and closes nothing.** -/
theorem Wf.calm_deliver {w : World S} (h : w.Wf) (i : IfaceId) (sh : SocketHandle) (ev : TcpEvent) :
    Calm w (w.deliver i sh ev) := by
  obtain he | ⟨ctx, x, hctx, hs, he⟩ := deliver_cases i sh ev w
  · rw [he]
    exact h.calm_refl
  · rw [he]
    refine h.calm_setCtx hctx ⟨(h.ctx i ctx hctx).setSocket sh rfl, rfl, funext fun id => ?_⟩
    rw [IfaceCtx.kindAt, IfaceCtx.kindAt, IfaceCtx.entryAt_setSocket]
    rcases hent : ctx.entryAt id with _ | ⟨sh', y⟩
    · rfl
    · by_cases hsh : sh' = sh
      · subst hsh
        have hy := (IfaceCtx.entryAt_eq_some.mp hent).2
        rw [hs] at hy
        obtain rfl := Option.some.inj hy
        simp [Socket.kind?]
      · simp [hsh]

/-- **The TCP sockets after an event**: the one it was for has moved, the others have not. -/
theorem entryOf_deliver {w : World S} {s : NetSock} {sh' : SocketHandle} {x : S.tcp.Socket}
    (hs : w.entryOf s = some (sh', .tcp x)) (i : IfaceId) (sh : SocketHandle) (ev : TcpEvent) :
    (w.deliver i sh ev).entryOf s = some (sh',
      .tcp (if s.iface = i.code ∧ sh' = sh then S.tcp.onEvent ev x else x)) := by
  obtain ⟨j, ctx, hj, hctx, hent⟩ := entryOf_eq_some.mp hs
  have hx := (IfaceCtx.entryAt_eq_some.mp hent).2
  by_cases hi : s.iface = i.code
  · obtain rfl := IfaceId.code_inj (hj.symm.trans hi)
    by_cases hsh : sh' = sh
    · subst hsh
      rw [deliver, hctx]
      simp only [hx]
      rw [entryOf_of_ctx hi (ctx_setCtx_self ..), IfaceCtx.entryAt_setSocket, hent]
      simp [hi]
    · obtain he | ⟨ctx', y, hctx', -, he⟩ := deliver_cases j sh ev w
      · rw [he, hs]
        simp [hsh]
      · obtain rfl := Option.some.inj (hctx.symm.trans hctx')
        rw [he, entryOf_of_ctx hi (ctx_setCtx_self ..), IfaceCtx.entryAt_setSocket, hent]
        simp [hsh]
  · have hsame : (w.deliver i sh ev).ctx j = w.ctx j := by
      have hji : j ≠ i := fun hji => hi (hji ▸ hj)
      obtain he | ⟨ctx', y, -, -, he⟩ := deliver_cases i sh ev w
      · rw [he]
      · rw [he, ctx_setCtx_ne w hji]
    rw [entryOf_of_ctx hj (hsame.trans hctx), hent]
    simp [hi]

end World

/-- One event that this condition allows. -/
def Delivery (ok : World S → IfaceId → SocketHandle → TcpEvent → Prop) (w w' : World S) : Prop :=
  ∃ i sh ev, ok w i sh ev ∧ w' = w.deliver i sh ev

/-- The peers make these moves only. -/
def PeerMoves (ok : World S → IfaceId → SocketHandle → TcpEvent → Prop) (env : World S → World S) :
    Prop := ∀ w, Relation.ReflTransGen (Delivery ok) w (env w)

end EspSmoltcp
