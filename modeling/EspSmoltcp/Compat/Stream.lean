import EspSmoltcp.Compat.EndOfStream
import EspSmoltcp.Machinery.Others
import EspSmoltcp.Stack.SendLoop

/-!
# Compat/Stream — a TCP fd is a byte stream in each direction

    peer ──arrived──▸ receive queue ──recv──▸ application ──send──▸ transmit queue ──transmitted──▸ peer

An application makes any number of `send` and `recv` calls on a connected TCP fd, with any timeouts and any
buffers, those of `send` of lengths that an `int` can be.  Meanwhile the poll task puts what arrives at the end of
the receive queue and takes what it transmits off the front of the transmit queue.

`session_conserves`: what was received before and what arrived is what the `recv` calls returned and what is
still queued, byte for byte and in order; what was queued before and what the `send` calls said they took is
what was transmitted and what is still queued.
-/

namespace EspSmoltcp

open Others (Traced TakesFront PutsBack StepsBy)
open Thread (Triple)

variable {S : Smoltcp} {α : Type}

/-! ## The two queues -/

/-- The bytes received for a handle and not yet read. -/
def rxOf (s : NetSock) (w : World S) : Bytes := (w.tcpOf s).elim [] S.tcp.rxQueue

/-- `recv_slice` and `send_slice` each work on their own buffer. -/
structure TcpApi.Duplex (T : TcpApi) : Prop where
  unsent_recvSlice : ∀ x n, T.unsent (T.recvSlice x n).2 = T.unsent x
  rxQueue_sendSlice : ∀ x data n x', T.sendSlice x data = some (n, x') → T.rxQueue x' = T.rxQueue x

/-- The world before and after a step. -/
def Event.ends : Event S → Option (World S × World S)
  | .step _ w w' => some (w, w')
  | .readable .. | .wait => none

/-- The others leave the fd alone; they put bytes at the end of what it has to read, and take bytes off the
front of what it has to transmit. -/
structure LetBe (i : ℕ) (s : NetSock) (w w' : World S) : Prop where
  entry : w'.fdAt i = w.fdAt i
  arrives : rxOf s w <+: rxOf s w'
  transmits : unsentOf s w' <:+ unsentOf s w

namespace LetBe

variable {i : ℕ} {s : NetSock} {u v w : World S}

theorem refl (w : World S) : LetBe i s w w := ⟨rfl, List.prefix_rfl, List.suffix_rfl⟩

theorem trans (h : LetBe i s u v) (h' : LetBe i s v w) : LetBe i s u w :=
  ⟨h'.entry.trans h.entry, h.arrives.trans h'.arrives, h'.transmits.trans h.transmits⟩

/-- An event of the network replaces a TCP socket by what has become of it, or does not matter. -/
theorem tcpOf_deliver (j : IfaceId) (sh : SocketHandle) (ev : TcpEvent) (w : World S) (s : NetSock) :
    (w.deliver j sh ev).tcpOf s = w.tcpOf s ∨
      ∃ x, w.tcpOf s = some x ∧ (w.deliver j sh ev).tcpOf s = some (S.tcp.onEvent ev x) := by
  obtain he | ⟨ctx, x, hctx, hx, he⟩ := World.deliver_cases j sh ev w
  · exact .inl (by rw [he])
  rw [he, World.tcpOf, World.tcpOf]
  by_cases hi : s.iface = j.code
  · rw [World.entryOf_of_ctx hi (World.ctx_setCtx_self ..), World.entryOf_of_ctx hi hctx, IfaceCtx.entryAt_setSocket]
    rcases hent : ctx.entryAt s.localId with _ | ⟨sh', y⟩
    · exact .inl rfl
    by_cases hsh : sh' = sh
    · subst hsh
      obtain rfl := Option.some.inj (hx.symm.trans (IfaceCtx.entryAt_eq_some.mp hent).2)
      exact .inr ⟨x, rfl, by simp [Socket.tcp?]⟩
    · exact .inl (by simp [hsh])
  · refine .inl (congrArg (Option.bind · _) (Option.bind_congr fun j' hj' => ?_))
    have hne : j' ≠ j := fun h => hi (h ▸ IfaceId.ofCode_eq_some.mp hj')
    rw [World.ctx_setCtx_ne w hne]

/-- An event that only brings bytes, or only transmits some, lets the fd be. -/
theorem deliver {ev : TcpEvent} (hev : ∀ x : S.tcp.Socket, S.tcp.rxQueue x <+: S.tcp.rxQueue (S.tcp.onEvent ev x) ∧
    S.tcp.unsent (S.tcp.onEvent ev x) <:+ S.tcp.unsent x) (j : IfaceId) (sh : SocketHandle) (w : World S) :
    LetBe i s w (w.deliver j sh ev) := by
  have hentry : (w.deliver j sh ev).fdAt i = w.fdAt i := by
    obtain he | ⟨ctx, x, -, -, he⟩ := World.deliver_cases j sh ev w
    · rw [he]
    · rw [he]
      rfl
  obtain he | ⟨x, hx, he⟩ := tcpOf_deliver j sh ev w s
  · have hrx : rxOf s (w.deliver j sh ev) = rxOf s w := by rw [rxOf, rxOf, he]
    have hunsent : unsentOf s (w.deliver j sh ev) = unsentOf s w := by rw [unsentOf, unsentOf, he]
    exact ⟨hentry, hrx.symm ▸ List.prefix_rfl, hunsent.symm ▸ List.suffix_rfl⟩
  · refine ⟨hentry, ?_, ?_⟩
    · rw [rxOf, rxOf, he, hx]
      exact (hev x).1
    · rw [unsentOf, unsentOf, he, hx]
      exact (hev x).2

end LetBe

/-! ## One attempt -/

section Attempts

variable {s : NetSock} {h : IfaceId} {w : World S}

/-- A call into the core leaves the fd table alone. -/
theorem fdAt_ffi (w : World S) (h : IfaceId) (err : α) (f : IfaceCtx S → α × IfaceCtx S) (i : ℕ) :
    (w.ffi h err f).2.fdAt i = w.fdAt i := by
  rw [World.ffi]
  rcases w.ctx h with _ | ctx
  · rfl
  · rfl

theorem rxOf_of_ctx {ctx : IfaceCtx S} (hs : s.iface = h.code) (hctx : w.ctx h = some ctx) :
    rxOf s w = ((ctx.entryAt s.localId).bind (·.2.tcp?)).elim [] S.tcp.rxQueue := by
  rw [rxOf, World.tcpOf, World.entryOf_of_ctx hs hctx]

/-- A send leaves what is to be read alone. -/
theorem rxOf_sendCall (hT : S.tcp.Duplex) (hs : s.iface = h.code) (data : Bytes) (w : World S) :
    rxOf s (sendCall h s.localId data w).2 = rxOf s w := by
  rw [sendCall]
  rcases hctx : w.ctx h with _ | ctx
  · rw [World.ffi, hctx]
  rw [World.ffi_of_ctx hctx, rxOf_of_ctx hs hctx, rxOf_of_ctx hs (World.ctx_setCtx_self w h _)]
  obtain ⟨ctx', hsend, hentry⟩ | ⟨sh, x, n, x', he, hslice, hsend⟩ := smoltcpTcpSend_cases ctx s.localId data
  · rw [hsend, hentry]
  · rw [hsend, IfaceCtx.entryAt_setSocket, he]
    simpa [Socket.tcp?] using hT.rxQueue_sendSlice x data n x' hslice

/-- `smoltcp_tcp_recv` fails and touches no socket, or is a `recv_slice`. -/
theorem smoltcpTcpRecv_cases (ctx : IfaceCtx S) (id : UInt32) (cap : ℕ) :
    (∃ ctx', smoltcpTcpRecv ctx id cap = ((-1, []), ctx') ∧ ctx'.entryAt = ctx.entryAt) ∨
      ∃ sh x, ctx.entryAt id = some (sh, .tcp x) ∧ smoltcpTcpRecv ctx id cap =
        (recvCode (S.tcp.recvSlice x cap).1, ctx.setSocket sh (.tcp (S.tcp.recvSlice x cap).2)) := by
  rw [smoltcpTcpRecv]
  obtain h | h | ⟨sh, x, he, h⟩ := ctx.withTcp_cases id (-1, []) _
  · exact .inl ⟨ctx, h, rfl⟩
  · exact .inl ⟨ctx.panic, h, rfl⟩
  · refine .inr ⟨sh, x, he, ?_⟩
    rw [h]
    rcases S.tcp.recvSlice x cap with ⟨_ | data, x'⟩
    · rfl
    · rfl

/-- What `recv_slice` hands out is the front of the queue. -/
theorem recvSlice_takes (x : S.tcp.Socket) (cap : ℕ) :
    S.tcp.rxQueue x = (recvCode (S.tcp.recvSlice x cap).1).2 ++ S.tcp.rxQueue (S.tcp.recvSlice x cap).2 := by
  by_cases hq : S.tcp.rxQueue x = []
  · rcases ho : (S.tcp.state x).rxOpen with _ | _
    · rw [S.tcp.recvSlice_err x cap hq ho]
      rfl
    · rw [S.tcp.recvSlice_open x cap hq ho]
      rfl
  · obtain ⟨hdata, hrest⟩ := S.tcp.recvSlice_data x cap hq
    rw [hdata, hrest]
    exact (List.take_append_drop ..).symm

/-- A result carries bytes only with their number. -/
theorem recvCode_length (r : Option Bytes) : (recvCode r).1.toNat = (recvCode r).2.length := by
  rcases r with _ | data
  · rfl
  · rfl

/-- **An attempt to receive takes what it returns off the front of the queue.** -/
theorem tcpRecvProbe_takes (hT : S.tcp.Duplex) (hs : s.iface = h.code) (cap : ℕ) (w : World S) :
    rxOf s w = (tcpRecvProbe h s.localId cap w).1.2 ++ rxOf s (tcpRecvProbe h s.localId cap w).2 ∧
      unsentOf s (tcpRecvProbe h s.localId cap w).2 = unsentOf s w ∧
      (tcpRecvProbe h s.localId cap w).1.1.toNat = (tcpRecvProbe h s.localId cap w).1.2.length := by
  rw [tcpRecvProbe]
  rcases hctx : w.ctx h with _ | ctx
  · rw [World.ffi, hctx]
    exact ⟨rfl, rfl, rfl⟩
  rw [World.ffi_of_ctx hctx, rxOf_of_ctx hs hctx, rxOf_of_ctx hs (World.ctx_setCtx_self w h _),
    unsentOf_of_ctx hs hctx, unsentOf_of_ctx hs (World.ctx_setCtx_self w h _)]
  obtain ⟨ctx', hrecv, hentry⟩ | ⟨sh, x, he, hrecv⟩ := smoltcpTcpRecv_cases ctx s.localId cap
  · rw [hrecv, hentry]
    exact ⟨rfl, rfl, rfl⟩
  · rw [hrecv, IfaceCtx.entryAt_setSocket, he]
    simpa [Socket.tcp?] using ⟨recvSlice_takes x cap, hT.unsent_recvSlice x cap, recvCode_length _⟩

end Attempts

/-! ## Keeping account -/

/-- A wait keeps what is not disturbed by it and by what the others do. -/
theorem triple_blockingWait {P : Sys (World S) (Event S) → Prop}
    (hwait : ∀ sys, P sys → P { sys with log := .wait :: sys.log })
    (helapse : ∀ v m ms l, P ⟨v, m :: ms, l⟩ → P ⟨m.env v, ms, l⟩) :
    Triple P blockingWait (fun _ => P) fun _ => True := by
  refine Triple.bind (Q := fun _ => P) (Triple.emit hwait) fun _ => ?_
  exact Triple.bind (Triple.elapse (Q := fun _ => P) (fun _ _ => trivial) helapse) fun _ =>
    Triple.pure () fun _ hs => hs

section Calls

variable (i : ℕ) (s : NetSock) (e : FdEntry) (w₀ : World S)

/-- So far the calls have taken `got` and put in `accepted`, and the others have let the fd be. -/
structure Streams (got accepted : Bytes) (sys : Sys (World S) (Event S)) : Prop where
  traced : Traced Event.ends (LetBe i s) w₀ sys
  got : AddsUp (StepsBy Event.ends (TakesFront (rxOf s))) sys.log got
  accepted : AddsUp (StepsBy Event.ends (PutsBack (unsentOf s))) sys.log accepted
  entry : sys.world.fdAt i = e

variable {i s e w₀} {got accepted : Bytes}

theorem Streams.elapse {v : World S} {m : Moment (World S)} {ms : List (Moment (World S))} {l : List (Event S)}
    (h : Streams i s e w₀ got accepted ⟨v, m :: ms, l⟩) : Streams i s e w₀ got accepted ⟨m.env v, ms, l⟩ where
  traced := h.traced.elapse fun _ _ _ h₁ h₂ => h₁.trans h₂
  got := h.got
  accepted := h.accepted
  entry := (h.traced.2 m List.mem_cons_self v).entry.trans h.entry

theorem streams_xTaskGetTickCount : Triple (Streams i s e w₀ got accepted) xTaskGetTickCount
    (fun _ => Streams i s e w₀ got accepted) fun _ => True :=
  Triple.elapse (fun _ _ => trivial) fun _ _ _ _ hs => hs.elapse

theorem streams_blockingWait : Triple (Streams i s e w₀ got accepted) blockingWait
    (fun _ => Streams i s e w₀ got accepted) fun _ => True :=
  triple_blockingWait (fun _ hs => ⟨hs.traced.emit rfl, hs.got.cons_nil rfl, hs.accepted.cons_nil rfl, hs.entry⟩)
    fun _ _ _ _ hs => hs.elapse

/-- A step that takes and puts in what its result says. -/
theorem streams_atomically {call : Call} {f : World S → α × World S} (take put : α → Bytes) {P : α → Prop}
    (hf : ∀ w, rxOf s w = take (f w).1 ++ rxOf s (f w).2 ∧ unsentOf s (f w).2 = unsentOf s w ++ put (f w).1 ∧
      (f w).2.fdAt i = w.fdAt i ∧ P (f w).1) :
    Triple (Streams i s e w₀ got accepted) (atomically f call)
      (fun a sys => Streams i s e w₀ (got ++ take a) (accepted ++ put a) sys ∧ P a) fun _ => True := by
  rintro ⟨w, ms, l⟩ hs
  obtain ⟨htake, hput, hentry, hP⟩ := hf w
  exact ⟨⟨hs.traced.step LetBe.refl rfl, hs.got.cons htake, hs.accepted.cons hput, hentry.trans hs.entry⟩, hP⟩

/-! ## Receiving -/

variable (hT : S.tcp.Duplex)
include hT

theorem streams_recvLoop {h : IfaceId} (hs : s.iface = h.code) (cap : ℕ) (deadline : UInt32) :
    Triple (Streams i s e w₀ got accepted) (recvLoop .other deadline (tcpRecvProbe h s.localId cap) [])
      (fun r sys => Streams i s e w₀ (got ++ r.2) accepted sys ∧ r.1.toNat = r.2.length) fun _ => True := by
  refine Triple.loop (I := fun _ => Streams i s e w₀ got accepted) (fun _ _ _ => trivial) (fun _ => ?_) ()
  refine Triple.bind streams_xTaskGetTickCount fun now => ?_
  split_ifs
  · refine Triple.bind (streams_atomically Prod.snd (fun _ => [])
      (P := fun r => r.1.toNat = r.2.length) fun w => ?_) fun r => ?_
    · obtain ⟨htake, hput, hlen⟩ := tcpRecvProbe_takes hT hs cap w
      exact ⟨htake, hput.trans (List.append_nil _).symm, fdAt_ffi .., hlen⟩
    · simp only [List.append_nil]
      split_ifs with hpos
      · exact Triple.pure _ fun _ h => h
      · refine Triple.bind (Q := fun _ => Streams i s e w₀ got accepted) ?_ fun _ => Triple.pure _ fun _ h => h
        refine streams_blockingWait.consequence (fun sys hsys => ?_) fun _ _ h => h
        have hnil : r.2 = [] := by
          rw [← List.length_eq_zero_iff, ← hsys.2]
          omega
        simpa [hnil] using hsys.1
  · exact Triple.pure _ fun _ h => ⟨by rwa [List.append_nil], rfl⟩

theorem streams_netTcpRecv (cfg : Config) (cap : ℕ) (timeoutMs : UInt32) :
    Triple (Streams i s e w₀ got accepted) (netTcpRecv cfg s cap timeoutMs)
      (fun r sys => Streams i s e w₀ (got ++ r.2) accepted sys ∧ r.1.toNat = r.2.length) fun _ => True := by
  rintro ⟨w, ms, l⟩ hsys
  rw [netTcpRecv, Thread.world_bind_apply]
  rcases hh : handleFor w s.iface with _ | h
  · exact ⟨by rwa [List.append_nil], rfl⟩
  · have hs := (of_handleFor_eq_some hh).1
    have hloop (deadline : UInt32) : Triple (Streams i s e w₀ got accepted) _ _ _ :=
      streams_recvLoop hT hs cap deadline
    exact Triple.bind streams_xTaskGetTickCount (fun start => hloop _) ⟨w, ms, l⟩ hsys

omit hT in
/-- The return value of `recv` is the number of bytes it has written. -/
theorem take_recvRet (nonblocking : Bool) {n : ℤ} {data : Bytes} (h : n.toNat = data.length) :
    data.take (recvRet nonblocking n).ret.toNat = data := by
  rw [recvRet]
  split_ifs with hempty
  · rw [hempty.1] at h
    rw [List.length_eq_zero_iff.mp h.symm]
    rfl
  · exact List.take_of_length_le (le_of_eq h.symm)

/-- **A `recv` returns what it has taken.** -/
theorem streams_wrapLwipRecv {cfg : Config} {fd : ℤ} (hfd : fdIndex cfg fd = some i) (hk : e.kind = .tcp)
    (hs : e.sock = s) (len : ℕ) :
    Triple (Streams i s e w₀ got accepted) (wrapLwipRecv cfg fd len)
      (fun r sys => Streams i s e w₀ (got ++ r.2.take r.1.ret.toNat) accepted sys) fun _ => True := by
  rintro ⟨w, ms, l⟩ hsys
  have he : w.fdAt i = e := hsys.entry
  have hget : fdGet cfg w fd = some i := by
    rw [fdGet, hfd, Option.filter_some, he, hk]
    rfl
  have hrecv : Triple (Streams i s e w₀ got accepted) _ _ _ := streams_netTcpRecv hT cfg len (rcvTimeout e)
  rw [wrapLwipRecv_tcp hget (by rw [he, hk]), he, hs]
  refine Triple.bind hrecv (fun r sys hr => ?_) ⟨w, ms, l⟩ hsys
  rw [Thread.world_bind_apply]
  change Streams i s e w₀ (got ++ r.2.take (recvRet _ r.1).ret.toNat) accepted sys
  rw [take_recvRet _ hr.2]
  exact hr.1

/-! ## Sending -/

/-- A turn puts in what it adds to the total. -/
theorem streams_sendTurn {h : IfaceId} (hs : s.iface = h.code) (deadline : UInt32) {buf : Bytes} {total : ℕ}
    (hle : total ≤ buf.length) :
    Triple (Streams i s e w₀ got (accepted ++ buf.take total)) (sendTurn h s.localId deadline buf total)
      (fun r sys => Sum.elim
        (fun total => total ≤ buf.length ∧ Streams i s e w₀ got (accepted ++ buf.take total) sys)
        (fun total => total ≤ buf.length ∧ Streams i s e w₀ got (accepted ++ buf.take total) sys) r)
      fun _ => True := by
  rw [sendTurn]
  split_ifs
  · refine Triple.bind (streams_atomically (fun _ => []) (fun n => (buf.drop total).take n.toNat)
      (P := fun n => n.toNat ≤ (buf.drop total).length) fun w => ?_) fun n => ?_
    · obtain ⟨hn, hput⟩ := sendCall_appends hs (buf.drop total) w
      exact ⟨(rxOf_sendCall hT hs _ w).symm, hput, fdAt_ffi .., hn⟩
    · rw [List.append_nil, List.append_assoc, ← List.take_add]
      split_ifs with hpos
      · refine Triple.pure _ fun _ h => ⟨?_, h.1⟩
        have hn := h.2
        rw [List.length_drop] at hn
        omega
      · have hzero : n.toNat = 0 := by omega
        rw [hzero, Nat.add_zero]
        refine Triple.bind (Q := fun _ => Streams i s e w₀ got (accepted ++ buf.take total)) ?_ fun now => ?_
        · exact streams_xTaskGetTickCount.consequence (fun _ h => h.1) fun _ _ h => h
        · split_ifs
          · exact Triple.pure _ fun _ h => ⟨hle, h⟩
          · exact Triple.bind streams_blockingWait fun _ => Triple.pure _ fun _ h => ⟨hle, h⟩
  · exact Triple.pure _ fun _ h => ⟨hle, h⟩

theorem streams_sendLoop {h : IfaceId} (hs : s.iface = h.code) (deadline : UInt32) (buf : Bytes) :
    Triple (Streams i s e w₀ got accepted)
      (Thread.loop (fun total => buf.length - total) (sendTurn h s.localId deadline buf) 0)
      (fun total sys => total ≤ buf.length ∧ Streams i s e w₀ got (accepted ++ buf.take total) sys)
      fun _ => True := by
  refine Triple.consequence (Triple.loop
    (I := fun total sys => total ≤ buf.length ∧ Streams i s e w₀ got (accepted ++ buf.take total) sys)
    (fun _ _ _ => trivial) (fun total sys hsys => ?_) 0) (fun _ hsys => ?_) fun _ _ h => h
  · exact streams_sendTurn hT hs deadline hsys.1 sys hsys.2
  · exact ⟨Nat.zero_le _, by rwa [List.take_zero, List.append_nil]⟩

theorem streams_netTcpSend (cfg : Config) {buf : Bytes} (hlen : buf.length ≤ intMax) (timeoutMs : UInt32) :
    Triple (Streams i s e w₀ got accepted) (netTcpSend cfg s buf timeoutMs)
      (fun n => Streams i s e w₀ got (accepted ++ buf.take n.toNat)) fun _ => True := by
  rintro ⟨w, ms, l⟩ hsys
  rw [netTcpSend_eq, Thread.world_bind_apply]
  rcases hh : handleFor w s.iface with _ | h
  · change Streams i s e w₀ got (accepted ++ []) ⟨w, ms, l⟩
    rwa [List.append_nil]
  · have hs := (of_handleFor_eq_some hh).1
    refine Triple.bind streams_xTaskGetTickCount (fun start => ?_) ⟨w, ms, l⟩ hsys
    refine Triple.bind (streams_sendLoop hT hs _ buf) fun total => Triple.pure _ fun _ hsys => ?_
    obtain ⟨hle, hsys⟩ := hsys
    split_ifs with hnone
    · rwa [asInt_of_le (Nat.le_trans hle hlen)]
    · rw [not_not.mp hnone] at hsys
      exact hsys

/-- **A `send` has put in what it returns.** -/
theorem streams_wrapLwipSend {cfg : Config} {fd : ℤ} (hfd : fdIndex cfg fd = some i) (hk : e.kind = .tcp)
    (hs : e.sock = s) (hc : e.connected = true) {buf : Bytes} (hlen : buf.length ≤ intMax) :
    Triple (Streams i s e w₀ got accepted) (wrapLwipSend cfg fd buf)
      (fun r => Streams i s e w₀ got (accepted ++ buf.take r.ret.toNat)) fun _ => True := by
  rintro ⟨w, ms, l⟩ hsys
  have he : w.fdAt i = e := hsys.entry
  have hget : fdGet cfg w fd = some i := by
    rw [fdGet, hfd, Option.filter_some, he, hk]
    rfl
  rw [wrapLwipSend, Thread.world_bind_apply, hget]
  simp only [Thread.world_bind_apply, he, hc, hk, hs, Bool.not_true, Bool.false_eq_true, if_false]
  refine Triple.bind (streams_netTcpSend hT cfg hlen _) (fun n => ?_) ⟨w, ms, l⟩ hsys
  exact Triple.pure (Ret.mk n none) fun _ h => h

end Calls

/-! ## Sessions -/

/-- A call an application makes on the fd. -/
inductive StreamCall
  | send (buf : Bytes)
  | recv (len : ℕ)
  deriving DecidableEq

/-- Calls one after the other: what `recv` has returned, and what of its buffers `send` said it took. -/
def session (cfg : Config) (fd : ℤ) : List StreamCall → Code S (Bytes × Bytes)
  | [] => pure ([], [])
  | .send buf :: calls => do
    let r ← wrapLwipSend cfg fd buf
    let rest ← session cfg fd calls
    pure (rest.1, buf.take r.ret.toNat ++ rest.2)
  | .recv len :: calls => do
    let r ← wrapLwipRecv cfg fd len
    let rest ← session cfg fd calls
    pure (r.2.take r.1.ret.toNat ++ rest.1, rest.2)

section Session

variable {i : ℕ} {w : World S} {cfg : Config} {fd : ℤ}

theorem streams_session {e : FdEntry} {w₀ : World S} (hT : S.tcp.Duplex) (hfd : fdIndex cfg fd = some i)
    (hk : e.kind = .tcp) (hc : e.connected = true) (calls : List StreamCall)
    (hlen : ∀ buf, .send buf ∈ calls → buf.length ≤ intMax) :
    ∀ got accepted, Triple (Streams i e.sock e w₀ got accepted) (session cfg fd calls)
      (fun r => Streams i e.sock e w₀ (got ++ r.1) (accepted ++ r.2)) fun _ => True := by
  induction calls with
  | nil =>
    intro got accepted
    exact Triple.pure _ fun _ h => by simpa using h
  | cons call calls ih =>
    intro got accepted
    have ih := ih fun buf hbuf => hlen buf (List.mem_cons_of_mem _ hbuf)
    cases call with
    | send buf =>
      refine Triple.bind (streams_wrapLwipSend hT hfd hk rfl hc (hlen buf List.mem_cons_self)) fun r => ?_
      refine Triple.bind (ih got _) fun rest => Triple.pure _ fun _ h => ?_
      rwa [List.append_assoc] at h
    | recv len =>
      refine Triple.bind (streams_wrapLwipRecv hT hfd hk rfl len) fun r => ?_
      refine Triple.bind (ih _ accepted) fun rest => Triple.pure _ fun _ h => ?_
      rwa [List.append_assoc] at h

/-- **A TCP fd loses nothing, adds nothing and keeps the order, in both directions**: what was there to read
and what arrived is what `recv` returned and what is still there; what was to be transmitted and what `send`
took is what was taken off for transmission and what still is to be. -/
theorem session_conserves (hT : S.tcp.Duplex) (hfd : fdIndex cfg fd = some i) (hk : (w.fdAt i).kind = .tcp)
    (hc : (w.fdAt i).connected = true) {calls : List StreamCall}
    (hlen : ∀ buf, .send buf ∈ calls → buf.length ≤ intMax) {sched : List (Moment (World S))}
    (hothers : ∀ m ∈ sched, ∀ v, LetBe i (w.fdAt i).sock v (m.env v)) {received accepted : Bytes}
    {sys : Sys (World S) (Event S)}
    (hrun : (session cfg fd calls).run w sched = (some (received, accepted), sys)) :
    rxOf (w.fdAt i).sock w ++
        (Others.gaps Event.ends w sys.log sys.world).flatMap (Others.grown (rxOf (w.fdAt i).sock))
        = received ++ rxOf (w.fdAt i).sock sys.world ∧
      unsentOf (w.fdAt i).sock w ++ accepted
        = (Others.gaps Event.ends w sys.log sys.world).flatMap (Others.drained (unsentOf (w.fdAt i).sock))
          ++ unsentOf (w.fdAt i).sock sys.world := by
  have hstart : Streams i (w.fdAt i).sock (w.fdAt i) w [] [] ⟨w, sched, []⟩ :=
    ⟨Traced.start LetBe.refl hothers, AddsUp.nil _, AddsUp.nil _, rfl⟩
  obtain ⟨htraced, hgot, haccepted, -⟩ := (streams_session hT hfd hk hc calls hlen [] []).of_some hstart hrun
  exact ⟨Others.takes_conserve hgot fun g hg => (htraced.1 g hg).arrives,
    Others.puts_conserve haccepted fun g hg => (htraced.1 g hg).transmits⟩

end Session

/-- The peer sends a byte, and the poll task transmits what is queued. -/
def exchange (w : World .reference) : World .reference :=
  (w.deliver .eth 0 .transmit).deliver .eth 0 (.send [105])

theorem letBe_exchange {i : ℕ} {s : NetSock} (w : World .reference) : LetBe i s w (exchange w) := by
  refine (LetBe.deliver (fun x => ?_) ..).trans (LetBe.deliver (fun x => ?_) ..)
  · exact ⟨List.prefix_rfl, List.nil_suffix⟩
  · change x.rx <+: (x.onEvent (.send [105])).rx ∧ (x.onEvent (.send [105])).unsent <:+ x.unsent
    obtain ⟨state, rx, unsent, finUnsent, peerFin⟩ := x
    cases state <;> simp [RefTcp.onEvent]

theorem TcpApi.duplex_reference : TcpApi.reference.Duplex where
  unsent_recvSlice x n := by
    change (x.recvSlice n).2.unsent = x.unsent
    unfold RefTcp.recvSlice
    split_ifs <;> rfl
  rxQueue_sendSlice x data n x' h := by
    change x.sendSlice data = some (n, x') at h
    unfold RefTcp.sendSlice at h
    split_ifs at h
    obtain ⟨-, rfl⟩ := Prod.mk.inj (Option.some.inj h)
    rfl

/-- Two bytes out, then whatever is in. -/
theorem session_conserves_exchange :
    let w := openConn [104]
    let s := (w.fdAt 0).sock
    ∃ sys, (session .default 48 [.send [1, 2], .recv 16]).run w [idle 0, ⟨1, exchange⟩, idle 2]
        = (some ([104, 105], [1, 2]), sys) ∧
      rxOf s w ++ (Others.gaps Event.ends w sys.log sys.world).flatMap (Others.grown (rxOf s))
        = [104, 105] ++ rxOf s sys.world ∧
      unsentOf s w ++ [1, 2] = (Others.gaps Event.ends w sys.log sys.world).flatMap (Others.drained (unsentOf s))
        ++ unsentOf s sys.world := by
  intro w s
  have hret : ((session .default 48 [.send [1, 2], .recv 16]).run w [idle 0, ⟨1, exchange⟩, idle 2]).1
      = some ([104, 105], [1, 2]) := by decide +kernel
  obtain ⟨sys, hrun⟩ : ∃ sys, (session .default 48 [.send [1, 2], .recv 16]).run w [idle 0, ⟨1, exchange⟩, idle 2]
      = (some ([104, 105], [1, 2]), sys) := ⟨_, Prod.ext hret rfl⟩
  have hfd : fdIndex .default 48 = some 0 := by decide
  have hk : (w.fdAt 0).kind = .tcp := by decide
  have hc : (w.fdAt 0).connected = true := by decide
  have hlen : ∀ buf, StreamCall.send buf ∈ [.send [1, 2], .recv 16] → buf.length ≤ intMax := by
    intro buf hbuf
    obtain rfl : buf = [1, 2] := by simpa using hbuf
    decide
  refine ⟨sys, hrun, session_conserves TcpApi.duplex_reference hfd hk hc hlen (fun m hm v => ?_) hrun⟩
  simp only [List.mem_cons, List.not_mem_nil, or_false] at hm
  obtain rfl | rfl | rfl := hm
  · exact LetBe.refl v
  · exact letBe_exchange v
  · exact LetBe.refl v

end EspSmoltcp
