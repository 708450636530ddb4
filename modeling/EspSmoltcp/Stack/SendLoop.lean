import EspSmoltcp.Machinery.Tally
import EspSmoltcp.Stack.Traffic

/-!
# Stack/SendLoop — what `net_tcp_send` puts into the socket

`net_tcp_send` offers the rest of its buffer until all of it is taken or a clock reading is past the
deadline.  An attempt may take a part, nothing, or fail.

What the attempts of a run put into the socket, one after the other, is a beginning of the buffer, of the
length the loop has counted (`sendTurn_writes`); so a call that returns has put in what it says, and
returns less than the whole only after its deadline (`netTcpSend_prefix`).
-/

namespace EspSmoltcp

open Thread (Triple)

variable {S : Smoltcp}

/-- One attempt of `net_tcp_send`. -/
def sendCall (h : IfaceId) (id : UInt32) (buf : Bytes) (w : World S) : Int × World S :=
  w.ffi h (-1) (smoltcpTcpSend · id buf)

/-- One turn of the loop of `net_tcp_send`. -/
def sendTurn (h : IfaceId) (id deadline : UInt32) (buf : Bytes) (total : ℕ) : Code S (ℕ ⊕ ℕ) := do
  if total < buf.length then
    let n ← atomically (sendCall h id (buf.drop total))
    if 0 < n then pure (.inl (total + n.toNat))
    else if deadline ≤ (← xTaskGetTickCount) then pure (.inr total)
    else
      blockingWait
      pure (.inl total)
  else pure (.inr total)

/-- The call, its loop by name. -/
theorem netTcpSend_eq (cfg : Config) (s : NetSock) (buf : Bytes) (timeoutMs : UInt32) :
    netTcpSend (S := S) cfg s buf timeoutMs = (do
      match handleFor (← Thread.world) s.iface with
      | none => pure (-1)
      | some h =>
        let start ← xTaskGetTickCount
        let total ← Thread.loop (fun total => buf.length - total)
          (sendTurn h s.localId (start + cfg.msToTicks timeoutMs) buf) 0
        pure (if total ≠ 0 then asInt total else -1)) := rfl

/-! ## What is put in -/

/-- The bytes the socket has accepted and not yet transmitted. -/
def unsentOf (s : NetSock) (w : World S) : Bytes := (w.tcpOf s).elim [] S.tcp.unsent

/-- The event put these bytes at the end of the socket's transmit queue. -/
def Event.Appends (s : NetSock) : Event S → Bytes → Prop
  | .step _ w w', chunk => unsentOf s w' = unsentOf s w ++ chunk
  | .readable .., chunk => chunk = []
  | .wait, chunk => chunk = []

theorem Event.Appends.unique {s : NetSock} : Relator.RightUnique (Event.Appends (S := S) s) := by
  intro e a b ha hb
  cases e with
  | step _ w w' => exact List.append_cancel_left (ha.symm.trans hb)
  | readable => exact Eq.trans ha (Eq.symm hb)
  | wait => exact Eq.trans ha (Eq.symm hb)

/-- The events, newest first, put these bytes into the socket, one event after the other. -/
def Sends (s : NetSock) (log : List (Event S)) (sent : Bytes) : Prop := AddsUp (Event.Appends s) log sent

/-! ## One attempt -/

section Attempt

variable {s : NetSock} {h : IfaceId} {w : World S}

theorem unsentOf_of_ctx {ctx : IfaceCtx S} (hs : s.iface = h.code) (hctx : w.ctx h = some ctx) :
    unsentOf s w = ((ctx.entryAt s.localId).bind (·.2.tcp?)).elim [] S.tcp.unsent := by
  rw [unsentOf, World.tcpOf, World.entryOf_of_ctx hs hctx]

/-- `smoltcp_tcp_send` fails and touches no socket, or is a `send_slice`. -/
theorem smoltcpTcpSend_cases (ctx : IfaceCtx S) (id : UInt32) (data : Bytes) :
    (∃ ctx', smoltcpTcpSend ctx id data = (-1, ctx') ∧ ctx'.entryAt = ctx.entryAt) ∨
      ∃ sh x n x', ctx.entryAt id = some (sh, .tcp x) ∧ S.tcp.sendSlice x data = some (n, x') ∧
        smoltcpTcpSend ctx id data = ((n : Int), ctx.setSocket sh (.tcp x')) := by
  rw [smoltcpTcpSend]
  obtain h | h | ⟨sh, x, he, h⟩ := ctx.withTcp_cases id (-1) _
  · exact .inl ⟨ctx, h, rfl⟩
  · exact .inl ⟨ctx.panic, h, rfl⟩
  · rw [h]
    rcases hsend : S.tcp.sendSlice x data with _ | ⟨n, x'⟩
    · have hs := (IfaceCtx.entryAt_eq_some.mp he).2
      exact .inl ⟨_, rfl, congrArg IfaceCtx.entryAt (IfaceCtx.setSocket_self hs)⟩
    · exact .inr ⟨sh, x, n, x', he, hsend, rfl⟩

/-- **An attempt puts in as much of the beginning of what it is offered as it says.** -/
theorem sendCall_appends (hs : s.iface = h.code) (data : Bytes) (w : World S) :
    (sendCall h s.localId data w).1.toNat ≤ data.length ∧
      unsentOf s (sendCall h s.localId data w).2
        = unsentOf s w ++ data.take (sendCall h s.localId data w).1.toNat := by
  rw [sendCall]
  rcases hctx : w.ctx h with _ | ctx
  · rw [World.ffi, hctx]
    simp
  rw [World.ffi_of_ctx hctx, unsentOf_of_ctx hs hctx, unsentOf_of_ctx hs (World.ctx_setCtx_self w h _)]
  obtain ⟨ctx', hsend, hentry⟩ | ⟨sh, x, n, x', he, hslice, hsend⟩ :=
    smoltcpTcpSend_cases ctx s.localId data
  · rw [hsend, hentry]
    simp
  · obtain ⟨hn, hunsent, -⟩ := S.tcp.sendSlice_spec x data n x' hslice
    rw [hsend, IfaceCtx.entryAt_setSocket, he]
    simpa [Socket.tcp?] using ⟨hn, hunsent⟩

end Attempt

/-! ## The loop -/

/-- A run that started with this schedule has gone so far. -/
def Reached (sched : List (Moment (World S))) (sys : Sys (World S) (Event S)) : Prop :=
  ∃ past, sched = past ++ sys.sched

/-- The last thing the run did was an attempt that put nothing in; after it the clock was read once more,
and the reading was at or past the deadline. -/
def GaveUp (s : NetSock) (deadline : UInt32) (sched : List (Moment (World S)))
    (sys : Sys (World S) (Event S)) : Prop :=
  (∃ past m, sched = past ++ m :: sys.sched ∧ deadline ≤ m.now) ∧
    ∃ w w' log, sys.log = .step .other w w' :: log ∧ unsentOf s w' = unsentOf s w

/-- So much of the buffer is in the socket. -/
def Written (s : NetSock) (buf : Bytes) (total : ℕ) (sys : Sys (World S) (Event S)) : Prop :=
  total ≤ buf.length ∧ Sends s sys.log (buf.take total)

section Loop

variable {s : NetSock} {h : IfaceId} {deadline : UInt32} {buf : Bytes}
  {sched : List (Moment (World S))}

/-- **A turn counts what it puts in**, and leaves with less than the whole only past the deadline. -/
theorem sendTurn_writes (hs : s.iface = h.code) (total : ℕ) :
    Triple (fun sys => Reached sched sys ∧ Written s buf total sys)
      (sendTurn h s.localId deadline buf total)
      (fun r sys => Sum.elim (fun total => Reached sched sys ∧ Written s buf total sys)
        (fun total => Written s buf total sys ∧ (total < buf.length → GaveUp s deadline sched sys)) r)
      fun sys => ∃ total, Written s buf total sys := by
  rintro ⟨w, ms, l⟩ ⟨⟨past, rfl⟩, hle, hsent⟩
  rw [sendTurn]
  by_cases hlt : total < buf.length
  swap
  · rw [if_neg hlt]
    exact ⟨⟨hle, hsent⟩, fun h => absurd h hlt⟩
  rw [if_pos hlt, atomically_bind_apply]
  obtain ⟨hn, happends⟩ := sendCall_appends hs (buf.drop total) w
  generalize sendCall h s.localId (buf.drop total) w = r at hn happends ⊢
  obtain ⟨n, w'⟩ := r
  simp only at hn happends ⊢
  have hwritten : Sends s (.step .other w w' :: l) (buf.take (total + n.toNat)) := by
    rw [List.take_add]
    exact AddsUp.cons hsent happends
  rw [List.length_drop] at hn
  by_cases hpos : 0 < n
  · rw [if_pos hpos]
    exact ⟨⟨past, rfl⟩, by omega, hwritten⟩
  rw [if_neg hpos]
  have hzero : n.toNat = 0 := by omega
  rw [hzero, List.take_zero, List.append_nil] at happends
  rw [hzero, Nat.add_zero] at hwritten
  rcases ms with _ | ⟨m, ms⟩
  · exact ⟨total, hle, hwritten⟩
  rw [xTaskGetTickCount_bind_cons]
  by_cases hlate : deadline ≤ m.now
  · rw [if_pos hlate]
    exact ⟨⟨hle, hwritten⟩, fun _ => ⟨⟨past, m, rfl, hlate⟩, w, w', l, rfl, happends⟩⟩
  rw [if_neg hlate]
  have hwaited : Sends s (.wait :: .step .other w w' :: l) (buf.take total) := hwritten.cons_nil rfl
  rcases ms with _ | ⟨v, ms⟩
  · exact ⟨total, hle, hwaited⟩
  · exact ⟨⟨past ++ [m, v], by simp⟩, hle, hwaited⟩

/-- So does the loop. -/
theorem sendLoop_writes (hs : s.iface = h.code) :
    Triple (fun sys => Reached sched sys ∧ Written s buf 0 sys)
      (Thread.loop (fun total => buf.length - total) (sendTurn h s.localId deadline buf) 0)
      (fun total sys => Written s buf total sys ∧ (total < buf.length → GaveUp s deadline sched sys))
      fun sys => ∃ total, Written s buf total sys :=
  Triple.loop (I := fun total sys => Reached sched sys ∧ Written s buf total sys)
    (fun total _ hI => ⟨total, hI.2⟩) (sendTurn_writes hs) 0

/-- What is in the socket decides what the call returns. -/
theorem sends_iff_neg_one {total : ℕ} {sys : Sys (World S) (Event S)} (h : Written s buf total sys) :
    (if total ≠ 0 then (total : Int) else -1) = -1 ↔ Sends s sys.log [] := by
  obtain ⟨hle, hsent⟩ := h
  by_cases hzero : total = 0
  · subst hzero
    exact iff_of_true rfl hsent
  · rw [if_pos hzero]
    refine iff_of_false (by omega) fun hnone => ?_
    have hlen := congrArg List.length (hsent.unique Event.Appends.unique hnone)
    rw [List.length_take, List.length_nil] at hlen
    omega

/-- **`net_tcp_send` puts in what it says it puts in**: as many bytes of the beginning of the buffer as it
returns, none if it returns -1, and less than the whole only past the deadline.  The length of the buffer is one
that an `int` can be. -/
theorem netTcpSend_prefix {cfg : Config} {timeoutMs : UInt32} {w : World S} {r : Int}
    {sys : Sys (World S) (Event S)} (hlen : buf.length ≤ intMax)
    (hrun : (netTcpSend cfg s buf timeoutMs).run w sched = (some r, sys)) :
    (r = -1 ∨ 0 < r ∧ r ≤ buf.length) ∧ Sends s sys.log (buf.take r.toNat) ∧
      (r = -1 ↔ Sends s sys.log []) ∧ (buf = [] ∨ handleFor w s.iface = none → r = -1) ∧
      (buf ≠ [] → handleFor w s.iface ≠ none → r < buf.length →
        ∃ m ms, sched = m :: ms ∧ GaveUp s (m.now + cfg.msToTicks timeoutMs) ms sys) := by
  rw [Code.run, netTcpSend_eq, Thread.world_bind_apply] at hrun
  rcases hh : handleFor w s.iface with _ | h
  · rw [hh] at hrun
    obtain ⟨hr, rfl⟩ := Prod.mk.inj hrun
    obtain rfl := Option.some.inj hr
    exact ⟨.inl rfl, AddsUp.nil _, iff_of_true rfl (AddsUp.nil _), fun _ => rfl, fun _ h => absurd rfl h⟩
  rw [hh] at hrun
  simp only at hrun
  rcases sched with _ | ⟨m, ms⟩
  · cases hrun
  rw [xTaskGetTickCount_bind_cons] at hrun
  obtain ⟨total, sys', hloop, hret⟩ := Thread.bind_eq_some.mp hrun
  obtain ⟨hr, rfl⟩ := Prod.mk.inj hret
  obtain rfl := Option.some.inj hr
  have hstart : Reached ms (⟨m.env w, ms, []⟩ : Sys (World S) (Event S)) ∧
      Written s buf 0 ⟨m.env w, ms, []⟩ :=
    ⟨⟨[], rfl⟩, Nat.zero_le _, AddsUp.nil _⟩
  obtain ⟨hwritten, hgave⟩ := (sendLoop_writes (of_handleFor_eq_some hh).1).of_some hstart hloop
  have hle := hwritten.1
  rw [asInt_of_le (Nat.le_trans hle hlen)]
  refine ⟨?_, ?_, sends_iff_neg_one hwritten, ?_, fun hbuf _ hlt => ⟨m, ms, rfl, hgave ?_⟩⟩
  · split_ifs <;> omega
  · by_cases hzero : total = 0
    · subst hzero
      exact hwritten.2
    · rw [if_pos hzero, Int.toNat_natCast]
      exact hwritten.2
  · rintro (rfl | hnone)
    · rw [if_neg (not_not_intro (Nat.le_zero.mp hle))]
    · cases hnone
  · have := List.length_pos_iff.mpr hbuf
    split_ifs at hlt <;> omega

end Loop

/-- A socket that takes nothing: the connection is gone. -/
def deadConn : World .reference := oneSocket (.tcp { state := .closed }) { kind := .tcp, connected := true }

/-- A call on it fails when its time is up. -/
theorem netTcpSend_prefix_deadConn : ∃ sys,
    (netTcpSend .default ⟨1⟩ [1, 2, 3] 5000).run deadConn [idle 0, idle 5001] = (some (-1), sys) ∧
      Sends ⟨1⟩ sys.log [] ∧ ∃ m ms, [idle 0, idle 5001] = m :: ms ∧
        GaveUp ⟨1⟩ (m.now + Config.default.msToTicks 5000) ms sys := by
  obtain ⟨sys, hrun⟩ : ∃ sys,
      (netTcpSend .default ⟨1⟩ [1, 2, 3] 5000).run deadConn [idle 0, idle 5001] = (some (-1), sys) :=
    ⟨_, rfl⟩
  have h := netTcpSend_prefix (by decide) hrun
  exact ⟨sys, hrun, h.2.1, h.2.2.2.2 (by decide) (by decide) (by decide)⟩

/-- **Nothing to send fails at once**: the clock is read only for the deadline. -/
theorem send_nothing_fails_at_once : ∃ sys,
    (netTcpSend .default ⟨1⟩ [] 5000).run deadConn [idle 0] = (some (-1), sys) ∧
      (-1 : ℤ) < ([] : Bytes).length ∧
      ¬ ∃ m ms, [idle 0] = m :: ms ∧ GaveUp ⟨1⟩ (m.now + Config.default.msToTicks 5000) ms sys := by
  refine ⟨_, rfl, by decide, ?_⟩
  rintro ⟨m, ms, hsched, ⟨past, m', hms, -⟩, -⟩
  obtain ⟨-, rfl⟩ := List.cons.inj hsched
  simp at hms

end EspSmoltcp
