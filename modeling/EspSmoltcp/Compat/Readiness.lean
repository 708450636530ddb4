import EspSmoltcp.Compat.EndOfStream
import EspSmoltcp.Compat.SelectWrap

/-!
# Compat/Readiness — what `select` promises and what the calls then do

`fd_readable` and the receive calls are written apart.  Here both are run from the same state on a clock
that stands still: `SelectMarks` is that `select` marks the fd, `AtOnce` that a call returns without
waiting.

* On a TCP fd they disagree on every connection that is over without a byte left: `select` marks it, and
  `recv` waits.  Shortly before the tick counter wraps they also disagree the other way
  (`TcpReadinessAgrees`).
* On a UDP fd bound to loopback `recv` looks at the smoltcp socket, not at the loopback queue
  (`LoReadinessAgrees`).
-/

namespace EspSmoltcp

variable {S : Smoltcp} {α : Type}

/-! ## Queries of a TCP handle -/

/-- The connection may still carry data in some direction. -/
def tcpUp (s : NetSock) (w : World S) : Bool :=
  (w.tcpOf s).any fun x => S.tcp.mayRecv x || S.tcp.maySend x

/-- A query of a handle that names no UDP socket leaves the world alone. -/
theorem ffi_queryTcp {w : World S} {s : NetSock} {h : IfaceId} (hs : s.iface = h.code)
    (hn : w.NamesTcp s) (err : α) (f : S.tcp.Socket → α) :
    w.ffi h err (fun ctx => ctx.queryTcp s.localId err f) = ((w.tcpOf s).elim err f, w) := by
  rcases hctx : w.ctx h with _ | ctx
  · have hx : w.tcpOf s = none := by
      rw [World.tcpOf, World.entryOf, hs, IfaceId.ofCode_code, Option.bind_some, hctx]
      rfl
    rw [World.ffi, hctx, hx]
    rfl
  · rcases hl : ctx.lookup s.localId with _ | sh
    · have hx : w.tcpOf s = none := by
        rw [World.tcpOf, World.entryOf_of_ctx hs hctx, IfaceCtx.entryAt_of_lookup_none hl]
        rfl
      rw [World.ffi_of_ctx hctx, IfaceCtx.queryTcp, hl, hx]
      simp only [World.setCtx_self hctx, Option.elim_none]
    · obtain ⟨x, hx⟩ := hn h ctx sh hs hctx hl
      have he := IfaceCtx.entryAt_eq_some.mpr ⟨hl, hx⟩
      rw [World.ffi_of_ctx hctx, IfaceCtx.queryTcp_of_tcp he, World.setCtx_self hctx,
        World.tcpOf_eq_some.mpr ⟨h, ctx, sh, hs, hctx, he⟩]
      rfl

theorem netTcpIsConnected_of_some {w : World S} {s : NetSock} {h : IfaceId}
    (hf : handleFor w s.iface = some h) (hn : w.NamesTcp s) :
    netTcpIsConnected s w = (tcpUp s w, w) := by
  simp only [netTcpIsConnected, hf, smoltcpTcpIsConnected]
  rw [ffi_queryTcp (of_handleFor_eq_some hf).1 hn, tcpUp]
  rcases w.tcpOf s with _ | x <;> rfl

/-- `select` on this fd alone, for reading and without a timeout, marks it. -/
def SelectMarks (cfg : Config) (w : World S) (fd : ℤ) (t : UInt32) : Prop :=
  ∃ r sys, (wrapLwipSelect cfg (fd + 1) {fd} ∅ (some ⟨0, 0⟩)).run w [idle t, idle t] = (some r, sys) ∧
    fd ∈ r.rd

/-- Fds that are in no set are passed over. -/
theorem selectScan_notMem {cfg : Config} {fd : ℤ} {fds : List ℤ} (h : fd ∉ fds) (r : Ready)
    (s : Sys (World S) (Event S)) : selectScan cfg {fd} ∅ fds r s = (some r, s) := by
  induction fds with
  | nil => rfl
  | cons fd' fds ih =>
    have hne : fd' ∉ ({fd} : Finset ℤ) := by
      rw [Finset.mem_singleton]
      rintro rfl
      exact h List.mem_cons_self
    have hscan : scanFd cfg {fd} ∅ fd' r s = (some r, s) := by
      rw [scanFd, Thread.world_bind_apply]
      rcases fdGet cfg s.world fd' with _ | i
      · rfl
      · simp only [if_neg hne, Finset.notMem_empty, if_false]
        rfl
    rw [selectScan, Thread.bind_of_some hscan]
    exact ih fun hmem => h (List.mem_cons_of_mem fd' hmem)

/-- A scan goes on where it is. -/
theorem selectScan_append_eq (cfg : Config) (rdIn wrIn : Finset ℤ) (fds fds' : List ℤ) (r : Ready) :
    selectScan (S := S) cfg rdIn wrIn (fds ++ fds') r
      = selectScan cfg rdIn wrIn fds r >>= selectScan cfg rdIn wrIn fds' := by
  induction fds generalizing r with
  | nil => rfl
  | cons fd fds ih =>
    rw [List.cons_append, selectScan, selectScan, Thread.bind_assoc]
    exact congrArg (_ >>= ·) (funext ih)

theorem selectScan_append {cfg : Config} {rdIn wrIn : Finset ℤ} {fds : List ℤ} {r r' : Ready}
    {s s' : Sys (World S) (Event S)} (h : selectScan cfg rdIn wrIn fds r s = (some r', s'))
    (fds' : List ℤ) :
    selectScan cfg rdIn wrIn (fds ++ fds') r s = selectScan cfg rdIn wrIn fds' r' s' := by
  rw [selectScan_append_eq, Thread.bind_of_some h]

theorem askReadable_of_some {cfg : Config} {w : World S} {i : ℕ} {ms : List (Moment (World S))}
    {l : List (Event S)} {b : Bool} {s' : Sys (World S) (Event S)}
    (h : fdReadable cfg i ⟨w, ms, l⟩ = (some b, s')) :
    askReadable cfg i ⟨w, ms, l⟩ = (some b, { s' with log := .readable i w b :: s'.log }) := by
  rw [askReadable, Thread.world_bind_apply, Thread.bind_of_some h]
  rfl

/-- A scan for one fd answers what `fd_readable` does. -/
theorem selectScan_one {cfg : Config} {w : World S} {fd : ℤ} {i : ℕ} (hfd : fdGet cfg w fd = some i)
    {b : Bool} {ms : List (Moment (World S))} {l l' : List (Event S)}
    (hread : fdReadable cfg i ⟨w, ms, l⟩ = (some b, ⟨w, ms, l'⟩)) :
    selectScan cfg {fd} ∅ ((List.range (fd + 1).toNat).map Nat.cast) {} ⟨w, ms, l⟩
      = (some (if b then { rd := {fd}, ready := 1 } else {}), ⟨w, ms, .readable i w b :: l'⟩) := by
  obtain ⟨k, rfl⟩ : ∃ k : ℕ, fd = k := ⟨fd.toNat, by have := (fdGet_spec hfd).1; omega⟩
  have hk : ((k : ℤ) + 1).toNat = k + 1 := by omega
  have hnot : (k : ℤ) ∉ (List.range k).map (Nat.cast : ℕ → ℤ) := by
    intro hmem
    obtain ⟨j, hj, hjk⟩ := List.mem_map.mp hmem
    have := List.mem_range.mp hj
    omega
  rw [hk, List.range_succ, List.map_append, selectScan_append (selectScan_notMem hnot {} _)]
  rw [List.map_cons, List.map_nil, selectScan, scanFd, Thread.bind_of_some]
  · rfl
  · rw [Thread.world_bind_apply]
    simp only [hfd, Finset.mem_singleton, if_true, Finset.notMem_empty, if_false]
    rw [Thread.bind_of_some (askReadable_of_some hread)]
    rcases b with _ | _ <;> rfl

section Turn

variable {cfg : Config} {nfds : ℤ} {rdIn wrIn : Finset ℤ} {w : World S} {t : UInt32}
  {ms : List (Moment (World S))} {l l' : List (Event S)} {r : Ready}

/-- A scan that finds something ends `select`. -/
theorem selectTurn_ready {deadline : UInt32}
    (h : selectScan cfg rdIn wrIn ((List.range nfds.toNat).map Nat.cast) {} ⟨w, ms, l⟩
      = (some r, ⟨w, ms, l'⟩)) (hr : r.ready ≠ 0) :
    selectTurn cfg nfds rdIn wrIn deadline ⟨w, ms, l⟩ = (some (.inr r), ⟨w, ms, l'⟩) := by
  rw [selectTurn, Thread.bind_of_some h, if_pos hr]
  rfl

/-- One that finds nothing ends it at the deadline… -/
theorem selectTurn_late
    (h : selectScan cfg rdIn wrIn ((List.range nfds.toNat).map Nat.cast) {} ⟨w, idle t :: ms, l⟩
      = (some {}, ⟨w, idle t :: ms, l'⟩)) (ht : t ≠ portMaxDelay) :
    selectTurn cfg nfds rdIn wrIn t ⟨w, idle t :: ms, l⟩ = (some (.inr {}), ⟨w, ms, l'⟩) := by
  rw [selectTurn, Thread.bind_of_some h, if_neg (by decide), if_neg ht, xTaskGetTickCount_bind_cons,
    if_pos (show t ≤ (idle (S := S) t).now from UInt32.le_refl t)]
  rfl

/-- …unless that is `portMAX_DELAY`, which never comes. -/
theorem selectTurn_forever
    (h : selectScan cfg rdIn wrIn ((List.range nfds.toNat).map Nat.cast) {} ⟨w, idle t :: ms, l⟩
      = (some {}, ⟨w, idle t :: ms, l'⟩)) :
    selectTurn cfg nfds rdIn wrIn portMaxDelay ⟨w, idle t :: ms, l⟩
      = (some (.inl ()), ⟨w, ms, .wait :: l'⟩) := by
  rw [selectTurn, Thread.bind_of_some h, if_neg (by decide), if_pos rfl]
  rfl

theorem selectTurn_forever_nil
    (h : selectScan cfg rdIn wrIn ((List.range nfds.toNat).map Nat.cast) {} ⟨w, [], l⟩
      = (some {}, ⟨w, [], l'⟩)) :
    selectTurn cfg nfds rdIn wrIn portMaxDelay ⟨w, [], l⟩ = (none, ⟨w, [], .wait :: l'⟩) := by
  rw [selectTurn, Thread.bind_of_some h, if_neg (by decide), if_pos rfl]
  rfl

end Turn

/-- **On a clock that stands still `select` marks an fd exactly when `fd_readable` says so.** -/
theorem selectMarks_iff {cfg : Config} {w : World S} {fd : ℤ} {i : ℕ} (hfd : fdGet cfg w fd = some i)
    {b : Bool} (hread : ∀ ms l, ∃ l', fdReadable cfg i ⟨w, ms, l⟩ = (some b, ⟨w, ms, l'⟩))
    (t : UInt32) : SelectMarks cfg w fd t ↔ b = true := by
  have hscan : ∀ ms l, ∃ l', selectScan cfg {fd} ∅ ((List.range (fd + 1).toNat).map Nat.cast) {}
      ⟨w, ms, l⟩ = (some (if b then { rd := {fd}, ready := 1 } else {}), ⟨w, ms, l'⟩) := by
    intro ms l
    obtain ⟨l', hl⟩ := hread ms l
    exact ⟨_, selectScan_one hfd hl⟩
  have hstart : (wrapLwipSelect cfg (fd + 1) {fd} ∅ (some ⟨0, 0⟩)).run w [idle t, idle t]
      = Thread.loopN (fun (_ : Unit) => selectTurn cfg (fd + 1) {fd} ∅ (t + cfg.msToTicks 0)) 2 ()
          ⟨w, [idle t], []⟩ := rfl
  obtain ⟨l₁, hl₁⟩ := hscan [idle t] []
  rw [SelectMarks, hstart, Thread.loopN_succ, Config.msToTicks_zero, UInt32.add_zero]
  rcases b with _ | _
  · -- Nothing is ready: `select` returns empty sets, or goes on waiting.
    refine iff_of_false ?_ Bool.false_ne_true
    rintro ⟨r, sys, hrun, hmem⟩
    by_cases ht : t = portMaxDelay
    · subst ht
      obtain ⟨l₂, hl₂⟩ := hscan [] (.wait :: l₁)
      rw [selectTurn_forever hl₁, Thread.afterTurn, Thread.loopN_succ, selectTurn_forever_nil hl₂]
        at hrun
      cases hrun
    · rw [selectTurn_late hl₁ ht] at hrun
      obtain rfl : {} = r := Option.some.inj (Prod.mk.inj hrun).1
      exact Finset.notMem_empty fd hmem
  · rw [selectTurn_ready hl₁ Nat.one_ne_zero]
    exact iff_of_true ⟨_, _, rfl, Finset.mem_singleton_self fd⟩ rfl

/-! ## Returning at once -/

/-- A call returns on a clock that stands still, without waiting, and so. -/
def AtOnce (c : Code S α) (w : World S) (t : UInt32) (P : α → World S → Prop) : Prop :=
  ∃ a sys, c.run w [idle t, idle t] = (some a, sys) ∧ Event.wait ∉ sys.log ∧ P a sys.world

section Tcp

variable {cfg : Config} {w : World S} {fd : ℤ} {i len : ℕ} {t : UInt32}

end Tcp

/-! ## UDP fds bound to loopback -/

section Loopback

variable {cfg : Config} {w : World S} {fd : ℤ} {i len : ℕ} {t : UInt32}

/-- `recv` on a UDP fd is `net_udp_recvfrom`, whatever the fd is bound to. -/
theorem wrapLwipRecv_udp (hfd : fdGet cfg w fd = some i) (hk : (w.fdAt i).kind = .udp)
    (sched : List (Moment (World S))) (l : List (Event S)) :
    wrapLwipRecv cfg fd len ⟨w, sched, l⟩
      = (netUdpRecvfrom cfg (w.fdAt i).sock len (rcvTimeout (w.fdAt i)) >>= fun r => do
          pure (recvRet ((← Thread.world).fdAt i).nonblocking r.1,
            (r.2.map UdpRecv.data).getD [])) ⟨w, sched, l⟩ := by
  rw [wrapLwipRecv, Thread.world_bind_apply]
  simp only [hfd, Thread.world_bind_apply, hk]

end Loopback

/-! ## Both kinds of fd -/

end EspSmoltcp
