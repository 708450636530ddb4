import EspSmoltcp.Compat.SockWrap
import EspSmoltcp.Smoltcp.Reference
import EspSmoltcp.Stack.RecvLoop

/-!
# Compat/EndOfStream — what `recv` reports on a TCP fd

`smoltcp_tcp_recv` tells "nothing yet" from "no more", but `net_tcp_recv` retries on both and returns 0
when the deadline passes, and `__wrap_lwip_recv` turns that 0 into `EWOULDBLOCK` on a non-blocking fd.
So when no byte comes in time the result depends on the mode of the fd, not on the connection: a
blocking fd always reports end of stream, a non-blocking one never does (`recvHonest_iff`).
-/

namespace EspSmoltcp

variable {S : Smoltcp}

/-! ## The connection, and what a receive says about it -/

/-- The peer has closed its direction and every received byte has been read. -/
def ClosedDrained (w : World S) (s : NetSock) : Prop :=
  ∃ x, w.tcpOf s = some x ∧ S.tcp.peerFin x = true ∧ S.tcp.rxQueue x = []

/-- The connection is open and no byte is waiting. -/
def OpenEmpty (w : World S) (s : NetSock) : Prop :=
  ∃ x, w.tcpOf s = some x ∧ (S.tcp.state x).rxOpen = true ∧ S.tcp.rxQueue x = []

theorem OpenEmpty.not_closedDrained {w : World S} {s : NetSock} (h : OpenEmpty w s) :
    ¬ ClosedDrained w s := by
  rintro ⟨x, hx, hfin, -⟩
  obtain ⟨y, hy, ho, -⟩ := h
  obtain rfl := Option.some.inj (hx.symm.trans hy)
  rw [S.tcp.peerFin_rxOpen x ho] at hfin
  cases hfin

/-- The result of a receive agrees with the connection as the call returns: 0 only at the end of the
stream, `-1` on an open connection that delivered nothing, and 0 at the end of the stream. -/
structure RecvHonest (s : NetSock) (r : Ret × Bytes) (w : World S) : Prop where
  zero : r.1.ret = 0 → ClosedDrained w s
  timeout : r.2 = [] → OpenEmpty w s → r.1.ret = -1
  eof : r.2 = [] → ClosedDrained w s → r.1.ret = 0

/-- To say 0 is honest exactly at the end of the stream… -/
theorem recvHonest_zero {s : NetSock} {r : Ret} {w : World S} (hr : r.ret = 0) :
    RecvHonest s (r, []) w ↔ ClosedDrained w s :=
  ⟨fun h => h.zero hr,
    fun h => ⟨fun _ => h, fun _ ho => absurd h ho.not_closedDrained, fun _ _ => hr⟩⟩

/-- …and to say `-1` exactly elsewhere. -/
theorem recvHonest_neg_one {s : NetSock} {r : Ret} {w : World S} (hr : r.ret = -1) :
    RecvHonest s (r, []) w ↔ ¬ ClosedDrained w s := by
  have hne : r.ret ≠ 0 := by rw [hr]; decide
  exact ⟨fun h hc => hne (h.eof rfl hc),
    fun h => ⟨fun h0 => absurd h0 hne, fun _ _ => hr, fun _ hc => absurd hc h⟩⟩

/-- To deliver bytes is always honest. -/
theorem recvHonest_bytes {s : NetSock} {r : Ret} {data : Bytes} {w : World S} (hr : r.ret ≠ 0)
    (hdata : data ≠ []) : RecvHonest s (r, data) w :=
  ⟨fun h0 => absurd h0 hr, fun h => absurd h hdata, fun h => absurd h hdata⟩

/-! ## How the call ends -/

/-- The others, while a call on `s` runs: they drive the connection, and leave the fd table and the
type of the socket alone. -/
structure ConnEnv (s : NetSock) (m : Moment (World S)) : Prop where
  fds : ∀ w, (m.env w).fds = w.fds
  names : ∀ w, w.NamesTcp s → (m.env w).NamesTcp s

/-- How the loop of a receive on this entry ends, once its interface is found. -/
def recvFate (cfg : Config) (w : World S) (e : FdEntry) : List (Moment (World S)) → Fate S
  | [] => .pending
  | m :: ms => fate (m.now + cfg.msToTicks (rcvTimeout e)) (tcpReady e.sock) (m.env w) ms

/-- The call comes to an end: its interface is missing, bytes come in time, or the clock is read past
the deadline. -/
def RecvEnds (cfg : Config) (w : World S) (e : FdEntry) (sched : List (Moment (World S))) : Prop :=
  handleFor w e.sock.iface = none ∨ recvFate cfg w e sched ≠ .pending

/-- When the result is honest: bytes come in time; or they do not, and the peer of a blocking fd has
closed and was read out, or that of a non-blocking one has not. -/
def RecvHonestWhen (cfg : Config) (w : World S) (e : FdEntry) (sched : List (Moment (World S))) :
    Prop :=
  match handleFor w e.sock.iface with
  | none => ¬ ClosedDrained w e.sock
  | some _ =>
    match recvFate cfg w e sched with
    | .late w' => if e.nonblocking then ¬ ClosedDrained w' e.sock else ClosedDrained w' e.sock
    | _ => True

/-! ## The call -/

/-- On a TCP fd `recv` is `net_tcp_recv`, and a look at the mode of the fd. -/
theorem wrapLwipRecv_tcp {cfg : Config} {fd : ℤ} {w : World S} {i : ℕ} (hfd : fdGet cfg w fd = some i)
    (hk : (w.fdAt i).kind = .tcp) (len : ℕ) (sched : List (Moment (World S))) (l : List (Event S)) :
    wrapLwipRecv cfg fd len ⟨w, sched, l⟩
      = (netTcpRecv cfg (w.fdAt i).sock len (rcvTimeout (w.fdAt i)) >>= fun r => do
          pure (recvRet ((← Thread.world).fdAt i).nonblocking r.1, r.2)) ⟨w, sched, l⟩ := by
  rw [wrapLwipRecv, Thread.world_bind_apply]
  simp only [hfd, Thread.world_bind_apply, hk]

theorem netTcpRecv_of_none {cfg : Config} {s : NetSock} {w : World S}
    (h : handleFor w s.iface = none) (cap : ℕ) (timeoutMs : UInt32) (sched : List (Moment (World S)))
    (l : List (Event S)) :
    netTcpRecv cfg s cap timeoutMs ⟨w, sched, l⟩ = (some (-1, []), ⟨w, sched, l⟩) := by
  rw [netTcpRecv, Thread.world_bind_apply]
  simp only [h]
  rfl

theorem netTcpRecv_of_some (cfg : Config) {s : NetSock} {w : World S} {h : IfaceId}
    (hf : handleFor w s.iface = some h) (cap : ℕ) (timeoutMs : UInt32) (m : Moment (World S))
    (ms : List (Moment (World S))) (l : List (Event S)) :
    netTcpRecv cfg s cap timeoutMs ⟨w, m :: ms, l⟩
      = recvLoop .other (m.now + cfg.msToTicks timeoutMs) (tcpRecvProbe h s.localId cap) []
          ⟨m.env w, ms, l⟩ := by
  rw [netTcpRecv, Thread.world_bind_apply]
  simp only [hf, xTaskGetTickCount_bind_cons]

theorem recvFate_keeps {P : World S → Prop} {cfg : Config} {w w' : World S} {e : FdEntry}
    {sched : List (Moment (World S))} (hw : P w)
    (henv : ∀ m ∈ sched, ∀ w, P w → P (m.env w))
    (h : recvFate cfg w e sched = .hit w' ∨ recvFate cfg w e sched = .late w') : P w' := by
  rcases sched with _ | ⟨m, ms⟩
  · simp [recvFate] at h
  · exact fate_keeps _ ms (henv m List.mem_cons_self w hw)
      (fun m' hm' => henv m' (List.mem_cons_of_mem m hm')) w' h

/-- `net_tcp_recv` ends as its fate says. -/
theorem netTcpRecv_fate {cfg : Config} {w : World S} {e : FdEntry} {h : IfaceId} {len : ℕ}
    {sched : List (Moment (World S))} (hf : handleFor w e.sock.iface = some h) (hlen : 0 < len)
    (hn : w.NamesTcp e.sock) (henv : ∀ m ∈ sched, ConnEnv e.sock m) (l : List (Event S)) :
    (recvFate cfg w e sched).Ends (tcpRecvProbe h e.sock.localId len) []
      (netTcpRecv cfg e.sock len (rcvTimeout e) ⟨w, sched, l⟩) := by
  have hs := (of_handleFor_eq_some hf).1
  rcases sched with _ | ⟨m, ms⟩
  · rw [netTcpRecv, Thread.world_bind_apply]
    simp only [hf, xTaskGetTickCount_bind_nil]
    rfl
  · rw [netTcpRecv_of_some cfg hf]
    exact recvLoop_fate (tcpRecvProbe_spec hs hlen) .other _ [] (m.env w) ms l
      ((henv m List.mem_cons_self).names w hn)
      fun m' hm' => (henv m' (List.mem_cons_of_mem m hm')).names

/-- The bytes a probe reports are the bytes it delivers. -/
theorem tcpRecvProbe_data {s : NetSock} {h : IfaceId} (hs : s.iface = h.code) {cap : ℕ} {w : World S}
    (hn : w.NamesTcp s) (hpos : 0 < (tcpRecvProbe h s.localId cap w).1.1) :
    (tcpRecvProbe h s.localId cap w).1.2 ≠ [] := by
  rcases hx : w.tcpOf s with _ | x
  · rw [tcpRecvProbe_of_none hs hn hx] at hpos
    simp at hpos
  · obtain ⟨i, ctx, sh, hi, hctx, he⟩ := World.tcpOf_eq_some.mp hx
    obtain rfl := IfaceId.code_inj (hs.symm.trans hi)
    rw [tcpRecvProbe_of_tcp hctx he] at hpos ⊢
    rcases hr : (S.tcp.recvSlice x cap).1 with _ | data
    · simp [hr, recvCode] at hpos
    · rw [hr, recvCode] at hpos
      exact List.length_pos_iff.mp (Int.natCast_pos.mp hpos)

/-- **A receive on a TCP fd is honest exactly when bytes come in time, or the mode of the fd happens to
fit the connection.** -/
theorem recvHonest_iff {cfg : Config} {fd : ℤ} {len : ℕ} {w : World S} {i : ℕ}
    {sched : List (Moment (World S))} (hfd : fdGet cfg w fd = some i) (hk : (w.fdAt i).kind = .tcp)
    (hlen : 0 < len) (hn : w.NamesTcp (w.fdAt i).sock)
    (henv : ∀ m ∈ sched, ConnEnv (w.fdAt i).sock m) (hend : RecvEnds cfg w (w.fdAt i) sched) :
    ∃ r sys, (wrapLwipRecv cfg fd len).run w sched = (some r, sys) ∧
      (RecvHonest (w.fdAt i).sock r sys.world ↔ RecvHonestWhen cfg w (w.fdAt i) sched) := by
  rw [Code.run, wrapLwipRecv_tcp hfd hk]
  set e := w.fdAt i with he
  rcases hf : handleFor w e.sock.iface with _ | h
  · -- No interface: `-1` at once.
    rw [Thread.bind_of_some (netTcpRecv_of_none hf ..)]
    refine ⟨_, _, rfl, ?_⟩
    rw [RecvHonestWhen, hf]
    exact recvHonest_neg_one (by rw [recvRet, if_neg (by simp)])
  · have hs := (of_handleFor_eq_some hf).1
    have hends : (recvFate cfg w e sched).Ends _ [] _ := netTcpRecv_fate hf hlen hn henv []
    -- The mode is looked at where the loop ends; the fd table has not changed.
    have hfds : ∀ w', recvFate cfg w e sched = .hit w' ∨ recvFate cfg w e sched = .late w' →
        w'.fds = w.fds := fun w' =>
      recvFate_keeps (P := fun u => u.fds = w.fds) rfl
        fun m hm u hu => ((henv m hm).fds u).trans hu
    simp only [RecvHonestWhen, hf]
    rcases hfate : recvFate cfg w e sched with w' | w' | _
    · rw [hfate] at hends
      obtain ⟨hpos, hret, -⟩ := hends
      have hgood := recvFate_keeps (P := (World.NamesTcp · e.sock)) hn
        (fun m hm => (henv m hm).names) (.inl hfate)
      rw [Thread.bind_of_some (Prod.ext hret rfl)]
      refine ⟨_, _, rfl, iff_of_true (recvHonest_bytes ?_ (tcpRecvProbe_data hs hgood hpos)) trivial⟩
      rw [recvRet, if_neg (by omega)]
      exact Int.ne_of_gt hpos
    · rw [hfate] at hends
      obtain ⟨hret, hworld⟩ := hends
      have hnb : (w'.fdAt i).nonblocking = e.nonblocking := by
        rw [World.fdAt, hfds w' (.inr hfate), he, World.fdAt]
      rw [Thread.bind_of_some (Prod.ext hret rfl), Thread.world_bind_apply, hworld, hnb]
      refine ⟨_, _, rfl, ?_⟩
      rw [hworld]
      rcases hmode : e.nonblocking with _ | _
      · exact recvHonest_zero rfl
      · exact recvHonest_neg_one rfl
    · obtain hnone | hpend := hend
      · rw [hf] at hnone
        cases hnone
      · exact absurd hfate hpend

/-! ### An open connection that stays silent -/

theorem connEnv_idle (s : NetSock) (now : UInt32) : ConnEnv (S := S) s (idle now) :=
  ⟨fun _ => rfl, fun _ h => h⟩

theorem namesTcp_oneSocket (x : RefTcp) (e : FdEntry) : (oneSocket (.tcp x) e).NamesTcp ⟨1⟩ := by
  intro i ctx sh hi hctx hl
  obtain rfl : i = .eth := IfaceId.code_inj hi.symm
  obtain rfl := Option.some.inj hctx
  obtain rfl := Option.some.inj hl
  exact ⟨x, rfl⟩

/-- A blocking TCP fd whose connection is open, with these bytes queued. -/
def openConn (rx : Bytes) : World .reference :=
  oneSocket (.tcp { state := .established, rx := rx }) { kind := .tcp, connected := true }

/-- **On an open connection that stays silent a blocking receive returns 0.** -/
theorem recv_zero_on_open_connection : ∃ sys,
    (wrapLwipRecv .default 48 16).run (openConn []) [idle 0, idle 30001]
        = (some (⟨0, none⟩, []), sys) ∧
      ¬ RecvHonest ⟨1⟩ (⟨0, none⟩, []) sys.world := by
  refine ⟨_, rfl, fun h => ?_⟩
  obtain ⟨x, hx, hfin, -⟩ := h.zero rfl
  obtain rfl := Option.some.inj hx
  cases hfin

/-- With bytes queued the receive is honest. -/
theorem recvHonest_openConn : ∃ r sys,
    (wrapLwipRecv .default 48 16).run (openConn [1, 2, 3]) [idle 0, idle 0] = (some r, sys) ∧
      RecvHonest ⟨1⟩ r sys.world := by
  have hfate : recvFate .default (openConn [1, 2, 3]) ((openConn [1, 2, 3]).fdAt 0) [idle 0, idle 0]
      = .hit (openConn [1, 2, 3]) := rfl
  have henv : ∀ m ∈ [idle 0, idle 0], ConnEnv (S := .reference) ⟨1⟩ m := by
    intro m hm
    obtain rfl : m = idle 0 := by simpa using hm
    exact connEnv_idle _ 0
  obtain ⟨r, sys, hrun, hiff⟩ := @recvHonest_iff .reference .default 48 16 (openConn [1, 2, 3]) 0
    [idle 0, idle 0] rfl rfl (by decide) (namesTcp_oneSocket _ _) henv
    (.inr (by simp [hfate]))
  exact ⟨r, sys, hrun, hiff.mpr trivial⟩

end EspSmoltcp
