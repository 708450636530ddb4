import EspSmoltcp.Compat.EndOfStream
import EspSmoltcp.Compat.Holdings
import EspSmoltcp.Stack.Kinds
import EspSmoltcp.Stack.SendLoop

/-!
# Compat/HalfClose — what `shutdown` leaves of the two directions

`__wrap_lwip_shutdown` does not look at `how`: on a TCP fd it closes the socket and takes it, and the
connected flag, out of the entry.  Shutting down one direction is shutting down both.

**Sending** (`sendsAsBefore_iff`).  After it a send fails with `ENOTCONN`, whatever the socket was ready to
take.

**Receiving** (`handsOver_shutDown_iff`).  The entry holds no handle any more, so no receive returns a byte of
what was queued, or comes in later.
-/

namespace EspSmoltcp

variable {S : Smoltcp}

/-! ## The entry afterwards -/

/-- The fd is a TCP fd without a socket. -/
structure ShutDown (cfg : Config) (fd : ℤ) (i : ℕ) (w : World S) : Prop where
  wf : w.Wf
  get : fdGet cfg w fd = some i
  kind : (w.fdAt i).kind = .tcp
  sock : (w.fdAt i).sock = .invalid
  connected : (w.fdAt i).connected = false

section Entry

variable {cfg : Config} {fd : ℤ} {i : ℕ} {w w' : World S}

/-- The call does nothing on an entry without a socket… -/
theorem wrapLwipShutdown_of_not_valid (hfd : fdGet cfg w fd = some i)
    (hv : (w.fdAt i).sock.valid = false) : wrapLwipShutdown cfg fd w = (⟨0, none⟩, w) := by
  rw [wrapLwipShutdown, hfd]
  simp only [hv, Bool.false_eq_true, and_false, if_false]

/-- …and takes the socket out of any other. -/
theorem shutDown_wrapLwipShutdown (hw : w.Wf) (hfd : fdGet cfg w fd = some i)
    (hk : (w.fdAt i).kind = .tcp) (hv : (w.fdAt i).sock.valid = true) :
    ShutDown cfg fd i (wrapLwipShutdown cfg fd w).2 := by
  rw [wrapLwipShutdown, hfd]
  simp only [hk, hv, and_self, if_true]
  have hspec := hw.netTcpClose_spec (w.fdAt i).sock
  generalize (netTcpClose (w.fdAt i).sock w).2 = w₁ at hspec ⊢
  have hlt : i < w₁.fds.length := hspec.fds ▸ lt_length_of_fdGet hfd
  have he := World.fdAt_modFd_self (fun e => { e with sock := .invalid, connected := false }) hlt
  have hkind : (w₁.fdAt i).kind = .tcp := by rw [World.fdAt, hspec.fds, ← World.fdAt, hk]
  refine ⟨hspec.wf.of_ifaces rfl, fdGet_congr hfd ?_, ?_, ?_, ?_⟩
  · rw [he, hkind]
    decide
  · rw [he, hkind]
  · rw [he]
  · rw [he]

/-- It stays so as long as the fd table does. -/
theorem ShutDown.of_calm (h : ShutDown cfg fd i w) (hc : Calm w w') : ShutDown cfg fd i w' := by
  have he : w'.fdAt i = w.fdAt i := by rw [World.fdAt, World.fdAt, hc.fds]
  refine ⟨hc.wf, fdGet_congr h.get ?_, ?_, ?_, ?_⟩
  · rw [he, h.kind]
    decide
  · rw [he, h.kind]
  · rw [he, h.sock]
  · rw [he, h.connected]

theorem ShutDown.deliver (h : ShutDown cfg fd i w) (iface : IfaceId) (sh : SocketHandle) (ev : TcpEvent) :
    ShutDown cfg fd i (w.deliver iface sh ev) := h.of_calm (h.wf.calm_deliver iface sh ev)

/-- The peers do not change that. -/
theorem ShutDown.peerMoves {env : World S → World S} (h : ShutDown cfg fd i w)
    (henv : PeerMoves (fun _ _ _ _ => True) env) : ShutDown cfg fd i (env w) := by
  have key : ∀ w', Relation.ReflTransGen (Delivery fun _ _ _ _ => True) w w' → ShutDown cfg fd i w' := by
    intro w' hmoves
    induction hmoves with
    | refl => exact h
    | tail _ hd ih =>
      obtain ⟨iface, sh, ev, -, rfl⟩ := hd
      exact ih.deliver iface sh ev
  exact key _ (henv w)

end Entry

/-! ## Sending -/

/-- A send after the call returns what it would have returned without it, and puts the same bytes into the
socket. -/
def SendsAsBefore (cfg : Config) (fd : ℤ) (i : ℕ) (buf : Bytes) (sched : List (Moment (World S)))
    (w : World S) : Prop :=
  ((wrapLwipSend cfg fd buf).run (wrapLwipShutdown cfg fd w).2 sched).1
      = ((wrapLwipSend cfg fd buf).run w sched).1 ∧
    ∀ sent, Sends (w.fdAt i).sock
        ((wrapLwipSend cfg fd buf).run (wrapLwipShutdown cfg fd w).2 sched).2.log sent
      ↔ Sends (w.fdAt i).sock ((wrapLwipSend cfg fd buf).run w sched).2.log sent

section Send

variable {cfg : Config} {fd : ℤ} {i : ℕ} {w : World S} {buf : Bytes} {sched : List (Moment (World S))}

/-- On an fd that was shut down a send fails at once. -/
theorem ShutDown.run_wrapLwipSend (h : ShutDown cfg fd i w) :
    (wrapLwipSend cfg fd buf).run w sched = (some (.fail .enotconn), ⟨w, sched, []⟩) := by
  rw [Code.run, wrapLwipSend, Thread.world_bind_apply]
  simp only [h.get, Thread.world_bind_apply, h.connected]
  rfl

/-- On a connected one it reports what `net_tcp_send` does. -/
theorem errno_wrapLwipSend (hfd : fdGet cfg w fd = some i) (hk : (w.fdAt i).kind = .tcp)
    (hc : (w.fdAt i).connected = true) {r : Ret}
    (hr : ((wrapLwipSend cfg fd buf).run w sched).1 = some r) : r.errno = none := by
  rw [Code.run, wrapLwipSend, Thread.world_bind_apply] at hr
  simp only [hfd, Thread.world_bind_apply, hc, hk, Bool.not_true, Bool.false_eq_true, if_false] at hr
  obtain ⟨n, s₁, -, hrest⟩ := Thread.bind_eq_some.mp (Prod.ext hr rfl)
  obtain rfl := Option.some.inj (Prod.mk.inj hrest).1
  rfl

/-- **A send is as it was before exactly if the fd held no socket.** -/
theorem sendsAsBefore_iff (hw : w.Wf) (hfd : fdGet cfg w fd = some i) (hk : (w.fdAt i).kind = .tcp)
    (hc : (w.fdAt i).connected = true) :
    SendsAsBefore cfg fd i buf sched w ↔ (w.fdAt i).sock.valid = false := by
  constructor
  · rintro ⟨hsame, -⟩
    by_contra hv
    have hdown := shutDown_wrapLwipShutdown hw hfd hk (by simpa using hv)
    rw [hdown.run_wrapLwipSend] at hsame
    cases errno_wrapLwipSend hfd hk hc hsame.symm
  · intro hv
    rw [SendsAsBefore, wrapLwipShutdown_of_not_valid hfd hv]
    exact ⟨rfl, fun _ => Iff.rfl⟩

end Send

/-! ## Receiving -/

/-- Some receives on the fd, one after the other, return these bytes between them, whatever the peers do
meanwhile. -/
inductive HandsOver (cfg : Config) (fd : ℤ) : World S → Bytes → Prop
  | nothing (w : World S) : HandsOver cfg fd w []
  | recv {w : World S} {len : ℕ} {sched : List (Moment (World S))} {r : Ret} {data rest : Bytes}
      {sys : Sys (World S) (Event S)} (hpeers : ∀ m ∈ sched, PeerMoves (fun _ _ _ _ => True) m.env)
      (hrun : (wrapLwipRecv cfg fd len).run w sched = (some (r, data), sys))
      (hrest : HandsOver cfg fd sys.world rest) : HandsOver cfg fd w (data ++ rest)

/-- Pieces of the stream come in for a socket, one after the other. -/
def World.arrive (w : World S) (iface : IfaceId) (sh : SocketHandle) (later : List Bytes) : World S :=
  later.foldl (fun w data => w.deliver iface sh (.send data)) w

section Recv

variable {cfg : Config} {fd : ℤ} {i : ℕ} {w : World S}

theorem ShutDown.arrive (h : ShutDown cfg fd i w) (iface : IfaceId) (sh : SocketHandle)
    (later : List Bytes) : ShutDown cfg fd i (w.arrive iface sh later) := by
  induction later generalizing w with
  | nil => exact h
  | cons data later ih => exact ih (h.deliver iface sh (.send data))

/-- A probe of its handle finds no bytes. -/
theorem ShutDown.probeSpec {h : IfaceId} (hh : NetSock.invalid.iface = h.code) (len : ℕ) :
    ProbeSpec (ShutDown (S := S) cfg fd i) (fun _ => false)
      (tcpRecvProbe h NetSock.invalid.localId len) where
  hit _ _ hr := by cases hr
  miss w hw _ := by
    have hentry : w.entryOf .invalid = none := hw.wf.entryOf_of_localId_zero rfl
    have hnames : w.NamesTcp .invalid := by
      intro iface ctx sh hi hctx hl
      have he := World.entryOf_of_ctx hi hctx
      rw [hentry] at he
      rw [(hw.wf.ctx iface ctx hctx).entryAt_eq_none.mp he.symm] at hl
      cases hl
    have hnone : w.tcpOf .invalid = none := by
      rw [World.tcpOf, hentry]
      rfl
    rw [tcpRecvProbe_of_none hh hnames hnone]
    exact ⟨by simp, rfl⟩

/-- `net_tcp_recv` on it delivers nothing… -/
theorem ShutDown.netTcpRecv (h : ShutDown cfg fd i w) {len : ℕ} {timeoutMs : UInt32}
    {sched : List (Moment (World S))} {r : Int × Bytes} {sys : Sys (World S) (Event S)}
    (hpeers : ∀ m ∈ sched, PeerMoves (fun _ _ _ _ => True) m.env)
    (hrun : netTcpRecv cfg .invalid len timeoutMs ⟨w, sched, []⟩ = (some r, sys)) :
    r.2 = [] ∧ ShutDown cfg fd i sys.world := by
  rcases hf : handleFor w NetSock.invalid.iface with _ | iface
  · rw [netTcpRecv_of_none hf] at hrun
    obtain ⟨hret, rfl⟩ := Prod.mk.inj hrun
    obtain rfl := Option.some.inj hret
    exact ⟨rfl, h⟩
  rcases sched with _ | ⟨m, ms⟩
  · rw [EspSmoltcp.netTcpRecv, Thread.world_bind_apply] at hrun
    simp only [hf, xTaskGetTickCount_bind_nil] at hrun
    cases hrun
  rw [netTcpRecv_of_some cfg hf] at hrun
  generalize m.now + cfg.msToTicks timeoutMs = deadline at hrun
  have hstart := h.peerMoves (hpeers m List.mem_cons_self)
  have hstable : ∀ m' ∈ ms, ∀ w, ShutDown cfg fd i w → ShutDown cfg fd i (m'.env w) :=
    fun m' hm' w hw => hw.peerMoves (hpeers m' (List.mem_cons_of_mem m hm'))
  have hspec : ProbeSpec (ShutDown (S := S) cfg fd i) _ _ := probeSpec (of_handleFor_eq_some hf).1 len
  have hends := recvLoop_fate hspec .other deadline [] (m.env w) ms [] hstart hstable
  have hkeeps : ∀ w', fate deadline (fun _ => false) (m.env w) ms = .hit w' ∨
      fate deadline (fun _ => false) (m.env w) ms = .late w' → ShutDown cfg fd i w' :=
    fate_keeps (m.env w) ms hstart hstable
  rw [hrun] at hends
  rcases hfate : fate deadline (fun _ => false) (m.env w) ms with w' | w' | _
  · rw [hfate] at hends
    exact absurd hends.1 (hspec.miss w' (hkeeps w' (.inl hfate)) rfl).1
  · rw [hfate] at hends
    obtain ⟨hret, hworld⟩ := hends
    obtain rfl := Option.some.inj hret
    exact ⟨rfl, hworld ▸ hkeeps w' (.inr hfate)⟩
  · rw [hfate] at hends
    cases hends

/-- …so neither does a receive on the fd. -/
theorem ShutDown.recv (h : ShutDown cfg fd i w) {len : ℕ} {sched : List (Moment (World S))} {r : Ret}
    {data : Bytes} {sys : Sys (World S) (Event S)}
    (hpeers : ∀ m ∈ sched, PeerMoves (fun _ _ _ _ => True) m.env)
    (hrun : (wrapLwipRecv cfg fd len).run w sched = (some (r, data), sys)) :
    data = [] ∧ ShutDown cfg fd i sys.world := by
  rw [Code.run, wrapLwipRecv_tcp h.get h.kind, h.sock] at hrun
  obtain ⟨a, sys', hcall, hrest⟩ := Thread.bind_eq_some.mp hrun
  obtain ⟨hret, rfl⟩ := Prod.mk.inj hrest
  obtain ⟨-, rfl⟩ := Prod.mk.inj (Option.some.inj hret)
  exact h.netTcpRecv hpeers hcall

/-- **No receives on it return any.** -/
theorem handsOver_shutDown_iff (h : ShutDown cfg fd i w) {bytes : Bytes} :
    HandsOver cfg fd w bytes ↔ bytes = [] := by
  constructor
  · intro hover
    induction hover with
    | nothing => rfl
    | recv hpeers hrun _ ih =>
      obtain ⟨rfl, hdown⟩ := h.recv hpeers hrun
      exact ih hdown
  · rintro rfl
    exact .nothing w

end Recv

/-! ## Both directions -/

section Shutdown

variable {cfg : Config} {fd : ℤ} {i : ℕ} {w : World S}

/-- **When `shutdown` leaves a direction alone, on a connected TCP fd**: a later send is what it was exactly
if the fd held no socket, and the bytes queued and still to come are handed over exactly if there are
none. -/
theorem shutdown_direction_iff (hw : w.Wf) (hfd : fdGet cfg w fd = some i)
    (hk : (w.fdAt i).kind = .tcp) (hc : (w.fdAt i).connected = true) :
    (∀ buf sched, SendsAsBefore cfg fd i buf sched w ↔ (w.fdAt i).sock.valid = false) ∧
      ∀ iface sh x later, (w.fdAt i).sock.iface = iface.code →
        w.entryOf (w.fdAt i).sock = some (sh, .tcp x) →
        (HandsOver cfg fd ((wrapLwipShutdown cfg fd w).2.arrive iface sh later)
            (S.tcp.rxQueue x ++ later.flatten)
          ↔ S.tcp.rxQueue x = [] ∧ ∀ data ∈ later, data = []) := by
  refine ⟨fun buf sched => sendsAsBefore_iff hw hfd hk hc, fun iface sh x later _ hx => ?_⟩
  have hdown := shutDown_wrapLwipShutdown hw hfd hk (hw.valid_of_entryOf hx)
  rw [handsOver_shutDown_iff (hdown.arrive iface sh later), List.append_eq_nil_iff,
    List.flatten_eq_nil_iff]

end Shutdown

/-- Without the call, one receive hands over what is queued. -/
theorem handsOver_of_queued {cfg : Config} {fd : ℤ} {i : ℕ} {w : World S} {h : IfaceId}
    {ctx : IfaceCtx S} {sh : SocketHandle} {x : S.tcp.Socket} (hfd : fdGet cfg w fd = some i)
    (hk : (w.fdAt i).kind = .tcp) (hf : handleFor w (w.fdAt i).sock.iface = some h)
    (hctx : w.ctx h = some ctx) (he : ctx.entryAt (w.fdAt i).sock.localId = some (sh, .tcp x))
    (hq : S.tcp.rxQueue x ≠ []) : HandsOver cfg fd w (S.tcp.rxQueue x) := by
  have hprobe := tcpRecvProbe_of_tcp hctx he (S.tcp.rxQueue x).length
  rw [(S.tcp.recvSlice_data x _ hq).1, List.take_length] at hprobe
  have hhit : 0 < (tcpRecvProbe h (w.fdAt i).sock.localId (S.tcp.rxQueue x).length w).1.1 := by
    rw [hprobe]
    exact Int.natCast_pos.mpr (List.length_pos_iff.mpr hq)
  have hidle : ∀ m ∈ [idle (S := S) 0, idle 0], PeerMoves (fun _ _ _ _ => True) m.env := by
    intro m hm w
    obtain rfl : m = idle 0 := by simpa using hm
    exact .refl
  have hcall := netTcpRecv_of_some cfg hf (S.tcp.rxQueue x).length (rcvTimeout (w.fdAt i)) (idle 0)
    [idle 0] []
  have hrun := wrapLwipRecv_tcp hfd hk (S.tcp.rxQueue x).length [idle 0, idle 0] []
  rw [Thread.bind_of_some (hcall.trans (recvLoop_hit UInt32.zero_le hhit))] at hrun
  have hall : HandsOver cfg fd w (_ ++ []) := .recv hidle hrun (.nothing _)
  rw [List.append_nil] at hall
  have hdata : (tcpRecvProbe h (w.fdAt i).sock.localId (S.tcp.rxQueue x).length w).1.2
      = S.tcp.rxQueue x := by
    rw [hprobe]
    rfl
  rw [← hdata]
  exact hall

/-! ### A connection with bytes queued -/

theorem wf_openConn (rx : Bytes) : (openConn rx).Wf where
  ctx iface ctx h := by
    obtain rfl : iface = .eth := by
      cases iface
      · rfl
      · cases h
    obtain rfl := Option.some.inj h
    exact (IfaceCtx.wf_new (S := .reference) 0 fun _ => 0).openSocket
      (x := .tcp { state := .established, rx := rx }) rfl (by decide)
  enabled iface ctx h := by
    cases iface
    · rfl
    · cases h

/-- On this connection neither condition holds. -/
theorem shutdown_direction_openConn :
    ¬ SendsAsBefore .default 48 0 [1] [idle 0] (openConn [104, 105]) ∧
    ¬ HandsOver .default 48 ((wrapLwipShutdown .default 48 (openConn [104, 105])).2.arrive .eth 0 [[106]])
      [104, 105, 106] := by
  obtain ⟨hsend, hrecv⟩ := @shutdown_direction_iff .reference .default 48 0 (openConn [104, 105])
    (wf_openConn _) rfl rfl rfl
  refine ⟨fun h => ?_, fun h => ?_⟩
  · have hv := (hsend _ _).mp h
    cases hv
  · obtain ⟨hq, -⟩ := (hrecv .eth 0 { state := .established, rx := [104, 105] } [[106]] rfl rfl).mp h
    cases hq

/-- **On this connection `shutdown` takes both directions away.** -/
theorem shutdown_takes_both :
    ((wrapLwipSend .default 48 [1]).run (openConn [104, 105]) [idle 0]).1 = some ⟨1, none⟩ ∧
    ((wrapLwipSend .default 48 [1]).run (wrapLwipShutdown .default 48 (openConn [104, 105])).2
      [idle 0]).1 = some (.fail .enotconn) ∧
    HandsOver .default 48 (openConn [104, 105]) [104, 105] ∧
    ¬ HandsOver .default 48 (wrapLwipShutdown .default 48 (openConn [104, 105])).2 [104, 105] := by
  have hdown : ShutDown .default 48 0 (wrapLwipShutdown .default 48 (openConn [104, 105])).2 :=
    shutDown_wrapLwipShutdown (wf_openConn _) rfl rfl rfl
  refine ⟨rfl, rfl, ?_, ?_⟩
  · exact @handsOver_of_queued .reference .default 48 0 (openConn [104, 105]) .eth _ 0
      { state := .established, rx := [104, 105] } rfl rfl rfl rfl rfl (List.cons_ne_nil _ _)
  · rw [handsOver_shutDown_iff hdown]
    exact List.cons_ne_nil _ _

end EspSmoltcp
