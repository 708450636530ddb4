import EspSmoltcp.Compat.SockWrap
import EspSmoltcp.Smoltcp.Reference
import EspSmoltcp.Stack.Handles

/-!
# Compat/Handshake — what a successful connect has seen

`net_tcp_connect` starts the handshake and then samples `smoltcp_tcp_is_active` until it is true.  A socket
is active from `SynSent` on, so the loop returns at its first look at a socket that has not been refused,
whether or not the peer has answered.

`firstActive` finds that look from the world, what the others do and the clock readings alone; the call
succeeds exactly there (`netTcpConnect_ok_iff`), and the handshake is complete when it succeeds exactly when
it was complete there: `connect_sound_iff`.
-/

namespace EspSmoltcp

variable {S : Smoltcp}

/-! ## The first look -/

/-- `smoltcp_tcp_is_active` under the lock. -/
def isActiveCall (h : IfaceId) (id : UInt32) (w : World S) : Bool × World S :=
  w.ffi h false (smoltcpTcpIsActive · id)

/-- The world of the first look, before the deadline, at an active socket; looks alternate with waits. -/
def lookActive (h : IfaceId) (id deadline : UInt32) :
    World S → List (Moment (World S)) → Option (World S)
  | _, [] => none
  | w, [m] => if m.now < deadline ∧ (isActiveCall h id (m.env w)).1 = true then some (m.env w) else none
  | w, m :: v :: ms =>
    if m.now < deadline then
      if (isActiveCall h id (m.env w)).1 = true then some (m.env w)
      else lookActive h id deadline (v.env (isActiveCall h id (m.env w)).2) ms
    else none

/-- The same from before the call: the connect has been accepted and the deadline is set. -/
def firstActive (cfg : Config) (s : NetSock) (ipv4Be : UInt32) (port : UInt16) (timeoutMs rand : UInt32)
    (w : World S) (sched : List (Moment (World S))) : Option (World S) :=
  (handleFor w s.iface).bind fun h =>
    let r := w.ffi h (-1) (smoltcpTcpConnect · s.localId ipv4Be port 0 rand)
    if r.1 ≠ 0 then none
    else match sched with
      | [] => none
      | m :: ms => lookActive h s.localId (m.now + cfg.msToTicks timeoutMs) (m.env r.2) ms

/-- A look that finds the socket active leaves the world as it is. -/
theorem of_isActiveCall {s : NetSock} {h : IfaceId} {w : World S} (hs : s.iface = h.code)
    (ha : (isActiveCall h s.localId w).1 = true) :
    (isActiveCall h s.localId w).2 = w ∧ ∃ x, w.tcpOf s = some x ∧ S.tcp.isActive x = true := by
  rw [isActiveCall] at ha ⊢
  rcases hctx : w.ctx h with _ | ctx
  · rw [World.ffi, hctx] at ha
    cases ha
  · rw [World.ffi_of_ctx hctx, smoltcpTcpIsActive, IfaceCtx.queryTcp] at ha ⊢
    rcases hl : ctx.lookup s.localId with _ | sh
    · rw [hl] at ha
      cases ha
    · rw [hl] at ha
      rcases hx : ctx.sockets.lookup sh with _ | x | x | _
      · simp [hx] at ha
      · simp only [hx] at ha ⊢
        refine ⟨World.setCtx_self hctx, x, World.tcpOf_eq_some.mpr ⟨h, ctx, sh, hs, hctx, ?_⟩, ha⟩
        exact IfaceCtx.entryAt_eq_some.mpr ⟨hl, hx⟩
      · simp [hx] at ha
      · simp [hx] at ha

/-- The socket of the first look is active. -/
theorem of_lookActive {s : NetSock} {h : IfaceId} (hs : s.iface = h.code) {deadline : UInt32} {v : World S}
    (w : World S) (sched : List (Moment (World S)))
    (hv : lookActive h s.localId deadline w sched = some v) :
    ∃ x, v.tcpOf s = some x ∧ S.tcp.isActive x = true := by
  induction w, sched using lookActive.induct h s.localId deadline with
  | case1 w => cases hv
  | case2 w m hm =>
    rw [lookActive, if_pos hm] at hv
    exact Option.some.inj hv ▸ (of_isActiveCall hs hm.2).2
  | case3 w m hm =>
    rw [lookActive, if_neg hm] at hv
    cases hv
  | case4 w m u ms hm ha =>
    rw [lookActive, if_pos hm, if_pos ha] at hv
    exact Option.some.inj hv ▸ (of_isActiveCall hs ha).2
  | case5 w m u ms hm ha ih =>
    rw [lookActive, if_pos hm, if_neg ha] at hv
    exact ih hv
  | case6 w m u ms hm =>
    rw [lookActive, if_neg hm] at hv
    cases hv

theorem of_firstActive {cfg : Config} {s : NetSock} {ipv4Be : UInt32} {port : UInt16}
    {timeoutMs rand : UInt32} {w v : World S} {sched : List (Moment (World S))}
    (hv : firstActive cfg s ipv4Be port timeoutMs rand w sched = some v) :
    ∃ x, v.tcpOf s = some x ∧ S.tcp.isActive x = true := by
  obtain ⟨h, hh, hv⟩ := Option.bind_eq_some_iff.mp hv
  dsimp only at hv
  split_ifs at hv
  rcases sched with _ | ⟨m, ms⟩
  · cases hv
  · exact of_lookActive (of_handleFor_eq_some hh).1 _ ms hv

/-! ## The loop -/

/-- One turn of the loop of `net_tcp_connect`. -/
def connectTurn (h : IfaceId) (id deadline : UInt32) : Code S (Unit ⊕ EspErr) := do
  if (← xTaskGetTickCount) < deadline then
    let active ← atomically (isActiveCall h id)
    if active then pure (.inr EspErr.ok)
    else
      blockingWait
      pure (.inl ())
  else pure (.inr .timeout)

/-- The loop itself. -/
def connectLoop (h : IfaceId) (id deadline : UInt32) : Code S EspErr :=
  Thread.loop (fun _ => 0) (fun (_ : Unit) => connectTurn h id deadline) ()

section Loop

variable {h : IfaceId} {id deadline : UInt32} {w : World S} {m v : Moment (World S)}
  {ms : List (Moment (World S))} {l : List (Event S)}

/-- A turn that goes round has waited. -/
theorem connectTurn_progress :
    Thread.Progress (fun _ => 0) fun (_ : Unit) => connectTurn (S := S) h id deadline := by
  rintro ⟨⟩ ⟨w, _ | ⟨m, ms⟩, l⟩ ⟨⟩ s' hb
  · cases hb
  · change connectTurn h id deadline _ = _ at hb
    rw [connectTurn, xTaskGetTickCount_bind_cons] at hb
    split_ifs at hb
    · rw [atomically_bind_apply] at hb
      split_ifs at hb
      · cases hb
      · rcases ms with _ | ⟨v, ms⟩
        · cases hb
        · obtain ⟨-, rfl⟩ := Prod.mk.inj hb
          simp only [List.length_cons]
          omega
    · cases hb

theorem connectLoop_eq (s : Sys (World S) (Event S)) : connectLoop h id deadline s
    = Thread.afterTurn (fun _ => connectLoop h id deadline) (connectTurn h id deadline s) :=
  Thread.loop_eq connectTurn_progress () s

theorem connectLoop_nil : connectLoop h id deadline ⟨w, [], l⟩ = (none, ⟨w, [], l⟩) := by
  rw [connectLoop_eq, connectTurn, xTaskGetTickCount_bind_nil]
  rfl

/-- A reading at the deadline ends the loop. -/
theorem connectLoop_late (hm : ¬ m.now < deadline) :
    connectLoop h id deadline ⟨w, m :: ms, l⟩ = (some .timeout, ⟨m.env w, ms, l⟩) := by
  rw [connectLoop_eq, connectTurn, xTaskGetTickCount_bind_cons, if_neg hm]
  rfl

/-- A look at an active socket ends it with `ESP_OK`. -/
theorem connectLoop_hit (hm : m.now < deadline) (ha : (isActiveCall h id (m.env w)).1 = true) :
    connectLoop h id deadline ⟨w, m :: ms, l⟩ = (some .ok, ⟨(isActiveCall h id (m.env w)).2, ms,
      .step .other (m.env w) (isActiveCall h id (m.env w)).2 :: l⟩) := by
  rw [connectLoop_eq, connectTurn, xTaskGetTickCount_bind_cons, if_pos hm, atomically_bind_apply,
    if_pos ha]
  rfl

/-- Any other look waits… -/
theorem connectLoop_miss (hm : m.now < deadline) (ha : ¬ (isActiveCall h id (m.env w)).1 = true) :
    connectLoop h id deadline ⟨w, m :: v :: ms, l⟩ = connectLoop h id deadline
      ⟨v.env (isActiveCall h id (m.env w)).2, ms,
        .wait :: .step .other (m.env w) (isActiveCall h id (m.env w)).2 :: l⟩ := by
  rw [connectLoop_eq, connectTurn, xTaskGetTickCount_bind_cons, if_pos hm, atomically_bind_apply,
    if_neg ha]
  rfl

/-- …for as long as there is something to wait for. -/
theorem connectLoop_miss_nil (hm : m.now < deadline) (ha : ¬ (isActiveCall h id (m.env w)).1 = true) :
    (connectLoop h id deadline ⟨w, [m], l⟩).1 = none := by
  rw [connectLoop_eq, connectTurn, xTaskGetTickCount_bind_cons, if_pos hm, atomically_bind_apply,
    if_neg ha]
  rfl

end Loop

/-- **The loop succeeds at its first look at an active socket**, and nowhere else. -/
theorem connectLoop_ok_iff {s : NetSock} {h : IfaceId} (hs : s.iface = h.code) (deadline : UInt32)
    (w : World S) (sched : List (Moment (World S))) (l : List (Event S)) (v : World S) :
    (∃ s', connectLoop h s.localId deadline ⟨w, sched, l⟩ = (some .ok, s') ∧ s'.world = v) ↔
      lookActive h s.localId deadline w sched = some v := by
  induction w, sched using lookActive.induct h s.localId deadline generalizing l with
  | case1 w =>
    rw [lookActive, connectLoop_nil]
    simp
  | case2 w m hm =>
    rw [lookActive, if_pos hm, connectLoop_hit hm.1 hm.2, (of_isActiveCall hs hm.2).1]
    simp
  | case3 w m hm =>
    rw [lookActive, if_neg hm]
    by_cases hlt : m.now < deadline
    · have hnone := connectLoop_miss_nil (l := l) hlt fun ha => hm ⟨hlt, ha⟩
      refine iff_of_false (fun ⟨s', hs', _⟩ => ?_) (by simp)
      rw [hs'] at hnone
      cases hnone
    · rw [connectLoop_late hlt]
      simp
  | case4 w m u ms hm ha =>
    rw [lookActive, if_pos hm, if_pos ha, connectLoop_hit hm ha, (of_isActiveCall hs ha).1]
    simp
  | case5 w m u ms hm ha ih =>
    rw [lookActive, if_pos hm, if_neg ha, connectLoop_miss hm ha]
    exact ih _
  | case6 w m u ms hm =>
    rw [lookActive, if_neg hm, connectLoop_late hm]
    simp

/-! ## `net_tcp_connect` -/

/-- The call, its loop by name. -/
theorem netTcpConnect_eq (cfg : Config) (s : NetSock) (ipv4Be : UInt32) (port : UInt16)
    (timeoutMs rand : UInt32) : netTcpConnect (S := S) cfg s ipv4Be port timeoutMs rand = (do
      match handleFor (← Thread.world) s.iface with
      | none => pure .invalidArg
      | some h =>
        let rc ← atomically fun w => w.ffi h (-1) (smoltcpTcpConnect · s.localId ipv4Be port 0 rand)
        if rc ≠ 0 then pure .fail
        else
          let start ← xTaskGetTickCount
          connectLoop h s.localId (start + cfg.msToTicks timeoutMs)) := rfl

/-- **`net_tcp_connect` returns `ESP_OK` at its first look at an active socket**, and nowhere else. -/
theorem netTcpConnect_ok_iff (cfg : Config) (s : NetSock) (ipv4Be : UInt32) (port : UInt16)
    (timeoutMs rand : UInt32) (w : World S) (sched : List (Moment (World S))) (l : List (Event S))
    (v : World S) :
    (∃ s', netTcpConnect cfg s ipv4Be port timeoutMs rand ⟨w, sched, l⟩ = (some .ok, s') ∧
      s'.world = v) ↔ firstActive cfg s ipv4Be port timeoutMs rand w sched = some v := by
  rw [netTcpConnect_eq, Thread.world_bind_apply, firstActive]
  rcases hh : handleFor w s.iface with _ | h
  · simp
  · rw [Option.bind_some]
    dsimp only
    rw [atomically_bind_apply]
    split_ifs with hrc
    · simp
    · rcases sched with _ | ⟨m, ms⟩
      · simp
      · rw [xTaskGetTickCount_bind_cons]
        exact connectLoop_ok_iff (of_handleFor_eq_some hh).1 _ _ _ _ v

/-- `may_recv()` or `may_send()` of the handle's socket: the handshake is complete. -/
def IsConnected (s : NetSock) (w : World S) : Prop :=
  ∃ x, w.tcpOf s = some x ∧ (S.tcp.mayRecv x = true ∨ S.tcp.maySend x = true)

/-- The handle's socket still waits for the peer: for an answer to its SYN, or at the end for an answer to
its FIN. -/
def AwaitsPeer (s : NetSock) (w : World S) : Prop :=
  ∃ x, w.tcpOf s = some x ∧ S.tcp.rxQueue x = [] ∧
    S.tcp.state x ∈ [TcpState.synSent, .synReceived, .closing, .lastAck]

/-- An active socket is connected unless it waits for the peer. -/
theorem isConnected_iff {s : NetSock} {w : World S} {x : S.tcp.Socket} (hx : w.tcpOf s = some x)
    (ha : S.tcp.isActive x = true) : IsConnected s w ↔ ¬ AwaitsPeer s w := by
  have hconn : IsConnected s w ↔ S.tcp.mayRecv x = true ∨ S.tcp.maySend x = true := by
    simp [IsConnected, hx]
  have hwait : AwaitsPeer s w ↔ S.tcp.rxQueue x = [] ∧
      S.tcp.state x ∈ [TcpState.synSent, .synReceived, .closing, .lastAck] := by
    simp [AwaitsPeer, hx]
  rw [S.tcp.isActive_eq] at ha
  rw [hconn, hwait, S.tcp.mayRecv_eq, S.tcp.maySend_eq]
  cases hstate : S.tcp.state x <;> simp_all [TcpState.rxOpen, TcpState.txOpen]

/-- **The contract of `net_tcp_connect`**: `ESP_OK` only on a connected socket. -/
def ConnectSound (cfg : Config) (s : NetSock) (ipv4Be : UInt32) (port : UInt16) (timeoutMs rand : UInt32)
    (w : World S) (sched : List (Moment (World S))) : Prop :=
  ∀ s', netTcpConnect cfg s ipv4Be port timeoutMs rand ⟨w, sched, []⟩ = (some .ok, s') →
    IsConnected s s'.world

/-- The peer has answered by the first look at an active socket. -/
def AnsweredInTime (cfg : Config) (s : NetSock) (ipv4Be : UInt32) (port : UInt16)
    (timeoutMs rand : UInt32) (w : World S) (sched : List (Moment (World S))) : Prop :=
  ∀ v, firstActive cfg s ipv4Be port timeoutMs rand w sched = some v → ¬ AwaitsPeer s v

theorem netTcpConnect_sound_iff (cfg : Config) (s : NetSock) (ipv4Be : UInt32) (port : UInt16)
    (timeoutMs rand : UInt32) (w : World S) (sched : List (Moment (World S))) :
    ConnectSound cfg s ipv4Be port timeoutMs rand w sched ↔
      AnsweredInTime cfg s ipv4Be port timeoutMs rand w sched := by
  have hok := netTcpConnect_ok_iff cfg s ipv4Be port timeoutMs rand w sched []
  constructor
  · intro hsound v hv
    obtain ⟨s', hs', rfl⟩ := (hok v).mpr hv
    obtain ⟨x, hx, ha⟩ := of_firstActive hv
    exact (isConnected_iff hx ha).mp (hsound s' hs')
  · intro hin s' hs'
    have hv := (hok s'.world).mp ⟨s', hs', rfl⟩
    obtain ⟨x, hx, ha⟩ := of_firstActive hv
    exact (isConnected_iff hx ha).mpr (hin s'.world hv)

/-! ## `connect()` on a TCP fd -/

/-- The handle `connect()` opens for entry `i`. -/
def connectHandle (i : ℕ) (w : World S) : NetSock := (netTcpOpen (w.fdAt i).iface w).1

/-- The world in which `connect()` calls `net_tcp_connect`. -/
def connectWorld (i : ℕ) (w : World S) : World S :=
  (netTcpOpen (w.fdAt i).iface w).2.modFd i fun e => { e with sock := connectHandle i w }

/-- The timeout `connect()` passes on. -/
def sndTimeout (e : FdEntry) : UInt32 := if e.sndTimeoutMs ≠ 0 then e.sndTimeoutMs else 30000

/-- What `connect()` does on a TCP fd once it has opened this handle. -/
def connectRest (cfg : Config) (i : ℕ) (s : NetSock) (addr : SockAddrIn) (timeoutMs rand : UInt32) :
    Code S Ret := do
  if !s.valid then pure (.fail .enobufs)
  else
    let er ← netTcpConnect cfg s addr.addrBe addr.port timeoutMs rand
    if er ≠ .ok then pure (.fail .etimedout)
    else
      atomically fun w => ((), w.modFd i fun e => { e with connected := true })
      pure ⟨0, none⟩

theorem wrapLwipConnect_tcp {cfg : Config} {fd : ℤ} {addr : SockAddrIn} {alen : ℕ} {w : World S} {i : ℕ}
    (hi : fdGet cfg w fd = some i) (halen : ¬ alen < sizeofSockAddrIn) (hk : (w.fdAt i).kind = .tcp)
    (rand : UInt32) (sched : List (Moment (World S))) (l : List (Event S)) :
    wrapLwipConnect cfg fd addr alen rand ⟨w, sched, l⟩
      = connectRest cfg i (connectHandle i w) addr (sndTimeout (w.fdAt i)) rand
          ⟨connectWorld i w, sched, .step .other w (connectWorld i w) :: l⟩ := by
  rw [wrapLwipConnect, Thread.world_bind_apply, hi]
  dsimp only
  rw [if_neg halen, Thread.world_bind_apply, hk]
  rfl

/-- **`connect()` on a TCP fd succeeds exactly where its `net_tcp_connect` does**, and marks the entry
connected. -/
theorem wrapLwipConnect_ok_iff {cfg : Config} {fd : ℤ} {addr : SockAddrIn} {alen : ℕ} {rand : UInt32}
    {w : World S} {i : ℕ} (hi : fdGet cfg w fd = some i) (hk : (w.fdAt i).kind = .tcp)
    (sched : List (Moment (World S))) (u : World S) :
    (∃ s', wrapLwipConnect cfg fd addr alen rand ⟨w, sched, []⟩ = (some ⟨0, none⟩, s') ∧ s'.world = u) ↔
      sizeofSockAddrIn ≤ alen ∧ (connectHandle i w).valid = true ∧
        ∃ v, firstActive cfg (connectHandle i w) addr.addrBe addr.port (sndTimeout (w.fdAt i)) rand
          (connectWorld i w) sched = some v ∧ u = v.modFd i fun e => { e with connected := true } := by
  have hok := netTcpConnect_ok_iff cfg (connectHandle i w) addr.addrBe addr.port (sndTimeout (w.fdAt i)) rand
    (connectWorld i w) sched [.step .other w (connectWorld i w)]
  by_cases halen : alen < sizeofSockAddrIn
  · rw [wrapLwipConnect, Thread.world_bind_apply, hi]
    dsimp only
    rw [if_pos halen]
    refine iff_of_false ?_ fun h => absurd h.1 (not_le.mpr halen)
    rintro ⟨s', hs', -⟩
    cases hs'
  · rw [wrapLwipConnect_tcp hi halen hk, connectRest]
    split_ifs with hvalid
    · refine iff_of_false ?_ fun h => by simp [h.2.1] at hvalid
      rintro ⟨s', hs', -⟩
      cases hs'
    · have hvalid' : (connectHandle i w).valid = true := by simpa using hvalid
      simp only [not_lt.mp halen, hvalid', true_and]
      constructor
      · rintro ⟨s', hs', rfl⟩
        obtain ⟨er, s₁, h₁, h₂⟩ := Thread.bind_eq_some.mp hs'
        split_ifs at h₂ with her
        · cases h₂
        · obtain rfl := not_not.mp her
          refine ⟨s₁.world, (hok _).mp ⟨s₁, h₁, rfl⟩, ?_⟩
          obtain ⟨-, rfl⟩ := Prod.mk.inj h₂
          rfl
      · rintro ⟨v, hv, rfl⟩
        obtain ⟨s₁, h₁, rfl⟩ := (hok v).mpr hv
        exact ⟨_, Thread.bind_eq_some.mpr ⟨.ok, s₁, h₁, rfl⟩, rfl⟩

/-- **The contract of `connect()` on a TCP fd**: an fd is marked connected only on a connected socket. -/
def WrapConnectSound (cfg : Config) (fd : ℤ) (addr : SockAddrIn) (alen : ℕ) (rand : UInt32) (w : World S)
    (sched : List (Moment (World S))) : Prop :=
  ∀ i s', fdGet cfg w fd = some i → (w.fdAt i).kind = .tcp →
    wrapLwipConnect cfg fd addr alen rand ⟨w, sched, []⟩ = (some ⟨0, none⟩, s') →
      IsConnected (connectHandle i w) s'.world

/-- If `connect()` gets as far as `net_tcp_connect`, the peer answers that in time. -/
def WrapAnsweredInTime (cfg : Config) (fd : ℤ) (addr : SockAddrIn) (alen : ℕ) (rand : UInt32) (w : World S)
    (sched : List (Moment (World S))) : Prop :=
  ∀ i, fdGet cfg w fd = some i → (w.fdAt i).kind = .tcp → sizeofSockAddrIn ≤ alen →
    (connectHandle i w).valid = true →
      AnsweredInTime cfg (connectHandle i w) addr.addrBe addr.port (sndTimeout (w.fdAt i)) rand
        (connectWorld i w) sched

theorem isConnected_modFd {s : NetSock} {w : World S} {i : ℕ} {f : FdEntry → FdEntry} :
    IsConnected s (w.modFd i f) ↔ IsConnected s w := Iff.rfl

theorem wrapLwipConnect_sound_iff (cfg : Config) (fd : ℤ) (addr : SockAddrIn) (alen : ℕ) (rand : UInt32)
    (w : World S) (sched : List (Moment (World S))) :
    WrapConnectSound cfg fd addr alen rand w sched ↔ WrapAnsweredInTime cfg fd addr alen rand w sched := by
  constructor
  · intro hsound i hi hk halen hvalid v hv
    obtain ⟨s', hs', hu⟩ := (wrapLwipConnect_ok_iff hi hk sched _).mpr ⟨halen, hvalid, v, hv, rfl⟩
    have hconn := hsound i s' hi hk hs'
    rw [hu, isConnected_modFd] at hconn
    obtain ⟨x, hx, ha⟩ := of_firstActive hv
    exact (isConnected_iff hx ha).mp hconn
  · intro hin i s' hi hk hs'
    obtain ⟨halen, hvalid, v, hv, hu⟩ := (wrapLwipConnect_ok_iff hi hk sched _).mp ⟨s', hs', rfl⟩
    rw [hu, isConnected_modFd]
    obtain ⟨x, hx, ha⟩ := of_firstActive hv
    exact (isConnected_iff hx ha).mpr (hin i hi hk halen hvalid v hv)

/-- **A successful connect means a complete handshake exactly when the peer has answered by the first look
at an active socket**: of `net_tcp_connect`, and of `connect()` that marks the fd connected on it. -/
theorem connect_sound_iff (cfg : Config) :
    (∀ (s : NetSock) (ipv4Be : UInt32) (port : UInt16) (timeoutMs rand : UInt32) (w : World S)
        (sched : List (Moment (World S))),
      ConnectSound cfg s ipv4Be port timeoutMs rand w sched ↔
        AnsweredInTime cfg s ipv4Be port timeoutMs rand w sched) ∧
    ∀ (fd : ℤ) (addr : SockAddrIn) (alen : ℕ) (rand : UInt32) (w : World S)
        (sched : List (Moment (World S))),
      WrapConnectSound cfg fd addr alen rand w sched ↔ WrapAnsweredInTime cfg fd addr alen rand w sched :=
  ⟨netTcpConnect_sound_iff cfg, wrapLwipConnect_sound_iff cfg⟩

/-! ### A peer that never answers -/

/-- Ethernet is attached and an application has opened a TCP fd. -/
def openedFd : World .reference :=
  (wrapLwipSocket .default 2 1 ((World.boot .default).attach .eth fun _ => 0)).2

/-- Nothing arrives. -/
def silence : List (Moment (World .reference)) := [idle 0, idle 0]

theorem not_isConnected_of_any {s : NetSock} {w : World S}
    (h : (w.tcpOf s).any (fun x => S.tcp.mayRecv x || S.tcp.maySend x) = false) : ¬ IsConnected s w := by
  rintro ⟨x, hx, hx'⟩
  rw [hx, Option.any_some, Bool.or_eq_false_iff] at h
  rcases hx' with hx' | hx'
  · exact Bool.false_ne_true (h.1.symm.trans hx')
  · exact Bool.false_ne_true (h.2.symm.trans hx')

/-- **With a silent peer the first look is enough**: the call succeeds at once, on a socket in `SynSent`. -/
theorem connected_to_silence :
    ¬ ConnectSound .default (connectHandle 0 openedFd) 0x0100000A 80 30000 0 (connectWorld 0 openedFd)
      silence ∧
    ¬ WrapConnectSound .default 48 ⟨2, 0x0100000A, 80⟩ 16 0 openedFd silence := by
  constructor
  · intro hsound
    exact not_isConnected_of_any (by decide) (hsound _ rfl)
  · intro hsound
    exact not_isConnected_of_any (by decide) (hsound 0 _ rfl rfl rfl)

end EspSmoltcp
