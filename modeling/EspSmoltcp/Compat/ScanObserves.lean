import EspSmoltcp.Compat.PollEvents
import EspSmoltcp.Compat.ScanEffects

/-!
# Compat/ScanObserves — where the scans of `select` and `poll` only observe

`Asks` are the states in which a scan of the call comes to an fd of its read set.  Two things can go wrong
there if the fd is a plain UDP one (`ScanEffects`): a datagram is queued as the fd is asked, and is not
reported; or one is queued as an attempt of the receive behind the question runs, and is destroyed.

* **The log** (`log_spares_iff`).  A call takes nothing off a queue exactly if every attempt of the receive it
  makes, wherever its scans come to, finds the queue empty.
* **The call** (`scan_observes_iff`).  It observes and reports exactly if, besides, no fd that is asked and
  answers has a datagram to read.
-/

namespace EspSmoltcp

open Relation (ReflTransGen)
open Thread (AfterReading EveryTurn Logs LogsFrom Onward Round)

variable {S : Smoltcp} {α β : Type}

/-! ## Where the scans come to -/

/-- A scan of the `select` begins in this state. -/
def ScanBegins (cfg : Config) (nfds : ℤ) (rdIn wrIn : Finset ℤ) (timeout : Option TimeVal) (w : World S)
    (sched : List (Moment (World S))) (s₀ : Sys (World S) (Event S)) : Prop :=
  match timeout with
  | none => ReflTransGen (Round fun (_ : Unit) => selectTurn cfg nfds rdIn wrIn portMaxDelay)
      ((), ⟨w, sched, []⟩) ((), s₀)
  | some tv => ∃ m ms, sched = m :: ms ∧
    ReflTransGen (Round fun (_ : Unit) => selectTurn cfg nfds rdIn wrIn (m.now + cfg.msToTicks tv.ms))
      ((), ⟨m.env w, ms, []⟩) ((), s₀)

/-- In this state a scan of the `select` comes to an fd of its read set, which stands for this entry. -/
structure Asks (cfg : Config) (nfds : ℤ) (rdIn wrIn : Finset ℤ) (timeout : Option TimeVal) (w : World S)
    (sched : List (Moment (World S))) (fd : ℤ) (i : ℕ) (s : Sys (World S) (Event S)) : Prop where
  wanted : fd ∈ rdIn
  nonneg : 0 ≤ fd
  below : fd < nfds
  comes : ∃ s₀, ScanBegins cfg nfds rdIn wrIn timeout w sched s₀ ∧
    ∃ r, selectScan cfg rdIn wrIn (scanFds fd) {} s₀ = (some r, s)
  entry : fdGet cfg s.world fd = some i

/-- The states in which a scan of the `poll` comes to an fd that some entry wants to read from. -/
def PollAsks (cfg : Config) (fds : List PollFd) (timeoutMs : ℤ) (w : World S)
    (sched : List (Moment (World S))) : ℤ → ℕ → Sys (World S) (Event S) → Prop :=
  Asks cfg (pollNfds fds) (pollRd fds) (pollWr fds) (pollTimeout timeoutMs) w sched

/-! ## What is to hold there -/

/-- A plain UDP fd has a datagram to read. -/
def UdpPending (w : World S) (i : ℕ) : Prop :=
  (w.fdAt i).plainUdp ∧ ∃ d ∈ udpQueue (w.fdAt i).sock w, d.payload ≠ []

/-- The call only observes: no step of it changes a receive queue. -/
def Observes (log : List (Event S)) : Prop :=
  ∀ call w w', Event.step call w w' ∈ log → RxSame w w'

/-- Whenever a plain UDP fd has a datagram to read as a scan comes to it, the scan finds it readable, and so
does the caller. -/
def Reports (cfg : Config) (asks : ℤ → ℕ → Sys (World S) (Event S) → Prop) (marks : α → ℤ → Prop)
    (out : Option α) : Prop :=
  ∀ fd i s, asks fd i s → UdpPending s.world i → ∀ b s', fdReadable cfg i s = (some b, s') →
    b = true ∧ ∀ a, out = some a → marks a fd

/-- Each attempt that a receive with no room and no time makes from here finds the queue of the socket
empty. -/
def EmptyAttempts (h : IfaceId) (sock : NetSock) (start : UInt32) (s : Sys (World S) (Event S)) : Prop :=
  EveryTurn (fun (_ : Unit) => recvTurn (.udpRecv sock) start (udpRecvProbe h sock.localId 0) none)
    (fun _ => AfterReading fun now s' => now ≤ start → udpQueue sock s'.world = []) () s

/-- A plain UDP fd is asked by such a receive, which finds nothing. -/
def FindsNothing (i : ℕ) (s : Sys (World S) (Event S)) : Prop :=
  (s.world.fdAt i).plainUdp → ∀ h, handleFor s.world (s.world.fdAt i).sock.iface = some h →
    AfterReading (EmptyAttempts h (s.world.fdAt i).sock) s

/-- Nothing is there to lose where the scans come to: no plain UDP fd that is asked and answers has a datagram
to read as it is asked, and the receives find nothing. -/
structure FoundEmpty (cfg : Config) (asks : ℤ → ℕ → Sys (World S) (Event S) → Prop) : Prop where
  asked : ∀ fd i s, asks fd i s → (fdReadable cfg i s).1.isSome = true → ¬ UdpPending s.world i
  probes : ∀ fd i s, asks fd i s → FindsNothing i s

/-! ## Events that take nothing -/

/-- The event is no receive from a socket that has a datagram queued. -/
def Event.Spares : Event S → Prop
  | .step (.udpRecv s) w _ => udpQueue s w = []
  | _ => True

theorem queryOk_spares : QueryOk (Event.Spares (S := S)) where
  connected _ _ := trivial
  recvQueue _ _ := trivial
  sendCapacity _ _ := trivial

/-- **Of what a scan does, only a receive from a queue that is not empty is no observation.** -/
theorem observes_iff_spares {log : List (Event S)} (h : ∀ e ∈ log, ScanEvent e) :
    Observes log ↔ ∀ e ∈ log, e.Spares := by
  constructor
  · intro hobs e he
    cases h e he with
    | probe hs w => exact (rxSame_udpRecvProbe_iff hs 0).mp (hobs _ _ _ he)
    | query _ => trivial
    | answer _ => trivial
    | wait => trivial
  · intro hspares call w w' he
    cases h _ he with
    | probe hs => exact (rxSame_udpRecvProbe_iff hs 0).mpr (hspares _ he)
    | query hsame => exact hsame

/-! ## One fd -/

section Fd

variable {cfg : Config} {rdIn wrIn : Finset ℤ} {fd : ℤ} {i : ℕ} {r : Ready} {s : Sys (World S) (Event S)}

/-- A plain UDP fd answers as its receive returns. -/
theorem fdReadable_plainUdp (h : (s.world.fdAt i).plainUdp) : fdReadable cfg i s
    = (recvCall cfg (s.world.fdAt i).sock 0 (.udpRecv (s.world.fdAt i).sock)
      (udpRecvProbe · (s.world.fdAt i).sock.localId 0) none >>= fun r => pure (decide (0 < r.1))) s := by
  rw [fdReadable, Thread.world_bind_apply]
  simp only [h.1, reduceCtorEq, if_false, if_neg h.2]
  rfl

/-- A step that spares the queues may stand before anything that does. -/
theorem logsFrom_atomically_bind {g : World S → α × World S} {call : Call} {f : α → Code S β}
    (he : (Event.step call s.world (g s.world).2).Spares) (hf : ∀ a, Logs Event.Spares (f a)) :
    LogsFrom Event.Spares (atomically g call >>= f) s :=
  LogsFrom.bind (fun hs => List.forall_mem_cons.mpr ⟨he, hs⟩) fun a s₁ _ => (hf a).from s₁

/-- A turn of the receive spares the queue if it is late or finds nothing… -/
theorem logsFrom_recvTurn {sock : NetSock} {h : IfaceId} {start : UInt32}
    (hempty : AfterReading (fun now s' => now ≤ start → udpQueue sock s'.world = []) s) :
    LogsFrom Event.Spares (recvTurn (.udpRecv sock) start (udpRecvProbe h sock.localId 0) none) s := by
  refine LogsFrom.elapse_bind fun m ms hs => ?_
  simp only
  split_ifs with hle
  · refine logsFrom_atomically_bind (hempty m ms hs hle) fun r => ?_
    split_ifs
    · exact Logs.pure _
    · exact (logs_blockingWait trivial).bind fun _ => Logs.pure _
  · exact (Logs.pure _).from _

/-- …and one that spared it was late or found nothing. -/
theorem empty_of_recvTurn {sock : NetSock} {h : IfaceId} {start : UInt32}
    (hlog : ∀ e ∈ (recvTurn (.udpRecv sock) start (udpRecvProbe h sock.localId 0) none s).2.log, e.Spares) :
    AfterReading (fun now s' => now ≤ start → udpQueue sock s'.world = []) s := by
  obtain ⟨w, sched, l⟩ := s
  rintro m ms ⟨⟩ hle
  have hprobe : .step (.udpRecv sock) (m.env w) (udpRecvProbe h sock.localId 0 (m.env w)).2 :: l <:+
      (recvTurn (.udpRecv sock) start (udpRecvProbe h sock.localId 0) none ⟨w, m :: ms, l⟩).2.log := by
    rw [recvTurn_eq]
    exact probeTurn_inTime hle
  exact hlog _ (hprobe.mem List.mem_cons_self)

theorem logsFrom_fdReadable (h : FindsNothing i s) : LogsFrom Event.Spares (fdReadable cfg i) s := by
  by_cases hu : (s.world.fdAt i).plainUdp
  · rw [LogsFrom, fdReadable_plainUdp hu]
    refine LogsFrom.bind ?_ fun _ _ _ => (Logs.pure _).from _
    rw [recvCall]
    rcases hf : handleFor s.world (s.world.fdAt i).sock.iface with _ | j
    · rw [LogsFrom, Thread.world_bind_apply, hf]
      exact id
    · rw [LogsFrom, Thread.world_bind_apply, hf]
      refine LogsFrom.elapse_bind fun m ms hs => LogsFrom.loop fun p hp => ?_
      rw [Config.msToTicks_zero, UInt32.add_zero] at hp ⊢
      exact logsFrom_recvTurn (h hu j hf m ms hs p hp)
  · rw [fdReadable, LogsFrom, Thread.world_bind_apply]
    simp only
    split_ifs with hk hlo
    · exact (queryOk_spares.anyConnected _).from s
    · exact (Logs.pure _).from s
    · rcases hkind : (s.world.fdAt i).kind with _ | _ | _ | _
      · exact (Logs.pure _).from s
      · refine ((logs_atomically (queryOk_spares.recvQueue _)).bind fun n => ?_).from s
        split_ifs
        · exact Logs.pure _
        · exact (logs_atomically (queryOk_spares.connected _)).bind fun _ =>
            Logs.world.bind fun _ => Logs.pure _
      · exact absurd ⟨hkind, hlo⟩ hu
      · exact (Logs.pure _).from s

theorem findsNothing_of_fdReadable (hlog : ∀ e ∈ (fdReadable cfg i s).2.log, e.Spares) :
    FindsNothing i s := by
  intro hu h hf m ms hs p hp
  refine empty_of_recvTurn (h := h) fun e he => hlog e ?_
  rw [fdReadable_plainUdp hu]
  refine (Onward.later_bind (fun _ => Onward.pure _) _ s).log.mem ?_
  rw [recvCall, Thread.world_bind_apply]
  simp only [hf]
  obtain ⟨w, sched, l⟩ := s
  obtain rfl := hs
  rw [xTaskGetTickCount_bind_cons, Config.msToTicks_zero, UInt32.add_zero, recvLoop, recvTurn_eq]
  rw [recvTurn_eq] at hp he
  exact (Onward.later_turn probeTurn_progress (fun _ => onward_probeTurn) hp).log.mem he

theorem logsFrom_scanWritable {readable : Bool} :
    LogsFrom Event.Spares (scanWritable wrIn fd i r readable) s := by
  refine Logs.from ?_ s
  rw [scanWritable]
  by_cases hmem : fd ∈ wrIn
  · simp only [if_pos hmem]
    exact (queryOk_spares.fdWritable i).bind fun _ => Logs.pure _
  · simp only [if_neg hmem]
    exact (Logs.pure _).bind fun _ => Logs.pure _

theorem logsFrom_scanFd (h : ∀ i, fdGet cfg s.world fd = some i → fd ∈ rdIn → FindsNothing i s) :
    LogsFrom Event.Spares (scanFd cfg rdIn wrIn fd r) s := by
  rw [scanFd_eq, LogsFrom, Thread.world_bind_apply]
  rcases hfd : fdGet cfg s.world fd with _ | i
  · exact id
  simp only
  split_ifs with hmem
  · refine LogsFrom.bind ?_ fun _ _ _ => logsFrom_scanWritable
    rw [askReadable, LogsFrom, Thread.world_bind_apply]
    exact LogsFrom.bind (logsFrom_fdReadable (h i hfd hmem)) fun _ _ _ =>
      ((Logs.emit trivial).bind fun _ => Logs.pure _).from _
  · exact logsFrom_scanWritable

/-- What `fd_readable` did for an fd is there once the scan is past it. -/
theorem later_scanFd (hfd : fdGet cfg s.world fd = some i) (hmem : fd ∈ rdIn) :
    Thread.Later (fdReadable cfg i s).2 (scanFd cfg rdIn wrIn fd r s).2 := by
  rw [scanFd_eq, Thread.world_bind_apply, hfd]
  simp only [if_pos hmem]
  refine Thread.Later.trans ?_ (Onward.later_bind (fun _ => onward_scanWritable) (askReadable cfg i) s)
  rw [askReadable, Thread.world_bind_apply]
  exact Onward.later_bind (fun _ => (Onward.emit _).bind fun _ => Onward.pure _) _ s

end Fd

/-! ## One scan -/

section Scan

variable {cfg : Config} {rdIn wrIn : Finset ℤ} {s : Sys (World S) (Event S)} {deadline : UInt32}

theorem logsFrom_selectScan (n : ℕ) (h : ∀ (fd : ℤ) r s', 0 ≤ fd → fd < n →
      selectScan cfg rdIn wrIn (scanFds fd) {} s = (some r, s') →
        LogsFrom Event.Spares (scanFd cfg rdIn wrIn fd r) s') :
    LogsFrom Event.Spares (selectScan cfg rdIn wrIn (scanFds n) {}) s := by
  induction n with
  | zero => exact id
  | succ n ih =>
    rw [scanFds_succ, selectScan_append_eq]
    refine LogsFrom.bind (ih fun fd r s' h0 hlt => h fd r s' h0 (by omega)) fun r s' hscan => ?_
    exact LogsFrom.bind (h n r s' (by omega) (by omega) hscan) fun _ _ _ => (Logs.pure _).from _

/-- A scan comes to each of its fds after those below it. -/
theorem scanFds_split {nfds fd : ℤ} (h0 : 0 ≤ fd) (hlt : fd < nfds) :
    ∃ fds, scanFds nfds = scanFds fd ++ fd :: fds := by
  obtain ⟨k, rfl⟩ := Int.eq_ofNat_of_zero_le h0
  obtain ⟨m, hm⟩ := Nat.exists_eq_add_of_le (Int.lt_toNat.mpr hlt)
  rw [scanFds, hm, List.range_add, List.map_append, List.range_succ, List.map_append, List.append_assoc]
  exact ⟨_, rfl⟩

/-- What a scan did at an fd is there at its end. -/
theorem later_selectScan {nfds fd : ℤ} {r : Ready} {s' : Sys (World S) (Event S)} (h0 : 0 ≤ fd)
    (hlt : fd < nfds) (h : selectScan cfg rdIn wrIn (scanFds fd) {} s = (some r, s')) :
    Thread.Later (scanFd cfg rdIn wrIn fd r s').2 (selectScan cfg rdIn wrIn (scanFds nfds) {} s).2 := by
  obtain ⟨fds, hfds⟩ := scanFds_split h0 hlt
  rw [hfds, selectScan_append_eq, Thread.bind_of_some h]
  exact Onward.later_bind (fun _ => onward_selectScan) _ s'

end Scan

/-! ## The calls -/

section Calls

variable {cfg : Config} {nfds : ℤ} {rdIn wrIn : Finset ℤ} {timeout : Option TimeVal} {w : World S}
  {sched : List (Moment (World S))}

/-- What a scan of the call did is there at its end. -/
theorem later_of_scanBegins {s₀ : Sys (World S) (Event S)}
    (h : ScanBegins cfg nfds rdIn wrIn timeout w sched s₀) :
    Thread.Later (selectScan cfg rdIn wrIn (scanFds nfds) {} s₀).2
      ((wrapLwipSelect cfg nfds rdIn wrIn timeout).run w sched).2 := by
  have hturn : ∀ {d s}, ReflTransGen (Round fun (_ : Unit) => selectTurn cfg nfds rdIn wrIn d) ((), s) ((), s₀) →
      Thread.Later (selectScan cfg rdIn wrIn (scanFds nfds) {} s₀).2 (selectLoop cfg nfds rdIn wrIn d s).2 :=
    fun hreach => (Onward.later_bind (onward_selectCheck _) _ s₀).trans
      (Onward.later_turn (selectTurn_progress _) (fun _ => onward_selectTurn _) hreach)
  rcases timeout with _ | tv
  · exact hturn h
  · obtain ⟨m, ms, rfl, hreach⟩ := h
    exact hturn hreach

/-- **The call spares the queues exactly if the receives its scans make find nothing.** -/
theorem log_spares_iff (cfg : Config) (nfds : ℤ) (rdIn wrIn : Finset ℤ) (timeout : Option TimeVal)
    (w : World S) (sched : List (Moment (World S))) :
    (∀ e ∈ ((wrapLwipSelect cfg nfds rdIn wrIn timeout).run w sched).2.log, e.Spares) ↔
      ∀ fd i s, Asks cfg nfds rdIn wrIn timeout w sched fd i s → FindsNothing i s := by
  constructor
  · rintro hlog fd i s ⟨hmem, h0, hlt, ⟨s₀, hbegins, r, hscan⟩, hfd⟩
    have hlater := ((later_scanFd (r := r) hfd hmem).trans (later_selectScan h0 hlt hscan)).trans
      (later_of_scanBegins hbegins)
    exact findsNothing_of_fdReadable fun e he => hlog e (hlater.log.mem he)
  · intro h
    have hscan : ∀ s₀, ScanBegins cfg nfds rdIn wrIn timeout w sched s₀ → ∀ d,
        LogsFrom Event.Spares (selectTurn cfg nfds rdIn wrIn d) s₀ := by
      intro s₀ hbegins d
      refine LogsFrom.bind ?_ fun r s₁ _ => ?_
      · change LogsFrom Event.Spares (selectScan cfg rdIn wrIn (scanFds nfds) {}) s₀
        rw [show scanFds nfds = scanFds nfds.toNat by rw [scanFds, scanFds, Int.toNat_natCast]]
        refine logsFrom_selectScan _ fun fd r s h0 hlt hs => logsFrom_scanFd fun i hfd hmem => ?_
        exact h fd i s ⟨hmem, h0, by omega, ⟨s₀, hbegins, r, hs⟩, hfd⟩
      · refine Logs.from ?_ s₁
        split_ifs
        · exact Logs.pure _
        · exact (logs_blockingWait trivial).bind fun _ => Logs.pure _
        · refine logs_xTaskGetTickCount.bind fun now => ?_
          split_ifs
          · exact Logs.pure _
          · exact (logs_blockingWait trivial).bind fun _ => Logs.pure _
    rcases timeout with _ | tv
    · rw [Code.run, wrapLwipSelect]
      exact LogsFrom.loop (fun p hp => hscan p.2 hp _) fun e he => absurd he List.not_mem_nil
    · rw [Code.run, wrapLwipSelect]
      refine LogsFrom.elapse_bind (fun m ms hs => ?_) fun e he => absurd he List.not_mem_nil
      obtain rfl := hs
      exact LogsFrom.loop fun p hp => hscan p.2 ⟨m, ms, rfl, hp⟩ _

/-- **One call**: whatever its result is held to mark, it observes and reports exactly if there is nothing to
lose where its scans come to. -/
theorem observes_iff_foundEmpty {log : List (Event S)} {asks : ℤ → ℕ → Sys (World S) (Event S) → Prop}
    (hlog : ∀ e ∈ log, ScanEvent e) (hspares : (∀ e ∈ log, e.Spares) ↔ ∀ fd i s, asks fd i s → FindsNothing i s)
    (marks : α → ℤ → Prop) (out : Option α) :
    Observes log ∧ Reports cfg asks marks out ↔ FoundEmpty cfg asks := by
  rw [observes_iff_spares hlog, hspares]
  constructor
  · rintro ⟨hprobes, hreports⟩
    refine ⟨fun fd i s ha hsome hp => ?_, hprobes⟩
    rcases hread : fdReadable cfg i s with ⟨_ | b, s'⟩
    · rw [hread] at hsome
      exact absurd hsome Bool.false_ne_true
    · obtain ⟨rfl, -⟩ := hreports fd i s ha hp b s' hread
      exact absurd (fdReadable_udp hp.1.1 hp.1.2 hread) (by decide)
  · intro h
    refine ⟨h.probes, fun fd i s ha hp b s' hread => absurd hp (h.asked fd i s ha ?_)⟩
    rw [hread]
    rfl

/-- `poll` does nothing that its `select` does not. -/
theorem log_wrapLwipPoll (fds : List PollFd) (timeoutMs : ℤ) :
    ((wrapLwipPoll cfg fds timeoutMs).run w sched).2.log = ((wrapLwipSelect cfg (pollNfds fds) (pollRd fds)
      (pollWr fds) (pollTimeout timeoutMs)).run w sched).2.log := by
  rw [Code.run, Code.run, wrapLwipPoll]
  change ((wrapLwipSelect cfg (pollNfds fds) (pollRd fds) (pollWr fds) (pollTimeout timeoutMs) >>= _)
    ⟨w, sched, []⟩).2.log = _
  rcases hrun : wrapLwipSelect cfg (pollNfds fds) (pollRd fds) (pollWr fds) (pollTimeout timeoutMs)
    ⟨w, sched, []⟩ with ⟨_ | r, sys⟩
  · rw [Thread.bind_of_none hrun]
  · rw [Thread.bind_of_some hrun]
    split_ifs
    · rfl
    · rfl

end Calls

/-- **`select` and `poll` only observe, and report every datagram, exactly when there is none on a plain UDP fd
where their scans come to it.** -/
theorem scan_observes_iff (cfg : Config) (w : World S) (sched : List (Moment (World S))) :
    (∀ nfds rd wr timeout,
      let run := (wrapLwipSelect cfg nfds rd wr timeout).run w sched
      let asks := Asks cfg nfds rd wr timeout w sched
      Observes run.2.log ∧ Reports cfg asks (fun r fd => fd ∈ r.rd) run.1 ↔ FoundEmpty cfg asks) ∧
    ∀ fds timeoutMs,
      let run := (wrapLwipPoll cfg fds timeoutMs).run w sched
      let asks := PollAsks cfg fds timeoutMs w sched
      Observes run.2.log ∧
          Reports cfg asks (fun r fd => ∀ p ∈ r.2, p.fd = fd → p.revIn = true) run.1
        ↔ FoundEmpty cfg asks := by
  refine ⟨fun nfds rd wr timeout => ?_, fun fds timeoutMs => ?_⟩
  · exact observes_iff_foundEmpty (((scanOk_scanEvent cfg).wrapLwipSelect nfds rd wr timeout).run w sched)
      (log_spares_iff cfg nfds rd wr timeout w sched) _ _
  · have hspares := log_spares_iff cfg (pollNfds fds) (pollRd fds) (pollWr fds) (pollTimeout timeoutMs) w sched
    rw [← log_wrapLwipPoll] at hspares
    exact observes_iff_foundEmpty (((scanOk_scanEvent cfg).wrapLwipPoll fds timeoutMs).run w sched) hspares _ _

/-! ### A datagram that is waiting -/

/-- A UDP fd with one datagram queued. -/
def oneDatagram : World .reference :=
  oneSocket (.udp { port := 53, rx := [⟨[7], ⟨.ipv4 ⟨10, 0, 0, 1⟩, 1024⟩⟩] }) { kind := .udp }

/-- **`select` destroys the datagram it is asked about, and reports nothing.** -/
theorem select_loses_datagram :
    let sched := [idle 0, idle 0, idle 0, idle 1, idle 1, idle 1]
    let run := (wrapLwipSelect .default 49 {48} ∅ (some ⟨0, 0⟩)).run oneDatagram sched
    let asks := Asks .default 49 {48} ∅ (some ⟨0, 0⟩) oneDatagram sched
    run.1 = some {} ∧ oneDatagram.rxOf .eth 0 = some (.inr [⟨[7], ⟨.ipv4 ⟨10, 0, 0, 1⟩, 1024⟩⟩]) ∧
      run.2.world.rxOf .eth 0 = some (.inr []) ∧
      ¬ Observes run.2.log ∧ ¬ Reports .default asks (fun r fd => fd ∈ r.rd) run.1 := by
  refine ⟨rfl, rfl, rfl, fun h => ?_, fun h => ?_⟩
  · have hsame : RxSame oneDatagram (udpRecvProbe .eth 1 0 oneDatagram).2 :=
      h (.udpRecv ⟨1⟩) _ _ (.tail _ (.tail _ (.head _)))
    cases congrFun (congrFun hsame.sockets .eth) 0
  · have hasks : Asks .default 49 {48} ∅ (some ⟨0, 0⟩) oneDatagram [idle 0, idle 0, idle 0, idle 1, idle 1, idle 1]
        48 0 ⟨oneDatagram, [idle 0, idle 0, idle 1, idle 1, idle 1], []⟩ :=
      ⟨by decide, by decide, by decide, ⟨_, ⟨_, _, rfl, .refl⟩, {}, rfl⟩, rfl⟩
    have hpending : UdpPending oneDatagram 0 :=
      ⟨⟨rfl, fun hlo => Bool.false_ne_true hlo.1⟩, _, List.mem_cons_self, List.cons_ne_nil 7 []⟩
    have hfound := (h 48 0 _ hasks hpending false _ rfl).1
    cases hfound

end EspSmoltcp
