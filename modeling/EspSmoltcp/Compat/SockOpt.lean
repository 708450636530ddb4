import EspSmoltcp.Compat.Handshake
import EspSmoltcp.Compat.UdpCalls
import EspSmoltcp.Stack.Wakeups

/-!
# Compat/SockOpt — `setsockopt`, and the timeouts of an fd

`SO_RCVTIMEO` and `SO_SNDTIMEO` store a number of milliseconds in a `uint32_t`, and the blocking calls read a
stored 0 as "not set".

* **What a call waits with** (`passes`): each blocking call hands one timeout down, to `net_tcp_recv`,
  `net_udp_recvfrom`, `xQueueReceive`, `net_tcp_send` or `net_tcp_connect`.
* **When that is the timeout asked for** (`timeout_iff`): when it is at least a millisecond and the number of
  milliseconds fits, or wraps to the largest one there is.
-/

namespace EspSmoltcp

variable {S : Smoltcp}

/-! ## `setsockopt` -/

/-- `net_mcast_join` and `net_mcast_leave`. -/
def netMcast (group : Ipv4Address → IfaceCtx S → Option (IfaceCtx S)) (iface : IfaceId) (groupBe : UInt32)
    (w : World S) : EspErr × World S :=
  match handleFor w iface.code with
  | none => (.invalidArg, w)
  | some h =>
    let (rc, w) := w.ffi h (-1) (smoltcpIfaceMcast group · groupBe)
    (if rc = 0 then .ok else .fail, w)

/-- The two timeouts of an fd: `SO_RCVTIMEO` and `SO_SNDTIMEO`. -/
inductive Timeo
  | rcv | snd
  deriving DecidableEq, Repr

/-- The options `__wrap_lwip_setsockopt` tells apart, with what `optval` points to if `optlen` covers it. -/
inductive SockOpt
  | timeo (dir : Timeo) (val : Option TimeVal)
  | ipAddMembership (groupBe : Option UInt32)
  | ipDropMembership (groupBe : Option UInt32)
  /-- All the options that are accepted or ignored. -/
  | other
  deriving DecidableEq

/-- `tv->tv_sec * 1000 + tv->tv_usec / 1000`, stored in a `uint32_t`. -/
def TimeVal.stored (tv : TimeVal) : UInt32 := .ofInt (tv.sec * 1000 + tv.usec.tdiv 1000)

namespace FdEntry

/-- `rcv_timeout_ms` or `snd_timeout_ms`. -/
def timeoutMs (e : FdEntry) : Timeo → UInt32
  | .rcv => e.rcvTimeoutMs
  | .snd => e.sndTimeoutMs

/-- The store of one of them. -/
def setTimeout (e : FdEntry) (ms : UInt32) : Timeo → FdEntry
  | .rcv => { e with rcvTimeoutMs := ms }
  | .snd => { e with sndTimeoutMs := ms }

theorem timeoutMs_setTimeout (e : FdEntry) (ms : UInt32) (dir : Timeo) :
    (e.setTimeout ms dir).timeoutMs dir = ms := by
  cases dir <;> rfl

end FdEntry

/-- `__wrap_lwip_setsockopt`. -/
def wrapLwipSetsockopt (mcast : McastApi S) (cfg : Config) (fd : ℤ) (opt : SockOpt) (w : World S) :
    Ret × World S :=
  match fdGet cfg w fd with
  | none => (.fail .ebadf, w)
  | some i => match opt with
    | .timeo dir (some tv) => (⟨0, none⟩, w.modFd i fun e => e.setTimeout tv.stored dir)
    | .ipAddMembership (some groupBe) =>
      let (rc, w) := netMcast mcast.join (w.fdAt i).iface groupBe w
      (⟨if rc = .ok then 0 else -1, none⟩, w)
    | .ipDropMembership (some groupBe) =>
      let (rc, w) := netMcast mcast.leave (w.fdAt i).iface groupBe w
      (⟨if rc = .ok then 0 else -1, none⟩, w)
    | _ => (⟨0, none⟩, w)

/-- A timeout that is set is stored. -/
theorem timeoutMs_setsockopt (mcast : McastApi S) {cfg : Config} {fd : ℤ} {w : World S} {i : ℕ}
    (hfd : fdGet cfg w fd = some i) (dir : Timeo) (tv : TimeVal) :
    ((wrapLwipSetsockopt mcast cfg fd (.timeo dir (some tv)) w).2.fdAt i).timeoutMs dir = tv.stored := by
  simp only [wrapLwipSetsockopt, hfd]
  rw [World.fdAt_modFd_self _ (lt_length_of_fdGet hfd), FdEntry.timeoutMs_setTimeout]

/-! ## The calls that wait -/

/-- A call with a timeout. -/
inductive TimedCall
  | recv (len : ℕ)
  | recvfrom (len : ℕ)
  | send (buf : Bytes)
  /-- `rand` is the draw for the local port. -/
  | connect (addr : SockAddrIn) (alen : ℕ) (rand : UInt32)

namespace TimedCall

/-- What the call returns. -/
def Result : TimedCall → Type
  | recv _ => Ret × Bytes
  | recvfrom _ => Ret × Bytes × Option (UInt32 × UInt16)
  | send _ | connect .. => Ret

/-- The call. -/
def run (cfg : Config) (fd : ℤ) : (c : TimedCall) → Code S c.Result
  | recv len => wrapLwipRecv cfg fd len
  | recvfrom len => wrapLwipRecvfrom cfg fd len
  | send buf => wrapLwipSend cfg fd buf
  | connect addr alen rand => wrapLwipConnect cfg fd addr alen rand

/-- The option that sets its timeout. -/
def dir : TimedCall → Timeo
  | recv _ | recvfrom _ => .rcv
  | send _ | connect .. => .snd

/-- Its timeout when none is set. -/
def byDefault : TimedCall → UInt32
  | send _ => 5000
  | recv _ | recvfrom _ | connect .. => 30000

/-- The timeout it hands down on a blocking fd. -/
def timeout (c : TimedCall) (e : FdEntry) : UInt32 :=
  if e.timeoutMs c.dir ≠ 0 then e.timeoutMs c.dir else c.byDefault

/-- The function it hands the timeout to, if it comes to that. -/
def lower (cfg : Config) (i : ℕ) (w : World S) : TimedCall → Option (Σ β : Type, UInt32 → Code S β)
  | recv len => match (w.fdAt i).kind with
    | .tcp => some ⟨_, netTcpRecv cfg (w.fdAt i).sock len⟩
    | .udp => some ⟨_, netUdpRecvfrom cfg (w.fdAt i).sock len⟩
    | _ => none
  | recvfrom len => match (w.fdAt i).kind with
    | .udp =>
      if (w.fdAt i).loopback = true ∧ (w.fdAt i).loRx.isSome = true then some ⟨_, loReceiveWait cfg i⟩
      else some ⟨_, netUdpRecvfrom cfg (w.fdAt i).sock len⟩
    | _ => none
  | send buf =>
    if (w.fdAt i).connected = true ∧ (w.fdAt i).kind = .tcp then
      some ⟨_, netTcpSend cfg (w.fdAt i).sock buf⟩
    else none
  | connect addr alen rand =>
    if ¬ alen < sizeofSockAddrIn ∧ (w.fdAt i).kind = .tcp ∧ (connectHandle i w).valid = true then
      some ⟨_, fun t => netTcpConnect cfg (connectHandle i w) addr.addrBe addr.port t rand⟩
    else none

end TimedCall

/-- Called in `w`, the code calls this function with the timeout `t`, and goes on from there. -/
def Passes {α β : Type} (call : Code S α) (lower : UInt32 → Code S β) (t : UInt32) (w : World S) : Prop :=
  ∃ (v : World S) (rest : β → Code S α), ∀ sched l, ∃ l', call ⟨w, sched, l⟩ = (lower t >>= rest) ⟨v, sched, l'⟩

section Passed

variable {cfg : Config} {fd : ℤ} {i : ℕ} {w : World S}

/-- On a blocking fd a receive has the timeout of the fd. -/
theorem rcvTimeout_of_blocking (hb : Blocking i w) :
    rcvTimeout (w.fdAt i) = (TimedCall.recv 0).timeout (w.fdAt i) := by
  have hnb : ¬ (w.fdAt i).nonblocking = true := by
    rw [Bool.not_eq_true]
    exact hb
  rw [rcvTimeout, if_neg hnb]
  rfl

theorem passes_recv (hfd : fdGet cfg w fd = some i) (hb : Blocking i w) {len : ℕ}
    {low : Σ β : Type, UInt32 → Code S β} (hlow : (TimedCall.recv len).lower cfg i w = some low) :
    Passes (wrapLwipRecv cfg fd len) low.2 ((TimedCall.recv len).timeout (w.fdAt i)) w := by
  have ht := rcvTimeout_of_blocking hb
  rw [TimedCall.lower] at hlow
  split at hlow
  · rename_i hk
    obtain rfl := Option.some.inj hlow
    exact ⟨w, _, fun sched l => ⟨l, ht ▸ wrapLwipRecv_tcp hfd hk len sched l⟩⟩
  · rename_i hk
    obtain rfl := Option.some.inj hlow
    exact ⟨w, _, fun sched l => ⟨l, ht ▸ wrapLwipRecv_udp hfd hk sched l⟩⟩
  · cases hlow

/-- What `recvfrom` makes of what it took from the loopback queue. -/
def loReceived (i len : ℕ) : Option LoMsg → Code S (Ret × Bytes × Option (UInt32 × UInt16))
  | none => do
    pure (if ((← Thread.world).fdAt i).nonblocking then .fail .ewouldblock else ⟨0, none⟩, [], none)
  | some m =>
    let n := min m.data.length len
    pure (⟨n, none⟩, m.data.take n, if 0 < n then some (m.srcBe, m.srcPort) else none)

/-- `recvfrom` on an fd with a loopback queue waits on the queue. -/
theorem wrapLwipRecvfrom_lo (hfd : fdGet cfg w fd = some i) (hk : (w.fdAt i).kind = .udp)
    (hlo : (w.fdAt i).loopback = true ∧ (w.fdAt i).loRx.isSome = true) (len : ℕ)
    (sched : List (Moment (World S))) (l : List (Event S)) :
    wrapLwipRecvfrom cfg fd len ⟨w, sched, l⟩
      = (loReceiveWait cfg i (rcvTimeout (w.fdAt i)) >>= loReceived i len) ⟨w, sched, l⟩ := by
  rw [wrapLwipRecvfrom, Thread.world_bind_apply, hfd]
  dsimp only
  rw [Thread.world_bind_apply, if_neg (not_not.mpr hk), if_pos hlo]
  refine congrArg (fun rest => (loReceiveWait cfg i _ >>= rest) _) (funext fun r => ?_)
  rcases r with _ | m <;> rfl

theorem passes_recvfrom (hfd : fdGet cfg w fd = some i) (hb : Blocking i w) {len : ℕ}
    {low : Σ β : Type, UInt32 → Code S β} (hlow : (TimedCall.recvfrom len).lower cfg i w = some low) :
    Passes (wrapLwipRecvfrom cfg fd len) low.2 ((TimedCall.recvfrom len).timeout (w.fdAt i)) w := by
  have ht : rcvTimeout (w.fdAt i) = (TimedCall.recvfrom len).timeout (w.fdAt i) := rcvTimeout_of_blocking hb
  rw [TimedCall.lower] at hlow
  split at hlow
  · rename_i hk
    split_ifs at hlow with hlo
    · obtain rfl := Option.some.inj hlow
      exact ⟨w, _, fun sched l => ⟨l, ht ▸ wrapLwipRecvfrom_lo hfd hk hlo len sched l⟩⟩
    · obtain rfl := Option.some.inj hlow
      exact ⟨w, _, fun sched l => ⟨l, ht ▸ wrapLwipRecvfrom_udp hfd hk hlo len sched l⟩⟩
  · cases hlow

theorem passes_send (hfd : fdGet cfg w fd = some i) {buf : Bytes}
    {low : Σ β : Type, UInt32 → Code S β} (hlow : (TimedCall.send buf).lower cfg i w = some low) :
    Passes (wrapLwipSend cfg fd buf) low.2 ((TimedCall.send buf).timeout (w.fdAt i)) w := by
  rw [TimedCall.lower] at hlow
  split_ifs at hlow with hc
  obtain rfl := Option.some.inj hlow
  refine ⟨w, fun n => pure ⟨n, none⟩, fun sched l => ⟨l, ?_⟩⟩
  rw [wrapLwipSend, Thread.world_bind_apply, hfd]
  dsimp only
  rw [Thread.world_bind_apply]
  simp only [hc.1, hc.2, Bool.not_true, Bool.false_eq_true, if_false]
  rfl

/-- With a handle `connect` goes on to `net_tcp_connect`. -/
theorem connectRest_valid {s : NetSock} (hs : s.valid = true) (addr : SockAddrIn) (timeoutMs rand : UInt32) :
    connectRest cfg i s addr timeoutMs rand
      = (netTcpConnect cfg s addr.addrBe addr.port timeoutMs rand >>= fun er => do
          if er ≠ .ok then pure (.fail .etimedout)
          else
            atomically fun w => ((), w.modFd i fun e => { e with connected := true })
            pure ⟨0, none⟩ : Code S Ret) := by
  rw [connectRest, hs]
  rfl

theorem passes_connect (hfd : fdGet cfg w fd = some i) {addr : SockAddrIn} {alen : ℕ} {rand : UInt32}
    {low : Σ β : Type, UInt32 → Code S β} (hlow : (TimedCall.connect addr alen rand).lower cfg i w = some low) :
    Passes (wrapLwipConnect cfg fd addr alen rand) low.2
      ((TimedCall.connect addr alen rand).timeout (w.fdAt i)) w := by
  rw [TimedCall.lower] at hlow
  split_ifs at hlow with hc
  obtain ⟨halen, hk, hv⟩ := hc
  obtain rfl := Option.some.inj hlow
  exact ⟨connectWorld i w, _, fun sched l => ⟨_,
    (wrapLwipConnect_tcp hfd halen hk rand sched l).trans (congrFun (connectRest_valid hv addr _ rand) _)⟩⟩

/-- **Each call hands its timeout down**, if it comes to the function that waits. -/
theorem TimedCall.passes (hfd : fdGet cfg w fd = some i) (hb : Blocking i w) (c : TimedCall)
    {low : Σ β : Type, UInt32 → Code S β} (hlow : c.lower cfg i w = some low) :
    Passes (c.run cfg fd) low.2 (c.timeout (w.fdAt i)) w := by
  cases c with
  | recv len => exact passes_recv hfd hb hlow
  | recvfrom len => exact passes_recvfrom hfd hb hlow
  | send buf => exact passes_send hfd hlow
  | connect addr alen rand => exact passes_connect hfd hlow

end Passed

/-! ## The timeout asked for -/

namespace TimeVal

/-- Not negative, the microseconds below a second, and not zero. -/
def Valid (tv : TimeVal) : Prop :=
  0 ≤ tv.sec ∧ 0 ≤ tv.usec ∧ tv.usec < 1000000 ∧ (tv.sec ≠ 0 ∨ tv.usec ≠ 0)

/-- The time in microseconds. -/
def micros (tv : TimeVal) : ℤ := tv.sec * 1000000 + tv.usec

/-- The whole milliseconds of it. -/
def millis (tv : TimeVal) : ℤ := tv.sec * 1000 + tv.usec / 1000

/-- This number of milliseconds is within one of the time, or it is the largest one and the time is beyond. -/
def Honours (tv : TimeVal) (t : UInt32) : Prop :=
  (tv.micros ≤ t.toNat * 1000 + 1000 ∧ t.toNat * 1000 ≤ tv.micros + 1000) ∨
    ((2 ^ 32 - 1) * 1000 < tv.micros ∧ t.toNat = 2 ^ 32 - 1)

/-- At least a millisecond, and few enough for a `uint32_t`, or just so many that they wrap to the largest. -/
def Fits (tv : TimeVal) : Prop := 1 ≤ tv.millis ∧ (tv.millis < 2 ^ 32 ∨ tv.millis % 2 ^ 32 = 2 ^ 32 - 1)

instance (tv : TimeVal) : Decidable tv.Valid := inferInstanceAs (Decidable (_ ∧ _ ∧ _ ∧ (_ ∨ _)))

instance (tv : TimeVal) (t : UInt32) : Decidable (tv.Honours t) :=
  inferInstanceAs (Decidable ((_ ∧ _) ∨ (_ ∧ _)))

instance (tv : TimeVal) : Decidable tv.Fits := inferInstanceAs (Decidable (_ ∧ (_ ∨ _)))

/-- What is stored is the number of milliseconds modulo 2³². -/
theorem toNat_stored {tv : TimeVal} (h : 0 ≤ tv.usec) : (tv.stored.toNat : ℤ) = tv.millis % 2 ^ 32 := by
  have hdiv : tv.usec.tdiv 1000 = tv.usec / 1000 := Int.tdiv_eq_ediv_of_nonneg h
  rw [stored, UInt32.ofInt, UInt32.toNat_ofNat', hdiv, ← millis]
  omega

theorem micros_range (tv : TimeVal) : tv.millis * 1000 ≤ tv.micros ∧ tv.micros < tv.millis * 1000 + 1000 := by
  rw [millis, micros]
  omega

end TimeVal

/-- The fd blocks, and this timeout was set on it and has not been set anew. -/
structure TimeoutSet (mcast : McastApi S) (cfg : Config) (fd : ℤ) (i : ℕ) (dir : Timeo) (tv : TimeVal)
    (w : World S) : Prop where
  entry : fdGet cfg w fd = some i
  blocking : Blocking i w
  kept : ∃ v, fdGet cfg v fd = some i ∧ (w.fdAt i).timeoutMs dir
    = ((wrapLwipSetsockopt mcast cfg fd (.timeo dir (some tv)) v).2.fdAt i).timeoutMs dir

section Asked

variable {mcast : McastApi S} {cfg : Config} {fd : ℤ} {i : ℕ} {c : TimedCall} {tv tv' : TimeVal}
  {w w' : World S}

/-- The calls take a stored 0 for none. -/
theorem TimeoutSet.toNat_timeout (h : TimeoutSet mcast cfg fd i c.dir tv w) (hv : tv.Valid) :
    ((c.timeout (w.fdAt i)).toNat : ℤ)
      = if tv.millis % 2 ^ 32 = 0 then (c.byDefault.toNat : ℤ) else tv.millis % 2 ^ 32 := by
  obtain ⟨v, hfd, hkept⟩ := h.kept
  rw [timeoutMs_setsockopt mcast hfd] at hkept
  have hstored := TimeVal.toNat_stored hv.2.1
  rw [TimedCall.timeout, hkept]
  split_ifs with hne hzero hzero
  · rw [hzero] at hstored
    exact absurd (UInt32.toNat_inj.mp (Int.natCast_eq_zero.mp hstored)) hne
  · exact hstored
  · rfl
  · rw [not_not.mp hne] at hstored
    exact absurd hstored.symm hzero

theorem toNat_byDefault (c : TimedCall) : c.byDefault.toNat = 5000 ∨ c.byDefault.toNat = 30000 := by
  cases c with
  | send buf => exact .inl rfl
  | recv len => exact .inr rfl
  | recvfrom len => exact .inr rfl
  | connect addr alen rand => exact .inr rfl

theorem honours_timeout_iff (h : TimeoutSet mcast cfg fd i c.dir tv w) (hv : tv.Valid) :
    tv.Honours (c.timeout (w.fdAt i)) ↔ tv.Fits := by
  have ht := h.toNat_timeout hv
  have hd := toNat_byDefault c
  have hr := tv.micros_range
  rw [TimeVal.Honours, TimeVal.Fits]
  split_ifs at ht <;> omega

/-- Once both are honoured, the longer request is not given the shorter timeout. -/
theorem timeout_mono (h : TimeoutSet mcast cfg fd i c.dir tv w) (h' : TimeoutSet mcast cfg fd i c.dir tv' w')
    (hv : tv.Valid) (hv' : tv'.Valid) (hf : tv.Fits) (hf' : tv'.Fits) (hle : tv.micros ≤ tv'.micros) :
    c.timeout (w.fdAt i) ≤ c.timeout (w'.fdAt i) := by
  have ht := h.toNat_timeout hv
  have ht' := h'.toNat_timeout hv'
  have hr := tv.micros_range
  have hr' := tv'.micros_range
  obtain ⟨hpos, hwrap⟩ := hf
  obtain ⟨hpos', hwrap'⟩ := hf'
  have hlt := (c.timeout (w.fdAt i)).toNat_lt
  rw [if_neg (by omega)] at ht ht'
  rw [UInt32.le_iff_toNat_le]
  omega

/-- **A blocking call hands down the timeout asked for exactly when that is at least a millisecond and the
milliseconds fit or wrap to the largest number.**  Of two such requests the longer has the longer timeout. -/
theorem timeout_iff (hset : TimeoutSet mcast cfg fd i c.dir tv w) (hv : tv.Valid) :
    (∀ low, c.lower cfg i w = some low → Passes (c.run cfg fd) low.2 (c.timeout (w.fdAt i)) w) ∧
    (tv.Honours (c.timeout (w.fdAt i)) ↔ tv.Fits) ∧
    (tv.Fits → ∀ {tv' : TimeVal} {w' : World S}, TimeoutSet mcast cfg fd i c.dir tv' w' → tv'.Valid → tv'.Fits →
      tv.micros ≤ tv'.micros → c.timeout (w.fdAt i) ≤ c.timeout (w'.fdAt i)) :=
  ⟨fun _ hlow => c.passes hset.entry hset.blocking hlow, honours_timeout_iff hset hv,
    fun hf _ _ hset' hv' hf' hle => timeout_mono hset hset' hv hv' hf hf' hle⟩

end Asked

/-! ### Half a millisecond -/

/-- The connection with this timeout for its receives. -/
def timedConn (tv : TimeVal) : World .reference :=
  (wrapLwipSetsockopt WakeSys.anyGroup .default 48 (.timeo .rcv (some tv)) (openConn [])).2

theorem timeoutSet_timedConn (tv : TimeVal) : TimeoutSet WakeSys.anyGroup .default 48 0 .rcv tv (timedConn tv) :=
  ⟨rfl, rfl, openConn [], rfl, rfl⟩

/-- **A receive that is to wait for half a millisecond waits for thirty seconds**, and one that is to wait for
4294968 seconds waits for 704 milliseconds. -/
theorem short_timeout_is_default :
    TimeoutSet WakeSys.anyGroup .default 48 0 .rcv ⟨0, 500⟩ (timedConn ⟨0, 500⟩) ∧ (⟨0, 500⟩ : TimeVal).Valid ∧
    (∃ low, (TimedCall.recv 16).lower .default 0 (timedConn ⟨0, 500⟩) = some low ∧
      Passes (wrapLwipRecv .default 48 16) low.2 30000 (timedConn ⟨0, 500⟩)) ∧
    ¬ (⟨0, 500⟩ : TimeVal).Honours 30000 ∧
    (TimedCall.recv 16).timeout ((timedConn ⟨4294968, 0⟩).fdAt 0) = 704 := by
  have hset := timeoutSet_timedConn ⟨0, 500⟩
  have hpasses := (TimedCall.recv 16).passes hset.entry hset.blocking rfl
  exact ⟨hset, by decide, ⟨_, rfl, hpasses⟩, by decide, rfl⟩

/-- Two seconds are two thousand milliseconds. -/
theorem timeout_two_seconds :
    (⟨2, 0⟩ : TimeVal).Honours ((TimedCall.recv 16).timeout ((timedConn ⟨2, 0⟩).fdAt 0)) :=
  (timeout_iff (c := .recv 16) (timeoutSet_timedConn ⟨2, 0⟩) (by decide)).2.1.mpr (by decide)

end EspSmoltcp
