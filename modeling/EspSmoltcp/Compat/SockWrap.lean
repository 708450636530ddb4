import EspSmoltcp.Compat.FdTable

/-!
# Compat/SockWrap — the BSD socket calls of `sock_wrap.c`

Calls that cannot block are functions on the world; the others are `Code`.  A call returns its C
return value and the `errno` it set, if any.  What an `int` return value does not carry — received
bytes, a peer address — is returned beside it.

A call on an fd that is not the shim's goes to lwIP itself and is not modelled.
-/

namespace EspSmoltcp

variable {S : Smoltcp}

/-- The `errno` values the shim sets. -/
inductive Errno
  | eafnosupport | eprotonosupport | enfile | enobufs | einval | eaddrinuse | ebadf | enomem
  | ewouldblock | etimedout | enotconn
  deriving DecidableEq, Repr

/-- A return value, and the `errno` the call set. -/
structure Ret where
  ret : ℤ
  errno : Option Errno := none
  deriving DecidableEq, Repr

/-- `SET_ERRNO(e); return -1;` -/
def Ret.fail (e : Errno) : Ret := ⟨-1, some e⟩

theorem Ret.ret_fail_ne_zero (e : Errno) : (Ret.fail e).ret ≠ 0 := fun h => by cases h

/-- A `sockaddr_in`; the port is in host order. -/
structure SockAddrIn where
  family : ℤ
  addrBe : UInt32
  port : UInt16
  deriving DecidableEq

/-- `sizeof(struct sockaddr_in)`. -/
def sizeofSockAddrIn : ℕ := 16

/-! ## Setting up -/

/-- The kind `socket()` chooses; `SOCK_STREAM` is 1 and `SOCK_DGRAM` is 2. -/
def fdKindOf (type : ℕ) : Option FdKind :=
  if type &&& 0xFF = 1 then some .tcp else if type &&& 0xFF = 2 then some .udp else none

/-- `__wrap_lwip_socket`; `AF_INET` is 2.  `fd_get` finds no entry for the `-1` of a full table. -/
def wrapLwipSocket (cfg : Config) (domain : ℤ) (type : ℕ) (w : World S) : Ret × World S :=
  if domain ≠ 2 then (.fail .eafnosupport, w)
  else match fdKindOf type with
    | none => (.fail .eprotonosupport, w)
    | some k =>
      let (fd, w) := fdAlloc cfg k w
      match fdGet cfg w fd with
      | none => (.fail .enfile, w)
      | some i =>
        let w := w.modFd i fun e => { e with nonblocking := false }
        if k = .udp then
          let (s, w) := netUdpOpen (w.fdAt i).iface 0 w
          let w := w.modFd i fun e => { e with sock := s }
          if s.valid then (⟨fd, none⟩, w) else (.fail .enobufs, fdFree cfg fd w)
        else (⟨fd, none⟩, w)

/-- `__wrap_lwip_bind`. -/
def wrapLwipBind (cfg : Config) (heap : Bool) (fd : ℤ) (addr : SockAddrIn) (alen : ℕ) (w : World S) :
    Ret × World S :=
  match fdGet cfg w fd with
  | none => (.fail .einval, w)
  | some i =>
    if alen < sizeofSockAddrIn ∨ addr.family ≠ 2 then (.fail .einval, w)
    else
      let w := w.modFd i fun e => { e with localIpv4Be := addr.addrBe, localPort := addr.port }
      let e := w.fdAt i
      if e.kind = .udp then
        if isLoopbackIp e.localIpv4Be then
          let (rc, w) := loBind heap e.localPort i w
          (if rc = .ok then ⟨0, none⟩ else ⟨-1, none⟩, w)
        else
          let w := if e.sock.valid then (netUdpClose e.sock w).2 else w
          let (s, w) := netUdpOpen e.iface e.localPort w
          let w := w.modFd i fun e => { e with sock := s }
          (if s.valid then ⟨0, none⟩ else .fail .eaddrinuse, w)
      else (⟨0, none⟩, w)

/-- The pool size `listen()` settles on. -/
def poolSize (cfg : Config) (backlog : ℤ) : ℕ :=
  if 0 < backlog then min backlog.toNat cfg.listenerPool else cfg.listenerPool

theorem poolSize_le (cfg : Config) (backlog : ℤ) : poolSize cfg backlog ≤ cfg.listenerPool := by
  rw [poolSize]
  split_ifs
  · exact min_le_right ..
  · exact le_rfl

theorem poolSize_pos (cfg : Config) (backlog : ℤ) : 0 < poolSize cfg backlog := by
  have := cfg.listenerPool_range.1
  rw [poolSize]
  split_ifs <;> omega

/-- The arming loop of `listen()`, from slot `k` on with `n` slots to go. -/
def armSlots (i : ℕ) : (k n : ℕ) → World S → Ret × World S
  | _, 0, w => (⟨0, none⟩, w)
  | k, n + 1, w =>
    let e := w.fdAt i
    let (s, w) := netTcpOpen e.iface w
    let w := w.modFd i fun e => { e with pool := e.pool.set k s }
    if s.valid then
      let (rc, w) := netTcpListen s e.port w
      if rc = .ok then armSlots i (k + 1) n w else (.fail .eaddrinuse, w)
    else (.fail .enobufs, w)

/-- `__wrap_lwip_listen`. -/
def wrapLwipListen (cfg : Config) (heap : Bool) (fd backlog : ℤ) (w : World S) : Ret × World S :=
  match fdGet cfg w fd with
  | none => (.fail .ebadf, w)
  | some i =>
    if (w.fdAt i).kind ≠ .tcp then (.fail .ebadf, w)
    else if (w.fdAt i).localPort = 0 then (.fail .einval, w)
    else if !heap then (.fail .enomem, w)
    else
      let n := poolSize cfg backlog
      let w := w.modFd i fun e => { e with
        pool := List.replicate n .invalid
        poolNext := 0
        port := e.localPort
        kind := .tcpListen }
      armSlots i 0 n w

/-! ## Accepting -/

/-- The body of the `if` in the scan of `accept()`: slot `idx` holds the connected `cand`. -/
def handOver (cfg : Config) (i idx : ℕ) (cand : NetSock) (w : World S) : Ret × World S :=
  let (newfd, w) := fdAlloc cfg .tcp w
  match fdGet cfg w newfd with
  | none => (.fail .enfile, w)
  | some ni =>
    let e := w.fdAt i
    let w := w.modFd ni fun ne =>
      { ne with sock := cand, connected := true, iface := e.iface, nonblocking := false }
    let (s, w) := netTcpOpen e.iface w
    let w := w.modFd i fun e => { e with pool := e.pool.set idx s }
    let w := if s.valid then (netTcpListen s e.port w).2 else w
    (⟨newfd, none⟩, w.modFd i fun e => { e with poolNext := (idx + 1) % e.pool.length })

/-- One scan of the pool, over these offsets from `pool_next`. -/
def acceptScan (cfg : Config) (i : ℕ) : List ℕ → World S → Option Ret × World S
  | [], w => (none, w)
  | k :: ks, w =>
    let e := w.fdAt i
    let idx := (e.poolNext + k) % e.pool.length
    let cand := e.pool.getD idx .invalid
    let (up, w) := netTcpIsConnected cand w
    if up then
      let (r, w) := handOver cfg i idx cand w
      (some r, w)
    else acceptScan cfg i ks w

/-- `__wrap_lwip_accept`; the peer address it writes is always `0.0.0.0:0`. -/
def wrapLwipAccept (cfg : Config) (fd : ℤ) : Code S Ret := do
  match fdGet cfg (← Thread.world) fd with
  | none => pure (.fail .ebadf)
  | some i =>
    if ((← Thread.world).fdAt i).kind ≠ .tcpListen then pure (.fail .ebadf)
    else
      let start ← xTaskGetTickCount
      Thread.loop (fun _ => 0) (fun (_ : Unit) => do
        let n := ((← Thread.world).fdAt i).pool.length
        match ← atomically (acceptScan cfg i (List.range n)) with
        | some r => pure (.inr r)
        | none =>
          if ((← Thread.world).fdAt i).nonblocking then pure (.inr (.fail .ewouldblock))
          else if cfg.msToTicks 60000 < (← xTaskGetTickCount) - start then
            pure (.inr (.fail .etimedout))
          else
            blockingWait
            pure (.inl ())) ()

/-! ## Connecting -/

/-- `__wrap_lwip_connect`. -/
def wrapLwipConnect (cfg : Config) (fd : ℤ) (addr : SockAddrIn) (alen : ℕ) (rand : UInt32) :
    Code S Ret := do
  match fdGet cfg (← Thread.world) fd with
  | none => pure (.fail .einval)
  | some i =>
    if alen < sizeofSockAddrIn then pure (.fail .einval)
    else
      let e := (← Thread.world).fdAt i
      match e.kind with
      | .tcp =>
        let s ← atomically fun w =>
          let (s, w) := netTcpOpen e.iface w
          (s, w.modFd i fun e => { e with sock := s })
        if !s.valid then pure (.fail .enobufs)
        else
          let er ← netTcpConnect cfg s addr.addrBe addr.port
            (if e.sndTimeoutMs ≠ 0 then e.sndTimeoutMs else 30000) rand
          if er ≠ .ok then pure (.fail .etimedout)
          else
            atomically fun w => ((), w.modFd i fun e => { e with connected := true })
            pure ⟨0, none⟩
      | .udp =>
        atomically fun w => ((), w.modFd i fun e =>
          { e with localIpv4Be := addr.addrBe, localPort := addr.port, connected := true })
        pure ⟨0, none⟩
      | _ => pure (.fail .ebadf)

/-! ## Sending -/

/-- `__wrap_lwip_send`. -/
def wrapLwipSend (cfg : Config) (fd : ℤ) (buf : Bytes) : Code S Ret := do
  match fdGet cfg (← Thread.world) fd with
  | none => pure (.fail .enotconn)
  | some i =>
    let e := (← Thread.world).fdAt i
    if !e.connected then pure (.fail .enotconn)
    else match e.kind with
      | .tcp =>
        let n ← netTcpSend cfg e.sock buf (if e.sndTimeoutMs ≠ 0 then e.sndTimeoutMs else 5000)
        pure ⟨n, none⟩
      | .udp =>
        let n ← atomically (netUdpSendto e.sock buf e.localIpv4Be e.localPort)
        pure ⟨n, none⟩
      | _ => pure (.fail .ebadf)

/-- `__wrap_lwip_sendto`. -/
def wrapLwipSendto (cfg : Config) (heap : Bool) (fd : ℤ) (buf : Bytes) (dst : SockAddrIn)
    (tolen : ℕ) (w : World S) : Ret × World S :=
  match fdGet cfg w fd with
  | none => (.fail .ebadf, w)
  | some i =>
    let e := w.fdAt i
    if e.kind ≠ .udp then (.fail .ebadf, w)
    else if tolen < sizeofSockAddrIn then (.fail .einval, w)
    else
      let (n, w) := if isLoopbackIp dst.addrBe then
        loDeliver heap dst.port e.localIpv4Be e.localPort buf w
      else netUdpSendto e.sock buf dst.addrBe dst.port w
      (⟨n, none⟩, w)

/-! ## Receiving -/

/-- The timeout of a receive: `SO_RCVTIMEO` or thirty seconds, none on a non-blocking fd. -/
def rcvTimeout (e : FdEntry) : UInt32 :=
  if e.nonblocking then 0 else if e.rcvTimeoutMs ≠ 0 then e.rcvTimeoutMs else 30000

/-- `if (n == 0 && e->nonblocking) { SET_ERRNO(EWOULDBLOCK); return -1; } return n;` -/
def recvRet (nonblocking : Bool) (n : Int) : Ret :=
  if n = 0 ∧ nonblocking = true then .fail .ewouldblock else ⟨n, none⟩

/-- `__wrap_lwip_recv`: the return value and the bytes written to the buffer. -/
def wrapLwipRecv (cfg : Config) (fd : ℤ) (len : ℕ) : Code S (Ret × Bytes) := do
  match fdGet cfg (← Thread.world) fd with
  | none => pure (.fail .ebadf, [])
  | some i =>
    let e := (← Thread.world).fdAt i
    match e.kind with
    | .tcp =>
      let (n, data) ← netTcpRecv cfg e.sock len (rcvTimeout e)
      pure (recvRet ((← Thread.world).fdAt i).nonblocking n, data)
    | .udp =>
      let (n, msg) ← netUdpRecvfrom cfg e.sock len (rcvTimeout e)
      pure (recvRet ((← Thread.world).fdAt i).nonblocking n, (msg.map UdpRecv.data).getD [])
    | _ => pure (.fail .ebadf, [])

/-- `xQueueReceive` on the loopback queue of an entry, without waiting. -/
def loReceive (i : ℕ) (w : World S) : Option LoMsg × World S :=
  match (w.fdAt i).loRx with
  | some (m :: q) => (some m, w.modFd i fun e => { e with loRx := some q })
  | _ => (none, w)

/-- One turn of `xQueueReceive` with a timeout: it blocks while the queue is empty and time is left. -/
def loReceiveTurn (i : ℕ) (start ticks now : UInt32) : Code S (UInt32 ⊕ Option LoMsg) := do
  match ← atomically (loReceive i) with
  | some m => pure (.inr (some m))
  | none =>
    if ticks ≤ now - start then pure (.inr none)
    else
      Thread.emit .wait
      pure (.inl (← Thread.elapse))

/-- `xQueueReceive` on the loopback queue of an entry, with a timeout. -/
def loReceiveWait (cfg : Config) (i : ℕ) (timeoutMs : UInt32) : Code S (Option LoMsg) := do
  let start ← xTaskGetTickCount
  Thread.loop (fun _ => 0) (loReceiveTurn i start (cfg.msToTicks timeoutMs)) start

/-- What the others keep, and a receive from the queue, holds along the wait. -/
theorem along_loWait {cfg : Config} {i : ℕ} {rely : (World S → World S) → Prop} {J : World S → Prop}
    {E : Sys (World S) (Event S) → Prop} (hst : Thread.Stable rely J) (hE : ∀ s, Thread.Along rely J s → E s)
    (hrecv : ∀ w, J w → J (loReceive i w).2) (timeoutMs : UInt32) :
    Thread.Triple (Thread.Along rely J) (loReceiveWait cfg i timeoutMs) (fun _ => Thread.Along rely J) E := by
  refine Thread.Triple.bind (along_xTaskGetTickCount hst hE) fun start => ?_
  refine Thread.Triple.loop (I := fun _ => Thread.Along rely J) (fun _ => hE) (fun now => ?_) start
  refine Thread.Triple.bind (Q := fun _ => Thread.Along rely J) (along_atomically hrecv) fun r => ?_
  rcases r with _ | m
  · simp only
    split_ifs
    · exact Thread.Triple.pure _ fun _ hs => hs
    · refine Thread.Triple.bind (Q := fun _ => Thread.Along rely J) (Thread.Along.emit _) fun _ => ?_
      exact Thread.Triple.bind (Thread.Along.elapse hst hE) fun _ => Thread.Triple.pure _ fun _ hs => hs
  · exact Thread.Triple.pure _ fun _ hs => hs

/-- `__wrap_lwip_recvfrom`: the return value, the bytes and the source written out. -/
def wrapLwipRecvfrom (cfg : Config) (fd : ℤ) (len : ℕ) :
    Code S (Ret × Bytes × Option (UInt32 × UInt16)) := do
  match fdGet cfg (← Thread.world) fd with
  | none => pure (.fail .ebadf, [], none)
  | some i =>
    let e := (← Thread.world).fdAt i
    if e.kind ≠ .udp then pure (.fail .ebadf, [], none)
    else if e.loopback ∧ e.loRx.isSome then
      match ← loReceiveWait cfg i (rcvTimeout e) with
      | none =>
        pure (if ((← Thread.world).fdAt i).nonblocking then .fail .ewouldblock else ⟨0, none⟩, [], none)
      | some m =>
        let n := min m.data.length len
        pure (⟨n, none⟩, m.data.take n, if 0 < n then some (m.srcBe, m.srcPort) else none)
    else
      let (n, msg) ← netUdpRecvfrom cfg e.sock len (rcvTimeout e)
      pure (⟨n, none⟩, (msg.map UdpRecv.data).getD [],
        if 0 < n then msg.map fun m => (m.srcBe.getD 0, m.srcPort) else none)

/-! ## Ending -/

/-- `__wrap_lwip_close`. -/
def wrapLwipClose (cfg : Config) (fd : ℤ) (w : World S) : Ret × World S :=
  if fdIsSocket cfg w fd then (⟨0, none⟩, fdFree cfg fd w) else (⟨cfg.realLwipClose fd, none⟩, w)

/-- `fd_free` leaves everything as it is for an fd that is not the shim's. -/
theorem wrapLwipClose_snd (cfg : Config) (fd : ℤ) (w : World S) : (wrapLwipClose cfg fd w).2 = fdFree cfg fd w := by
  rcases hfd : fdGet cfg w fd with _ | i
  · simp [wrapLwipClose, fdIsSocket, fdFree, hfd]
  · simp [wrapLwipClose, fdIsSocket, hfd]

/-- `__wrap_lwip_shutdown`; `how` is ignored. -/
def wrapLwipShutdown (cfg : Config) (fd : ℤ) (w : World S) : Ret × World S :=
  match fdGet cfg w fd with
  | none => (.fail .ebadf, w)
  | some i =>
    let e := w.fdAt i
    if e.kind = .tcp ∧ e.sock.valid then
      (⟨0, none⟩, (netTcpClose e.sock w).2.modFd i fun e =>
        { e with sock := .invalid, connected := false })
    else (⟨0, none⟩, w)

/-! ## Addresses -/

/-- `__wrap_lwip_getsockname`: the return value and the address written out.  `alen` is what the pointer points
to, unless that or `addr` is null. -/
def wrapLwipGetsockname (cfg : Config) (fd : ℤ) (alen : Option ℕ) (w : World S) : Ret × Option SockAddrIn :=
  match fdGet cfg w fd, alen with
  | some i, some n =>
    if n < sizeofSockAddrIn then (.fail .einval, none)
    else
      let e := w.fdAt i
      (⟨0, none⟩, some ⟨2, netStackGetIpv4 e.iface w, e.localPort⟩)
  | _, _ => (.fail .einval, none)

/-! ## The mode of an fd -/

/-- The commands `__wrap_lwip_fcntl` tells apart. -/
inductive FcntlCmd
  | getFl | setFl | other
  deriving DecidableEq, Repr

/-- `__wrap_lwip_fcntl`, for this value of `O_NONBLOCK`; other fds than the shim's go to lwIP (`none`). -/
def wrapLwipFcntl (oNonblock : UInt32) (cfg : Config) (fd : ℤ) (cmd : FcntlCmd) (arg : UInt32)
    (w : World S) : Option (UInt32 × World S) :=
  match fdGet cfg w fd with
  | none => none
  | some i => match cmd with
    | .getFl => some (if (w.fdAt i).nonblocking then oNonblock else 0, w)
    | .setFl => some (0, w.modFd i fun e => { e with nonblocking := arg &&& oNonblock ≠ 0 })
    | .other => some (0, w)

/-- `__wrap_lwip_ioctl` for `FIONBIO`; `arg` is what the pointer points to, unless it is null. -/
def wrapLwipIoctl (cfg : Config) (fd : ℤ) (arg : Option ℤ) (w : World S) : Ret × World S :=
  match fdGet cfg w fd with
  | none => (.fail .ebadf, w)
  | some i => (⟨0, none⟩, w.modFd i fun e => { e with nonblocking := arg.any (· ≠ 0) })

end EspSmoltcp
