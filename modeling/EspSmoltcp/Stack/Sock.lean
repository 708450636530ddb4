import EspSmoltcp.World

/-!
# Stack/Sock — the smoltcp-native socket API of `esp_smoltcp_sock.c`

Each call routes to the interface its handle names and runs one or more calls into the Rust core,
each under the lock.  The blocking calls retry until a deadline; `net_tcp_recv` and
`net_udp_recvfrom` share one loop, `recvLoop`.

Waking the poll task (`net_stack_kick_poll`) changes nothing a caller can see: the schedule already
lets the poll task run at any time.
-/

namespace EspSmoltcp

variable {S : Smoltcp} {β : Type}

/-- `esp_err_t`, as far as these calls return it. -/
inductive EspErr
  | ok | fail | invalidArg | timeout | noMem
  deriving DecidableEq, Repr

/-- `handle_for`: the interface, if it is enabled and its context is published. -/
def handleFor (w : World S) (n : UInt32) : Option IfaceId :=
  match IfaceId.ofCode n with
  | some i => if (w.ifaces i).enabled = true ∧ (w.ctx i).isSome = true then some i else none
  | none => none

/-! ## Opening and closing -/

/-- The handle for an id the core returned; id 0 is a failed open. -/
def handleOf (iface : IfaceId) (id : UInt32) : NetSock :=
  if id ≠ 0 then .encode iface id else .invalid

/-- `net_tcp_open`. -/
def netTcpOpen (iface : IfaceId) (w : World S) : NetSock × World S :=
  match handleFor w iface.code with
  | none => (.invalid, w)
  | some h =>
    let (id, w) := w.ffi h 0 smoltcpTcpOpen
    (handleOf iface id, w)

/-- `net_udp_open`. -/
def netUdpOpen (iface : IfaceId) (localPort : UInt16) (w : World S) : NetSock × World S :=
  match handleFor w iface.code with
  | none => (.invalid, w)
  | some h =>
    let (id, w) := w.ffi h 0 (smoltcpUdpOpen · localPort)
    (handleOf iface id, w)

/-- `net_tcp_close`. -/
def netTcpClose (s : NetSock) (w : World S) : EspErr × World S :=
  match handleFor w s.iface with
  | none => (.invalidArg, w)
  | some h => (.ok, (w.ffi h () fun ctx => ((), smoltcpTcpClose ctx s.localId)).2)

/-- `net_udp_close`. -/
def netUdpClose (s : NetSock) (w : World S) : EspErr × World S :=
  match handleFor w s.iface with
  | none => (.invalidArg, w)
  | some h => (.ok, (w.ffi h () fun ctx => ((), smoltcpUdpClose ctx s.localId)).2)

/-! ## Single calls -/

/-- `net_tcp_listen`. -/
def netTcpListen (s : NetSock) (port : UInt16) (w : World S) : EspErr × World S :=
  match handleFor w s.iface with
  | none => (.invalidArg, w)
  | some h =>
    let (rc, w) := w.ffi h (-1) (smoltcpTcpListen · s.localId port)
    (if rc = 0 then .ok else .fail, w)

/-- `net_tcp_is_connected`. -/
def netTcpIsConnected (s : NetSock) (w : World S) : Bool × World S :=
  match handleFor w s.iface with
  | none => (false, w)
  | some h => w.ffi h false (smoltcpTcpIsConnected · s.localId)

/-- `net_tcp_recv_queue`. -/
def netTcpRecvQueue (s : NetSock) (w : World S) : ℕ × World S :=
  match handleFor w s.iface with
  | none => (0, w)
  | some h => w.ffi h 0 (smoltcpTcpRecvQueue · s.localId)

/-- `net_tcp_send_capacity`. -/
def netTcpSendCapacity (s : NetSock) (w : World S) : ℕ × World S :=
  match handleFor w s.iface with
  | none => (0, w)
  | some h => w.ffi h 0 (smoltcpTcpSendCapacity · s.localId)

/-- `net_udp_sendto`. -/
def netUdpSendto (s : NetSock) (data : Bytes) (dstBe : UInt32) (dstPort : UInt16) (w : World S) :
    Int × World S :=
  match handleFor w s.iface with
  | none => (-1, w)
  | some h => w.ffi h (-1) (smoltcpUdpSendto · s.localId data dstBe dstPort)

/-! ## Blocking calls -/

/-- `net_tcp_connect`; `rand` is the draw for the local port. -/
def netTcpConnect (cfg : Config) (s : NetSock) (ipv4Be : UInt32) (port : UInt16)
    (timeoutMs rand : UInt32) : Code S EspErr := do
  match handleFor (← Thread.world) s.iface with
  | none => pure .invalidArg
  | some h =>
    let rc ← atomically fun w => w.ffi h (-1) (smoltcpTcpConnect · s.localId ipv4Be port 0 rand)
    if rc ≠ 0 then pure .fail
    else
      let start ← xTaskGetTickCount
      let deadline := start + cfg.msToTicks timeoutMs
      Thread.loop (fun _ => 0) (fun (_ : Unit) => do
        if (← xTaskGetTickCount) < deadline then
          let active ← atomically fun w => w.ffi h false (smoltcpTcpIsActive · s.localId)
          if active then pure (.inr EspErr.ok)
          else
            blockingWait
            pure (.inl ())
        else pure (.inr .timeout)) ()

/-- `INT_MAX`; an `int` has 32 bits. -/
def intMax : ℕ := 2 ^ 31 - 1

/-- The cast of a `size_t` to `int`, which wraps above `INT_MAX`. -/
def asInt (n : ℕ) : Int := (Int32.ofNat n).toInt

theorem asInt_of_le {n : ℕ} (h : n ≤ intMax) : asInt n = n := by
  rw [intMax] at h
  exact Int32.toInt_ofNat_of_lt (by omega)

/-- `net_tcp_send`. -/
def netTcpSend (cfg : Config) (s : NetSock) (buf : Bytes) (timeoutMs : UInt32) : Code S Int := do
  match handleFor (← Thread.world) s.iface with
  | none => pure (-1)
  | some h =>
    let start ← xTaskGetTickCount
    let deadline := start + cfg.msToTicks timeoutMs
    let total ← Thread.loop (fun total => buf.length - total) (fun (total : ℕ) => do
      if total < buf.length then
        let n ← atomically fun w => w.ffi h (-1) (smoltcpTcpSend · s.localId (buf.drop total))
        if 0 < n then pure (.inl (total + n.toNat))
        else if deadline ≤ (← xTaskGetTickCount) then pure (.inr total)
        else
          blockingWait
          pure (.inl total)
      else pure (.inr total)) 0
    pure (if total ≠ 0 then asInt total else -1)

/-- One turn of the retry loop of `net_tcp_recv` and `net_udp_recvfrom`: past the deadline it gives up
with 0, else it probes and, if that delivers nothing, waits for progress. -/
def recvTurn (call : Call) (deadline : UInt32) (probe : World S → (Int × β) × World S) (nothing : β) :
    Code S (Unit ⊕ (Int × β)) := do
  if (← xTaskGetTickCount) ≤ deadline then
    let r ← atomically probe call
    if 0 < r.1 then pure (.inr r)
    else
      blockingWait
      pure (.inl ())
  else pure (.inr (0, nothing))

/-- The retry loop itself. -/
def recvLoop (call : Call) (deadline : UInt32) (probe : World S → (Int × β) × World S) (nothing : β) :
    Code S (Int × β) :=
  Thread.loop (fun _ => 0) (fun (_ : Unit) => recvTurn call deadline probe nothing) ()

/-- One attempt of `net_tcp_recv`. -/
def tcpRecvProbe (h : IfaceId) (id : UInt32) (cap : ℕ) (w : World S) :
    (Int × Bytes) × World S := w.ffi h (-1, []) (smoltcpTcpRecv · id cap)

/-- `net_tcp_recv`. -/
def netTcpRecv (cfg : Config) (s : NetSock) (cap : ℕ) (timeoutMs : UInt32) :
    Code S (Int × Bytes) := do
  match handleFor (← Thread.world) s.iface with
  | none => pure (-1, [])
  | some h =>
    let start ← xTaskGetTickCount
    recvLoop .other (start + cfg.msToTicks timeoutMs) (tcpRecvProbe h s.localId cap) []

/-- One attempt of `net_udp_recvfrom`. -/
def udpRecvProbe (h : IfaceId) (id : UInt32) (cap : ℕ) (w : World S) :
    (Int × Option UdpRecv) × World S := w.ffi h (-1, none) (smoltcpUdpRecvfrom · id cap)

/-- `net_udp_recvfrom`. -/
def netUdpRecvfrom (cfg : Config) (s : NetSock) (cap : ℕ) (timeoutMs : UInt32) :
    Code S (Int × Option UdpRecv) := do
  match handleFor (← Thread.world) s.iface with
  | none => pure (-1, none)
  | some h =>
    let start ← xTaskGetTickCount
    recvLoop (.udpRecv s) (start + cfg.msToTicks timeoutMs)
      (udpRecvProbe h s.localId cap) none

end EspSmoltcp
