import EspSmoltcp.Compat.SockWrap
import Mathlib.Algebra.GroupWithZero.Nat
import Mathlib.Data.Finset.Insert

/-!
# Compat/SelectWrap — `select` and `poll` of `select_wrap.c`

A scan asks every fd of the argument sets in turn; `select` repeats it until some fd is ready or the
deadline has passed, and `poll` is built on `select`.  An `fd_set` is the set of fds in it.
-/

namespace EspSmoltcp

variable {S : Smoltcp}

/-! ## Readiness of one fd -/

/-- The listener loop of `fd_readable`. -/
def anyConnected : List NetSock → Code S Bool
  | [] => pure false
  | s :: ss => do
    if ← atomically (netTcpIsConnected s) then pure true else anyConnected ss

/-- `fd_readable`. -/
def fdReadable (cfg : Config) (i : ℕ) : Code S Bool := do
  let e := (← Thread.world).fdAt i
  if e.kind = .tcpListen then anyConnected e.pool
  else if e.loopback ∧ e.loRx.isSome then pure (0 < (e.loRx.getD []).length)
  else match e.kind with
    | .tcp =>
      if 0 < (← atomically (netTcpRecvQueue e.sock)) then pure true
      else
        let up ← atomically (netTcpIsConnected e.sock)
        pure (!up && ((← Thread.world).fdAt i).connected)
    | .udp =>
      let (n, _) ← netUdpRecvfrom cfg e.sock 0 0
      pure (0 < n)
    | _ => pure false

/-- `fd_writable`. -/
def fdWritable (i : ℕ) : Code S Bool := do
  let e := (← Thread.world).fdAt i
  match e.kind with
  | .tcp =>
    if e.connected then
      let room ← atomically (netTcpSendCapacity e.sock)
      pure (0 < room)
    else pure false
  | .udp => pure (e.sock.valid || e.loopback)
  | _ => pure false

/-! ## `select` -/

/-- What a scan has found: the fds ready for reading, those ready for writing, and their number. -/
structure Ready where
  rd : Finset ℤ := ∅
  wr : Finset ℤ := ∅
  ready : ℕ := 0
  deriving DecidableEq

/-- A scan asks `fd_readable`, and the answer is noted. -/
def askReadable (cfg : Config) (i : ℕ) : Code S Bool := do
  let w ← Thread.world
  let answer ← fdReadable cfg i
  Thread.emit (.readable i w answer)
  pure answer

/-- The body of the scan loop for one fd. -/
def scanFd (cfg : Config) (rdIn wrIn : Finset ℤ) (fd : ℤ) (r : Ready) : Code S Ready := do
  match fdGet cfg (← Thread.world) fd with
  | none => pure r
  | some i =>
    let readable ← if fd ∈ rdIn then askReadable cfg i else pure false
    let r := if readable then { r with rd := insert fd r.rd, ready := r.ready + 1 } else r
    let writable ← if fd ∈ wrIn then fdWritable i else pure false
    pure (if writable then { r with wr := insert fd r.wr, ready := r.ready + 1 } else r)

/-- One scan, over these fds. -/
def selectScan (cfg : Config) (rdIn wrIn : Finset ℤ) : List ℤ → Ready → Code S Ready
  | [], r => pure r
  | fd :: fds, r => do
    let r ← scanFd cfg rdIn wrIn fd r
    selectScan cfg rdIn wrIn fds r

/-- `struct timeval`. -/
structure TimeVal where
  sec : ℤ
  usec : ℤ
  deriving DecidableEq

/-- `to->tv_sec * 1000u + to->tv_usec / 1000u`, as a `uint32_t`. -/
def TimeVal.ms (tv : TimeVal) : UInt32 := .ofInt tv.sec * 1000 + .ofInt tv.usec / 1000

/-- `portMAX_DELAY`. -/
def portMaxDelay : UInt32 := 0xFFFFFFFF

/-- One turn of the loop of `select`: scan, and wait if nothing is ready and the deadline has not
passed. -/
def selectTurn (cfg : Config) (nfds : ℤ) (rdIn wrIn : Finset ℤ) (deadline : UInt32) :
    Code S (Unit ⊕ Ready) := do
  let r ← selectScan cfg rdIn wrIn ((List.range nfds.toNat).map Nat.cast) {}
  if r.ready ≠ 0 then pure (.inr r)
  else if deadline = portMaxDelay then
    blockingWait
    pure (.inl ())
  else if deadline ≤ (← xTaskGetTickCount) then pure (.inr r)
  else
    blockingWait
    pure (.inl ())

/-- The loop itself. -/
def selectLoop (cfg : Config) (nfds : ℤ) (rdIn wrIn : Finset ℤ) (deadline : UInt32) :
    Code S Ready :=
  Thread.loop (fun _ => 0) (fun (_ : Unit) => selectTurn cfg nfds rdIn wrIn deadline) ()

/-- `__wrap_lwip_select`: the return value and the sets written back; `NULL` is the empty set. -/
def wrapLwipSelect (cfg : Config) (nfds : ℤ) (rd wr : Finset ℤ) (timeout : Option TimeVal) :
    Code S Ready := do
  match timeout with
  | some tv =>
    let start ← xTaskGetTickCount
    selectLoop cfg nfds rd wr (start + cfg.msToTicks tv.ms)
  | none => selectLoop cfg nfds rd wr portMaxDelay

/-! ## `poll` -/

/-- `struct pollfd`, with the two event bits the shim knows. -/
structure PollFd where
  fd : ℤ
  pollIn : Bool
  pollOut : Bool
  revIn : Bool := false
  revOut : Bool := false
  deriving DecidableEq

/-- `__wrap_lwip_poll`: the return value and the entries with their `revents`.  C leaves `FD_SET` and `FD_ISSET`
undefined for a negative fd and for one at or past `FD_SETSIZE`; the sets here have room for any. -/
def wrapLwipPoll (cfg : Config) (fds : List PollFd) (timeoutMs : ℤ) : Code S (ℤ × List PollFd) := do
  let rd := ((fds.filter PollFd.pollIn).map PollFd.fd).toFinset
  let wr := ((fds.filter PollFd.pollOut).map PollFd.fd).toFinset
  let maxFd := fds.foldl (fun m p => max m p.fd) (-1)
  let cleared := fds.map fun p => { p with revIn := false, revOut := false }
  let timeout : Option TimeVal := if timeoutMs < 0 then none
    else some ⟨timeoutMs.tdiv 1000, timeoutMs.tmod 1000 * 1000⟩
  let r ← wrapLwipSelect cfg (maxFd + 1) rd wr timeout
  if r.ready = 0 then pure (0, cleared)
  else
    let out := cleared.map fun p =>
      { p with revIn := decide (p.fd ∈ r.rd), revOut := decide (p.fd ∈ r.wr) }
    let ready : ℕ := (out.map fun p => p.revIn.toNat + p.revOut.toNat).sum
    pure (ready, out)

end EspSmoltcp
