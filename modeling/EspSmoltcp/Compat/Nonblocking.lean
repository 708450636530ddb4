import EspSmoltcp.Compat.Readiness
import EspSmoltcp.Compat.Uptime

/-!
# Compat/Nonblocking — where a non-blocking fd waits all the same

`O_NONBLOCK` and `FIONBIO` set a flag of the fd entry.  `accept` looks at it before it waits.  The receive
calls pass the flag on as a timeout of 0, and the loop below them takes that for one look and one wait.
`send` and `connect` do not look at it at all.

* **The first turn decides** (`noWait_probeLoop_iff`).  A loop that probes until a deadline waits unless its
  first turn is late or delivers.
* **The first attempt that takes nothing decides** (`noWait_sendLoop_iff`).  `net_tcp_send` waits unless the
  socket takes the buffer at once, or the next reading is past the deadline.

`nonblocking_noWait_iff` is what this makes of the six calls.
-/

namespace EspSmoltcp

open Thread (AfterReading Onward)

variable {S : Smoltcp} {α β : Type}

/-! ## Setting the flag -/

section Flag

variable {cfg : Config} {fd : ℤ} {i : ℕ} {w : World S}

theorem nonblocking_fcntl (hfd : fdGet cfg w fd = some i) {oNonblock arg : UInt32}
    (harg : arg &&& oNonblock ≠ 0) :
    ∃ w', wrapLwipFcntl oNonblock cfg fd .setFl arg w = some (0, w') ∧
      (w'.fdAt i).nonblocking = true := by
  refine ⟨_, by rw [wrapLwipFcntl, hfd], ?_⟩
  rw [World.fdAt_modFd_self _ (lt_length_of_fdGet hfd)]
  exact decide_eq_true harg

theorem nonblocking_ioctl (hfd : fdGet cfg w fd = some i) {n : ℤ} (hn : n ≠ 0) :
    ((wrapLwipIoctl cfg fd (some n) w).2.fdAt i).nonblocking = true := by
  rw [wrapLwipIoctl, hfd]
  simp only
  rw [World.fdAt_modFd_self _ (lt_length_of_fdGet hfd)]
  simpa using hn

end Flag

/-! ## Code that does not wait -/

section NoWait

variable {s : Sys (World S) (Event S)}

end NoWait

/-! ## The loops -/

section Loops

variable {s : Sys (World S) (Event S)}

variable {γ δ : Type} {before : UInt32 → UInt32 → Prop} [DecidableRel before] {call : Call}
  {deadline : UInt32} {probe : World S → γ × World S} {done : γ → Option δ} {giveUp : δ}

end Loops

/-! ## Sending -/

/-- Attempts one after the other take all of the buffer. -/
inductive TakenAtOnce (h : IfaceId) (id : UInt32) : Bytes → World S → Prop
  | nothing (w : World S) : TakenAtOnce h id [] w
  | attempt {buf : Bytes} {w : World S} (hpos : 0 < (sendCall h id buf w).1)
      (hrest : TakenAtOnce h id (buf.drop (sendCall h id buf w).1.toNat) (sendCall h id buf w).2) :
      TakenAtOnce h id buf w

section Send

variable {h : IfaceId} {id deadline : UInt32} {buf : Bytes} {s : Sys (World S) (Event S)}

end Send

/-! ## What the probes return -/

section Returned

variable {s : NetSock} {h : IfaceId} {w : World S}

end Returned

/-! ## Receiving -/

/-- The look of a receive that has no time: the clock has moved on since the call began, or there is something
to return. -/
def FirstLook (ready : World S → Prop) (s : Sys (World S) (Event S)) : Prop :=
  AfterReading (fun start => AfterReading fun now s₁ => now ≤ start → ready s₁.world) s

theorem FirstLook.congr {ready ready' : World S → Prop} (h : ∀ w, ready w ↔ ready' w)
    (s : Sys (World S) (Event S)) : FirstLook ready s ↔ FirstLook ready' s :=
  AfterReading.congr fun _ _ => AfterReading.congr fun _ _ => imp_congr_right fun _ => h _

section Recv

variable {s : Sys (World S) (Event S)} {sock : NetSock} {len : ℕ}

/-- Bytes are queued, and there is room for one. -/
def BytesQueued (sock : NetSock) (len : ℕ) (w : World S) : Prop := 0 < len ∧ tcpReady sock w = true

/-- The first datagram of the queue is not empty and fits. -/
def DatagramFits (sock : NetSock) (len : ℕ) (w : World S) : Prop :=
  ∃ d q, udpQueue sock w = d :: q ∧ 0 < d.payload.length ∧ d.payload.length ≤ len

end Recv

/-! ## `accept` -/

section Accept

variable {cfg : Config} {fd : ℤ} {i : ℕ} {s : Sys (World S) (Event S)}

end Accept

/-! ## `connect` -/

/-- The handle's socket is not closed, listening or waiting for the last segments to die out. -/
def TcpActive (sock : NetSock) (w : World S) : Prop :=
  ∃ x, w.tcpOf sock = some x ∧ S.tcp.isActive x = true

section Connect

variable {s : Sys (World S) (Event S)} {sock : NetSock}

/-- The first look of `net_tcp_connect` is late, or finds the socket active. -/
def ConnectLook (cfg : Config) (sock : NetSock) (timeoutMs : UInt32) (s : Sys (World S) (Event S)) : Prop :=
  AfterReading (fun start => AfterReading fun now s₁ =>
    now < start + cfg.msToTicks timeoutMs → TcpActive sock s₁.world) s

end Connect

/-! ## The six calls -/

/-- A call on an fd, with what it is given; `rand` is the draw for the local port. -/
inductive FdCall
  | accept
  | recv (len : ℕ)
  | recvfrom (len : ℕ)
  | send (buf : Bytes)
  | sendto (heap : Bool) (buf : Bytes) (dst : SockAddrIn) (tolen : ℕ)
  | connect (addr : SockAddrIn) (alen : ℕ) (rand : UInt32)

namespace FdCall

/-- When it does not have to: `accept` and `sendto` never have to.  A receive from the stack finds something to
return, or the clock moved on since it began; a send on TCP finds room for all of it, or its time over; a
connect on TCP is refused, or finds its socket active, or its time over. -/
def AtOnce (cfg : Config) (i : ℕ) (s : Sys (World S) (Event S)) : FdCall → Prop
  | accept | sendto .. => True
  | recv len => (handleFor s.world (s.world.fdAt i).sock.iface).isSome = true →
    match (s.world.fdAt i).kind with
    | .tcp => FirstLook (BytesQueued (s.world.fdAt i).sock len) s
    | .udp => FirstLook (DatagramFits (s.world.fdAt i).sock len) s
    | _ => True
  | recvfrom len => (handleFor s.world (s.world.fdAt i).sock.iface).isSome = true →
    (s.world.fdAt i).kind = .udp → ¬ ((s.world.fdAt i).loopback ∧ (s.world.fdAt i).loRx.isSome) →
    FirstLook (DatagramFits (s.world.fdAt i).sock len) s
  | send buf => (s.world.fdAt i).connected = true → (s.world.fdAt i).kind = .tcp →
    ∀ h, handleFor s.world (s.world.fdAt i).sock.iface = some h → AfterReading (fun start s₁ =>
      TakenAtOnce h (s.world.fdAt i).sock.localId buf s₁.world ∨ AfterReading (fun now _ => start
        + cfg.msToTicks (if (s.world.fdAt i).sndTimeoutMs ≠ 0 then (s.world.fdAt i).sndTimeoutMs else 5000)
        ≤ now) s₁) s
  | connect addr alen rand => sizeofSockAddrIn ≤ alen → (s.world.fdAt i).kind = .tcp →
    (connectHandle i s.world).valid = true →
    ∀ h, handleFor (connectWorld i s.world) (connectHandle i s.world).iface = some h →
      ((connectWorld i s.world).ffi h (-1)
        (smoltcpTcpConnect · (connectHandle i s.world).localId addr.addrBe addr.port 0 rand)).1 = 0 →
      ConnectLook cfg (connectHandle i s.world) (sndTimeout (s.world.fdAt i))
        { s with world := ((connectWorld i s.world).ffi h (-1)
          (smoltcpTcpConnect · (connectHandle i s.world).localId addr.addrBe addr.port 0 rand)).2 }

section

variable {cfg : Config} {fd : ℤ} {i : ℕ} {s : Sys (World S) (Event S)}

end

end FdCall

end EspSmoltcp
