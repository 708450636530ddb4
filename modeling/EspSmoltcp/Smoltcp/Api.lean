import Mathlib.Algebra.Group.Int.Defs
import Mathlib.Algebra.Group.Nat.Defs
import Mathlib.Data.List.AList

/-!
# Smoltcp/Api — what the glue relies on of smoltcp

`smoltcp` 0.12 is a dependency of the Rust core, not part of it.  Every model above is stated over
an arbitrary `Smoltcp`: its socket types, the calls `lib.rs` makes on them, and the documented
behaviour those calls are relied on for.  Nothing else is known of a socket.

* `TcpApi` — `tcp::Socket`, observed through its state, its receive queue and what it still owes
  the wire.
* `UdpApi` — `udp::Socket`, a queue of datagrams.
* `Smoltcp` — both, and the slot policy of `SocketSet::add`.
-/

namespace EspSmoltcp

/-! ## Addresses -/

/-- `core::net::Ipv4Addr`, octet by octet. -/
structure Ipv4Address where
  o0 : UInt8
  o1 : UInt8
  o2 : UInt8
  o3 : UInt8
  deriving DecidableEq, Repr

/-- `smoltcp::wire::IpAddress`; nothing here looks inside a v6 address. -/
inductive IpAddress
  | ipv4 (a : Ipv4Address)
  | ipv6 (octets : List UInt8)
  deriving DecidableEq, Repr

/-- `smoltcp::wire::IpEndpoint`. -/
structure IpEndpoint where
  addr : IpAddress
  port : UInt16
  deriving DecidableEq, Repr

/-! ## TCP -/

/-- `tcp::State`. -/
inductive TcpState
  | closed | listen | synSent | synReceived | established | finWait1 | finWait2 | closeWait
  | closing | lastAck | timeWait
  deriving DecidableEq, Repr

namespace TcpState

/-- The peer may still send: `Established`, `FinWait1`, `FinWait2`. -/
def rxOpen : TcpState → Bool
  | established | finWait1 | finWait2 => true
  | _ => false

/-- The local side may still send: `Established`, `CloseWait`. -/
def txOpen : TcpState → Bool
  | established | closeWait => true
  | _ => false

/-- The states in which `close()` asks for a FIN; in the others it drops the attempt or does
nothing. -/
def closeQueuesFin : TcpState → Bool
  | synReceived | established | closeWait => true
  | _ => false

/-- Where a passively opened socket can be while nobody has closed or reset it. -/
def passive : TcpState → Bool
  | listen | synReceived | established | closeWait => true
  | _ => false

end TcpState

/-- What `Interface::poll` can do to one TCP socket: take in what the peer sent, or transmit what
the socket holds. -/
inductive TcpEvent
  | connect
  | send (data : List UInt8)
  | close
  | reset
  | transmit
  deriving DecidableEq, Repr

/-- `tcp::Socket` as the glue sees it. -/
structure TcpApi where
  Socket : Type
  state : Socket → TcpState
  /-- Received and not yet read. -/
  rxQueue : Socket → List UInt8
  /-- Accepted by `send_slice` and not yet transmitted. -/
  unsent : Socket → List UInt8
  /-- A FIN was requested by `close()` and has not been transmitted. -/
  finUnsent : Socket → Bool
  /-- The peer has closed its direction. -/
  peerFin : Socket → Bool
  new : Socket
  connect : Socket → IpEndpoint → UInt16 → Option Socket
  listen : Socket → UInt16 → Option Socket
  sendSlice : Socket → List UInt8 → Option (ℕ × Socket)
  recvSlice : Socket → ℕ → Option (List UInt8) × Socket
  close : Socket → Socket
  isActive : Socket → Bool
  mayRecv : Socket → Bool
  maySend : Socket → Bool
  canSend : Socket → Bool
  sendCapacity : Socket → ℕ
  sendQueue : Socket → ℕ
  onEvent : TcpEvent → Socket → Socket
  state_new : state new = .closed
  finUnsent_new : finUnsent new = false
  unsent_new : unsent new = []
  mayRecv_eq : ∀ s, mayRecv s = ((state s).rxOpen || !(rxQueue s).isEmpty)
  maySend_eq : ∀ s, maySend s = (state s).txOpen
  isActive_eq : ∀ s, isActive s =
    !(state s = .closed || state s = .timeWait || state s = .listen : Bool)
  peerFin_rxOpen : ∀ s, (state s).rxOpen = true → peerFin s = false
  /-- Queued bytes are read off the front. -/
  recvSlice_data : ∀ s n, rxQueue s ≠ [] →
    (recvSlice s n).1 = some ((rxQueue s).take n) ∧
      rxQueue (recvSlice s n).2 = (rxQueue s).drop n
  /-- `Ok(0)` while the peer may still send. -/
  recvSlice_open : ∀ s n, rxQueue s = [] → (state s).rxOpen = true → recvSlice s n = (some [], s)
  /-- `Err` once the peer has closed and the queue is drained, and on a socket that is not
  connected. -/
  recvSlice_err : ∀ s n, rxQueue s = [] → (state s).rxOpen = false → recvSlice s n = (none, s)
  finUnsent_recvSlice : ∀ s n, finUnsent (recvSlice s n).2 = finUnsent s
  /-- `Ok(n)`: that many leading bytes were appended. -/
  sendSlice_spec : ∀ s d n s', sendSlice s d = some (n, s') →
    n ≤ d.length ∧ unsent s' = unsent s ++ d.take n ∧ finUnsent s' = finUnsent s
  listen_spec : ∀ s p s', listen s p = some s' → state s' = .listen ∧ finUnsent s' = false
  /-- A fresh socket refuses only port 0. -/
  listen_new : ∀ p, p ≠ 0 → (listen new p).isSome = true
  connect_spec : ∀ s r p s', connect s r p = some s' → state s' = .synSent ∧ finUnsent s' = false
  /-- `close()` only queues the FIN. -/
  close_spec : ∀ s, unsent (close s) = unsent s ∧
    finUnsent (close s) = (finUnsent s || (state s).closeQueuesFin)
  /-- Only `close()` asks for a FIN. -/
  finUnsent_onEvent : ∀ e s, finUnsent (onEvent e s) = true → finUnsent s = true
  /-- Short of a reset, a passively opened socket stays one. -/
  passive_onEvent : ∀ e s, e ≠ .reset → (state s).passive = true →
    (state (onEvent e s)).passive = true
  /-- A reset during the handshake puts the socket back to `Listen`. -/
  reset_handshake : ∀ s, state s = .listen ∨ state s = .synReceived →
    state (onEvent .reset s) = .listen
  /-- A reset of a completed connection closes the socket… -/
  reset_connected : ∀ s, state s = .established ∨ state s = .closeWait →
    state (onEvent .reset s) = .closed
  /-- …which stays closed until `listen` or `connect` is called on it. -/
  closed_onEvent : ∀ e s, state s = .closed → state (onEvent e s) = .closed

/-! ## UDP -/

/-- A datagram in a receive queue, with its source. -/
structure Datagram where
  payload : List UInt8
  src : IpEndpoint
  deriving DecidableEq, Repr

/-- `udp::Socket` as the glue sees it. -/
structure UdpApi where
  Socket : Type
  rxQueue : Socket → List Datagram
  new : Socket
  bind : Socket → UInt16 → Option Socket
  sendSlice : Socket → List UInt8 → IpEndpoint → Option Socket
  recvSlice : Socket → ℕ → Option (List UInt8 × IpEndpoint) × Socket
  close : Socket → Socket
  recvSlice_nil : ∀ s n, rxQueue s = [] → recvSlice s n = (none, s)
  /-- The head datagram is dequeued whether or not the slice holds it. -/
  recvSlice_cons : ∀ s n d q, rxQueue s = d :: q →
    (recvSlice s n).1 = (if d.payload.length ≤ n then some (d.payload, d.src) else none) ∧
      rxQueue (recvSlice s n).2 = q

/-! ## The stack -/

/-- smoltcp: the two socket types the glue opens, which free slot `SocketSet::add` takes, and how
many addresses an interface holds. -/
structure Smoltcp where
  tcp : TcpApi
  udp : UdpApi
  slot : List ℕ → ℕ
  slot_fresh : ∀ used, slot used ∉ used
  addrCap : ℕ
  two_le_addrCap : 2 ≤ addrCap

variable {S : Smoltcp}

/-- `smoltcp::socket::Socket`, as stored in a `SocketSet`. -/
inductive Socket (S : Smoltcp)
  | tcp (s : S.tcp.Socket)
  | udp (s : S.udp.Socket)
  | dhcpv4

/-- The socket types the C side can ask for. -/
inductive SockKind
  | tcp | udp
  deriving DecidableEq, Repr

/-- The type `get_mut::<T>` checks; a DHCP client is never reached through an id. -/
def Socket.kind? : Socket S → Option SockKind
  | .tcp _ => some .tcp
  | .udp _ => some .udp
  | .dhcpv4 => none

/-- `smoltcp::iface::SocketHandle`. -/
abbrev SocketHandle := ℕ

/-- `SocketSet`: the live sockets by handle. -/
abbrev SocketSet (S : Smoltcp) := AList fun _ : SocketHandle => Socket S

/-- `SocketSet::add`. -/
def SocketSet.add (set : SocketSet S) (s : Socket S) : SocketHandle × SocketSet S :=
  (S.slot set.keys, set.insert (S.slot set.keys) s)

theorem SocketSet.slot_notMem (set : SocketSet S) : S.slot set.keys ∉ set := fun h =>
  S.slot_fresh set.keys (AList.mem_keys.mp h)

section Replace

variable (sh k : SocketHandle) (x y : Socket S) (l : List (Sigma fun _ : SocketHandle => Socket S))

theorem kreplace_cons_self : List.kreplace sh x (⟨sh, y⟩ :: l) = ⟨sh, x⟩ :: l := by
  simp [List.kreplace, List.lookmap, List.lookmap.go]

variable {sh k} in
theorem kreplace_cons_ne (h : sh ≠ k) :
    List.kreplace sh x (⟨k, y⟩ :: l) = ⟨k, y⟩ :: l.kreplace sh x := by
  rw [List.kreplace, List.lookmap_cons_none]
  simp [h]

theorem dlookup_kreplace (sh' : SocketHandle) : List.dlookup sh' (l.kreplace sh x)
    = if sh' = sh then (List.dlookup sh l).map fun _ => x else List.dlookup sh' l := by
  induction l with
  | nil => simp [List.kreplace]
  | cons p l ih =>
    obtain ⟨k, y⟩ := p
    by_cases hk : sh = k
    · subst hk
      rw [kreplace_cons_self]
      split_ifs with h
      · subst h
        rw [List.dlookup_cons_eq, List.dlookup_cons_eq, Option.map_some]
      · rw [List.dlookup_cons_ne _ _ h, List.dlookup_cons_ne _ _ h]
    · rw [kreplace_cons_ne x y l hk]
      by_cases hk' : sh' = k
      · subst hk'
        rw [List.dlookup_cons_eq, List.dlookup_cons_eq, if_neg (Ne.symm hk)]
      · have h₁ := List.dlookup_cons_ne (a := sh') l ⟨k, y⟩ hk'
        have h₂ := List.dlookup_cons_ne (a := sh) l ⟨k, y⟩ hk
        have h₃ := List.dlookup_cons_ne (a := sh') (l.kreplace sh x) ⟨k, y⟩ hk'
        rw [h₁, h₂, h₃, ih]

theorem kerase_kreplace : (l.kreplace sh x).kerase sh = l.kerase sh := by
  induction l with
  | nil => simp [List.kreplace]
  | cons p l ih =>
    obtain ⟨k, y⟩ := p
    by_cases hk : sh = k
    · subst hk
      rw [kreplace_cons_self]
      simp
    · have h₁ := List.kerase_cons_ne (a := sh) (s := ⟨k, y⟩) (l := l) hk
      have h₂ := List.kerase_cons_ne (a := sh) (s := ⟨k, y⟩) (l := l.kreplace sh x) hk
      rw [kreplace_cons_ne x y l hk, h₁, h₂, ih]

end Replace

/-- The socket at a handle is replaced in place; the others stay. -/
theorem SocketSet.lookup_replace (set : SocketSet S) (sh sh' : SocketHandle) (x : Socket S) :
    AList.lookup sh' (set.replace sh x)
      = if sh' = sh then (set.lookup sh).map fun _ => x else set.lookup sh' :=
  dlookup_kreplace sh x set.entries sh'

theorem SocketSet.replace_self {set : SocketSet S} {sh : SocketHandle} {x : Socket S}
    (h : set.lookup sh = some x) : set.replace sh x = set :=
  AList.ext (List.kreplace_self set.nodupKeys (AList.mem_lookup_iff.mp h))

theorem SocketSet.erase_replace (set : SocketSet S) (sh : SocketHandle) (x : Socket S) :
    AList.erase sh (set.replace sh x) = set.erase sh :=
  AList.ext (kerase_kreplace sh x set.entries)

theorem SocketSet.lookup_slot (set : SocketSet S) : set.lookup (S.slot set.keys) = none :=
  AList.lookup_eq_none.mpr set.slot_notMem

end EspSmoltcp
