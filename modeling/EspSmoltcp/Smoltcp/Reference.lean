import EspSmoltcp.Smoltcp.Api

/-!
# Smoltcp/Reference — a stack that behaves as documented

`Smoltcp.reference` is a small executable `Smoltcp`: a TCP socket is its state and two byte queues,
a UDP socket its datagrams.  Runs on concrete inputs are evaluated on it, and it shows that the
documented behaviour `TcpApi` and `UdpApi` ask for is consistent.
-/

namespace EspSmoltcp

/-! ## TCP -/

/-- A TCP socket: its state and its queues. -/
structure RefTcp where
  state : TcpState := .closed
  rx : List UInt8 := []
  unsent : List UInt8 := []
  finUnsent : Bool := false
  peerFin : Bool := false
  deriving DecidableEq, Repr

namespace RefTcp

/-- The transmit buffer, `TCP_TX` of `lib.rs`. -/
def txCap : ℕ := 48 * 1024

def connect (s : RefTcp) (_ : IpEndpoint) (_ : UInt16) : Option RefTcp :=
  if s.state = .closed then some { state := .synSent } else none

def listen (s : RefTcp) (port : UInt16) : Option RefTcp :=
  if s.state = .closed ∧ port ≠ 0 then some { state := .listen } else none

def sendSlice (s : RefTcp) (d : List UInt8) : Option (ℕ × RefTcp) :=
  if s.state.txOpen then
    let n := min d.length (txCap - s.unsent.length)
    some (n, { s with unsent := s.unsent ++ d.take n })
  else none

def recvSlice (s : RefTcp) (n : ℕ) : Option (List UInt8) × RefTcp :=
  if s.rx ≠ [] then (some (s.rx.take n), { s with rx := s.rx.drop n })
  else if s.state.rxOpen then (some [], s)
  else (none, s)

def close (s : RefTcp) : RefTcp :=
  match s.state with
  | .listen | .synSent => { s with state := .closed }
  | .synReceived | .established => { s with state := .finWait1, finUnsent := true }
  | .closeWait => { s with state := .lastAck, finUnsent := true }
  | _ => s

def onEvent (e : TcpEvent) (s : RefTcp) : RefTcp :=
  match e, s.state with
  | .connect, .listen => { s with state := .synReceived }
  | .connect, .synReceived | .connect, .synSent => { s with state := .established }
  | .send d, .established | .send d, .finWait1 | .send d, .finWait2 => { s with rx := s.rx ++ d }
  | .close, .synReceived | .close, .established => { s with state := .closeWait, peerFin := true }
  | .close, .finWait1 => { s with state := .closing, peerFin := true }
  | .close, .finWait2 => { s with state := .timeWait, peerFin := true }
  | .reset, .listen => s
  | .reset, .synReceived => { s with state := .listen }
  | .reset, _ => { s with state := .closed }
  | .transmit, _ => { s with unsent := [], finUnsent := false }
  | _, _ => s

theorem finUnsent_close (s : RefTcp) :
    s.close.finUnsent = (s.finUnsent || s.state.closeQueuesFin) := by
  unfold close
  split <;> simp_all [TcpState.closeQueuesFin]

theorem finUnsent_onEvent (e : TcpEvent) (s : RefTcp) (h : (s.onEvent e).finUnsent = true) :
    s.finUnsent = true := by
  unfold onEvent at h
  split at h <;> simp_all

theorem passive_onEvent (e : TcpEvent) (s : RefTcp) (he : e ≠ .reset)
    (h : s.state.passive = true) : (s.onEvent e).state.passive = true := by
  unfold onEvent
  split <;> simp_all [TcpState.passive]

end RefTcp

/-- `RefTcp` is a `TcpApi`.  A socket with `peerFin` set is never observed as open: the flag is
read together with the state. -/
def TcpApi.reference : TcpApi where
  Socket := RefTcp
  state := RefTcp.state
  rxQueue := RefTcp.rx
  unsent := RefTcp.unsent
  finUnsent := RefTcp.finUnsent
  peerFin s := s.peerFin && !s.state.rxOpen
  new := {}
  connect := RefTcp.connect
  listen := RefTcp.listen
  sendSlice := RefTcp.sendSlice
  recvSlice := RefTcp.recvSlice
  close := RefTcp.close
  isActive s := !(s.state = .closed || s.state = .timeWait || s.state = .listen : Bool)
  mayRecv s := s.state.rxOpen || !s.rx.isEmpty
  maySend s := s.state.txOpen
  canSend s := s.state.txOpen && decide (s.unsent.length < RefTcp.txCap)
  sendCapacity _ := RefTcp.txCap
  sendQueue s := s.unsent.length
  onEvent e s := s.onEvent e
  state_new := rfl
  finUnsent_new := rfl
  unsent_new := rfl
  mayRecv_eq _ := rfl
  maySend_eq _ := rfl
  isActive_eq _ := rfl
  peerFin_rxOpen s h := by simp [h]
  recvSlice_data s n h := by simp [RefTcp.recvSlice, h]
  recvSlice_open s n h ho := by simp [RefTcp.recvSlice, h, ho]
  recvSlice_err s n h ho := by simp [RefTcp.recvSlice, h, ho]
  finUnsent_recvSlice s n := by unfold RefTcp.recvSlice; split_ifs <;> rfl
  sendSlice_spec s d n s' h := by
    unfold RefTcp.sendSlice at h
    split_ifs at h
    obtain ⟨rfl, rfl⟩ := Prod.mk.inj (Option.some.inj h)
    exact ⟨min_le_left _ _, rfl, rfl⟩
  listen_spec s p s' h := by
    unfold RefTcp.listen at h
    split_ifs at h
    obtain rfl := Option.some.inj h
    exact ⟨rfl, rfl⟩
  listen_new p hp := by simp [RefTcp.listen, hp]
  connect_spec s r p s' h := by
    unfold RefTcp.connect at h
    split_ifs at h
    obtain rfl := Option.some.inj h
    exact ⟨rfl, rfl⟩
  close_spec s := ⟨by unfold RefTcp.close; split <;> rfl, s.finUnsent_close⟩
  finUnsent_onEvent e s := s.finUnsent_onEvent e
  passive_onEvent e s := s.passive_onEvent e
  reset_handshake s h := by rcases h with h | h <;> simp [RefTcp.onEvent, h]
  reset_connected s h := by rcases h with h | h <;> simp [RefTcp.onEvent, h]
  closed_onEvent e s h := by cases e <;> simp [RefTcp.onEvent, h]

/-! ## UDP -/

/-- A UDP socket: its local port (0 while unbound) and its datagrams. -/
structure RefUdp where
  port : UInt16 := 0
  rx : List Datagram := []
  deriving DecidableEq, Repr

namespace RefUdp

def bind (s : RefUdp) (port : UInt16) : Option RefUdp :=
  if port = 0 ∨ s.port ≠ 0 then none else some { s with port := port }

def recvSlice (s : RefUdp) (n : ℕ) : Option (List UInt8 × IpEndpoint) × RefUdp :=
  match s.rx with
  | [] => (none, s)
  | d :: q => (if d.payload.length ≤ n then some (d.payload, d.src) else none, { s with rx := q })

end RefUdp

/-- `RefUdp` is a `UdpApi`; sent datagrams leave at once. -/
def UdpApi.reference : UdpApi where
  Socket := RefUdp
  rxQueue := RefUdp.rx
  new := {}
  bind := RefUdp.bind
  sendSlice s _ _ := if s.port = 0 then none else some s
  recvSlice := RefUdp.recvSlice
  close _ := {}
  recvSlice_nil s n h := by simp [RefUdp.recvSlice, h]
  recvSlice_cons s n d q h := by simp [RefUdp.recvSlice, h]

/-- The lowest handle not in use. -/
def lowestFree (used : List ℕ) : ℕ := (List.range (used.length + 1)).find? (· ∉ used) |>.getD 0

theorem lowestFree_notMem (used : List ℕ) : lowestFree used ∉ used := by
  unfold lowestFree
  cases h : (List.range (used.length + 1)).find? (· ∉ used) with
  | some n => simpa using List.find?_some h
  | none =>
    -- `used` would contain the `used.length + 1` first numbers.
    have hsub : List.range (used.length + 1) ⊆ used := fun n hn => by
      simpa using List.find?_eq_none.mp h n hn
    have := (List.subperm_of_subset List.nodup_range hsub).length_le
    rw [List.length_range] at this
    omega

/-- **A stack that behaves as documented.** -/
def Smoltcp.reference : Smoltcp where
  tcp := .reference
  udp := .reference
  slot := lowestFree
  slot_fresh := lowestFree_notMem
  addrCap := 2
  two_le_addrCap := le_rfl

end EspSmoltcp
