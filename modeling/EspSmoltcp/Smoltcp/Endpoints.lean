import EspSmoltcp.Smoltcp.Reference

/-!
# Smoltcp/Endpoints — the endpoints of a TCP socket

`tcp::Socket` keeps the local port and the remote endpoint it was connected with.  `TcpApi` does not say
so; `TcpEnds` is what it adds.  `TcpApi.recording` adds a record of them to any `TcpApi`.
-/

namespace EspSmoltcp

/-- The documented behaviour of `local_endpoint()` and `remote_endpoint()`, as far as `connect` goes. -/
structure TcpEnds (A : TcpApi) where
  /-- The local port and the remote endpoint, while there are any. -/
  ends : A.Socket → Option (UInt16 × IpEndpoint)
  ends_new : ends A.new = none
  ends_connect : ∀ s r p s', A.connect s r p = some s' → ends s' = some (p, r)

namespace TcpApi

/-- The same sockets, with the endpoints of the last `connect` on record. -/
def recording (A : TcpApi) : TcpApi where
  Socket := A.Socket × Option (UInt16 × IpEndpoint)
  state s := A.state s.1
  rxQueue s := A.rxQueue s.1
  unsent s := A.unsent s.1
  finUnsent s := A.finUnsent s.1
  peerFin s := A.peerFin s.1
  new := (A.new, none)
  connect s r p := (A.connect s.1 r p).map fun x => (x, some (p, r))
  listen s p := (A.listen s.1 p).map fun x => (x, none)
  sendSlice s d := (A.sendSlice s.1 d).map fun r => (r.1, (r.2, s.2))
  recvSlice s n := ((A.recvSlice s.1 n).1, ((A.recvSlice s.1 n).2, s.2))
  close s := (A.close s.1, s.2)
  isActive s := A.isActive s.1
  mayRecv s := A.mayRecv s.1
  maySend s := A.maySend s.1
  canSend s := A.canSend s.1
  sendCapacity s := A.sendCapacity s.1
  sendQueue s := A.sendQueue s.1
  onEvent e s := (A.onEvent e s.1, s.2)
  state_new := A.state_new
  finUnsent_new := A.finUnsent_new
  unsent_new := A.unsent_new
  mayRecv_eq s := A.mayRecv_eq s.1
  maySend_eq s := A.maySend_eq s.1
  isActive_eq s := A.isActive_eq s.1
  peerFin_rxOpen s := A.peerFin_rxOpen s.1
  recvSlice_data s := A.recvSlice_data s.1
  recvSlice_open s n hq ho := by rw [A.recvSlice_open s.1 n hq ho]
  recvSlice_err s n hq ho := by rw [A.recvSlice_err s.1 n hq ho]
  finUnsent_recvSlice s := A.finUnsent_recvSlice s.1
  sendSlice_spec s d n s' h := by
    obtain ⟨r, hr, heq⟩ := Option.map_eq_some_iff.mp h
    obtain ⟨rfl, rfl⟩ := Prod.mk.inj heq
    exact A.sendSlice_spec s.1 d r.1 r.2 hr
  listen_spec s p s' h := by
    obtain ⟨x, hx, rfl⟩ := Option.map_eq_some_iff.mp h
    exact A.listen_spec s.1 p x hx
  listen_new p hp := by
    rw [Option.isSome_map]
    exact A.listen_new p hp
  connect_spec s r p s' h := by
    obtain ⟨x, hx, rfl⟩ := Option.map_eq_some_iff.mp h
    exact A.connect_spec s.1 r p x hx
  close_spec s := A.close_spec s.1
  finUnsent_onEvent e s := A.finUnsent_onEvent e s.1
  passive_onEvent e s := A.passive_onEvent e s.1
  reset_handshake s := A.reset_handshake s.1
  reset_connected s := A.reset_connected s.1
  closed_onEvent e s := A.closed_onEvent e s.1

end TcpApi

/-- The record is what `TcpEnds` asks for. -/
def TcpEnds.recording (A : TcpApi) : TcpEnds A.recording where
  ends s := s.2
  ends_new := rfl
  ends_connect s r p s' h := by
    obtain ⟨x, -, rfl⟩ := Option.map_eq_some_iff.mp h
    rfl

/-- The reference stack with endpoints on record. -/
def Smoltcp.recording : Smoltcp := { Smoltcp.reference with tcp := TcpApi.reference.recording }

end EspSmoltcp
