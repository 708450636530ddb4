import EspSmoltcp.Glue.Device
import EspSmoltcp.Glue.Ipv4Text

/-!
# Glue/Iface — `IfaceCtx` and the C-callable surface of the Rust core

An `IfaceCtx` bundles one device, one smoltcp interface and one `SocketSet` with the map from
application socket ids to handles.  The functions below are `lib.rs`'s `extern "C"` surface on a
non-null context; the null checks are where the C side calls them (`World.ffi`).

`SocketSet::get_mut` and `remove` panic on a dead handle or a socket of another type.  A panic
aborts the device; it is recorded in `panicked` and the call returns its error value.
-/

namespace EspSmoltcp

variable {S : Smoltcp} {α : Type}

/-! ## The interface -/

/-- `Ipv4Cidr`. -/
structure Ipv4Cidr where
  address : Ipv4Address
  prefixLen : ℕ
  deriving DecidableEq

/-- `IpCidr`. -/
inductive IpCidr
  | ipv4 (c : Ipv4Cidr)
  | ipv6 (address : List UInt8) (prefixLen : ℕ)
  deriving DecidableEq

/-- `matches!(a, IpCidr::Ipv4(_))`. -/
def IpCidr.isIpv4 : IpCidr → Bool
  | .ipv4 _ => true
  | .ipv6 _ _ => false

/-- `smoltcp::iface::Interface`: its addresses and its default IPv4 route. -/
structure Interface where
  ipAddrs : List IpCidr := []
  defaultRoute : Option Ipv4Address := none
  deriving DecidableEq

namespace Interface

/-- `ipv4_addr`: the first IPv4 address. -/
def ipv4Addr (i : Interface) : Option Ipv4Address :=
  i.ipAddrs.findSome? fun
    | .ipv4 c => some c.address
    | .ipv6 _ _ => none

/-- `addrs.push`: refused, without effect, when the list is full. -/
def pushAddr (S : Smoltcp) (i : Interface) (c : IpCidr) : Interface :=
  if i.ipAddrs.length < S.addrCap then { i with ipAddrs := i.ipAddrs ++ [c] } else i

/-- `addrs.retain(|a| !matches!(a, IpCidr::Ipv4(_)))`. -/
def dropIpv4 (i : Interface) : Interface :=
  { i with ipAddrs := i.ipAddrs.filter fun a => !a.isIpv4 }

end Interface

/-- `cidr_to_mask`. -/
def cidrToMask (plen : ℕ) : UInt32 :=
  if plen = 0 then 0 else UInt32.ofNat ((2 ^ 32 - 1) <<< (32 - plen))

/-- `u32::to_be` on a little-endian target. -/
def toBe (x : UInt32) : UInt32 :=
  let (a, b, c, d) := toLeBytes x
  fromBeBytes a b c d

/-! ## The context -/

/-- `IfaceCtx`. -/
structure IfaceCtx (S : Smoltcp) where
  ifaceId : ℕ
  dev : EspDevice
  iface : Interface
  sockets : SocketSet S
  dhcp : Option SocketHandle := none
  hasIp : Bool := false
  netmaskBe : UInt32 := 0
  gatewayBe : UInt32 := 0
  /-- Application socket id to smoltcp handle; id 0 is reserved as invalid. -/
  handles : AList fun _ : UInt32 => SocketHandle
  nextId : UInt32
  panicked : Bool := false

namespace IfaceCtx

/-- The IPv6 link-local address of a MAC, modified EUI-64. -/
def linkLocal (mac : Fin 6 → UInt8) : List UInt8 :=
  [0xfe, 0x80, 0, 0, 0, 0, 0, 0,
    mac 0 ^^^ 0x02, mac 1, mac 2, 0xff, 0xfe, mac 3, mac 4, mac 5]

/-- `IfaceCtx::new`. -/
def new (ifaceId : ℕ) (mac : Fin 6 → UInt8) : IfaceCtx S where
  ifaceId := ifaceId
  dev := { ifaceId := ifaceId }
  iface := ({} : Interface).pushAddr S (.ipv6 (linkLocal mac) 64)
  sockets := ∅
  handles := ∅
  nextId := 1

/-- The Rust core panics. -/
def panic (ctx : IfaceCtx S) : IfaceCtx S := { ctx with panicked := true }

/-- `alloc_id`. -/
def allocId (ctx : IfaceCtx S) (h : SocketHandle) : UInt32 × IfaceCtx S :=
  (ctx.nextId,
    { ctx with nextId := max (ctx.nextId + 1) 1, handles := ctx.handles.insert ctx.nextId h })

/-- `lookup`. -/
def lookup (ctx : IfaceCtx S) (id : UInt32) : Option SocketHandle := ctx.handles.lookup id

/-- `sockets.get_mut::<tcp::Socket>` of an id's socket, and a call on it. -/
def withTcp (ctx : IfaceCtx S) (id : UInt32) (err : α) (f : S.tcp.Socket → α × S.tcp.Socket) :
    α × IfaceCtx S :=
  match ctx.lookup id with
  | none => (err, ctx)
  | some sh =>
    match ctx.sockets.lookup sh with
    | some (.tcp s) => ((f s).1, { ctx with sockets := ctx.sockets.replace sh (.tcp (f s).2) })
    | _ => (err, ctx.panic)

/-- The same for a query, which leaves the socket alone. -/
def queryTcp (ctx : IfaceCtx S) (id : UInt32) (err : α) (f : S.tcp.Socket → α) : α × IfaceCtx S :=
  match ctx.lookup id with
  | none => (err, ctx)
  | some sh =>
    match ctx.sockets.lookup sh with
    | some (.tcp s) => (f s, ctx)
    | _ => (err, ctx.panic)

/-- `sockets.get_mut::<udp::Socket>` of an id's socket, and a call on it. -/
def withUdp (ctx : IfaceCtx S) (id : UInt32) (err : α) (f : S.udp.Socket → α × S.udp.Socket) :
    α × IfaceCtx S :=
  match ctx.lookup id with
  | none => (err, ctx)
  | some sh =>
    match ctx.sockets.lookup sh with
    | some (.udp s) => ((f s).1, { ctx with sockets := ctx.sockets.replace sh (.udp (f s).2) })
    | _ => (err, ctx.panic)

/-- `sockets.add`, then `alloc_id`: how every socket is opened. -/
def openSocket (ctx : IfaceCtx S) (s : Socket S) : UInt32 × IfaceCtx S :=
  let (sh, sockets) := SocketSet.add ctx.sockets s
  { ctx with sockets := sockets }.allocId sh

/-- `close()` on an id's socket, then `sockets.remove(sh)` and `handles.remove(&id)`: how every
socket is closed.  `close` refuses a socket of another type. -/
def closeSocket (ctx : IfaceCtx S) (id : UInt32) (close : Socket S → Option (Socket S)) :
    IfaceCtx S :=
  match ctx.lookup id with
  | none => ctx
  | some sh =>
    match (ctx.sockets.lookup sh).bind close with
    | some s =>
      { ctx with
        sockets := (ctx.sockets.replace sh s).erase sh
        handles := ctx.handles.erase id }
    | none => ctx.panic

end IfaceCtx

/-! ## Interface state -/

/-- `smoltcp_iface_rx`. -/
def smoltcpIfaceRx (ctx : IfaceCtx S) (frame : Bytes) : IfaceCtx S :=
  { ctx with dev := ctx.dev.pushRx frame }

/-- `smoltcp_iface_set_link_up`. -/
def smoltcpIfaceSetLinkUp (ctx : IfaceCtx S) (up : Bool) : IfaceCtx S :=
  { ctx with dev := { ctx.dev with linkUp := up } }

/-- `smoltcp_iface_get_ipv4`. -/
def smoltcpIfaceGetIpv4 (ctx : IfaceCtx S) : UInt32 :=
  match ctx.iface.ipv4Addr with
  | some a => ipv4ToBe a
  | none => 0

/-- `smoltcp_iface_set_static`; `Ipv4Cidr::new` panics on a prefix above 32. -/
def smoltcpIfaceSetStatic (ctx : IfaceCtx S) (ipv4Be : UInt32) (plen : ℕ) (gwBe : UInt32) :
    IfaceCtx S :=
  if 32 < plen then { ctx with dhcp := none }.panic
  else
    let cidr : Ipv4Cidr := ⟨ipv4FromBe ipv4Be, plen⟩
    let ctx := { ctx with
      dhcp := none
      iface := ctx.iface.dropIpv4.pushAddr S (.ipv4 cidr)
      netmaskBe := toBe (cidrToMask plen)
      hasIp := true }
    if gwBe ≠ 0 then
      { ctx with
        iface := { ctx.iface with defaultRoute := some (ipv4FromBe gwBe) }
        gatewayBe := gwBe }
    else ctx

/-- `smoltcp_iface_enable_dhcp`. -/
def smoltcpIfaceEnableDhcp (ctx : IfaceCtx S) : IfaceCtx S :=
  match ctx.dhcp with
  | some _ => ctx
  | none =>
    let (dh, sockets) := SocketSet.add ctx.sockets .dhcpv4
    { ctx with sockets := sockets, dhcp := some dh }

/-! ## TCP -/

/-- `smoltcp_tcp_open`. -/
def smoltcpTcpOpen (ctx : IfaceCtx S) : UInt32 × IfaceCtx S := ctx.openSocket (.tcp S.tcp.new)

/-- The remote endpoint an address and a port of the C side stand for. -/
def endpointOf (dstBe : UInt32) (dstPort : UInt16) : IpEndpoint :=
  ⟨.ipv4 (ipv4FromBe dstBe), dstPort⟩

/-- The local port of a connect: the given one, or one of the ephemeral range. -/
def connectPort (localPort : UInt16) (rand : UInt32) : UInt16 :=
  if localPort = 0 then 49152 + (rand &&& 0x3FFF).toUInt16 else localPort

/-- `smoltcp_tcp_connect`; `rand` is the draw of `smoltcp_glue_rand32`. -/
def smoltcpTcpConnect (ctx : IfaceCtx S) (id dstBe : UInt32) (dstPort localPort : UInt16)
    (rand : UInt32) : Int × IfaceCtx S :=
  ctx.withTcp id (-1) fun s =>
    match S.tcp.connect s (endpointOf dstBe dstPort) (connectPort localPort rand) with
    | some s' => (0, s')
    | none => (-1, s)

/-- `smoltcp_tcp_listen`. -/
def smoltcpTcpListen (ctx : IfaceCtx S) (id : UInt32) (port : UInt16) : Int × IfaceCtx S :=
  ctx.withTcp id (-1) fun s =>
    match S.tcp.listen s port with
    | some s' => (0, s')
    | none => (-1, s)

/-- `smoltcp_tcp_send`. -/
def smoltcpTcpSend (ctx : IfaceCtx S) (id : UInt32) (data : Bytes) : Int × IfaceCtx S :=
  ctx.withTcp id (-1) fun s =>
    match S.tcp.sendSlice s data with
    | some (n, s') => (n, s')
    | none => (-1, s)

/-- `smoltcp_tcp_recv`: the return code and the bytes written to the buffer. -/
def smoltcpTcpRecv (ctx : IfaceCtx S) (id : UInt32) (cap : ℕ) : (Int × Bytes) × IfaceCtx S :=
  ctx.withTcp id (-1, []) fun s =>
    match S.tcp.recvSlice s cap with
    | (some data, s') => ((data.length, data), s')
    | (none, s') => ((-1, []), s')

/-- `smoltcp_tcp_is_active`. -/
def smoltcpTcpIsActive (ctx : IfaceCtx S) (id : UInt32) : Bool × IfaceCtx S :=
  ctx.queryTcp id false S.tcp.isActive

/-- `smoltcp_tcp_is_connected`. -/
def smoltcpTcpIsConnected (ctx : IfaceCtx S) (id : UInt32) : Bool × IfaceCtx S :=
  ctx.queryTcp id false fun s => S.tcp.mayRecv s || S.tcp.maySend s

/-- `smoltcp_tcp_recv_queue`. -/
def smoltcpTcpRecvQueue (ctx : IfaceCtx S) (id : UInt32) : ℕ × IfaceCtx S :=
  ctx.queryTcp id 0 fun s => (S.tcp.rxQueue s).length

/-- `smoltcp_tcp_send_capacity`. -/
def smoltcpTcpSendCapacity (ctx : IfaceCtx S) (id : UInt32) : ℕ × IfaceCtx S :=
  ctx.queryTcp id 0 fun s =>
    if S.tcp.canSend s then S.tcp.sendCapacity s - S.tcp.sendQueue s else 0

/-- `get_mut::<tcp::Socket>(sh).close()`. -/
def Socket.closeTcp : Socket S → Option (Socket S)
  | .tcp s => some (.tcp (S.tcp.close s))
  | _ => none

/-- `smoltcp_tcp_close`. -/
def smoltcpTcpClose (ctx : IfaceCtx S) (id : UInt32) : IfaceCtx S :=
  ctx.closeSocket id Socket.closeTcp

/-! ## UDP -/

/-- `smoltcp_udp_open`. -/
def smoltcpUdpOpen (ctx : IfaceCtx S) (localPort : UInt16) : UInt32 × IfaceCtx S :=
  if localPort = 0 then ctx.openSocket (.udp S.udp.new)
  else
    match S.udp.bind S.udp.new localPort with
    | none => (0, ctx)
    | some s => ctx.openSocket (.udp s)

/-- `smoltcp_udp_sendto`. -/
def smoltcpUdpSendto (ctx : IfaceCtx S) (id : UInt32) (data : Bytes) (dstBe : UInt32)
    (dstPort : UInt16) : Int × IfaceCtx S :=
  ctx.withUdp id (-1) fun s =>
    match S.udp.sendSlice s data (endpointOf dstBe dstPort) with
    | some s' => (data.length, s')
    | none => (-1, s)

/-- What `smoltcp_udp_recvfrom` delivered: the payload, its source address if that is IPv4, and the
source port. -/
structure UdpRecv where
  data : Bytes
  srcBe : Option UInt32
  srcPort : UInt16
  deriving DecidableEq

/-- `smoltcp_udp_recvfrom`: the return code and, on success, what was delivered. -/
def smoltcpUdpRecvfrom (ctx : IfaceCtx S) (id : UInt32) (cap : ℕ) :
    (Int × Option UdpRecv) × IfaceCtx S :=
  ctx.withUdp id (-1, none) fun s =>
    match S.udp.recvSlice s cap with
    | (some (data, src), s') =>
      let srcBe := match src.addr with
        | .ipv4 a => some (ipv4ToBe a)
        | .ipv6 _ => none
      ((data.length, some ⟨data, srcBe, src.port⟩), s')
    | (none, s') => ((-1, none), s')

/-- `get_mut::<udp::Socket>(sh).close()`. -/
def Socket.closeUdp : Socket S → Option (Socket S)
  | .udp s => some (.udp (S.udp.close s))
  | _ => none

/-- `smoltcp_udp_close`. -/
def smoltcpUdpClose (ctx : IfaceCtx S) (id : UInt32) : IfaceCtx S :=
  ctx.closeSocket id Socket.closeUdp

end EspSmoltcp
