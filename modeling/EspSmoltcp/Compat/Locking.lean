import EspSmoltcp.Glue.Ipv4Text
import EspSmoltcp.Machinery.Sync
import EspSmoltcp.World

/-!
# Compat/Locking — who is inside the Rust core

The Rust core is not thread-safe; `esp_smoltcp_internal.h` asks every caller to hold `g_smoltcp_lock`.
`Locks` gives each function of the three components its skeleton: which of the three mutexes it takes
and gives, and when it is inside an `smoltcp_*` function that dereferences the `IfaceCtx` of an
interface.

All of them keep to the rule but `smoltcp_resolve`, which `getaddrinfo` and `gethostbyname` call without
the lock and which polls the interface itself — unless the name is a dotted quad, which it answers
before it looks at the context.  So no two tasks meet in a context as long as no name is looked up
(`exclusive_of_run`).

The poll task runs `pollRx`, `pollIface` and `pollDelay` in turn.  Event and tap callbacks run between
these, with no lock held, and may call anything.
-/

namespace EspSmoltcp

/-- The three mutexes. -/
inductive Lock
  /-- `s_lock` of `fd_table.c`. -/
  | fdTable
  /-- `s_lock` of `loopback.c`. -/
  | loopback
  /-- `g_smoltcp_lock`. -/
  | smoltcp
  deriving DecidableEq, Repr

/-- A control skeleton over the three mutexes and the contexts. -/
abbrev Skeleton := Sync Lock IfaceId

namespace Locks

open Sync

/-- `SMOLTCP_LOCK(); …; SMOLTCP_UNLOCK();` -/
def smoltcpLocked (p : Skeleton) : Skeleton := locked .smoltcp p

/-- On whichever interface. -/
def anyIface (f : IfaceId → Skeleton) : Skeleton := alt (f .eth) (f .wifi)

/-! ## `esp_smoltcp.c` -/

/-- A query of `esp_smoltcp.c`: nothing on a disabled interface, and the core returns at once on a null
handle. -/
def netStackGet (i : IfaceId) : Skeleton := opt (smoltcpLocked (opt (call i)))

/-- `net_stack_get_ipv4`. -/
def netStackGetIpv4 : IfaceId → Skeleton := netStackGet

/-- `net_stack_get_gateway`. -/
def netStackGetGateway : IfaceId → Skeleton := netStackGet

/-- `net_stack_get_netmask`. -/
def netStackGetNetmask : IfaceId → Skeleton := netStackGet

/-- `esp_smoltcp_get_ipv6_link_local`. -/
def espSmoltcpGetIpv6LinkLocal : IfaceId → Skeleton := netStackGet

/-- `net_stack_get_stats`. -/
def netStackGetStats (i : IfaceId) : Skeleton := opt (smoltcpLocked (call i))

/-- `net_stack_link_event`. -/
def netStackLinkEvent (i : IfaceId) : Skeleton := opt (smoltcpLocked (opt (call i)))

/-- One frame of the drain loop of `poll_iface`: a tap takes it, or `smoltcp_iface_rx`. -/
def pollRx (i : IfaceId) : Skeleton := opt (smoltcpLocked (call i))

/-- The rest of `poll_iface`: `smoltcp_iface_poll` and `smoltcp_iface_has_ip`. -/
def pollIface (i : IfaceId) : Skeleton := smoltcpLocked (seq (call i) (call i))

/-- How `net_stack_task` finds the soonest deadline. -/
def pollDelay : Skeleton := smoltcpLocked (seq (opt (call .eth)) (opt (call .wifi)))

/-! ## `esp_smoltcp_sock.c` -/

/-- `handle_for`, then one call under the lock. -/
def netCall (i : IfaceId) : Skeleton := opt (smoltcpLocked (call i))

/-- `net_tcp_open`. -/
def netTcpOpen : IfaceId → Skeleton := netCall

/-- `net_tcp_listen`. -/
def netTcpListen : IfaceId → Skeleton := netCall

/-- `net_tcp_close`. -/
def netTcpClose : IfaceId → Skeleton := netCall

/-- `net_tcp_is_active`. -/
def netTcpIsActive : IfaceId → Skeleton := netCall

/-- `net_tcp_is_connected`. -/
def netTcpIsConnected : IfaceId → Skeleton := netCall

/-- `net_tcp_recv_queue`. -/
def netTcpRecvQueue : IfaceId → Skeleton := netCall

/-- `net_tcp_send_capacity`. -/
def netTcpSendCapacity : IfaceId → Skeleton := netCall

/-- `net_udp_open`. -/
def netUdpOpen : IfaceId → Skeleton := netCall

/-- `net_udp_sendto`. -/
def netUdpSendto : IfaceId → Skeleton := netCall

/-- `net_udp_close`. -/
def netUdpClose : IfaceId → Skeleton := netCall

/-- `net_mcast_join`. -/
def netMcastJoin : IfaceId → Skeleton := netCall

/-- `net_mcast_leave`. -/
def netMcastLeave : IfaceId → Skeleton := netCall

/-- `handle_for`, then such calls until a deadline. -/
def netRetry (i : IfaceId) : Skeleton := opt (loop (smoltcpLocked (call i)))

/-- `net_tcp_send`. -/
def netTcpSend : IfaceId → Skeleton := netRetry

/-- `net_tcp_recv`. -/
def netTcpRecv : IfaceId → Skeleton := netRetry

/-- `net_udp_recvfrom`. -/
def netUdpRecvfrom : IfaceId → Skeleton := netRetry

/-- `net_tcp_connect`. -/
def netTcpConnect (i : IfaceId) : Skeleton :=
  opt (seq (smoltcpLocked (call i)) (opt (loop (smoltcpLocked (call i)))))

/-! ## `loopback.c` -/

/-- `lo_bind`; every return after the search gives the lock. -/
def loBind : Skeleton := opt (locked .loopback skip)

/-- `lo_unbind`. -/
def loUnbind : Skeleton := locked .loopback skip

/-- `lo_deliver`. -/
def loDeliver : Skeleton := opt (locked .loopback skip)

/-! ## `fd_table.c` -/

/-- `fd_default_iface`. -/
def fdDefaultIface : Skeleton := seq (anyIface netStackGetIpv4) (opt (anyIface netStackGetIpv4))

/-- `fd_alloc`. -/
def fdAlloc : Skeleton := locked .fdTable (opt fdDefaultIface)

/-- `fd_free`. -/
def fdFree : Skeleton :=
  opt (locked .fdTable (seq (opt loUnbind)
    (seq (opt (alt (anyIface netUdpClose) (anyIface netTcpClose))) (loop (anyIface netTcpClose)))))

/-! ## `sock_wrap.c` -/

/-- `__wrap_lwip_socket`. -/
def wrapLwipSocket : Skeleton := opt (seq fdAlloc (opt (seq (anyIface netUdpOpen) (opt fdFree))))

/-- `__wrap_lwip_bind`. -/
def wrapLwipBind : Skeleton :=
  opt (alt loBind (seq (opt (anyIface netUdpClose)) (anyIface netUdpOpen)))

/-- `__wrap_lwip_listen`. -/
def wrapLwipListen : Skeleton := opt (loop (seq (anyIface netTcpOpen) (opt (anyIface netTcpListen))))

/-- `__wrap_lwip_accept`. -/
def wrapLwipAccept : Skeleton :=
  opt (loop (seq (loop (anyIface netTcpIsConnected))
    (opt (seq fdAlloc (opt (seq (anyIface netTcpOpen) (opt (anyIface netTcpListen))))))))

/-- `__wrap_lwip_connect`. -/
def wrapLwipConnect : Skeleton := opt (seq (anyIface netTcpOpen) (opt (anyIface netTcpConnect)))

/-- `__wrap_lwip_send` and `__wrap_lwip_write`. -/
def wrapLwipSend : Skeleton := opt (alt (anyIface netTcpSend) (anyIface netUdpSendto))

/-- `__wrap_lwip_recv` and `__wrap_lwip_read`. -/
def wrapLwipRecv : Skeleton := opt (alt (anyIface netTcpRecv) (anyIface netUdpRecvfrom))

/-- `__wrap_lwip_sendto`. -/
def wrapLwipSendto : Skeleton := opt (alt loDeliver (anyIface netUdpSendto))

/-- `__wrap_lwip_recvfrom`; the loopback queue is received from without a lock. -/
def wrapLwipRecvfrom : Skeleton := opt (anyIface netUdpRecvfrom)

/-- `__wrap_lwip_close`. -/
def wrapLwipClose : Skeleton := opt fdFree

/-- `__wrap_lwip_shutdown`. -/
def wrapLwipShutdown : Skeleton := opt (anyIface netTcpClose)

/-- `__wrap_lwip_setsockopt`. -/
def wrapLwipSetsockopt : Skeleton := opt (alt (anyIface netMcastJoin) (anyIface netMcastLeave))

/-- `__wrap_lwip_getsockname`. -/
def wrapLwipGetsockname : Skeleton := opt (anyIface netStackGetIpv4)

/-! ## `select_wrap.c` -/

/-- `fd_readable`. -/
def fdReadable : Skeleton :=
  alt (loop (anyIface netTcpIsConnected))
    (opt (alt (seq (anyIface netTcpRecvQueue) (opt (anyIface netTcpIsConnected)))
      (anyIface netUdpRecvfrom)))

/-- `fd_writable`. -/
def fdWritable : Skeleton := opt (anyIface netTcpSendCapacity)

/-- `__wrap_lwip_select` and `__wrap_lwip_poll`. -/
def wrapLwipSelect : Skeleton := loop (loop (seq (opt fdReadable) (opt fdWritable)))

/-! ## `netdb_wrap.c` -/

/-- `smoltcp_resolve` dereferences the context: the name is UTF-8 text, and no dotted quad. -/
def looksUp (name : Option CStr) : Bool :=
  name.any fun n => n.toStr.isSome && (resolveShortcut n).isNone

/-- `smoltcp_resolve`: inside the context, with no lock, from the query to the answer. -/
def smoltcpResolve (i : IfaceId) (name : Option CStr) : Skeleton := if looksUp name then call i else skip

/-- `__wrap_lwip_getaddrinfo`. -/
def wrapLwipGetaddrinfo (node : Option CStr) : Skeleton :=
  opt (seq fdDefaultIface (opt (anyIface (smoltcpResolve · node))))

/-- `__wrap_lwip_gethostbyname`. -/
def wrapLwipGethostbyname (name : Option CStr) : Skeleton :=
  seq fdDefaultIface (opt (anyIface (smoltcpResolve · name)))

/-! ## `esp_netif_shim.c` -/

/-- `__wrap_esp_netif_get_ip_info`. -/
def wrapEspNetifGetIpInfo (i : IfaceId) : Skeleton :=
  opt (seq (netStackGetIpv4 i) (seq (netStackGetGateway i) (netStackGetNetmask i)))

/-- `__wrap_esp_netif_is_netif_up`. -/
def wrapEspNetifIsNetifUp (i : IfaceId) : Skeleton := opt (netStackGetIpv4 i)

end Locks

/-! ## The operations -/

/-- What a task can run once an interface is attached. -/
inductive PublicOp
  | getIpv4 (i : IfaceId)
  | getGateway (i : IfaceId)
  | getNetmask (i : IfaceId)
  | getIpv6LinkLocal (i : IfaceId)
  | getStats (i : IfaceId)
  | linkEvent (i : IfaceId)
  | pollRx (i : IfaceId)
  | pollIface (i : IfaceId)
  | pollDelay
  | tcpOpen (i : IfaceId)
  | tcpConnect (i : IfaceId)
  | tcpListen (i : IfaceId)
  | tcpSend (i : IfaceId)
  | tcpRecv (i : IfaceId)
  | tcpClose (i : IfaceId)
  | tcpIsActive (i : IfaceId)
  | tcpIsConnected (i : IfaceId)
  | tcpRecvQueue (i : IfaceId)
  | tcpSendCapacity (i : IfaceId)
  | udpOpen (i : IfaceId)
  | udpSendto (i : IfaceId)
  | udpRecvfrom (i : IfaceId)
  | udpClose (i : IfaceId)
  | mcastJoin (i : IfaceId)
  | mcastLeave (i : IfaceId)
  | socket
  | bind
  | listen
  | accept
  | connect
  | send
  | recv
  | sendto
  | recvfrom
  | close
  | shutdown
  | setsockopt
  | getsockname
  | select
  | getaddrinfo (node : Option CStr)
  | gethostbyname (name : Option CStr)
  | netifGetIpInfo (i : IfaceId)
  | netifIsUp (i : IfaceId)
  /-- One that takes no lock and stays out of the core, such as `fcntl`. -/
  | other

namespace PublicOp

/-- The skeleton of an operation. -/
def skeleton : PublicOp → Skeleton
  | getIpv4 i => Locks.netStackGetIpv4 i
  | getGateway i => Locks.netStackGetGateway i
  | getNetmask i => Locks.netStackGetNetmask i
  | getIpv6LinkLocal i => Locks.espSmoltcpGetIpv6LinkLocal i
  | getStats i => Locks.netStackGetStats i
  | linkEvent i => Locks.netStackLinkEvent i
  | pollRx i => Locks.pollRx i
  | pollIface i => Locks.pollIface i
  | pollDelay => Locks.pollDelay
  | tcpOpen i => Locks.netTcpOpen i
  | tcpConnect i => Locks.netTcpConnect i
  | tcpListen i => Locks.netTcpListen i
  | tcpSend i => Locks.netTcpSend i
  | tcpRecv i => Locks.netTcpRecv i
  | tcpClose i => Locks.netTcpClose i
  | tcpIsActive i => Locks.netTcpIsActive i
  | tcpIsConnected i => Locks.netTcpIsConnected i
  | tcpRecvQueue i => Locks.netTcpRecvQueue i
  | tcpSendCapacity i => Locks.netTcpSendCapacity i
  | udpOpen i => Locks.netUdpOpen i
  | udpSendto i => Locks.netUdpSendto i
  | udpRecvfrom i => Locks.netUdpRecvfrom i
  | udpClose i => Locks.netUdpClose i
  | mcastJoin i => Locks.netMcastJoin i
  | mcastLeave i => Locks.netMcastLeave i
  | socket => Locks.wrapLwipSocket
  | bind => Locks.wrapLwipBind
  | listen => Locks.wrapLwipListen
  | accept => Locks.wrapLwipAccept
  | connect => Locks.wrapLwipConnect
  | send => Locks.wrapLwipSend
  | recv => Locks.wrapLwipRecv
  | sendto => Locks.wrapLwipSendto
  | recvfrom => Locks.wrapLwipRecvfrom
  | close => Locks.wrapLwipClose
  | shutdown => Locks.wrapLwipShutdown
  | setsockopt => Locks.wrapLwipSetsockopt
  | getsockname => Locks.wrapLwipGetsockname
  | select => Locks.wrapLwipSelect
  | getaddrinfo node => Locks.wrapLwipGetaddrinfo node
  | gethostbyname name => Locks.wrapLwipGethostbyname name
  | netifGetIpInfo i => Locks.wrapEspNetifGetIpInfo i
  | netifIsUp i => Locks.wrapEspNetifIsNetifUp i
  | other => .skip

/-- The operation looks a name up. -/
def LooksUp : PublicOp → Prop
  | getaddrinfo node => Locks.looksUp node = true
  | gethostbyname name => Locks.looksUp name = true
  | _ => False

/-- **Every operation that looks no name up keeps to the rule of `g_smoltcp_lock`.** -/
theorem after_skeleton (op : PublicOp) (h : ¬ op.LooksUp) :
    op.skeleton.after .smoltcp false = some false := by
  have hskip : ∀ {name}, ¬ Locks.looksUp name = true → ∀ i, Locks.smoltcpResolve i name = .skip :=
    fun hname i => if_neg hname
  cases op with
  | getaddrinfo node =>
    simp only [skeleton, Locks.wrapLwipGetaddrinfo, hskip h]
    rfl
  | gethostbyname name =>
    simp only [skeleton, Locks.wrapLwipGethostbyname, hskip h]
    rfl
  | _ => rfl

end PublicOp

/-- One step of the tasks, which run operations that this condition allows. -/
def TaskStep (ok : PublicOp → Prop) : Tasks ℕ Lock IfaceId → Tasks ℕ Lock IfaceId → Prop :=
  Tasks.Step fun tr => ∃ op, ok op ∧ op.skeleton.Trace tr

/-- **As long as no task looks a name up, at most one task is inside a context.** -/
theorem ctxExclusive_of_run {s : Tasks ℕ Lock IfaceId}
    (h : Relation.ReflTransGen (TaskStep fun op => ¬ op.LooksUp) .idle s) : s.Exclusive := by
  refine Tasks.exclusive_of_run (l := .smoltcp) ?_ h
  rintro tr ⟨op, hop, htr⟩
  rw [← List.append_nil tr]
  exact htr.guarded (op.after_skeleton hop) ⟨rfl, rfl⟩

/-! ### A lookup beside the poll task -/

/-- `poll_iface` from its first lock to its last. -/
def polling : List (SyncStep Lock IfaceId) :=
  [.take .smoltcp, .enter .eth, .leave .eth, .enter .eth, .leave .eth, .give .smoltcp]

theorem trace_polling : (PublicOp.pollIface .eth).skeleton.Trace polling :=
  Sync.Trace.locked (l := Lock.smoltcp) (.seq (.call IfaceId.eth) (.call IfaceId.eth))

/-- `gethostbyname` of a name, on an interface with an address. -/
def lookup : List (SyncStep Lock IfaceId) :=
  [.take .smoltcp, .enter .eth, .leave .eth, .give .smoltcp, .enter .eth, .leave .eth]

theorem trace_lookup : (PublicOp.gethostbyname (some (.ofText ['a']))).skeleton.Trace lookup := by
  have hname : Locks.looksUp (some (.ofText ['a'])) = true := by
    have hquad : parseIpv4Addr ['a'] = none := by decide
    simp [Locks.looksUp, resolveShortcut, hquad]
  have hresolve : ∀ i, Locks.smoltcpResolve i (some (.ofText ['a'])) = .call i := fun i => if_pos hname
  have haddr : (Locks.netStackGetIpv4 .eth).Trace
      [.take .smoltcp, .enter .eth, .leave .eth, .give .smoltcp] :=
    .inr (Sync.Trace.locked (l := Lock.smoltcp) (.inr (.call IfaceId.eth)))
  simp only [PublicOp.skeleton, Locks.wrapLwipGethostbyname, hresolve]
  exact .seq (.seq (.inl haddr) (.inl .skip)) (.inr (.inl (.call IfaceId.eth)))

/-- A `net_tcp_send` of one attempt. -/
def sending : List (SyncStep Lock IfaceId) := [.take .smoltcp, .enter .eth, .leave .eth, .give .smoltcp]

theorem trace_sending : (PublicOp.tcpSend .eth).skeleton.Trace sending :=
  .inr (.again (Sync.Trace.locked (l := Lock.smoltcp) (.call IfaceId.eth)) .done)

/-- The poll task is inside the context, and a task that sends waits for the lock. -/
theorem ctxExclusive_polling : ∃ s : Tasks ℕ Lock IfaceId,
    .eth ∈ s.inside 1 ∧ s.todo 0 = sending ∧ s.owner .smoltcp = some 1 ∧ s.Exclusive := by
  refine ⟨_, ?_, ?_, ?_, ctxExclusive_of_run (.tail (.tail (.tail (.tail .refl
    (.start (t := 0) rfl ⟨.tcpSend .eth, id, trace_sending⟩))
    (.start (t := 1) rfl ⟨.pollIface .eth, id, trace_polling⟩)) (.take (t := 1) rfl rfl))
    (.enter (t := 1) rfl))⟩
  · simp
  · rfl
  · rfl

/-- **The resolver and the poll task meet inside the context.** -/
theorem lookup_meets_poll : ∃ s : Tasks ℕ Lock IfaceId,
    Relation.ReflTransGen (TaskStep fun _ => True) .idle s ∧ ¬ s.Exclusive := by
  refine ⟨_, .tail (.tail (.tail (.tail (.tail (.tail (.tail (.tail (.tail .refl
    (.start (t := 0) rfl ⟨_, trivial, trace_lookup⟩)) (.take (t := 0) rfl rfl)) (.enter (t := 0) rfl))
    (.leave (t := 0) rfl)) (.give (t := 0) rfl)) (.enter (t := 0) rfl))
    (.start (t := 1) rfl ⟨_, trivial, trace_polling⟩)) (.take (t := 1) rfl rfl)) (.enter (t := 1) rfl),
    fun h => ?_⟩
  exact absurd (h 0 1 .eth (by simp) (by simp)) (by decide)

end EspSmoltcp
