import EspSmoltcp.Smoltcp.Api
import EspSmoltcp.Smoltcp.Reference
import EspSmoltcp.Glue.Device
import EspSmoltcp.Glue.Iface
import EspSmoltcp.Glue.Dns
import EspSmoltcp.Glue.DnsWire
import EspSmoltcp.Glue.Resolver
import EspSmoltcp.Glue.Dhcp
import EspSmoltcp.Glue.Lending
import EspSmoltcp.Glue.Inventory
import EspSmoltcp.Machinery.Thread
import EspSmoltcp.World
import EspSmoltcp.Stack.Sock
import EspSmoltcp.Stack.Poll
import EspSmoltcp.Stack.Taps
import EspSmoltcp.Stack.IpState
import EspSmoltcp.Stack.FramePool
import EspSmoltcp.Stack.Init
import EspSmoltcp.Stack.Attach
import EspSmoltcp.Stack.LinkEvents
import EspSmoltcp.Stack.SendLoop
import EspSmoltcp.Stack.Datagrams
import EspSmoltcp.Stack.Wakeups
import EspSmoltcp.Stack.Progress
import EspSmoltcp.Compat.Netdb
import EspSmoltcp.Glue.Registry
import EspSmoltcp.Stack.Handles
import EspSmoltcp.Stack.Sessions
import EspSmoltcp.Compat.SockSpec
import EspSmoltcp.Compat.Calls
import EspSmoltcp.Compat.Capacity
import EspSmoltcp.Compat.Locking
import EspSmoltcp.Compat.Readiness
import EspSmoltcp.Compat.Teardown
import EspSmoltcp.Compat.Handshake
import EspSmoltcp.Compat.UdpCalls
import EspSmoltcp.Compat.LoTable
import EspSmoltcp.Compat.Getaddrinfo
import EspSmoltcp.Compat.TypeSafety
import EspSmoltcp.Compat.Deadlock
import EspSmoltcp.Compat.AcceptRace
import EspSmoltcp.Compat.Fairness
import EspSmoltcp.Compat.Rollback
import EspSmoltcp.Compat.UdpPorts
import EspSmoltcp.Compat.HalfClose
import EspSmoltcp.Compat.Nonblocking
import EspSmoltcp.Compat.PollEvents
import EspSmoltcp.Compat.ScanObserves
import EspSmoltcp.Compat.SelectUptime
import EspSmoltcp.Compat.OwnAddress
import EspSmoltcp.Stack.Dialling
import EspSmoltcp.Compat.SockOpt
import EspSmoltcp.Glue.Ipv4Grammar
import EspSmoltcp.Stack.Ntp
import EspSmoltcp.Glue.TxTokens
import EspSmoltcp.Glue.DnsOffsets
import EspSmoltcp.Stack.RxCounters
import EspSmoltcp.Stack.PollTimer
import EspSmoltcp.Compat.Stream
import EspSmoltcp.Glue.Lookups
import EspSmoltcp.Compat.LoHeap
import EspSmoltcp.Compat.LoMemory
import EspSmoltcp.Compat.Mailbox
import EspSmoltcp.Compat.LoCalls
import EspSmoltcp.Compat.NetdbMemory
import EspSmoltcp.Compat.UdpSession
