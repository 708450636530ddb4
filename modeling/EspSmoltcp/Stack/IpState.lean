import EspSmoltcp.Glue.Dhcp
import EspSmoltcp.Stack.Poll
import Mathlib.Data.List.Chain

/-!
# Stack/IpState — is there an address?

Whether an interface has an IPv4 address is kept five times: in smoltcp's address list, in `has_ip` and
`netmask_be` of the context, in `ip_up` of `net_iface_t` and in the event group.  The context's copies are
written together by every call (`AddrInv`); `poll_iface` brings the C copies up to date and tells the
application of each change.

* `ipCoherent_pollIface` — after every `poll_iface` of every run the copies agree, and the application has
  been told of every change, in turn.
-/

namespace EspSmoltcp

variable {S : Smoltcp}

/-! ## The address list -/

/-- The address list of an interface: its link-local address, and at most one IPv4 address. -/
def addrList (mac : Fin 6 → UInt8) (v4 : Option Ipv4Cidr) : List IpCidr :=
  .ipv6 (IfaceCtx.linkLocal mac) 64 :: (v4.map IpCidr.ipv4).toList

/-- The copies of a context agree. -/
structure AddrInv (mac : Fin 6 → UInt8) (v4 : Option Ipv4Cidr) (ctx : IfaceCtx S) : Prop where
  addrs : ctx.iface.ipAddrs = addrList mac v4
  prefixLen_le : ∀ c, v4 = some c → c.prefixLen ≤ 32
  hasIp : ctx.hasIp = v4.isSome
  netmask : ctx.netmaskBe = v4.elim 0 fun c => toBe (cidrToMask c.prefixLen)

theorem Interface.ipAddrs_dropIpv4 {i : Interface} {mac : Fin 6 → UInt8} {v4 : Option Ipv4Cidr}
    (h : i.ipAddrs = addrList mac v4) : i.dropIpv4.ipAddrs = addrList mac none := by
  rw [dropIpv4, h]
  rcases v4 with _ | c
  · rfl
  · rfl

/-- There is room for the address. -/
theorem Interface.ipAddrs_pushAddr {i : Interface} {mac : Fin 6 → UInt8}
    (h : i.ipAddrs = addrList mac none) (c : Ipv4Cidr) :
    (i.pushAddr S (.ipv4 c)).ipAddrs = addrList mac (some c) := by
  have hroom : i.ipAddrs.length < S.addrCap := by
    rw [h]
    exact S.two_le_addrCap
  rw [pushAddr, if_pos hroom, h]
  rfl

theorem Interface.ipv4Addr_addrList {i : Interface} {mac : Fin 6 → UInt8} {v4 : Option Ipv4Cidr}
    (h : i.ipAddrs = addrList mac v4) : i.ipv4Addr = v4.map Ipv4Cidr.address := by
  rw [ipv4Addr, h]
  rcases v4 with _ | c
  · rfl
  · rfl

namespace AddrInv

variable {mac : Fin 6 → UInt8} {v4 : Option Ipv4Cidr} {ctx : IfaceCtx S}

theorem new (n : ℕ) (mac : Fin 6 → UInt8) : AddrInv mac none (.new n mac : IfaceCtx S) := by
  refine ⟨?_, (fun _ hc => nomatch hc), rfl, rfl⟩
  have hroom : ({} : Interface).ipAddrs.length < S.addrCap :=
    lt_of_lt_of_le (by decide) S.two_le_addrCap
  rw [IfaceCtx.new, Interface.pushAddr, if_pos hroom]
  rfl

theorem pollNet (h : AddrInv mac v4 ctx) (net : IfaceCtx.NetPoll S) : AddrInv mac v4 (ctx.pollNet net) :=
  ⟨h.addrs, h.prefixLen_le, h.hasIp, h.netmask⟩

/-- A lease is applied, or taken back. -/
theorem applyDhcp (h : AddrInv mac v4 ctx) (ev : DhcpEvent) :
    ∃ v4', AddrInv mac v4' (ctx.applyDhcp ev) := by
  have hdrop := Interface.ipAddrs_dropIpv4 h.addrs
  rcases ev with ⟨addr, hlen, router⟩ | _
  · have hpush := Interface.ipAddrs_pushAddr (S := S) hdrop addr
    refine ⟨some addr, ?_, fun c hc => Option.some.inj hc ▸ hlen, rfl, ?_⟩
    · rcases router with _ | gw
      · exact hpush
      · exact hpush
    · rcases router with _ | gw
      · rfl
      · rfl
  · exact ⟨none, hdrop, (fun _ hc => nomatch hc), rfl, rfl⟩

theorem poll (h : AddrInv mac v4 ctx) (net : IfaceCtx.NetPoll S) (ev : Option DhcpEvent) :
    ∃ v4', AddrInv mac v4' (ctx.poll net ev) := by
  have hnet := h.pollNet net
  obtain ⟨-, he⟩ | ⟨-, -, he⟩ | ⟨-, he⟩ := ctx.poll_cases net ev
  · rw [he]
    rcases ev with _ | ev
    · exact ⟨v4, hnet⟩
    · exact hnet.applyDhcp ev
  · rw [he]
    exact ⟨v4, hnet.addrs, hnet.prefixLen_le, hnet.hasIp, hnet.netmask⟩
  · rw [he]
    refine ⟨v4, hnet.addrs, hnet.prefixLen_le, ?_, hnet.netmask⟩
    change ctx.iface.ipv4Addr.isSome = v4.isSome
    rw [Interface.ipv4Addr_addrList h.addrs, Option.isSome_map]

theorem setStatic (h : AddrInv mac v4 ctx) (ipv4Be : UInt32) {plen : ℕ} (hlen : plen ≤ 32)
    (gwBe : UInt32) :
    AddrInv mac (some ⟨ipv4FromBe ipv4Be, plen⟩) (smoltcpIfaceSetStatic ctx ipv4Be plen gwBe) := by
  have hpush := Interface.ipAddrs_pushAddr (S := S) (Interface.ipAddrs_dropIpv4 h.addrs)
    ⟨ipv4FromBe ipv4Be, plen⟩
  rw [smoltcpIfaceSetStatic, if_neg (not_lt.mpr hlen)]
  dsimp only
  split_ifs
  · exact ⟨hpush, fun c hc => Option.some.inj hc ▸ hlen, rfl, rfl⟩
  · exact ⟨hpush, fun c hc => Option.some.inj hc ▸ hlen, rfl, rfl⟩

/-- **Every call keeps the copies in step.** -/
theorem run (h : AddrInv mac v4 ctx) (op : IfaceOp S) : ∃ v4', AddrInv mac v4' (op.run ctx) := by
  rcases op with ⟨net, ev⟩ | ⟨ipv4Be, prefixLen, gwBe, hlen⟩ | _
  · exact h.poll net ev
  · exact ⟨_, h.setStatic ipv4Be hlen gwBe⟩
  · rw [IfaceOp.run, smoltcpIfaceEnableDhcp]
    rcases ctx.dhcp with _ | dh
    · exact ⟨v4, h.addrs, h.prefixLen_le, h.hasIp, h.netmask⟩
    · exact ⟨v4, h⟩

/-- Received frames change the device only. -/
theorem drainRx (h : AddrInv mac v4 ctx) (taps : List L2Tap) (i : IfaceId) (q : List NetFrame) :
    AddrInv mac v4 (EspSmoltcp.drainRx taps i q ctx).2 := by
  induction q generalizing ctx with
  | nil => exact h
  | cons f q ih =>
    rw [EspSmoltcp.drainRx]
    rcases dispatchTap taps i f with _ | call
    · exact ih ⟨h.addrs, h.prefixLen_le, h.hasIp, h.netmask⟩
    · exact ih h

end AddrInv

/-! ## `poll_iface` -/

/-- The IP events of `net_event_t`. -/
inductive NetEvent
  | gotIp | lostIp
  deriving DecidableEq, Repr

/-- The event that tells of a change. -/
def ipEvent (up : Bool) : NetEvent := if up then .gotIp else .lostIp

/-- An interface, its bit in the event group, and the IP events emitted for it, oldest first. -/
structure IpSys (S : Smoltcp) where
  iface : NetIface S
  ipUpBit : Bool := false
  events : List NetEvent := []

/-- `poll_iface`: the drain, the poll, and then the application is told of a change. -/
def pollIface (taps : List L2Tap) (i : IfaceId) (net : IfaceCtx.NetPoll S) (ev : Option DhcpEvent)
    (s : IpSys S) : IpSys S :=
  let handle := s.iface.smoltcpHandle.map fun ctx =>
    (drainRx taps i s.iface.rxQueue ctx).2.poll net ev
  let ipUpNow := (handle.map IfaceCtx.hasIp).getD false
  let wasUp := s.iface.ipUp
  let iface := { s.iface with rxQueue := [], smoltcpHandle := handle, ipUp := ipUpNow }
  if ipUpNow ≠ wasUp then
    { iface := iface
      ipUpBit := ipUpNow
      events := s.events ++ [ipEvent ipUpNow] }
  else { s with iface := iface }

/-- The operations of a run. -/
inductive IpOp (S : Smoltcp)
  | core (op : IfaceOp S)
  | pollIface (taps : List L2Tap) (net : IfaceCtx.NetPoll S) (ev : Option DhcpEvent)

/-- What an operation does. -/
def IpOp.run (i : IfaceId) : IpOp S → IpSys S → IpSys S
  | core op, s =>
    { s with iface := { s.iface with smoltcpHandle := s.iface.smoltcpHandle.map op.run } }
  | pollIface taps net ev, s => EspSmoltcp.pollIface taps i net ev s

/-- An interface as it is attached. -/
def IpSys.attached (i : IfaceId) (mac : Fin 6 → UInt8) (rxQueue : List NetFrame) : IpSys S where
  iface :=
    { enabled := true, rxQueue := rxQueue, smoltcpHandle := some (.new i.code.toNat mac) }

/-! ## Coherence -/

/-- The octet of a mask whose first `n` bits are set. -/
def maskOctet (n : ℕ) : UInt8 := .ofNat (256 - 2 ^ (8 - min n 8))

/-- The octets of the mask of a prefix, in memory order. -/
def maskOctets (plen : ℕ) : UInt8 × UInt8 × UInt8 × UInt8 :=
  (maskOctet plen, maskOctet (plen - 8), maskOctet (plen - 16), maskOctet (plen - 24))

/-- The events start with the first address and alternate. -/
structure Alternating (events : List NetEvent) : Prop where
  first : ∀ e, events.head? = some e → e = .gotIp
  chain : events.IsChain (· ≠ ·)

/-- The five copies of one fact agree, and the application knows. -/
structure IpCoherent (mac : Fin 6 → UInt8) (s : IpSys S) (ctx : IfaceCtx S) : Prop where
  atMostOne : (ctx.iface.ipAddrs.filter IpCidr.isIpv4).length ≤ 1
  linkLocal : .ipv6 (IfaceCtx.linkLocal mac) 64 ∈ ctx.iface.ipAddrs
  hasIp : ctx.hasIp = true ↔ ∃ c, .ipv4 c ∈ ctx.iface.ipAddrs
  netmask : ∀ c, .ipv4 c ∈ ctx.iface.ipAddrs → toLeBytes ctx.netmaskBe = maskOctets c.prefixLen
  noNetmask : (∀ c, .ipv4 c ∉ ctx.iface.ipAddrs) → ctx.netmaskBe = 0
  ipUp : s.iface.ipUp = ctx.hasIp
  ipUpBit : s.ipUpBit = ctx.hasIp
  events : Alternating s.events

theorem toLeBytes_netmask {plen : ℕ} (h : plen ≤ 32) :
    toLeBytes (toBe (cidrToMask plen)) = maskOctets plen := by
  have key : ∀ n : Fin 33, toLeBytes (toBe (cidrToMask n)) = maskOctets n := by decide +kernel
  exact key ⟨plen, Nat.lt_succ_of_le h⟩

/-- What every operation keeps: the copies of the context agree, those of the C side agree, and the last
event says which. -/
structure IpInv (mac : Fin 6 → UInt8) (s : IpSys S) : Prop where
  core : ∃ ctx v4, s.iface.smoltcpHandle = some ctx ∧ AddrInv mac v4 ctx
  bit : s.ipUpBit = s.iface.ipUp
  events : Alternating s.events
  last : ∀ e, s.events.getLast? = some e → e = ipEvent s.iface.ipUp
  none : s.events = [] → s.iface.ipUp = false

/-- A change is told by the other event. -/
theorem ipEvent_ne {up up' : Bool} (h : up ≠ up') : ipEvent up ≠ ipEvent up' := by
  cases up
  · cases up'
    · exact absurd rfl h
    · decide
  · cases up'
    · decide
    · exact absurd rfl h

/-- Telling of a change keeps the events alternating. -/
theorem Alternating.tell {events : List NetEvent} (h : Alternating events) {was now : Bool}
    (hlast : ∀ e, events.getLast? = some e → e = ipEvent was) (hnone : events = [] → was = false)
    (hne : now ≠ was) : Alternating (events ++ [ipEvent now]) := by
  refine ⟨fun e he => ?_, List.isChain_append.mpr ⟨h.chain, .singleton _, fun x hx y hy => ?_⟩⟩
  · rcases events with _ | ⟨e', events⟩
    · obtain rfl := Option.some.inj he
      rw [hnone rfl, Bool.ne_false_iff] at hne
      rw [hne]
      rfl
    · exact h.first e he
  · obtain rfl := Option.some.inj hy
    rw [hlast x hx]
    exact (ipEvent_ne hne).symm

namespace IpInv

variable {mac : Fin 6 → UInt8} {s : IpSys S}

theorem attached (i : IfaceId) (mac : Fin 6 → UInt8) (rxQueue : List NetFrame) :
    IpInv mac (.attached i mac rxQueue : IpSys S) where
  core := ⟨_, Option.none, rfl, .new _ mac⟩
  bit := rfl
  events := ⟨(fun _ he => nomatch he), .nil⟩
  last _ he := nomatch he
  none _ := rfl

/-- `poll_iface` keeps all of it, and brings the C copies up to date. -/
theorem pollIface (h : IpInv mac s) (taps : List L2Tap) (i : IfaceId) (net : IfaceCtx.NetPoll S)
    (ev : Option DhcpEvent) : IpInv mac (pollIface taps i net ev s) ∧
      ∃ ctx v4, (EspSmoltcp.pollIface taps i net ev s).iface.smoltcpHandle = some ctx ∧
        AddrInv mac v4 ctx ∧ (EspSmoltcp.pollIface taps i net ev s).iface.ipUp = ctx.hasIp := by
  obtain ⟨ctx, v4, hctx, hinv⟩ := h.core
  obtain ⟨v4', hinv'⟩ := (hinv.drainRx taps i s.iface.rxQueue).poll net ev
  set ctx' := (drainRx taps i s.iface.rxQueue ctx).2.poll net ev with hctx'
  have hhandle : (s.iface.smoltcpHandle.map fun ctx =>
      (drainRx taps i s.iface.rxQueue ctx).2.poll net ev) = some ctx' := by
    rw [hctx]
    rfl
  simp only [EspSmoltcp.pollIface, hhandle, Option.map_some, Option.getD_some]
  split_ifs with hne
  · refine ⟨⟨⟨ctx', v4', rfl, hinv'⟩, rfl, h.events.tell h.last h.none hne, fun e he => ?_, ?_⟩,
      ctx', v4', rfl, hinv', rfl⟩
    · rw [List.getLast?_concat] at he
      exact (Option.some.inj he).symm
    · intro hnil
      exact absurd hnil (List.append_ne_nil_of_right_ne_nil _ (List.cons_ne_nil _ _))
  · have hsame : ctx'.hasIp = s.iface.ipUp := not_not.mp hne
    refine ⟨⟨⟨ctx', v4', rfl, hinv'⟩, ?_, h.events, ?_, ?_⟩, ctx', v4', rfl, hinv', rfl⟩
    · rw [hsame]
      exact h.bit
    · rw [hsame]
      exact h.last
    · rw [hsame]
      exact h.none

/-- **Every operation keeps the invariant.** -/
theorem run (h : IpInv mac s) (i : IfaceId) (op : IpOp S) : IpInv mac (op.run i s) := by
  rcases op with op | ⟨taps, net, ev⟩
  · obtain ⟨ctx, v4, hctx, hinv⟩ := h.core
    obtain ⟨v4', hinv'⟩ := hinv.run op
    refine ⟨⟨op.run ctx, v4', ?_, hinv'⟩, h.bit, h.events, h.last, h.none⟩
    rw [IpOp.run, hctx]
    rfl
  · exact (h.pollIface taps i net ev).1

theorem foldl (h : IpInv mac s) (i : IfaceId) (ops : List (IpOp S)) :
    IpInv mac (ops.foldl (fun s op => op.run i s) s) := by
  induction ops generalizing s with
  | nil => exact h
  | cons op ops ih => exact ih (h.run i op)

end IpInv

/-- What the invariant of a context says of its copies. -/
theorem AddrInv.ipCoherent {mac : Fin 6 → UInt8} {v4 : Option Ipv4Cidr} {ctx : IfaceCtx S} {s : IpSys S}
    (h : AddrInv mac v4 ctx) (hs : IpInv mac s) (hup : s.iface.ipUp = ctx.hasIp) :
    IpCoherent mac s ctx := by
  have hmem : ∀ c, .ipv4 c ∈ ctx.iface.ipAddrs ↔ v4 = some c := by
    intro c
    rw [h.addrs, addrList]
    rcases v4 with _ | c'
    · simp
    · simp [eq_comm]
  refine ⟨?_, ?_, ?_, fun c hc => ?_, fun hno => ?_, hup, hs.bit.trans hup, hs.events⟩
  · rw [h.addrs]
    rcases v4 with _ | c
    · exact Nat.zero_le 1
    · exact le_rfl
  · rw [h.addrs]
    exact List.mem_cons_self
  · simp only [hmem, h.hasIp, Option.isSome_iff_exists]
  · obtain rfl := (hmem c).mp hc
    rw [h.netmask]
    exact toLeBytes_netmask (h.prefixLen_le c rfl)
  · rcases v4 with _ | c
    · exact h.netmask
    · exact absurd ((hmem c).mpr rfl) (hno c)

/-- **After every `poll_iface` of every run the five copies agree, and the application has been told of each
change in turn.** -/
theorem ipCoherent_pollIface (i : IfaceId) (mac : Fin 6 → UInt8) (rxQueue : List NetFrame)
    (ops : List (IpOp S)) (taps : List L2Tap) (net : IfaceCtx.NetPoll S) (ev : Option DhcpEvent) :
    ∃ ctx, (pollIface taps i net ev
        (ops.foldl (fun s op => op.run i s) (.attached i mac rxQueue))).iface.smoltcpHandle = some ctx ∧
      IpCoherent mac (pollIface taps i net ev
        (ops.foldl (fun s op => op.run i s) (.attached i mac rxQueue))) ctx := by
  have hrun := (IpInv.attached (S := S) i mac rxQueue).foldl i ops
  obtain ⟨hinv, ctx, v4, hctx, haddr, hup⟩ := hrun.pollIface taps i net ev
  exact ⟨ctx, hctx, haddr.ipCoherent hinv hup⟩

end EspSmoltcp
