import EspSmoltcp.Compat.LoFifo
import EspSmoltcp.Stack.Handles

/-!
# Compat/OwnAddress — the address a UDP fd goes by

`local_ipv4_be` and `local_port` of an entry are written by `bind` as the fd's own address and by `connect`
as the address of its peer.  `getsockname` reads them as the former, and so does `sendto` when it puts the
source on a loopback datagram.

So the fd goes by whatever was stored last: `keepsAddress_iff`.
-/

namespace EspSmoltcp

variable {S : Smoltcp}

/-! ## What is on record -/

/-- The fd is a UDP fd with this address on record. -/
structure Records (cfg : Config) (fd : ℤ) (i : ℕ) (last : SockAddrIn) (w : World S) : Prop where
  entry : fdGet cfg w fd = some i
  kind : (w.fdAt i).kind = .udp
  addr : (w.fdAt i).localIpv4Be = last.addrBe
  port : (w.fdAt i).localPort = last.port

/-- The others leave the entry its kind and its address. -/
structure SameAddress (i : ℕ) (w w' : World S) : Prop where
  kind : (w'.fdAt i).kind = (w.fdAt i).kind
  addr : (w'.fdAt i).localIpv4Be = (w.fdAt i).localIpv4Be
  port : (w'.fdAt i).localPort = (w.fdAt i).localPort

/-- A successful `bind` of a UDP fd and `connect` calls after it; others act in between.  `last` is the address
the latest successful call named. -/
inductive OwnRun (cfg : Config) (fd : ℤ) (i : ℕ) (addr : SockAddrIn) : SockAddrIn → World S → Prop
  | bind {w : World S} {heap : Bool} {alen : ℕ} (hfd : fdGet cfg w fd = some i)
      (hk : (w.fdAt i).kind = .udp) (hret : (wrapLwipBind cfg heap fd addr alen w).1.ret = 0) :
      OwnRun cfg fd i addr addr (wrapLwipBind cfg heap fd addr alen w).2
  | connect {last peer : SockAddrIn} {w : World S} {alen : ℕ} {rand : UInt32}
      {sched : List (Moment (World S))} {r : Ret} {sys : Sys (World S) (Event S)}
      (h : OwnRun cfg fd i addr last w)
      (hcall : (wrapLwipConnect cfg fd peer alen rand).run w sched = (some r, sys)) :
      OwnRun cfg fd i addr (if r.ret = 0 then peer else last) sys.world
  | others {last : SockAddrIn} {w w' : World S} (h : OwnRun cfg fd i addr last w) (hs : SameAddress i w w') :
      OwnRun cfg fd i addr last w'

section Runs

variable {cfg : Config} {fd : ℤ} {i : ℕ} {addr last : SockAddrIn} {w w' : World S}

namespace Records

theorem same (h : Records cfg fd i last w) (hs : SameAddress i w w') : Records cfg fd i last w' where
  entry := fdGet_congr h.entry (by rw [hs.kind, h.kind]; exact FdKind.noConfusion)
  kind := hs.kind.trans h.kind
  addr := hs.addr.trans h.addr
  port := hs.port.trans h.port

theorem of_fdAt {w' : World S} (hfd : fdGet cfg w fd = some i) (hk : (w'.fdAt i).kind = .udp)
    (haddr : (w'.fdAt i).localIpv4Be = last.addrBe) (hport : (w'.fdAt i).localPort = last.port) :
    Records cfg fd i last w' :=
  ⟨fdGet_congr hfd (by rw [hk]; exact FdKind.noConfusion), hk, haddr, hport⟩

/-- `lo_bind` sets the flag and the queue. -/
theorem loBind (h : Records cfg fd i last w) (heap : Bool) (port : UInt16) :
    Records cfg fd i last (loBind heap port i w).2 := by
  have hstore : Records cfg fd i last (w.modFd i FdEntry.loBound) := by
    have hat := World.fdAt_modFd_self FdEntry.loBound (lt_length_of_fdGet h.entry)
    exact of_fdAt h.entry (hat ▸ h.kind) (hat ▸ h.addr) (hat ▸ h.port)
  have hspec := loBind_spec heap port i w
  generalize EspSmoltcp.loBind heap port i w = r at hspec ⊢
  cases hspec with
  | refused => exact h
  | full hw => exact hw ▸ hstore
  | slot _ _ hw =>
    have h' := hw ▸ hstore
    exact ⟨h'.entry, h'.kind, h'.addr, h'.port⟩

/-- `bind` puts the address it was given on record. -/
theorem of_bind (hfd : fdGet cfg w fd = some i) (hk : (w.fdAt i).kind = .udp) {heap : Bool} {alen : ℕ}
    (hret : (wrapLwipBind cfg heap fd addr alen w).1.ret = 0) :
    Records cfg fd i addr (wrapLwipBind cfg heap fd addr alen w).2 := by
  have hspec := wrapLwipBind_spec cfg heap fd addr alen w
  generalize wrapLwipBind cfg heap fd addr alen w = r at hspec hret ⊢
  cases hspec with
  | refused e => exact absurd hret (Ret.ret_fail_ne_zero _)
  | @stored j w₁ r hj hw hr =>
    obtain rfl := Option.some.inj (hfd.symm.trans hj)
    have hi := lt_length_of_fdGet hfd
    have hat : w₁.fdAt i = (w.fdAt i).bound addr := hw ▸ World.fdAt_modFd_self _ hi
    have h₁ : Records cfg fd i addr w₁ :=
      of_fdAt hfd (by rw [hat]; exact hk) (by rw [hat]; rfl) (by rw [hat]; rfl)
    cases hr with
    | stream => exact h₁
    | loopback _ _ ho => exact ho ▸ h₁.loBind heap addr.port
    | @reopened _ _ w₂ o hclose ho =>
      have hfds : o.2.fds = w₁.fds := by
        rw [← ho, (SameShim.netUdpOpen _ _ _).fds, ← hclose]
        split_ifs
        · exact (SameShim.netUdpClose _ _).fds
        · rfl
      have hlt : i < o.2.fds.length := hfds ▸ lt_length_of_fdGet h₁.entry
      have hentry : o.2.fdAt i = w₁.fdAt i := by rw [World.fdAt, hfds, ← World.fdAt]
      have hat₂ := World.fdAt_modFd_self (fun e => { e with sock := o.1 }) hlt
      refine of_fdAt h₁.entry ?_ ?_ ?_
      · rw [hat₂, hentry, h₁.kind]
      · rw [hat₂, hentry, h₁.addr]
      · rw [hat₂, hentry, h₁.port]

/-- `connect` puts the peer on record, unless it refuses the address. -/
theorem connect (h : Records cfg fd i last w) {peer : SockAddrIn} {alen : ℕ} {rand : UInt32}
    {sched : List (Moment (World S))} {r : Ret} {sys : Sys (World S) (Event S)}
    (hcall : (wrapLwipConnect cfg fd peer alen rand).run w sched = (some r, sys)) :
    Records cfg fd i (if r.ret = 0 then peer else last) sys.world := by
  rw [Code.run, wrapLwipConnect, Thread.world_bind_apply] at hcall
  simp only [h.entry] at hcall
  by_cases hbad : alen < sizeofSockAddrIn
  · rw [if_pos hbad] at hcall
    obtain ⟨hr, rfl⟩ := Prod.mk.inj hcall
    obtain rfl := Option.some.inj hr
    rw [if_neg (Ret.ret_fail_ne_zero _)]
    exact h
  · rw [if_neg hbad, Thread.world_bind_apply] at hcall
    simp only [h.kind] at hcall
    obtain ⟨hr, rfl⟩ := Prod.mk.inj hcall
    obtain rfl := Option.some.inj hr
    have hat := World.fdAt_modFd_self (fun e =>
      { e with localIpv4Be := peer.addrBe, localPort := peer.port, connected := true })
      (lt_length_of_fdGet h.entry)
    rw [if_pos rfl]
    exact of_fdAt h.entry (by rw [hat, h.kind]) (by rw [hat]) (by rw [hat])

end Records

/-- **The address on record is that of the latest call.** -/
theorem OwnRun.records (h : OwnRun cfg fd i addr last w) : Records cfg fd i last w := by
  induction h with
  | bind hfd hk hret => exact Records.of_bind hfd hk hret
  | connect _ hcall ih => exact ih.connect hcall
  | others _ hs ih => exact ih.same hs

end Runs

/-! ## What others get to see -/

/-- A datagram sent from the fd over the loopback and received: `sendto` to the port of a registered fd takes
it, and in the period from there `recv` is the call that receives it, after those that receive what was
pending. -/
structure LoDelivery (cfg : Config) (fd : ℤ) (w : World S) where
  call : SendtoCall
  receiver : ℤ
  index : ℕ
  port : UInt16
  pending : Fifo LoMsg loQueueDepth
  acc : List LoMsg
  rcv : List LoRecv
  recv : LoRecv
  world : World S
  onFd : call.fd = fd
  meets : call.Over port
  registered : Registered cfg receiver index port pending w
  sent : 0 ≤ (call.run cfg w).1.ret
  period : LoPeriod cfg receiver index port (call.run cfg w).2 acc rcv world
  turn : (rcv.filter fun c => c.took.isSome)[pending.items.length]? = some recv
  nonempty : call.buf ≠ []
  room : recv.len ≠ 0

/-- The fd goes by the address it was bound to: `getsockname` reports its port, and the receivers of its
loopback datagrams get it as the source. -/
structure KeepsAddress (cfg : Config) (fd : ℤ) (addr : SockAddrIn) (w : World S) : Prop where
  name : ∀ alen, sizeofSockAddrIn ≤ alen →
    ∃ ip, wrapLwipGetsockname cfg fd (some alen) w = (⟨0, none⟩, some ⟨2, ip, addr.port⟩)
  source : ∀ d : LoDelivery cfg fd w, d.recv.ret.2.2 = some (addr.addrBe, addr.port)

section Views

variable {cfg : Config} {fd : ℤ} {i : ℕ} {addr last : SockAddrIn} {w : World S}

/-- The calls that took something, in the order of what they took. -/
theorem getElem?_took {rcv : List LoRecv} {k : ℕ} {c : LoRecv} {m : LoMsg}
    (hc : (rcv.filter fun c => c.took.isSome)[k]? = some c)
    (hm : (rcv.filterMap LoRecv.took)[k]? = some m) : c ∈ rcv ∧ c.took = some m := by
  induction rcv generalizing k with
  | nil => cases hc
  | cons d rcv ih =>
    rcases hd : d.took with _ | m'
    · rw [List.filter_cons_of_neg (by simp [hd])] at hc
      rw [List.filterMap_cons_none hd] at hm
      obtain ⟨hmem, htook⟩ := ih hc hm
      exact ⟨List.mem_cons_of_mem d hmem, htook⟩
    · rw [List.filter_cons_of_pos (by simp [hd])] at hc
      rw [List.filterMap_cons_some hd] at hm
      rcases k with _ | k
      · obtain rfl := Option.some.inj hc
        obtain rfl := Option.some.inj hm
        exact ⟨List.mem_cons_self, hd⟩
      · obtain ⟨hmem, htook⟩ := ih hc hm
        exact ⟨List.mem_cons_of_mem d hmem, htook⟩

/-- The receiver is told what the sender has on record. -/
theorem LoDelivery.source (h : Records cfg fd i last w) (d : LoDelivery cfg fd w) :
    d.recv.ret.2.2 = some (last.addrBe, last.port) := by
  have houtcome := d.registered.sendto d.meets
  have hsent := d.sent
  have hperiod := d.period
  generalize d.call.run cfg w = r at houtcome hsent hperiod
  cases houtcome with
  | refused => exact absurd hsent (by simp)
  | @taken j q' w' hyes hj hsend hreg =>
    obtain rfl : i = j := Option.some.inj (h.entry.symm.trans (d.onFd ▸ hj))
    obtain ⟨q, -, hrun⟩ := hperiod.simulates hreg
    -- What is received is what was pending, this datagram and what was sent after it, in this order.
    have horder := hrun.conserves
    rw [Fifo.items_send hsend] at horder
    have hlt : d.pending.items.length < (d.rcv.filterMap LoRecv.took).length := by
      obtain ⟨hlt, -⟩ := List.getElem?_eq_some_iff.mp d.turn
      have hlen : (d.rcv.filterMap LoRecv.took).length = (d.rcv.filter fun c => c.took.isSome).length := by
        rw [List.length_filterMap_eq_countP, List.countP_eq_length_filter]
      omega
    have hmsg : (d.rcv.filterMap LoRecv.took)[d.pending.items.length]?
        = some ⟨(w.fdAt i).localIpv4Be, (w.fdAt i).localPort, d.call.buf⟩ := by
      rw [← List.getElem?_append_left hlt, ← horder, List.append_assoc, List.getElem?_append_right le_rfl]
      simp
    obtain ⟨hmem, htook⟩ := getElem?_took d.turn hmsg
    obtain ⟨b, hret⟩ := hperiod.ret_eq hreg _ hmem
    have hpos : 0 < min d.call.buf.length d.recv.len :=
      Nat.lt_min.mpr ⟨List.length_pos_iff.mpr d.nonempty, Nat.pos_of_ne_zero d.room⟩
    rw [hret, htook, recvfromRet]
    simp only
    rw [if_pos hpos, h.addr, h.port]

theorem getsockname_of_records (h : Records cfg fd i last w) {alen : ℕ} (hlen : sizeofSockAddrIn ≤ alen) :
    wrapLwipGetsockname cfg fd (some alen) w
      = (⟨0, none⟩, some ⟨2, netStackGetIpv4 (w.fdAt i).iface w, last.port⟩) := by
  unfold wrapLwipGetsockname
  simp only [h.entry]
  rw [if_neg (not_lt.mpr hlen), h.port]

/-- **A UDP fd goes by the address it was bound to exactly if the latest `connect` since, if any, named the
same port, and the same address if a loopback datagram of its is received.** -/
theorem keepsAddress_iff (h : OwnRun cfg fd i addr last w) : KeepsAddress cfg fd addr w ↔
    last.port = addr.port ∧ (Nonempty (LoDelivery cfg fd w) → last.addrBe = addr.addrBe) := by
  have hrec := h.records
  constructor
  · intro hkeeps
    obtain ⟨ip, hname⟩ := hkeeps.name sizeofSockAddrIn le_rfl
    rw [getsockname_of_records hrec le_rfl] at hname
    obtain ⟨-, -, hport⟩ := SockAddrIn.mk.inj (Option.some.inj (congrArg Prod.snd hname))
    refine ⟨hport, fun ⟨d⟩ => ?_⟩
    exact (congrArg Prod.fst (Option.some.inj ((d.source hrec).symm.trans (hkeeps.source d))))
  · rintro ⟨hport, haddr⟩
    refine ⟨fun alen hlen => ⟨_, by rw [getsockname_of_records hrec hlen, hport]⟩, fun d => ?_⟩
    rw [d.source hrec, hport, haddr ⟨d⟩]

end Views

/-! ### A connected fd -/

/-- The fd bound to `127.0.0.1:6000` connects to this address. -/
def connectedTo (ip : UInt32) (port : UInt16) : World .reference :=
  ((wrapLwipConnect .default 49 ⟨2, ip, port⟩ sizeofSockAddrIn 0).run loopbackPair []).2.world

/-- It was bound when the other fd was. -/
theorem ownRun_loopbackPair : OwnRun .default 49 1 ⟨2, 0x0100007F, 6000⟩ ⟨2, 0x0100007F, 6000⟩ loopbackPair :=
  @OwnRun.bind _ .default 49 1 ⟨2, 0x0100007F, 6000⟩ _ true sizeofSockAddrIn rfl rfl rfl

theorem ownRun_connectedTo (ip : UInt32) (port : UInt16) :
    OwnRun .default 49 1 ⟨2, 0x0100007F, 6000⟩ ⟨2, ip, port⟩ (connectedTo ip port) :=
  @OwnRun.connect _ .default 49 1 ⟨2, 0x0100007F, 6000⟩ _ ⟨2, ip, port⟩ loopbackPair sizeofSockAddrIn 0
    [] ⟨0, none⟩ _ ownRun_loopbackPair rfl

/-- A byte it sends to the other fd, and what that receives. -/
def byteDelivery (ip : UInt32) (port : UInt16) : LoDelivery .default 49 (connectedTo ip port) where
  call := toFirst [1]
  receiver := 48
  index := 0
  port := 5000
  pending := .empty
  acc := []
  rcv := [⟨16, (⟨1, none⟩, [1], some (ip, port)), some ⟨ip, port, [1]⟩⟩]
  recv := ⟨16, (⟨1, none⟩, [1], some (ip, port)), some ⟨ip, port, [1]⟩⟩
  world := _
  onFd := rfl
  meets := over_toFirst [1]
  registered := ⟨rfl, rfl, rfl, rfl, rfl⟩
  sent := show (0 : ℤ) ≤ 1 by decide
  period := @LoPeriod.recvfrom _ .default 48 0 5000 ((toFirst [1]).run .default (connectedTo ip port)).2 _ _ _ 16
    [quietTurn] [] _ _ .start over_quietTurn rfl rfl
  turn := rfl
  nonempty := List.cons_ne_nil 1 []
  room := show (16 : ℕ) ≠ 0 by decide

/-- Connected to its own address the fd goes by it, with `getsockname` and with those it sends to. -/
theorem keepsAddress_connectedToItself :
    ((connectedTo 0x0100007F 6000).fdAt 1).connected = true ∧
      (byteDelivery 0x0100007F 6000).recv.ret.2.2 = some (0x0100007F, 6000) ∧
      KeepsAddress .default 49 ⟨2, 0x0100007F, 6000⟩ (connectedTo 0x0100007F 6000) :=
  ⟨rfl, rfl, (keepsAddress_iff (ownRun_connectedTo 0x0100007F 6000)).mpr ⟨rfl, fun _ => rfl⟩⟩

/-- **After a `connect` the fd goes by the address of its peer**, with `getsockname` as with those it sends
to. -/
theorem connect_renames :
    OwnRun .default 49 1 ⟨2, 0x0100007F, 6000⟩ ⟨2, 0x0100000A, 53⟩ (connectedTo 0x0100000A 53) ∧
    (wrapLwipGetsockname .default 49 (some 16) (connectedTo 0x0100000A 53)).2 = some ⟨2, 0, 53⟩ ∧
    (byteDelivery 0x0100000A 53).recv.ret.2.2 = some (0x0100000A, 53) ∧
    ¬ KeepsAddress .default 49 ⟨2, 0x0100007F, 6000⟩ (connectedTo 0x0100000A 53) := by
  refine ⟨ownRun_connectedTo 0x0100000A 53, rfl, rfl, fun h => ?_⟩
  have hsource := h.source (byteDelivery 0x0100000A 53)
  cases hsource

end EspSmoltcp
