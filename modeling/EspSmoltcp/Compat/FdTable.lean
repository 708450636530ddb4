import EspSmoltcp.Stack.Sock

/-!
# Compat/FdTable — the fd table and the loopback slots of the shim

The functions of `fd_table.c` and `loopback.c`.  A `fd_entry_t *` is the index of the entry; it stays
usable after the entry was freed, as the pointer does.  Whether the heap could serve a request is an
argument (`heap`) where the source checks it.
-/

namespace EspSmoltcp

variable {S : Smoltcp}

/-! ## Entries -/

namespace World

/-- The entry a `fd_entry_t *` points to. -/
def fdAt (w : World S) (i : ℕ) : FdEntry := w.fds.getD i {}

/-- Update the entry a `fd_entry_t *` points to. -/
def modFd (w : World S) (i : ℕ) (f : FdEntry → FdEntry) : World S := w.setFd i (f (w.fdAt i))

variable {w : World S} {i j : ℕ} (f : FdEntry → FdEntry)

theorem ifaces_modFd : (w.modFd i f).ifaces = w.ifaces := rfl

theorem length_fds_modFd : (w.modFd i f).fds.length = w.fds.length := List.length_set

theorem getElem?_fds (h : i < w.fds.length) : w.fds[i]? = some (w.fdAt i) := by
  simp [fdAt, h]

theorem fdAt_setFd_self (h : i < w.fds.length) (e : FdEntry) : (w.setFd i e).fdAt i = e := by
  simp [fdAt, setFd, h]

theorem fdAt_setFd_ne (h : j ≠ i) (e : FdEntry) : (w.setFd i e).fdAt j = w.fdAt j := by
  simp [fdAt, setFd, List.getElem?_set_ne h.symm]

theorem fdAt_modFd_self (h : i < w.fds.length) : (w.modFd i f).fdAt i = f (w.fdAt i) :=
  fdAt_setFd_self h _

theorem fdAt_modFd_ne (h : j ≠ i) : (w.modFd i f).fdAt j = w.fdAt j := fdAt_setFd_ne h _

theorem modFd_modFd (h : i < w.fds.length) (g : FdEntry → FdEntry) :
    (w.modFd i f).modFd i g = w.modFd i (g ∘ f) := by
  rw [modFd, fdAt_modFd_self f h]
  simp [modFd, setFd]

/-- A store that stores what is there. -/
theorem modFd_eq_self (hi : i < w.fds.length) (h : f (w.fdAt i) = w.fdAt i) : w.modFd i f = w := by
  have hset : w.fds.set i (w.fdAt i) = w.fds := by
    refine List.ext_getElem? fun j => ?_
    rw [List.getElem?_set]
    split_ifs with hij
    · rw [← hij, getElem?_fds hi]
    · rfl
  rw [modFd, h, setFd, hset]

end World

/-- The index an fd stands for, if it is in range. -/
def fdIndex (cfg : Config) (fd : ℤ) : Option ℕ :=
  if 0 ≤ fd - cfg.fdOffset ∧ fd - cfg.fdOffset < cfg.maxFds then some (fd - cfg.fdOffset).toNat
  else none

/-- `fd_get`. -/
def fdGet (cfg : Config) (w : World S) (fd : ℤ) : Option ℕ :=
  (fdIndex cfg fd).filter fun i => (w.fdAt i).kind ≠ .free

theorem fdGet_spec {cfg : Config} {w : World S} {fd : ℤ} {i : ℕ} (h : fdGet cfg w fd = some i) :
    fd = cfg.fdOffset + i ∧ i < cfg.maxFds ∧ (w.fdAt i).kind ≠ .free := by
  obtain ⟨hidx, hk⟩ := Option.filter_eq_some_iff.mp h
  unfold fdIndex at hidx
  split_ifs at hidx with hr
  obtain rfl := Option.some.inj hidx
  exact ⟨by omega, by omega, by simpa using hk⟩

/-- Past the end of the table every entry reads as free. -/
theorem lt_length_of_ne_free {w : World S} {i : ℕ} (h : (w.fdAt i).kind ≠ .free) : i < w.fds.length := by
  by_contra hge
  have hfree : w.fdAt i = {} := by simp [World.fdAt, not_lt.mp hge]
  exact h (by rw [hfree])

theorem lt_length_of_fdGet {cfg : Config} {w : World S} {fd : ℤ} {i : ℕ}
    (h : fdGet cfg w fd = some i) : i < w.fds.length := lt_length_of_ne_free (fdGet_spec h).2.2

/-- An fd stands for its entry as long as that is not free. -/
theorem fdGet_congr {cfg : Config} {w w' : World S} {fd : ℤ} {i : ℕ} (h : fdGet cfg w fd = some i)
    (hk : (w'.fdAt i).kind ≠ .free) : fdGet cfg w' fd = some i :=
  Option.filter_eq_some_iff.mpr ⟨(Option.filter_eq_some_iff.mp h).1, by simpa using hk⟩

theorem fdGet_neg_one (cfg : Config) (w : World S) : fdGet cfg w (-1) = none := by
  have : fdIndex cfg (-1) = none := if_neg (by omega)
  rw [fdGet, this]
  rfl

/-- `fd_is_socket`. -/
def fdIsSocket (cfg : Config) (w : World S) (fd : ℤ) : Bool := (fdGet cfg w fd).isSome

/-- `net_stack_get_ipv4`. -/
def netStackGetIpv4 (i : IfaceId) (w : World S) : UInt32 :=
  if (w.ifaces i).enabled then
    match w.ctx i with
    | some ctx => smoltcpIfaceGetIpv4 ctx
    | none => 0
  else 0

/-- `fd_default_iface`: the preferred interface with an address, else the preferred one. -/
def fdDefaultIface (cfg : Config) (w : World S) : IfaceId :=
  let (first, second) : IfaceId × IfaceId := if cfg.defaultIfaceEth then (.eth, .wifi) else (.wifi, .eth)
  if netStackGetIpv4 first w ≠ 0 then first
  else if netStackGetIpv4 second w ≠ 0 then second
  else first

/-- `fd_alloc`: the fd, or `-1` when the table is full. -/
def fdAlloc (cfg : Config) (kind : FdKind) (w : World S) : ℤ × World S :=
  match w.fds.findIdx? fun e => e.kind = .free with
  | none => (-1, w)
  | some i => (cfg.fdOffset + i, w.setFd i { kind := kind, iface := fdDefaultIface cfg w })

/-! ## Loopback -/

/-- `is_loopback_ip`. -/
def isLoopbackIp (ipBe : UInt32) : Bool := ipBe &&& 0xFF = 127

/-- `LO_QUEUE_DEPTH`. -/
def loQueueDepth : ℕ := 8

/-- The slot search of `lo_bind`: the slot of the port, else the first free one. -/
def loSlotFor (slots : List LoSlot) (port : UInt16) : Option ℕ :=
  match slots.findIdx? fun s => s.port = port with
  | some k => some k
  | none => slots.findIdx? fun s => s.port = 0

/-- `lo_bind`; the flag and the queue are set before a slot is found. -/
def loBind (heap : Bool) (port : UInt16) (i : ℕ) (w : World S) : EspErr × World S :=
  if port = 0 then (.invalidArg, w)
  else if (w.fdAt i).loRx.isNone ∧ !heap then (.noMem, w)
  else
    let w := w.modFd i fun e => { e with loRx := some (e.loRx.getD []), loopback := true }
    match loSlotFor w.loSlots port with
    | none => (.noMem, w)
    | some k => (.ok, { w with loSlots := w.loSlots.set k ⟨port, some i⟩ })

/-- `lo_unbind`: the slots go and the queue is drained. -/
def loUnbind (port : UInt16) (i : ℕ) (w : World S) : World S :=
  let slots := w.loSlots.map fun s => if s.port = port ∧ s.fd = some i then {} else s
  { w with loSlots := slots }.modFd i fun e => { e with loRx := e.loRx.map fun _ => [] }

/-- `lo_deliver`; a target without a queue and a full queue refuse. -/
def loDeliver (heap : Bool) (dstPort : UInt16) (srcBe : UInt32) (srcPort : UInt16) (data : Bytes)
    (w : World S) : Int × World S :=
  if 65535 < data.length then (-1, w)
  else match (w.loSlots.find? fun s => s.port = dstPort).bind LoSlot.fd with
    | none => (-1, w)
    | some i =>
      match (w.fdAt i).loRx with
      | none => (-1, w)
      | some q =>
        if heap ∧ q.length < loQueueDepth then
          (data.length, w.modFd i fun e => { e with loRx := some (q ++ [⟨srcBe, srcPort, data⟩]) })
        else (-1, w)

/-! ## Freeing -/

/-- `net_udp_close` or `net_tcp_close`, by the kind of the entry, unless the handle is invalid. -/
def closeOwned (kind : FdKind) (s : NetSock) (w : World S) : World S :=
  if s.valid then
    if kind = .udp then (netUdpClose s w).2 else (netTcpClose s w).2
  else w

/-- The pool loop of `fd_free`. -/
def closePool (pool : List NetSock) (w : World S) : World S :=
  pool.foldl (fun w s => if s.valid then (netTcpClose s w).2 else w) w

/-- `fd_free`. -/
def fdFree (cfg : Config) (fd : ℤ) (w : World S) : World S :=
  match fdGet cfg w fd with
  | none => w
  | some i =>
    let e := w.fdAt i
    let w := if e.loopback then
      (loUnbind e.localPort i w).modFd i fun e => { e with loRx := none, loopback := false } else w
    let w := closeOwned e.kind e.sock w
    let w := closePool e.pool w
    w.modFd i fun e => { e with kind := .free }

end EspSmoltcp
