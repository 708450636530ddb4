import EspSmoltcp.Glue.Iface
import EspSmoltcp.Machinery.Thread

/-!
# World — the static state of the three components, and how C code runs on it

`World` gathers every static the C sources share: the interface table and tap table of
`esp_smoltcp.c` with the Rust contexts behind them, the transmit pool of `lib.rs`, the fd table of
`fd_table.c` and the loopback slots of `loopback.c`.

Blocking C code is a `Thread` on a `World`: `xTaskGetTickCount` reads the schedule, and a wait lets
the others — the poll task, the network, other tasks — change the world.  What it did is kept in a
log of `Event`s.
-/

namespace EspSmoltcp

/-! ## Configuration -/

/-- The Kconfig and FreeRTOS constants the sources are compiled with. -/
structure Config where
  /-- `CONFIG_LWIP_COMPAT_MAX_FDS`. -/
  maxFds : ℕ
  maxFds_range : 4 ≤ maxFds ∧ maxFds ≤ 64
  /-- `CONFIG_LWIP_COMPAT_LISTENER_POOL`. -/
  listenerPool : ℕ
  listenerPool_range : 1 ≤ listenerPool ∧ listenerPool ≤ 16
  /-- `LWIP_SOCKET_OFFSET`. -/
  fdOffset : ℕ
  /-- `CONFIG_LWIP_COMPAT_DEFAULT_IFACE_ETH`. -/
  defaultIfaceEth : Bool
  /-- `configTICK_RATE_HZ`. -/
  tickRateHz : ℕ
  tickRateHz_pos : 0 < tickRateHz
  /-- `pdMS_TO_TICKS`, FreeRTOS' own, which takes milliseconds of any integer type.  Its product is one of 32 or of
  64 bits, so that only small ones are exact. -/
  pdMsToTicks : ℕ → UInt32
  pdMsToTicks_le : ∀ ms, (pdMsToTicks ms).toNat ≤ ms * tickRateHz / 1000
  pdMsToTicks_eq : ∀ ms, ms * tickRateHz < 2 ^ 32 → (pdMsToTicks ms).toNat = ms * tickRateHz / 1000
  /-- `__real_lwip_close`, lwIP's own, which is left the fds that are not the shim's. -/
  realLwipClose : ℤ → ℤ

/-- The Kconfig defaults, on a 1 kHz tick, with a product of 64 bits; lwIP has no fd open. -/
def Config.default : Config where
  maxFds := 32
  maxFds_range := by decide
  listenerPool := 8
  listenerPool_range := by decide
  fdOffset := 48
  defaultIfaceEth := true
  tickRateHz := 1000
  tickRateHz_pos := by decide
  pdMsToTicks ms := .ofNat (ms * 1000 % 2 ^ 64 / 1000)
  pdMsToTicks_le ms := by
    rw [UInt32.toNat_ofNat']
    exact Nat.le_trans (Nat.mod_le ..) (Nat.div_le_div_right (Nat.mod_le ..))
  pdMsToTicks_eq ms h := by
    rw [UInt32.toNat_ofNat', Nat.mod_eq_of_lt (b := 2 ^ 64) (by omega), Nat.mod_eq_of_lt (by omega)]
  realLwipClose _ := -1

/-- `pdMS_TO_TICKS` of a `uint32_t`. -/
def Config.msToTicks (cfg : Config) (ms : UInt32) : UInt32 := cfg.pdMsToTicks ms.toNat

@[simp] theorem Config.msToTicks_zero (cfg : Config) : cfg.msToTicks 0 = 0 := by
  have hzero := cfg.pdMsToTicks_eq 0 (by simp)
  rw [Nat.zero_mul, Nat.zero_div] at hzero
  exact UInt32.toNat_inj.mp hzero

/-! ## Socket handles -/

/-- `net_iface_id_t` below `NET_IFACE_MAX`. -/
inductive IfaceId
  | eth | wifi
  deriving DecidableEq, Repr

/-- The value of the enumerator. -/
def IfaceId.code : IfaceId → UInt32
  | .eth => 0
  | .wifi => 1

/-- The interface a number names, if it is below `NET_IFACE_MAX`. -/
def IfaceId.ofCode (n : UInt32) : Option IfaceId :=
  if n = 0 then some .eth else if n = 1 then some .wifi else none

@[simp] theorem IfaceId.ofCode_code (i : IfaceId) : ofCode i.code = some i := by cases i <;> rfl

/-- `net_sock_t`. -/
structure NetSock where
  id : UInt32
  deriving DecidableEq, Repr

namespace NetSock

/-- `NET_SOCK_INVALID`. -/
def invalid : NetSock := ⟨0⟩

/-- `net_sock_valid`. -/
def valid (s : NetSock) : Bool := s.id != 0

/-- How `net_tcp_open` and `net_udp_open` build a handle. -/
def encode (iface : IfaceId) (id : UInt32) : NetSock := ⟨iface.code <<< 24 ||| id &&& 0x00FFFFFF⟩

/-- `IFACE(s)`. -/
def iface (s : NetSock) : UInt32 := (s.id >>> 24) &&& 0xFF

/-- `LOCAL(s)`. -/
def localId (s : NetSock) : UInt32 := s.id &&& 0x00FFFFFF

end NetSock

/-! ## `esp_smoltcp.c` -/

/-- `net_frame_t`: `len` bytes and the hardware timestamp. -/
structure NetFrame where
  data : Bytes
  hwTsNs : Int := -1
  deriving DecidableEq

/-- A registered tap callback, by the address of its code. -/
abbrev TapCb := ℕ

/-- `l2_tap_t`: EtherType 0 marks an unused slot, `cb = none` is `NULL`. -/
structure L2Tap where
  ethertype : UInt16 := 0
  cb : Option TapCb := none
  user : ℕ := 0
  deriving DecidableEq

/-- `net_iface_t`. -/
structure NetIface (S : Smoltcp) where
  enabled : Bool := false
  linkUp : Bool := false
  ipUp : Bool := false
  rxQueue : List NetFrame := []
  /-- The Rust context; `none` until it is published. -/
  smoltcpHandle : Option (IfaceCtx S) := none

/-! ## `fd_table.h` and `loopback.h` -/

/-- `fd_kind_t`. -/
inductive FdKind
  | free | tcp | udp | tcpListen
  deriving DecidableEq, Repr

/-- `lo_msg_t`. -/
structure LoMsg where
  srcBe : UInt32
  srcPort : UInt16
  data : Bytes
  deriving DecidableEq

/-- `fd_entry_t`.  `pool` is the listener pool with its length, empty for `NULL`; `loRx` is the
loopback queue, `none` for `NULL`. -/
structure FdEntry where
  kind : FdKind := .free
  nonblocking : Bool := false
  connected : Bool := false
  loopback : Bool := false
  loRx : Option (List LoMsg) := none
  rcvTimeoutMs : UInt32 := 0
  sndTimeoutMs : UInt32 := 0
  sock : NetSock := .invalid
  pool : List NetSock := []
  poolNext : ℕ := 0
  port : UInt16 := 0
  localIpv4Be : UInt32 := 0
  localPort : UInt16 := 0
  iface : IfaceId := .eth
  deriving DecidableEq

/-- `lo_slot_t`: port 0 marks a free slot; the fd entry is named by its index. -/
structure LoSlot where
  port : UInt16 := 0
  fd : Option ℕ := none
  deriving DecidableEq

/-! ## The world -/

/-- Everything static in the three components; four tap slots and four loopback slots. -/
structure World (S : Smoltcp) where
  ifaces : IfaceId → NetIface S := fun _ => {}
  txPool : TxPool := .init
  taps : List L2Tap := List.replicate 4 {}
  fds : List FdEntry
  loSlots : List LoSlot := List.replicate 4 {}

variable {S : Smoltcp} {α : Type}

namespace World

/-- The Rust context of an interface. -/
def ctx (w : World S) (i : IfaceId) : Option (IfaceCtx S) := (w.ifaces i).smoltcpHandle

/-- Store the Rust context of an interface. -/
def setCtx (w : World S) (i : IfaceId) (ctx : IfaceCtx S) : World S :=
  { w with ifaces := Function.update w.ifaces i { w.ifaces i with smoltcpHandle := some ctx } }

/-- A call into the Rust core under `g_smoltcp_lock`; a null handle returns `err`. -/
def ffi (w : World S) (i : IfaceId) (err : α) (f : IfaceCtx S → α × IfaceCtx S) : α × World S :=
  match w.ctx i with
  | none => (err, w)
  | some ctx => ((f ctx).1, w.setCtx i (f ctx).2)

/-- The statics before any interface is attached: the C initialisers. -/
def boot (cfg : Config) : World S := { fds := List.replicate cfg.maxFds {} }

/-- What attaching an interface leaves behind: it is enabled and its context is published. -/
def attach (w : World S) (i : IfaceId) (mac : Fin 6 → UInt8) : World S :=
  { w with
    ifaces := Function.update w.ifaces i
      { w.ifaces i with enabled := true, smoltcpHandle := some (.new i.code.toNat mac) } }

/-- Update one fd entry in place. -/
def setFd (w : World S) (i : ℕ) (e : FdEntry) : World S := { w with fds := w.fds.set i e }

@[simp] theorem fds_setCtx (w : World S) (i : IfaceId) (ctx : IfaceCtx S) :
    (w.setCtx i ctx).fds = w.fds := rfl

@[simp] theorem ctx_setCtx_self (w : World S) (i : IfaceId) (ctx : IfaceCtx S) :
    (w.setCtx i ctx).ctx i = some ctx := by simp [World.ctx, setCtx]

theorem ctx_setCtx_ne (w : World S) {i j : IfaceId} (h : j ≠ i) (ctx : IfaceCtx S) :
    (w.setCtx i ctx).ctx j = w.ctx j := by simp [World.ctx, setCtx, Function.update_of_ne h]

@[simp] theorem enabled_setCtx (w : World S) (i j : IfaceId) (ctx : IfaceCtx S) :
    ((w.setCtx i ctx).ifaces j).enabled = (w.ifaces j).enabled := by
  by_cases h : j = i
  · subst h; simp [setCtx]
  · simp [setCtx, Function.update_of_ne h]

@[simp] theorem ctx_setFd (w : World S) (i : ℕ) (e : FdEntry) (j : IfaceId) :
    (w.setFd i e).ctx j = w.ctx j := rfl

@[simp] theorem ifaces_setFd (w : World S) (i : ℕ) (e : FdEntry) :
    (w.setFd i e).ifaces = w.ifaces := rfl

@[simp] theorem fds_setFd (w : World S) (i : ℕ) (e : FdEntry) :
    (w.setFd i e).fds = w.fds.set i e := rfl

end World

/-! ## Running C code -/

/-- Which call a step makes, where that matters. -/
inductive Call
  /-- `smoltcp_udp_recvfrom` for a handle. -/
  | udpRecv (s : NetSock)
  | other
  deriving DecidableEq

/-- What a thread of C code is observed to do. -/
inductive Event (S : Smoltcp)
  /-- A step on the shared world, with the world before and after it. -/
  | step (call : Call) (before after : World S)
  /-- An answer of `fd_readable` for an entry of the fd table, with the world it was asked in. -/
  | readable (i : ℕ) (before : World S) (answer : Bool)
  /-- `vTaskDelay`, `net_stack_wait_progress` or a blocking queue receive. -/
  | wait

/-- C code on a world. -/
abbrev Code (S : Smoltcp) := Thread (World S) (Event S)

/-- `xTaskGetTickCount`. -/
def xTaskGetTickCount : Code S UInt32 := Thread.elapse

/-- A wait: the others run, and time passes. -/
def blockingWait : Code S Unit := do
  Thread.emit .wait
  discard Thread.elapse

/-- One step on the shared world: a function that does not block, such as a call into the Rust core
under the lock. -/
def atomically (f : World S → α × World S) (call : Call := .other) : Code S α := do
  let w ← Thread.world
  Thread.emit (.step call w (f w).2)
  Thread.act f

section Running

variable {β : Type} (w : World S) (m : Moment (World S)) (ms : List (Moment (World S)))
  (l : List (Event S))

@[simp] theorem xTaskGetTickCount_bind_cons (f : UInt32 → Code S β) :
    (xTaskGetTickCount >>= f) ⟨w, m :: ms, l⟩ = f m.now ⟨m.env w, ms, l⟩ := rfl

@[simp] theorem xTaskGetTickCount_bind_nil (f : UInt32 → Code S β) :
    (xTaskGetTickCount >>= f) ⟨w, [], l⟩ = (none, ⟨w, [], l⟩) := rfl

@[simp] theorem blockingWait_bind_cons (f : Unit → Code S β) :
    (blockingWait >>= f) ⟨w, m :: ms, l⟩ = f () ⟨m.env w, ms, .wait :: l⟩ := rfl

@[simp] theorem blockingWait_bind_nil (f : Unit → Code S β) :
    (blockingWait >>= f) ⟨w, [], l⟩ = (none, ⟨w, [], .wait :: l⟩) := rfl

@[simp] theorem atomically_bind_apply (g : World S → α × World S) (call : Call)
    (f : α → Code S β) : (atomically g call >>= f) ⟨w, ms, l⟩
      = f (g w).1 ⟨(g w).2, ms, .step call w (g w).2 :: l⟩ := rfl

end Running

section Logging

variable {ok : Event S → Prop}

theorem logs_xTaskGetTickCount : Thread.Logs ok (xTaskGetTickCount : Code S UInt32) :=
  Thread.Logs.elapse

theorem logs_blockingWait (h : ok .wait) : Thread.Logs ok (blockingWait : Code S Unit) :=
  (Thread.Logs.emit h).bind fun _ => Thread.Logs.elapse.bind fun _ => Thread.Logs.pure _

/-- A step does what it does in every world. -/
theorem logs_atomically {f : World S → α × World S} {call : Call}
    (h : ∀ w, ok (.step call w (f w).2)) : Thread.Logs ok (atomically f call) := by
  rintro ⟨w, sched, l⟩ hs e he
  obtain rfl | he := List.mem_cons.mp he
  · exact h w
  · exact hs e he

end Logging

section Interference

open Thread (Along Stable Triple)

variable {rely : (World S → World S) → Prop} {J : World S → Prop} {E : Sys (World S) (Event S) → Prop}

theorem along_xTaskGetTickCount (h : Stable rely J) (hE : ∀ s, Along rely J s → E s) :
    Triple (Along rely J) xTaskGetTickCount (fun _ => Along rely J) E := Along.elapse h hE

theorem along_blockingWait (h : Stable rely J) (hE : ∀ s, Along rely J s → E s) :
    Triple (Along rely J) blockingWait (fun _ => Along rely J) E := by
  refine Triple.bind (Along.emit Event.wait) fun _ => ?_
  exact Triple.bind (R := fun _ => Along rely J) (Along.elapse h hE) fun _ =>
    Triple.pure () fun _ hs => hs

theorem along_atomically {f : World S → α × World S} {call : Call} {K : α → World S → Prop}
    (h : ∀ w, J w → K (f w).1 (f w).2) :
    Triple (Along rely J) (atomically f call) (fun a => Along rely (K a)) E := by
  refine Triple.bind Along.world fun w => ?_
  exact Triple.bind (Along.emit (Event.step call w (f w).2)) fun _ => Along.act fun w' hw' => h w' hw'.1

end Interference

/-- A moment at which nobody else does anything. -/
def idle (now : UInt32) : Moment (World S) := ⟨now, id⟩

/-- Run code on a world and a schedule. -/
def Code.run (c : Code S α) (w : World S) (sched : List (Moment (World S))) :
    Option α × Sys (World S) (Event S) := c ⟨w, sched, []⟩

end EspSmoltcp
