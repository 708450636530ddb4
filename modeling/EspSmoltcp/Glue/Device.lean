import EspSmoltcp.Smoltcp.Api

/-!
# Glue/Device — the `phy::Device` smoltcp polls

`EspDevice` hands smoltcp one received frame at a time out of a one-slot inbox, and writable
transmit buffers out of a static pool shared by all devices.  A buffer leaves the pool with an
`EspTxToken` and comes back when the token is dropped, consumed or not.

`DeviceRun` is what `Interface::poll` does with a device: it pulls frames until `receive` has none,
and takes transmit tokens in between.
-/

namespace EspSmoltcp

/-! ## The transmit pool -/

/-- `TX_POOL_N`. -/
def txPoolN : ℕ := 16

/-- `TX_FRAME`. -/
def txFrame : ℕ := 1536

/-- `TxPool`: bit `i` of the mask says buffer `i` is free.  The buffers' contents are scratch. -/
structure TxPool where
  freeMask : BitVec 32
  deriving DecidableEq

/-- `TX_POOL` at start-up: every buffer free. -/
def TxPool.init : TxPool := ⟨(1#32 <<< txPoolN) - 1⟩

/-- `u32::trailing_zeros`. -/
def trailingZeros (m : BitVec 32) : ℕ := ((List.range 32).find? fun i => m.getLsbD i).getD 32

/-- `tx_pool_alloc`. -/
def txPoolAlloc (pool : TxPool) : Option (ℕ × TxPool) :=
  if pool.freeMask = 0#32 then none
  else
    let idx := trailingZeros pool.freeMask
    some (idx, ⟨pool.freeMask &&& ~~~(1#32 <<< idx)⟩)

/-- `tx_pool_free`. -/
def txPoolFree (idx : ℕ) (pool : TxPool) : TxPool := ⟨pool.freeMask ||| (1#32 <<< idx)⟩

/-- A nonzero mask has its lowest set bit at `trailingZeros`. -/
theorem getLsbD_trailingZeros {m : BitVec 32} (h : m ≠ 0#32) :
    m.getLsbD (trailingZeros m) = true := by
  unfold trailingZeros
  cases hf : (List.range 32).find? fun i => m.getLsbD i with
  | some i => simpa using List.find?_some hf
  | none =>
    refine absurd (BitVec.eq_of_getLsbD_eq fun i hi => ?_) h
    have := List.find?_eq_none.mp hf i (List.mem_range.mpr hi)
    simpa using this

theorem getLsbD_one_shiftLeft (idx : ℕ) {i : ℕ} (hi : i < 32) :
    (1#32 <<< idx).getLsbD i = decide (i = idx) := by
  rw [BitVec.getLsbD_shiftLeft, BitVec.getLsbD_one, Bool.eq_iff_iff]
  simp only [Bool.and_eq_true, decide_eq_true_eq, Bool.not_eq_true', decide_eq_false_iff_not]
  omega

/-- **A buffer that is taken and given back leaves the pool as it was.** -/
theorem txPoolFree_of_txPoolAlloc {pool pool' : TxPool} {idx : ℕ}
    (h : txPoolAlloc pool = some (idx, pool')) : txPoolFree idx pool' = pool := by
  unfold txPoolAlloc at h
  split_ifs at h with h0
  obtain ⟨rfl, rfl⟩ := Prod.mk.inj (Option.some.inj h)
  have hbit := getLsbD_trailingZeros h0
  refine congrArg TxPool.mk (BitVec.eq_of_getLsbD_eq fun i hi => ?_)
  rw [BitVec.getLsbD_or, BitVec.getLsbD_and, BitVec.getLsbD_not, getLsbD_one_shiftLeft _ hi]
  rcases eq_or_ne i (trailingZeros pool.freeMask) with rfl | hne
  · simp [hbit]
  · simp [hne, hi]

theorem txPoolAlloc_isSome {pool : TxPool} (h : pool.freeMask ≠ 0#32) :
    (txPoolAlloc pool).isSome = true := by
  simp [txPoolAlloc, h]

/-! ## The device -/

/-- A frame as bytes. -/
abbrev Bytes := List UInt8

/-- `EspDevice`. -/
structure EspDevice where
  ifaceId : ℕ
  rxInbox : Option Bytes := none
  linkUp : Bool := false
  deriving DecidableEq

/-- `EspTxToken`: the buffer it holds until it is dropped. -/
structure EspTxToken where
  ifaceId : ℕ
  poolIdx : ℕ
  deriving DecidableEq

/-- `Drop for EspTxToken`. -/
def EspTxToken.drop (t : EspTxToken) (pool : TxPool) : TxPool := txPoolFree t.poolIdx pool

namespace EspDevice

/-- `push_rx`: a frame that finds the inbox full is dropped. -/
def pushRx (dev : EspDevice) (frame : Bytes) : EspDevice :=
  match dev.rxInbox with
  | none => { dev with rxInbox := some frame }
  | some _ => dev

/-- `Device::receive`: the inbox is taken before the transmit buffer is. -/
def receive (dev : EspDevice) (pool : TxPool) :
    Option (Bytes × EspTxToken) × EspDevice × TxPool :=
  match dev.rxInbox with
  | none => (none, dev, pool)
  | some frame =>
    let dev := { dev with rxInbox := none }
    match txPoolAlloc pool with
    | none => (none, dev, pool)
    | some (idx, pool) => (some (frame, ⟨dev.ifaceId, idx⟩), dev, pool)

/-- `Device::transmit`. -/
def transmit (dev : EspDevice) (pool : TxPool) : Option EspTxToken × TxPool :=
  if dev.linkUp then
    match txPoolAlloc pool with
    | none => (none, pool)
    | some (idx, pool) => (some ⟨dev.ifaceId, idx⟩, pool)
  else (none, pool)

/-- The inbox keeps the first of the frames pushed into it. -/
theorem rxInbox_foldl_pushRx (frames : List Bytes) (dev : EspDevice) :
    (frames.foldl pushRx dev).rxInbox = dev.rxInbox.or frames.head? := by
  induction frames generalizing dev with
  | nil => simp
  | cons f frames ih =>
    rw [List.foldl_cons, ih]
    cases h : dev.rxInbox <;> simp [pushRx, h]

end EspDevice

/-! ## What `Interface::poll` does with a device -/

/-- `Interface::poll` on a device, handing over the listed frames: it calls `receive` until that
returns `None`, and may take transmit tokens in between.  Every token is dropped before the device
is asked again. -/
inductive DeviceRun : EspDevice → TxPool → List Bytes → EspDevice → TxPool → Prop
  | done {dev dev' : EspDevice} {pool pool' : TxPool} (h : dev.receive pool = (none, dev', pool')) :
      DeviceRun dev pool [] dev' pool'
  | frame {dev dev₁ dev' : EspDevice} {pool pool₁ pool' : TxPool} {rx : Bytes} {tx : EspTxToken}
      {rxs : List Bytes} (h : dev.receive pool = (some (rx, tx), dev₁, pool₁))
      (rest : DeviceRun dev₁ (tx.drop pool₁) rxs dev' pool') :
      DeviceRun dev pool (rx :: rxs) dev' pool'
  | transmit {dev dev' : EspDevice} {pool pool₁ pool' : TxPool} {tx : EspTxToken}
      {rxs : List Bytes} (h : dev.transmit pool = (some tx, pool₁))
      (rest : DeviceRun dev (tx.drop pool₁) rxs dev' pool') :
      DeviceRun dev pool rxs dev' pool'

namespace DeviceRun

variable {dev dev' dev₁ : EspDevice} {pool pool' pool₁ : TxPool} {tx : EspTxToken} {rx : Bytes}

theorem drop_of_transmit (h : dev.transmit pool = (some tx, pool₁)) : tx.drop pool₁ = pool := by
  unfold EspDevice.transmit at h
  split_ifs at h
  · split at h
    · simp at h
    · rename_i idx p hp
      obtain ⟨h1, rfl⟩ := Prod.mk.inj h
      obtain rfl := Option.some.inj h1
      exact txPoolFree_of_txPoolAlloc hp
  · simp at h

/-- What a successful `receive` did: it emptied the inbox and took one buffer. -/
theorem of_receive_some (h : dev.receive pool = (some (rx, tx), dev₁, pool₁)) :
    dev.rxInbox = some rx ∧ dev₁.rxInbox = none ∧ tx.drop pool₁ = pool := by
  unfold EspDevice.receive at h
  split at h
  · simp at h
  · rename_i f hf
    split at h
    · simp at h
    · rename_i idx p hp
      simp only [Prod.mk.injEq, Option.some.injEq] at h
      obtain ⟨⟨rfl, rfl⟩, rfl, rfl⟩ := h
      exact ⟨hf, rfl, txPoolFree_of_txPoolAlloc hp⟩

/-- With a free buffer, `receive` returns `None` only on an empty inbox. -/
theorem of_receive_none (hfree : pool.freeMask ≠ 0#32)
    (h : dev.receive pool = (none, dev', pool')) : dev.rxInbox = none := by
  unfold EspDevice.receive at h
  split at h
  · assumption
  · split at h
    · rename_i _ hp
      exact absurd (txPoolAlloc_isSome hfree) (by simp [hp])
    · simp at h

/-- **A poll with a free buffer hands over exactly what the inbox held.** -/
theorem frames_eq {rxs : List Bytes} (h : DeviceRun dev pool rxs dev' pool')
    (hfree : pool.freeMask ≠ 0#32) : rxs = dev.rxInbox.toList := by
  induction h with
  | done h => simp [of_receive_none hfree h]
  | frame h rest ih =>
    obtain ⟨hin, hout, hpool⟩ := of_receive_some h
    rw [hpool] at ih
    rw [ih hfree, hin, hout]
    rfl
  | transmit h rest ih =>
    rw [drop_of_transmit h] at ih
    exact ih hfree

/-- A poll is always possible: at most one frame is pulled. -/
theorem exists_run (dev : EspDevice) (pool : TxPool) :
    ∃ rxs dev' pool', DeviceRun dev pool rxs dev' pool' := by
  have key : ∀ (d : EspDevice) (p : TxPool), d.rxInbox = none →
      DeviceRun d p [] d p := fun d p hd => .done (by simp [EspDevice.receive, hd])
  cases hr : dev.receive pool with
  | mk r s =>
    obtain ⟨dev₁, pool₁⟩ := s
    cases r with
    | none => exact ⟨[], dev₁, pool₁, .done hr⟩
    | some r =>
      obtain ⟨rx, tx⟩ := r
      exact ⟨[rx], dev₁, _, .frame hr (key _ _ (of_receive_some hr).2.1)⟩

end DeviceRun

end EspSmoltcp
