import EspSmoltcp.Glue.Device
import Mathlib.Data.List.Perm.Basic
import Mathlib.Data.List.Perm.Lattice
import Mathlib.Data.List.Range
import Mathlib.Logic.Function.Basic

/-!
# Glue/TxTokens — transmit tokens held for any time

Any number of devices share the pool, tokens are held as long as the holder likes and are consumed or dropped in
any order.

* **Every buffer is free or with one token** (`txTokens_of_run`): the free buffers and those of the live tokens
  are the sixteen of the pool, and a live token gives its own back (`freed_of_run`).
* **A frame stays in the inbox until it is handed over** if whoever calls `receive` finds the inbox empty or a
  buffer free (`framesStay_iff`), and only then: `receive` takes the frame before it asks for a buffer.
-/

namespace EspSmoltcp

/-! ## The free buffers -/

namespace TxPool

/-- The buffers the mask says are free. -/
def freeList (pool : TxPool) : List ℕ := (List.range 32).filter fun i => pool.freeMask.getLsbD i

variable {pool pool' : TxPool} {i idx : ℕ}

theorem mem_freeList : i ∈ pool.freeList ↔ pool.freeMask.getLsbD i = true := by
  rw [freeList, List.mem_filter, List.mem_range]
  refine and_iff_right_of_imp fun hbit => ?_
  by_contra hge
  rw [BitVec.getLsbD_of_ge _ _ (Nat.not_lt.mp hge)] at hbit
  cases hbit

theorem nodup_freeList (pool : TxPool) : pool.freeList.Nodup := List.nodup_range.filter _

theorem freeList_init : TxPool.init.freeList = List.range txPoolN := by decide

/-- Pools with the same free buffers are the same. -/
theorem ext_freeList (h : pool.freeList.Perm pool'.freeList) : pool = pool' := by
  obtain ⟨m⟩ := pool
  obtain ⟨m'⟩ := pool'
  refine congrArg TxPool.mk (BitVec.eq_of_getLsbD_eq fun i _ => ?_)
  rw [Bool.eq_iff_iff]
  exact mem_freeList.symm.trans (h.mem_iff.trans mem_freeList)

theorem txPoolAlloc_eq_none_iff : txPoolAlloc pool = none ↔ pool.freeList = [] := by
  constructor
  · intro h
    have hzero : pool.freeMask = 0#32 := by
      by_contra hne
      rw [← Option.not_isSome_iff_eq_none] at h
      exact h (txPoolAlloc_isSome hne)
    refine List.eq_nil_iff_forall_not_mem.mpr fun i hi => ?_
    rw [mem_freeList, hzero, BitVec.getLsbD_zero] at hi
    cases hi
  · intro h
    have hzero : pool.freeMask = 0#32 := by
      by_contra hne
      have hmem := mem_freeList.mpr (getLsbD_trailingZeros hne)
      rw [h] at hmem
      cases hmem
    rw [txPoolAlloc, if_pos hzero]

/-- Giving a buffer back puts it among the free ones. -/
theorem freeList_txPoolFree (hidx : idx < 32) (hnot : idx ∉ pool.freeList) :
    (txPoolFree idx pool).freeList.Perm (idx :: pool.freeList) := by
  refine (List.perm_ext_iff_of_nodup (nodup_freeList _)
    (List.nodup_cons.mpr ⟨hnot, nodup_freeList _⟩)).mpr fun i => ?_
  rw [List.mem_cons, mem_freeList, mem_freeList, txPoolFree, BitVec.getLsbD_or, Bool.or_eq_true, or_comm]
  by_cases hi : i < 32
  · rw [getLsbD_one_shiftLeft _ hi, decide_eq_true_iff]
  · have hge := Nat.not_lt.mp hi
    rw [BitVec.getLsbD_of_ge _ _ hge, BitVec.getLsbD_of_ge _ _ hge]
    refine iff_of_false (by simp) ?_
    rintro (rfl | h)
    · exact hi hidx
    · cases h

/-- A buffer that is taken was free, and is not any more. -/
theorem freeList_of_txPoolAlloc (h : txPoolAlloc pool = some (idx, pool')) :
    pool.freeList.Perm (idx :: pool'.freeList) := by
  have hback := txPoolFree_of_txPoolAlloc h
  unfold txPoolAlloc at h
  split_ifs at h with hne
  obtain ⟨rfl, rfl⟩ := Prod.mk.inj (Option.some.inj h)
  have hlt : trailingZeros pool.freeMask < 32 :=
    Nat.lt_of_not_le fun hge => by
      have hbit := getLsbD_trailingZeros hne
      rw [BitVec.getLsbD_of_ge _ _ hge] at hbit
      cases hbit
  have hnot : trailingZeros pool.freeMask
      ∉ TxPool.freeList ⟨pool.freeMask &&& ~~~(1#32 <<< trailingZeros pool.freeMask)⟩ := by
    rw [mem_freeList, BitVec.getLsbD_and, BitVec.getLsbD_not, getLsbD_one_shiftLeft _ hlt]
    simp
  have hperm := freeList_txPoolFree hlt hnot
  rwa [hback] at hperm

end TxPool

/-! ## Devices and tokens -/

/-- `TxToken::consume`: the interface and the frame `smoltcp_glue_tx_cb` gets, before the token is dropped.  A
frame too long for the buffer aborts. -/
def EspTxToken.consume (t : EspTxToken) (frame : Bytes) (pool : TxPool) : Option ((ℕ × Bytes) × TxPool) :=
  if txFrame < frame.length then none else some ((t.ifaceId, frame), t.drop pool)

/-- The pool, the devices that share it and the live tokens; and what each inbox has accepted and handed over,
oldest first. -/
structure TokenSys (D : Type) where
  pool : TxPool
  devs : D → EspDevice
  live : List EspTxToken
  accepted : D → List Bytes
  handed : D → List Bytes

/-- A call; tokens are named by their place among the live ones. -/
inductive TokenAct (D : Type)
  | ifaceRx (d : D) (frame : Bytes)
  | setLinkUp (d : D) (up : Bool)
  | receive (d : D)
  | transmit (d : D)
  | consume (k : ℕ) (frame : Bytes)
  | drop (k : ℕ)

/-- Every inbox has accepted what is in it, and handed nothing over. -/
def TokenSys.start {D : Type} (devs : D → EspDevice) (pool : TxPool) (live : List EspTxToken) : TokenSys D where
  pool := pool
  devs := devs
  live := live
  accepted d := (devs d).rxInbox.toList
  handed _ := []

variable {D : Type} [DecidableEq D]

namespace TokenSys

/-- One call.  There is none on a token that is not live, and no return from one that aborts. -/
def step (s : TokenSys D) : TokenAct D → Option (TokenSys D)
  | .ifaceRx d frame =>
    some { s with
      devs := Function.update s.devs d ((s.devs d).pushRx frame)
      accepted := Function.update s.accepted d
        (s.accepted d ++ if (s.devs d).rxInbox.isNone then [frame] else []) }
  | .setLinkUp d up => some { s with devs := Function.update s.devs d { s.devs d with linkUp := up } }
  | .receive d =>
    match (s.devs d).receive s.pool with
    | (none, dev, pool) => some { s with pool := pool, devs := Function.update s.devs d dev }
    | (some (frame, tx), dev, pool) =>
      some { s with
        pool := pool
        devs := Function.update s.devs d dev
        live := tx :: s.live
        handed := Function.update s.handed d (s.handed d ++ [frame]) }
  | .transmit d =>
    match (s.devs d).transmit s.pool with
    | (none, pool) => some { s with pool := pool }
    | (some tx, pool) => some { s with pool := pool, live := tx :: s.live }
  | .consume k frame => do
    let t ← s.live[k]?
    let (_, pool) ← t.consume frame s.pool
    some { s with pool := pool, live := s.live.eraseIdx k }
  | .drop k => do
    let t ← s.live[k]?
    some { s with pool := t.drop s.pool, live := s.live.eraseIdx k }

/-- Calls in a row. -/
def run : TokenSys D → List (TokenAct D) → Option (TokenSys D)
  | s, [] => some s
  | s, act :: acts => (s.step act).bind fun s' => s'.run acts

/-- This holds before every call of the run. -/
def Throughout (P : TokenSys D → TokenAct D → Prop) : TokenSys D → List (TokenAct D) → Prop
  | _, [] => True
  | s, act :: acts => P s act ∧ ∀ s', s.step act = some s' → s'.Throughout P acts

/-- What every call keeps, a run keeps. -/
theorem keeps_of_run {P : TokenSys D → Prop} (hP : ∀ {s s' act}, P s → s.step act = some s' → P s')
    {s s' : TokenSys D} {acts : List (TokenAct D)} (h : P s) (hrun : s.run acts = some s') : P s' := by
  induction acts generalizing s with
  | nil =>
    obtain rfl := Option.some.inj hrun
    exact h
  | cons act acts ih =>
    obtain ⟨s₁, hstep, hrun⟩ := Option.bind_eq_some_iff.mp hrun
    exact ih (hP h hstep) hrun

end TokenSys

/-- What `receive` can do. -/
inductive ReceiveSpec (dev : EspDevice) (pool : TxPool) : Option (Bytes × EspTxToken) × EspDevice × TxPool → Prop
  | empty (h : dev.rxInbox = none) : ReceiveSpec dev pool (none, dev, pool)
  | dropped {frame : Bytes} (h : dev.rxInbox = some frame) (hfull : txPoolAlloc pool = none) :
      ReceiveSpec dev pool (none, { dev with rxInbox := none }, pool)
  | handed {frame : Bytes} {idx : ℕ} {pool' : TxPool} (h : dev.rxInbox = some frame)
      (halloc : txPoolAlloc pool = some (idx, pool')) :
      ReceiveSpec dev pool (some (frame, ⟨dev.ifaceId, idx⟩), { dev with rxInbox := none }, pool')

/-- What `transmit` can do. -/
inductive TransmitSpec (dev : EspDevice) (pool : TxPool) : Option EspTxToken × TxPool → Prop
  | refused : TransmitSpec dev pool (none, pool)
  | token {idx : ℕ} {pool' : TxPool} (halloc : txPoolAlloc pool = some (idx, pool')) :
      TransmitSpec dev pool (some ⟨dev.ifaceId, idx⟩, pool')

theorem receive_spec (dev : EspDevice) (pool : TxPool) : ReceiveSpec dev pool (dev.receive pool) := by
  rw [EspDevice.receive]
  rcases h : dev.rxInbox with _ | frame
  · exact .empty h
  rcases halloc : txPoolAlloc pool with _ | ⟨idx, pool'⟩
  · exact .dropped h halloc
  · exact .handed h halloc

theorem transmit_spec (dev : EspDevice) (pool : TxPool) : TransmitSpec dev pool (dev.transmit pool) := by
  rw [EspDevice.transmit]
  split_ifs
  · rcases halloc : txPoolAlloc pool with _ | ⟨idx, pool'⟩
    · exact .refused
    · exact .token halloc
  · exact .refused

/-! ## Every buffer is in one place -/

/-- The free buffers and those of the live tokens are the buffers of the pool. -/
def BuffersConserved (pool : TxPool) (live : List EspTxToken) : Prop :=
  (pool.freeList ++ live.map EspTxToken.poolIdx).Perm (List.range txPoolN)

namespace BuffersConserved

variable {pool pool' : TxPool} {live : List EspTxToken} {t : EspTxToken} {idx k : ℕ}

theorem nodup (h : BuffersConserved pool live) : (pool.freeList ++ live.map EspTxToken.poolIdx).Nodup :=
  h.nodup_iff.mpr List.nodup_range

theorem init : BuffersConserved TxPool.init [] := by
  rw [BuffersConserved, TxPool.freeList_init, List.map_nil, List.append_nil]

/-- A token takes its buffer out of the pool. -/
theorem alloc (h : BuffersConserved pool live) (halloc : txPoolAlloc pool = some (t.poolIdx, pool')) :
    BuffersConserved pool' (t :: live) := by
  refine List.Perm.trans ?_ h
  rw [List.map_cons]
  exact List.perm_middle.trans ((TxPool.freeList_of_txPoolAlloc halloc).append_right _).symm

/-- A token that is dropped puts it back. -/
theorem drop (h : BuffersConserved pool live) (hk : live[k]? = some t) :
    BuffersConserved (t.drop pool) (live.eraseIdx k) := by
  obtain ⟨hlt, rfl⟩ := List.getElem?_eq_some_iff.mp hk
  have hlive : (live.map EspTxToken.poolIdx).Perm
      (live[k].poolIdx :: (live.eraseIdx k).map EspTxToken.poolIdx) :=
    ((List.getElem_cons_eraseIdx_perm hlt).map EspTxToken.poolIdx).symm
  have hmem : live[k].poolIdx ∈ live.map EspTxToken.poolIdx := hlive.mem_iff.mpr List.mem_cons_self
  have hbound := List.mem_range.mp (h.mem_iff.mp (List.mem_append_right _ hmem))
  have hnot : live[k].poolIdx ∉ pool.freeList := fun hfree => (List.disjoint_of_nodup_append h.nodup) hfree hmem
  have hback := (TxPool.freeList_txPoolFree (hbound.trans (by decide)) hnot).append_right
    ((live.eraseIdx k).map EspTxToken.poolIdx)
  have hplace : (live[k].poolIdx :: pool.freeList ++ (live.eraseIdx k).map EspTxToken.poolIdx).Perm
      (pool.freeList ++ live[k].poolIdx :: (live.eraseIdx k).map EspTxToken.poolIdx) := List.perm_middle.symm
  exact (hback.trans hplace).trans ((hlive.symm.append_left _).trans h)

end BuffersConserved

section Runs

variable {s s' : TokenSys D}

/-- No call changes that. -/
theorem BuffersConserved.step (h : BuffersConserved s.pool s.live) {act : TokenAct D}
    (hstep : s.step act = some s') : BuffersConserved s'.pool s'.live := by
  cases act with
  | ifaceRx d frame =>
    obtain rfl := Option.some.inj hstep
    exact h
  | setLinkUp d up =>
    obtain rfl := Option.some.inj hstep
    exact h
  | receive d =>
    have hspec := receive_spec (s.devs d) s.pool
    rw [TokenSys.step] at hstep
    generalize (s.devs d).receive s.pool = r at hspec hstep
    cases hspec with
    | empty | dropped =>
      obtain rfl := Option.some.inj hstep
      exact h
    | handed _ halloc =>
      obtain rfl := Option.some.inj hstep
      exact h.alloc halloc
  | transmit d =>
    have hspec := transmit_spec (s.devs d) s.pool
    rw [TokenSys.step] at hstep
    generalize (s.devs d).transmit s.pool = r at hspec hstep
    cases hspec with
    | refused =>
      obtain rfl := Option.some.inj hstep
      exact h
    | token halloc =>
      obtain rfl := Option.some.inj hstep
      exact h.alloc halloc
  | consume k frame =>
    obtain ⟨t, ht, hstep⟩ := Option.bind_eq_some_iff.mp hstep
    obtain ⟨⟨sent, pool⟩, hconsume, hstep⟩ := Option.bind_eq_some_iff.mp hstep
    obtain rfl := Option.some.inj hstep
    rw [EspTxToken.consume] at hconsume
    split_ifs at hconsume
    obtain ⟨-, rfl⟩ := Prod.mk.inj (Option.some.inj hconsume)
    exact h.drop ht
  | drop k =>
    obtain ⟨t, ht, hstep⟩ := Option.bind_eq_some_iff.mp hstep
    obtain rfl := Option.some.inj hstep
    exact h.drop ht

theorem BuffersConserved.run (h : BuffersConserved s.pool s.live) {acts : List (TokenAct D)}
    (hrun : s.run acts = some s') : BuffersConserved s'.pool s'.live :=
  TokenSys.keeps_of_run (P := fun s => BuffersConserved s.pool s.live) (fun h hstep => h.step hstep) h hrun

variable {pool : TxPool} {live : List EspTxToken}

/-- A buffer of the pool is free if no live token has it. -/
theorem BuffersConserved.getLsbD_iff (h : BuffersConserved pool live) (i : ℕ) :
    pool.freeMask.getLsbD i = true ↔ i < txPoolN ∧ ∀ t ∈ live, t.poolIdx ≠ i := by
  rw [← TxPool.mem_freeList]
  constructor
  · intro hfree
    refine ⟨List.mem_range.mp (h.mem_iff.mp (List.mem_append_left _ hfree)), ?_⟩
    rintro t ht rfl
    exact List.disjoint_of_nodup_append h.nodup hfree (List.mem_map_of_mem ht)
  · rintro ⟨hi, hno⟩
    rcases List.mem_append.mp (h.mem_iff.mpr (List.mem_range.mpr hi)) with hfree | hlive
    · exact hfree
    · obtain ⟨t, ht, rfl⟩ := List.mem_map.mp hlive
      exact absurd rfl (hno t ht)

theorem BuffersConserved.alloc_eq_none_iff (h : BuffersConserved pool live) :
    txPoolAlloc pool = none ↔ live.length = txPoolN := by
  have hlen := h.length_eq
  rw [List.length_append, List.length_map, List.length_range] at hlen
  rw [TxPool.txPoolAlloc_eq_none_iff, ← List.length_eq_zero_iff]
  omega

/-- **From start-up on, whatever the devices are asked and in whatever order tokens are consumed and dropped, a
buffer is free if and only if no live token has it**, and no other bit is set; no two live tokens share one,
allocation fails exactly when all are with tokens, and without live tokens the pool is as at start-up. -/
theorem txTokens_of_run {devs : D → EspDevice} {acts : List (TokenAct D)}
    (hrun : (TokenSys.start devs .init []).run acts = some s) :
    (∀ i, s.pool.freeMask.getLsbD i = true ↔ i < txPoolN ∧ ∀ t ∈ s.live, t.poolIdx ≠ i) ∧
    (s.live.map EspTxToken.poolIdx).Nodup ∧ (∀ t ∈ s.live, t.poolIdx < txPoolN) ∧
    (txPoolAlloc s.pool = none ↔ s.live.length = txPoolN) ∧ (s.live = [] → s.pool = .init) := by
  have h : BuffersConserved s.pool s.live := BuffersConserved.run (s := .start devs .init []) .init hrun
  refine ⟨h.getLsbD_iff, (List.nodup_append.mp h.nodup).2.1, fun t ht => ?_,
    h.alloc_eq_none_iff, fun hnil => ?_⟩
  · exact List.mem_range.mp (h.mem_iff.mp (List.mem_append_right _ (List.mem_map_of_mem ht)))
  · rw [BuffersConserved, hnil, List.map_nil, List.append_nil] at h
    exact TxPool.ext_freeList (TxPool.freeList_init ▸ h)

/-- **A live token gives its buffer back**: dropped, or consumed with a frame that fits the buffer, it returns, and
the bit of its buffer, clear before, is set. -/
theorem freed_of_run {devs : D → EspDevice} {acts : List (TokenAct D)}
    (hrun : (TokenSys.start devs .init []).run acts = some s) {k : ℕ} {t : EspTxToken} (hk : s.live[k]? = some t)
    {act : TokenAct D} (hact : act = .drop k ∨ ∃ frame, frame.length ≤ txFrame ∧ act = .consume k frame) :
    s.pool.freeMask.getLsbD t.poolIdx = false ∧ ∃ s', s.step act = some s' ∧
      s'.live = s.live.eraseIdx k ∧ s'.pool.freeMask.getLsbD t.poolIdx = true := by
  have h : BuffersConserved s.pool s.live := BuffersConserved.run (s := .start devs .init []) .init hrun
  have hmem := List.mem_map_of_mem (f := EspTxToken.poolIdx) (List.mem_of_getElem? hk)
  have hnot : t.poolIdx ∉ s.pool.freeList := fun hfree => List.disjoint_of_nodup_append h.nodup hfree hmem
  have hlt : t.poolIdx < txPoolN := List.mem_range.mp (h.mem_iff.mp (List.mem_append_right _ hmem))
  have hset : (t.drop s.pool).freeMask.getLsbD t.poolIdx = true :=
    TxPool.mem_freeList.mp ((TxPool.freeList_txPoolFree (Nat.lt_trans hlt (by decide)) hnot).mem_iff.mpr
      List.mem_cons_self)
  refine ⟨Bool.eq_false_iff.mpr (mt TxPool.mem_freeList.mpr hnot), ?_⟩
  obtain rfl | ⟨frame, hlen, rfl⟩ := hact
  · exact ⟨{ s with pool := t.drop s.pool, live := s.live.eraseIdx k }, by rw [TokenSys.step, hk]; rfl, rfl, hset⟩
  · refine ⟨{ s with pool := t.drop s.pool, live := s.live.eraseIdx k }, ?_, rfl, hset⟩
    rw [TokenSys.step, hk]
    simp only [Option.bind_eq_bind, Option.bind_some, EspTxToken.consume, if_neg (Nat.not_lt.mpr hlen)]

end Runs

/-- Two devices: the first sends a frame, the second receives one and drops the token that comes with it, and the
first gets a token again. -/
theorem txTokens_two_devices : ∃ s,
    (TokenSys.start (fun _ : Bool => ⟨0, none, true⟩) .init []).run [.transmit false, .ifaceRx true [1, 2],
      .receive true, .consume 1 [3, 4], .drop 0, .transmit false] = some s ∧
    s.live = [⟨0, 0⟩] ∧ s.handed true = [[1, 2]] ∧ (txPoolAlloc s.pool = none ↔ s.live.length = txPoolN) := by
  obtain ⟨s, hrun⟩ : ∃ s, (TokenSys.start (fun _ : Bool => ⟨0, none, true⟩) .init []).run
    [.transmit false, .ifaceRx true [1, 2], .receive true, .consume 1 [3, 4], .drop 0, .transmit false]
      = some s := ⟨_, rfl⟩
  refine ⟨s, hrun, ?_, ?_, (txTokens_of_run hrun).2.2.2.1⟩
  · obtain rfl := Option.some.inj hrun
    decide
  · obtain rfl := Option.some.inj hrun
    rfl

/-! ## Frames between `push_rx` and `receive` -/

namespace TokenSys

/-- A `receive` finds the inbox empty or a buffer free. -/
def Room (s : TokenSys D) : TokenAct D → Prop
  | .receive d => (s.devs d).rxInbox = none ∨ s.pool.freeMask ≠ 0#32
  | _ => True

/-- A `receive` that returns `None` leaves the device and the pool as they were. -/
def Keeps (s : TokenSys D) : TokenAct D → Prop
  | .receive d => ((s.devs d).receive s.pool).1 = none → ((s.devs d).receive s.pool).2 = (s.devs d, s.pool)
  | _ => True

/-- Each accepted frame was handed over, in order, or is in the inbox. -/
def Accounted (s : TokenSys D) : Prop := ∀ d, s.accepted d = s.handed d ++ (s.devs d).rxInbox.toList

/-- At least so many frames of the device are in neither place. -/
def Lacks (s : TokenSys D) (d : D) (n : ℕ) : Prop :=
  (s.handed d).length + (s.devs d).rxInbox.toList.length + n ≤ (s.accepted d).length

end TokenSys

/-- What a call can do to the frames of a device. -/
inductive FrameSpec (s : TokenSys D) (act : TokenAct D) (s' : TokenSys D) (d : D) : Prop
  | same (haccepted : s'.accepted d = s.accepted d) (hhanded : s'.handed d = s.handed d)
      (hinbox : (s'.devs d).rxInbox = (s.devs d).rxInbox)
  | accepts (frame : Bytes) (h : (s.devs d).rxInbox = none)
      (haccepted : s'.accepted d = s.accepted d ++ [frame]) (hhanded : s'.handed d = s.handed d)
      (hinbox : (s'.devs d).rxInbox = some frame)
  | hands (frame : Bytes) (h : (s.devs d).rxInbox = some frame) (haccepted : s'.accepted d = s.accepted d)
      (hhanded : s'.handed d = s.handed d ++ [frame]) (hinbox : (s'.devs d).rxInbox = none)
  | loses (frame : Bytes) (hact : act = .receive d) (h : (s.devs d).rxInbox = some frame)
      (hfull : txPoolAlloc s.pool = none) (haccepted : s'.accepted d = s.accepted d)
      (hhanded : s'.handed d = s.handed d) (hinbox : (s'.devs d).rxInbox = none)

section Frames

variable {s s' : TokenSys D} {act : TokenAct D}

theorem txPoolAlloc_eq_none_iff_mask {pool : TxPool} : txPoolAlloc pool = none ↔ pool.freeMask = 0#32 := by
  rw [txPoolAlloc]
  split_ifs with h
  · exact iff_of_true rfl h
  · exact iff_of_false id h

theorem rxInbox_update_self (devs : D → EspDevice) (d : D) (dev : EspDevice) :
    (Function.update devs d dev d).rxInbox = dev.rxInbox := by
  rw [Function.update_self]

theorem rxInbox_update_of_ne {d e : D} (hne : e ≠ d) (devs : D → EspDevice) (dev : EspDevice) :
    (Function.update devs d dev e).rxInbox = (devs e).rxInbox := by
  rw [Function.update_of_ne hne]

theorem frameSpec_ifaceRx (s : TokenSys D) (d e : D) (frame : Bytes)
    (hstep : s.step (.ifaceRx d frame) = some s') : FrameSpec s (.ifaceRx d frame) s' e := by
  obtain rfl := Option.some.inj hstep
  rcases eq_or_ne e d with rfl | hne
  · rcases hin : (s.devs e).rxInbox with _ | old
    · refine .accepts frame hin ?_ rfl ?_
      · simp
      · simp [EspDevice.pushRx, hin]
    · refine .same ?_ rfl ?_
      · simp
      · simp [EspDevice.pushRx, hin]
  · exact .same (Function.update_of_ne hne ..) rfl (rxInbox_update_of_ne hne ..)

theorem frameSpec_receive (s : TokenSys D) (d e : D) (hstep : s.step (.receive d) = some s') :
    FrameSpec s (.receive d) s' e := by
  have hspec := receive_spec (s.devs d) s.pool
  rw [TokenSys.step] at hstep
  generalize (s.devs d).receive s.pool = r at hspec hstep
  cases hspec with
  | empty h =>
    obtain rfl := Option.some.inj hstep
    rw [Function.update_eq_self]
    exact .same rfl rfl rfl
  | dropped h hfull =>
    obtain rfl := Option.some.inj hstep
    rcases eq_or_ne e d with rfl | hne
    · exact .loses _ rfl h hfull rfl rfl (rxInbox_update_self ..)
    · exact .same rfl rfl (rxInbox_update_of_ne hne ..)
  | handed h halloc =>
    obtain rfl := Option.some.inj hstep
    rcases eq_or_ne e d with rfl | hne
    · exact .hands _ h rfl (Function.update_self ..) (rxInbox_update_self ..)
    · exact .same rfl (Function.update_of_ne hne ..) (rxInbox_update_of_ne hne ..)

theorem frame_spec (hstep : s.step act = some s') (e : D) : FrameSpec s act s' e := by
  cases act with
  | ifaceRx d frame => exact frameSpec_ifaceRx s d e frame hstep
  | receive d => exact frameSpec_receive s d e hstep
  | setLinkUp d up =>
    obtain rfl := Option.some.inj hstep
    refine .same rfl rfl ?_
    rcases eq_or_ne e d with rfl | hne
    · exact rxInbox_update_self ..
    · exact rxInbox_update_of_ne hne ..
  | transmit d =>
    have hspec := transmit_spec (s.devs d) s.pool
    rw [TokenSys.step] at hstep
    generalize (s.devs d).transmit s.pool = r at hspec hstep
    cases hspec with
    | refused | token =>
      obtain rfl := Option.some.inj hstep
      exact .same rfl rfl rfl
  | consume k frame =>
    obtain ⟨t, -, hstep⟩ := Option.bind_eq_some_iff.mp hstep
    obtain ⟨⟨sent, pool⟩, -, hstep⟩ := Option.bind_eq_some_iff.mp hstep
    obtain rfl := Option.some.inj hstep
    exact .same rfl rfl rfl
  | drop k =>
    obtain ⟨t, -, hstep⟩ := Option.bind_eq_some_iff.mp hstep
    obtain rfl := Option.some.inj hstep
    exact .same rfl rfl rfl

namespace TokenSys

omit [DecidableEq D] in
/-- A `receive` keeps what it does not hand over exactly when there is room. -/
theorem keeps_iff_room (s : TokenSys D) (act : TokenAct D) : s.Keeps act ↔ s.Room act := by
  cases act with
  | ifaceRx | setLinkUp | transmit | consume | drop => exact Iff.rfl
  | receive d =>
    rw [Keeps, Room]
    rcases hspec : (s.devs d).receive s.pool with ⟨r, dev, pool⟩
    cases hspec ▸ receive_spec (s.devs d) s.pool with
    | empty h => exact iff_of_true (fun _ => rfl) (.inl h)
    | dropped h hfull =>
      refine iff_of_false (fun hkeep => ?_) ?_
      · have hdev := congrArg EspDevice.rxInbox (Prod.mk.inj (hkeep rfl)).1
        rw [h] at hdev
        cases hdev
      · rw [h, txPoolAlloc_eq_none_iff_mask.mp hfull]
        simp
    | handed h halloc =>
      refine iff_of_true nofun (.inr fun hzero => ?_)
      rw [txPoolAlloc_eq_none_iff_mask.mpr hzero] at halloc
      cases halloc

theorem throughout_congr {P Q : TokenSys D → TokenAct D → Prop} (h : ∀ s act, P s act ↔ Q s act) (s : TokenSys D)
    (acts : List (TokenAct D)) : s.Throughout P acts ↔ s.Throughout Q acts := by
  induction acts generalizing s with
  | nil => exact Iff.rfl
  | cons act acts ih => exact and_congr (h s act) (forall_congr' fun s' => imp_congr_right fun _ => ih s')

/-- With room no frame is lost. -/
theorem Accounted.step (h : s.Accounted) (hroom : s.Room act) (hstep : s.step act = some s') : s'.Accounted := by
  intro e
  rcases frame_spec hstep e with ⟨ha, hh, hi⟩ | ⟨frame, hin, ha, hh, hi⟩ | ⟨frame, hin, ha, hh, hi⟩ |
    ⟨frame, rfl, hin, hfull, -, -, -⟩
  · rw [ha, hh, hi, h e]
  · rw [ha, hh, hi, h e, hin, Option.toList_none, List.append_nil, Option.toList_some]
  · rw [ha, hh, hi, h e, hin, Option.toList_none, List.append_nil, Option.toList_some]
  · rcases hroom with hempty | hmask
    · rw [hempty] at hin
      cases hin
    · exact absurd (txPoolAlloc_eq_none_iff_mask.mp hfull) hmask

/-- A frame that is lost stays lost. -/
theorem Lacks.step {e : D} {n : ℕ} (h : s.Lacks e n) (hstep : s.step act = some s') : s'.Lacks e n := by
  rw [Lacks] at h ⊢
  rcases frame_spec hstep e with ⟨ha, hh, hi⟩ | ⟨frame, hin, ha, hh, hi⟩ | ⟨frame, hin, ha, hh, hi⟩ |
    ⟨frame, -, hin, -, ha, hh, hi⟩
  · rwa [ha, hh, hi]
  · rw [ha, hh, hi, List.length_append]
    rw [hin] at h
    simp only [Option.toList_none, Option.toList_some, List.length_nil, List.length_singleton] at h ⊢
    omega
  · rw [ha, hh, hi, List.length_append]
    rw [hin] at h
    simp only [Option.toList_none, Option.toList_some, List.length_nil, List.length_singleton] at h ⊢
    omega
  · rw [ha, hh, hi]
    rw [hin] at h
    simp only [Option.toList_none, Option.toList_some, List.length_nil, List.length_singleton] at h ⊢
    omega

/-- Without room a frame is lost. -/
theorem Accounted.lacks (h : s.Accounted) (hroom : ¬ s.Room act) (hstep : s.step act = some s') :
    ∃ e, s'.Lacks e 1 := by
  cases act with
  | ifaceRx | setLinkUp | transmit | consume | drop => exact absurd trivial hroom
  | receive d =>
    obtain ⟨hin, hmask⟩ := not_or.mp hroom
    have hfull := txPoolAlloc_eq_none_iff_mask.mpr (not_not.mp hmask)
    have hspec := receive_spec (s.devs d) s.pool
    rw [TokenSys.step] at hstep
    generalize (s.devs d).receive s.pool = r at hspec hstep
    cases hspec with
    | empty hempty => exact absurd hempty hin
    | handed _ halloc =>
      rw [hfull] at halloc
      cases halloc
    | dropped hframe _ =>
      obtain rfl := Option.some.inj hstep
      have hlen := congrArg List.length (h d)
      rw [hframe, List.length_append, Option.toList_some, List.length_singleton] at hlen
      refine ⟨d, ?_⟩
      rw [Lacks, rxInbox_update_self]
      exact hlen.ge

omit [DecidableEq D] in
theorem Accounted.not_lacks (h : s.Accounted) (e : D) : ¬ s.Lacks e 1 := fun hlacks => by
  rw [Lacks, h e, List.length_append] at hlacks
  omega

omit [DecidableEq D] in
theorem accounted_start (devs : D → EspDevice) (pool : TxPool) (live : List EspTxToken) :
    (start devs pool live).Accounted := fun _ => (List.nil_append _).symm

theorem Accounted.run (h : s.Accounted) {acts : List (TokenAct D)} (hroom : s.Throughout Room acts)
    (hrun : s.run acts = some s') : s'.Accounted := by
  induction acts generalizing s with
  | nil =>
    obtain rfl := Option.some.inj hrun
    exact h
  | cons act acts ih =>
    obtain ⟨s₁, hstep, hrun⟩ := Option.bind_eq_some_iff.mp hrun
    exact ih (h.step hroom.1 hstep) (hroom.2 s₁ hstep) hrun

theorem Lacks.run {e : D} {n : ℕ} (h : s.Lacks e n) {acts : List (TokenAct D)} (hrun : s.run acts = some s') :
    s'.Lacks e n :=
  keeps_of_run (P := (·.Lacks e n)) (fun h hstep => h.step hstep) h hrun

/-- If every frame is accounted for at the end there was room all along. -/
theorem Accounted.room_of_run (h : s.Accounted) {acts : List (TokenAct D)} (hrun : s.run acts = some s')
    (h' : s'.Accounted) : s.Throughout Room acts := by
  induction acts generalizing s with
  | nil => trivial
  | cons act acts ih =>
    obtain ⟨s₁, hstep, hrun⟩ := Option.bind_eq_some_iff.mp hrun
    have hroom : s.Room act := by
      by_contra hno
      obtain ⟨e, hlacks⟩ := h.lacks hno hstep
      exact h'.not_lacks e (hlacks.run hrun)
    refine ⟨hroom, fun s₂ hstep₂ => ?_⟩
    obtain rfl := Option.some.inj (hstep.symm.trans hstep₂)
    exact ih (h.step hroom hstep) hrun

end TokenSys

/-- **A `receive` that returns `None` leaves inbox and pool alone, all along a run, if and only if each of them
finds the inbox empty or a buffer free**; and exactly then every frame that an inbox has accepted was handed
over, in order, or is still there. -/
theorem framesStay_iff {devs : D → EspDevice} {pool : TxPool} {live : List EspTxToken} {acts : List (TokenAct D)}
    (hrun : (TokenSys.start devs pool live).run acts = some s) :
    ((TokenSys.start devs pool live).Throughout TokenSys.Keeps acts ↔
      (TokenSys.start devs pool live).Throughout TokenSys.Room acts) ∧
    (s.Accounted ↔ (TokenSys.start devs pool live).Throughout TokenSys.Room acts) := by
  have hstart := TokenSys.accounted_start devs pool live
  exact ⟨TokenSys.throughout_congr TokenSys.keeps_iff_room _ acts, hstart.room_of_run hrun,
    fun hroom => hstart.run hroom hrun⟩

end Frames

/-- **With all buffers in use a frame is lost**: one device holds sixteen tokens, the other accepts a frame, and
its `receive` returns `None` with the inbox emptied. -/
theorem receive_loses_frame : ∃ s,
    (TokenSys.start (fun _ : Bool => ⟨0, none, true⟩) .init []).run
        (List.replicate 16 (.transmit true) ++ [.ifaceRx false [1, 2]]) = some s ∧
      (s.devs false).rxInbox = some [1, 2] ∧ ((s.devs false).receive s.pool).1 = none ∧
      ((s.devs false).receive s.pool).2.1.rxInbox = none := by
  refine ⟨_, rfl, rfl, ?_, ?_⟩ <;> decide

/-- With one token in use it is handed over. -/
theorem frames_stay_one_token : ∃ s,
    (TokenSys.start (fun _ : Bool => ⟨0, none, true⟩) .init []).run
      [.transmit true, .ifaceRx false [1, 2], .receive false] = some s ∧ s.Accounted := by
  obtain ⟨s, hrun⟩ : ∃ s, (TokenSys.start (fun _ : Bool => ⟨0, none, true⟩) .init []).run
    [.transmit true, .ifaceRx false [1, 2], .receive false] = some s := ⟨_, rfl⟩
  refine ⟨s, hrun, (framesStay_iff hrun).2.mpr ⟨trivial, fun s₁ h₁ => ⟨trivial, fun s₂ h₂ => ?_⟩⟩⟩
  obtain rfl := Option.some.inj h₁
  obtain rfl := Option.some.inj h₂
  exact ⟨.inr (by decide), fun _ _ => trivial⟩

end EspSmoltcp
