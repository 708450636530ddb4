import EspSmoltcp.Compat.Ownership
import EspSmoltcp.Compat.ScanEffects

/-!
# Compat/LoTable — the loopback table and the fds it names

A slot of the loopback table names the fd bound to its port.  `bind` fills it and `close` clears it; between
the two nothing looks at it but `lo_deliver`.  `close` finds the slot by the fd's `local_port`, which every
`bind` overwrites before it knows whether it succeeds, and which `connect` overwrites with the port of the
peer.

So the table is sound (`LoSound`) as long as no `close` finds the port overwritten and no `bind` moves an fd
that holds a slot.  A step that does one of the two breaks it at once: `loSound_of_run`.
-/

namespace EspSmoltcp

open Thread (Logs)

variable {S : Smoltcp} {w w' : World S}

/-! ## What most calls leave alone -/

/-- The slots and the kinds of the entries are as they were, and no `loopback` flag is lost. -/
structure SameLo (w w' : World S) : Prop where
  loSlots : w'.loSlots = w.loSlots
  kind : ∀ j, (w'.fdAt j).kind = (w.fdAt j).kind
  flag : ∀ j, (w.fdAt j).loopback = true → (w'.fdAt j).loopback = true

namespace SameLo

theorem refl (w : World S) : SameLo w w := ⟨rfl, fun _ => rfl, fun _ h => h⟩

theorem trans {w'' : World S} (h : SameLo w w') (h' : SameLo w' w'') : SameLo w w'' :=
  ⟨h'.loSlots.trans h.loSlots, fun j => (h'.kind j).trans (h.kind j), fun j hj => h'.flag j (h.flag j hj)⟩

theorem of_shim (h : SameShim w w') : SameLo w w' := by
  refine ⟨h.loSlots, fun j => ?_, fun j hj => ?_⟩
  · rw [World.fdAt, h.fds]
    rfl
  · rw [World.fdAt, h.fds]
    exact hj

/-- An entry is updated in fields that do not matter here. -/
theorem modFd (w : World S) (i : ℕ) {f : FdEntry → FdEntry} (hkind : ∀ e, (f e).kind = e.kind)
    (hflag : ∀ e, e.loopback = true → (f e).loopback = true) : SameLo w (w.modFd i f) := by
  by_cases hi : i < w.fds.length
  · refine ⟨rfl, fun j => ?_, fun j hj => ?_⟩
    · by_cases hji : j = i
      · subst hji
        rw [World.fdAt_modFd_self _ hi, hkind]
      · rw [World.fdAt_modFd_ne _ hji]
    · by_cases hji : j = i
      · subst hji
        rw [World.fdAt_modFd_self _ hi]
        exact hflag _ hj
      · rwa [World.fdAt_modFd_ne _ hji]
  · refine of_shim ⟨?_, rfl⟩
    rw [World.modFd, World.fds_setFd, List.set_eq_of_length_le (not_lt.mp hi)]

theorem loDeliver (heap : Bool) (dstPort : UInt16) (srcBe : UInt32) (srcPort : UInt16) (data : Bytes)
    (w : World S) : SameLo w (loDeliver heap dstPort srcBe srcPort data w).2 := by
  unfold EspSmoltcp.loDeliver
  split_ifs
  · exact refl w
  split
  · exact refl w
  split
  · exact refl w
  split_ifs
  · dsimp only
    exact modFd w _ (fun _ => rfl) fun _ h => h
  · exact refl w

theorem loReceive (i : ℕ) (w : World S) : SameLo w (loReceive i w).2 := by
  unfold EspSmoltcp.loReceive
  split
  · dsimp only
    exact modFd w _ (fun _ => rfl) fun _ h => h
  · exact refl w

theorem wrapLwipSendto (cfg : Config) (heap : Bool) (fd : ℤ) (buf : Bytes) (dst : SockAddrIn) (tolen : ℕ)
    (w : World S) : SameLo w (wrapLwipSendto cfg heap fd buf dst tolen w).2 := by
  rw [EspSmoltcp.wrapLwipSendto]
  rcases fdGet cfg w fd with _ | i
  · exact refl w
  simp only
  split_ifs
  · exact refl w
  · exact refl w
  · exact loDeliver ..
  · exact of_shim (SameShim.netUdpSendto ..)

end SameLo

/-! ## `bind` -/

/-- How a `bind` ends: it fails; it binds outside the loopback table; or it takes a slot. -/
inductive BindOutcome (cfg : Config) (fd : ℤ) (addr : SockAddrIn) (w : World S) : Ret × World S → Prop
  | failed {r : Ret × World S} (hr : r.1.ret ≠ 0) (h : SameLo w r.2) : BindOutcome cfg fd addr w r
  | outside {r : Ret × World S} {i : ℕ} (hr : r.1.ret = 0) (hi : fdGet cfg w fd = some i)
      (hlo : (w.fdAt i).kind = .udp → isLoopbackIp addr.addrBe = false) (h : SameLo w r.2) :
      BindOutcome cfg fd addr w r
  | slot {r : Ret × World S} {w₁ : World S} {i k : ℕ} (hr : r.1.ret = 0) (hi : fdGet cfg w fd = some i)
      (hkind : (w.fdAt i).kind = .udp) (hlo : isLoopbackIp addr.addrBe = true) (h : SameLo w w₁)
      (hflag : (w₁.fdAt i).loopback = true) (hk : loSlotFor w.loSlots addr.port = some k)
      (hw : r.2 = { w₁ with loSlots := w.loSlots.set k ⟨addr.port, some i⟩ }) (hport : addr.port ≠ 0) :
      BindOutcome cfg fd addr w r

/-- What `lo_bind` does to the slots. -/
theorem loBind_cases (heap : Bool) (port : UInt16) {i : ℕ} (hi : i < w.fds.length) :
    ((loBind heap port i w).1 ≠ .ok ∧ SameLo w (loBind heap port i w).2) ∨
      ∃ w₁ k, (loBind heap port i w).1 = .ok ∧ SameLo w w₁ ∧ (w₁.fdAt i).loopback = true ∧
        loSlotFor w.loSlots port = some k ∧ port ≠ 0 ∧
        (loBind heap port i w).2 = { w₁ with loSlots := w.loSlots.set k ⟨port, some i⟩ } := by
  have hset := SameLo.modFd w i (f := FdEntry.loBound) (fun _ => rfl) fun _ _ => rfl
  have hspec := loBind_spec heap port i w
  generalize loBind heap port i w = r at hspec ⊢
  cases hspec with
  | refused hrc => exact .inl ⟨hrc, SameLo.refl w⟩
  | full hw => exact .inl ⟨by simp, hw ▸ hset⟩
  | @slot w' k hport hk hw =>
    refine .inr ⟨w', k, rfl, hw ▸ hset, ?_, hk, hport, rfl⟩
    rw [← hw, World.fdAt_modFd_self _ hi, FdEntry.loBound]

theorem bindOutcome (cfg : Config) (heap : Bool) (fd : ℤ) (addr : SockAddrIn) (alen : ℕ) (w : World S) :
    BindOutcome cfg fd addr w (wrapLwipBind cfg heap fd addr alen w) := by
  have hspec := wrapLwipBind_spec cfg heap fd addr alen w
  generalize wrapLwipBind cfg heap fd addr alen w = r at hspec ⊢
  cases hspec with
  | refused => exact .failed (Ret.ret_fail_ne_zero _) (SameLo.refl w)
  | @stored i w₁ r hfd hw hr =>
    have hi := lt_length_of_fdGet hfd
    have hset : SameLo w w₁ := hw ▸ SameLo.modFd w i (fun _ => rfl) fun _ h => h
    have hkind : (w₁.fdAt i).kind = (w.fdAt i).kind := by
      rw [← hw, World.fdAt_modFd_self _ hi]
      rfl
    cases hr with
    | stream hk => exact .outside rfl hfd (fun h => absurd (hkind.trans h) hk) hset
    | loopback hk hlo ho =>
      subst ho
      have hi₁ : i < w₁.fds.length := by
        rw [← hw, World.length_fds_modFd]
        exact hi
      obtain ⟨hrc, hsame⟩ | ⟨w₂, k, hrc, hsame, hflag, hslot, hport, hw₂⟩ := loBind_cases heap addr.port hi₁
      · rw [if_neg hrc]
        exact .failed (show (-1 : ℤ) ≠ 0 by decide) (hset.trans hsame)
      · rw [if_pos hrc]
        rw [hset.loSlots] at hslot hw₂
        exact .slot rfl hfd (hkind.symm.trans hk) hlo (hset.trans hsame) hflag hslot hw₂ hport
    | @reopened _ hlo w₂ o hclose ho =>
      have hclosed : SameLo w w₂ := by
        rw [← hclose]
        split_ifs
        · exact hset.trans (SameLo.of_shim (SameShim.netUdpClose ..))
        · exact hset
      have hopen : SameLo w₂ o.2 := ho ▸ SameLo.of_shim (SameShim.netUdpOpen ..)
      have hopened := (hclosed.trans hopen).trans
        (SameLo.modFd o.2 i (f := fun e => { e with sock := o.1 }) (fun _ => rfl) fun _ h => h)
      split_ifs
      · exact .outside rfl hfd (fun _ => hlo) hopened
      · exact .failed (Ret.ret_fail_ne_zero _) hopened

/-! ## `close` and `socket` -/

/-- Every entry but one is as it was. -/
def SameBut (i : ℕ) (w w' : World S) : Prop := ∀ j, j ≠ i → w'.fdAt j = w.fdAt j

theorem SameBut.trans {w'' : World S} {i : ℕ} (h : SameBut i w w') (h' : SameBut i w' w'') :
    SameBut i w w'' := fun j hj => (h' j hj).trans (h j hj)

theorem SameBut.of_shim {i : ℕ} (h : SameShim w w') : SameBut i w w' := fun j _ => by
  rw [World.fdAt, h.fds]
  rfl

theorem sameBut_modFd (w : World S) (i : ℕ) (f : FdEntry → FdEntry) : SameBut i w (w.modFd i f) :=
  fun _ hj => World.fdAt_modFd_ne f hj

theorem sameBut_loUnbind (port : UInt16) (i : ℕ) (w : World S) : SameBut i w (loUnbind port i w) := by
  intro j hj
  rw [loUnbind, World.fdAt_modFd_ne _ hj]
  rfl

/-- The slots `close` leaves. -/
def slotsAfterClose (w : World S) (i : ℕ) : List LoSlot :=
  if (w.fdAt i).loopback then
    w.loSlots.map fun s => if s.port = (w.fdAt i).localPort ∧ s.fd = some i then {} else s
  else w.loSlots

theorem fdFree_of_fdGet {cfg : Config} {fd : ℤ} {i : ℕ} (hfd : fdGet cfg w fd = some i) :
    (fdFree cfg fd w).loSlots = slotsAfterClose w i ∧ ((fdFree cfg fd w).fdAt i).kind = .free ∧
      SameBut i w (fdFree cfg fd w) := by
  have hi := lt_length_of_fdGet hfd
  rw [fdFree, hfd]
  simp only
  generalize hw₁ : (if (w.fdAt i).loopback = true then
    (loUnbind (w.fdAt i).localPort i w).modFd i fun e => { e with loRx := none, loopback := false }
    else w) = w₁
  have h₁ : w₁.loSlots = slotsAfterClose w i ∧ w₁.fds.length = w.fds.length ∧ SameBut i w w₁ := by
    rw [← hw₁, slotsAfterClose]
    split_ifs
    · refine ⟨rfl, ?_, ?_⟩
      · rw [World.length_fds_modFd, loUnbind, World.length_fds_modFd]
      · exact (sameBut_loUnbind _ i w).trans (sameBut_modFd _ i _)
    · exact ⟨rfl, rfl, fun _ _ => rfl⟩
  have hclosed := (SameShim.closeOwned (w.fdAt i).kind (w.fdAt i).sock w₁).trans
    (SameShim.closePool (w.fdAt i).pool _)
  refine ⟨hclosed.loSlots.trans h₁.1, ?_, ?_⟩
  · rw [World.fdAt_modFd_self]
    rw [hclosed.fds, h₁.2.1]
    exact hi
  · exact (h₁.2.2.trans (SameBut.of_shim hclosed)).trans (sameBut_modFd _ i _)

/-- **What `socket` does**: at most one entry changes, which was free; it is the one the fd names. -/
theorem wrapLwipSocket_cases (cfg : Config) (domain : ℤ) (type : ℕ) (w : World S) :
    (wrapLwipSocket cfg domain type w).2.loSlots = w.loSlots ∧
      ((fdGet cfg (wrapLwipSocket cfg domain type w).2 (wrapLwipSocket cfg domain type w).1.ret = none ∧
        (wrapLwipSocket cfg domain type w).2 = w) ∨
      ∃ i, (w.fdAt i).kind = .free ∧ SameBut i w (wrapLwipSocket cfg domain type w).2 ∧
        ∀ j, fdGet cfg (wrapLwipSocket cfg domain type w).2 (wrapLwipSocket cfg domain type w).1.ret
          = some j → j = i) := by
  have hspec := wrapLwipSocket_spec cfg domain type w
  generalize wrapLwipSocket cfg domain type w = r at hspec ⊢
  have hfails : ∀ (e : Errno) (w' : World S), fdGet cfg w' (Ret.fail e).ret = none :=
    fun _ w' => fdGet_neg_one cfg w'
  have hnobody : ∀ (e : Errno) (w' : World S) {i} (j), fdGet cfg w' (Ret.fail e).ret = some j → j = i :=
    fun e w' _ j hj => absurd ((hfails e w').symm.trans hj) (Option.some_ne_none j).symm
  cases hspec with
  | refused e => exact ⟨rfl, .inl ⟨hfails e w, rfl⟩⟩
  | @filled k i w₁ r hi hfree hw hr =>
    have h₁ : SameBut i w w₁ := fun j hj => by
      rw [← hw]
      exact World.fdAt_setFd_ne hj _
    have hslots : w₁.loSlots = w.loSlots := hw ▸ rfl
    have hi₁ : i < w₁.fds.length := by
      rw [← hw, World.setFd, List.length_set]
      exact hi
    have hflag : (w₁.fdAt i).loopback = false := by rw [← hw, World.fdAt_setFd_self hi]
    have hnames : ∀ (w' : World S) j, fdGet cfg w' (cfg.fdOffset + i) = some j → j = i := by
      intro w' j hj
      have := (fdGet_spec hj).1
      omega
    have hput : ∀ o, netUdpOpen (w₁.fdAt i).iface 0 w₁ = o →
        (o.2.modFd i fun e => { e with sock := o.1 }).loSlots = w.loSlots ∧
        SameBut i w (o.2.modFd i fun e => { e with sock := o.1 }) ∧
        ((o.2.modFd i fun e => { e with sock := o.1 }).fdAt i).loopback = false := by
      rintro o rfl
      have hopen := SameShim.netUdpOpen (w₁.fdAt i).iface 0 w₁
      refine ⟨hopen.loSlots.trans hslots, (h₁.trans (SameBut.of_shim hopen)).trans (sameBut_modFd _ i _), ?_⟩
      rw [World.fdAt_modFd_self _ (hopen.fds ▸ hi₁), World.fdAt, hopen.fds]
      exact hflag
    cases hr with
    | outside => exact ⟨hslots, .inr ⟨i, hfree, h₁, hnobody _ _⟩⟩
    | stream => exact ⟨hslots, .inr ⟨i, hfree, h₁, hnames _⟩⟩
    | datagram _ ho =>
      obtain ⟨hslots₂, h₂, -⟩ := hput _ ho
      exact ⟨hslots₂, .inr ⟨i, hfree, h₂, hnames _⟩⟩
    | @dropped _ o ho =>
      -- The entry goes again; it has never been in the loopback table.
      obtain ⟨hslots₂, h₂, hflag₂⟩ := hput _ ho
      generalize o.2.modFd i (fun e => { e with sock := o.1 }) = w₂ at hslots₂ h₂ hflag₂ ⊢
      have hdropped : (fdFree cfg (cfg.fdOffset + i) w₂).loSlots = w.loSlots ∧
          SameBut i w (fdFree cfg (cfg.fdOffset + i) w₂) := by
        rcases hfd : fdGet cfg w₂ (cfg.fdOffset + i) with _ | j
        · rw [fdFree, hfd]
          exact ⟨hslots₂, h₂⟩
        · obtain rfl := hnames _ j hfd
          obtain ⟨hslots, -, hbut⟩ := fdFree_of_fdGet hfd
          rw [hslots, slotsAfterClose, if_neg (by rw [hflag₂]; decide)]
          exact ⟨hslots₂, h₂.trans hbut⟩
      exact ⟨hdropped.1, .inr ⟨i, hfree, hdropped.2, hnobody _ _⟩⟩

/-! ## Soundness -/

/-- The address of the most recent successful `bind` of each entry since it was allocated. -/
abbrev Bound := ℕ → Option SockAddrIn

/-- A live UDP fd whose most recent successful `bind` was to this port on `127.0.0.0/8`. -/
def Serves (w : World S) (bound : Bound) (port : UInt16) (i : ℕ) : Prop :=
  (w.fdAt i).kind = .udp ∧ ∃ a, bound i = some a ∧ isLoopbackIp a.addrBe = true ∧ a.port = port

/-- A slot in use for an entry. -/
def LoSlot.Names (s : LoSlot) (i : ℕ) : Prop := s.port ≠ 0 ∧ s.fd = some i

/-- **The table is sound**: every slot in use names an fd that serves its port. -/
def LoSound (w : World S) (bound : Bound) : Prop :=
  ∀ s ∈ w.loSlots, s.port ≠ 0 → ∃ i, s.fd = some i ∧ Serves w bound s.port i

/-- What else holds of the table: a named entry has its flag set, and a slot not in use names none. -/
structure LoTidy (w : World S) : Prop where
  flag : ∀ s ∈ w.loSlots, ∀ i, s.Names i → (w.fdAt i).loopback = true
  free : ∀ s ∈ w.loSlots, s.port = 0 → s.fd = none

namespace LoSound

variable {bound : Bound}

theorem serves (h : LoSound w bound) {s : LoSlot} (hs : s ∈ w.loSlots) {i : ℕ} (hi : s.Names i) :
    Serves w bound s.port i := by
  obtain ⟨j, hj, hserves⟩ := h s hs hi.1
  obtain rfl := Option.some.inj (hi.2.symm.trans hj)
  exact hserves

/-- **A datagram to a loopback port reaches only an fd that serves it.** -/
theorem deliver (h : LoSound w bound) (ht : LoTidy w) {heap : Bool} {port srcPort : UInt16}
    {srcBe : UInt32} {data : Bytes} {i : ℕ}
    (hi : (loDeliver heap port srcBe srcPort data w).2.fdAt i ≠ w.fdAt i) : Serves w bound port i := by
  rw [loDeliver] at hi
  split_ifs at hi
  · exact absurd rfl hi
  rcases hslot : (w.loSlots.find? fun s => s.port = port).bind LoSlot.fd with _ | j
  · rw [hslot] at hi
    exact absurd rfl hi
  rw [hslot] at hi
  obtain ⟨s, hfind, hs⟩ := Option.bind_eq_some_iff.mp hslot
  have hmem := List.mem_of_find?_eq_some hfind
  have hport : s.port = port := by simpa using List.find?_some hfind
  have hne : s.port ≠ 0 := fun h0 => by
    rw [ht.free s hmem h0] at hs
    cases hs
  have hij : i = j := by
    by_contra hij
    refine hi ?_
    dsimp only
    split
    · rfl
    · split_ifs
      · exact World.fdAt_modFd_ne _ hij
      · rfl
  subst hij
  exact hport ▸ h.serves hmem ⟨hne, hs⟩

/-- Where neither slots nor kinds nor binds change, nothing does. -/
theorem of_same (h : LoSound w bound) (hs : SameLo w w') : LoSound w' bound := by
  intro s hmem hport
  rw [hs.loSlots] at hmem
  obtain ⟨i, hi, hkind, ha⟩ := h s hmem hport
  exact ⟨i, hi, (hs.kind i).trans hkind, ha⟩

/-- A bind that takes no slot: sound if the entry held none. -/
theorem bind_iff (h : LoSound w bound) (hs : SameLo w w') (i : ℕ) (a : SockAddrIn) :
    LoSound w' (Function.update bound i (some a)) ↔
      ∀ s ∈ w.loSlots, s.Names i → isLoopbackIp a.addrBe = true ∧ a.port = s.port := by
  constructor
  · intro h' s hmem hi
    obtain ⟨-, a', ha', hlo, hport⟩ := h'.serves (hs.loSlots ▸ hmem) hi
    rw [Function.update_self] at ha'
    obtain rfl := Option.some.inj ha'
    exact ⟨hlo, hport⟩
  · intro hall s hmem hport
    rw [hs.loSlots] at hmem
    obtain ⟨j, hj, hkind, a', ha', hlo, hp⟩ := h s hmem hport
    refine ⟨j, hj, (hs.kind j).trans hkind, ?_⟩
    by_cases hji : j = i
    · subst hji
      exact ⟨a, Function.update_self .., hall s hmem ⟨hport, hj⟩⟩
    · exact ⟨a', by rw [Function.update_of_ne hji, ha'], hlo, hp⟩

end LoSound

theorem LoTidy.of_same (h : LoTidy w) (hs : SameLo w w') : LoTidy w' :=
  ⟨fun s hmem i hi => hs.flag i (h.flag s (hs.loSlots ▸ hmem) i hi),
    fun s hmem hport => h.free s (hs.loSlots ▸ hmem) hport⟩

/-! ### Taking a slot -/

/-- The slot `lo_bind` takes has the port, or is not in use. -/
theorem port_of_loSlotFor {slots : List LoSlot} {port : UInt16} {k : ℕ}
    (hk : loSlotFor slots port = some k) {s : LoSlot} (hs : slots[k]? = some s) :
    s.port = port ∨ s.port = 0 := by
  have key : ∀ p : UInt16, slots.findIdx? (fun s => s.port = p) = some k → s.port = p := by
    intro p hp
    obtain ⟨hlt, hat, -⟩ := List.findIdx?_eq_some_iff_getElem.mp hp
    obtain rfl := Option.some.inj ((List.getElem?_eq_getElem hlt).symm.trans hs)
    simpa using hat
  rw [loSlotFor] at hk
  split at hk
  · rename_i k' hfound
    obtain rfl := Option.some.inj hk
    exact .inl (key port hfound)
  · exact .inr (key 0 hk)

section Slot

variable {bound : Bound} {w₁ : World S} {i k : ℕ} {a : SockAddrIn}

/-- A bind that takes a slot: sound if the entry held no other. -/
theorem LoSound.slot_iff (h : LoSound w bound) (hs : SameLo w w₁) (hkind : (w.fdAt i).kind = .udp)
    (hlo : isLoopbackIp a.addrBe = true) (hk : loSlotFor w.loSlots a.port = some k) :
    LoSound { w₁ with loSlots := w.loSlots.set k ⟨a.port, some i⟩ } (Function.update bound i (some a)) ↔
      ∀ s ∈ w.loSlots, s.Names i → isLoopbackIp a.addrBe = true ∧ a.port = s.port := by
  constructor
  · intro h' s hmem hi
    refine ⟨hlo, ?_⟩
    obtain ⟨m, hm⟩ := List.getElem?_of_mem hmem
    by_cases hmk : m = k
    · subst hmk
      obtain hport | hport := port_of_loSlotFor hk hm
      · exact hport.symm
      · exact absurd hport hi.1
    · have hkept : s ∈ w.loSlots.set k ⟨a.port, some i⟩ :=
        List.mem_of_getElem? ((List.getElem?_set_ne (Ne.symm hmk)).trans hm)
      obtain ⟨-, a', ha', -, hport⟩ := h'.serves hkept hi
      rw [Function.update_self] at ha'
      obtain rfl := Option.some.inj ha'
      exact hport
  · intro hall s hmem hport
    obtain hold | rfl := List.mem_or_eq_of_mem_set hmem
    · obtain ⟨j, hj, hj', a', ha', hlo', hp⟩ := h s hold hport
      refine ⟨j, hj, (hs.kind j).trans hj', ?_⟩
      by_cases hji : j = i
      · subst hji
        exact ⟨a, Function.update_self .., hall s hold ⟨hport, hj⟩⟩
      · exact ⟨a', by rw [Function.update_of_ne hji, ha'], hlo', hp⟩
    · exact ⟨i, rfl, (hs.kind i).trans hkind, a, Function.update_self .., hlo, rfl⟩

theorem LoTidy.slot (h : LoTidy w) (hs : SameLo w w₁) (hflag : (w₁.fdAt i).loopback = true)
    (hport : a.port ≠ 0) : LoTidy { w₁ with loSlots := w.loSlots.set k ⟨a.port, some i⟩ } := by
  refine ⟨fun s hmem j hj => ?_, fun s hmem h0 => ?_⟩
  · obtain hold | rfl := List.mem_or_eq_of_mem_set hmem
    · exact hs.flag j (h.flag s hold j hj)
    · obtain rfl := Option.some.inj hj.2
      exact hflag
  · obtain hold | rfl := List.mem_or_eq_of_mem_set hmem
    · exact h.free s hold h0
    · exact absurd h0 hport

end Slot

/-! ### Giving a slot up -/

section Close

variable {bound : Bound} {i : ℕ}

/-- A slot in use after `close` was there before, and was not the one `close` looks for. -/
theorem of_mem_slotsAfterClose {s : LoSlot} (hs : s ∈ slotsAfterClose w i) (hport : s.port ≠ 0) :
    s ∈ w.loSlots ∧
      ¬ ((w.fdAt i).loopback = true ∧ s.port = (w.fdAt i).localPort ∧ s.fd = some i) := by
  rw [slotsAfterClose] at hs
  split_ifs at hs with hflag
  · obtain ⟨s', hs', rfl⟩ := List.mem_map.mp hs
    split_ifs at hport ⊢ with hthis
    · exact absurd rfl hport
    · exact ⟨hs', fun h => hthis h.2⟩
  · exact ⟨hs, fun h => hflag h.1⟩

/-- A slot `close` does not look for stays. -/
theorem mem_slotsAfterClose {s : LoSlot} (hs : s ∈ w.loSlots) (hne : s.port ≠ (w.fdAt i).localPort) :
    s ∈ slotsAfterClose w i := by
  rw [slotsAfterClose]
  split_ifs
  · exact List.mem_map.mpr ⟨s, hs, if_neg fun h => hne h.1⟩
  · exact hs

/-- **A `close` is sound exactly if every slot of the fd has its `local_port`.** -/
theorem LoSound.close_iff {cfg : Config} {fd : ℤ} (h : LoSound w bound) (ht : LoTidy w)
    (hfd : fdGet cfg w fd = some i) : LoSound (fdFree cfg fd w) bound ↔
      ∀ s ∈ w.loSlots, s.Names i → (w.fdAt i).localPort = s.port := by
  obtain ⟨hslots, hfree, hbut⟩ := fdFree_of_fdGet hfd
  constructor
  · intro h' s hmem hi
    by_contra hne
    have hkind := (h'.serves (hslots ▸ mem_slotsAfterClose hmem (Ne.symm hne)) hi).1
    rw [hfree] at hkind
    cases hkind
  · intro hall s hmem hport
    rw [hslots] at hmem
    obtain ⟨hold, hleft⟩ := of_mem_slotsAfterClose hmem hport
    obtain ⟨j, hj, hkind, ha⟩ := h s hold hport
    have hji : j ≠ i := by
      rintro rfl
      exact hleft ⟨ht.flag s hold j ⟨hport, hj⟩, (hall s hold ⟨hport, hj⟩).symm, hj⟩
    refine ⟨j, hj, ?_, ha⟩
    rw [hbut j hji]
    exact hkind

theorem LoTidy.close {cfg : Config} {fd : ℤ} (ht : LoTidy w) (hfd : fdGet cfg w fd = some i)
    (hall : ∀ s ∈ w.loSlots, s.Names i → (w.fdAt i).localPort = s.port) : LoTidy (fdFree cfg fd w) := by
  obtain ⟨hslots, -, hbut⟩ := fdFree_of_fdGet hfd
  refine ⟨fun s hmem j hj => ?_, fun s hmem h0 => ?_⟩
  · obtain ⟨hold, hleft⟩ := of_mem_slotsAfterClose (hslots ▸ hmem) hj.1
    have hji : j ≠ i := by
      rintro rfl
      exact hleft ⟨ht.flag s hold j hj, (hall s hold hj).symm, hj.2⟩
    rw [hbut j hji]
    exact ht.flag s hold j hj
  · rw [hslots, slotsAfterClose] at hmem
    split_ifs at hmem
    · obtain ⟨s', hs', rfl⟩ := List.mem_map.mp hmem
      split_ifs at h0 ⊢
      · rfl
      · exact ht.free s' hs' h0
    · exact ht.free s hmem h0

end Close

/-! ### A new fd -/

/-- A free entry is in no slot, so it may change. -/
theorem LoSound.setFree {bound bound' : Bound} {i : ℕ} (h : LoSound w bound)
    (hslots : w'.loSlots = w.loSlots) (hfree : (w.fdAt i).kind = .free) (hbut : SameBut i w w')
    (hbound : ∀ j, j ≠ i → bound' j = bound j) : LoSound w' bound' := by
  intro s hmem hport
  obtain ⟨j, hj, hkind, a, ha, hlo⟩ := h s (hslots ▸ hmem) hport
  have hji : j ≠ i := by
    rintro rfl
    rw [hfree] at hkind
    cases hkind
  refine ⟨j, hj, ?_, a, ?_, hlo⟩
  · rw [hbut j hji]
    exact hkind
  · rw [hbound j hji]
    exact ha

theorem LoTidy.setFree {bound : Bound} {i : ℕ} (ht : LoTidy w) (h : LoSound w bound)
    (hslots : w'.loSlots = w.loSlots) (hfree : (w.fdAt i).kind = .free) (hbut : SameBut i w w') :
    LoTidy w' := by
  refine ⟨fun s hmem j hj => ?_, fun s hmem h0 => ht.free s (hslots ▸ hmem) h0⟩
  have hold : s ∈ w.loSlots := hslots ▸ hmem
  have hji : j ≠ i := by
    rintro rfl
    have hkind := (h.serves hold hj).1
    rw [hfree] at hkind
    cases hkind
  rw [hbut j hji]
  exact ht.flag s hold j hj

/-! ## Calls that block -/

/-- A step that leaves the table alone. -/
def Event.SameLo : Event S → Prop
  | .step _ w w' => EspSmoltcp.SameLo w w'
  | _ => True

/-- **`connect` leaves the table alone**; but it may overwrite the port `close` looks for. -/
theorem logs_sameLo_wrapLwipConnect (cfg : Config) (fd : ℤ) (addr : SockAddrIn) (alen : ℕ)
    (rand : UInt32) : Logs (Event.SameLo (S := S)) (wrapLwipConnect cfg fd addr alen rand) := by
  refine logs_wrapLwipConnect (fun iface i w => ?_) (fun s timeoutMs => ?_) (fun i w => ?_)
    (fun i w => ?_) fd alen
  · exact (SameLo.of_shim (SameShim.netTcpOpen ..)).trans
      (SameLo.modFd _ i (fun _ => rfl) fun _ h => h)
  · exact logs_netTcpConnect trivial (fun i w => SameLo.of_shim (SameShim.ffi ..))
      (fun i w => SameLo.of_shim (SameShim.ffi ..)) timeoutMs
  · change SameLo _ _
    exact SameLo.modFd w i (fun _ => rfl) fun _ h => h
  · change SameLo _ _
    exact SameLo.modFd w i (fun _ => rfl) fun _ h => h

theorem logs_sameLo_wrapLwipRecvfrom (cfg : Config) (fd : ℤ) (len : ℕ) :
    Logs (Event.SameLo (S := S)) (wrapLwipRecvfrom cfg fd len) :=
  logs_wrapLwipRecvfrom (fun i timeoutMs => logs_loReceiveWait trivial (SameLo.loReceive i) timeoutMs)
    (fun _ timeoutMs => logs_netUdpRecvfrom trivial
      (fun _ _ _ => SameLo.of_shim (SameShim.ffi ..)) cfg timeoutMs) fd

/-! ## Runs -/

/-- The statics, and what was last bound. -/
structure LoState (S : Smoltcp) where
  world : World S
  bound : Bound

/-- One call on an fd, or something else that happens in between. -/
inductive LoOp
  | socket (domain : ℤ) (type : ℕ)
  | bind (heap : Bool) (fd : ℤ) (addr : SockAddrIn) (alen : ℕ)
  | connect (fd : ℤ) (addr : SockAddrIn) (alen : ℕ) (rand : UInt32)
  | sendto (heap : Bool) (fd : ℤ) (buf : Bytes) (dst : SockAddrIn) (tolen : ℕ)
  | recvfrom (fd : ℤ) (len : ℕ)
  | close (fd : ℤ)
  | others

/-- A new fd has been bound to nothing. -/
def Bound.socket (cfg : Config) (b : Bound) (r : Ret × World S) : Bound :=
  match fdGet cfg r.2 r.1.ret with
  | none => b
  | some i => Function.update b i none

/-- A `bind` that succeeds is the most recent one of its fd. -/
def Bound.bind (cfg : Config) (b : Bound) (w : World S) (fd : ℤ) (addr : SockAddrIn) (r : Ret × World S) :
    Bound :=
  if r.1.ret = 0 then
    match fdGet cfg w fd with
    | none => b
    | some i => Function.update b i (some addr)
  else b

/-- One step of a run.  The calls that block take any step that some run of them makes, so they interleave
with the others; the network and the poll task do not touch the statics of the shim. -/
inductive LoStep (cfg : Config) (s : LoState S) : LoOp → LoState S → Prop
  | socket (domain : ℤ) (type : ℕ) :
      LoStep cfg s (.socket domain type) ⟨(wrapLwipSocket cfg domain type s.world).2,
        s.bound.socket cfg (wrapLwipSocket cfg domain type s.world)⟩
  | bind (heap : Bool) (fd : ℤ) (addr : SockAddrIn) (alen : ℕ) :
      LoStep cfg s (.bind heap fd addr alen) ⟨(wrapLwipBind cfg heap fd addr alen s.world).2,
        s.bound.bind cfg s.world fd addr (wrapLwipBind cfg heap fd addr alen s.world)⟩
  | connect (fd : ℤ) (addr : SockAddrIn) (alen : ℕ) (rand : UInt32) (sched : List (Moment (World S)))
      {call : Call} {w₀ w' : World S}
      (h : .step call s.world w' ∈ ((wrapLwipConnect cfg fd addr alen rand).run w₀ sched).2.log) :
      LoStep cfg s (.connect fd addr alen rand) ⟨w', s.bound⟩
  | sendto (heap : Bool) (fd : ℤ) (buf : Bytes) (dst : SockAddrIn) (tolen : ℕ) :
      LoStep cfg s (.sendto heap fd buf dst tolen)
        ⟨(wrapLwipSendto cfg heap fd buf dst tolen s.world).2, s.bound⟩
  | recvfrom (fd : ℤ) (len : ℕ) (sched : List (Moment (World S))) {call : Call} {w₀ w' : World S}
      (h : .step call s.world w' ∈ ((wrapLwipRecvfrom cfg fd len).run w₀ sched).2.log) :
      LoStep cfg s (.recvfrom fd len) ⟨w', s.bound⟩
  | close (fd : ℤ) : LoStep cfg s (.close fd) ⟨(wrapLwipClose cfg fd s.world).2, s.bound⟩
  | others {w' : World S} (h : SameShim s.world w') : LoStep cfg s .others ⟨w', s.bound⟩

/-- No `close` finds the `local_port` of an fd other than the port of the slot it holds, and no `bind` that
succeeds takes an fd that holds a slot to anything but that port on the loopback. -/
def LoOp.Ok (cfg : Config) (w : World S) : LoOp → Prop
  | bind heap fd addr alen => (wrapLwipBind cfg heap fd addr alen w).1.ret = 0 →
      ∀ i, fdGet cfg w fd = some i → ∀ s ∈ w.loSlots, s.Names i →
        isLoopbackIp addr.addrBe = true ∧ addr.port = s.port
  | close fd => ∀ i, fdGet cfg w fd = some i → ∀ s ∈ w.loSlots, s.Names i →
      (w.fdAt i).localPort = s.port
  | _ => True

/-- The table is sound and tidy. -/
structure LoInv (s : LoState S) : Prop where
  sound : LoSound s.world s.bound
  tidy : LoTidy s.world

theorem LoInv.same {s s' : LoState S} (h : LoInv s) (hs : SameLo s.world s'.world)
    (hbound : s'.bound = s.bound) : LoInv s' := by
  refine ⟨?_, h.tidy.of_same hs⟩
  rw [hbound]
  exact h.sound.of_same hs

theorem LoInv.socket (cfg : Config) {s : LoState S} (h : LoInv s) (domain : ℤ) (type : ℕ) :
    LoInv ⟨(wrapLwipSocket cfg domain type s.world).2,
      s.bound.socket cfg (wrapLwipSocket cfg domain type s.world)⟩ := by
  obtain ⟨hslots, ⟨hnone, hw⟩ | ⟨i, hfree, hbut, hnames⟩⟩ := wrapLwipSocket_cases cfg domain type s.world
  · have hbound : s.bound.socket cfg (wrapLwipSocket cfg domain type s.world) = s.bound := by
      rw [Bound.socket, hnone]
    refine h.same ?_ hbound
    rw [hw]
    exact SameLo.refl _
  · refine ⟨h.sound.setFree hslots hfree hbut fun j hj => ?_, h.tidy.setFree h.sound hslots hfree hbut⟩
    rw [Bound.socket]
    rcases hget : fdGet cfg (wrapLwipSocket cfg domain type s.world).2
      (wrapLwipSocket cfg domain type s.world).1.ret with _ | k
    · rfl
    · obtain rfl := hnames k hget
      exact Function.update_of_ne hj _ _

/-- A `bind` leaves the table sound exactly if it does not move an fd that holds a slot. -/
theorem LoInv.bind {cfg : Config} {s : LoState S} {heap : Bool} {fd : ℤ} {addr : SockAddrIn} {alen : ℕ}
    (h : LoInv s) :
    (LoSound (wrapLwipBind cfg heap fd addr alen s.world).2
        (s.bound.bind cfg s.world fd addr (wrapLwipBind cfg heap fd addr alen s.world)) ↔
      (LoOp.bind heap fd addr alen).Ok cfg s.world) ∧
    LoTidy (wrapLwipBind cfg heap fd addr alen s.world).2 := by
  rw [Bound.bind, LoOp.Ok]
  obtain ⟨hr, hs⟩ | ⟨hr, hi, hlo, hs⟩ | ⟨hr, hi, hkind, hlo, hs, hflag, hk, hw, hport⟩ :=
    bindOutcome cfg heap fd addr alen s.world
  · rw [if_neg hr]
    exact ⟨iff_of_true (h.sound.of_same hs) fun h0 => absurd h0 hr, h.tidy.of_same hs⟩
  · rw [if_pos hr, hi]
    refine ⟨?_, h.tidy.of_same hs⟩
    simp only [hr, Option.some.injEq, forall_eq', forall_const]
    exact h.sound.bind_iff hs _ addr
  · rw [if_pos hr, hi, hw]
    refine ⟨?_, h.tidy.slot hs hflag hport⟩
    simp only [hr, Option.some.injEq, forall_eq', forall_const]
    exact h.sound.slot_iff hs hkind hlo hk

/-- So does a `close`, exactly if it finds every slot of its fd. -/
theorem LoInv.close {cfg : Config} {s : LoState S} {fd : ℤ} (h : LoInv s) :
    (LoSound (wrapLwipClose cfg fd s.world).2 s.bound ↔ (LoOp.close fd).Ok cfg s.world) ∧
      ((LoOp.close fd).Ok cfg s.world → LoTidy (wrapLwipClose cfg fd s.world).2) := by
  rw [LoOp.Ok, wrapLwipClose_snd]
  rcases hfd : fdGet cfg s.world fd with _ | i
  · rw [fdFree, hfd]
    exact ⟨iff_of_true h.sound (by simp), fun _ => h.tidy⟩
  · simp only [Option.some.injEq, forall_eq']
    exact ⟨h.sound.close_iff h.tidy hfd, h.tidy.close hfd⟩

/-- **A step leaves the table sound exactly if it is no such `close` and no such `bind`**; and if it does,
then tidy. -/
theorem LoInv.step {cfg : Config} {s s' : LoState S} {op : LoOp} (h : LoInv s)
    (hstep : LoStep cfg s op s') :
    (LoSound s'.world s'.bound ↔ op.Ok cfg s.world) ∧ (op.Ok cfg s.world → LoTidy s'.world) := by
  have hsame : ∀ {w' : World S}, SameLo s.world w' → (LoSound w' s.bound ↔ True) ∧ (True → LoTidy w') :=
    fun hs => ⟨iff_true_intro (h.sound.of_same hs), fun _ => h.tidy.of_same hs⟩
  rcases hstep with ⟨domain, type⟩ | ⟨heap, fd, addr, alen⟩ | ⟨fd, addr, alen, rand, sched, hmem⟩ |
    ⟨heap, fd, buf, dst, tolen⟩ | ⟨fd, len, sched, hmem⟩ | ⟨fd⟩ | hshim
  · have hsocket := h.socket cfg domain type
    exact ⟨iff_true_intro hsocket.sound, fun _ => hsocket.tidy⟩
  · exact ⟨h.bind.1, fun _ => h.bind.2⟩
  · exact hsame ((logs_sameLo_wrapLwipConnect cfg fd addr alen rand).run _ sched _ hmem)
  · exact hsame (SameLo.wrapLwipSendto ..)
  · exact hsame ((logs_sameLo_wrapLwipRecvfrom cfg fd len).run _ sched _ hmem)
  · exact h.close
  · exact hsame (SameLo.of_shim hshim)

/-- A step of a run of such calls. -/
def LoOkStep (cfg : Config) (s s' : LoState S) : Prop :=
  ∃ op, op.Ok cfg s.world ∧ LoStep cfg s op s'

/-- A table nothing has been bound in. -/
def LoState.start (w : World S) : LoState S := ⟨w, fun _ => none⟩

theorem loSlots_booted (cfg : Config) (ifs : List (IfaceId × (Fin 6 → UInt8))) :
    (World.booted cfg ifs : World S).loSlots = List.replicate 4 {} := by
  have key : ∀ w : World S, (ifs.foldl (fun w p => w.attach p.1 p.2) w).loSlots = w.loSlots := by
    induction ifs with
    | nil => exact fun _ => rfl
    | cons p ifs ih => exact fun w => ih (w.attach p.1 p.2)
  exact key _

theorem loInv_start (cfg : Config) (ifs : List (IfaceId × (Fin 6 → UInt8))) :
    LoInv (LoState.start (World.booted cfg ifs : World S)) := by
  have hfree : ∀ s ∈ (LoState.start (World.booted cfg ifs : World S)).world.loSlots, s = {} := by
    intro s hs
    rw [LoState.start, loSlots_booted] at hs
    exact List.eq_of_mem_replicate hs
  refine ⟨fun s hs hport => ?_, fun s hs i hi => ?_, fun s hs _ => ?_⟩
  · obtain rfl := hfree s hs
    exact absurd rfl hport
  · obtain rfl := hfree s hs
    exact absurd rfl hi.1
  · obtain rfl := hfree s hs
    rfl

/-- **The loopback table over runs.**  While no `close` finds the `local_port` of its fd overwritten and no
successful `bind` moves an fd that holds a slot, every slot in use names a live UDP fd last bound to its port
on the loopback, and a datagram to a loopback port reaches no other fd.  The first step that does one of the
two leaves a slot that names a wrong fd. -/
theorem loSound_of_run {cfg : Config} {ifs : List (IfaceId × (Fin 6 → UInt8))} {s : LoState S}
    (h : Relation.ReflTransGen (LoOkStep cfg) (.start (.booted cfg ifs)) s) :
    LoSound s.world s.bound ∧
      (∀ heap port srcBe srcPort data i,
        (loDeliver heap port srcBe srcPort data s.world).2.fdAt i ≠ s.world.fdAt i →
          Serves s.world s.bound port i) ∧
      ∀ op s', LoStep cfg s op s' → (LoSound s'.world s'.bound ↔ op.Ok cfg s.world) := by
  have hinv : LoInv s := by
    induction h with
    | refl => exact loInv_start cfg ifs
    | tail _ hstep ih =>
      obtain ⟨op, hok, hstep⟩ := hstep
      exact ⟨(ih.step hstep).1.mpr hok, (ih.step hstep).2 hok⟩
  refine ⟨hinv.sound, fun _ _ _ _ _ i hi => hinv.sound.deliver hinv.tidy hi, fun op s' hstep => ?_⟩
  exact (hinv.step hstep).1

/-! ### An fd whose slot is lost -/

/-- Ethernet is attached and an application opens a UDP fd and binds it to `127.0.0.1:5000`. -/
def lentFd : LoState .reference :=
  let w := (wrapLwipSocket .default 2 2 (.booted .default [(.eth, fun _ => 0)])).2
  ⟨(wrapLwipBind .default true 48 ⟨2, 0x0100007F, 5000⟩ sizeofSockAddrIn w).2,
    Function.update (Function.update (fun _ => none) 0 none) 0 (some ⟨2, 0x0100007F, 5000⟩)⟩

/-- It connects the fd to `10.0.0.1:80`. -/
def lentFdConnected : LoState .reference :=
  ⟨((wrapLwipConnect .default 48 ⟨2, 0x0100000A, 80⟩ sizeofSockAddrIn 0).run lentFd.world []).2.world,
    lentFd.bound⟩

theorem run_lentFd : Relation.ReflTransGen (LoOkStep .default)
    (.start (.booted .default [(.eth, fun _ => 0)])) lentFd := by
  refine (Relation.ReflTransGen.single ⟨.socket 2 2, trivial, .socket 2 2⟩).tail
    ⟨.bind true 48 ⟨2, 0x0100007F, 5000⟩ sizeofSockAddrIn, ?_, .bind ..⟩
  rintro - i - s hs hi
  obtain rfl : s = {} := List.eq_of_mem_replicate hs
  exact absurd rfl hi.1

/-- The fd serves its port until it is closed. -/
theorem loSound_lentFd : LoSound lentFd.world lentFd.bound := (loSound_of_run run_lentFd).1

/-- **A slot outlives its fd**: closing the connected fd leaves its slot, which names no live fd; and moving
the fd to another address leaves a slot for a port it is no longer bound to. -/
theorem loopback_slot_outlives :
    (Relation.ReflTransGen (LoOkStep .default) (.start (.booted .default [(.eth, fun _ => 0)]))
        lentFdConnected ∧
      ∃ s', LoStep .default lentFdConnected (.close 48) s' ∧ ¬ LoSound s'.world s'.bound) ∧
    ∃ s', LoStep .default lentFd (.bind true 48 ⟨2, 0, 6000⟩ sizeofSockAddrIn) s' ∧
      ¬ LoSound s'.world s'.bound := by
  have hconnect : Event.step .other lentFd.world lentFdConnected.world ∈
      ((wrapLwipConnect .default 48 ⟨2, 0x0100000A, 80⟩ sizeofSockAddrIn 0).run lentFd.world []).2.log :=
    List.Mem.head _
  refine ⟨⟨run_lentFd.tail ⟨.connect 48 ⟨2, 0x0100000A, 80⟩ sizeofSockAddrIn 0, trivial, ?_⟩, _,
    .close 48, fun hsound => ?_⟩, _, .bind .., fun hsound => ?_⟩
  · exact .connect 48 _ _ 0 [] hconnect
  · obtain ⟨i, hi, hkind, -⟩ := hsound ⟨5000, some 0⟩ (by decide) (by decide)
    obtain rfl := Option.some.inj hi
    exact absurd hkind (by decide)
  · obtain ⟨i, hi, -, a, ha, hlo, -⟩ := hsound ⟨5000, some 0⟩ (by decide) (by decide)
    obtain rfl := Option.some.inj hi
    obtain rfl := Option.some.inj ha
    exact absurd hlo (by decide)

end EspSmoltcp
