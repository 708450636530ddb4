import EspSmoltcp.Compat.SockWrap

/-!
# Compat/SockSpec — what `socket`, `bind`, `listen` and `accept` can do

One case for each way a call ends, with what it has stored until then.  What later modules say about these
calls is a case analysis over them: `SocketSpec`, `BindSpec` with `LoBindSpec`, `ListenSpec` and, for the
connection an `accept` found, `HandOverSpec`.
-/

namespace EspSmoltcp

variable {S : Smoltcp}

/-! ## `socket` -/

/-- `fd_alloc` finds no free entry, or sets up the one it finds. -/
theorem fdAlloc_cases (cfg : Config) (k : FdKind) (w : World S) :
    fdAlloc cfg k w = (-1, w) ∨ ∃ i, i < w.fds.length ∧ (w.fdAt i).kind = .free ∧
      fdAlloc cfg k w
        = ((cfg.fdOffset + i : ℤ), w.setFd i { kind := k, iface := fdDefaultIface cfg w }) := by
  rcases hf : w.fds.findIdx? fun e => decide (e.kind = .free) with _ | i
  · exact .inl (by rw [fdAlloc, hf])
  · obtain ⟨hi, hfree, -⟩ := List.findIdx?_eq_some_iff_getElem.mp hf
    refine .inr ⟨i, hi, ?_, by rw [fdAlloc, hf]⟩
    simpa [World.fdAt, hi] using hfree

/-- What `socket` does once `fd_alloc` has set up an entry of kind `k`: nothing, if the table is longer than
the range of the fds, and otherwise a datagram socket is opened into it; without one the entry goes again. -/
inductive FilledSpec (cfg : Config) (k : FdKind) (i : ℕ) (w : World S) : Ret × World S → Prop
  | outside : FilledSpec cfg k i w (.fail .enfile, w)
  | stream (hk : k ≠ .udp) : FilledSpec cfg k i w (⟨cfg.fdOffset + i, none⟩, w)
  | datagram (hk : k = .udp) {o : NetSock × World S} (ho : netUdpOpen (w.fdAt i).iface 0 w = o)
      (hv : o.1.valid = true) :
      FilledSpec cfg k i w (⟨cfg.fdOffset + i, none⟩, o.2.modFd i fun e => { e with sock := o.1 })
  | dropped (hk : k = .udp) {o : NetSock × World S} (ho : netUdpOpen (w.fdAt i).iface 0 w = o)
      (hv : o.1.valid = false) : FilledSpec cfg k i w (.fail .enobufs,
        fdFree cfg (cfg.fdOffset + i) (o.2.modFd i fun e => { e with sock := o.1 }))

/-- What `socket` does: it fails, or goes on from an entry that was free. -/
inductive SocketSpec (cfg : Config) (w : World S) : Ret × World S → Prop
  | refused (e : Errno) : SocketSpec cfg w (.fail e, w)
  | filled {k : FdKind} {i : ℕ} {w₁ : World S} {r : Ret × World S} (hi : i < w.fds.length)
      (hfree : (w.fdAt i).kind = .free)
      (hw : w.setFd i { kind := k, iface := fdDefaultIface cfg w } = w₁)
      (hr : FilledSpec cfg k i w₁ r) : SocketSpec cfg w r

/-- **`socket` ends in one of these.** -/
theorem wrapLwipSocket_spec (cfg : Config) (domain : ℤ) (type : ℕ) (w : World S) :
    SocketSpec cfg w (wrapLwipSocket cfg domain type w) := by
  rw [wrapLwipSocket]
  split_ifs
  · exact .refused _
  rcases fdKindOf type with _ | k
  · exact .refused _
  simp only
  obtain hfull | ⟨i, hi, hfree, halloc⟩ := fdAlloc_cases cfg k w
  · rw [hfull]
    simp only [fdGet_neg_one]
    exact .refused _
  rw [halloc]
  refine .filled (k := k) hi hfree rfl ?_
  have he := World.fdAt_setFd_self hi { kind := k, iface := fdDefaultIface cfg w }
  generalize w.setFd i _ = w₁ at he ⊢
  simp only
  rcases hget : fdGet cfg w₁ (cfg.fdOffset + i) with _ | j
  · exact .outside
  obtain rfl : i = j := by have := (fdGet_spec hget).1; omega
  -- The flag of a fresh entry is not set.
  have hflag : w₁.modFd i (fun e => { e with nonblocking := false }) = w₁ :=
    World.modFd_eq_self _ (lt_length_of_fdGet hget) (by rw [he])
  simp only [hflag]
  split_ifs with hudp hv
  · exact .datagram hudp rfl hv
  · exact .dropped hudp rfl (by simpa using hv)
  · exact .stream hudp

/-! ## `bind` -/

/-- The first store of `bind`. -/
def FdEntry.bound (addr : SockAddrIn) (e : FdEntry) : FdEntry :=
  { e with localIpv4Be := addr.addrBe, localPort := addr.port }

/-- The store of `lo_bind`. -/
def FdEntry.loBound (e : FdEntry) : FdEntry := { e with loRx := some (e.loRx.getD []), loopback := true }

/-- What `lo_bind` does: nothing; the store without a slot; or it takes a slot as well. -/
inductive LoBindSpec (port : UInt16) (i : ℕ) (w : World S) : EspErr × World S → Prop
  | refused {rc : EspErr} (hrc : rc ≠ .ok) : LoBindSpec port i w (rc, w)
  | full {w' : World S} (hw : w.modFd i FdEntry.loBound = w') : LoBindSpec port i w (.noMem, w')
  | slot {w' : World S} {k : ℕ} (hport : port ≠ 0) (hk : loSlotFor w.loSlots port = some k)
      (hw : w.modFd i FdEntry.loBound = w') :
      LoBindSpec port i w (.ok, { w' with loSlots := w.loSlots.set k ⟨port, some i⟩ })

theorem loBind_spec (heap : Bool) (port : UInt16) (i : ℕ) (w : World S) :
    LoBindSpec port i w (loBind heap port i w) := by
  rw [loBind]
  split_ifs with hport
  · exact .refused (by decide)
  · exact .refused (by decide)
  have hslots : ∀ f, (w.modFd i f).loSlots = w.loSlots := fun _ => rfl
  simp only [hslots]
  rcases hk : loSlotFor w.loSlots port with _ | k
  · exact .full rfl
  · exact .slot hport hk rfl

/-- What `bind` does after its first store: nothing more on a stream fd; `lo_bind`; or its socket is closed, if
there is one, and another opened in its place. -/
inductive BoundSpec (heap : Bool) (addr : SockAddrIn) (i : ℕ) (w : World S) : Ret × World S → Prop
  | stream (hk : (w.fdAt i).kind ≠ .udp) : BoundSpec heap addr i w (⟨0, none⟩, w)
  | loopback (hk : (w.fdAt i).kind = .udp) (hlo : isLoopbackIp addr.addrBe = true) {o : EspErr × World S}
      (ho : loBind heap addr.port i w = o) :
      BoundSpec heap addr i w (if o.1 = .ok then ⟨0, none⟩ else ⟨-1, none⟩, o.2)
  | reopened (hk : (w.fdAt i).kind = .udp) (hlo : isLoopbackIp addr.addrBe = false) {w' : World S}
      {o : NetSock × World S}
      (hclose : (if (w.fdAt i).sock.valid then (netUdpClose (w.fdAt i).sock w).2 else w) = w')
      (ho : netUdpOpen (w.fdAt i).iface addr.port w' = o) : BoundSpec heap addr i w
        (if o.1.valid then ⟨0, none⟩ else .fail .eaddrinuse, o.2.modFd i fun e => { e with sock := o.1 })

/-- What `bind` does: it fails, or stores the address and goes on from there. -/
inductive BindSpec (cfg : Config) (heap : Bool) (fd : ℤ) (addr : SockAddrIn) (w : World S) :
    Ret × World S → Prop
  | refused (e : Errno) : BindSpec cfg heap fd addr w (.fail e, w)
  | stored {i : ℕ} {w₁ : World S} {r : Ret × World S} (hi : fdGet cfg w fd = some i)
      (hw : w.modFd i (·.bound addr) = w₁) (hr : BoundSpec heap addr i w₁ r) :
      BindSpec cfg heap fd addr w r

/-- **`bind` ends in one of these.** -/
theorem wrapLwipBind_spec (cfg : Config) (heap : Bool) (fd : ℤ) (addr : SockAddrIn) (alen : ℕ) (w : World S) :
    BindSpec cfg heap fd addr w (wrapLwipBind cfg heap fd addr alen w) := by
  rw [wrapLwipBind]
  rcases hfd : fdGet cfg w fd with _ | i
  · exact .refused _
  simp only
  by_cases hbad : alen < sizeofSockAddrIn ∨ addr.family ≠ 2
  · rw [if_pos hbad]
    exact .refused _
  rw [if_neg hbad]
  have he := World.fdAt_modFd_self
    (fun e => { e with localIpv4Be := addr.addrBe, localPort := addr.port }) (lt_length_of_fdGet hfd)
  generalize hw₁ : w.modFd i (fun e => { e with localIpv4Be := addr.addrBe, localPort := addr.port }) = w₁
    at he ⊢
  have haddr : (w₁.fdAt i).localIpv4Be = addr.addrBe := by rw [he]
  have hport : (w₁.fdAt i).localPort = addr.port := by rw [he]
  refine .stored hfd hw₁ ?_
  simp only [haddr, hport]
  by_cases hk : (w₁.fdAt i).kind = .udp
  · rw [if_pos hk]
    by_cases hlo : isLoopbackIp addr.addrBe = true
    · rw [if_pos hlo]
      exact .loopback hk hlo rfl
    · rw [if_neg hlo]
      exact .reopened hk (Bool.eq_false_iff.mpr hlo) rfl rfl
  · rw [if_neg hk]
    exact .stream hk

/-! ## `listen` -/

/-- The store of `listen`. -/
def FdEntry.listening (n : ℕ) (e : FdEntry) : FdEntry :=
  { e with pool := List.replicate n .invalid, poolNext := 0, port := e.localPort, kind := .tcpListen }

section Listen

variable {cfg : Config} {heap : Bool} {fd : ℤ} {i : ℕ} {w : World S}

theorem wrapLwipListen_refused (hfd : fdGet cfg w fd = some i)
    (h : (w.fdAt i).kind ≠ .tcp ∨ (w.fdAt i).localPort = 0 ∨ heap = false) (backlog : ℤ) :
    ∃ e, wrapLwipListen cfg heap fd backlog w = (.fail e, w) := by
  rw [wrapLwipListen, hfd]
  simp only
  split_ifs with hk hport hheap
  · exact ⟨_, rfl⟩
  · exact ⟨_, rfl⟩
  · exact ⟨_, rfl⟩
  · obtain h | h | rfl := h
    · exact absurd h hk
    · exact absurd h hport
    · exact absurd rfl hheap

/-- Past its checks `listen` makes the entry a listener and arms the slots. -/
theorem wrapLwipListen_listener (hfd : fdGet cfg w fd = some i) (hk : (w.fdAt i).kind = .tcp)
    (hport : (w.fdAt i).localPort ≠ 0) (backlog : ℤ) : wrapLwipListen cfg true fd backlog w
      = armSlots i 0 (poolSize cfg backlog) (w.modFd i (·.listening (poolSize cfg backlog))) := by
  rw [wrapLwipListen, hfd]
  simp only
  rw [if_neg (not_not_intro hk), if_neg hport]
  rfl

end Listen

/-- What `listen` does: it fails, or goes on from a listener. -/
inductive ListenSpec (cfg : Config) (fd backlog : ℤ) (w : World S) : Ret × World S → Prop
  | refused (e : Errno) : ListenSpec cfg fd backlog w (.fail e, w)
  | armed {i : ℕ} {w₁ : World S} (hi : fdGet cfg w fd = some i) (hk : (w.fdAt i).kind = .tcp)
      (hport : (w.fdAt i).localPort ≠ 0) (hw : w.modFd i (·.listening (poolSize cfg backlog)) = w₁)
      (hlt : i < w₁.fds.length) (he : w₁.fdAt i = (w.fdAt i).listening (poolSize cfg backlog)) :
      ListenSpec cfg fd backlog w (armSlots i 0 (poolSize cfg backlog) w₁)

/-- **`listen` ends in one of these.** -/
theorem wrapLwipListen_spec (cfg : Config) (heap : Bool) (fd backlog : ℤ) (w : World S) :
    ListenSpec cfg fd backlog w (wrapLwipListen cfg heap fd backlog w) := by
  rcases hfd : fdGet cfg w fd with _ | i
  · rw [wrapLwipListen, hfd]
    exact .refused _
  by_cases hchecks : (w.fdAt i).kind ≠ .tcp ∨ (w.fdAt i).localPort = 0 ∨ heap = false
  · obtain ⟨e, he⟩ := wrapLwipListen_refused hfd hchecks backlog
    rw [he]
    exact .refused e
  · obtain ⟨hk, hport, hheap⟩ : _ ∧ _ ∧ _ := by simpa only [not_or, not_not, Bool.not_eq_false] using hchecks
    subst hheap
    rw [wrapLwipListen_listener hfd hk hport]
    have hi := lt_length_of_fdGet hfd
    refine .armed hfd hk hport rfl ?_ (World.fdAt_modFd_self _ hi)
    rw [World.length_fds_modFd]
    exact hi

/-! ## `accept` -/

/-- What `accept` makes of a connection: there is no free entry; the free entry is out of the range of the fds;
or the entry takes the connection over, and its slot is filled again and armed. -/
inductive HandOverSpec (cfg : Config) (i idx : ℕ) (cand : NetSock) (w : World S) : Ret × World S → Prop
  | full (h : fdAlloc cfg .tcp w = (-1, w)) : HandOverSpec cfg i idx cand w (.fail .enfile, w)
  | outside {n : ℕ} {w₁ : World S} (hn : n < w.fds.length) (hfree : (w.fdAt n).kind = .free)
      (hw : w.setFd n { kind := .tcp, iface := fdDefaultIface cfg w } = w₁)
      (hget : fdGet cfg w₁ (cfg.fdOffset + n) = none) :
      HandOverSpec cfg i idx cand w (.fail .enfile, w₁)
  | given {n : ℕ} {v : IfaceId} {port : UInt16} {w₁ w₃ w₄ : World S} {o : NetSock × World S}
      (hn : n < w.fds.length) (hfree : (w.fdAt n).kind = .free)
      (he : n ≠ i → v = (w.fdAt i).iface ∧ port = (w.fdAt i).port)
      (hw : w.setFd n { kind := .tcp, sock := cand, connected := true, iface := v } = w₁)
      (ho : netTcpOpen v w₁ = o) (hput : o.2.modFd i (fun e => { e with pool := e.pool.set idx o.1 }) = w₃)
      (harm : (if o.1.valid then (netTcpListen o.1 port w₃).2 else w₃) = w₄) :
      HandOverSpec cfg i idx cand w (⟨cfg.fdOffset + n, none⟩,
        w₄.modFd i fun e => { e with poolNext := (idx + 1) % e.pool.length })

/-- **A connection found ends in one of these.** -/
theorem handOver_spec (cfg : Config) (i idx : ℕ) (cand : NetSock) (w : World S) :
    HandOverSpec cfg i idx cand w (handOver cfg i idx cand w) := by
  rw [handOver]
  obtain hfull | ⟨n, hn, hfree, halloc⟩ := fdAlloc_cases cfg .tcp w
  · rw [hfull]
    simp only [fdGet_neg_one]
    exact .full hfull
  rw [halloc]
  simp only
  rcases hget : fdGet cfg (w.setFd n { kind := .tcp, iface := fdDefaultIface cfg w })
      (cfg.fdOffset + n) with _ | j
  · exact .outside hn hfree rfl hget
  obtain rfl : n = j := by have := (fdGet_spec hget).1; omega
  simp only
  generalize hv : ((w.setFd n { kind := .tcp, iface := fdDefaultIface cfg w }).fdAt i).iface = v
  generalize hp : ((w.setFd n { kind := .tcp, iface := fdDefaultIface cfg w }).fdAt i).port = port
  -- Two stores into the new entry are one.
  have htaken : (w.setFd n { kind := .tcp, iface := fdDefaultIface cfg w }).modFd n (fun ne =>
      { ne with sock := cand, connected := true, iface := v, nonblocking := false })
        = w.setFd n { kind := .tcp, sock := cand, connected := true, iface := v } := by
    rw [World.modFd, World.fdAt_setFd_self hn]
    simp [World.setFd]
  rw [htaken]
  refine .given hn hfree (fun hni => ?_) rfl rfl rfl rfl
  have he := World.fdAt_setFd_ne (w := w) hni.symm { kind := .tcp, iface := fdDefaultIface cfg w }
  exact ⟨by rw [← hv, he], by rw [← hp, he]⟩

end EspSmoltcp
