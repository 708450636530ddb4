import EspSmoltcp.Compat.Holdings
import EspSmoltcp.Smoltcp.Reference
import EspSmoltcp.Stack.Kinds
import EspSmoltcp.Stack.Sessions

/-!
# Compat/Ownership — who owns the sockets of the core

Over any run of `socket`, `bind`, `listen`, `accept`, `connect`, `shutdown` and `close`, the handles in
the fd table are compared with the sockets the core has registered.  Ownership moves between the `sock`
field, the pool and new fds, and every move keeps the books balanced but one: `connect` overwrites a
`sock` field without closing what it held.

So the table owns exactly what is registered, each socket once, as long as no `connect` finds a TCP fd
that holds a socket already (`exactlyOwned_of_run`); a second `connect` leaks the first one's socket.
-/

namespace EspSmoltcp

open Thread (Along Stable Triple)

variable {S : Smoltcp} {α : Type}

/-! ## Balanced books -/

/-- The fd table holds exactly the registered sockets, while ids fit a handle. -/
structure Accounted (n : ℕ) (w : World S) : Prop where
  held : Held n w.holdings w
  tidy : w.Tidy

namespace Accounted

variable {n : ℕ} {w w' : World S} {i : ℕ}

theorem mono {m : ℕ} (h : Accounted n w) (hnm : n ≤ m) : Accounted m w := ⟨h.held.mono hnm, h.tidy⟩

theorem calm (h : Accounted n w) (hc : Calm w w') : Accounted n w' := by
  refine ⟨?_, ?_⟩
  · rw [World.holdings, hc.fds]
    exact h.held.calm hc
  · intro j
    rw [World.fdAt, hc.fds]
    exact h.tidy j

/-- **The table is brought in line with the ledger**: after some calls on the core, one entry is
replaced. -/
theorem place {rest : List (NetSock × SockKind)} {e : FdEntry} (htidy : w.Tidy)
    (hset : (w.setFd i e).holdings.Perm (e.holdings ++ rest))
    (hfds : w'.fds = w.fds) (hheld : Held n (e.holdings ++ rest) w')
    (hpool : e.kind = .tcp ∨ e.kind = .udp → e.pool = []) : Accounted n (w'.setFd i e) := by
  have hsame : (w'.setFd i e).fds = (w.setFd i e).fds := by
    rw [World.fds_setFd, World.fds_setFd, hfds]
  refine ⟨?_, ?_⟩
  · rw [World.holdings, hsame]
    exact (hheld.perm hset.symm).of_ifaces rfl
  · intro j
    rw [World.fdAt, hsame]
    exact htidy.setFd hpool j

/-- Statics that hold no handle do not matter. -/
theorem of_same (h : Accounted n w) (hs : SameHandles w w') : Accounted n w' :=
  ⟨hs.holdings ▸ h.held.of_ifaces hs.ifaces, hs.tidy h.tidy⟩

/-- The ledger, with one entry's holdings apart. -/
theorem split (h : Accounted n w) (hi : i < w.fds.length) :
    ∃ rest, Held n ((w.fdAt i).holdings ++ rest) w ∧
      ∀ e, (w.setFd i e).holdings.Perm (e.holdings ++ rest) := by
  obtain ⟨rest, hold, hset⟩ := World.holdings_modFd hi
  exact ⟨rest, h.held.perm hold, hset⟩

/-! ## `fd_alloc` and `fd_free` -/

/-- An entry fresh from `fd_alloc` holds nothing. -/
theorem setFd_fresh (h : Accounted n w) (hfree : (w.fdAt i).kind = .free) {e : FdEntry}
    (hsock : e.sock = .invalid) (hpool : e.pool = []) : Accounted n (w.setFd i e) := by
  have hnone : e.holdings = [] := by
    rw [FdEntry.holdings, hsock, hpool]
    rcases e.kind with _ | _ | _ | _ <;> rfl
  have hsame := World.holdings_setFd_same (hnone.trans (FdEntry.holdings_of_free hfree).symm)
  exact ⟨(h.held.perm hsame.symm).of_ifaces rfl, h.tidy.setFd fun _ => hpool⟩

theorem fdFree (h : Accounted n w) (cfg : Config) (fd : ℤ) : Accounted n (fdFree cfg fd w) := by
  rw [EspSmoltcp.fdFree]
  rcases hfd : fdGet cfg w fd with _ | i
  · exact h
  simp only
  generalize hw₁ : (if (w.fdAt i).loopback = true then (loUnbind (w.fdAt i).localPort i w).modFd i
    fun e => { e with loRx := none, loopback := false } else w) = w₁
  have hs : SameHandles w w₁ := by
    rw [← hw₁]
    split_ifs
    · exact (SameHandles.loUnbind _ i w).trans (SameHandles.modFd _ i fun _ => rfl)
    · exact SameHandles.refl w
  have h₁ := h.of_same hs
  obtain ⟨rest, hheld, hset⟩ := h₁.split (hs.length ▸ lt_length_of_fdGet hfd)
  have hkind : (w₁.fdAt i).kind ≠ .free := hs.kind i ▸ (fdGet_spec hfd).2.2
  rw [FdEntry.holdings_eq hkind (h₁.tidy i), hs.kind, hs.sock, hs.pool, List.append_assoc] at hheld
  refine place h₁.tidy (hset _) ?_ ?_ ?_
  · rw [(SameShim.closePool _ _).fds, (SameShim.closeOwned _ _ _).fds]
  · rw [FdEntry.holdings_of_free rfl]
    exact hheld.closeOwned.closePool
  · simp

/-! ## The calls -/

/-- A socket is opened into the `sock` field of an entry that held nothing there. -/
theorem putSock {rest : List (NetSock × SockKind)} {P : Socket S → Prop} {k : SockKind}
    {iface : IfaceId} {r : NetSock × World S} (htidy : w.Tidy)
    (hset : ∀ e, (w.setFd i e).holdings.Perm (e.holdings ++ rest)) (hfds : w'.fds = w.fds)
    (hheld : Held n rest w') (hn : n < 2 ^ 8) (hr : OpenSpec P iface w' r)
    (hP : ∀ x, P x → x.kind? = some k)
    (hk : ∀ s, { w.fdAt i with sock := s }.holdings = holding k s) :
    Accounted (n + 1) (r.2.modFd i fun e => { e with sock := r.1 }) := by
  have hfds' : r.2.fds = w.fds := hr.fds.trans hfds
  have he : r.2.fdAt i = w.fdAt i := by rw [World.fdAt, hfds']; rfl
  rw [World.modFd, he]
  refine place htidy (hset _) hfds' ?_ (htidy i)
  rw [hk]
  exact hheld.opened hr hP hn

theorem wrapLwipSocket (h : Accounted n w) (hn : n < 2 ^ 8) (cfg : Config) (domain : ℤ) (type : ℕ) :
    Accounted (n + 1) (wrapLwipSocket cfg domain type w).2 := by
  have hn' := Nat.le_succ n
  have hspec := wrapLwipSocket_spec cfg domain type w
  generalize EspSmoltcp.wrapLwipSocket cfg domain type w = r at hspec ⊢
  cases hspec with
  | refused => exact h.mono hn'
  | @filled k i w₁ r hi hfree hw hr =>
    have h₁ : Accounted n w₁ := hw ▸ h.setFd_fresh hfree rfl rfl
    have he : w₁.fdAt i = { kind := k, iface := fdDefaultIface cfg w } :=
      hw ▸ World.fdAt_setFd_self hi _
    have hi₁ : i < w₁.fds.length := by
      rw [← hw, World.setFd, List.length_set]
      exact hi
    have hput : k = .udp → Accounted (n + 1) ((netUdpOpen (w₁.fdAt i).iface 0 w₁).2.modFd i
        fun e => { e with sock := (netUdpOpen (w₁.fdAt i).iface 0 w₁).1 }) := by
      rintro rfl
      obtain ⟨rest, hheld, hset⟩ := h₁.split hi₁
      have hkind : (w₁.fdAt i).kind = .udp := by rw [he]
      have hsock : (w₁.fdAt i).sock = .invalid := by rw [he]
      rw [FdEntry.holdings_of_udp hkind, hsock, holding_invalid, List.nil_append] at hheld
      exact putSock h₁.tidy hset rfl hheld hn (netUdpOpen_spec _ 0 w₁) (by rintro x ⟨u, rfl⟩; rfl)
        fun s => FdEntry.holdings_of_udp hkind
    cases hr with
    | outside => exact h₁.mono hn'
    | stream => exact h₁.mono hn'
    | datagram hudp ho => exact ho ▸ hput hudp
    | dropped hudp ho => exact fdFree (ho ▸ hput hudp) cfg _

theorem wrapLwipBind (h : Accounted n w) (hn : n < 2 ^ 8) (cfg : Config) (heap : Bool) (fd : ℤ)
    (addr : SockAddrIn) (alen : ℕ) : Accounted (n + 1) (wrapLwipBind cfg heap fd addr alen w).2 := by
  have hn' := Nat.le_succ n
  have hspec := wrapLwipBind_spec cfg heap fd addr alen w
  generalize EspSmoltcp.wrapLwipBind cfg heap fd addr alen w = r at hspec ⊢
  cases hspec with
  | refused => exact h.mono hn'
  | @stored i w₁ r hfd hw hr =>
    have hs : SameHandles w w₁ := hw ▸ SameHandles.modFd w i fun _ => rfl
    have h₁ := h.of_same hs
    cases hr with
    | stream => exact h₁.mono hn'
    | loopback _ _ ho => exact ho ▸ (h₁.of_same (SameHandles.loBind ..)).mono hn'
    | @reopened hudp _ w₂ o hclose ho =>
      obtain ⟨rest, hheld, hset⟩ := h₁.split (hs.length ▸ lt_length_of_fdGet hfd)
      rw [FdEntry.holdings_of_udp hudp] at hheld
      -- The old socket goes, if there is one.
      have hclosed : w₂.fds = w₁.fds ∧ Held n rest w₂ := by
        rw [← hclose]
        split_ifs with hv
        · exact ⟨(SameShim.netUdpClose _ w₁).fds, hheld.netUdpClose hv⟩
        · rw [holding_of_not_valid hv, List.nil_append] at hheld
          exact ⟨rfl, hheld⟩
      subst ho
      exact putSock h₁.tidy hset hclosed.1 hclosed.2 hn (netUdpOpen_spec _ _ w₂)
        (by rintro x ⟨u, rfl⟩; rfl) fun s => FdEntry.holdings_of_udp hudp

/-- A slot of a listener is filled by an open; what it held is accounted for elsewhere. -/
theorem putSlot {l : List (NetSock × SockKind)} {c : NetSock} {idx : ℕ} (hheld : Held n l w)
    (htidy : w.Tidy) (hl : w.holdings.Perm (holding .tcp c ++ l)) (hn : n < 2 ^ 8)
    (hi : i < w.fds.length) (hk : (w.fdAt i).kind = .tcpListen)
    (hidx : (w.fdAt i).pool[idx]? = some c) (iface : IfaceId) :
    Accounted (n + 1) ((netTcpOpen iface w).2.modFd i fun e =>
      { e with pool := e.pool.set idx (netTcpOpen iface w).1 }) := by
  obtain ⟨rest, hold, hset⟩ := World.holdings_modFd hi
  obtain ⟨others, hslot, hnew⟩ := perm_flatMap_set (w.fdAt i).pool (holding .tcp) hidx
  have hspec := netTcpOpen_spec iface w
  have he : (netTcpOpen iface w).2.fdAt i = w.fdAt i := by rw [World.fdAt, hspec.fds]; rfl
  rw [World.modFd, he]
  refine place htidy (hset _) hspec.fds ?_ (by simp [hk])
  refine (hheld.netTcpOpen iface hn).perm (List.perm_iff_count.mpr fun p => ?_)
  have h₁ := hl.count_eq p
  have h₂ := hold.count_eq p
  have h₃ := hslot.count_eq p
  have h₄ := (hnew (netTcpOpen iface w).1).count_eq p
  rw [FdEntry.holdings_of_listen hk] at h₂
  rw [FdEntry.holdings_of_listen (by exact hk)]
  simp only [poolHoldings, List.count_append] at h₁ h₂ h₃ h₄ ⊢
  omega

theorem armSlots {k m : ℕ} (h : Accounted n w) (hn : n + m ≤ 2 ^ 8) (hi : i < w.fds.length)
    (hk : (w.fdAt i).kind = .tcpListen) (hlen : k + m ≤ (w.fdAt i).pool.length)
    (hrest : ∀ j, k ≤ j → j < (w.fdAt i).pool.length → (w.fdAt i).pool[j]? = some .invalid) :
    Accounted (n + m) (armSlots i k m w).2 := by
  induction m generalizing k n w with
  | zero => exact h
  | succ m ih =>
    rw [EspSmoltcp.armSlots]
    simp only
    have h₁ := putSlot h.held h.tidy (List.Perm.refl _) (by omega) hi hk
      (hrest k le_rfl (by omega)) (w.fdAt i).iface
    have hfds := (netTcpOpen_spec (w.fdAt i).iface w).fds
    have hi₁ : i < (netTcpOpen (w.fdAt i).iface w).2.fds.length := hfds ▸ hi
    have he := World.fdAt_modFd_self
      (fun e => { e with pool := e.pool.set k (netTcpOpen (w.fdAt i).iface w).1 }) hi₁
    rw [show (netTcpOpen (w.fdAt i).iface w).2.fdAt i = w.fdAt i by rw [World.fdAt, hfds]; rfl] at he
    have hi₂ := (World.length_fds_modFd (i := i) (fun e =>
      { e with pool := e.pool.set k (netTcpOpen (w.fdAt i).iface w).1 })).symm ▸ hi₁
    generalize (netTcpOpen (w.fdAt i).iface w).1 = s at h₁ he hi₂ ⊢
    generalize (netTcpOpen (w.fdAt i).iface w).2.modFd i
      (fun e => { e with pool := e.pool.set k s }) = w₁ at h₁ he hi₂ ⊢
    have hcalm := h₁.held.wf.calm_netTcpListen s (w.fdAt i).port
    have h₂ := h₁.calm hcalm
    have he₂ : (netTcpListen s (w.fdAt i).port w₁).2.fdAt i = w₁.fdAt i := by
      rw [World.fdAt, hcalm.fds]
      rfl
    rw [show n + (m + 1) = n + 1 + m by omega]
    split_ifs
    · refine ih h₂ (by omega) (hcalm.fds ▸ hi₂) ?_ ?_ ?_
      · rw [he₂, he]
        exact hk
      · rw [he₂, he, List.length_set]
        omega
      · rw [he₂, he]
        intro j hkj hj
        rw [List.length_set] at hj
        rw [List.getElem?_set_ne (by omega)]
        exact hrest j (by omega) hj
    · exact h₂.mono (by omega)
    · exact h₁.mono (by omega)

theorem wrapLwipListen (h : Accounted n w) (cfg : Config) (hn : n + cfg.listenerPool ≤ 2 ^ 8)
    (heap : Bool) (fd backlog : ℤ) :
    Accounted (n + cfg.listenerPool) (wrapLwipListen cfg heap fd backlog w).2 := by
  have hn' := Nat.le_add_right n cfg.listenerPool
  have hsize := poolSize_le cfg backlog
  have hspec := wrapLwipListen_spec cfg heap fd backlog w
  generalize EspSmoltcp.wrapLwipListen cfg heap fd backlog w = r at hspec ⊢
  cases hspec with
  | refused => exact h.mono hn'
  | @armed i w₁ _ hk _ hw hlt he =>
    have hsame : ((w.fdAt i).listening (poolSize cfg backlog)).holdings = (w.fdAt i).holdings := by
      rw [FdEntry.holdings_of_listen rfl, FdEntry.holdings_of_tcp hk, FdEntry.listening,
        poolHoldings_replicate, List.append_nil]
    have h₁ : Accounted n w₁ := by
      rw [← hw]
      exact ⟨(h.held.perm (World.holdings_setFd_same hsame).symm).of_ifaces rfl,
        h.tidy.setFd (by simp [FdEntry.listening])⟩
    have hpool : (w₁.fdAt i).pool = List.replicate (poolSize cfg backlog) .invalid := by rw [he]; rfl
    refine (h₁.armSlots (by omega) hlt (by rw [he]; rfl) ?_ ?_).mono (by omega)
    · rw [hpool, List.length_replicate]
      omega
    · rw [hpool]
      intro j _ hj
      rw [List.length_replicate] at hj
      rw [List.getElem?_replicate_of_lt hj]

theorem wrapLwipShutdown (h : Accounted n w) (cfg : Config) (fd : ℤ) :
    Accounted n (wrapLwipShutdown cfg fd w).2 := by
  rw [EspSmoltcp.wrapLwipShutdown]
  rcases hfd : fdGet cfg w fd with _ | i
  · exact h
  simp only
  split_ifs with hv
  · obtain ⟨rest, hheld, hset⟩ := h.split (lt_length_of_fdGet hfd)
    rw [FdEntry.holdings_of_tcp hv.1] at hheld
    have he : (netTcpClose (w.fdAt i).sock w).2.fdAt i = w.fdAt i := by
      rw [World.fdAt, (SameShim.netTcpClose _ _).fds]
      rfl
    rw [World.modFd, he]
    refine place h.tidy (hset _) (SameShim.netTcpClose _ w).fds ?_ (h.tidy i)
    rw [FdEntry.holdings_of_tcp (by exact hv.1)]
    exact hheld.netTcpClose hv.2
  · exact h

/-! ## `accept` -/

/-- **A connection moves from its slot to a new fd, and the slot is filled again.** -/
theorem handOver (h : Accounted n w) (hn : n < 2 ^ 8) (cfg : Config) (hi : i < w.fds.length)
    (hk : (w.fdAt i).kind = .tcpListen) {idx : ℕ} {cand : NetSock}
    (hidx : (w.fdAt i).pool[idx]? = some cand) :
    Accounted (n + 1) (handOver cfg i idx cand w).2 := by
  have hn' := Nat.le_succ n
  have hspec := handOver_spec cfg i idx cand w
  generalize EspSmoltcp.handOver cfg i idx cand w = r at hspec ⊢
  cases hspec with
  | full => exact h.mono hn'
  | outside _ hfree hw => exact (hw ▸ h.setFd_fresh hfree rfl rfl : Accounted n _).mono hn'
  | @given j v port w₁ w₃ w₄ o hj hfree _ hw ho hput harm =>
    have hij : i ≠ j := by
      rintro rfl
      rw [hk] at hfree
      cases hfree
    -- The new entry takes the connection over: for a moment it is held twice.
    have he₁ : w₁.fdAt i = w.fdAt i := hw ▸ World.fdAt_setFd_ne hij _
    have hi₁ : i < w₁.fds.length := by
      rw [← hw, World.fds_setFd, List.length_set]
      exact hi
    have htidy₁ : w₁.Tidy := hw ▸ h.tidy.setFd fun _ => rfl
    have hhold₁ : w₁.holdings.Perm (holding .tcp cand ++ w.holdings) := by
      obtain ⟨rest, hold, hset⟩ := World.holdings_modFd hj
      rw [FdEntry.holdings_of_free hfree, List.nil_append] at hold
      rw [← hw]
      exact (hset _).trans (hold.symm.append_left _)
    have hheld₁ : Held n w.holdings w₁ := h.held.of_ifaces (hw ▸ rfl)
    have h₃ := putSlot hheld₁ htidy₁ hhold₁ hn hi₁ (he₁ ▸ hk) (he₁ ▸ hidx) v
    rw [ho, hput] at h₃
    dsimp only
    refine of_same ?_ (SameHandles.modFd w₄ i fun _ => rfl)
    rw [← harm]
    split_ifs
    · exact h₃.calm (h₃.held.wf.calm_netTcpListen ..)
    · exact h₃

/-- A scan either hands a connection over or leaves everything alone. -/
theorem acceptScan (h : Accounted n w) (hn : n < 2 ^ 8) (cfg : Config) (hi : i < w.fds.length)
    (hk : (w.fdAt i).kind = .tcpListen) {ks : List ℕ} (hks : ∀ k ∈ ks, k < (w.fdAt i).pool.length) :
    ((acceptScan cfg i ks w).1 = none → Calm w (acceptScan cfg i ks w).2) ∧
      Accounted (n + 1) (acceptScan cfg i ks w).2 := by
  induction ks generalizing w with
  | nil => exact ⟨fun _ => h.held.wf.calm_refl, h.mono (Nat.le_succ n)⟩
  | cons k ks ih =>
    rw [EspSmoltcp.acceptScan]
    simp only
    generalize hidx : ((w.fdAt i).poolNext + k) % (w.fdAt i).pool.length = idx
    have hlt : idx < (w.fdAt i).pool.length :=
      hidx ▸ Nat.mod_lt _ (by have := hks k List.mem_cons_self; omega)
    generalize hcand : (w.fdAt i).pool.getD idx .invalid = cand
    have hslot : (w.fdAt i).pool[idx]? = some cand := by
      rw [← hcand, List.getD_eq_getElem?_getD, List.getElem?_eq_getElem hlt]
      rfl
    have hcalm := h.held.wf.calm_netTcpIsConnected cand
    have h₁ := h.calm hcalm
    have he : (netTcpIsConnected cand w).2.fdAt i = w.fdAt i := by
      rw [World.fdAt, hcalm.fds]
      rfl
    have hi₁ : i < (netTcpIsConnected cand w).2.fds.length := hcalm.fds.symm ▸ hi
    split_ifs
    · exact ⟨False.elim, h₁.handOver hn cfg hi₁ (he ▸ hk) (he ▸ hslot)⟩
    · obtain ⟨hquiet, hacc⟩ := ih h₁ hi₁ (he ▸ hk) (by
        rw [he]
        exact fun k' hk' => hks k' (List.mem_cons_of_mem k hk'))
      exact ⟨fun hnone => hcalm.trans (hquiet hnone), hacc⟩

end Accounted

/-! ## Blocking calls -/

/-- The others only move data and connections: the network, and the poll task. -/
def Quiet (env : World S → World S) : Prop := ∀ w, w.Wf → Calm w (env w)

/-- A property of the world that calm steps keep. -/
structure Steady (J : World S → Prop) : Prop where
  wf : ∀ w, J w → w.Wf
  calm : ∀ w w', J w → Calm w w' → J w'

namespace Steady

variable {J : World S → Prop}

theorem stable (h : Steady J) : Stable Quiet J := fun env henv w hw =>
  h.calm w (env w) hw (henv w (h.wf w hw))

theorem accounted (n : ℕ) : Steady (Accounted (S := S) n) :=
  ⟨fun _ h => h.held.wf, fun _ _ h hc => h.calm hc⟩

/-- So calls on a handle keep it too. -/
theorem kept (h : Steady J) (k : SockKind) (s : NetSock) : Kept Quiet J k s where
  stable := h.stable
  call i err _ _ hg w hw := h.calm w _ hw ((h.wf w hw).calm_ffi i err hg.calm)

end Steady

/-- **`accept`, from its scans**: it starts in `A`, waits in `J` of the listener, and ends in `B`, if a scan
that hands nothing over keeps `J` and every scan establishes `B`. -/
theorem along_wrapLwipAccept {cfg : Config} {fd : ℤ} {rely : (World S → World S) → Prop}
    {A B : World S → Prop} {J : ℕ → World S → Prop} {E : Sys (World S) (Event S) → Prop}
    (hst : ∀ i, Stable rely (J i)) (hE : ∀ i s, Along rely (J i) s → E s)
    (hAB : ∀ w, A w → B w) (hJB : ∀ i w, J i w → B w)
    (hstart : ∀ w i, A w → fdGet cfg w fd = some i → (w.fdAt i).kind = .tcpListen → J i w)
    (hscan : ∀ i w, J i w →
      ((acceptScan cfg i (List.range (w.fdAt i).pool.length) w).1 = none →
        J i (acceptScan cfg i (List.range (w.fdAt i).pool.length) w).2) ∧
      B (acceptScan cfg i (List.range (w.fdAt i).pool.length) w).2) :
    Triple (Along rely A) (wrapLwipAccept cfg fd) (fun _ => Along rely B) E := by
  refine Triple.bind Along.world fun w₀ => ?_
  rcases hfd : fdGet cfg w₀ fd with _ | i
  · exact Triple.pure _ fun s hs => ⟨hAB _ hs.1.1, hs.2⟩
  refine Triple.bind Along.world fun w₁ => ?_
  split_ifs with hk
  · exact Triple.pure _ fun s hs => ⟨hAB _ hs.1.1.1, hs.2⟩
  have hinit : ∀ s : Sys (World S) (Event S),
      Along rely (fun w' => (A w' ∧ w' = w₀) ∧ w' = w₁) s → Along rely (J i) s := by
    rintro s ⟨⟨⟨hA, rfl⟩, rfl⟩, hq⟩
    exact ⟨hstart _ i hA hfd (not_not.mp hk), hq⟩
  refine Triple.bind (Triple.consequence (along_xTaskGetTickCount (hst i) (hE i))
    hinit fun _ _ hs => hs) fun start => ?_
  refine Triple.loop (I := fun _ => Along rely (J i)) (fun _ => hE i) (fun _ => ?_) ()
  refine Triple.bind Along.world fun w₂ => ?_
  let K : Option Ret → World S → Prop := fun o w => o.elim (J i w) fun _ => B w
  refine Triple.bind (Q := fun o => Along rely (K o)) (along_atomically ?_) fun o => ?_
  · rintro w ⟨h, rfl⟩
    obtain ⟨hquiet, hB⟩ := hscan i w h
    rcases ho : (acceptScan cfg i (List.range (w.fdAt i).pool.length) w).1 with _ | r
    · exact hquiet ho
    · exact hB
  rcases o with _ | r
  · refine Triple.bind (Q := fun _ => Along rely (J i)) (Triple.world fun _ hs => hs) fun w₃ => ?_
    split_ifs
    · exact Triple.pure _ fun s hs => ⟨hJB i _ hs.1, hs.2⟩
    · refine Triple.bind (along_xTaskGetTickCount (hst i) (hE i)) fun now => ?_
      split_ifs
      · exact Triple.pure _ fun s hs => ⟨hJB i _ hs.1, hs.2⟩
      · exact Triple.bind (along_blockingWait (hst i) (hE i)) fun _ =>
          Triple.pure _ fun _ hs => hs
  · exact Triple.pure _ fun _ hs => hs

/-- The state `accept` waits in. -/
def Listening (i : ℕ) (w : World S) : Prop :=
  Accounted 0 w ∧ i < w.fds.length ∧ (w.fdAt i).kind = .tcpListen

theorem steady_listening (i : ℕ) : Steady (Listening (S := S) i) := by
  refine ⟨fun w h => h.1.held.wf, fun w w' h hc => ⟨h.1.calm hc, hc.fds ▸ h.2.1, ?_⟩⟩
  rw [World.fdAt, hc.fds]
  exact h.2.2

theorem Accounted.wrapLwipAccept (cfg : Config) (fd : ℤ) :
    Triple (Along Quiet (Accounted (S := S) 0)) (wrapLwipAccept cfg fd)
      (fun _ => Along Quiet (Accounted 1)) fun _ => True := by
  have hst := steady_listening (S := S)
  refine along_wrapLwipAccept (J := Listening) (fun i => (hst i).stable) (fun _ _ _ => trivial)
    (fun w h => h.mono (Nat.zero_le 1)) (fun i w h => h.1.mono (Nat.zero_le 1)) ?_ ?_
  · exact fun w i h hfd hk => ⟨h, lt_length_of_fdGet hfd, hk⟩
  · intro i w h
    obtain ⟨hquiet, hacc⟩ := h.1.acceptScan (by decide) cfg h.2.1 h.2.2 fun k hk =>
      List.mem_range.mp hk
    exact ⟨fun hnone => (hst i).calm w _ h (hquiet hnone), hacc⟩

/-- The entry a `connect` would overwrite holds nothing. -/
def ConnectFresh (cfg : Config) (fd : ℤ) (alen : ℕ) (w : World S) : Prop :=
  ∀ i, fdGet cfg w fd = some i → (w.fdAt i).kind = .tcp → sizeofSockAddrIn ≤ alen →
    (w.fdAt i).sock.valid = false

theorem Accounted.wrapLwipConnect (cfg : Config) (fd : ℤ) (addr : SockAddrIn) (alen : ℕ)
    (rand : UInt32) :
    Triple (Along Quiet fun w : World S => Accounted 0 w ∧ ConnectFresh cfg fd alen w)
      (wrapLwipConnect cfg fd addr alen rand) (fun _ => Along Quiet (Accounted 1)) fun _ => True := by
  have hmono : ∀ w : World S, Accounted 0 w → Accounted 1 w := fun w h => h.mono (Nat.zero_le 1)
  refine Triple.bind Along.world fun w₀ => ?_
  rcases hfd : fdGet cfg w₀ fd with _ | i
  · exact Triple.pure _ fun s hs => ⟨hmono _ hs.1.1.1, hs.2⟩
  simp only
  split_ifs with halen
  · exact Triple.pure _ fun s hs => ⟨hmono _ hs.1.1.1, hs.2⟩
  refine Triple.bind Along.world fun w₁ => ?_
  rcases hk : (w₁.fdAt i).kind with _ | _ | _ | _
  · exact Triple.pure _ fun s hs => ⟨hmono _ hs.1.1.1.1, hs.2⟩
  · refine Triple.bind (Q := fun _ => Along Quiet (Accounted 1)) (along_atomically ?_) fun s => ?_
    · rintro w ⟨⟨⟨h, hfresh⟩, rfl⟩, rfl⟩
      obtain ⟨rest, hheld, hset⟩ := h.split (lt_length_of_fdGet hfd)
      have hnone := hfresh i hfd hk (not_lt.mp halen)
      rw [FdEntry.holdings_of_tcp hk, holding_of_not_valid (by simp [hnone]), List.nil_append] at hheld
      exact Accounted.putSock h.tidy hset rfl hheld (by decide) (netTcpOpen_spec _ w)
        (by rintro x rfl; rfl) fun s => FdEntry.holdings_of_tcp hk
    by_cases hv : (!s.valid) = true
    · rw [if_pos hv]
      exact Triple.pure _ fun _ hs => hs
    rw [if_neg hv]
    refine Triple.bind (((Steady.accounted 1).kept .tcp s).netTcpConnect (fun _ _ => trivial) cfg _ _ _ rand)
      fun er => ?_
    split_ifs
    · exact Triple.pure _ fun _ hs => hs
    refine Triple.bind (Q := fun _ => Along Quiet (Accounted 1)) (along_atomically fun w h => ?_)
      fun _ => Triple.pure _ fun _ hs => hs
    exact h.of_same (SameHandles.modFd w i (f := fun e => { e with connected := true }) fun _ => rfl)
  · refine Triple.bind (Q := fun _ => Along Quiet (Accounted 1)) (along_atomically fun w h => ?_)
      fun _ => Triple.pure _ fun _ hs => hs
    exact hmono _ (h.1.1.1.of_same (SameHandles.modFd w i (f := fun e =>
      { e with localIpv4Be := addr.addrBe, localPort := addr.port, connected := true }) fun _ => rfl))
  · exact Triple.pure _ fun s hs => ⟨hmono _ hs.1.1.1.1, hs.2⟩

/-! ## Runs -/

/-- One call of the shim. -/
inductive ShimCall
  | socket (domain : ℤ) (type : ℕ)
  | bind (heap : Bool) (fd : ℤ) (addr : SockAddrIn) (alen : ℕ)
  | listen (heap : Bool) (fd backlog : ℤ)
  | accept (fd : ℤ)
  | connect (fd : ℤ) (addr : SockAddrIn) (alen : ℕ) (rand : UInt32)
  | shutdown (fd : ℤ)
  | close (fd : ℤ)

namespace ShimCall

/-- What the call runs. -/
def code (cfg : Config) : ShimCall → Code S Ret
  | socket domain type => atomically (wrapLwipSocket cfg domain type)
  | bind heap fd addr alen => atomically (wrapLwipBind cfg heap fd addr alen)
  | listen heap fd backlog => atomically (wrapLwipListen cfg heap fd backlog)
  | accept fd => wrapLwipAccept cfg fd
  | connect fd addr alen rand => wrapLwipConnect cfg fd addr alen rand
  | shutdown fd => atomically (wrapLwipShutdown cfg fd)
  | close fd => atomically (wrapLwipClose cfg fd)

/-- A call that is no `connect` on a TCP fd that holds a socket. -/
def Fresh (cfg : Config) (w : World S) : ShimCall → Prop
  | connect fd _ alen _ => ConnectFresh cfg fd alen w
  | _ => True

/-- **One call keeps the books balanced.** -/
theorem accounted (cfg : Config) (c : ShimCall) :
    Triple (Along Quiet fun w : World S => Accounted 0 w ∧ c.Fresh cfg w) (c.code cfg)
      (fun _ => Along Quiet (Accounted (2 ^ 8))) fun _ => True := by
  have hpool := cfg.listenerPool_range.2
  rcases c with ⟨domain, type⟩ | ⟨heap, fd, addr, alen⟩ | ⟨heap, fd, backlog⟩ | fd |
    ⟨fd, addr, alen, rand⟩ | fd | fd
  · exact along_atomically fun w h => (h.1.wrapLwipSocket (by decide) ..).mono (by decide)
  · exact along_atomically fun w h => (h.1.wrapLwipBind (by decide) ..).mono (by decide)
  · exact along_atomically fun w h => (h.1.wrapLwipListen cfg (by omega) ..).mono (by omega)
  · refine (Accounted.wrapLwipAccept cfg fd).consequence (fun s hs => ⟨hs.1.1, hs.2⟩) ?_
    exact fun _ s hs => ⟨hs.1.mono (by decide), hs.2⟩
  · refine (Accounted.wrapLwipConnect cfg fd addr alen rand).consequence (fun s hs => hs) ?_
    exact fun _ s hs => ⟨hs.1.mono (by decide), hs.2⟩
  · exact along_atomically fun w h => (h.1.wrapLwipShutdown ..).mono (Nat.zero_le _)
  · refine along_atomically fun w h => ?_
    rw [wrapLwipClose_snd]
    exact (h.1.fdFree ..).mono (Nat.zero_le _)

end ShimCall

/-- One step of a run: a call of this kind that returns with ids still below `2^24`, while the others
are quiet; or the others move. -/
inductive ShimStep (cfg : Config) (ok : ShimCall → World S → Prop) : World S → World S → Prop
  | call {w : World S} (c : ShimCall) (sched : List (Moment (World S))) {r : Ret}
      {sys : Sys (World S) (Event S)} (hok : ok c w) (hquiet : ∀ m ∈ sched, Quiet m.env)
      (hrun : (c.code cfg).run w sched = (some r, sys))
      (hids : ∀ i, sys.world.counter i ≤ 2 ^ 24) : ShimStep cfg ok w sys.world
  | others {w : World S} {env : World S → World S} (h : Quiet env) : ShimStep cfg ok w (env w)

theorem Accounted.step {cfg : Config} {w w' : World S} (h : Accounted 0 w)
    (hs : ShimStep cfg (fun c w => c.Fresh cfg w) w w') : Accounted 0 w' := by
  obtain ⟨c, sched, hok, hquiet, hrun, hids⟩ | hquiet := hs
  · have hacc := (c.accounted cfg).of_some (s := ⟨w, sched, []⟩) ⟨⟨h, hok⟩, hquiet⟩ hrun
    exact ⟨⟨hacc.1.held.wf, hids, hacc.1.held.holds⟩, hacc.1.tidy⟩
  · exact h.calm (hquiet w h.held.wf)

/-! ## Exact ownership -/

/-- The handle fields an entry counts with. -/
def FdEntry.sockFields (e : FdEntry) : List NetSock :=
  match e.kind with
  | .free => []
  | .tcpListen => e.sock :: e.pool
  | _ => [e.sock]

/-- The valid handles found in the fd table. -/
def World.tableHandles (w : World S) : List NetSock :=
  w.fds.flatMap fun e => e.sockFields.filter NetSock.valid

/-- **The table owns exactly what is registered**: no handle is found twice, every registered id has its
handle in the table, and every handle there stands for a registered id. -/
structure ExactlyOwned (w : World S) : Prop where
  nodup : w.tableHandles.Nodup
  owned : ∀ i ctx id sh, w.ctx i = some ctx → ctx.lookup id = some sh →
    ∃ s ∈ w.tableHandles, s.iface = i.code ∧ s.localId = id
  registered : ∀ s ∈ w.tableHandles, ∃ i ctx sh, s.iface = i.code ∧ w.ctx i = some ctx ∧
    ctx.lookup s.localId = some sh

theorem map_fst_holding (k : SockKind) (s : NetSock) :
    (holding k s).map Prod.fst = [s].filter NetSock.valid := by
  rw [holding]
  split_ifs with hv <;> simp [hv]

theorem map_fst_poolHoldings (pool : List NetSock) :
    (poolHoldings pool).map Prod.fst = pool.filter NetSock.valid := by
  induction pool with
  | nil => rfl
  | cons s pool ih =>
    rw [poolHoldings, List.flatMap_cons, List.map_append, ← poolHoldings, ih, map_fst_holding,
      ← List.filter_append, List.singleton_append]

theorem World.tableHandles_eq (w : World S) : w.tableHandles = w.holdings.map Prod.fst := by
  rw [holdings, tableHandles, List.map_flatMap]
  congr 1
  funext e
  rw [FdEntry.sockFields, FdEntry.holdings]
  rcases e.kind with _ | _ | _ | _
  · rfl
  · exact (map_fst_holding ..).symm
  · exact (map_fst_holding ..).symm
  · rw [List.map_append, map_fst_holding, map_fst_poolHoldings, ← List.filter_append,
      List.singleton_append]

theorem Accounted.exactlyOwned {w : World S} (h : Accounted 0 w) : ExactlyOwned w := by
  have hl : Ledger w.kindOf w.holdings := h.held.holds h.held.bound
  refine ⟨?_, fun i ctx id sh hctx hlook => ?_, fun s hs => ?_⟩
  · rw [World.tableHandles_eq]
    exact hl.nodup_keys
  · have hwf := h.held.wf.ctx i ctx hctx
    have hid := hwf.below id sh hlook
    have hle := h.held.bound i
    rw [World.counter_of_ctx hctx] at hle
    have hlocal := NetSock.localId_encode (i := i) (show id.toNat < 2 ^ 24 by omega)
    refine ⟨.encode i id, ?_, NetSock.iface_encode i id, hlocal⟩
    obtain ⟨x, hx, hk⟩ := hwf.live id sh hlook
    rw [World.tableHandles_eq, hl.mem_keys, World.kindOf,
      World.entryOf_of_ctx (NetSock.iface_encode i id) hctx, hlocal,
      IfaceCtx.entryAt_eq_some.mpr ⟨hlook, hx⟩]
    exact hk
  · rw [World.tableHandles_eq, hl.mem_keys, Option.isSome_iff_exists] at hs
    obtain ⟨k, hk⟩ := hs
    obtain ⟨⟨sh, x⟩, he, -⟩ := Option.bind_eq_some_iff.mp hk
    obtain ⟨i, ctx, hi, hctx, hent⟩ := World.entryOf_eq_some.mp he
    exact ⟨i, ctx, sh, hi, hctx, (IfaceCtx.entryAt_eq_some.mp hent).1⟩

/-! ## From the start -/

/-- The statics after these interfaces were attached. -/
def World.booted (cfg : Config) (ifs : List (IfaceId × (Fin 6 → UInt8))) : World S :=
  ifs.foldl (fun w p => w.attach p.1 p.2) (.boot cfg)

theorem World.ctx_attach {w : World S} {i j : IfaceId} {mac : Fin 6 → UInt8} {ctx : IfaceCtx S}
    (h : (w.attach i mac).ctx j = some ctx) : (∃ n, ctx = .new n mac) ∨ w.ctx j = some ctx := by
  by_cases hj : j = i
  · subst hj
    rw [World.ctx, ifaces_attach_self] at h
    exact .inl ⟨_, (Option.some.inj h).symm⟩
  · rw [World.ctx, ifaces_attach_ne w hj] at h
    exact .inr h

/-- Nothing is open and nothing is held. -/
structure Blank (w : World S) : Prop where
  ctx : ∀ i ctx, w.ctx i = some ctx → ∃ n mac, ctx = .new n mac
  fds : ∀ e ∈ w.fds, e = {}

theorem blank_booted (cfg : Config) (ifs : List (IfaceId × (Fin 6 → UInt8))) :
    Blank (World.booted cfg ifs : World S) := by
  have key : ∀ w : World S, Blank w → Blank (ifs.foldl (fun w p => w.attach p.1 p.2) w) := by
    induction ifs with
    | nil => exact fun _ h => h
    | cons p ifs ih =>
      refine fun w h => ih _ ⟨fun i ctx hc => ?_, h.fds⟩
      obtain ⟨n, rfl⟩ | hc := World.ctx_attach hc
      · exact ⟨n, p.2, rfl⟩
      · exact h.ctx i ctx hc
  refine key _ ⟨fun i ctx hc => ?_, fun e he => List.eq_of_mem_replicate he⟩
  cases hc

theorem Blank.accounted {w : World S} (h : Blank w) (hw : w.Wf) : Accounted 0 w := by
  have hnone : w.kindOf = fun _ => none := by
    funext s
    refine World.kindOf_of_none ?_
    by_contra hne
    obtain ⟨r, hr⟩ := Option.ne_none_iff_exists'.mp hne
    obtain ⟨i, ctx, -, hctx, he⟩ := World.entryOf_eq_some.mp hr
    obtain ⟨n, mac, rfl⟩ := h.ctx i ctx hctx
    cases he
  have hempty : w.holdings = [] := by
    rw [World.holdings, List.flatMap_eq_nil_iff]
    intro e he
    rw [h.fds e he]
    rfl
  refine ⟨⟨hw, fun i => ?_, fun _ => ?_⟩, fun i hi => ?_⟩
  · rcases hctx : w.ctx i with _ | ctx
    · rw [World.counter, hctx]
      exact Nat.zero_le _
    · obtain ⟨n, mac, rfl⟩ := h.ctx i ctx hctx
      rw [World.counter_of_ctx hctx]
      change (1 : UInt32).toNat ≤ 2 ^ 24 + 0
      decide
  · rw [hnone, hempty]
    exact Ledger.nil
  · have hfree : (w.fdAt i) = {} := by
      rw [World.fdAt, List.getD_eq_getElem?_getD]
      rcases hget : w.fds[i]? with _ | e
      · rfl
      · exact h.fds e (List.mem_of_getElem? hget)
    rw [hfree]

/-- **In every run whose `connect`s find no socket in their TCP fd, the fd table owns exactly the
registered sockets.** -/
theorem exactlyOwned_of_run {cfg : Config} {ifs : List (IfaceId × (Fin 6 → UInt8))} {w : World S}
    (h : Relation.ReflTransGen (ShimStep cfg fun c w => c.Fresh cfg w) (.booted cfg ifs) w) :
    ExactlyOwned w := by
  refine Accounted.exactlyOwned ?_
  induction h with
  | refl => exact (blank_booted cfg ifs).accounted (World.wf_attachAll ifs (World.wf_boot cfg))
  | tail _ hstep ih => exact ih.step hstep

/-! ### Connecting twice -/

/-- The world after `socket` and `n` calls of `connect` on the TCP fd it returned. -/
def afterConnects : ℕ → World .reference
  | 0 => ((ShimCall.socket 2 1).code .default).run (.booted .default [(.eth, fun _ => 0)]) [] |>.2.world
  | n + 1 => ((ShimCall.connect 48 ⟨2, 1, 80⟩ 16 0).code .default).run (afterConnects n)
      [idle 0, idle 0] |>.2.world

theorem quiet_idle : ∀ m ∈ [idle 0, idle 0], Quiet (S := S) m.env := by
  intro m hm
  obtain rfl : m = idle 0 := by simpa using hm
  exact fun w hw => hw.calm_refl

theorem shimStep_socket (ok : ShimCall → World .reference → Prop)
    (hok : ok (.socket 2 1) (.booted .default [(.eth, fun _ => 0)])) :
    ShimStep .default ok (.booted .default [(.eth, fun _ => 0)]) (afterConnects 0) :=
  .call (.socket 2 1) [] hok (by simp) rfl fun i => by cases i <;> decide

/-- The table owns the socket of the first `connect`. -/
theorem exactlyOwned_afterConnects_one : ExactlyOwned (afterConnects 1) := by
  refine @exactlyOwned_of_run .reference .default [(.eth, fun _ => 0)] (afterConnects 1) ?_
  refine .tail (.single (shimStep_socket _ trivial)) ?_
  refine .call (.connect 48 ⟨2, 1, 80⟩ 16 0) [idle 0, idle 0] ?_ quiet_idle rfl
    fun i => by cases i <;> decide
  intro i hi _ _
  obtain rfl := Option.some.inj hi
  rfl

/-- **A second `connect` leaks the socket of the first.** -/
theorem second_connect_leaks :
    Relation.ReflTransGen (ShimStep .default fun _ _ => True) (.booted .default [(.eth, fun _ => 0)])
        (afterConnects 2) ∧
      ¬ ExactlyOwned (afterConnects 2) := by
  have hfirst : ShimStep .default (fun _ _ => True) (afterConnects 0) (afterConnects 1) :=
    .call (.connect 48 ⟨2, 1, 80⟩ 16 0) [idle 0, idle 0] trivial quiet_idle rfl
      fun i => by cases i <;> decide
  have hsecond : ShimStep .default (fun _ _ => True) (afterConnects 1) (afterConnects 2) :=
    .call (.connect 48 ⟨2, 1, 80⟩ 16 0) [idle 0, idle 0] trivial quiet_idle rfl
      fun i => by cases i <;> decide
  refine ⟨.tail (.tail (.single (shimStep_socket _ trivial)) hfirst) hsecond, fun h => ?_⟩
  have htable : (afterConnects 2).tableHandles = [⟨2⟩] := rfl
  obtain ⟨s, hs, -, hl⟩ := h.owned .eth _ 1 0 rfl rfl
  rw [htable, List.mem_singleton] at hs
  subst hs
  exact absurd hl (by decide)

end EspSmoltcp
