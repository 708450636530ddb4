import EspSmoltcp.Compat.Calls
import EspSmoltcp.Compat.Getaddrinfo

/-!
# Compat/TypeSafety — no call finds a socket of another type

An entry of the fd table says by its kind what its handles stand for, and every call of the shim goes by
that.  While the interfaces have handed out fewer than `2^24` ids it is so in every state that a sequence of
calls reaches, whether or not they return and with lookups in between: no call reaches a dead handle or a
socket of another type, so the core never panics (`typeSafe_of_run`).

The calls move handles between entries, pools and new fds; what carries each handle along is `OfKind`.
-/

namespace EspSmoltcp

open Thread (Along Stable Triple)

variable {S : Smoltcp} {α β : Type} {k : SockKind}

/-! ## The table and the types -/

/-- The handles of an entry in use are of its kind. -/
structure EntryOk (w : World S) (e : FdEntry) : Prop where
  sock : e.kind ≠ .free → OfKind e.kind.closesAs e.sock w
  pool : ∀ s ∈ e.pool, OfKind .tcp s w

/-- Nothing has panicked, and every entry has handles of its kind. -/
structure Typed (w : World S) : Prop where
  panicked : w.panicked = fun _ => false
  entry : ∀ j, EntryOk w (w.fdAt j)

/-- What new ids and dropped ones do not take away. -/
def Lasting (Q : World S → Prop) : Prop := ∀ w w', Q w → Extends w w' → w'.Wf → Q w'

theorem lasting_true : Lasting fun _ : World S => True := fun _ _ _ _ _ => trivial

theorem lasting_ofKind (k : SockKind) (s : NetSock) : Lasting (S := S) (OfKind k s) :=
  fun _ _ h he hw' => h.mono he hw'

theorem lasting_entryOk (e : FdEntry) : Lasting (S := S) (EntryOk · e) := fun _ _ h he hw' =>
  ⟨fun hk => (h.sock hk).mono he hw', fun s hs => (h.pool s hs).mono he hw'⟩

/-- Changes outside the interfaces issue no id. -/
theorem Extends.of_ifaces {w w' : World S} (h : w'.ifaces = w.ifaces) : Extends w w' where
  counter i := by rw [World.counter_of_ifaces h]
  kindOf _ _ _ _ _ hk := by rwa [World.kindOf_of_ifaces h] at hk

namespace EntryOk

variable {w : World S} {e e' : FdEntry}

/-- Only the handles of an entry matter. -/
theorem congr (h : EntryOk w e) (he : e'.handles = e.handles) : EntryOk w e' := by
  obtain ⟨hk, hs, hp⟩ : e'.kind = e.kind ∧ e'.sock = e.sock ∧ e'.pool = e.pool := by
    simpa [FdEntry.handles] using he
  refine ⟨?_, ?_⟩
  · rw [hk, hs]
    exact h.sock
  · rw [hp]
    exact h.pool

/-- An entry that holds nothing yet. -/
theorem fresh (hw : w.Wf) (hsock : e.sock = .invalid) (hpool : e.pool = []) : EntryOk w e where
  sock _ := hsock ▸ hw.ofKind_invalid _
  pool := by simp [hpool]

theorem putSock (h : EntryOk w e) {s : NetSock} (hs : OfKind k s w)
    (hk : e.kind ≠ .free → e.kind.closesAs = k) : EntryOk w { e with sock := s } where
  sock he := hk he ▸ hs
  pool := h.pool

theorem putSlot (h : EntryOk w e) {s : NetSock} (hs : OfKind .tcp s w) (idx : ℕ) :
    EntryOk w { e with pool := e.pool.set idx s } where
  sock := h.sock
  pool t ht := by
    obtain ht | rfl := List.mem_or_eq_of_mem_set ht
    · exact h.pool t ht
    · exact hs

theorem tcpSock (h : EntryOk w e) (hk : e.kind = .tcp) : OfKind .tcp e.sock w := by
  have hs := h.sock (by simp [hk])
  rwa [hk] at hs

theorem udpSock (h : EntryOk w e) (hk : e.kind = .udp) : OfKind .udp e.sock w := by
  have hs := h.sock (by simp [hk])
  rwa [hk] at hs

theorem getD (h : EntryOk w e) (hw : w.Wf) (idx : ℕ) : OfKind .tcp (e.pool.getD idx .invalid) w := by
  rw [List.getD_eq_getElem?_getD]
  rcases hs : e.pool[idx]? with _ | s
  · exact hw.ofKind_invalid _
  · exact h.pool s (List.mem_of_getElem? hs)

end EntryOk

/-- `Typed` and `Q`, while ids fit a handle. -/
def Holding (n : ℕ) (Q : World S → Prop) : World S → Prop := InIds n fun w => Typed w ∧ Q w

/-- `Typed`, while ids fit a handle. -/
def Safe (n : ℕ) : World S → Prop := Holding n fun _ => True

namespace Holding

variable {n m : ℕ} {Q Q' : World S → Prop} {w w' : World S}

theorem wf (h : Holding n Q w) : w.Wf := InIds.wf h

theorem mono (h : Holding n Q w) (hnm : n ≤ m) : Holding m Q w := InIds.mono h hnm

theorem imp (h : Holding n Q w) (hQ : w.Wf → Typed w → Q w → Q' w) : Holding n Q' w :=
  InIds.imp h fun hw ht => ⟨ht.1, hQ hw ht.1 ht.2⟩

theorem safe (h : Holding n Q w) : Safe n w := h.imp fun _ _ _ => trivial

/-- The handles of an entry, for the rest of a call. -/
theorem entry (h : Holding n Q w) (j : ℕ) : Holding n (EntryOk · (w.fdAt j)) w :=
  h.imp fun _ ht _ => ht.entry j

/-- A change of the core that moves no counter, issues no id and does not panic. -/
theorem step (hQ : Lasting Q) (h : Holding n Q w) (hc : CoreStep w w') (hn : w'.counter = w.counter)
    (he : Typed w → Q w → Extends w w' ∧ w'.panicked = w.panicked) : Holding n Q w' := by
  refine InIds.step h hc.wf hn fun ⟨ht, hq⟩ => ?_
  obtain ⟨hext, hp⟩ := he ht hq
  refine ⟨⟨hp.trans ht.panicked, fun j => ?_⟩, hQ w w' hq hext hc.wf⟩
  rw [World.fdAt, hc.fds]
  exact lasting_entryOk _ w w' (ht.entry j) hext hc.wf

theorem serene (hQ : Lasting Q) (h : Holding n Q w) (hs : Serene w w') : Holding n Q w' :=
  h.step hQ hs.toCoreStep hs.counter fun _ _ => ⟨hs.toCalm.toExtends, hs.panicked⟩

/-- A change of the statics, one entry at most. -/
theorem statics (hQ : Lasting Q) (h : Holding n Q w) (hi : w'.ifaces = w.ifaces)
    (he : w.Wf → Typed w → Q w → ∀ j, EntryOk w (w'.fdAt j)) : Holding n Q w' := by
  have hext := Extends.of_ifaces hi
  have hwf := h.wf.of_ifaces hi
  refine InIds.step h hwf (World.counter_of_ifaces hi) fun ⟨ht, hq⟩ => ?_
  refine ⟨⟨(World.panicked_of_ifaces hi).trans ht.panicked, fun j => ?_⟩, hQ w w' hq hext hwf⟩
  exact lasting_entryOk _ w w' (he h.wf ht hq j) hext hwf

theorem same (hQ : Lasting Q) (h : Holding n Q w) (hs : SameHandles w w') : Holding n Q w' :=
  h.statics hQ hs.ifaces fun _ ht _ j => (ht.entry j).congr (hs.fdAt j)

theorem setFd (hQ : Lasting Q) (h : Holding n Q w) (i : ℕ) {e : FdEntry}
    (he : w.Wf → Typed w → Q w → EntryOk w e) : Holding n Q (w.setFd i e) := by
  refine h.statics hQ rfl fun hw ht hq j => ?_
  by_cases hi : i < w.fds.length
  · by_cases hji : j = i
    · subst hji
      rw [World.fdAt_setFd_self hi]
      exact he hw ht hq
    · rw [World.fdAt_setFd_ne hji]
      exact ht.entry j
  · have hfds : (w.setFd i e).fdAt j = w.fdAt j := by
      rw [World.fdAt, World.fds_setFd, List.set_eq_of_length_le (not_lt.mp hi)]
      rfl
    rw [hfds]
    exact ht.entry j

/-- **An open: nobody loses a handle, and there is one more.** -/
theorem opened {P : Socket S → Prop} {i : IfaceId} {r : NetSock × World S} (hQ : Lasting Q)
    (h : Holding n Q w) (hr : OpenSpec P i w r) (hP : ∀ x, P x → x.kind? = some k) (hn : n < 2 ^ 8) :
    Holding (n + 1) (fun w => Q w ∧ OfKind k r.1 w) r.2 := by
  have hp := hr.panicked
  refine InIds.opened h hr (fun x hx => by rw [hP x hx]; rfl) hn ?_ ?_
  · rintro ⟨ht, hq⟩ rfl
    exact ⟨ht, hq, h.wf.ofKind_invalid k⟩
  · rintro ⟨ht, hq⟩ ho
    have hext := ho.toExtends hr h.wf
    refine ⟨⟨hp.trans ht.panicked, fun j => ?_⟩, hQ w r.2 hq hext ho.wf, ho.ofKind hr h.wf hP⟩
    rw [World.fdAt, hr.fds]
    exact lasting_entryOk _ w r.2 (ht.entry j) hext ho.wf

theorem netTcpClose (hQ : Lasting Q) (h : Holding n Q w) {s : NetSock}
    (hs : Typed w → Q w → OfKind .tcp s w) : Holding n Q (netTcpClose s w).2 := by
  have hspec := h.wf.netTcpClose_spec s
  exact h.step hQ hspec.toCoreStep hspec.counter fun ht hq =>
    ⟨hspec.toExtends, (hs ht hq).panicked_netTcpClose h.wf⟩

theorem netUdpClose (hQ : Lasting Q) (h : Holding n Q w) {s : NetSock}
    (hs : Typed w → Q w → OfKind .udp s w) : Holding n Q (netUdpClose s w).2 := by
  have hspec := h.wf.netUdpClose_spec s
  exact h.step hQ hspec.toCoreStep hspec.counter fun ht hq =>
    ⟨hspec.toExtends, (hs ht hq).panicked_netUdpClose h.wf⟩

theorem closeOwned (hQ : Lasting Q) (h : Holding n Q w) {kind : FdKind} {s : NetSock}
    (hs : Typed w → Q w → OfKind kind.closesAs s w) : Holding n Q (closeOwned kind s w) := by
  rw [EspSmoltcp.closeOwned]
  split_ifs with hv hk
  · subst hk
    exact h.netUdpClose hQ hs
  · have hk' : kind.closesAs = .tcp := by
      rcases kind with _ | _ | _ | _
      · rfl
      · rfl
      · exact absurd rfl hk
      · rfl
    exact h.netTcpClose hQ (hk' ▸ hs)
  · exact h

/-- Every slot of a pool may be closed. -/
theorem closePool {pool : List NetSock}
    (h : Holding n (fun w => ∀ s ∈ pool, OfKind .tcp s w) w) : Safe n (closePool pool w) := by
  induction pool generalizing w with
  | nil => exact h.safe
  | cons s pool ih =>
    have hQ : Lasting fun w : World S => ∀ t ∈ s :: pool, OfKind .tcp t w :=
      fun w w' hall he hw' t ht => (hall t ht).mono he hw'
    have htail : ∀ {w : World S}, Holding n (fun w => ∀ t ∈ s :: pool, OfKind .tcp t w) w →
        Holding n (fun w => ∀ t ∈ pool, OfKind .tcp t w) w :=
      fun h => h.imp fun _ _ hall t ht => hall t (List.mem_cons_of_mem s ht)
    rw [EspSmoltcp.closePool, List.foldl_cons]
    split_ifs
    · exact ih (htail (h.netTcpClose hQ fun _ hall => hall s List.mem_cons_self))
    · exact ih (htail h)

end Holding

/-- The others only move data, and do not panic. -/
def Silent (env : World S → World S) : Prop := ∀ w, w.Wf → Serene w (env w)

/-- **A handle held through a call is still of its kind when it is used.** -/
theorem kept_holding {n : ℕ} {Q : World S → Prop} {s : NetSock} (hQ : Lasting Q)
    (hs : ∀ w, Q w → OfKind k s w) : Kept Silent (Holding n Q) k s where
  stable env henv w hw := hw.serene hQ (henv w hw.wf)
  call i err g hi hg w hw := by
    have hcalm := hw.wf.calm_ffi i err hg.calm
    exact hw.step hQ hcalm.toCoreStep hcalm.counter fun _ hq =>
      ⟨hcalm.toExtends, ((hs w hq).serene_ffi hw.wf hi err hg).panicked⟩

theorem kept_ofKind (n : ℕ) (k : SockKind) (s : NetSock) :
    Kept Silent (Holding (S := S) n (OfKind k s)) k s := kept_holding (lasting_ofKind k s) fun _ h => h

/-! ## Calls that do not block -/

namespace Safe

variable {n : ℕ} {w : World S}

theorem opened {P : Socket S → Prop} {i : IfaceId} {r : NetSock × World S} (h : Safe n w)
    (hr : OpenSpec P i w r) (hP : ∀ x, P x → x.kind? = some k) (hn : n < 2 ^ 8) :
    Holding (n + 1) (OfKind k r.1) r.2 :=
  (Holding.opened lasting_true h hr hP hn).imp fun _ _ hq => hq.2

theorem netTcpOpen (h : Safe n w) (iface : IfaceId) (hn : n < 2 ^ 8) :
    Holding (n + 1) (OfKind .tcp (netTcpOpen iface w).1) (netTcpOpen iface w).2 :=
  h.opened (netTcpOpen_spec iface w) (by rintro x rfl; rfl) hn

theorem same {w' : World S} (h : Safe n w) (hs : SameHandles w w') : Safe n w' :=
  Holding.same lasting_true h hs

theorem fresh (h : Safe n w) (i : ℕ) (kind : FdKind) (iface : IfaceId) :
    Safe n (w.setFd i { kind := kind, iface := iface }) :=
  Holding.setFd lasting_true h i fun hw _ _ => .fresh hw rfl rfl

theorem fdFree (h : Safe n w) (cfg : Config) (fd : ℤ) : Safe n (fdFree cfg fd w) := by
  rw [EspSmoltcp.fdFree]
  rcases hfd : fdGet cfg w fd with _ | i
  · exact h
  have hkind := (fdGet_spec hfd).2.2
  simp only
  generalize hw₁ : (if (w.fdAt i).loopback = true then (loUnbind (w.fdAt i).localPort i w).modFd i
    fun e => { e with loRx := none, loopback := false } else w) = w₁
  have hs : SameHandles w w₁ := by
    rw [← hw₁]
    split_ifs
    · exact (SameHandles.loUnbind _ i w).trans (SameHandles.modFd _ i fun _ => rfl)
    · exact SameHandles.refl w
  have hQ := lasting_entryOk (S := S) (w.fdAt i)
  have hclosed := ((h.entry i).same hQ hs).closeOwned hQ fun _ he => he.sock hkind
  refine Holding.setFd lasting_true (Holding.closePool (hclosed.imp fun _ _ he => he.pool)) i ?_
  exact fun _ ht _ => ⟨fun hfree => absurd rfl hfree, (ht.entry i).pool⟩

/-- A socket is opened into the `sock` field of an entry of its kind. -/
theorem putSock {P : Socket S → Prop} {iface : IfaceId} {r : NetSock × World S} {i : ℕ} (h : Safe n w)
    (hr : OpenSpec P iface w r) (hP : ∀ x, P x → x.kind? = some k) (hn : n < 2 ^ 8)
    (hk : (w.fdAt i).kind.closesAs = k) :
    Holding (n + 1) (OfKind k r.1) (r.2.modFd i fun e => { e with sock := r.1 }) := by
  have he : r.2.fdAt i = w.fdAt i := by rw [World.fdAt, hr.fds]; rfl
  refine (h.opened hr hP hn).setFd (lasting_ofKind k r.1) i fun _ ht hs => (ht.entry i).putSock hs ?_
  rw [he]
  exact fun _ => hk

theorem wrapLwipSocket (h : Safe n w) (hn : n < 2 ^ 8) (cfg : Config) (domain : ℤ) (type : ℕ) :
    Safe (n + 1) (wrapLwipSocket cfg domain type w).2 := by
  have hn' := Nat.le_succ n
  have hspec := wrapLwipSocket_spec cfg domain type w
  generalize EspSmoltcp.wrapLwipSocket cfg domain type w = r at hspec ⊢
  cases hspec with
  | refused => exact h.mono hn'
  | @filled kind i w₁ r hi _ hw hr =>
    have h₁ : Safe n w₁ := hw ▸ h.fresh i kind _
    have he : w₁.fdAt i = { kind := kind, iface := fdDefaultIface cfg w } :=
      hw ▸ World.fdAt_setFd_self hi _
    have hput := fun hudp : kind = .udp => h₁.putSock (i := i) (netUdpOpen_spec (w₁.fdAt i).iface 0 w₁)
      (by rintro x ⟨u, rfl⟩; rfl) hn (by rw [he, hudp]; rfl)
    cases hr with
    | outside => exact h₁.mono hn'
    | stream => exact h₁.mono hn'
    | datagram hudp ho => exact ho ▸ (hput hudp).safe
    | dropped hudp ho => exact fdFree (ho ▸ (hput hudp).safe) cfg _

theorem wrapLwipBind (h : Safe n w) (hn : n < 2 ^ 8) (cfg : Config) (heap : Bool) (fd : ℤ)
    (addr : SockAddrIn) (alen : ℕ) : Safe (n + 1) (wrapLwipBind cfg heap fd addr alen w).2 := by
  have hn' := Nat.le_succ n
  have hspec := wrapLwipBind_spec cfg heap fd addr alen w
  generalize EspSmoltcp.wrapLwipBind cfg heap fd addr alen w = r at hspec ⊢
  cases hspec with
  | refused => exact h.mono hn'
  | @stored i w₁ r _ hw hr =>
    have h₁ : Safe n w₁ := h.same (hw ▸ SameHandles.modFd w i fun _ => rfl)
    cases hr with
    | stream => exact h₁.mono hn'
    | loopback _ _ ho => exact ho ▸ (h₁.same (SameHandles.loBind ..)).mono hn'
    | @reopened hudp _ w₂ o hclose ho =>
      have hclosed : w₂.fds = w₁.fds ∧ Safe n w₂ := by
        rw [← hclose]
        split_ifs
        · exact ⟨(SameShim.netUdpClose _ w₁).fds,
            Holding.netUdpClose lasting_true h₁ fun ht _ => (ht.entry i).udpSock hudp⟩
        · exact ⟨rfl, h₁⟩
      subst ho
      refine (hclosed.2.putSock (i := i) (netUdpOpen_spec _ _ w₂) (by rintro x ⟨u, rfl⟩; rfl) hn ?_).safe
      rw [World.fdAt, hclosed.1]
      exact congrArg FdKind.closesAs hudp

/-- A slot of a pool is filled by an open. -/
theorem putSlot (h : Safe n w) (iface : IfaceId) (i idx : ℕ) (hn : n < 2 ^ 8) :
    Holding (n + 1) (OfKind .tcp (EspSmoltcp.netTcpOpen iface w).1)
      ((EspSmoltcp.netTcpOpen iface w).2.modFd i fun e =>
        { e with pool := e.pool.set idx (EspSmoltcp.netTcpOpen iface w).1 }) :=
  (h.netTcpOpen iface hn).setFd (lasting_ofKind _ _) i fun _ ht hs => (ht.entry i).putSlot hs idx

theorem armSlots {i j m : ℕ} (h : Safe n w) (hn : n + m ≤ 2 ^ 8) : Safe (n + m) (armSlots i j m w).2 := by
  induction m generalizing j n w with
  | zero => exact h
  | succ m ih =>
    rw [EspSmoltcp.armSlots, show n + (m + 1) = n + 1 + m by omega]
    simp only
    have hput := h.putSlot (w.fdAt i).iface i j (by omega)
    have hlisten := (kept_ofKind (n + 1) .tcp _).netTcpListen (w.fdAt i).port hput
    split_ifs
    · exact ih hlisten.safe (by omega)
    · exact hlisten.safe.mono (by omega)
    · exact hput.safe.mono (by omega)

theorem wrapLwipListen (h : Safe n w) (cfg : Config) (hn : n + cfg.listenerPool ≤ 2 ^ 8) (heap : Bool)
    (fd backlog : ℤ) : Safe (n + cfg.listenerPool) (wrapLwipListen cfg heap fd backlog w).2 := by
  have hn' := Nat.le_add_right n cfg.listenerPool
  have hsize := poolSize_le cfg backlog
  have hspec := wrapLwipListen_spec cfg heap fd backlog w
  generalize EspSmoltcp.wrapLwipListen cfg heap fd backlog w = r at hspec ⊢
  cases hspec with
  | refused => exact h.mono hn'
  | @armed i w₁ _ hk _ hw =>
    have h₁ : Safe n w₁ := by
      rw [← hw]
      refine Holding.setFd lasting_true h i fun hwf ht _ => ⟨fun _ => (ht.entry i).tcpSock hk, fun s hs => ?_⟩
      rw [List.eq_of_mem_replicate hs]
      exact hwf.ofKind_invalid _
    exact (armSlots h₁ (by omega)).mono (by omega)

theorem wrapLwipShutdown (h : Safe n w) (cfg : Config) (fd : ℤ) :
    Safe n (wrapLwipShutdown cfg fd w).2 := by
  rw [EspSmoltcp.wrapLwipShutdown]
  rcases hfd : fdGet cfg w fd with _ | i
  · exact h
  simp only
  split_ifs with hv
  · have hclosed := Holding.netTcpClose lasting_true h fun ht _ => (ht.entry i).tcpSock hv.1
    exact hclosed.setFd lasting_true i fun hw ht _ =>
      ((ht.entry i).putSock (hw.ofKind_invalid _) fun _ => rfl).congr rfl
  · exact h

theorem wrapLwipSendto (h : Safe n w) (cfg : Config) (heap : Bool) (fd : ℤ) (buf : Bytes)
    (dst : SockAddrIn) (tolen : ℕ) : Safe n (wrapLwipSendto cfg heap fd buf dst tolen w).2 := by
  rw [EspSmoltcp.wrapLwipSendto]
  rcases hfd : fdGet cfg w fd with _ | i
  · exact h
  simp only
  split_ifs with hk hlen hlo
  · exact h
  · exact h
  · exact h.same (SameHandles.loDeliver ..)
  · have hudp := h.imp fun _ ht _ => (ht.entry i).udpSock (not_not.mp hk)
    exact ((kept_ofKind n .udp _).netUdpSendto buf dst.addrBe dst.port hudp).safe

/-! ### `accept` -/

theorem handOver {cand : NetSock} (h : Holding n (OfKind .tcp cand) w) (hn : n < 2 ^ 8) (cfg : Config)
    (i idx : ℕ) : Safe (n + 1) (handOver cfg i idx cand w).2 := by
  have hn' := Nat.le_succ n
  have hspec := handOver_spec cfg i idx cand w
  generalize EspSmoltcp.handOver cfg i idx cand w = r at hspec ⊢
  cases hspec with
  | full => exact h.safe.mono hn'
  | outside _ _ hw => exact (hw ▸ h.safe.fresh _ _ _ : Safe n _).mono hn'
  | @given j v port w₁ w₃ w₄ o _ _ _ hw ho hput harm =>
    -- The new entry takes the connection over, and its slot is filled again.
    have htaken : Safe n w₁ := by
      rw [← hw]
      refine (h.setFd (lasting_ofKind _ _) j fun hwf _ hs => ?_).safe
      have hfresh : EntryOk _ { kind := .tcp, iface := v } := .fresh hwf rfl rfl
      exact (hfresh.putSock hs fun _ => rfl).congr rfl
    have h₃ := htaken.putSlot v i idx hn
    rw [ho, hput] at h₃
    dsimp only
    refine same ?_ (SameHandles.modFd w₄ i fun _ => rfl)
    rw [← harm]
    split_ifs
    · exact ((kept_ofKind (n + 1) .tcp _).netTcpListen _ h₃).safe
    · exact h₃.safe

/-- A scan that hands nothing over issues no id. -/
theorem acceptScan (h : Safe n w) (hn : n < 2 ^ 8) (cfg : Config) (i : ℕ) (ks : List ℕ) :
    ((acceptScan cfg i ks w).1 = none → Safe n (acceptScan cfg i ks w).2) ∧
      Safe (n + 1) (acceptScan cfg i ks w).2 := by
  induction ks generalizing w with
  | nil => exact ⟨fun _ => h, h.mono (Nat.le_succ n)⟩
  | cons k ks ih =>
    rw [EspSmoltcp.acceptScan]
    simp only
    generalize ((w.fdAt i).poolNext + k) % (w.fdAt i).pool.length = idx
    have hcand : Holding n (OfKind .tcp ((w.fdAt i).pool.getD idx .invalid)) w :=
      (h.entry i).imp fun hw _ he => he.getD hw idx
    generalize (w.fdAt i).pool.getD idx .invalid = cand at hcand ⊢
    have hasked := (kept_ofKind n .tcp cand).netTcpIsConnected hcand
    split_ifs
    · exact ⟨False.elim, handOver hasked hn cfg i idx⟩
    · exact ih hasked.safe

end Safe

/-! ## Calls that block -/

/-- Where a call has got to when its schedule ends. -/
def Stalled (s : Sys (World S) (Event S)) : Prop := Safe (2 ^ 8) s.world

section Blocking

variable {n : ℕ} {Q : World S → Prop} {cfg : Config} {e : FdEntry}

theorem stalled (hn : n ≤ 2 ^ 8) (s : Sys (World S) (Event S)) (hs : Along Silent (Holding n Q) s) :
    Stalled s := (hs.1.mono hn).safe

/-- What was held is let go of. -/
theorem along_safe {A : Sys (World S) (Event S) → Prop} {t : Code S α}
    (h : Triple A t (fun _ => Along Silent (Holding n Q)) Stalled) :
    Triple A t (fun _ => Along Silent (Safe n)) Stalled :=
  h.consequence (fun _ hs => hs) fun _ _ hs => ⟨hs.1.safe, hs.2⟩

theorem along_pure (a : α) : Triple (Along Silent (Holding n Q)) (pure a : Code S α)
    (fun _ => Along Silent (Safe n)) Stalled := Triple.pure a fun _ hs => ⟨hs.1.safe, hs.2⟩

/-- A look at the world, of which nothing is kept. -/
theorem along_look : Triple (Along Silent (Safe n)) (Thread.world : Code S (World S))
    (fun _ => Along Silent (Safe n)) Stalled := Triple.world fun _ hs => hs

/-- A look at an entry, whose handles are kept for later. -/
theorem along_entry (i : ℕ) : Triple (Along Silent (Safe n)) (Thread.world : Code S (World S))
    (fun w => Along Silent (Holding n (EntryOk · (w.fdAt i)))) Stalled :=
  Triple.world fun _ hs => ⟨hs.1.entry i, hs.2⟩

theorem kept_tcpSock (n : ℕ) (hk : e.kind = .tcp) :
    Kept Silent (Holding (S := S) n (EntryOk · e)) .tcp e.sock :=
  kept_holding (lasting_entryOk e) fun _ he => he.tcpSock hk

theorem kept_udpSock (n : ℕ) (hk : e.kind = .udp) :
    Kept Silent (Holding (S := S) n (EntryOk · e)) .udp e.sock :=
  kept_holding (lasting_entryOk e) fun _ he => he.udpSock hk

theorem along_wrapLwipAccept_safe (fd : ℤ) :
    Triple (Along Silent (Safe (S := S) 0)) (wrapLwipAccept cfg fd) (fun _ => Along Silent (Safe 1))
      Stalled :=
  along_wrapLwipAccept (J := fun _ => Safe 0)
    (fun _ env henv _ hw => Holding.serene lasting_true hw (henv _ hw.wf))
    (fun _ s hs => stalled (by decide) s hs) (fun _ hw => hw.mono (by decide))
    (fun _ _ hw => hw.mono (by decide)) (fun _ _ hw _ _ => hw)
    fun i _ hw => hw.acceptScan (by decide) cfg i _

theorem along_wrapLwipConnect (fd : ℤ) (addr : SockAddrIn) (alen : ℕ) (rand : UInt32) :
    Triple (Along Silent (Safe (S := S) 0)) (wrapLwipConnect cfg fd addr alen rand)
      (fun _ => Along Silent (Safe 1)) Stalled := by
  have hmono : ∀ w : World S, Safe 0 w → Safe 1 w := fun w h => h.mono (Nat.zero_le 1)
  refine Triple.bind along_look fun w₀ => ?_
  rcases fdGet cfg w₀ fd with _ | i
  · exact Triple.pure _ fun s hs => ⟨hmono _ hs.1, hs.2⟩
  simp only
  split_ifs
  · exact Triple.pure _ fun s hs => ⟨hmono _ hs.1, hs.2⟩
  refine Triple.bind Along.world fun w₁ => ?_
  rcases hk : (w₁.fdAt i).kind with _ | _ | _ | _
  · exact Triple.pure _ fun s hs => ⟨hmono _ hs.1.1, hs.2⟩
  · refine Triple.bind (Q := fun t => Along Silent (Holding 1 (OfKind .tcp t))) (along_atomically ?_)
      fun t => ?_
    · rintro w ⟨h, rfl⟩
      exact h.putSock (netTcpOpen_spec _ w) (by rintro x rfl; rfl) (by decide) (by rw [hk]; rfl)
    by_cases hv : (!t.valid) = true
    · rw [if_pos hv]
      exact along_pure _
    rw [if_neg hv]
    refine Triple.bind ((kept_ofKind 1 .tcp t).netTcpConnect (stalled (by decide)) cfg _ _ _ rand)
      fun er => ?_
    split_ifs
    · exact along_pure _
    refine Triple.bind (Q := fun _ => Along Silent (Safe 1)) (along_atomically fun w h => ?_)
      fun _ => along_pure _
    exact h.safe.same (SameHandles.modFd w i (f := fun e => { e with connected := true }) fun _ => rfl)
  · refine Triple.bind (Q := fun _ => Along Silent (Safe 1)) (along_atomically fun w h => ?_)
      fun _ => along_pure _
    exact hmono _ (h.1.same (SameHandles.modFd w i (f := fun e =>
      { e with localIpv4Be := addr.addrBe, localPort := addr.port, connected := true }) fun _ => rfl))
  · exact Triple.pure _ fun s hs => ⟨hmono _ hs.1.1, hs.2⟩

theorem along_wrapLwipSend (fd : ℤ) (buf : Bytes) :
    Triple (Along Silent (Safe (S := S) 0)) (wrapLwipSend cfg fd buf) (fun _ => Along Silent (Safe 0))
      Stalled := by
  refine Triple.bind along_look fun w₀ => ?_
  rcases fdGet cfg w₀ fd with _ | i
  · exact along_pure _
  refine Triple.bind (along_entry i) fun w => ?_
  by_cases hc : (!(w.fdAt i).connected) = true
  · simp only [if_pos hc]
    exact along_pure _
  simp only [if_neg hc]
  rcases hk : (w.fdAt i).kind with _ | _ | _ | _
  · exact along_pure _
  · exact Triple.bind ((kept_tcpSock 0 hk).netTcpSend (stalled (by decide)) cfg _ _) fun _ => along_pure _
  · refine Triple.bind (Q := fun _ => Along Silent (Safe 0)) (along_atomically fun w' h => ?_)
      fun _ => along_pure _
    exact ((kept_udpSock 0 hk).netUdpSendto _ _ _ h).safe
  · exact along_pure _

theorem along_wrapLwipRecv (fd : ℤ) (len : ℕ) :
    Triple (Along Silent (Safe (S := S) 0)) (wrapLwipRecv cfg fd len) (fun _ => Along Silent (Safe 0))
      Stalled := by
  refine Triple.bind along_look fun w₀ => ?_
  rcases fdGet cfg w₀ fd with _ | i
  · exact along_pure _
  refine Triple.bind (along_entry i) fun w => ?_
  simp only
  rcases hk : (w.fdAt i).kind with _ | _ | _ | _
  · exact along_pure _
  · exact Triple.bind (along_safe ((kept_tcpSock 0 hk).netTcpRecv (stalled (by decide)) cfg _ _)) fun _ =>
      Triple.bind along_look fun _ => along_pure _
  · exact Triple.bind (along_safe ((kept_udpSock 0 hk).netUdpRecvfrom (stalled (by decide)) cfg _ _)) fun _ =>
      Triple.bind along_look fun _ => along_pure _
  · exact along_pure _

theorem stable_safe (n : ℕ) : Stable Silent (Safe (S := S) n) := fun _ henv w hw =>
  Holding.serene lasting_true hw (henv w hw.wf)

theorem along_loReceiveWait (i : ℕ) (timeoutMs : UInt32) :
    Triple (Along Silent (Safe (S := S) 0)) (loReceiveWait cfg i timeoutMs) (fun _ => Along Silent (Safe 0))
      Stalled :=
  along_loWait (stable_safe 0) (stalled (Q := fun _ => True) (Nat.zero_le (2 ^ 8)))
    (fun w h => h.same (SameHandles.loReceive i w)) timeoutMs

theorem along_wrapLwipRecvfrom (fd : ℤ) (len : ℕ) :
    Triple (Along Silent (Safe (S := S) 0)) (wrapLwipRecvfrom cfg fd len) (fun _ => Along Silent (Safe 0))
      Stalled := by
  refine Triple.bind along_look fun w₀ => ?_
  rcases fdGet cfg w₀ fd with _ | i
  · exact along_pure _
  refine Triple.bind (along_entry i) fun w => ?_
  simp only
  split_ifs with hk hlo
  · exact along_pure _
  · refine Triple.bind (Triple.consequence (along_loReceiveWait i _)
      (fun _ hs => ⟨hs.1.safe, hs.2⟩) fun _ _ hs => hs) fun r => ?_
    rcases r with _ | m
    · exact Triple.bind along_look fun _ => along_pure _
    · exact along_pure _
  · exact Triple.bind ((kept_udpSock 0 (not_not.mp hk)).netUdpRecvfrom (stalled (by decide)) cfg _ _)
      fun _ => along_pure _

/-! ### `select` and `poll` -/

theorem along_anyConnected (ss : List NetSock) :
    Triple (Along Silent (Holding (S := S) 0 fun w => ∀ s ∈ ss, OfKind .tcp s w)) (anyConnected ss)
      (fun _ => Along Silent (Safe 0)) Stalled := by
  induction ss with
  | nil => exact along_pure _
  | cons s ss ih =>
    have hkept : Kept Silent (Holding (S := S) 0 fun w => ∀ t ∈ s :: ss, OfKind .tcp t w) .tcp s :=
      kept_holding (fun _ _ hall he hw' t ht => (hall t ht).mono he hw') fun _ hall =>
        hall s List.mem_cons_self
    refine Triple.bind (Q := fun _ => Along Silent (Holding 0 fun w => ∀ t ∈ s :: ss, OfKind .tcp t w))
      (along_atomically fun w h => hkept.netTcpIsConnected h) fun up => ?_
    split_ifs
    · exact along_pure _
    · refine ih.consequence (fun _ hs => ⟨hs.1.imp fun _ _ hall t ht => ?_, hs.2⟩) fun _ _ hs => hs
      exact hall t (List.mem_cons_of_mem s ht)

theorem along_fdReadable (i : ℕ) :
    Triple (Along Silent (Safe (S := S) 0)) (fdReadable cfg i) (fun _ => Along Silent (Safe 0)) Stalled := by
  refine Triple.bind (along_entry i) fun w => ?_
  simp only
  split_ifs with hlisten hlo
  · exact (along_anyConnected _).consequence (fun _ hs => ⟨hs.1.imp fun _ _ he => he.pool, hs.2⟩)
      fun _ _ hs => hs
  · exact along_pure _
  rcases hk : (w.fdAt i).kind with _ | _ | _ | _
  · exact along_pure _
  · have hkept := kept_tcpSock (S := S) 0 hk
    refine Triple.bind (Q := fun _ => Along Silent (Holding 0 (EntryOk · (w.fdAt i))))
      (along_atomically fun w' h => hkept.netTcpRecvQueue h) fun n => ?_
    split_ifs
    · exact along_pure _
    · refine Triple.bind (Q := fun _ => Along Silent (Safe 0))
        (along_atomically fun w' h => (hkept.netTcpIsConnected h).safe) fun up => ?_
      exact Triple.bind along_look fun _ => along_pure _
  · exact Triple.bind ((kept_udpSock 0 hk).netUdpRecvfrom (stalled (by decide)) cfg _ _) fun _ =>
      along_pure _
  · exact along_pure _

theorem along_fdWritable (i : ℕ) :
    Triple (Along Silent (Safe (S := S) 0)) (fdWritable i) (fun _ => Along Silent (Safe 0)) Stalled := by
  refine Triple.bind (along_entry i) fun w => ?_
  simp only
  rcases hk : (w.fdAt i).kind with _ | _ | _ | _
  · exact along_pure _
  · simp only
    split_ifs
    · refine Triple.bind (Q := fun _ => Along Silent (Safe 0)) (along_atomically fun w' h => ?_)
        fun _ => along_pure _
      exact ((kept_tcpSock 0 hk).netTcpSendCapacity h).safe
    · exact along_pure _
  · exact along_pure _
  · exact along_pure _

theorem along_askReadable (i : ℕ) :
    Triple (Along Silent (Safe (S := S) 0)) (askReadable cfg i) (fun _ => Along Silent (Safe 0)) Stalled := by
  refine Triple.bind along_look fun w => ?_
  refine Triple.bind (along_fdReadable i) fun answer => ?_
  exact Triple.bind (Along.emit _) fun _ => along_pure _

theorem along_scanFd (rdIn wrIn : Finset ℤ) (fd : ℤ) (r : Ready) :
    Triple (Along Silent (Safe (S := S) 0)) (scanFd cfg rdIn wrIn fd r) (fun _ => Along Silent (Safe 0))
      Stalled := by
  refine Triple.bind along_look fun w₀ => ?_
  rcases fdGet cfg w₀ fd with _ | i
  · exact along_pure _
  have hwrite : ∀ {f : Bool → Ready}, Triple (Along Silent (Safe (S := S) 0))
      (if fd ∈ wrIn then fdWritable i >>= fun b => pure (f b) else pure false >>= fun b => pure (f b))
      (fun _ => Along Silent (Safe 0)) Stalled := by
    intro f
    split_ifs
    · exact Triple.bind (along_fdWritable i) fun _ => along_pure _
    · exact Triple.bind (along_pure false) fun _ => along_pure _
  by_cases hr : fd ∈ rdIn
  · simp only [if_pos hr]
    exact Triple.bind (along_askReadable i) fun _ => hwrite
  · simp only [if_neg hr]
    exact Triple.bind (along_pure false) fun _ => hwrite

theorem along_selectScan (rdIn wrIn : Finset ℤ) (fds : List ℤ) (r : Ready) :
    Triple (Along Silent (Safe (S := S) 0)) (selectScan cfg rdIn wrIn fds r) (fun _ => Along Silent (Safe 0))
      Stalled := by
  induction fds generalizing r with
  | nil => exact along_pure _
  | cons fd fds ih => exact Triple.bind (along_scanFd rdIn wrIn fd r) fun r => ih r

theorem along_selectLoop (nfds : ℤ) (rdIn wrIn : Finset ℤ) (deadline : UInt32) :
    Triple (Along Silent (Safe (S := S) 0)) (selectLoop cfg nfds rdIn wrIn deadline)
      (fun _ => Along Silent (Safe 0)) Stalled := by
  have hE := stalled (S := S) (Q := fun _ => True) (Nat.zero_le (2 ^ 8))
  have hagain : ∀ {A : Type}, Triple (Along Silent (Safe (S := S) 0))
      (blockingWait >>= fun _ => pure (.inl ()) : Code S (Unit ⊕ A))
      (fun _ => Along Silent (Safe 0)) Stalled :=
    Triple.bind (along_blockingWait (stable_safe 0) hE) fun _ => along_pure _
  have hturn : Triple (Along Silent (Safe (S := S) 0)) (selectTurn cfg nfds rdIn wrIn deadline)
      (fun _ => Along Silent (Safe 0)) Stalled := by
    refine Triple.bind (along_selectScan rdIn wrIn _ {}) fun r => ?_
    split_ifs
    · exact along_pure _
    · exact hagain
    · refine Triple.bind (along_xTaskGetTickCount (stable_safe 0) hE) fun now => ?_
      split_ifs
      · exact along_pure _
      · exact hagain
  refine Triple.loop (I := fun _ => Along Silent (Safe 0)) (fun _ => hE) (fun _ => ?_) ()
  refine hturn.consequence (fun _ hs => hs) fun r _ hs => ?_
  rcases r with _ | _
  · exact hs
  · exact hs

theorem along_wrapLwipSelect (nfds : ℤ) (rd wr : Finset ℤ) (timeout : Option TimeVal) :
    Triple (Along Silent (Safe (S := S) 0)) (wrapLwipSelect cfg nfds rd wr timeout)
      (fun _ => Along Silent (Safe 0)) Stalled := by
  rcases timeout with _ | tv
  · exact along_selectLoop nfds rd wr _
  · exact Triple.bind (along_xTaskGetTickCount (stable_safe 0) (stalled (by decide))) fun start =>
      along_selectLoop nfds rd wr _

theorem along_wrapLwipPoll (fds : List PollFd) (timeoutMs : ℤ) :
    Triple (Along Silent (Safe (S := S) 0)) (wrapLwipPoll cfg fds timeoutMs)
      (fun _ => Along Silent (Safe 0)) Stalled := by
  refine Triple.bind (along_wrapLwipSelect _ _ _ _) fun r => ?_
  split_ifs
  · exact along_pure _
  · exact along_pure _

end Blocking

/-! ## Runs -/

/-- The calls of the shim. -/
def SockCall.IsShim : SockCall → Prop
  | shim _ | send _ _ | sendto _ _ _ _ _ | recv _ _ | recvfrom _ _ | select _ _ _ _ | poll _ _ => True
  | _ => False

/-- **One call of the shim.** -/
theorem SockCall.safe (cfg : Config) {c : SockCall} (hc : c.IsShim) :
    Triple (Along Silent (Safe (S := S) 0)) (c.code cfg) (fun _ => Along Silent (Safe (2 ^ 8))) Stalled := by
  have hpool := cfg.listenerPool_range.2
  have drop : ∀ {β : Type} {n : ℕ} {t : Code S β}, n ≤ 2 ^ 8 →
      Triple (Along Silent (Safe 0)) t (fun _ => Along Silent (Safe n)) Stalled →
      Triple (Along Silent (Safe 0)) (discard t) (fun _ => Along Silent (Safe (2 ^ 8))) Stalled :=
    fun hn ht => Triple.bind ht fun _ => Triple.pure _ fun _ hs => ⟨hs.1.mono hn, hs.2⟩
  rcases c with c | ⟨fd, buf⟩ | ⟨heap, fd, buf, dst, tolen⟩ | ⟨fd, len⟩ | ⟨fd, len⟩ |
    ⟨nfds, rd, wr, timeout⟩ | ⟨fds, timeoutMs⟩ | _
  · rcases c with ⟨domain, type⟩ | ⟨heap, fd, addr, alen⟩ | ⟨heap, fd, backlog⟩ | fd |
      ⟨fd, addr, alen, rand⟩ | fd | fd
    · exact drop (n := 1) (by decide) (along_atomically fun w h => h.wrapLwipSocket (by decide) ..)
    · exact drop (n := 1) (by decide) (along_atomically fun w h => h.wrapLwipBind (by decide) ..)
    · exact drop (n := 0 + cfg.listenerPool) (by omega)
        (along_atomically fun w h => h.wrapLwipListen cfg (by omega) ..)
    · exact drop (by decide) (along_wrapLwipAccept_safe fd)
    · exact drop (by decide) (along_wrapLwipConnect fd addr alen rand)
    · exact drop (n := 0) (by decide) (along_atomically fun w h => h.wrapLwipShutdown cfg fd)
    · refine drop (n := 0) (by decide) (along_atomically fun w h => ?_)
      rw [wrapLwipClose_snd]
      exact h.fdFree cfg fd
  · exact drop (by decide) (along_wrapLwipSend fd buf)
  · exact drop (n := 0) (by decide) (along_atomically fun w h => h.wrapLwipSendto cfg heap fd buf dst tolen)
  · exact drop (by decide) (along_wrapLwipRecv fd len)
  · exact drop (by decide) (along_wrapLwipRecvfrom fd len)
  · exact drop (by decide) (along_wrapLwipSelect nfds rd wr timeout)
  · exact drop (by decide) (along_wrapLwipPoll fds timeoutMs)
  all_goals cases hc

/-- One step of a sequence: a call of the shim, which may or may not have returned when its schedule ends, a
lookup, or a move of the others.  After a call no counter has passed `2^24`. -/
inductive SafeStep (cfg : Config) : World S → World S → Prop
  | call {w : World S} (c : SockCall) (hc : c.IsShim) (sched : List (Moment (World S)))
      (hsilent : ∀ m ∈ sched, Silent m.env)
      (hids : ∀ i, ((c.code cfg).run w sched).2.world.counter i ≤ 2 ^ 24) :
      SafeStep cfg w ((c.code cfg).run w sched).2.world
  | getaddrinfo {w : World S} (dns : DnsConfig) (q : GaiQuery) (env : LookupEnv S)
      (henv : ∀ t ∈ env.turns, t.InPlace) : SafeStep cfg w (wrapLwipGetaddrinfo cfg dns q env w).2
  | others {w : World S} {env : World S → World S} (h : Silent env) : SafeStep cfg w (env w)

theorem Safe.step {cfg : Config} {w w' : World S} (h : Safe 0 w) (hs : SafeStep cfg w w') : Safe 0 w' := by
  obtain ⟨c, hc, sched, hsilent, hids⟩ | ⟨dns, q, env, henv⟩ | hsilent := hs
  · have hend : Safe (2 ^ 8) ((c.code cfg).run w sched).2.world := by
      rcases hrun : (c.code cfg).run w sched with ⟨_ | r, sys⟩
      · exact (c.safe cfg hc).of_none (s := ⟨w, sched, []⟩) ⟨h, hsilent⟩ hrun
      · exact ((c.safe cfg hc).of_some (s := ⟨w, sched, []⟩) ⟨h, hsilent⟩ hrun).1
    exact ⟨hend.wf, hids, hend.holds⟩
  · exact Holding.serene lasting_true h (serene_wrapLwipGetaddrinfo h.wf cfg dns q henv)
  · exact Holding.serene lasting_true h (hsilent w h.wf)

theorem Blank.safe {w : World S} (h : Blank w) (hw : w.Wf) : Safe 0 w := by
  refine ⟨hw, (h.accounted hw).held.bound, fun _ => ⟨⟨funext fun i => ?_, fun j => ?_⟩, trivial⟩⟩
  · rcases hctx : w.ctx i with _ | ctx
    · rw [World.panicked, hctx]
      rfl
    · obtain ⟨n, mac, rfl⟩ := h.ctx i ctx hctx
      rw [World.panicked_of_ctx hctx]
      rfl
  · have hfree : w.fdAt j = {} := by
      rw [World.fdAt, List.getD_eq_getElem?_getD]
      rcases hget : w.fds[j]? with _ | e
      · rfl
      · exact h.fds e (List.mem_of_getElem? hget)
    rw [hfree]
    exact .fresh hw rfl rfl

/-- **No core has panicked, and no call is about to make one panic**: the ids passed so far were not
registered or named a socket of the call's type (`IfaceCtx.panicked_withTcp` and its siblings), and so are
those in the fd table, for the calls their entries get. -/
structure TypeSafe (w : World S) : Prop where
  panicked : ∀ i ctx, w.ctx i = some ctx → ctx.panicked = false
  sock : ∀ j i ctx, (w.fdAt j).kind ≠ .free → (w.fdAt j).sock.iface = i.code → w.ctx i = some ctx →
    ctx.Names (w.fdAt j).kind.closesAs (w.fdAt j).sock.localId
  pool : ∀ j i ctx, ∀ s ∈ (w.fdAt j).pool, s.iface = i.code → w.ctx i = some ctx →
    ctx.Names .tcp s.localId

theorem Safe.typeSafe {w : World S} (h : Safe 0 w) : TypeSafe w := by
  obtain ⟨ht, -⟩ := h.holds h.bound
  refine ⟨fun i ctx hctx => ?_, fun j i ctx hk hi hctx => ?_, fun j i ctx s hs hi hctx => ?_⟩
  · rw [← World.panicked_of_ctx hctx, ht.panicked]
  · exact ((ht.entry j).sock hk).names h.wf hi hctx
  · exact ((ht.entry j).pool s hs).names h.wf hi hctx

/-- **Over any sequence of calls, below `2^24` ids, no call finds a dead socket or one of another type.** -/
theorem typeSafe_of_run {cfg : Config} {ifs : List (IfaceId × (Fin 6 → UInt8))} {w : World S}
    (h : Relation.ReflTransGen (SafeStep cfg) (.booted cfg ifs) w) : TypeSafe w := by
  refine Safe.typeSafe ?_
  induction h with
  | refl => exact (blank_booted cfg ifs).safe (World.wf_attachAll ifs (World.wf_boot cfg))
  | tail _ hstep ih => exact ih.step hstep

/-! ### A datagram and a lookup -/

/-- The world after `socket`. -/
def afterSocket : World .reference :=
  (((SockCall.shim (.socket 2 2)).code .default).run (.booted .default [(.eth, fun _ => 0)]) []).2.world

/-- The world after a `sendto` on the fd it returned. -/
def afterSendto : World .reference :=
  (((SockCall.sendto true 48 [1] ⟨2, dnsServer, 7⟩ 16).code .default).run afterSocket []).2.world

/-- A lookup of `a` that nothing answers. -/
def lookupAfterSendto : World .reference :=
  (wrapLwipGetaddrinfo .default ⟨.ofText ['1'], 3000⟩ ⟨some (.ofText ['a']), none, none, true⟩
    ⟨true, 7, 0, 0, []⟩ afterSendto).2

theorem typeSafe_lookupAfterSendto : TypeSafe lookupAfterSendto := by
  refine @typeSafe_of_run .reference .default [(.eth, fun _ => 0)] lookupAfterSendto ?_
  have hsocket : SafeStep .default (.booted .default [(.eth, fun _ => 0)]) afterSocket :=
    .call (.shim (.socket 2 2)) trivial [] (by simp) fun i => by cases i <;> decide
  have hsendto : SafeStep .default afterSocket afterSendto :=
    .call (.sendto true 48 [1] ⟨2, dnsServer, 7⟩ 16) trivial [] (by simp) fun i => by cases i <;> decide
  exact .tail (.tail (.single hsocket) hsendto) (.getaddrinfo _ _ _ (by simp))

end EspSmoltcp
