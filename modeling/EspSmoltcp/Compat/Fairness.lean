import EspSmoltcp.Compat.AcceptRace
import EspSmoltcp.Compat.Readiness
import EspSmoltcp.Compat.Uptime
import EspSmoltcp.Machinery.Rotation

/-!
# Compat/Fairness — which connection `accept` hands over, and when

`accept` scans the pool from `pool_next` on and moves `pool_next` behind the slot it serves.  Two results:

* `select` and `accept` look for the same thing: `fd_readable` marks a listener exactly when the first
  scan of `accept` finds a connection, and that scan then hands it over, or finds no free fd and leaves
  everything as it is (`listener_readiness`).
* A connection that stays up is handed over within as many accepts as the pool has slots
  (`servedInTurn_of_run`).  The steps are those of `acceptStep`, and between any two of them other slots
  may come up or go down: what carries the proof is how far `pool_next` is from the slot.
-/

namespace EspSmoltcp

variable {S : Smoltcp}

/-! ## The first scan -/

/-- What `net_tcp_is_connected` answers. -/
def slotUp (w : World S) (s : NetSock) : Bool := (netTcpIsConnected s w).1

/-- Asking leaves everything as it is. -/
theorem netTcpIsConnected_eq {w : World S} {s : NetSock} (hn : w.NamesTcp s) :
    netTcpIsConnected s w = (slotUp w s, w) := by
  have hworld : (netTcpIsConnected s w).2 = w := by
    rcases hf : handleFor w s.iface with _ | h
    · rw [netTcpIsConnected, hf]
    · rw [netTcpIsConnected_of_some hf hn]
  exact Prod.ext rfl hworld

section Scan

variable {cfg : Config} {w : World S} {i : ℕ}

/-- **`fd_readable` finds a listener ready when some slot is connected.** -/
theorem anyConnected_eq {pool : List NetSock} (hn : ∀ s ∈ pool, w.NamesTcp s)
    (ms : List (Moment (World S))) (l : List (Event S)) :
    ∃ l', anyConnected pool ⟨w, ms, l⟩ = (some (pool.any (slotUp w)), ⟨w, ms, l'⟩) := by
  induction pool generalizing l with
  | nil => exact ⟨l, rfl⟩
  | cons s pool ih =>
    have hs := netTcpIsConnected_eq (hn s List.mem_cons_self)
    rw [anyConnected, atomically_bind_apply, hs, List.any_cons]
    by_cases hup : slotUp w s = true
    · rw [if_pos hup, hup, Bool.true_or]
      exact ⟨_, rfl⟩
    · rw [if_neg hup, Bool.eq_false_of_not_eq_true hup, Bool.false_or]
      exact ih (fun s' hs' => hn s' (List.mem_cons_of_mem s hs')) _

theorem fdReadable_listen (hk : (w.fdAt i).kind = .tcpListen)
    (hn : ∀ s ∈ (w.fdAt i).pool, w.NamesTcp s) (ms : List (Moment (World S))) (l : List (Event S)) :
    ∃ l', fdReadable cfg i ⟨w, ms, l⟩
      = (some ((w.fdAt i).pool.any (slotUp w)), ⟨w, ms, l'⟩) := by
  rw [fdReadable, Thread.world_bind_apply]
  simp only [hk, if_true]
  exact anyConnected_eq hn ms l

/-- The slot a scan looks at after this many others. -/
def slotAt (w : World S) (i k : ℕ) : ℕ := ((w.fdAt i).poolNext + k) % (w.fdAt i).pool.length

/-- The socket in a slot. -/
def poolAt (w : World S) (i idx : ℕ) : NetSock := (w.fdAt i).pool.getD idx .invalid

theorem poolAt_of_lt {idx : ℕ} (h : idx < (w.fdAt i).pool.length) :
    poolAt w i idx = (w.fdAt i).pool[idx] := by
  simp [poolAt, h]

theorem poolAt_mem {idx : ℕ} (h : idx < (w.fdAt i).pool.length) : poolAt w i idx ∈ (w.fdAt i).pool :=
  poolAt_of_lt h ▸ List.getElem_mem h

/-- What a scan makes of the connection in a slot. -/
def handOverAt (cfg : Config) (i idx : ℕ) (w : World S) : Ret × World S :=
  handOver cfg i idx (poolAt w i idx) w

theorem acceptScan_cons {k : ℕ} (ks : List ℕ) (hn : w.NamesTcp (poolAt w i (slotAt w i k))) :
    acceptScan cfg i (k :: ks) w
      = if slotUp w (poolAt w i (slotAt w i k)) then
          (some (handOverAt cfg i (slotAt w i k) w).1, (handOverAt cfg i (slotAt w i k) w).2)
        else acceptScan cfg i ks w := by
  have hq := netTcpIsConnected_eq hn
  simp only [poolAt, slotAt] at hq
  simp only [acceptScan, hq]
  rfl

/-- A scan that comes to no connection changes nothing… -/
theorem acceptScan_none (hn : ∀ s ∈ (w.fdAt i).pool, w.NamesTcp s) {ks : List ℕ}
    (hlen : 0 < (w.fdAt i).pool.length)
    (hdown : ∀ k ∈ ks, ¬ slotUp w (poolAt w i (slotAt w i k)) = true) :
    acceptScan cfg i ks w = (none, w) := by
  induction ks with
  | nil => rfl
  | cons k ks ih =>
    rw [acceptScan_cons ks (hn _ (poolAt_mem (Nat.mod_lt _ hlen))),
      if_neg (hdown k List.mem_cons_self)]
    exact ih fun k' hk' => hdown k' (List.mem_cons_of_mem k hk')

variable (cfg) in
/-- …and another hands over a connection that it came to. -/
theorem acceptScan_some (hn : ∀ s ∈ (w.fdAt i).pool, w.NamesTcp s) {ks : List ℕ}
    (hlen : 0 < (w.fdAt i).pool.length)
    (hup : ∃ k ∈ ks, slotUp w (poolAt w i (slotAt w i k)) = true) :
    ∃ idx, slotUp w (poolAt w i idx) = true ∧ idx < (w.fdAt i).pool.length ∧
      acceptScan cfg i ks w = (some (handOverAt cfg i idx w).1, (handOverAt cfg i idx w).2) := by
  induction ks with
  | nil =>
    obtain ⟨k, hk, -⟩ := hup
    exact absurd hk List.not_mem_nil
  | cons k ks ih =>
    have hlt : slotAt w i k < (w.fdAt i).pool.length := Nat.mod_lt _ hlen
    rw [acceptScan_cons ks (hn _ (poolAt_mem hlt))]
    by_cases hk : slotUp w (poolAt w i (slotAt w i k)) = true
    · exact ⟨_, hk, hlt, if_pos hk⟩
    · rw [if_neg hk]
      obtain ⟨k', hk', hup'⟩ := hup
      rcases List.mem_cons.mp hk' with rfl | hk'
      · exact absurd hup' hk
      · exact ih ⟨k', hk', hup'⟩

/-- A full scan comes to every slot. -/
theorem exists_slotUp_iff (hp : (w.fdAt i).poolNext < (w.fdAt i).pool.length) :
    (∃ k ∈ List.range (w.fdAt i).pool.length, slotUp w (poolAt w i (slotAt w i k)) = true)
      ↔ (w.fdAt i).pool.any (slotUp w) = true := by
  rw [List.any_eq_true]
  constructor
  · rintro ⟨k, -, hup⟩
    exact ⟨_, poolAt_mem (Nat.mod_lt _ (by omega)), hup⟩
  · rintro ⟨s, hs, hup⟩
    obtain ⟨t, ht, rfl⟩ := List.getElem_of_mem hs
    refine ⟨_, List.mem_range.mpr (Rotation.dist_lt hp ht), ?_⟩
    rw [slotAt, Rotation.add_dist hp ht, poolAt_of_lt ht]
    exact hup

/-- A new fd was taken, and it has the connection. -/
def HandedOver (cfg : Config) (s : NetSock) (w : World S) (r : Ret) (w' : World S) : Prop :=
  ∃ n : ℕ, r = ⟨cfg.fdOffset + n, none⟩ ∧ (w.fdAt n).kind = .free ∧
    (w'.fdAt n).kind = .tcp ∧ (w'.fdAt n).sock = s ∧ (w'.fdAt n).connected = true

/-- No fd was free, and nothing was changed. -/
def NoFreeFd (w : World S) (r : Ret) (w' : World S) : Prop :=
  r = .fail .enfile ∧ w' = w ∧ ∀ e ∈ w.fds, e.kind ≠ .free

/-- `fd_alloc` fails only when no entry is free. -/
theorem ne_free_of_fdAlloc {k : FdKind} (h : fdAlloc cfg k w = (-1, w)) :
    ∀ e ∈ w.fds, e.kind ≠ .free := by
  rw [fdAlloc] at h
  split at h
  · rename_i hnone
    simpa using hnone
  · have := congrArg Prod.fst h
    simp only at this
    omega

theorem handOverAt_cases (hfds : w.fds.length ≤ cfg.maxFds) (hk : (w.fdAt i).kind = .tcpListen)
    (idx : ℕ) :
    HandedOver cfg (poolAt w i idx) w (handOverAt cfg i idx w).1 (handOverAt cfg i idx w).2 ∨
      NoFreeFd w (handOverAt cfg i idx w).1 (handOverAt cfg i idx w).2 := by
  have hspec := handOver_spec cfg i idx (poolAt w i idx) w
  rw [← handOverAt] at hspec
  generalize handOverAt cfg i idx w = r at hspec ⊢
  cases hspec with
  | full h => exact .inr ⟨rfl, rfl, ne_free_of_fdAlloc h⟩
  | @outside n w₁ hn _ hw hget =>
    have hkind : (w₁.fdAt n).kind ≠ .free := by
      rw [← hw, World.fdAt_setFd_self hn]
      simp
    cases (fdGet_of_kind (hn.trans_le hfds) hkind).symm.trans hget
  | @given n v port w₁ w₃ w₄ o hn hfree _ hw ho hput harm =>
    have hni : n ≠ i := by
      rintro rfl
      rw [hk] at hfree
      cases hfree
    refine .inl ⟨n, ?_⟩
    have he₁ : w₁.fdAt n = { kind := .tcp, sock := poolAt w i idx, connected := true, iface := v } :=
      hw ▸ World.fdAt_setFd_self hn _
    -- What follows touches the core and the listener only.
    have he₂ : o.2.fdAt n = w₁.fdAt n := by rw [← ho, World.fdAt, (SameShim.netTcpOpen ..).fds, ← World.fdAt]
    have he₃ : w₃.fdAt n = w₁.fdAt n := by rw [← hput, World.fdAt_modFd_ne _ hni, he₂]
    have he₄ : w₄.fdAt n = w₁.fdAt n := by
      rw [← harm]
      split_ifs
      · rw [World.fdAt, (SameShim.netTcpListen ..).fds, ← World.fdAt, he₃]
      · exact he₃
    rw [World.fdAt_modFd_ne _ hni, he₄, he₁]
    exact ⟨rfl, hfree, rfl, rfl, rfl⟩

/-- The first scan of a call of `accept`. -/
def firstScan (cfg : Config) (i : ℕ) (w : World S) : Option Ret × World S :=
  acceptScan cfg i (List.range (w.fdAt i).pool.length) w

/-- A first scan that finds a connection ends the call, which has not waited. -/
theorem atOnce_accept {fd : ℤ} (hfd : fdGet cfg w fd = some i) (hk : (w.fdAt i).kind = .tcpListen)
    {r : Ret} {w' : World S} (hscan : firstScan cfg i w = (some r, w')) (t : UInt32) :
    AtOnce (wrapLwipAccept cfg fd) w t fun a w₁ => a = r ∧ w₁ = w' := by
  have hturn : acceptTurn cfg i t ⟨w, [idle t], []⟩
      = (some (.inr r), ⟨w', [idle t], [.step .other w w']⟩) := by
    rw [acceptTurn, Thread.world_bind_apply, atomically_bind_apply]
    rw [firstScan] at hscan
    simp only [hscan]
    rfl
  have hrun : (wrapLwipAccept cfg fd).run w [idle t, idle t]
      = (some r, ⟨w', [idle t], [.step .other w w']⟩) := by
    rw [Code.run, wrapLwipAccept_eq, Thread.world_bind_apply]
    simp only [hfd]
    rw [Thread.world_bind_apply, if_neg (not_not_intro hk), xTaskGetTickCount_bind_cons, Thread.loop,
      Thread.loopN_succ]
    change Thread.afterTurn _ (acceptTurn cfg i t ⟨w, [idle t], []⟩) = _
    rw [hturn]
    rfl
  exact ⟨r, _, hrun, by simp, rfl, rfl⟩

/-- **`select` marks a listener exactly when the first scan of `accept` finds a connection; and then
`accept` hands it over, or finds no free fd and changes nothing.** -/
theorem listener_readiness {fd : ℤ} (hfd : fdGet cfg w fd = some i)
    (hk : (w.fdAt i).kind = .tcpListen) (hp : (w.fdAt i).poolNext < (w.fdAt i).pool.length)
    (hn : ∀ s ∈ (w.fdAt i).pool, w.NamesTcp s) (hfds : w.fds.length ≤ cfg.maxFds) (t : UInt32) :
    (SelectMarks cfg w fd t ↔ (firstScan cfg i w).1.isSome = true) ∧
    ∀ r w', firstScan cfg i w = (some r, w') →
      AtOnce (wrapLwipAccept cfg fd) w t (fun a w₁ => a = r ∧ w₁ = w') ∧
      ((∃ s ∈ (w.fdAt i).pool, slotUp w s = true ∧ HandedOver cfg s w r w') ∨ NoFreeFd w r w') := by
  have hlen : 0 < (w.fdAt i).pool.length := by omega
  rw [selectMarks_iff hfd (fdReadable_listen hk hn) t, ← exists_slotUp_iff hp]
  constructor
  · by_cases hup : ∃ k ∈ List.range (w.fdAt i).pool.length,
        slotUp w (poolAt w i (slotAt w i k)) = true
    · obtain ⟨idx, -, -, hscan⟩ := acceptScan_some cfg hn hlen hup
      rw [firstScan, hscan]
      exact iff_of_true hup rfl
    · rw [firstScan, acceptScan_none hn hlen fun k hk hk' => hup ⟨k, hk, hk'⟩]
      exact iff_of_false hup Bool.false_ne_true
  · intro r w' hscan
    refine ⟨atOnce_accept hfd hk hscan t, ?_⟩
    have hup : ∃ k ∈ List.range (w.fdAt i).pool.length,
        slotUp w (poolAt w i (slotAt w i k)) = true := by
      by_contra hdown
      rw [firstScan, acceptScan_none hn hlen fun k hk hk' => hdown ⟨k, hk, hk'⟩] at hscan
      cases hscan
    obtain ⟨idx, hidx, hlt, hscan'⟩ := acceptScan_some cfg hn hlen hup
    rw [firstScan, hscan'] at hscan
    obtain ⟨hr, rfl⟩ := Prod.mk.inj hscan
    obtain rfl := Option.some.inj hr
    exact (handOverAt_cases hfds hk idx).imp_left fun h => ⟨_, poolAt_mem hlt, hidx, h⟩

end Scan

/-! ## One task -/

/-- One task on a listener.  `given` and `filled` are kept for the statement only, as in `AcceptSys`:
which socket became the `sock` of which entry, and which slot was filled for which connection.
`accepts` counts the calls that returned an fd. -/
structure Solo (S : Smoltcp) where
  world : World S
  pc : AcceptPc := .outside none
  given : List (NetSock × ℕ) := []
  filled : List (ℕ × NetSock) := []
  accepts : ℕ := 0

/-- The call has just returned an fd. -/
def AcceptPc.accepted : AcceptPc → Bool
  | .outside (some r) => r.errno.isNone
  | _ => false

/-- The connection has been handed over, and the call has not returned. -/
def AcceptPc.finishing : AcceptPc → Bool
  | .rearming .. => true
  | _ => false

/-- One step of the task. -/
def Solo.move (cfg : Config) (i : ℕ) (timedOut : Bool) (a : Solo S) : Solo S where
  world := (acceptStep cfg i timedOut a.world a.pc).2
  pc := (acceptStep cfg i timedOut a.world a.pc).1
  given := a.pc.gives.toList ++ a.given
  filled := a.pc.fills.toList ++ a.filled
  accepts := a.accepts + (acceptStep cfg i timedOut a.world a.pc).1.accepted.toNat

/-- What else happens leaves the ring of the listener alone. -/
structure KeepsListener (i : ℕ) (w w' : World S) : Prop where
  kind : (w'.fdAt i).kind = (w.fdAt i).kind
  pool : (w'.fdAt i).pool = (w.fdAt i).pool
  poolNext : (w'.fdAt i).poolNext = (w.fdAt i).poolNext

/-- A step of the task, or something else. -/
inductive SoloStep (cfg : Config) (i : ℕ) : Solo S → Solo S → Prop
  | task (timedOut : Bool) (a : Solo S) : SoloStep cfg i a (a.move cfg i timedOut)
  | elsewhere {a : Solo S} {w : World S} (h : KeepsListener i a.world w) :
      SoloStep cfg i a { a with world := w }

/-! ## What a step does to the listener -/

/-- The store a step makes to the listener. -/
def AcceptPc.onListener : AcceptPc → FdEntry → FdEntry
  | .giving idx _ _ (.store s), e => { e with pool := e.pool.set idx s }
  | .rearming _ _ (.next n), e => { e with poolNext := n }
  | _, e => e

/-- The entry a connection is being handed over to is not the listener. -/
def Giving.Clear (cfg : Config) (i : ℕ) (newfd : ℤ) : Giving → Prop
  | .get => newfd ≠ cfg.fdOffset + i
  | .sock ni | .connected ni | .readIface ni | .iface ni _ | .nonblocking ni => ni ≠ i
  | _ => True

/-- `…and` for any point of a call. -/
def AcceptPc.Clear (cfg : Config) (i : ℕ) : AcceptPc → Prop
  | .giving _ _ newfd st => st.Clear cfg i newfd
  | _ => True

section Listener

variable {cfg : Config} {i : ℕ} {w : World S} {pc : AcceptPc}

theorem lt_length_of_kind (hk : (w.fdAt i).kind = .tcpListen) : i < w.fds.length :=
  lt_length_of_ne_free (hk ▸ FdKind.noConfusion)

/-- `fd_alloc` takes an entry that was free. -/
theorem fdAt_fdAlloc (hk : (w.fdAt i).kind = .tcpListen) :
    (fdAlloc cfg .tcp w).2.fdAt i = w.fdAt i ∧ (fdAlloc cfg .tcp w).1 ≠ cfg.fdOffset + i := by
  obtain hfull | ⟨n, -, hfree, halloc⟩ := fdAlloc_cases cfg .tcp w
  · rw [hfull]
    exact ⟨rfl, by simp only; omega⟩
  · have hin : i ≠ n := by
      rintro rfl
      rw [hk] at hfree
      cases hfree
    rw [halloc]
    exact ⟨World.fdAt_setFd_ne hin _, by simp only; omega⟩

/-- **A step stores into the listener only to fill a slot or to move `pool_next`.** -/
theorem fdAt_acceptStep (hk : (w.fdAt i).kind = .tcpListen) (hpc : pc.Clear cfg i) (timedOut : Bool) :
    (acceptStep cfg i timedOut w pc).2.fdAt i = pc.onListener (w.fdAt i) := by
  have hi := lt_length_of_kind hk
  have hshim : ∀ {w' : World S}, SameShim w w' → w'.fdAt i = w.fdAt i := fun h => by
    rw [World.fdAt, h.fds, ← World.fdAt]
  cases pc with
  | check k idx cand => exact hshim (SameShim.netTcpIsConnected cand w)
  | alloc idx cand => exact (fdAt_fdAlloc hk).1
  | giving idx cand newfd st =>
    cases st with
    | get =>
      rw [acceptStep, givingStep]
      rcases fdGet cfg w newfd with _ | ni <;> rfl
    | sock ni => exact World.fdAt_modFd_ne _ (Ne.symm hpc)
    | connected ni => exact World.fdAt_modFd_ne _ (Ne.symm hpc)
    | readIface ni => rfl
    | iface ni v => exact World.fdAt_modFd_ne _ (Ne.symm hpc)
    | nonblocking ni => exact World.fdAt_modFd_ne _ (Ne.symm hpc)
    | openIface => rfl
    | opening v => exact hshim (SameShim.netTcpOpen v w)
    | store s => exact World.fdAt_modFd_self _ hi
  | rearming idx newfd st =>
    cases st with
    | listen s port => exact hshim (SameShim.netTcpListen s port w)
    | next n => exact World.fdAt_modFd_self _ hi
    | _ => rfl
  | _ => rfl

/-- It stays clear of the listener. -/
theorem clear_acceptStep (hk : (w.fdAt i).kind = .tcpListen) (hpc : pc.Clear cfg i) (timedOut : Bool) :
    (acceptStep cfg i timedOut w pc).1.Clear cfg i := by
  cases pc with
  | enter => rw [acceptStep, if_pos hk]; trivial
  | scan k => rw [acceptStep]; split_ifs <;> trivial
  | check k idx cand => rw [acceptStep]; split_ifs <;> trivial
  | alloc idx cand =>
    simp only [acceptStep]
    split_ifs
    · trivial
    · exact (fdAt_fdAlloc hk).2
  | giving idx cand newfd st =>
    cases st with
    | get =>
      rw [acceptStep, givingStep]
      rcases hg : fdGet cfg w newfd with _ | ni
      · trivial
      · have hfd := (fdGet_spec hg).1
        rintro rfl
        exact hpc hfd
    | sock ni => exact hpc
    | connected ni => exact hpc
    | readIface ni => exact hpc
    | iface ni v => exact hpc
    | _ => trivial
  | rearming idx newfd st => cases st <;> exact trivial
  | nonblocking => rw [acceptStep]; split_ifs <;> trivial
  | late => rw [acceptStep]; split_ifs <;> trivial
  | _ => trivial

end Listener

/-! ## The ring -/

/-- What the task has read of the listener is still so, and a connection that was stored in a new entry is
in the history. -/
def AcceptPc.Seen (e : FdEntry) (given : List (NetSock × ℕ)) : AcceptPc → Prop
  | .wrap _ start => start = e.poolNext
  | .read k idx => idx = (e.poolNext + k) % e.pool.length
  | .check k idx cand => idx = (e.poolNext + k) % e.pool.length ∧ cand = e.pool.getD idx .invalid
  | .alloc idx cand => idx < e.pool.length ∧ cand = e.pool.getD idx .invalid
  | .giving idx cand _ st => idx < e.pool.length ∧ cand = e.pool.getD idx .invalid ∧
      (st.given = true → ∃ n, (cand, n) ∈ given)
  | .rearming idx _ st => idx < e.pool.length ∧ ∀ n, st = .next n → n = (idx + 1) % e.pool.length
  | _ => True

/-- **`pool_next` stays below `pool_len`**, and what goes with it. -/
structure Solo.Ring (cfg : Config) (i len : ℕ) (a : Solo S) : Prop where
  kind : (a.world.fdAt i).kind = .tcpListen
  length : (a.world.fdAt i).pool.length = len
  next : (a.world.fdAt i).poolNext < len
  clear : a.pc.Clear cfg i
  seen : a.pc.Seen (a.world.fdAt i) a.given
  count : a.filled.length = a.accepts + a.pc.finishing.toNat

section Ring

variable {cfg : Config} {i len : ℕ} {w : World S} {pc : AcceptPc} {given : List (NetSock × ℕ)}

theorem seen_acceptStep (hk : (w.fdAt i).kind = .tcpListen)
    (hp : (w.fdAt i).poolNext < (w.fdAt i).pool.length) (hpc : pc.Seen (w.fdAt i) given)
    (timedOut : Bool) : (acceptStep cfg i timedOut w pc).1.Seen (pc.onListener (w.fdAt i))
      (pc.gives.toList ++ given) := by
  have hlt : ∀ k, ((w.fdAt i).poolNext + k) % (w.fdAt i).pool.length < (w.fdAt i).pool.length :=
    fun k => Nat.mod_lt _ (by omega)
  cases pc with
  | enter => rw [acceptStep, if_pos hk]; trivial
  | scan k => rw [acceptStep]; split_ifs <;> trivial
  | next k => rfl
  | wrap k start =>
    obtain rfl : start = _ := hpc
    rfl
  | read k idx => exact ⟨hpc, rfl⟩
  | check k idx cand =>
    obtain ⟨rfl, hcand⟩ := hpc
    rw [acceptStep]
    split_ifs
    · exact ⟨hlt k, hcand⟩
    · trivial
  | alloc idx cand =>
    simp only [acceptStep]
    split_ifs
    · trivial
    · exact ⟨hpc.1, hpc.2, by rintro ⟨⟩⟩
  | giving idx cand newfd st =>
    obtain ⟨hidx, hcand, hst⟩ := hpc
    cases st with
    | get =>
      rw [acceptStep, givingStep]
      rcases fdGet cfg w newfd with _ | ni
      · trivial
      · exact ⟨hidx, hcand, by rintro ⟨⟩⟩
    | sock ni => exact ⟨hidx, hcand, fun _ => ⟨ni, List.mem_cons_self⟩⟩
    | store s => exact ⟨by rw [AcceptPc.onListener, List.length_set]; exact hidx, by rintro n ⟨⟩⟩
    | _ => exact ⟨hidx, hcand, fun _ => hst rfl⟩
  | rearming idx newfd st =>
    obtain ⟨hidx, hst⟩ := hpc
    cases st with
    | valid =>
      refine ⟨hidx, fun n h => ?_⟩
      split_ifs at h
    | wrap =>
      refine ⟨hidx, fun n h => ?_⟩
      cases h
      rfl
    | next n => trivial
    | _ => exact ⟨hidx, by rintro n ⟨⟩⟩
  | nonblocking => rw [acceptStep]; split_ifs <;> trivial
  | late => rw [acceptStep]; split_ifs <;> trivial
  | _ => trivial

variable (cfg) in
/-- A call hands over one connection for every fd it returns. -/
theorem count_acceptStep (hk : (w.fdAt i).kind = .tcpListen) (timedOut : Bool) :
    pc.fills.toList.length + pc.finishing.toNat
      = (acceptStep cfg i timedOut w pc).1.accepted.toNat
        + (acceptStep cfg i timedOut w pc).1.finishing.toNat := by
  cases pc with
  | enter => rw [acceptStep, if_pos hk]; rfl
  | scan k => rw [acceptStep]; split_ifs <;> rfl
  | check k idx cand => rw [acceptStep]; split_ifs <;> rfl
  | alloc idx cand => simp only [acceptStep]; split_ifs <;> rfl
  | giving idx cand newfd st =>
    cases st with
    | get =>
      rw [acceptStep, givingStep]
      rcases fdGet cfg w newfd with _ | ni <;> rfl
    | _ => rfl
  | rearming idx newfd st => cases st <;> rfl
  | nonblocking => rw [acceptStep]; split_ifs <;> rfl
  | late => rw [acceptStep]; split_ifs <;> rfl
  | _ => rfl

theorem poolNext_onListener {e : FdEntry} (hpc : pc.Seen e given) (hp : e.poolNext < e.pool.length) :
    (pc.onListener e).poolNext < e.pool.length := by
  unfold AcceptPc.onListener
  split
  · exact hp
  · rename_i n
    rw [hpc.2 n rfl]
    exact Nat.mod_lt _ (by omega)
  · exact hp

theorem kind_onListener (e : FdEntry) : (pc.onListener e).kind = e.kind := by
  unfold AcceptPc.onListener
  split <;> rfl

theorem length_onListener (e : FdEntry) : (pc.onListener e).pool.length = e.pool.length := by
  unfold AcceptPc.onListener
  split
  · exact List.length_set
  · rfl
  · rfl

variable {a b : Solo S}

/-- **A step of the task keeps the ring.** -/
theorem Solo.Ring.move (h : a.Ring cfg i len) (timedOut : Bool) : (a.move cfg i timedOut).Ring cfg i len := by
  have he := fdAt_acceptStep h.kind h.clear timedOut
  have hp : (a.world.fdAt i).poolNext < (a.world.fdAt i).pool.length := h.length ▸ h.next
  refine ⟨?_, ?_, ?_, clear_acceptStep h.kind h.clear timedOut, ?_, ?_⟩
  · rw [Solo.move, he, kind_onListener, h.kind]
  · rw [Solo.move, he, length_onListener, h.length]
  · rw [Solo.move, he, ← h.length]
    exact poolNext_onListener h.seen hp
  · rw [Solo.move, he]
    exact seen_acceptStep h.kind hp h.seen timedOut
  · have hc : a.pc.fills.toList.length + a.pc.finishing.toNat
        = (acceptStep cfg i timedOut a.world a.pc).1.accepted.toNat
          + (acceptStep cfg i timedOut a.world a.pc).1.finishing.toNat :=
      count_acceptStep cfg h.kind timedOut
    have := h.count
    simp only [Solo.move, List.length_append]
    omega

theorem AcceptPc.Seen.congr {e e' : FdEntry} (h : pc.Seen e given) (hp : e'.pool = e.pool)
    (hn : e'.poolNext = e.poolNext) : pc.Seen e' given := by
  unfold AcceptPc.Seen at h ⊢
  rw [hp, hn]
  exact h

theorem Solo.Ring.step (h : a.Ring cfg i len) (hs : SoloStep cfg i a b) : b.Ring cfg i len := by
  cases hs with
  | task timedOut => exact h.move timedOut
  | elsewhere hw =>
    exact ⟨hw.kind.trans h.kind, hw.pool ▸ h.length, hw.poolNext ▸ h.next, h.clear,
      h.seen.congr hw.pool hw.poolNext, h.count⟩

end Ring

/-! ## Taking turns -/

/-- The connection in slot `t` was stored in an entry, and the slot was filled for it, since `m` had been
handed over. -/
def Solo.Served (t : ℕ) (s : NetSock) (m : ℕ) (a : Solo S) : Prop :=
  (∃ n, (s, n) ∈ a.given) ∧ ∃ new old, a.filled = new ++ old ∧ old.length = m ∧ (t, s) ∈ new

/-- Where `pool_next` will be when the call that is under way has moved it. -/
def AcceptPc.nextServed (e : FdEntry) : AcceptPc → ℕ
  | .rearming idx _ _ => (idx + 1) % e.pool.length
  | _ => e.poolNext

theorem AcceptPc.nextServed_congr {e e' : FdEntry} (pc : AcceptPc) (hp : e'.pool = e.pool)
    (hn : e'.poolNext = e.poolNext) : pc.nextServed e' = pc.nextServed e := by
  unfold AcceptPc.nextServed
  rw [hp, hn]

/-- The scan has not passed slot `t`. -/
def AcceptPc.Ahead (p len t : ℕ) : AcceptPc → Prop
  | .scan k | .next k | .wrap k _ | .read k _ | .check k _ _ => k ≤ Rotation.dist len p t
  | .alloc idx _ | .giving idx _ _ _ => ∃ k ≤ Rotation.dist len p t, idx = (p + k) % len
  | .nonblocking | .late => False
  | _ => True

/-- Slot `t` waits with its connection: what has been handed over since there were `m`, and what may still
come before it, fit into one lap.  A scan that had passed the slot has handed nothing over yet. -/
structure Solo.Waiting (i len t : ℕ) (s : NetSock) (m : ℕ) (a : Solo S) : Prop where
  slot : poolAt a.world i t = s
  since : m ≤ a.filled.length
  near : a.filled.length + Rotation.dist len (a.pc.nextServed (a.world.fdAt i)) t < m + len
  ahead : a.pc.Ahead (a.world.fdAt i).poolNext len t ∨ a.filled.length ≤ m

section Turns

variable {cfg : Config} {i len t m n : ℕ} {s : NetSock} {w w' : World S} {pc pc' : AcceptPc}
  {given given' : List (NetSock × ℕ)} {filled : List (ℕ × NetSock)}

/-- A step that fills no slot and does not move `pool_next`. -/
theorem Solo.Waiting.quiet {n' : ℕ} (h : Solo.Waiting i len t s m ⟨w, pc, given, filled, n⟩)
    (he : w'.fdAt i = w.fdAt i) (hn : pc'.nextServed (w.fdAt i) = pc.nextServed (w.fdAt i))
    (ha : pc.Ahead (w.fdAt i).poolNext len t → pc'.Ahead (w.fdAt i).poolNext len t) :
    Solo.Waiting i len t s m ⟨w', pc', given', filled, n'⟩ := by
  refine ⟨?_, h.since, ?_, ?_⟩
  · rw [poolAt, he]
    exact h.slot
  · rw [he, hn]
    exact h.near
  · rw [he]
    exact h.ahead.imp_left ha

/-- **The slot a call fills is the one that waits, or the one that waits has come closer.** -/
theorem Solo.Waiting.store {idx : ℕ} {cand s' : NetSock} {newfd : ℤ} (ht : t < len)
    (hr : Solo.Ring cfg i len ⟨w, .giving idx cand newfd (.store s'), given, filled, n⟩)
    (h : Solo.Waiting i len t s m ⟨w, .giving idx cand newfd (.store s'), given, filled, n⟩)
    (timedOut : Bool) :
    Solo.Served t s m (Solo.move cfg i timedOut ⟨w, .giving idx cand newfd (.store s'), given, filled, n⟩) ∨
      Solo.Waiting i len t s m
        (Solo.move cfg i timedOut ⟨w, .giving idx cand newfd (.store s'), given, filled, n⟩) := by
  obtain ⟨hidx, hcand, hgiven⟩ := hr.seen
  have hslot := h.slot
  by_cases heq : idx = t
  · subst heq
    obtain rfl : cand = s := hcand.trans hslot
    refine .inl ⟨hgiven rfl, (idx, cand) :: filled.take (filled.length - m),
      filled.drop (filled.length - m), ?_, ?_, List.mem_cons_self⟩
    · rw [List.cons_append, List.take_append_drop]
      rfl
    · have hm : m ≤ filled.length := h.since
      rw [List.length_drop]
      omega
  · refine .inr ?_
    have he : (w.modFd i fun e => { e with pool := e.pool.set idx s' }).fdAt i
        = { w.fdAt i with pool := (w.fdAt i).pool.set idx s' } :=
      World.fdAt_modFd_self _ (lt_length_of_kind hr.kind)
    have hlen := hr.length
    have hp := hr.next
    have hnear : filled.length + Rotation.dist len (w.fdAt i).poolNext t < m + len := h.near
    simp only at hidx hlen hp
    have hcloser : filled.length + 1 + Rotation.dist len ((idx + 1) % len) t < m + len := by
      obtain ⟨k, hk, hidxk⟩ | hnone := h.ahead
      · -- The slot filled comes before the one that waits.
        have hne : k ≠ Rotation.dist len (w.fdAt i).poolNext t := by
          rintro rfl
          exact heq (hidxk.trans (Rotation.add_dist hp ht))
        have := Rotation.dist_next hp ht (lt_of_le_of_ne hk hne)
        rw [← hidxk] at this
        omega
      · have := Rotation.dist_succ_lt (hlen ▸ hidx) ht heq
        simp only at hnone
        omega
    refine ⟨?_, Nat.le_succ_of_le h.since, ?_, .inl trivial⟩
    · simp only [Solo.move, acceptStep, givingStep, poolAt, he]
      rw [List.getD_eq_getElem?_getD, List.getElem?_set_ne heq, ← List.getD_eq_getElem?_getD]
      exact hslot
    · simp only [Solo.move, acceptStep, givingStep, he, AcceptPc.nextServed, List.length_set, hlen]
      simpa [AcceptPc.fills] using hcloser

theorem Solo.Waiting.move {a : Solo S} (ht : t < len) (hr : a.Ring cfg i len)
    (h : a.Waiting i len t s m) (hup : slotUp a.world s = true) (timedOut : Bool) :
    (a.move cfg i timedOut).Served t s m ∨ (a.move cfg i timedOut).Waiting i len t s m := by
  have he := fdAt_acceptStep hr.kind hr.clear timedOut
  have hp := hr.next
  obtain ⟨w, pc, given, filled, n⟩ := a
  simp only at he hp hup
  cases pc with
  | outside r => exact .inr (h.quiet he rfl id)
  | enter =>
    refine .inr (h.quiet he ?_ fun _ => ?_)
    · rw [acceptStep, if_pos hr.kind]
      rfl
    · rw [acceptStep, if_pos hr.kind]
      exact Nat.zero_le _
  | scan k =>
    refine .inr (h.quiet he ?_ fun ha => ?_)
    · rw [acceptStep]
      split_ifs <;> rfl
    · have hlt : k < (w.fdAt i).pool.length :=
        lt_of_le_of_lt ha (hr.length.symm ▸ Rotation.dist_lt hp ht)
      rw [acceptStep, if_pos hlt]
      exact ha
  | next k => exact .inr (h.quiet he rfl id)
  | wrap k start => exact .inr (h.quiet he rfl id)
  | read k idx => exact .inr (h.quiet he rfl id)
  | check k idx cand =>
    obtain ⟨hidx, hcand⟩ := hr.seen
    have hlen := hr.length
    simp only at hidx hlen
    refine .inr (h.quiet he ?_ fun ha => ?_)
    · rw [acceptStep]
      split_ifs <;> rfl
    · rw [acceptStep]
      split_ifs with hdown
      · exact ⟨k, ha, hlen ▸ hidx⟩
      · -- Slot `t` is up, so this was another.
        refine Nat.succ_le_of_lt (lt_of_le_of_ne ha ?_)
        rintro rfl
        rw [hlen, Rotation.add_dist hp ht] at hidx
        have hslot := h.slot
        rw [poolAt, ← hidx, ← hcand] at hslot
        exact hdown (hslot ▸ hup)
  | alloc idx cand =>
    refine .inr (h.quiet he ?_ fun ha => ?_)
    · simp only [acceptStep]
      split_ifs <;> rfl
    · simp only [acceptStep]
      split_ifs
      · trivial
      · exact ha
  | giving idx cand newfd st =>
    cases st with
    | get =>
      refine .inr (h.quiet he ?_ fun ha => ?_)
      · rw [acceptStep, givingStep]
        rcases fdGet cfg w newfd with _ | ni <;> rfl
      · rw [acceptStep, givingStep]
        rcases fdGet cfg w newfd with _ | ni
        · trivial
        · exact ha
    | store s' => exact Solo.Waiting.store ht hr h timedOut
    | _ => exact .inr (h.quiet he rfl id)
  | rearming idx newfd st =>
    cases st with
    | next k =>
      refine .inr ⟨?_, h.since, ?_, .inl trivial⟩
      · rw [poolAt, Solo.move, he]
        exact h.slot
      · have hk : k = _ := hr.seen.2 k rfl
        have hnear := h.near
        rw [Solo.move, he]
        simp only [acceptStep, rearmingStep, AcceptPc.nextServed, AcceptPc.onListener, hk]
        exact hnear
    | _ => exact .inr (h.quiet he rfl id)
  | nonblocking =>
    refine .inr (h.quiet he ?_ False.elim)
    rw [acceptStep]
    split_ifs <;> rfl
  | late =>
    refine .inr (h.quiet he ?_ False.elim)
    rw [acceptStep]
    split_ifs <;> rfl

/-- What was handed over stays so. -/
theorem Solo.Served.step {a b : Solo S} (h : a.Served t s m) (hs : SoloStep cfg i a b) :
    b.Served t s m := by
  cases hs with
  | task timedOut =>
    obtain ⟨⟨n, hn⟩, new, old, hf, hlen, hmem⟩ := h
    refine ⟨⟨n, List.mem_append_right _ hn⟩, a.pc.fills.toList ++ new, old, ?_, hlen,
      List.mem_append_right _ hmem⟩
    rw [List.append_assoc, ← hf]
    rfl
  | elsewhere hw => exact h

/-- A slot that is up waits, wherever the task is. -/
theorem Solo.Ring.waiting {a : Solo S} (h : a.Ring cfg i len) (ht : t < len) :
    a.Waiting i len t (poolAt a.world i t) a.filled.length := by
  have hnext : a.pc.nextServed (a.world.fdAt i) < len := by
    unfold AcceptPc.nextServed
    split
    · exact h.length ▸ Nat.mod_lt _ (by rw [h.length]; omega)
    · exact h.next
  exact ⟨rfl, le_rfl, Nat.add_lt_add_left (Rotation.dist_lt hnext ht) _, .inr le_rfl⟩

/-- A step, while the connection stays up until it is handed over. -/
def StaysUp (cfg : Config) (i t : ℕ) (s : NetSock) (m : ℕ) (a b : Solo S) : Prop :=
  SoloStep cfg i a b ∧ (b.Served t s m ∨ slotUp b.world s = true)

open Relation (ReflTransGen)

theorem soloRun_of_staysUp {a b : Solo S} (h : ReflTransGen (StaysUp cfg i t s m) a b) :
    ReflTransGen (SoloStep cfg i) a b :=
  ReflTransGen.mono (fun _ _ hs => hs.1) _ _ h

theorem ring_of_run {a b : Solo S} (h : a.Ring cfg i len) (hrun : ReflTransGen (SoloStep cfg i) a b) :
    b.Ring cfg i len := by
  induction hrun with
  | refl => exact h
  | tail _ hs ih => exact ih.step hs

/-- **A connection that stays up is handed over, or waits its turn.** -/
theorem servedInTurn_of_run {a b : Solo S} (h : a.Ring cfg i len) (ht : t < len)
    (hup : slotUp a.world (poolAt a.world i t) = true)
    (hrun : ReflTransGen (StaysUp cfg i t (poolAt a.world i t) a.filled.length) a b) :
    b.Served t (poolAt a.world i t) a.filled.length ∨
      (b.Waiting i len t (poolAt a.world i t) a.filled.length ∧
        slotUp b.world (poolAt a.world i t) = true) := by
  induction hrun with
  | refl => exact .inr ⟨h.waiting ht, hup⟩
  | tail hrun hs ih =>
    obtain ⟨hs, hup'⟩ := hs
    obtain hserved | ⟨hwait, hupx⟩ := ih
    · exact .inl (hserved.step hs)
    · have hring := ring_of_run h (soloRun_of_staysUp hrun)
      cases hs with
      | task timedOut =>
        obtain hserved | hwait' := hwait.move ht hring hupx timedOut
        · exact .inl hserved
        · exact hup'.imp_right fun hu => ⟨hwait', hu⟩
      | elsewhere hw =>
        refine hup'.imp_right fun hu => ⟨⟨?_, hwait.since, ?_, ?_⟩, hu⟩
        · simp only [poolAt, hw.pool]
          exact hwait.slot
        · exact AcceptPc.nextServed_congr _ hw.pool hw.poolNext ▸ hwait.near
        · rw [hw.poolNext]
          exact hwait.ahead

end Turns

/-! ## From `listen` on -/

section Listen

variable {cfg : Config} {i : ℕ}

/-- **`listen` leaves a ring whose pointer is at its first slot.** -/
theorem ring_of_listen {heap : Bool} {fd backlog : ℤ} {w : World S} (hfd : fdGet cfg w fd = some i)
    (hret : (wrapLwipListen cfg heap fd backlog w).1.ret = 0) :
    Solo.Ring cfg i (poolSize cfg backlog) { world := (wrapLwipListen cfg heap fd backlog w).2 } := by
  have hspec := wrapLwipListen_spec cfg heap fd backlog w
  generalize wrapLwipListen cfg heap fd backlog w = r at hspec hret ⊢
  cases hspec with
  | refused => exact absurd hret (Ret.ret_fail_ne_zero _)
  | @armed j w₁ hj _ _ _ hlt he =>
    obtain rfl : i = j := Option.some.inj (hfd.symm.trans hj)
    obtain ⟨hkind, hlen, hnext⟩ := armSlots_ring 0 (poolSize cfg backlog) hlt
    rw [he] at hkind hlen hnext
    refine ⟨hkind, hlen.trans List.length_replicate, ?_, trivial, trivial, rfl⟩
    rw [hnext]
    exact poolSize_pos cfg backlog

open Relation (ReflTransGen)

/-- **Fair and exact accept.**  `select` and the first scan of `accept` agree on whether there is a
connection, and `accept` hands it over or finds no free fd.  From `listen` on `pool_next` stays below
`pool_len`; and a connection that stays up is handed over by the time as many calls as there are slots
have returned an fd, of those that had not handed theirs over when it came up. -/
theorem accept_fair_and_exact (cfg : Config) (i : ℕ) :
    (∀ (w : World S) (fd : ℤ) (t : UInt32), fdGet cfg w fd = some i → (w.fdAt i).kind = .tcpListen →
      (w.fdAt i).poolNext < (w.fdAt i).pool.length → (∀ s ∈ (w.fdAt i).pool, w.NamesTcp s) →
      w.fds.length ≤ cfg.maxFds →
      (SelectMarks cfg w fd t ↔ (firstScan cfg i w).1.isSome = true) ∧
      ∀ r w', firstScan cfg i w = (some r, w') →
        AtOnce (wrapLwipAccept cfg fd) w t (fun a w₁ => a = r ∧ w₁ = w') ∧
        ((∃ s ∈ (w.fdAt i).pool, slotUp w s = true ∧ HandedOver cfg s w r w') ∨ NoFreeFd w r w')) ∧
    ∀ (w : World S) (heap : Bool) (fd backlog : ℤ), fdGet cfg w fd = some i →
      (wrapLwipListen cfg heap fd backlog w).1.ret = 0 →
      ∀ a : Solo S,
        ReflTransGen (SoloStep cfg i) { world := (wrapLwipListen cfg heap fd backlog w).2 } a →
        (a.world.fdAt i).poolNext < (a.world.fdAt i).pool.length ∧
        ∀ t < (a.world.fdAt i).pool.length, slotUp a.world (poolAt a.world i t) = true →
          ∀ b, ReflTransGen (StaysUp cfg i t (poolAt a.world i t) a.filled.length) a b →
            a.filled.length + (a.world.fdAt i).pool.length ≤ b.accepts →
            b.Served t (poolAt a.world i t) a.filled.length := by
  refine ⟨fun w fd t hfd hk hp hn hfds => listener_readiness hfd hk hp hn hfds t, ?_⟩
  intro w heap fd backlog hfd hret a hrun
  have hring := ring_of_run (ring_of_listen hfd hret) hrun
  refine ⟨hring.length ▸ hring.next, fun t ht hup b hstay hmany => ?_⟩
  obtain hserved | ⟨hwait, -⟩ := servedInTurn_of_run hring (hring.length ▸ ht) hup hstay
  · exact hserved
  · -- One lap is over, and every fd returned was handed over before.
    have hcount := (ring_of_run hring (soloRun_of_staysUp hstay)).count
    have hnear := hwait.near
    rw [hring.length] at hmany
    omega

end Listen

/-! ### One connection -/

/-- So many steps of the task, with nothing else in between. -/
def Solo.moves (cfg : Config) (i : ℕ) (a : Solo S) : ℕ → Solo S
  | 0 => a
  | n + 1 => (a.moves cfg i n).move cfg i false

theorem staysUp_moves {cfg : Config} {i t m : ℕ} {s : NetSock} {a : Solo S} {n : ℕ}
    (h : ∀ k ≤ n, slotUp (a.moves cfg i k).world s = true) :
    Relation.ReflTransGen (StaysUp cfg i t s m) a (a.moves cfg i n) := by
  induction n with
  | zero => exact .refl
  | succ n ih =>
    exact (ih fun k hk => h k (by omega)).tail ⟨.task false _, .inr (h (n + 1) le_rfl)⟩

/-- A peer has connected to the one slot of a listener: `select` marks the listener, `accept` hands the connection
over at once, and a task that calls `accept` has served the slot when its call returns. -/
theorem accept_serves_peer :
    SelectMarks .default peerConnected 48 0 ∧
    (∃ w', AtOnce (wrapLwipAccept .default 48) peerConnected 0 fun r w₁ => r = ⟨49, none⟩ ∧ w₁ = w') ∧
    Solo.Served 0 ⟨1⟩ 0 (Solo.moves .default 0 { world := peerConnected } 23) := by
  have hfair := accept_fair_and_exact (S := .reference) .default 0
  have hnames : ∀ s ∈ (peerConnected.fdAt 0).pool, peerConnected.NamesTcp s := by
    intro s hs i ctx sh hi hctx hl
    obtain rfl := List.mem_singleton.mp hs
    obtain rfl : i = .eth := IfaceId.code_inj hi.symm
    obtain rfl := Option.some.inj hctx
    obtain rfl := Option.some.inj hl
    exact ⟨_, rfl⟩
  have hup : ∀ k ≤ 23, slotUp (Solo.moves .default 0 { world := peerConnected } k).world ⟨1⟩ = true := by
    decide +kernel
  obtain ⟨hmarks, hfirst⟩ := hfair.1 peerConnected 48 0 rfl rfl (by decide) hnames (by decide)
  refine ⟨hmarks.mpr rfl, ?_, ?_⟩
  · obtain ⟨hnow, -⟩ := hfirst _ _ rfl
    exact ⟨_, hnow⟩
  · refine (hfair.2 boundFd true 48 1 rfl rfl { world := peerConnected } ?_).2 0 (by decide) rfl _
      (staysUp_moves hup) ?_
    · exact .single (.elsewhere ⟨rfl, rfl, rfl⟩)
    · decide

end EspSmoltcp
