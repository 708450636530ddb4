import EspSmoltcp.Compat.Capacity
import EspSmoltcp.Machinery.Exchange

/-!
# Compat/AcceptRace — several tasks in `accept` on one listener

Here `accept` is cut into its single accesses to the fd table and its single calls of the stack, and any
number of tasks run it on the same fd, in any order.

Between the `net_tcp_is_connected` that finds a connection and the store that fills its slot again nothing
keeps a second task from finding the same connection: both give it an fd, and both fill the slot.  A
connection is handed over once in every run in which a task that finds one finds it still in its slot, and
in no other task's hands (`acceptedOnce_of_run`).
-/

namespace EspSmoltcp

variable {S : Smoltcp} {T : Type}

/-! ## `accept`, statement by statement -/

/-- From the `fd_get` on the new fd to the store that fills the slot. -/
inductive Giving
  | get
  | sock (ni : ℕ)
  | connected (ni : ℕ)
  | readIface (ni : ℕ)
  | iface (ni : ℕ) (v : IfaceId)
  | nonblocking (ni : ℕ)
  | openIface
  | opening (v : IfaceId)
  | store (s : NetSock)
  deriving DecidableEq

/-- From the check of the new socket to the update of `pool_next`. -/
inductive Rearming
  | valid
  | slot
  | port (s : NetSock)
  | listen (s : NetSock) (port : UInt16)
  | wrap
  | next (n : ℕ)
  deriving DecidableEq

/-- Where a task is in `accept`. -/
inductive AcceptPc
  /-- Not in it; it returned this, if it was. -/
  | outside (r : Option Ret)
  | enter
  | scan (k : ℕ)
  | next (k : ℕ)
  | wrap (k start : ℕ)
  | read (k idx : ℕ)
  | check (k idx : ℕ) (cand : NetSock)
  | alloc (idx : ℕ) (cand : NetSock)
  | giving (idx : ℕ) (cand : NetSock) (newfd : ℤ) (st : Giving)
  | rearming (idx : ℕ) (newfd : ℤ) (st : Rearming)
  | nonblocking
  | late
  deriving DecidableEq

/-- One step of `Giving`.  An `fd_get` that finds nothing would be a null pointer: the task is gone. -/
def givingStep (cfg : Config) (i idx : ℕ) (cand : NetSock) (newfd : ℤ) (w : World S) :
    Giving → AcceptPc × World S
  | .get =>
    match fdGet cfg w newfd with
    | none => (.outside none, w)
    | some ni => (.giving idx cand newfd (.sock ni), w)
  | .sock ni =>
    (.giving idx cand newfd (.connected ni), w.modFd ni fun ne => { ne with sock := cand })
  | .connected ni =>
    (.giving idx cand newfd (.readIface ni), w.modFd ni fun ne => { ne with connected := true })
  | .readIface ni => (.giving idx cand newfd (.iface ni (w.fdAt i).iface), w)
  | .iface ni v =>
    (.giving idx cand newfd (.nonblocking ni), w.modFd ni fun ne => { ne with iface := v })
  | .nonblocking ni =>
    (.giving idx cand newfd .openIface, w.modFd ni fun ne => { ne with nonblocking := false })
  | .openIface => (.giving idx cand newfd (.opening (w.fdAt i).iface), w)
  | .opening v => (.giving idx cand newfd (.store (netTcpOpen v w).1), (netTcpOpen v w).2)
  | .store s => (.rearming idx newfd .valid, w.modFd i fun e => { e with pool := e.pool.set idx s })

/-- One step of `Rearming`. -/
def rearmingStep (i idx : ℕ) (newfd : ℤ) (w : World S) : Rearming → AcceptPc × World S
  | .valid =>
    (.rearming idx newfd (if ((w.fdAt i).pool.getD idx .invalid).valid then .slot else .wrap), w)
  | .slot => (.rearming idx newfd (.port ((w.fdAt i).pool.getD idx .invalid)), w)
  | .port s => (.rearming idx newfd (.listen s (w.fdAt i).port), w)
  | .listen s port => (.rearming idx newfd .wrap, (netTcpListen s port w).2)
  | .wrap => (.rearming idx newfd (.next ((idx + 1) % (w.fdAt i).pool.length)), w)
  | .next n => (.outside (some ⟨newfd, none⟩), w.modFd i fun e => { e with poolNext := n })

/-- One step of `accept` on the listener in entry `i`; `timedOut` is what the clock says at the check of
the sixty seconds.  A task outside calls it (again). -/
def acceptStep (cfg : Config) (i : ℕ) (timedOut : Bool) (w : World S) : AcceptPc → AcceptPc × World S
  | .outside _ => (.enter, w)
  | .enter =>
    (if (w.fdAt i).kind = .tcpListen then .scan 0 else .outside (some (.fail .ebadf)), w)
  | .scan k => (if k < (w.fdAt i).pool.length then .next k else .nonblocking, w)
  | .next k => (.wrap k (w.fdAt i).poolNext, w)
  | .wrap k start => (.read k ((start + k) % (w.fdAt i).pool.length), w)
  | .read k idx => (.check k idx ((w.fdAt i).pool.getD idx .invalid), w)
  | .check k idx cand =>
    (if (netTcpIsConnected cand w).1 then .alloc idx cand else .scan (k + 1),
      (netTcpIsConnected cand w).2)
  | .alloc idx cand =>
    let (newfd, w) := fdAlloc cfg .tcp w
    (if newfd < 0 then .outside (some (.fail .enfile)) else .giving idx cand newfd .get, w)
  | .giving idx cand newfd st => givingStep cfg i idx cand newfd w st
  | .rearming idx newfd st => rearmingStep i idx newfd w st
  | .nonblocking => (if (w.fdAt i).nonblocking then .outside (some (.fail .ewouldblock)) else .late, w)
  | .late => (if timedOut then .outside (some (.fail .etimedout)) else .scan 0, w)

/-- The store this step makes to the `sock` of an entry. -/
def AcceptPc.gives : AcceptPc → Option (NetSock × ℕ)
  | .giving _ cand _ (.sock ni) => some (cand, ni)
  | _ => none

/-- The slot this step fills, and the connection it held. -/
def AcceptPc.fills : AcceptPc → Option (ℕ × NetSock)
  | .giving idx cand _ (.store _) => some (idx, cand)
  | _ => none

/-! ### A task that nobody disturbs -/

/-- One step of a task that has the world to itself. -/
def Alone (cfg : Config) (i : ℕ) (p q : AcceptPc × World S) : Prop := q = acceptStep cfg i false p.2 p.1

section Undisturbed

open Relation (ReflTransGen)

variable {cfg : Config} {i idx n : ℕ} {cand : NetSock} {newfd : ℤ} {w : World S}

/-- It fills the new entry, opens a socket and puts it into the slot. -/
theorem giving_alone (hn : n < w.fds.length) (hin : i ≠ n) :
    ReflTransGen (Alone cfg i) (.giving idx cand newfd (.sock n), w)
      (.rearming idx newfd .valid,
        (netTcpOpen (w.fdAt i).iface (w.modFd n fun ne => { ne with
          sock := cand, connected := true, iface := (w.fdAt i).iface, nonblocking := false })).2.modFd i
          fun e => { e with pool := e.pool.set idx (netTcpOpen (w.fdAt i).iface (w.modFd n fun ne =>
            { ne with
              sock := cand, connected := true, iface := (w.fdAt i).iface, nonblocking := false })).1 }) := by
  have hlen : ∀ f, n < (w.modFd n f).fds.length := fun f => by rw [World.length_fds_modFd]; exact hn
  have hsame : ∀ f, (w.modFd n f).fdAt i = w.fdAt i := fun f => World.fdAt_modFd_ne f hin
  -- The four stores, and what was read of the listener between them.
  have hstores : ReflTransGen (Alone cfg i) (.giving idx cand newfd (.sock n), w)
      (.giving idx cand newfd .openIface, w.modFd n fun ne => { ne with
        sock := cand, connected := true, iface := (w.fdAt i).iface, nonblocking := false }) := by
    refine .head rfl (.head rfl (.head rfl (.head rfl (.single ?_))))
    simp only [Alone, acceptStep, givingStep]
    rw [World.modFd_modFd _ hn, hsame, World.modFd_modFd _ hn, World.modFd_modFd _ hn]
    rfl
  refine hstores.trans (.head rfl (.head rfl (.single ?_)))
  simp only [Alone, acceptStep, givingStep, hsame]

/-- It arms the slot and moves `pool_next` on. -/
theorem rearming_alone {s : NetSock} (hidx : (w.fdAt i).pool.getD idx .invalid = s) :
    ReflTransGen (Alone cfg i) (.rearming idx newfd .valid, w)
      (.outside (some ⟨newfd, none⟩),
        (if s.valid then (netTcpListen s (w.fdAt i).port w).2 else w).modFd i fun e =>
          { e with poolNext := (idx + 1) % e.pool.length }) := by
  subst hidx
  by_cases hv : ((w.fdAt i).pool.getD idx .invalid).valid = true
  · rw [if_pos hv]
    refine .head (b := (AcceptPc.rearming idx newfd .slot, w)) ?_
      (.head rfl (.head rfl (.head rfl (.head rfl (.single rfl)))))
    simp only [Alone, acceptStep, rearmingStep, if_pos hv]
  · rw [if_neg hv]
    refine .head (b := (AcceptPc.rearming idx newfd .wrap, w)) ?_ (.head rfl (.single rfl))
    simp only [Alone, acceptStep, rearmingStep, if_neg hv]

/-- The entry of an fd that is open. -/
theorem fdGet_of_kind (hn : n < cfg.maxFds) (hk : (w.fdAt n).kind ≠ .free) :
    fdGet cfg w (cfg.fdOffset + n) = some n := by
  have hindex : fdIndex cfg (cfg.fdOffset + n) = some n := by
    rw [fdIndex, if_pos ⟨by omega, by omega⟩]
    exact congrArg some (by omega)
  rw [fdGet, hindex]
  exact Option.filter_eq_some_iff.mpr ⟨rfl, by simpa using hk⟩

/-- **From the connection it found on, it does what `handOver` does.** -/
theorem handOver_alone (hfds : w.fds.length ≤ cfg.maxFds) (hi : i < w.fds.length)
    (hk : (w.fdAt i).kind = .tcpListen) (hidx : idx < (w.fdAt i).pool.length) :
    ReflTransGen (Alone cfg i) (.alloc idx cand, w)
      (.outside (some (handOver cfg i idx cand w).1), (handOver cfg i idx cand w).2) := by
  obtain hfull | ⟨n, hn, hfree, halloc⟩ := fdAlloc_cases cfg .tcp w
  · refine .single ?_
    simp only [Alone, acceptStep, handOver, hfull, fdGet_neg_one]
    rfl
  have hin : i ≠ n := by
    rintro rfl
    rw [hk] at hfree
    cases hfree
  have hself := World.fdAt_setFd_self hn { kind := .tcp, iface := fdDefaultIface cfg w }
  have hother := World.fdAt_setFd_ne (w := w) hin { kind := .tcp, iface := fdDefaultIface cfg w }
  have hlen : (w.setFd n { kind := .tcp, iface := fdDefaultIface cfg w }).fds.length = w.fds.length := by
    rw [World.fds_setFd, List.length_set]
  have hstart : ReflTransGen (Alone cfg i) (.alloc idx cand, w)
      (.giving idx cand (cfg.fdOffset + n) .get,
        w.setFd n { kind := .tcp, iface := fdDefaultIface cfg w }) := by
    refine .single ?_
    simp only [Alone, acceptStep, halloc, if_neg (show ¬ (cfg.fdOffset + n : ℤ) < 0 by omega)]
  rw [handOver]
  simp only [halloc]
  generalize w.setFd n { kind := .tcp, iface := fdDefaultIface cfg w } = w₁ at *
  have hget : fdGet cfg w₁ (cfg.fdOffset + n) = some n :=
    fdGet_of_kind (hn.trans_le hfds) (by rw [hself]; simp)
  have hgot : ReflTransGen (Alone cfg i) (.giving idx cand (cfg.fdOffset + n) .get, w₁)
      (.giving idx cand (cfg.fdOffset + n) (.sock n), w₁) := by
    refine .single ?_
    simp only [Alone, acceptStep, givingStep, hget]
  simp only [hget]
  refine hstart.trans (hgot.trans ((giving_alone (hlen ▸ hn) hin).trans ?_))
  have hfds₂ := (netTcpOpen_spec (w₁.fdAt i).iface (w₁.modFd n fun ne => { ne with
    sock := cand, connected := true, iface := (w₁.fdAt i).iface, nonblocking := false })).fds
  have hsame : (netTcpOpen (w₁.fdAt i).iface (w₁.modFd n fun ne => { ne with
      sock := cand, connected := true, iface := (w₁.fdAt i).iface, nonblocking := false })).2.fdAt i
        = w₁.fdAt i := by
    rw [World.fdAt, hfds₂, ← World.fdAt, World.fdAt_modFd_ne _ hin]
  generalize netTcpOpen (w₁.fdAt i).iface _ = r at hfds₂ hsame ⊢
  have hi₂ : i < r.2.fds.length := by
    rw [hfds₂, World.length_fds_modFd, hlen]
    exact hi
  have he := World.fdAt_modFd_self (fun e => { e with pool := e.pool.set idx r.1 }) hi₂
  have hslot : ((r.2.modFd i fun e => { e with pool := e.pool.set idx r.1 }).fdAt i).pool.getD idx
      .invalid = r.1 := by
    rw [he, hsame, hother]
    simp [List.getElem?_set_self hidx]
  have hport : ((r.2.modFd i fun e => { e with pool := e.pool.set idx r.1 }).fdAt i).port
      = (w₁.fdAt i).port := by
    rw [he, hsame]
  rw [← hport]
  exact rearming_alone hslot

/-- Where a scan of the pool ends. -/
def AcceptPc.scanned : Option Ret → AcceptPc
  | none => .nonblocking
  | some r => .outside (some r)

/-- **Its scan of the pool is `acceptScan`.** -/
theorem acceptScan_alone {k m : ℕ} (hw : w.Wf) (hfds : w.fds.length ≤ cfg.maxFds) (hi : i < w.fds.length)
    (hk : (w.fdAt i).kind = .tcpListen) (hlen : (w.fdAt i).pool.length = k + m) :
    ReflTransGen (Alone cfg i) (.scan k, w)
      (.scanned (acceptScan cfg i (List.range' k m) w).1, (acceptScan cfg i (List.range' k m) w).2) := by
  induction m generalizing k w with
  | zero =>
    refine .single ?_
    simp only [Alone, acceptStep, if_neg (show ¬ k < (w.fdAt i).pool.length by omega)]
    rfl
  | succ m ih =>
    rw [List.range'_succ, acceptScan]
    simp only
    generalize hidx : ((w.fdAt i).poolNext + k) % (w.fdAt i).pool.length = idx
    generalize hcand : (w.fdAt i).pool.getD idx .invalid = cand
    have hlt : idx < (w.fdAt i).pool.length := hidx ▸ Nat.mod_lt _ (by omega)
    have hcalm := hw.calm_netTcpIsConnected cand
    have he : (netTcpIsConnected cand w).2.fdAt i = w.fdAt i := by rw [World.fdAt, hcalm.fds]; rfl
    have hread : ReflTransGen (Alone cfg i) (.scan k, w) (.check k idx cand, w) := by
      refine .head (b := (AcceptPc.next k, w)) ?_ (.head rfl (.head rfl (.single ?_)))
      · simp only [Alone, acceptStep, if_pos (show k < (w.fdAt i).pool.length by omega)]
      · simp only [Alone, acceptStep, hidx, hcand]
    refine hread.trans ?_
    by_cases hup : (netTcpIsConnected cand w).1 = true
    · rw [if_pos hup]
      refine .head (b := (AcceptPc.alloc idx cand, (netTcpIsConnected cand w).2)) ?_
        (handOver_alone (hcalm.fds ▸ hfds) (hcalm.fds ▸ hi) (he ▸ hk) (he ▸ hlt))
      simp only [Alone, acceptStep, if_pos hup]
    · rw [if_neg hup]
      refine .head (b := (AcceptPc.scan (k + 1), (netTcpIsConnected cand w).2)) ?_
        (ih hcalm.wf (hcalm.fds ▸ hfds) (hcalm.fds ▸ hi) (he ▸ hk) (by rw [he]; omega))
      simp only [Alone, acceptStep, if_neg hup]

end Undisturbed

/-! ## Tasks -/

/-- Tasks on one listener.  `given` and `filled` are kept for the statement only: which socket became the
`sock` of which entry, and which slot was filled for which connection. -/
structure AcceptSys (S : Smoltcp) (T : Type) where
  world : World S
  pc : T → AcceptPc
  given : List (NetSock × ℕ) := []
  filled : List (ℕ × NetSock) := []

namespace AcceptSys

/-- No task is in `accept`. -/
def start (w : World S) : AcceptSys S T := { world := w, pc := fun _ => .outside none }

/-- One step of a task. -/
def move [DecidableEq T] (cfg : Config) (i : ℕ) (a : AcceptSys S T) (t : T) (timedOut : Bool) :
    AcceptSys S T where
  world := (acceptStep cfg i timedOut a.world (a.pc t)).2
  pc := Function.update a.pc t (acceptStep cfg i timedOut a.world (a.pc t)).1
  given := (a.pc t).gives.toList ++ a.given
  filled := (a.pc t).fills.toList ++ a.filled

/-- **No socket became the `sock` of two fds, and no slot was filled twice for one connection.** -/
structure AcceptedOnce (a : AcceptSys S T) : Prop where
  sock : ∀ s n m, (s, n) ∈ a.given → (s, m) ∈ a.given → n = m
  slot : a.filled.Nodup

end AcceptSys

/-- What else may happen: anything that leaves the listener with its pool and takes no handle back. -/
structure Elsewhere (i : ℕ) (w w' : World S) : Prop where
  wf : w'.Wf
  length : w'.fds.length = w.fds.length
  kind : (w'.fdAt i).kind = (w.fdAt i).kind
  pool : (w'.fdAt i).pool = (w.fdAt i).pool
  counter : ∀ j, w.counter j ≤ w'.counter j

/-- One step of the tasks, each of this kind, or of something else. -/
inductive AcceptRaceStep [DecidableEq T] (cfg : Config) (i : ℕ) (ok : AcceptSys S T → T → Prop) :
    AcceptSys S T → AcceptSys S T → Prop
  | task {a : AcceptSys S T} (t : T) (timedOut : Bool) (h : ok a t) :
      AcceptRaceStep cfg i ok a (a.move cfg i t timedOut)
  | elsewhere {a : AcceptSys S T} {w : World S} (h : Elsewhere i a.world w) :
      AcceptRaceStep cfg i ok a { a with world := w }

namespace Elsewhere

variable {i : ℕ} {w w' : World S}

theorem refl (h : w.Wf) : Elsewhere i w w := ⟨h, rfl, rfl, rfl, fun _ => le_rfl⟩

/-- The core at work. -/
theorem of_calm (h : Calm w w') : Elsewhere i w w' := by
  have he : w'.fdAt i = w.fdAt i := by rw [World.fdAt, h.fds]; rfl
  exact ⟨h.wf, by rw [h.fds], by rw [he], by rw [he], fun j => by rw [h.counter]⟩

/-- A store to a field that makes no listener. -/
theorem modFd (h : w.Wf) (n : ℕ) {f : FdEntry → FdEntry} (hkind : ∀ e, (f e).kind = e.kind)
    (hpool : ∀ e, (f e).pool = e.pool) : Elsewhere i w (w.modFd n f) := by
  have he : (w.modFd n f).fdAt i = w.fdAt i ∨ (w.modFd n f).fdAt i = f (w.fdAt i) := by
    by_cases hi : i = n
    · subst hi
      by_cases hlt : i < w.fds.length
      · exact .inr (World.fdAt_modFd_self f hlt)
      · refine .inl ?_
        rw [World.modFd, World.setFd, List.set_eq_of_length_le (not_lt.mp hlt)]
    · exact .inl (World.fdAt_modFd_ne f hi)
  refine ⟨h.of_ifaces rfl, World.length_fds_modFd f, ?_, ?_, fun j => ?_⟩
  · obtain he | he := he
    · rw [he]
    · rw [he, hkind]
  · obtain he | he := he
    · rw [he]
    · rw [he, hpool]
  · exact (congrFun (World.counter_of_ifaces rfl) j).ge

/-- `fd_alloc` takes a free entry. -/
theorem fdAlloc (h : w.Wf) (hk : (w.fdAt i).kind = .tcpListen) (cfg : Config) :
    Elsewhere i w (fdAlloc cfg .tcp w).2 := by
  obtain hfull | ⟨n, -, hfree, halloc⟩ := fdAlloc_cases cfg .tcp w
  · rw [hfull]
    exact refl h
  · have hin : i ≠ n := by
      rintro rfl
      rw [hk] at hfree
      cases hfree
    rw [halloc]
    have he := World.fdAt_setFd_ne (w := w) hin { kind := .tcp, iface := fdDefaultIface cfg w }
    refine ⟨h.of_ifaces rfl, by rw [World.fds_setFd, List.length_set], by rw [he], by rw [he],
      fun j => (congrFun (World.counter_of_ifaces rfl) j).ge⟩

end Elsewhere

/-! ## Handles that have been given out -/

/-- The handle has been given out: its id is below the counter of its interface. -/
def Issued (w : World S) (s : NetSock) : Prop := ∃ j : IfaceId, s.iface = j.code ∧ s.localId.toNat < w.counter j

theorem Issued.mono {w w' : World S} {s : NetSock} (h : Issued w s) (hc : ∀ j, w.counter j ≤ w'.counter j) :
    Issued w' s := by
  obtain ⟨j, hj, hlt⟩ := h
  exact ⟨j, hj, hlt.trans_le (hc j)⟩

/-- **Below `2^24` ids, an open gives out a handle that was not given out before.** -/
theorem OpenSpec.issued {P : Socket S → Prop} {v : IfaceId} {w : World S} {r : NetSock × World S}
    (h : OpenSpec P v w r) (hw : w.Wf) (hP : ∀ x, P x → x.kind?.isSome = true)
    (hn : w.counter v < 2 ^ 24) : r.2.Wf ∧ (∀ j, w.counter j ≤ r.2.counter j) ∧
      (r.1.valid = true → Issued r.2 r.1 ∧ ¬ Issued w r.1) := by
  obtain rfl | ho := h.cases hw hP hn
  · exact ⟨hw, fun _ => le_rfl, fun hv => absurd hv Bool.false_ne_true⟩
  have hcount : ∀ j, w.counter j ≤ r.2.counter j := by
    intro j
    rw [ho.counter]
    by_cases hj : j = v
    · subst hj
      rw [Function.update_self]
      exact Nat.le_succ _
    · rw [Function.update_of_ne hj]
  -- The id of the new handle is the counter.
  have hid : r.1.localId.toNat = w.counter v := by
    have hv := ho.valid
    obtain _ | ⟨hctx, -⟩ := h
    · cases hv
    · rw [World.counter_of_ctx hctx] at hn ⊢
      rw [(handleOf_spec (hw.ctx v _ hctx).counter hn).2.2]
  refine ⟨ho.wf, hcount, fun _ => ⟨⟨v, ho.iface, ?_⟩, ?_⟩⟩
  · rw [ho.counter, Function.update_self, hid]
    exact Nat.lt_succ_self _
  · rintro ⟨j, hj, hlt⟩
    obtain rfl := IfaceId.code_inj (hj.symm.trans ho.iface)
    omega

/-- A handle that a connection is found behind is valid. -/
theorem valid_of_netTcpIsConnected {w : World S} (hw : w.Wf) {s : NetSock}
    (h : (netTcpIsConnected s w).1 = true) : s.valid = true := by
  by_contra hv
  obtain rfl := NetSock.eq_invalid hv
  rw [netTcpIsConnected] at h
  rcases hf : handleFor w NetSock.invalid.iface with _ | v
  · rw [hf] at h
    cases h
  rw [hf] at h
  simp only at h
  have hup := World.fst_ffi_queryTcp (w := w) (of_handleFor_eq_some hf).1 false
    fun x => S.tcp.mayRecv x || S.tcp.maySend x
  rw [World.tcpOf, hw.entryOf_of_localId_zero rfl] at hup
  cases hup.symm.trans h

/-! ## The exchange of connections -/

/-- The handle, unless it is invalid. -/
def NetSock.ifValid (s : NetSock) : Option NetSock := if s.valid then some s else none

theorem NetSock.ifValid_eq_some {s t : NetSock} : s.ifValid = some t ↔ s.valid = true ∧ s = t := by
  rw [ifValid]
  split_ifs with hv
  · simp [hv]
  · simp [hv]

/-- The task has stored the connection in the new entry. -/
def Giving.given : Giving → Bool
  | .get => false
  | .sock _ => false
  | _ => true

/-- What it is about to store in the slot. -/
def Giving.fresh : Giving → Option NetSock
  | .store s => s.ifValid
  | _ => none

/-- The connection a task has found and not replaced yet. -/
def AcceptPc.hold : AcceptPc → Option (Hold ℕ NetSock)
  | .alloc idx cand => some { slot := idx, token := cand }
  | .giving idx cand _ st => some { slot := idx, token := cand, given := st.given, fresh := st.fresh }
  | _ => none

/-- **A task that finds a connection finds it still in its slot and in no other task's hands; and the core
is not out of ids when a task opens a socket.** -/
def Uncontended (i : ℕ) (a : AcceptSys S T) (t : T) : Prop :=
  match a.pc t with
  | .check _ idx cand => (netTcpIsConnected cand a.world).1 = true →
    (a.world.fdAt i).pool.getD idx .invalid = cand ∧ ∀ u, ∀ h ∈ (a.pc u).hold, h.token ≠ cand
  | .giving _ _ _ (.opening v) => a.world.counter v < 2 ^ 24
  | _ => True

namespace AcceptSys

/-- The slots, the tasks and the histories, as an exchange of handles. -/
def exchange (i : ℕ) (a : AcceptSys S T) : Exchange T ℕ NetSock where
  slot k := ((a.world.fdAt i).pool.getD k .invalid).ifValid
  hold t := (a.pc t).hold
  known := {s | Issued a.world s}
  given := a.given.map Prod.fst
  filled := a.filled

/-- The listener is there, and its exchange is sound. -/
structure Inv (i : ℕ) (a : AcceptSys S T) : Prop where
  wf : a.world.Wf
  lt : i < a.world.fds.length
  kind : (a.world.fdAt i).kind = .tcpListen
  sound : (a.exchange i).Sound

section Steps

variable [DecidableEq T] {i : ℕ} {a : AcceptSys S T} {t : T} {w : World S} {pc : AcceptPc}

theorem hold_update (pcs : T → AcceptPc) (t : T) (pc : AcceptPc) :
    (fun u => (Function.update pcs t pc u).hold) = Function.update (fun u => (pcs u).hold) t pc.hold :=
  funext fun u => Function.apply_update (fun _ => AcceptPc.hold) pcs t pc u

omit [DecidableEq T] in
theorem Inv.elsewhere (h : a.Inv i) (hw : Elsewhere i a.world w) : Inv i { a with world := w } := by
  refine ⟨hw.wf, hw.length ▸ h.lt, hw.kind.trans h.kind, ?_⟩
  have hx : exchange i { a with world := w } = { a.exchange i with known := {s | Issued w s} } := by
    simp only [exchange, hw.pool]
  rw [hx]
  exact h.sound.learn fun s hs => Issued.mono hs hw.counter

/-- A step that leaves the listener alone and changes nothing about what the task has hold of. -/
theorem Inv.quiet (h : a.Inv i) (hw : Elsewhere i a.world w) (hpc : pc.hold = (a.pc t).hold) :
    Inv i { a with world := w, pc := Function.update a.pc t pc } := by
  have h' := h.elsewhere hw
  refine ⟨h'.wf, h'.lt, h'.kind, ?_⟩
  have hx : exchange i { a with world := w, pc := Function.update a.pc t pc }
      = exchange i { a with world := w } := by
    simp only [exchange, hold_update, hpc, Function.update_eq_self]
  rw [hx]
  exact h'.sound

/-- A task that has not stored its connection yet gives up. -/
theorem Inv.giveUp (h : a.Inv i) (hw : Elsewhere i a.world w) {k : Hold ℕ NetSock}
    (hk : (a.pc t).hold = some k) (hg : k.given = false) (hpc : pc.hold = none) :
    Inv i { a with world := w, pc := Function.update a.pc t pc } := by
  have h' := h.elsewhere hw
  refine ⟨h'.wf, h'.lt, h'.kind, ?_⟩
  have hx : exchange i { a with world := w, pc := Function.update a.pc t pc }
      = (exchange i { a with world := w }).setHold t none := by
    simp only [exchange, Exchange.setHold, hold_update, hpc]
  rw [hx]
  exact h'.sound.drop hk hg

/-- **A task finds a connection that is still in its slot and in nobody's hands.** -/
theorem Inv.find (h : a.Inv i) (hw : Elsewhere i a.world w) {idx : ℕ} {cand : NetSock}
    (hnone : (a.pc t).hold = none) (hv : cand.valid = true)
    (hslot : (a.world.fdAt i).pool.getD idx .invalid = cand)
    (hfree : ∀ u, ∀ k ∈ (a.pc u).hold, k.token ≠ cand) :
    Inv i { a with world := w, pc := Function.update a.pc t (.alloc idx cand) } := by
  have h' := h.elsewhere hw
  refine ⟨h'.wf, h'.lt, h'.kind, ?_⟩
  have hx : exchange i { a with world := w, pc := Function.update a.pc t (.alloc idx cand) }
      = (exchange i { a with world := w }).setHold t (some { slot := idx, token := cand }) := by
    simp only [exchange, Exchange.setHold, hold_update]
    rfl
  rw [hx]
  refine h'.sound.take hnone ?_ fun u k hk => hfree u k hk
  exact NetSock.ifValid_eq_some.mpr ⟨by rw [hw.pool, hslot]; exact hv, by rw [hw.pool, hslot]⟩

/-- **It stores the connection in the new entry.** -/
theorem Inv.sock (h : a.Inv i) {idx ni : ℕ} {cand : NetSock} {newfd : ℤ}
    (hpc : a.pc t = .giving idx cand newfd (.sock ni)) :
    Inv i ⟨a.world.modFd ni fun ne => { ne with sock := cand },
      Function.update a.pc t (.giving idx cand newfd (.connected ni)), (cand, ni) :: a.given, a.filled⟩ := by
  have h' := h.elsewhere (w := a.world.modFd ni fun ne => { ne with sock := cand })
    (.modFd h.wf ni (fun _ => rfl) fun _ => rfl)
  refine ⟨h'.wf, h'.lt, h'.kind, ?_⟩
  have hx : exchange i ⟨a.world.modFd ni fun ne => { ne with sock := cand },
      Function.update a.pc t (.giving idx cand newfd (.connected ni)), (cand, ni) :: a.given, a.filled⟩
      = (exchange i { a with world := a.world.modFd ni fun ne => { ne with sock := cand } }).give t
        { slot := idx, token := cand } := by
    simp only [exchange, Exchange.give, hold_update]
    rfl
  rw [hx]
  exact h'.sound.give (congrArg AcceptPc.hold hpc) rfl

/-- It opens a socket for the slot. -/
theorem Inv.opening (h : a.Inv i) {idx : ℕ} {cand : NetSock} {newfd : ℤ} {v : IfaceId}
    (hpc : a.pc t = .giving idx cand newfd (.opening v)) (hn : a.world.counter v < 2 ^ 24) :
    Inv i { a with
      world := (netTcpOpen v a.world).2
      pc := Function.update a.pc t (.giving idx cand newfd (.store (netTcpOpen v a.world).1)) } := by
  have hspec := netTcpOpen_spec v a.world
  have he : (netTcpOpen v a.world).2.fdAt i = a.world.fdAt i := by rw [World.fdAt, hspec.fds]; rfl
  obtain ⟨hwf, hcount, hissued⟩ := hspec.issued h.wf (by rintro x rfl; rfl) hn
  refine ⟨hwf, hspec.fds ▸ h.lt, he ▸ h.kind, ?_⟩
  have hx : exchange i { a with
      world := (netTcpOpen v a.world).2
      pc := Function.update a.pc t (.giving idx cand newfd (.store (netTcpOpen v a.world).1)) }
      = (a.exchange i).fetch t { slot := idx, token := cand, given := true }
        (netTcpOpen v a.world).1.ifValid {s | Issued (netTcpOpen v a.world).2 s} := by
    simp only [exchange, Exchange.fetch, hold_update, he]
    rfl
  rw [hx]
  refine h.sound.fetch (congrArg AcceptPc.hold hpc) (fun s hs => Issued.mono hs hcount) fun s hs => ?_
  obtain ⟨hv, rfl⟩ := NetSock.ifValid_eq_some.mp hs
  exact hissued hv

/-- **It fills the slot with it.** -/
theorem Inv.store (h : a.Inv i) {idx : ℕ} {cand s : NetSock} {newfd : ℤ}
    (hpc : a.pc t = .giving idx cand newfd (.store s)) :
    Inv i ⟨a.world.modFd i fun e => { e with pool := e.pool.set idx s },
      Function.update a.pc t (.rearming idx newfd .valid), a.given, (idx, cand) :: a.filled⟩ := by
  have hk : (a.exchange i).hold t
      = some { slot := idx, token := cand, given := true, fresh := s.ifValid } :=
    congrArg AcceptPc.hold hpc
  -- The slot is there, since the connection is in it.
  have hidx : idx < (a.world.fdAt i).pool.length := by
    obtain ⟨hv, -⟩ := NetSock.ifValid_eq_some.mp (h.sound.held t _ hk)
    by_contra hge
    rw [List.getD_eq_getElem?_getD, List.getElem?_eq_none (not_lt.mp hge)] at hv
    cases hv
  have he := World.fdAt_modFd_self (fun e => { e with pool := e.pool.set idx s }) h.lt
  refine ⟨h.wf.of_ifaces rfl, ?_, ?_, ?_⟩
  · rw [World.length_fds_modFd]
    exact h.lt
  · rw [he]
    exact h.kind
  have hslot : (fun k => (((a.world.fdAt i).pool.set idx s).getD k .invalid).ifValid)
      = Function.update (a.exchange i).slot idx s.ifValid := by
    funext k
    by_cases hki : k = idx
    · subst hki
      simp [List.getElem?_set_self hidx]
    · rw [Function.update_of_ne hki]
      simp only [exchange, List.getD_eq_getElem?_getD, List.getElem?_set_ne (Ne.symm hki)]
  have hx : exchange i ⟨a.world.modFd i fun e => { e with pool := e.pool.set idx s },
      Function.update a.pc t (.rearming idx newfd .valid), a.given, (idx, cand) :: a.filled⟩
      = (a.exchange i).fill t
        { slot := idx, token := cand, given := true, fresh := s.ifValid } := by
    rw [Exchange.fill]
    simp only [← hslot]
    simp only [exchange, he, hold_update]
    rfl
  rw [hx]
  exact h.sound.fill hk rfl

/-- What a step from this point leaves. -/
def after (cfg : Config) (i : ℕ) (a : AcceptSys S T) (t : T) (timedOut : Bool) (pc : AcceptPc) :
    AcceptSys S T :=
  ⟨(acceptStep cfg i timedOut a.world pc).2,
    Function.update a.pc t (acceptStep cfg i timedOut a.world pc).1,
    pc.gives.toList ++ a.given, pc.fills.toList ++ a.filled⟩

variable {cfg : Config} {timedOut : Bool}

theorem Inv.giving (h : a.Inv i) {idx : ℕ} {cand : NetSock} {newfd : ℤ} {st : Giving}
    (hpc : a.pc t = .giving idx cand newfd st) (hok : Uncontended i a t) :
    (a.after cfg i t timedOut (.giving idx cand newfd st)).Inv i := by
  have hhold := congrArg AcceptPc.hold hpc
  cases st with
  | get =>
    rw [after, acceptStep, givingStep]
    rcases fdGet cfg a.world newfd with _ | ni
    · exact h.giveUp (.refl h.wf) hhold rfl rfl
    · exact h.quiet (.refl h.wf) hhold.symm
  | sock ni => exact h.sock hpc
  | connected ni =>
    exact h.quiet (.modFd h.wf ni (f := fun ne => { ne with connected := true }) (fun _ => rfl)
      fun _ => rfl) hhold.symm
  | readIface ni => exact h.quiet (.refl h.wf) hhold.symm
  | iface ni v =>
    exact h.quiet (.modFd h.wf ni (f := fun ne => { ne with iface := v }) (fun _ => rfl)
      fun _ => rfl) hhold.symm
  | nonblocking ni =>
    exact h.quiet (.modFd h.wf ni (f := fun ne => { ne with nonblocking := false }) (fun _ => rfl)
      fun _ => rfl) hhold.symm
  | openIface => exact h.quiet (.refl h.wf) hhold.symm
  | opening v =>
    rw [Uncontended, hpc] at hok
    exact h.opening hpc hok
  | store s => exact h.store hpc

theorem Inv.rearming (h : a.Inv i) {idx : ℕ} {newfd : ℤ} {st : Rearming}
    (hpc : a.pc t = .rearming idx newfd st) :
    (a.after cfg i t timedOut (.rearming idx newfd st)).Inv i := by
  have hhold := congrArg AcceptPc.hold hpc
  cases st with
  | valid => exact h.quiet (.refl h.wf) hhold.symm
  | slot => exact h.quiet (.refl h.wf) hhold.symm
  | port s => exact h.quiet (.refl h.wf) hhold.symm
  | listen s port => exact h.quiet (.of_calm (h.wf.calm_netTcpListen s port)) hhold.symm
  | wrap => exact h.quiet (.refl h.wf) hhold.symm
  | next n =>
    exact h.quiet (.modFd h.wf i (f := fun e => { e with poolNext := n }) (fun _ => rfl)
      fun _ => rfl) hhold.symm

/-- **A step of a task that contends with none keeps the exchange sound.** -/
theorem Inv.move (h : a.Inv i) (hok : Uncontended i a t) : (a.move cfg i t timedOut).Inv i := by
  have key : ∀ pc, a.pc t = pc → (a.after cfg i t timedOut pc).Inv i := by
    intro pc hpc
    have hhold := congrArg AcceptPc.hold hpc
    cases pc with
    | outside r => exact h.quiet (.refl h.wf) hhold.symm
    | enter =>
      refine h.quiet (.refl h.wf) (Eq.trans ?_ hhold.symm)
      rw [acceptStep]
      split_ifs <;> rfl
    | scan k =>
      refine h.quiet (.refl h.wf) (Eq.trans ?_ hhold.symm)
      rw [acceptStep]
      split_ifs <;> rfl
    | next k => exact h.quiet (.refl h.wf) hhold.symm
    | wrap k start => exact h.quiet (.refl h.wf) hhold.symm
    | read k idx => exact h.quiet (.refl h.wf) hhold.symm
    | check k idx cand =>
      rw [Uncontended, hpc] at hok
      have hcalm := h.wf.calm_netTcpIsConnected cand
      rw [after, acceptStep]
      by_cases hup : (netTcpIsConnected cand a.world).1 = true
      · rw [if_pos hup]
        obtain ⟨hslot, hfree⟩ := hok hup
        exact h.find (.of_calm hcalm) hhold (valid_of_netTcpIsConnected h.wf hup) hslot hfree
      · rw [if_neg hup]
        exact h.quiet (.of_calm hcalm) hhold.symm
    | alloc idx cand =>
      have hw := Elsewhere.fdAlloc h.wf h.kind cfg
      rw [after, acceptStep]
      by_cases hneg : (fdAlloc cfg .tcp a.world).1 < 0
      · simp only [if_pos hneg]
        exact h.giveUp hw hhold rfl rfl
      · simp only [if_neg hneg]
        exact h.quiet hw hhold.symm
    | giving idx cand newfd st => exact h.giving hpc hok
    | rearming idx newfd st => exact h.rearming hpc
    | nonblocking =>
      refine h.quiet (.refl h.wf) (Eq.trans ?_ hhold.symm)
      rw [acceptStep]
      split_ifs <;> rfl
    | late =>
      refine h.quiet (.refl h.wf) (Eq.trans ?_ hhold.symm)
      rw [acceptStep]
      split_ifs <;> rfl
  exact key _ rfl

theorem Inv.step {b : AcceptSys S T} (h : a.Inv i) (hs : AcceptRaceStep cfg i (Uncontended i) a b) :
    b.Inv i := by
  cases hs with
  | task t timedOut hok => exact h.move hok
  | elsewhere hw => exact h.elsewhere hw

end Steps

theorem Inv.acceptedOnce {i : ℕ} {a : AcceptSys S T} (h : a.Inv i) : a.AcceptedOnce := by
  refine ⟨fun s n m hn hm => ?_, h.sound.nodup_filled⟩
  have hinj := List.inj_on_of_nodup_map h.sound.nodup_given hn hm rfl
  exact congrArg Prod.snd hinj

end AcceptSys

/-! ## `listen` -/

/-- The slots of the listener hold different sockets, and all have been given out. -/
structure Spread (i : ℕ) (w : World S) : Prop where
  inj : ∀ k l s, ((w.fdAt i).pool.getD k .invalid).ifValid = some s →
    ((w.fdAt i).pool.getD l .invalid).ifValid = some s → k = l
  issued : ∀ k s, ((w.fdAt i).pool.getD k .invalid).ifValid = some s → Issued w s

section Listen

variable {i k m n : ℕ} {w w' : World S}

theorem Spread.congr (h : Spread i w) (hp : (w'.fdAt i).pool = (w.fdAt i).pool)
    (hc : ∀ j, w.counter j ≤ w'.counter j) : Spread i w' := by
  refine ⟨?_, ?_⟩
  · rw [hp]
    exact h.inj
  · rw [hp]
    exact fun k s hs => (h.issued k s hs).mono hc

theorem getD_set_ifValid {l : List NetSock} {s t : NetSock} {j : ℕ}
    (h : ((l.set k s).getD j .invalid).ifValid = some t) :
    (j = k ∧ s.valid = true ∧ s = t) ∨ (j ≠ k ∧ (l.getD j .invalid).ifValid = some t) := by
  by_cases hj : j = k
  · subst hj
    refine .inl ⟨rfl, NetSock.ifValid_eq_some.mp ?_⟩
    by_cases hlt : j < l.length
    · simpa [List.getElem?_set_self hlt] using h
    · simp only [List.set_eq_of_length_le (not_lt.mp hlt), List.getD_eq_getElem?_getD,
        List.getElem?_eq_none (not_lt.mp hlt)] at h
      cases h
  · refine .inr ⟨hj, ?_⟩
    simpa only [List.getD_eq_getElem?_getD, List.getElem?_set_ne (Ne.symm hj)] using h

/-- An open that leaves the counter within `2^24` gives out a new handle. -/
theorem InIds.netTcpOpen_issued {P : World S → Prop} (h : InIds m P w) (hm : m < 2 ^ 8) (v : IfaceId)
    (hc : ∀ j, (netTcpOpen v w).2.counter j ≤ 2 ^ 24) :
    (∀ j, w.counter j ≤ (netTcpOpen v w).2.counter j) ∧ ((netTcpOpen v w).1.valid = true →
      Issued (netTcpOpen v w).2 (netTcpOpen v w).1 ∧ ¬ Issued w (netTcpOpen v w).1) := by
  have hspec := netTcpOpen_spec v w
  by_cases hlt : w.counter v < 2 ^ 24
  · exact (hspec.issued h.wf (by rintro x rfl; rfl) hlt).2
  · generalize netTcpOpen v w = r at hspec hc ⊢
    obtain _ | ⟨hctx, -⟩ := hspec
    · exact ⟨fun _ => le_rfl, fun hv => absurd hv Bool.false_ne_true⟩
    · -- The counter would have passed `2^24`.
      have hb := h.bound v
      rename_i ctx x
      have hn : ctx.nextId.toNat + 1 < 2 ^ 32 := by
        rw [World.counter_of_ctx hctx] at hb
        omega
      have hcv := hc v
      rw [World.counter_openSocket hctx x hn, Function.update_self] at hcv
      omega

/-- A slot is filled by an open. -/
theorem InIds.spread_open (h : InIds m (Spread i) w) (hm : m < 2 ^ 8) (hi : i < w.fds.length)
    (v : IfaceId) (k : ℕ) : InIds (m + 1) (Spread i) ((netTcpOpen v w).2.modFd i fun e =>
      { e with pool := e.pool.set k (netTcpOpen v w).1 }) := by
  have hspec := netTcpOpen_spec v w
  have hopen : InIds (m + 1) (fun _ => True) (netTcpOpen v w).2 :=
    h.opened hspec (by rintro x rfl; rfl) hm (fun _ _ => trivial) fun _ _ => trivial
  refine ⟨hopen.wf.of_ifaces rfl, hopen.bound, fun hc => ?_⟩
  have hissued := h.netTcpOpen_issued hm v hc
  have hsame : (netTcpOpen v w).2.fdAt i = w.fdAt i := by rw [World.fdAt, hspec.fds]; rfl
  have he := World.fdAt_modFd_self (fun e => { e with pool := e.pool.set k (netTcpOpen v w).1 })
    (hspec.fds ▸ hi)
  rw [hsame] at he
  generalize (netTcpOpen v w).1 = s at he hissued ⊢
  generalize (netTcpOpen v w).2 = w₁ at hc he hissued ⊢
  obtain ⟨hcount, hnew⟩ := hissued
  have hs := h.holds fun j => (hcount j).trans (hc j)
  refine ⟨?_, ?_⟩
  · rw [he]
    intro j l t hj hl
    obtain ⟨rfl, hv, rfl⟩ | ⟨-, hold⟩ := getD_set_ifValid hj
    · obtain ⟨rfl, -⟩ | ⟨-, hl⟩ := getD_set_ifValid hl
      · rfl
      · exact absurd (hs.issued l s hl) (hnew hv).2
    · obtain ⟨rfl, hv, rfl⟩ | ⟨-, hl⟩ := getD_set_ifValid hl
      · exact absurd (hs.issued j s hold) (hnew hv).2
      · exact hs.inj j l t hold hl
  · rw [he]
    intro j t hj
    obtain ⟨rfl, hv, rfl⟩ | ⟨-, hj⟩ := getD_set_ifValid hj
    · exact (hnew hv).1
    · exact (hs.issued j t hj).mono hcount

theorem InIds.spread_armSlots (h : InIds m (Spread i) w) (hm : m + n ≤ 2 ^ 8) (hi : i < w.fds.length) :
    InIds (m + n) (Spread i) (EspSmoltcp.armSlots i k n w).2 := by
  induction n generalizing k m w with
  | zero => exact h
  | succ n ih =>
    rw [EspSmoltcp.armSlots]
    simp only
    have h₁ := h.spread_open (by omega) hi (w.fdAt i).iface k
    have hlen : i < ((netTcpOpen (w.fdAt i).iface w).2.modFd i fun e =>
        { e with pool := e.pool.set k (netTcpOpen (w.fdAt i).iface w).1 }).fds.length := by
      rw [World.length_fds_modFd, (netTcpOpen_spec _ w).fds]
      exact hi
    generalize (netTcpOpen (w.fdAt i).iface w).1 = s at h₁ hlen ⊢
    generalize (netTcpOpen (w.fdAt i).iface w).2.modFd i
      (fun e => { e with pool := e.pool.set k s }) = w₁ at h₁ hlen ⊢
    have hcalm := h₁.wf.calm_netTcpListen s (w.fdAt i).port
    have h₂ : InIds (m + 1) (Spread i) (netTcpListen s (w.fdAt i).port w₁).2 :=
      h₁.step hcalm.wf hcalm.counter fun hs => hs.congr (Elsewhere.of_calm hcalm).pool
        (Elsewhere.of_calm (i := i) hcalm).counter
    rw [show m + (n + 1) = m + 1 + n by omega]
    split_ifs
    · exact ih h₂ (by omega) (hcalm.fds ▸ hlen)
    · exact h₂.mono (Nat.le_add_right ..)
    · exact h₁.mono (Nat.le_add_right ..)

/-- **`listen()` puts different sockets into the slots.** -/
theorem spread_of_listen {cfg : Config} {heap : Bool} {fd backlog : ℤ} (hw : w.Wf)
    (hids : ∀ j, w.counter j ≤ 2 ^ 24) (hfd : fdGet cfg w fd = some i)
    (hr : (wrapLwipListen cfg heap fd backlog w).1.ret = 0) :
    InIds (0 + poolSize cfg backlog) (Spread i) (wrapLwipListen cfg heap fd backlog w).2 := by
  have hsize := poolSize_le cfg backlog
  have hpool := cfg.listenerPool_range
  have hspec := wrapLwipListen_spec cfg heap fd backlog w
  generalize wrapLwipListen cfg heap fd backlog w = r at hspec hr ⊢
  cases hspec with
  | refused => exact absurd hr (Ret.ret_fail_ne_zero _)
  | @armed j w₁ hj _ _ hw₁ hlt he =>
    obtain rfl : i = j := Option.some.inj (hfd.symm.trans hj)
    -- No slot is armed yet.
    have hnone : ∀ k s, ((w₁.fdAt i).pool.getD k .invalid).ifValid ≠ some s := by
      intro k s hs
      rw [he, FdEntry.listening, List.getD_eq_getElem?_getD] at hs
      obtain ⟨hv, -⟩ := NetSock.ifValid_eq_some.mp hs
      simp only [List.getElem?_replicate] at hv
      split_ifs at hv <;> cases hv
    refine InIds.spread_armSlots ⟨hw₁ ▸ hw.of_ifaces rfl, hw₁ ▸ hids, fun _ => ?_⟩ (by omega) hlt
    exact ⟨fun k l s hs => absurd hs (hnone k s), fun k s hs => absurd hs (hnone k s)⟩

theorem inv_start_of_listen {cfg : Config} {heap : Bool} {fd backlog : ℤ} (hw : w.Wf)
    (hids : ∀ j, w.counter j ≤ 2 ^ 24) (hfd : fdGet cfg w fd = some i)
    (hr : (wrapLwipListen cfg heap fd backlog w).1.ret = 0)
    (hids' : ∀ j, (wrapLwipListen cfg heap fd backlog w).2.counter j ≤ 2 ^ 24) :
    (AcceptSys.start (T := T) (wrapLwipListen cfg heap fd backlog w).2).Inv i := by
  have hmanned := manned_of_listen hw hids hfd hr hids'
  have hspread := (spread_of_listen hw hids hfd hr).holds hids'
  have hm := hmanned.holds hids'
  refine ⟨hmanned.wf, hm.lt, hm.kind, ?_⟩
  exact {
    slot_inj := hspread.inj
    slot_known := hspread.issued
    held := fun _ _ ht => nomatch ht
    alone := fun _ _ _ _ ht => nomatch ht
    given_iff := fun _ _ ht => nomatch ht
    owner := fun _ _ _ hx => nomatch hx
    fresh := fun _ _ _ ht => nomatch ht
    fresh_alone := fun _ _ _ _ _ ht => nomatch ht
    given_known := fun _ hx => nomatch hx
    filled := fun _ hx => nomatch hx
    nodup_given := List.nodup_nil
    nodup_filled := List.nodup_nil }

end Listen

/-! ## Runs -/

/-- **In every run in which the tasks do not contend for a connection, each connection is accepted
once.** -/
theorem acceptedOnce_of_run [DecidableEq T] {cfg : Config} {heap : Bool} {fd backlog : ℤ} {i : ℕ}
    {w₀ : World S} {a : AcceptSys S T} (hw : w₀.Wf) (hids : ∀ j, w₀.counter j ≤ 2 ^ 24)
    (hfd : fdGet cfg w₀ fd = some i) (hlisten : (wrapLwipListen cfg heap fd backlog w₀).1.ret = 0)
    (hids' : ∀ j, (wrapLwipListen cfg heap fd backlog w₀).2.counter j ≤ 2 ^ 24)
    (hrun : Relation.ReflTransGen (AcceptRaceStep cfg i (Uncontended i))
      (.start (wrapLwipListen cfg heap fd backlog w₀).2) a) : a.AcceptedOnce := by
  refine AcceptSys.Inv.acceptedOnce (i := i) ?_
  induction hrun with
  | refl => exact inv_start_of_listen hw hids hfd hlisten hids'
  | tail _ hstep ih => exact ih.step hstep

/-! ### Two tasks and one connection -/

namespace AcceptSys

variable [DecidableEq T] {cfg : Config} {i : ℕ}

/-- The tasks take these turns. -/
def moves (cfg : Config) (i : ℕ) (a : AcceptSys S T) : List T → AcceptSys S T
  | [] => a
  | t :: ts => moves cfg i (a.move cfg i t false) ts

/-- Each of the turns is of this kind. -/
def Allows (cfg : Config) (i : ℕ) (ok : AcceptSys S T → T → Prop) : AcceptSys S T → List T → Prop
  | _, [] => True
  | a, t :: ts => ok a t ∧ Allows cfg i ok (a.move cfg i t false) ts

theorem reach_moves {ok : AcceptSys S T → T → Prop} {a : AcceptSys S T} {ts : List T}
    (h : Allows cfg i ok a ts) : Relation.ReflTransGen (AcceptRaceStep cfg i ok) a (a.moves cfg i ts) := by
  induction ts generalizing a with
  | nil => exact .refl
  | cons t ts ih => exact .head (.task t false h.1) (ih h.2)

theorem allows_any (a : AcceptSys S T) (ts : List T) : Allows cfg i (fun _ _ => True) a ts := by
  induction ts generalizing a with
  | nil => exact trivial
  | cons t ts ih => exact ⟨trivial, ih _⟩

end AcceptSys

/-- Two tasks, on the listener with one slot that a peer has connected to. -/
def twoTasks : AcceptSys .reference Bool := .start peerConnected

theorem reach_twoTasks (ok : AcceptSys .reference Bool → Bool → Prop) :
    Relation.ReflTransGen (AcceptRaceStep .default 0 ok) (.start oneSlot) twoTasks := by
  have hwf : oneSlot.Wf := (@manned_of_listen .reference 0 boundFd .default true 48 1 wf_boundFd
    (fun i => by cases i <;> decide) rfl rfl fun i => by cases i <;> decide).wf
  have hsyn := hwf.calm_deliver .eth 0 .connect
  exact .single (.elsewhere (.of_calm (hsyn.trans (hsyn.wf.calm_deliver .eth 0 .connect))))

/-- One of them accepts the connection while the other is not in `accept`. -/
theorem acceptedOnce_one_task :
    (twoTasks.moves .default 0 (List.replicate 17 true)).given = [(⟨1⟩, 1)] ∧
      (twoTasks.moves .default 0 (List.replicate 17 true)).AcceptedOnce := by
  refine ⟨rfl, @acceptedOnce_of_run .reference Bool _ .default true 48 1 0 boundFd _ wf_boundFd
    (fun i => by cases i <;> decide) rfl rfl (fun i => by cases i <;> decide)
    ((reach_twoTasks _).trans (AcceptSys.reach_moves ?_))⟩
  refine ⟨trivial, trivial, trivial, trivial, trivial, trivial, fun _ => ⟨rfl, fun u k hk => ?_⟩, trivial,
    trivial, trivial, trivial, trivial, trivial, trivial, trivial, ?_, trivial, trivial⟩
  · cases u <;> cases hk
  · exact (by decide : (2 : ℕ) < 2 ^ 24)

/-- **Two tasks that find the same connection both accept it, and both fill its slot.** -/
theorem connection_accepted_twice : ∃ a : AcceptSys .reference Bool,
    (wrapLwipListen .default true 48 1 boundFd).1.ret = 0 ∧
      Relation.ReflTransGen (AcceptRaceStep .default 0 fun _ _ => True) (.start oneSlot) a ∧
      a.given = [(⟨1⟩, 2), (⟨1⟩, 1)] ∧ a.filled = [(0, ⟨1⟩), (0, ⟨1⟩)] ∧ ¬ a.AcceptedOnce := by
  refine ⟨twoTasks.moves .default 0 (List.replicate 7 true ++ List.replicate 7 false ++
    List.replicate 10 true ++ List.replicate 10 false), rfl,
    (reach_twoTasks _).trans (AcceptSys.reach_moves (AcceptSys.allows_any ..)), rfl, rfl, fun h => ?_⟩
  have hfds := h.sock ⟨1⟩ 2 1 (List.mem_cons_self ..) (List.mem_cons_of_mem _ (List.mem_cons_self ..))
  cases hfds

end EspSmoltcp
