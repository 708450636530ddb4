import EspSmoltcp.Smoltcp.Reference
import EspSmoltcp.Stack.Handles
import Mathlib.Logic.Relation

/-!
# Stack/Sessions — runs of opens and closes

A `Session` follows the callers of `net_tcp_open`, `net_udp_open`, `net_tcp_close` and `net_udp_close`
over a whole run: which handles they hold, which socket each handle was returned for, and which
sockets were created by an open that returned `NET_SOCK_INVALID`.

The core counts ids in 32 bits and a handle keeps 24, so the two stay in step as long as every open
finds its interface's counter below `2^24` (`coherent_of_run`).  The open that finds it at `2^24`
returns `NET_SOCK_INVALID` for a socket it has created.
-/

namespace EspSmoltcp

variable {S : Smoltcp}

/-! ## Attached interfaces -/

namespace World

theorem wf_boot (cfg : Config) : (boot cfg : World S).Wf where
  ctx _ _ h := by cases h
  enabled _ _ h := by cases h

theorem ifaces_attach_ne (w : World S) {i j : IfaceId} (h : j ≠ i) (mac : Fin 6 → UInt8) :
    (w.attach i mac).ifaces j = w.ifaces j := Function.update_of_ne h _ _

theorem ifaces_attach_self (w : World S) (i : IfaceId) (mac : Fin 6 → UInt8) :
    (w.attach i mac).ifaces i
      = { w.ifaces i with enabled := true, smoltcpHandle := some (.new i.code.toNat mac) } :=
  Function.update_self i _ _

theorem Wf.attach {w : World S} (h : w.Wf) (i : IfaceId) (mac : Fin 6 → UInt8) :
    (w.attach i mac).Wf := by
  refine ⟨fun j ctx hj => ?_, fun j ctx hj => ?_⟩
  · rw [World.ctx] at hj
    by_cases hji : j = i
    · subst hji
      rw [ifaces_attach_self] at hj
      exact Option.some.inj hj ▸ IfaceCtx.wf_new _ mac
    · rw [ifaces_attach_ne w hji] at hj
      exact h.ctx j ctx hj
  · rw [World.ctx] at hj
    by_cases hji : j = i
    · subst hji
      rw [ifaces_attach_self]
    · rw [ifaces_attach_ne w hji] at hj ⊢
      exact h.enabled j ctx hj

theorem wf_attachAll (ifs : List (IfaceId × (Fin 6 → UInt8))) {w : World S} (h : w.Wf) :
    (ifs.foldl (fun w p => w.attach p.1 p.2) w).Wf := by
  induction ifs generalizing w with
  | nil => exact h
  | cons p ifs ih => exact ih (h.attach p.1 p.2)

end World

/-! ## Sessions -/

/-- One call of a session. -/
inductive SessionOp
  | tcpOpen (i : IfaceId)
  | udpOpen (i : IfaceId) (localPort : UInt16)
  | tcpClose (s : NetSock)
  | udpClose (s : NetSock)
  deriving DecidableEq

/-- The interface an open is on. -/
def SessionOp.opens : SessionOp → Option IfaceId
  | tcpOpen i | udpOpen i _ => some i
  | tcpClose _ | udpClose _ => none

/-- A handle an open returned, and the socket that open created. -/
structure HeldSock (S : Smoltcp) where
  sock : NetSock
  iface : IfaceId
  created : Option (SocketHandle × Socket S)

/-- The world, the handles that are live and the sockets no handle was returned for. -/
structure Session (S : Smoltcp) where
  world : World S
  live : List (HeldSock S) := []
  orphans : List (IfaceId × SocketHandle) := []

namespace Session

/-- An open on `i` returned `r`. -/
def opened (σ : Session S) (i : IfaceId) (r : NetSock × World S) : Session S :=
  let new := World.newSocket i σ.world r.2
  if r.1.valid then { σ with world := r.2, live := ⟨r.1, i, new⟩ :: σ.live }
  else { σ with world := r.2, orphans := (new.map fun n => (i, n.1)).toList ++ σ.orphans }

/-- The handle `s` was closed. -/
def closed (σ : Session S) (s : NetSock) (w : World S) : Session S :=
  { σ with world := w, live := σ.live.filter fun o => o.sock ≠ s }

/-- One call. -/
def step (σ : Session S) : SessionOp → Session S
  | .tcpOpen i => σ.opened i (netTcpOpen i σ.world)
  | .udpOpen i port => σ.opened i (netUdpOpen i port σ.world)
  | .tcpClose s => σ.closed s (netTcpClose s σ.world).2
  | .udpClose s => σ.closed s (netUdpClose s σ.world).2

/-- A sequence of calls. -/
def run (σ : Session S) (ops : List SessionOp) : Session S := ops.foldl step σ

/-- The session after the given interfaces were attached. -/
def start (cfg : Config) (ifs : List (IfaceId × (Fin 6 → UInt8))) : Session S where
  world := ifs.foldl (fun w p => w.attach p.1 p.2) (.boot cfg)

/-- **Handles and sockets in step**: a live handle names its interface and looks up the socket its
open created, live handles differ, and no open left a socket behind without a handle. -/
structure Coherent (σ : Session S) : Prop where
  faithful : ∀ o ∈ σ.live, o.sock.iface = o.iface.code ∧ ∃ ctx sh x, σ.world.ctx o.iface = some ctx ∧
    o.created = some (sh, x) ∧ ctx.lookup o.sock.localId = some sh ∧ ctx.sockets.lookup sh = some x
  distinct : (σ.live.map HeldSock.sock).Nodup
  noOrphan : σ.orphans = []

/-- A call whose open, if it is one, finds the counter below `2^24`. -/
def Below (σ : Session S) (op : SessionOp) : Prop :=
  ∀ i, op.opens = some i → σ.world.counter i < 2 ^ 24

/-- One call of a run that keeps the counters below `2^24`. -/
def BelowStep (σ σ' : Session S) : Prop := ∃ op, σ.Below op ∧ σ' = σ.step op

/-! ## The invariant -/

/-- `Coherent`, on an ordered registry and through `World.entryOf`. -/
structure Inv (σ : Session S) : Prop where
  wf : σ.world.Wf
  iface : ∀ o ∈ σ.live, o.sock.iface = o.iface.code
  entry : ∀ o ∈ σ.live, o.created.isSome = true ∧ σ.world.entryOf o.sock = o.created
  distinct : (σ.live.map HeldSock.sock).Nodup
  noOrphan : σ.orphans = []

theorem Inv.coherent {σ : Session S} (h : σ.Inv) : σ.Coherent := by
  refine ⟨fun o ho => ?_, h.distinct, h.noOrphan⟩
  have hi := h.iface o ho
  obtain ⟨hsome, he⟩ := h.entry o ho
  obtain ⟨⟨sh, x⟩, hnew⟩ := Option.isSome_iff_exists.mp hsome
  rw [hnew] at he
  obtain ⟨j, ctx, hj, hctx, hent⟩ := World.entryOf_eq_some.mp he
  obtain rfl : o.iface = j := IfaceId.code_inj (hi.symm.trans hj)
  obtain ⟨hl, hx⟩ := IfaceCtx.entryAt_eq_some.mp hent
  exact ⟨hi, ctx, sh, x, hctx, hnew, hl, hx⟩

theorem Inv.opened {σ : Session S} (h : σ.Inv) {P : Socket S → Prop} {i : IfaceId}
    {r : NetSock × World S} (hr : OpenSpec P i σ.world r) (hP : ∀ x, P x → x.kind?.isSome = true)
    (hn : σ.world.counter i < 2 ^ 24) : (σ.opened i r).Inv := by
  obtain rfl | ho := hr.cases h.wf hP hn
  · have hnew : (σ.opened i (.invalid, σ.world)) = σ := by
      simp [Session.opened, World.newSocket_self]
    rw [hnew]
    exact h
  · obtain ⟨sh, x, -, hnew, hent⟩ := ho.entry
    have heq : σ.opened i r
        = { σ with world := r.2, live := ⟨r.1, i, some (sh, x)⟩ :: σ.live } := by
      rw [Session.opened, if_pos ho.valid, hnew]
    -- A handle that is live stands for something, so it is not the new one.
    have hne : ∀ o ∈ σ.live, o.sock ≠ r.1 := by
      intro o hmem he
      have hsome := (h.entry o hmem).1
      rw [← (h.entry o hmem).2, he, ho.fresh] at hsome
      cases hsome
    rw [heq]
    refine ⟨ho.wf, ?_, ?_, ?_, h.noOrphan⟩
    · intro o hmem
      obtain rfl | hmem := List.mem_cons.mp hmem
      · exact ho.iface
      · exact h.iface o hmem
    · intro o hmem
      obtain rfl | hmem := List.mem_cons.mp hmem
      · exact ⟨rfl, by rw [hent, Function.update_self]⟩
      · refine ⟨(h.entry o hmem).1, ?_⟩
        rw [hent, Function.update_of_ne (hne o hmem)]
        exact (h.entry o hmem).2
    · rw [List.map_cons, List.nodup_cons]
      refine ⟨fun hmem => ?_, h.distinct⟩
      obtain ⟨o, hmem, he⟩ := List.mem_map.mp hmem
      exact hne o hmem he

theorem Inv.closed {σ : Session S} (h : σ.Inv) {k : SockKind} {s : NetSock} {w : World S}
    (hs : CloseSpec k s σ.world w) : (σ.closed s w).Inv := by
  have hmem : ∀ o ∈ (σ.closed s w).live, o ∈ σ.live ∧ o.sock ≠ s := by
    intro o ho
    simpa [Session.closed] using ho
  refine ⟨hs.wf, fun o ho => h.iface o (hmem o ho).1, fun o ho => ?_, ?_, h.noOrphan⟩
  · obtain ⟨ho, hne⟩ := hmem o ho
    refine ⟨(h.entry o ho).1, ?_⟩
    rw [← (h.entry o ho).2]
    exact hs.entryOf_ne hne
  · exact h.distinct.sublist (List.filter_sublist.map _)

/-- **One call keeps the invariant.** -/
theorem Inv.step {σ : Session S} (h : σ.Inv) {op : SessionOp} (hop : σ.Below op) :
    (σ.step op).Inv := by
  cases op with
  | tcpOpen i =>
    refine h.opened (netTcpOpen_spec i σ.world) ?_ (hop i rfl)
    rintro x rfl
    rfl
  | udpOpen i port =>
    refine h.opened (netUdpOpen_spec i port σ.world) ?_ (hop i rfl)
    rintro x ⟨u, rfl⟩
    rfl
  | tcpClose s => exact h.closed (h.wf.netTcpClose_spec s)
  | udpClose s => exact h.closed (h.wf.netUdpClose_spec s)

theorem inv_start (cfg : Config) (ifs : List (IfaceId × (Fin 6 → UInt8))) :
    (start cfg ifs : Session S).Inv :=
  ⟨World.wf_attachAll ifs (World.wf_boot cfg), by simp [start], by simp [start], by simp [start], rfl⟩

/-- **In every run whose opens find the counter below `2^24`, handles and sockets stay in step.** -/
theorem coherent_of_run {cfg : Config} {ifs : List (IfaceId × (Fin 6 → UInt8))} {σ : Session S}
    (h : Relation.ReflTransGen BelowStep (start cfg ifs) σ) : σ.Coherent := by
  refine Inv.coherent ?_
  induction h with
  | refl => exact inv_start cfg ifs
  | tail _ hstep ih =>
    obtain ⟨op, hop, rfl⟩ := hstep
    exact ih.step hop

/-- Every open of these calls finds the counters below `2^24`. -/
def BelowAll : Session S → List SessionOp → Prop
  | _, [] => True
  | σ, op :: ops => (∀ i, σ.world.counter i < 2 ^ 24) ∧ BelowAll (σ.step op) ops

theorem reach_of_belowAll {σ : Session S} {ops : List SessionOp} (h : BelowAll σ ops) :
    Relation.ReflTransGen BelowStep σ (σ.run ops) := by
  induction ops generalizing σ with
  | nil => exact .refl
  | cons op ops ih => exact .head ⟨op, fun i _ => h.1 i, rfl⟩ (ih h.2)

/-- Two opens, a close of the first handle, and another open. -/
theorem coherent_reopened :
    ((start .default [(.eth, fun _ => 0)] : Session .reference).run
      [.tcpOpen .eth, .udpOpen .eth 53, .tcpClose ⟨1⟩, .tcpOpen .eth]).Coherent := by
  refine coherent_of_run (reach_of_belowAll ⟨?_, ?_, ?_, ?_, trivial⟩)
  · rintro (_ | _) <;> decide +kernel
  · rintro (_ | _) <;> decide +kernel
  · rintro (_ | _) <;> decide +kernel
  · rintro (_ | _) <;> decide +kernel

/-! ## The open after `2^24 - 1` others -/

/-- A TCP socket is opened on the Ethernet interface, and its handle closed. -/
def cycle (σ : Session S) : Session S :=
  (σ.step (.tcpOpen .eth)).step (.tcpClose (netTcpOpen .eth σ.world).1)

/-- The session after `n` of these: no socket is open any more. -/
def afterCycles : ℕ → Session .reference
  | 0 => start .default [(.eth, fun _ => 0)]
  | n + 1 => (afterCycles n).cycle

theorem world_opened (σ : Session S) (i : IfaceId) (r : NetSock × World S) :
    (σ.opened i r).world = r.2 := by
  rw [opened]
  split_ifs <;> rfl

/-- What an open makes of the world. -/
theorem netTcpOpen_of_counter {w : World S} (hwf : w.Wf) {n : ℕ} (hcounter : w.counter .eth = n + 1) :
    ∃ ctx, w.ctx .eth = some ctx ∧ ctx.nextId.toNat = n + 1 ∧
      netTcpOpen .eth w = (handleOf .eth ctx.nextId, w.setCtx .eth (ctx.openSocket (.tcp S.tcp.new)).2) := by
  rcases hctx : w.ctx .eth with _ | ctx
  · rw [World.counter, hctx] at hcounter
    cases hcounter
  · rw [World.counter, hctx] at hcounter
    exact ⟨ctx, rfl, hcounter, netTcpOpen_of_ctx hwf hctx⟩

/-- Every open moves the counter by one, and no close moves it back. -/
theorem afterCycles_spec {n : ℕ} (hn : n < 2 ^ 24) :
    (afterCycles n).world.Wf ∧ (afterCycles n).world.counter .eth = n + 1 := by
  induction n with
  | zero => exact ⟨(inv_start _ _).wf, rfl⟩
  | succ n ih =>
    obtain ⟨hwf, hcounter⟩ := ih (by omega)
    obtain ⟨ctx, hctx, hnext, hopen⟩ := netTcpOpen_of_counter hwf hcounter
    have hn' : ctx.nextId.toNat + 1 < 2 ^ 32 := by omega
    have hopened := hwf.setCtx hctx ((hwf.ctx _ _ hctx).openSocket (x := .tcp Smoltcp.reference.tcp.new) rfl hn')
    have hclose := hopened.netTcpClose_spec (handleOf .eth ctx.nextId)
    rw [afterCycles, cycle, step, step, world_opened, closed, hopen]
    refine ⟨hclose.wf, ?_⟩
    rw [hclose.counter, World.counter, World.ctx_setCtx_self, ← hnext]
    exact IfaceCtx.toNat_max_add_one hn'

theorem handleOf_eth_two_pow {id : UInt32} (h : id.toNat = 2 ^ 24) :
    handleOf .eth id = .invalid := by
  obtain rfl : (0x01000000 : UInt32) = id := UInt32.toNat_inj.mp h.symm
  decide

/-- The open that finds the counter at `2^24` leaves a socket behind. -/
theorem orphans_of_counter {n : ℕ} (hn : n + 1 = 2 ^ 24) :
    ((afterCycles n).step (.tcpOpen .eth)).orphans ≠ [] := by
  obtain ⟨hwf, hcounter⟩ := afterCycles_spec (n := n) (by omega)
  obtain ⟨ctx, hctx, hnext, hopen⟩ := netTcpOpen_of_counter hwf hcounter
  rw [step, hopen, handleOf_eth_two_pow (hnext.trans hn), opened, World.newSocket_openSocket hctx]
  simp

/-- **The `2^24`th open leaves a socket behind and returns `NET_SOCK_INVALID`**, though every socket opened
before it was closed. -/
theorem not_coherent_afterCycles : ¬ ((afterCycles (2 ^ 24 - 1)).step (.tcpOpen .eth)).Coherent := by
  obtain ⟨n, hn⟩ : ∃ n, n + 1 = 2 ^ 24 := ⟨16777215, rfl⟩
  rw [← hn, Nat.add_sub_cancel]
  exact fun h => orphans_of_counter hn h.noOrphan

end Session

end EspSmoltcp
