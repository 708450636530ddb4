import EspSmoltcp.Glue.Registry
import EspSmoltcp.Machinery.Fifo
import EspSmoltcp.Smoltcp.Reference
import EspSmoltcp.World

/-!
# Stack/Wakeups — who wakes the poll task

`net_stack_task` goes round the interfaces, computes how long it may sleep, and blocks in
`ulTaskNotifyTake` until it is notified or that time is over.  Whatever gives it work while it sleeps has to
notify it.

* `rxAwake_of_run` — received frames always do: `net_stack_post_rx` notifies after it has enqueued, and the
  task clears its notifications before it drains the queues.
* `txAwake_of_run` — outgoing data does when it is a TCP send or a datagram with a payload.  A connect, a
  multicast join or leave and an empty datagram leave the task asleep.
-/

namespace EspSmoltcp

variable {S : Smoltcp} {P O : Type} {depth : ℕ}

/-! ## The callers -/

/-- Where a call of `net_stack_post_rx` is. -/
inductive PostPc
  | start (iface : UInt32)
  | enqueuing (i : IfaceId)
  /-- The frame is in the queue; the poll task is still to be notified. -/
  | notifying
  | returned
  deriving DecidableEq

/-- smoltcp's multicast groups: `join_multicast_group` and `leave_multicast_group`; `none` is `Err`. -/
structure McastApi (S : Smoltcp) where
  join : Ipv4Address → IfaceCtx S → Option (IfaceCtx S)
  leave : Ipv4Address → IfaceCtx S → Option (IfaceCtx S)

/-- `smoltcp_iface_mcast_join` and `smoltcp_iface_mcast_leave`. -/
def smoltcpIfaceMcast (group : Ipv4Address → IfaceCtx S → Option (IfaceCtx S)) (ctx : IfaceCtx S)
    (groupBe : UInt32) : Int × IfaceCtx S :=
  match group (ipv4FromBe groupBe) ctx with
  | some ctx => (0, ctx)
  | none => (-1, ctx)

/-- The calls that give smoltcp something to transmit. -/
inductive TxCall
  /-- `net_tcp_connect` up to its wait for the handshake; `rand` is the draw for the local port. -/
  | connect (s : NetSock) (ipv4Be : UInt32) (port : UInt16) (rand : UInt32)
  /-- One attempt of `net_tcp_send`. -/
  | send (s : NetSock) (data : Bytes)
  | sendto (s : NetSock) (data : Bytes) (dstBe : UInt32) (dstPort : UInt16)
  | mcastJoin (i : IfaceId) (groupBe : UInt32)
  | mcastLeave (i : IfaceId) (groupBe : UInt32)

namespace TxCall

/-- The interface a call is made on, if it names one. -/
def iface : TxCall → Option IfaceId
  | connect s .. | send s .. | sendto s .. => IfaceId.ofCode s.iface
  | mcastJoin i _ | mcastLeave i _ => some i

/-- The call into the core, under the lock. -/
def core (mcast : McastApi S) : TxCall → IfaceCtx S → Int × IfaceCtx S
  | connect s ipv4Be port rand, ctx => smoltcpTcpConnect ctx s.localId ipv4Be port 0 rand
  | send s data, ctx => smoltcpTcpSend ctx s.localId data
  | sendto s data dstBe dstPort, ctx => smoltcpUdpSendto ctx s.localId data dstBe dstPort
  | mcastJoin _ groupBe, ctx => smoltcpIfaceMcast mcast.join ctx groupBe
  | mcastLeave _ groupBe, ctx => smoltcpIfaceMcast mcast.leave ctx groupBe

/-- With this return code there is something to transmit: a SYN, data, a datagram, a report. -/
def queues : TxCall → Int → Bool
  | connect .., rc => rc = 0
  | send .., n => 0 < n
  | sendto .., n => 0 ≤ n
  | mcastJoin .., rc | mcastLeave .., rc => rc = 0

/-- With this return code the caller goes on to `net_stack_kick_poll`.  A send that queued nothing may kick
as well, which is one of the other notifications below. -/
def kicks : TxCall → Int → Bool
  | connect .., _ => false
  | send .., n => 0 < n
  | sendto .., n => 0 < n
  | mcastJoin .., _ | mcastLeave .., _ => false

/-- A TCP send, or a datagram with a payload. -/
def Kicked : TxCall → Prop
  | send .. => True
  | sendto _ data .. => data ≠ []
  | connect .. | mcastJoin .. | mcastLeave .. => False

end TxCall

/-- Where such a call is. -/
inductive TxPc
  | start (c : TxCall)
  | kicking
  /-- It has returned, or it is a connect that waits for its handshake. -/
  | done

/-- Outgoing work: the call that queued it, and whether the poll task has computed its sleep since. -/
structure TxItem (O : Type) where
  op : O
  seen : Bool := false

/-! ## The poll task -/

/-- Where `net_stack_task` is. -/
inductive PollPc
  /-- It is about to look at `enabled`. -/
  | visit (i : IfaceId)
  | draining (i : IfaceId)
  /-- The queue was empty; the interface is polled next. -/
  | polling (i : IfaceId)
  /-- The wait is computed next. -/
  | delays
  | taking
  | blocked
  deriving DecidableEq

/-- The rest of the round after an interface. -/
def PollPc.after : IfaceId → PollPc
  | .eth => visit .wifi
  | .wifi => delays

/-- The task is still to drain the queue of an interface in this round. -/
def PollPc.Ahead (i : IfaceId) : PollPc → Prop
  | visit .eth | draining .eth => True
  | polling .eth | visit .wifi | draining .wifi => i = .wifi
  | polling .wifi | delays | taking | blocked => False

/-! ## The system -/

/-- The poll task, calls `P` that post frames and calls `O` that transmit. -/
structure WakeSys (S : Smoltcp) (P O : Type) (depth : ℕ) where
  enabled : IfaceId → Bool
  handle : IfaceId → Option (IfaceCtx S)
  /-- The receive queues; a frame is named by the call that posted it. -/
  rxQ : IfaceId → Fifo P depth
  /-- The notifications of the poll task. -/
  pending : ℕ
  poll : PollPc
  posts : P → PostPc
  txs : O → TxPc
  /-- What each interface has to transmit since it was last polled. -/
  work : IfaceId → List (TxItem O)

/-- Who moves next. -/
inductive WakeAct (S : Smoltcp) (P O : Type)
  /-- The poll task; `net` is what a poll does to a context. -/
  | poll (net : IfaceCtx S → IfaceCtx S)
  /-- The wait of the poll task is over. -/
  | timeout
  | post (p : P)
  | tx (o : O)
  /-- Another notification: a link event, an attach, a receive. -/
  | notify
  /-- `esp_smoltcp_attach_eth` enables an interface… -/
  | enable (i : IfaceId)
  /-- …and publishes its context. -/
  | publish (i : IfaceId) (ctx : IfaceCtx S)
  /-- Another call into the core. -/
  | other (i : IfaceId) (f : IfaceCtx S → IfaceCtx S)

namespace WakeSys

/-- The task is started: nothing is queued and nothing has been called. -/
def start (depth : ℕ) (enabled : IfaceId → Bool) (handle : IfaceId → Option (IfaceCtx S))
    (iface : P → UInt32) (call : O → TxCall) : WakeSys S P O depth where
  enabled := enabled
  handle := handle
  rxQ _ := .empty
  pending := 0
  poll := .visit .eth
  posts p := .start (iface p)
  txs o := .start (call o)
  work _ := []

/-- `ulTaskNotifyTake` returns: the notifications are cleared and a new round begins. -/
def wake (s : WakeSys S P O depth) : WakeSys S P O depth := { s with pending := 0, poll := .visit .eth }

/-- One step of the poll task, from where it is. -/
def pollStep (net : IfaceCtx S → IfaceCtx S) (s : WakeSys S P O depth) : PollPc → WakeSys S P O depth
  | .visit i => { s with poll := if s.enabled i then .draining i else .after i }
  | .draining i =>
    match (s.rxQ i).receive with
    | some (_, q) => { s with rxQ := Function.update s.rxQ i q }
    | none => { s with poll := .polling i }
  | .polling i =>
    { s with
      handle := Function.update s.handle i ((s.handle i).map net)
      work := Function.update s.work i []
      poll := .after i }
  | .delays =>
    { s with work := fun i => (s.work i).map fun t => { t with seen := true }, poll := .taking }
  | .taking => if s.pending = 0 then { s with poll := .blocked } else s.wake
  | .blocked => if s.pending = 0 then s else s.wake

section Steps

variable [DecidableEq P] [DecidableEq O]

/-- One step of `net_stack_post_rx`. -/
def postStep (p : P) (s : WakeSys S P O depth) : WakeSys S P O depth :=
  match s.posts p with
  | .start iface =>
    match IfaceId.ofCode iface with
    | none => { s with posts := Function.update s.posts p .returned }
    | some i =>
      { s with posts := Function.update s.posts p (if s.enabled i then .enqueuing i else .returned) }
  | .enqueuing i =>
    match (s.rxQ i).send p with
    | some q => { s with rxQ := Function.update s.rxQ i q, posts := Function.update s.posts p .notifying }
    | none => { s with posts := Function.update s.posts p .returned }
  | .notifying => { s with pending := s.pending + 1, posts := Function.update s.posts p .returned }
  | .returned => s

/-- `handle_for`. -/
def handleFor (s : WakeSys S P O depth) (c : TxCall) : Option (IfaceId × IfaceCtx S) :=
  c.iface.bind fun i => if s.enabled i then (s.handle i).map (i, ·) else none

/-- One step of a call that transmits. -/
def txStep (mcast : McastApi S) (o : O) (s : WakeSys S P O depth) : WakeSys S P O depth :=
  match s.txs o with
  | .start c =>
    match s.handleFor c with
    | none => { s with txs := Function.update s.txs o .done }
    | some (i, ctx) =>
      let (n, ctx) := c.core mcast ctx
      { s with
        handle := Function.update s.handle i (some ctx)
        work := if c.queues n then Function.update s.work i (s.work i ++ [{ op := o }]) else s.work
        txs := Function.update s.txs o (if c.kicks n then .kicking else .done) }
  | .kicking => { s with pending := s.pending + 1, txs := Function.update s.txs o .done }
  | .done => s

/-- One step of one of them. -/
def step (mcast : McastApi S) (s : WakeSys S P O depth) : WakeAct S P O → WakeSys S P O depth
  | .poll net => s.pollStep net s.poll
  | .timeout => if s.poll = .blocked then s.wake else s
  | .post p => s.postStep p
  | .tx o => s.txStep mcast o
  | .notify => { s with pending := s.pending + 1 }
  | .enable i => { s with enabled := Function.update s.enabled i true }
  | .publish i ctx => { s with handle := Function.update s.handle i (some ctx) }
  | .other i f => { s with handle := Function.update s.handle i ((s.handle i).map f) }

/-- A run. -/
def run (mcast : McastApi S) (s : WakeSys S P O depth) (acts : List (WakeAct S P O)) :
    WakeSys S P O depth := acts.foldl (step mcast) s

end Steps

/-- **The poll task is blocked with no notification pending.** -/
def Asleep (s : WakeSys S P O depth) : Prop := s.poll = .blocked ∧ s.pending = 0

/-! ## Received frames -/

/-- What every step keeps. -/
structure RxInv (s : WakeSys S P O depth) : Prop where
  /-- A queued frame lies on an enabled interface, and its call is still to notify, or the task has been
  notified, or it is still to drain the queue. -/
  queued : ∀ i, ∀ p ∈ (s.rxQ i).items,
    s.enabled i = true ∧ (s.posts p = .notifying ∨ 0 < s.pending ∨ s.poll.Ahead i)
  checked : ∀ p i, s.posts p = .enqueuing i → s.enabled i = true

namespace RxInv

variable {s : WakeSys S P O depth}

theorem start (enabled : IfaceId → Bool) (handle : IfaceId → Option (IfaceCtx S)) (iface : P → UInt32)
    (call : O → TxCall) : RxInv (start depth enabled handle iface call) :=
  ⟨fun _ _ hp => absurd hp List.not_mem_nil, fun _ _ h => nomatch h⟩

/-- The poll task moves on past nothing that is queued. -/
theorem move (h : RxInv s) {pc : PollPc}
    (hpc : ∀ i, (s.rxQ i).items ≠ [] → s.enabled i = true → s.poll.Ahead i → pc.Ahead i) :
    RxInv { s with poll := pc } := by
  refine ⟨fun i p hp => ?_, h.checked⟩
  obtain ⟨hen, hwhy⟩ := h.queued i p hp
  exact ⟨hen, hwhy.imp_right (.imp_right (hpc i (List.ne_nil_of_mem hp) hen))⟩

/-- A new round drains everything. -/
theorem wake (h : RxInv s) : RxInv s.wake :=
  ⟨fun i p hp => ⟨(h.queued i p hp).1, .inr (.inr trivial)⟩, h.checked⟩

/-- A notification covers everything. -/
theorem notify (h : RxInv s) : RxInv { s with pending := s.pending + 1 } :=
  ⟨fun i p hp => ⟨(h.queued i p hp).1, .inr (.inl (Nat.succ_pos _))⟩, h.checked⟩

/-- A frame is taken out. -/
theorem receive (h : RxInv s) {i : IfaceId} {p : P} {q : Fifo P depth}
    (hq : (s.rxQ i).receive = some (p, q)) : RxInv { s with rxQ := Function.update s.rxQ i q } := by
  refine ⟨fun j p' hp' => h.queued j p' ?_, h.checked⟩
  by_cases hj : j = i
  · subst hj
    rw [Fifo.items_receive hq]
    simp only [Function.update_self] at hp'
    exact List.mem_cons_of_mem p hp'
  · simpa only [Function.update_of_ne hj] using hp'

theorem pollStep (h : RxInv s) (net : IfaceCtx S → IfaceCtx S) : RxInv (s.pollStep net s.poll) := by
  rcases hpc : s.poll with i | i | i | _ | _ | _
  · refine h.move fun j _ hen hahead => ?_
    rw [hpc] at hahead
    cases i with
    | eth =>
      split_ifs with heth
      · trivial
      · -- The interface that is passed over is disabled, so nothing is queued for it.
        cases j with
        | eth => exact absurd hen heth
        | wifi => rfl
    | wifi =>
      obtain rfl : j = .wifi := hahead
      rw [if_pos hen]
      exact rfl
  · rw [WakeSys.pollStep]
    rcases hq : (s.rxQ i).receive with _ | ⟨p, q⟩
    · have hempty : (s.rxQ i).items = [] := Fifo.items_of_receive_none hq
      refine h.move fun j hne _ hahead => ?_
      rw [hpc] at hahead
      have hj : j ≠ i := fun hj => hne (hj ▸ hempty)
      cases i with
      | eth =>
        cases j with
        | eth => exact absurd rfl hj
        | wifi => rfl
      | wifi => exact absurd hahead hj
    · exact h.receive hq
  · have hmove : RxInv { s with poll := .after i } := h.move fun j _ _ hahead => by
      rw [hpc] at hahead
      cases i with
      | eth => exact hahead
      | wifi => exact hahead
    exact ⟨hmove.queued, hmove.checked⟩
  · have hmove : RxInv { s with poll := .taking } := h.move fun j _ _ hahead => by
      rw [hpc] at hahead
      exact hahead
    exact ⟨hmove.queued, hmove.checked⟩
  · rw [WakeSys.pollStep]
    split_ifs
    · exact h.move fun j _ _ hahead => by
        rw [hpc] at hahead
        exact hahead
    · exact h.wake
  · rw [WakeSys.pollStep]
    split_ifs
    · exact h
    · exact h.wake

/-- The interfaces are only ever enabled. -/
theorem enable (h : RxInv s) (i : IfaceId) :
    RxInv { s with enabled := Function.update s.enabled i true } := by
  have hen : ∀ j, s.enabled j = true → Function.update s.enabled i true j = true := by
    intro j hj
    by_cases hji : j = i
    · rw [hji, Function.update_self]
    · rwa [Function.update_of_ne hji]
  exact ⟨fun j p hp => ⟨hen j (h.queued j p hp).1, (h.queued j p hp).2⟩,
    fun p j hp => hen j (h.checked p j hp)⟩

theorem txStep [DecidableEq O] (h : RxInv s) (mcast : McastApi S) (o : O) :
    RxInv (s.txStep mcast o) := by
  rw [WakeSys.txStep]
  rcases s.txs o with c | _ | _
  · dsimp only
    rcases s.handleFor c with _ | ⟨i, ctx⟩
    · exact ⟨h.queued, h.checked⟩
    · exact ⟨h.queued, h.checked⟩
  · exact ⟨h.notify.queued, h.notify.checked⟩
  · exact h

variable [DecidableEq P]

/-- A call goes on that is not about to notify. -/
theorem goOn (h : RxInv s) {p : P} (hp : s.posts p ≠ .notifying) {pc : PostPc}
    (hpc : ∀ i, pc = .enqueuing i → s.enabled i = true) :
    RxInv { s with posts := Function.update s.posts p pc } := by
  refine ⟨fun i p' hp' => ?_, fun p' i hp' => ?_⟩
  · obtain ⟨hen, hwhy⟩ := h.queued i p' hp'
    refine ⟨hen, ?_⟩
    by_cases hpp : p' = p
    · subst hpp
      exact .inr (hwhy.resolve_left hp)
    · simp only [Function.update_of_ne hpp]
      exact hwhy
  · by_cases hpp : p' = p
    · subst hpp
      simp only [Function.update_self] at hp'
      exact hpc i hp'
    · simp only [Function.update_of_ne hpp] at hp'
      exact h.checked p' i hp'

/-- A frame is enqueued, and its call is to notify next. -/
theorem enqueue (h : RxInv s) {p : P} {i : IfaceId} (hp : s.posts p = .enqueuing i) {q : Fifo P depth}
    (hq : (s.rxQ i).send p = some q) :
    RxInv { s with rxQ := Function.update s.rxQ i q, posts := Function.update s.posts p .notifying } := by
  have hgo : RxInv { s with posts := Function.update s.posts p .notifying } :=
    h.goOn (by rw [hp]; exact PostPc.noConfusion) fun _ hpc => nomatch hpc
  refine ⟨fun j p' hp' => ?_, hgo.checked⟩
  by_cases hj : j = i
  · subst hj
    simp only [Function.update_self, Fifo.items_send hq] at hp'
    obtain hp' | hp' := List.mem_append.mp hp'
    · exact hgo.queued j p' hp'
    · obtain rfl := List.mem_singleton.mp hp'
      exact ⟨h.checked p' j hp, .inl (Function.update_self ..)⟩
  · simp only [Function.update_of_ne hj] at hp'
    exact hgo.queued j p' hp'

theorem postStep [DecidableEq O] (h : RxInv s) (p : P) : RxInv (s.postStep p) := by
  rw [WakeSys.postStep]
  rcases hp : s.posts p with iface | i | _ | _
  · have hne : s.posts p ≠ .notifying := by rw [hp]; exact PostPc.noConfusion
    dsimp only
    rcases IfaceId.ofCode iface with _ | i
    · exact h.goOn hne fun _ hpc => nomatch hpc
    · refine h.goOn hne fun j hpc => ?_
      split_ifs at hpc with hen
      obtain rfl := PostPc.enqueuing.inj hpc
      exact hen
  · dsimp only
    rcases hq : (s.rxQ i).send p with _ | q
    · exact h.goOn (by rw [hp]; exact PostPc.noConfusion) fun _ hpc => nomatch hpc
    · exact h.enqueue hp hq
  · -- Whatever the call was still to do is covered by its notification.
    refine ⟨fun i p' hp' => ⟨(h.queued i p' hp').1, .inr (.inl (Nat.succ_pos _))⟩, fun p' i hp' => ?_⟩
    by_cases hpp : p' = p
    · subst hpp
      simp only [Function.update_self] at hp'
      cases hp'
    · simp only [Function.update_of_ne hpp] at hp'
      exact h.checked p' i hp'
  · exact h

/-- **Every step keeps the invariant.** -/
theorem step [DecidableEq O] (h : RxInv s) (mcast : McastApi S) (act : WakeAct S P O) :
    RxInv (s.step mcast act) := by
  cases act with
  | poll net => exact h.pollStep net
  | timeout =>
    rw [WakeSys.step]
    split_ifs
    · exact h.wake
    · exact h
  | post p => exact h.postStep p
  | tx o => exact h.txStep mcast o
  | notify => exact h.notify
  | enable i => exact h.enable i
  | publish i ctx => exact ⟨h.queued, h.checked⟩
  | other i f => exact ⟨h.queued, h.checked⟩

theorem run [DecidableEq O] (h : RxInv s) (mcast : McastApi S) (acts : List (WakeAct S P O)) :
    RxInv (s.run mcast acts) := by
  induction acts generalizing s with
  | nil => exact h
  | cons act acts ih => exact ih (h.step mcast act)

end RxInv

variable [DecidableEq P] [DecidableEq O]

/-- **While the poll task sleeps, a frame in a queue is one whose `net_stack_post_rx` is about to
notify.** -/
theorem rxAwake_of_run (mcast : McastApi S) (enabled : IfaceId → Bool)
    (handle : IfaceId → Option (IfaceCtx S)) (iface : P → UInt32) (call : O → TxCall)
    (acts : List (WakeAct S P O))
    (h : ((start depth enabled handle iface call).run mcast acts).Asleep) :
    ∀ i, ∀ p ∈ (((start depth enabled handle iface call).run mcast acts).rxQ i).items,
      ((start depth enabled handle iface call).run mcast acts).posts p = .notifying := by
  intro i p hp
  have hinv : RxInv ((start depth enabled handle iface call).run mcast acts) :=
    (RxInv.start enabled handle iface call).run mcast acts
  obtain ⟨-, hpost | hpending | hahead⟩ := hinv.queued i p hp
  · exact hpost
  · exact absurd h.2 (Nat.pos_iff_ne_zero.mp hpending)
  · rw [h.1] at hahead
    exact hahead.elim

/-! ### Asleep on the Ethernet interface -/

/-- smoltcp joins and leaves any group. -/
def anyGroup : McastApi .reference := ⟨fun _ ctx => some ctx, fun _ ctx => some ctx⟩

/-- Only the Ethernet interface is attached, with this context; the poll task makes a round and goes to
sleep. -/
def napping (ctx : IfaceCtx .reference) (iface : P → UInt32) (call : O → TxCall)
    (acts : List (WakeAct .reference P O)) : WakeSys .reference P O 1 :=
  (start 1 (· = .eth) (fun i => if i = .eth then some ctx else none) iface call).run anyGroup
    (.replicate 6 (.poll id) ++ acts)

/-- A frame that has just been enqueued. -/
theorem rxAwake_enqueued :
    ((napping (.new 0 fun _ => 0) (fun _ : Unit => 0) Empty.elim [.post (), .post ()]).rxQ .eth).items = [()] ∧
      (napping (.new 0 fun _ => 0) (fun _ : Unit => 0) Empty.elim [.post (), .post ()]).posts ()
        = .notifying :=
  ⟨rfl, rxAwake_of_run anyGroup _ _ _ _ _ ⟨rfl, rfl⟩ .eth () (List.mem_singleton_self ())⟩

/-! ## Outgoing data -/

/-- Nothing to transmit was queued since the sleep was computed by a call that is over. -/
def TxAwake (s : WakeSys S P O depth) : Prop :=
  s.Asleep → ∀ i, ∀ t ∈ s.work i, t.seen = false → s.txs t.op ≠ .done

/-- What every step keeps: once the sleep is computed, a call that queued something is still to kick, or the
task has been notified. -/
def TxInv (s : WakeSys S P O depth) : Prop :=
  s.poll = .taking ∨ s.poll = .blocked →
    ∀ i, ∀ t ∈ s.work i, t.seen = false → s.txs t.op = .kicking ∨ 0 < s.pending

end WakeSys

/-- A call that queues something is a TCP send or a datagram with a payload. -/
def WakeAct.Kicked [DecidableEq P] [DecidableEq O] (mcast : McastApi S) (s : WakeSys S P O depth) :
    WakeAct S P O → Prop
  | .tx o => ∀ c i ctx, s.txs o = .start c → s.handleFor c = some (i, ctx) →
      c.queues (c.core mcast ctx).1 = true → c.Kicked
  | _ => True

/-- …in every step of a run. -/
def KickedThroughout [DecidableEq P] [DecidableEq O] (mcast : McastApi S) :
    List (WakeAct S P O) → WakeSys S P O depth → Prop
  | [], _ => True
  | act :: acts, s => act.Kicked mcast s ∧ KickedThroughout mcast acts (s.step mcast act)

/-- A datagram is queued whole or not at all. -/
theorem smoltcpUdpSendto_cases (ctx : IfaceCtx S) (id : UInt32) (data : Bytes) (dstBe : UInt32)
    (dstPort : UInt16) : (smoltcpUdpSendto ctx id data dstBe dstPort).1 = -1 ∨
      (smoltcpUdpSendto ctx id data dstBe dstPort).1 = data.length := by
  rw [smoltcpUdpSendto]
  generalize hf : (fun s : S.udp.Socket => _) = f
  have hcases : ∀ x, (f x).1 = -1 ∨ (f x).1 = data.length := by
    intro x
    rw [← hf]
    dsimp only
    rcases S.udp.sendSlice x data (endpointOf dstBe dstPort) with _ | x'
    · exact .inl rfl
    · exact .inr rfl
  obtain h | h | ⟨_, x, -, h⟩ := ctx.withUdp_cases id (-1) f
  · exact .inl (congrArg Prod.fst h)
  · exact .inl (congrArg Prod.fst h)
  · rw [h]
    exact hcases x

/-- Such a call does kick. -/
theorem TxCall.Kicked.kicks {c : TxCall} (hc : c.Kicked) {mcast : McastApi S} {ctx : IfaceCtx S}
    (hq : c.queues (c.core mcast ctx).1 = true) : c.kicks (c.core mcast ctx).1 = true := by
  cases c with
  | connect | mcastJoin | mcastLeave => exact hc.elim
  | send s data => exact hq
  | sendto s data dstBe dstPort =>
    have hdata : 0 < data.length := List.length_pos_iff.mpr hc
    have hnonneg : 0 ≤ (smoltcpUdpSendto ctx s.localId data dstBe dstPort).1 := of_decide_eq_true hq
    have hpos : 0 < (smoltcpUdpSendto ctx s.localId data dstBe dstPort).1 := by
      obtain h | h := smoltcpUdpSendto_cases ctx s.localId data dstBe dstPort
      · omega
      · omega
    exact decide_eq_true hpos

namespace WakeSys

namespace TxInv

variable {s : WakeSys S P O depth}

theorem start (enabled : IfaceId → Bool) (handle : IfaceId → Option (IfaceCtx S)) (iface : P → UInt32)
    (call : O → TxCall) : TxInv (start depth enabled handle iface call) :=
  fun _ _ _ ht => absurd ht List.not_mem_nil

/-- A step that gets nowhere near its sleep. -/
theorem round (pc : PollPc) (ht : pc ≠ .taking) (hb : pc ≠ .blocked) (hs : s.poll = pc) : TxInv s := by
  rintro (h | h)
  · exact absurd (hs.symm.trans h) ht
  · exact absurd (hs.symm.trans h) hb

theorem notify (s : WakeSys S P O depth) : TxInv { s with pending := s.pending + 1 } :=
  fun _ _ _ _ _ => .inr (Nat.succ_pos _)

/-- A step that leaves alone what the invariant is about. -/
theorem keep (h : TxInv s) {s' : WakeSys S P O depth} (hpoll : s'.poll = s.poll) (hwork : s'.work = s.work)
    (htxs : s'.txs = s.txs) (hpending : s'.pending = s.pending) : TxInv s' := by
  rw [TxInv, hpoll, hwork, htxs, hpending]
  exact h

theorem wake (s : WakeSys S P O depth) : TxInv s.wake :=
  round (.visit .eth) (by decide) (by decide) rfl

theorem pollStep (h : TxInv s) (net : IfaceCtx S → IfaceCtx S) : TxInv (s.pollStep net s.poll) := by
  have hafter : ∀ i, PollPc.after i ≠ .taking ∧ PollPc.after i ≠ .blocked := by
    rintro (_ | _) <;> decide
  rcases hpc : s.poll with i | i | i | _ | _ | _
  · rw [WakeSys.pollStep]
    split_ifs
    · exact round (.draining i) PollPc.noConfusion PollPc.noConfusion rfl
    · exact round (.after i) (hafter i).1 (hafter i).2 rfl
  · rw [WakeSys.pollStep]
    rcases (s.rxQ i).receive with _ | ⟨p, q⟩
    · exact round (.polling i) PollPc.noConfusion PollPc.noConfusion rfl
    · exact h.keep rfl rfl rfl rfl
  · exact round (.after i) (hafter i).1 (hafter i).2 rfl
  · -- The wait takes account of everything that is queued.
    intro _ i t ht hseen
    obtain ⟨t', -, rfl⟩ := List.mem_map.mp ht
    cases hseen
  · rw [WakeSys.pollStep]
    split_ifs
    · exact fun _ => h (.inl hpc)
    · exact wake s
  · rw [WakeSys.pollStep]
    split_ifs
    · exact h
    · exact wake s

theorem postStep [DecidableEq P] (h : TxInv s) (p : P) : TxInv (s.postStep p) := by
  rw [WakeSys.postStep]
  rcases s.posts p with iface | i | _ | _
  · dsimp only
    rcases IfaceId.ofCode iface with _ | i
    · exact h.keep rfl rfl rfl rfl
    · exact h.keep rfl rfl rfl rfl
  · dsimp only
    rcases (s.rxQ i).send p with _ | q
    · exact h.keep rfl rfl rfl rfl
    · exact h.keep rfl rfl rfl rfl
  · exact fun _ _ _ _ _ => .inr (Nat.succ_pos _)
  · exact h

variable [DecidableEq O]

theorem txStep (h : TxInv s) (mcast : McastApi S) (o : O)
    (hkicked : ∀ c i ctx, s.txs o = .start c → s.handleFor c = some (i, ctx) →
      c.queues (c.core mcast ctx).1 = true → c.Kicked) : TxInv (s.txStep mcast o) := by
  -- A call that is about to begin has queued nothing yet.
  have hgo : ∀ {pc : TxPc}, s.txs o ≠ .kicking → s.poll = .taking ∨ s.poll = .blocked →
      ∀ i, ∀ t ∈ s.work i, t.seen = false →
        Function.update s.txs o pc t.op = .kicking ∨ 0 < s.pending := by
    intro pc hne hpoll i t ht hseen
    by_cases hop : t.op = o
    · have hwhy := h hpoll i t ht hseen
      rw [hop] at hwhy
      exact .inr (hwhy.resolve_left hne)
    · rw [Function.update_of_ne hop]
      exact h hpoll i t ht hseen
  rw [WakeSys.txStep]
  rcases ho : s.txs o with c | _ | _
  · have hne : s.txs o ≠ .kicking := by rw [ho]; exact TxPc.noConfusion
    dsimp only
    rcases hh : s.handleFor c with _ | ⟨i, ctx⟩
    · exact fun hpoll => hgo hne hpoll
    · dsimp only
      intro hpoll j t ht hseen
      by_cases hq : c.queues (c.core mcast ctx).1 = true
      · have hk := (hkicked c i ctx ho hh hq).kicks hq
        rw [if_pos hq] at ht
        rw [if_pos hk]
        by_cases hj : j = i
        · subst hj
          simp only [Function.update_self] at ht
          obtain ht | ht := List.mem_append.mp ht
          · exact hgo hne hpoll j t ht hseen
          · obtain rfl := List.mem_singleton.mp ht
            exact .inl (Function.update_self ..)
        · simp only [Function.update_of_ne hj] at ht
          exact hgo hne hpoll j t ht hseen
      · rw [if_neg hq] at ht
        exact hgo hne hpoll j t ht hseen
  · exact fun _ _ _ _ _ => .inr (Nat.succ_pos _)
  · exact h

variable [DecidableEq P]

/-- **Every step that kicks keeps the invariant.** -/
theorem step (h : TxInv s) (mcast : McastApi S) (act : WakeAct S P O) (hact : act.Kicked mcast s) :
    TxInv (s.step mcast act) := by
  cases act with
  | poll net => exact h.pollStep net
  | timeout =>
    rw [WakeSys.step]
    split_ifs
    · exact wake s
    · exact h
  | post p => exact h.postStep p
  | tx o => exact h.txStep mcast o hact
  | notify => exact notify s
  | enable i => exact h.keep rfl rfl rfl rfl
  | publish i ctx => exact h.keep rfl rfl rfl rfl
  | other i f => exact h.keep rfl rfl rfl rfl

theorem run (h : TxInv s) (mcast : McastApi S) {acts : List (WakeAct S P O)}
    (hacts : KickedThroughout mcast acts s) : TxInv (s.run mcast acts) := by
  induction acts generalizing s with
  | nil => exact h
  | cons act acts ih => exact ih (h.step mcast act hacts.1) hacts.2

end TxInv

variable [DecidableEq P] [DecidableEq O]

/-- **As long as only TCP sends and datagrams with a payload queue anything, the poll task never sleeps on
something to transmit.** -/
theorem txAwake_of_run (mcast : McastApi S) (enabled : IfaceId → Bool)
    (handle : IfaceId → Option (IfaceCtx S)) (iface : P → UInt32) (call : O → TxCall)
    (acts : List (WakeAct S P O))
    (h : KickedThroughout mcast acts (start depth enabled handle iface call)) :
    ((start depth enabled handle iface call).run mcast acts).TxAwake := by
  intro hasleep i t ht hseen hdone
  have hinv : TxInv ((start depth enabled handle iface call).run mcast acts) :=
    (TxInv.start enabled handle iface call).run mcast h
  obtain hkick | hpending := hinv (.inr hasleep.1) i t ht hseen
  · rw [hdone] at hkick
    cases hkick
  · exact absurd hasleep.2 (Nat.pos_iff_ne_zero.mp hpending)

/-! ### Calls that do not kick -/

/-- A context with a TCP socket, which has id 1… -/
def tcpOpened : IfaceCtx .reference := (smoltcpTcpOpen (.new 0 fun _ => 0)).2

/-- …and one with a UDP socket. -/
def udpOpened : IfaceCtx .reference := (smoltcpUdpOpen (.new 0 fun _ => 0) 7).2

/-- A call is made while the poll task sleeps. -/
def sleptOn (ctx : IfaceCtx .reference) (c : TxCall) : WakeSys .reference Empty Unit 1 :=
  napping ctx Empty.elim (fun _ => c) [.tx ()]

/-- A datagram with a payload is queued, and its kick is to come. -/
theorem txAwake_payload : (sleptOn udpOpened (.sendto ⟨1⟩ [7] 0x0200000A 9)).TxAwake :=
  txAwake_of_run anyGroup _ _ _ _ _ ⟨trivial, trivial, trivial, trivial, trivial, trivial,
    fun _ _ _ hc _ _ => TxPc.start.inj hc ▸ List.cons_ne_nil _ _, trivial⟩

/-- **A SYN, an empty datagram and the reports of a join and a leave wait for the poll task to wake by
itself.** -/
theorem tx_slept_on : ¬ (sleptOn tcpOpened (.connect ⟨1⟩ 0x0200000A 80 0)).TxAwake ∧
    ¬ (sleptOn udpOpened (.sendto ⟨1⟩ [] 0x0200000A 9)).TxAwake ∧
    ¬ (sleptOn tcpOpened (.mcastJoin .eth 0xFB0000E0)).TxAwake ∧
    ¬ (sleptOn tcpOpened (.mcastLeave .eth 0xFB0000E0)).TxAwake := by
  have hlost : ∀ {s : WakeSys .reference Empty Unit 1}, s.Asleep → s.work .eth = [{ op := () }] →
      s.txs () = .done → ¬ s.TxAwake := by
    intro s hasleep hwork hdone h
    exact h hasleep .eth { op := () } (by rw [hwork]; exact List.mem_singleton_self _) rfl hdone
  refine ⟨hlost ⟨rfl, rfl⟩ rfl rfl, hlost ⟨rfl, rfl⟩ rfl rfl, hlost ⟨rfl, rfl⟩ rfl rfl,
    hlost ⟨rfl, rfl⟩ rfl rfl⟩

end WakeSys

end EspSmoltcp
