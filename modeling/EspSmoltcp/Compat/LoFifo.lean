import EspSmoltcp.Compat.SockSpec
import EspSmoltcp.Machinery.Fifo
import EspSmoltcp.Smoltcp.Reference

/-!
# Compat/LoFifo — the loopback queue of an fd as a bounded FIFO

`sendto` finds the queue of the fd bound to a port through the slot table; `recvfrom` takes from the queue of
its own fd.  As long as the fd stays registered on the port the two meet in one `Fifo` of
`LO_QUEUE_DEPTH` places.

* **The queue is the FIFO** (`LoPeriod.simulates`): a `sendto` appends or changes nothing, a `recvfrom` takes
  the oldest datagram or finds none, whoever sends while it waits.
* **Not every datagram is reported** (`loFifo_iff`): `recvfrom` writes the source out only `if (n > 0)`.
-/

namespace EspSmoltcp

open Thread (Triple)

variable {S : Smoltcp}

/-! ## Registered fds -/

/-- The fd is registered on the port, and these datagrams are pending. -/
structure Registered (cfg : Config) (fd : ℤ) (i : ℕ) (port : UInt16) (q : Fifo LoMsg loQueueDepth)
    (w : World S) : Prop where
  entry : fdGet cfg w fd = some i
  kind : (w.fdAt i).kind = .udp
  flag : (w.fdAt i).loopback = true
  slot : (w.loSlots.find? fun s => s.port = port).bind LoSlot.fd = some i
  pending : (w.fdAt i).loRx = some q.items

/-- What happens aside of a registered fd: its entry stays a UDP entry with its queue, and the port stays
its. -/
structure Aside (i : ℕ) (port : UInt16) (w w' : World S) : Prop where
  kind : (w'.fdAt i).kind = (w.fdAt i).kind
  flag : (w'.fdAt i).loopback = (w.fdAt i).loopback
  slot : (w'.loSlots.find? fun s => s.port = port) = w.loSlots.find? fun s => s.port = port
  pending : (w'.fdAt i).loRx = (w.fdAt i).loRx

/-- A call of `sendto`, with what its `malloc` comes to. -/
structure SendtoCall where
  heap : Bool
  fd : ℤ
  buf : Bytes
  dst : SockAddrIn
  tolen : ℕ

namespace SendtoCall

/-- The call. -/
def run (cfg : Config) (c : SendtoCall) (w : World S) : Ret × World S :=
  wrapLwipSendto cfg c.heap c.fd c.buf c.dst c.tolen w

/-- It is for the port on the loopback. -/
def Over (port : UInt16) (c : SendtoCall) : Prop := isLoopbackIp c.dst.addrBe = true ∧ c.dst.port = port

/-- The datagram it has sent, with the source its fd has on record, unless it returns a negative value. -/
def accepted (cfg : Config) (c : SendtoCall) (w : World S) : List LoMsg :=
  if 0 ≤ (c.run cfg w).1.ret then
    (fdGet cfg w c.fd).toList.map fun j => ⟨(w.fdAt j).localIpv4Be, (w.fdAt j).localPort, c.buf⟩
  else []

/-- It is made on a UDP fd with a whole address. -/
def WellFormed (cfg : Config) (c : SendtoCall) (w : World S) : Prop :=
  (∃ j, fdGet cfg w c.fd = some j ∧ (w.fdAt j).kind = .udp) ∧ sizeofSockAddrIn ≤ c.tolen

/-- There is room for it: on the heap, in a `uint16_t` and in the queue. -/
def Fits (c : SendtoCall) (q : Fifo LoMsg loQueueDepth) : Prop :=
  c.heap = true ∧ c.buf.length ≤ 65535 ∧ q.items.length < loQueueDepth

end SendtoCall

/-- How a `sendto` to a registered fd ends. -/
inductive SendOutcome (cfg : Config) (fd : ℤ) (i : ℕ) (port : UInt16) (q : Fifo LoMsg loQueueDepth)
    (c : SendtoCall) (w : World S) : Ret × World S → Prop
  | refused (e : Option Errno) (hno : ¬ (c.WellFormed cfg w ∧ c.Fits q)) :
      SendOutcome cfg fd i port q c w (⟨-1, e⟩, w)
  | taken {j : ℕ} {q' : Fifo LoMsg loQueueDepth} {w' : World S} (hyes : c.WellFormed cfg w ∧ c.Fits q)
      (hj : fdGet cfg w c.fd = some j)
      (hsend : q.send ⟨(w.fdAt j).localIpv4Be, (w.fdAt j).localPort, c.buf⟩ = some q')
      (h : Registered cfg fd i port q' w') : SendOutcome cfg fd i port q c w (⟨c.buf.length, none⟩, w')

section Steps

variable {cfg : Config} {fd : ℤ} {i : ℕ} {port : UInt16} {q q' : Fifo LoMsg loQueueDepth} {w w' : World S}

namespace Registered

theorem lt (h : Registered cfg fd i port q w) : i < w.fds.length := lt_length_of_fdGet h.entry

theorem aside (h : Registered cfg fd i port q w) (hs : Aside i port w w') :
    Registered cfg fd i port q w' where
  entry := fdGet_congr h.entry (by rw [hs.kind, h.kind]; exact FdKind.noConfusion)
  kind := hs.kind.trans h.kind
  flag := hs.flag.trans h.flag
  slot := by rw [hs.slot, h.slot]
  pending := hs.pending.trans h.pending

/-- Another queue is stored. -/
theorem store (h : Registered cfg fd i port q w) (q' : Fifo LoMsg loQueueDepth) :
    Registered cfg fd i port q' (w.modFd i fun e => { e with loRx := some q'.items }) := by
  have hat := World.fdAt_modFd_self (fun e => { e with loRx := some q'.items }) h.lt
  refine ⟨fdGet_congr h.entry ?_, ?_, ?_, h.slot, ?_⟩
  · rw [hat, h.kind]
    exact FdKind.noConfusion
  · rw [hat, h.kind]
  · rw [hat, h.flag]
  · rw [hat]

/-- `lo_deliver` to the port. -/
theorem loDeliver (h : Registered cfg fd i port q w) (heap : Bool) (srcBe : UInt32) (srcPort : UInt16)
    (data : Bytes) : EspSmoltcp.loDeliver heap port srcBe srcPort data w
      = if heap = true ∧ data.length ≤ 65535 ∧ q.items.length < loQueueDepth then
          ((data.length : ℤ),
            w.modFd i fun e => { e with loRx := some (q.items ++ [⟨srcBe, srcPort, data⟩]) })
        else (-1, w) := by
  rw [EspSmoltcp.loDeliver]
  by_cases hlong : 65535 < data.length
  · rw [if_pos hlong, if_neg (by omega)]
  · rw [if_neg hlong, h.slot]
    simp only [h.pending]
    by_cases hroom : heap = true ∧ q.items.length < loQueueDepth
    · rw [if_pos hroom, if_pos ⟨hroom.1, not_lt.mp hlong, hroom.2⟩]
    · rw [if_neg hroom, if_neg fun hfits => hroom ⟨hfits.1, hfits.2.2⟩]

/-- **A `sendto` to the port appends its datagram, or is refused and leaves no trace.** -/
theorem sendto (h : Registered cfg fd i port q w) {c : SendtoCall} (hc : c.Over port) :
    SendOutcome cfg fd i port q c w (c.run cfg w) := by
  rw [SendtoCall.run, wrapLwipSendto]
  rcases hj : fdGet cfg w c.fd with _ | j
  · refine .refused _ fun hyes => ?_
    obtain ⟨j, hj', -⟩ := hyes.1.1
    rw [hj] at hj'
    cases hj'
  simp only
  by_cases hk : (w.fdAt j).kind = .udp
  swap
  · rw [if_pos hk]
    refine .refused _ fun hyes => hk ?_
    obtain ⟨j', hj', hk'⟩ := hyes.1.1
    obtain rfl := Option.some.inj (hj.symm.trans hj')
    exact hk'
  rw [if_neg (not_not_intro hk)]
  by_cases hlen : c.tolen < sizeofSockAddrIn
  · rw [if_pos hlen]
    exact .refused _ fun hyes => absurd hyes.1.2 (not_le.mpr hlen)
  rw [if_neg hlen, hc.1, hc.2, if_pos rfl, h.loDeliver]
  have hwf : c.WellFormed cfg w := ⟨⟨j, hj, hk⟩, not_lt.mp hlen⟩
  by_cases hfits : c.heap = true ∧ c.buf.length ≤ 65535 ∧ q.items.length < loQueueDepth
  · rw [if_pos hfits]
    obtain ⟨q', hsend, hitems⟩ := q.send_of_lt hfits.2.2
      ⟨(w.fdAt j).localIpv4Be, (w.fdAt j).localPort, c.buf⟩
    exact .taken ⟨hwf, hfits⟩ hj hsend (hitems ▸ h.store q')
  · rw [if_neg hfits]
    exact .refused _ fun hyes => hfits hyes.2

/-- A receive takes the oldest datagram, or finds none. -/
theorem receive (h : Registered cfg fd i port q w) :
    (q.items = [] ∧ loReceive i w = (none, w)) ∨ ∃ m q', q.receive = some (m, q') ∧
      (loReceive i w).1 = some m ∧ Registered cfg fd i port q' (loReceive i w).2 := by
  rw [loReceive, h.pending]
  rcases hq : q.items with _ | ⟨m, items⟩
  · exact .inl ⟨rfl, rfl⟩
  · obtain ⟨q', hreceive, hitems⟩ := Fifo.receive_cons hq
    exact .inr ⟨m, q', hreceive, rfl, hitems ▸ h.store q'⟩

end Registered

end Steps

/-! ## While a call waits -/

/-- A moment of a call: the `sendto` calls the others make, and what else they do. -/
structure LoTurn (S : Smoltcp) where
  now : UInt32
  calls : List SendtoCall
  others : World S → World S

/-- The calls one after the other. -/
def sendAll (cfg : Config) (calls : List SendtoCall) (w : World S) : World S :=
  calls.foldl (fun w c => (c.run cfg w).2) w

/-- What they send. -/
def acceptedOf (cfg : Config) : List SendtoCall → World S → List LoMsg
  | [], _ => []
  | c :: calls, w => c.accepted cfg w ++ acceptedOf cfg calls (c.run cfg w).2

namespace LoTurn

/-- The moment as the schedule has it. -/
def moment (cfg : Config) (t : LoTurn S) : Moment (World S) :=
  ⟨t.now, fun w => t.others (sendAll cfg t.calls w)⟩

/-- The others send to the port only, and leave the registered fd alone otherwise. -/
def Over (i : ℕ) (port : UInt16) (t : LoTurn S) : Prop :=
  (∀ c ∈ t.calls, c.Over port) ∧ ∀ w, Aside i port w (t.others w)

/-- The world after these moments. -/
def after (cfg : Config) (ts : List (LoTurn S)) (w : World S) : World S := evolve w (ts.map (moment cfg))

/-- What is sent at these moments. -/
def accepted (cfg : Config) : List (LoTurn S) → World S → List LoMsg
  | [], _ => []
  | t :: ts, w => acceptedOf cfg t.calls w ++ accepted cfg ts ((t.moment cfg).env w)

end LoTurn

section Waiting

variable {cfg : Config} {fd : ℤ} {i : ℕ} {port : UInt16} {q : Fifo LoMsg loQueueDepth} {w : World S}

/-- A call that returns no negative value has sent one datagram. -/
theorem SendOutcome.accepted {c : SendtoCall} (h : SendOutcome cfg fd i port q c w (c.run cfg w)) :
    (c.accepted cfg w = [] ∧ (c.run cfg w).2 = w) ∨ ∃ m q', c.accepted cfg w = [m] ∧
      q.send m = some q' ∧ Registered cfg fd i port q' (c.run cfg w).2 := by
  rw [SendtoCall.accepted]
  generalize c.run cfg w = r at h ⊢
  cases h with
  | refused e hno => exact .inl ⟨if_neg (by simp), rfl⟩
  | taken hyes hj hsend h =>
    refine .inr ⟨_, _, ?_, hsend, h⟩
    rw [if_pos (Int.natCast_nonneg _), hj]
    rfl

theorem Registered.sendAll (h : Registered cfg fd i port q w) {calls : List SendtoCall}
    (hc : ∀ c ∈ calls, c.Over port) : ∃ q', Registered cfg fd i port q' (sendAll cfg calls w) ∧
      Fifo.Run q (acceptedOf cfg calls w) [] q' := by
  induction calls generalizing q w with
  | nil => exact ⟨q, h, .nil q⟩
  | cons c calls ih =>
    have hrest : ∀ c ∈ calls, c.Over port := fun c hmem => hc c (List.mem_cons_of_mem _ hmem)
    obtain ⟨hacc, hw⟩ | ⟨m, q₁, hacc, hsend, h₁⟩ := (h.sendto (hc c List.mem_cons_self)).accepted
    · obtain ⟨q', h', hrun⟩ := ih (hw.symm ▸ h) hrest
      refine ⟨q', h', ?_⟩
      rw [acceptedOf, hacc]
      exact hrun
    · obtain ⟨q', h', hrun⟩ := ih h₁ hrest
      refine ⟨q', h', ?_⟩
      rw [acceptedOf, hacc]
      exact ((Fifo.Run.nil q).send hsend).trans hrun

theorem Registered.after (h : Registered cfg fd i port q w) {ts : List (LoTurn S)}
    (hts : ∀ t ∈ ts, t.Over i port) : ∃ q', Registered cfg fd i port q' (LoTurn.after cfg ts w) ∧
      Fifo.Run q (LoTurn.accepted cfg ts w) [] q' := by
  induction ts generalizing q w with
  | nil => exact ⟨q, h, .nil q⟩
  | cons t ts ih =>
    obtain ⟨hcalls, hothers⟩ := hts t List.mem_cons_self
    obtain ⟨q₁, h₁, hrun₁⟩ := h.sendAll hcalls
    obtain ⟨q', h', hrun⟩ := ih (h₁.aside (hothers _)) fun t ht => hts t (List.mem_cons_of_mem _ ht)
    exact ⟨q', h', hrun₁.trans hrun⟩

/-- What the loop of `recvfrom` has come to: these moments are over, and nothing was found before. -/
def Waited (cfg : Config) (ts : List (LoTurn S)) (w : World S) (s : Sys (World S) (Event S)) : Prop :=
  ∃ used rest, ts = used ++ rest ∧ s.sched = rest.map (LoTurn.moment cfg) ∧
    s.world = LoTurn.after cfg used w

/-- The last look at the queue took this. -/
def Took (cfg : Config) (i : ℕ) (ts : List (LoTurn S)) (w : World S) (m : Option LoMsg)
    (s : Sys (World S) (Event S)) : Prop :=
  ∃ used rest, ts = used ++ rest ∧ s.sched = rest.map (LoTurn.moment cfg) ∧
    loReceive i (LoTurn.after cfg used w) = (m, s.world)

theorem loReceive_none {w w' : World S} (h : loReceive i w = (none, w')) : w' = w := by
  rw [loReceive] at h
  split at h
  · cases h
  · exact (Prod.mk.inj h).2.symm

theorem triple_elapse_waited (ts : List (LoTurn S)) (w : World S) :
    Triple (Waited cfg ts w) Thread.elapse (fun _ => Waited cfg ts w) fun _ => True := by
  refine Triple.elapse (fun _ _ => trivial) fun w₁ m ms l => ?_
  rintro ⟨used, _ | ⟨t, rest⟩, rfl, hsched, hworld⟩
  · cases hsched
  · obtain ⟨rfl, rfl⟩ := List.cons.inj hsched
    refine ⟨used ++ [t], rest, by simp, rfl, ?_⟩
    simp only at hworld ⊢
    rw [hworld, LoTurn.after, LoTurn.after, evolve, evolve, List.map_append, List.foldl_append]
    rfl

/-- **The wait on the queue**: the others act, and the last look decides. -/
theorem triple_loReceiveWait (ts : List (LoTurn S)) (w : World S) (timeoutMs : UInt32) :
    Triple (Waited cfg ts w) (loReceiveWait cfg i timeoutMs) (Took cfg i ts w) fun _ => True := by
  refine Triple.bind (triple_elapse_waited ts w) fun start => ?_
  refine Triple.loop (I := fun _ => Waited cfg ts w) (fun _ _ _ => trivial) (fun now => ?_) start
  have hagain : Triple (Waited cfg ts w)
      (do Thread.emit .wait; pure (.inl (← Thread.elapse)) : Code S (UInt32 ⊕ Option LoMsg))
      (fun r s => Sum.elim (fun _ => Waited cfg ts w s) (fun m => Took cfg i ts w m s) r) fun _ => True := by
    refine Triple.bind (Q := fun _ => Waited cfg ts w) (Triple.emit fun _ hs => hs) fun _ => ?_
    exact Triple.bind (triple_elapse_waited ts w) fun _ => Triple.pure _ fun _ hs => hs
  rintro ⟨w₁, sched, l⟩ ⟨used, rest, hts, hsched, hworld⟩
  rw [loReceiveTurn, atomically_bind_apply]
  rcases hr : loReceive i w₁ with ⟨_ | m, w₂⟩
  · obtain rfl := loReceive_none hr
    simp only
    split_ifs with hlate
    · exact ⟨used, rest, hts, hsched, by rw [← hworld]; exact hr⟩
    · exact hagain _ ⟨used, rest, hts, hsched, hworld⟩
  · exact ⟨used, rest, hts, hsched, by rw [← hworld]; exact hr⟩

/-- What `recvfrom` returns for what it took. -/
def recvfromRet (nonblocking : Bool) (len : ℕ) : Option LoMsg → Ret × Bytes × Option (UInt32 × UInt16)
  | none => (if nonblocking then .fail .ewouldblock else ⟨0, none⟩, [], none)
  | some m => (⟨(min m.data.length len : ℕ), none⟩, m.data.take len,
      if 0 < min m.data.length len then some (m.srcBe, m.srcPort) else none)

theorem Registered.recvfrom (h : Registered cfg fd i port q w) {len : ℕ} {ts : List (LoTurn S)}
    {r : Ret × Bytes × Option (UInt32 × UInt16)} {sys : Sys (World S) (Event S)}
    (hcall : (wrapLwipRecvfrom cfg fd len).run w (ts.map (LoTurn.moment cfg)) = (some r, sys)) :
    ∃ m b, Took cfg i ts w m sys ∧ r = recvfromRet b len m := by
  have hlo : (w.fdAt i).loopback = true ∧ (w.fdAt i).loRx.isSome = true := ⟨h.flag, by rw [h.pending]; rfl⟩
  rw [Code.run, wrapLwipRecvfrom, Thread.world_bind_apply] at hcall
  simp only [h.entry] at hcall
  rw [Thread.world_bind_apply, if_neg (not_not_intro h.kind), if_pos hlo] at hcall
  obtain ⟨m, s₁, hwait, hrest⟩ := Thread.bind_eq_some.mp hcall
  have htook : Took cfg i ts w m s₁ :=
    (triple_loReceiveWait ts w _).of_some ⟨[], ts, rfl, rfl, rfl⟩ hwait
  rcases m with _ | m
  · obtain ⟨hr, rfl⟩ := Prod.mk.inj hrest
    exact ⟨none, _, htook, (Option.some.inj hr).symm⟩
  · obtain ⟨hr, rfl⟩ := Prod.mk.inj hrest
    refine ⟨some m, false, htook, (Option.some.inj hr).symm.trans ?_⟩
    have htake : m.data.take (min m.data.length len) = m.data.take len := by
      rw [← List.take_take, List.take_of_length_le]
      exact List.length_take_le' ..
    simp only [recvfromRet, htake]

end Waiting

/-! ## Periods -/

/-- A `recvfrom` of a period: the length of its buffer, what it returned, and what it took off the queue. -/
structure LoRecv where
  len : ℕ
  ret : Ret × Bytes × Option (UInt32 × UInt16)
  took : Option LoMsg

/-- The caller is told: the datagram cut to the buffer, with the source its sender has on record; or that
there is none. -/
def LoRecv.Reports (c : LoRecv) : Prop :=
  match c.took with
  | none => c.ret.1.ret ≤ 0 ∧ c.ret.2 = ([], none)
  | some m =>
    c.ret = (⟨(min m.data.length c.len : ℕ), none⟩, m.data.take c.len, some (m.srcBe, m.srcPort))

/-- A period in which the fd stays registered on the port: `sendto` calls to the port from any fd, `recvfrom`
calls on the fd, and what happens aside.  It has been sent these datagrams and made these calls. -/
inductive LoPeriod (cfg : Config) (fd : ℤ) (i : ℕ) (port : UInt16) (w₀ : World S) :
    List LoMsg → List LoRecv → World S → Prop
  | start : LoPeriod cfg fd i port w₀ [] [] w₀
  | sendto {acc : List LoMsg} {rcv : List LoRecv} {w : World S} {c : SendtoCall}
      (h : LoPeriod cfg fd i port w₀ acc rcv w) (hc : c.Over port) :
      LoPeriod cfg fd i port w₀ (acc ++ c.accepted cfg w) rcv (c.run cfg w).2
  | recvfrom {acc : List LoMsg} {rcv : List LoRecv} {w : World S} {len : ℕ} {used rest : List (LoTurn S)}
      {r : Ret × Bytes × Option (UInt32 × UInt16)} {sys : Sys (World S) (Event S)}
      (h : LoPeriod cfg fd i port w₀ acc rcv w) (hts : ∀ t ∈ used ++ rest, t.Over i port)
      (hcall : (wrapLwipRecvfrom cfg fd len).run w ((used ++ rest).map (LoTurn.moment cfg)) = (some r, sys))
      (hsched : sys.sched.length = rest.length) :
      LoPeriod cfg fd i port w₀ (acc ++ LoTurn.accepted cfg used w)
        (rcv ++ [⟨len, r, (loReceive i (LoTurn.after cfg used w)).1⟩]) sys.world
  | aside {acc : List LoMsg} {rcv : List LoRecv} {w w' : World S} (h : LoPeriod cfg fd i port w₀ acc rcv w)
      (hs : Aside i port w w') : LoPeriod cfg fd i port w₀ acc rcv w'

section Periods

variable {cfg : Config} {fd : ℤ} {i : ℕ} {port : UInt16} {q₀ : Fifo LoMsg loQueueDepth} {w₀ w : World S}
  {acc : List LoMsg} {rcv : List LoRecv}

/-- The moments a call has used are those it has not left. -/
theorem Took.used {used rest : List (LoTurn S)} {m : Option LoMsg} {sys : Sys (World S) (Event S)}
    (h : Took cfg i (used ++ rest) w m sys) (hsched : sys.sched.length = rest.length) :
    loReceive i (LoTurn.after cfg used w) = (m, sys.world) := by
  obtain ⟨used', rest', hsplit, hrest, hreceive⟩ := h
  have hlen : rest.length = rest'.length := by rw [← hsched, hrest, List.length_map]
  obtain ⟨rfl, rfl⟩ := List.append_inj' hsplit hlen
  exact hreceive

/-- **The queue of a registered fd is the FIFO.** -/
theorem LoPeriod.simulates (h : LoPeriod cfg fd i port w₀ acc rcv w)
    (h₀ : Registered cfg fd i port q₀ w₀) :
    ∃ q, Registered cfg fd i port q w ∧ Fifo.Run q₀ acc (rcv.filterMap LoRecv.took) q := by
  induction h with
  | start => exact ⟨q₀, h₀, .nil q₀⟩
  | sendto _ hc ih =>
    obtain ⟨q, hq, hrun⟩ := ih
    obtain ⟨hacc, hw⟩ | ⟨m, q', hacc, hsend, h'⟩ := (hq.sendto hc).accepted
    · rw [hacc, hw, List.append_nil]
      exact ⟨q, hq, hrun⟩
    · rw [hacc]
      exact ⟨q', h', hrun.send hsend⟩
  | @recvfrom _ _ w len used rest r sys _ hts hcall hsched ih =>
    obtain ⟨q, hq, hrun⟩ := ih
    obtain ⟨m, b, htook, -⟩ := hq.recvfrom hcall
    obtain ⟨q₁, h₁, hsent⟩ := hq.after fun t ht => hts t (List.mem_append_left rest ht)
    have hreceive := htook.used hsched
    have hrun₁ := hrun.trans hsent
    rw [List.append_nil] at hrun₁
    rw [List.filterMap_append]
    obtain ⟨-, hnone⟩ | ⟨m', q₂, hfifo, hsome, h₂⟩ := h₁.receive
    · have hw : LoTurn.after cfg used w = sys.world :=
        (Prod.mk.inj (hnone.symm.trans hreceive)).2
      refine ⟨q₁, hw ▸ h₁, ?_⟩
      simpa [hnone] using hrun₁
    · rw [hreceive] at h₂
      refine ⟨q₂, h₂, ?_⟩
      simpa [hsome] using hrun₁.receive hfifo
  | aside _ hs ih =>
    obtain ⟨q, hq, hrun⟩ := ih
    exact ⟨q, hq.aside hs, hrun⟩

/-- What the calls of a period return follows from what they took. -/
theorem LoPeriod.ret_eq (h : LoPeriod cfg fd i port w₀ acc rcv w) (h₀ : Registered cfg fd i port q₀ w₀) :
    ∀ c ∈ rcv, ∃ b, c.ret = recvfromRet b c.len c.took := by
  induction h with
  | start => exact fun _ hc => absurd hc List.not_mem_nil
  | sendto _ _ ih => exact ih
  | @recvfrom _ _ w len used rest r sys hperiod hts hcall hsched ih =>
    intro c hc
    obtain hc | hc := List.mem_append.mp hc
    · exact ih c hc
    · obtain rfl := List.mem_singleton.mp hc
      obtain ⟨q, hq, -⟩ := hperiod.simulates h₀
      obtain ⟨m, b, htook, hr⟩ := hq.recvfrom hcall
      rw [htook.used hsched]
      exact ⟨b, hr⟩
  | aside _ _ ih => exact ih

/-- `recvfrom` reports what it took, but for an empty datagram and an empty buffer. -/
theorem LoRecv.reports_iff {c : LoRecv} {b : Bool} (hret : c.ret = recvfromRet b c.len c.took) :
    c.Reports ↔ ∀ m, c.took = some m → m.data ≠ [] ∧ c.len ≠ 0 := by
  rw [LoRecv.Reports, hret]
  rcases c.took with _ | m
  · refine iff_of_true ⟨?_, rfl⟩ nofun
    rcases b with _ | _
    · exact Int.le_refl 0
    · exact (by decide : (-1 : ℤ) ≤ 0)
  · have hpos : 0 < min m.data.length c.len ↔ m.data ≠ [] ∧ c.len ≠ 0 := by
      rw [Nat.lt_min, List.length_pos_iff, Nat.pos_iff_ne_zero]
    simp only [recvfromRet, Option.some.injEq, forall_eq', ← hpos]
    by_cases h : 0 < min m.data.length c.len
    · rw [if_pos h]
      exact iff_of_true rfl h
    · rw [if_neg h]
      exact iff_of_false (fun heq => absurd (congrArg (·.2.2) heq) nofun) h

/-- The period is a bounded FIFO to those who call: what was pending and what was sent is what was received
and what is pending, in this order; every call that received one reports it; and the next `sendto` is taken
as long as there is room, and leaves no trace otherwise. -/
structure LoFifo (cfg : Config) (i : ℕ) (port : UInt16) (q₀ : Fifo LoMsg loQueueDepth) (acc : List LoMsg)
    (rcv : List LoRecv) (w : World S) : Prop where
  queue : ∃ q : Fifo LoMsg loQueueDepth, (w.fdAt i).loRx = some q.items ∧
    q₀.items ++ acc = rcv.filterMap LoRecv.took ++ q.items ∧
    ∀ c : SendtoCall, c.Over port → c.WellFormed cfg w →
      (c.Fits q → (c.run cfg w).1.ret = c.buf.length) ∧
        (¬ c.Fits q → (c.run cfg w).1.ret = -1 ∧ (c.run cfg w).2 = w)
  reports : ∀ c ∈ rcv, c.Reports

/-- **Loopback delivery is a bounded FIFO exactly as long as no receive takes an empty datagram or has an
empty buffer.** -/
theorem loFifo_iff (h : LoPeriod cfg fd i port w₀ acc rcv w) (h₀ : Registered cfg fd i port q₀ w₀) :
    LoFifo cfg i port q₀ acc rcv w ↔ ∀ c ∈ rcv, ∀ m, c.took = some m → m.data ≠ [] ∧ c.len ≠ 0 := by
  have hreports : (∀ c ∈ rcv, c.Reports) ↔ ∀ c ∈ rcv, ∀ m, c.took = some m → m.data ≠ [] ∧ c.len ≠ 0 := by
    refine forall₂_congr fun c hc => ?_
    obtain ⟨b, hret⟩ := h.ret_eq h₀ c hc
    exact LoRecv.reports_iff hret
  rw [← hreports]
  refine ⟨LoFifo.reports, fun hall => ⟨?_, hall⟩⟩
  obtain ⟨q, hq, hrun⟩ := h.simulates h₀
  refine ⟨q, hq.pending, hrun.conserves, fun c hc hwf => ?_⟩
  have houtcome := hq.sendto hc
  generalize c.run cfg w = r at houtcome
  cases houtcome with
  | refused e hno => exact ⟨fun hfits => absurd ⟨hwf, hfits⟩ hno, fun _ => ⟨rfl, rfl⟩⟩
  | taken hyes => exact ⟨fun _ => rfl, fun hno => absurd hyes.2 hno⟩

end Periods

/-! ## How a period starts -/

/-- The slot `lo_bind` fills is the one `lo_deliver` finds. -/
theorem find_loSlotFor {slots : List LoSlot} {port : UInt16} {k : ℕ} (hk : loSlotFor slots port = some k)
    (i : ℕ) : (slots.set k ⟨port, some i⟩).find? (fun s => s.port = port) = some ⟨port, some i⟩ := by
  have hfirst : ∃ hlt : k < slots.length, ∀ j, (hj : j < k) → ¬ (slots[j]).port = port := by
    rw [loSlotFor] at hk
    split at hk
    · rename_i k' hfound
      obtain rfl := Option.some.inj hk
      obtain ⟨hlt, -, hbefore⟩ := List.findIdx?_eq_some_iff_getElem.mp hfound
      exact ⟨hlt, fun j hj => by simpa using hbefore j hj⟩
    · rename_i hnone
      obtain ⟨hlt, -, -⟩ := List.findIdx?_eq_some_iff_getElem.mp hk
      refine ⟨hlt, fun j hj => ?_⟩
      have hall := List.findIdx?_eq_none_iff.mp hnone _ (List.getElem_mem (Nat.lt_trans hj hlt))
      simpa using hall
  obtain ⟨hlt, hbefore⟩ := hfirst
  refine List.find?_eq_some_iff_getElem.mpr ⟨by simp, k, by simpa using hlt, by simp, fun j hj => ?_⟩
  rw [List.getElem_set_ne (by omega)]
  simpa using hbefore j hj

/-- A `lo_bind` that succeeds registers a UDP fd; its queue keeps what it held. -/
theorem registered_of_loBind {cfg : Config} {heap : Bool} {fd : ℤ} {port : UInt16} {i : ℕ} {w : World S}
    (hfd : fdGet cfg w fd = some i) (hk : (w.fdAt i).kind = .udp) (q : Fifo LoMsg loQueueDepth)
    (hq : (w.fdAt i).loRx.getD [] = q.items) (hok : (loBind heap port i w).1 = .ok) :
    Registered cfg fd i port q (loBind heap port i w).2 := by
  have hspec := loBind_spec heap port i w
  generalize loBind heap port i w = r at hspec hok ⊢
  cases hspec with
  | refused hrc => exact absurd hok hrc
  | full => cases hok
  | @slot w' k _ hslot hw =>
    have hat : w'.fdAt i = (w.fdAt i).loBound := hw ▸ World.fdAt_modFd_self _ (lt_length_of_fdGet hfd)
    refine ⟨fdGet_congr (w := w) hfd ?_, ?_, ?_, ?_, ?_⟩
    · change (w'.fdAt i).kind ≠ .free
      rw [hat, FdEntry.loBound, hk]
      exact FdKind.noConfusion
    · change (w'.fdAt i).kind = .udp
      rw [hat, FdEntry.loBound, hk]
    · change (w'.fdAt i).loopback = true
      rw [hat, FdEntry.loBound]
    · rw [find_loSlotFor hslot]
      rfl
    · change (w'.fdAt i).loRx = some q.items
      rw [hat, FdEntry.loBound, ← hq]

/-- **A `bind` to a loopback address registers the fd**; its queue keeps what it held. -/
theorem registered_of_bind {cfg : Config} {heap : Bool} {fd : ℤ} {addr : SockAddrIn} {alen i : ℕ}
    {w : World S} (hfd : fdGet cfg w fd = some i) (hk : (w.fdAt i).kind = .udp)
    (hlo : isLoopbackIp addr.addrBe = true) (q : Fifo LoMsg loQueueDepth)
    (hq : (w.fdAt i).loRx.getD [] = q.items) (hret : (wrapLwipBind cfg heap fd addr alen w).1.ret = 0) :
    Registered cfg fd i addr.port q (wrapLwipBind cfg heap fd addr alen w).2 := by
  have hspec := wrapLwipBind_spec cfg heap fd addr alen w
  generalize wrapLwipBind cfg heap fd addr alen w = r at hspec hret ⊢
  cases hspec with
  | refused e => exact absurd hret (Ret.ret_fail_ne_zero _)
  | @stored j w₁ r hj hw hr =>
    obtain rfl := Option.some.inj (hfd.symm.trans hj)
    have hat : w₁.fdAt i = (w.fdAt i).bound addr := hw ▸ World.fdAt_modFd_self _ (lt_length_of_fdGet hfd)
    have hk₁ : (w₁.fdAt i).kind = .udp := by
      rw [hat]
      exact hk
    cases hr with
    | stream hk' => exact absurd hk₁ hk'
    | reopened _ hlo' => exact absurd hlo (by rw [hlo']; decide)
    | @loopback _ _ o ho =>
      have hok : (loBind heap addr.port i w₁).1 = .ok := by
        rw [ho]
        by_contra hne
        rw [if_neg hne] at hret
        exact absurd hret (by simp)
      have hentry : fdGet cfg w₁ fd = some i := fdGet_congr hfd (by rw [hk₁]; exact FdKind.noConfusion)
      rw [← ho]
      exact registered_of_loBind hentry hk₁ q (by rw [hat]; exact hq) hok

/-! ### An empty datagram -/

/-- Ethernet is attached and two UDP fds are bound to `127.0.0.1`, to the ports 5000 and 6000. -/
def loopbackPair : World .reference :=
  let w := (World.boot .default).attach .eth fun _ => 0
  let w := (wrapLwipSocket .default 2 2 w).2
  let w := (wrapLwipBind .default true 48 ⟨2, 0x0100007F, 5000⟩ sizeofSockAddrIn w).2
  let w := (wrapLwipSocket .default 2 2 w).2
  (wrapLwipBind .default true 49 ⟨2, 0x0100007F, 6000⟩ sizeofSockAddrIn w).2

theorem registered_loopbackPair : Registered .default 48 0 5000 .empty loopbackPair :=
  ⟨rfl, rfl, rfl, rfl, rfl⟩

/-- The second fd sends to the first. -/
def toFirst (buf : Bytes) : SendtoCall := ⟨true, 49, buf, ⟨2, 0x0100007F, 5000⟩, sizeofSockAddrIn⟩

/-- The datagram, as it is queued. -/
def fromSecond (buf : Bytes) : LoMsg := ⟨0x0100007F, 6000, buf⟩

/-- The first fd receives. -/
def firstReceives (buf : Bytes) : Option (Ret × Bytes × Option (UInt32 × UInt16)) × Sys (World .reference)
    (Event .reference) :=
  (wrapLwipRecvfrom .default 48 16).run ((toFirst buf).run .default loopbackPair).2 [idle 0]

/-- One datagram is sent and received. -/
def OneDatagram (buf : Bytes) (ret : Ret × Bytes × Option (UInt32 × UInt16)) : Prop :=
  LoPeriod .default 48 0 5000 loopbackPair [fromSecond buf] [⟨16, ret, some (fromSecond buf)⟩]
    (firstReceives buf).2.world

theorem over_toFirst (buf : Bytes) : (toFirst buf).Over 5000 := ⟨(by decide : isLoopbackIp 0x0100007F = true), rfl⟩

/-- The one moment at which the clock is read; nobody else acts. -/
def quietTurn : LoTurn .reference := ⟨0, [], id⟩

theorem over_quietTurn : ∀ t ∈ [quietTurn] ++ [], t.Over 0 5000 := by
  intro t ht
  obtain rfl := List.mem_singleton.mp ht
  exact ⟨nofun, fun _ => ⟨rfl, rfl, rfl, rfl⟩⟩

theorem oneDatagram_empty : OneDatagram [] (⟨0, none⟩, [], none) :=
  @LoPeriod.recvfrom _ .default 48 0 5000 loopbackPair _ _ _ 16 [quietTurn] [] _ _
    (.sendto .start (over_toFirst [])) over_quietTurn rfl rfl

/-- **An empty datagram is sent, and `recvfrom` returns what it returns when there is none.** -/
theorem empty_unreported : OneDatagram [] (⟨0, none⟩, [], none) ∧
    ¬ LoFifo .default 0 5000 .empty [fromSecond []] [⟨16, (⟨0, none⟩, [], none), some (fromSecond [])⟩]
      (firstReceives []).2.world := by
  refine ⟨oneDatagram_empty, fun h => ?_⟩
  have hreport := congrArg (·.2.2) (h.reports _ (List.mem_singleton_self _))
  cases hreport

/-- Two datagrams are sent, and a receive with room for one byte takes each of them. -/
def twoReceived : List LoRecv :=
  [⟨1, (⟨1, none⟩, [1], some (0x0100007F, 6000)), some (fromSecond [1])⟩,
    ⟨1, (⟨1, none⟩, [2], some (0x0100007F, 6000)), some (fromSecond [2, 3])⟩]

theorem loPeriod_two : ∃ w : World .reference,
    LoPeriod .default 48 0 5000 loopbackPair [fromSecond [1], fromSecond [2, 3]] twoReceived w := by
  have hsent : LoPeriod .default 48 0 5000 loopbackPair [fromSecond [1], fromSecond [2, 3]] [] _ :=
    .sendto (.sendto .start (over_toFirst [1])) (over_toFirst [2, 3])
  have hfirst := @LoPeriod.recvfrom _ .default 48 0 5000 loopbackPair _ _ _ 1 [quietTurn] [] _ _ hsent
    over_quietTurn rfl rfl
  exact ⟨_, @LoPeriod.recvfrom _ .default 48 0 5000 loopbackPair _ _ _ 1 [quietTurn] [] _ _ hfirst
    over_quietTurn rfl rfl⟩

/-- They come in order, each with its source, the second one cut to the buffer. -/
theorem loFifo_two : ∃ w : World .reference,
    LoPeriod .default 48 0 5000 loopbackPair [fromSecond [1], fromSecond [2, 3]] twoReceived w ∧
      LoFifo .default 0 5000 .empty [fromSecond [1], fromSecond [2, 3]] twoReceived w := by
  obtain ⟨w, hperiod⟩ := loPeriod_two
  refine ⟨w, hperiod, (loFifo_iff hperiod registered_loopbackPair).mpr ?_⟩
  intro c hc m hm
  obtain rfl | hc := List.mem_cons.mp hc
  · obtain rfl := Option.some.inj hm
    exact ⟨List.cons_ne_nil 1 [], by decide⟩
  · obtain rfl := List.mem_singleton.mp hc
    obtain rfl := Option.some.inj hm
    exact ⟨List.cons_ne_nil 2 [3], by decide⟩

end EspSmoltcp
