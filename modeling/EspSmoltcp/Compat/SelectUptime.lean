import EspSmoltcp.Compat.Capacity
import EspSmoltcp.Compat.Uptime

/-!
# Compat/SelectUptime — `select` on two clocks, and the waiting calls together

`select` compares readings in two places: with its own deadline after each scan, and, inside the scan, in
the receive with no timeout that `fd_readable` makes for a UDP fd.  If a comparison in the scan goes the
other way on the second clock, the two runs are apart from that fd on (`apart_selectScan`); if the one after
the scan does, one run returns and the other one waits (`splits_selectCheck`).

The deadline has a value of its own for "no deadline", `portMAX_DELAY`, and a sum may hit it by accident.
On one clock `select` then never reads the counter again, on the other one it does, and the schedules of the
two runs no longer match; this case is left to one side in `uptimeFree_iff_steady`, which is otherwise an
iff for all six waiting calls.
-/

namespace EspSmoltcp

open Thread (AfterReading Alike Apart EveryTurn Onward SameRun Splits)

variable {S : Smoltcp} {β : Type}

/-! ## `select`: one fd -/

section Readable

variable {cfg : Config} {c : UInt32} {i : ℕ} {s : Sys (World S) (Event S)}

/-- `fd_readable` on a UDP fd is a receive with no timeout; the reading it compares is on its deadline's
side of the wrap. -/
def ReadSteady (cfg : Config) (c : UInt32) (i : ℕ) (s : Sys (World S) (Event S)) : Prop :=
  (s.world.fdAt i).kind = .udp → ¬ ((s.world.fdAt i).loopback = true ∧ (s.world.fdAt i).loRx.isSome = true) →
    RecvCallSteady cfg c (s.world.fdAt i).sock 0 (.udpRecv (s.world.fdAt i).sock)
      (udpRecvProbe · (s.world.fdAt i).sock.localId 0) none s

theorem sameRun_anyConnected (pool : List NetSock) :
    SameRun c (anyConnected pool) (anyConnected pool) s := by
  induction pool generalizing s with
  | nil => rfl
  | cons t ts ih =>
    rw [anyConnected, sameRun_atomically_bind]
    split_ifs
    · rfl
    · exact ih

theorem onward_anyConnected (pool : List NetSock) : Onward (anyConnected (S := S) pool) := by
  induction pool with
  | nil => exact Onward.pure _
  | cons t ts ih =>
    refine Onward.bind (onward_atomically _ _) fun up => ?_
    split_ifs
    · exact Onward.pure _
    · exact ih

theorem onward_recvCall {s : NetSock} {timeoutMs : UInt32} {call : Call}
    {probe : IfaceId → World S → (Int × β) × World S} {nothing : β} :
    Onward (recvCall cfg s timeoutMs call probe nothing) := by
  refine Onward.world.bind fun w => ?_
  rcases handleFor w s.iface with _ | h
  · exact Onward.pure _
  · refine onward_xTaskGetTickCount.bind fun start => Onward.loop (fun _ => ?_) ()
    rw [recvTurn_eq]
    exact onward_probeTurn

theorem sameRun_fdReadable (h : ReadSteady cfg c i s) :
    SameRun c (fdReadable cfg i) (fdReadable cfg i) s := by
  rw [fdReadable, Thread.sameRun_world_bind]
  simp only
  split_ifs with hk hlo
  · exact sameRun_anyConnected _
  · rfl
  · rcases hkind : (s.world.fdAt i).kind with _ | _ | _ | _
    · rfl
    · simp only
      rw [sameRun_atomically_bind]
      split_ifs
      · rfl
      · rfl
    · simp only
      rw [netUdpRecvfrom_eq]
      exact SameRun.bind (sameRun_recvCall (h hkind hlo)) fun _ _ _ => rfl
    · rfl

theorem onward_fdReadable : Onward (fdReadable (S := S) cfg i) := by
  refine Onward.world.bind fun w => ?_
  simp only
  split_ifs
  · exact onward_anyConnected _
  · exact Onward.pure _
  · rcases (w.fdAt i).kind with _ | _ | _ | _
    · exact Onward.pure _
    · refine Onward.bind (onward_atomically _ _) fun n => ?_
      split_ifs
      · exact Onward.pure _
      · exact Onward.bind (onward_atomically _ _) fun _ => Onward.world.bind fun _ => Onward.pure _
    · simp only [netUdpRecvfrom_eq]
      exact onward_recvCall.bind fun _ => Onward.pure _
    · exact Onward.pure _

theorem sameRun_askReadable (h : ReadSteady cfg c i s) :
    SameRun c (askReadable cfg i) (askReadable cfg i) s := by
  rw [askReadable, Thread.sameRun_world_bind]
  exact SameRun.bind (sameRun_fdReadable h) fun _ _ _ => rfl

theorem onward_askReadable : Onward (askReadable (S := S) cfg i) :=
  Onward.world.bind fun _ => onward_fdReadable.bind fun _ => (Onward.emit _).bind fun _ => Onward.pure _

/-- The answer for a UDP fd, once its receive has returned. -/
def answer (i : ℕ) (w : World S) (r : Int × Option UdpRecv) : Code S Bool := do
  Thread.emit (.readable i w (0 < r.1))
  pure (decide (0 < r.1))

theorem onward_answer (w : World S) (r : Int × Option UdpRecv) : Onward (answer i w r) :=
  (Onward.emit _).bind fun _ => Onward.pure _

/-- A UDP fd is asked by a receive. -/
theorem askReadable_udp (hk : (s.world.fdAt i).kind = .udp)
    (hlo : ¬ ((s.world.fdAt i).loopback = true ∧ (s.world.fdAt i).loRx.isSome = true)) :
    askReadable cfg i s = (recvCall cfg (s.world.fdAt i).sock 0 (.udpRecv (s.world.fdAt i).sock)
      (udpRecvProbe · (s.world.fdAt i).sock.localId 0) none >>= answer i s.world) s := by
  have hread : fdReadable cfg i s = (recvCall cfg (s.world.fdAt i).sock 0 (.udpRecv (s.world.fdAt i).sock)
      (udpRecvProbe · (s.world.fdAt i).sock.localId 0) none >>= fun r => pure (decide (0 < r.1))) s := by
    rw [fdReadable, Thread.world_bind_apply]
    simp only [hk, reduceCtorEq, if_false, if_neg hlo]
    rfl
  rw [askReadable, Thread.world_bind_apply]
  rcases hr : recvCall cfg (s.world.fdAt i).sock 0 (.udpRecv (s.world.fdAt i).sock)
      (udpRecvProbe · (s.world.fdAt i).sock.localId 0) none s with ⟨_ | r, s₁⟩
  · rw [Thread.bind_of_none hr] at hread ⊢
    exact Thread.bind_of_none hread _
  · rw [Thread.bind_of_some hr] at hread ⊢
    exact Thread.bind_of_some hread _

/-- **If it is not, one run has given its answer where the other one still receives.** -/
theorem apart_askReadable (h : ¬ ReadSteady cfg c i s) :
    Apart (askReadable cfg i s) (askReadable cfg i (s.ahead c)) := by
  obtain ⟨hk, h⟩ := Classical.not_imp.mp h
  obtain ⟨hlo, h⟩ := Classical.not_imp.mp h
  rw [askReadable_udp hk hlo, askReadable_udp (s := s.ahead c) hk hlo, Sys.world_ahead]
  obtain ⟨r, s₁, e, -, ⟨b, a, rfl⟩, ⟨hr, hs⟩ | ⟨hr, hs⟩⟩ := splits_recvCall h
  · rw [Thread.bind_of_some hr]
    refine Thread.apart_of_cons (l := s₁.log) List.suffix_rfl
      (hs.trans (Onward.later_bind (onward_answer s.world) _ (s.ahead c)).log) (by simp)
  · rw [Thread.bind_of_some hr]
    refine Thread.apart_of_cons (l := s₁.log) (hs.trans (Onward.later_bind (onward_answer s.world) _ s).log)
      List.suffix_rfl (by simp)

end Readable

/-! ## `select`: the scan -/

section Scan

variable {cfg : Config} {c : UInt32} {rdIn wrIn : Finset ℤ} {fd : ℤ} {fds : List ℤ} {r : Ready}
  {s : Sys (World S) (Event S)}

/-- What the scan asks of this fd compares readings on their deadline's side of the wrap… -/
def FdSteady (cfg : Config) (c : UInt32) (rdIn : Finset ℤ) (fd : ℤ) (s : Sys (World S) (Event S)) : Prop :=
  ∀ i, fdGet cfg s.world fd = some i → fd ∈ rdIn → ReadSteady cfg c i s

/-- …and so for every fd it comes to. -/
def ScanSteady (cfg : Config) (c : UInt32) (rdIn wrIn : Finset ℤ) :
    List ℤ → Ready → Sys (World S) (Event S) → Prop
  | [], _, _ => True
  | fd :: fds, r, s => FdSteady cfg c rdIn fd s ∧
    ∀ r' s', scanFd cfg rdIn wrIn fd r s = (some r', s') → ScanSteady cfg c rdIn wrIn fds r' s'

theorem sameRun_fdWritable (i : ℕ) : SameRun c (fdWritable i) (fdWritable i) s := by
  rw [fdWritable, Thread.sameRun_world_bind]
  simp only
  rcases (s.world.fdAt i).kind with _ | _ | _ | _
  · rfl
  · simp only
    split_ifs
    · rfl
    · rfl
  · rfl
  · rfl

theorem onward_fdWritable (i : ℕ) : Onward (fdWritable (S := S) i) := by
  refine Onward.world.bind fun w => ?_
  simp only
  rcases (w.fdAt i).kind with _ | _ | _ | _
  · exact Onward.pure _
  · simp only
    split_ifs
    · exact Onward.bind (onward_atomically _ _) fun _ => Onward.pure _
    · exact Onward.pure _
  · exact Onward.pure _
  · exact Onward.pure _

/-- The second half of `scanFd`: is the fd writable? -/
def scanWritable (wrIn : Finset ℤ) (fd : ℤ) (i : ℕ) (r : Ready) (readable : Bool) : Code S Ready := do
  let r := if readable then { r with rd := insert fd r.rd, ready := r.ready + 1 } else r
  let writable ← if fd ∈ wrIn then fdWritable i else pure false
  pure (if writable then { r with wr := insert fd r.wr, ready := r.ready + 1 } else r)

theorem scanFd_eq : scanFd (S := S) cfg rdIn wrIn fd r = (do
    match fdGet cfg (← Thread.world) fd with
    | none => pure r
    | some i =>
      let readable ← if fd ∈ rdIn then askReadable cfg i else pure false
      scanWritable wrIn fd i r readable) := rfl

theorem sameRun_scanWritable {i : ℕ} {readable : Bool} :
    SameRun c (scanWritable wrIn fd i r readable) (scanWritable wrIn fd i r readable) s := by
  rw [scanWritable]
  by_cases hmem : fd ∈ wrIn
  · simp only [if_pos hmem]
    exact SameRun.bind (sameRun_fdWritable i) fun _ _ _ => SameRun.pure _
  · simp only [if_neg hmem]
    rfl

theorem onward_scanWritable {i : ℕ} {readable : Bool} :
    Onward (scanWritable (S := S) wrIn fd i r readable) := by
  rw [scanWritable]
  by_cases hmem : fd ∈ wrIn
  · simp only [if_pos hmem]
    exact (onward_fdWritable i).bind fun _ => Onward.pure _
  · simp only [if_neg hmem]
    exact (Onward.pure _).bind fun _ => Onward.pure _

theorem sameRun_scanFd (h : FdSteady cfg c rdIn fd s) :
    SameRun c (scanFd cfg rdIn wrIn fd r) (scanFd cfg rdIn wrIn fd r) s := by
  rw [scanFd_eq, Thread.sameRun_world_bind]
  rcases hfd : fdGet cfg s.world fd with _ | i
  · rfl
  · simp only
    split_ifs with hmem
    · exact SameRun.bind (sameRun_askReadable (h i hfd hmem)) fun _ _ _ => sameRun_scanWritable
    · exact sameRun_scanWritable

theorem onward_scanFd : Onward (scanFd (S := S) cfg rdIn wrIn fd r) := by
  rw [scanFd_eq]
  refine Onward.world.bind fun w => ?_
  rcases fdGet cfg w fd with _ | i
  · exact Onward.pure _
  · simp only
    split_ifs
    · exact onward_askReadable.bind fun _ => onward_scanWritable
    · exact (Onward.pure _).bind fun _ => onward_scanWritable

theorem apart_scanFd (h : ¬ FdSteady cfg c rdIn fd s) :
    Apart (scanFd cfg rdIn wrIn fd r s) (scanFd cfg rdIn wrIn fd r (s.ahead c)) := by
  obtain ⟨i, h⟩ := not_forall.mp h
  obtain ⟨hfd, h⟩ := Classical.not_imp.mp h
  obtain ⟨hmem, h⟩ := Classical.not_imp.mp h
  have hrun : ∀ s' : Sys (World S) (Event S), s'.world = s.world → scanFd cfg rdIn wrIn fd r s'
      = (askReadable cfg i >>= scanWritable wrIn fd i r) s' := by
    intro s' hs'
    rw [scanFd_eq, Thread.world_bind_apply, hs']
    simp only [hfd, if_pos hmem]
  rw [hrun s rfl, hrun (s.ahead c) rfl]
  exact (apart_askReadable h).mono (Onward.later_bind (fun _ => onward_scanWritable) _ _).log
    (Onward.later_bind (fun _ => onward_scanWritable) _ _).log

theorem sameRun_selectScan (h : ScanSteady cfg c rdIn wrIn fds r s) :
    SameRun c (selectScan cfg rdIn wrIn fds r) (selectScan cfg rdIn wrIn fds r) s := by
  induction fds generalizing r s with
  | nil => rfl
  | cons fd fds ih => exact SameRun.bind (sameRun_scanFd h.1) fun r' s' hr => ih (h.2 r' s' hr)

theorem onward_selectScan : Onward (selectScan (S := S) cfg rdIn wrIn fds r) := by
  induction fds generalizing r with
  | nil => exact Onward.pure _
  | cons fd fds ih => exact onward_scanFd.bind fun _ => ih

theorem apart_selectScan (h : ¬ ScanSteady cfg c rdIn wrIn fds r s) :
    Apart (selectScan cfg rdIn wrIn fds r s) (selectScan cfg rdIn wrIn fds r (s.ahead c)) := by
  induction fds generalizing r s with
  | nil => exact absurd trivial h
  | cons fd fds ih =>
    rw [selectScan]
    by_cases hfd : FdSteady cfg c rdIn fd s
    · -- The scans part at a later fd.
      obtain ⟨r', hr'⟩ := not_forall.mp fun hrest => h ⟨hfd, hrest⟩
      obtain ⟨s', hs'⟩ := not_forall.mp hr'
      obtain ⟨hrun, hrest⟩ := Classical.not_imp.mp hs'
      have hsame : SameRun c (scanFd cfg rdIn wrIn fd r) (scanFd cfg rdIn wrIn fd r) s := sameRun_scanFd hfd
      rw [SameRun, hrun] at hsame
      rw [Thread.bind_of_some hrun, Thread.bind_of_some hsame]
      exact ih hrest
    · exact (apart_scanFd hfd).mono (Onward.later_bind (fun _ => onward_selectScan) _ _).log
        (Onward.later_bind (fun _ => onward_selectScan) _ _).log

end Scan

/-! ## `select`: the loop -/

section Select

variable {cfg : Config} {c d : UInt32} {nfds : ℤ} {rdIn wrIn : Finset ℤ} {deadline : Option UInt32} {r : Ready}
  {s : Sys (World S) (Event S)}

/-- The fds a scan goes through. -/
def scanFds (nfds : ℤ) : List ℤ := (List.range nfds.toNat).map Nat.cast

/-- What a turn does after its scan. -/
def selectCheck (deadline : UInt32) (r : Ready) : Code S (Unit ⊕ Ready) := do
  if r.ready ≠ 0 then pure (.inr r)
  else if deadline = portMaxDelay then
    blockingWait
    pure (.inl ())
  else if deadline ≤ (← xTaskGetTickCount) then pure (.inr r)
  else
    blockingWait
    pure (.inl ())

theorem selectTurn_eq (deadline : UInt32) : selectTurn (S := S) cfg nfds rdIn wrIn deadline
    = (selectScan cfg rdIn wrIn (scanFds nfds) {} >>= selectCheck deadline) := rfl

/-- The check of a deadline goes alike on both clocks: either takes it for `portMAX_DELAY` or neither does,
and the reading it is compared with is on its side of the wrap. -/
def CheckSteady (c d : UInt32) (s : Sys (World S) (Event S)) : Prop :=
  (d = portMaxDelay ↔ d + c = portMaxDelay) ∧ (d ≠ portMaxDelay → NextSameSide c d s)

/-- Every reading a turn of `select` compares is on its deadline's side of the wrap. -/
def SelectTurnSteady (cfg : Config) (c : UInt32) (nfds : ℤ) (rdIn wrIn : Finset ℤ)
    (deadline : Option UInt32) (s : Sys (World S) (Event S)) : Prop :=
  ScanSteady cfg c rdIn wrIn (scanFds nfds) {} s ∧
    ∀ r s₁, selectScan cfg rdIn wrIn (scanFds nfds) {} s = (some r, s₁) → r.ready = 0 →
      ∀ d ∈ deadline, CheckSteady c d s₁

/-- The deadline as the code stores it. -/
def storedDeadline (deadline : Option UInt32) : UInt32 := deadline.getD portMaxDelay

theorem selectCheck_eq (d : UInt32) (r : Ready) : selectCheck (S := S) d r = (do
    if r.ready ≠ 0 then pure (.inr r)
    else if d = portMaxDelay then
      blockingWait
      pure (.inl ())
    else leaveOrWait d r ()) := rfl

theorem onward_selectCheck (d : UInt32) (r : Ready) : Onward (selectCheck (S := S) d r) := by
  rw [selectCheck_eq]
  split_ifs
  · exact Onward.pure _
  · exact onward_blockingWait.bind fun _ => Onward.pure _
  · exact onward_leaveOrWait

theorem onward_selectTurn (d : UInt32) : Onward (selectTurn (S := S) cfg nfds rdIn wrIn d) :=
  onward_selectScan.bind (onward_selectCheck d)

theorem selectCheck_again {s' : Sys (World S) (Event S)} (h : selectCheck d r s = (some (.inl ()), s')) :
    s'.sched.length < s.sched.length := by
  rw [selectCheck_eq] at h
  split_ifs at h
  · cases h
  · exact (blockingWait_again h).2
  · exact (leaveOrWait_again h).2

theorem selectTurn_progress (d : UInt32) :
    Thread.Progress (fun _ => 0) fun (_ : Unit) => selectTurn (S := S) cfg nfds rdIn wrIn d := by
  rintro ⟨⟩ s ⟨⟩ s' h
  rw [selectTurn_eq] at h
  obtain ⟨r, s₁, hscan, hcheck⟩ := Thread.bind_eq_some.mp h
  have hlater : Thread.Later s (selectScan cfg rdIn wrIn (scanFds nfds) {} s).2 := onward_selectScan s
  rw [hscan] at hlater
  have hsched := hlater.sched
  have hlt := selectCheck_again hcheck
  simp only at hsched ⊢
  omega

theorem sameRun_selectCheck_some (h : r.ready = 0 → CheckSteady c d s) :
    SameRun c (selectCheck d r) (selectCheck (d + c) r) s := by
  rw [selectCheck_eq, selectCheck_eq]
  by_cases hr : r.ready ≠ 0
  · rw [if_pos hr, if_pos hr]
    rfl
  rw [if_neg hr, if_neg hr]
  obtain ⟨hmax, hside⟩ := h (not_not.mp hr)
  by_cases hd : d = portMaxDelay
  · rw [if_pos hd, if_pos (hmax.mp hd)]
    exact SameRun.blockingWait_bind fun _ => rfl
  · rw [if_neg hd, if_neg fun hd' => hd (hmax.mpr hd')]
    exact sameRun_leaveOrWait (hside hd)

theorem sameRun_selectCheck_none :
    SameRun c (selectCheck portMaxDelay r) (selectCheck portMaxDelay r) s := by
  rw [selectCheck]
  by_cases hr : r.ready ≠ 0
  · rw [if_pos hr]
    rfl
  · rw [if_neg hr, if_pos rfl]
    exact SameRun.blockingWait_bind fun _ => rfl

theorem sameRun_selectTurn (h : SelectTurnSteady cfg c nfds rdIn wrIn deadline s) :
    SameRun c (selectTurn cfg nfds rdIn wrIn (storedDeadline deadline))
      (selectTurn cfg nfds rdIn wrIn (storedDeadline (deadline.map (· + c)))) s := by
  rw [selectTurn_eq, selectTurn_eq]
  refine SameRun.bind (sameRun_selectScan h.1) fun r s₁ hr => ?_
  rcases deadline with _ | d
  · exact sameRun_selectCheck_none
  · exact sameRun_selectCheck_some fun hready => h.2 r s₁ hr hready d rfl

/-- A reading on the other side of the wrap: one run returns where the other one waits. -/
theorem splits_selectCheck (hr : r.ready = 0) (hmax : d = portMaxDelay ↔ d + c = portMaxDelay)
    (h : ¬ CheckSteady c d s) : Splits (fun r => r.isRight = true) (· = .wait) (selectCheck d r s)
      (selectCheck (d + c) r (s.ahead c)) := by
  obtain ⟨hd, hside⟩ := Classical.not_imp.mp fun hside => h ⟨hmax, hside⟩
  have hd' : d + c ≠ portMaxDelay := fun hd' => hd (hmax.mpr hd')
  rw [selectCheck_eq, selectCheck_eq, if_neg (not_not.mpr hr), if_neg hd, if_neg (not_not.mpr hr),
    if_neg hd']
  exact splits_leaveOrWait hside

/-- **A turn in which the clocks compare differently shows, unless the deadline is `portMAX_DELAY` on one
clock only.** -/
theorem log_ne_of_selectTurn (hmax : ∀ d ∈ deadline, (d = portMaxDelay ↔ d + c = portMaxDelay))
    (h : ¬ SelectTurnSteady cfg c nfds rdIn wrIn deadline s) :
    (selectLoop cfg nfds rdIn wrIn (storedDeadline (deadline.map (· + c))) (s.ahead c)).2.log
      ≠ (selectLoop cfg nfds rdIn wrIn (storedDeadline deadline) s).2.log := by
  by_cases hscan : ScanSteady cfg c rdIn wrIn (scanFds nfds) {} s
  · obtain ⟨r, hr⟩ := not_forall.mp fun hrest => h ⟨hscan, hrest⟩
    obtain ⟨s₁, hs₁⟩ := not_forall.mp hr
    obtain ⟨hrun, hs₁⟩ := Classical.not_imp.mp hs₁
    obtain ⟨hready, hs₁⟩ := Classical.not_imp.mp hs₁
    obtain ⟨d, hd⟩ := not_forall.mp hs₁
    obtain ⟨hmem, hcheck⟩ := Classical.not_imp.mp hd
    obtain rfl : deadline = some d := hmem
    have hsame := sameRun_selectScan hscan
    rw [SameRun, hrun] at hsame
    refine Splits.log_ne (Splits.loop (E := (· = .wait)) (fun _ => onward_selectTurn _)
      (fun _ => onward_selectTurn _) ?_)
    rw [selectTurn_eq, selectTurn_eq, Thread.bind_of_some hrun, Thread.bind_of_some hsame]
    exact splits_selectCheck hready (hmax d rfl) hcheck
  · refine Apart.log_ne (Apart.mono (apart_selectScan hscan) ?_ ?_)
    · exact (Onward.later_bind (onward_selectCheck _) _ s).log.trans
        (Onward.later_loop (fun _ => onward_selectTurn _) () s).log
    · exact (Onward.later_bind (onward_selectCheck _) _ (s.ahead c)).log.trans
        (Onward.later_loop (fun _ => onward_selectTurn _) () (s.ahead c)).log

/-- Every reading `select` compares with a deadline is on its side of the wrap, and no check it comes to
takes the deadline for `portMAX_DELAY` on one clock only. -/
def SelectSteady (cfg : Config) (c : UInt32) (nfds : ℤ) (rd wr : Finset ℤ) (timeout : Option TimeVal)
    (s : Sys (World S) (Event S)) : Prop :=
  match timeout with
  | some tv => AfterReading (fun start => EveryTurn
      (fun (_ : Unit) => selectTurn cfg nfds rd wr (start + cfg.msToTicks tv.ms))
      (fun _ => SelectTurnSteady cfg c nfds rd wr (some (start + cfg.msToTicks tv.ms))) ()) s
  | none => EveryTurn (fun (_ : Unit) => selectTurn cfg nfds rd wr portMaxDelay)
      (fun _ => SelectTurnSteady cfg c nfds rd wr none) () s

/-- The deadline of `select` is `portMAX_DELAY`, which stands for no deadline, on one clock only. -/
def ForeverOnOneClock (cfg : Config) (c : UInt32) (timeout : Option TimeVal)
    (s : Sys (World S) (Event S)) : Prop :=
  ∃ tv ∈ timeout, ¬ AfterReading (fun start _ => start + cfg.msToTicks tv.ms = portMaxDelay ↔
    start + cfg.msToTicks tv.ms + c = portMaxDelay) s

theorem sameRun_selectLoop (deadline : Option UInt32) (h : EveryTurn
      (fun (_ : Unit) => selectTurn cfg nfds rdIn wrIn (storedDeadline deadline))
      (fun _ => SelectTurnSteady cfg c nfds rdIn wrIn deadline) () s) :
    SameRun c (selectLoop cfg nfds rdIn wrIn (storedDeadline deadline))
      (selectLoop cfg nfds rdIn wrIn (storedDeadline (deadline.map (· + c)))) s :=
  SameRun.loop (fun _ _ hs => sameRun_selectTurn hs) h

theorem everyTurn_of_alike_selectLoop (deadline : Option UInt32)
    (hmax : ∀ d ∈ deadline, (d = portMaxDelay ↔ d + c = portMaxDelay))
    (h : Alike c (selectLoop cfg nfds rdIn wrIn (storedDeadline deadline))
      (selectLoop cfg nfds rdIn wrIn (storedDeadline (deadline.map (· + c)))) s) :
    EveryTurn (fun (_ : Unit) => selectTurn cfg nfds rdIn wrIn (storedDeadline deadline))
      (fun _ => SelectTurnSteady cfg c nfds rdIn wrIn deadline) () s := by
  by_contra hnot
  refine Thread.loop_of_round (R := fun r r' => r'.2.log ≠ r.2.log) (selectTurn_progress _)
    (selectTurn_progress _) (fun _ _ hs => sameRun_selectTurn hs) (fun _ _ hs => ?_) hnot h.2
  exact log_ne_of_selectTurn hmax hs

theorem alike_of_selectSteady {timeout : Option TimeVal}
    (h : SelectSteady cfg c nfds rdIn wrIn timeout s) :
    Alike c (wrapLwipSelect cfg nfds rdIn wrIn timeout) (wrapLwipSelect cfg nfds rdIn wrIn timeout) s := by
  rcases timeout with _ | tv
  · exact (sameRun_selectLoop none h).alike
  · rw [wrapLwipSelect, alike_reading_bind]
    intro m ms hs
    rw [add_ahead]
    exact (sameRun_selectLoop (some _) (h m ms hs)).alike

theorem selectSteady_of_alike {timeout : Option TimeVal}
    (h : Alike c (wrapLwipSelect cfg nfds rdIn wrIn timeout) (wrapLwipSelect cfg nfds rdIn wrIn timeout) s) :
    SelectSteady cfg c nfds rdIn wrIn timeout s ∨ ForeverOnOneClock cfg c timeout s := by
  rcases timeout with _ | tv
  · exact .inl (everyTurn_of_alike_selectLoop none (fun _ hd => nomatch hd) h)
  · rw [wrapLwipSelect, alike_reading_bind] at h
    by_cases hmax : AfterReading (fun start _ => start + cfg.msToTicks tv.ms = portMaxDelay ↔
        start + cfg.msToTicks tv.ms + c = portMaxDelay) s
    · refine .inl fun m ms hs => everyTurn_of_alike_selectLoop (some _) ?_ ?_
      · rintro d ⟨⟩
        exact hmax m ms hs
      · have hm := h m ms hs
        simp only at hm
        rw [add_ahead] at hm
        exact hm
    · exact .inr ⟨tv, rfl, hmax⟩

end Select

/-! ## The waiting calls -/

/-- A call that waits. -/
inductive WaitCall
  | connect (s : NetSock) (ipv4Be : UInt32) (port : UInt16) (timeoutMs rand : UInt32)
  | send (s : NetSock) (buf : Bytes) (timeoutMs : UInt32)
  | recv (s : NetSock) (cap : ℕ) (timeoutMs : UInt32)
  | recvfrom (s : NetSock) (cap : ℕ) (timeoutMs : UInt32)
  | select (nfds : ℤ) (rd wr : Finset ℤ) (timeout : Option TimeVal)
  | accept (fd : ℤ)

namespace WaitCall

/-- What it returns. -/
def Result : WaitCall → Type
  | connect .. => EspErr
  | send .. => Int
  | recv .. => Int × Bytes
  | recvfrom .. => Int × Option UdpRecv
  | select .. => Ready
  | accept .. => Ret

def code (cfg : Config) : (x : WaitCall) → Code S x.Result
  | connect s ipv4Be port timeoutMs rand => netTcpConnect cfg s ipv4Be port timeoutMs rand
  | send s buf timeoutMs => netTcpSend cfg s buf timeoutMs
  | recv s cap timeoutMs => netTcpRecv cfg s cap timeoutMs
  | recvfrom s cap timeoutMs => netUdpRecvfrom cfg s cap timeoutMs
  | select nfds rd wr timeout => wrapLwipSelect cfg nfds rd wr timeout
  | accept fd => wrapLwipAccept cfg fd

/-- **The call does the same and returns the same when the clock is ahead by `c`.** -/
def UptimeFree (cfg : Config) (x : WaitCall) (c : UInt32) (w : World S) (sched : List (Moment (World S))) :
    Prop :=
  ((x.code cfg).run w (sched.map (Moment.ahead c))).1 = ((x.code cfg).run w sched).1 ∧
    ((x.code cfg).run w (sched.map (Moment.ahead c))).2.log = ((x.code cfg).run w sched).2.log

/-- **Every reading of the clock the call compares with a deadline is on the deadline's side of the wrap.** -/
def Steady (cfg : Config) (c : UInt32) (s : Sys (World S) (Event S)) : WaitCall → Prop
  | connect t ipv4Be port timeoutMs rand => ConnectSteady cfg c t ipv4Be port timeoutMs rand s
  | send t buf timeoutMs => SendSteady cfg c t buf timeoutMs s
  | recv t cap timeoutMs =>
    RecvCallSteady cfg c t timeoutMs .other (tcpRecvProbe · t.localId cap) [] s
  | recvfrom t cap timeoutMs =>
    RecvCallSteady cfg c t timeoutMs (.udpRecv t) (udpRecvProbe · t.localId cap) none s
  | select nfds rd wr timeout => SelectSteady cfg c nfds rd wr timeout s
  | accept _ => True

/-- It is a `select` whose deadline is `portMAX_DELAY` on one clock only. -/
def Forever (cfg : Config) (c : UInt32) (s : Sys (World S) (Event S)) : WaitCall → Prop
  | select _ _ _ timeout => ForeverOnOneClock cfg c timeout s
  | _ => False

end WaitCall

/-- **A call does not depend on the uptime if no reading it compares crosses the wrap against its deadline;
and, but for a deadline that is `portMAX_DELAY` on one clock only, only then.** -/
theorem uptimeFree_iff_steady (cfg : Config) (x : WaitCall) (c : UInt32) (w : World S)
    (sched : List (Moment (World S))) :
    (x.Steady cfg c ⟨w, sched, []⟩ → x.UptimeFree cfg c w sched) ∧
      (x.UptimeFree cfg c w sched → x.Steady cfg c ⟨w, sched, []⟩ ∨ x.Forever cfg c ⟨w, sched, []⟩) := by
  cases x with
  | connect s ipv4Be port timeoutMs rand =>
    have h := netTcpConnect_alike_iff cfg c s ipv4Be port timeoutMs rand ⟨w, sched, []⟩
    exact ⟨h.mpr, fun halike => .inl (h.mp halike)⟩
  | send s buf timeoutMs =>
    have h := netTcpSend_alike_iff cfg c s buf timeoutMs ⟨w, sched, []⟩
    exact ⟨h.mpr, fun halike => .inl (h.mp halike)⟩
  | recv s cap timeoutMs =>
    have h := recvCall_alike_iff cfg c s timeoutMs .other (tcpRecvProbe · s.localId cap) [] ⟨w, sched, []⟩
    rw [← netTcpRecv_eq] at h
    exact ⟨h.mpr, fun halike => .inl (h.mp halike)⟩
  | recvfrom s cap timeoutMs =>
    have h := recvCall_alike_iff cfg c s timeoutMs (.udpRecv s) (udpRecvProbe · s.localId cap) none
      ⟨w, sched, []⟩
    rw [← netUdpRecvfrom_eq] at h
    exact ⟨h.mpr, fun halike => .inl (h.mp halike)⟩
  | select nfds rd wr timeout =>
    exact ⟨fun h => alike_of_selectSteady h, fun halike => selectSteady_of_alike halike⟩
  | accept fd =>
    exact ⟨fun _ => (sameRun_wrapLwipAccept cfg fd c ⟨w, sched, []⟩).alike, fun _ => .inl trivial⟩

/-! ### A receive that straddles the wrap -/

/-- A peer has connected and sent two bytes. -/
def peerSent : World .reference := peerConnected.deliver .eth 0 (.send [1, 2])

/-- Fifty ticks before the wrap: a hundred ticks later the counter has wrapped. -/
def beforeWrap : UInt32 := 0xFFFFFFCE

/-- **Just before the wrap a receive gives up at once**, with two bytes waiting that the same receive returns
at any other time. -/
theorem recv_depends_on_uptime :
    (Config.default.msToTicks 100).toNat < 2 ^ 31 ∧
      (((WaitCall.recv ⟨1⟩ 16 100).code .default).run peerSent [idle 0, idle 0]).1 = some (2, [1, 2]) ∧
      (((WaitCall.recv ⟨1⟩ 16 100).code .default).run peerSent
        [idle beforeWrap, idle beforeWrap]).1 = some (0, []) ∧
      ¬ (WaitCall.recv ⟨1⟩ 16 100).UptimeFree .default beforeWrap peerSent [idle 0, idle 0] := by
  refine ⟨by decide, rfl, rfl, fun h => ?_⟩
  cases h.1

end EspSmoltcp
