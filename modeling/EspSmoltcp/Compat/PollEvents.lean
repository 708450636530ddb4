import EspSmoltcp.Compat.Readiness
import EspSmoltcp.Compat.SelectUptime

/-!
# Compat/PollEvents — what `poll` makes of a scan

`poll` merges the requests of its entries into the two sets of `select`.  When they come back it marks every
entry whose fd is in one of them, whoever asked for it, and counts the marks.

* **One scan** (`found_selectScan`).  The sets a scan ends with are what the fds answered when it came to them,
  `scanAnswer`.
* **The last scan** (`exists_lastScan`).  What a `select` returns is what the last of its scans found.
* **The marks** (`poll_right_iff`).  They are the ones the entries asked for, and as many as entries, exactly
  if in that scan no entry's fd was found ready in two ways or in one that the entry did not ask for.
-/

namespace EspSmoltcp

open Thread (LastTurn)

variable {S : Smoltcp}

/-! ## One scan -/

/-- A question, if the fd is in the set. -/
def askIf (fd : ℤ) (fds : Finset ℤ) (question : Code S Bool) : Code S Bool :=
  if fd ∈ fds then question else pure false

/-- What a scan is told about an fd: is it readable, and is it writable? -/
def fdAnswers (cfg : Config) (rdIn wrIn : Finset ℤ) (fd : ℤ) : Code S (Bool × Bool) := do
  match fdGet cfg (← Thread.world) fd with
  | none => pure (false, false)
  | some i =>
    let readable ← askIf fd rdIn (askReadable cfg i)
    let writable ← askIf fd wrIn (fdWritable i)
    pure (readable, writable)

/-- What it makes of that. -/
def Ready.note (r : Ready) (fd : ℤ) (a : Bool × Bool) : Ready :=
  let r := if a.1 then { r with rd := insert fd r.rd, ready := r.ready + 1 } else r
  if a.2 then { r with wr := insert fd r.wr, ready := r.ready + 1 } else r

theorem scanFd_eq_note (cfg : Config) (rdIn wrIn : Finset ℤ) (fd : ℤ) (r : Ready) :
    scanFd (S := S) cfg rdIn wrIn fd r = (do
      let a ← fdAnswers cfg rdIn wrIn fd
      pure (r.note fd a)) := by
  rw [fdAnswers, Thread.bind_assoc]
  refine congrArg (Thread.world >>= ·) (funext fun w => ?_)
  rcases fdGet cfg w fd with _ | i
  · rfl
  · simp only [askIf]
    split_ifs <;> simp only [Thread.bind_assoc] <;> rfl

namespace Ready

variable {r : Ready} {fd x : ℤ} {a : Bool × Bool}

theorem mem_rd_note : x ∈ (r.note fd a).rd ↔ x ∈ r.rd ∨ x = fd ∧ a.1 = true := by
  obtain ⟨a | a, b | b⟩ := a <;> simp [note, or_comm]

theorem mem_wr_note : x ∈ (r.note fd a).wr ↔ x ∈ r.wr ∨ x = fd ∧ a.2 = true := by
  obtain ⟨a | a, b | b⟩ := a <;> simp [note, or_comm]

/-- Nothing was counted if nothing was found. -/
theorem note_of_ready_zero (h : (r.note fd a).ready = 0) : r.note fd a = r := by
  obtain ⟨a | a, b | b⟩ := a
  · rfl
  all_goals simp [note] at h

end Ready

/-- What a scan from here is told about an fd when it comes to it. -/
def scanAnswer (cfg : Config) (rdIn wrIn : Finset ℤ) (s : Sys (World S) (Event S)) (fd : ℤ) : Bool × Bool :=
  ((do
    let _ ← selectScan cfg rdIn wrIn (scanFds fd) {}
    fdAnswers cfg rdIn wrIn fd) s).1.getD (false, false)

/-- The fds the scan has found so far, up to `n`, are those that answered so. -/
structure Found (cfg : Config) (rdIn wrIn : Finset ℤ) (s : Sys (World S) (Event S)) (n : ℤ) (r : Ready) :
    Prop where
  rd : ∀ fd, fd ∈ r.rd ↔ 0 ≤ fd ∧ fd < n ∧ (scanAnswer cfg rdIn wrIn s fd).1 = true
  wr : ∀ fd, fd ∈ r.wr ↔ 0 ≤ fd ∧ fd < n ∧ (scanAnswer cfg rdIn wrIn s fd).2 = true
  zero : r.ready = 0 → r = {}

section Scan

variable {cfg : Config} {rdIn wrIn : Finset ℤ} {s s' : Sys (World S) (Event S)} {r : Ready}

theorem scanFds_succ (n : ℕ) : scanFds (n + 1 : ℕ) = scanFds n ++ [(n : ℤ)] := by
  rw [scanFds, scanFds, Int.toNat_natCast, Int.toNat_natCast, List.range_succ, List.map_append]
  rfl

theorem below_succ_iff {P : ℤ → Prop} (n : ℕ) (fd : ℤ) :
    (0 ≤ fd ∧ fd < n ∧ P fd) ∨ fd = n ∧ P n ↔ 0 ≤ fd ∧ fd < (n + 1 : ℕ) ∧ P fd := by
  constructor
  · rintro (⟨h0, hlt, hP⟩ | ⟨rfl, hP⟩)
    · exact ⟨h0, by omega, hP⟩
    · exact ⟨by omega, by omega, hP⟩
  · rintro ⟨h0, hlt, hP⟩
    by_cases hfd : fd = n
    · subst hfd
      exact .inr ⟨rfl, hP⟩
    · exact .inl ⟨h0, by omega, hP⟩

/-- **A scan ends with what the fds answered.** -/
theorem found_selectScan {n : ℕ} (h : selectScan cfg rdIn wrIn (scanFds n) {} s = (some r, s')) :
    Found cfg rdIn wrIn s n r := by
  induction n generalizing r s' with
  | zero =>
    obtain ⟨hr, -⟩ := Prod.mk.inj h
    obtain rfl := Option.some.inj hr
    refine ⟨fun fd => ?_, fun fd => ?_, fun _ => rfl⟩
    · exact iff_of_false (Finset.notMem_empty fd) fun h => by omega
    · exact iff_of_false (Finset.notMem_empty fd) fun h => by omega
  | succ n ih =>
    rw [scanFds_succ, selectScan_append_eq] at h
    obtain ⟨r₁, s₁, h₁, h₂⟩ := Thread.bind_eq_some.mp h
    rw [selectScan, scanFd_eq_note, Thread.bind_assoc] at h₂
    obtain ⟨a, s₂, hans, hnote⟩ := Thread.bind_eq_some.mp h₂
    obtain ⟨hr, rfl⟩ := Prod.mk.inj hnote
    obtain rfl := Option.some.inj hr
    have ha : scanAnswer cfg rdIn wrIn s n = a := by
      rw [scanAnswer, Thread.bind_of_some h₁, hans]
      rfl
    have hfound := ih h₁
    refine ⟨fun fd => ?_, fun fd => ?_, fun hzero => ?_⟩
    · rw [Ready.mem_rd_note, hfound.rd, ← ha]
      exact below_succ_iff (P := fun fd => (scanAnswer cfg rdIn wrIn s fd).1 = true) n fd
    · rw [Ready.mem_wr_note, hfound.wr, ← ha]
      exact below_succ_iff (P := fun fd => (scanAnswer cfg rdIn wrIn s fd).2 = true) n fd
    · have hnote := Ready.note_of_ready_zero hzero
      rw [hnote] at hzero ⊢
      exact hfound.zero hzero

/-- An fd no entry of the table stands for answers nothing. -/
theorem scanAnswer_of_neg {fd : ℤ} (h : fd < 0) : scanAnswer cfg rdIn wrIn s fd = (false, false) := by
  have hfds : scanFds fd = [] := by rw [scanFds, Int.toNat_of_nonpos h.le]; rfl
  have hget : fdGet cfg s.world fd = none := by
    rw [fdGet, fdIndex, if_neg (by omega)]
    rfl
  rw [scanAnswer, hfds, selectScan, Thread.pure_bind_apply, fdAnswers, Thread.world_bind_apply, hget]
  rfl

theorem mem_of_askIf {fd : ℤ} {fds : Finset ℤ} {question : Code S Bool}
    (h : askIf fd fds question s = (some true, s')) : fd ∈ fds := by
  by_contra hfd
  rw [askIf, if_neg hfd] at h
  cases h

/-- An fd is asked only as the sets say. -/
theorem asked_of_fdAnswers {fd : ℤ} {a : Bool × Bool} (h : fdAnswers cfg rdIn wrIn fd s = (some a, s')) :
    (a.1 = true → fd ∈ rdIn) ∧ (a.2 = true → fd ∈ wrIn) := by
  rw [fdAnswers, Thread.world_bind_apply] at h
  rcases hfd : fdGet cfg s.world fd with _ | i
  · rw [hfd] at h
    obtain rfl := Option.some.inj (Prod.mk.inj h).1
    exact ⟨(nomatch ·), (nomatch ·)⟩
  · rw [hfd] at h
    obtain ⟨readable, s₁, hread, h⟩ := Thread.bind_eq_some.mp h
    obtain ⟨writable, s₂, hwrite, h⟩ := Thread.bind_eq_some.mp h
    obtain rfl := Option.some.inj (Prod.mk.inj h).1
    refine ⟨?_, ?_⟩
    · rintro rfl
      exact mem_of_askIf hread
    · rintro rfl
      exact mem_of_askIf hwrite

theorem asked_of_scanAnswer {fd : ℤ} :
    ((scanAnswer cfg rdIn wrIn s fd).1 = true → fd ∈ rdIn) ∧
      ((scanAnswer cfg rdIn wrIn s fd).2 = true → fd ∈ wrIn) := by
  rw [scanAnswer]
  rcases h : (do
    let _ ← selectScan cfg rdIn wrIn (scanFds fd) {}
    fdAnswers cfg rdIn wrIn fd : Code S (Bool × Bool)) s with ⟨_ | a, s₂⟩
  · simp
  · obtain ⟨r, s₁, -, hans⟩ := Thread.bind_eq_some.mp h
    exact asked_of_fdAnswers hans

end Scan

/-! ## The last scan -/

section Last

variable {cfg : Config} {nfds : ℤ} {rdIn wrIn : Finset ℤ} {timeout : Option TimeVal} {w : World S}
  {sched : List (Moment (World S))}

/-- The state in which the last scan of a `select` begins. -/
def LastScan (cfg : Config) (nfds : ℤ) (rdIn wrIn : Finset ℤ) (timeout : Option TimeVal) (w : World S)
    (sched : List (Moment (World S))) (s₀ : Sys (World S) (Event S)) : Prop :=
  match timeout with
  | none =>
    LastTurn (fun (_ : Unit) => selectTurn cfg nfds rdIn wrIn portMaxDelay) () ⟨w, sched, []⟩ ((), s₀)
  | some tv => ∃ m ms, sched = m :: ms ∧
    LastTurn (fun (_ : Unit) => selectTurn cfg nfds rdIn wrIn (m.now + cfg.msToTicks tv.ms)) ()
      ⟨m.env w, ms, []⟩ ((), s₀)

theorem LastScan.unique {s₀ s₀' : Sys (World S) (Event S)}
    (h : LastScan cfg nfds rdIn wrIn timeout w sched s₀)
    (h' : LastScan cfg nfds rdIn wrIn timeout w sched s₀') : s₀ = s₀' := by
  rcases timeout with _ | tv
  · exact (Prod.mk.inj (LastTurn.unique h h')).2
  · obtain ⟨m, ms, rfl, h⟩ := h
    obtain ⟨m', ms', hs, h'⟩ := h'
    obtain ⟨rfl, rfl⟩ := List.cons.inj hs
    exact (Prod.mk.inj (h.unique h')).2

/-- A turn returns what its scan found. -/
theorem scan_of_selectTurn {deadline : UInt32} {r : Ready} {s s' : Sys (World S) (Event S)}
    (h : selectTurn cfg nfds rdIn wrIn deadline s = (some (.inr r), s')) :
    ∃ s₁, selectScan cfg rdIn wrIn (scanFds nfds) {} s = (some r, s₁) := by
  rw [selectTurn_eq] at h
  obtain ⟨r', s₁, hscan, hcheck⟩ := Thread.bind_eq_some.mp h
  refine ⟨s₁, ?_⟩
  suffices hr : r' = r from hr ▸ hscan
  obtain ⟨w₁, ms, l⟩ := s₁
  rw [selectCheck] at hcheck
  split_ifs at hcheck
  · exact Sum.inr.inj (Option.some.inj (Prod.mk.inj hcheck).1)
  · rcases ms with _ | ⟨m, ms⟩ <;> cases hcheck
  · rcases ms with _ | ⟨m, ms⟩
    · cases hcheck
    rw [xTaskGetTickCount_bind_cons] at hcheck
    split_ifs at hcheck
    · exact Sum.inr.inj (Option.some.inj (Prod.mk.inj hcheck).1)
    · rcases ms with _ | ⟨m, ms⟩ <;> cases hcheck

/-- **What a `select` returns is what its last scan found.** -/
theorem exists_lastScan {r : Ready} {sys : Sys (World S) (Event S)}
    (hrun : (wrapLwipSelect cfg nfds rdIn wrIn timeout).run w sched = (some r, sys)) :
    ∃ s₀, LastScan cfg nfds rdIn wrIn timeout w sched s₀ ∧
      ∃ s₁, selectScan cfg rdIn wrIn (scanFds nfds) {} s₀ = (some r, s₁) := by
  rcases timeout with _ | tv
  · rw [Code.run, wrapLwipSelect] at hrun
    obtain ⟨⟨⟨⟩, s₀⟩, hlast, hturn⟩ := Thread.exists_lastTurn hrun
    exact ⟨s₀, hlast, scan_of_selectTurn hturn⟩
  · rcases sched with _ | ⟨m, ms⟩
    · cases hrun
    rw [Code.run, wrapLwipSelect, xTaskGetTickCount_bind_cons] at hrun
    obtain ⟨⟨⟨⟩, s₀⟩, hlast, hturn⟩ := Thread.exists_lastTurn hrun
    exact ⟨s₀, ⟨m, ms, rfl, hlast⟩, scan_of_selectTurn hturn⟩

end Last

/-! ## `poll` -/

/-- The fds some entry wants to read from. -/
def pollRd (fds : List PollFd) : Finset ℤ := ((fds.filter PollFd.pollIn).map PollFd.fd).toFinset

/-- The fds some entry wants to write to. -/
def pollWr (fds : List PollFd) : Finset ℤ := ((fds.filter PollFd.pollOut).map PollFd.fd).toFinset

/-- What `poll` passes to `select` as `nfds`. -/
def pollNfds (fds : List PollFd) : ℤ := fds.foldl (fun m p => max m p.fd) (-1) + 1

/-- The timeout `poll` passes on. -/
def pollTimeout (timeoutMs : ℤ) : Option TimeVal :=
  if timeoutMs < 0 then none else some ⟨timeoutMs.tdiv 1000, timeoutMs.tmod 1000 * 1000⟩

/-- An entry with `revents` from these answers. -/
def PollFd.mark (ans : ℤ → Bool × Bool) (p : PollFd) : PollFd :=
  { p with revIn := (ans p.fd).1, revOut := (ans p.fd).2 }

/-- The bits set in `revents`. -/
def PollFd.marks (p : PollFd) : ℕ := p.revIn.toNat + p.revOut.toNat

/-- What an entry asks for. -/
def PollFd.request (p : PollFd) : ℤ × Bool × Bool := (p.fd, p.pollIn, p.pollOut)

/-- The sets of a scan as answers. -/
def Ready.answer (r : Ready) (fd : ℤ) : Bool × Bool := (decide (fd ∈ r.rd), decide (fd ∈ r.wr))

/-- What a scan of `poll` that begins here is told about an fd. -/
def pollAnswer (cfg : Config) (fds : List PollFd) (s₀ : Sys (World S) (Event S)) : ℤ → Bool × Bool :=
  scanAnswer cfg (pollRd fds) (pollWr fds) s₀

/-- The state in which the last scan of a `poll` begins. -/
def PollScan (cfg : Config) (fds : List PollFd) (timeoutMs : ℤ) (w : World S)
    (sched : List (Moment (World S))) : Sys (World S) (Event S) → Prop :=
  LastScan cfg (pollNfds fds) (pollRd fds) (pollWr fds) (pollTimeout timeoutMs) w sched

section Poll

variable {cfg : Config} {fds : List PollFd} {timeoutMs n : ℤ} {out : List PollFd} {w : World S}
  {sched : List (Moment (World S))} {sys : Sys (World S) (Event S)}

theorem mem_pollRd {fd : ℤ} : fd ∈ pollRd fds ↔ ∃ p ∈ fds, p.pollIn = true ∧ p.fd = fd := by
  simp [pollRd, and_assoc]

theorem mem_pollWr {fd : ℤ} : fd ∈ pollWr fds ↔ ∃ p ∈ fds, p.pollOut = true ∧ p.fd = fd := by
  simp [pollWr, and_assoc]

theorem le_foldl_max (fds : List PollFd) (m : ℤ) : (m ≤ fds.foldl (fun m p => max m p.fd) m) ∧
    ∀ p ∈ fds, p.fd ≤ fds.foldl (fun m p => max m p.fd) m := by
  induction fds generalizing m with
  | nil => simp
  | cons q fds ih =>
    obtain ⟨hm, hall⟩ := ih (max m q.fd)
    refine ⟨(le_max_left ..).trans hm, fun p hp => ?_⟩
    obtain rfl | hp := List.mem_cons.mp hp
    · exact (le_max_right ..).trans hm
    · exact hall p hp

/-- `poll` is a `select`, and marks the entries with what that returns. -/
theorem of_wrapLwipPoll (hrun : (wrapLwipPoll cfg fds timeoutMs).run w sched = (some (n, out), sys)) :
    ∃ r, (wrapLwipSelect cfg (pollNfds fds) (pollRd fds) (pollWr fds) (pollTimeout timeoutMs)).run w sched
        = (some r, sys) ∧
      (r.ready = 0 → n = 0 ∧ out = fds.map (PollFd.mark fun _ => (false, false))) ∧
      (r.ready ≠ 0 → n = ((out.map PollFd.marks).sum : ℕ) ∧ out = fds.map (PollFd.mark r.answer)) := by
  rw [Code.run, wrapLwipPoll] at hrun
  obtain ⟨r, s₁, hselect, hrest⟩ := Thread.bind_eq_some.mp hrun
  refine ⟨r, ?_, fun hzero => ?_, fun hzero => ?_⟩
  · split_ifs at hrest <;> exact (Prod.mk.inj hrest).2 ▸ hselect
  · rw [if_pos hzero] at hrest
    obtain ⟨rfl, rfl⟩ := Prod.mk.inj (Option.some.inj (Prod.mk.inj hrest).1)
    exact ⟨rfl, rfl⟩
  · rw [if_neg hzero] at hrest
    obtain ⟨hn, hout⟩ := Prod.mk.inj (Option.some.inj (Prod.mk.inj hrest).1)
    rw [hout] at hn
    rw [List.map_map] at hout
    exact ⟨hn.symm, hout.symm⟩

/-- The sets of the last scan are its answers, as far as the entries go. -/
theorem answer_of_found {s₀ : Sys (World S) (Event S)} {r : Ready}
    (h : Found cfg (pollRd fds) (pollWr fds) s₀ (pollNfds fds) r) {p : PollFd} (hp : p ∈ fds) :
    r.answer p.fd = pollAnswer cfg fds s₀ p.fd := by
  have hlt : p.fd < pollNfds fds := Int.lt_add_one_of_le ((le_foldl_max fds (-1)).2 p hp)
  by_cases h0 : 0 ≤ p.fd
  · refine Prod.ext ?_ ?_
    · exact Bool.eq_iff_iff.mpr (by simpa [Ready.answer, pollAnswer, hlt, h0] using h.rd p.fd)
    · exact Bool.eq_iff_iff.mpr (by simpa [Ready.answer, pollAnswer, hlt, h0] using h.wr p.fd)
  · rw [pollAnswer, scanAnswer_of_neg (not_le.mp h0)]
    refine Prod.ext ?_ ?_
    · exact decide_eq_false fun hmem => h0 ((h.rd p.fd).mp hmem).1
    · exact decide_eq_false fun hmem => h0 ((h.wr p.fd).mp hmem).1

/-- **`poll` marks its entries with the answers of its last scan, and counts the marks.** -/
theorem exists_pollScan (hrun : (wrapLwipPoll cfg fds timeoutMs).run w sched = (some (n, out), sys)) :
    ∃ s₀, PollScan cfg fds timeoutMs w sched s₀ ∧ out = fds.map (PollFd.mark (pollAnswer cfg fds s₀)) ∧
      n = ((out.map PollFd.marks).sum : ℕ) := by
  obtain ⟨r, hselect, hnone, hsome⟩ := of_wrapLwipPoll hrun
  obtain ⟨s₀, hlast, s₁, hscan⟩ := exists_lastScan hselect
  have hnfds : 0 ≤ pollNfds fds := by
    have := (le_foldl_max fds (-1)).1
    rw [pollNfds]
    omega
  obtain ⟨k, hk⟩ := Int.eq_ofNat_of_zero_le hnfds
  have hfound : Found cfg (pollRd fds) (pollWr fds) s₀ (pollNfds fds) r := by
    rw [hk] at hscan ⊢
    exact found_selectScan hscan
  have hmark : ∀ p ∈ fds, p.mark r.answer = p.mark (pollAnswer cfg fds s₀) := by
    intro p hp
    rw [PollFd.mark, PollFd.mark, answer_of_found hfound hp]
  refine ⟨s₀, hlast, ?_⟩
  by_cases hzero : r.ready = 0
  · obtain ⟨rfl, rfl⟩ := hnone hzero
    obtain rfl := hfound.zero hzero
    have hnomarks : ((fds.map (PollFd.mark fun _ => (false, false))).map PollFd.marks).sum = 0 := by
      simp [PollFd.mark, PollFd.marks, Function.comp_def]
    exact ⟨List.map_congr_left hmark, by rw [hnomarks]; rfl⟩
  · obtain ⟨hn, rfl⟩ := hsome hzero
    exact ⟨List.map_congr_left hmark, hn⟩

end Poll

/-! ## What `poll` is to return -/

/-- What `poll` is to make of the answers of a scan: the entries as they came in, the bits each asked for if
the fd answered so, no others, and the number of entries that have one. -/
structure PollRight (fds : List PollFd) (ans : ℤ → Bool × Bool) (n : ℤ) (out : List PollFd) : Prop where
  entries : out.map PollFd.request = fds.map PollFd.request
  count : n = (out.filter fun p => p.revIn || p.revOut).length
  asked : ∀ p ∈ out, (p.revIn = true → p.pollIn = true) ∧ (p.revOut = true → p.pollOut = true)
  ready : ∀ p ∈ out, (p.pollIn = true → p.revIn = (ans p.fd).1) ∧ (p.pollOut = true → p.revOut = (ans p.fd).2)

/-- No entry's fd answers in two ways, or in one that the entry does not ask for. -/
def OneWay (fds : List PollFd) (ans : ℤ → Bool × Bool) : Prop :=
  ∀ p ∈ fds, ¬ ((ans p.fd).1 = true ∧ (ans p.fd).2 = true) ∧
    ((ans p.fd).1 = true → p.pollIn = true) ∧ ((ans p.fd).2 = true → p.pollOut = true)

theorem filter_le_marks (ps : List PollFd) :
    (ps.filter fun p => p.revIn || p.revOut).length ≤ (ps.map PollFd.marks).sum := by
  induction ps with
  | nil => exact le_rfl
  | cons p ps ih =>
    rw [List.map_cons, List.sum_cons, List.filter_cons, PollFd.marks]
    rcases p.revIn with _ | _ <;> rcases p.revOut with _ | _ <;> simp <;> omega

/-- There are as many marks as marked entries exactly if no entry has two. -/
theorem marks_eq_filter_iff (ps : List PollFd) :
    (ps.map PollFd.marks).sum = (ps.filter fun p => p.revIn || p.revOut).length ↔
      ∀ p ∈ ps, ¬ (p.revIn = true ∧ p.revOut = true) := by
  induction ps with
  | nil => simp
  | cons p ps ih =>
    have hle := filter_le_marks ps
    rw [List.map_cons, List.sum_cons, List.filter_cons, List.forall_mem_cons, ← ih, PollFd.marks]
    rcases p.revIn with _ | _ <;> rcases p.revOut with _ | _ <;> simp <;> omega

theorem pollRight_iff (fds : List PollFd) (ans : ℤ → Bool × Bool) :
    PollRight fds ans ((((fds.map (PollFd.mark ans)).map PollFd.marks).sum : ℕ) : ℤ)
      (fds.map (PollFd.mark ans)) ↔ OneWay fds ans := by
  constructor
  · intro h p hp
    have hmem : p.mark ans ∈ fds.map (PollFd.mark ans) := List.mem_map_of_mem hp
    have hone := (marks_eq_filter_iff _).mp (Int.natCast_inj.mp h.count) _ hmem
    exact ⟨hone, (h.asked _ hmem).1, (h.asked _ hmem).2⟩
  · intro h
    refine ⟨by rw [List.map_map]; rfl, congrArg Nat.cast ((marks_eq_filter_iff _).mpr ?_), ?_, ?_⟩
    · exact List.forall_mem_map.mpr fun p hp => (h p hp).1
    · exact List.forall_mem_map.mpr fun p hp => (h p hp).2
    · exact List.forall_mem_map.mpr fun p _ => ⟨fun _ => rfl, fun _ => rfl⟩

section Right

variable {cfg : Config} {fds : List PollFd}

/-- **When `poll` returns what it is to return**, for the answers of the scan that ended it. -/
theorem poll_right_iff {timeoutMs n : ℤ} {out : List PollFd} {w : World S}
    {sched : List (Moment (World S))} {sys : Sys (World S) (Event S)}
    (hrun : (wrapLwipPoll cfg fds timeoutMs).run w sched = (some (n, out), sys)) :
    ∃ s₀, (∀ s, PollScan cfg fds timeoutMs w sched s ↔ s = s₀) ∧
      (PollRight fds (pollAnswer cfg fds s₀) n out ↔ OneWay fds (pollAnswer cfg fds s₀)) := by
  obtain ⟨s₀, hscan, rfl, rfl⟩ := exists_pollScan hrun
  refine ⟨s₀, fun s => ⟨fun h => LastScan.unique h hscan, ?_⟩, pollRight_iff fds _⟩
  rintro rfl
  exact hscan

/-- Entries that each ask for one thing, and for the same on the same fd, are safe in every state. -/
theorem oneWay_of_requests (hone : ∀ p ∈ fds, ¬ (p.pollIn = true ∧ p.pollOut = true))
    (hsame : ∀ p ∈ fds, ∀ q ∈ fds, p.fd = q.fd → p.pollIn = q.pollIn ∧ p.pollOut = q.pollOut)
    (s₀ : Sys (World S) (Event S)) : OneWay fds (pollAnswer cfg fds s₀) := by
  intro p hp
  have hin : (pollAnswer cfg fds s₀ p.fd).1 = true → p.pollIn = true := by
    intro h
    obtain ⟨q, hq, hqin, hfd⟩ := mem_pollRd.mp (asked_of_scanAnswer.1 h)
    rw [(hsame p hp q hq hfd.symm).1, hqin]
  have hout : (pollAnswer cfg fds s₀ p.fd).2 = true → p.pollOut = true := by
    intro h
    obtain ⟨q, hq, hqout, hfd⟩ := mem_pollWr.mp (asked_of_scanAnswer.2 h)
    rw [(hsame p hp q hq hfd.symm).2, hqout]
  exact ⟨fun h => hone p hp ⟨hin h.1, hout h.2⟩, hin, hout⟩

end Right

/-! ### An fd that is ready both ways -/

/-- An entry for the first fd of the shim. -/
def entry48 (pollIn pollOut revIn revOut : Bool) : PollFd := ⟨48, pollIn, pollOut, revIn, revOut⟩

/-- Asked for one of the two, `poll` is right. -/
theorem poll_right_readable : ∃ s₀,
    (∀ s, PollScan .default [entry48 true false false false] 0 (openConn [1]) [idle 0, idle 0] s ↔ s = s₀) ∧
    PollRight [entry48 true false false false] (pollAnswer .default [entry48 true false false false] s₀)
      1 [entry48 true false true false] := by
  obtain ⟨sys, hrun⟩ : ∃ sys, (wrapLwipPoll .default [entry48 true false false false] 0).run
      (openConn [1]) [idle 0, idle 0] = (some (1, [entry48 true false true false]), sys) := ⟨_, rfl⟩
  obtain ⟨s₀, hscan, hiff⟩ := poll_right_iff hrun
  exact ⟨s₀, hscan, hiff.mpr (oneWay_of_requests (by simp [entry48]) (by simp) s₀)⟩

/-- **Asked for both it counts the entry twice, and with an entry for each it marks both with both.** -/
theorem poll_marks_unasked :
    (∃ sys, (wrapLwipPoll .default [entry48 true true false false] 0).run (openConn [1]) [idle 0, idle 0]
        = (some (2, [entry48 true true true true]), sys) ∧
      ∀ ans, ¬ PollRight [entry48 true true false false] ans 2 [entry48 true true true true]) ∧
    ∃ sys, (wrapLwipPoll .default [entry48 true false false false, entry48 false true false false] 0).run
        (openConn [1]) [idle 0, idle 0]
        = (some (4, [entry48 true false true true, entry48 false true true true]), sys) ∧
      ∀ ans, ¬ PollRight [entry48 true false false false, entry48 false true false false] ans
        4 [entry48 true false true true, entry48 false true true true] := by
  refine ⟨⟨_, rfl, fun ans h => ?_⟩, _, rfl, fun ans h => ?_⟩
  · exact absurd h.count (by decide)
  · exact absurd ((h.asked _ List.mem_cons_self).2 rfl) Bool.false_ne_true

end EspSmoltcp
