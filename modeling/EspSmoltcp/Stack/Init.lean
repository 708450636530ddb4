import EspSmoltcp.Stack.FramePool

/-!
# Stack/Init — `net_stack_init` and its calls that fail

`net_stack_init` sets its flag before it has done anything, and five of its steps can fail.  A later call
sees the flag and returns `ESP_OK`, whatever the first one left undone.

* `initSound_iff` — `ESP_OK` means that everything exists exactly when the first call succeeds or is the
  only one.
-/

namespace EspSmoltcp

/-! ## Return codes -/

/-- `esp_err_t`. -/
abbrev EspErrT := Int32

/-- `ESP_OK`. -/
def espOk : EspErrT := 0

/-- `ESP_ERR_NO_MEM`. -/
def espErrNoMem : EspErrT := 0x101

/-- `ESP_ERR_INVALID_ARG`. -/
def espErrInvalidArg : EspErrT := 0x102

/-- `ESP_ERR_INVALID_STATE`. -/
def espErrInvalidState : EspErrT := 0x103

/-! ## The call -/

/-- The statics that `net_stack_init` sets; a handle is `none` or false while it is `NULL`. -/
structure InitState (poolSz depth : ℕ) where
  inited : Bool := false
  evt : Bool := false
  progressEvt : Bool := false
  smoltcpLock : Bool := false
  frameFreeQ : Option (Fifo (Fin poolSz) poolSz) := none
  rxQueue : IfaceId → Option (Fifo (Fin poolSz) depth) := fun _ => none
  task : Bool := false

/-- What the steps of one call return.  A queue can always be created. -/
structure InitEnv where
  nvsFlashInit : EspErrT := espOk
  eventLoopCreateDefault : EspErrT := espOk
  evtCreate : Bool := true
  progressEvtCreate : Bool := true
  createMutex : Bool := true
  taskCreate : Bool := true

/-- No step fails. -/
structure InitEnv.Succeeds (env : InitEnv) : Prop where
  nvsFlashInit : env.nvsFlashInit = espOk
  eventLoopCreateDefault : env.eventLoopCreateDefault = espOk
  evtCreate : env.evtCreate = true
  progressEvtCreate : env.progressEvtCreate = true
  createMutex : env.createMutex = true
  taskCreate : env.taskCreate = true

variable {poolSz depth : ℕ}

/-- `net_stack_init`, which is `esp_smoltcp_init`. -/
def netStackInit (env : InitEnv) (s : InitState poolSz depth) : EspErrT × InitState poolSz depth :=
  if s.inited then (espOk, s)
  else
    let s := { s with inited := true }
    if env.nvsFlashInit ≠ espOk then (env.nvsFlashInit, s)
    else if env.eventLoopCreateDefault ≠ espOk then (env.eventLoopCreateDefault, s)
    else
      let s := { s with evt := env.evtCreate, progressEvt := env.progressEvtCreate }
      if !s.evt || !s.progressEvt then (espErrNoMem, s)
      else
        let s := { s with smoltcpLock := env.createMutex }
        if !s.smoltcpLock then (espErrNoMem, s)
        else
          let s := { s with frameFreeQ := some (framePoolInit poolSz), rxQueue := fun _ => some .empty }
          -- A failed `xTaskCreatePinnedToCore` leaves the handle alone.
          if !env.taskCreate then (espErrNoMem, s) else (espOk, { s with task := true })

/-- Everything that the rest of the stack relies on exists. -/
structure InitState.Ready (s : InitState poolSz depth) : Prop where
  smoltcpLock : s.smoltcpLock = true
  evt : s.evt = true
  progressEvt : s.progressEvt = true
  frameFreeQ : s.frameFreeQ.isSome = true
  rxQueue : ∀ i, (s.rxQueue i).isSome = true
  task : s.task = true

theorem netStackInit_inited {s : InitState poolSz depth} (h : s.inited = true) (env : InitEnv) :
    netStackInit env s = (espOk, s) := if_pos h

/-- Every call leaves the flag set. -/
theorem inited_netStackInit (env : InitEnv) (s : InitState poolSz depth) :
    (netStackInit env s).2.inited = true := by
  by_cases h : s.inited = true
  · rw [netStackInit_inited h]
    exact h
  · rw [netStackInit, if_neg h]
    dsimp only
    split_ifs <;> rfl

/-- A first call that succeeds makes everything. -/
theorem netStackInit_succeeds {env : InitEnv} (h : env.Succeeds) {s : InitState poolSz depth}
    (hs : s.inited = false) :
    (netStackInit env s).1 = espOk ∧ (netStackInit env s).2.Ready := by
  obtain ⟨hnvs, hloop, hevt, hprogress, hmutex, htask⟩ := h
  simp only [netStackInit, hs, hnvs, hloop, hevt, hprogress, hmutex, htask, ne_eq, not_true_eq_false,
    Bool.false_eq_true, Bool.not_true, Bool.or_self, if_false, true_and]
  exact ⟨rfl, rfl, rfl, rfl, fun _ => rfl, rfl⟩

/-- A first call that fails says so, and there is no poll task after it. -/
theorem netStackInit_fails {env : InitEnv} (h : ¬ env.Succeeds) {s : InitState poolSz depth}
    (hs : s.inited = false) :
    (netStackInit env s).1 ≠ espOk ∧ (netStackInit env s).2.task = s.task := by
  have hnoMem : espErrNoMem ≠ espOk := by decide
  rw [netStackInit, hs, if_neg Bool.false_ne_true]
  dsimp only
  split_ifs with hnvs hloop hevt hmutex htask
  · exact ⟨hnvs, rfl⟩
  · exact ⟨hloop, rfl⟩
  · exact ⟨hnoMem, rfl⟩
  · exact ⟨hnoMem, rfl⟩
  · exact ⟨hnoMem, rfl⟩
  · simp only [Bool.or_eq_true, Bool.not_eq_true', not_or, Bool.not_eq_false] at hevt hmutex htask
    exact absurd ⟨not_not.mp hnvs, not_not.mp hloop, hevt.1, hevt.2, hmutex, htask⟩ h

/-! ## Sequences of calls -/

/-- The calls of a run, each with what it returned and the statics it left. -/
def initRun : List InitEnv → InitState poolSz depth → List (EspErrT × InitState poolSz depth)
  | [], _ => []
  | env :: envs, s => netStackInit env s :: initRun envs (netStackInit env s).2

/-- The contract of `esp_smoltcp_init` over a run: after `ESP_OK` everything exists, in particular what a
call that failed before it left undone. -/
structure InitSound (out : List (EspErrT × InitState poolSz depth)) : Prop where
  ready : ∀ r ∈ out, r.1 = espOk → r.2.Ready
  retried : ∀ (i j : ℕ) (r r' : EspErrT × InitState poolSz depth), i < j → out[i]? = some r →
    out[j]? = some r' → r.1 ≠ espOk → r'.1 = espOk → r'.2.Ready

/-- The second half is a case of the first. -/
theorem InitSound.of_ready {out : List (EspErrT × InitState poolSz depth)}
    (h : ∀ r ∈ out, r.1 = espOk → r.2.Ready) : InitSound out :=
  ⟨h, fun _ _ _ r' _ _ hj _ hok => h r' (List.mem_of_getElem? hj) hok⟩

/-- Once the flag is set nothing changes any more. -/
theorem mem_initRun_inited {s : InitState poolSz depth} (h : s.inited = true) {envs : List InitEnv}
    {r : EspErrT × InitState poolSz depth} (hr : r ∈ initRun envs s) : r = (espOk, s) := by
  induction envs with
  | nil => exact absurd hr List.not_mem_nil
  | cons env envs ih =>
    rw [initRun, netStackInit_inited h] at hr
    obtain hr | hr := List.mem_cons.mp hr
    · exact hr
    · exact ih hr

/-- **`ESP_OK` means that the stack is up, exactly when the first call succeeds or is the only one.** -/
theorem initSound_iff (envs : List InitEnv) :
    InitSound (initRun envs ({} : InitState poolSz depth)) ↔
      ∀ env ∈ envs.head?, env.Succeeds ∨ envs.length = 1 := by
  rcases envs with _ | ⟨env, envs⟩
  · exact iff_of_true (.of_ready fun r hr => absurd hr List.not_mem_nil) fun _ h => nomatch h
  have hflag := inited_netStackInit env ({} : InitState poolSz depth)
  simp only [List.head?_cons, Option.mem_def, Option.some.injEq, forall_eq', List.length_cons,
    Nat.add_eq_right, List.length_eq_zero_iff]
  constructor
  · intro h
    by_contra hne
    obtain ⟨hfail, hmore⟩ := not_or.mp hne
    obtain ⟨env', envs', rfl⟩ := List.exists_cons_of_ne_nil hmore
    -- The second call returns at once, on what the first one left.
    have hready := h.ready _ (List.mem_cons_of_mem _ List.mem_cons_self)
      (congrArg Prod.fst (netStackInit_inited hflag env'))
    rw [netStackInit_inited hflag] at hready
    have htask := hready.task
    rw [(netStackInit_fails hfail rfl).2] at htask
    exact Bool.false_ne_true htask
  · intro h
    refine .of_ready fun r hr hok => ?_
    obtain rfl | hr := List.mem_cons.mp hr
    · by_contra hnot
      have hfail : ¬ env.Succeeds := fun hs => hnot (netStackInit_succeeds hs rfl).2
      exact (netStackInit_fails hfail rfl).1 hok
    · obtain hs | rfl := h
      · rw [mem_initRun_inited hflag hr]
        exact (netStackInit_succeeds hs rfl).2
      · exact absurd hr List.not_mem_nil

/-- **The application has made the default event loop itself: the next call returns `ESP_OK` with no lock
and no poll task.** -/
theorem init_after_failure : ¬ InitSound
    (initRun [{ eventLoopCreateDefault := espErrInvalidState }, {}] ({} : InitState 4 2)) := by
  intro h
  have hready := h.ready _ (List.mem_cons_of_mem _ List.mem_cons_self) rfl
  exact Bool.false_ne_true hready.task

end EspSmoltcp
