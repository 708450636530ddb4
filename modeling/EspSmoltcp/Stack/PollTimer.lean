import EspSmoltcp.Compat.SelectWrap
import EspSmoltcp.Machinery.Ticks

/-!
# Stack/PollTimer — how long the poll task sleeps

Between two rounds `net_stack_task` blocks until it is notified or smoltcp's earliest deadline is reached.
smoltcp says in microseconds how far that is; the task rounds up to milliseconds, then down to ticks, and
sleeps one tick where that leaves none.

* `pollTimer_prompt` — a deadline is served late by no more than the rounding, one round's work and the time
  it takes to get the CPU.
* `pollTimer_bounded` — the task does not spin: its rounds are no more than its notifications and the ticks
  that pass.
* `waitTicks_eq_portMaxDelay_iff` — it sleeps without a limit exactly when there is no deadline, or when
  `pdMS_TO_TICKS` makes `portMAX_DELAY` of the earliest, which is then at least as many ticks away.

Time is counted in fractions of a microsecond, `configTICK_RATE_HZ` of them in each, so that a tick is a
million of them at any rate.
-/

namespace EspSmoltcp

variable {cfg : Config}

/-! ## The computation -/

/-- `INT64_MAX`. -/
def int64Max : ℤ := 2 ^ 63 - 1

/-- `smoltcp_iface_poll_delay_us`.  `poll_delay` is smoltcp's answer, `none` without a deadline or without a
context; `total_micros() as i64` reads its 64 bits as a signed number. -/
def smoltcpIfacePollDelayUs (pollDelay : Option UInt64) : ℤ :=
  match pollDelay with
  | some d => d.toBitVec.toInt
  | none => -1

/-- The loop of `net_stack_task` over the interfaces that finds the earliest deadline. -/
def nextUs (enabled : IfaceId → Bool) (pollDelay : IfaceId → Option UInt64) : ℤ :=
  [IfaceId.eth, IfaceId.wifi].foldl
    (fun next i =>
      if enabled i then
        let d := smoltcpIfacePollDelayUs (pollDelay i)
        if 0 ≤ d ∧ d < next then d else next
      else next)
    int64Max

/-- What `net_stack_task` passes to `ulTaskNotifyTake`. -/
def waitTicks (cfg : Config) (next : ℤ) : UInt32 :=
  let wait := if next = int64Max then portMaxDelay else cfg.pdMsToTicks ((next + 999) / 1000).toNat
  if wait ≠ 0 then wait else 1

/-! ## The earliest deadline -/

section NextUs

variable {enabled : IfaceId → Bool} {pollDelay : IfaceId → Option UInt64} {i : IfaceId} {d : UInt64}

theorem smoltcpIfacePollDelayUs_some (d : UInt64) : smoltcpIfacePollDelayUs (some d) =
    if d.toNat < 2 ^ 63 then (d.toNat : ℤ) else d.toNat - 2 ^ 64 := by
  rw [smoltcpIfacePollDelayUs, BitVec.toInt_eq_toNat_cond]
  change (if 2 * d.toNat < 2 ^ 64 then (d.toNat : ℤ) else d.toNat - 2 ^ 64) = _
  split_ifs
  · rfl
  · omega
  · omega
  · rfl

/-- One turn of the loop. -/
def nextOf (next : ℤ) (enabled : Bool) (d : ℤ) : ℤ := if enabled then if 0 ≤ d ∧ d < next then d else next else next

theorem nextUs_eq : nextUs enabled pollDelay =
    nextOf (nextOf int64Max (enabled .eth) (smoltcpIfacePollDelayUs (pollDelay .eth)))
      (enabled .wifi) (smoltcpIfacePollDelayUs (pollDelay .wifi)) := rfl

theorem nextOf_le (next : ℤ) (b : Bool) (d : ℤ) : nextOf next b d ≤ next := by
  rw [nextOf]
  split_ifs
  · omega
  · exact le_rfl
  · exact le_rfl

theorem nextOf_nonneg {next : ℤ} (h : 0 ≤ next) (b : Bool) (d : ℤ) : 0 ≤ nextOf next b d := by
  rw [nextOf]
  split_ifs
  · omega
  · exact h
  · exact h

theorem nextOf_le_of_enabled {next d : ℤ} (hd : 0 ≤ d) : nextOf next true d ≤ d := by
  rw [nextOf, if_pos rfl]
  split_ifs
  · exact le_rfl
  · omega

theorem nextUs_nonneg (enabled : IfaceId → Bool) (pollDelay : IfaceId → Option UInt64) :
    0 ≤ nextUs enabled pollDelay := by
  rw [nextUs_eq]
  exact nextOf_nonneg (nextOf_nonneg (by decide) _ _) _ _

/-- **No deadline is earlier.** -/
theorem nextUs_le (he : enabled i = true) (hd : pollDelay i = some d) (hfit : d.toNat < 2 ^ 63) :
    nextUs enabled pollDelay ≤ d.toNat := by
  have hdelay := (smoltcpIfacePollDelayUs_some d).trans (if_pos hfit)
  rw [nextUs_eq]
  cases i with
  | eth =>
    rw [he, hd, hdelay]
    exact (nextOf_le _ _ _).trans (nextOf_le_of_enabled (Int.natCast_nonneg _))
  | wifi =>
    rw [he, hd, hdelay]
    exact nextOf_le_of_enabled (Int.natCast_nonneg _)

/-- **It is some interface's deadline, if there is one.** -/
theorem exists_of_nextUs_ne (h : nextUs enabled pollDelay ≠ int64Max) :
    ∃ i d, enabled i = true ∧ pollDelay i = some d ∧ nextUs enabled pollDelay = d.toNat := by
  have key : ∀ i next, nextOf next (enabled i) (smoltcpIfacePollDelayUs (pollDelay i)) = next ∨
      ∃ d, enabled i = true ∧ pollDelay i = some d ∧
        nextOf next (enabled i) (smoltcpIfacePollDelayUs (pollDelay i)) = d.toNat := by
    intro i next
    rw [nextOf]
    split_ifs with he hd
    · right
      rcases hp : pollDelay i with _ | d
      · rw [hp] at hd
        exact absurd hd.1 (by decide)
      · rw [hp] at hd
        refine ⟨d, he, rfl, (smoltcpIfacePollDelayUs_some d).trans (if_pos ?_)⟩
        have hlt := d.toNat_lt
        rw [smoltcpIfacePollDelayUs_some] at hd
        split_ifs at hd
        · assumption
        · omega
    · exact .inl rfl
    · exact .inl rfl
  rw [nextUs_eq] at h ⊢
  obtain hw | ⟨d, he, hd, heq⟩ :=
    key .wifi (nextOf int64Max (enabled .eth) (smoltcpIfacePollDelayUs (pollDelay .eth)))
  · rw [hw] at h ⊢
    obtain heth | ⟨d, he, hd, heq⟩ := key .eth int64Max
    · exact absurd heth h
    · exact ⟨.eth, d, he, hd, heq⟩
  · exact ⟨.wifi, d, he, hd, heq⟩

end NextUs

/-! ## The wait -/

theorem waitTicks_pos (cfg : Config) (next : ℤ) : 0 < (waitTicks cfg next).toNat := by
  have key : ∀ w : UInt32, 0 < (if w ≠ 0 then w else 1).toNat := by
    intro w
    rw [Nat.pos_iff_ne_zero]
    split_ifs with h
    · exact fun h0 => h (UInt32.toNat_inj.mp h0)
    · decide
  exact key _

/-- The ticks of a delay in microseconds: up to a millisecond, then down to a tick. -/
def Config.usToTicks (cfg : Config) (us : ℕ) : ℕ := (us + 999) / 1000 * cfg.tickRateHz / 1000

theorem usToTicks_mono (cfg : Config) {us us' : ℕ} (h : us ≤ us') : cfg.usToTicks us ≤ cfg.usToTicks us' := by
  refine Nat.div_le_div_right (Nat.mul_le_mul_right _ (Nat.div_le_div_right ?_))
  omega

/-- Ticks of a million fractions take no longer than the delay, and a millisecond. -/
theorem usToTicks_mul_le (cfg : Config) (us : ℕ) :
    cfg.usToTicks us * 1000000 ≤ us * cfg.tickRateHz + 999 * cfg.tickRateHz := by
  have hms : (us + 999) / 1000 * 1000 ≤ us + 999 := Nat.div_mul_le_self ..
  have hticks : cfg.usToTicks us * 1000 ≤ (us + 999) / 1000 * cfg.tickRateHz := Nat.div_mul_le_self ..
  calc cfg.usToTicks us * 1000000 = cfg.usToTicks us * 1000 * 1000 := by rw [Nat.mul_assoc]
    _ ≤ (us + 999) / 1000 * cfg.tickRateHz * 1000 := Nat.mul_le_mul_right _ hticks
    _ = (us + 999) / 1000 * 1000 * cfg.tickRateHz := Nat.mul_right_comm ..
    _ ≤ (us + 999) * cfg.tickRateHz := Nat.mul_le_mul_right _ hms
    _ = us * cfg.tickRateHz + 999 * cfg.tickRateHz := Nat.add_mul ..

/-- The wait for a deadline: the macro's ticks, or one. -/
theorem waitTicks_natCast (cfg : Config) {us : ℕ} (hus : (us : ℤ) ≠ int64Max) :
    waitTicks cfg us =
      if cfg.pdMsToTicks ((us + 999) / 1000) ≠ 0 then cfg.pdMsToTicks ((us + 999) / 1000) else 1 := by
  have hms : ((us + 999 : ℤ) / 1000).toNat = (us + 999) / 1000 := by omega
  rw [waitTicks, if_neg hus, hms]

/-- It is no longer than the delay, or a tick. -/
theorem toNat_waitTicks_le (cfg : Config) {us : ℕ} (hus : (us : ℤ) ≠ int64Max) :
    (waitTicks cfg us).toNat ≤ max 1 (cfg.usToTicks us) := by
  rw [waitTicks_natCast cfg hus]
  split_ifs
  · exact le_max_of_le_right (cfg.pdMsToTicks_le _)
  · exact le_max_left ..

/-- Fewer than `portMAX_DELAY` ticks. -/
def Config.Near (cfg : Config) (us : ℕ) : Prop := cfg.usToTicks us < 2 ^ 32 - 1

theorem toNat_portMaxDelay : portMaxDelay.toNat = 2 ^ 32 - 1 := by decide

theorem waitTicks_of_near {us : ℕ} (h : cfg.Near us) :
    waitTicks cfg us ≠ portMaxDelay ∧ (waitTicks cfg us).toNat ≤ max 1 (cfg.usToTicks us) := by
  have hpos := cfg.tickRateHz_pos
  have hus : (us + 999) / 1000 * 1 ≤ (us + 999) / 1000 * cfg.tickRateHz := Nat.mul_le_mul_left _ hpos
  rw [Config.Near] at h
  have hmax : (us : ℤ) ≠ int64Max := by
    rw [Config.usToTicks] at h
    rw [int64Max]
    omega
  have hwait := toNat_waitTicks_le cfg hmax
  refine ⟨fun heq => ?_, hwait⟩
  rw [heq, toNat_portMaxDelay] at hwait
  omega

/-! ## Rounds -/

/-- The tick clock in fractions of a microsecond. -/
def tickClock (phase : ℕ) : TickClock := ⟨1000000, by decide, phase⟩

/-- `smoltcp_glue_now_us`: `esp_timer_get_time`. -/
def Config.nowUs (cfg : Config) (t : ℕ) : ℕ := t / cfg.tickRateHz

/-- One turn of the loop of `net_stack_task`: it begins to poll, reads the delays, blocks and wakes. -/
structure PollRound (cfg : Config) (phase : ℕ) where
  enabled : IfaceId → Bool
  pollDelay : IfaceId → Option UInt64
  begins : ℕ
  reads : ℕ
  sleeps : ℕ
  wakes : ℕ
  notified : Bool
  begins_le : begins ≤ reads
  reads_le : reads ≤ sleeps
  sleeps_le : sleeps ≤ wakes
  /-- `ulTaskNotifyTake` gives up at the tick it was told. -/
  wakes_le : waitTicks cfg (nextUs enabled pollDelay) ≠ portMaxDelay →
    wakes ≤ (tickClock phase).due sleeps (waitTicks cfg (nextUs enabled pollDelay)).toNat
  /-- Not notified, it blocks until then. -/
  wakes_eq : notified = false → waitTicks cfg (nextUs enabled pollDelay) ≠ portMaxDelay ∧
    wakes = (tickClock phase).due sleeps (waitTicks cfg (nextUs enabled pollDelay)).toNat

namespace PollRound

variable {phase : ℕ} (r : PollRound cfg phase)

/-- smoltcp counts down to this deadline, or to an earlier one, on some enabled interface. -/
def Sees (deadline : ℕ) : Prop :=
  ∃ i d, r.enabled i = true ∧ r.pollDelay i = some d ∧ d.toNat ≤ deadline - cfg.nowUs r.reads

/-- The deadline is fewer than `portMAX_DELAY` ticks away. -/
def Near (deadline : ℕ) : Prop := cfg.Near (deadline - cfg.nowUs r.reads)

variable {r} {deadline : ℕ}

/-- What is left until the deadline, and what is over, make up the time. -/
theorem left_mul_le (cfg : Config) (t deadline : ℕ) :
    (deadline - cfg.nowUs t) * cfg.tickRateHz + t ≤ max (deadline * cfg.tickRateHz) t + cfg.tickRateHz := by
  have hnow : t < cfg.nowUs t * cfg.tickRateHz + cfg.tickRateHz := Nat.lt_div_mul_add cfg.tickRateHz_pos
  obtain hle | hlt := le_or_gt deadline (cfg.nowUs t)
  · rw [Nat.sub_eq_zero_of_le hle, Nat.zero_mul]
    omega
  · have hmul : cfg.nowUs t * cfg.tickRateHz ≤ deadline * cfg.tickRateHz := Nat.mul_le_mul_right _ hlt.le
    rw [Nat.sub_mul]
    omega

/-- **The task wakes at the deadline**, give or take the rounding, or a tick later. -/
theorem wakes_le_of_sees (hs : r.Sees deadline) (hn : r.Near deadline) :
    r.wakes ≤ max (r.sleeps + 1000000)
      (r.sleeps - r.reads + max (deadline * cfg.tickRateHz) r.reads + 1000 * cfg.tickRateHz) := by
  obtain ⟨i, d, he, hd, hle⟩ := hs
  have hfit : deadline - cfg.nowUs r.reads < 2 ^ 62 := by
    have hpos := cfg.tickRateHz_pos
    have hmul : (deadline - cfg.nowUs r.reads + 999) / 1000 * 1 ≤
      (deadline - cfg.nowUs r.reads + 999) / 1000 * cfg.tickRateHz := Nat.mul_le_mul_left _ hpos
    rw [Near, Config.Near, Config.usToTicks] at hn
    omega
  have hnext : nextUs r.enabled r.pollDelay ≤ d.toNat := nextUs_le he hd (by omega)
  obtain ⟨us, hus⟩ := Int.eq_ofNat_of_zero_le (nextUs_nonneg r.enabled r.pollDelay)
  have husle : us ≤ deadline - cfg.nowUs r.reads := by omega
  have hmono := usToTicks_mono cfg husle
  rw [Near, Config.Near] at hn
  have hnearer : cfg.Near us := by
    rw [Config.Near]
    omega
  obtain ⟨hmax, hwait⟩ := waitTicks_of_near hnearer
  have hwakes := r.wakes_le (by rw [hus]; exact hmax)
  rw [hus] at hwakes
  have hdue : r.wakes ≤ r.sleeps + (waitTicks cfg us).toNat * 1000000 :=
    hwakes.trans ((tickClock phase).due_le _ _)
  have hticks : (waitTicks cfg us).toNat * 1000000 ≤ max 1 (cfg.usToTicks us) * 1000000 :=
    Nat.mul_le_mul_right _ hwait
  obtain hone | hmore := le_or_gt (cfg.usToTicks us) 1
  · rw [Nat.max_eq_left hone, Nat.one_mul] at hticks
    exact le_max_of_le_left (hdue.trans (Nat.add_le_add_left hticks _))
  · rw [Nat.max_eq_right hmore.le] at hticks
    have hmul : us * cfg.tickRateHz ≤ (deadline - cfg.nowUs r.reads) * cfg.tickRateHz :=
      Nat.mul_le_mul_right _ husle
    have hlate : r.wakes ≤ r.sleeps + ((deadline - cfg.nowUs r.reads) * cfg.tickRateHz + 999 * cfg.tickRateHz) :=
      hdue.trans (Nat.add_le_add_left
        (hticks.trans ((usToTicks_mul_le cfg us).trans (Nat.add_le_add_right hmul _))) _)
    have hleft := left_mul_le cfg r.reads deadline
    have hreads := r.reads_le
    refine le_max_of_le_right ?_
    generalize max (deadline * cfg.tickRateHz) r.reads = m at hleft ⊢
    omega

end PollRound

/-! ## Sleeping without a limit -/

/-- **The task sleeps without a limit** exactly when no enabled interface has a deadline, or when `pdMS_TO_TICKS`
makes `portMAX_DELAY` of the earliest, up to the next millisecond; that one is at least as many ticks away. -/
theorem waitTicks_eq_portMaxDelay_iff {enabled : IfaceId → Bool} {pollDelay : IfaceId → Option UInt64}
    (hfit : ∀ i d, pollDelay i = some d → d.toNat + 999 < 2 ^ 63) :
    (waitTicks cfg (nextUs enabled pollDelay) = portMaxDelay ↔
      (∀ i, enabled i = true → pollDelay i = none) ∨
      ∃ i d, enabled i = true ∧ pollDelay i = some d ∧
        (∀ i' d', enabled i' = true → pollDelay i' = some d' → d ≤ d') ∧
        cfg.pdMsToTicks ((d.toNat + 999) / 1000) = portMaxDelay) ∧
    ∀ d : UInt64, cfg.pdMsToTicks ((d.toNat + 999) / 1000) = portMaxDelay →
      2 ^ 32 - 1 ≤ (d.toNat + 999) / 1000 * cfg.tickRateHz / 1000 := by
  have hwait : ∀ d : UInt64, d.toNat + 999 < 2 ^ 63 → (waitTicks cfg d.toNat = portMaxDelay ↔
      cfg.pdMsToTicks ((d.toNat + 999) / 1000) = portMaxDelay) := by
    intro d hd
    have hmax : (d.toNat : ℤ) ≠ int64Max := by
      rw [int64Max]
      omega
    rw [waitTicks_natCast cfg hmax]
    split_ifs with hticks
    · rfl
    · rw [not_not.mp hticks]
      exact iff_of_false (by decide) (by decide)
  refine ⟨?_, fun d hd => ?_⟩
  swap
  · have hle := cfg.pdMsToTicks_le ((d.toNat + 999) / 1000)
    rwa [hd, toNat_portMaxDelay] at hle
  by_cases hmax : nextUs enabled pollDelay = int64Max
  · have hnone : ∀ i, enabled i = true → pollDelay i = none := by
      intro i he
      rcases hd : pollDelay i with _ | d
      · rfl
      · have hlt := hfit i d hd
        have hle := nextUs_le he hd (by omega)
        rw [hmax, int64Max] at hle
        omega
    rw [hmax]
    exact iff_of_true rfl (.inl hnone)
  · obtain ⟨i, d, he, hd, hnext⟩ := exists_of_nextUs_ne hmax
    have hleast : ∀ i' d', enabled i' = true → pollDelay i' = some d' → d ≤ d' := by
      intro i' d' he' hd'
      have hlt := hfit i' d' hd'
      have hle := nextUs_le he' hd' (by omega)
      rw [UInt64.le_iff_toNat_le]
      omega
    rw [hnext, hwait d (hfit i d hd)]
    constructor
    · exact fun hticks => .inr ⟨i, d, he, hd, hleast, hticks⟩
    · rintro (hnone | ⟨i', d', he', hd', hleast', hticks⟩)
      · rw [hnone i he] at hd
        cases hd
      · rwa [UInt64.le_antisymm (hleast i' d' he' hd') (hleast' i d he hd)]

/-- Two interfaces on a 1 kHz tick, one of them idle, the other with a deadline 2^32 - 1 ms away: the task
sleeps without a limit. -/
theorem waitTicks_eq_portMaxDelay_far :
    waitTicks .default (nextUs (fun _ => true) fun i => if i = .eth then some 4294967295000 else none)
      = portMaxDelay := by
  refine (waitTicks_eq_portMaxDelay_iff ?_).1.mpr
    (.inr ⟨.eth, 4294967295000, rfl, rfl, ?_, by decide⟩)
  · intro i d hd
    rcases i with _ | _
    · obtain rfl := Option.some.inj hd
      decide
    · cases hd
  · intro i d _ hd
    rcases i with _ | _
    · obtain rfl := Option.some.inj hd
      exact UInt64.le_refl _
    · cases hd

/-- A round that takes no time and whose sleep nobody disturbs. -/
def PollRound.undisturbed (cfg : Config) (phase : ℕ) (pollDelay : IfaceId → Option UInt64) (t : ℕ)
    (h : waitTicks cfg (nextUs (fun _ => true) pollDelay) ≠ portMaxDelay) : PollRound cfg phase where
  enabled := fun _ => true
  pollDelay := pollDelay
  begins := t
  reads := t
  sleeps := t
  wakes := (tickClock phase).due t (waitTicks cfg (nextUs (fun _ => true) pollDelay)).toNat
  notified := false
  begins_le := le_rfl
  reads_le := le_rfl
  sleeps_le := ((tickClock phase).lt_due (waitTicks_pos cfg _)).le
  wakes_le _ := le_rfl
  wakes_eq _ := ⟨h, rfl⟩

section Runs

variable {phase : ℕ} {rs : List (PollRound cfg phase)}

/-- **A deadline is served promptly.**  As long as smoltcp counts down to it and it is near, the round that
follows one begun before the deadline begins no later than the deadline, a tick or a millisecond, whichever is
longer, what a round takes, and what it takes to run again. -/
theorem pollTimer_prompt {work latency deadline : ℕ}
    (hchain : rs.IsChain fun r r' => r'.begins ≤ r.wakes + latency)
    (hwork : ∀ r ∈ rs, r.sleeps ≤ r.begins + work) (hsees : ∀ r ∈ rs, r.Sees deadline)
    (hnear : ∀ r ∈ rs, r.Near deadline) {r r' : PollRound cfg phase} (hrr : [r, r'] <:+: rs)
    (hbefore : r.begins < deadline * cfg.tickRateHz) :
    r'.begins ≤ deadline * cfg.tickRateHz + max 1000000 (1000 * cfg.tickRateHz) + work + latency := by
  have hr : r ∈ rs := hrr.subset List.mem_cons_self
  have hpair := List.IsChain.infix hchain hrr
  have hnext : r'.begins ≤ r.wakes + latency := (List.isChain_cons_cons.mp hpair).1
  have hwakes := r.wakes_le_of_sees (hsees r hr) (hnear r hr)
  have hsleeps := hwork r hr
  have hbegins := r.begins_le
  have hreads := r.reads_le
  refine hnext.trans (Nat.add_le_add_right (hwakes.trans (max_le ?_ ?_)) _)
  · have htick := le_max_left 1000000 (1000 * cfg.tickRateHz)
    generalize max 1000000 (1000 * cfg.tickRateHz) = m at htick ⊢
    omega
  · have hms := le_max_right 1000000 (1000 * cfg.tickRateHz)
    generalize max 1000000 (1000 * cfg.tickRateHz) = m at hms ⊢
    obtain hle | hlt := le_or_gt r.reads (deadline * cfg.tickRateHz)
    · rw [max_eq_left hle]
      omega
    · rw [max_eq_right hlt.le]
      omega

/-- A deadline 5 ms away, and the round that serves it. -/
theorem pollTimer_prompt_once : ∃ r : PollRound .default 0, r.pollDelay .eth = some 0 ∧
    r.begins ≤ 5000 * Config.default.tickRateHz + max 1000000 (1000 * Config.default.tickRateHz) + 0 + 0 := by
  have h₅ : waitTicks .default (nextUs (fun _ => true) fun _ => some 5000) ≠ portMaxDelay := by decide
  have h₀ : waitTicks .default (nextUs (fun _ => true) fun _ => some 0) ≠ portMaxDelay := by decide
  have hdue : (tickClock 0).due 0 (waitTicks .default (nextUs (fun _ => true) fun _ => some 5000)).toNat =
    5000000 := by decide
  obtain ⟨r, hr⟩ : ∃ r, r = PollRound.undisturbed .default 0 (fun _ => some 5000) 0 h₅ := ⟨_, rfl⟩
  obtain ⟨r', hr'⟩ : ∃ r', r' = PollRound.undisturbed .default 0 (fun _ => some 0) 5000000 h₀ := ⟨_, rfl⟩
  have hmem : ∀ {P : PollRound .default 0 → Prop}, P r → P r' → ∀ q ∈ [r, r'], P q := by
    intro P h h' q hq
    simp only [List.mem_cons, List.not_mem_nil, or_false] at hq
    obtain rfl | rfl := hq
    · exact h
    · exact h'
  have hbegins : r'.begins = 5000000 := by rw [hr', PollRound.undisturbed]
  have hwakes : r.wakes = 5000000 := by
    rw [hr, PollRound.undisturbed]
    exact hdue
  have hchain : [r, r'].IsChain fun r r' => r'.begins ≤ r.wakes + 0 := by
    rw [List.isChain_pair, hbegins, hwakes]
  have hwork : ∀ q ∈ [r, r'], q.sleeps ≤ q.begins + 0 := by
    subst hr hr'
    exact hmem le_rfl le_rfl
  have hsees : ∀ q ∈ [r, r'], q.Sees 5000 := by
    subst hr hr'
    have hleft : (5000 : UInt64).toNat ≤ 5000 - Config.default.nowUs 0 := by decide +kernel
    exact hmem ⟨.eth, 5000, rfl, rfl, hleft⟩ ⟨.eth, 0, rfl, rfl, Nat.zero_le _⟩
  have hnear : ∀ q ∈ [r, r'], q.Near 5000 := by
    subst hr hr'
    have hnear₅ : Config.default.usToTicks (5000 - Config.default.nowUs 0) < 2 ^ 32 - 1 := by decide +kernel
    have hnear₀ : Config.default.usToTicks (5000 - Config.default.nowUs 5000000) < 2 ^ 32 - 1 := by decide +kernel
    exact hmem hnear₅ hnear₀
  have hbefore : r.begins < 5000 * Config.default.tickRateHz := by
    subst hr
    exact Nat.mul_pos (by decide) Config.default.tickRateHz_pos
  exact ⟨r', hr' ▸ rfl, pollTimer_prompt hchain hwork hsees hnear List.infix_rfl hbefore⟩

/-- **The task does not spin.**  The rounds of a run are no more than those that were cut short by a
notification and the ticks that pass from the first sleep to the last waking. -/
theorem pollTimer_bounded {r : PollRound cfg phase} (hchain : (r :: rs).IsChain fun r r' => r.wakes ≤ r'.begins) :
    (r :: rs).length + (tickClock phase).ticks r.sleeps ≤ (r :: rs).countP PollRound.notified +
      (tickClock phase).ticks ((r :: rs).getLast (List.cons_ne_nil r rs)).wakes := by
  have hticks := (tickClock phase).countP_add_ticks_le (fun r => !r.notified)
    (fun r : PollRound cfg phase => ⟨r.sleeps_le, fun hr => ?_⟩) r rs
    (hchain.imp fun r r' h => h.trans (r'.begins_le.trans r'.reads_le))
  · have hsplit := List.length_eq_countP_add_countP PollRound.notified (l := r :: rs)
    have hnot : (r :: rs).countP (fun r => !r.notified) = (r :: rs).countP fun r => decide ¬r.notified = true := by
      congr 1
      funext r
      simp
    omega
  · rw [(r.wakes_eq (by simpa using hr)).2, (tickClock phase).ticks_due (waitTicks_pos cfg _)]
    have hpos := waitTicks_pos cfg (nextUs r.enabled r.pollDelay)
    omega

/-- One round that nobody disturbs, and the tick it sleeps. -/
theorem pollTimer_bounded_once : ∃ r : PollRound .default 0, r.notified = false ∧
    [r].length + (tickClock 0).ticks r.sleeps ≤ [r].countP PollRound.notified + (tickClock 0).ticks r.wakes := by
  have h₀ : waitTicks .default (nextUs (fun _ => true) fun _ => some 0) ≠ portMaxDelay := by decide
  refine ⟨.undisturbed .default 0 (fun _ => some 0) 7 h₀, rfl, ?_⟩
  exact pollTimer_bounded (List.isChain_singleton _)

end Runs

end EspSmoltcp
