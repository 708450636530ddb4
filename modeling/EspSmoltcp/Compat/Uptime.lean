import EspSmoltcp.Compat.Handshake
import EspSmoltcp.Compat.SelectWrap
import EspSmoltcp.Machinery.Clocks
import EspSmoltcp.Stack.RecvLoop
import EspSmoltcp.Stack.SendLoop

/-!
# Compat/Uptime — what the waiting loops make of the tick counter

The tick counter wraps.  `net_tcp_connect`, `net_tcp_send`, `net_tcp_recv` and `net_udp_recvfrom` add their
timeout to it once and compare every later reading with that deadline; `accept` subtracts its start from
each reading.  On a clock that is ahead by `c`:

* a comparison with a deadline comes out the same iff the reading and the deadline are on the same side of
  the wrap (`lt_ahead_iff`, `le_ahead_iff`);
* so the four loops do the same iff all the readings they compare are
  (`netTcpConnect_alike_iff`, `netTcpSend_alike_iff`, `recvCall_alike_iff`);
* `accept` always does the same (`sameRun_wrapLwipAccept`).

The loops that probe before they wait are one loop here, `probeTurn`, with the comparison left open.
-/

namespace EspSmoltcp

open Thread (AfterReading Alike EveryTurn Onward SameRun Splits)

variable {S : Smoltcp} {β : Type}

/-! ## The wrap of the counter -/

/-- A clock that is ahead by `c` has carried both over the wrap of the counter, or neither. -/
def SameSide (c x y : UInt32) : Prop := 2 ^ 32 ≤ x.toNat + c.toNat ↔ 2 ^ 32 ≤ y.toNat + c.toNat

instance (c x y : UInt32) : Decidable (SameSide c x y) := inferInstanceAs (Decidable (_ ↔ _))

theorem toNat_add_cases (x c : UInt32) : (2 ^ 32 ≤ x.toNat + c.toNat ∧
      (x + c).toNat = x.toNat + c.toNat - 2 ^ 32) ∨
    (x.toNat + c.toNat < 2 ^ 32 ∧ (x + c).toNat = x.toNat + c.toNat) := by
  have hx := x.toNat_lt
  have hc := c.toNat_lt
  rw [UInt32.toNat_add]
  omega

/-- **Two readings compare on both clocks alike exactly on the same side of the wrap.** -/
theorem lt_ahead_iff {c x y : UInt32} : (x + c < y + c ↔ x < y) ↔ SameSide c x y := by
  have hx := x.toNat_lt
  have hy := y.toNat_lt
  rw [UInt32.lt_iff_toNat_lt, UInt32.lt_iff_toNat_lt, SameSide]
  obtain ⟨hx', hxc⟩ | ⟨hx', hxc⟩ := toNat_add_cases x c <;>
    obtain ⟨hy', hyc⟩ | ⟨hy', hyc⟩ := toNat_add_cases y c <;> rw [hxc, hyc] <;> omega

theorem SameSide.symm {c x y : UInt32} (h : SameSide c x y) : SameSide c y x := Iff.symm h

theorem le_ahead_iff {c x y : UInt32} : (x + c ≤ y + c ↔ x ≤ y) ↔ SameSide c x y := by
  rw [← UInt32.not_lt, ← UInt32.not_lt, not_iff_not, lt_ahead_iff]
  exact ⟨SameSide.symm, SameSide.symm⟩

theorem add_ahead (x y c : UInt32) : x + c + y = x + y + c := by
  rw [UInt32.add_assoc, UInt32.add_comm c, ← UInt32.add_assoc]

theorem sub_ahead (x y c : UInt32) : x + c - (y + c) = x - y := by
  have hx := x.toNat_lt
  have hy := y.toNat_lt
  rw [← UInt32.toNat_inj]
  simp only [UInt32.toNat_sub, UInt32.toNat_add]
  omega

/-- The next reading and the deadline are on the same side of the wrap. -/
def NextSameSide {σ ε : Type} (c deadline : UInt32) (s : Sys σ ε) : Prop :=
  ∀ m ∈ s.sched.head?, SameSide c m.now deadline

/-! ## What the threads of C code do is not taken back -/

theorem onward_xTaskGetTickCount : Onward (xTaskGetTickCount : Code S UInt32) := Onward.elapse

theorem onward_blockingWait : Onward (blockingWait : Code S Unit) :=
  (Onward.emit _).bind fun _ => Onward.elapse.bind fun _ => Onward.pure _

theorem onward_atomically {α : Type} (f : World S → α × World S) (call : Call) :
    Onward (atomically f call) :=
  Onward.world.bind fun _ => (Onward.emit _).bind fun _ => Onward.act f

/-! ## Code on two clocks -/

section OnTwoClocks

variable {α : Type} {c : UInt32} {s : Sys (World S) (Event S)}

/-- The state after a step on the world. -/
def stepped (g : World S → α × World S) (call : Call) (s : Sys (World S) (Event S)) :
    Sys (World S) (Event S) :=
  { s with world := (g s.world).2, log := .step call s.world (g s.world).2 :: s.log }

theorem sameRun_atomically_bind {g : World S → α × World S} {call : Call} {f f' : α → Code S β} :
    SameRun c (atomically g call >>= f) (atomically g call >>= f') s ↔
    SameRun c (f (g s.world).1) (f' (g s.world).1) (stepped g call s) := Iff.rfl

theorem sameRun_reading_bind {f f' : UInt32 → Code S β} :
    SameRun c (xTaskGetTickCount >>= f) (xTaskGetTickCount >>= f') s ↔
    AfterReading (fun now => SameRun c (f now) (f' (now + c))) s := Thread.sameRun_elapse_bind

theorem alike_atomically_bind {g : World S → α × World S} {call : Call} {f f' : α → Code S β} :
    Alike c (atomically g call >>= f) (atomically g call >>= f') s ↔
    Alike c (f (g s.world).1) (f' (g s.world).1) (stepped g call s) := Iff.rfl

theorem alike_reading_bind {f f' : UInt32 → Code S β} :
    Alike c (xTaskGetTickCount >>= f) (xTaskGetTickCount >>= f') s ↔
    AfterReading (fun now => Alike c (f now) (f' (now + c))) s := Thread.alike_elapse_bind

theorem SameRun.blockingWait_bind {f : Unit → Code S β} (h : ∀ s, SameRun c (f ()) (f ()) s) :
    SameRun c (blockingWait >>= f) (blockingWait >>= f) s := by
  obtain ⟨w, _ | ⟨m, ms⟩, l⟩ := s
  · rfl
  · exact h ⟨m.env w, ms, .wait :: l⟩

end OnTwoClocks

/-! ## Leaving a loop or waiting

`net_tcp_send` and `select` look at the clock after an attempt that came to nothing. -/

section Leaving

variable {γ δ : Type} {c deadline : UInt32} {result : δ} {again : γ} {s : Sys (World S) (Event S)}

/-- Late, they return; else they wait and go round. -/
def leaveOrWait (deadline : UInt32) (result : δ) (again : γ) : Code S (γ ⊕ δ) := do
  if deadline ≤ (← xTaskGetTickCount) then pure (.inr result)
  else
    blockingWait
    pure (.inl again)

theorem onward_leaveOrWait : Onward (leaveOrWait (S := S) deadline result again) := by
  refine onward_xTaskGetTickCount.bind fun now => ?_
  split_ifs
  · exact Onward.pure _
  · exact onward_blockingWait.bind fun _ => Onward.pure _

/-- Who goes round has waited. -/
theorem blockingWait_again {r : γ} {s' : Sys (World S) (Event S)}
    (h : (do blockingWait; pure (.inl again) : Code S (γ ⊕ δ)) s = (some (.inl r), s')) :
    r = again ∧ s'.sched.length < s.sched.length := by
  obtain ⟨w, _ | ⟨m, ms⟩, l⟩ := s
  · cases h
  · obtain ⟨hr, rfl⟩ := Prod.mk.inj h
    exact ⟨(Sum.inl.inj (Option.some.inj hr)).symm, Nat.lt_succ_self _⟩

theorem leaveOrWait_again {r : γ} {s' : Sys (World S) (Event S)}
    (h : leaveOrWait deadline result again s = (some (.inl r), s')) :
    r = again ∧ s'.sched.length < s.sched.length := by
  obtain ⟨w, _ | ⟨m, ms⟩, l⟩ := s
  · cases h
  · rw [leaveOrWait, xTaskGetTickCount_bind_cons] at h
    split_ifs at h
    · cases h
    · obtain ⟨hr, hlt⟩ := blockingWait_again h
      exact ⟨hr, hlt.trans (Nat.lt_succ_self _)⟩

theorem sameRun_leaveOrWait (h : NextSameSide c deadline s) :
    SameRun c (leaveOrWait deadline result again) (leaveOrWait (deadline + c) result again) s := by
  rw [leaveOrWait, leaveOrWait, sameRun_reading_bind]
  intro m ms hsched
  have hm := le_ahead_iff.mpr (h m (by rw [hsched]; rfl)).symm
  by_cases hlate : deadline ≤ m.now
  · rw [if_pos hlate, if_pos (hm.mpr hlate)]
    rfl
  · rw [if_neg hlate, if_neg fun h => hlate (hm.mp h)]
    exact SameRun.blockingWait_bind fun _ => rfl

section Turns

variable {w : World S} {m : Moment (World S)} {ms : List (Moment (World S))} {l : List (Event S)}

theorem leaveOrWait_late (hlate : deadline ≤ m.now) :
    leaveOrWait deadline result again ⟨w, m :: ms, l⟩ = (some (.inr result), ⟨m.env w, ms, l⟩) := by
  rw [leaveOrWait, xTaskGetTickCount_bind_cons, if_pos hlate]
  rfl

theorem leaveOrWait_inTime (hlate : ¬ deadline ≤ m.now) :
    .wait :: l <:+ (leaveOrWait deadline result again ⟨w, m :: ms, l⟩).2.log := by
  rw [leaveOrWait, xTaskGetTickCount_bind_cons, if_neg hlate]
  rcases ms with _ | ⟨v, ms⟩
  · exact List.suffix_rfl
  · exact List.suffix_rfl

end Turns

/-- A reading on the other side of the wrap: one run returns where the other one waits. -/
theorem splits_leaveOrWait (h : ¬ NextSameSide c deadline s) :
    Splits (fun r => r.isRight = true) (· = .wait) (leaveOrWait deadline result again s)
      (leaveOrWait (deadline + c) result again (s.ahead c)) := by
  obtain ⟨w, _ | ⟨m, ms⟩, l⟩ := s
  · exact absurd (fun _ hm => nomatch hm) h
  have hm : ¬ (deadline + c ≤ m.now + c ↔ deadline ≤ m.now) := by
    rw [le_ahead_iff]
    exact fun hm => h fun m' hm' => Option.some.inj hm' ▸ hm.symm
  by_cases hlate : deadline ≤ m.now
  · have hlate' : ¬ deadline + c ≤ (m.ahead c).now := fun hlate' => hm (iff_of_true hlate' hlate)
    exact ⟨_, _, _, rfl, rfl, .inl ⟨leaveOrWait_late hlate, leaveOrWait_inTime hlate'⟩⟩
  · have hlate' : deadline + c ≤ (m.ahead c).now := not_not.mp fun hlate' => hm (iff_of_false hlate' hlate)
    exact ⟨_, _, _, rfl, rfl, .inr ⟨leaveOrWait_late hlate', leaveOrWait_inTime hlate⟩⟩

end Leaving

/-! ## Loops that probe until a deadline

`net_tcp_connect`, `net_tcp_recv` and `net_udp_recvfrom` look at the clock first, then probe, then wait. -/

section Probing

variable {γ δ : Type}

/-- One turn of such a loop; `before` is how it compares a reading with its deadline. -/
def probeTurn (before : UInt32 → UInt32 → Prop) [DecidableRel before] (call : Call) (deadline : UInt32)
    (probe : World S → γ × World S) (done : γ → Option δ) (giveUp : δ) : Code S (Unit ⊕ δ) := do
  if before (← xTaskGetTickCount) deadline then
    let r ← atomically probe call
    match done r with
    | some d => pure (.inr d)
    | none =>
      blockingWait
      pure (.inl ())
  else pure (.inr giveUp)

variable {before : UInt32 → UInt32 → Prop} [DecidableRel before] {call : Call} {c deadline : UInt32}
  {probe : World S → γ × World S} {done : γ → Option δ} {giveUp : δ} {w : World S} {m : Moment (World S)}
  {ms : List (Moment (World S))} {l : List (Event S)} {s : Sys (World S) (Event S)}

theorem onward_probed (done : γ → Option δ) (r : γ) : Onward (match done r with
    | some d => pure (.inr d)
    | none => do
      blockingWait
      pure (.inl ()) : Code S (Unit ⊕ δ)) := by
  rcases done r with _ | d
  · exact onward_blockingWait.bind fun _ => Onward.pure _
  · exact Onward.pure _

theorem onward_probeTurn : Onward (probeTurn before call deadline probe done giveUp) := by
  refine onward_xTaskGetTickCount.bind fun now => ?_
  split_ifs
  · exact Onward.bind (onward_atomically probe call) (onward_probed done)
  · exact Onward.pure _

/-- A turn that is late leaves the loop without a probe… -/
theorem probeTurn_late (h : ¬ before m.now deadline) :
    probeTurn before call deadline probe done giveUp ⟨w, m :: ms, l⟩
      = (some (.inr giveUp), ⟨m.env w, ms, l⟩) := by
  rw [probeTurn, xTaskGetTickCount_bind_cons, if_neg h]
  rfl

/-- …and one that is not makes its probe. -/
theorem probeTurn_inTime (h : before m.now deadline) : .step call (m.env w) (probe (m.env w)).2 :: l <:+
    (probeTurn before call deadline probe done giveUp ⟨w, m :: ms, l⟩).2.log := by
  rw [probeTurn, xTaskGetTickCount_bind_cons, if_pos h, atomically_bind_apply]
  exact (onward_probed done (probe (m.env w)).1 ⟨_, ms, _ :: l⟩).log

theorem probeTurn_progress :
    Thread.Progress (fun _ => 0) fun (_ : Unit) => probeTurn before call deadline probe done giveUp := by
  rintro ⟨⟩ ⟨w, _ | ⟨m, ms⟩, l⟩ ⟨⟩ s' h
  · cases h
  by_cases hb : before m.now deadline
  · change probeTurn before call deadline probe done giveUp _ = _ at h
    rw [probeTurn, xTaskGetTickCount_bind_cons, if_pos hb, atomically_bind_apply] at h
    rcases hd : done (probe (m.env w)).1 with _ | d
    · rw [hd] at h
      rcases ms with _ | ⟨v, ms⟩
      · cases h
      · obtain ⟨-, rfl⟩ := Prod.mk.inj h
        simp only [List.length_cons]
        omega
    · rw [hd] at h
      cases h
  · change probeTurn before call deadline probe done giveUp _ = _ at h
    rw [probeTurn_late hb] at h
    cases h

section Compared

variable (hbefore : ∀ c x y, (before (x + c) (y + c) ↔ before x y) ↔ SameSide c x y)

include hbefore

theorem sameRun_probeTurn (h : NextSameSide c deadline s) :
    SameRun c (probeTurn before call deadline probe done giveUp)
      (probeTurn before call (deadline + c) probe done giveUp) s := by
  obtain ⟨w, _ | ⟨m, ms⟩, l⟩ := s
  · rfl
  have hm := (hbefore c m.now deadline).mpr (h m rfl)
  rw [SameRun, Sys.ahead, probeTurn, probeTurn]
  simp only [List.map_cons, xTaskGetTickCount_bind_cons, Moment.ahead, hm]
  split_ifs
  · simp only [atomically_bind_apply]
    rcases done (probe (m.env w)).1 with _ | d
    · rcases ms with _ | ⟨v, ms⟩
      · rfl
      · rfl
    · rfl
  · rfl

/-- A reading on the other side of the wrap: one run gives up where the other one probes. -/
theorem splits_probeTurn (h : ¬ NextSameSide c deadline s) :
    Splits (fun r => r.isRight = true) (fun e => ∃ b a, e = .step call b a)
      (probeTurn before call deadline probe done giveUp s)
      (probeTurn before call (deadline + c) probe done giveUp (s.ahead c)) := by
  obtain ⟨w, _ | ⟨m, ms⟩, l⟩ := s
  · exact absurd (fun _ hm => nomatch hm) h
  have hm : ¬ (before (m.now + c) (deadline + c) ↔ before m.now deadline) := by
    rw [hbefore]
    exact fun hm => h fun m' hm' => Option.some.inj hm' ▸ hm
  by_cases hb : before m.now deadline
  · have hb' : ¬ before (m.ahead c).now (deadline + c) := fun hb' => hm (iff_of_true hb' hb)
    exact ⟨_, _, _, rfl, ⟨_, _, rfl⟩, .inr ⟨probeTurn_late hb', probeTurn_inTime hb⟩⟩
  · have hb' : before (m.ahead c).now (deadline + c) := not_not.mp fun hb' => hm (iff_of_false hb' hb)
    exact ⟨_, _, _, rfl, ⟨_, _, rfl⟩, .inl ⟨probeTurn_late hb, probeTurn_inTime hb'⟩⟩

/-- **Such a loop runs the same on both clocks if the readings it compares stay on the deadline's side of the
wrap…** -/
theorem sameRun_probeLoop (h : EveryTurn (fun (_ : Unit) => probeTurn before call deadline probe done giveUp)
      (fun _ => NextSameSide c deadline) () s) :
    SameRun c
      (Thread.loop (fun _ => 0) (fun (_ : Unit) => probeTurn before call deadline probe done giveUp) ())
      (Thread.loop (fun _ => 0) (fun (_ : Unit) => probeTurn before call (deadline + c) probe done giveUp) ())
      s :=
  SameRun.loop (fun _ _ hs => sameRun_probeTurn hbefore hs) h

/-- **…and if one does not, one run gives up where the other one probes.** -/
theorem splits_probeLoop
    (h : ¬ EveryTurn (fun (_ : Unit) => probeTurn before call deadline probe done giveUp)
      (fun _ => NextSameSide c deadline) () s) :
    Splits (fun _ => True) (fun e => ∃ b a, e = .step call b a)
      (Thread.loop (fun _ => 0) (fun (_ : Unit) => probeTurn before call deadline probe done giveUp) () s)
      (Thread.loop (fun _ => 0) (fun (_ : Unit) => probeTurn before call (deadline + c) probe done giveUp) ()
        (s.ahead c)) := by
  refine Thread.loop_of_round probeTurn_progress probeTurn_progress
    (fun _ _ hs => sameRun_probeTurn hbefore hs) (fun _ s hs => ?_) h
  exact (splits_probeTurn hbefore hs).loop (fun _ => onward_probeTurn) fun _ => onward_probeTurn

theorem probeLoop_alike_iff :
    Alike c
      (Thread.loop (fun _ => 0) (fun (_ : Unit) => probeTurn before call deadline probe done giveUp) ())
      (Thread.loop (fun _ => 0) (fun (_ : Unit) => probeTurn before call (deadline + c) probe done giveUp) ())
      s ↔
    EveryTurn (fun (_ : Unit) => probeTurn before call deadline probe done giveUp)
      (fun _ => NextSameSide c deadline) () s := by
  refine ⟨fun halike => ?_, fun h => (sameRun_probeLoop hbefore h).alike⟩
  by_contra hnot
  exact (splits_probeLoop hbefore hnot).log_ne halike.2

end Compared

end Probing

/-! ## `net_tcp_connect` -/

theorem connectTurn_eq (h : IfaceId) (id deadline : UInt32) : connectTurn (S := S) h id deadline
    = probeTurn (· < ·) .other deadline (isActiveCall h id) (fun up => if up then some .ok else none)
        .timeout := by
  refine congrArg (xTaskGetTickCount >>= ·) (funext fun now => ?_)
  refine if_congr Iff.rfl (congrArg (atomically (isActiveCall h id) >>= ·) (funext fun up => ?_)) rfl
  cases up
  · rfl
  · rfl

/-- Every reading the loop of `net_tcp_connect` compares with its deadline is on its side of the wrap. -/
def ConnectSteady (cfg : Config) (c : UInt32) (s : NetSock) (ipv4Be : UInt32) (port : UInt16)
    (timeoutMs rand : UInt32) (sys : Sys (World S) (Event S)) : Prop :=
  ∀ h, handleFor sys.world s.iface = some h →
    (sys.world.ffi h (-1) (smoltcpTcpConnect · s.localId ipv4Be port 0 rand)).1 = 0 →
    AfterReading (fun start => EveryTurn
      (fun (_ : Unit) => connectTurn h s.localId (start + cfg.msToTicks timeoutMs))
      (fun _ => NextSameSide c (start + cfg.msToTicks timeoutMs)) ())
      (stepped (fun w => w.ffi h (-1) (smoltcpTcpConnect · s.localId ipv4Be port 0 rand)) .other sys)

theorem connectLoop_alike_iff {c deadline : UInt32} {h : IfaceId} {id : UInt32}
    {s : Sys (World S) (Event S)} :
    Alike c (connectLoop h id deadline) (connectLoop h id (deadline + c)) s ↔
    EveryTurn (fun (_ : Unit) => connectTurn h id deadline) (fun _ => NextSameSide c deadline) () s := by
  rw [connectLoop, connectLoop, connectTurn_eq, connectTurn_eq]
  exact probeLoop_alike_iff fun c x y => lt_ahead_iff

theorem netTcpConnect_alike_iff (cfg : Config) (c : UInt32) (s : NetSock) (ipv4Be : UInt32)
    (port : UInt16) (timeoutMs rand : UInt32) (sys : Sys (World S) (Event S)) :
    Alike c (netTcpConnect cfg s ipv4Be port timeoutMs rand)
      (netTcpConnect cfg s ipv4Be port timeoutMs rand) sys ↔
    ConnectSteady cfg c s ipv4Be port timeoutMs rand sys := by
  rw [netTcpConnect_eq, Thread.alike_world_bind, ConnectSteady]
  rcases handleFor sys.world s.iface with _ | h
  · exact iff_of_true ⟨rfl, rfl⟩ fun _ hh => nomatch hh
  simp only [Option.some.injEq, forall_eq']
  rw [alike_atomically_bind]
  by_cases hrc : (sys.world.ffi h (-1) (smoltcpTcpConnect · s.localId ipv4Be port 0 rand)).1 = 0
  · rw [if_neg (not_not.mpr hrc), imp_iff_right hrc, alike_reading_bind]
    refine AfterReading.congr fun start s₁ => ?_
    rw [add_ahead]
    exact connectLoop_alike_iff
  · rw [if_pos hrc]
    exact iff_of_true ⟨rfl, rfl⟩ fun hrc' => absurd hrc' hrc

/-! ## `net_tcp_recv` and `net_udp_recvfrom` -/

section Recv

variable {c deadline : UInt32} {call : Call} {probe : World S → (Int × β) × World S} {nothing : β}
  {s : Sys (World S) (Event S)}

theorem recvTurn_eq : recvTurn call deadline probe nothing = probeTurn (· ≤ ·) call deadline probe
    (fun r => if 0 < r.1 then some r else none) (0, nothing) := by
  refine congrArg (xTaskGetTickCount >>= ·) (funext fun now => ?_)
  refine if_congr Iff.rfl (congrArg (atomically probe call >>= ·) (funext fun r => ?_)) rfl
  by_cases hr : 0 < r.1
  · simp only [if_pos hr]
  · simp only [if_neg hr]

/-- Every reading the receive loop compares with its deadline is on its side of the wrap. -/
def RecvSteady (c deadline : UInt32) (call : Call) (probe : World S → (Int × β) × World S) (nothing : β)
    (s : Sys (World S) (Event S)) : Prop :=
  EveryTurn (fun (_ : Unit) => recvTurn call deadline probe nothing) (fun _ => NextSameSide c deadline) () s

theorem sameRun_recvLoop (h : RecvSteady c deadline call probe nothing s) :
    SameRun c (recvLoop call deadline probe nothing) (recvLoop call (deadline + c) probe nothing) s := by
  rw [RecvSteady, recvTurn_eq] at h
  rw [recvLoop, recvLoop, recvTurn_eq, recvTurn_eq]
  exact sameRun_probeLoop (fun c x y => le_ahead_iff) h

theorem splits_recvLoop (h : ¬ RecvSteady c deadline call probe nothing s) :
    Splits (fun _ => True) (fun e => ∃ b a, e = .step call b a) (recvLoop call deadline probe nothing s)
      (recvLoop call (deadline + c) probe nothing (s.ahead c)) := by
  rw [RecvSteady, recvTurn_eq] at h
  rw [recvLoop, recvLoop, recvTurn_eq, recvTurn_eq]
  exact splits_probeLoop (fun c x y => le_ahead_iff) h

/-- `net_tcp_recv` and `net_udp_recvfrom`, by what they probe. -/
def recvCall (cfg : Config) (s : NetSock) (timeoutMs : UInt32) (call : Call)
    (probe : IfaceId → World S → (Int × β) × World S) (nothing : β) : Code S (Int × β) := do
  match handleFor (← Thread.world) s.iface with
  | none => pure (-1, nothing)
  | some h =>
    let start ← xTaskGetTickCount
    recvLoop call (start + cfg.msToTicks timeoutMs) (probe h) nothing

/-- Every reading such a call compares with its deadline is on its side of the wrap. -/
def RecvCallSteady (cfg : Config) (c : UInt32) (s : NetSock) (timeoutMs : UInt32) (call : Call)
    (probe : IfaceId → World S → (Int × β) × World S) (nothing : β) (sys : Sys (World S) (Event S)) :
    Prop :=
  ∀ h, handleFor sys.world s.iface = some h → AfterReading (fun start =>
    RecvSteady c (start + cfg.msToTicks timeoutMs) call (probe h) nothing) sys

theorem netTcpRecv_eq (cfg : Config) (s : NetSock) (cap : ℕ) (timeoutMs : UInt32) :
    netTcpRecv (S := S) cfg s cap timeoutMs
      = recvCall cfg s timeoutMs .other (tcpRecvProbe · s.localId cap) [] := rfl

theorem netUdpRecvfrom_eq (cfg : Config) (s : NetSock) (cap : ℕ) (timeoutMs : UInt32) :
    netUdpRecvfrom (S := S) cfg s cap timeoutMs
      = recvCall cfg s timeoutMs (.udpRecv s) (udpRecvProbe · s.localId cap) none := rfl

theorem sameRun_recvCall {cfg : Config} {c : UInt32} {s : NetSock} {timeoutMs : UInt32}
    {probe : IfaceId → World S → (Int × β) × World S} {sys : Sys (World S) (Event S)}
    (h : RecvCallSteady cfg c s timeoutMs call probe nothing sys) :
    SameRun c (recvCall cfg s timeoutMs call probe nothing) (recvCall cfg s timeoutMs call probe nothing)
      sys := by
  rw [recvCall, Thread.sameRun_world_bind]
  rcases hh : handleFor sys.world s.iface with _ | i
  · rfl
  simp only
  rw [sameRun_reading_bind]
  intro m ms hs
  rw [add_ahead]
  exact sameRun_recvLoop (h i hh m ms hs)

theorem recvCall_run {cfg : Config} {s : NetSock} {timeoutMs : UInt32} {i : IfaceId} {w : World S}
    {probe : IfaceId → World S → (Int × β) × World S} (h : handleFor w s.iface = some i)
    (m : Moment (World S)) (ms : List (Moment (World S))) (l : List (Event S)) :
    recvCall cfg s timeoutMs call probe nothing ⟨w, m :: ms, l⟩
      = recvLoop call (m.now + cfg.msToTicks timeoutMs) (probe i) nothing ⟨m.env w, ms, l⟩ := by
  rw [recvCall, Thread.world_bind_apply]
  simp only [h]
  rfl

/-- A reading on the other side of the wrap: one call gives up where the other one probes. -/
theorem splits_recvCall {cfg : Config} {c : UInt32} {s : NetSock} {timeoutMs : UInt32}
    {probe : IfaceId → World S → (Int × β) × World S} {sys : Sys (World S) (Event S)}
    (h : ¬ RecvCallSteady cfg c s timeoutMs call probe nothing sys) :
    Splits (fun _ => True) (fun e => ∃ b a, e = .step call b a)
      (recvCall cfg s timeoutMs call probe nothing sys)
      (recvCall cfg s timeoutMs call probe nothing (sys.ahead c)) := by
  obtain ⟨i, hi⟩ := not_forall.mp h
  obtain ⟨hh, hreading⟩ := Classical.not_imp.mp hi
  obtain ⟨w, _ | ⟨m, ms⟩, l⟩ := sys
  · exact absurd (fun _ _ hs => nomatch hs) hreading
  · have hsteady : ¬ RecvSteady c (m.now + cfg.msToTicks timeoutMs) call (probe i) nothing
        ⟨m.env w, ms, l⟩ := by
      intro hsteady
      refine hreading fun m' ms' hs => ?_
      obtain ⟨rfl, rfl⟩ := List.cons.inj hs
      exact hsteady
    rw [recvCall_run hh, show (Sys.ahead c ⟨w, m :: ms, l⟩ : Sys (World S) (Event S))
      = ⟨w, m.ahead c :: ms.map (Moment.ahead c), l⟩ from rfl, recvCall_run hh,
      show (m.ahead c).now = m.now + c from rfl, add_ahead]
    exact splits_recvLoop hsteady

theorem recvCall_alike_iff (cfg : Config) (c : UInt32) (s : NetSock) (timeoutMs : UInt32) (call : Call)
    (probe : IfaceId → World S → (Int × β) × World S) (nothing : β) (sys : Sys (World S) (Event S)) :
    Alike c (recvCall cfg s timeoutMs call probe nothing) (recvCall cfg s timeoutMs call probe nothing) sys ↔
    RecvCallSteady cfg c s timeoutMs call probe nothing sys := by
  refine ⟨fun halike => ?_, fun h => (sameRun_recvCall h).alike⟩
  by_contra hnot
  exact (splits_recvCall hnot).log_ne halike.2

end Recv

/-! ## `net_tcp_send` -/

section Send

variable {c deadline id : UInt32} {h : IfaceId} {buf : Bytes} {total : ℕ} {s : Sys (World S) (Event S)}

/-- An attempt that sends nothing is followed by a reading on the deadline's side of the wrap. -/
def SendTurnSteady (c deadline : UInt32) (h : IfaceId) (id : UInt32) (buf : Bytes) (total : ℕ)
    (s : Sys (World S) (Event S)) : Prop :=
  total < buf.length → ¬ 0 < (sendCall h id (buf.drop total) s.world).1 → NextSameSide c deadline s

theorem sendTurn_eq : sendTurn (S := S) h id deadline buf total = (do
    if total < buf.length then
      let n ← atomically (sendCall h id (buf.drop total))
      if 0 < n then pure (.inl (total + n.toNat)) else leaveOrWait deadline total total
    else pure (.inr total)) := rfl

theorem onward_sendTurn : Onward (sendTurn (S := S) h id deadline buf total) := by
  rw [sendTurn_eq]
  split_ifs
  · refine Onward.bind (onward_atomically _ _) fun n => ?_
    split_ifs
    · exact Onward.pure _
    · exact onward_leaveOrWait
  · exact Onward.pure _

/-- A turn that goes round has sent something, or waited. -/
theorem sendTurn_progress :
    Thread.Progress (fun total => buf.length - total) (sendTurn (S := S) h id deadline buf) := by
  intro total s total' s' hb
  rw [sendTurn_eq] at hb
  split_ifs at hb with hlt
  · rw [atomically_bind_apply] at hb
    split_ifs at hb with hn
    · obtain ⟨ht, rfl⟩ := Prod.mk.inj hb
      obtain rfl := Sum.inl.inj (Option.some.inj ht)
      have : 0 < (sendCall h id (buf.drop total) s.world).1.toNat := by omega
      simp only
      omega
    · obtain ⟨rfl, hsched⟩ := leaveOrWait_again hb
      simp only at hsched ⊢
      omega
  · cases hb

theorem sameRun_sendTurn (hs : SendTurnSteady c deadline h id buf total s) :
    SameRun c (sendTurn h id deadline buf total) (sendTurn h id (deadline + c) buf total) s := by
  rw [sendTurn_eq, sendTurn_eq]
  by_cases hlt : total < buf.length
  · rw [if_pos hlt, if_pos hlt, sameRun_atomically_bind]
    by_cases hn : 0 < (sendCall h id (buf.drop total) s.world).1
    · rw [if_pos hn, if_pos hn]
      rfl
    · rw [if_neg hn, if_neg hn]
      exact sameRun_leaveOrWait (hs hlt hn)
  · rw [if_neg hlt, if_neg hlt]
    rfl

theorem splits_sendTurn (hs : ¬ SendTurnSteady c deadline h id buf total s) :
    Splits (fun r => r.isRight = true) (· = .wait) (sendTurn h id deadline buf total s)
      (sendTurn h id (deadline + c) buf total (s.ahead c)) := by
  obtain ⟨hlt, hs⟩ := Classical.not_imp.mp hs
  obtain ⟨hn, hs⟩ := Classical.not_imp.mp hs
  rw [sendTurn_eq, sendTurn_eq, if_pos hlt, if_pos hlt, atomically_bind_apply, atomically_bind_apply,
    Sys.world_ahead, if_neg hn, if_neg hn]
  exact splits_leaveOrWait (s := stepped (sendCall h id (buf.drop total)) .other s) hs

/-- Every reading `net_tcp_send` compares with its deadline is on its side of the wrap. -/
def SendSteady (cfg : Config) (c : UInt32) (s : NetSock) (buf : Bytes) (timeoutMs : UInt32)
    (sys : Sys (World S) (Event S)) : Prop :=
  ∀ h, handleFor sys.world s.iface = some h → AfterReading (fun start =>
    EveryTurn (sendTurn h s.localId (start + cfg.msToTicks timeoutMs) buf)
      (SendTurnSteady c (start + cfg.msToTicks timeoutMs) h s.localId buf) 0) sys

theorem netTcpSend_alike_iff (cfg : Config) (c : UInt32) (s : NetSock) (buf : Bytes) (timeoutMs : UInt32)
    (sys : Sys (World S) (Event S)) :
    Alike c (netTcpSend cfg s buf timeoutMs) (netTcpSend cfg s buf timeoutMs) sys ↔
    SendSteady cfg c s buf timeoutMs sys := by
  rw [netTcpSend_eq, Thread.alike_world_bind, SendSteady]
  rcases handleFor sys.world s.iface with _ | h
  · exact iff_of_true ⟨rfl, rfl⟩ fun _ hh => nomatch hh
  simp only [Option.some.injEq, forall_eq']
  rw [alike_reading_bind]
  refine AfterReading.congr fun start s₁ => ?_
  rw [add_ahead]
  refine ⟨fun halike => ?_, fun hsteady => ?_⟩
  · by_contra hnot
    have hlog := halike.2
    rw [Thread.log_bind_pure, Thread.log_bind_pure] at hlog
    refine (Thread.loop_of_round (R := Splits (fun _ => True) (· = .wait)) sendTurn_progress
      sendTurn_progress (fun _ _ => sameRun_sendTurn) (fun _ _ hs => ?_) hnot).log_ne hlog
    exact (splits_sendTurn hs).loop (fun _ => onward_sendTurn) fun _ => onward_sendTurn
  · refine (SameRun.bind (SameRun.loop
      (P := SendTurnSteady c (start + cfg.msToTicks timeoutMs) h s.localId buf) ?_ hsteady)
      fun _ _ _ => SameRun.pure _).alike
    exact fun total s₂ hs => sameRun_sendTurn hs

end Send

/-! ## `accept` -/

section Accept

/-- One turn of the loop of `accept`. -/
def acceptTurn (cfg : Config) (i : ℕ) (start : UInt32) : Code S (Unit ⊕ Ret) := do
  let n := ((← Thread.world).fdAt i).pool.length
  match ← atomically (acceptScan cfg i (List.range n)) with
  | some r => pure (.inr r)
  | none =>
    if ((← Thread.world).fdAt i).nonblocking then pure (.inr (.fail .ewouldblock))
    else if cfg.msToTicks 60000 < (← xTaskGetTickCount) - start then
      pure (.inr (.fail .etimedout))
    else
      blockingWait
      pure (.inl ())

/-- The call, its loop by name. -/
theorem wrapLwipAccept_eq (cfg : Config) (fd : ℤ) : wrapLwipAccept (S := S) cfg fd = (do
    match fdGet cfg (← Thread.world) fd with
    | none => pure (.fail .ebadf)
    | some i =>
      if ((← Thread.world).fdAt i).kind ≠ .tcpListen then pure (.fail .ebadf)
      else
        let start ← xTaskGetTickCount
        Thread.loop (fun _ => 0) (fun (_ : Unit) => acceptTurn cfg i start) ()) := rfl

/-- The time since the start is the same on both clocks. -/
theorem sameRun_acceptTurn (cfg : Config) (i : ℕ) (start c : UInt32) (s : Sys (World S) (Event S)) :
    SameRun c (acceptTurn cfg i start) (acceptTurn cfg i (start + c)) s := by
  rw [acceptTurn, acceptTurn, Thread.sameRun_world_bind, sameRun_atomically_bind]
  rcases (acceptScan cfg i (List.range (s.world.fdAt i).pool.length) s.world).1 with _ | r
  · rw [Thread.sameRun_world_bind]
    split_ifs
    · rfl
    · rw [sameRun_reading_bind]
      intro m ms _
      rw [sub_ahead]
      split_ifs
      · rfl
      · exact SameRun.blockingWait_bind fun _ => rfl
  · rfl

/-- **`accept` does not depend on the uptime.** -/
theorem sameRun_wrapLwipAccept (cfg : Config) (fd : ℤ) (c : UInt32) (s : Sys (World S) (Event S)) :
    SameRun c (wrapLwipAccept cfg fd) (wrapLwipAccept cfg fd) s := by
  rw [wrapLwipAccept_eq, Thread.sameRun_world_bind]
  rcases fdGet cfg s.world fd with _ | i
  · rfl
  rw [Thread.sameRun_world_bind]
  split_ifs
  · rfl
  · rw [sameRun_reading_bind]
    intro m ms _
    exact SameRun.loop (P := fun _ _ => True) (fun _ _ _ => sameRun_acceptTurn ..) fun _ _ => trivial

end Accept

end EspSmoltcp
