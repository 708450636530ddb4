import EspSmoltcp.Machinery.Thread
import Mathlib.Data.List.Infix
import Mathlib.Logic.Relation

/-!
# Machinery/Clocks — one thread on two clocks

Two runs whose clocks differ by a constant, with the same world and the same others.  `Thread.SameRun` is
that they do the same in the same order and end the same.  A loop runs the same on both clocks if each of
its turns does (`SameRun.loop`), and if one does not, then what the first such turn does differently is
there to be seen at the end of the loop (`loop_of_round`): what a thread has done is never taken back.
-/

variable {σ ε α β : Type}

/-- The same moment on a clock that is ahead by `c`. -/
def Moment.ahead (c : UInt32) (m : Moment σ) : Moment σ := { m with now := m.now + c }

/-- The same state on a clock that is ahead by `c`. -/
def Sys.ahead (c : UInt32) (s : Sys σ ε) : Sys σ ε := { s with sched := s.sched.map (Moment.ahead c) }

@[simp] theorem Sys.length_sched_ahead (c : UInt32) (s : Sys σ ε) :
    (s.ahead c).sched.length = s.sched.length := List.length_map ..

@[simp] theorem Sys.world_ahead (c : UInt32) (s : Sys σ ε) : (s.ahead c).world = s.world := rfl

namespace Thread

variable {c : UInt32} {s : Sys σ ε}

/-! ## Running the same -/

/-- **On a clock that is ahead by `c`, the second thread does what the first one does**: the same steps on
the same schedule, with the same result. -/
def SameRun (c : UInt32) (t t' : Thread σ ε α) (s : Sys σ ε) : Prop :=
  t' (s.ahead c) = ((t s).1, (t s).2.ahead c)

/-- …and if only the result and what was done are looked at. -/
def Alike (c : UInt32) (t t' : Thread σ ε α) (s : Sys σ ε) : Prop :=
  (t' (s.ahead c)).1 = (t s).1 ∧ (t' (s.ahead c)).2.log = (t s).2.log

namespace SameRun

variable {t t' : Thread σ ε α}

theorem alike (h : SameRun c t t' s) : Alike c t t' s := by
  rw [Alike, h]
  exact ⟨rfl, rfl⟩

protected theorem pure (a : α) : SameRun c (pure a) (pure a) s := rfl

protected theorem bind {f f' : α → Thread σ ε β} (h : SameRun c t t' s)
    (hf : ∀ a s₁, t s = (some a, s₁) → SameRun c (f a) (f' a) s₁) :
    SameRun c (t >>= f) (t' >>= f') s := by
  rcases ht : t s with ⟨_ | a, s₁⟩
  · rw [SameRun, ht] at h
    rw [SameRun, bind_of_none ht, bind_of_none h]
  · have hfa := hf a s₁ ht
    rw [SameRun, ht] at h
    rw [SameRun, bind_of_some ht, bind_of_some h]
    exact hfa

end SameRun

/-- What holds once the clock was read. -/
def AfterReading (P : UInt32 → Sys σ ε → Prop) (s : Sys σ ε) : Prop :=
  ∀ m ms, s.sched = m :: ms → P m.now ⟨m.env s.world, ms, s.log⟩

/-- The two clocks are read `c` apart. -/
theorem sameRun_elapse_bind {f f' : UInt32 → Thread σ ε β} : SameRun c (elapse >>= f) (elapse >>= f') s ↔
    AfterReading (fun now => SameRun c (f now) (f' (now + c))) s := by
  obtain ⟨w, _ | ⟨m, ms⟩, l⟩ := s
  · exact iff_of_true rfl fun _ _ hs => nomatch hs
  · refine ⟨fun h m' ms' hs => ?_, fun h => h m ms rfl⟩
    obtain ⟨rfl, rfl⟩ := List.cons.inj hs
    exact h

theorem alike_elapse_bind {f f' : UInt32 → Thread σ ε β} : Alike c (elapse >>= f) (elapse >>= f') s ↔
    AfterReading (fun now => Alike c (f now) (f' (now + c))) s := by
  obtain ⟨w, _ | ⟨m, ms⟩, l⟩ := s
  · exact iff_of_true ⟨rfl, rfl⟩ fun _ _ hs => nomatch hs
  · refine ⟨fun h m' ms' hs => ?_, fun h => h m ms rfl⟩
    obtain ⟨rfl, rfl⟩ := List.cons.inj hs
    exact h

/-- Nothing is done meanwhile. -/
theorem AfterReading.congr_log {P Q : UInt32 → Sys σ ε → Prop}
    (h : ∀ now s₁, s₁.log = s.log → (P now s₁ ↔ Q now s₁)) : AfterReading P s ↔ AfterReading Q s :=
  forall₃_congr fun m ms _ => h m.now ⟨m.env s.world, ms, s.log⟩ rfl

theorem AfterReading.congr {P Q : UInt32 → Sys σ ε → Prop} (h : ∀ now s, P now s ↔ Q now s) :
    AfterReading P s ↔ AfterReading Q s :=
  AfterReading.congr_log fun now s₁ _ => h now s₁

theorem sameRun_world_bind {f f' : σ → Thread σ ε β} : SameRun c (world >>= f) (world >>= f') s ↔
    SameRun c (f s.world) (f' s.world) s := Iff.rfl

theorem alike_world_bind {f f' : σ → Thread σ ε β} : Alike c (world >>= f) (world >>= f') s ↔
    Alike c (f s.world) (f' s.world) s := Iff.rfl

/-! ## Loops -/

/-- A turn of the loop that goes round. -/
def Round (body : α → Thread σ ε (α ⊕ β)) (p q : α × Sys σ ε) : Prop :=
  body p.1 p.2 = (some (.inl q.1), q.2)

/-- Every turn the loop comes to from here is of this kind. -/
def EveryTurn (body : α → Thread σ ε (α ⊕ β)) (P : α → Sys σ ε → Prop) (a : α) (s : Sys σ ε) : Prop :=
  ∀ p, Relation.ReflTransGen (Round body) (a, s) p → P p.1 p.2

section Loops

open Relation (ReflTransGen)

variable {μ : α → ℕ} {body body' : α → Thread σ ε (α ⊕ β)} {P : α → Sys σ ε → Prop} {a : α}

/-- The turn in which the loop returned. -/
def LastTurn (body : α → Thread σ ε (α ⊕ β)) (a : α) (s : Sys σ ε) (q : α × Sys σ ε) : Prop :=
  ReflTransGen (Round body) (a, s) q ∧ ∃ b s', body q.1 q.2 = (some (.inr b), s')

theorem exists_lastTurn {b : β} {s' : Sys σ ε} (h : loop μ body a s = (some b, s')) :
    ∃ q, LastTurn body a s q ∧ body q.1 q.2 = (some (.inr b), s') := by
  have key : ∀ n a s, loopN body n a s = (some b, s') →
      ∃ q, LastTurn body a s q ∧ body q.1 q.2 = (some (.inr b), s') := by
    intro n
    induction n with
    | zero =>
      intro a s h
      cases h
    | succ n ih =>
      intro a s h
      rw [loopN_succ] at h
      rcases hb : body a s with ⟨_ | a' | b', s₁⟩
      · rw [hb] at h
        cases h
      · rw [hb] at h
        obtain ⟨q, ⟨hreach, hlast⟩, hq⟩ := ih a' s₁ h
        exact ⟨q, ⟨.head (b := (a', s₁)) hb hreach, hlast⟩, hq⟩
      · rw [hb] at h
        obtain ⟨hb', rfl⟩ := Prod.mk.inj h
        obtain rfl := Option.some.inj hb'
        exact ⟨(a, s), ⟨.refl, b', s₁, hb⟩, hb⟩
  exact key _ a s h

/-- There is only one. -/
theorem LastTurn.unique {q q' : α × Sys σ ε} (h : LastTurn body a s q) (h' : LastTurn body a s q') :
    q = q' := by
  have hround : Relator.RightUnique (Round body) := by
    intro p q q' hq hq'
    obtain ⟨ha, hs⟩ := Prod.mk.inj (hq.symm.trans hq')
    exact Prod.ext (Sum.inl.inj (Option.some.inj ha)) hs
  have hend : ∀ {q q'}, LastTurn body a s q → ReflTransGen (Round body) q q' → q = q' := by
    rintro q q' ⟨-, b, s', hb⟩ hreach
    obtain rfl | ⟨r, hr, -⟩ := hreach.cases_head
    · rfl
    · rw [Round, hb] at hr
      cases hr
  obtain hreach | hreach := ReflTransGen.total_of_right_unique hround h.1 h'.1
  · exact hend h hreach
  · exact (hend h' hreach).symm

/-- **A loop runs the same if every turn it comes to does.** -/
protected theorem SameRun.loop (hturn : ∀ a s, P a s → SameRun c (body a) (body' a) s)
    (h : EveryTurn body P a s) : SameRun c (loop μ body a) (loop μ body' a) s := by
  have key : ∀ n a s, EveryTurn body P a s → SameRun c (loopN body n a) (loopN body' n a) s := by
    intro n
    induction n with
    | zero => exact fun _ _ _ => rfl
    | succ n ih =>
      intro a s h
      have hsame := hturn a s (h (a, s) .refl)
      rw [SameRun] at hsame ⊢
      rw [loopN_succ, loopN_succ, hsame]
      rcases hb : body a s with ⟨_ | a' | b, s₁⟩
      · rfl
      · exact ih a' s₁ fun p hp => h p (.head (b := (a', s₁)) hb hp)
      · rfl
  rw [SameRun, loop, loop, Sys.length_sched_ahead]
  exact key _ a s h

/-- **What the first turn that does not run the same does to the loops, it does to the loops from the
start.** -/
theorem loop_of_round {R : Option β × Sys σ ε → Option β × Sys σ ε → Prop} (hp : Progress μ body)
    (hp' : Progress μ body') (hturn : ∀ a s, P a s → SameRun c (body a) (body' a) s)
    (hbad : ∀ a s, ¬ P a s → R (loop μ body a s) (loop μ body' a (s.ahead c)))
    (h : ¬ EveryTurn body P a s) : R (loop μ body a s) (loop μ body' a (s.ahead c)) := by
  obtain ⟨p, hp₁⟩ := not_forall.mp h
  obtain ⟨hreach, hnot⟩ := Classical.not_imp.mp hp₁
  refine ReflTransGen.head_induction_on (motive := fun q _ =>
    R (loop μ body q.1 q.2) (loop μ body' q.1 (q.2.ahead c))) hreach (hbad p.1 p.2 hnot) ?_
  intro q r hround _ ih
  by_cases hq : P q.1 q.2
  · have hsame := hturn q.1 q.2 hq
    rw [SameRun, show body q.1 q.2 = _ from hround] at hsame
    rw [loop_eq hp, loop_eq hp', hsame, show body q.1 q.2 = _ from hround]
    exact ih
  · exact hbad q.1 q.2 hq

end Loops

/-! ## What was done is not taken back -/

/-- The second state is later: more has been done, and less of the schedule is left. -/
structure Later (s s' : Sys σ ε) : Prop where
  log : s.log <:+ s'.log
  sched : s'.sched.length ≤ s.sched.length

theorem Later.refl (s : Sys σ ε) : Later s s := ⟨List.suffix_rfl, le_rfl⟩

theorem Later.trans {s s' s'' : Sys σ ε} (h : Later s s') (h' : Later s' s'') : Later s s'' :=
  ⟨h.log.trans h'.log, h'.sched.trans h.sched⟩

/-- The thread only goes on. -/
def Onward (t : Thread σ ε α) : Prop := ∀ s, Later s (t s).2

namespace Onward

protected theorem pure (a : α) : Onward (pure a : Thread σ ε α) := fun s => Later.refl s

protected theorem act (f : σ → α × σ) : Onward (act f : Thread σ ε α) := fun _ =>
  ⟨List.suffix_rfl, le_rfl⟩

protected theorem emit (e : ε) : Onward (emit e : Thread σ ε Unit) := fun _ =>
  ⟨List.suffix_cons .., le_rfl⟩

protected theorem world : Onward (world : Thread σ ε σ) := fun s => Later.refl s

protected theorem elapse : Onward (elapse : Thread σ ε UInt32) := by
  rintro ⟨w, _ | ⟨m, ms⟩, l⟩
  · exact Later.refl _
  · exact ⟨List.suffix_rfl, Nat.le_succ _⟩

theorem later_bind {f : α → Thread σ ε β} (hf : ∀ a, Onward (f a)) (t : Thread σ ε α) (s : Sys σ ε) :
    Later (t s).2 ((t >>= f) s).2 := by
  rcases ht : t s with ⟨_ | a, s₁⟩
  · rw [bind_of_none ht]
    exact Later.refl s₁
  · rw [bind_of_some ht]
    exact hf a s₁

protected theorem bind {t : Thread σ ε α} {f : α → Thread σ ε β} (ht : Onward t)
    (hf : ∀ a, Onward (f a)) : Onward (t >>= f) := fun s => (ht s).trans (later_bind hf t s)

theorem loopN {body : α → Thread σ ε (α ⊕ β)} (h : ∀ a, Onward (body a)) (n : ℕ) (a : α) :
    Onward (loopN body n a) := by
  induction n generalizing a with
  | zero => exact fun s => Later.refl s
  | succ n ih =>
    intro s
    refine (h a s).trans ?_
    rw [loopN_succ]
    rcases body a s with ⟨_ | a' | b, s₁⟩
    · exact Later.refl s₁
    · exact ih a' s₁
    · exact Later.refl s₁

/-- What the first turn did is there at the end of the loop. -/
theorem later_loop {μ : α → ℕ} {body : α → Thread σ ε (α ⊕ β)} (h : ∀ a, Onward (body a)) (a : α)
    (s : Sys σ ε) : Later (body a s).2 (loop μ body a s).2 := by
  rw [loop, loopN_succ]
  rcases body a s with ⟨_ | a' | b, s₁⟩
  · exact Later.refl s₁
  · exact loopN h _ a' s₁
  · exact Later.refl s₁

protected theorem loop {μ : α → ℕ} {body : α → Thread σ ε (α ⊕ β)} (h : ∀ a, Onward (body a)) (a : α) :
    Onward (loop μ body a) := fun s => (h a s).trans (later_loop h a s)

end Onward

/-- What a turn the loop comes to did is there at its end, too. -/
theorem Onward.later_turn {μ : α → ℕ} {body : α → Thread σ ε (α ⊕ β)} {a : α} {s : Sys σ ε}
    {p : α × Sys σ ε} (hp : Progress μ body) (ho : ∀ a, Onward (body a))
    (h : Relation.ReflTransGen (Round body) (a, s) p) : Later (body p.1 p.2).2 (loop μ body a s).2 := by
  refine Relation.ReflTransGen.head_induction_on
    (motive := fun q _ => Later (body p.1 p.2).2 (loop μ body q.1 q.2).2) h (later_loop ho p.1 p.2) ?_
  intro q r hround _ ih
  rw [loop_eq hp, show body q.1 q.2 = _ from hround]
  exact ih

/-- A value that is only worked out adds nothing. -/
theorem log_bind_pure (t : Thread σ ε α) (g : α → β) (s : Sys σ ε) :
    ((t >>= fun a => pure (g a)) s).2.log = (t s).2.log := by
  rcases ht : t s with ⟨_ | a, s₁⟩
  · rw [bind_of_none ht]
  · rw [bind_of_some ht]
    rfl

/-! ## What a run from here does

`Logs` is about every state a thread may start in; this is about one. -/

/-- Everything the thread does from here is of this kind. -/
def LogsFrom (ok : ε → Prop) (t : Thread σ ε α) (s : Sys σ ε) : Prop :=
  (∀ e ∈ s.log, ok e) → ∀ e ∈ (t s).2.log, ok e

theorem Logs.from {ok : ε → Prop} {t : Thread σ ε α} (h : Logs ok t) (s : Sys σ ε) : LogsFrom ok t s := by
  intro hs
  rcases ht : t s with ⟨_ | a, s₁⟩
  · exact h.of_none hs ht
  · exact h.of_some hs ht

namespace LogsFrom

variable {ok : ε → Prop} {t : Thread σ ε α}

protected theorem bind {f : α → Thread σ ε β} (ht : LogsFrom ok t s)
    (hf : ∀ a s₁, t s = (some a, s₁) → LogsFrom ok (f a) s₁) : LogsFrom ok (t >>= f) s := by
  intro hs
  have hlog := ht hs
  rcases hrun : t s with ⟨_ | a, s₁⟩
  · rw [hrun] at hlog
    rw [bind_of_none hrun]
    exact hlog
  · rw [hrun] at hlog
    rw [bind_of_some hrun]
    exact hf a s₁ hrun hlog

theorem elapse_bind {f : UInt32 → Thread σ ε β} (h : AfterReading (fun now => LogsFrom ok (f now)) s) :
    LogsFrom ok (elapse >>= f) s := by
  obtain ⟨w, _ | ⟨m, ms⟩, l⟩ := s
  · exact id
  · exact h m ms rfl

/-- **A loop does only this if every turn it comes to does.** -/
protected theorem loop {μ : α → ℕ} {body : α → Thread σ ε (α ⊕ β)} {a : α}
    (h : EveryTurn body (fun a => LogsFrom ok (body a)) a s) : LogsFrom ok (loop μ body a) s := by
  have key : ∀ n a s, EveryTurn body (fun a => LogsFrom ok (body a)) a s → LogsFrom ok (loopN body n a) s := by
    intro n
    induction n with
    | zero => exact fun _ _ _ => id
    | succ n ih =>
      intro a s h hs
      have hlog := h (a, s) .refl hs
      rw [loopN_succ]
      rcases hb : body a s with ⟨_ | a' | b, s₁⟩
      · rwa [hb] at hlog
      · rw [hb] at hlog
        exact ih a' s₁ (fun p hp => h p (.head (b := (a', s₁)) hb hp)) hlog
      · rwa [hb] at hlog
  exact key _ a s h

end LogsFrom

/-! ## Runs that part -/

/-- One of two runs has returned such a value, and where it did the other one goes on with such an
event. -/
def Splits (leaves : α → Prop) (next : ε → Prop) (r r' : Option α × Sys σ ε) : Prop :=
  ∃ a s e, leaves a ∧ next e ∧
    ((r = (some a, s) ∧ e :: s.log <:+ r'.2.log) ∨ (r' = (some a, s) ∧ e :: s.log <:+ r.2.log))

/-- What two runs have done differs for good. -/
def Apart {γ : Type} (r : Option α × Sys σ ε) (r' : Option γ × Sys σ ε) : Prop :=
  ∀ l, r.2.log <:+ l → ¬ r'.2.log <:+ l

theorem Splits.log_ne {leaves : α → Prop} {next : ε → Prop} {r r' : Option α × Sys σ ε}
    (h : Splits leaves next r r') : r'.2.log ≠ r.2.log := by
  have hlonger : ∀ (e : ε) l, ¬ e :: l <:+ l := fun e l hs => Nat.not_succ_le_self _ hs.length_le
  obtain ⟨a, s, e, -, -, ⟨rfl, hs⟩ | ⟨rfl, hs⟩⟩ := h
  · exact fun he => hlonger e s.log (he ▸ hs)
  · exact fun he => hlonger e s.log (he ▸ hs)

theorem Apart.log_ne {r r' : Option α × Sys σ ε} (h : Apart r r') : r'.2.log ≠ r.2.log := fun he =>
  h _ List.suffix_rfl (he ▸ List.suffix_rfl)

/-- Runs that did different things at the same point are apart. -/
theorem apart_of_cons {γ : Type} {r : Option α × Sys σ ε} {r' : Option γ × Sys σ ε} {e e' : ε} {l : List ε}
    (h : e :: l <:+ r.2.log) (h' : e' :: l <:+ r'.2.log) (hne : e ≠ e') : Apart r r' := by
  intro l' hl hl'
  have hs := (h.trans hl)
  have hs' := (h'.trans hl')
  have heq := (List.suffix_of_suffix_length_le hs hs' (by simp)).eq_of_length (by simp)
  exact hne (List.cons.inj heq).1

/-- Runs that are apart stay apart. -/
theorem Apart.mono {γ : Type} {r₁ : Option α × Sys σ ε} {r₁' : Option γ × Sys σ ε}
    {r r' : Option β × Sys σ ε} (h : Apart r₁ r₁') (hr : r₁.2.log <:+ r.2.log)
    (hr' : r₁'.2.log <:+ r'.2.log) : Apart r r' :=
  fun l hl hl' => h l (hr.trans hl) (hr'.trans hl')

/-- A turn that leaves the loop on one clock only splits the loops. -/
theorem Splits.loop {μ : α → ℕ} {body body' : α → Thread σ ε (α ⊕ β)} {E : ε → Prop} {a : α}
    {s s' : Sys σ ε} (ho : ∀ a, Onward (body a)) (ho' : ∀ a, Onward (body' a))
    (h : Splits (fun r => r.isRight = true) E (body a s) (body' a s')) :
    Splits (fun _ => True) E (loop μ body a s) (loop μ body' a s') := by
  obtain ⟨r, s₁, e, hr, he, ⟨hb, hs⟩ | ⟨hb, hs⟩⟩ := h
  · obtain ⟨b, rfl⟩ := Sum.isRight_iff.mp hr
    refine ⟨b, s₁, e, trivial, he, .inl ⟨?_, hs.trans (Onward.later_loop ho' a s').log⟩⟩
    rw [Thread.loop, loopN_succ, hb]
    rfl
  · obtain ⟨b, rfl⟩ := Sum.isRight_iff.mp hr
    refine ⟨b, s₁, e, trivial, he, .inr ⟨?_, hs.trans (Onward.later_loop ho a s).log⟩⟩
    rw [Thread.loop, loopN_succ, hb]
    rfl

end Thread
