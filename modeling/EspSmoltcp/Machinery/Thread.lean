import Mathlib.Data.Nat.Notation

/-!
# Machinery/Thread — a thread on an adversarial schedule

A thread runs against a world it shares with others.  It may read the clock, let time pass and act on
the world in one atomic step; between its steps the others may change the world at will.  The
*schedule* fixes all of that in advance: each `Moment` is a clock reading and what the others did
before it.  A run that uses up its schedule has not returned, but it has got somewhere: the state it
reached is kept.

`Thread.Triple` says what holds when a run returns and what holds when it does not, with one rule per
construct.  `Thread.loop` is the unbounded loop; the rule `Triple.loop` takes the invariant of its
turns.
-/

/-- A clock reading, and what the others did to the world just before it. -/
structure Moment (σ : Type) where
  now : UInt32
  env : σ → σ

/-- What the others do over a whole schedule. -/
def evolve {σ : Type} (w : σ) (sched : List (Moment σ)) : σ := sched.foldl (fun w m => m.env w) w

/-- The state of a run: the world, the schedule still to come, and what the thread has done, newest
first. -/
structure Sys (σ ε : Type) where
  world : σ
  sched : List (Moment σ)
  log : List ε := []

/-- A thread: a program on a shared world, which may not return within its schedule. -/
def Thread (σ ε α : Type) := Sys σ ε → Option α × Sys σ ε

namespace Thread

variable {σ ε α β : Type}

/-! ## The constructs -/

instance : Monad (Thread σ ε) where
  pure a s := (some a, s)
  bind t f s := match t s with
    | (some a, s') => f a s'
    | (none, s') => (none, s')

/-- Let time pass: the others move, and the clock is read. -/
def elapse : Thread σ ε UInt32 := fun s =>
  match s.sched with
  | [] => (none, s)
  | m :: ms => (some m.now, { s with world := m.env s.world, sched := ms })

/-- One atomic step on the world. -/
def act (f : σ → α × σ) : Thread σ ε α := fun s =>
  (some (f s.world).1, { s with world := (f s.world).2 })

/-- Record an event. -/
def emit (e : ε) : Thread σ ε Unit := fun s => (some (), { s with log := e :: s.log })

/-- The world as it is now. -/
def world : Thread σ ε σ := fun s => (some s.world, s)

/-- At most `n` turns of a loop; `inl` goes round again. -/
def loopN (body : α → Thread σ ε (α ⊕ β)) : ℕ → α → Thread σ ε β
  | 0, _ => fun s => (none, s)
  | n + 1, a => do
    match ← body a with
    | .inl a => loopN body n a
    | .inr b => pure b

/-- The loop.  A turn that goes round lets time pass or brings `μ` down, so a schedule allows only so
many. -/
def loop (μ : α → ℕ) (body : α → Thread σ ε (α ⊕ β)) (a : α) : Thread σ ε β := fun s =>
  loopN body (s.sched.length + μ a + 1) a s

/-! ## Running -/

@[simp] theorem pure_apply (a : α) (s : Sys σ ε) : (pure a : Thread σ ε α) s = (some a, s) := rfl

theorem bind_of_some {t : Thread σ ε α} {s s' : Sys σ ε} {a : α} (h : t s = (some a, s'))
    (f : α → Thread σ ε β) : (t >>= f) s = f a s' := by
  change (match t s with | (some a, s') => f a s' | (none, s') => (none, s')) = f a s'
  rw [h]

theorem bind_of_none {t : Thread σ ε α} {s s' : Sys σ ε} (h : t s = (none, s'))
    (f : α → Thread σ ε β) : (t >>= f) s = (none, s') := by
  change (match t s with | (some a, s') => f a s' | (none, s') => (none, s')) = (none, s')
  rw [h]

/-- A run returns in exactly one way: each of its parts does. -/
theorem bind_eq_some {t : Thread σ ε α} {f : α → Thread σ ε β} {s s' : Sys σ ε} {b : β} :
    (t >>= f) s = (some b, s') ↔ ∃ a s₁, t s = (some a, s₁) ∧ f a s₁ = (some b, s') := by
  rcases h : t s with ⟨_ | a, s₁⟩
  · rw [bind_of_none h]
    simp
  · rw [bind_of_some h]
    constructor
    · intro hf
      exact ⟨a, s₁, rfl, hf⟩
    · rintro ⟨a', s₂, he, hf⟩
      obtain ⟨ha, rfl⟩ := Prod.mk.inj he
      obtain rfl := Option.some.inj ha
      exact hf

theorem bind_assoc {γ : Type} (t : Thread σ ε α) (f : α → Thread σ ε β) (g : β → Thread σ ε γ) :
    t >>= f >>= g = t >>= fun a => f a >>= g := by
  funext s
  rcases ht : t s with ⟨_ | a, s₁⟩
  · rw [bind_of_none ht, bind_of_none (bind_of_none ht f)]
  · rw [bind_of_some ht]
    rcases hf : f a s₁ with ⟨_ | b, s₂⟩
    · rw [bind_of_none hf, bind_of_none ((bind_of_some ht f).trans hf)]
    · rw [bind_of_some hf, bind_of_some ((bind_of_some ht f).trans hf)]

@[simp] theorem pure_bind_apply (a : α) (f : α → Thread σ ε β) (s : Sys σ ε) :
    ((pure a : Thread σ ε α) >>= f) s = f a s := rfl

@[simp] theorem world_bind_apply (f : σ → Thread σ ε β) (s : Sys σ ε) :
    (world >>= f) s = f s.world s := rfl

/-! ## Loops -/

/-- What a loop does with the outcome of a turn. -/
def afterTurn (again : α → Thread σ ε β) : Option (α ⊕ β) × Sys σ ε → Option β × Sys σ ε
  | (some (.inl a), s) => again a s
  | (some (.inr b), s) => (some b, s)
  | (none, s) => (none, s)

theorem loopN_succ (body : α → Thread σ ε (α ⊕ β)) (n : ℕ) (a : α) (s : Sys σ ε) :
    loopN body (n + 1) a s = afterTurn (loopN body n) (body a s) := by
  rw [loopN]
  rcases h : body a s with ⟨_ | _ | _, s'⟩
  · exact bind_of_none h _
  · exact bind_of_some h _
  · exact bind_of_some h _

/-- A turn that goes round uses up schedule, or brings `μ` down. -/
def Progress (μ : α → ℕ) (body : α → Thread σ ε (α ⊕ β)) : Prop :=
  ∀ a s a' s', body a s = (some (.inl a'), s') →
    s'.sched.length + μ a' < s.sched.length + μ a

/-- A loop that makes progress does not depend on how many turns it was allowed. -/
theorem loopN_eq {μ : α → ℕ} {body : α → Thread σ ε (α ⊕ β)} (h : Progress μ body) :
    ∀ (n m : ℕ) (a : α) (s : Sys σ ε), s.sched.length + μ a < n → s.sched.length + μ a < m →
      loopN body n a s = loopN body m a s := by
  intro n
  induction n with
  | zero => intro m a s hn; omega
  | succ n ih =>
    intro m a s hn hm
    obtain ⟨m, rfl⟩ : ∃ k, m = k + 1 := ⟨m - 1, by omega⟩
    rw [loopN_succ, loopN_succ]
    rcases hb : body a s with ⟨_ | a' | b, s'⟩
    · rfl
    · have := h a s a' s' hb
      exact ih m a' s' (by omega) (by omega)
    · rfl

/-- **One turn of the loop.** -/
theorem loop_eq {μ : α → ℕ} {body : α → Thread σ ε (α ⊕ β)} (h : Progress μ body) (a : α)
    (s : Sys σ ε) : loop μ body a s = afterTurn (loop μ body) (body a s) := by
  rw [loop, loopN_succ]
  rcases hb : body a s with ⟨_ | a' | b, s'⟩
  · rfl
  · have := h a s a' s' hb
    exact loopN_eq h _ (s'.sched.length + μ a' + 1) a' s' (by omega) (by omega)
  · rfl

/-! ## Correctness -/

/-- A run from where `P` holds returns where `Q` holds, or has got to where `E` holds. -/
def Triple (P : Sys σ ε → Prop) (t : Thread σ ε α) (Q : α → Sys σ ε → Prop)
    (E : Sys σ ε → Prop) : Prop :=
  ∀ s, P s → (t s).1.elim (E (t s).2) fun a => Q a (t s).2

namespace Triple

variable {P P' E E' : Sys σ ε → Prop} {Q Q' : α → Sys σ ε → Prop} {R : β → Sys σ ε → Prop}

theorem of_some {t : Thread σ ε α} (h : Triple P t Q E) {s s' : Sys σ ε} {a : α} (hs : P s)
    (ht : t s = (some a, s')) : Q a s' := by
  have := h s hs
  rwa [ht] at this

theorem of_none {t : Thread σ ε α} (h : Triple P t Q E) {s s' : Sys σ ε} (hs : P s)
    (ht : t s = (none, s')) : E s' := by
  have := h s hs
  rwa [ht] at this

theorem consequence {t : Thread σ ε α} (h : Triple P t Q E) (hP : ∀ s, P' s → P s)
    (hQ : ∀ a s, Q a s → Q' a s) : Triple P' t Q' E := by
  intro s hs
  rcases ht : t s with ⟨_ | a, s'⟩
  · exact h.of_none (hP s hs) ht
  · exact hQ a s' (h.of_some (hP s hs) ht)

protected theorem pure (a : α) (h : ∀ s, P s → Q a s) : Triple P (pure a) Q E := fun s hs => h s hs

protected theorem bind {t : Thread σ ε α} {f : α → Thread σ ε β} (ht : Triple P t Q E)
    (hf : ∀ a, Triple (Q a) (f a) R E) : Triple P (t >>= f) R E := by
  intro s hs
  rcases h : t s with ⟨_ | a, s'⟩
  · rw [bind_of_none h]
    exact ht.of_none hs h
  · rw [bind_of_some h]
    exact hf a s' (ht.of_some hs h)

protected theorem elapse {Q : UInt32 → Sys σ ε → Prop} (hE : ∀ s, P s → E s)
    (h : ∀ w m ms l, P ⟨w, m :: ms, l⟩ → Q m.now ⟨m.env w, ms, l⟩) : Triple P elapse Q E := by
  rintro ⟨w, _ | ⟨m, ms⟩, l⟩ hs
  · exact hE _ hs
  · exact h w m ms l hs

protected theorem act {f : σ → α × σ}
    (h : ∀ s, P s → Q (f s.world).1 { s with world := (f s.world).2 }) : Triple P (act f) Q E := h

protected theorem emit {e : ε} {Q : Unit → Sys σ ε → Prop}
    (h : ∀ s, P s → Q () { s with log := e :: s.log }) : Triple P (emit e) Q E := h

protected theorem world {Q : σ → Sys σ ε → Prop} (h : ∀ s, P s → Q s.world s) :
    Triple P world Q E := h

/-- **The loop rule**: every turn keeps `I` if it goes round and establishes `R` if it leaves. -/
protected theorem loop {μ : α → ℕ} {body : α → Thread σ ε (α ⊕ β)} {I : α → Sys σ ε → Prop}
    (hE : ∀ a s, I a s → E s)
    (h : ∀ a, Triple (I a) (body a) (fun r s => Sum.elim (fun a => I a s) (fun b => R b s) r) E)
    (a : α) : Triple (I a) (loop μ body a) R E := by
  have key : ∀ n a, Triple (I a) (loopN body n a) R E := by
    intro n
    induction n with
    | zero => intro a s hs; exact hE a s hs
    | succ n ih =>
      intro a s hs
      rw [loopN_succ]
      rcases hb : body a s with ⟨_ | a' | b, s'⟩
      · exact (h a).of_none hs hb
      · exact ih a' s' ((h a).of_some hs hb)
      · exact (h a).of_some hs hb
  exact fun s hs => key _ a s hs

end Triple

/-! ## Interference

What holds of the world along a run, when all that is known of the others is a `rely` on what they do at
each moment. -/

/-- `J` holds of the world, and the others will only do what `rely` allows. -/
def Along (rely : (σ → σ) → Prop) (J : σ → Prop) (s : Sys σ ε) : Prop :=
  J s.world ∧ ∀ m ∈ s.sched, rely m.env

/-- The others keep `J`. -/
def Stable (rely : (σ → σ) → Prop) (J : σ → Prop) : Prop := ∀ env, rely env → ∀ w, J w → J (env w)

namespace Along

variable {rely : (σ → σ) → Prop} {J : σ → Prop} {E : Sys σ ε → Prop}

/-- Time passes: what the others keep still holds. -/
theorem elapse (h : Stable rely J) (hE : ∀ s, Along rely J s → E s) :
    Triple (Along rely J) elapse (fun _ => Along rely J) E := by
  refine Triple.elapse hE fun w m ms l hs => ⟨h m.env (hs.2 m List.mem_cons_self) w hs.1, ?_⟩
  exact fun m' hm' => hs.2 m' (List.mem_cons_of_mem m hm')

/-- A step takes the world from `J` to what it establishes. -/
theorem act {f : σ → α × σ} {K : α → σ → Prop} (h : ∀ w, J w → K (f w).1 (f w).2) :
    Triple (Along rely J) (act f) (fun a => Along rely (K a)) E :=
  Triple.act fun s hs => ⟨h s.world hs.1, hs.2⟩

theorem emit (e : ε) : Triple (Along rely J) (emit e) (fun _ => Along rely J) E :=
  Triple.emit fun _ hs => hs

/-- Looking at the world: it is as it was seen, until the others move. -/
theorem world : Triple (Along rely J) world (fun w => Along rely fun w' => J w' ∧ w' = w) E :=
  Triple.world fun _ hs => ⟨⟨hs.1, rfl⟩, hs.2⟩

end Along

/-! ## What a thread does -/

/-- Everything the thread does, whether or not it returns, is of this kind. -/
def Logs (ok : ε → Prop) (t : Thread σ ε α) : Prop :=
  Triple (fun s => ∀ e ∈ s.log, ok e) t (fun _ s => ∀ e ∈ s.log, ok e) fun s => ∀ e ∈ s.log, ok e

namespace Logs

variable {ok : ε → Prop} {t : Thread σ ε α} {f : α → Thread σ ε β}

/-- What a run from an empty log has done. -/
theorem run (h : Logs ok t) (w : σ) (sched : List (Moment σ)) : ∀ e ∈ (t ⟨w, sched, []⟩).2.log, ok e := by
  have hnil : ∀ e ∈ (⟨w, sched, []⟩ : Sys σ ε).log, ok e := fun e he => absurd he List.not_mem_nil
  rcases hrun : t ⟨w, sched, []⟩ with ⟨_ | a, s'⟩
  · exact h.of_none hnil hrun
  · exact h.of_some hnil hrun

protected theorem pure (a : α) : Logs ok (pure a : Thread σ ε α) := Triple.pure a fun _ h => h

protected theorem bind (ht : Logs ok t) (hf : ∀ a, Logs ok (f a)) : Logs ok (t >>= f) :=
  Triple.bind ht hf

protected theorem elapse : Logs ok (elapse : Thread σ ε UInt32) :=
  Triple.elapse (fun _ h => h) fun _ _ _ _ h => h

protected theorem world : Logs ok (world : Thread σ ε σ) := Triple.world fun _ h => h

protected theorem emit {e : ε} (he : ok e) : Logs ok (emit e : Thread σ ε Unit) :=
  Triple.emit fun _ h e' he' => by
    obtain rfl | he' := List.mem_cons.mp he'
    · exact he
    · exact h e' he'

protected theorem loop {μ : α → ℕ} {body : α → Thread σ ε (α ⊕ β)} (h : ∀ a, Logs ok (body a)) (a : α) :
    Logs ok (loop μ body a) := by
  refine Triple.loop (I := fun _ s => ∀ e ∈ s.log, ok e) (fun _ _ hs => hs) (fun a => ?_) a
  refine (h a).consequence (fun _ hs => hs) fun r s hs => ?_
  rcases r with _ | _
  · exact hs
  · exact hs

end Logs

end Thread
