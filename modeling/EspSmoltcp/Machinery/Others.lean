import EspSmoltcp.Machinery.Tally
import EspSmoltcp.Machinery.Thread

/-!
# Machinery/Others — what the others did between a thread's steps

    w ──others──▸ b₁ ──step──▸ a₁ ──others──▸ b₂ ──step──▸ a₂ ── ⋯ ──others──▸ w'

The log of a thread records its steps, each with the world before and after.  What lies between is what the
others did: `past` up to the last step, and then from the world it left (`latest`) to the world now.
`Traced R` is that all of it is in `R`, with one rule per construct.

A queue that the thread and the others work on from opposite ends loses nothing: what the others put in is
what the thread took out and what is left (`takes_conserve`), and the other way round (`puts_conserve`).
-/

variable {σ ε α β : Type} {ends : ε → Option (σ × σ)} {w w' : σ} {e : ε} {log : List ε}

namespace Others

/-! ## Gaps -/

section Gaps

variable (ends) (w)

/-- The world the last step left; `w` before the first.  Logs are newest first. -/
def latest : List ε → σ
  | [] => w
  | e :: log => match ends e with
    | some (_, a) => a
    | none => latest log

/-- What the others did before each step. -/
def past : List ε → List (σ × σ)
  | [] => []
  | e :: log => match ends e with
    | some (b, _) => past log ++ [(latest ends w log, b)]
    | none => past log

/-- What the others did: before each step, and since the last. -/
def gaps (log : List ε) (w' : σ) : List (σ × σ) := past ends w log ++ [(latest ends w log, w')]

end Gaps

theorem latest_step {b a : σ} (h : ends e = some (b, a)) : latest ends w (e :: log) = a := by
  rw [latest, h]

theorem latest_other (h : ends e = none) : latest ends w (e :: log) = latest ends w log := by
  rw [latest, h]

theorem past_step {b a : σ} (h : ends e = some (b, a)) :
    past ends w (e :: log) = past ends w log ++ [(latest ends w log, b)] := by
  rw [past, h]

theorem past_other (h : ends e = none) : past ends w (e :: log) = past ends w log := by
  rw [past, h]

/-! ## Only so much -/

section Traced

variable (ends) (R : σ → σ → Prop) (w : σ)

/-- The others only did what is in `R`. -/
def OnlyDid (s : Sys σ ε) : Prop := ∀ g ∈ gaps ends w s.log s.world, R g.1 g.2

/-- So far they did, and will. -/
def Traced (s : Sys σ ε) : Prop := OnlyDid ends R w s ∧ ∀ m ∈ s.sched, ∀ v, R v (m.env v)

variable {ends R w}

theorem onlyDid_iff {s : Sys σ ε} : OnlyDid ends R w s ↔
    (∀ g ∈ past ends w s.log, R g.1 g.2) ∧ R (latest ends w s.log) s.world := by
  rw [OnlyDid, gaps, List.forall_mem_append, List.forall_mem_singleton]

namespace Traced

variable {s : Sys σ ε}

theorem start (hrefl : ∀ v, R v v) {sched : List (Moment σ)} (h : ∀ m ∈ sched, ∀ v, R v (m.env v)) :
    Traced ends R w ⟨w, sched, []⟩ := by
  refine ⟨onlyDid_iff.mpr ⟨fun g hg => ?_, hrefl w⟩, h⟩
  cases hg

/-- The others move. -/
theorem elapse (htrans : ∀ u v x, R u v → R v x → R u x) {v : σ} {m : Moment σ} {ms : List (Moment σ)}
    (h : Traced ends R w ⟨v, m :: ms, log⟩) : Traced ends R w ⟨m.env v, ms, log⟩ := by
  obtain ⟨hpast, hlast⟩ := onlyDid_iff.mp h.1
  exact ⟨onlyDid_iff.mpr ⟨hpast, htrans _ _ _ hlast (h.2 m List.mem_cons_self v)⟩,
    fun m' hm' => h.2 m' (List.mem_cons_of_mem m hm')⟩

/-- The thread makes a step, and logs it. -/
theorem step (hrefl : ∀ v, R v v) (h : Traced ends R w s) {a : σ} (he : ends e = some (s.world, a)) :
    Traced ends R w ⟨a, s.sched, e :: s.log⟩ := by
  obtain ⟨hpast, hlast⟩ := onlyDid_iff.mp h.1
  refine ⟨onlyDid_iff.mpr ⟨?_, ?_⟩, h.2⟩
  · rw [past_step he, List.forall_mem_append, List.forall_mem_singleton]
    exact ⟨hpast, hlast⟩
  · rw [latest_step he]
    exact hrefl a

/-- It logs something else. -/
theorem emit (h : Traced ends R w s) (he : ends e = none) : Traced ends R w { s with log := e :: s.log } := by
  obtain ⟨hpast, hlast⟩ := onlyDid_iff.mp h.1
  refine ⟨onlyDid_iff.mpr ⟨?_, ?_⟩, h.2⟩
  · rw [past_other he]
    exact hpast
  · rw [latest_other he]
    exact hlast

end Traced

end Traced

/-! ## A queue between a thread and the others -/

section Queue

variable (queue : σ → List β)

/-- What was put at the end of a queue. -/
def grown (g : σ × σ) : List β := (queue g.2).drop (queue g.1).length

/-- What was taken from its front. -/
def drained (g : σ × σ) : List β := (queue g.1).take ((queue g.1).length - (queue g.2).length)

variable {queue} {u v : σ}

theorem append_grown (h : queue u <+: queue v) : queue u ++ grown queue (u, v) = queue v := by
  obtain ⟨rest, h⟩ := h
  simp [grown, ← h]

theorem drained_append (h : queue v <:+ queue u) : drained queue (u, v) ++ queue v = queue u := by
  obtain ⟨front, h⟩ := h
  simp [drained, ← h]

variable {items : List β}

/-- What the steps of a log do to the queue, and that other events do nothing. -/
def StepsBy (ends : ε → Option (σ × σ)) (move : σ × σ → List β → Prop) (e : ε) (chunk : List β) : Prop :=
  match ends e with
  | some step => move step chunk
  | none => chunk = []

/-- The step takes these items from the front. -/
def TakesFront (queue : σ → List β) (g : σ × σ) (chunk : List β) : Prop := queue g.1 = chunk ++ queue g.2

/-- The step puts these items at the end. -/
def PutsBack (queue : σ → List β) (g : σ × σ) (chunk : List β) : Prop := queue g.2 = queue g.1 ++ chunk

/-- **What the others put in is what the thread took, and what is left.** -/
theorem takes_conserve (h : AddsUp (StepsBy ends (TakesFront queue)) log items)
    (hgaps : ∀ g ∈ gaps ends w log w', queue g.1 <+: queue g.2) :
    queue w ++ (gaps ends w log w').flatMap (grown queue) = items ++ queue w' := by
  rw [gaps, List.forall_mem_append, List.forall_mem_singleton] at hgaps
  obtain ⟨hpast, hlast⟩ := hgaps
  have key : queue w ++ (past ends w log).flatMap (grown queue) = items ++ queue (latest ends w log) := by
    clear hlast
    induction log generalizing items with
    | nil =>
      rw [h.eq_nil]
      exact List.append_nil _
    | cons e log ih =>
      obtain ⟨items', chunk, hlog, he, rfl⟩ := h.exists_of_cons
      rw [StepsBy] at he
      rcases hends : ends e with _ | ⟨b, a⟩
      · rw [hends] at he
        subst he
        rw [past_other hends] at hpast ⊢
        rw [latest_other hends, List.append_nil]
        exact ih hlog hpast
      · rw [hends] at he
        rw [past_step hends, List.forall_mem_append, List.forall_mem_singleton] at hpast
        have hrest := ih hlog hpast.1
        have hgrown := append_grown hpast.2
        rw [past_step hends, latest_step hends, List.flatMap_append, List.flatMap_singleton, ← List.append_assoc,
          hrest, List.append_assoc, hgrown, List.append_assoc]
        exact congrArg (items' ++ ·) he
  rw [gaps, List.flatMap_append, List.flatMap_singleton, ← List.append_assoc, key, List.append_assoc,
    append_grown hlast]

/-- **What the thread put in is what the others took, and what is left.** -/
theorem puts_conserve (h : AddsUp (StepsBy ends (PutsBack queue)) log items)
    (hgaps : ∀ g ∈ gaps ends w log w', queue g.2 <:+ queue g.1) :
    queue w ++ items = (gaps ends w log w').flatMap (drained queue) ++ queue w' := by
  rw [gaps, List.forall_mem_append, List.forall_mem_singleton] at hgaps
  obtain ⟨hpast, hlast⟩ := hgaps
  have key : queue w ++ items = (past ends w log).flatMap (drained queue) ++ queue (latest ends w log) := by
    clear hlast
    induction log generalizing items with
    | nil =>
      rw [h.eq_nil]
      exact List.append_nil _
    | cons e log ih =>
      obtain ⟨items', chunk, hlog, he, rfl⟩ := h.exists_of_cons
      rw [StepsBy] at he
      rcases hends : ends e with _ | ⟨b, a⟩
      · rw [hends] at he
        subst he
        rw [past_other hends] at hpast ⊢
        rw [latest_other hends, List.append_nil]
        exact ih hlog hpast
      · rw [hends] at he
        rw [past_step hends, List.forall_mem_append, List.forall_mem_singleton] at hpast
        have hrest := ih hlog hpast.1
        have hdrained := drained_append hpast.2
        have hput : queue a = queue b ++ chunk := he
        rw [past_step hends, latest_step hends, List.flatMap_append, List.flatMap_singleton, hput,
          ← List.append_assoc, hrest, ← hdrained]
        simp only [List.append_assoc]
  rw [gaps, List.flatMap_append, List.flatMap_singleton, List.append_assoc, drained_append hlast, key]

end Queue

end Others
