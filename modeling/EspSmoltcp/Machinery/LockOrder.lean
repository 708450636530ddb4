import EspSmoltcp.Machinery.Sync

/-!
# Machinery/LockOrder — tasks that take their locks upwards

A rank on the locks is an order to take them in.  `Sync.heldAfter` runs a skeleton and keeps the set of
locks it holds; it is `none` if a lock may be taken that does not rank above all that are held, or given
without being held.

Tasks whose skeletons end with what they began with can never block each other in a circle
(`Tasks.Orderly.not_deadlocked`): each waits for a lock that ranks above all it holds.
-/

namespace Sync

variable {L R : Type} [DecidableEq L] (rank : L → ℕ)

/-! ## Paths -/

/-- A path takes locks upwards, gives what it holds and ends with nothing, from a point where these are
held. -/
def Ascends : Finset L → List (SyncStep L R) → Prop
  | held, [] => held = ∅
  | held, .take l :: tr => (∀ l' ∈ held, rank l' < rank l) ∧ Ascends (insert l held) tr
  | held, .give l :: tr => l ∈ held ∧ Ascends (held.erase l) tr
  | held, .enter _ :: tr => Ascends held tr
  | held, .leave _ :: tr => Ascends held tr

/-- What the skeleton holds at its end, if its paths agree on that and take locks upwards. -/
def heldAfter : Sync L R → Finset L → Option (Finset L)
  | skip, held => some held
  | take l, held => if ∀ l' ∈ held, rank l' < rank l then some (insert l held) else none
  | give l, held => if l ∈ held then some (held.erase l) else none
  | call _, held => some held
  | seq p q, held => (p.heldAfter held).bind q.heldAfter
  | alt p q, held => if p.heldAfter held = q.heldAfter held then p.heldAfter held else none
  | loop p, held => if p.heldAfter held = some held then some held else none

variable {rank}

/-- Paths that end with nothing held can be run one after the other. -/
theorem Ascends.append {held : Finset L} {tr tr' : List (SyncStep L R)} (h : Ascends rank held tr)
    (h' : Ascends rank ∅ tr') : Ascends rank held (tr ++ tr') := by
  induction tr generalizing held with
  | nil =>
    obtain rfl : held = ∅ := h
    exact h'
  | cons st tr ih =>
    cases st with
    | take l => exact ⟨h.1, ih h.2⟩
    | give l => exact ⟨h.1, ih h.2⟩
    | enter r => exact ih h
    | leave r => exact ih h

/-- **The paths of an accepted skeleton take locks upwards.** -/
theorem Trace.ascends {p : Sync L R} {tr : List (SyncStep L R)} (h : Trace p tr) {held held' : Finset L}
    (hp : p.heldAfter rank held = some held') {rest : List (SyncStep L R)}
    (hrest : Ascends rank held' rest) : Ascends rank held (tr ++ rest) := by
  induction h generalizing held held' rest with
  | skip =>
    obtain rfl := Option.some.inj hp
    exact hrest
  | take l =>
    rw [heldAfter] at hp
    split_ifs at hp with hup
    obtain rfl := Option.some.inj hp
    exact ⟨hup, hrest⟩
  | give l =>
    rw [heldAfter] at hp
    split_ifs at hp with hheld
    obtain rfl := Option.some.inj hp
    exact ⟨hheld, hrest⟩
  | call r =>
    obtain rfl := Option.some.inj hp
    exact hrest
  | seq _ _ ihp ihq =>
    obtain ⟨mid, hmid, hq⟩ := Option.bind_eq_some_iff.mp hp
    rw [List.append_assoc]
    exact ihp hmid (ihq hq hrest)
  | inl _ ih =>
    rw [heldAfter] at hp
    split_ifs at hp
    exact ih hp hrest
  | inr _ ih =>
    rw [heldAfter] at hp
    split_ifs at hp with heq
    exact ih (heq ▸ hp) hrest
  | done =>
    rw [heldAfter] at hp
    split_ifs at hp
    obtain rfl := Option.some.inj hp
    exact hrest
  | again _ _ ihp ihl =>
    have hloop := hp
    rw [heldAfter] at hp
    split_ifs at hp with hbody
    obtain rfl := Option.some.inj hp
    rw [List.append_assoc]
    exact ihp hbody (ihl hloop hrest)

/-- From nothing held to nothing held. -/
theorem Trace.ascends_empty {p : Sync L R} {tr : List (SyncStep L R)} (h : Trace p tr)
    (hp : p.heldAfter rank ∅ = some ∅) : Ascends rank ∅ tr := by
  rw [← List.append_nil tr]
  exact h.ascends hp rfl

end Sync

/-! ## Interleavings -/

namespace Tasks

variable {T L R : Type} [DecidableEq L] {rank : L → ℕ}

/-- The task is about to take a lock. -/
def Awaits (s : Tasks T L R) (t : T) (l : L) : Prop := ∃ tr, s.todo t = .take l :: tr

/-- **Each of these tasks waits for a lock that one of them owns.** -/
def Deadlocked (s : Tasks T L R) (D : Set T) : Prop :=
  D.Nonempty ∧ ∀ t ∈ D, ∃ l, s.Awaits t l ∧ ∃ t' ∈ D, s.owner l = some t'

/-- Every task goes on upwards from the locks it owns. -/
def Orderly (rank : L → ℕ) (s : Tasks T L R) : Prop :=
  ∀ t, ∃ held : Finset L, (∀ l, l ∈ held ↔ s.owner l = some t) ∧ Sync.Ascends rank held (s.todo t)

namespace Orderly

variable {s s' : Tasks T L R} {t : T} {l : L}

theorem idle : Orderly rank (idle : Tasks T L R) := fun _ => ⟨∅, fun l => by simp [Tasks.idle], rfl⟩

/-- Between two operations a task owns nothing. -/
theorem owner_of_idle (h : Orderly rank s) (ht : s.todo t = []) : s.owner l ≠ some t := by
  obtain ⟨held, hheld, hasc⟩ := h t
  rw [ht] at hasc
  obtain rfl : held = ∅ := hasc
  exact fun ho => Finset.notMem_empty l ((hheld l).mpr ho)

/-- A lock that is awaited ranks above all that are owned. -/
theorem rank_lt (h : Orderly rank s) (ht : s.Awaits t l) {l' : L} (ho : s.owner l' = some t) :
    rank l' < rank l := by
  obtain ⟨tr, htodo⟩ := ht
  obtain ⟨held, hheld, hasc⟩ := h t
  rw [htodo] at hasc
  exact hasc.1 l' ((hheld l').mpr ho)

/-- No task takes a lock it owns. -/
theorem not_owner (h : Orderly rank s) (ht : s.Awaits t l) : s.owner l ≠ some t := fun ho =>
  lt_irrefl _ (h.rank_lt ht ho)

/-- **Tasks that take their locks upwards never deadlock.** -/
theorem not_deadlocked (h : Orderly rank s) {n : ℕ} (hrank : ∀ l, rank l < n) (D : Set T) :
    ¬ s.Deadlocked D := by
  rintro ⟨⟨t₀, ht₀⟩, hwait⟩
  obtain ⟨l₀, hl₀, -⟩ := hwait t₀ ht₀
  -- Whoever owns what a task of `D` waits for waits for something higher: induct on the ranks above.
  have key : ∀ k, ∀ t ∈ D, ∀ l, s.Awaits t l → n ≤ rank l + k → False := by
    intro k
    induction k with
    | zero =>
      intro t _ l _ hle
      exact absurd (hrank l) (not_lt.mpr hle)
    | succ k ih =>
      intro t ht l hl hle
      obtain ⟨l₁, hl₁, t', ht', howner⟩ := hwait t ht
      obtain ⟨tr, htr⟩ := hl
      obtain ⟨tr₁, htr₁⟩ := hl₁
      obtain rfl : l = l₁ := SyncStep.take.inj (List.cons.inj (htr.symm.trans htr₁)).1
      obtain ⟨l', hl', -⟩ := hwait t' ht'
      exact ih t' ht' l' hl' (by have := h.rank_lt hl' howner; omega)
  exact key n t₀ ht₀ l₀ hl₀ (Nat.le_add_left ..)

/-- Only one task moves: the others own what they owned. -/
theorem update (h : Orderly rank s) (t : T) (held : Finset L) {todo : T → List (SyncStep L R)}
    {owner : L → Option T} {inside : T → Finset R} (htodo : ∀ u, u ≠ t → todo u = s.todo u)
    (howner : ∀ u, u ≠ t → ∀ l, owner l = some u ↔ s.owner l = some u)
    (hheld : ∀ l, l ∈ held ↔ owner l = some t) (hasc : Sync.Ascends rank held (todo t)) :
    Orderly rank ⟨todo, owner, inside⟩ := by
  intro u
  by_cases hut : u = t
  · subst hut
    exact ⟨held, hheld, hasc⟩
  · obtain ⟨held', hheld', hasc'⟩ := h u
    refine ⟨held', fun l => (hheld' l).trans (howner u hut l).symm, ?_⟩
    simp only [htodo u hut]
    exact hasc'

variable [DecidableEq T] [DecidableEq R]

theorem step {ok : List (SyncStep L R) → Prop} (hok : ∀ tr, ok tr → Sync.Ascends rank ∅ tr)
    (h : Orderly rank s) (hs : Step ok s s') : Orderly rank s' := by
  cases hs with
  | @start t tr hidle htr =>
    refine h.update t ∅ (fun u hu => Function.update_of_ne hu ..)
      (fun u _ l => Iff.rfl) (fun l => ?_) ?_
    · exact iff_of_false (Finset.notMem_empty l) (h.owner_of_idle hidle)
    · rw [Function.update_self]
      exact hok tr htr
  | @take t l tr htodo hfree =>
    obtain ⟨held, hheld, hasc⟩ := h t
    rw [htodo] at hasc
    refine h.update t (insert l held) (fun u hu => Function.update_of_ne hu ..)
      (fun u hu l' => ?_) (fun l' => ?_) ?_
    · rw [owner_take hfree]
      exact or_iff_right fun heq => hu heq.2
    · rw [owner_take hfree, Finset.mem_insert, hheld l']
      simp
    · rw [Function.update_self]
      exact hasc.2
  | @give t l tr htodo =>
    obtain ⟨held, hheld, hasc⟩ := h t
    rw [htodo] at hasc
    refine h.update t (held.erase l) (fun u hu => Function.update_of_ne hu ..)
      (fun u hu l' => ?_) (fun l' => ?_) ?_
    · rw [owner_give]
      exact and_iff_left fun heq => hu heq.2
    · rw [owner_give, Finset.mem_erase, hheld l', and_comm]
      simp
    · rw [Function.update_self]
      exact hasc.2
  | @enter t r tr htodo =>
    obtain ⟨held, hheld, hasc⟩ := h t
    rw [htodo] at hasc
    refine h.update t held (fun u hu => Function.update_of_ne hu ..) (fun u _ l => Iff.rfl) hheld ?_
    rw [Function.update_self]
    exact hasc
  | @leave t r tr htodo =>
    obtain ⟨held, hheld, hasc⟩ := h t
    rw [htodo] at hasc
    refine h.update t held (fun u hu => Function.update_of_ne hu ..) (fun u _ l => Iff.rfl) hheld ?_
    rw [Function.update_self]
    exact hasc

theorem of_run {ok : List (SyncStep L R) → Prop} (hok : ∀ tr, ok tr → Sync.Ascends rank ∅ tr)
    (h : Relation.ReflTransGen (Step ok) Tasks.idle s) : Orderly rank s := by
  induction h with
  | refl => exact idle
  | tail _ hstep ih => exact ih.step hok hstep

end Orderly

end Tasks
