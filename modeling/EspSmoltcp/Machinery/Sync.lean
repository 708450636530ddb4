import Mathlib.Data.Finset.Basic
import Mathlib.Logic.Function.Basic
import Mathlib.Logic.Relation

/-!
# Machinery/Sync — tasks that share locks

A `Sync` is the control skeleton of a task: the locks it takes and gives, the resources it enters, and
how they are composed.  A branch or a loop test of the program is a free choice, so every path of the
program is a `Trace` of its skeleton.

`Tasks.Step` interleaves any number of tasks, each running one trace after another.  `Sync.after` runs
a skeleton for one lock: whether it is held at the end, or `none` if it may be taken twice, given
without being held, or if a resource may be entered without it.  Tasks whose skeletons it accepts never
meet in a resource (`Tasks.exclusive_of_run`).
-/

/-- What a task does that others can notice. -/
inductive SyncStep (L R : Type)
  | take (l : L)
  | give (l : L)
  | enter (r : R)
  | leave (r : R)

/-- The control skeleton of a task. -/
inductive Sync (L R : Type)
  | skip
  | take (l : L)
  | give (l : L)
  /-- A call that is inside a resource from beginning to end. -/
  | call (r : R)
  | seq (p q : Sync L R)
  | alt (p q : Sync L R)
  | loop (p : Sync L R)

namespace Sync

variable {L R : Type}

/-- Perhaps this. -/
def opt (p : Sync L R) : Sync L R := .alt .skip p

/-- With the lock held. -/
def locked (l : L) (p : Sync L R) : Sync L R := .seq (.take l) (.seq p (.give l))

/-- The paths through a skeleton. -/
inductive Trace : Sync L R → List (SyncStep L R) → Prop
  | skip : Trace .skip []
  | take (l : L) : Trace (.take l) [.take l]
  | give (l : L) : Trace (.give l) [.give l]
  | call (r : R) : Trace (.call r) [.enter r, .leave r]
  | seq {p q : Sync L R} {tr tr' : List (SyncStep L R)} (hp : Trace p tr) (hq : Trace q tr') :
      Trace (.seq p q) (tr ++ tr')
  | inl {p q : Sync L R} {tr : List (SyncStep L R)} (hp : Trace p tr) : Trace (.alt p q) tr
  | inr {p q : Sync L R} {tr : List (SyncStep L R)} (hq : Trace q tr) : Trace (.alt p q) tr
  | done {p : Sync L R} : Trace (.loop p) []
  | again {p : Sync L R} {tr tr' : List (SyncStep L R)} (hp : Trace p tr) (hl : Trace (.loop p) tr') :
      Trace (.loop p) (tr ++ tr')

theorem Trace.locked {l : L} {p : Sync L R} {tr : List (SyncStep L R)} (h : Trace p tr) :
    Trace (p.locked l) (.take l :: (tr ++ [.give l])) := .seq (.take l) (.seq h (.give l))

/-! ## The rule of one lock -/

/-- A path keeps to the rule of `l`, from a point where it is held or not and these resources are
entered: the lock is not taken twice, nothing is entered without it, and it is given with nothing
entered. -/
def Guarded [DecidableEq L] [DecidableEq R] (l : L) :
    Bool → Finset R → List (SyncStep L R) → Prop
  | held, inside, [] => held = false ∧ inside = ∅
  | held, inside, .take l' :: tr =>
    if l' = l then held = false ∧ Guarded l true inside tr else Guarded l held inside tr
  | held, inside, .give l' :: tr =>
    if l' = l then inside = ∅ ∧ Guarded l false inside tr else Guarded l held inside tr
  | held, inside, .enter r :: tr => held = true ∧ Guarded l held (insert r inside) tr
  | held, inside, .leave r :: tr => Guarded l held (inside.erase r) tr

/-- Whether `l` is held after the skeleton, if its paths agree on that and keep to the rule of `l`. -/
def after [DecidableEq L] (l : L) : Sync L R → Bool → Option Bool
  | skip, held => some held
  | take l', held => if l' = l then if held then none else some true else some held
  | give l', held => if l' = l then if held then some false else none else some held
  | call _, held => if held then some held else none
  | seq p q, held => (p.after l held).bind (q.after l)
  | alt p q, held => if p.after l held = q.after l held then p.after l held else none
  | loop p, held => if p.after l held = some held then some held else none

variable [DecidableEq L] [DecidableEq R] {l : L}

/-- **The paths of an accepted skeleton keep to the rule.** -/
theorem Trace.guarded {p : Sync L R} {tr : List (SyncStep L R)} (h : Trace p tr) {held held' : Bool}
    (hp : p.after l held = some held') {rest : List (SyncStep L R)} (hrest : Guarded l held' ∅ rest) :
    Guarded l held ∅ (tr ++ rest) := by
  induction h generalizing held held' rest with
  | skip =>
    obtain rfl := Option.some.inj hp
    exact hrest
  | take l' =>
    rw [after] at hp
    rw [List.singleton_append, Guarded]
    split_ifs at hp ⊢ with hl hheld
    · obtain rfl := Option.some.inj hp
      exact ⟨Bool.not_eq_true held ▸ hheld, hrest⟩
    · obtain rfl := Option.some.inj hp
      exact hrest
  | give l' =>
    rw [after] at hp
    rw [List.singleton_append, Guarded]
    split_ifs at hp ⊢ with hl hheld
    · obtain rfl := Option.some.inj hp
      exact ⟨rfl, hrest⟩
    · obtain rfl := Option.some.inj hp
      exact hrest
  | call r =>
    rw [after] at hp
    split_ifs at hp with hheld
    obtain rfl := Option.some.inj hp
    have hnone : (insert r (∅ : Finset R)).erase r = ∅ := Finset.erase_insert (Finset.notMem_empty r)
    refine ⟨hheld, ?_⟩
    change Guarded l held ((insert r (∅ : Finset R)).erase r) rest
    rwa [hnone]
  | seq _ _ ihp ihq =>
    obtain ⟨mid, hmid, hq⟩ := Option.bind_eq_some_iff.mp hp
    rw [List.append_assoc]
    exact ihp hmid (ihq hq hrest)
  | inl _ ih =>
    rw [after] at hp
    split_ifs at hp
    exact ih hp hrest
  | inr _ ih =>
    rw [after] at hp
    split_ifs at hp with heq
    exact ih (heq ▸ hp) hrest
  | done =>
    rw [after] at hp
    split_ifs at hp
    obtain rfl := Option.some.inj hp
    exact hrest
  | again _ _ ihp ihl =>
    have hloop := hp
    rw [after] at hp
    split_ifs at hp with hbody
    obtain rfl := Option.some.inj hp
    rw [List.append_assoc]
    exact ihp hbody (ihl hloop hrest)

end Sync

/-! ## Interleavings -/

/-- Tasks `T` with what each has still to do in its current operation, who owns which lock, and which
resources each task is inside. -/
structure Tasks (T L R : Type) where
  todo : T → List (SyncStep L R)
  owner : L → Option T
  inside : T → Finset R

namespace Tasks

variable {T L R : Type} [DecidableEq T] [DecidableEq L] [DecidableEq R]

/-- Nobody does anything. -/
def idle : Tasks T L R := ⟨fun _ => [], fun _ => none, fun _ => ∅⟩

/-- One step of one task: it begins an operation, or makes the next step of the one it is in.  A lock
is taken when nobody owns it; who does not own a lock cannot give it. -/
inductive Step (ok : List (SyncStep L R) → Prop) : Tasks T L R → Tasks T L R → Prop
  | start {s : Tasks T L R} {t : T} {tr : List (SyncStep L R)} (hidle : s.todo t = []) (hok : ok tr) :
      Step ok s { s with todo := Function.update s.todo t tr }
  | take {s : Tasks T L R} {t : T} {l : L} {tr : List (SyncStep L R)} (htodo : s.todo t = .take l :: tr)
      (hfree : s.owner l = none) : Step ok s { s with
        todo := Function.update s.todo t tr
        owner := Function.update s.owner l (some t) }
  | give {s : Tasks T L R} {t : T} {l : L} {tr : List (SyncStep L R)}
      (htodo : s.todo t = .give l :: tr) : Step ok s { s with
        todo := Function.update s.todo t tr
        owner := if s.owner l = some t then Function.update s.owner l none else s.owner }
  | enter {s : Tasks T L R} {t : T} {r : R} {tr : List (SyncStep L R)}
      (htodo : s.todo t = .enter r :: tr) : Step ok s { s with
        todo := Function.update s.todo t tr
        inside := Function.update s.inside t (insert r (s.inside t)) }
  | leave {s : Tasks T L R} {t : T} {r : R} {tr : List (SyncStep L R)}
      (htodo : s.todo t = .leave r :: tr) : Step ok s { s with
        todo := Function.update s.todo t tr
        inside := Function.update s.inside t ((s.inside t).erase r) }

section Owner

omit [DecidableEq R]

variable {owner : L → Option T} {t u : T} {l l' : L}

omit [DecidableEq T] in
/-- Who owns what once a task has taken a free lock… -/
theorem owner_take (hfree : owner l = none) :
    Function.update owner l (some t) l' = some u ↔ (l' = l ∧ u = t) ∨ owner l' = some u := by
  by_cases hl : l' = l
  · subst hl
    rw [Function.update_self, hfree]
    simp [eq_comm]
  · rw [Function.update_of_ne hl]
    simp [hl]

/-- …and once it has given one. -/
theorem owner_give : (if owner l = some t then Function.update owner l none else owner) l' = some u ↔
    owner l' = some u ∧ ¬ (l' = l ∧ u = t) := by
  split_ifs with ho
  · by_cases hl : l' = l
    · subst hl
      rw [Function.update_self, ho]
      simp [eq_comm]
    · rw [Function.update_of_ne hl]
      simp [hl]
  · refine ⟨fun hu => ⟨hu, ?_⟩, And.left⟩
    rintro ⟨rfl, rfl⟩
    exact ho hu

end Owner

/-- **At most one task is inside a resource.** -/
def Exclusive (s : Tasks T L R) : Prop := ∀ t t' r, r ∈ s.inside t → r ∈ s.inside t' → t = t'

/-- Every task keeps to the rule of `l` from where it is, and is inside something only while it owns
`l`. -/
structure Keeps (l : L) (s : Tasks T L R) : Prop where
  guarded : ∀ t, Sync.Guarded l (decide (s.owner l = some t)) (s.inside t) (s.todo t)
  owned : ∀ t, s.inside t ≠ ∅ → s.owner l = some t

namespace Keeps

variable {l : L} {s s' : Tasks T L R}

theorem idle (l : L) : Keeps l (idle : Tasks T L R) := ⟨fun _ => ⟨rfl, rfl⟩, fun _ h => absurd rfl h⟩

theorem exclusive (h : Keeps l s) : s.Exclusive := by
  intro t t' r ht ht'
  have howner := h.owned t (Finset.ne_empty_of_mem ht)
  exact Option.some.inj (howner.symm.trans (h.owned t' (Finset.ne_empty_of_mem ht')))

/-- Only one task moves: the others keep what they are inside of and their view of the lock. -/
theorem update (h : Keeps l s) {t : T} {todo : T → List (SyncStep L R)} {owner : L → Option T}
    {inside : T → Finset R} (htodo : ∀ u, u ≠ t → todo u = s.todo u)
    (hinside : ∀ u, u ≠ t → inside u = s.inside u)
    (howner : ∀ u, u ≠ t → (owner l = some u ↔ s.owner l = some u))
    (hguarded : Sync.Guarded l (decide (owner l = some t)) (inside t) (todo t))
    (howned : inside t ≠ ∅ → owner l = some t) : Keeps l ⟨todo, owner, inside⟩ := by
  refine ⟨fun u => ?_, fun u hu => ?_⟩
  · by_cases hut : u = t
    · subst hut
      exact hguarded
    · have hview : decide (owner l = some u) = decide (s.owner l = some u) :=
        decide_eq_decide.mpr (howner u hut)
      simp only [htodo u hut, hinside u hut, hview]
      exact h.guarded u
  · by_cases hut : u = t
    · subst hut
      exact howned hu
    · simp only [hinside u hut] at hu
      exact (howner u hut).mpr (h.owned u hu)

theorem step {ok : List (SyncStep L R) → Prop} (hok : ∀ tr, ok tr → Sync.Guarded l false ∅ tr)
    (h : Keeps l s) (hs : Step ok s s') : Keeps l s' := by
  cases hs with
  | @start t tr hidle htr =>
    -- A task between two operations neither owns the lock nor is inside anything.
    have hg := h.guarded t
    rw [hidle, Sync.Guarded] at hg
    refine h.update (fun u hu => Function.update_of_ne hu ..) (fun u _ => rfl) (fun u _ => Iff.rfl)
      ?_ fun hne => absurd hg.2 hne
    rw [Function.update_self, hg.1, hg.2]
    exact hok tr htr
  | @take t l' tr htodo hfree =>
    have hg := h.guarded t
    rw [htodo, Sync.Guarded] at hg
    refine h.update (fun u hu => Function.update_of_ne hu ..) (fun u _ => rfl) (fun u hu => ?_) ?_
      fun hne => (owner_take hfree).mpr (.inr (h.owned t hne))
    · rw [owner_take hfree]
      exact or_iff_right fun heq => hu heq.2
    · rw [Function.update_self]
      by_cases hl : l' = l
      · subst hl
        rw [if_pos rfl] at hg
        rw [Function.update_self, decide_eq_true rfl]
        exact hg.2
      · rw [if_neg hl] at hg
        rw [Function.update_of_ne (Ne.symm hl)]
        exact hg
  | @give t l' tr htodo =>
    have hg := h.guarded t
    rw [htodo, Sync.Guarded] at hg
    have hothers : ∀ u, u ≠ t → ((if s.owner l' = some t then Function.update s.owner l' none else s.owner) l
        = some u ↔ s.owner l = some u) := by
      intro u hu
      rw [owner_give]
      exact and_iff_left fun heq => hu heq.2
    by_cases hl : l' = l
    · subst hl
      rw [if_pos rfl] at hg
      refine h.update (fun u hu => Function.update_of_ne hu ..) (fun u _ => rfl) hothers ?_
        fun hne => absurd hg.1 hne
      rw [Function.update_self, decide_eq_false fun ho => (owner_give.mp ho).2 ⟨rfl, rfl⟩]
      exact hg.2
    · rw [if_neg hl] at hg
      have hsame : (if s.owner l' = some t then Function.update s.owner l' none else s.owner) l = some t ↔
          s.owner l = some t := by
        rw [owner_give]
        exact and_iff_left fun heq => hl heq.1.symm
      refine h.update (fun u hu => Function.update_of_ne hu ..) (fun u _ => rfl) hothers ?_
        fun hne => hsame.mpr (h.owned t hne)
      rw [Function.update_self, decide_eq_decide.mpr hsame]
      exact hg
  | @enter t r tr htodo =>
    have hg := h.guarded t
    rw [htodo, Sync.Guarded] at hg
    refine h.update (fun u hu => Function.update_of_ne hu ..)
      (fun u hu => Function.update_of_ne hu ..) (fun u _ => Iff.rfl) ?_ fun _ => of_decide_eq_true hg.1
    rw [Function.update_self, Function.update_self]
    exact hg.2
  | @leave t r tr htodo =>
    have hg := h.guarded t
    rw [htodo, Sync.Guarded] at hg
    refine h.update (fun u hu => Function.update_of_ne hu ..)
      (fun u hu => Function.update_of_ne hu ..) (fun u _ => Iff.rfl) ?_ fun hne => h.owned t fun he => ?_
    · rw [Function.update_self, Function.update_self]
      exact hg
    · rw [Function.update_self, he, Finset.erase_empty] at hne
      exact hne rfl

end Keeps

/-- **Tasks that keep to the rule of a lock never meet in a resource.** -/
theorem exclusive_of_run {l : L} {ok : List (SyncStep L R) → Prop}
    (hok : ∀ tr, ok tr → Sync.Guarded l false ∅ tr) {s : Tasks T L R}
    (h : Relation.ReflTransGen (Step ok) idle s) : s.Exclusive := by
  have hkeeps : Keeps l s := by
    induction h with
    | refl => exact Keeps.idle l
    | tail _ hstep ih => exact ih.step hok hstep
  exact hkeeps.exclusive

end Tasks
