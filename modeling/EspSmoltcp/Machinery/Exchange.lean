import Mathlib.Data.List.Nodup
import Mathlib.Data.Set.Insert
import Mathlib.Logic.Function.Basic

/-!
# Machinery/Exchange — tokens handed out of slots by several tasks

Every slot holds at most one token.  A task takes hold of the token in a slot, gives it away, fetches a
new token and fills the slot with that; between any two of these the other tasks may do the same.  The
token stays in its slot until the slot is filled, so nothing but the tasks' own care keeps two of them
from the same token.

As long as no task takes hold of a token that another one has hold of, no token is given away twice and
no slot is filled twice for one token (`Exchange.Sound`).
-/

/-- A task has hold of the token in a slot. -/
structure Hold (ι τ : Type) where
  slot : ι
  token : τ
  /-- It has given the token away. -/
  given : Bool := false
  /-- What it will fill the slot with. -/
  fresh : Option τ := none

structure Exchange (T ι τ : Type) where
  slot : ι → Option τ
  hold : T → Option (Hold ι τ)
  /-- The tokens there have ever been. -/
  known : Set τ
  /-- The tokens given away, one entry each time. -/
  given : List τ
  /-- The slots filled, each with the token it was filled for. -/
  filled : List (ι × τ)

namespace Exchange

variable {T ι τ : Type} [DecidableEq T]

/-! ## What a task does -/

/-- It takes hold of a token, or lets go of it. -/
def setHold (e : Exchange T ι τ) (t : T) (h : Option (Hold ι τ)) : Exchange T ι τ :=
  { e with hold := Function.update e.hold t h }

/-- It gives its token away. -/
def give (e : Exchange T ι τ) (t : T) (h : Hold ι τ) : Exchange T ι τ :=
  { e with
    hold := Function.update e.hold t (some { h with given := true })
    given := h.token :: e.given }

/-- It fetches a token for its slot, or finds there is none. -/
def fetch (e : Exchange T ι τ) (t : T) (h : Hold ι τ) (y : Option τ) (known : Set τ) :
    Exchange T ι τ :=
  { e with hold := Function.update e.hold t (some { h with fresh := y }), known := known }

/-- It fills its slot. -/
def fill [DecidableEq ι] (e : Exchange T ι τ) (t : T) (h : Hold ι τ) : Exchange T ι τ :=
  { e with
    slot := Function.update e.slot h.slot h.fresh
    hold := Function.update e.hold t none
    filled := (h.slot, h.token) :: e.filled }

/-! ## Nothing is given twice -/

/-- Who has hold of what, and where the tokens are. -/
structure Sound (e : Exchange T ι τ) : Prop where
  slot_inj : ∀ i j x, e.slot i = some x → e.slot j = some x → i = j
  held : ∀ t h, e.hold t = some h → e.slot h.slot = some h.token
  alone : ∀ t u h k, e.hold t = some h → e.hold u = some k → h.token = k.token → t = u
  given_iff : ∀ t h, e.hold t = some h → (h.given = true ↔ h.token ∈ e.given)
  /-- A token that was given away and is still in its slot is in somebody's hold. -/
  owner : ∀ i x, e.slot i = some x → x ∈ e.given → ∃ t h, e.hold t = some h ∧ h.token = x
  fresh : ∀ t h y, e.hold t = some h → h.fresh = some y →
    y ∈ e.known ∧ y ∉ e.given ∧ ∀ i, e.slot i ≠ some y
  fresh_alone : ∀ t u h k y, e.hold t = some h → e.hold u = some k → h.fresh = some y →
    k.fresh = some y → t = u
  slot_known : ∀ i x, e.slot i = some x → x ∈ e.known
  given_known : ∀ x ∈ e.given, x ∈ e.known
  filled : ∀ p ∈ e.filled, p.2 ∈ e.given ∧ ∀ i, e.slot i ≠ some p.2
  nodup_given : e.given.Nodup
  nodup_filled : e.filled.Nodup

/-- What an updated map holds is the update, or was there before. -/
theorem update_eq_some {α β : Type} [DecidableEq α] {f : α → Option β} {a b : α} {v : Option β} {y : β}
    (h : Function.update f a v b = some y) : (b = a ∧ v = some y) ∨ (b ≠ a ∧ f b = some y) := by
  by_cases hb : b = a
  · subst hb
    exact .inl ⟨rfl, by rwa [Function.update_self] at h⟩
  · exact .inr ⟨hb, by rwa [Function.update_of_ne hb] at h⟩

theorem update_some_eq_some {α β : Type} [DecidableEq α] {f : α → Option β} {a b : α} {v y : β}
    (h : Function.update f a (some v) b = some y) : (b = a ∧ y = v) ∨ (b ≠ a ∧ f b = some y) := by
  obtain ⟨hb, hy⟩ | hb := update_eq_some h
  · exact .inl ⟨hb, (Option.some.inj hy).symm⟩
  · exact .inr hb

theorem update_none_eq_some {α β : Type} [DecidableEq α] {f : α → Option β} {a b : α} {y : β}
    (h : Function.update f a none b = some y) : b ≠ a ∧ f b = some y := by
  obtain ⟨-, hy⟩ | hb := update_eq_some h
  · cases hy
  · exact hb

namespace Sound

variable {e : Exchange T ι τ} {t : T} {h : Hold ι τ}

omit [DecidableEq T] in
/-- Tokens that nobody has seen yet do not matter. -/
theorem learn (he : e.Sound) {known : Set τ} (hsub : e.known ⊆ known) : { e with known := known }.Sound :=
  { he with
    fresh := fun t h y ht hy => ⟨hsub (he.fresh t h y ht hy).1, (he.fresh t h y ht hy).2⟩
    slot_known := fun i x hi => hsub (he.slot_known i x hi)
    given_known := fun x hx => hsub (he.given_known x hx) }

omit [DecidableEq T] in
theorem token_notMem_given (he : e.Sound) (ht : e.hold t = some h) (hg : h.given = false) :
    h.token ∉ e.given := by
  intro hx
  rw [(he.given_iff t h ht).mpr hx] at hg
  cases hg

/-- Whatever becomes of one hold, every other token given away and still in its slot has its owner. -/
theorem owner_update (he : e.Sound) (ht : e.hold t = some h) (v : Option (Hold ι τ)) {i : ι} {x : τ}
    (hi : e.slot i = some x) (hx : x ∈ e.given) (hne : x ≠ h.token) :
    ∃ u k, Function.update e.hold t v u = some k ∧ k.token = x := by
  obtain ⟨u, k, hk, rfl⟩ := he.owner i x hi hx
  have hu : u ≠ t := by
    rintro rfl
    obtain rfl := Option.some.inj (ht.symm.trans hk)
    exact hne rfl
  exact ⟨u, k, (Function.update_of_ne hu ..).trans hk, rfl⟩

section Revised

variable {h' : Hold ι τ} {u u' : T} {k k' : Hold ι τ}

/-- A hold on the same token is in the same place… -/
theorem held_update (he : e.Sound) (ht : e.hold t = some h)
    (hu : Function.update e.hold t (some h') u = some k) (hslot : h'.slot = h.slot)
    (htoken : h'.token = h.token) : e.slot k.slot = some k.token := by
  obtain ⟨-, rfl⟩ | ⟨-, hk⟩ := update_some_eq_some hu
  · rw [hslot, htoken]
    exact he.held t h ht
  · exact he.held u k hk

/-- …and nobody else has hold of it. -/
theorem alone_update (he : e.Sound) (ht : e.hold t = some h)
    (hu : Function.update e.hold t (some h') u = some k)
    (hu' : Function.update e.hold t (some h') u' = some k') (htoken : h'.token = h.token)
    (heq : k.token = k'.token) : u = u' := by
  have hold : ∀ {u k}, Function.update e.hold t (some h') u = some k →
      ∃ l, e.hold u = some l ∧ l.token = k.token := by
    intro u k hu
    obtain ⟨rfl, rfl⟩ | ⟨-, hk⟩ := update_some_eq_some hu
    · exact ⟨h, ht, htoken.symm⟩
    · exact ⟨k, hk, rfl⟩
  obtain ⟨l, hl, htok⟩ := hold hu
  obtain ⟨l', hl', htok'⟩ := hold hu'
  exact he.alone u u' l l' hl hl' (by rw [htok, htok', heq])

end Revised

/-- **A token that nobody has hold of can be taken hold of.** -/
theorem take (he : e.Sound) (ht : e.hold t = none) {i : ι} {x : τ} (hi : e.slot i = some x)
    (hfree : ∀ u k, e.hold u = some k → k.token ≠ x) :
    (e.setHold t (some { slot := i, token := x })).Sound := by
  have hx : x ∉ e.given := by
    intro hg
    obtain ⟨u, k, hk, rfl⟩ := he.owner i x hi hg
    exact hfree u k hk rfl
  -- Whoever has hold of something has it from before, or it is `x`.
  have hcases : ∀ u k, (e.setHold t (some { slot := i, token := x })).hold u = some k →
      (u = t ∧ k = { slot := i, token := x }) ∨ (u ≠ t ∧ e.hold u = some k) :=
    fun u k hu => update_some_eq_some hu
  refine { he with held := ?_, alone := ?_, given_iff := ?_, owner := ?_, fresh := ?_, fresh_alone := ?_ }
  · intro u k hu
    obtain ⟨-, rfl⟩ | ⟨-, hk⟩ := hcases u k hu
    · exact hi
    · exact he.held u k hk
  · intro u u' k k' hu hu' heq
    obtain ⟨rfl, rfl⟩ | ⟨-, hk⟩ := hcases u k hu
    · obtain ⟨rfl, -⟩ | ⟨-, hk'⟩ := hcases u' k' hu'
      · rfl
      · exact absurd heq.symm (hfree u' k' hk')
    · obtain ⟨rfl, rfl⟩ | ⟨-, hk'⟩ := hcases u' k' hu'
      · exact absurd heq (hfree u k hk)
      · exact he.alone u u' k k' hk hk' heq
  · intro u k hu
    obtain ⟨-, rfl⟩ | ⟨-, hk⟩ := hcases u k hu
    · exact iff_of_false Bool.false_ne_true hx
    · exact he.given_iff u k hk
  · intro j y hj hy
    obtain ⟨u, k, hk, rfl⟩ := he.owner j y hj hy
    have hu : u ≠ t := fun hu => by simp [hu, ht] at hk
    exact ⟨u, k, (Function.update_of_ne hu ..).trans hk, rfl⟩
  · intro u k y hu hy
    obtain ⟨-, rfl⟩ | ⟨-, hk⟩ := hcases u k hu
    · cases hy
    · exact he.fresh u k y hk hy
  · intro u u' k k' y hu hu' hy hy'
    obtain ⟨-, rfl⟩ | ⟨-, hk⟩ := hcases u k hu
    · cases hy
    obtain ⟨-, rfl⟩ | ⟨-, hk'⟩ := hcases u' k' hu'
    · cases hy'
    exact he.fresh_alone u u' k k' y hk hk' hy hy'

/-- A token that was not given away can be let go of. -/
theorem drop (he : e.Sound) (ht : e.hold t = some h) (hg : h.given = false) :
    (e.setHold t none).Sound := by
  have hx := he.token_notMem_given ht hg
  have hcases : ∀ u k, (e.setHold t none).hold u = some k → e.hold u = some k :=
    fun u k hu => (update_none_eq_some hu).2
  refine { he with
    held := fun u k hu => he.held u k (hcases u k hu)
    alone := fun u u' k k' hu hu' => he.alone u u' k k' (hcases u k hu) (hcases u' k' hu')
    given_iff := fun u k hu => he.given_iff u k (hcases u k hu)
    fresh := fun u k y hu => he.fresh u k y (hcases u k hu)
    fresh_alone := fun u u' k k' y hu hu' =>
      he.fresh_alone u u' k k' y (hcases u k hu) (hcases u' k' hu')
    owner := fun j y hj hy => ?_ }
  exact he.owner_update ht none hj hy fun heq => hx (heq ▸ hy)

/-- **A token is given away for the first time by whoever has hold of it.** -/
theorem give (he : e.Sound) (ht : e.hold t = some h) (hg : h.given = false) : (e.give t h).Sound := by
  have hx := he.token_notMem_given ht hg
  -- A hold is the one that is marked, or it was there before.
  have hcases : ∀ u k, (e.give t h).hold u = some k →
      (u = t ∧ k = { h with given := true }) ∨ (u ≠ t ∧ e.hold u = some k) :=
    fun u k hu => update_some_eq_some hu
  have hfresh : ∀ u k, (e.give t h).hold u = some k → ∃ k', e.hold u = some k' ∧ k'.fresh = k.fresh := by
    intro u k hu
    obtain ⟨rfl, rfl⟩ | ⟨-, hk⟩ := hcases u k hu
    · exact ⟨h, ht, rfl⟩
    · exact ⟨k, hk, rfl⟩
  refine { he with
    held := fun u k hu => he.held_update ht hu rfl rfl
    alone := fun u u' k k' hu hu' => he.alone_update ht hu hu' rfl
    given_iff := ?_, owner := ?_, fresh := ?_, fresh_alone := ?_, given_known := ?_, filled := ?_
    nodup_given := List.nodup_cons.mpr ⟨hx, he.nodup_given⟩ }
  · intro u k hu
    obtain ⟨-, rfl⟩ | ⟨hne, hk⟩ := hcases u k hu
    · exact iff_of_true rfl List.mem_cons_self
    · have hother : k.token ≠ h.token := fun htok => hne (he.alone u t k h hk ht htok)
      exact (he.given_iff u k hk).trans ⟨List.mem_cons_of_mem _, fun hm =>
        (List.mem_cons.mp hm).resolve_left hother⟩
  · intro j y hj hy
    obtain rfl | hold := List.mem_cons.mp hy
    · exact ⟨t, { h with given := true }, Function.update_self .., rfl⟩
    · exact he.owner_update ht _ hj hold fun heq => hx (heq ▸ hold)
  · intro u k y hu hy
    obtain ⟨k', hk', hf⟩ := hfresh u k hu
    obtain ⟨hyk, hyg, hys⟩ := he.fresh u k' y hk' (hf.trans hy)
    refine ⟨hyk, fun hm => ?_, hys⟩
    obtain rfl | hm := List.mem_cons.mp hm
    · exact hys h.slot (he.held t h ht)
    · exact hyg hm
  · intro u u' k l y hu hu' hy hy'
    obtain ⟨k', hk', hf⟩ := hfresh u k hu
    obtain ⟨l', hl', hf'⟩ := hfresh u' l hu'
    exact he.fresh_alone u u' k' l' y hk' hl' (hf.trans hy) (hf'.trans hy')
  · intro y hy
    obtain rfl | hy := List.mem_cons.mp hy
    · exact he.slot_known _ _ (he.held t h ht)
    · exact he.given_known y hy
  · intro p hp
    exact ⟨List.mem_cons_of_mem _ (he.filled p hp).1, (he.filled p hp).2⟩

/-- A token that there has not been before can be fetched. -/
theorem fetch (he : e.Sound) (ht : e.hold t = some h) {y : Option τ} {known : Set τ}
    (hsub : e.known ⊆ known) (hy : ∀ x ∈ y, x ∈ known ∧ x ∉ e.known) :
    (e.fetch t h y known).Sound := by
  have hcases : ∀ u k, (e.fetch t h y known).hold u = some k →
      (u = t ∧ k = { h with fresh := y }) ∨ (u ≠ t ∧ e.hold u = some k) :=
    fun u k hu => update_some_eq_some hu
  -- What anybody else had fetched was there before.
  have hnew : ∀ u k x, e.hold u = some k → k.fresh = some x → x ∉ y := fun u k x hk hx hm =>
    (hy x hm).2 (he.fresh u k x hk hx).1
  refine { he with
    held := fun u k hu => he.held_update ht hu rfl rfl
    alone := fun u u' k k' hu hu' => he.alone_update ht hu hu' rfl
    given_iff := ?_, owner := ?_, fresh := ?_, fresh_alone := ?_
    slot_known := fun i x hi => hsub (he.slot_known i x hi)
    given_known := fun x hx => hsub (he.given_known x hx) }
  · intro u k hu
    obtain ⟨-, rfl⟩ | ⟨-, hk⟩ := hcases u k hu
    · exact he.given_iff t h ht
    · exact he.given_iff u k hk
  · intro j x hj hx
    by_cases heq : x = h.token
    · exact ⟨t, { h with fresh := y }, Function.update_self .., heq.symm⟩
    · exact he.owner_update ht _ hj hx heq
  · intro u k x hu hx
    obtain ⟨-, rfl⟩ | ⟨-, hk⟩ := hcases u k hu
    · obtain ⟨hin, hout⟩ := hy x hx
      exact ⟨hin, fun hg => hout (he.given_known x hg), fun i hi => hout (he.slot_known i x hi)⟩
    · obtain ⟨hin, hrest⟩ := he.fresh u k x hk hx
      exact ⟨hsub hin, hrest⟩
  · intro u u' k l x hu hu' hx hx'
    obtain ⟨rfl, rfl⟩ | ⟨-, hk⟩ := hcases u k hu
    · obtain ⟨rfl, -⟩ | ⟨-, hl⟩ := hcases u' l hu'
      · rfl
      · exact absurd hx (hnew u' l x hl hx')
    · obtain ⟨rfl, rfl⟩ | ⟨-, hl⟩ := hcases u' l hu'
      · exact absurd hx' (hnew u k x hk hx)
      · exact he.fresh_alone u u' k l x hk hl hx hx'

/-- **A slot is filled for the first time for the token that was given away.** -/
theorem fill [DecidableEq ι] (he : e.Sound) (ht : e.hold t = some h) (hg : h.given = true) :
    (e.fill t h).Sound := by
  have hat := he.held t h ht
  have hgiven := (he.given_iff t h ht).mp hg
  have hcases : ∀ u k, (e.fill t h).hold u = some k → u ≠ t ∧ e.hold u = some k :=
    fun u k hu => update_none_eq_some hu
  -- A slot holds what it held, or it is the one filled.
  have hslot : ∀ i x, (e.fill t h).slot i = some x →
      (i = h.slot ∧ h.fresh = some x) ∨ (i ≠ h.slot ∧ e.slot i = some x) :=
    fun i x hi => update_eq_some hi
  have hgone : ∀ i, (e.fill t h).slot i ≠ some h.token := by
    intro i hi
    obtain ⟨-, hf⟩ | ⟨hne, hi⟩ := hslot i _ hi
    · exact (he.fresh t h _ ht hf).2.1 hgiven
    · exact hne (he.slot_inj _ _ _ hi hat)
  refine { he with
    slot_inj := ?_, held := ?_, owner := ?_, fresh := ?_, slot_known := ?_, filled := ?_,
    alone := fun u u' k k' hu hu' => he.alone u u' k k' (hcases u k hu).2 (hcases u' k' hu').2
    given_iff := fun u k hu => he.given_iff u k (hcases u k hu).2
    fresh_alone := fun u u' k k' y hu hu' =>
      he.fresh_alone u u' k k' y (hcases u k hu).2 (hcases u' k' hu').2
    nodup_filled := List.nodup_cons.mpr ⟨fun hm => (he.filled _ hm).2 _ hat, he.nodup_filled⟩ }
  · intro i j x hi hj
    obtain ⟨rfl, hf⟩ | ⟨-, hi⟩ := hslot i x hi
    · obtain ⟨rfl, -⟩ | ⟨-, hj⟩ := hslot j x hj
      · rfl
      · exact absurd hj ((he.fresh t h x ht hf).2.2 j)
    · obtain ⟨rfl, hf⟩ | ⟨-, hj⟩ := hslot j x hj
      · exact absurd hi ((he.fresh t h x ht hf).2.2 i)
      · exact he.slot_inj i j x hi hj
  · intro u k hu
    obtain ⟨hne, hk⟩ := hcases u k hu
    have hother : k.slot ≠ h.slot := by
      intro hs
      have heq : k.token = h.token :=
        Option.some.inj ((he.held u k hk).symm.trans ((congrArg e.slot hs).trans hat))
      exact hne (he.alone u t k h hk ht heq)
    exact (Function.update_of_ne hother ..).trans (he.held u k hk)
  · intro i x hi hx
    obtain ⟨-, hf⟩ | ⟨hne, hold⟩ := hslot i x hi
    · exact absurd hx (he.fresh t h x ht hf).2.1
    refine he.owner_update ht none hold hx fun heq => hne ?_
    exact he.slot_inj i h.slot h.token (heq ▸ hold) hat
  · intro u k y hu hy
    obtain ⟨hne, hk⟩ := hcases u k hu
    obtain ⟨hyk, hyg, hys⟩ := he.fresh u k y hk hy
    refine ⟨hyk, hyg, fun i hi => ?_⟩
    obtain ⟨-, hf⟩ | ⟨-, hi⟩ := hslot i y hi
    · exact hne (he.fresh_alone u t k h y hk ht hy hf)
    · exact hys i hi
  · intro i x hi
    obtain ⟨-, hf⟩ | ⟨-, hi⟩ := hslot i x hi
    · exact (he.fresh t h x ht hf).1
    · exact he.slot_known i x hi
  · intro p hp
    obtain rfl | hp := List.mem_cons.mp hp
    · exact ⟨hgiven, hgone⟩
    refine ⟨(he.filled p hp).1, fun i hi => ?_⟩
    obtain ⟨-, hf⟩ | ⟨-, hi⟩ := hslot i p.2 hi
    · exact (he.fresh t h p.2 ht hf).2.1 (he.filled p hp).1
    · exact (he.filled p hp).2 i hi

end Sound

end Exchange
