import EspSmoltcp.Machinery.SlotTable
import EspSmoltcp.Stack.Poll
import EspSmoltcp.Stack.Sock
import Mathlib.Data.Finmap

/-!
# Stack/Taps — the tap table is a finite map

`net_stack_l2_tap` keeps the callbacks in four slots, where EtherType 0 marks a slot as unused.  It
updates and clears in one scan and inserts in another, and a call for EtherType 0 lands on an unused
slot.

What the table is for is `TapMap`, a finite map from nonzero EtherTypes to callbacks that holds at
most four of them.  `TapTable.Refines` relates the two: every call answers as the map does and keeps
them related (`netStackL2Tap_refines`), so after any sequence of calls a frame goes to the latest
registration of its EtherType that stands, and to nothing else (`tapTable_refines`).
-/

namespace EspSmoltcp

/-! ## The table -/

/-- `L2_TAP_SLOTS`. -/
def l2TapSlots : ℕ := 4

/-- `s_taps` before the first call. -/
def tapsAtBoot : List L2Tap := List.replicate l2TapSlots {}

/-- The arguments of a call of `net_stack_l2_tap`; `cb = none` is `NULL`. -/
structure TapReg where
  ethertype : UInt16
  cb : Option TapCb
  user : ℕ
  deriving DecidableEq

/-- `net_stack_l2_tap`: the first slot with this EtherType is updated, or cleared for a `NULL`
callback; failing that, a callback takes the first unused slot. -/
def netStackL2Tap (r : TapReg) (taps : List L2Tap) : EspErr × List L2Tap :=
  match taps.findIdx? fun t => t.ethertype = r.ethertype with
  | some i => (.ok, taps.set i ⟨if r.cb.isNone then 0 else r.ethertype, r.cb, r.user⟩)
  | none =>
    if r.cb.isNone then (.ok, taps)
    else
      match taps.findIdx? fun t => t.ethertype = 0 with
      | some i => (.ok, taps.set i ⟨r.ethertype, r.cb, r.user⟩)
      | none => (.noMem, taps)

/-! ## The map -/

/-- What the table stands for: the callback and its argument for each registered EtherType. -/
abbrev TapMap := Finmap fun _ : UInt16 => TapCb × ℕ

/-- A call on the map: a `NULL` callback erases, any other is inserted if it replaces one or there is
room.  EtherType 0 is never stored. -/
def TapMap.tap (m : TapMap) (r : TapReg) : EspErr × TapMap :=
  match r.cb with
  | none => (.ok, m.erase r.ethertype)
  | some cb =>
    if r.ethertype ∈ m ∨ m.keys.card < l2TapSlots then
      (.ok, if r.ethertype = 0 then m else m.insert r.ethertype (cb, r.user))
    else (.noMem, m)

/-- The slots stand for the map: every EtherType but 0 has at most one slot, and that slot holds what
the map holds. -/
structure TapTable.Refines (taps : List L2Tap) (m : TapMap) : Prop where
  length : taps.length = l2TapSlots
  distinct : SlotTable.Distinct L2Tap.ethertype 0 taps
  armed : ∀ t ∈ taps, t.ethertype ≠ 0 → t.cb.isSome = true
  zero : (0 : UInt16) ∉ m
  lookup : ∀ et : UInt16, et ≠ 0 → m.lookup et
    = (SlotTable.lookup L2Tap.ethertype taps et).bind fun t => t.cb.map fun cb => (cb, t.user)

namespace TapTable.Refines

variable {taps : List L2Tap} {m : TapMap} {et : UInt16}

/-- At boot nothing is registered. -/
theorem boot : Refines tapsAtBoot ∅ := by
  have hfree : ∀ t ∈ tapsAtBoot, t.ethertype = 0 := fun t ht => by rw [List.eq_of_mem_replicate ht]
  refine ⟨List.length_replicate, SlotTable.distinct_of_free hfree, ?_, Finmap.notMem_empty, ?_⟩
  · exact fun t ht hne => absurd (hfree t ht) hne
  · intro et het
    have hnone : SlotTable.lookup L2Tap.ethertype tapsAtBoot et = none :=
      SlotTable.lookup_eq_none_iff.mpr fun t ht => hfree t ht ▸ het.symm
    rw [hnone, Finmap.lookup_empty]
    rfl

/-- The keys of the map are the EtherTypes in use. -/
theorem keys (h : Refines taps m) : m.keys = SlotTable.keys L2Tap.ethertype 0 taps := by
  ext et
  rw [SlotTable.mem_keys_iff_lookup, Finmap.mem_keys]
  by_cases het : et = 0
  · subst het
    simp [h.zero]
  · rw [← Finmap.lookup_isSome, h.lookup et het]
    cases hl : SlotTable.lookup L2Tap.ethertype taps et with
    | none => simp
    | some t =>
      have harmed := h.armed t (SlotTable.mem_of_lookup hl)
        (by rw [SlotTable.key_of_lookup hl]; exact het)
      simp [het, harmed]

/-- **A slot is unused exactly while the map has room.** -/
theorem exists_free_iff (h : Refines taps m) :
    (∃ t ∈ taps, t.ethertype = 0) ↔ m.keys.card < l2TapSlots := by
  rw [h.distinct.exists_free_iff, h.keys, h.length]

/-- An EtherType with no slot is not in the map. -/
theorem notMem (h : Refines taps m) (hno : ∀ t ∈ taps, t.ethertype ≠ et) : et ∉ m := by
  rw [← Finmap.mem_keys, h.keys, SlotTable.mem_keys]
  rintro ⟨-, t, ht, het⟩
  exact hno t ht het

/-- Storing a slot is an update of the map at its EtherType, with the one it replaces dropped. -/
theorem store (h : Refines taps m) {i : ℕ} {s s₀ : L2Tap} {m' : TapMap} (hi : taps[i]? = some s₀)
    (hs : s.ethertype = 0 ∨ s.ethertype = s₀.ethertype ∨ ∀ t ∈ taps, t.ethertype ≠ s.ethertype)
    (harmed : s.ethertype ≠ 0 → s.cb.isSome = true) (hzero : (0 : UInt16) ∉ m')
    (hm' : ∀ et : UInt16, et ≠ 0 → m'.lookup et
      = if et = s.ethertype then s.cb.map fun cb => (cb, s.user)
        else if et = s₀.ethertype then none else m.lookup et) :
    Refines (taps.set i s) m' := by
  refine ⟨by rw [List.length_set, h.length], h.distinct.set hi hs, fun t ht hne => ?_, hzero, ?_⟩
  · rcases List.mem_or_eq_of_mem_set ht with ht | rfl
    · exact h.armed t ht hne
    · exact harmed hne
  · intro et het
    rw [hm' et het, h.distinct.lookup_set hi hs het]
    split_ifs with h₁ h₂
    · rfl
    · rfl
    · exact h.lookup et het

/-- An EtherType with a slot is in the map, unless it is the 0 of an unused one. -/
theorem mem_or_lt (h : Refines taps m) {s₀ : L2Tap} (hs₀ : s₀ ∈ taps) :
    s₀.ethertype ∈ m ∨ m.keys.card < l2TapSlots := by
  by_cases hz : s₀.ethertype = 0
  · exact .inr (h.exists_free_iff.mp ⟨s₀, hs₀, hz⟩)
  · refine .inl (Finmap.mem_keys.mp ?_)
    rw [h.keys, SlotTable.mem_keys]
    exact ⟨hz, s₀, hs₀, rfl⟩

end TapTable.Refines

/-- A scan that finds a slot finds one of that EtherType. -/
theorem getElem?_of_findIdx?_ethertype {taps : List L2Tap} {et : UInt16} {i : ℕ}
    (h : taps.findIdx? (fun t => t.ethertype = et) = some i) :
    ∃ s₀, taps[i]? = some s₀ ∧ s₀.ethertype = et := by
  obtain ⟨hlt, het, -⟩ := List.findIdx?_eq_some_iff_getElem.mp h
  exact ⟨taps[i], List.getElem?_eq_getElem hlt, by simpa using het⟩

section Step

variable {taps : List L2Tap} {m : TapMap} {r : TapReg}

open TapTable

/-- The update scan finds the slot of the EtherType: a `NULL` callback frees it… -/
theorem TapTable.Refines.clear (h : Refines taps m) {i : ℕ} {s₀ : L2Tap}
    (hi : taps[i]? = some s₀) (user : ℕ) :
    Refines (taps.set i ⟨0, none, user⟩) (m.erase s₀.ethertype) := by
  refine h.store hi (.inl rfl) (fun hne => absurd rfl hne) ?_ fun et het => ?_
  · rw [Finmap.mem_erase]
    exact fun hm => h.zero hm.2
  · rw [if_neg het]
    split_ifs with he
    · rw [he, Finmap.lookup_erase]
    · rw [Finmap.lookup_erase_ne he]

/-- …and a callback is stored, in that slot or in an unused one. -/
theorem TapTable.Refines.put (h : Refines taps m) {i : ℕ} {s₀ : L2Tap} (hi : taps[i]? = some s₀)
    {et : UInt16} (het : et ≠ 0) (cb : TapCb) (user : ℕ)
    (hs : s₀.ethertype = et ∨ s₀.ethertype = 0 ∧ ∀ t ∈ taps, t.ethertype ≠ et) :
    Refines (taps.set i ⟨et, some cb, user⟩) (m.insert et (cb, user)) := by
  refine h.store hi (.inr (hs.imp Eq.symm And.right)) (fun _ => rfl) ?_ fun et' het' => ?_
  · rw [Finmap.mem_insert]
    rintro (h0 | h0)
    · exact het h0.symm
    · exact h.zero h0
  · dsimp only
    by_cases he : et' = et
    · subst he
      rw [if_pos rfl, Finmap.lookup_insert, Option.map_some]
    · have he₀ : et' ≠ s₀.ethertype := by
        rcases hs with hs | hs
        · exact hs ▸ he
        · exact hs.1 ▸ het'
      rw [if_neg he, if_neg he₀, Finmap.lookup_insert_of_ne m he]

/-- A callback for EtherType 0 lands on an unused slot, and the map does not change. -/
theorem TapTable.Refines.park (h : Refines taps m) {i : ℕ} {s₀ : L2Tap} (hi : taps[i]? = some s₀)
    (hs₀ : s₀.ethertype = 0) (cb : Option TapCb) (user : ℕ) :
    Refines (taps.set i ⟨0, cb, user⟩) m := by
  refine h.store hi (.inl rfl) (fun hne => absurd rfl hne) h.zero fun et het => ?_
  rw [if_neg het, if_neg (hs₀ ▸ het)]

/-- **Every call answers as the map does, and keeps the two related.** -/
theorem netStackL2Tap_refines (h : Refines taps m) (r : TapReg) :
    (netStackL2Tap r taps).1 = (m.tap r).1 ∧ Refines (netStackL2Tap r taps).2 (m.tap r).2 := by
  rcases hf : taps.findIdx? fun t => t.ethertype = r.ethertype with _ | i
  · have hno : ∀ t ∈ taps, t.ethertype ≠ r.ethertype := by simpa using hf
    rw [netStackL2Tap, hf, TapMap.tap]
    rcases r.cb with _ | cb
    · -- Nothing to clear.
      have herase : m.erase r.ethertype = m := Finmap.ext_lookup fun et => by
        by_cases he : et = r.ethertype
        · rw [he, Finmap.lookup_erase, Finmap.lookup_eq_none.mpr (h.notMem hno)]
        · rw [Finmap.lookup_erase_ne he]
      simpa [herase] using h
    · rcases hfree : taps.findIdx? fun t => t.ethertype = 0 with _ | i
      · have hfull : ¬ m.keys.card < l2TapSlots := by
          rw [← h.exists_free_iff]
          simpa using hfree
        simpa [h.notMem hno, hfull, hfree] using h
      · obtain ⟨s₀, hi, hs₀⟩ := getElem?_of_findIdx?_ethertype hfree
        have het : r.ethertype ≠ 0 := fun h0 => hno s₀ (List.mem_of_getElem? hi) (hs₀.trans h0.symm)
        have hroom := h.exists_free_iff.mp ⟨s₀, List.mem_of_getElem? hi, hs₀⟩
        simpa [hroom, het, hfree] using h.put hi het cb r.user (.inr ⟨hs₀, hno⟩)
  · obtain ⟨s₀, hi, hs₀⟩ := getElem?_of_findIdx?_ethertype hf
    rw [netStackL2Tap, hf, TapMap.tap, ← hs₀]
    rcases r.cb with _ | cb
    · exact ⟨rfl, h.clear hi r.user⟩
    · have hmem := h.mem_or_lt (List.mem_of_getElem? hi)
      by_cases hz : s₀.ethertype = 0
      · rw [hz] at hmem
        simpa [hmem, hz] using h.park hi hz (some cb) r.user
      · simpa [hmem, hz] using h.put hi hz cb r.user (.inl rfl)

end Step

/-! ## Dispatch -/

/-- **A frame goes to what the map holds for its EtherType.** -/
theorem dispatchTap_of_refines {taps : List L2Tap} {m : TapMap} (h : TapTable.Refines taps m)
    (i : IfaceId) {f : NetFrame} (hlen : 14 ≤ f.data.length) (het : ethertypeOf f ≠ 0) :
    dispatchTap taps i f = (m.lookup (ethertypeOf f)).map fun c => ⟨c.1, c.2, i, f⟩ := by
  rw [h.lookup _ het]
  cases hd : dispatchTap taps i f with
  | none =>
    have hno := dispatchTap_eq_none_iff.mp hd
    cases hl : SlotTable.lookup L2Tap.ethertype taps (ethertypeOf f) with
    | none => rfl
    | some t =>
      have hkey := SlotTable.key_of_lookup hl
      have hmem := SlotTable.mem_of_lookup hl
      exact absurd ⟨hlen, t, hmem, hkey, h.armed t hmem (hkey ▸ het)⟩ hno
  | some c =>
    obtain ⟨-, rfl, rfl, t, ht, hkey, hcb, huser⟩ := of_dispatchTap_some hd
    rw [(h.distinct.lookup_eq_some_iff het).mpr ⟨hkey, ht⟩]
    simp [hcb, huser]

/-- A callback for a nonzero EtherType is refused exactly when four others fill the map. -/
theorem TapMap.tap_eq_noMem_iff (m : TapMap) {r : TapReg} (hcb : r.cb ≠ none) :
    (m.tap r).1 = .noMem ↔ r.ethertype ∉ m ∧
      ∃ ets : Finset UInt16, ets.card = l2TapSlots ∧ ∀ et ∈ ets, et ≠ r.ethertype ∧ et ∈ m := by
  obtain ⟨cb, hcb⟩ := Option.ne_none_iff_exists'.mp hcb
  have hiff : (m.tap r).1 = .noMem ↔ r.ethertype ∉ m ∧ l2TapSlots ≤ m.keys.card := by
    rw [TapMap.tap, hcb]
    split_ifs with hroom
    · simpa [or_iff_not_imp_left] using hroom
    · simpa using hroom
  rw [hiff]
  refine and_congr_right fun hno => ⟨fun hle => ?_, ?_⟩
  · obtain ⟨ets, hsub, hcard⟩ := Finset.exists_subset_card_eq hle
    refine ⟨ets, hcard, fun et het => ?_⟩
    have hmem := Finmap.mem_keys.mp (hsub het)
    exact ⟨fun he => hno (he ▸ hmem), hmem⟩
  · rintro ⟨ets, hcard, hets⟩
    rw [← hcard]
    exact Finset.card_le_card fun et het => Finmap.mem_keys.mpr (hets et het).2

/-! ## Runs -/

/-- What was asked of the table and what it answered, newest first. -/
abbrev TapLog := List (TapReg × EspErr)

/-- The answers to the calls since boot, newest first, and the table they leave. -/
def afterCalls : List TapReg → TapLog × List L2Tap
  | [] => ([], tapsAtBoot)
  | r :: rs =>
    let (log, taps) := afterCalls rs
    let (rc, taps) := netStackL2Tap r taps
    ((r, rc) :: log, taps)

/-- The registration of an EtherType that stands: the latest call for it that succeeded, unless that
cleared it. -/
def standing (log : TapLog) (et : UInt16) : Option (TapCb × ℕ) :=
  (log.find? fun c => c.1.ethertype = et ∧ c.2 = .ok).bind fun c => c.1.cb.map fun cb => (cb, c.1.user)

/-- The map after the same calls. -/
def mapAfter : List TapReg → TapMap
  | [] => ∅
  | r :: rs => ((mapAfter rs).tap r).2

theorem refines_afterCalls (rs : List TapReg) : TapTable.Refines (afterCalls rs).2 (mapAfter rs) := by
  induction rs with
  | nil => exact .boot
  | cons r rs ih => exact (netStackL2Tap_refines ih r).2

/-- A call changes the map at its own EtherType only, and there to what it registers… -/
theorem lookup_tap (m : TapMap) (r : TapReg) {et : UInt16} (het : et ≠ 0) :
    (m.tap r).2.lookup et
      = if r.ethertype = et ∧ (m.tap r).1 = .ok then r.cb.map fun cb => (cb, r.user)
        else m.lookup et := by
  obtain ⟨et', cb, user⟩ := r
  rcases cb with _ | cb
  · by_cases he : et' = et
    · subst he
      simp [TapMap.tap]
    · simp [TapMap.tap, he, Finmap.lookup_erase_ne (Ne.symm he)]
  · by_cases hroom : et' ∈ m ∨ m.keys.card < l2TapSlots
    · by_cases he : et' = et
      · subst he
        simp [TapMap.tap, hroom, het]
      · by_cases hz : et' = 0
        · subst hz
          simp [TapMap.tap, hroom, he]
        · simp [TapMap.tap, hroom, he, hz, Finmap.lookup_insert_of_ne m (Ne.symm he)]
    · simp [TapMap.tap, hroom]

/-- …so what it holds is what stands. -/
theorem lookup_mapAfter (rs : List TapReg) {et : UInt16} (het : et ≠ 0) :
    (mapAfter rs).lookup et = standing (afterCalls rs).1 et := by
  induction rs with
  | nil => exact Finmap.lookup_empty et
  | cons r rs ih =>
    have hrc := (netStackL2Tap_refines (refines_afterCalls rs) r).1
    have hlog : (afterCalls (r :: rs)).1
        = (r, ((mapAfter rs).tap r).1) :: (afterCalls rs).1 := by
      rw [← hrc]
      rfl
    rw [mapAfter, lookup_tap _ r het, hlog, standing, List.find?_cons]
    by_cases h : r.ethertype = et ∧ ((mapAfter rs).tap r).1 = .ok
    · simp [h]
    · simpa [h, standing] using ih

/-- An EtherType is in the map exactly when it is not 0 and a registration of it stands. -/
theorem mem_mapAfter_iff (rs : List TapReg) {et : UInt16} :
    et ∈ mapAfter rs ↔ et ≠ 0 ∧ (standing (afterCalls rs).1 et).isSome = true := by
  by_cases het : et = 0
  · subst het
    simp [(refines_afterCalls rs).zero]
  · rw [← lookup_mapAfter rs het, Finmap.lookup_isSome]
    simp [het]

/-- **The tap table refines a finite map.**  After any calls, a frame with a nonzero EtherType goes to
the registration of that EtherType that stands, once, and to nothing if none does; and a further
registration is refused exactly when it would be a fifth one, and then changes nothing. -/
theorem tapTable_refines (rs : List TapReg) :
    let log := (afterCalls rs).1
    let taps := (afterCalls rs).2
    TapTable.Refines taps (mapAfter rs) ∧
    (∀ (i : IfaceId) (f : NetFrame), 14 ≤ f.data.length → ethertypeOf f ≠ 0 →
      dispatchTap taps i f
        = (standing log (ethertypeOf f)).map fun c => ⟨c.1, c.2, i, f⟩) ∧
    ∀ r : TapReg, r.ethertype ≠ 0 → r.cb ≠ none →
      ((netStackL2Tap r taps).1 = .noMem ↔
        standing log r.ethertype = none ∧ ∃ ets : Finset UInt16, ets.card = l2TapSlots ∧
          ∀ et ∈ ets, et ≠ r.ethertype ∧ et ≠ 0 ∧ (standing log et).isSome = true) ∧
      ((netStackL2Tap r taps).1 = .noMem → (netStackL2Tap r taps).2 = taps) := by
  intro log taps
  have href := refines_afterCalls rs
  refine ⟨href, fun i f hlen het => ?_, fun r het hcb => ⟨?_, fun hno => ?_⟩⟩
  · rw [dispatchTap_of_refines href i hlen het, lookup_mapAfter rs het]
  · rw [(netStackL2Tap_refines href r).1, TapMap.tap_eq_noMem_iff _ hcb, ← Finmap.lookup_eq_none,
      lookup_mapAfter rs het]
    simp only [mem_mapAfter_iff, log]
  · unfold netStackL2Tap at hno ⊢
    split at hno
    · cases hno
    · split_ifs at hno ⊢ with hnull
      split at hno
      · cases hno
      · rfl

/-- A callback parked under EtherType 0 takes no room from the others. -/
example : ((afterCalls [⟨5, some 1, 0⟩, ⟨4, some 1, 0⟩, ⟨3, some 1, 0⟩, ⟨2, some 1, 0⟩, ⟨1, some 1, 0⟩,
    ⟨0, some 1, 0⟩]).1.map Prod.snd) = [.noMem, .ok, .ok, .ok, .ok, .ok] := by decide

end EspSmoltcp
