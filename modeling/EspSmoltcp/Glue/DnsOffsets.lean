import EspSmoltcp.Glue.Resolver
import EspSmoltcp.Machinery.Follows

/-!
# Glue/DnsOffsets — the offsets of `parse_a_response`

On the target an offset is a `usize` of 32 bits; lengths read from the packet advance it, past the end if they
like, until the next check.

* **No offset wraps, no index is outside the packet and the loops over names end**
  (`parseAResponse32_follows`), whatever the packet holds.
* **Bytes behind the record used make no difference** (`parseAResponse_truncated`): a run that finds an address
  meets the end of the packet nowhere.
-/

namespace EspSmoltcp

/-! ## `usize` -/

/-- What can go wrong in 32 bits. -/
inductive Fault
  | panic (p : Panic)
  /-- An addition wraps; `overflow-checks` is off. -/
  | wraps
  /-- A loop is still running. -/
  | running
  deriving DecidableEq, Repr

/-- Code on 32-bit offsets. -/
abbrev Checked := Except Fault

/-- `pkt.len()`. -/
def len32 (pkt : Bytes) : UInt32 := .ofNat pkt.length

/-- `pkt[i]`. -/
def at32 (pkt : Bytes) (i : UInt32) : Checked UInt8 :=
  match pkt[i.toNat]? with
  | some b => .ok b
  | none => .error (.panic .indexOutOfBounds)

/-- `i + j`. -/
def add32 (i j : UInt32) : Checked UInt32 := if i.toNat + j.toNat < 2 ^ 32 then .ok (i + j) else .error .wraps

/-- `u16::from_be_bytes([pkt[i], pkt[j]])`. -/
def u16At32 (pkt : Bytes) (i j : UInt32) : Checked UInt16 := do
  return u16FromBe (← at32 pkt i) (← at32 pkt j)

/-- The loop over the question's name, for at most so many turns. -/
def skipQuestion32 (pkt : Bytes) : ℕ → UInt32 → Checked (Option UInt32)
  | 0, _ => .error .running
  | n + 1, i =>
    if i < len32 pkt then do
      let l ← at32 pkt i
      if l = 0 then return some i
      else if l &&& 0xC0 ≠ 0 then return none
      else
        let l ← add32 1 l.toUInt32
        skipQuestion32 pkt n (← add32 i l)
    else return some i

/-- The loop over an owner name, for at most so many turns. -/
def skipLabels32 (pkt : Bytes) : ℕ → UInt32 → Checked UInt32
  | 0, _ => .error .running
  | n + 1, i =>
    if i < len32 pkt then do
      let l ← at32 pkt i
      if l = 0 then return i
      else
        let l ← add32 1 l.toUInt32
        skipLabels32 pkt n (← add32 i l)
    else return i

/-- Past the owner name, which starts with this byte. -/
def skipName32 (turns : ℕ) (pkt : Bytes) (b : UInt8) (i : UInt32) : Checked UInt32 :=
  if b &&& 0xC0 = 0xC0 then add32 i 2 else do add32 (← skipLabels32 pkt turns i) 1

/-- A turn of the answer loop as far as the owner name. -/
def fixedPartAt32 (turns : ℕ) (pkt : Bytes) (i : UInt32) : Checked (Option UInt32) := do
  if len32 pkt < (← add32 i 12) then return none
  else
    let i ← skipName32 turns pkt (← at32 pkt i) i
    if len32 pkt < (← add32 i 10) then return none
    else return some i

/-- The rest of the turn: what the loop returns, or where it goes on. -/
def readRecord32 (pkt : Bytes) (i : UInt32) : Checked (Option Ipv4Address ⊕ UInt32) := do
  let qtype ← u16At32 pkt i (← add32 i 1)
  let rdlen ← u16At32 pkt (← add32 i 8) (← add32 i 9)
  let i ← add32 i 10
  let next ← add32 i rdlen.toUInt32
  if len32 pkt < next then return .inl none
  else if qtype = 1 ∧ rdlen = 4 then
    return .inl (some ⟨← at32 pkt i, ← at32 pkt (← add32 i 1), ← at32 pkt (← add32 i 2),
      ← at32 pkt (← add32 i 3)⟩)
  else return .inr next

/-- The answer loop, with `n` records to go. -/
def answerLoop32 (turns : ℕ) (pkt : Bytes) : ℕ → UInt32 → Checked (Option Ipv4Address)
  | 0, _ => return none
  | n + 1, i => do
    match ← fixedPartAt32 turns pkt i with
    | none => return none
    | some i =>
      match ← readRecord32 pkt i with
      | .inl r => return r
      | .inr i => answerLoop32 turns pkt n i

/-- `parse_a_response` with 32-bit offsets, its loops over names cut off after so many turns. -/
def parseAResponse32 (turns : ℕ) (pkt : Bytes) (expectId : UInt16) : Checked (Option Ipv4Address) := do
  if len32 pkt < 12 then return none
  else if (← u16At32 pkt 0 1) ≠ expectId then return none
  else
    let flags ← u16At32 pkt 2 3
    if flags &&& 0x000F ≠ 0 then return none
    else
      let ancount ← u16At32 pkt 6 7
      if ancount = 0 then return none
      else match ← skipQuestion32 pkt turns 12 with
        | none => return none
        | some i => answerLoop32 turns pkt ancount.toNat (← add32 i 5)

/-! ## No offset wraps -/

section Offsets

variable {pkt : Bytes} {u v : UInt32} {n turns : ℕ}

theorem add32_ok (h : u.toNat + v.toNat < 2 ^ 32) : add32 u v = .ok (u + v) ∧ (u + v).toNat = u.toNat + v.toNat :=
  ⟨if_pos h, by rw [UInt32.toNat_add, Nat.mod_eq_of_lt h]⟩

theorem at32_follows (pkt : Bytes) (u : UInt32) : Follows .panic Eq (byteAt pkt u.toNat) (at32 pkt u) := by
  rw [byteAt, at32]
  rcases pkt[u.toNat]? with _ | b
  · exact .error _
  · exact .ok rfl

theorem u16At32_follows (hv : v.toNat = u.toNat + 1) :
    Follows .panic Eq (u16At pkt u.toNat) (u16At32 pkt u v) := by
  refine (at32_follows pkt u).bind fun a b hab => ?_
  rw [← hv]
  refine (at32_follows pkt v).bind fun c d hcd => ?_
  rw [hab, hcd]
  exact .ok rfl

/-- `pkt.len()` and the largest length a packet can name both fit. -/
def Fits32 (pkt : Bytes) : Prop := pkt.length + 65536 ≤ 2 ^ 32

instance (pkt : Bytes) : Decidable (Fits32 pkt) := inferInstanceAs (Decidable (_ ≤ _))

theorem toNat_len32 (hfit : Fits32 pkt) : (len32 pkt).toNat = pkt.length := by
  rw [Fits32] at hfit
  rw [len32, UInt32.toNat_ofNat', Nat.mod_eq_of_lt (by omega)]

theorem lt_len32_iff (hfit : Fits32 pkt) : u < len32 pkt ↔ u.toNat < pkt.length := by
  rw [UInt32.lt_iff_toNat_lt, toNat_len32 hfit]

theorem len32_lt_iff (hfit : Fits32 pkt) : len32 pkt < u ↔ pkt.length < u.toNat := by
  rw [UInt32.lt_iff_toNat_lt, toNat_len32 hfit]

/-- A length byte and one, added to an offset inside the packet. -/
theorem add32_label (hfit : Fits32 pkt) (hu : u.toNat < pkt.length) (l : UInt8) :
    ∃ w x, add32 1 l.toUInt32 = .ok w ∧ add32 u w = .ok x ∧ x.toNat = u.toNat + (1 + l.toNat) := by
  rw [Fits32] at hfit
  have hl := l.toNat_lt
  have hone : (1 : UInt32).toNat = 1 := rfl
  obtain ⟨hw, hwn⟩ := add32_ok (u := 1) (v := l.toUInt32) (by rw [UInt8.toNat_toUInt32, hone]; omega)
  rw [UInt8.toNat_toUInt32, hone] at hwn
  obtain ⟨hx, hxn⟩ := add32_ok (u := u) (v := 1 + l.toUInt32) (by omega)
  exact ⟨_, _, hw, hx, by rw [hxn, hwn]⟩

/-- The loop over the question's name ends within the length of the packet. -/
theorem skipQuestion32_eq (hfit : Fits32 pkt) (hn : pkt.length - u.toNat < n) :
    ∃ r, skipQuestion32 pkt n u = .ok r ∧ r.map UInt32.toNat = skipQuestion pkt u.toNat := by
  induction n generalizing u with
  | zero => omega
  | succ n ih =>
    rw [skipQuestion32, skipQuestion]
    by_cases hu : u.toNat < pkt.length
    · rw [if_pos ((lt_len32_iff hfit).mpr hu), dif_pos hu, at32, List.getElem?_eq_getElem hu]
      by_cases hzero : pkt[u.toNat] = 0
      · exact ⟨some u, if_pos hzero, (if_pos hzero).symm⟩
      by_cases htop : pkt[u.toNat] &&& 0xC0 ≠ 0
      · rw [if_neg hzero, if_pos htop]
        exact ⟨none, (if_neg hzero).trans (if_pos htop), rfl⟩
      · obtain ⟨w, x, hw, hx, hxn⟩ := add32_label hfit hu pkt[u.toNat]
        obtain ⟨r, hr, hmap⟩ := ih (u := x) (by omega)
        rw [if_neg hzero, if_neg htop, ← hxn]
        refine ⟨r, (if_neg hzero).trans ((if_neg htop).trans ?_), hmap⟩
        rw [hw]
        change (add32 u w >>= skipQuestion32 pkt n) = _
        rw [hx]
        exact hr
    · rw [if_neg (mt (lt_len32_iff hfit).mp hu), dif_neg hu]
      exact ⟨some u, rfl, rfl⟩

/-- So does the loop over an owner name. -/
theorem skipLabels32_eq (hfit : Fits32 pkt) (hn : pkt.length - u.toNat < n) :
    ∃ x, skipLabels32 pkt n u = .ok x ∧ x.toNat = skipLabels pkt u.toNat := by
  induction n generalizing u with
  | zero => omega
  | succ n ih =>
    rw [skipLabels32, skipLabels]
    by_cases hu : u.toNat < pkt.length
    · rw [if_pos ((lt_len32_iff hfit).mpr hu), dif_pos hu, at32, List.getElem?_eq_getElem hu]
      by_cases hzero : pkt[u.toNat] = 0
      · exact ⟨u, if_pos hzero, (if_pos hzero).symm⟩
      · obtain ⟨w, x, hw, hx, hxn⟩ := add32_label hfit hu pkt[u.toNat]
        obtain ⟨y, hy, hyn⟩ := ih (u := x) (by omega)
        rw [if_neg hzero, ← hxn]
        refine ⟨y, (if_neg hzero).trans ?_, hyn⟩
        rw [hw]
        change (add32 u w >>= skipLabels32 pkt n) = _
        rw [hx]
        exact hy
    · rw [if_neg (mt (lt_len32_iff hfit).mp hu), dif_neg hu]
      exact ⟨u, rfl, rfl⟩

theorem skipLabels_le {i : ℕ} (h : i ≤ pkt.length + 255) : skipLabels pkt i ≤ pkt.length + 255 := by
  fun_induction skipLabels pkt i with
  | case1 => exact h
  | case2 i hi hne ih =>
    have hl := pkt[i].toNat_lt
    exact ih (by omega)
  | case3 => exact h

theorem skipQuestion_le {i j : ℕ} (h : i ≤ pkt.length + 255) (hj : skipQuestion pkt i = some j) :
    j ≤ pkt.length + 255 := by
  fun_induction skipQuestion pkt i with
  | case1 | case4 =>
    obtain rfl := Option.some.inj hj
    exact h
  | case2 => cases hj
  | case3 i hi hne htop ih =>
    have hl := pkt[i].toNat_lt
    exact ih (by omega) hj

/-- Past the owner name the offset is still small, wherever that ended. -/
theorem skipName32_eq (hfit : Fits32 pkt) (hturns : pkt.length < turns) (hu : u.toNat + 12 ≤ pkt.length)
    (b : UInt8) : ∃ x, skipName32 turns pkt b u = .ok x ∧
      x.toNat = (if b &&& 0xC0 = 0xC0 then u.toNat + 2 else skipLabels pkt u.toNat + 1) ∧
      x.toNat ≤ pkt.length + 256 := by
  rw [Fits32] at hfit
  have h2 : (2 : UInt32).toNat = 2 := rfl
  have h1 : (1 : UInt32).toNat = 1 := rfl
  rw [skipName32]
  split_ifs
  · obtain ⟨hx, hxn⟩ := add32_ok (u := u) (v := 2) (by omega)
    exact ⟨_, hx, by rw [hxn, h2], by omega⟩
  · obtain ⟨y, hy, hyn⟩ := skipLabels32_eq hfit (show pkt.length - u.toNat < turns by omega)
    have hle := skipLabels_le (show u.toNat ≤ pkt.length + 255 by omega)
    obtain ⟨hx, hxn⟩ := add32_ok (u := y) (v := 1) (by omega)
    rw [hy]
    exact ⟨_, hx, by rw [hxn, hyn, h1], by omega⟩

theorem fixedPartAt32_follows (hfit : Fits32 pkt) (hturns : pkt.length < turns)
    (hu : u.toNat ≤ pkt.length + 260) :
    Follows .panic (fun o r => r.map UInt32.toNat = o) (fixedPartAt pkt u.toNat) (fixedPartAt32 turns pkt u) := by
  have hroom : pkt.length + 65536 ≤ 2 ^ 32 := hfit
  have h12 : (12 : UInt32).toNat = 12 := rfl
  have h10 : (10 : UInt32).toNat = 10 := rfl
  obtain ⟨hend, hendn⟩ := add32_ok (u := u) (v := 12) (by omega)
  rw [h12] at hendn
  rw [fixedPartAt, fixedPartAt32]
  refine .step hend (.ite ?_ (fun _ => .ok rfl) fun hlong => ?_)
  · rw [len32_lt_iff hfit, hendn]
  refine (at32_follows pkt u).bind fun b b' hb => ?_
  obtain rfl := hb
  obtain ⟨x, hx, hxn, hxle⟩ := skipName32_eq hfit hturns (not_lt.mp hlong) b
  obtain ⟨hfixed, hfixedn⟩ := add32_ok (u := x) (v := 10) (by omega)
  refine .step hx ?_
  refine .step hfixed (.ite ?_ (fun _ => .ok rfl) fun _ => .ok ?_)
  · rw [len32_lt_iff hfit, hfixedn, h10, hxn]
  · rw [Option.map_some, hxn]

/-- The turn ends the same way, and goes on inside the packet if it does. -/
inductive SameTurn (pkt : Bytes) : AnswerTurn → Option Ipv4Address ⊕ UInt32 → Prop
  | done (r : Option Ipv4Address) : SameTurn pkt (.done r) (.inl r)
  | next (u : UInt32) (h : u.toNat ≤ pkt.length) : SameTurn pkt (.next u.toNat) (.inr u)

theorem readRecord32_follows (hfit : Fits32 pkt) (hu : u.toNat + 10 ≤ pkt.length) :
    Follows .panic (SameTurn pkt) (readRecord pkt u.toNat) (readRecord32 pkt u) := by
  have hroom : pkt.length + 65536 ≤ 2 ^ 32 := hfit
  obtain ⟨h1, h1n⟩ := add32_ok (u := u) (v := 1) (by change _ + 1 < _; omega)
  obtain ⟨h8, h8n⟩ := add32_ok (u := u) (v := 8) (by change _ + 8 < _; omega)
  obtain ⟨h9, h9n⟩ := add32_ok (u := u) (v := 9) (by change _ + 9 < _; omega)
  obtain ⟨hi, hin⟩ := add32_ok (u := u) (v := 10) (by change _ + 10 < _; omega)
  rw [readRecord, readRecord32]
  refine .step h1 ((u16At32_follows h1n).bind fun qtype qtype' hq => ?_)
  obtain rfl := hq
  refine .step h8 (.step h9 ?_)
  have hlen : Follows Fault.panic Eq (u16At pkt (u + 8).toNat) (u16At32 pkt (u + 8) (u + 9)) :=
    u16At32_follows (by rw [h8n, h9n]; rfl)
  rw [h8n] at hlen
  refine Follows.bind hlen fun rdlen rdlen' hr => ?_
  obtain rfl := hr
  have hrd := rdlen.toNat_lt
  obtain ⟨hnext, hnextn⟩ := add32_ok (u := u + 10) (v := rdlen.toUInt32)
    (by rw [UInt16.toNat_toUInt32, hin]; change _ + 10 + _ < _; omega)
  rw [UInt16.toNat_toUInt32, hin] at hnextn
  refine .step hi (.step hnext (.ite ?_ (fun _ => .ok (.done none)) fun hfits => ?_))
  · rw [len32_lt_iff hfit, hnextn]
    rfl
  refine .ite ?_ (fun _ => ?_) fun _ => ?_
  · rw [← UInt16.toNat_inj (b := 4)]
    rfl
  · have hat : ∀ j : UInt32, j.toNat < 4 →
        ∃ v, add32 (u + 10) j = .ok v ∧
          Follows Fault.panic Eq (byteAt pkt (u.toNat + 10 + j.toNat)) (at32 pkt v) := by
      intro j hj
      obtain ⟨hv, hvn⟩ := add32_ok (u := u + 10) (v := j) (by rw [hin]; change _ + 10 + _ < _; omega)
      rw [hin] at hvn
      exact ⟨_, hv, hvn ▸ at32_follows pkt (u + 10 + j)⟩
    obtain ⟨v₁, hv₁, hb₁⟩ := hat 1 (by decide)
    obtain ⟨v₂, hv₂, hb₂⟩ := hat 2 (by decide)
    obtain ⟨v₃, hv₃, hb₃⟩ := hat 3 (by decide)
    have hb₀ := at32_follows pkt (u + 10)
    rw [hin] at hb₀
    refine Follows.bind hb₀ fun a a' ha => .step hv₁ (Follows.bind hb₁ fun b b' hb => ?_)
    refine .step hv₂ (Follows.bind hb₂ fun c c' hc => .step hv₃ (Follows.bind hb₃ fun d d' hd => ?_))
    obtain ⟨rfl, rfl, rfl, rfl⟩ := And.intro ha (And.intro hb (And.intro hc hd))
    exact .ok (.done _)
  · change ¬ pkt.length < u.toNat + 10 + rdlen.toNat at hfits
    change Follows Fault.panic (SameTurn pkt) (.ok (.next (u.toNat + (10 : UInt32).toNat + rdlen.toNat))) _
    rw [← hnextn]
    refine .ok (.next _ ?_)
    rw [hnextn]
    exact Nat.not_lt.mp hfits

theorem answerLoop32_follows (hfit : Fits32 pkt) (hturns : pkt.length < turns) (hu : u.toNat ≤ pkt.length + 260) :
    Follows .panic Eq (answerLoop pkt n u.toNat) (answerLoop32 turns pkt n u) := by
  induction n generalizing u with
  | zero => exact .ok rfl
  | succ n ih =>
    rw [answerLoop, answerLoop32]
    obtain ⟨o, ho, hroom⟩ := exists_fixedPartAt pkt u.toNat
    have hfixed := fixedPartAt32_follows hfit hturns hu
    rw [ho] at hfixed ⊢
    obtain ⟨r, hr, rfl⟩ := hfixed.exists_ok
    rw [hr]
    rcases r with _ | v
    · exact .ok rfl
    · change Follows Fault.panic Eq (readRecord pkt v.toNat >>= _) (readRecord32 pkt v >>= _)
      refine Follows.bind (readRecord32_follows hfit (hroom v.toNat rfl)) fun t t' ht => ?_
      cases ht with
      | done r => exact .ok rfl
      | next v hv => exact ih (by omega)

/-- **In 32 bits the parser does what it does on unbounded offsets**, and its loops need no more turns than the
packet has bytes. -/
theorem parseAResponse32_follows (hfit : Fits32 pkt) (hturns : pkt.length < turns) (id : UInt16) :
    Follows .panic Eq (parseAResponse pkt id) (parseAResponse32 turns pkt id) := by
  have hroom : pkt.length + 65536 ≤ 2 ^ 32 := hfit
  rw [parseAResponse, parseAResponse32]
  refine .ite ?_ (fun _ => .ok rfl) fun _ => ?_
  · rw [UInt32.lt_iff_toNat_lt, toNat_len32 hfit]
    rfl
  refine (u16At32_follows (u := 0) (v := 1) rfl).bind fun id' id'' hid => ?_
  obtain rfl := hid
  refine .ite Iff.rfl (fun _ => .ok rfl) fun _ => ?_
  refine (u16At32_follows (u := 2) (v := 3) rfl).bind fun flags flags' hflags => ?_
  obtain rfl := hflags
  refine .ite Iff.rfl (fun _ => .ok rfl) fun _ => ?_
  refine (u16At32_follows (u := 6) (v := 7) rfl).bind fun ancount ancount' hcount => ?_
  obtain rfl := hcount
  refine .ite Iff.rfl (fun _ => .ok rfl) fun _ => ?_
  have h12 : (12 : UInt32).toNat = 12 := rfl
  obtain ⟨r, hr, hmap⟩ := skipQuestion32_eq hfit (show pkt.length - (12 : UInt32).toNat < turns by omega)
  rw [h12] at hmap
  rw [← hmap]
  refine .step hr ?_
  rcases r with _ | u
  · exact .ok rfl
  · have hle := skipQuestion_le (show 12 ≤ pkt.length + 255 by omega) hmap.symm
    obtain ⟨hi, hin⟩ := add32_ok (u := u) (v := 5) (by change _ + 5 < _; omega)
    have hloop := answerLoop32_follows (n := ancount.toNat) (u := u + 5) hfit hturns
      (by rw [hin]; change _ + 5 ≤ _; omega)
    rw [hin] at hloop
    exact .step hi hloop

theorem parseAResponse32_eq (hfit : Fits32 pkt) (hturns : pkt.length < turns) {id : UInt16}
    {r : Option Ipv4Address} (h : parseAResponse pkt id = .ok r) : parseAResponse32 turns pkt id = .ok r := by
  have hfollows := parseAResponse32_follows hfit hturns id
  rw [h] at hfollows
  obtain ⟨r', hr, rfl⟩ := hfollows.exists_ok
  exact hr

/-- **On a packet of at most 512 bytes the parser returns**: no index is outside the packet, no offset wraps and
the loops over names end, within one turn more than the packet has bytes; what it returns is what the parser
on unbounded offsets does. -/
theorem parseAResponse32_safe (pkt : Bytes) (id : UInt16) (hlen : pkt.length ≤ 512) :
    ∃ r, parseAResponse pkt id = .ok r ∧ ∀ turns, pkt.length < turns → parseAResponse32 turns pkt id = .ok r := by
  obtain ⟨r, hr⟩ := exists_parseAResponse pkt id
  have hfit : Fits32 pkt := by
    rw [Fits32]
    omega
  exact ⟨r, hr, fun turns hturns => parseAResponse32_eq hfit hturns hr⟩

end Offsets

/-- A packet whose owner name runs past its end. -/
def overlongName : Bytes := [0, 7, 0x81, 0x80, 0, 0, 0, 1, 0, 0, 0, 0, 0, 0, 1, 0, 1, 63] ++ List.replicate 20 1

theorem safe_overlongName : ∃ r, parseAResponse overlongName 7 = .ok r ∧
    ∀ turns, overlongName.length < turns → parseAResponse32 turns overlongName 7 = .ok r :=
  parseAResponse32_safe overlongName 7 (by decide)

/-! ## Bytes behind the record used -/

section Truncation

variable {p q : Bytes} {i j n : ℕ}

theorem byteAt_append {b : UInt8} (h : byteAt p i = .ok b) : byteAt (p ++ q) i = .ok b := by
  rw [byteAt] at h ⊢
  rcases hb : p[i]? with _ | b'
  · rw [hb] at h
    cases h
  · rw [hb] at h
    obtain ⟨hi, -⟩ := List.getElem?_eq_some_iff.mp hb
    rw [List.getElem?_append_left hi, hb]
    exact h

theorem u16At_append {x : UInt16} (h : u16At p i = .ok x) : u16At (p ++ q) i = .ok x := by
  obtain ⟨a, ha, h⟩ := Except.bind_eq_ok_iff.mp h
  obtain ⟨b, hb, h⟩ := Except.bind_eq_ok_iff.mp h
  rw [u16At, byteAt_append ha, byteAt_append hb]
  exact h

/-- A skip that ends inside the packet ends there whatever follows. -/
theorem skipLabels_append (h : skipLabels p i < p.length) : skipLabels (p ++ q) i = skipLabels p i := by
  fun_induction skipLabels p i with
  | case1 i hi hzero =>
    rw [skipLabels, dif_pos (by rw [List.length_append]; omega), List.getElem_append_left hi, if_pos hzero]
  | case2 i hi hne ih =>
    rw [skipLabels, dif_pos (by rw [List.length_append]; omega), List.getElem_append_left hi, if_neg hne, ih h]
  | case3 => omega

theorem skipQuestion_append (h : skipQuestion p i = some j) (hj : j < p.length) :
    skipQuestion (p ++ q) i = some j := by
  fun_induction skipQuestion p i with
  | case1 i hi hzero =>
    rw [skipQuestion, dif_pos (by rw [List.length_append]; omega), List.getElem_append_left hi, if_pos hzero, h]
  | case2 => cases h
  | case3 i hi hne htop ih =>
    rw [skipQuestion, dif_pos (by rw [List.length_append]; omega), List.getElem_append_left hi, if_neg hne,
      if_neg htop, ih h]
  | case4 i hi =>
    obtain rfl := Option.some.inj h
    omega

theorem fixedPartAt_append (h : fixedPartAt p i = .ok (some j)) : fixedPartAt (p ++ q) i = .ok (some j) := by
  obtain ⟨hlen, b, hb, hj, hj10⟩ := fixedPartAt_eq_some_iff.mp h
  refine fixedPartAt_eq_some_iff.mpr ⟨?_, b, byteAt_append hb, ?_, ?_⟩
  · rw [List.length_append]
    omega
  · rw [hj]
    split_ifs at hj ⊢
    · rfl
    · rw [skipLabels_append (by omega)]
  · rw [List.length_append]
    omega

theorem readRecord_append {t : AnswerTurn} (h : readRecord p i = .ok t) (ht : t ≠ .done none) :
    readRecord (p ++ q) i = .ok t := by
  obtain ⟨qtype, hq, hrest⟩ := Except.bind_eq_ok_iff.mp h
  obtain ⟨rdlen, hr, -⟩ := Except.bind_eq_ok_iff.mp hrest
  rw [readRecord_eq hq hr] at h
  rw [readRecord_eq (u16At_append hq) (u16At_append hr)]
  by_cases hshort : p.length < i + 10 + rdlen.toNat
  · rw [if_pos hshort] at h
    exact absurd (Except.ok.inj h).symm ht
  rw [if_neg hshort] at h
  rw [if_neg (by rw [List.length_append]; omega)]
  by_cases haddr : qtype = 1 ∧ rdlen.toNat = 4
  · rw [if_pos haddr] at h ⊢
    obtain ⟨a, ha, h⟩ := Except.bind_eq_ok_iff.mp h
    obtain ⟨b, hb, h⟩ := Except.bind_eq_ok_iff.mp h
    obtain ⟨c, hc, h⟩ := Except.bind_eq_ok_iff.mp h
    obtain ⟨d, hd, h⟩ := Except.bind_eq_ok_iff.mp h
    rw [byteAt_append ha, byteAt_append hb, byteAt_append hc, byteAt_append hd]
    exact h
  · rw [if_neg haddr] at h ⊢
    exact h

theorem answerLoop_append {a : Ipv4Address} (h : answerLoop p n i = .ok (some a)) :
    answerLoop (p ++ q) n i = .ok (some a) := by
  induction n generalizing i with
  | zero => cases h
  | succ n ih =>
    rw [answerLoop] at h ⊢
    obtain ⟨j?, hf, h⟩ := Except.bind_eq_ok_iff.mp h
    rcases j? with _ | j
    · cases h
    obtain ⟨t, ht, h⟩ := Except.bind_eq_ok_iff.mp h
    rw [fixedPartAt_append hf]
    change (readRecord (p ++ q) j >>= _) = _
    cases t with
    | done r =>
      obtain rfl := Except.ok.inj h
      rw [readRecord_append ht fun hnone => Option.some_ne_none a (AnswerTurn.done.inj hnone)]
      rfl
    | next k =>
      rw [readRecord_append ht (by rintro ⟨⟩)]
      exact ih h

/-- **A packet that yields an address yields it whatever follows.** -/
theorem parseAResponse_append {id : UInt16} {a : Ipv4Address} (h : parseAResponse p id = .ok (some a)) :
    parseAResponse (p ++ q) id = .ok (some a) := by
  obtain ⟨hlen, hid, ⟨flags, hflags, hrcode⟩, ancount, i, hcount, hzero, hskip, hloop⟩ :=
    parseAResponse_eq_some_iff.mp h
  have hi : i < p.length := by
    rcases hn : ancount.toNat with _ | n
    · exact absurd (UInt16.toNat_inj.mp hn) hzero
    rw [hn, answerLoop] at hloop
    obtain ⟨j?, hf, hloop⟩ := Except.bind_eq_ok_iff.mp hloop
    rcases j? with _ | j
    · cases hloop
    · have hle := (fixedPartAt_eq_some_iff.mp hf).1
      omega
  refine parseAResponse_eq_some_iff.mpr ⟨?_, u16At_append hid, ⟨flags, u16At_append hflags, hrcode⟩, ancount, i,
    u16At_append hcount, hzero, skipQuestion_append hskip hi, answerLoop_append hloop⟩
  rw [List.length_append]
  omega

/-- **Truncation never changes an answer**: a packet that yields an address yields it whatever follows, in 32 bits
as well; so two prefixes of one datagram that yield an address yield the same. -/
theorem parseAResponse_truncated {id : UInt16} {a : Ipv4Address} (h : parseAResponse p id = .ok (some a)) :
    (∀ q, parseAResponse (p ++ q) id = .ok (some a)) ∧
    (∀ q turns, Fits32 (p ++ q) → (p ++ q).length < turns →
      parseAResponse32 turns p id = .ok (some a) ∧ parseAResponse32 turns (p ++ q) id = .ok (some a)) ∧
    (∀ d p' a', p.IsPrefix d → p'.IsPrefix d → parseAResponse p' id = .ok (some a') → a' = a) := by
  refine ⟨fun q => parseAResponse_append h, fun q turns hfit hturns => ?_, ?_⟩
  · have hlen : (p ++ q).length = p.length + q.length := List.length_append
    have hfitp : Fits32 p := by
      rw [Fits32] at hfit ⊢
      omega
    exact ⟨parseAResponse32_eq hfitp (by omega) h, parseAResponse32_eq hfit hturns (parseAResponse_append h)⟩
  · rintro d p' a' ⟨q, rfl⟩ ⟨q', hq'⟩ h'
    have hsame := parseAResponse_append (q := q') h'
    rw [hq', parseAResponse_append h] at hsame
    exact (Option.some.inj (Except.ok.inj hsame)).symm

end Truncation

/-- A packet of 32 bytes: an empty question, and one record with the address `10.0.0.1`. -/
def shortAnswer : Bytes :=
  [0, 7, 0x81, 0x80, 0, 0, 0, 1, 0, 0, 0, 0, 0, 0, 1, 0, 1, 0, 0, 1, 0, 1, 0, 0, 0, 60, 0, 4, 10, 0, 0, 1]

theorem truncated_shortAnswer : (∀ q, parseAResponse (shortAnswer ++ q) 7 = .ok (some ⟨10, 0, 0, 1⟩)) ∧
    parseAResponse32 64 (shortAnswer ++ [1, 2]) 7 = .ok (some ⟨10, 0, 0, 1⟩) := by
  have h : parseAResponse shortAnswer 7 = .ok (some ⟨10, 0, 0, 1⟩) := by decide +kernel
  exact ⟨(parseAResponse_truncated h).1, ((parseAResponse_truncated h).2.1 [1, 2] 64 (by decide) (by decide)).2⟩

end EspSmoltcp
