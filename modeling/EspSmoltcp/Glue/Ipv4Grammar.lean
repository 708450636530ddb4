import EspSmoltcp.Glue.Ipv4Text

/-!
# Glue/Ipv4Grammar — the texts the two IPv4 parsers accept

`smoltcp_parse_ipv4` reads each part with `parse::<u8>`, the shortcut of `smoltcp_resolve` is the parser of
`core::net::Ipv4Addr`.

* **`parse::<u8>` reads any numeral** (`parseU8_eq_some_iff`): a `+` if there is one, any number of zeros, the
  number in decimal.
* **An octet of an address is the number in decimal** (`readOctet_eq_some_iff`).
* **The parsers differ on padded numerals** (`parsers_agree_iff`), and on nothing else.
-/

namespace EspSmoltcp

/-! ## Digits -/

section Digits

variable {cs : List Char} {acc : ℕ}

/-- More digits do not make a number smaller. -/
theorem le_ofDigitChars (cs : List Char) (acc : ℕ) : acc ≤ Nat.ofDigitChars 10 cs acc := by
  induction cs generalizing acc with
  | nil => rw [Nat.ofDigitChars_nil]
  | cons c cs ih =>
    rw [Nat.ofDigitChars_cons]
    exact le_trans (by omega) (ih _)

/-- The digit a character stands for. -/
theorem toNat_sub_lt {c : Char} (h : c.isDigit = true) : c.toNat - '0'.toNat < 10 := by
  have hlast := (Char.isDigit_iff_toNat.mp h).2
  have hten : '9'.toNat = '0'.toNat + 9 := rfl
  omega

theorem digitChar_toNat_sub {c : Char} (h : c.isDigit = true) : Nat.digitChar (c.toNat - '0'.toNat) = c := by
  have hfirst : 48 ≤ c.toNat := (Char.isDigit_iff_toNat.mp h).1
  rw [← Char.toNat_inj, Nat.toNat_digitChar_of_lt_ten (toNat_sub_lt h)]
  change 48 + (c.toNat - 48) = c.toNat
  omega

/-- Behind a number that is not zero, digits extend its decimal. -/
theorem toDigits_append_digits (hacc : 0 < acc) (h : ∀ c ∈ cs, c.isDigit = true) :
    Nat.toDigits 10 acc ++ cs = Nat.toDigits 10 (Nat.ofDigitChars 10 cs acc) := by
  induction cs generalizing acc with
  | nil => rw [Nat.ofDigitChars_nil, List.append_nil]
  | cons c cs ih =>
    have hc := h c List.mem_cons_self
    have hone : Nat.toDigits 10 acc ++ [c] = Nat.toDigits 10 (10 * acc + (c.toNat - '0'.toNat)) := by
      rw [← Nat.toDigits_append_toDigits (by decide) hacc (toNat_sub_lt hc),
        Nat.toDigits_of_lt_base (toNat_sub_lt hc), digitChar_toNat_sub hc]
    rw [Nat.ofDigitChars_cons, ← ih (by omega) fun c' hc' => h c' (List.mem_cons_of_mem _ hc'), ← hone,
      List.append_assoc, List.singleton_append]

/-- **Digits are zeros and a number in decimal.** -/
theorem exists_eq_zeros_append (hne : cs ≠ []) (h : ∀ c ∈ cs, c.isDigit = true) :
    ∃ k, cs = List.replicate k '0' ++ Nat.toDigits 10 (Nat.ofDigitChars 10 cs 0) := by
  induction cs with
  | nil => exact absurd rfl hne
  | cons c cs ih =>
    have hc := h c List.mem_cons_self
    have htail : ∀ c' ∈ cs, c'.isDigit = true := fun c' hc' => h c' (List.mem_cons_of_mem _ hc')
    rw [Nat.ofDigitChars_cons, Nat.mul_zero, Nat.zero_add]
    rcases Nat.eq_zero_or_pos (c.toNat - '0'.toNat) with hzero | hpos
    · obtain rfl : '0' = c := by rw [← digitChar_toNat_sub hc, hzero]; rfl
      rw [hzero]
      rcases cs with _ | ⟨d, ds⟩
      · exact ⟨0, by rw [Nat.ofDigitChars_nil, Nat.toDigits_zero]; rfl⟩
      · obtain ⟨k, hk⟩ := ih (List.cons_ne_nil _ _) htail
        exact ⟨k + 1, by rw [List.replicate_succ, List.cons_append, ← hk]⟩
    · refine ⟨0, ?_⟩
      rw [← toDigits_append_digits hpos htail, Nat.toDigits_of_lt_base (toNat_sub_lt hc),
        digitChar_toNat_sub hc]
      rfl

end Digits

/-! ## The two kinds of numeral -/

/-- Reading stops at a character that is no digit, and at 256. -/
theorem accDigits_eq_some_iff {cs : List Char} {acc : ℕ} {v : UInt8} (hacc : acc < 256) :
    accDigits acc cs = some v ↔ (∀ c ∈ cs, c.isDigit = true) ∧ Nat.ofDigitChars 10 cs acc = v.toNat := by
  induction cs generalizing acc with
  | nil =>
    rw [accDigits, Nat.ofDigitChars_nil, Option.some.injEq, ← UInt8.toNat_inj, UInt8.toNat_ofNat',
      Nat.mod_eq_of_lt hacc]
    exact ⟨fun h => ⟨fun _ hc => absurd hc List.not_mem_nil, h⟩, And.right⟩
  | cons c cs ih =>
    have hv := v.toNat_lt
    have hle := le_ofDigitChars cs (acc * 10 + (c.toNat - '0'.toNat))
    rw [accDigits, Nat.ofDigitChars_cons, Nat.mul_comm 10, List.forall_mem_cons, and_assoc]
    split_ifs with hc
    · rw [ih hc.2, and_iff_right hc.1]
    · refine iff_of_false id fun ⟨hd, _, heq⟩ => hc ⟨hd, ?_⟩
      omega

theorem isDigit_of_mem_decimal {b : UInt8} {c : Char} (h : c ∈ decimal b) : c.isDigit = true :=
  Nat.isDigit_of_mem_toDigits (by decide) (by decide) h

/-- **The digits of a number below 256 are zeros and its decimal.** -/
theorem accDigits_zero_eq_some_iff {cs : List Char} {v : UInt8} (hne : cs ≠ []) :
    accDigits 0 cs = some v ↔ ∃ k, cs = List.replicate k '0' ++ decimal v := by
  rw [accDigits_eq_some_iff (by decide)]
  constructor
  · rintro ⟨hdigits, hval⟩
    rw [decimal, ← hval]
    exact exists_eq_zeros_append hne hdigits
  · rintro ⟨k, rfl⟩
    refine ⟨fun c hc => ?_, ?_⟩
    · rcases List.mem_append.mp hc with hzero | hd
      · rw [List.eq_of_mem_replicate hzero]
        rfl
      · exact isDigit_of_mem_decimal hd
    · rw [Nat.ofDigitChars_append, Nat.ofDigitChars_replicate_zero, Nat.mul_zero, decimal,
        Nat.ofDigitChars_ten_toDigits]

/-- A text of the number: a `+` if there is one, any number of zeros, the number in decimal. -/
def Numeral (v : UInt8) (s : List Char) : Prop :=
  ∃ k, s = List.replicate k '0' ++ decimal v ∨ s = '+' :: (List.replicate k '0' ++ decimal v)

/-- It begins with a `+`, or with a zero that is not all of it. -/
def Padded (s : List Char) : Prop := s.head? = some '+' ∨ (s.head? = some '0' ∧ 1 < s.length)

theorem decimal_ne_nil (b : UInt8) : decimal b ≠ [] := fun h => by
  have hread := readOctet_decimal b
  rw [h] at hread
  cases hread

theorem not_padded_decimal (b : UInt8) : ¬ Padded (decimal b) := by
  have key : ∀ n : Fin 256, ¬ ((Nat.toDigits 10 n).head? = some '+' ∨
      ((Nat.toDigits 10 n).head? = some '0' ∧ 1 < (Nat.toDigits 10 n).length)) := by decide +kernel
  exact key ⟨b.toNat, b.toNat_lt⟩

/-- Zeros and a decimal do not begin with a sign. -/
theorem zeros_append_ne_plus {k : ℕ} {v : UInt8} {ds : List Char} :
    '+' :: ds ≠ List.replicate k '0' ++ decimal v := fun h => by
  have hmem : '+' ∈ List.replicate k '0' ++ decimal v := h ▸ List.mem_cons_self
  rcases List.mem_append.mp hmem with hzero | hd
  · cases List.eq_of_mem_replicate hzero
  · cases isDigit_of_mem_decimal hd

theorem zeros_append_ne_nil (k : ℕ) (v : UInt8) : List.replicate k '0' ++ decimal v ≠ [] := fun h =>
  decimal_ne_nil v (List.append_eq_nil_iff.mp h).2

/-- **`parse::<u8>` reads the numerals.** -/
theorem parseU8_eq_some_iff {s : List Char} {v : UInt8} : parseU8 s = some v ↔ Numeral v s := by
  rw [parseU8.eq_def]
  split
  · refine iff_of_false (Option.some_ne_none v).symm ?_
    rintro ⟨k, h | h⟩
    · exact zeros_append_ne_nil k v h.symm
    · cases h
  · refine iff_of_false (Option.some_ne_none v).symm ?_
    rintro ⟨k, h | h⟩
    · exact zeros_append_ne_plus h
    · exact zeros_append_ne_nil k v (List.cons.inj h).2.symm
  · rename_i ds hne
    have hds : ds ≠ [] := fun h => hne (by rw [h])
    rw [accDigits_zero_eq_some_iff hds]
    constructor
    · rintro ⟨k, rfl⟩
      exact ⟨k, .inr rfl⟩
    · rintro ⟨k, h | h⟩
      · exact absurd h zeros_append_ne_plus
      · exact ⟨k, (List.cons.inj h).2⟩
  · rename_i hnil _ hplus
    rw [accDigits_zero_eq_some_iff hnil]
    constructor
    · rintro ⟨k, h⟩
      exact ⟨k, .inl h⟩
    · rintro ⟨k, h | h⟩
      · exact ⟨k, h⟩
      · exact absurd h (hplus _)

/-- A numeral that is not padded is the number in decimal. -/
theorem Numeral.eq_decimal_iff {s : List Char} {v : UInt8} (h : Numeral v s) : s = decimal v ↔ ¬ Padded s := by
  refine ⟨fun he => he ▸ not_padded_decimal v, fun hpad => ?_⟩
  obtain ⟨k, rfl | rfl⟩ := h
  · rcases k with _ | k
    · rfl
    · have hlen := List.length_pos_iff.mpr (decimal_ne_nil v)
      refine absurd (.inr ⟨rfl, ?_⟩) hpad
      rw [List.length_append, List.length_replicate]
      omega
  · exact absurd (.inl rfl) hpad

theorem numeral_decimal (v : UInt8) : Numeral v (decimal v) := ⟨0, .inl rfl⟩

/-- **An octet of an address is a number in decimal.** -/
theorem readOctet_eq_some_iff {s : List Char} {v : UInt8} : readOctet s = some v ↔ s = decimal v := by
  refine ⟨fun h => ?_, fun h => h ▸ readOctet_decimal v⟩
  rw [readOctet] at h
  split_ifs at h with hbad
  have hpad : ¬ (s.head? = some '0' ∧ 1 < s.length) := fun hzero => hbad (.inr (.inr hzero))
  obtain ⟨k, hk⟩ := (accDigits_zero_eq_some_iff fun hnil => hbad (.inl hnil)).mp h
  refine (Numeral.eq_decimal_iff ⟨k, .inl hk⟩).mpr ?_
  rintro (hplus | hzero)
  · obtain ⟨ds, rfl⟩ := List.head?_eq_some_iff.mp hplus
    exact zeros_append_ne_plus hk
  · exact hpad hzero

/-! ## The two parsers -/

/-- The loop reads the parts one by one, four at most. -/
theorem parseParts_eq_some_iff {parts : List (List Char)} {acc os : List UInt8} (hacc : acc.length ≤ 4) :
    parseParts parts acc = some os ↔
      acc.length + parts.length ≤ 4 ∧ ∃ vs, List.Forall₂ Numeral vs parts ∧ os = acc ++ vs := by
  induction parts generalizing acc with
  | nil =>
    rw [parseParts, Option.some.injEq]
    constructor
    · rintro rfl
      exact ⟨hacc, [], .nil, (List.append_nil _).symm⟩
    · rintro ⟨-, vs, hvs, rfl⟩
      cases hvs
      exact (List.append_nil _).symm
  | cons part parts ih =>
    rw [parseParts, List.length_cons]
    split_ifs with hfull
    · refine iff_of_false id ?_
      rintro ⟨hlen, -⟩
      omega
    have hacc' : ∀ v, (acc ++ [v]).length ≤ 4 := fun v => by
      rw [List.length_append, List.length_singleton]
      omega
    rcases hv : parseU8 part with _ | v
    · refine iff_of_false (Option.some_ne_none os).symm ?_
      rintro ⟨-, vs, hvs, rfl⟩
      cases hvs with
      | cons hnum _ => exact Option.some_ne_none _ ((parseU8_eq_some_iff.mpr hnum).symm.trans hv)
    · simp only [ih (hacc' v), List.length_append, List.length_singleton]
      constructor
      · rintro ⟨hlen, vs, hvs, rfl⟩
        exact ⟨by omega, v :: vs, .cons (parseU8_eq_some_iff.mp hv) hvs, List.append_assoc ..⟩
      · rintro ⟨hlen, vs, hvs, rfl⟩
        cases hvs with
        | @cons v' _ vs _ hnum hrest =>
          obtain rfl := Option.some.inj ((parseU8_eq_some_iff.mpr hnum).symm.trans hv)
          exact ⟨by omega, vs, hrest, List.append_cons ..⟩

/-- The text has four parts between its dots, and each of them is this. -/
def Quad (P : List Char → Prop) (name : CStr) : Prop :=
  ∃ cs, name.toStr = some cs ∧ (cs.splitOn '.').length = 4 ∧ ∀ part ∈ cs.splitOn '.', P part

/-- Four numerals, one of them padded. -/
def Lax (name : CStr) : Prop :=
  ∃ cs, name.toStr = some cs ∧ (cs.splitOn '.').length = 4 ∧
    (∀ part ∈ cs.splitOn '.', ∃ v, Numeral v part) ∧ ∃ part ∈ cs.splitOn '.', Padded part

/-- Every octet is read. -/
theorem exists_parseParts_iff {parts : List (List Char)} :
    (∃ a b c d, parseParts parts [] = some [a, b, c, d]) ↔
      parts.length = 4 ∧ ∀ part ∈ parts, ∃ v, Numeral v part := by
  constructor
  · rintro ⟨a, b, c, d, h⟩
    obtain ⟨-, vs, hvs, hos⟩ := (parseParts_eq_some_iff (by decide)).mp h
    obtain rfl : [a, b, c, d] = vs := hos
    rcases hvs with _ | ⟨ha, _ | ⟨hb, _ | ⟨hc, _ | ⟨hd, ⟨⟩⟩⟩⟩⟩
    exact ⟨rfl, by simpa using ⟨⟨a, ha⟩, ⟨b, hb⟩, ⟨c, hc⟩, ⟨d, hd⟩⟩⟩
  · rintro ⟨hlen, hnum⟩
    obtain ⟨p, q, r, s, rfl⟩ := List.length_eq_four.mp hlen
    obtain ⟨a, ha⟩ := hnum p (by simp)
    obtain ⟨b, hb⟩ := hnum q (by simp)
    obtain ⟨c, hc⟩ := hnum r (by simp)
    obtain ⟨d, hd⟩ := hnum s (by simp)
    exact ⟨a, b, c, d, (parseParts_eq_some_iff (by decide)).mpr
      ⟨by simp, [a, b, c, d], .cons ha (.cons hb (.cons hc (.cons hd .nil))), rfl⟩⟩

/-- **What `smoltcp_parse_ipv4` accepts: four numerals.**  What it refuses leaves `*out_be` alone. -/
theorem smoltcpParseIpv4_spec (name : CStr) (out : UInt32) :
    ((smoltcpParseIpv4 (some name) (some out)).1 = 0 ↔ Quad (fun part => ∃ v, Numeral v part) name) ∧
    ((smoltcpParseIpv4 (some name) (some out)).1 ≠ 0 →
      smoltcpParseIpv4 (some name) (some out) = (-1, some out)) := by
  have herr : (-1 : ℤ) ≠ 0 := by decide
  rw [Quad, smoltcpParseIpv4]
  rcases name.toStr with _ | cs
  · refine ⟨iff_of_false herr ?_, fun _ => rfl⟩
    rintro ⟨_, h, -⟩
    exact (Option.some_ne_none _).symm h
  · simp only [Option.some.injEq, exists_eq_left', ← exists_parseParts_iff]
    split
    · rename_i a b c d hparts
      exact ⟨iff_of_true rfl ⟨a, b, c, d, hparts⟩, fun h => absurd rfl h⟩
    · rename_i hno
      refine ⟨iff_of_false herr ?_, fun _ => rfl⟩
      rintro ⟨a, b, c, d, h⟩
      exact hno a b c d h

/-- `Ipv4Addr::from_str` reads four octets. -/
theorem parseIpv4Addr_isSome_iff {cs : List Char} : (parseIpv4Addr cs).isSome = true ↔
    (cs.splitOn '.').length = 4 ∧ ∀ part ∈ cs.splitOn '.', ∃ v, part = decimal v := by
  rw [parseIpv4Addr]
  split
  · rename_i p q r s hparts
    rw [hparts]
    constructor
    · intro h
      obtain ⟨addr, haddr⟩ := Option.isSome_iff_exists.mp h
      obtain ⟨a, ha, haddr⟩ := Option.bind_eq_some_iff.mp haddr
      obtain ⟨b, hb, haddr⟩ := Option.bind_eq_some_iff.mp haddr
      obtain ⟨c, hc, haddr⟩ := Option.bind_eq_some_iff.mp haddr
      obtain ⟨d, hd, -⟩ := Option.bind_eq_some_iff.mp haddr
      rw [readOctet_eq_some_iff] at ha hb hc hd
      exact ⟨rfl, by simpa using ⟨⟨a, ha⟩, ⟨b, hb⟩, ⟨c, hc⟩, ⟨d, hd⟩⟩⟩
    · rintro ⟨-, hdec⟩
      obtain ⟨⟨a, rfl⟩, ⟨b, rfl⟩, ⟨c, rfl⟩, d, rfl⟩ := by simpa using hdec
      simp [readOctet_decimal]
  · rename_i hno
    refine iff_of_false Bool.false_ne_true ?_
    rintro ⟨hlen, -⟩
    obtain ⟨p, q, r, s, hparts⟩ := List.length_eq_four.mp hlen
    exact hno p q r s hparts

/-- **What the shortcut accepts: four octets in decimal.** -/
theorem resolveShortcut_isSome_iff (name : CStr) :
    (resolveShortcut name).isSome = true ↔ Quad (fun part => ∃ v, part = decimal v) name := by
  rw [Quad, resolveShortcut]
  rcases name.toStr with _ | cs
  · refine iff_of_false Bool.false_ne_true ?_
    rintro ⟨_, h, -⟩
    exact (Option.some_ne_none _).symm h
  · simp only [Option.some.injEq, exists_eq_left', ← parseIpv4Addr_isSome_iff]
    change ((parseIpv4Addr cs).bind fun addr => some (ipv4ToBe addr)).isSome = true ↔ _
    rcases parseIpv4Addr cs with _ | addr <;> exact Iff.rfl

/-- It is the text of an address. -/
theorem quad_decimal_iff (name : CStr) : Quad (fun part => ∃ v, part = decimal v) name ↔
    ∃ a b c d, name.toStr = some (dottedQuad a b c d) := by
  constructor
  · rintro ⟨cs, hcs, hlen, hdec⟩
    obtain ⟨p, q, r, s, hparts⟩ := List.length_eq_four.mp hlen
    rw [hparts] at hdec
    obtain ⟨⟨a, rfl⟩, ⟨b, rfl⟩, ⟨c, rfl⟩, d, rfl⟩ := by simpa using hdec
    exact ⟨a, b, c, d, by rw [hcs, dottedQuad, ← hparts, List.intercalate_splitOn]⟩
  · rintro ⟨a, b, c, d, h⟩
    exact ⟨_, h, by rw [splitOn_dottedQuad]; rfl, by simp [splitOn_dottedQuad]⟩

/-- **The parsers agree except on four numerals one of which is padded**: there `smoltcp_parse_ipv4` accepts
and the shortcut does not.  What the shortcut accepts are the texts of the addresses, and what
`smoltcp_parse_ipv4` refuses leaves `*out_be` alone. -/
theorem parsers_agree_iff (name : CStr) (out : UInt32) :
    (((smoltcpParseIpv4 (some name) (some out)).1 = 0 ↔ (resolveShortcut name).isSome = true) ↔ ¬ Lax name) ∧
    ((resolveShortcut name).isSome = true ↔ ∃ a b c d, name.toStr = some (dottedQuad a b c d)) ∧
    ((smoltcpParseIpv4 (some name) (some out)).1 ≠ 0 →
      smoltcpParseIpv4 (some name) (some out) = (-1, some out)) := by
  obtain ⟨haccepts, hleaves⟩ := smoltcpParseIpv4_spec name out
  refine ⟨?_, (resolveShortcut_isSome_iff name).trans (quad_decimal_iff name), hleaves⟩
  rw [haccepts, resolveShortcut_isSome_iff]
  constructor
  · rintro hagree ⟨cs, hcs, hlen, hnum, part, hpart, hpad⟩
    obtain ⟨cs', hcs', -, hdec⟩ := hagree.mp ⟨cs, hcs, hlen, hnum⟩
    obtain rfl := Option.some.inj (hcs.symm.trans hcs')
    obtain ⟨v, rfl⟩ := hdec part hpart
    exact not_padded_decimal v hpad
  · rintro hlax
    constructor
    · rintro ⟨cs, hcs, hlen, hnum⟩
      refine ⟨cs, hcs, hlen, fun part hpart => ?_⟩
      obtain ⟨v, hv⟩ := hnum part hpart
      exact ⟨v, hv.eq_decimal_iff.mpr fun hpad => hlax ⟨cs, hcs, hlen, hnum, part, hpart, hpad⟩⟩
    · rintro ⟨cs, hcs, hlen, hdec⟩
      refine ⟨cs, hcs, hlen, fun part hpart => ?_⟩
      obtain ⟨v, rfl⟩ := hdec part hpart
      exact ⟨v, numeral_decimal v⟩

/-- **`+1.2.3.04` is an address for one of them only.** -/
theorem signed_text_accepted :
    smoltcpParseIpv4 (some (CStr.ofText ['+', '1', '.', '2', '.', '3', '.', '0', '4'])) (some 0)
      = (0, some (fromBeBytes 1 2 3 4)) ∧
    resolveShortcut (CStr.ofText ['+', '1', '.', '2', '.', '3', '.', '0', '4']) = none := by
  have hparse : parseIpv4Addr ['+', '1', '.', '2', '.', '3', '.', '0', '4'] = none := by decide
  have hparts : parseParts (['+', '1', '.', '2', '.', '3', '.', '0', '4'].splitOn '.') [] = some [1, 2, 3, 4] := by
    decide
  exact ⟨by simp only [smoltcpParseIpv4, CStr.toStr_ofText, hparts], by simp [resolveShortcut, hparse]⟩

end EspSmoltcp
