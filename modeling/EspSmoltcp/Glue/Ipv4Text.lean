import EspSmoltcp.Smoltcp.Api

/-!
# Glue/Ipv4Text — IPv4 addresses as text, as octets and as the FFI's `uint32_t`

`lib.rs` and `dns.rs` hold two text parsers: the hand-written `smoltcp_parse_ipv4` (a split on `.`
and `parse::<u8>` per part) and `core::net::Ipv4Addr`'s own.  Between Rust and C an address is a
`uint32_t` whose *bytes in memory* are the octets in order; `ipv4FromBe` and `ipv4ToBe` are that
convention on a little-endian target.
-/

namespace EspSmoltcp

/-! ## Four octets in a `u32` -/

/-- `u32::from_le_bytes`. -/
def fromLeBytes (a b c d : UInt8) : UInt32 :=
  .ofNat (a.toNat + 2 ^ 8 * b.toNat + 2 ^ 16 * c.toNat + 2 ^ 24 * d.toNat)

/-- `u32::from_be_bytes`. -/
def fromBeBytes (a b c d : UInt8) : UInt32 := fromLeBytes d c b a

/-- `u32::to_le_bytes`: the bytes a little-endian target stores, in address order. -/
def toLeBytes (x : UInt32) : UInt8 × UInt8 × UInt8 × UInt8 :=
  (.ofNat x.toNat, .ofNat (x.toNat / 2 ^ 8), .ofNat (x.toNat / 2 ^ 16), .ofNat (x.toNat / 2 ^ 24))

theorem toNat_fromLeBytes (a b c d : UInt8) : (fromLeBytes a b c d).toNat
    = a.toNat + 2 ^ 8 * b.toNat + 2 ^ 16 * c.toNat + 2 ^ 24 * d.toNat := by
  have ha := a.toNat_lt
  have hb := b.toNat_lt
  have hc := c.toNat_lt
  have hd := d.toNat_lt
  rw [fromLeBytes, UInt32.toNat_ofNat', Nat.mod_eq_of_lt]
  omega

@[simp] theorem toLeBytes_fromLeBytes (a b c d : UInt8) :
    toLeBytes (fromLeBytes a b c d) = (a, b, c, d) := by
  have ha := a.toNat_lt
  have hb := b.toNat_lt
  have hc := c.toNat_lt
  have hd := d.toNat_lt
  simp only [toLeBytes, toNat_fromLeBytes, Prod.mk.injEq, ← UInt8.toNat_inj, UInt8.toNat_ofNat']
  omega

/-- The four octets are read back from either end. -/
theorem toLeBytes_fromBeBytes (a b c d : UInt8) :
    toLeBytes (fromBeBytes a b c d) = (d, c, b, a) := toLeBytes_fromLeBytes d c b a

/-- **The two byte orders agree only on palindromes.** -/
theorem fromBeBytes_eq_fromLeBytes_iff (a b c d : UInt8) :
    fromBeBytes a b c d = fromLeBytes a b c d ↔ a = d ∧ b = c := by
  constructor
  · intro h
    have := congrArg toLeBytes h
    simp only [toLeBytes_fromBeBytes, toLeBytes_fromLeBytes, Prod.mk.injEq] at this
    exact ⟨this.2.2.2, this.2.2.1⟩
  · rintro ⟨rfl, rfl⟩
    rfl

/-- `ipv4_from_be`. -/
def ipv4FromBe (be : UInt32) : Ipv4Address :=
  let (a, b, c, d) := toLeBytes be
  ⟨a, b, c, d⟩

/-- `ipv4_to_be`. -/
def ipv4ToBe (addr : Ipv4Address) : UInt32 := fromLeBytes addr.o0 addr.o1 addr.o2 addr.o3

@[simp] theorem ipv4FromBe_ipv4ToBe (addr : Ipv4Address) : ipv4FromBe (ipv4ToBe addr) = addr := by
  simp [ipv4FromBe, ipv4ToBe]

@[simp] theorem ipv4ToBe_ipv4FromBe (be : UInt32) : ipv4ToBe (ipv4FromBe be) = be := by
  have h := be.toNat_lt
  simp only [ipv4ToBe, ipv4FromBe, toLeBytes]
  rw [← UInt32.toNat_inj, toNat_fromLeBytes]
  simp only [UInt8.toNat_ofNat']
  omega

/-! ## Decimal text -/

/-- `%u`. -/
def decimal (b : UInt8) : List Char := Nat.toDigits 10 b.toNat

/-- The text `a.b.c.d`, each octet in decimal without leading zeros. -/
def dottedQuad (a b c d : UInt8) : List Char :=
  ['.'].intercalate [decimal a, decimal b, decimal c, decimal d]

theorem dot_notMem_decimal (b : UInt8) : '.' ∉ decimal b := fun h => by
  simpa using Nat.isDigit_of_mem_toDigits (by decide) (by decide) h

/-- Splitting the text at its dots gives the four octets back. -/
theorem splitOn_dottedQuad (a b c d : UInt8) :
    (dottedQuad a b c d).splitOn '.' = [decimal a, decimal b, decimal c, decimal d] :=
  List.splitOn_intercalate '.' (by simp [dot_notMem_decimal]) (by simp)

/-- The digits of a `u8`, left to right, failing on a non-digit or past 255. -/
def accDigits : ℕ → List Char → Option UInt8
  | acc, [] => some (.ofNat acc)
  | acc, c :: cs =>
    if c.isDigit ∧ acc * 10 + (c.toNat - '0'.toNat) < 256 then
      accDigits (acc * 10 + (c.toNat - '0'.toNat)) cs
    else none

/-- `str::parse::<u8>`: one optional `+`, then at least one digit. -/
def parseU8 : List Char → Option UInt8
  | [] => none
  | ['+'] => none
  | '+' :: ds => accDigits 0 ds
  | ds => accDigits 0 ds

/-- One octet of `Ipv4Addr::from_str`: one to three digits, no leading zero. -/
def readOctet (s : List Char) : Option UInt8 :=
  if s = [] ∨ 3 < s.length ∨ (s.head? = some '0' ∧ 1 < s.length) then none else accDigits 0 s

theorem parseU8_decimal (b : UInt8) : parseU8 (decimal b) = some b := by
  have key : ∀ n : Fin 256, parseU8 (Nat.toDigits 10 n) = some (.ofNat n) := by decide +kernel
  simpa [decimal] using key ⟨b.toNat, b.toNat_lt⟩

theorem readOctet_decimal (b : UInt8) : readOctet (decimal b) = some b := by
  have key : ∀ n : Fin 256, readOctet (Nat.toDigits 10 n) = some (.ofNat n) := by decide +kernel
  simpa [decimal] using key ⟨b.toNat, b.toNat_lt⟩

theorem decimal_injective : Function.Injective decimal := fun a b h =>
  Option.some.inj ((readOctet_decimal a).symm.trans ((congrArg readOctet h).trans
    (readOctet_decimal b)))

/-- **Different addresses have different texts.** -/
theorem dottedQuad_inj {a b c d a' b' c' d' : UInt8} :
    dottedQuad a b c d = dottedQuad a' b' c' d' ↔ (a, b, c, d) = (a', b', c', d') := by
  constructor
  · intro h
    have := congrArg (List.splitOn '.') h
    simp only [splitOn_dottedQuad, List.cons.injEq, decimal_injective.eq_iff, and_true] at this
    obtain ⟨rfl, rfl, rfl, rfl⟩ := this
    rfl
  · rintro ⟨⟩
    rfl

/-! ## The two parsers -/

/-- A C string: its bytes up to the terminating NUL. -/
abbrev CStr := ByteArray

/-- `CStr::to_str`. -/
def CStr.toStr (s : CStr) : Option (List Char) := (String.fromUTF8? s).map String.toList

/-- The bytes of a text. -/
def CStr.ofText (s : List Char) : CStr := (String.ofList s).toUTF8

@[simp] theorem CStr.toStr_ofText (s : List Char) : (CStr.ofText s).toStr = some s := by
  have h : String.fromUTF8? (String.ofList s).toUTF8 = some (String.ofList s) :=
    dif_pos (String.ofList s).isValidUTF8
  rw [CStr.toStr, CStr.ofText, h, Option.map_some, String.toList_ofList]

/-- The loop of `smoltcp_parse_ipv4` over the parts, with the octets read so far. -/
def parseParts : List (List Char) → List UInt8 → Option (List UInt8)
  | [], octets => some octets
  | part :: parts, octets =>
    if 4 ≤ octets.length then none
    else match parseU8 part with
      | some v => parseParts parts (octets ++ [v])
      | none => none

/-- `smoltcp_parse_ipv4`: the return code and what `*out_be` holds afterwards; `none` is a null
pointer. -/
def smoltcpParseIpv4 (s : Option CStr) (outBe : Option UInt32) : Int × Option UInt32 :=
  match s, outBe with
  | some s, some _ =>
    match s.toStr with
    | none => (-1, outBe)
    | some cs =>
      match parseParts (cs.splitOn '.') [] with
      | some [a, b, c, d] => (0, some (fromBeBytes a b c d))
      | _ => (-1, outBe)
  | _, _ => (-1, outBe)

/-- `core::net::Ipv4Addr::from_str`. -/
def parseIpv4Addr (cs : List Char) : Option Ipv4Address :=
  match cs.splitOn '.' with
  | [a, b, c, d] => do
    return ⟨← readOctet a, ← readOctet b, ← readOctet c, ← readOctet d⟩
  | _ => none

/-- The dotted-quad shortcut of `smoltcp_resolve`: what it stores in `*out_be` before it would touch
the interface. -/
def resolveShortcut (name : CStr) : Option UInt32 := do
  let cs ← name.toStr
  let addr ← parseIpv4Addr cs
  return ipv4ToBe addr

theorem smoltcpParseIpv4_dottedQuad (a b c d : UInt8) (out : UInt32) :
    smoltcpParseIpv4 (some (CStr.ofText (dottedQuad a b c d))) (some out)
      = (0, some (fromBeBytes a b c d)) := by
  simp [smoltcpParseIpv4, splitOn_dottedQuad, parseParts, parseU8_decimal]

theorem resolveShortcut_dottedQuad (a b c d : UInt8) :
    resolveShortcut (CStr.ofText (dottedQuad a b c d)) = some (fromLeBytes a b c d) := by
  simp [resolveShortcut, parseIpv4Addr, splitOn_dottedQuad, readOctet_decimal, ipv4ToBe]

end EspSmoltcp
