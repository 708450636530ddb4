import EspSmoltcp.Glue.Iface
import EspSmoltcp.Smoltcp.Reference

/-!
# Compat/Netdb — addresses as text in `netdb_wrap.c`

`inet_pton` goes through the Rust core's `smoltcp_parse_ipv4`, `inet_ntop` prints the four bytes in
memory, and `getaddrinfo` resolves a dotted quad by the shortcut of `smoltcp_resolve`.  Everything
below the shim reads such a value as octets in memory order (`ipv4FromBe`).

`smoltcp_parse_ipv4` alone builds its value with `from_be_bytes`, so on a little-endian target the
four agree on the texts that read the same from either end and on no others:
`textAgrees_iff_palindrome`.
-/

namespace EspSmoltcp

/-! ## The calls -/

/-- `AF_INET`. -/
def afInet : ℤ := 2

/-- `__wrap_lwip_inet_pton`: the return code and what `*dst` holds afterwards.  The local `be` is read
only once the parser has set it. -/
def wrapLwipInetPton (af : ℤ) (src : Option CStr) (dst : UInt32) : Int × UInt32 :=
  if af ≠ afInet then (-1, dst)
  else match smoltcpParseIpv4 src (some 0) with
    | (0, some be) => (1, be)
    | _ => (0, dst)

/-- `__wrap_lwip_inet_ntop` on the four bytes at `src`; `snprintf` leaves room for the NUL. -/
def wrapLwipInetNtop (af : ℤ) (src : UInt8 × UInt8 × UInt8 × UInt8) (size : ℕ) :
    Option (List Char) :=
  if af ≠ afInet ∨ size < 16 then none
  else
    let (b0, b1, b2, b3) := src
    some ((dottedQuad b0 b1 b2 b3).take (size - 1))

/-! ## Texts that fit -/

theorem length_decimal_le (b : UInt8) : (decimal b).length ≤ 3 := by
  have key : ∀ n : Fin 256, (Nat.toDigits 10 n).length ≤ 3 := by decide +kernel
  exact key ⟨b.toNat, b.toNat_lt⟩

/-- The longest dotted quad has fifteen characters. -/
theorem length_dottedQuad_le (a b c d : UInt8) : (dottedQuad a b c d).length ≤ 15 := by
  have ha := length_decimal_le a
  have hb := length_decimal_le b
  have hc := length_decimal_le c
  have hd := length_decimal_le d
  simp only [dottedQuad, List.intercalate, List.intersperse, List.flatten_cons, List.flatten_nil,
    List.length_append, List.length_cons, List.length_nil]
  omega

/-- `inet_ntop` prints the bytes in memory order, whole. -/
theorem wrapLwipInetNtop_inet (a b c d : UInt8) {size : ℕ} (h : 16 ≤ size) :
    wrapLwipInetNtop afInet (a, b, c, d) size = some (dottedQuad a b c d) := by
  have hlen := length_dottedQuad_le a b c d
  rw [wrapLwipInetNtop, if_neg (by simpa using h), List.take_of_length_le (by omega)]

/-- `inet_pton` stores the octets in the order `from_be_bytes` gives them. -/
theorem wrapLwipInetPton_dottedQuad (a b c d : UInt8) (dst : UInt32) :
    wrapLwipInetPton afInet (some (CStr.ofText (dottedQuad a b c d))) dst
      = (1, fromBeBytes a b c d) := by
  simp [wrapLwipInetPton, smoltcpParseIpv4_dottedQuad]

/-! ## One convention -/

/-- Every conversion takes `v` for the address `a.b.c.d`. -/
structure Denotes (S : Smoltcp) (v : UInt32) (a b c d : UInt8) : Prop where
  bytes : toLeBytes v = (a, b, c, d)
  ntop : ∀ size, 16 ≤ size →
    wrapLwipInetNtop afInet (toLeBytes v) size = some (dottedQuad a b c d)
  resolve : resolveShortcut (CStr.ofText (dottedQuad a b c d)) = some v
  fromBe : ipv4FromBe v = ⟨a, b, c, d⟩
  remote : ∀ port, endpointOf v port = ⟨.ipv4 ⟨a, b, c, d⟩, port⟩
  static : ∀ (ctx : IfaceCtx S) (plen : ℕ) (gwBe : UInt32), plen ≤ 32 →
    ctx.iface.dropIpv4.ipAddrs.length < S.addrCap →
      (smoltcpIfaceSetStatic ctx v plen gwBe).iface.ipv4Addr = some ⟨a, b, c, d⟩

/-- What `inet_pton` stores for the text `a.b.c.d`, every conversion takes for `a.b.c.d`. -/
def TextAgrees (S : Smoltcp) (a b c d : UInt8) : Prop :=
  ∀ dst, ∃ v, wrapLwipInetPton afInet (some (CStr.ofText (dottedQuad a b c d))) dst = (1, v) ∧
    Denotes S v a b c d

/-- Without the IPv4 addresses there is none to find, so the one pushed next is the first. -/
theorem Interface.ipv4Addr_pushAddr_dropIpv4 {S : Smoltcp} (i : Interface) (c : Ipv4Cidr)
    (h : i.dropIpv4.ipAddrs.length < S.addrCap) :
    (i.dropIpv4.pushAddr S (.ipv4 c)).ipv4Addr = some c.address := by
  have hnone : i.dropIpv4.ipv4Addr = none := by
    rw [ipv4Addr, List.findSome?_eq_none_iff]
    rintro (c | _) hc
    · simp [dropIpv4, IpCidr.isIpv4] at hc
    · rfl
  rw [ipv4Addr] at hnone
  rw [pushAddr, if_pos h, ipv4Addr, List.findSome?_append, hnone]
  rfl

/-- `set_static` makes the address it was given the interface's IPv4 address. -/
theorem ipv4Addr_smoltcpIfaceSetStatic {S : Smoltcp} (ctx : IfaceCtx S) (v : UInt32) {plen : ℕ}
    (gwBe : UInt32) (hplen : plen ≤ 32) (hroom : ctx.iface.dropIpv4.ipAddrs.length < S.addrCap) :
    (smoltcpIfaceSetStatic ctx v plen gwBe).iface.ipv4Addr = some (ipv4FromBe v) := by
  have key := ctx.iface.ipv4Addr_pushAddr_dropIpv4 ⟨ipv4FromBe v, plen⟩ hroom
  rw [smoltcpIfaceSetStatic, if_neg (not_lt.mpr hplen)]
  dsimp only
  split_ifs
  · exact key
  · exact key

/-- The octets in memory order are what every other conversion reads and writes. -/
theorem denotes_fromLeBytes (S : Smoltcp) (a b c d : UInt8) :
    Denotes S (fromLeBytes a b c d) a b c d := by
  have hbe : ipv4FromBe (fromLeBytes a b c d) = ⟨a, b, c, d⟩ := by simp [ipv4FromBe]
  refine ⟨toLeBytes_fromLeBytes a b c d, fun size h => ?_, resolveShortcut_dottedQuad a b c d, hbe,
    fun port => ?_, fun ctx plen gwBe hplen hroom => ?_⟩
  · rw [toLeBytes_fromLeBytes, wrapLwipInetNtop_inet a b c d h]
  · rw [endpointOf, hbe]
  · rw [ipv4Addr_smoltcpIfaceSetStatic ctx _ gwBe hplen hroom, hbe]

/-- **`inet_pton` agrees with the other conversions exactly on the texts that read the same from
either end.** -/
theorem textAgrees_iff_palindrome (S : Smoltcp) (a b c d : UInt8) :
    TextAgrees S a b c d ↔ a = d ∧ b = c := by
  rw [← fromBeBytes_eq_fromLeBytes_iff]
  constructor
  · intro h
    obtain ⟨v, hv, hd⟩ := h 0
    rw [wrapLwipInetPton_dottedQuad, Prod.mk.injEq] at hv
    have hres := hd.resolve
    rw [resolveShortcut_dottedQuad, ← hv.2, Option.some.injEq] at hres
    exact hres.symm
  · intro h dst
    refine ⟨_, wrapLwipInetPton_dottedQuad a b c d dst, ?_⟩
    rw [h]
    exact denotes_fromLeBytes S a b c d

/-- **`192.168.1.10` is stored back to front.** -/
theorem not_textAgrees_192_168_1_10 : ¬ TextAgrees .reference 192 168 1 10 := by
  intro h
  obtain ⟨v, hv, hd⟩ := h 0
  rw [wrapLwipInetPton_dottedQuad, Prod.mk.injEq] at hv
  have hbytes := hd.bytes
  rw [← hv.2, toLeBytes_fromBeBytes] at hbytes
  revert hbytes
  decide

end EspSmoltcp
