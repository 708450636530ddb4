import EspSmoltcp.Glue.DnsWire
import EspSmoltcp.Machinery.Follows
import EspSmoltcp.Smoltcp.Reference

/-!
# Glue/Resolver — which datagram decides a lookup

The socket of `smoltcp_resolve` is open to everybody, and the loop hands whatever arrives to
`parse_a_response`.  That checks the id and the RCODE; who sent the datagram, whether it is a response at
all and what it was asked are not looked at.

* `answered_of_smoltcpResolve` — what a lookup that succeeds was decided by.
* `forged_accepted` — a datagram of another source, a query and an answer to another question all decide
  one.
-/

namespace EspSmoltcp

variable {S : Smoltcp}

/-! ## What the parser checks -/

/-- **A packet yields an address** if it passes the checks of the header, its question is crossed and the answer
loop finds the address. -/
theorem parseAResponse_eq_some_iff {pkt : Bytes} {id : UInt16} {a : Ipv4Address} :
    parseAResponse pkt id = .ok (some a) ↔
      12 ≤ pkt.length ∧ u16At pkt 0 = .ok id ∧ (∃ flags, u16At pkt 2 = .ok flags ∧ flags &&& 0x000F = 0) ∧
        ∃ ancount i, u16At pkt 6 = .ok ancount ∧ ancount ≠ 0 ∧ skipQuestion pkt 12 = some i ∧
          answerLoop pkt ancount.toNat (i + (1 + 4)) = .ok (some a) := by
  constructor
  · intro h
    rw [parseAResponse] at h
    split_ifs at h with hshort
    · cases h
    obtain ⟨id', hid, h⟩ := Except.bind_eq_ok_iff.mp h
    split_ifs at h with hne
    · cases h
    obtain ⟨flags, hflags, h⟩ := Except.bind_eq_ok_iff.mp h
    split_ifs at h with hrcode
    · cases h
    obtain ⟨ancount, hcount, h⟩ := Except.bind_eq_ok_iff.mp h
    split_ifs at h with hzero
    · cases h
    rcases hskip : skipQuestion pkt 12 with _ | i
    · rw [hskip] at h
      cases h
    rw [hskip] at h
    exact ⟨not_lt.mp hshort, not_not.mp hne ▸ hid, ⟨flags, hflags, not_not.mp hrcode⟩, ancount, i, hcount, hzero,
      rfl, h⟩
  · rintro ⟨hlen, hid, ⟨flags, hflags, hrcode⟩, ancount, i, hcount, hzero, hskip, h⟩
    rw [parseAResponse, if_neg (not_lt.mpr hlen), hid, hflags, hcount, hskip]
    change (if id ≠ id then _ else if flags &&& 0x000F ≠ 0 then _ else if ancount = 0 then _ else _) = _
    rw [if_neg (not_not.mpr rfl), if_neg (not_not.mpr hrcode), if_neg hzero]
    exact h

/-- A packet that yields an address has the expected id and RCODE 0. -/
theorem header_of_parseAResponse {pkt : Bytes} {id : UInt16} {a : Ipv4Address}
    (h : parseAResponse pkt id = .ok (some a)) :
    u16At pkt 0 = .ok id ∧ ∃ flags, u16At pkt 2 = .ok flags ∧ flags &&& 0x000F = 0 := by
  obtain ⟨-, hid, hflags, -⟩ := parseAResponse_eq_some_iff.mp h
  exact ⟨hid, hflags⟩

/-- A read of two bytes inside the packet. -/
theorem exists_u16At (pkt : Bytes) (i : ℕ) (h : i + 1 < pkt.length) : ∃ x, u16At pkt i = .ok x := by
  refine ⟨u16FromBe pkt[i] pkt[i + 1], ?_⟩
  rw [u16At, byteAt, byteAt, List.getElem?_eq_getElem h, List.getElem?_eq_getElem (by omega)]
  rfl

/-- A turn takes the fixed part to start only where the packet has room for it. -/
theorem exists_fixedPartAt (pkt : Bytes) (i : ℕ) :
    ∃ o, fixedPartAt pkt i = .ok o ∧ ∀ j, o = some j → j + 10 ≤ pkt.length := by
  rw [fixedPartAt]
  split_ifs with hshort
  · exact ⟨none, rfl, by simp⟩
  have hb : byteAt pkt i = .ok pkt[i] := by
    rw [byteAt, List.getElem?_eq_getElem]
  rw [hb]
  change ∃ o, (if pkt.length < (if pkt[i] &&& 0xC0 = 0xC0 then i + 2 else skipLabels pkt i + 1) + 10 then _
    else _) = _ ∧ _
  generalize (if pkt[i] &&& 0xC0 = 0xC0 then i + 2 else skipLabels pkt i + 1) = j
  by_cases hfit : pkt.length < j + 10
  · exact ⟨none, if_pos hfit, by simp⟩
  · refine ⟨some j, if_neg hfit, fun j' hj => ?_⟩
    obtain rfl := Option.some.inj hj
    exact not_lt.mp hfit

theorem exists_readRecord {pkt : Bytes} {i : ℕ} (h : i + 10 ≤ pkt.length) :
    ∃ t, readRecord pkt i = .ok t := by
  obtain ⟨qtype, hq⟩ := exists_u16At pkt i (by omega)
  obtain ⟨rdlen, hr⟩ := exists_u16At pkt (i + 8) (by omega)
  rw [readRecord, hq, hr]
  change ∃ t, (if pkt.length < i + 10 + rdlen.toNat then _ else _) = _
  split_ifs with hlong haddr
  · exact ⟨_, rfl⟩
  · have hb : ∀ j, j < 4 → ∃ b, byteAt pkt (i + 10 + j) = .ok b := by
      intro j hj
      refine ⟨pkt[i + 10 + j], ?_⟩
      rw [byteAt, List.getElem?_eq_getElem]
    obtain ⟨a, ha⟩ := hb 0 (by omega)
    obtain ⟨b, hb₁⟩ := hb 1 (by omega)
    obtain ⟨c, hb₂⟩ := hb 2 (by omega)
    obtain ⟨d, hb₃⟩ := hb 3 (by omega)
    rw [Nat.add_zero] at ha
    rw [ha, hb₁, hb₂, hb₃]
    exact ⟨_, rfl⟩
  · exact ⟨_, rfl⟩

theorem exists_answerLoop (pkt : Bytes) (n i : ℕ) : ∃ r, answerLoop pkt n i = .ok r := by
  induction n generalizing i with
  | zero => exact ⟨none, rfl⟩
  | succ n ih =>
    obtain ⟨_ | j, hf, hj⟩ := exists_fixedPartAt pkt i
    · rw [answerLoop, hf]
      exact ⟨none, rfl⟩
    · obtain ⟨r | i', ht⟩ := exists_readRecord (hj j rfl)
      · rw [answerLoop, hf]
        change ∃ r, (readRecord pkt j >>= _) = _
        rw [ht]
        exact ⟨r, rfl⟩
      · rw [answerLoop, hf]
        change ∃ r, (readRecord pkt j >>= _) = _
        rw [ht]
        exact ih i'

/-- **The parser never indexes outside the packet.** -/
theorem exists_parseAResponse (pkt : Bytes) (id : UInt16) : ∃ r, parseAResponse pkt id = .ok r := by
  rw [parseAResponse]
  split_ifs with hshort
  · exact ⟨none, rfl⟩
  obtain ⟨id', hid⟩ := exists_u16At pkt 0 (by omega)
  obtain ⟨flags, hflags⟩ := exists_u16At pkt 2 (by omega)
  obtain ⟨ancount, hcount⟩ := exists_u16At pkt 6 (by omega)
  rw [hid, hflags, hcount]
  change ∃ r, (if id' ≠ id then _ else _) = _
  split_ifs
  · exact ⟨none, rfl⟩
  change ∃ r, (if flags &&& 0x000F ≠ 0 then _ else _) = _
  split_ifs
  · exact ⟨none, rfl⟩
  change ∃ r, (if ancount = 0 then _ else _) = _
  split_ifs
  · exact ⟨none, rfl⟩
  rcases skipQuestion pkt 12 with _ | i
  · exact ⟨none, rfl⟩
  · exact exists_answerLoop ..

/-- `recv_slice` hands over the head datagram, and only one that fits. -/
theorem UdpApi.recvSlice_eq_some (U : UdpApi) {s : U.Socket} {n : ℕ} {data : List UInt8} {src : IpEndpoint}
    (h : (U.recvSlice s n).1 = some (data, src)) :
    (∃ q, U.rxQueue s = ⟨data, src⟩ :: q) ∧ data.length ≤ n := by
  rcases hq : U.rxQueue s with _ | ⟨d, q⟩
  · rw [U.recvSlice_nil s n hq] at h
    cases h
  · rw [(U.recvSlice_cons s n d q hq).1] at h
    split_ifs at h with hle
    obtain ⟨rfl, rfl⟩ := Prod.mk.inj (Option.some.inj h)
    exact ⟨⟨q, rfl⟩, hle⟩

/-! ## What decides a lookup -/

/-- The datagram was accepted: it fits the buffer, carries the id and RCODE 0, and parses to the address
stored in `*out_be`. -/
structure Answered (id : UInt16) (outBe : UInt32) (d : Datagram) : Prop where
  fits : d.payload.length ≤ 512
  qid : u16At d.payload 0 = .ok id
  rcode : ∃ flags, u16At d.payload 2 = .ok flags ∧ flags &&& 0x000F = 0
  parsed : ∃ a, parseAResponse d.payload id = .ok (some a) ∧ outBe = ipv4ToBe a

theorem answered_of_parse {id : UInt16} {d : Datagram} {a : Ipv4Address} (hfits : d.payload.length ≤ 512)
    (h : parseAResponse d.payload id = .ok (some a)) : Answered id (ipv4ToBe a) d := by
  obtain ⟨hid, hrcode⟩ := header_of_parseAResponse h
  exact ⟨hfits, hid, hrcode, a, h, rfl⟩

/-- The loop breaks with an address only on a datagram it heard. -/
theorem answered_of_resolveLoop (sh : SocketHandle) (id : UInt16) (deadline : ℤ)
    (turns : List (ResolveTurn S)) (ctx : IfaceCtx S) {a : Ipv4Address}
    (h : (resolveLoop sh id deadline turns ctx).result = some (some a)) :
    ∃ d ∈ (resolveLoop sh id deadline turns ctx).heard, Answered id (ipv4ToBe a) d := by
  induction turns generalizing ctx with
  | nil => cases h
  | cons t ts ih =>
    rw [resolveLoop] at h ⊢
    have hrest : ∀ {ctx' : IfaceCtx S} {r : Resolving S},
        r = (if deadline ≤ t.now then ⟨some none, [], ctx'⟩ else resolveLoop sh id deadline ts ctx') →
        r.result = some (some a) → ∃ d ∈ r.heard, Answered id (ipv4ToBe a) d := by
      rintro ctx' r rfl hr
      split_ifs at hr ⊢
      · cases hr
      · exact ih ctx' hr
    rcases hs : (t.poll ctx).sockets.lookup sh with _ | x | s | _
    · simp only [hs] at h
      cases h
    · simp only [hs] at h
      cases h
    · simp only [hs] at h ⊢
      rcases hrecv : (S.udp.recvSlice s 512).1 with _ | ⟨data, src⟩
      · simp only [hrecv] at h ⊢
        exact hrest rfl h
      have hfits := (S.udp.recvSlice_eq_some hrecv).2
      simp only [hrecv] at h ⊢
      rcases hparse : parseAResponse data id with e | _ | b
      · simp only [hparse] at h
        cases h
      · simp only [hparse] at h ⊢
        obtain ⟨d, hd, hans⟩ := hrest rfl h
        exact ⟨d, List.mem_cons_of_mem _ hd, hans⟩
      · simp only [hparse] at h ⊢
        obtain rfl := Option.some.inj (Option.some.inj h)
        exact ⟨⟨data, src⟩, List.mem_singleton_self _, answered_of_parse hfits hparse⟩
    · simp only [hs] at h
      cases h

theorem answered_of_awaitAnswer {ctx : IfaceCtx S} {sock : S.udp.Socket} {id : UInt16} {deadline : ℤ}
    {outBe : UInt32} {turns : List (ResolveTurn S)} {res : Resolved S}
    (hres : awaitAnswer ctx sock id deadline outBe turns = res) (hret : res.ret = some 0) :
    ∃ d ∈ res.heard, Answered id res.outBe d := by
  subst hres
  rw [awaitAnswer] at hret ⊢
  rcases hrun : (resolveLoop (SocketSet.add ctx.sockets (.udp sock)).1 id deadline turns
      { ctx with sockets := (SocketSet.add ctx.sockets (.udp sock)).2 }).result with _ | _ | a
  · simp only [hrun] at hret
    cases hret
  · simp only [hrun] at hret
    cases hret
  · simp only [hrun]
    exact answered_of_resolveLoop _ id deadline turns _ hrun

/-- **What a successful lookup was decided by**: a datagram that reached the socket during the call, with the
id of the query and RCODE 0, from which the address was parsed. -/
theorem answered_of_smoltcpResolve (ctx : IfaceCtx S) (name : CStr) (cs : List Char)
    (serverBe timeoutMs outBe idRand portRand : UInt32) (start : ℤ) (turns : List (ResolveTurn S))
    (res : Resolved S) (hname : name.toStr = some cs) (hquad : parseIpv4Addr cs = none)
    (hres : smoltcpResolve ctx name serverBe timeoutMs outBe idRand portRand start turns = res)
    (hret : res.ret = some 0) : ∃ d ∈ res.heard, Answered (queryId idRand) res.outBe d := by
  simp only [smoltcpResolve, hname, hquad] at hres
  rcases hsock : querySocket S cs serverBe idRand portRand with _ | sock
  · simp only [hsock] at hres
    subst hres
    cases hret
  · simp only [hsock] at hres
    exact answered_of_awaitAnswer hres hret

/-! ## Forged answers -/

/-- The datagram is the server's answer to the question asked. -/
structure Authentic (serverBe : UInt32) (id : UInt16) (query : Bytes) (d : Datagram) : Prop where
  source : d.src = endpointOf serverBe 53
  qid : u16At d.payload 0 = .ok id
  response : ∃ flags, u16At d.payload 2 = .ok flags ∧ flags &&& 0x8000 ≠ 0
  question : u16At d.payload 4 = .ok 1 ∧ d.payload.StandsAt 12 (query.drop 12)

/-- An answer to a question, with one address: `6.6.6.6`. -/
def answerTo (flags : UInt16) (question : Bytes) : Response where
  id := 7
  flags := flags
  nscount := 0
  arcount := 0
  question := question
  answers := [⟨.pointer pointerToQuestion, 1, 1, 60, [6, 6, 6, 6], by decide⟩]
  trailing := []

/-- The server asked, `8.8.8.8`. -/
def dnsServer : UInt32 := fromLeBytes 8 8 8 8

/-- The answer to the question for `a`, sent by `6.6.6.6`. -/
def fromStranger : Datagram :=
  ⟨(answerTo 0x8180 [1, 97, 0, 0, 1, 0, 1]).bytes, endpointOf (fromLeBytes 6 6 6 6) 53⟩

/-- The same from the server, but marked as a query. -/
def markedAsQuery : Datagram :=
  ⟨(answerTo 0x0100 [1, 97, 0, 0, 1, 0, 1]).bytes, endpointOf dnsServer 53⟩

/-- The server's answer to the question for `b`. -/
def otherQuestion : Datagram :=
  ⟨(answerTo 0x8180 [1, 98, 0, 0, 1, 0, 1]).bytes, endpointOf dnsServer 53⟩

/-- A datagram arrives at the only socket. -/
def hearing (d : Datagram) : ResolveTurn .reference where
  poll ctx := match ctx.sockets.lookup 0 with
    | some (.udp (s : RefUdp)) =>
      { ctx with sockets := ctx.sockets.replace 0 (.udp { s with rx := s.rx ++ [d] }) }
    | _ => ctx
  now := 0

/-- A lookup of `a` during which one datagram arrives. -/
def lookupHearing (d : Datagram) : Resolved .reference :=
  smoltcpResolve (.new 0 fun _ => 0) (CStr.ofText ['a']) dnsServer 5000 0 7 0 0 [hearing d]

/-- The lookup takes the datagram for its answer, though it is not. -/
def Fooled (d : Datagram) : Prop :=
  (lookupHearing d).ret = some 0 ∧ (lookupHearing d).heard = [d] ∧
    ¬ Authentic dnsServer (queryId 7) [0, 7, 1, 0, 0, 1, 0, 0, 0, 0, 0, 0, 1, 97, 0, 0, 1, 0, 1] d

/-- The lookup on the only datagram it hears. -/
theorem lookupHearing_eq (d : Datagram) : lookupHearing d = awaitAnswer (.new 0 fun _ => 0)
    ({ port := 49152 } : RefUdp) 7 5000000 0 [hearing d] := by
  rw [lookupHearing, smoltcpResolve, CStr.toStr_ofText]
  rfl

/-- **Datagrams that are no answer decide the lookup**: one from another source, one that is no response and
one that answers another question. -/
theorem forged_accepted : Fooled fromStranger ∧ Fooled markedAsQuery ∧ Fooled otherQuestion := by
  simp only [Fooled, lookupHearing_eq]
  refine ⟨⟨by decide +kernel, by decide +kernel, fun h => ?_⟩,
    ⟨by decide +kernel, by decide +kernel, fun h => ?_⟩,
    ⟨by decide +kernel, by decide +kernel, fun h => ?_⟩⟩
  · exact absurd h.source (by decide +kernel)
  · obtain ⟨flags, hflags, hqr⟩ := h.response
    have : u16At markedAsQuery.payload 2 = .ok 0x0100 := by decide +kernel
    obtain rfl := Except.ok.inj (hflags.symm.trans this)
    exact hqr (by decide)
  · have h13 := h.question.2.getElem? (k := 1) (by decide)
    exact absurd h13 (by decide +kernel)

/-- The address found is the one the accepted datagram carries. -/
theorem answered_fromStranger : (lookupHearing fromStranger).ret = some 0 ∧
    ∃ d ∈ (lookupHearing fromStranger).heard,
      Answered (queryId 7) (lookupHearing fromStranger).outBe d := by
  have hret : (lookupHearing fromStranger).ret = some 0 := by
    rw [lookupHearing_eq]
    decide +kernel
  exact ⟨hret, answered_of_smoltcpResolve (.new 0 fun _ => 0) (CStr.ofText ['a']) ['a'] dnsServer 5000 0 7
    0 0 [hearing fromStranger] _ (CStr.toStr_ofText _) (by decide) rfl hret⟩

end EspSmoltcp
