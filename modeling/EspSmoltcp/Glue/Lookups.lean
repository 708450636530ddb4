import EspSmoltcp.Glue.Lending
import EspSmoltcp.Machinery.Search

/-!
# Glue/Lookups — what a lookup asks, and what ends it

* `buildQuery_exact` — the query for a name is the packet that asks for its labels, and for no other name's; a
  name has one exactly if its labels have 1 to 63 bytes; and the parser takes no query for an answer.
* `smoltcpResolve_decided` — the first turn that counts decides a lookup: it counts if its datagram yields an
  address, or else if its reading of the clock is past the deadline.
-/

namespace EspSmoltcp

variable {S : Smoltcp}

/-! ## Queries -/

/-- A standard query for the address of a host: one question, recursion desired. -/
structure Query where
  id : UInt16
  qname : List Label

def Query.bytes (q : Query) : Bytes :=
  u16ToBe q.id ++ ([1, 0, 0, 1, 0, 0, 0, 0, 0, 0] ++ Question.bytes ⟨q.qname, 1, 1⟩)

theorem Label.octets_injective : Function.Injective Label.octets := by
  rintro ⟨o, hpos, hle⟩ ⟨o', hpos', hle'⟩ rfl
  rfl

/-- Where a name ends, it ends: two names with something behind them are the same if their bytes are. -/
theorem labelsBytes_zero_inj {ls ls' : List Label} {r r' : Bytes}
    (h : labelsBytes ls ++ 0 :: r = labelsBytes ls' ++ 0 :: r') : ls = ls' ∧ r = r' := by
  induction ls generalizing ls' with
  | nil =>
    rcases ls' with _ | ⟨l', ls'⟩
    · exact ⟨rfl, (List.cons.inj h).2⟩
    · exact absurd (List.cons.inj h).1.symm l'.length_byte.2.1
  | cons l ls ih =>
    rcases ls' with _ | ⟨l', ls'⟩
    · exact absurd (List.cons.inj h).1 l.length_byte.2.1
    · have hcons : ∀ (l : Label) (ls : List Label) (r : Bytes), labelsBytes (l :: ls) ++ 0 :: r
          = .ofNat l.octets.length :: (l.octets ++ (labelsBytes ls ++ 0 :: r)) := by
        intro l ls r
        simp [labelsBytes, Label.bytes]
      rw [hcons, hcons] at h
      obtain ⟨hlen, hrest⟩ := List.cons.inj h
      have hsame : l.octets.length = l'.octets.length := by
        rw [← l.length_byte.1, hlen, l'.length_byte.1]
      obtain ⟨hoctets, htail⟩ := List.append_inj hrest hsame
      obtain ⟨rfl, rfl⟩ := ih htail
      exact ⟨congrArg (· :: ls) (Label.octets_injective hoctets), rfl⟩

/-- **A packet is one query.** -/
theorem Query.bytes_injective : Function.Injective Query.bytes := by
  rintro ⟨id, ls⟩ ⟨id', ls'⟩ h
  obtain ⟨hid, hrest⟩ := List.append_inj h rfl
  have hname := List.append_cancel_left hrest
  obtain ⟨rfl, -⟩ := labelsBytes_zero_inj hname
  have hfield := congrArg (fun b : Bytes => u16FromBe (b.getD 0 0) (b.getD 1 0)) hid
  simp only [u16ToBe, List.getD_cons_zero, List.getD_cons_succ, u16FromBe_u16ToBe] at hfield
  rw [hfield]

/-! ## The query for a name -/

/-- UTF-8 loses nothing. -/
theorem asBytes_injective : Function.Injective asBytes := by
  intro cs cs' h
  have hencode : cs.utf8Encode = cs'.utf8Encode := congrArg List.toByteArray h
  have hdecode := congrArg ByteArray.utf8Decode? hencode
  rw [List.utf8Decode?_utf8Encode, List.utf8Decode?_utf8Encode, Option.some.injEq] at hdecode
  exact congrArg Array.toList hdecode

/-- The label loop accepts labels, and writes them. -/
theorem encodeLabels_eq_some_iff {labels : List (List Char)} {b : Bytes} : encodeLabels labels = some b ↔
    ∃ ls : List Label, labels.map asBytes = ls.map Label.octets ∧ b = labelsBytes ls := by
  induction labels generalizing b with
  | nil =>
    rw [encodeLabels, Option.some.injEq]
    constructor
    · rintro rfl
      exact ⟨[], rfl, rfl⟩
    · rintro ⟨ls, hls, rfl⟩
      rw [List.map_eq_nil_iff.mp hls.symm]
      rfl
  | cons label labels ih =>
    rw [encodeLabels]
    constructor
    · intro h
      split_ifs at h with hbad
      obtain ⟨hne, hle⟩ := not_or.mp hbad
      obtain ⟨rest, hrest, hb⟩ := Option.bind_eq_some_iff.mp h
      obtain ⟨ls, hls, rfl⟩ := ih.mp hrest
      obtain rfl := Option.some.inj hb
      have hpos : 0 < (asBytes label).length := List.length_pos_iff.mpr fun h0 => hne (List.isEmpty_iff.mpr h0)
      exact ⟨⟨asBytes label, hpos, not_lt.mp hle⟩ :: ls, congrArg (asBytes label :: ·) hls, rfl⟩
    · rintro ⟨_ | ⟨l, ls⟩, hls, rfl⟩
      · cases hls
      obtain ⟨hl, hrest⟩ := List.cons.inj hls
      have hgood : ¬ ((asBytes label).isEmpty = true ∨ 63 < (asBytes label).length) := by
        rw [hl, List.isEmpty_iff, ← List.length_eq_zero_iff]
        have hpos := l.pos
        have hle := l.le
        omega
      rw [if_neg hgood, ih.mpr ⟨ls, hrest, rfl⟩, hl]
      rfl

/-- What the query for a name is. -/
theorem buildQuery_eq_some_iff {id : UInt16} {cs : List Char} {query : Bytes} : buildQuery id cs = some query ↔
    ∃ ls : List Label, (cs.splitOn '.').map asBytes = ls.map Label.octets ∧ query = Query.bytes ⟨id, ls⟩ := by
  have hone : u16ToBe 1 = [0, 1] := by decide
  have hbytes : ∀ ls, u16ToBe id ++ [0x01, 0x00] ++ [0, 1, 0, 0, 0, 0, 0, 0] ++
      (labelsBytes ls ++ [0] ++ [0, 1] ++ [0, 1]) = Query.bytes ⟨id, ls⟩ := by
    intro ls
    simp [Query.bytes, Question.bytes, hone]
  rw [buildQuery, Option.bind_eq_bind, Option.bind_eq_some_iff]
  constructor
  · rintro ⟨qname, hq, he⟩
    obtain ⟨ls, hls, rfl⟩ := encodeLabels_eq_some_iff.mp hq
    exact ⟨ls, hls, (Option.some.inj he).symm.trans (hbytes ls)⟩
  · rintro ⟨ls, hls, rfl⟩
    exact ⟨labelsBytes ls, encodeLabels_eq_some_iff.mpr ⟨ls, hls, rfl⟩, congrArg some (hbytes ls)⟩

/-- A query says that no answers follow, so it is not taken for a response. -/
theorem parseAResponse_query (q : Query) (id : UInt16) : parseAResponse q.bytes id = .ok none := by
  obtain ⟨r, hr⟩ := exists_parseAResponse q.bytes id
  rcases r with _ | a
  · exact hr
  · obtain ⟨-, -, -, ancount, -, hcount, hne, -⟩ := parseAResponse_eq_some_iff.mp hr
    have hzero : u16At q.bytes 6 = .ok 0 := rfl
    exact absurd (Except.ok.inj (hcount.symm.trans hzero)) hne

/-- Parts that can be labels. -/
theorem exists_labels_iff {parts : List (List Char)} : (∃ ls : List Label, parts.map asBytes = ls.map Label.octets) ↔
    ∀ p ∈ parts, asBytes p ≠ [] ∧ (asBytes p).length ≤ 63 := by
  constructor
  · rintro ⟨ls, hls⟩ p hp
    have hmem : asBytes p ∈ ls.map Label.octets := hls ▸ List.mem_map_of_mem hp
    obtain ⟨l, -, hl⟩ := List.mem_map.mp hmem
    rw [← hl]
    exact ⟨List.ne_nil_of_length_pos l.pos, l.le⟩
  · intro h
    induction parts with
    | nil => exact ⟨[], rfl⟩
    | cons p parts ih =>
      obtain ⟨⟨hne, hle⟩, hrest⟩ := List.forall_mem_cons.mp h
      obtain ⟨ls, hls⟩ := ih hrest
      exact ⟨⟨asBytes p, List.length_pos_iff.mpr hne, hle⟩ :: ls, congrArg (asBytes p :: ·) hls⟩

theorem isSome_buildQuery_iff {id : UInt16} {cs : List Char} : (buildQuery id cs).isSome = true ↔
    ∀ label ∈ cs.splitOn '.', asBytes label ≠ [] ∧ (asBytes label).length ≤ 63 := by
  rw [← exists_labels_iff, Option.isSome_iff_exists]
  constructor
  · rintro ⟨query, hquery⟩
    obtain ⟨ls, hls, -⟩ := buildQuery_eq_some_iff.mp hquery
    exact ⟨ls, hls⟩
  · rintro ⟨ls, hls⟩
    exact ⟨_, buildQuery_eq_some_iff.mpr ⟨ls, hls, rfl⟩⟩

/-- A packet asks for one name. -/
theorem buildQuery_inj {id id' : UInt16} {cs cs' : List Char} {query : Bytes} (h : buildQuery id cs = some query)
    (h' : buildQuery id' cs' = some query) : id' = id ∧ cs' = cs := by
  obtain ⟨ls, hls, hq⟩ := buildQuery_eq_some_iff.mp h
  obtain ⟨ls', hls', hq'⟩ := buildQuery_eq_some_iff.mp h'
  obtain ⟨hid, rfl⟩ := Query.mk.inj (Query.bytes_injective (hq'.symm.trans hq))
  have hparts := List.map_injective_iff.mpr asBytes_injective (hls'.trans hls.symm)
  have hname := congrArg (List.intercalate ['.']) hparts
  rw [List.intercalate_splitOn, List.intercalate_splitOn] at hname
  exact ⟨hid, hname⟩

/-- **The query for a name** asks for the labels between its dots and for no other name; there is one exactly if
each label has 1 to 63 bytes; and the parser takes none for an answer, whatever id it expects. -/
theorem buildQuery_exact (id : UInt16) (cs : List Char) :
    ((buildQuery id cs).isSome = true ↔ ∀ label ∈ cs.splitOn '.', asBytes label ≠ [] ∧ (asBytes label).length ≤ 63) ∧
      ∀ query, buildQuery id cs = some query →
        (∃ ls : List Label, (cs.splitOn '.').map asBytes = ls.map Label.octets ∧ query = Query.bytes ⟨id, ls⟩) ∧
        (∀ id' cs', buildQuery id' cs' = some query ↔ id' = id ∧ cs' = cs) ∧
        ∀ id', parseAResponse query id' = .ok none := by
  refine ⟨isSome_buildQuery_iff, fun query hquery => ⟨buildQuery_eq_some_iff.mp hquery, fun id' cs' => ?_, ?_⟩⟩
  · constructor
    · exact buildQuery_inj hquery
    · rintro ⟨rfl, rfl⟩
      exact hquery
  · obtain ⟨ls, -, rfl⟩ := buildQuery_eq_some_iff.mp hquery
    exact parseAResponse_query _

/-! ## The receive loop -/

/-- What the turns of the receive loop come to for as long as it goes on: the datagram `recv_slice` hands over,
if any, and the reading of the clock. -/
def turnsSeen (sh : SocketHandle) : List (ResolveTurn S) → IfaceCtx S → List (Option Datagram × ℤ)
  | [], _ => []
  | t :: ts, ctx =>
    match (t.poll ctx).sockets.lookup sh with
    | some (.udp s) =>
      let r := S.udp.recvSlice s 512
      (r.1.map fun d => ⟨d.1, d.2⟩, t.now) :: turnsSeen sh ts ((t.poll ctx).setSocket sh (.udp r.2))
    | _ => []

/-- The address a datagram yields. -/
def addressIn (id : UInt16) (d : Datagram) : Option Ipv4Address :=
  match parseAResponse d.payload id with
  | .ok r => r
  | .error _ => none

/-- What a lookup looks for, in a turn of its loop. -/
def turnAddress (id : UInt16) (seen : Option Datagram × ℤ) : Option Ipv4Address := seen.1.bind (addressIn id)

/-- The turn brings no address, and there is time for another. -/
def Waits (id : UInt16) (deadline : ℤ) (seen : Option Datagram × ℤ) : Prop :=
  turnAddress id seen = none ∧ seen.2 < deadline

/-- The first turn after which a lookup does not wait for another. -/
def FirstAt (id : UInt16) (deadline : ℤ) (seen : List (Option Datagram × ℤ)) (x : Option Datagram × ℤ) : Prop :=
  ∃ pre post, seen = pre ++ x :: post ∧ ∀ y ∈ pre, Waits id deadline y

/-- How the receive loop ends: the search for an address, up to the deadline. -/
def lookupEnds (id : UInt16) (deadline : ℤ) (seen : List (Option Datagram × ℤ)) : Option (Option Ipv4Address) :=
  Search.search (turnAddress id) (fun x => deadline ≤ x.2) seen

section Ends

variable {id : UInt16} {deadline : ℤ} {seen : List (Option Datagram × ℤ)}

theorem passed_iff_waits {x : Option Datagram × ℤ} :
    Search.Passed (turnAddress id) (fun x => deadline ≤ x.2) x ↔ Waits id deadline x := by
  rw [Search.Passed, Waits, Int.not_le]

theorem lookupEnds_eq_found_iff {a : Ipv4Address} : lookupEnds id deadline seen = some (some a) ↔
    ∃ x, FirstAt id deadline seen x ∧ turnAddress id x = some a := by
  simp only [lookupEnds, Search.search_eq_found_iff, passed_iff_waits]
  constructor
  · rintro ⟨pre, x, post, he, hpre, hx⟩
    exact ⟨x, ⟨pre, post, he, hpre⟩, hx⟩
  · rintro ⟨x, ⟨pre, post, he, hpre⟩, hx⟩
    exact ⟨pre, x, post, he, hpre, hx⟩

theorem lookupEnds_eq_late_iff : lookupEnds id deadline seen = some none ↔
    ∃ x, FirstAt id deadline seen x ∧ turnAddress id x = none ∧ deadline ≤ x.2 := by
  simp only [lookupEnds, Search.search_eq_late_iff, passed_iff_waits]
  constructor
  · rintro ⟨pre, x, post, he, hpre, hx⟩
    exact ⟨x, ⟨pre, post, he, hpre⟩, hx⟩
  · rintro ⟨x, ⟨pre, post, he, hpre⟩, hx⟩
    exact ⟨pre, x, post, he, hpre, hx⟩

theorem lookupEnds_eq_none_iff : lookupEnds id deadline seen = none ↔ ∀ x ∈ seen, Waits id deadline x := by
  simp only [lookupEnds, Search.search_eq_none_iff, passed_iff_waits]

end Ends

section Loop

variable {ctx ctx' : IfaceCtx S} {sh : SocketHandle} {id : UInt16} {deadline : ℤ} {turns : List (ResolveTurn S)}

/-- **The receive loop is that search.** -/
theorem result_resolveLoop (id : UInt16) (deadline : ℤ) (hturns : ∀ t ∈ turns, t.InPlace)
    (h : IfaceCtx.Lent sh ctx ctx') :
    (resolveLoop sh id deadline turns ctx').result = lookupEnds id deadline (turnsSeen sh turns ctx') := by
  induction turns generalizing ctx' with
  | nil => rfl
  | cons t ts ih =>
    have hpoll := h.inPlace (hturns t List.mem_cons_self ctx')
    obtain ⟨s, hs⟩ := hpoll.lent
    have hrest := ih (fun t' ht' => hturns t' (List.mem_cons_of_mem t ht'))
      (hpoll.setSocket (S.udp.recvSlice s 512).2)
    rw [lookupEnds] at hrest
    rw [resolveLoop, turnsSeen]
    simp only [hs]
    rw [lookupEnds, Search.search, ← hrest]
    rcases (S.udp.recvSlice s 512).1 with _ | ⟨data, src⟩
    · simp only [Option.map_none, turnAddress, Option.bind_none]
      split_ifs
      · rfl
      · rfl
    · obtain ⟨r, hr⟩ := exists_parseAResponse data id
      simp only [Option.map_some, turnAddress, Option.bind_some, addressIn, hr]
      rcases r with _ | a
      · simp only
        split_ifs
        · rfl
        · rfl
      · rfl

/-- What the call returns and stores, by how its loop ends. -/
theorem awaitAnswer_ends (sock : S.udp.Socket) (outBe : UInt32) {found : Option (Option Ipv4Address)}
    (h : (resolveLoop (SocketSet.add ctx.sockets (.udp sock)).1 id deadline turns
      { ctx with sockets := (SocketSet.add ctx.sockets (.udp sock)).2 }).result = found) :
    let r := awaitAnswer ctx sock id deadline outBe turns
    (∀ v, r.ret = some 0 ∧ r.outBe = v ↔ ∃ a, found = some (some a) ∧ v = ipv4ToBe a) ∧
      (r.ret = some (-1) ↔ found = some none) ∧ (r.ret = none ↔ found = none) ∧
      (r.ret ≠ some 0 → r.outBe = outBe) := by
  intro r
  simp only [r, awaitAnswer]
  rcases found with _ | _ | a
  · simp [h]
  · simp [h]
  · simp [h, eq_comm]

end Loop

/-! ## The call -/

/-- **The first turn that counts decides a lookup.**  If its datagram yields an address the call stores it and
returns 0; if not, the reading of the clock is past the deadline, and the call returns -1 and stores nothing.  With
no such turn it goes on. -/
theorem smoltcpResolve_decided (ctx : IfaceCtx S) (name : CStr) (serverBe timeoutMs outBe idRand portRand : UInt32)
    (start : ℤ) {turns : List (ResolveTurn S)} (hturns : ∀ t ∈ turns, t.InPlace) {cs : List Char}
    (hname : name.toStr = some cs) (hquad : parseIpv4Addr cs = none) {sock : S.udp.Socket}
    (hsock : querySocket S cs serverBe idRand portRand = some sock) :
    let r := smoltcpResolve ctx name serverBe timeoutMs outBe idRand portRand start turns
    let id := queryId idRand
    let deadline := start + 1000 * timeoutMs.toNat
    let seen := turnsSeen (SocketSet.add ctx.sockets (.udp sock)).1 turns
      { ctx with sockets := (SocketSet.add ctx.sockets (.udp sock)).2 }
    (∀ v, r.ret = some 0 ∧ r.outBe = v ↔
        ∃ a, (∃ x, FirstAt id deadline seen x ∧ turnAddress id x = some a) ∧ v = ipv4ToBe a) ∧
      (r.ret = some (-1) ↔ ∃ x, FirstAt id deadline seen x ∧ turnAddress id x = none ∧ deadline ≤ x.2) ∧
      (r.ret = none ↔ ∀ x ∈ seen, Waits id deadline x) ∧
      (r.ret ≠ some 0 → r.outBe = outBe) := by
  intro r id deadline seen
  have hr : r = awaitAnswer ctx sock id deadline outBe turns := by
    simp only [r, smoltcpResolve, hname, hquad, hsock]
    rfl
  have hloop := result_resolveLoop id deadline hturns (IfaceCtx.Lent.add ctx sock)
  obtain ⟨hfound, hlate, hopen, hkept⟩ := awaitAnswer_ends sock outBe hloop
  rw [hr]
  simp only [← lookupEnds_eq_found_iff, ← lookupEnds_eq_late_iff, ← lookupEnds_eq_none_iff]
  exact ⟨hfound, hlate, hopen, hkept⟩

/-- An arrival changes one socket in place. -/
theorem inPlace_hearing (d : Datagram) : (hearing d).InPlace := by
  intro ctx
  have hstays (h : (hearing d).poll ctx = ctx) : IfaceCtx.InPlace ctx ((hearing d).poll ctx) := by
    rw [h]
    exact ⟨rfl, rfl, rfl, fun _ => rfl⟩
  rcases h : ctx.sockets.lookup 0 with _ | x | (x : RefUdp) | _
  · exact hstays (by simp only [hearing, h])
  · exact hstays (by simp only [hearing, h])
  · have hpoll : (hearing d).poll ctx =
        { ctx with sockets := ctx.sockets.replace 0 (.udp { x with rx := x.rx ++ [d] }) } := by simp only [hearing, h]
    rw [hpoll]
    refine ⟨rfl, rfl, rfl, fun sh => ?_⟩
    change ((ctx.sockets.replace 0 _).lookup sh).map Socket.kind? = _
    rw [SocketSet.lookup_replace]
    split_ifs with hsh
    · rw [hsh, h]
      rfl
    · rfl
  · exact hstays (by simp only [hearing, h])

/-- A lookup that hears one datagram and takes it. -/
theorem smoltcpResolve_decided_fromStranger : ∃ sock : RefUdp, ∃ a,
    (∃ x, FirstAt (queryId 7) 5000000 (turnsSeen 0 [hearing fromStranger]
        { (.new 0 fun _ => 0 : IfaceCtx .reference) with
          sockets := (SocketSet.add (IfaceCtx.new 0 fun _ => 0 : IfaceCtx .reference).sockets (.udp sock)).2 }) x ∧
      turnAddress (queryId 7) x = some a) ∧ (lookupHearing fromStranger).outBe = ipv4ToBe a := by
  have hname : (CStr.ofText ['a']).toStr = some ['a'] := CStr.toStr_ofText _
  have hquad : parseIpv4Addr ['a'] = none := by decide
  have hturns : ∀ t ∈ [hearing fromStranger], t.InPlace := by
    intro t ht
    rw [List.mem_singleton.mp ht]
    exact inPlace_hearing fromStranger
  obtain ⟨sock, hsock⟩ : ∃ sock, querySocket .reference ['a'] dnsServer 7 0 = some sock := ⟨_, rfl⟩
  have hret : (lookupHearing fromStranger).ret = some 0 := by
    rw [lookupHearing_eq]
    decide +kernel
  have h := smoltcpResolve_decided (.new 0 fun _ => 0) (CStr.ofText ['a']) dnsServer 5000 0 7 0 0 hturns hname hquad
    hsock
  exact ⟨sock, (h.1 _).mp ⟨hret, rfl⟩⟩

end EspSmoltcp
