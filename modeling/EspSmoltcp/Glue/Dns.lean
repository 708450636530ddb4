import EspSmoltcp.Glue.Iface

/-!
# Glue/Dns — the A-record resolver of `dns.rs`

`smoltcp_resolve` sends one query from a socket of its own and reads datagrams off it until one of them
parses, or the deadline passes.  `parse_a_response` walks the packet by offset; an index outside it is a
Rust panic, so the walk returns in `Rust`.
-/

namespace EspSmoltcp

variable {S : Smoltcp}

/-! ## Reading a packet -/

/-- Why Rust code aborts. -/
inductive Panic
  | indexOutOfBounds
  deriving DecidableEq, Repr

/-- Rust code that may panic. -/
abbrev Rust := Except Panic

/-- `pkt[i]`. -/
def byteAt (pkt : Bytes) (i : ℕ) : Rust UInt8 :=
  match pkt[i]? with
  | some b => .ok b
  | none => .error .indexOutOfBounds

/-- `u16::from_be_bytes([a, b])`. -/
def u16FromBe (a b : UInt8) : UInt16 := .ofNat (2 ^ 8 * a.toNat + b.toNat)

/-- `u16::to_be_bytes`. -/
def u16ToBe (x : UInt16) : Bytes := [.ofNat (x.toNat / 2 ^ 8), .ofNat x.toNat]

/-- `u16::from_be_bytes([pkt[i], pkt[i + 1]])`. -/
def u16At (pkt : Bytes) (i : ℕ) : Rust UInt16 := do
  return u16FromBe (← byteAt pkt i) (← byteAt pkt (i + 1))

/-! ## `parse_a_response` -/

/-- The loop over the question's name: where it ends, `none` if a length byte has a top bit set. -/
def skipQuestion (pkt : Bytes) (i : ℕ) : Option ℕ :=
  if h : i < pkt.length then
    if pkt[i] = 0 then some i
    else if pkt[i] &&& 0xC0 ≠ 0 then none
    else skipQuestion pkt (i + (1 + pkt[i].toNat))
  else some i
termination_by pkt.length - i

/-- The loop over an owner name in the answer section. -/
def skipLabels (pkt : Bytes) (i : ℕ) : ℕ :=
  if h : i < pkt.length then
    if pkt[i] = 0 then i else skipLabels pkt (i + (1 + pkt[i].toNat))
  else i
termination_by pkt.length - i

/-- A turn of the answer loop as far as the owner name: where it takes the fixed part of the record to
start, `none` if it returns before. -/
def fixedPartAt (pkt : Bytes) (i : ℕ) : Rust (Option ℕ) := do
  if pkt.length < i + 12 then return none
  let i := if (← byteAt pkt i) &&& 0xC0 = 0xC0 then i + 2 else skipLabels pkt i + 1
  if pkt.length < i + 10 then return none
  return some i

/-- How a turn of the answer loop ends. -/
inductive AnswerTurn
  | done (r : Option Ipv4Address)
  | next (i : ℕ)
  deriving DecidableEq

/-- The rest of the turn, from the fixed part on. -/
def readRecord (pkt : Bytes) (i : ℕ) : Rust AnswerTurn := do
  let qtype ← u16At pkt i
  let rdlen := (← u16At pkt (i + 8)).toNat
  let i := i + 10
  if pkt.length < i + rdlen then return .done none
  if qtype = 1 ∧ rdlen = 4 then
    return .done (some ⟨← byteAt pkt i, ← byteAt pkt (i + 1), ← byteAt pkt (i + 2),
      ← byteAt pkt (i + 3)⟩)
  return .next (i + rdlen)

/-- The answer loop, with `n` records to go. -/
def answerLoop (pkt : Bytes) : ℕ → ℕ → Rust (Option Ipv4Address)
  | 0, _ => return none
  | n + 1, i => do
    match ← fixedPartAt pkt i with
    | none => return none
    | some i =>
      match ← readRecord pkt i with
      | .done r => return r
      | .next i => answerLoop pkt n i

/-- `parse_a_response`. -/
def parseAResponse (pkt : Bytes) (expectId : UInt16) : Rust (Option Ipv4Address) := do
  if pkt.length < 12 then return none
  if (← u16At pkt 0) ≠ expectId then return none
  let flags ← u16At pkt 2
  if flags &&& 0x000F ≠ 0 then return none
  let ancount ← u16At pkt 6
  if ancount = 0 then return none
  match skipQuestion pkt 12 with
  | none => return none
  | some i => answerLoop pkt ancount.toNat (i + (1 + 4))

/-! ## The query -/

/-- `str::as_bytes`. -/
def asBytes (cs : List Char) : Bytes := cs.flatMap String.utf8EncodeChar

/-- The label loop of `smoltcp_resolve`; `none` is its `return -1`. -/
def encodeLabels : List (List Char) → Option Bytes
  | [] => some []
  | label :: labels =>
    if (asBytes label).isEmpty ∨ 63 < (asBytes label).length then none
    else do
      let rest ← encodeLabels labels
      return .ofNat (asBytes label).length :: asBytes label ++ rest

/-- The query for a host name: the header, one question, `QTYPE` A and `QCLASS` IN. -/
def buildQuery (id : UInt16) (cs : List Char) : Option Bytes := do
  let qname ← encodeLabels (cs.splitOn '.')
  return u16ToBe id ++ [0x01, 0x00] ++ [0, 1, 0, 0, 0, 0, 0, 0] ++ (qname ++ [0] ++ [0, 1] ++ [0, 1])

/-! ## `smoltcp_resolve` -/

/-- What the interface and the clock contribute to one turn of the receive loop: what `iface.poll` does
to the context, and the reading of `now` in µs that ends the turn. -/
structure ResolveTurn (S : Smoltcp) where
  poll : IfaceCtx S → IfaceCtx S
  now : ℤ

/-- Where the receive loop has got to: what it broke with, if it has, and the datagrams `recv_slice`
handed it, oldest first. -/
structure Resolving (S : Smoltcp) where
  result : Option (Option Ipv4Address)
  heard : List Datagram
  ctx : IfaceCtx S

/-- The receive loop of `smoltcp_resolve`, on the socket at a handle. -/
def resolveLoop (sh : SocketHandle) (id : UInt16) (deadline : ℤ) :
    List (ResolveTurn S) → IfaceCtx S → Resolving S
  | [], ctx => ⟨none, [], ctx⟩
  | t :: ts, ctx =>
    let ctx := t.poll ctx
    match ctx.sockets.lookup sh with
    | some (.udp s) =>
      let (r, s) := S.udp.recvSlice s 512
      let ctx := { ctx with sockets := ctx.sockets.replace sh (.udp s) }
      let rest : Resolving S :=
        if deadline ≤ t.now then ⟨some none, [], ctx⟩ else resolveLoop sh id deadline ts ctx
      match r with
      | none => rest
      | some (data, src) =>
        match parseAResponse data id with
        | .ok (some addr) => ⟨some (some addr), [⟨data, src⟩], ctx⟩
        | .ok none => { rest with heard := ⟨data, src⟩ :: rest.heard }
        | .error _ => ⟨some none, [⟨data, src⟩], ctx.panic⟩
    | _ => ⟨some none, [], ctx.panic⟩

/-- `sockets.remove`. -/
def IfaceCtx.removeSocket (ctx : IfaceCtx S) (sh : SocketHandle) : IfaceCtx S :=
  if (ctx.sockets.lookup sh).isSome then { ctx with sockets := ctx.sockets.erase sh } else ctx.panic

/-- What a call of `smoltcp_resolve` has come to: its return code, if it has returned, and what
`*out_be` holds. -/
structure Resolved (S : Smoltcp) where
  ret : Option Int
  outBe : UInt32
  heard : List Datagram := []
  ctx : IfaceCtx S

/-- The id of the query, from a draw of `smoltcp_glue_rand32`. -/
def queryId (rand : UInt32) : UInt16 := (rand &&& 0xFFFF).toUInt16

/-- The socket of a lookup, bound and with the query queued; `none` is one of the `return -1` on the way. -/
def querySocket (S : Smoltcp) (cs : List Char) (serverBe idRand portRand : UInt32) :
    Option S.udp.Socket := do
  let query ← buildQuery (queryId idRand) cs
  let sock ← S.udp.bind S.udp.new (49152 + (portRand &&& 0x3FFF).toUInt16)
  S.udp.sendSlice sock query (endpointOf serverBe 53)

/-- `smoltcp_resolve` from `sockets.add` on. -/
def awaitAnswer (ctx : IfaceCtx S) (sock : S.udp.Socket) (id : UInt16) (deadline : ℤ) (outBe : UInt32)
    (turns : List (ResolveTurn S)) : Resolved S :=
  let (sh, sockets) := SocketSet.add ctx.sockets (.udp sock)
  let run := resolveLoop sh id deadline turns { ctx with sockets := sockets }
  match run.result with
  | none => { ret := none, outBe := outBe, heard := run.heard, ctx := run.ctx }
  | some (some addr) =>
    { ret := some 0, outBe := ipv4ToBe addr, heard := run.heard, ctx := run.ctx.removeSocket sh }
  | some none =>
    { ret := some (-1), outBe := outBe, heard := run.heard, ctx := run.ctx.removeSocket sh }

/-- `smoltcp_resolve` on non-null pointers.  `idRand` and `portRand` are its two draws of
`smoltcp_glue_rand32`, `start` is the first reading of `now`. -/
def smoltcpResolve (ctx : IfaceCtx S) (name : CStr) (serverBe timeoutMs outBe : UInt32)
    (idRand portRand : UInt32) (start : ℤ) (turns : List (ResolveTurn S)) : Resolved S :=
  match name.toStr with
  | none => { ret := some (-1), outBe := outBe, ctx := ctx }
  | some cs =>
    match parseIpv4Addr cs with
    | some addr => { ret := some 0, outBe := ipv4ToBe addr, ctx := ctx }
    | none =>
      match querySocket S cs serverBe idRand portRand with
      | none => { ret := some (-1), outBe := outBe, ctx := ctx }
      | some sock =>
        awaitAnswer ctx sock (queryId idRand) (start + 1000 * timeoutMs.toNat) outBe turns

end EspSmoltcp
