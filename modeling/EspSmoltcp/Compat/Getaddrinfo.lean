import EspSmoltcp.Compat.Netdb
import EspSmoltcp.Compat.SockWrap
import EspSmoltcp.Glue.Lending
import EspSmoltcp.Stack.Kinds

/-!
# Compat/Getaddrinfo — `getaddrinfo` of `netdb_wrap.c`

The call looks its name up on the default interface, with the socket that `smoltcp_resolve` borrows there
(`Glue/Lending`).  Every id stands for a socket of the type it stood for, however far the lookup gets
(`serene_wrapLwipGetaddrinfo`).
-/

namespace EspSmoltcp

variable {S : Smoltcp}

/-! ## The call -/

/-- `isspace` in the C locale. -/
def isSpace (b : UInt8) : Bool := b = 32 ∨ (9 ≤ b ∧ b ≤ 13)

/-- The number a run of decimal digits spells. -/
def digitsValue (bs : Bytes) : ℕ :=
  (bs.takeWhile fun b => 48 ≤ b ∧ b ≤ 57).foldl (fun n b => 10 * n + (b.toNat - 48)) 0

/-- `atoi`. -/
def atoi (s : CStr) : ℤ :=
  match s.data.toList.dropWhile isSpace with
  | 45 :: ds => -(digitsValue ds : ℤ)
  | 43 :: ds => digitsValue ds
  | ds => digitsValue ds

/-- The Kconfig values of the resolver: `CONFIG_NETSTACK_DNS_PRIMARY` and
`CONFIG_LWIP_COMPAT_DNS_TIMEOUT_MS`. -/
structure DnsConfig where
  primary : CStr
  timeoutMs : UInt32

/-- The arguments of `getaddrinfo`: `socktype` is that of `hints`, and `res` is whether `res` is not
`NULL`. -/
structure GaiQuery where
  node : Option CStr
  service : Option CStr
  socktype : Option ℤ
  res : Bool

/-- What a lookup meets: whether the heap serves it, its draws of `smoltcp_glue_rand32`, its first reading
of `now` and the turns of its receive loop. -/
structure LookupEnv (S : Smoltcp) where
  heap : Bool
  idRand : UInt32
  portRand : UInt32
  start : ℤ
  turns : List (ResolveTurn S)

/-- `struct addrinfo`, as the shim fills it in. -/
structure AddrInfo where
  family : ℤ
  socktype : ℤ
  protocol : ℤ
  addrlen : ℕ
  addr : SockAddrIn
  deriving DecidableEq

/-- What `getaddrinfo` returns: 0 with a result, or one of the `EAI_*` codes. -/
inductive GaiRet
  | ok (ai : AddrInfo)
  | fail | again | noname | memory
  deriving DecidableEq

/-- `dns_server_be`. -/
def dnsServerBe (dns : DnsConfig) : UInt32 := (smoltcpParseIpv4 (some dns.primary) (some 0)).2.getD 0

/-- The result `getaddrinfo` allocates; `SOCK_STREAM` is 1. -/
def addrInfoOf (q : GaiQuery) (addrBe : UInt32) : AddrInfo where
  family := afInet
  socktype := q.socktype.getD 1
  protocol := 0
  addrlen := sizeofSockAddrIn
  addr := ⟨afInet, addrBe, (q.service.map fun s => UInt16.ofInt (atoi s)).getD 0⟩

/-- What the shim makes of the outcome of `smoltcp_resolve`. -/
def gaiRet (q : GaiQuery) (heap : Bool) (ret : Int) (addrBe : UInt32) : GaiRet :=
  if ret ≠ 0 then .noname else if heap then .ok (addrInfoOf q addrBe) else .memory

/-- `__wrap_lwip_getaddrinfo`; `none` is a lookup still in its receive loop when the turns end. -/
def wrapLwipGetaddrinfo (cfg : Config) (dns : DnsConfig) (q : GaiQuery) (env : LookupEnv S)
    (w : World S) : Option GaiRet × World S :=
  match q.node, q.res with
  | some node, true =>
    match handleFor w (fdDefaultIface cfg w).code with
    | none => (some .again, w)
    | some i =>
      w.ffi i (some .again) fun ctx =>
        let r := smoltcpResolve ctx node (dnsServerBe dns) dns.timeoutMs 0 env.idRand env.portRand env.start
          env.turns
        (r.ret.map fun ret => gaiRet q env.heap ret r.outBe, r.ctx)
  | _, _ => (some .fail, w)

theorem serene_wrapLwipGetaddrinfo {w : World S} (h : w.Wf) (cfg : Config) (dns : DnsConfig) (q : GaiQuery)
    {env : LookupEnv S} (henv : ∀ t ∈ env.turns, t.InPlace) :
    Serene w (wrapLwipGetaddrinfo cfg dns q env w).2 := by
  rw [wrapLwipGetaddrinfo]
  rcases q.node with _ | node
  · exact h.serene_refl
  rcases q.res with _ | _
  · exact h.serene_refl
  simp only
  rcases handleFor w (fdDefaultIface cfg w).code with _ | i
  · exact h.serene_refl
  have hres := fun (ctx : IfaceCtx S) (hc : ctx.Wf) => calm_smoltcpResolve hc node (dnsServerBe dns)
    dns.timeoutMs 0 env.idRand env.portRand env.start henv
  exact ⟨h.calm_ffi i _ fun ctx hc => (hres ctx hc).1,
    World.panicked_ffi fun ctx hctx => (hres ctx (h.ctx i ctx hctx)).2⟩

end EspSmoltcp
