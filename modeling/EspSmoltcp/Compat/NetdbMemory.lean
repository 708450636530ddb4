import EspSmoltcp.Compat.Getaddrinfo
import EspSmoltcp.Machinery.Linked
import EspSmoltcp.Machinery.Shares
import Mathlib.Data.List.Induction
import Mathlib.Logic.Relation

/-!
# Compat/NetdbMemory — the memory behind `netdb_wrap.c`

    getaddrinfo ──calloc ai──▸ ──calloc sin──▸ ──fill in──▸ result ──▸ the application ──▸ freeaddrinfo
                                    └─ one is NULL: free both

A result is a linked list of `struct addrinfo`, each with its `struct sockaddr_in`.  The application may chain one
result to another; `freeaddrinfo` follows the links.

* `gaiMemory_safe` — in every interleaving of the calls: none gets stuck on memory that is freed or holds something
  else, every result reads as what `getaddrinfo` was asked for, and what is allocated is in one result, once.
-/

namespace EspSmoltcp

variable {T : Type}

/-! ## Memory -/

/-- `struct addrinfo`, as far as the shim writes or follows it; the defaults are what `calloc` leaves. -/
structure AddrInfoCell where
  family : ℤ := 0
  socktype : ℤ := 0
  protocol : ℤ := 0
  addrlen : ℕ := 0
  addr : Option ℕ := none
  next : Option ℕ := none

/-- A block that `getaddrinfo` allocates. -/
inductive GaiBlock
  | ai (c : AddrInfoCell)
  | sin (a : SockAddrIn)

/-- `struct sockaddr_in` as `calloc` leaves it. -/
def GaiBlock.zeroSin : GaiBlock := .sin ⟨0, 0, 0⟩

/-- Where a task is in `getaddrinfo` or `freeaddrinfo`. -/
inductive GaiPc
  | idle
  /-- `smoltcp_resolve` has returned 0. -/
  | resolved (q : GaiQuery) (addrBe : UInt32)
  /-- The first `calloc` has returned. -/
  | one (q : GaiQuery) (addrBe : UInt32) (ai : Option ℕ)
  /-- The second one has. -/
  | two (q : GaiQuery) (addrBe : UInt32) (ai sin : Option ℕ)
  /-- One of them was `NULL`, and `ai` is freed. -/
  | undoing (sin : Option ℕ)
  /-- `freeaddrinfo` is at the head of its loop. -/
  | freeing (res : Option ℕ)
  /-- It has read `res->ai_next`. -/
  | stepped (res : ℕ) (next : Option ℕ)
  /-- It has freed `res->ai_addr`. -/
  | bared (res : ℕ) (next : Option ℕ)

/-- The heap, the tasks, and the results the application holds, each with what it was told. -/
structure GaiMem (T : Type) where
  heap : ℕ → Option GaiBlock := fun _ => none
  pc : T → GaiPc := fun _ => .idle
  results : ℕ → Option (List AddrInfo) := fun _ => none

/-- A node of a result: its two blocks, and what they say. -/
structure GaiNode where
  ai : ℕ
  sin : ℕ
  info : AddrInfo

namespace GaiNode

def blocks (n : GaiNode) : List ℕ := [n.ai, n.sin]

/-- The `struct addrinfo` of a node that points on to `next`. -/
def cell (n : GaiNode) (next : Option ℕ) : AddrInfoCell :=
  ⟨n.info.family, n.info.socktype, n.info.protocol, n.info.addrlen, some n.sin, next⟩

/-- The node is at `k`, and points on to `next`. -/
def At (heap : ℕ → Option GaiBlock) (k : ℕ) (n : GaiNode) (next : Option ℕ) : Prop :=
  n.ai = k ∧ heap k = some (.ai (n.cell next)) ∧ heap n.sin = some (.sin n.info.addr)

end GaiNode

namespace GaiMem

def goto [DecidableEq T] (s : GaiMem T) (t : T) (c : GaiPc) : GaiMem T := { s with pc := Function.update s.pc t c }

def setBlock (s : GaiMem T) (k : ℕ) (b : Option GaiBlock) : GaiMem T := { s with heap := Function.update s.heap k b }

def setResult (s : GaiMem T) (r : ℕ) (l : Option (List AddrInfo)) : GaiMem T :=
  { s with results := Function.update s.results r l }

/-- `free`; `free(NULL)` does nothing. -/
def free (s : GaiMem T) (k : Option ℕ) : GaiMem T := k.elim s (s.setBlock · none)

/-- The pointer is `NULL`, or may be freed. -/
def Freeable (s : GaiMem T) (k : Option ℕ) : Prop := ∀ k', k = some k' → (s.heap k').isSome = true

/-- The nodes from a pointer on. -/
def Nodes (s : GaiMem T) : Option ℕ → List GaiNode → Prop := Linked (GaiNode.At s.heap)

end GaiMem

open GaiMem

/-- The six fields `getaddrinfo` sets; `ai_next` stays what it was. -/
def AddrInfoCell.fill (c : AddrInfoCell) (ai : AddrInfo) (sin : ℕ) : AddrInfoCell :=
  ⟨ai.family, ai.socktype, ai.protocol, ai.addrlen, some sin, c.next⟩

section Steps

variable [DecidableEq T]

/-- One step of a task: a call of the heap, what `getaddrinfo` writes, a read of a node, or what the application does
with its results. -/
inductive GaiStep (s : GaiMem T) (t : T) : GaiMem T → Prop
  -- getaddrinfo
  | resolve (q : GaiQuery) (addrBe : UInt32) (hpc : s.pc t = .idle) (hnode : q.node.isSome = true)
      (hres : q.res = true) : GaiStep s t (s.goto t (.resolved q addrBe))
  | callocAi {q : GaiQuery} {addrBe : UInt32} {k : ℕ} (hpc : s.pc t = .resolved q addrBe) (hk : s.heap k = none) :
      GaiStep s t ((s.setBlock k (some (.ai {}))).goto t (.one q addrBe (some k)))
  | callocAiFails {q : GaiQuery} {addrBe : UInt32} (hpc : s.pc t = .resolved q addrBe) :
      GaiStep s t (s.goto t (.one q addrBe none))
  | callocSin {q : GaiQuery} {addrBe : UInt32} {ai : Option ℕ} {k : ℕ} (hpc : s.pc t = .one q addrBe ai)
      (hk : s.heap k = none) :
      GaiStep s t ((s.setBlock k (some .zeroSin)).goto t (.two q addrBe ai (some k)))
  | callocSinFails {q : GaiQuery} {addrBe : UInt32} {ai : Option ℕ} (hpc : s.pc t = .one q addrBe ai) :
      GaiStep s t (s.goto t (.two q addrBe ai none))
  | undoAi {q : GaiQuery} {addrBe : UInt32} {ai sin : Option ℕ} (hpc : s.pc t = .two q addrBe ai sin)
      (hnull : ai = none ∨ sin = none) (hfree : s.Freeable ai) : GaiStep s t ((s.free ai).goto t (.undoing sin))
  | undoSin {sin : Option ℕ} (hpc : s.pc t = .undoing sin) (hfree : s.Freeable sin) :
      GaiStep s t ((s.free sin).goto t .idle)
  | fill {q : GaiQuery} {addrBe : UInt32} {ai sin : ℕ} {c : AddrInfoCell} {a : SockAddrIn}
      (hpc : s.pc t = .two q addrBe (some ai) (some sin)) (hai : s.heap ai = some (.ai c))
      (hsin : s.heap sin = some (.sin a)) :
      GaiStep s t ((((s.setBlock sin (some (.sin (addrInfoOf q addrBe).addr))).setBlock ai
        (some (.ai (c.fill (addrInfoOf q addrBe) sin)))).setResult ai (some [addrInfoOf q addrBe])).goto t .idle)
  -- the application
  | chain {r r' : ℕ} {l l' : List AddrInfo} {ns : List GaiNode} {n : GaiNode} (hpc : s.pc t = .idle) (hne : r ≠ r')
      (hr : s.results r = some l) (hr' : s.results r' = some l') (hend : s.Nodes (some r) (ns ++ [n])) :
      GaiStep s t (((s.setBlock n.ai (some (.ai (n.cell (some r'))))).setResult r' none).setResult r (some (l ++ l')))
  | freeResult {r : ℕ} {l : List AddrInfo} (hpc : s.pc t = .idle) (hr : s.results r = some l) :
      GaiStep s t ((s.setResult r none).goto t (.freeing (some r)))
  | freeNull (hpc : s.pc t = .idle) : GaiStep s t (s.goto t (.freeing none))
  -- freeaddrinfo
  | next {res : ℕ} {c : AddrInfoCell} (hpc : s.pc t = .freeing (some res)) (hres : s.heap res = some (.ai c)) :
      GaiStep s t (s.goto t (.stepped res c.next))
  | freeAddr {res : ℕ} {next : Option ℕ} {c : AddrInfoCell} (hpc : s.pc t = .stepped res next)
      (hres : s.heap res = some (.ai c)) (hfree : s.Freeable c.addr) :
      GaiStep s t ((s.free c.addr).goto t (.bared res next))
  | freeNode {res : ℕ} {next : Option ℕ} (hpc : s.pc t = .bared res next) (hfree : s.Freeable (some res)) :
      GaiStep s t ((s.free (some res)).goto t (.freeing next))
  | done (hpc : s.pc t = .freeing none) : GaiStep s t (s.goto t .idle)

end Steps

/-! ## Who has what -/

/-- Who may have blocks. -/
inductive GaiHolder (T : Type)
  | task (t : T)
  | result (r : ℕ)
  deriving DecidableEq

/-- What a holder has: single blocks, and nodes. -/
structure GaiShare where
  loose : List ℕ := []
  nodes : List GaiNode := []

namespace GaiShare

def blocks (sh : GaiShare) : List ℕ := sh.loose ++ sh.nodes.flatMap GaiNode.blocks

@[simp] theorem blocks_loose (ks : List ℕ) : blocks ⟨ks, []⟩ = ks := List.append_nil ks

@[simp] theorem blocks_nodes (ns : List GaiNode) : blocks ⟨[], ns⟩ = ns.flatMap GaiNode.blocks := rfl

end GaiShare

theorem GaiNode.mem_blocks {ns : List GaiNode} {n : GaiNode} (hn : n ∈ ns) :
    n.ai ∈ ns.flatMap blocks ∧ n.sin ∈ ns.flatMap blocks :=
  ⟨List.mem_flatMap.mpr ⟨n, hn, List.mem_cons_self⟩,
    List.mem_flatMap.mpr ⟨n, hn, List.mem_cons_of_mem _ List.mem_cons_self⟩⟩

/-- What a task has in a call. -/
inductive GaiPc.Has (heap : ℕ → Option GaiBlock) : GaiPc → GaiShare → Prop
  | idle : Has heap .idle {}
  | resolved (q : GaiQuery) (addrBe : UInt32) : Has heap (.resolved q addrBe) {}
  | one {q : GaiQuery} {addrBe : UInt32} {ai : Option ℕ} (hai : ∀ k, ai = some k → heap k = some (.ai {})) :
      Has heap (.one q addrBe ai) ⟨ai.toList, []⟩
  | two {q : GaiQuery} {addrBe : UInt32} {ai sin : Option ℕ} (hai : ∀ k, ai = some k → heap k = some (.ai {}))
      (hsin : ∀ k, sin = some k → heap k = some .zeroSin) :
      Has heap (.two q addrBe ai sin) ⟨ai.toList ++ sin.toList, []⟩
  | undoing (sin : Option ℕ) : Has heap (.undoing sin) ⟨sin.toList, []⟩
  | freeing {res : Option ℕ} {ns : List GaiNode} (h : Linked (GaiNode.At heap) res ns) :
      Has heap (.freeing res) ⟨[], ns⟩
  | stepped {res : ℕ} {next : Option ℕ} {n : GaiNode} {ns : List GaiNode} (hn : n.At heap res next)
      (h : Linked (GaiNode.At heap) next ns) : Has heap (.stepped res next) ⟨[], n :: ns⟩
  | bared {res : ℕ} {next : Option ℕ} {ns : List GaiNode} (h : Linked (GaiNode.At heap) next ns) :
      Has heap (.bared res next) ⟨[res], ns⟩

/-- What a result has: the nodes that say what it was told. -/
inductive GaiTold (heap : ℕ → Option GaiBlock) (r : ℕ) : Option (List AddrInfo) → GaiShare → Prop
  | none : GaiTold heap r none {}
  | some {l : List AddrInfo} {ns : List GaiNode} (h : Linked (GaiNode.At heap) (some r) ns)
      (hl : ns.map GaiNode.info = l) : GaiTold heap r (some l) ⟨[], ns⟩

namespace GaiMem

/-- A holder has this share. -/
def Fits (s : GaiMem T) : GaiHolder T → GaiShare → Prop
  | .task t, sh => (s.pc t).Has s.heap sh
  | .result r, sh => GaiTold s.heap r (s.results r) sh

/-- Nothing is said of the holder that was not said before. -/
def Same (s s' : GaiMem T) : GaiHolder T → Prop
  | .task t => s'.pc t = s.pc t
  | .result r => s'.results r = s.results r

/-- Every block is in one share, and every holder has its share. -/
structure Inv (s : GaiMem T) (share : GaiHolder T → GaiShare) : Prop where
  shares : Shares s.heap fun o => (share o).blocks
  fits : ∀ o, s.Fits o (share o)

theorem inv_start : Inv ({} : GaiMem T) fun _ => {} where
  shares := Shares.start
  fits o := by
    rcases o with t | r
    · exact .idle
    · exact .none

end GaiMem

theorem GaiNode.At.frame {heap heap' : ℕ → Option GaiBlock} {k : ℕ} {n : GaiNode} {next : Option ℕ}
    (h : n.At heap k next) (hai : heap' n.ai = heap n.ai) (hsin : heap' n.sin = heap n.sin) : n.At heap' k next := by
  obtain ⟨rfl, hcell, haddr⟩ := h
  exact ⟨rfl, hai.trans hcell, hsin.trans haddr⟩

/-- What is at a place, and where it points, can be read off. -/
theorem GaiNode.At.inj {heap : ℕ → Option GaiBlock} (k : ℕ) (n : GaiNode) (next : Option ℕ) (n' : GaiNode)
    (next' : Option ℕ) (h : n.At heap k next) (h' : n'.At heap k next') : n = n' ∧ next = next' := by
  obtain ⟨rfl, hcell, haddr⟩ := h
  obtain ⟨hai, hcell', haddr'⟩ := h'
  simp only [hcell, cell, Option.some.injEq, GaiBlock.ai.injEq, AddrInfoCell.mk.injEq] at hcell'
  obtain ⟨hfamily, hsocktype, hprotocol, haddrlen, hsin, hnext⟩ := hcell'
  rw [← hsin, haddr, Option.some.injEq, GaiBlock.sin.injEq] at haddr'
  rcases n with ⟨ai, sin, family, socktype, protocol, addrlen, addr⟩
  rcases n' with ⟨ai', sin', family', socktype', protocol', addrlen', addr'⟩
  simp only at hai hfamily hsocktype hprotocol haddrlen hsin haddr'
  subst hai hfamily hsocktype hprotocol haddrlen hsin haddr'
  exact ⟨rfl, hnext⟩

section Frame

variable {heap heap' : ℕ → Option GaiBlock} {sh : GaiShare}

/-- A list stays if the blocks of its nodes do. -/
theorem GaiNode.linked_frame {p : Option ℕ} {ns : List GaiNode} (h : Linked (GaiNode.At heap) p ns)
    (hheap : ∀ k ∈ ns.flatMap GaiNode.blocks, heap' k = heap k) : Linked (GaiNode.At heap') p ns := by
  refine h.frame fun n hn k next hk => ?_
  obtain ⟨hai, hsin⟩ := GaiNode.mem_blocks hn
  exact hk.frame (hheap _ hai) (hheap _ hsin)

theorem GaiPc.Has.frame {c : GaiPc} (h : c.Has heap sh) (hheap : ∀ k ∈ sh.blocks, heap' k = heap k) :
    c.Has heap' sh := by
  cases h with
  | idle => exact .idle
  | resolved q addrBe => exact .resolved q addrBe
  | one hai => exact .one fun k hk => (hheap k (by simp [hk])).trans (hai k hk)
  | two hai hsin =>
    exact .two (fun k hk => (hheap k (by simp [hk])).trans (hai k hk)) fun k hk =>
      (hheap k (by simp [hk])).trans (hsin k hk)
  | undoing sin => exact .undoing sin
  | freeing h => exact .freeing (GaiNode.linked_frame h hheap)
  | stepped hn h =>
    rw [GaiShare.blocks_nodes] at hheap
    obtain ⟨hai, hsin⟩ := GaiNode.mem_blocks List.mem_cons_self
    exact .stepped (hn.frame (hheap _ hai) (hheap _ hsin)) (GaiNode.linked_frame h fun k hk =>
      hheap k (List.mem_append_right _ hk))
  | bared h => exact .bared (GaiNode.linked_frame h fun k hk => hheap k (List.mem_append_right _ hk))

theorem GaiTold.frame {r : ℕ} {l : Option (List AddrInfo)} (h : GaiTold heap r l sh)
    (hheap : ∀ k ∈ sh.blocks, heap' k = heap k) : GaiTold heap' r l sh := by
  cases h with
  | none => exact .none
  | some h hl => exact .some (GaiNode.linked_frame h hheap) hl

/-- **A holder whose blocks nobody writes to has what it had.** -/
theorem GaiMem.Fits.frame {s s' : GaiMem T} {o : GaiHolder T} (h : s.Fits o sh) (hsame : Same s s' o)
    (hheap : ∀ k ∈ sh.blocks, s'.heap k = s.heap k) : s'.Fits o sh := by
  rcases o with t | r
  · rw [Fits, hsame]
    exact GaiPc.Has.frame h hheap
  · rw [Fits, hsame]
    exact GaiTold.frame h hheap

end Frame

/-! ## Steps keep it so -/

section Rules

variable [DecidableEq T] {s s' : GaiMem T} {share : GaiHolder T → GaiShare} {o o' : GaiHolder T} {t : T} {c : GaiPc}
  {sh sh₀ : GaiShare} {k : ℕ}

namespace GaiMem

theorem same_goto {s₁ : GaiMem T} (hpc : s₁.pc = s.pc) (hres : s₁.results = s.results) (ho : o ≠ .task t) :
    Same s (s₁.goto t c) o := by
  rcases o with t' | r
  · rw [Same, goto, hpc]
    exact Function.update_of_ne (fun ht => ho (congrArg _ ht)) c s.pc
  · exact congrFun hres r

theorem fits_goto (h : c.Has s.heap sh) : (s.goto t c).Fits (.task t) sh := by
  change (Function.update s.pc t c t).Has s.heap sh
  rwa [Function.update_self]

namespace Inv

omit [DecidableEq T] in
/-- What a task has, by where it is. -/
theorem has (h : s.Inv share) (hpc : s.pc t = c) : ∃ sh, share (.task t) = sh ∧ c.Has s.heap sh :=
  ⟨_, rfl, hpc ▸ h.fits (.task t)⟩

omit [DecidableEq T] in
/-- What a result has. -/
theorem told (h : s.Inv share) {r : ℕ} {l : Option (List AddrInfo)} (hr : s.results r = l) :
    ∃ sh, share (.result r) = sh ∧ GaiTold s.heap r l sh := ⟨_, rfl, hr ▸ h.fits (.result r)⟩

/-- One holder's share changes. -/
theorem change (h : s.Inv share) (hshares : Shares s'.heap fun o₁ => (Function.update share o sh o₁).blocks)
    (hheap : ∀ o₁, o₁ ≠ o → ∀ k ∈ (share o₁).blocks, s'.heap k = s.heap k)
    (hsame : ∀ o₁, o₁ ≠ o → Same s s' o₁) (hfits : s'.Fits o sh) : s'.Inv (Function.update share o sh) := by
  refine ⟨hshares, fun o₁ => ?_⟩
  by_cases ho : o₁ = o
  · subst ho
    rwa [Function.update_self]
  · rw [Function.update_of_ne ho]
    exact (h.fits o₁).frame (hsame o₁ ho) (hheap o₁ ho)

/-- A task goes on with what it has. -/
theorem goto (h : s.Inv share) (hsh : share (.task t) = sh₀) (hperm : sh.blocks.Perm sh₀.blocks)
    (hfits : c.Has s.heap sh) : (s.goto t c).Inv (Function.update share (.task t) sh) := by
  refine h.change (h.shares.perm fun o => ?_) (fun _ _ _ _ => rfl) (fun _ ho => same_goto rfl rfl ho)
    (fits_goto hfits)
  by_cases ho : o = .task t
  · rw [ho, Function.update_self, hsh]
    exact hperm
  · rw [Function.update_of_ne ho]

/-- `calloc` serves a task. -/
theorem alloc (h : s.Inv share) (hsh : share (.task t) = sh₀) (hk : s.heap k = none) {b : GaiBlock}
    (hperm : sh.blocks.Perm (k :: sh₀.blocks)) (hfits : c.Has (Function.update s.heap k (some b)) sh) :
    ((s.setBlock k (some b)).goto t c).Inv (Function.update share (.task t) sh) := by
  refine h.change (h.shares.alloc (o := .task t) hk b ?_ fun o ho => ?_) (fun o _ k' hk' => ?_)
    (fun _ ho => same_goto rfl rfl ho) (fits_goto hfits)
  · rw [Function.update_self, hsh]
    exact hperm
  · rw [Function.update_of_ne ho]
  · refine Function.update_of_ne ?_ _ _
    rintro rfl
    exact h.shares.owned.not_holds hk o hk'

/-- A task frees a block. -/
theorem release (h : s.Inv share) (hsh : share (.task t) = sh₀) (hperm : sh₀.blocks.Perm (k :: sh.blocks))
    (hfits : c.Has s.heap sh) : ((s.setBlock k none).goto t c).Inv (Function.update share (.task t) sh) := by
  have hmem : k ∈ (share (.task t)).blocks := by
    rw [hsh, hperm.mem_iff]
    exact List.mem_cons_self
  have hnodup := h.shares.nodup (.task t)
  rw [hsh, hperm.nodup_iff, List.nodup_cons] at hnodup
  refine h.change (h.shares.free (o := .task t) (k := k) ?_ fun o ho => ?_) (fun o ho k' hk' => ?_)
    (fun _ ho => same_goto rfl rfl ho) (fits_goto (hfits.frame fun k' hk' => ?_))
  · rw [Function.update_self, hsh]
    exact hperm
  · rw [Function.update_of_ne ho]
  · exact Function.update_of_ne (h.shares.ne ho hmem k' hk') _ _
  · refine Function.update_of_ne ?_ _ _
    rintro rfl
    exact hnodup.1 hk'

/-- A task frees what a pointer points to, if anything. -/
theorem free (h : s.Inv share) (hsh : share (.task t) = sh₀) {p : Option ℕ}
    (hperm : sh₀.blocks.Perm (p.toList ++ sh.blocks)) (hfits : c.Has s.heap sh) :
    ((s.free p).goto t c).Inv (Function.update share (.task t) sh) := by
  rcases p with _ | k
  · exact h.goto hsh hperm.symm hfits
  · exact h.release hsh hperm hfits

/-- One holder hands its share to another. -/
theorem give (h : s.Inv share) (o o' : GaiHolder T) (sh : GaiShare) (hne : o ≠ o')
    (hshares : Shares s'.heap fun o => (share o).blocks)
    (hheap : ∀ o₁, o₁ ≠ o → o₁ ≠ o' → ∀ k ∈ (share o₁).blocks, s'.heap k = s.heap k)
    (hsame : ∀ o₁, o₁ ≠ o → o₁ ≠ o' → Same s s' o₁)
    (hperm : sh.blocks.Perm ((share o).blocks ++ (share o').blocks)) (hfrom : s'.Fits o {}) (hto : s'.Fits o' sh) :
    s'.Inv (Function.update (Function.update share o {}) o' sh) := by
  refine ⟨hshares.give hne ?_ ?_ fun o₁ ho ho' => ?_, fun o₁ => ?_⟩
  · rw [Function.update_of_ne hne, Function.update_self]
    rfl
  · rw [Function.update_self]
    exact hperm
  · rw [Function.update_of_ne ho', Function.update_of_ne ho]
  · by_cases ho' : o₁ = o'
    · subst ho'
      rwa [Function.update_self]
    rw [Function.update_of_ne ho']
    by_cases ho : o₁ = o
    · subst ho
      rwa [Function.update_self]
    rw [Function.update_of_ne ho]
    exact (h.fits o₁).frame (hsame o₁ ho ho') (hheap o₁ ho ho')

/-- `getaddrinfo` fills in its blocks and hands them over. -/
theorem fill (h : s.Inv share) {q : GaiQuery} {addrBe : UInt32} {ai sin : ℕ}
    (hpc : s.pc t = .two q addrBe (some ai) (some sin)) :
    ∃ share', ((((s.setBlock sin (some (.sin (addrInfoOf q addrBe).addr))).setBlock ai
      (some (.ai (AddrInfoCell.fill {} (addrInfoOf q addrBe) sin)))).setResult ai
        (some [addrInfoOf q addrBe])).goto t .idle).Inv share' := by
  obtain ⟨sh, hsh, hhas⟩ := h.has hpc
  cases hhas with
  | two hai hsin =>
  have hblocks : (share (.task t)).blocks = [ai, sin] := by rw [hsh]; rfl
  have haiMem : ai ∈ (share (.task t)).blocks := by simp [hblocks]
  have hsinMem : sin ∈ (share (.task t)).blocks := by simp [hblocks]
  have hne : ai ≠ sin := by
    have hnodup := h.shares.nodup (.task t)
    rw [hblocks] at hnodup
    simpa using hnodup
  -- Nobody holds a result at `ai`: its first block would be `ai`.
  have hnone : share (.result ai) = {} := by
    obtain ⟨shr, hr, htold⟩ := h.told (r := ai) rfl
    generalize s.results ai = l at htold
    cases htold with
    | none => exact hr
    | some hl =>
      obtain ⟨n, ns, next, rfl, ⟨hn, -⟩, -⟩ := hl.of_some
      have hmem : ai ∈ (share (.result ai)).blocks := by
        rw [hr, ← hn]
        exact (GaiNode.mem_blocks List.mem_cons_self).1
      cases h.shares.owned.unique ai (.task t) (.result ai) haiMem hmem
  set info := addrInfoOf q addrBe
  refine ⟨_, h.give (.task t) (.result ai) ⟨[], [⟨ai, sin, info⟩]⟩ (by simp)
    ((h.shares.write hsinMem _).write haiMem _) (fun o ho _ k hk => ?_) (fun o ho ho' => ?_) ?_ (fits_goto .idle) ?_⟩
  · have hkai := h.shares.ne ho haiMem k hk
    have hksin := h.shares.ne ho hsinMem k hk
    exact (Function.update_of_ne hkai _ _).trans (Function.update_of_ne hksin _ _)
  · rcases o with t' | r
    · exact Function.update_of_ne (fun ht => ho (congrArg _ ht)) _ _
    · exact Function.update_of_ne (fun hr => ho' (congrArg _ hr)) _ _
  · rw [hblocks, hnone]
    exact .rfl
  · change GaiTold _ ai (Function.update s.results ai (some [info]) ai) _
    rw [Function.update_self]
    refine .some (.cons ⟨rfl, Function.update_self .., ?_⟩ .nil) rfl
    exact (Function.update_of_ne hne.symm _ _).trans (Function.update_self ..)

/-- The application chains one result to another. -/
theorem chain (h : s.Inv share) {r r' : ℕ} {l l' : List AddrInfo} {ns : List GaiNode} {n : GaiNode} (hne : r ≠ r')
    (hr : s.results r = some l) (hr' : s.results r' = some l') (hend : s.Nodes (some r) (ns ++ [n])) :
    ∃ share', (((s.setBlock n.ai (some (.ai (n.cell (some r'))))).setResult r' none).setResult r
      (some (l ++ l'))).Inv share' := by
  obtain ⟨sh, hsh, htold⟩ := h.told hr
  obtain ⟨sh', hsh', htold'⟩ := h.told hr'
  cases htold with
  | some hlist hl =>
  cases htold' with
  | some hlist' hl' =>
  rename_i ns₀ ns'
  obtain rfl : ns₀ = ns ++ [n] := hlist.unique GaiNode.At.inj hend
  have hmem : n.ai ∈ (share (.result r)).blocks := by
    rw [hsh]
    exact (GaiNode.mem_blocks (List.mem_append_right _ List.mem_cons_self)).1
  have hnodup := h.shares.nodup (.result r)
  rw [hsh, GaiShare.blocks_nodes, List.flatMap_append, List.nodup_append] at hnodup
  have hsin : n.sin ≠ n.ai := by
    have := hnodup.2.1
    simp [GaiNode.blocks] at this
    exact Ne.symm this
  have hother : ∀ k ∈ ns.flatMap GaiNode.blocks, k ≠ n.ai := fun k hk =>
    hnodup.2.2 k hk n.ai (GaiNode.mem_blocks List.mem_cons_self).1
  have hholder : GaiHolder.result r' ≠ (.result r : GaiHolder T) := by simpa using hne.symm
  refine ⟨_, h.give (.result r') (.result r) ⟨[], ns ++ [n] ++ ns'⟩ hholder
    (h.shares.write hmem _) (fun o _ ho k hk => ?_) (fun o ho ho' => ?_) ?_ ?_ ?_⟩
  · exact Function.update_of_ne (h.shares.ne ho hmem k hk) _ _
  · rcases o with t' | r₁
    · rfl
    · exact (Function.update_of_ne (fun hr₁ => ho' (congrArg _ hr₁)) _ _).trans
        (Function.update_of_ne (fun hr₁ => ho (congrArg _ hr₁)) _ _)
  · rw [hsh, hsh']
    simp only [GaiShare.blocks_nodes, List.flatMap_append]
    exact List.perm_append_comm
  · change GaiTold _ r' (Function.update (Function.update s.results r' none) r (some (l ++ l')) r') _
    rw [Function.update_of_ne hne.symm, Function.update_self]
    exact .none
  · change GaiTold _ r (Function.update (Function.update s.results r' none) r (some (l ++ l')) r) _
    rw [Function.update_self]
    refine .some (hlist.join (fun m hm k next hk => ?_) (fun k hk => ?_)
      (GaiNode.linked_frame hlist' fun k hk => ?_)) ?_
    -- The block written to is that of the last node, and no other.
    · obtain ⟨hai, hsin⟩ := GaiNode.mem_blocks hm
      exact hk.frame (Function.update_of_ne (hother _ hai) _ _) (Function.update_of_ne (hother _ hsin) _ _)
    · obtain ⟨rfl, -, haddr⟩ := hk
      exact ⟨rfl, Function.update_self .., (Function.update_of_ne hsin _ _).trans haddr⟩
    · exact Function.update_of_ne (h.shares.ne hholder hmem k (by rwa [hsh'])) _ _
    · rw [List.map_append, hl, hl']

/-- The application frees a result. -/
theorem freeResult (h : s.Inv share) {r : ℕ} {l : List AddrInfo} (hpc : s.pc t = .idle) (hr : s.results r = some l) :
    ∃ share', ((s.setResult r none).goto t (.freeing (some r))).Inv share' := by
  obtain ⟨sh, hsh, hhas⟩ := h.has hpc
  obtain ⟨sh', hsh', htold⟩ := h.told hr
  cases hhas with
  | idle =>
  cases htold with
  | some hlist hl =>
  rename_i ns
  refine ⟨_, h.give (.result r) (.task t) ⟨[], ns⟩ (by simp) h.shares (fun _ _ _ _ _ => rfl)
    (fun o ho ho' => ?_) ?_ ?_ (fits_goto (.freeing hlist))⟩
  · rcases o with t' | r₁
    · exact Function.update_of_ne (fun ht => ho' (congrArg _ ht)) _ _
    · exact Function.update_of_ne (fun hr₁ => ho (congrArg _ hr₁)) _ _
  · rw [hsh, hsh']
    simp
  · change GaiTold _ r (Function.update s.results r none r) _
    rw [Function.update_self]
    exact .none

/-- **Every step keeps every block in one share.** -/
theorem step (h : s.Inv share) (hstep : GaiStep s t s') : ∃ share', s'.Inv share' := by
  cases hstep with
  | resolve q addrBe hpc _ _ =>
    obtain ⟨sh, hsh, hhas⟩ := h.has hpc
    cases hhas
    exact ⟨_, h.goto hsh .rfl (.resolved q addrBe)⟩
  | callocAi hpc hk =>
    obtain ⟨sh, hsh, hhas⟩ := h.has hpc
    cases hhas
    refine ⟨_, h.alloc hsh hk .rfl (.one fun k' hk' => ?_)⟩
    obtain rfl := Option.some.inj hk'
    exact Function.update_self ..
  | callocAiFails hpc =>
    obtain ⟨sh, hsh, hhas⟩ := h.has hpc
    cases hhas
    exact ⟨_, h.goto hsh .rfl (.one fun k hk => by cases hk)⟩
  | callocSin hpc hk =>
    obtain ⟨sh, hsh, hhas⟩ := h.has hpc
    cases hhas with
    | one hai =>
    refine ⟨_, h.alloc hsh hk ?_ (.two (fun k' hk' => ?_) fun k' hk' => ?_)⟩
    · rw [GaiShare.blocks_loose, GaiShare.blocks_loose]
      exact List.perm_append_singleton ..
    · refine (Function.update_of_ne ?_ _ _).trans (hai k' hk')
      rintro rfl
      cases hk.symm.trans (hai k' hk')
    · obtain rfl := Option.some.inj hk'
      exact Function.update_self ..
  | callocSinFails hpc =>
    obtain ⟨sh, hsh, hhas⟩ := h.has hpc
    cases hhas with
    | one hai =>
    exact ⟨_, h.goto hsh (by simp) (.two hai fun k hk => by cases hk)⟩
  | undoAi hpc hnull hfree =>
    obtain ⟨sh, hsh, hhas⟩ := h.has hpc
    cases hhas with
    | two hai hsin =>
    exact ⟨_, h.free hsh (by simp) (.undoing _)⟩
  | undoSin hpc hfree =>
    obtain ⟨sh, hsh, hhas⟩ := h.has hpc
    cases hhas
    exact ⟨_, h.free hsh (by simp) .idle⟩
  | fill hpc hai hsin =>
    obtain ⟨sh, hsh, hhas⟩ := h.has hpc
    cases hhas with
    | two hzero hzero' =>
    obtain rfl := GaiBlock.ai.inj (Option.some.inj (hai.symm.trans (hzero _ rfl)))
    exact h.fill hpc
  | chain hpc hne hr hr' hend => exact h.chain hne hr hr' hend
  | freeResult hpc hr => exact h.freeResult hpc hr
  | freeNull hpc =>
    obtain ⟨sh, hsh, hhas⟩ := h.has hpc
    cases hhas
    exact ⟨_, h.goto hsh .rfl (.freeing .nil)⟩
  | next hpc hres =>
    obtain ⟨sh, hsh, hhas⟩ := h.has hpc
    cases hhas with
    | freeing hlist =>
    obtain ⟨n, ns, next, rfl, hn, hlist⟩ := hlist.of_some
    obtain rfl := GaiBlock.ai.inj (Option.some.inj (hres.symm.trans hn.2.1))
    exact ⟨_, h.goto hsh .rfl (.stepped hn hlist)⟩
  | freeAddr hpc hres hfree =>
    obtain ⟨sh, hsh, hhas⟩ := h.has hpc
    cases hhas with
    | stepped hn hlist =>
    obtain rfl := GaiBlock.ai.inj (Option.some.inj (hres.symm.trans hn.2.1))
    obtain ⟨rfl, -⟩ := hn
    refine ⟨_, h.free hsh ?_ (.bared hlist)⟩
    exact .swap ..
  | freeNode hpc hfree =>
    obtain ⟨sh, hsh, hhas⟩ := h.has hpc
    cases hhas with
    | bared hlist => exact ⟨_, h.free hsh .rfl (.freeing hlist)⟩
  | done hpc =>
    obtain ⟨sh, hsh, hhas⟩ := h.has hpc
    cases hhas with
    | freeing hlist =>
    obtain rfl := hlist.of_none
    exact ⟨_, h.goto hsh .rfl .idle⟩

omit [DecidableEq T] in
theorem freeable (h : s.Inv share) (hsh : share o = sh) {p : Option ℕ} (hp : ∀ k, p = some k → k ∈ sh.blocks) :
    s.Freeable p :=
  fun k hk => h.shares.owned.isSome (o := o) (hsh ▸ hp k hk)

/-- **A call never gets stuck**: what its next step reads is there, and what it frees may be freed. -/
theorem progress (h : s.Inv share) (hpc : s.pc t ≠ .idle) : ∃ s', GaiStep s t s' := by
  obtain ⟨sh, hsh, hhas⟩ := h.has (t := t) rfl
  generalize hc : s.pc t = c at hhas hpc
  cases hhas with
  | idle => exact absurd rfl hpc
  | resolved q addrBe => exact ⟨_, .callocAiFails hc⟩
  | one hai => exact ⟨_, .callocSinFails hc⟩
  | @two q addrBe ai sin hai hsin =>
    have hfree : s.Freeable ai := h.freeable hsh fun k hk => by simp [hk]
    rcases ai with _ | ai
    · exact ⟨_, .undoAi hc (.inl rfl) hfree⟩
    rcases sin with _ | sin
    · exact ⟨_, .undoAi hc (.inr rfl) hfree⟩
    exact ⟨_, .fill hc (hai ai rfl) (hsin sin rfl)⟩
  | undoing sin => exact ⟨_, .undoSin hc (h.freeable hsh fun k hk => by simp [hk])⟩
  | @freeing res ns hlist =>
    rcases res with _ | res
    · exact ⟨_, .done hc⟩
    obtain ⟨n, ns, next, rfl, hn, -⟩ := hlist.of_some
    exact ⟨_, .next hc hn.2.1⟩
  | stepped hn hlist =>
    refine ⟨_, .freeAddr hc hn.2.1 (h.freeable hsh fun k hk => ?_)⟩
    obtain rfl := Option.some.inj hk
    exact (GaiNode.mem_blocks List.mem_cons_self).2
  | bared hlist =>
    refine ⟨_, .freeNode hc (h.freeable hsh fun k hk => ?_)⟩
    obtain rfl := Option.some.inj hk
    exact List.mem_cons_self

end Inv

end GaiMem

end Rules

/-! ## Runs -/

section Runs

variable [DecidableEq T]

theorem GaiMem.exists_inv_of_run {s : GaiMem T}
    (hrun : Relation.ReflTransGen (fun s s' => ∃ t, GaiStep s t s') {} s) :
    ∃ share, s.Inv share := by
  induction hrun with
  | refl => exact ⟨_, inv_start⟩
  | tail _ hstep ih =>
    obtain ⟨share, h⟩ := ih
    obtain ⟨t, hstep⟩ := hstep
    exact h.step hstep

/-- **The memory of the resolver is safe.**  In every interleaving of the calls of any tasks: no call gets stuck on
memory that is freed or is something else; each result the application holds reads as what it was told; and while no
call is under way, every live block is a block of one result, in one place of its list, so that nothing is left once
all are freed. -/
theorem gaiMemory_safe {s : GaiMem T} (hrun : Relation.ReflTransGen (fun s s' => ∃ t, GaiStep s t s') {} s) :
    (∀ t, s.pc t ≠ .idle → ∃ s', GaiStep s t s') ∧
      ∃ nodes : ℕ → List GaiNode,
        (∀ r, s.results r = none → nodes r = []) ∧
        (∀ r l, s.results r = some l → s.Nodes (some r) (nodes r) ∧ (nodes r).map GaiNode.info = l) ∧
        (∀ r, ((nodes r).flatMap GaiNode.blocks).Nodup) ∧
        ((∀ t, s.pc t = .idle) →
          ∀ k, (s.heap k).isSome = true ↔ ∃! r, k ∈ (nodes r).flatMap GaiNode.blocks) := by
  obtain ⟨share, h⟩ := GaiMem.exists_inv_of_run hrun
  have hres : ∀ r, share (.result r) = ⟨[], (share (.result r)).nodes⟩ := by
    intro r
    obtain ⟨sh, hsh, htold⟩ := h.told (r := r) rfl
    rw [hsh]
    generalize s.results r = l at htold
    cases htold with
    | none => rfl
    | some _ _ => rfl
  have hblocks : ∀ r, (share (.result r)).nodes.flatMap GaiNode.blocks = (share (.result r)).blocks := by
    intro r
    rw [hres r]
    rfl
  refine ⟨fun t => h.progress, fun r => (share (.result r)).nodes, fun r hr => ?_, fun r l hr => ?_, fun r => ?_,
    fun hidle k => ?_⟩
  · obtain ⟨sh, hsh, htold⟩ := h.told hr
    cases htold
    exact congrArg GaiShare.nodes hsh
  · obtain ⟨sh, hsh, htold⟩ := h.told hr
    cases htold with
    | some hlist hl =>
    simp only [hsh]
    exact ⟨hlist, hl⟩
  · rw [hblocks]
    exact h.shares.nodup _
  · simp only [hblocks]
    rw [h.shares.owned.live_iff]
    constructor
    · rintro ⟨t | r, hk⟩
      · obtain ⟨sh, hsh, hhas⟩ := h.has (hidle t)
        cases hhas
        simp [hsh, GaiShare.blocks] at hk
      · exact ⟨r, hk, fun r' hr' => by cases h.shares.owned.unique k _ _ hk hr'; rfl⟩
    · rintro ⟨r, hk, -⟩
      exact ⟨.result r, hk⟩

end Runs

/-- The query for a host, on any service and with no hints. -/
def plainQuery : GaiQuery := ⟨some (CStr.ofText ['a']), none, none, true⟩

/-- One task frees a result while another one stays. -/
theorem gaiMemory_safe_halfFreed : ∃ s : GaiMem Bool, s.pc true = .stepped 3 none ∧ (∃ s', GaiStep s true s') ∧
    ∃ nodes : ℕ → List GaiNode, (nodes 1).map GaiNode.info = [addrInfoOf plainQuery 5] := by
  have hrun : ∃ s : GaiMem Bool, Relation.ReflTransGen (fun s s' => ∃ t, GaiStep s t s') {} s ∧
      s.pc true = .stepped 3 none ∧ s.results 1 = some [addrInfoOf plainQuery 5] := by
    refine ⟨_, .tail (.tail (.tail (.tail (.tail (.tail (.tail (.tail (.tail (.tail .refl
      ⟨true, .resolve plainQuery 5 rfl rfl rfl⟩)
      ⟨true, .callocAi (k := 1) rfl rfl⟩)
      ⟨false, .resolve plainQuery 6 rfl rfl rfl⟩)
      ⟨false, .callocAi (k := 3) rfl rfl⟩)
      ⟨true, .callocSin (k := 2) rfl rfl⟩)
      ⟨true, .fill rfl rfl rfl⟩)
      ⟨false, .callocSin (k := 4) rfl rfl⟩)
      ⟨false, .fill rfl rfl rfl⟩)
      ⟨true, .freeResult (r := 3) rfl rfl⟩)
      ⟨true, .next rfl rfl⟩, rfl, rfl⟩
  obtain ⟨s, hrun, hpc, hres⟩ := hrun
  obtain ⟨hsteps, nodes, -, hnodes, -⟩ := gaiMemory_safe hrun
  refine ⟨s, hpc, hsteps true ?_, nodes, (hnodes 1 _ hres).2⟩
  rw [hpc]
  simp

/-! ## The static result of `gethostbyname` -/

/-- The statics of `gethostbyname` that its calls change: `addr_be` and `name_copy`. -/
@[ext] structure HostStatics where
  addrBe : UInt32 := 0
  nameCopy : Bytes := List.replicate 64 0

/-- `strncpy`: at most `n` characters, and NULs up to `n`. -/
def strncpy (dst : Bytes) (src : CStr) (n : ℕ) : Bytes :=
  let cs := src.data.toList.take n
  cs ++ List.replicate (n - cs.length) 0 ++ dst.drop n

section HostByName

variable {S : Smoltcp}

/-- A call of `gethostbyname`: its argument, what its lookup meets, and the world it is made in. -/
structure HostCall (S : Smoltcp) where
  name : Option CStr
  env : LookupEnv S
  world : World S

/-- `smoltcp_resolve` as `gethostbyname` calls it: the return code and `*out_be`. -/
def HostCall.resolve (c : HostCall S) (cfg : Config) (dns : DnsConfig) (outBe : UInt32) :
    (Option Int × UInt32) × World S :=
  match handleFor c.world (fdDefaultIface cfg c.world).code, c.name with
  | some i, some name =>
    c.world.ffi i (some (-1), outBe) fun ctx =>
      let r := smoltcpResolve ctx name (dnsServerBe dns) dns.timeoutMs outBe c.env.idRand c.env.portRand c.env.start
        c.env.turns
      ((r.ret, r.outBe), r.ctx)
  | _, _ => ((some (-1), outBe), c.world)

/-- `__wrap_lwip_gethostbyname`: whether it returns `&he`, and what it leaves in the statics; `none` is a lookup still
in its receive loop when the turns end. -/
def wrapLwipGethostbyname (cfg : Config) (dns : DnsConfig) (c : HostCall S) (hs : HostStatics) :
    Option Bool × World S × HostStatics :=
  let r := c.resolve cfg dns hs.addrBe
  match r.1.1 with
  | none => (none, r.2, hs)
  | some ret =>
    if ret ≠ 0 then (some false, r.2, { hs with addrBe := r.1.2 })
    else (some true, r.2, ⟨r.1.2, strncpy hs.nameCopy (c.name.getD default) 63⟩)

/-- What the statics hold of a call that has succeeded. -/
def HostCall.found (c : HostCall S) (cfg : Config) (dns : DnsConfig) : Option HostStatics :=
  if (c.resolve cfg dns 0).1.1 = some 0 then
    some ⟨(c.resolve cfg dns 0).1.2, strncpy (List.replicate 64 0) (c.name.getD default) 63⟩
  else none

/-- A lookup stores its address if it finds one, and nothing else. -/
theorem outBe_smoltcpResolve (ctx : IfaceCtx S) (name : CStr)
    (serverBe timeoutMs outBe outBe' idRand portRand : UInt32) (start : ℤ) (turns : List (ResolveTurn S)) :
    let r := smoltcpResolve ctx name serverBe timeoutMs outBe idRand portRand start turns
    let r' := smoltcpResolve ctx name serverBe timeoutMs outBe' idRand portRand start turns
    r.ret = r'.ret ∧ (r.ret = some 0 → r.outBe = r'.outBe) ∧ (r.ret ≠ some 0 → r.outBe = outBe) := by
  dsimp only
  rw [smoltcpResolve, smoltcpResolve]
  rcases name.toStr with _ | cs
  · simp
  dsimp only
  rcases parseIpv4Addr cs with _ | addr
  · dsimp only
    rcases querySocket S cs serverBe idRand portRand with _ | sock
    · simp
    dsimp only
    rw [awaitAnswer, awaitAnswer]
    dsimp only
    rcases (resolveLoop _ _ _ turns _).result with _ | _ | addr
    · simp
    · simp
    · simp
  · simp

theorem HostCall.outBe_resolve (c : HostCall S) (cfg : Config) (dns : DnsConfig) (outBe : UInt32) :
    (c.resolve cfg dns outBe).1.1 = (c.resolve cfg dns 0).1.1 ∧
      ((c.resolve cfg dns outBe).1.1 = some 0 → (c.resolve cfg dns outBe).1.2 = (c.resolve cfg dns 0).1.2) ∧
      ((c.resolve cfg dns outBe).1.1 ≠ some 0 → (c.resolve cfg dns outBe).1.2 = outBe) := by
  rw [resolve, resolve]
  rcases handleFor c.world (fdDefaultIface cfg c.world).code with _ | i
  · simp
  rcases c.name with _ | name
  · simp
  dsimp only
  rw [World.ffi, World.ffi]
  rcases c.world.ctx i with _ | ctx
  · simp
  · exact outBe_smoltcpResolve ..

/-- A name written over another one leaves nothing of it. -/
theorem strncpy_eq {dst dst' : Bytes} {src : CStr} {n : ℕ} (h : dst.drop n = dst'.drop n) :
    strncpy dst src n = strncpy dst' src n := by
  rw [strncpy, strncpy, h]

theorem drop_strncpy (dst : Bytes) (src : CStr) (n : ℕ) : (strncpy dst src n).drop n = dst.drop n := by
  have hlen : (src.data.toList.take n ++ List.replicate (n - (src.data.toList.take n).length) 0).length = n := by
    have := List.length_take_le n src.data.toList
    rw [List.length_append, List.length_replicate]
    omega
  change List.drop n (_ ++ List.drop n dst) = _
  rw [List.drop_append_of_le_length (Nat.le_of_eq hlen.symm), List.drop_of_length_le (Nat.le_of_eq hlen),
    List.nil_append]

/-- The last byte of `name_copy` is never written. -/
def HostStatics.Terminated (hs : HostStatics) : Prop := hs.nameCopy.drop 63 = [0]

theorem terminated_strncpy {hs : HostStatics} (h : hs.Terminated) (addrBe : UInt32) (name : CStr) :
    HostStatics.Terminated ⟨addrBe, strncpy hs.nameCopy name 63⟩ := (drop_strncpy ..).trans h

/-- **A call that succeeds writes its host over what was there, and no other call changes anything.** -/
theorem statics_wrapLwipGethostbyname (cfg : Config) (dns : DnsConfig) (c : HostCall S) {hs : HostStatics}
    (h : hs.Terminated) : (wrapLwipGethostbyname cfg dns c hs).2.2 = (c.found cfg dns).getD hs ∧
      (wrapLwipGethostbyname cfg dns c hs).2.2.Terminated := by
  obtain ⟨hret, hfound, hlost⟩ := c.outBe_resolve cfg dns hs.addrBe
  rw [wrapLwipGethostbyname, HostCall.found, ← hret]
  rcases hr : (c.resolve cfg dns hs.addrBe).1.1 with _ | ret
  · exact ⟨rfl, h⟩
  dsimp only
  rw [hr] at hfound hlost
  by_cases hzero : ret = 0
  · subst hzero
    rw [if_neg (not_not.mpr rfl), if_pos rfl, hfound rfl]
    refine ⟨?_, terminated_strncpy h ..⟩
    have hsame : strncpy hs.nameCopy (c.name.getD default) 63
        = strncpy (List.replicate 64 0) (c.name.getD default) 63 := strncpy_eq (h.trans rfl)
    rw [hsame]
    rfl
  · have hne : some ret ≠ some 0 := fun he => hzero (Option.some.inj he)
    rw [if_pos hzero, if_neg hne, hlost hne]
    exact ⟨rfl, h⟩

/-- **What `gethostbyname` returns is the last host it found**: after every sequence of calls, in whatever worlds, its
statics hold the address and the first 63 characters of the name of the last call that succeeded, with a NUL behind
them, and nothing of the calls before. -/
theorem wrapLwipGethostbyname_last (cfg : Config) (dns : DnsConfig) (calls : List (HostCall S)) :
    calls.foldl (fun hs c => (wrapLwipGethostbyname cfg dns c hs).2.2) {} =
        ((calls.filterMap fun c => c.found cfg dns).getLast?).getD {} ∧
      (calls.foldl (fun hs c => (wrapLwipGethostbyname cfg dns c hs).2.2) {}).Terminated := by
  induction calls using List.reverseRecOn with
  | nil => exact ⟨rfl, rfl⟩
  | append_singleton calls c ih =>
    obtain ⟨hlast, hterm⟩ := ih
    obtain ⟨hcall, hterm'⟩ := statics_wrapLwipGethostbyname cfg dns c hterm
    rw [List.foldl_append, List.foldl_cons, List.foldl_nil]
    refine ⟨?_, hterm'⟩
    rw [hcall, hlast, List.filterMap_append, List.filterMap_cons, List.filterMap_nil]
    rcases c.found cfg dns with _ | hs
    · rw [List.append_nil]
      rfl
    · rw [List.getLast?_concat]
      rfl

end HostByName

end EspSmoltcp
