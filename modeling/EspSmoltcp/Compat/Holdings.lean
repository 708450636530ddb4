import EspSmoltcp.Compat.SockSpec
import EspSmoltcp.Machinery.Ledger
import EspSmoltcp.Stack.Handles

/-!
# Compat/Holdings — the handles in the fd table, as a ledger

`World.holdings` lists the valid handles of the fd table with the type of close they get: the `sock`
field of an entry that is not free, and the pool slots of a listener.

`Held l w` is that `l` records the registered sockets exactly.  The calls of `esp_smoltcp_sock.c` move it
— an open adds its handle, a close takes one off, all else leaves it — and the fd table is brought in
line with it afterwards.
-/

namespace EspSmoltcp

variable {S : Smoltcp} {α : Type}

/-! ## Holdings -/

/-- A handle field, as a holding; an invalid handle holds nothing. -/
def holding (k : SockKind) (s : NetSock) : List (NetSock × SockKind) := if s.valid then [(s, k)] else []

@[simp] theorem holding_invalid (k : SockKind) : holding k .invalid = [] := rfl

theorem holding_of_valid {s : NetSock} (h : s.valid = true) (k : SockKind) :
    holding k s = [(s, k)] := if_pos h

theorem holding_of_not_valid {s : NetSock} (h : ¬ s.valid = true) (k : SockKind) :
    holding k s = [] := if_neg h

/-- What a pool holds. -/
def poolHoldings (pool : List NetSock) : List (NetSock × SockKind) := pool.flatMap (holding .tcp)

@[simp] theorem poolHoldings_nil : poolHoldings [] = [] := rfl

theorem poolHoldings_replicate (n : ℕ) : poolHoldings (List.replicate n .invalid) = [] := by
  rw [poolHoldings, List.flatMap_eq_nil_iff]
  intro s hs
  rw [List.eq_of_mem_replicate hs]
  rfl

/-- The type of close an entry's `sock` gets. -/
def FdKind.closesAs : FdKind → SockKind
  | .udp => .udp
  | _ => .tcp

/-- What an entry of the fd table holds. -/
def FdEntry.holdings (e : FdEntry) : List (NetSock × SockKind) :=
  match e.kind with
  | .free => []
  | .tcpListen => holding .tcp e.sock ++ poolHoldings e.pool
  | k => holding k.closesAs e.sock

/-- What the fd table holds. -/
def World.holdings (w : World S) : List (NetSock × SockKind) := w.fds.flatMap FdEntry.holdings

/-- Only a listener has a pool. -/
def World.Tidy (w : World S) : Prop :=
  ∀ i, (w.fdAt i).kind = .tcp ∨ (w.fdAt i).kind = .udp → (w.fdAt i).pool = []

theorem FdEntry.holdings_of_free {e : FdEntry} (h : e.kind = .free) : e.holdings = [] := by
  rw [holdings, h]

theorem FdEntry.holdings_of_tcp {e : FdEntry} (h : e.kind = .tcp) :
    e.holdings = holding .tcp e.sock := by
  rw [holdings, h]
  rfl

theorem FdEntry.holdings_of_udp {e : FdEntry} (h : e.kind = .udp) :
    e.holdings = holding .udp e.sock := by
  rw [holdings, h]
  rfl

theorem FdEntry.holdings_of_listen {e : FdEntry} (h : e.kind = .tcpListen) :
    e.holdings = holding .tcp e.sock ++ poolHoldings e.pool := by
  rw [holdings, h]

/-- What `fd_free` closes is what the entry holds. -/
theorem FdEntry.holdings_eq {e : FdEntry} (hk : e.kind ≠ .free)
    (hpool : e.kind = .tcp ∨ e.kind = .udp → e.pool = []) :
    e.holdings = holding e.kind.closesAs e.sock ++ poolHoldings e.pool := by
  rcases hkind : e.kind with _ | _ | _ | _
  · exact absurd hkind hk
  · rw [holdings_of_tcp hkind, hpool (.inl hkind), poolHoldings_nil, List.append_nil]
    rfl
  · rw [holdings_of_udp hkind, hpool (.inr hkind), poolHoldings_nil, List.append_nil]
    rfl
  · exact holdings_of_listen hkind

/-! ## Updates of the table -/

namespace World

variable {w : World S} {i : ℕ}

/-- **One entry's holdings, apart from the rest.** -/
theorem holdings_modFd (h : i < w.fds.length) :
    ∃ rest, w.holdings.Perm ((w.fdAt i).holdings ++ rest) ∧
      ∀ e, (w.setFd i e).holdings.Perm (e.holdings ++ rest) :=
  perm_flatMap_set w.fds FdEntry.holdings (getElem?_fds h)

/-- An update that leaves the handles of the entry alone leaves the holdings alone. -/
theorem holdings_setFd_same {e : FdEntry} (h : e.holdings = (w.fdAt i).holdings) :
    (w.setFd i e).holdings.Perm w.holdings := by
  by_cases hi : i < w.fds.length
  · obtain ⟨rest, hold, hset⟩ := holdings_modFd hi
    refine (hset e).trans ?_
    rw [h]
    exact hold.symm
  · rw [holdings, holdings, fds_setFd, List.set_eq_of_length_le (not_lt.mp hi)]

theorem Tidy.setFd (h : w.Tidy) {e : FdEntry} (he : e.kind = .tcp ∨ e.kind = .udp → e.pool = []) :
    (w.setFd i e).Tidy := by
  intro j hj
  by_cases hi : i < w.fds.length
  · by_cases hji : j = i
    · subst hji
      rw [fdAt_setFd_self hi] at hj ⊢
      exact he hj
    · rw [fdAt_setFd_ne hji] at hj ⊢
      exact h j hj
  · have hfds : (w.setFd i e).fdAt j = w.fdAt j := by
      rw [fdAt, fds_setFd, List.set_eq_of_length_le (not_lt.mp hi)]
      rfl
    rw [hfds] at hj ⊢
    exact h j hj

theorem Wf.of_ifaces {w' : World S} (h : w.Wf) (he : w'.ifaces = w.ifaces) : w'.Wf where
  ctx i ctx hc := h.ctx i ctx (by rwa [World.ctx, he] at hc)
  enabled i ctx hc := by
    rw [he]
    exact h.enabled i ctx (by rwa [World.ctx, he] at hc)

theorem entryOf_of_ifaces {w' : World S} (he : w'.ifaces = w.ifaces) : w'.entryOf = w.entryOf := by
  funext s
  simp only [entryOf, World.ctx, he]

theorem kindOf_of_ifaces {w' : World S} (he : w'.ifaces = w.ifaces) : w'.kindOf = w.kindOf := by
  funext s
  rw [kindOf, entryOf_of_ifaces he, kindOf]

theorem counter_of_ifaces {w' : World S} (he : w'.ifaces = w.ifaces) : w'.counter = w.counter := by
  funext i
  rw [counter, counter, World.ctx, World.ctx, he]

end World

/-- The fields of an entry that hold handles. -/
def FdEntry.handles (e : FdEntry) : FdKind × NetSock × List NetSock := (e.kind, e.sock, e.pool)

/-- A change of the shim's statics that moves no handle. -/
structure SameHandles (w w' : World S) : Prop where
  ifaces : w'.ifaces = w.ifaces
  fds : w'.fds.map FdEntry.handles = w.fds.map FdEntry.handles

namespace SameHandles

variable {w w' w'' : World S}

theorem refl (w : World S) : SameHandles w w := ⟨rfl, rfl⟩

theorem trans (h : SameHandles w w') (h' : SameHandles w' w'') : SameHandles w w'' :=
  ⟨h'.ifaces.trans h.ifaces, h'.fds.trans h.fds⟩

theorem modFd (w : World S) (i : ℕ) {f : FdEntry → FdEntry} (hf : ∀ e, (f e).handles = e.handles) :
    SameHandles w (w.modFd i f) := by
  refine ⟨rfl, ?_⟩
  rw [World.modFd, World.fds_setFd, List.map_set, hf]
  by_cases hi : i < w.fds.length
  · refine List.ext_getElem? fun j => ?_
    by_cases hj : i = j
    · subst hj
      rw [List.getElem?_set_self (by simpa using hi), List.getElem?_map, World.getElem?_fds hi]
      rfl
    · rw [List.getElem?_set_ne hj]
  · rw [List.set_eq_of_length_le (by simpa using hi)]

theorem length (h : SameHandles w w') : w'.fds.length = w.fds.length := by
  simpa using congrArg List.length h.fds

theorem fdAt (h : SameHandles w w') (i : ℕ) : (w'.fdAt i).handles = (w.fdAt i).handles := by
  have hi := congrArg (·[i]?) h.fds
  simp only [List.getElem?_map] at hi
  rw [World.fdAt, World.fdAt, List.getD_eq_getElem?_getD, List.getD_eq_getElem?_getD]
  rcases h₁ : w'.fds[i]? with _ | e' <;> rcases h₂ : w.fds[i]? with _ | e <;>
    simp only [h₁, h₂, Option.map_none, Option.map_some, reduceCtorEq] at hi
  · rfl
  · exact Option.some.inj hi

theorem kind (h : SameHandles w w') (i : ℕ) : (w'.fdAt i).kind = (w.fdAt i).kind :=
  congrArg Prod.fst (h.fdAt i)

theorem sock (h : SameHandles w w') (i : ℕ) : (w'.fdAt i).sock = (w.fdAt i).sock :=
  congrArg (·.2.1) (h.fdAt i)

theorem pool (h : SameHandles w w') (i : ℕ) : (w'.fdAt i).pool = (w.fdAt i).pool :=
  congrArg (·.2.2) (h.fdAt i)

theorem holdings (h : SameHandles w w') : w'.holdings = w.holdings := by
  have key : ∀ v : World S, v.holdings = (v.fds.map FdEntry.handles).flatMap fun q =>
      FdEntry.holdings { kind := q.1, sock := q.2.1, pool := q.2.2 } := by
    intro v
    rw [List.flatMap_map]
    rfl
  rw [key, key, h.fds]

theorem tidy (h : SameHandles w w') (ht : w.Tidy) : w'.Tidy := by
  intro i hi
  rw [h.kind] at hi
  rw [h.pool]
  exact ht i hi

/-- `lo_bind` moves no handle. -/
theorem loBind (heap : Bool) (port : UInt16) (i : ℕ) (w : World S) :
    SameHandles w (loBind heap port i w).2 := by
  have hmod : SameHandles w (w.modFd i FdEntry.loBound) := modFd w i fun _ => rfl
  have hspec := loBind_spec heap port i w
  generalize EspSmoltcp.loBind heap port i w = r at hspec ⊢
  cases hspec with
  | refused => exact refl w
  | full hw => exact hw ▸ hmod
  | slot _ _ hw => exact (hw ▸ hmod).trans ⟨rfl, rfl⟩

/-- `lo_unbind` moves no handle. -/
theorem loUnbind (port : UInt16) (i : ℕ) (w : World S) : SameHandles w (loUnbind port i w) := by
  have hslots : ∀ slots, SameHandles w { w with loSlots := slots } := fun _ => ⟨rfl, rfl⟩
  rw [EspSmoltcp.loUnbind]
  exact (hslots _).trans (modFd _ i fun _ => rfl)

/-- `lo_deliver` moves no handle. -/
theorem loDeliver (heap : Bool) (dstPort : UInt16) (srcBe : UInt32) (srcPort : UInt16) (data : Bytes)
    (w : World S) : SameHandles w (loDeliver heap dstPort srcBe srcPort data w).2 := by
  have hrx : ∀ i rx, SameHandles w (w.modFd i fun e => { e with loRx := rx }) :=
    fun i _ => modFd w i fun _ => rfl
  rw [EspSmoltcp.loDeliver]
  split_ifs
  · exact refl w
  split
  · exact refl w
  split
  · exact refl w
  split_ifs
  · exact hrx ..
  · exact refl w

/-- A receive from a loopback queue moves no handle. -/
theorem loReceive (i : ℕ) (w : World S) : SameHandles w (loReceive i w).2 := by
  have hrx : ∀ rx, SameHandles w (w.modFd i fun e => { e with loRx := rx }) :=
    fun _ => modFd w i fun _ => rfl
  rw [EspSmoltcp.loReceive]
  split
  · exact hrx _
  · exact refl w

end SameHandles

namespace SameShim

theorem closeOwned (kind : FdKind) (s : NetSock) (w : World S) : SameShim w (closeOwned kind s w) := by
  rw [EspSmoltcp.closeOwned]
  split_ifs
  · exact netUdpClose s w
  · exact netTcpClose s w
  · exact refl w

theorem closePool (pool : List NetSock) (w : World S) : SameShim w (closePool pool w) := by
  induction pool generalizing w with
  | nil => exact refl w
  | cons s pool ih =>
    rw [EspSmoltcp.closePool, List.foldl_cons]
    refine SameShim.trans ?_ (ih _)
    split_ifs
    · exact netTcpClose s w
    · exact refl w

end SameShim

/-! ## The ledger -/

/-- `l` records the registered sockets exactly, while ids fit a handle. -/
def Held (n : ℕ) (l : List (NetSock × SockKind)) : World S → Prop :=
  InIds n fun w => Ledger w.kindOf l

namespace Held

variable {n m : ℕ} {l l' : List (NetSock × SockKind)} {w w' : World S}

theorem wf (h : Held n l w) : w.Wf := InIds.wf h

theorem mono (h : Held n l w) (hnm : n ≤ m) : Held m l w := InIds.mono h hnm

theorem perm (h : Held n l w) (hp : l.Perm l') : Held n l' w := InIds.imp h fun _ hl => hl.perm hp

theorem calm (h : Held n l w) (hc : Calm w w') : Held n l w' :=
  InIds.step h hc.wf hc.counter fun hl => hc.kinds.symm ▸ hl

/-- The statics of the shim do not matter. -/
theorem of_ifaces (h : Held n l w) (he : w'.ifaces = w.ifaces) : Held n l w' :=
  InIds.step h (h.wf.of_ifaces he) (World.counter_of_ifaces he) fun hl =>
    World.kindOf_of_ifaces he ▸ hl

/-- **An open adds its handle.** -/
theorem opened (h : Held n l w) {P : Socket S → Prop} {k : SockKind} {i : IfaceId}
    {r : NetSock × World S} (hr : OpenSpec P i w r) (hP : ∀ x, P x → x.kind? = some k)
    (hn : n < 2 ^ 8) : Held (n + 1) (holding k r.1 ++ l) r.2 := by
  refine InIds.opened h hr (fun x hx => by rw [hP x hx]; rfl) hn ?_ fun hl ho => ?_
  · rintro hl rfl
    exact hl
  · obtain ⟨sh, x, hx, -, hent⟩ := ho.entry
    have hkinds : r.2.kindOf = Function.update w.kindOf r.1 (some k) := by
      funext t
      rw [World.kindOf, hent]
      by_cases ht : t = r.1
      · subst ht
        rw [Function.update_self, Function.update_self]
        exact hP x hx
      · rw [Function.update_of_ne ht, Function.update_of_ne ht]
        rfl
    rw [hkinds, holding_of_valid ho.valid]
    exact hl.cons (World.kindOf_of_none ho.fresh) k

/-- **A close takes its handle off.** -/
theorem closed {k : SockKind} {s : NetSock} (h : Held n ((s, k) :: l) w)
    (hs : CloseSpec k s w w') : Held n l w' := by
  refine InIds.step h hs.wf hs.counter fun hl => ?_
  have hk : w.kindOf s = some k := (hl.mem s k).mp List.mem_cons_self
  rw [hs.kindOf_eq, if_pos hk]
  exact hl.of_cons

theorem netTcpClose {s : NetSock} (h : Held n (holding .tcp s ++ l) w) (hv : s.valid = true) :
    Held n l (netTcpClose s w).2 := by
  rw [holding_of_valid hv] at h
  exact h.closed (h.wf.netTcpClose_spec s)

theorem netUdpClose {s : NetSock} (h : Held n (holding .udp s ++ l) w) (hv : s.valid = true) :
    Held n l (netUdpClose s w).2 := by
  rw [holding_of_valid hv] at h
  exact h.closed (h.wf.netUdpClose_spec s)

theorem netTcpOpen (h : Held n l w) (i : IfaceId) (hn : n < 2 ^ 8) :
    Held (n + 1) (holding .tcp (netTcpOpen i w).1 ++ l) (netTcpOpen i w).2 :=
  h.opened (netTcpOpen_spec i w) (by rintro x rfl; rfl) hn

theorem closeOwned {kind : FdKind} {s : NetSock} (h : Held n (holding kind.closesAs s ++ l) w) :
    Held n l (closeOwned kind s w) := by
  rw [EspSmoltcp.closeOwned]
  split_ifs with hv hk
  · subst hk
    exact h.netUdpClose hv
  · have hk' : kind.closesAs = .tcp := by
      rcases kind with _ | _ | _ | _
      · rfl
      · rfl
      · exact absurd rfl hk
      · rfl
    exact (hk' ▸ h).netTcpClose hv
  · rwa [holding_of_not_valid hv] at h

theorem closePool {pool : List NetSock} (h : Held n (poolHoldings pool ++ l) w) :
    Held n l (closePool pool w) := by
  induction pool generalizing w with
  | nil => exact h
  | cons s pool ih =>
    rw [poolHoldings, List.flatMap_cons, List.append_assoc] at h
    rw [EspSmoltcp.closePool, List.foldl_cons]
    split_ifs with hv
    · exact ih (h.netTcpClose hv)
    · rw [holding_of_not_valid hv] at h
      exact ih h

end Held

end EspSmoltcp
