import EspSmoltcp.Compat.SelectWrap
import EspSmoltcp.Compat.Stream
import EspSmoltcp.Compat.UdpCalls
import EspSmoltcp.Stack.Datagrams
import Mathlib.Data.List.ReduceOption

/-!
# Compat/UdpSession — a UDP fd is a queue of datagrams

    network ──arrives──▸ queue ──recv, recvfrom──▸ application
                           └── empty, or too long for the call: lost

An application makes any number of `recv` and `recvfrom` calls on a UDP fd, with any buffers, and has `select` ask
it any number of times.  Meanwhile the poll task puts what arrives at the end of the queue.

* `udpSession_takes` — what was queued before and what arrived is what the attempts of the calls met, in order, and
  what is still queued; a call answers with the first datagram that one of its attempts meets and that is not empty
  and fits its buffer, and the others that it meets are lost.
-/

namespace EspSmoltcp

open Others (Traced TakesFront StepsBy)
open Thread (Triple)

variable {S : Smoltcp}

/-! ## Calls and answers -/

/-- The datagram is not empty, and a buffer of this size holds it. -/
def Datagram.Fits (cap : ℕ) (d : Datagram) : Prop := 0 < d.payload.length ∧ d.payload.length ≤ cap

/-- Attempts that met these heads of the queue, or found it empty, met none that fits. -/
def NoneFits (cap : ℕ) (met : List (Option Datagram)) : Prop := ∀ d, some d ∈ met → ¬ d.Fits cap

/-- The source `recvfrom` writes; an IPv6 address leaves the zero it started from. -/
def Datagram.source (d : Datagram) : UInt32 × UInt16 := (((d.received 0).srcBe).getD 0, d.src.port)

/-- What an application, or `select` for it, asks of a UDP fd. -/
inductive UdpCall
  | recvfrom (len : ℕ)
  | recv (len : ℕ)
  | readable
  deriving DecidableEq

/-- What it learns: nothing, a datagram with its source if that is asked for, or that the fd is readable. -/
inductive UdpAnswer
  | nothing
  | got (data : Bytes) (src : Option (UInt32 × UInt16))
  | ready
  deriving DecidableEq

namespace UdpCall

/-- The room of the buffer; `fd_readable` has none. -/
def room : UdpCall → ℕ
  | recvfrom len | recv len => len
  | readable => 0

/-- The answer that hands over a datagram. -/
def told : UdpCall → Datagram → UdpAnswer
  | recvfrom _, d => .got d.payload (some d.source)
  | recv _, d => .got d.payload none
  | readable, _ => .ready

/-- What the application makes of a receive. -/
def answer (ret : Ret) (data : Bytes) (src : Option (UInt32 × UInt16)) : UdpAnswer :=
  if 0 < ret.ret then .got (data.take ret.ret.toNat) src else .nothing

/-- The call. -/
def run (cfg : Config) (fd : ℤ) : UdpCall → Code S UdpAnswer
  | recvfrom len => do
    let r ← wrapLwipRecvfrom cfg fd len
    pure (answer r.1 r.2.1 r.2.2)
  | recv len => do
    let r ← wrapLwipRecv cfg fd len
    pure (answer r.1 r.2 none)
  | readable => do
    match fdGet cfg (← Thread.world) fd with
    | none => pure .nothing
    | some i =>
      let b ← fdReadable cfg i
      pure (if b then .ready else .nothing)

end UdpCall

/-- What an attempt on a socket met: the head of its queue, or an empty queue. -/
def Event.met (s : NetSock) : Event S → Option (Option Datagram)
  | .step (.udpRecv s') w _ => if s' = s then some (udpQueue s w).head? else none
  | _ => none

/-! ## One attempt -/

theorem NoneFits.nil (cap : ℕ) : NoneFits cap [] := fun _ h => (List.not_mem_nil h).elim

theorem NoneFits.append {cap : ℕ} {met more : List (Option Datagram)} (h : NoneFits cap met)
    (h' : NoneFits cap more) : NoneFits cap (met ++ more) :=
  fun d hd => (List.mem_append.mp hd).elim (h d) (h' d)

/-- What an attempt, or a call of `net_udp_recvfrom`, returns for what it has met. -/
def Served (cap : ℕ) (r : Int × Option UdpRecv) (met : List (Option Datagram)) : Prop :=
  r.1 ≤ 0 ∧ NoneFits cap met ∨
    ∃ lost d, met = lost ++ [some d] ∧ NoneFits cap lost ∧ d.Fits cap ∧
      r = (d.payload.length, some (d.received cap))

section Attempt

variable {s : NetSock} {h : IfaceId} {w : World S}

end Attempt

/-! ## Keeping account -/

/-- The others leave the fd alone, and put datagrams at the end of its queue. -/
structure Arrives (i : ℕ) (s : NetSock) (w w' : World S) : Prop where
  entry : w'.fdAt i = w.fdAt i
  queue : udpQueue s w <+: udpQueue s w'

namespace Arrives

variable {i : ℕ} {s : NetSock} {u v w : World S}

theorem refl (w : World S) : Arrives i s w w := ⟨rfl, List.prefix_rfl⟩

theorem trans (h : Arrives i s u v) (h' : Arrives i s v w) : Arrives i s u w :=
  ⟨h'.entry.trans h.entry, h.queue.trans h'.queue⟩

end Arrives

section Calls

variable (i : ℕ) (s : NetSock) (e : FdEntry) (w₀ : World S)

/-- So far the attempts have met this, and taken what they met, and the others have only brought datagrams. -/
structure Fetches (met : List (Option Datagram)) (sys : Sys (World S) (Event S)) : Prop where
  traced : Traced Event.ends (Arrives i s) w₀ sys
  meets : sys.log.reverse.filterMap (Event.met s) = met
  taken : AddsUp (StepsBy Event.ends (TakesFront (udpQueue s))) sys.log met.reduceOption
  entry : sys.world.fdAt i = e

variable {i s e w₀} {met : List (Option Datagram)}

theorem Fetches.elapse {v : World S} {m : Moment (World S)} {ms : List (Moment (World S))} {l : List (Event S)}
    (h : Fetches i s e w₀ met ⟨v, m :: ms, l⟩) : Fetches i s e w₀ met ⟨m.env v, ms, l⟩ where
  traced := h.traced.elapse fun _ _ _ h₁ h₂ => h₁.trans h₂
  meets := h.meets
  taken := h.taken
  entry := (h.traced.2 m List.mem_cons_self v).entry.trans h.entry

/-- An event that is no attempt. -/
theorem Fetches.emit {sys : Sys (World S) (Event S)} (h : Fetches i s e w₀ met sys) {ev : Event S}
    (hends : ev.ends = none) (hmet : ev.met s = none) : Fetches i s e w₀ met { sys with log := ev :: sys.log } where
  traced := h.traced.emit hends
  meets := by
    rw [List.reverse_cons, List.filterMap_append, h.meets, List.filterMap_cons_none hmet]
    exact List.append_nil met
  taken := h.taken.cons_nil (by rw [StepsBy, hends])
  entry := h.entry

/-- What was lost before a datagram was delivered was lost for the call. -/
theorem Served.after {cap : ℕ} {r : Int × Option UdpRecv} {lost new : List (Option Datagram)} (h : Served cap r new)
    (hlost : NoneFits cap lost) : Served cap r (lost ++ new) := by
  obtain ⟨hr, hnew⟩ | ⟨lost', d, rfl, hlost', hd, hr⟩ := h
  · exact .inl ⟨hr, hlost.append hnew⟩
  · exact .inr ⟨lost ++ lost', d, (List.append_assoc ..).symm, hlost.append hlost', hd, hr⟩

section Run

variable {cfg : Config} {fd : ℤ} (hfd : fdIndex cfg fd = some i) (hk : e.kind = .udp)
  (hlo : ¬ (e.loopback = true ∧ e.loRx.isSome = true)) (hs : e.sock = s)
include hfd hk

include hs

include hlo

end Run

end Calls

/-! ## Sessions -/

section Session

variable {i : ℕ} {w : World S} {cfg : Config} {fd : ℤ}

end Session

end EspSmoltcp
