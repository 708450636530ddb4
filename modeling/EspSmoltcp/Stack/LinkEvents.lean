import EspSmoltcp.Stack.Attach
import Mathlib.Logic.Function.Iterate

/-!
# Stack/LinkEvents — the link events that meet an attach

Whether there is a link is kept twice: in `s_ifaces[NET_IFACE_ETH].link_up` and in the device of the Rust
context.  `net_stack_link_event` writes one after the other.  `esp_smoltcp_attach_eth` registers the event
handler before it publishes the context, so an event that falls between is kept on the C side only.

* `LinkSys.linkAgrees_iff` — once attached, with no event in hand, the two agree unless the last event was
  a link-up told before there was a context.
-/

namespace EspSmoltcp

variable {S : Smoltcp}

/-! ## Step by step -/

/-- Where a call of `esp_smoltcp_attach_eth` is. -/
inductive AttachPc
  | start
  | gettingMac
  | settingRxCb
  | registering
  | publishing
  | starting
  | configuring
  | notifying
  | returned (r : EspErrT)
  deriving DecidableEq

/-- One step of the call. -/
def AttachPc.step (cfg : AttachConfig) (c : AttachCall) : AttachPc → EthState S → AttachPc × EthState S
  | start, s =>
    match c.ethHandle with
    | none => (returned espErrInvalidArg, s)
    | some h => if s.iface.enabled then (returned espErrInvalidState, s) else (gettingMac, s.enable h)
  | gettingMac, s =>
    (if c.ioctl ≠ espOk then returned c.ioctl else settingRxCb, { s with mac := c.mac })
  | settingRxCb, s =>
    if c.updateInputPath ≠ espOk then (returned c.updateInputPath, s)
    else (registering, { s with inputPath := true })
  | registering, s =>
    if c.handlerRegister ≠ espOk then (returned c.handlerRegister, s)
    else (publishing, { s with handler := true })
  | publishing, s => (starting, s.publish)
  | starting, s => (configuring, { s with started := true })
  | configuring, s => (notifying, s.core (attachConfigure cfg))
  | notifying, s => (returned espOk, s.notify)
  | returned r, s => (returned r, s)

/-- **With nobody in between, the steps are the call.** -/
theorem AttachPc.iterate_step (cfg : AttachConfig) (c : AttachCall) (s : EthState S) :
    (fun p : AttachPc × EthState S => p.1.step cfg c p.2)^[8] (.start, s)
      = (.returned (espSmoltcpAttachEth cfg c s).1, (espSmoltcpAttachEth cfg c s).2) := by
  rcases hh : c.ethHandle with _ | h
  · simp [Function.iterate_succ_apply, step, espSmoltcpAttachEth, hh]
  by_cases hen : s.iface.enabled = true
  · simp [Function.iterate_succ_apply, step, espSmoltcpAttachEth, hh, hen]
  by_cases hioctl : c.ioctl = espOk
  · by_cases hinput : c.updateInputPath = espOk
    · by_cases hregister : c.handlerRegister = espOk
      · simp [Function.iterate_succ_apply, step, espSmoltcpAttachEth, hh, hen, hioctl, hinput, hregister]
      · simp [Function.iterate_succ_apply, step, espSmoltcpAttachEth, hh, hen, hioctl, hinput, hregister]
    · simp [Function.iterate_succ_apply, step, espSmoltcpAttachEth, hh, hen, hioctl, hinput]
  · simp [Function.iterate_succ_apply, step, espSmoltcpAttachEth, hh, hen, hioctl]

/-! ## Link events -/

/-- Where `net_stack_link_event` is.  The default event loop runs one handler at a time. -/
inductive LinkPc
  | idle
  /-- The C side knows; `g_smoltcp_lock` is still to be taken. -/
  | locking (up : Bool)
  /-- The core has been told. -/
  | emitting (up : Bool)
  deriving DecidableEq

/-- The last event the core was told of, and whether there was a context to tell. -/
structure Told where
  up : Bool
  published : Bool
  deriving DecidableEq

/-- The task that attaches, and the event loop beside it. -/
structure LinkSys (S : Smoltcp) where
  attach : AttachPc := .start
  event : LinkPc := .idle
  eth : EthState S := {}
  /-- History: nothing reads it. -/
  told : Option Told := none

/-- What others do to the context: only `smoltcp_iface_set_link_up` writes `link_up`. -/
structure OtherCall (S : Smoltcp) where
  run : IfaceCtx S → IfaceCtx S
  linkUp_run : ∀ ctx, (run ctx).dev.linkUp = ctx.dev.linkUp

/-- Who moves next. -/
inductive LinkAct (S : Smoltcp)
  | attach
  /-- The event loop turns to a link event, if it is idle and `eth_event` is registered. -/
  | event (up : Bool)
  /-- `net_stack_link_event` goes on. -/
  | handler
  | other (c : OtherCall S)

namespace LinkSys

/-- The first lines of `net_stack_link_event`: the C side's copy and its counter. -/
def setLinkUp (s : EthState S) (up : Bool) : EthState S :=
  { s with
    iface := { s.iface with linkUp := up }
    linkUps := if up then s.linkUps + 1 else s.linkUps
    linkDowns := if up then s.linkDowns else s.linkDowns + 1 }

/-- One step of one of them. -/
def step (cfg : AttachConfig) (c : AttachCall) (s : LinkSys S) : LinkAct S → LinkSys S
  | .attach =>
    let (pc, eth) := s.attach.step cfg c s.eth
    { s with attach := pc, eth := eth }
  | .event up =>
    if s.event = .idle ∧ s.eth.handler = true then
      { s with event := .locking up, eth := setLinkUp s.eth up }
    else s
  | .handler =>
    match s.event with
    | .idle => s
    | .locking up =>
      { s with
        event := .emitting up
        eth := s.eth.core (smoltcpIfaceSetLinkUp · up)
        told := some ⟨up, s.eth.iface.smoltcpHandle.isSome⟩ }
    | .emitting _ => { s with event := .idle, eth := s.eth.notify }
  | .other f => { s with eth := s.eth.core f.run }

/-- A run from the start. -/
def run (cfg : AttachConfig) (c : AttachCall) (acts : List (LinkAct S)) : LinkSys S :=
  acts.foldl (step cfg c) {}

/-- **Both copies of the link state are there and are the same.** -/
def Agrees (s : LinkSys S) : Prop :=
  ∃ ctx, s.eth.iface.smoltcpHandle = some ctx ∧ ctx.dev.linkUp = s.eth.iface.linkUp

end LinkSys

/-- There is a context once the call has got past its publication. -/
def AttachPc.HandleOk (handle : Option (IfaceCtx S)) : AttachPc → Prop
  | starting | configuring | notifying => handle.isSome = true
  | returned r => r = espOk → handle.isSome = true
  | start | gettingMac | settingRxCb | registering | publishing => handle = none

theorem AttachPc.HandleOk.map {handle : Option (IfaceCtx S)} {pc : AttachPc} (h : pc.HandleOk handle)
    (f : IfaceCtx S → IfaceCtx S) : pc.HandleOk (handle.map f) := by
  cases pc with
  | starting | configuring | notifying => exact Option.isSome_map.trans h
  | returned r => exact fun hr => Option.isSome_map.trans (h hr)
  | start | gettingMac | settingRxCb | registering | publishing => exact Option.map_eq_none_iff.mpr h

namespace LinkSys

/-- What every step keeps. -/
structure Inv (s : LinkSys S) : Prop where
  /-- The C side has the event in hand, or the last one told. -/
  host : match s.event with
    | .idle => s.eth.iface.linkUp = (s.told.map Told.up).getD false
    | .locking up => s.eth.iface.linkUp = up
    | .emitting up => s.eth.iface.linkUp = up ∧ s.told.map Told.up = some up
  /-- A context has the last event that found one. -/
  core : ∀ ctx, s.eth.iface.smoltcpHandle = some ctx →
    ctx.dev.linkUp = (s.told.map fun t => t.up && t.published).getD false
  /-- Without a context none was found. -/
  unpublished : s.eth.iface.smoltcpHandle = none → ∀ t ∈ s.told, t.published = false
  handle : s.attach.HandleOk s.eth.iface.smoltcpHandle

/-- Configuring an interface leaves the link alone. -/
theorem linkUp_attachConfigure (cfg : AttachConfig) (ctx : IfaceCtx S) :
    (attachConfigure cfg ctx).dev.linkUp = ctx.dev.linkUp := by
  rw [attachConfigure]
  split_ifs
  · rw [smoltcpIfaceEnableDhcp]
    rcases ctx.dhcp with _ | dh
    · rfl
    · rfl
  · rw [smoltcpIfaceSetStatic, if_neg (by decide)]
    dsimp only
    split_ifs
    · rfl
    · rfl

namespace Inv

variable {s : LinkSys S}

theorem init : Inv ({} : LinkSys S) where
  host := rfl
  core _ h := nomatch h
  unpublished _ _ h := nomatch h
  handle := rfl

/-- A step that calls the core with something that keeps the link, and does not touch the C side's
copy. -/
theorem keep (h : Inv s) {pc : AttachPc} {eth : EthState S} {f : IfaceCtx S → IfaceCtx S}
    (hf : ∀ ctx, (f ctx).dev.linkUp = ctx.dev.linkUp)
    (hhandle : eth.iface.smoltcpHandle = s.eth.iface.smoltcpHandle.map f)
    (hlink : eth.iface.linkUp = s.eth.iface.linkUp) (hpc : pc.HandleOk s.eth.iface.smoltcpHandle) :
    Inv { s with attach := pc, eth := eth } where
  host := by
    simp only [hlink]
    exact h.host
  core ctx hctx := by
    rw [hhandle] at hctx
    obtain ⟨ctx', hctx', rfl⟩ := Option.map_eq_some_iff.mp hctx
    rw [hf]
    exact h.core ctx' hctx'
  unpublished hnone := by
    rw [hhandle, Option.map_eq_none_iff] at hnone
    exact h.unpublished hnone
  handle := by
    rw [hhandle]
    exact hpc.map f

/-- …such as one that does not call it. -/
theorem pass (h : Inv s) {pc : AttachPc} {eth : EthState S}
    (hhandle : eth.iface.smoltcpHandle = s.eth.iface.smoltcpHandle)
    (hlink : eth.iface.linkUp = s.eth.iface.linkUp) (hpc : pc.HandleOk s.eth.iface.smoltcpHandle) :
    Inv { s with attach := pc, eth := eth } :=
  h.keep (f := id) (fun _ => rfl) (by rw [hhandle, Option.map_id, id]) hlink hpc

/-- The new context is told of nothing; whatever came before it is lost. -/
theorem publish (h : Inv s) (hnone : s.eth.iface.smoltcpHandle = none) :
    Inv { s with attach := .starting, eth := s.eth.publish } where
  host := h.host
  core ctx hctx := by
    obtain rfl := Option.some.inj hctx
    have hlost := h.unpublished hnone
    rcases ht : s.told with _ | t
    · rfl
    · simp [hlost t ht, IfaceCtx.new]
  unpublished hn := nomatch hn
  handle := rfl

theorem attach (h : Inv s) (cfg : AttachConfig) (c : AttachCall) : Inv (s.step cfg c .attach) := by
  have hhandle := h.handle
  rw [step]
  rcases hpc : s.attach with _ | _ | _ | _ | _ | _ | _ | _ | r
  all_goals
    rw [hpc] at hhandle
    dsimp only [AttachPc.step]
  · rcases c.ethHandle with _ | n
    · exact h.pass rfl rfl (fun hr => absurd hr (by decide))
    · dsimp only
      split_ifs
      · exact h.pass rfl rfl (fun hr => absurd hr (by decide))
      · exact h.pass rfl rfl hhandle
  · split_ifs with hok
    · exact h.pass rfl rfl (fun hr => absurd hr hok)
    · exact h.pass rfl rfl hhandle
  · split_ifs with hok
    · exact h.pass rfl rfl (fun hr => absurd hr hok)
    · exact h.pass rfl rfl hhandle
  · split_ifs with hok
    · exact h.pass rfl rfl (fun hr => absurd hr hok)
    · exact h.pass rfl rfl hhandle
  · exact h.publish hhandle
  · exact h.pass rfl rfl hhandle
  · exact h.keep (linkUp_attachConfigure cfg) rfl rfl hhandle
  · exact h.pass rfl rfl fun _ => hhandle
  · exact h.pass rfl rfl hhandle

theorem event (h : Inv s) (cfg : AttachConfig) (c : AttachCall) (up : Bool) :
    Inv (s.step cfg c (.event up)) := by
  rw [step]
  split_ifs
  · exact ⟨rfl, h.core, h.unpublished, h.handle⟩
  · exact h

/-- The core is told, if there is one to tell. -/
theorem tell (h : Inv s) {up : Bool} (hpc : s.event = .locking up) :
    Inv { s with
      event := .emitting up
      eth := s.eth.core (smoltcpIfaceSetLinkUp · up)
      told := some ⟨up, s.eth.iface.smoltcpHandle.isSome⟩ } where
  host := by
    have hhost := h.host
    rw [hpc] at hhost
    exact ⟨hhost, rfl⟩
  core ctx hctx := by
    obtain ⟨ctx', hctx', rfl⟩ := Option.map_eq_some_iff.mp hctx
    simp [hctx', smoltcpIfaceSetLinkUp]
  unpublished hnone t ht := by
    obtain rfl := Option.some.inj ht
    rw [Option.map_eq_none_iff.mp hnone]
    rfl
  handle := h.handle.map _

theorem handler (h : Inv s) (cfg : AttachConfig) (c : AttachCall) : Inv (s.step cfg c .handler) := by
  rw [step]
  rcases hpc : s.event with _ | up | up
  · exact h
  · exact h.tell hpc
  · have hhost := h.host
    rw [hpc] at hhost
    refine ⟨?_, h.core, h.unpublished, h.handle⟩
    change s.eth.iface.linkUp = _
    rw [hhost.1, hhost.2]
    rfl

/-- **Every step keeps the invariant.** -/
theorem step (h : Inv s) (cfg : AttachConfig) (c : AttachCall) (act : LinkAct S) :
    Inv (s.step cfg c act) := by
  cases act with
  | attach => exact h.attach cfg c
  | event up => exact h.event cfg c up
  | handler => exact h.handler cfg c
  | other f => exact h.keep f.linkUp_run rfl rfl h.handle

theorem foldl (h : Inv s) (cfg : AttachConfig) (c : AttachCall) (acts : List (LinkAct S)) :
    Inv (acts.foldl (LinkSys.step cfg c) s) := by
  induction acts generalizing s with
  | nil => exact h
  | cons act acts ih => exact ih (h.step cfg c act)

end Inv

/-- **Attached and with no event in hand, the copies agree unless the last event was a link-up told before
there was a context.** -/
theorem linkAgrees_iff (cfg : AttachConfig) (c : AttachCall) (acts : List (LinkAct S))
    (hok : (run cfg c acts).attach = .returned espOk) (hidle : (run cfg c acts).event = .idle) :
    (run cfg c acts).Agrees ↔ (run cfg c acts).told ≠ some ⟨true, false⟩ := by
  have h : Inv (run cfg c acts) := Inv.init.foldl cfg c acts
  have hhost := h.host
  have hhandle := h.handle
  rw [hidle] at hhost
  rw [hok] at hhandle
  obtain ⟨ctx, hctx⟩ := Option.isSome_iff_exists.mp (hhandle rfl)
  have hcopies : (run cfg c acts).Agrees ↔ ctx.dev.linkUp = (run cfg c acts).eth.iface.linkUp := by
    constructor
    · rintro ⟨ctx', hctx', heq⟩
      obtain rfl := Option.some.inj (hctx.symm.trans hctx')
      exact heq
    · exact fun heq => ⟨ctx, hctx, heq⟩
  rw [hcopies, h.core ctx hctx, hhost]
  rcases (run cfg c acts).told with _ | ⟨up, published⟩
  · simp
  · cases up
    · simp
    · cases published
      · simp
      · simp

/-- An attach on good hardware, with a link-up event at the given place. -/
def plugged (before after : ℕ) : LinkSys .reference :=
  run dhcpConfig workingCall (.replicate before .attach ++ [.event true, .handler, .handler] ++
    .replicate after .attach)

/-- An event after the publication reaches both copies. -/
theorem linkAgrees_plugged_late : (plugged 5 3).Agrees :=
  (linkAgrees_iff dhcpConfig workingCall _ rfl rfl).mpr fun h =>
    absurd (congrArg Told.published (Option.some.inj h)) (by decide)

/-- **An event between the registration and the publication reaches the C side only.** -/
theorem linkUp_lost_while_attaching : (plugged 4 4).attach = .returned espOk ∧
    (plugged 4 4).event = .idle ∧ ¬ (plugged 4 4).Agrees := by
  refine ⟨rfl, rfl, ?_⟩
  rintro ⟨ctx, hctx, heq⟩
  obtain rfl := Option.some.inj hctx
  exact absurd heq (by decide)

end LinkSys

end EspSmoltcp
