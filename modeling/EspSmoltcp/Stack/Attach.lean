import EspSmoltcp.Smoltcp.Reference
import EspSmoltcp.Stack.Init

/-!
# Stack/Attach — `esp_smoltcp_attach_eth` and its calls that fail

`esp_smoltcp_attach_eth` enables the interface first, then makes three calls that can fail, and
publishes the Rust context last.  A call that fails returns with the interface enabled and no context,
and every later one is refused.

* `attachSound_iff` — an interface is enabled when it is attached, and can be attached when it is not,
  exactly when the first call that names a driver works.
-/

namespace EspSmoltcp

variable {S : Smoltcp}

/-! ## The call -/

/-- How the interface is configured at the end: `CONFIG_NETSTACK_DHCPV4_CLIENT`, or
`CONFIG_NETSTACK_STATIC_IP` and `CONFIG_NETSTACK_STATIC_GW`. -/
structure AttachConfig where
  dhcpv4Client : Bool
  staticIp : CStr
  staticGw : CStr

/-- What `esp_smoltcp_attach_eth` and the ETH event handler share. -/
structure EthState (S : Smoltcp) where
  /-- `s_ifaces[NET_IFACE_ETH]`, but for the fields below. -/
  iface : NetIface S := {}
  mac : Fin 6 → UInt8 := fun _ => 0
  /-- The `tx` pointer is `eth_tx`. -/
  tx : Bool := false
  linkUps : UInt32 := 0
  linkDowns : UInt32 := 0
  /-- `s_eth_handle`, by the number of the driver. -/
  ethHandle : Option ℕ := none
  /-- The driver hands its frames to `eth_input_cb`. -/
  inputPath : Bool := false
  /-- `eth_event` is registered. -/
  handler : Bool := false
  started : Bool := false
  /-- The notifications given to the poll task. -/
  notified : ℕ := 0

/-- One call: its argument, and what the driver and the event loop answer.  The start of the driver is not
looked at. -/
structure AttachCall where
  ethHandle : Option ℕ
  ioctl : EspErrT := espOk
  /-- What the ioctl leaves in `iface->mac`. -/
  mac : Fin 6 → UInt8 := fun _ => 0
  updateInputPath : EspErrT := espOk
  handlerRegister : EspErrT := espOk

/-- There is a driver, and nothing fails. -/
structure AttachCall.Works (c : AttachCall) : Prop where
  ethHandle : c.ethHandle.isSome = true
  ioctl : c.ioctl = espOk
  updateInputPath : c.updateInputPath = espOk
  handlerRegister : c.handlerRegister = espOk

/-- How a new context is configured. -/
def attachConfigure (cfg : AttachConfig) (ctx : IfaceCtx S) : IfaceCtx S :=
  if cfg.dhcpv4Client then smoltcpIfaceEnableDhcp ctx
  else
    let ipBe := (smoltcpParseIpv4 (some cfg.staticIp) (some 0)).2.getD 0
    let gwBe := (smoltcpParseIpv4 (some cfg.staticGw) (some 0)).2.getD 0
    smoltcpIfaceSetStatic ctx ipBe 24 gwBe

namespace EthState

/-- `s_eth_handle` is set and the interface enabled. -/
def enable (s : EthState S) (h : ℕ) : EthState S :=
  { s with ethHandle := some h, iface := { s.iface with enabled := true }, tx := true }

/-- `iface->smoltcp_handle = smoltcp_iface_new(…)`. -/
def publish (s : EthState S) : EthState S :=
  { s with iface := { s.iface with smoltcpHandle := some (.new IfaceId.eth.code.toNat s.mac) } }

/-- A call into the core under the lock; a null handle is left alone. -/
def core (s : EthState S) (f : IfaceCtx S → IfaceCtx S) : EthState S :=
  { s with iface := { s.iface with smoltcpHandle := s.iface.smoltcpHandle.map f } }

/-- `xTaskNotifyGive(s_task)`. -/
def notify (s : EthState S) : EthState S := { s with notified := s.notified + 1 }

end EthState

/-- `esp_smoltcp_attach_eth`. -/
def espSmoltcpAttachEth (cfg : AttachConfig) (c : AttachCall) (s : EthState S) : EspErrT × EthState S :=
  match c.ethHandle with
  | none => (espErrInvalidArg, s)
  | some h =>
    if s.iface.enabled then (espErrInvalidState, s)
    else
      let s := { s.enable h with mac := c.mac }
      if c.ioctl ≠ espOk then (c.ioctl, s)
      else if c.updateInputPath ≠ espOk then (c.updateInputPath, s)
      else
        let s := { s with inputPath := true }
        if c.handlerRegister ≠ espOk then (c.handlerRegister, s)
        else
          let s := ({ s with handler := true } : EthState S).publish
          let s := { s with started := true }
          (espOk, (s.core (attachConfigure cfg)).notify)

/-- The interface is attached. -/
def EthState.Published (s : EthState S) : Prop := s.iface.smoltcpHandle.isSome = true

/-- **What a call does**: it is refused, it fails with the interface enabled and nothing published, or it
attaches. -/
theorem espSmoltcpAttachEth_cases (cfg : AttachConfig) (c : AttachCall) (s : EthState S) :
    ((c.ethHandle = none ∨ s.iface.enabled = true) ∧ (espSmoltcpAttachEth cfg c s).1 ≠ espOk ∧
      (espSmoltcpAttachEth cfg c s).2 = s) ∨
    (c.ethHandle.isSome = true ∧ ¬ c.Works ∧ (espSmoltcpAttachEth cfg c s).2.iface.enabled = true ∧
      (espSmoltcpAttachEth cfg c s).2.iface.smoltcpHandle = s.iface.smoltcpHandle) ∨
    (c.Works ∧ (espSmoltcpAttachEth cfg c s).1 = espOk ∧
      (espSmoltcpAttachEth cfg c s).2.iface.enabled = true ∧ (espSmoltcpAttachEth cfg c s).2.Published) := by
  have hargs : espErrInvalidArg ≠ espOk ∧ espErrInvalidState ≠ espOk := by decide
  rcases hh : c.ethHandle with _ | h
  · refine .inl ⟨.inl rfl, ?_, ?_⟩
    · simp only [espSmoltcpAttachEth, hh]
      exact hargs.1
    · simp only [espSmoltcpAttachEth, hh]
  by_cases hen : s.iface.enabled = true
  · refine .inl ⟨.inr hen, ?_, ?_⟩
    · simp only [espSmoltcpAttachEth, hh, if_pos hen]
      exact hargs.2
    · simp only [espSmoltcpAttachEth, hh, if_pos hen]
  simp only [espSmoltcpAttachEth, hh, if_neg hen]
  split_ifs with hioctl hinput hregister
  · exact .inr (.inl ⟨rfl, fun hw => hioctl hw.ioctl, rfl, rfl⟩)
  · exact .inr (.inl ⟨rfl, fun hw => hinput hw.updateInputPath, rfl, rfl⟩)
  · exact .inr (.inl ⟨rfl, fun hw => hregister hw.handlerRegister, rfl, rfl⟩)
  · have hworks : c.Works :=
      ⟨hh ▸ rfl, not_not.mp hioctl, not_not.mp hinput, not_not.mp hregister⟩
    exact .inr (.inr ⟨hworks, rfl, rfl, rfl⟩)

/-! ## Calls that fail -/

/-- The states between the calls of a run. -/
def attachRun (cfg : AttachConfig) : List AttachCall → EthState S → List (EthState S)
  | [], s => [s]
  | c :: cs, s => s :: attachRun cfg cs (espSmoltcpAttachEth cfg c s).2

/-- The contract of `esp_smoltcp_attach_eth` in a state between two calls: the interface is enabled when it
is attached, and while it is not, a call with a working driver attaches it. -/
structure AttachSound (cfg : AttachConfig) (s : EthState S) : Prop where
  enabled_iff : s.iface.enabled = true ↔ s.Published
  attaches : ¬ s.Published → ∀ c : AttachCall, c.Works → (espSmoltcpAttachEth cfg c s).1 = espOk

/-- The interface is as it was before the first call. -/
def EthState.Unattached (s : EthState S) : Prop :=
  s.iface.enabled = false ∧ s.iface.smoltcpHandle = none

/-- The interface is enabled and has a context. -/
def EthState.Attached (s : EthState S) : Prop := s.iface.enabled = true ∧ s.Published

theorem EthState.Unattached.attachSound {s : EthState S} (h : s.Unattached) (cfg : AttachConfig) :
    AttachSound cfg s where
  enabled_iff := by simp [Published, h.1, h.2]
  attaches _ c hc := by
    obtain ⟨href, -, -⟩ | ⟨-, hnot, -⟩ | ⟨-, hok, -⟩ := espSmoltcpAttachEth_cases cfg c s
    · obtain hnone | hen := href
      · exact absurd hc.ethHandle (by rw [hnone]; exact Bool.false_ne_true)
      · exact absurd hen (by rw [h.1]; exact Bool.false_ne_true)
    · exact absurd hc hnot
    · exact hok

theorem EthState.Attached.attachSound {s : EthState S} (h : s.Attached) (cfg : AttachConfig) :
    AttachSound cfg s :=
  ⟨iff_of_true h.1 h.2, fun hnot => absurd h.2 hnot⟩

/-- An attached interface stays as it is. -/
theorem EthState.Attached.run {s s' : EthState S} {cfg : AttachConfig} (h : s.Attached)
    {cs : List AttachCall} (hs : s' ∈ attachRun cfg cs s) : s' = s := by
  induction cs with
  | nil => exact List.mem_singleton.mp hs
  | cons c cs ih =>
    have hkeep : (espSmoltcpAttachEth cfg c s).2 = s := by
      rcases hh : c.ethHandle with _ | n
      · simp only [espSmoltcpAttachEth, hh]
      · simp only [espSmoltcpAttachEth, hh, if_pos h.1]
    rw [attachRun, hkeep] at hs
    obtain rfl | hs := List.mem_cons.mp hs
    · rfl
    · exact ih hs

/-- The first call of a run that names a driver. -/
def firstDriven (cs : List AttachCall) : Option AttachCall := cs.find? fun c => c.ethHandle.isSome

/-- **The contract holds throughout a run exactly when the first call that names a driver works.** -/
theorem attachSound_iff (cfg : AttachConfig) (cs : List AttachCall) {s : EthState S}
    (h : s.Unattached) :
    (∀ s' ∈ attachRun cfg cs s, AttachSound cfg s') ↔ ∀ c ∈ firstDriven cs, c.Works := by
  induction cs with
  | nil =>
    refine iff_of_true (fun s' hs' => ?_) fun c hc => nomatch hc
    obtain rfl := List.mem_singleton.mp hs'
    exact h.attachSound cfg
  | cons c cs ih =>
    have hhead : AttachSound cfg s := h.attachSound cfg
    rcases hh : c.ethHandle with _ | n
    · -- A null handle is refused before anything is written.
      have hkeep : (espSmoltcpAttachEth cfg c s).2 = s := by simp only [espSmoltcpAttachEth, hh]
      have hfirst : firstDriven (c :: cs) = firstDriven cs := by simp [firstDriven, hh]
      rw [attachRun, hkeep, hfirst, ← ih]
      simp only [List.forall_mem_cons, hhead, true_and]
    · have hfirst : firstDriven (c :: cs) = some c := by simp [firstDriven, hh]
      rw [attachRun, hfirst]
      simp only [List.forall_mem_cons, hhead, true_and, Option.mem_def, Option.some.injEq, forall_eq']
      obtain ⟨href, -, -⟩ | ⟨-, hnot, hen, hnone⟩ | ⟨hw, -, hatt⟩ := espSmoltcpAttachEth_cases cfg c s
      · obtain hnone | hen := href
        · rw [hh] at hnone
          cases hnone
        · rw [h.1] at hen
          cases hen
      · refine iff_of_false (fun hall => ?_) hnot
        have hmem : (espSmoltcpAttachEth cfg c s).2 ∈ attachRun cfg cs (espSmoltcpAttachEth cfg c s).2 := by
          cases cs
          · exact List.mem_singleton.mpr rfl
          · exact List.mem_cons_self
        have hpub := (hall _ hmem).enabled_iff.mp hen
        rw [EthState.Published, hnone, h.2] at hpub
        exact Bool.false_ne_true hpub
      · refine iff_of_true (fun s' hs' => ?_) hw
        rw [EthState.Attached.run hatt hs']
        exact EthState.Attached.attachSound hatt cfg

/-- A driver that answers, and a configuration that asks for a lease. -/
def workingCall : AttachCall := { ethHandle := some 1 }

def dhcpConfig : AttachConfig := ⟨true, .ofText [], .ofText []⟩

/-- On good hardware the contract holds. -/
theorem attachSound_working : ({} : EthState .reference).Unattached ∧
    ∀ s ∈ attachRun dhcpConfig [workingCall] ({} : EthState .reference), AttachSound dhcpConfig s := by
  refine ⟨⟨rfl, rfl⟩, (attachSound_iff dhcpConfig [workingCall] ⟨rfl, rfl⟩).mpr fun c hc => ?_⟩
  obtain rfl : workingCall = c := Option.some.inj hc
  exact ⟨rfl, rfl, rfl, rfl⟩

/-- **After an ioctl that failed, an attach with a working driver is refused.** -/
theorem attach_refused_after_failure :
    ¬ ∀ s ∈ attachRun dhcpConfig [{ workingCall with ioctl := -1 }, workingCall]
      ({} : EthState .reference), AttachSound dhcpConfig s := by
  intro h
  have hhalf := h _ (List.mem_cons_of_mem _ List.mem_cons_self)
  exact Bool.false_ne_true (hhalf.enabled_iff.mp rfl)

end EspSmoltcp
