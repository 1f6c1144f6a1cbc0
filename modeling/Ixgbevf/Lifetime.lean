import Ixgbevf.Lib.Ledger
import Ixgbevf.Lib.Run
import Ixgbevf.Types

/-!
# What the driver takes for a device

`ixgbevf_probe` takes what it needs one after the other, and where something is refused it gives
back what it has at one of its labels.  `ixgbevf_suspend`, `ixgbevf_resume` and the error
handlers give back and take the device and its interrupts, and `ixgbevf_remove` gives back what
is left.  `__IXGBEVF_DISABLED` says whether the device has been given back already.
-/

namespace Ixgbevf.Lifetime

open Use

/-- What is taken for a device. -/
inductive Resource where
  /-- The device, by `pci_enable_device`. -/
  | device
  /-- The regions of the device. -/
  | regions
  /-- The reports of PCIe errors. -/
  | reporting
  /-- The `struct net_device`. -/
  | netdev
  /-- The mapping of the registers. -/
  | mapping
  /-- The memory of the RSS key. -/
  | rssKey
  /-- The table of the interrupts. -/
  | msixEntries
  /-- The interrupts of the device. -/
  | msix
  /-- The registration of the interface. -/
  | registration
deriving DecidableEq, Repr

/-- The part of `struct ixgbevf_adapter` that says what has been taken. -/
structure Adapter where
  /-- `hw.mac.type`. -/
  macType : MacType
  /-- `__IXGBEVF_DISABLED`. -/
  disabled : Bool
  /-- `rss_key` points to a key. -/
  rssKey : Bool
  /-- `msix_entries` points to a table. -/
  msixEntries : Bool
deriving DecidableEq, Repr

/-- The adapter, and what has been taken and given back so far, in order. -/
structure Held where
  /-- The adapter. -/
  adapter : Adapter
  /-- What has been taken and given back. -/
  uses : List (Use Resource)

/-- What is answered while the interrupts are set up. -/
structure SchemeEnv where
  /-- There is memory for the table. -/
  entries : Bool
  /-- `pci_enable_msix_range` succeeds. -/
  msix : Bool
  /-- `ixgbevf_alloc_q_vectors` succeeds. -/
  qVectors : Bool

/-- What is answered while a device is probed. -/
structure ProbeEnv where
  /-- `ei->mac`. -/
  macType : MacType
  /-- `pci_enable_device` succeeds. -/
  enables : Bool
  /-- `dma_set_mask_and_coherent` succeeds for 64 bits. -/
  dma64 : Bool
  /-- `dma_set_mask_and_coherent` succeeds for 32 bits. -/
  dma32 : Bool
  /-- `pci_request_regions` succeeds. -/
  regions : Bool
  /-- There is memory for the `struct net_device`. -/
  netdev : Bool
  /-- `ioremap` succeeds. -/
  maps : Bool
  /-- There is memory for the RSS key. -/
  rssKey : Bool
  /-- `init_hw` succeeds, or `reset_hw` has failed before. -/
  inits : Bool
  /-- `is_valid_ether_addr` of the address of the interface. -/
  validAddr : Bool
  /-- Not `IXGBE_REMOVED`. -/
  present : Bool
  /-- The interrupts. -/
  scheme : SchemeEnv
  /-- `register_netdev` succeeds. -/
  registers : Bool

namespace Held

/-- Take or give back. -/
def record (h : Held) (us : List (Use Resource)) : Held := { h with uses := h.uses ++ us }

/-- `ixgbevf_reset_interrupt_capability`. -/
def resetInterruptCapability (h : Held) : Held :=
  if h.adapter.msixEntries then
    { adapter := { h.adapter with msixEntries := false }
      uses := h.uses ++ [.give .msix, .give .msixEntries] }
  else
    h

/-- `ixgbevf_set_interrupt_capability` with `ixgbevf_acquire_msix_vectors`; the result says whether
it succeeded. -/
def setInterruptCapability (env : SchemeEnv) (h : Held) : Held × Bool :=
  if ¬ env.entries then
    ({ h with adapter := { h.adapter with msixEntries := false } }, false)
  else if ¬ env.msix then
    ({ adapter := { h.adapter with msixEntries := false }
       uses := h.uses ++ [.take .msixEntries, .give .msixEntries] }, false)
  else
    ({ adapter := { h.adapter with msixEntries := true }
       uses := h.uses ++ [.take .msixEntries, .take .msix] }, true)

/-- `ixgbevf_init_interrupt_scheme`; the result says whether it succeeded. -/
def initInterruptScheme (env : SchemeEnv) (h : Held) : Held × Bool :=
  match h.setInterruptCapability env with
  | (h, false) => (h, false)
  | (h, true) => if env.qVectors then (h, true) else (h.resetInterruptCapability, false)

/-- `ixgbevf_clear_interrupt_scheme`. -/
def clearInterruptScheme (h : Held) : Held := h.resetInterruptCapability

/-- `ixgbevf_init_rss_key`; the result says whether it succeeded. -/
def initRssKey (allocated : Bool) (h : Held) : Held × Bool :=
  if h.adapter.rssKey then
    (h, true)
  else if allocated then
    ({ adapter := { h.adapter with rssKey := true }, uses := h.uses ++ [.take .rssKey] }, true)
  else
    (h, false)

/-- `ixgbevf_sw_init`; the result says whether it succeeded. -/
def swInit (env : ProbeEnv) (h : Held) : Held × Bool :=
  if MacType.macX550Vf.value ≤ h.adapter.macType.value then
    match h.initRssKey env.rssKey with
    | (h, false) => (h, false)
    | (h, true) => (h, env.inits)
  else
    (h, env.inits)

/-- `kfree` of the RSS key. -/
def freeRssKey (h : Held) : Held :=
  if h.adapter.rssKey then h.record [.give .rssKey] else h

end Held

/-! ### The probe -/

/-- `ixgbevf_probe` from `err_dma` on, where `adapter` says whether there is an adapter. -/
def errDma (adapter disableDev : Bool) (us : List (Use Resource)) : List (Use Resource) :=
  if ¬ adapter ∨ disableDev then us ++ [.give .device] else us

/-- `ixgbevf_probe` from `err_alloc_etherdev` on. -/
def errAllocEtherdev (adapter disableDev : Bool) (us : List (Use Resource)) :
    List (Use Resource) :=
  errDma adapter disableDev (us ++ [.give .regions])

/-- `ixgbevf_probe` from `err_ioremap` on. -/
def errIoremap (h : Held) : List (Use Resource) :=
  errAllocEtherdev true (!h.adapter.disabled) (h.uses ++ [.give .netdev])

/-- `ixgbevf_probe` from `err_sw_init` on. -/
def errSwInit (h : Held) : List (Use Resource) :=
  errIoremap (h.resetInterruptCapability.record [.give .mapping]).freeRssKey

/-- `ixgbevf_probe` from `err_register` on. -/
def errRegister (h : Held) : List (Use Resource) := errSwInit h.clearInterruptScheme

/-- `ixgbevf_probe` from the call of `ixgbevf_sw_init` on. -/
def probeAdapter (env : ProbeEnv) (h : Held) : Except (List (Use Resource)) Held :=
  match h.swInit env with
  | (h, false) => .error (errSwInit h)
  | (h, true) =>
    if ¬ env.validAddr then
      .error (errSwInit h)
    else if ¬ env.present then
      .error (errSwInit h)
    else
      match h.initInterruptScheme env.scheme with
      | (h, false) => .error (errSwInit h)
      | (h, true) =>
        if env.registers then .ok (h.record [.take .registration]) else .error (errRegister h)

/-- The adapter in zeroed memory. -/
def blank (macType : MacType) : Adapter where
  macType := macType
  disabled := false
  rssKey := false
  msixEntries := false

/-- `ixgbevf_probe`, which leaves an adapter or, where it fails, only its trace. -/
def probe (env : ProbeEnv) (us : List (Use Resource)) : Except (List (Use Resource)) Held :=
  if ¬ env.enables then
    .error us
  else
    let us := us ++ [.take .device]
    if ¬ env.dma64 ∧ ¬ env.dma32 then
      .error (errDma false false us)
    else if ¬ env.regions then
      .error (errDma false false us)
    else
      let us := us ++ [.take .regions, .take .reporting]
      if ¬ env.netdev then
        .error (errAllocEtherdev false false us)
      else
        let h : Held := { adapter := blank env.macType, uses := us ++ [.take .netdev] }
        if ¬ env.maps then
          .error (errIoremap h)
        else
          probeAdapter env (h.record [.take .mapping])

/-! ### The life of a device -/

/-- A device, and what the driver has taken for it. -/
structure Device where
  /-- The adapter, while the driver is bound to the device. -/
  adapter : Option Adapter
  /-- The device has been suspended and not resumed. -/
  asleep : Bool
  /-- The slot of the device is to be reset after an error. -/
  recovering : Bool
  /-- What has been taken and given back. -/
  uses : List (Use Resource)

/-- What happens to a device. -/
inductive Event where
  /-- `ixgbevf_probe`. -/
  | probe (env : ProbeEnv)
  /-- `ixgbevf_suspend`, where `pci_save_state` succeeds or not. -/
  | suspend (saves : Bool)
  /-- `ixgbevf_resume`, where `pci_enable_device_mem` succeeds or not. -/
  | resume (enables : Bool) (scheme : SchemeEnv)
  /-- `ixgbevf_io_error_detected`, with `pci_channel_io_perm_failure` or not. -/
  | errorDetected (permanent : Bool)
  /-- `ixgbevf_io_slot_reset`, where `pci_enable_device_mem` succeeds or not. -/
  | slotReset (enables : Bool)
  /-- The interrupts are set up again by `ixgbevf_xdp_setup` or `ixgbevf_queue_reset_subtask`. -/
  | rebuild (scheme : SchemeEnv)
  /-- `ixgbevf_remove`. -/
  | remove

namespace Held

/-- `if (!test_and_set_bit(__IXGBEVF_DISABLED, &adapter->state)) pci_disable_device(pdev)`. -/
def disableDevice (h : Held) : Held :=
  if h.adapter.disabled then
    h
  else
    { adapter := { h.adapter with disabled := true }, uses := h.uses ++ [.give .device] }

/-- `pci_enable_device_mem` has succeeded, and `__IXGBEVF_DISABLED` is cleared. -/
def enableDevice (h : Held) : Held where
  adapter := { h.adapter with disabled := false }
  uses := h.uses ++ [.take .device]

/-- `ixgbevf_suspend`. -/
def suspend (saves : Bool) (h : Held) : Held :=
  let h := h.clearInterruptScheme
  if ¬ saves then h else h.disableDevice

/-- `ixgbevf_resume`. -/
def resume (enables : Bool) (scheme : SchemeEnv) (h : Held) : Held :=
  if ¬ enables then h else (h.enableDevice.initInterruptScheme scheme).1

/-- `ixgbevf_io_error_detected`. -/
def errorDetected (permanent : Bool) (h : Held) : Held :=
  if permanent then h else h.disableDevice

/-- `ixgbevf_io_slot_reset`. -/
def slotReset (enables : Bool) (h : Held) : Held :=
  if ¬ enables then h else h.enableDevice

/-- The interrupts are given back and set up again. -/
def rebuild (scheme : SchemeEnv) (h : Held) : Held :=
  (h.clearInterruptScheme.initInterruptScheme scheme).1

/-- `ixgbevf_remove`. -/
def remove (h : Held) : List (Use Resource) :=
  let h := (h.record [.give .registration]).clearInterruptScheme
  let h := (h.record [.give .mapping, .give .regions]).freeRssKey
  let us := h.uses ++ [.give .netdev, .give .reporting]
  if h.adapter.disabled then us else us ++ [.give .device]

end Held

namespace Device

/-- What an operation of the driver does to a device that it is bound to. -/
def act (d : Device) (f : Held → Held) : Device :=
  match d.adapter with
  | none => d
  | some A => { d with adapter := some (f ⟨A, d.uses⟩).adapter, uses := (f ⟨A, d.uses⟩).uses }

/-- What an event does.  Nothing may be held where the driver lets go of the device. -/
def next (d : Device) : Event → Device
  | .probe env =>
    match Lifetime.probe env d.uses with
    | .error us => { d with uses := us ++ [.settle] }
    | .ok h => ⟨some h.adapter, false, false, h.uses⟩
  | .suspend saves => { d.act (·.suspend saves) with asleep := true }
  | .resume enables scheme => { d.act (·.resume enables scheme) with asleep := false }
  | .errorDetected permanent =>
    { d.act (·.errorDetected permanent) with recovering := d.recovering || !permanent }
  | .slotReset enables => { d.act (·.slotReset enables) with recovering := false }
  | .rebuild scheme => d.act (·.rebuild scheme)
  | .remove =>
    match d.adapter with
    | none => d
    | some A => ⟨none, false, false, Held.remove ⟨A, d.uses⟩ ++ [.settle]⟩

/-- When an event can happen: the driver is bound to a device once, a device is resumed from
sleep and its slot is reset after an error, and its interrupts are set up again while it is
awake. -/
def Enabled (d : Device) : Event → Prop
  | .probe _ => d.adapter = none
  | .suspend _ => d.adapter.isSome ∧ d.asleep = false
  | .resume _ _ => d.adapter.isSome ∧ d.asleep = true
  | .errorDetected _ => d.adapter.isSome
  | .slotReset _ => d.adapter.isSome ∧ d.recovering = true
  | .rebuild _ => d.adapter.isSome ∧ d.asleep = false
  | .remove => d.adapter.isSome

/-- A device that the driver has not been bound to before. -/
def fresh : Device := ⟨none, false, false, []⟩

/-- What happens to a device. -/
def system : TransSystem Device Event where
  init d := d = fresh
  step d e d' := Enabled d e ∧ d' = d.next e

end Device

/-- The answers up to the request for the regions are positive. -/
structure ProbeEnv.GrantsRegions (env : ProbeEnv) : Prop where
  enables : env.enables
  dma : env.dma64 ∨ env.dma32
  regions : env.regions

/-- The interrupts can be set up. -/
structure SchemeEnv.Grants (env : SchemeEnv) : Prop where
  entries : env.entries
  msix : env.msix
  qVectors : env.qVectors

/-- The answers after the request for the regions are positive. -/
structure ProbeEnv.GrantsRest (env : ProbeEnv) : Prop where
  netdev : env.netdev
  maps : env.maps
  rssKey : MacType.macX550Vf.value ≤ env.macType.value → env.rssKey
  inits : env.inits
  validAddr : env.validAddr
  present : env.present
  scheme : env.scheme.Grants
  registers : env.registers

/-- A device is enabled only if it has been disabled, and a probe that is granted the regions is
granted all the rest. -/
def Balanced (d : Device) : Event → Prop
  | .probe env => env.GrantsRegions → env.GrantsRest
  | .resume enables _ | .slotReset enables => enables → ∀ A ∈ d.adapter, A.disabled
  | _ => True

/-! ### What is held -/

/-- What is held, by whether the interface has been registered and by what the adapter says. -/
def heldOf (registered disabled rssKey msixEntries : Bool) : Finset Resource :=
  {.regions, .reporting, .netdev, .mapping} ∪ (if registered then {.registration} else ∅)
    ∪ (if disabled then ∅ else {.device}) ∪ (if rssKey then {.rssKey} else ∅)
    ∪ (if msixEntries then {.msixEntries, .msix} else ∅)

namespace Held

/-- Everything has been taken and given back in order, and the adapter knows what is left. -/
def Sound (registered : Bool) (h : Held) : Prop :=
  Owns h.uses
    (· ∈ heldOf registered h.adapter.disabled h.adapter.rssKey h.adapter.msixEntries)

variable {registered : Bool} {h : Held}

/-- The table of the interrupts is given back where there is one. -/
theorem Sound.resetInterruptCapability (hs : h.Sound registered) :
  h.resetInterruptCapability.Sound registered
    ∧ h.resetInterruptCapability.adapter = { h.adapter with msixEntries := false }
  := by
  obtain ⟨⟨mac, disabled, rssKey, msixEntries⟩, us⟩ := h
  cases msixEntries with
  | false => exact ⟨hs, rfl⟩
  | true =>
    refine ⟨?_, rfl⟩
    have hgive : ∀ registered disabled rssKey, Lawful (heldOf registered disabled rssKey true)
          [.give .msix, .give .msixEntries]
        ∧ heldAfter (heldOf registered disabled rssKey true) [.give .msix, .give .msixEntries]
          = heldOf registered disabled rssKey false := by
      decide
    exact hs.moves (hgive registered disabled rssKey).1 (hgive registered disabled rssKey).2

/-- The table of the interrupts is taken where there is none. -/
theorem Sound.setInterruptCapability (env : SchemeEnv) (hs : h.Sound registered)
    (hno : h.adapter.msixEntries = false) :
  (h.setInterruptCapability env).1.Sound registered
    ∧ (h.setInterruptCapability env).1.adapter
      = { h.adapter with msixEntries := (h.setInterruptCapability env).2 }
    ∧ ((h.setInterruptCapability env).2 = true ↔ env.entries ∧ env.msix)
  := by
  obtain ⟨⟨mac, disabled, rssKey, msixEntries⟩, us⟩ := h
  obtain rfl : msixEntries = false := hno
  obtain ⟨entries, msix, qVectors⟩ := env
  cases entries with
  | false => exact ⟨hs, rfl, by simp [Held.setInterruptCapability]⟩
  | true =>
    cases msix with
    | false =>
      refine ⟨?_, rfl, by simp [Held.setInterruptCapability]⟩
      have hback : ∀ registered disabled rssKey, Lawful (heldOf registered disabled rssKey false)
            [.take .msixEntries, .give .msixEntries]
          ∧ heldAfter (heldOf registered disabled rssKey false)
              [.take .msixEntries, .give .msixEntries]
            = heldOf registered disabled rssKey false := by
        decide
      exact hs.moves (hback registered disabled rssKey).1 (hback registered disabled rssKey).2
    | true =>
      refine ⟨?_, rfl, by simp [Held.setInterruptCapability]⟩
      have htake : ∀ registered disabled rssKey, Lawful (heldOf registered disabled rssKey false)
            [.take .msixEntries, .take .msix]
          ∧ heldAfter (heldOf registered disabled rssKey false)
              [.take .msixEntries, .take .msix]
            = heldOf registered disabled rssKey true := by
        decide
      exact hs.moves (htake registered disabled rssKey).1 (htake registered disabled rssKey).2

/-- The interrupts are set up where there are none. -/
theorem Sound.initInterruptScheme (env : SchemeEnv) (hs : h.Sound registered)
    (hno : h.adapter.msixEntries = false) :
  (h.initInterruptScheme env).1.Sound registered
    ∧ (h.initInterruptScheme env).1.adapter
      = { h.adapter with msixEntries := (h.initInterruptScheme env).2 }
    ∧ ((h.initInterruptScheme env).2 = true ↔ env.Grants)
  := by
  have hcapability := hs.setInterruptCapability env hno
  unfold Held.initInterruptScheme
  rcases heq : h.setInterruptCapability env with ⟨h₁, ok⟩
  rw [heq] at hcapability
  obtain ⟨hs₁, hadapter, hok⟩ := hcapability
  cases ok with
  | false =>
    refine ⟨hs₁, hadapter, fun hno => absurd hno Bool.false_ne_true, ?_⟩
    exact fun hgrants => hok.mpr ⟨hgrants.entries, hgrants.msix⟩
  | true =>
    obtain ⟨hentries, hmsix⟩ := hok.mp rfl
    cases hvectors : env.qVectors with
    | false =>
      obtain ⟨hs₂, hadapter₂⟩ := hs₁.resetInterruptCapability
      refine ⟨hs₂, ?_, fun hno => absurd hno Bool.false_ne_true, ?_⟩
      · simp only [Bool.false_eq_true, if_false]
        rw [hadapter₂, hadapter]
      · exact fun hgrants => absurd (hvectors.symm.trans hgrants.qVectors) Bool.false_ne_true
    | true => exact ⟨hs₁, hadapter, fun _ => ⟨hentries, hmsix, hvectors⟩, fun _ => rfl⟩

/-- The RSS key is taken where the device has a use for it. -/
theorem Sound.swInit (env : ProbeEnv) (hs : h.Sound registered) (hno : h.adapter.rssKey = false) :
  (h.swInit env).1.Sound registered
    ∧ (∃ rssKey, (h.swInit env).1.adapter = { h.adapter with rssKey := rssKey })
    ∧ ((h.swInit env).2 = true
      ↔ (MacType.macX550Vf.value ≤ h.adapter.macType.value → env.rssKey) ∧ env.inits)
  := by
  obtain ⟨⟨mac, disabled, rssKey, msixEntries⟩, us⟩ := h
  obtain rfl : rssKey = false := hno
  unfold Held.swInit
  by_cases hmac : MacType.macX550Vf.value ≤ mac.value
  · rw [if_pos hmac]
    cases hkey : env.rssKey with
    | false => exact ⟨hs, ⟨false, rfl⟩, by simp [Held.initRssKey, hmac]⟩
    | true =>
      refine ⟨?_, ⟨true, rfl⟩, by simp [Held.initRssKey]⟩
      have htake : ∀ registered disabled msixEntries,
          Lawful (heldOf registered disabled false msixEntries) [.take .rssKey]
          ∧ heldAfter (heldOf registered disabled false msixEntries) [.take .rssKey]
            = heldOf registered disabled true msixEntries := by
        decide
      exact hs.moves (htake registered disabled msixEntries).1
        (htake registered disabled msixEntries).2
  · rw [if_neg hmac]
    exact ⟨hs, ⟨false, rfl⟩, by simp [hmac]⟩

/-- The interface is registered. -/
theorem Sound.register (hs : h.Sound false) :
  (h.record [.take .registration]).Sound true
  := by
  obtain ⟨⟨mac, disabled, rssKey, msixEntries⟩, us⟩ := h
  have htake : ∀ disabled rssKey msixEntries,
      Lawful (heldOf false disabled rssKey msixEntries) [.take .registration]
      ∧ heldAfter (heldOf false disabled rssKey msixEntries) [.take .registration]
        = heldOf true disabled rssKey msixEntries := by
    decide
  exact hs.moves (htake disabled rssKey msixEntries).1 (htake disabled rssKey msixEntries).2

/-- The interface is not registered any more. -/
theorem Sound.unregister (hs : h.Sound true) :
  (h.record [.give .registration]).Sound false
  := by
  obtain ⟨⟨mac, disabled, rssKey, msixEntries⟩, us⟩ := h
  have hgive : ∀ disabled rssKey msixEntries,
      Lawful (heldOf true disabled rssKey msixEntries) [.give .registration]
      ∧ heldAfter (heldOf true disabled rssKey msixEntries) [.give .registration]
        = heldOf false disabled rssKey msixEntries := by
    decide
  exact hs.moves (hgive disabled rssKey msixEntries).1 (hgive disabled rssKey msixEntries).2

/-- The device is disabled once. -/
theorem Sound.disableDevice (hs : h.Sound registered) :
  h.disableDevice.Sound registered ∧ h.disableDevice.adapter = { h.adapter with disabled := true }
  := by
  obtain ⟨⟨mac, disabled, rssKey, msixEntries⟩, us⟩ := h
  cases disabled with
  | true => exact ⟨hs, rfl⟩
  | false =>
    refine ⟨?_, rfl⟩
    have hgive : ∀ registered rssKey msixEntries,
        Lawful (heldOf registered false rssKey msixEntries) [.give .device]
        ∧ heldAfter (heldOf registered false rssKey msixEntries) [.give .device]
          = heldOf registered true rssKey msixEntries := by
      decide
    exact hs.moves (hgive registered rssKey msixEntries).1 (hgive registered rssKey msixEntries).2

/-- A device that has been disabled is enabled. -/
theorem Sound.enableDevice (hs : h.Sound registered) (hdisabled : h.adapter.disabled = true) :
  h.enableDevice.Sound registered
  := by
  obtain ⟨⟨mac, disabled, rssKey, msixEntries⟩, us⟩ := h
  obtain rfl : disabled = true := hdisabled
  have htake : ∀ registered rssKey msixEntries,
      Lawful (heldOf registered true rssKey msixEntries) [.take .device]
      ∧ heldAfter (heldOf registered true rssKey msixEntries) [.take .device]
        = heldOf registered false rssKey msixEntries := by
    decide
  exact hs.moves (htake registered rssKey msixEntries).1 (htake registered rssKey msixEntries).2

end Held

/-! ### A probe -/

/-- From `err_sw_init` on everything is given back but the reports of errors. -/
theorem errSwInit_owns {h : Held} (hs : h.Sound false) (hdisabled : h.adapter.disabled = false) :
  Owns (errSwInit h) (· ∈ ({.reporting} : Finset Resource))
  := by
  obtain ⟨hs₁, hadapter⟩ := hs.resetInterruptCapability
  unfold errSwInit
  revert hs₁ hadapter
  obtain ⟨⟨mac, disabled, rssKey, msixEntries⟩, us⟩ := h.resetInterruptCapability
  intro hs₁ hadapter
  cases hadapter
  rw [hdisabled] at hs₁ ⊢
  cases hkey : h.adapter.rssKey with
  | false =>
    rw [hkey] at hs₁
    have hgive : Lawful (heldOf false false false false)
          [.give .mapping, .give .netdev, .give .regions, .give .device]
        ∧ heldAfter (heldOf false false false false)
          [.give .mapping, .give .netdev, .give .regions, .give .device] = {.reporting} := by
      decide
    have howns := hs₁.moves hgive.1 hgive.2
    simpa [errIoremap, errAllocEtherdev, errDma, Held.freeRssKey, Held.record] using howns
  | true =>
    rw [hkey] at hs₁
    have hgive : Lawful (heldOf false false true false)
          [.give .mapping, .give .rssKey, .give .netdev, .give .regions, .give .device]
        ∧ heldAfter (heldOf false false true false)
          [.give .mapping, .give .rssKey, .give .netdev, .give .regions, .give .device]
          = {.reporting} := by
      decide
    have howns := hs₁.moves hgive.1 hgive.2
    simpa [errIoremap, errAllocEtherdev, errDma, Held.freeRssKey, Held.record] using howns

/-- How a probe ends from `ixgbevf_sw_init` on. -/
theorem probeAdapter_cases {env : ProbeEnv} {h : Held} (hs : h.Sound false)
    (hadapter : h.adapter = blank env.macType) (hnetdev : env.netdev) (hmaps : env.maps) :
  (env.GrantsRest ∧ ∃ h', probeAdapter env h = .ok h' ∧ h'.Sound true)
    ∨ (¬ env.GrantsRest ∧ ∃ us, probeAdapter env h = .error us
      ∧ Owns us (· ∈ ({.reporting} : Finset Resource)))
  := by
  have hsw := hs.swInit env (by rw [hadapter]; rfl)
  unfold probeAdapter
  rcases hinit : h.swInit env with ⟨h₁, ok₁⟩
  rw [hinit, hadapter] at hsw
  obtain ⟨hs₁, ⟨rssKey, hadapter₁⟩, hok₁⟩ := hsw
  have hdisabled₁ : h₁.adapter.disabled = false := by rw [hadapter₁]; rfl
  have herr₁ := errSwInit_owns hs₁ hdisabled₁
  have hscheme := hs₁.initInterruptScheme env.scheme (by rw [hadapter₁]; rfl)
  rcases hvectors : h₁.initInterruptScheme env.scheme with ⟨h₂, ok₂⟩
  rw [hvectors] at hscheme
  obtain ⟨hs₂, hadapter₂, hok₂⟩ := hscheme
  have hdisabled₂ : h₂.adapter.disabled = false := by rw [hadapter₂]; exact hdisabled₁
  cases ok₁ with
  | false =>
    refine .inr ⟨fun hrest => Bool.false_ne_true ?_, _, rfl, herr₁⟩
    exact hok₁.mpr ⟨hrest.rssKey, hrest.inits⟩
  | true =>
    obtain ⟨hkey, hinits⟩ := hok₁.mp rfl
    dsimp only
    split
    next hvalid => exact .inr ⟨fun hrest => hvalid hrest.validAddr, _, rfl, herr₁⟩
    next hvalid =>
      split
      next hpresent => exact .inr ⟨fun hrest => hpresent hrest.present, _, rfl, herr₁⟩
      next hpresent =>
        rw [hvectors]
        cases ok₂ with
        | false =>
          refine .inr ⟨fun hrest => Bool.false_ne_true (hok₂.mpr hrest.scheme), _, rfl, ?_⟩
          exact errSwInit_owns hs₂ hdisabled₂
        | true =>
          dsimp only
          split
          next hregisters =>
            refine .inl ⟨⟨hnetdev, hmaps, hkey, hinits, not_not.mp hvalid, not_not.mp hpresent,
              hok₂.mp rfl, hregisters⟩, _, rfl, ?_⟩
            exact hs₂.register
          next hregisters =>
            obtain ⟨hs₃, hadapter₃⟩ := hs₂.resetInterruptCapability
            refine .inr ⟨fun hrest => hregisters hrest.registers, _, rfl, ?_⟩
            exact errSwInit_owns hs₃ (by rw [Held.clearInterruptScheme, hadapter₃]; exact hdisabled₂)

/-- How a probe ends: nothing is held unless it was granted the regions, and then only the reports of
errors, unless it was granted the rest. -/
theorem probe_cases (env : ProbeEnv) {us : List (Use Resource)}
    (h : Owns us (· ∈ (∅ : Finset Resource))) :
  (¬ env.GrantsRegions ∧ ∃ us', probe env us = .error us' ∧ Owns us' (· ∈ (∅ : Finset Resource)))
    ∨ (env.GrantsRegions ∧ ¬ env.GrantsRest ∧ ∃ us', probe env us = .error us'
      ∧ Owns us' (· ∈ ({.reporting} : Finset Resource)))
    ∨ (env.GrantsRegions ∧ env.GrantsRest ∧ ∃ h', probe env us = .ok h' ∧ h'.Sound true)
  := by
  have hback : Lawful ∅ [.take Resource.device, .give .device]
      ∧ heldAfter ∅ [.take Resource.device, .give .device] = ∅ := by
    decide
  have herr : Owns (us ++ [.take .device] ++ [.give .device]) (· ∈ (∅ : Finset Resource)) := by
    have howns := h.moves hback.1 hback.2
    simpa using howns
  unfold probe
  split
  next henables => exact .inl ⟨fun hr => henables hr.enables, _, rfl, h⟩
  next henables =>
    dsimp only
    split
    next hdma =>
      refine .inl ⟨fun hr => ?_, _, rfl, herr⟩
      exact hr.dma.elim hdma.1 hdma.2
    next hdma =>
      split
      next hregions => exact .inl ⟨fun hr => hregions hr.regions, _, rfl, herr⟩
      next hregions =>
        have hgrants : env.GrantsRegions :=
          ⟨not_not.mp henables, by by_contra hno; exact hdma (not_or.mp hno), not_not.mp hregions⟩
        refine .inr ?_
        split
        next hnetdev =>
          refine .inl ⟨hgrants, fun hrest => hnetdev hrest.netdev, _, rfl, ?_⟩
          have hgive : Lawful ∅ [.take Resource.device, .take .regions, .take .reporting,
                .give .regions, .give .device]
              ∧ heldAfter ∅ [.take Resource.device, .take .regions, .take .reporting,
                .give .regions, .give .device] = {.reporting} := by
            decide
          have howns := h.moves hgive.1 hgive.2
          simpa [errAllocEtherdev, errDma] using howns
        next hnetdev =>
          split
          next hmaps =>
            refine .inl ⟨hgrants, fun hrest => hmaps hrest.maps, _, rfl, ?_⟩
            have hgive : Lawful ∅ [.take Resource.device, .take .regions, .take .reporting,
                  .take .netdev, .give .netdev, .give .regions, .give .device]
                ∧ heldAfter ∅ [.take Resource.device, .take .regions, .take .reporting,
                  .take .netdev, .give .netdev, .give .regions, .give .device]
                  = {.reporting} := by
              decide
            have howns := h.moves hgive.1 hgive.2
            simpa [errIoremap, errAllocEtherdev, errDma, blank] using howns
          next hmaps =>
            have htake : Lawful ∅ [.take Resource.device, .take .regions, .take .reporting,
                  .take .netdev, .take .mapping]
                ∧ heldAfter ∅ [.take Resource.device, .take .regions, .take .reporting,
                  .take .netdev, .take .mapping] = heldOf false false false false := by
              decide
            have howns := h.moves htake.1 htake.2
            have hs : Held.Sound false ⟨blank env.macType, us ++ [.take .device]
                ++ [.take .regions, .take .reporting] ++ [.take .netdev] ++ [.take .mapping]⟩ := by
              simpa [Held.Sound, blank] using howns
            have hnetdev' : env.netdev := not_not.mp hnetdev
            obtain ⟨hrest, hok⟩ | ⟨hrest, herror⟩ :=
              probeAdapter_cases hs rfl hnetdev' (not_not.mp hmaps)
            · exact .inr ⟨hgrants, hrest, hok⟩
            · exact .inl ⟨hgrants, hrest, herror⟩

/-! ### What has happened stays on record -/

namespace Held

variable (h : Held)

end Held

/-- What a probe has recorded. -/
def recorded : Except (List (Use Resource)) Held → List (Use Resource)
  | .error us => us
  | .ok h => h.uses

namespace Device

/-- Everything has been taken and given back in order, and the adapter knows what is left. -/
structure Sound (d : Device) : Prop where
  /-- Nothing is held while the driver is not bound to the device. -/
  unbound : d.adapter = none → Owns d.uses (· ∈ (∅ : Finset Resource))
  /-- The adapter knows what is held. -/
  bound : ∀ A, d.adapter = some A → (Held.mk A d.uses).Sound true
  /-- The interrupts are given back before the device goes to sleep. -/
  asleep : d.asleep = true → ∀ A, d.adapter = some A → A.msixEntries = false

variable {d : Device}

/-- What is held is known where the driver is bound and where it is not. -/
theorem Sound.lawful (h : d.Sound) :
  Lawful ∅ d.uses
  := by
  rcases hadapter : d.adapter with _ | A
  · exact (h.unbound hadapter).lawful
  · exact (h.bound A hadapter).lawful

/-- The driver lets go of a device for which nothing is held. -/
theorem owns_settle {us : List (Use Resource)} (h : Owns us (· ∈ (∅ : Finset Resource))) :
  Owns (us ++ [.settle]) (· ∈ (∅ : Finset Resource))
  := h.moves ⟨rfl, trivial⟩ rfl

/-- Everything is given back when the device is removed. -/
theorem remove_owns {h : Held} (hs : h.Sound true) :
  Owns h.remove (· ∈ (∅ : Finset Resource))
  := by
  obtain ⟨hs₁, hadapter⟩ := hs.unregister.resetInterruptCapability
  unfold Held.remove Held.clearInterruptScheme
  rcases heq : (h.record [.give .registration]).resetInterruptCapability
    with ⟨⟨mac, disabled, rssKey, msixEntries⟩, us⟩
  rw [heq] at hs₁ hadapter
  obtain rfl : msixEntries = false := congrArg Adapter.msixEntries hadapter
  have hgive : ∀ disabled rssKey,
      Lawful (heldOf false disabled rssKey false)
        ([.give .mapping, .give .regions] ++ (if rssKey then [.give .rssKey] else [])
          ++ [.give .netdev, .give .reporting] ++ if disabled then [] else [.give .device])
      ∧ heldAfter (heldOf false disabled rssKey false)
        ([.give .mapping, .give .regions] ++ (if rssKey then [.give .rssKey] else [])
          ++ [.give .netdev, .give .reporting] ++ if disabled then [] else [.give .device])
        = ∅ := by
    decide
  have howns := hs₁.moves (hgive disabled rssKey).1 (hgive disabled rssKey).2
  cases disabled <;> cases rssKey <;> simpa [Held.freeRssKey, Held.record] using howns

/-- The driver does not see whether a device is to be woken up or reset. -/
theorem act_flags (f : Held → Held) :
  (d.act f).asleep = d.asleep ∧ (d.act f).recovering = d.recovering
  := by
  unfold Device.act
  split <;> exact ⟨rfl, rfl⟩

/-- An operation that keeps what the adapter knows. -/
theorem Sound.act {f : Held → Held} (h : d.Sound) (asleep recovering : Bool)
    (hf : ∀ A, d.adapter = some A → (Held.mk A d.uses).Sound true → (f ⟨A, d.uses⟩).Sound true)
    (hasleep : asleep = true → ∀ A, d.adapter = some A →
      (f ⟨A, d.uses⟩).adapter.msixEntries = false) :
  { d.act f with asleep := asleep, recovering := recovering : Device }.Sound
  := by
  unfold Device.act
  rcases hadapter : d.adapter with _ | A
  · constructor
    · exact fun _ => h.unbound hadapter
    · intro A hA
      cases hadapter.symm.trans hA
    · intro _ A hA
      cases hadapter.symm.trans hA
  · constructor
    · intro hA
      cases hA
    · intro A' hA'
      cases hA'
      exact hf A hadapter (h.bound A hadapter)
    · intro hsleep A' hA'
      cases hA'
      exact hasleep hsleep A hadapter

/-- A balanced event takes and gives back in order. -/
theorem Sound.next {e : Event} (h : d.Sound) (hen : Enabled d e) (hbalanced : Balanced d e) :
  (d.next e).Sound
  := by
  cases e with
  | probe env =>
    have hadapter : d.adapter = none := hen
    obtain ⟨-, us, hprobe, howns⟩ | ⟨hregions, hrest, -⟩ | ⟨-, -, h', hprobe, hs⟩ :=
      probe_cases env (h.unbound hadapter)
    · simp only [Device.next, hprobe]
      constructor
      · exact fun _ => owns_settle howns
      · intro A hA
        cases hadapter.symm.trans hA
      · intro _ A hA
        cases hadapter.symm.trans hA
    · exact absurd (hbalanced hregions) hrest
    · simp only [Device.next, hprobe]
      constructor
      · intro hA
        cases hA
      · intro A hA
        cases hA
        exact hs
      · intro hsleep
        cases hsleep
  | suspend saves =>
    apply h.act
    · intro A _ hs
      obtain ⟨hs₁, -⟩ := hs.resetInterruptCapability
      unfold Held.suspend
      split
      · exact hs₁
      · exact hs₁.disableDevice.1
    · intro _ A hA
      obtain ⟨hs₁, hadapter⟩ := (h.bound A hA).resetInterruptCapability
      unfold Held.suspend
      split
      · exact congrArg Adapter.msixEntries hadapter
      · refine (congrArg Adapter.msixEntries hs₁.disableDevice.2).trans ?_
        exact congrArg Adapter.msixEntries hadapter
  | resume enables scheme =>
    apply h.act
    · intro A hA hs
      unfold Held.resume
      split
      next => exact hs
      next henables =>
        have hdisabled := hbalanced (not_not.mp henables) A hA
        exact ((hs.enableDevice hdisabled).initInterruptScheme scheme (h.asleep hen.2 A hA)).1
    · intro hno
      cases hno
  | errorDetected permanent =>
    apply h.act
    · intro A _ hs
      unfold Held.errorDetected
      split
      · exact hs
      · exact hs.disableDevice.1
    · intro hsleep A hA
      rw [(act_flags _).1] at hsleep
      unfold Held.errorDetected
      split
      · exact h.asleep hsleep A hA
      · refine (congrArg Adapter.msixEntries (h.bound A hA).disableDevice.2).trans ?_
        exact h.asleep hsleep A hA
  | slotReset enables =>
    apply h.act
    · intro A hA hs
      unfold Held.slotReset
      split
      next => exact hs
      next henables => exact hs.enableDevice (hbalanced (not_not.mp henables) A hA)
    · intro hsleep A hA
      rw [(act_flags _).1] at hsleep
      unfold Held.slotReset
      split <;> exact h.asleep hsleep A hA
  | rebuild scheme =>
    apply h.act (d.act (·.rebuild scheme)).asleep (d.act (·.rebuild scheme)).recovering
    · intro A _ hs
      obtain ⟨hs₁, hadapter⟩ := hs.resetInterruptCapability
      exact (hs₁.initInterruptScheme scheme (congrArg Adapter.msixEntries hadapter)).1
    · intro hsleep
      rw [(act_flags _).1, hen.2] at hsleep
      cases hsleep
  | remove =>
    obtain ⟨A, hadapter⟩ := Option.isSome_iff_exists.mp hen
    simp only [Device.next, hadapter]
    constructor
    · exact fun _ => owns_settle (remove_owns (h.bound A hadapter))
    · intro A hA
      cases hA
    · intro hsleep
      cases hsleep

/-- Nothing is held for a device that the driver has not been bound to. -/
theorem fresh_sound :
  fresh.Sound
  := by
  constructor
  · exact fun _ => Owns.nil.congr (by simp)
  · intro A hA
    cases hA
  · intro hsleep
    cases hsleep

/-- The state of a device is saved whenever it is suspended, and no error is dealt with while it is
suspended. -/
def Orderly (d : Device) : Event → Prop
  | .probe env => env.GrantsRegions → env.GrantsRest
  | .suspend saves => saves = true ∧ d.recovering = false
  | .errorDetected permanent => permanent = false → d.asleep = false
  | _ => True

/-- The device has been disabled if it is to be woken up or reset, and not both are to be done. -/
structure Waiting (d : Device) : Prop where
  /-- A device sleeps disabled. -/
  asleep : d.asleep = true → ∀ A, d.adapter = some A → A.disabled = true
  /-- A device is reset disabled. -/
  recovering : d.recovering = true → ∀ A, d.adapter = some A → A.disabled = true
  /-- A device that sleeps is not to be reset. -/
  once : d.asleep = true → d.recovering = false

/-- An orderly event is balanced. -/
theorem Waiting.balanced {e : Event} (h : Waiting d) (hen : Enabled d e) (he : Orderly d e) :
  Balanced d e
  := by
  cases e with
  | probe env => exact he
  | resume enables scheme => exact fun _ A hA => h.asleep hen.2 A hA
  | slotReset enables => exact fun _ A hA => h.recovering hen.2 A hA
  | suspend saves => trivial
  | errorDetected permanent => trivial
  | rebuild scheme => trivial
  | remove => trivial

/-- The adapter after an operation. -/
theorem act_adapter {f : Held → Held} {A' : Adapter} (h : (d.act f).adapter = some A') :
  ∃ A, d.adapter = some A ∧ A' = (f ⟨A, d.uses⟩).adapter
  := by
  unfold Device.act at h
  split at h
  next hnone => cases hnone.symm.trans h
  next A hA => exact ⟨A, hA, (Option.some.inj h).symm⟩

/-- Setting up the interrupts again does not touch the device. -/
theorem rebuild_disabled (scheme : SchemeEnv) (h : Held) :
  (h.rebuild scheme).adapter.disabled = h.adapter.disabled
  := by
  have hreset : ∀ h : Held, h.resetInterruptCapability.adapter.disabled = h.adapter.disabled := by
    intro h
    unfold Held.resetInterruptCapability
    split <;> rfl
  have hset : ∀ h : Held,
      (h.setInterruptCapability scheme).1.adapter.disabled = h.adapter.disabled := by
    intro h
    unfold Held.setInterruptCapability
    split
    · rfl
    · split <;> rfl
  unfold Held.rebuild Held.clearInterruptScheme Held.initInterruptScheme
  have hset₁ := (hset h.resetInterruptCapability).trans (hreset h)
  split
  next heq =>
    rw [heq] at hset₁
    exact hset₁
  next h₁ heq =>
    rw [heq] at hset₁
    split
    · exact hset₁
    · exact (hreset h₁).trans hset₁

/-- A device is disabled afterwards. -/
theorem disableDevice_disabled (h : Held) :
  h.disableDevice.adapter.disabled = true
  := by
  unfold Held.disableDevice
  split
  next hyes => exact hyes
  next => rfl

/-- An orderly event leaves a device that waits disabled. -/
theorem Waiting.next {e : Event} (h : Waiting d) (hen : Enabled d e) (he : Orderly d e) :
  Waiting (d.next e)
  := by
  cases e with
  | probe env =>
    unfold Device.next
    dsimp only
    split
    · exact ⟨h.asleep, h.recovering, h.once⟩
    · constructor <;> intro hno <;> cases hno
  | suspend saves =>
    have hrecovering : (d.next (.suspend saves)).recovering = false :=
      ((act_flags _).2).trans he.2
    constructor
    · intro _ A' hA'
      obtain ⟨A, -, rfl⟩ := act_adapter hA'
      unfold Held.suspend
      dsimp only
      rw [if_neg (not_not.mpr he.1)]
      apply disableDevice_disabled
    · intro hyes
      cases hrecovering.symm.trans hyes
    · exact fun _ => hrecovering
  | resume enables scheme =>
    have hrecovering : (d.next (.resume enables scheme)).recovering = false :=
      ((act_flags _).2).trans (h.once hen.2)
    constructor
    · intro hno
      cases hno
    · intro hyes
      cases hrecovering.symm.trans hyes
    · intro hno
      cases hno
  | errorDetected permanent =>
    have hasleep : (d.next (.errorDetected permanent)).asleep = d.asleep := (act_flags _).1
    cases permanent with
    | false =>
      have hdisabled : ∀ A', (d.next (.errorDetected false)).adapter = some A' →
          A'.disabled = true := by
        intro A' hA'
        obtain ⟨A, -, rfl⟩ := act_adapter hA'
        apply disableDevice_disabled
      constructor
      · exact fun _ => hdisabled
      · exact fun _ => hdisabled
      · intro hyes
        cases (hasleep.trans (he rfl)).symm.trans hyes
    | true =>
      have hadapter : ∀ A', (d.next (.errorDetected true)).adapter = some A' →
          d.adapter = some A' := by
        intro A' hA'
        obtain ⟨A, hA, rfl⟩ := act_adapter hA'
        exact hA
      have hrecovering : (d.next (.errorDetected true)).recovering = d.recovering := by
        simp [Device.next]
      constructor
      · exact fun hyes A' hA' => h.asleep (hasleep.symm.trans hyes) A' (hadapter A' hA')
      · exact fun hyes A' hA' => h.recovering (hrecovering.symm.trans hyes) A' (hadapter A' hA')
      · exact fun hyes => hrecovering.trans (h.once (hasleep.symm.trans hyes))
  | slotReset enables =>
    have hasleep : (d.next (.slotReset enables)).asleep = d.asleep := (act_flags _).1
    constructor
    · intro hyes
      cases (h.once (hasleep.symm.trans hyes)).symm.trans hen.2
    · intro hno
      cases hno
    · exact fun _ => rfl
  | rebuild scheme =>
    have hasleep : (d.next (.rebuild scheme)).asleep = false := ((act_flags _).1).trans hen.2
    have hrecovering : (d.next (.rebuild scheme)).recovering = d.recovering := (act_flags _).2
    constructor
    · intro hyes
      cases hasleep.symm.trans hyes
    · intro hyes A' hA'
      obtain ⟨A, hA, rfl⟩ := act_adapter hA'
      exact (rebuild_disabled scheme _).trans (h.recovering (hrecovering.symm.trans hyes) A hA)
    · intro hyes
      cases hasleep.symm.trans hyes
  | remove =>
    obtain ⟨A, hA⟩ := Option.isSome_iff_exists.mp hen
    simp only [Device.next, hA]
    constructor <;> intro hno <;> cases hno

/-- In an orderly run everything is taken and given back in order. -/
theorem orderly_lawful {es : List Event} (h : system.Path Orderly fresh es d) :
  Lawful ∅ d.uses
  := by
  have hwaiting : Waiting fresh := by
    constructor <;> intro hno <;> cases hno
  have hstart : fresh.Sound ∧ Waiting fresh := ⟨fresh_sound, hwaiting⟩
  refine (h.invariant (I := fun d : Device => d.Sound ∧ Waiting d) ?_ hstart).1.lawful
  rintro d e _ ⟨hsound, hwaiting⟩ he ⟨hen, rfl⟩
  exact ⟨hsound.next hen (hwaiting.balanced hen he), hwaiting.next hen he⟩

end Device

end Ixgbevf.Lifetime
