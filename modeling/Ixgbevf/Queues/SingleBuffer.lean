import Ixgbevf.Queues.Partner

/-!
# Frames in a single Rx buffer

An XDP program sees a frame in one buffer.  `ixgbevf_xdp_setup` checks the rings when a
program is attached, and the layout of the rings is chosen again whenever the interface comes
up.  The frames keep fitting as long as neither the attaching nor a change of the private
flags leaves a program with a configuration whose buffers are too small.
-/

namespace Ixgbevf.Queues

open Rx (RxConfig)

/-- Every frame of the MTU fits in one buffer of the layout that the configuration selects. -/
def FitsOneBuffer (K : KernelConfig) (A : RxConfig) : Prop :=
  Rx.maxFrame A ≤ Rx.rxBufsz K (Rx.setRxBufferLen K A)

/-- While a program is attached, every frame of the MTU fits in one buffer of every active Rx
ring. -/
def SingleBuffer (K : KernelConfig) (s : Adapter) : Prop :=
  s.down = false → s.xdpProg.isSome → ∀ i < s.numRxQueues, ∀ r, s.rings.rx i = some r →
    Rx.maxFrame s.rxConfig ≤ Rx.rxBufsz K r.flags

/-- The condition on an event: where a program is attached, by the event or before it, the
configuration that the event leaves selects buffers that hold a frame. -/
def LeavesFitting (K : KernelConfig) (s : Adapter) : Event → Prop
  | .xdpSetup prog _ _ =>
    prog.isSome → xdpFits K s s.numRxQueues = some true → FitsOneBuffer K s.rxConfig
  | .setPrivFlags legacyRx =>
    s.xdpProg.isSome → FitsOneBuffer K { s.rxConfig with legacyRx := legacyRx }
  | _ => True

/-! ### Operations on the rings -/

/-- A loop applies its body to every ring below `n`. -/
theorem forRings_apply
    {f : Ring → Ring} {n : ℕ} {rings rings' : ℕ → Option Ring}
    (h : forRings f n rings = some rings') (i : ℕ) :
  rings' i = if i < n then (rings i).map f else rings i
  := by
  induction n generalizing rings with
  | zero =>
    cases h
    simp
  | succ n ih =>
    rw [forRings] at h
    split at h
    · cases h
    · rename_i r hr
      rw [ih h]
      by_cases hi : i = n
      · subst hi
        simp [hr]
      · rw [Function.update_of_ne hi]
        by_cases hlt : i < n
        · rw [if_pos hlt, if_pos (by omega)]
        · rw [if_neg hlt, if_neg (by omega)]

/-- An operation that changes the rings and at most the number of vectors besides. -/
def RingsOnly (s s' : Adapter) : Prop :=
  ∃ rings n, s' = { s with rings := rings, numQVectors := n }

/-- An operation that changes nothing changes only rings. -/
theorem RingsOnly.refl (s : Adapter) :
  RingsOnly s s
  := by
  use s.rings, s.numQVectors

/-- Operations that change only rings compose. -/
theorem RingsOnly.trans
    {s₁ s₂ s₃ : Adapter} (h₁ : RingsOnly s₁ s₂) (h₂ : RingsOnly s₂ s₃) :
  RingsOnly s₁ s₃
  := by
  obtain ⟨rings₁, n₁, rfl⟩ := h₁
  obtain ⟨rings₂, n₂, rfl⟩ := h₂
  use rings₂, n₂

/-- Setting up the Tx and XDP rings changes only rings. -/
theorem setupAllTxResources_only
    {txSetup xdpSetup : ℕ → TxSetup} {s s' : Adapter} {ok : Bool}
    (h : setupAllTxResources txSetup xdpSetup s = some (s', ok)) :
  RingsOnly s s'
  := by
  obtain ⟨⟨tx, failed⟩, -, h⟩ := Option.bind_eq_some_iff.mp h
  cases failed with
  | some i =>
    obtain ⟨tx', -, h⟩ := Option.bind_eq_some_iff.mp h
    cases h
    use { s.rings with tx := tx' }, s.numQVectors
  | none =>
    obtain ⟨⟨xdp, failed⟩, -, h⟩ := Option.bind_eq_some_iff.mp h
    cases failed with
    | some j =>
      obtain ⟨xdp', -, h⟩ := Option.bind_eq_some_iff.mp h
      obtain ⟨tx', -, h⟩ := Option.bind_eq_some_iff.mp h
      cases h
      use { s.rings with tx := tx', xdp := xdp' }, s.numQVectors
    | none =>
      cases h
      use { s.rings with tx := tx, xdp := xdp }, s.numQVectors

/-- Setting up the Rx rings changes only rings. -/
theorem setupAllRxResources_only
    {rxSetup : ℕ → RxSetup} {s s' : Adapter} {ok : Bool}
    (h : setupAllRxResources rxSetup s = some (s', ok)) :
  RingsOnly s s'
  := by
  obtain ⟨⟨rx, failed⟩, -, h⟩ := Option.bind_eq_some_iff.mp h
  cases failed with
  | some i =>
    obtain ⟨rx', -, h⟩ := Option.bind_eq_some_iff.mp h
    cases h
    use { s.rings with rx := rx' }, s.numQVectors
  | none =>
    cases h
    use { s.rings with rx := rx }, s.numQVectors

/-- Freeing the Tx and XDP rings changes only rings. -/
theorem freeAllTxResources_only {s s' : Adapter} (h : freeAllTxResources s = some s') :
  RingsOnly s s'
  := by
  obtain ⟨tx, -, h⟩ := Option.bind_eq_some_iff.mp h
  obtain ⟨xdp, -, h⟩ := Option.bind_eq_some_iff.mp h
  cases h
  use { s.rings with tx := tx, xdp := xdp }, s.numQVectors

/-- Freeing the Rx rings changes only rings. -/
theorem freeAllRxResources_only {s s' : Adapter} (h : freeAllRxResources s = some s') :
  RingsOnly s s'
  := by
  obtain ⟨rx, -, h⟩ := Option.bind_eq_some_iff.mp h
  cases h
  use { s.rings with rx := rx }, s.numQVectors

/-- The error exit of `ixgbevf_open` changes only rings. -/
theorem openFailed_only {s s' : Adapter} {ok : Bool} (h : openFailed s = some (s', ok)) :
  RingsOnly s s'
  := by
  obtain ⟨s₁, h₁, h₂⟩ := Option.map_eq_some_iff.mp h
  obtain ⟨s₂, hrx, htx⟩ := Option.bind_eq_some_iff.mp h₁
  cases h₂
  apply (freeAllRxResources_only hrx).trans (freeAllTxResources_only htx)

/-- Every Rx ring in use has the layout that the configuration selects. -/
def Configured (K : KernelConfig) (s : Adapter) : Prop :=
  ∀ i < s.numRxQueues, ∀ r, s.rings.rx i = some r → r.flags = Rx.setRxBufferLen K s.rxConfig

/-- Configuring the rings selects their layout. -/
theorem configure_configured
    {K : KernelConfig} {s s' : Adapter} (h : configure K s = some s') :
  RingsOnly s s' ∧ Configured K s'
  := by
  unfold configure at h
  simp only at h
  split at h
  · obtain ⟨rx, hrx, h⟩ := Option.bind_eq_some_iff.mp h
    cases h
    constructor
    · use { s.rings with rx := rx }, s.numQVectors
    · intro i hi r hr
      simp only [forRings_apply hrx, if_pos hi, Option.map_eq_some_iff] at hr
      obtain ⟨r', -, rfl⟩ := hr
      rfl
  · cases h

/-- Requesting the interrupts leaves the rings as they are configured. -/
theorem requestIrq_configured
    {K : KernelConfig} {fails ok : Bool} {s s' : Adapter}
    (h : requestIrq fails s = some (s', ok)) (hs : Configured K s) :
  RingsOnly s s' ∧ Configured K s'
  := by
  unfold requestIrq at h
  split at h
  · split at h
    · cases h
      constructor
      · use s.rings, 0
      · apply hs
    · cases h
      constructor
      · apply RingsOnly.refl
      · apply hs
  · cases h

/-! ### What the operations keep -/

/-- What opening, closing and the set-up of the interrupt scheme leave alone. -/
def Adapter.setting (s : Adapter) : Option ℕ × RxConfig × Bool × Presence :=
  (s.xdpProg, s.rxConfig, s.running, s.presence)

/-- An operation that changes only rings keeps the setting. -/
theorem RingsOnly.setting {s s' : Adapter} (h : RingsOnly s s') :
  s'.setting = s.setting ∧ s'.down = s.down
  := by
  obtain ⟨rings, n, rfl⟩ := h
  constructor <;> rfl

/-- The setting is the control state and the Rx configuration. -/
theorem setting_of_control
    {s s' : Adapter} (hcontrol : s'.control = s.control) (hA : s'.rxConfig = s.rxConfig) :
  s'.setting = s.setting ∧ s'.down = s.down
  := by
  simp only [Adapter.control, Prod.mk.injEq] at hcontrol
  obtain ⟨hprog, hrunning, hpresence, hdown⟩ := hcontrol
  constructor
  · unfold Adapter.setting
    rw [hprog, hA, hrunning, hpresence]
  · apply hdown

/-- Bringing the interface up leaves its rings as they are configured. -/
theorem upComplete_configured
    {K : KernelConfig} {s s' : Adapter} (h : upComplete s = some s') (hs : Configured K s) :
  s'.setting = s.setting ∧ Configured K s'
  := by
  unfold upComplete at h
  split at h
  · cases h
    constructor
    · rfl
    · apply hs
  · cases h

/-- Opening an interface that is down brings it up only with its rings configured. -/
theorem ixgbevfOpen_configured
    {K : KernelConfig} {env : OpenEnv} {s s' : Adapter} {ok : Bool}
    (h : ixgbevfOpen K env s = some (s', ok)) (hdown : s.down = true) :
  s'.setting = s.setting ∧ (s'.down = false → ok = true ∧ Configured K s')
  := by
  have hstay {s' : Adapter} (honly : RingsOnly s s') :
      s'.setting = s.setting ∧ (s'.down = false → ok = true ∧ Configured K s') := by
    obtain ⟨hsetting, hd⟩ := honly.setting
    constructor
    · apply hsetting
    · intro hup
      rw [hd, hdown] at hup
      cases hup
  unfold ixgbevfOpen at h
  split at h
  · cases h
    apply hstay (RingsOnly.refl s)
  obtain ⟨⟨s₁, ok₁⟩, h₁, h⟩ := Option.bind_eq_some_iff.mp h
  have hs₁ := setupAllTxResources_only h₁
  cases ok₁ with
  | false =>
    cases h
    apply hstay hs₁
  | true =>
  obtain ⟨⟨s₂, ok₂⟩, h₂, h⟩ := Option.bind_eq_some_iff.mp h
  have hs₂ := hs₁.trans (setupAllRxResources_only h₂)
  cases ok₂ with
  | false =>
    obtain ⟨s₃, h₃, h⟩ := Option.bind_eq_some_iff.mp h
    cases h
    apply hstay (hs₂.trans (freeAllTxResources_only h₃))
  | true =>
  obtain ⟨s₃, h₃, h⟩ := Option.bind_eq_some_iff.mp h
  obtain ⟨hconf, hconfigured⟩ := configure_configured h₃
  obtain ⟨⟨s₄, ok₄⟩, h₄, h⟩ := Option.bind_eq_some_iff.mp h
  obtain ⟨hirq, hconfigured⟩ := requestIrq_configured h₄ hconfigured
  have hs₄ := (hs₂.trans hconf).trans hirq
  cases ok₄ with
  | false => apply hstay (hs₄.trans (openFailed_only h))
  | true =>
  cases hset : env.setQueuesFails with
  | true =>
    simp only [hset] at h
    apply hstay (hs₄.trans (openFailed_only h))
  | false =>
  simp only [hset] at h
  obtain ⟨s₅, h₅, h⟩ := Option.bind_eq_some_iff.mp h
  cases h
  obtain ⟨hsetting, hconfigured⟩ := upComplete_configured h₅ hconfigured
  constructor
  · rw [hsetting, hs₄.setting.1]
  · intro _
    exact ⟨rfl, hconfigured⟩

/-- Bringing the interface up configures its rings. -/
theorem up_configured {K : KernelConfig} {s s' : Adapter} (h : up K s = some s') :
  s'.setting = s.setting ∧ Configured K s'
  := by
  obtain ⟨s₁, hconf, hup⟩ := Option.bind_eq_some_iff.mp h
  obtain ⟨honly, hconfigured⟩ := configure_configured hconf
  rw [← honly.setting.1]
  apply upComplete_configured hup hconfigured

/-- Reinitialising the interface configures its rings. -/
theorem reinitLocked_configured
    {K : KernelConfig} {s s' : Adapter} (h : reinitLocked K s = some s') :
  s'.setting = s.setting ∧ Configured K s'
  := by
  obtain ⟨s₁, hdown, hup⟩ := Option.bind_eq_some_iff.mp h
  rw [ixgbevfDown_some hdown] at hup
  apply up_configured hup

/-- Swapping the rings configures the new ones. -/
theorem setRingparam_configured
    {K : KernelConfig} {tx rx : Bool} {s s' : Adapter} (h : setRingparam K tx rx s = some s') :
  s'.setting = s.setting ∧ Configured K s'
  := by
  obtain ⟨s₁, hdown, h⟩ := Option.bind_eq_some_iff.mp h
  rw [ixgbevfDown_some hdown] at h
  obtain ⟨txRings, -, h⟩ := Option.bind_eq_some_iff.mp h
  obtain ⟨xdpRings, -, h⟩ := Option.bind_eq_some_iff.mp h
  obtain ⟨rxRings, -, h⟩ := Option.bind_eq_some_iff.mp h
  apply up_configured h

/-- Closing or suspending the interface takes it down. -/
theorem closeSuspend_setting {s s' : Adapter} (h : closeSuspend s = some s') :
  s'.setting = s.setting ∧ s'.down = true
  := by
  obtain ⟨s₂, h, hrx⟩ := Option.bind_eq_some_iff.mp h
  obtain ⟨s₁, hdown, htx⟩ := Option.bind_eq_some_iff.mp h
  rw [ixgbevfDown_some hdown] at htx
  apply ((freeAllTxResources_only htx).trans (freeAllRxResources_only hrx)).setting

/-- Freeing vectors leaves the Rx configuration alone. -/
theorem freeQVectorsBelow_rxConfig
    {n : ℕ} {s s' : Adapter} (h : freeQVectorsBelow n s = some s') :
  s'.rxConfig = s.rxConfig
  := by
  induction n generalizing s with
  | zero =>
    cases h
    rfl
  | succ n ih =>
    obtain ⟨s₁, h₁, h₂⟩ := Option.bind_eq_some_iff.mp h
    rw [ih h₂]
    unfold freeQVector at h₁
    split at h₁ <;> cases h₁
    rfl

/-- Clearing the interrupt scheme keeps the setting. -/
theorem clearInterruptScheme_setting {s s' : Adapter} (h : clearInterruptScheme s = some s') :
  s'.setting = s.setting ∧ s'.down = s.down
  := by
  obtain ⟨s₁, hfree, h⟩ := Option.map_eq_some_iff.mp h
  cases h
  have hcontrol := (freeQVectorsBelow_control hfree).1
  have hA := freeQVectorsBelow_rxConfig hfree
  apply setting_of_control hcontrol hA

/-- Dealing leaves the Rx configuration alone. -/
theorem dealAll_rxConfig
    (env : InitEnv) {n : ℕ} {d d' : Dealing} {s s' : Adapter} {failed : Bool}
    (h : dealAll env n d s = some (d', s', failed)) :
  s'.rxConfig = s.rxConfig
  := by
  induction n generalizing d s with
  | zero =>
    cases h
    rfl
  | succ n ih =>
    rw [dealAll] at h
    split at h
    · cases h
      rfl
    obtain ⟨s₁, h₁, h₂⟩ := Option.bind_eq_some_iff.mp h
    rw [ih h₂]
    unfold allocQVector at h₁
    split at h₁ <;> cases h₁
    rfl

/-- Choosing the counts keeps the setting. -/
theorem setNumQueues_setting (env : InitEnv) (s : Adapter) :
  (setNumQueues env s).setting = s.setting ∧ (setNumQueues env s).down = s.down
  := by
  apply setting_of_control (setNumQueues_control env s)
  unfold setNumQueues
  split
  · rfl
  split
  · rfl
  split <;> rfl

/-- Setting up the interrupt scheme of an interface that is down keeps the setting. -/
theorem initInterruptScheme_setting
    {env : InitEnv} {s s' : Adapter} {ok : Bool}
    (h : initInterruptScheme env s = some (s', ok)) (hdown : s.down = true) :
  s'.setting = s.setting ∧ s'.down = true
  := by
  unfold initInterruptScheme at h
  obtain ⟨hsetting₀, hdown₀⟩ := setNumQueues_setting env s
  rw [hdown] at hdown₀
  split at h
  · rename_i s₁ h₁
    cases h
    rw [setInterruptCapability_fail h₁]
    exact ⟨hsetting₀, hdown₀⟩
  rename_i s₁ h₁
  have hlt := numQVectors_lt h₁
  obtain ⟨heq, -, -⟩ := setInterruptCapability_some h₁
  have hs₁ : s₁.setting = s.setting ∧ s₁.down = true := by
    rw [heq]
    exact ⟨hsetting₀, hdown₀⟩
  obtain ⟨⟨s₂, ok₂⟩, h₂, hs'⟩ := Option.map_eq_some_iff.mp h
  simp only [allocQVectors, if_neg (Nat.not_le.mpr hlt), Option.bind_some] at h₂
  obtain ⟨⟨d, s₃, failed⟩, h₃, h₄⟩ := Option.bind_eq_some_iff.mp h₂
  obtain ⟨hsetting₃, hdown₃⟩ :=
    setting_of_control (dealAll_control env h₃).1 (dealAll_rxConfig env h₃)
  rw [hs₁.1] at hsetting₃
  rw [hs₁.2] at hdown₃
  cases failed with
  | true =>
    obtain ⟨s₄, hfree, hs₂⟩ := Option.map_eq_some_iff.mp h₄
    obtain ⟨hsetting₄, hdown₄⟩ :=
      setting_of_control (freeQVectorsBelow_control hfree).1 (freeQVectorsBelow_rxConfig hfree)
    cases hs₂
    cases hs'
    exact ⟨hsetting₄.trans hsetting₃, hdown₄.trans hdown₃⟩
  | false =>
    cases h₄
    cases hs'
    exact ⟨hsetting₃, rfl⟩

/-! ### The invariant of a run -/

/-- What holds of the device in every state of a run: an interface that is up runs on
configured rings, and with a program attached the configuration selects buffers that hold a
frame. -/
structure Fitting (K : KernelConfig) (s : Adapter) : Prop where
  up : s.down = false → s.running = true ∧ s.presence = .present
  configured : s.down = false → Configured K s
  fits : s.xdpProg.isSome → FitsOneBuffer K s.rxConfig

/-- The frames fit in the buffers that the rings have, because the rings have the layout that
the configuration selects. -/
theorem Fitting.singleBuffer {K : KernelConfig} {s : Adapter} (h : Fitting K s) :
  SingleBuffer K s
  := by
  intro hup hsome i hi r hr
  rw [h.configured hup i hi r hr]
  apply h.fits hsome

/-- An interface that is down fits with any configuration that holds a frame. -/
theorem Fitting.of_down
    {K : KernelConfig} {s s' : Adapter} (h : Fitting K s) (hdown : s'.down = true)
    (hprog : s'.xdpProg = s.xdpProg) (hA : s'.rxConfig = s.rxConfig) :
  Fitting K s'
  := by
  constructor
  · intro hup
    rw [hdown] at hup
    cases hup
  · intro hup
    rw [hdown] at hup
    cases hup
  · rw [hprog, hA]
    apply h.fits

/-- An interface that is not running, or not present, is down. -/
theorem Fitting.down
    {K : KernelConfig} {s : Adapter} (h : Fitting K s)
    (hno : ¬ (s.running = true ∧ s.presence = .present)) :
  s.down = true
  := by
  rw [← Bool.not_eq_false]
  intro hup
  apply hno (h.up hup)

/-- Closing the interface where it runs leaves it down. -/
theorem closeIfRunning_setting
    {s s' : Adapter} (h : closeIfRunning s = some s')
    (hup : s.down = false → s.running = true ∧ s.presence = .present) :
  s'.setting = s.setting ∧ s'.down = true
  := by
  obtain ⟨hdown, howner⟩ := closeIfRunning_down h hup
  unfold closeIfRunning ixgbevfClose at h
  split at h
  · split at h
    · apply closeSuspend_setting h
    · cases h
      exact ⟨rfl, hdown⟩
  · cases h
    exact ⟨rfl, hdown⟩

/-- Opening an interface that is down again, where it runs. -/
theorem openIfRunning_configured
    {K : KernelConfig} {env : OpenEnv} {s s' : Adapter} (h : openIfRunning K env s = some s')
    (hdown : s.down = true) :
  s'.setting = s.setting ∧ (s'.down = false → s'.running = true ∧ Configured K s')
  := by
  unfold openIfRunning at h
  split at h
  · rename_i hrunning
    obtain ⟨⟨s₁, ok⟩, hopen, h⟩ := Option.map_eq_some_iff.mp h
    cases h
    obtain ⟨hsetting, hconfigured⟩ := ixgbevfOpen_configured hopen hdown
    constructor
    · apply hsetting
    · intro hup
      constructor
      · rw [show s₁.running = s.running from congrArg (·.2.2.1) hsetting]
        apply hrunning
      · apply (hconfigured hup).2
  · cases h
    constructor
    · rfl
    · intro hup
      rw [hdown] at hup
      cases hup

/-- Bringing up rings that are configured keeps the invariant. -/
theorem Fitting.of_configured
    {K : KernelConfig} {s s' : Adapter} (hs : s.xdpProg.isSome → FitsOneBuffer K s.rxConfig)
    (hsetting : s'.setting = s.setting) (hpresent : s.presence = .present)
    (h : s'.down = false → s'.running = true ∧ Configured K s') :
  Fitting K s'
  := by
  simp only [Adapter.setting, Prod.mk.injEq] at hsetting
  obtain ⟨hprog, hA, -, hpresence⟩ := hsetting
  constructor
  · intro hup
    rw [hpresence]
    exact ⟨(h hup).1, hpresent⟩
  · intro hup
    apply (h hup).2
  · rw [hprog, hA]
    apply hs

/-- Reinitialising queues and interrupts of a present device keeps the invariant. -/
theorem reinitQueues_fitting
    {K : KernelConfig} {env : InitEnv} {openEnv : OpenEnv} {s s' : Adapter}
    (h : reinitQueues K env openEnv s = some s')
    (hup : s.down = false → s.running = true ∧ s.presence = .present)
    (hfits : s.xdpProg.isSome → FitsOneBuffer K s.rxConfig) (hpresent : s.presence = .present) :
  Fitting K s'
  := by
  obtain ⟨s₁, hclose, h⟩ := Option.bind_eq_some_iff.mp h
  obtain ⟨hsetting₁, hdown₁⟩ := closeIfRunning_setting hclose hup
  obtain ⟨s₂, hclear, h⟩ := Option.bind_eq_some_iff.mp h
  obtain ⟨hsetting₂, hdown₂⟩ := clearInterruptScheme_setting hclear
  obtain ⟨⟨s₃, ok⟩, hinit, h⟩ := Option.bind_eq_some_iff.mp h
  obtain ⟨hsetting₃, hdown₃⟩ := initInterruptScheme_setting hinit (hdown₂.trans hdown₁)
  obtain ⟨hsetting₄, hconfigured⟩ := openIfRunning_configured h hdown₃
  have hsetting : s'.setting = s.setting := by
    rw [hsetting₄, hsetting₃, hsetting₂, hsetting₁]
  apply Fitting.of_configured hfits hsetting hpresent hconfigured

/-- Bringing a running and present interface up keeps the invariant. -/
theorem Fitting.of_up
    {K : KernelConfig} {s s' : Adapter} (hs : s.xdpProg.isSome → FitsOneBuffer K s.rxConfig)
    (hrunning : s.running = true) (hpresent : s.presence = .present)
    (h : s'.setting = s.setting ∧ Configured K s') :
  Fitting K s'
  := by
  obtain ⟨hsetting, hconfigured⟩ := h
  apply Fitting.of_configured hs hsetting hpresent
  intro _
  constructor
  · rw [← hrunning]
    apply congrArg (·.2.2.1) hsetting
  · apply hconfigured

/-- Attaching, replacing or detaching a program keeps the invariant. -/
theorem xdpSetup_fitting
    {K : KernelConfig} {prog : Option ℕ} {env : InitEnv} {openEnv : OpenEnv} {s s' : Adapter}
    (h : xdpSetup K prog env openEnv s = some s') (hs : Fitting K s)
    (hpresent : s.presence = .present) (hG : LeavesFitting K s (.xdpSetup prog env openEnv)) :
  Fitting K s'
  := by
  obtain ⟨fits, hcheck, h⟩ := Option.bind_eq_some_iff.mp h
  cases fits with
  | false =>
    cases h
    apply hs
  | true =>
  have hfits : prog.isSome → FitsOneBuffer K s.rxConfig := fun hsome => hG hsome hcheck
  simp only [if_true] at h
  split at h
  · apply reinitQueues_fitting h hs.up hfits hpresent
  · -- the rings stay as they are configured, with another program
    obtain ⟨rx, hrx, h⟩ := Option.bind_eq_some_iff.mp h
    cases h
    constructor
    · apply hs.up
    · intro hup i hi r hr
      simp only [forRings_apply hrx, if_pos hi, Option.map_eq_some_iff] at hr
      obtain ⟨r', hr', rfl⟩ := hr
      apply hs.configured hup i hi r' hr'
    · apply hfits

/-- Resuming the device keeps the invariant. -/
theorem resume_fitting
    {K : KernelConfig} {env : InitEnv} {openEnv : OpenEnv} {s s' : Adapter}
    (h : resume K env openEnv s = some s') (hs : Fitting K s) (hdown : s.down = true) :
  Fitting K s'
  := by
  obtain ⟨⟨s₁, ok⟩, hinit, h⟩ := Option.bind_eq_some_iff.mp h
  obtain ⟨hsetting₁, hdown₁⟩ := initInterruptScheme_setting hinit hdown
  have hs₁ : Fitting K s₁ :=
    hs.of_down hdown₁ (congrArg (·.1) hsetting₁) (congrArg (·.2.1) hsetting₁)
  obtain ⟨⟨s₂, ok₂⟩, hopen, h⟩ := Option.map_eq_some_iff.mp h
  split at hopen
  · rename_i hcond
    rw [Bool.and_eq_true] at hcond
    obtain ⟨hsetting₂, hconfigured⟩ := ixgbevfOpen_configured hopen hdown₁
    have hprog : s₂.xdpProg = s₁.xdpProg := congrArg (·.1) hsetting₂
    have hA : s₂.rxConfig = s₁.rxConfig := congrArg (·.2.1) hsetting₂
    have hrunning : s₂.running = s₁.running := congrArg (·.2.2.1) hsetting₂
    cases ok₂ with
    | true =>
      cases h
      constructor
      · intro _
        exact ⟨hrunning.trans hcond.2, rfl⟩
      · intro hup
        apply (hconfigured hup).2
      · simp only [hprog, hA]
        apply hs₁.fits
    | false =>
      cases h
      apply hs₁.of_down _ hprog hA
      rw [← Bool.not_eq_false]
      intro hup
      cases (hconfigured hup).1
  · cases hopen
    cases ok with
    | true =>
      cases h
      refine hs₁.of_down ?_ rfl rfl
      apply hdown₁
    | false =>
      cases h
      apply hs₁

/-- Reinitialising a present interface for a new Rx configuration keeps the invariant, provided
the new configuration holds a frame when a program is attached. -/
theorem reconfigure_fitting
    {K : KernelConfig} {s s' : Adapter} (A : RxConfig) (hs : Fitting K s)
    (hpresent : s.presence = .present) (hfits : s.xdpProg.isSome → FitsOneBuffer K A)
    (h : (if s.running then reinitLocked K { s with rxConfig := A }
      else some { s with rxConfig := A }) = some s') :
  Fitting K s'
  := by
  split at h
  · rename_i hrunning
    apply Fitting.of_up (s := { s with rxConfig := A }) hfits hrunning hpresent
    apply reinitLocked_configured h
  · rename_i hrunning
    cases h
    have hdown := hs.down fun hand => hrunning hand.1
    constructor
    · apply hs.up
    · intro hup
      rw [hdown] at hup
      cases hup
    · apply hfits

/-- Every event that meets the condition keeps the invariant. -/
theorem step_fitting
    {K : KernelConfig} {s s' : Adapter} {e : Event} (hs : Fitting K s)
    (hG : LeavesFitting K s e) (h : (device K).step s e s') :
  Fitting K s'
  := by
  obtain ⟨hen, h⟩ := h
  cases e with
  | devOpen openEnv =>
    obtain ⟨⟨s₁, ok⟩, hopen, h⟩ := Option.map_eq_some_iff.mp h
    cases h
    have hdown : s.down = true := by
      apply hs.down
      simp [hen.1]
    obtain ⟨hsetting, hconfigured⟩ := ixgbevfOpen_configured hopen hdown
    simp only [Adapter.setting, Prod.mk.injEq] at hsetting
    obtain ⟨hprog, hA, -, hpresence⟩ := hsetting
    constructor
    · intro hup
      exact ⟨(hconfigured hup).1, hpresence.trans hen.2⟩
    · intro hup
      apply (hconfigured hup).2
    · simp only [hprog, hA]
      apply hs.fits
  | devStop =>
    obtain ⟨s₁, hclose, h⟩ := Option.map_eq_some_iff.mp h
    cases h
    obtain ⟨hsetting, hdown⟩ : s₁.setting = s.setting ∧ s₁.down = true := by
      apply closeIfRunning_setting _ hs.up
      unfold closeIfRunning
      rw [if_pos (show s.running = true from hen)]
      apply hclose
    exact hs.of_down hdown (congrArg (·.1) hsetting) (congrArg (·.2.1) hsetting)
  | xdpSetup prog env openEnv => apply xdpSetup_fitting h hs hen hG
  | queueReset env openEnv => apply reinitQueues_fitting h hs.up hs.fits (hs.up hen).2
  | reinit => apply Fitting.of_up hs.fits hen.1 hen.2 (reinitLocked_configured h)
  | setRingparam tx rx => apply Fitting.of_up hs.fits hen.1 hen.2 (setRingparam_configured h)
  | changeMtu mtu =>
    simp only [apply, Queues.changeMtu] at h
    split at h
    · cases h
      apply hs
    · rename_i hnone
      apply reconfigure_fitting _ hs hen _ h
      intro hsome
      contradiction
  | setPrivFlags legacyRx =>
    simp only [apply, Queues.setPrivFlags] at h
    split at h
    · cases h
      apply hs
    · apply reconfigure_fitting _ hs hen hG h
  | diagTest openEnv =>
    obtain ⟨s₁, hclose, hopen⟩ := Option.bind_eq_some_iff.mp h
    obtain ⟨hsetting₁, hdown₁⟩ := closeIfRunning_setting hclose hs.up
    obtain ⟨hsetting₂, hconfigured⟩ := openIfRunning_configured hopen hdown₁
    apply Fitting.of_configured hs.fits (hsetting₂.trans hsetting₁) hen hconfigured
  | suspend =>
    obtain ⟨s₁, hclose, hclear⟩ := Option.bind_eq_some_iff.mp h
    obtain ⟨hsetting₂, hdown₂⟩ := clearInterruptScheme_setting hclear
    split at hclose
    · obtain ⟨hsetting₁, hdown₁⟩ := closeSuspend_setting hclose
      have hsetting := hsetting₂.trans hsetting₁
      apply hs.of_down (hdown₂.trans hdown₁) (congrArg (·.1) hsetting) (congrArg (·.2.1) hsetting)
    · rename_i hrunning
      cases hclose
      have hdown := hs.down fun hand => hrunning hand.1
      apply hs.of_down (hdown₂.trans hdown) (congrArg (·.1) hsetting₂) (congrArg (·.2.1) hsetting₂)
  | resume env openEnv =>
    apply resume_fitting h hs
    apply hs.down
    simp [show s.presence = .suspended from hen]
  | ioErrorDetected =>
    simp only [apply, Queues.ioErrorDetected] at h
    split at h
    · obtain ⟨hsetting, hdown⟩ := closeSuspend_setting h
      apply hs.of_down hdown (congrArg (·.1) hsetting) (congrArg (·.2.1) hsetting)
    · rename_i hrunning
      cases h
      exact hs.of_down (hs.down fun hand => hrunning hand.1) rfl rfl
  | ioResume openEnv =>
    obtain ⟨s₁, hopen, h⟩ := Option.map_eq_some_iff.mp h
    cases h
    have hdown : s.down = true := by
      apply hs.down
      simp [show s.presence = .ioError from hen]
    obtain ⟨hsetting, hconfigured⟩ := openIfRunning_configured hopen hdown
    simp only [Adapter.setting, Prod.mk.injEq] at hsetting
    obtain ⟨hprog, hA, -, -⟩ := hsetting
    constructor
    · intro hup
      exact ⟨(hconfigured hup).1, rfl⟩
    · intro hup
      apply (hconfigured hup).2
    · simp only [hprog, hA]
      apply hs.fits
  | removed =>
    have hs' := ixgbevfDown_some h
    subst hs'
    exact hs.of_down rfl rfl rfl

/-- The device starts with the invariant. -/
theorem init_fitting {K : KernelConfig} {s : Adapter} (h : (device K).init s) :
  Fitting K s
  := by
  obtain ⟨A, env, hinit⟩ := h
  obtain ⟨hsetting, hdown⟩ := initInterruptScheme_setting hinit rfl
  constructor
  · intro hup
    rw [hdown] at hup
    cases hup
  · intro hup
    rw [hdown] at hup
    cases hup
  · rw [show s.xdpProg = none from congrArg (·.1) hsetting]
    intro hsome
    cases hsome

/-- In every run whose events all meet the condition, an attached program finds every frame of
the MTU in a single buffer. -/
theorem reachable_singleBuffer
    {K : KernelConfig} {s : Adapter} (h : (device K).Reachable (LeavesFitting K) s) :
  SingleBuffer K s
  := by
  apply Fitting.singleBuffer
  apply h.invariant
  · intro s hs
    apply init_fitting hs
  · intro s e s' hs hG hstep
    apply step_fitting hs hG hstep

/-! ### Two runs -/

/-- An attached program finds every frame of the default MTU in a single buffer. -/
theorem attached_singleBuffer :
  SingleBuffer Rx.cacheLine64 (attached .api13)
  := by
  apply reachable_singleBuffer
  apply attached_reachable
  · intro s
    trivial
  · intro _ _
    unfold FitsOneBuffer
    decide +kernel

/-- An MTU whose frames fit in a buffer of three kilobytes and not in one of two. -/
def bigMtu : Rx.Mtu where
  val := 2500
  min_le := by decide
  le_max := by decide

/-- The device is opened, set to the big MTU, given a program and then switched to legacy
Rx. -/
def legacyWithProg : List Event :=
  [.devOpen opens, .changeMtu bigMtu, .xdpSetup (some 0) (plenty .api13) opens,
    .setPrivFlags true]

/-- Switching to legacy Rx under a program leaves buffers of two kilobytes for frames that need
three. -/
theorem legacyWithProg_not_singleBuffer :
  ¬ ∀ s, (device Rx.cacheLine64).Reachable TransSystem.always s →
    SingleBuffer Rx.cacheLine64 s
  := by
  intro h
  have hinit : (device Rx.cacheLine64).init (probed .api13) :=
    ⟨Rx.default82599Vf, plenty .api13, probed_init .api13⟩
  have hreach : (device Rx.cacheLine64).Reachable TransSystem.always
      (legacyWithProg.foldl (next Rx.cacheLine64) (probed .api13)) := by
    apply TransSystem.Reachable.foldl (P := Happens Rx.cacheLine64)
    · intro s e he
      exact ⟨trivial, he.step⟩
    · apply TransSystem.Reachable.init hinit
    · decide +kernel
  have hsingle := h _ hreach
  generalize hs : legacyWithProg.foldl (next Rx.cacheLine64) (probed .api13) = s at hsingle
  have hring : (s.rings.rx 0).any fun r =>
      decide (Rx.rxBufsz Rx.cacheLine64 r.flags < Rx.maxFrame s.rxConfig) := by
    rw [← hs]
    decide +kernel
  have hup : s.down = false ∧ s.xdpProg.isSome ∧ 0 < s.numRxQueues := by
    rw [← hs]
    decide +kernel
  obtain ⟨r, hr, hlt⟩ := (Option.any_eq_true _ _).mp hring
  have hle := hsingle hup.1 hup.2.1 0 hup.2.2 r hr
  rw [decide_eq_true_eq] at hlt
  omega

end Ixgbevf.Queues
