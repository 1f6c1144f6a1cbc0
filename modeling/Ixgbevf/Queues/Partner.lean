import Ixgbevf.Queues.Dealing

/-!
# The transmit partner of an XDP-enabled Rx ring

Once the interrupt scheme is set up with Rx ring `i` and XDP ring `i` on the same vector,
everything the driver does until it clears the scheme keeps the rings on their vectors, so
that every Rx ring that can run an XDP program finds the ring it transmits on.
-/

namespace Ixgbevf.Queues

/-! ### What the rings keep between two set-ups -/

/-- What an operation on one ring may change: its resources, and its program to none or to
the adapter's program `prog`. -/
structure RingStep (prog : Option ℕ) (r r' : Ring) : Prop where
  qVector : r'.qVector = r.qVector
  queueIndex : r'.queueIndex = r.queueIndex
  xdpProg : r'.xdpProg.isSome → r.xdpProg.isSome ∨ prog.isSome

/-- The steps that the operations on a ring array take, ring by ring. -/
def RingsStep (prog : Option ℕ) (rings rings' : ℕ → Option Ring) : Prop :=
  ∀ i, Option.Rel (RingStep prog) (rings i) (rings' i)

/-- A ring that stays. -/
theorem RingStep.refl (prog : Option ℕ) (r : Ring) :
  RingStep prog r r
  := by
  constructor
  · rfl
  · rfl
  · apply Or.inl

/-- Rings that stay. -/
theorem RingsStep.refl (prog : Option ℕ) (rings : ℕ → Option Ring) :
  RingsStep prog rings rings
  := by
  intro i
  cases rings i with
  | none => apply Option.Rel.none
  | some r => apply Option.Rel.some (RingStep.refl prog r)

/-- Steps of ring arrays compose. -/
theorem RingsStep.trans
    {prog : Option ℕ} {a b c : ℕ → Option Ring}
    (hab : RingsStep prog a b) (hbc : RingsStep prog b c) :
  RingsStep prog a c
  := by
  intro i
  have h₁ := hab i
  have h₂ := hbc i
  generalize a i = x, b i = y, c i = z at h₁ h₂ ⊢
  cases h₁ with
  | none =>
    cases h₂
    apply Option.Rel.none
  | some h₁ =>
    cases h₂ with
    | some h₂ =>
      apply Option.Rel.some
      constructor
      · rw [h₂.qVector, h₁.qVector]
      · rw [h₂.queueIndex, h₁.queueIndex]
      · intro hsome
        rcases h₂.xdpProg hsome with h | h
        · apply h₁.xdpProg h
        · apply Or.inr h

/-- Updating one ring by a step is a step of the array. -/
theorem RingsStep.update
    {prog : Option ℕ} {rings : ℕ → Option Ring} {i : ℕ} {r r' : Ring}
    (hr : rings i = some r) (h : RingStep prog r r') :
  RingsStep prog rings (Function.update rings i (some r'))
  := by
  intro j
  by_cases hj : j = i
  · subst hj
    rw [Function.update_self, hr]
    apply Option.Rel.some h
  · rw [Function.update_of_ne hj]
    apply RingsStep.refl prog rings j

/-- A loop over the rings takes the step that its body takes. -/
theorem forRings_step
    {prog : Option ℕ} {f : Ring → Ring} (hf : ∀ r, RingStep prog r (f r))
    {n : ℕ} {rings rings' : ℕ → Option Ring} (h : forRings f n rings = some rings') :
  RingsStep prog rings rings'
  := by
  induction n generalizing rings with
  | zero =>
    cases h
    apply RingsStep.refl
  | succ n ih =>
    rw [forRings] at h
    split at h
    · cases h
    · rename_i r hr
      apply (RingsStep.update hr (hf r)).trans (ih h)

/-- A set-up loop takes the step that its body takes, also where it stops early. -/
theorem setupRings_step
    {prog : Option ℕ} {setup : ℕ → Ring → Ring × Bool}
    (hsetup : ∀ i r, RingStep prog r (setup i r).1)
    {n i : ℕ} {rings rings' : ℕ → Option Ring} {failed : Option ℕ}
    (h : setupRings setup n i rings = some (rings', failed)) :
  RingsStep prog rings rings'
  := by
  induction n generalizing i rings with
  | zero =>
    cases h
    apply RingsStep.refl
  | succ n ih =>
    rw [setupRings] at h
    split at h
    · cases h
    · rename_i r hr
      have hone := RingsStep.update hr (hsetup i r)
      simp only at h
      split at h
      · apply hone.trans (ih h)
      · cases h
        apply hone

/-- Setting up a Tx ring is a step of it. -/
theorem setupTxResources_step (prog : Option ℕ) (o : TxSetup) (r : Ring) :
  RingStep prog r (setupTxResources o r).1
  := by
  cases o <;> constructor <;> simp [setupTxResources] <;> tauto

/-- Setting up an Rx ring is a step of it, which hands it the adapter's program. -/
theorem setupRxResources_step (prog : Option ℕ) (o : RxSetup) (r : Ring) :
  RingStep prog r (setupRxResources prog o r).1
  := by
  cases o <;> constructor <;> simp [setupRxResources] <;> tauto

/-- Freeing a Tx ring is a step of it. -/
theorem freeTxResources_step (prog : Option ℕ) (r : Ring) :
  RingStep prog r (freeTxResources r)
  := by
  constructor <;> simp [freeTxResources]
  tauto

/-- Freeing an Rx ring is a step of it, which takes its program away. -/
theorem freeRxResources_step (prog : Option ℕ) (r : Ring) :
  RingStep prog r (freeRxResources r)
  := by
  constructor <;> simp [freeRxResources]

/-- What the operations between two set-ups of the interrupt scheme keep. -/
structure SameScheme (s s' : Adapter) : Prop where
  control : s'.control = s.control
  counts : s'.counts = s.counts
  rx : RingsStep s.xdpProg s.rings.rx s'.rings.rx
  xdp : RingsStep s.xdpProg s.rings.xdp s'.rings.xdp

/-- An adapter that stays. -/
theorem SameScheme.refl (s : Adapter) :
  SameScheme s s
  := by
  refine ⟨rfl, rfl, RingsStep.refl _ _, RingsStep.refl _ _⟩

/-- The program of the adapter stays. -/
theorem SameScheme.xdpProg {s s' : Adapter} (h : SameScheme s s') :
  s'.xdpProg = s.xdpProg
  := by
  apply congrArg (·.1) h.control

/-- Operations between two set-ups compose. -/
theorem SameScheme.trans {s₁ s₂ s₃ : Adapter} (h₁ : SameScheme s₁ s₂) (h₂ : SameScheme s₂ s₃) :
  SameScheme s₁ s₃
  := by
  have hrx := h₂.rx
  have hxdp := h₂.xdp
  rw [h₁.xdpProg] at hrx hxdp
  refine ⟨h₂.control.trans h₁.control, h₂.counts.trans h₁.counts, h₁.rx.trans hrx,
    h₁.xdp.trans hxdp⟩

/-- The pairing depends only on the program, the counts and the rings. -/
theorem Paired.congr
    {s s' : Adapter} (h : Paired s) (hprog : s'.xdpProg = s.xdpProg)
    (hcounts : s'.counts = s.counts) (hrings : s'.rings = s.rings) :
  Paired s'
  := by
  have hrx : s'.numRxQueues = s.numRxQueues := congrArg (·.1) hcounts
  have hxdp : s'.numXdpQueues = s.numXdpQueues := congrArg (·.2.1) hcounts
  constructor
  · rw [hprog, hrx, hxdp]
    apply h.numXdpQueues
  · rw [hprog, hrx, hrings]
    apply h.partnered
  · rw [hprog, hrx, hrings]
    apply h.prog

/-- The rings stay paired. -/
theorem Paired.of_sameScheme {s s' : Adapter} (hp : Paired s) (h : SameScheme s s') :
  Paired s'
  := by
  have hprog := h.xdpProg
  have hrx : s'.numRxQueues = s.numRxQueues := congrArg (·.1) h.counts
  have hxdp : s'.numXdpQueues = s.numXdpQueues := congrArg (·.2.1) h.counts
  constructor
  · rw [hprog, hrx, hxdp]
    apply hp.numXdpQueues
  · rw [hprog, hrx]
    intro hsome i hi
    obtain ⟨r, x, hr, hx, hidx, hvec⟩ := hp.partnered hsome i hi
    have hri := h.rx i
    have hxi := h.xdp i
    rw [hr] at hri
    rw [hx] at hxi
    generalize hr' : s'.rings.rx i = o at hri
    generalize hx' : s'.rings.xdp i = p at hxi
    cases hri with | some hri =>
    cases hxi with | some hxi =>
    exact ⟨_, _, hr', hx', hri.queueIndex.trans hidx,
      by rw [hxi.qVector, hri.qVector, hvec]⟩
  · rw [hprog, hrx]
    intro i hi r' hr' hsome
    have hri := h.rx i
    rw [hr'] at hri
    generalize hr : s.rings.rx i = o at hri
    cases hri with | some hri =>
    rcases hri.xdpProg hsome with h | h
    · apply hp.prog i hi _ hr h
    · apply h

/-- Setting up the Tx and XDP rings, with the rewinding after a failure, keeps the scheme. -/
theorem setupAllTxResources_same
    {txSetup xdpSetup : ℕ → TxSetup} {s s' : Adapter} {ok : Bool}
    (h : setupAllTxResources txSetup xdpSetup s = some (s', ok)) :
  SameScheme s s'
  := by
  obtain ⟨⟨tx, failed⟩, -, h⟩ := Option.bind_eq_some_iff.mp h
  cases failed with
  | some i =>
    obtain ⟨tx', -, h⟩ := Option.bind_eq_some_iff.mp h
    cases h
    refine ⟨rfl, rfl, RingsStep.refl _ _, RingsStep.refl _ _⟩
  | none =>
    obtain ⟨⟨xdp, failed⟩, hxdp, h⟩ := Option.bind_eq_some_iff.mp h
    have hsetup := setupRings_step (fun i r => setupTxResources_step s.xdpProg (xdpSetup i) r) hxdp
    cases failed with
    | some j =>
      obtain ⟨xdp', hfree, h⟩ := Option.bind_eq_some_iff.mp h
      obtain ⟨tx', -, h⟩ := Option.bind_eq_some_iff.mp h
      cases h
      refine ⟨rfl, rfl, RingsStep.refl _ _, ?_⟩
      apply hsetup.trans (forRings_step (freeTxResources_step s.xdpProg) hfree)
    | none =>
      cases h
      refine ⟨rfl, rfl, RingsStep.refl _ _, hsetup⟩

/-- Setting up the Rx rings, with the rewinding after a failure, keeps the scheme. -/
theorem setupAllRxResources_same
    {rxSetup : ℕ → RxSetup} {s s' : Adapter} {ok : Bool}
    (h : setupAllRxResources rxSetup s = some (s', ok)) :
  SameScheme s s'
  := by
  obtain ⟨⟨rx, failed⟩, hrx, h⟩ := Option.bind_eq_some_iff.mp h
  have hsetup := setupRings_step (fun i r => setupRxResources_step s.xdpProg (rxSetup i) r) hrx
  cases failed with
  | some i =>
    obtain ⟨rx', hfree, h⟩ := Option.bind_eq_some_iff.mp h
    cases h
    refine ⟨rfl, rfl, ?_, RingsStep.refl _ _⟩
    apply hsetup.trans (forRings_step (freeRxResources_step s.xdpProg) hfree)
  | none =>
    cases h
    refine ⟨rfl, rfl, hsetup, RingsStep.refl _ _⟩

/-- Freeing the Tx and XDP rings keeps the scheme. -/
theorem freeAllTxResources_same {s s' : Adapter} (h : freeAllTxResources s = some s') :
  SameScheme s s'
  := by
  obtain ⟨tx, -, h⟩ := Option.bind_eq_some_iff.mp h
  obtain ⟨xdp, hxdp, h⟩ := Option.bind_eq_some_iff.mp h
  cases h
  refine ⟨rfl, rfl, RingsStep.refl _ _, forRings_step ?_ hxdp⟩
  intro r
  split
  · apply freeTxResources_step
  · apply RingStep.refl

/-- Freeing the Rx rings keeps the scheme. -/
theorem freeAllRxResources_same {s s' : Adapter} (h : freeAllRxResources s = some s') :
  SameScheme s s'
  := by
  obtain ⟨rx, hrx, h⟩ := Option.bind_eq_some_iff.mp h
  cases h
  refine ⟨rfl, rfl, forRings_step ?_ hrx, RingsStep.refl _ _⟩
  intro r
  split
  · apply freeRxResources_step
  · apply RingStep.refl

/-- Every XDP ring in use has its descriptors. -/
def XdpReady (s : Adapter) : Prop :=
  ∀ i < s.numXdpQueues, ∃ x, s.rings.xdp i = some x ∧ x.desc = true

/-- Configuring the rings keeps the scheme, and requires the XDP rings to have their
descriptors. -/
theorem configure_same {K : KernelConfig} {s s' : Adapter} (h : configure K s = some s') :
  SameScheme s s' ∧ XdpReady s'
  := by
  unfold configure at h
  simp only at h
  split at h
  · rename_i hconf
    obtain ⟨rx, hrx, h⟩ := Option.bind_eq_some_iff.mp h
    cases h
    constructor
    · refine ⟨rfl, rfl, forRings_step ?_ hrx, RingsStep.refl _ _⟩
      intro r
      refine ⟨rfl, rfl, Or.inl⟩
    · intro i hi
      simp only [configurable, Bool.and_eq_true, List.all_eq_true, List.mem_range] at hconf
      obtain ⟨x, hx, hinfo⟩ := (Option.any_eq_true _ _).mp (hconf.1.2 i hi)
      use x
      constructor
      · apply hx
      · apply x.desc_of_bufferInfo hinfo
  · cases h

/-! ### Opening and closing -/

/-- What holds of an interface that is down. -/
structure Idle (s : Adapter) : Prop where
  down : s.down = true
  paired : s.msixEntries = true → Paired s

/-- What holds of an interface once it has been opened or brought up: where it is up, its
interrupts are set up and its XDP rings have their descriptors. -/
structure Opened (s : Adapter) : Prop where
  paired : s.msixEntries = true → Paired s
  up : s.down = false → s.msixEntries = true ∧ XdpReady s

/-- Whether the interface counts as opened does not depend on who runs it. -/
theorem Opened.congr
    {s : Adapter} (h : Opened s) (running : Bool) (presence : Presence) :
  Opened { s with running := running, presence := presence }
  := by
  constructor
  · intro hmsix
    exact (h.paired hmsix).congr rfl rfl rfl
  · apply h.up

/-- Whether the interface counts as opened does not depend on its Rx configuration. -/
theorem Opened.reconfigure
    {s : Adapter} (h : Opened s) (A : Rx.RxConfig) :
  Opened { s with rxConfig := A }
  := by
  constructor
  · intro hmsix
    exact (h.paired hmsix).congr rfl rfl rfl
  · apply h.up

/-- An interface that is down counts as opened. -/
theorem Idle.opened {s : Adapter} (h : Idle s) :
  Opened s
  := by
  constructor
  · apply h.paired
  · intro hup
    rw [h.down] at hup
    cases hup

/-- Operations on the rings leave an idle interface idle. -/
theorem Idle.of_sameScheme {s s' : Adapter} (h : Idle s) (hs : SameScheme s s') :
  Idle s'
  := by
  have hdown : s'.down = s.down := congrArg (·.2.2.2) hs.control
  have hmsix : s'.msixEntries = s.msixEntries := congrArg (·.2.2) hs.counts
  constructor
  · rw [hdown, h.down]
  · intro hm
    rw [hmsix] at hm
    apply (h.paired hm).of_sameScheme hs

/-- The part of the control state that opening and closing keep. -/
def Adapter.owner (s : Adapter) : Option ℕ × Bool × Presence := (s.xdpProg, s.running, s.presence)

/-- Operations on the rings keep the owner. -/
theorem SameScheme.owner {s s' : Adapter} (h : SameScheme s s') :
  s'.owner = s.owner
  := by
  have hc := h.control
  simp only [Adapter.control, Prod.mk.injEq] at hc
  simp only [Adapter.owner, Prod.mk.injEq]
  exact ⟨hc.1, hc.2.1, hc.2.2.1⟩

/-- A failing `request_irq` takes the vectors away, and neither outcome touches the rings. -/
theorem requestIrq_same
    {fails ok : Bool} {s s' : Adapter} (h : requestIrq fails s = some (s', ok)) :
  SameScheme s s' ∧ s.msixEntries = true ∧ s'.rings = s.rings
  := by
  unfold requestIrq at h
  split at h
  · rename_i hmsix
    rw [Bool.and_eq_true] at hmsix
    split at h <;> cases h <;>
      refine ⟨⟨rfl, rfl, RingsStep.refl _ _, RingsStep.refl _ _⟩, hmsix.1, rfl⟩
  · cases h

/-- The error exit of `ixgbevf_open` keeps the scheme. -/
theorem openFailed_same {s s' : Adapter} {ok : Bool} (h : openFailed s = some (s', ok)) :
  SameScheme s s'
  := by
  obtain ⟨s₁, h₁, h₂⟩ := Option.map_eq_some_iff.mp h
  obtain ⟨s₂, hrx, htx⟩ := Option.bind_eq_some_iff.mp h₁
  cases h₂
  apply (freeAllRxResources_same hrx).trans (freeAllTxResources_same htx)

/-- Bringing an interface up that is configured and has its interrupts. -/
theorem upComplete_opened
    {s s' : Adapter} (h : upComplete s = some s') (hpaired : Paired s)
    (hmsix : s.msixEntries = true) (hready : XdpReady s) :
  Opened s' ∧ s'.owner = s.owner
  := by
  unfold upComplete at h
  split at h
  · cases h
    refine ⟨⟨fun _ => hpaired.congr rfl rfl rfl, fun _ => ⟨hmsix, hready⟩⟩, rfl⟩
  · cases h

/-- Opening an idle interface brings it up only where it succeeds. -/
theorem ixgbevfOpen_opened
    {K : KernelConfig} {env : OpenEnv} {s s' : Adapter} {ok : Bool}
    (h : ixgbevfOpen K env s = some (s', ok)) (hs : Idle s) :
  Opened s' ∧ s'.owner = s.owner ∧ (s'.down = false → ok = true)
  := by
  have hsame {s' : Adapter} (hss : SameScheme s s') :
      Opened s' ∧ s'.owner = s.owner ∧ (s'.down = false → ok = true) := by
    have hidle := hs.of_sameScheme hss
    refine ⟨hidle.opened, hss.owner, fun hup => ?_⟩
    rw [hidle.down] at hup
    cases hup
  unfold ixgbevfOpen at h
  split at h
  · cases h
    apply hsame (SameScheme.refl s)
  obtain ⟨⟨s₁, ok₁⟩, h₁, h⟩ := Option.bind_eq_some_iff.mp h
  have hs₁ := setupAllTxResources_same h₁
  cases ok₁ with
  | false =>
    cases h
    apply hsame hs₁
  | true =>
  obtain ⟨⟨s₂, ok₂⟩, h₂, h⟩ := Option.bind_eq_some_iff.mp h
  have hs₂ := hs₁.trans (setupAllRxResources_same h₂)
  cases ok₂ with
  | false =>
    obtain ⟨s₃, h₃, h⟩ := Option.bind_eq_some_iff.mp h
    cases h
    apply hsame (hs₂.trans (freeAllTxResources_same h₃))
  | true =>
  obtain ⟨s₃, h₃, h⟩ := Option.bind_eq_some_iff.mp h
  obtain ⟨hconf, hready⟩ := configure_same h₃
  obtain ⟨⟨s₄, ok₄⟩, h₄, h⟩ := Option.bind_eq_some_iff.mp h
  obtain ⟨hirq, hmsix, hrings⟩ := requestIrq_same h₄
  have hs₄ := (hs₂.trans hconf).trans hirq
  cases ok₄ with
  | false => apply hsame (hs₄.trans (openFailed_same h))
  | true =>
  cases hset : env.setQueuesFails with
  | true =>
    simp only [hset] at h
    apply hsame (hs₄.trans (openFailed_same h))
  | false =>
  simp only [hset] at h
  obtain ⟨s₅, h₅, h⟩ := Option.bind_eq_some_iff.mp h
  cases h
  have hmsix₄ : s₄.msixEntries = true := (congrArg (·.2.2) hirq.counts).trans hmsix
  have hxdp : s₄.numXdpQueues = s₃.numXdpQueues := congrArg (·.2.1) hirq.counts
  have hidle := hs.of_sameScheme hs₄
  have hready₄ : XdpReady s₄ := by
    unfold XdpReady
    rw [hxdp, hrings]
    apply hready
  obtain ⟨hopened, howner⟩ := upComplete_opened h₅ (hidle.paired hmsix₄) hmsix₄ hready₄
  refine ⟨hopened, ?_, fun _ => rfl⟩
  rw [howner, hs₄.owner]

/-- Taking the interface down changes nothing else. -/
theorem ixgbevfDown_some {s s' : Adapter} (h : ixgbevfDown s = some s') :
  s' = { s with down := true }
  := by
  unfold ixgbevfDown at h
  split at h
  · rename_i hdown
    cases h
    rw [← hdown]
  split at h
  · obtain ⟨_, -, h⟩ := Option.bind_eq_some_iff.mp h
    obtain ⟨_, -, h⟩ := Option.bind_eq_some_iff.mp h
    obtain ⟨_, -, h⟩ := Option.bind_eq_some_iff.mp h
    cases h
    rfl
  · cases h

/-- Taking the interface down makes it idle. -/
theorem Idle.of_down {s : Adapter} (h : s.msixEntries = true → Paired s) :
  Idle { s with down := true }
  := by
  constructor
  · rfl
  · intro hmsix
    exact (h hmsix).congr rfl rfl rfl

/-- Closing or suspending the interface takes it down and frees its rings. -/
theorem closeSuspend_same {s s' : Adapter} (h : closeSuspend s = some s') :
  SameScheme { s with down := true } s'
  := by
  obtain ⟨s₂, h, hrx⟩ := Option.bind_eq_some_iff.mp h
  obtain ⟨s₁, hdown, htx⟩ := Option.bind_eq_some_iff.mp h
  rw [ixgbevfDown_some hdown] at htx
  apply (freeAllTxResources_same htx).trans (freeAllRxResources_same hrx)

/-- Bringing an idle interface up. -/
theorem up_opened
    {K : KernelConfig} {s s' : Adapter} (h : up K s = some s') (hs : Idle s)
    (hmsix : s.msixEntries = true) :
  Opened s' ∧ s'.owner = s.owner
  := by
  obtain ⟨s₁, hconf, hup⟩ := Option.bind_eq_some_iff.mp h
  obtain ⟨hsame, hready⟩ := configure_same hconf
  have hmsix₁ : s₁.msixEntries = true := (congrArg (·.2.2) hsame.counts).trans hmsix
  have hidle := hs.of_sameScheme hsame
  obtain ⟨hopened, howner⟩ := upComplete_opened hup (hidle.paired hmsix₁) hmsix₁ hready
  constructor
  · apply hopened
  · rw [howner, hsame.owner]

/-- Reinitialising an interface whose interrupts are set up. -/
theorem reinitLocked_opened
    {K : KernelConfig} {s s' : Adapter} (h : reinitLocked K s = some s') (hs : Opened s)
    (hmsix : s.msixEntries = true) :
  Opened s' ∧ s'.owner = s.owner
  := by
  obtain ⟨s₁, hdown, hup⟩ := Option.bind_eq_some_iff.mp h
  rw [ixgbevfDown_some hdown] at hup
  apply up_opened hup (Idle.of_down hs.paired) hmsix

/-- Swapping the rings of an interface whose interrupts are set up. -/
theorem setRingparam_opened
    {K : KernelConfig} {tx rx : Bool} {s s' : Adapter} (h : setRingparam K tx rx s = some s')
    (hs : Opened s) (hmsix : s.msixEntries = true) :
  Opened s' ∧ s'.owner = s.owner
  := by
  obtain ⟨s₁, hdown, h⟩ := Option.bind_eq_some_iff.mp h
  rw [ixgbevfDown_some hdown] at h
  obtain ⟨txRings, htx, h⟩ := Option.bind_eq_some_iff.mp h
  obtain ⟨xdpRings, hxdp, h⟩ := Option.bind_eq_some_iff.mp h
  obtain ⟨rxRings, hrx, h⟩ := Option.bind_eq_some_iff.mp h
  have hsame : SameScheme { s with down := true } { s with
      down := true, rings := { tx := txRings, xdp := xdpRings, rx := rxRings } } := by
    refine ⟨rfl, rfl, forRings_step ?_ hrx, forRings_step ?_ hxdp⟩
    · intro r
      split
      · apply setupRxResources_step
      · apply RingStep.refl
    · intro r
      split
      · apply setupTxResources_step
      · apply RingStep.refl
  obtain ⟨hopened, howner⟩ := up_opened h ((Idle.of_down hs.paired).of_sameScheme hsame) hmsix
  constructor
  · apply hopened
  · apply howner

/-- Clearing the interrupt scheme. -/
theorem clearInterruptScheme_some {s s' : Adapter} (h : clearInterruptScheme s = some s') :
  s'.control = s.control ∧ s'.msixEntries = false
  := by
  obtain ⟨s₁, hfree, h⟩ := Option.map_eq_some_iff.mp h
  cases h
  constructor
  · apply (freeQVectorsBelow_control hfree).1
  · rfl

/-! ### The invariant of a run -/

/-- What holds of the device in every state of a run. -/
structure Inv (s : Adapter) : Prop where
  opened : Opened s
  up : s.down = false → s.running = true ∧ s.presence = .present

/-- Closing the interface where it runs leaves it down. -/
theorem closeIfRunning_down
    {s s' : Adapter} (h : closeIfRunning s = some s')
    (hup : s.down = false → s.running = true ∧ s.presence = .present) :
  s'.down = true ∧ s'.owner = s.owner
  := by
  have hstay (hno : ¬ (s.running = true ∧ s.presence = .present)) : s.down = true := by
    rw [← Bool.not_eq_false]
    exact fun hd => hno (hup hd)
  unfold closeIfRunning ixgbevfClose at h
  split at h
  · split at h
    · have hsame := closeSuspend_same h
      constructor
      · apply congrArg (·.2.2.2) hsame.control
      · rw [hsame.owner]
        rfl
    · rename_i hpresent
      cases h
      exact ⟨hstay fun hand => hpresent hand.2, rfl⟩
  · rename_i hrunning
    cases h
    exact ⟨hstay fun hand => hrunning hand.1, rfl⟩

/-- Opening an idle interface again where it runs. -/
theorem openIfRunning_opened
    {K : KernelConfig} {env : OpenEnv} {s s' : Adapter} (h : openIfRunning K env s = some s')
    (hs : Idle s) :
  Opened s' ∧ s'.owner = s.owner ∧ (s'.down = false → s'.running = true)
  := by
  unfold openIfRunning at h
  split at h
  · rename_i hrunning
    obtain ⟨⟨s₁, ok⟩, hopen, h⟩ := Option.map_eq_some_iff.mp h
    cases h
    obtain ⟨hopened, howner, -⟩ := ixgbevfOpen_opened hopen hs
    refine ⟨hopened, howner, fun _ => ?_⟩
    have : s₁.running = s.running := congrArg (·.2.1) howner
    rw [this, hrunning]
  · cases h
    refine ⟨hs.opened, rfl, fun hup => ?_⟩
    rw [hs.down] at hup
    cases hup

/-- Reinitialising queues and interrupts pairs the rings, provided the PF grants XDP queues
when a program is attached. -/
theorem reinitQueues_opened
    {K : KernelConfig} {env : InitEnv} {openEnv : OpenEnv} {s s' : Adapter}
    (h : reinitQueues K env openEnv s = some s')
    (hup : s.down = false → s.running = true ∧ s.presence = .present)
    (hgrants : s.xdpProg.isSome → env.GrantsXdp) :
  Opened s' ∧ s'.owner = s.owner ∧ (s'.down = false → s'.running = true)
  := by
  obtain ⟨s₁, hclose, h⟩ := Option.bind_eq_some_iff.mp h
  obtain ⟨hdown₁, howner₁⟩ := closeIfRunning_down hclose hup
  obtain ⟨s₂, hclear, h⟩ := Option.bind_eq_some_iff.mp h
  obtain ⟨hcontrol₂, -⟩ := clearInterruptScheme_some hclear
  obtain ⟨⟨s₃, ok⟩, hinit, h⟩ := Option.bind_eq_some_iff.mp h
  have hdown₂ : s₂.down = true := (congrArg (·.2.2.2) hcontrol₂).trans hdown₁
  have hprog₂ : s₂.xdpProg = s.xdpProg :=
    (congrArg (·.1) hcontrol₂).trans (congrArg (·.1) howner₁)
  rw [← hprog₂] at hgrants
  obtain ⟨hcontrol₃, hpaired₃⟩ := initInterruptScheme_paired hinit hdown₂ hgrants
  have hcontrol := hcontrol₃.trans hcontrol₂
  have howner₃ : s₃.owner = s₁.owner := by
    simp only [Adapter.control, Prod.mk.injEq] at hcontrol
    simp only [Adapter.owner, Prod.mk.injEq]
    exact ⟨hcontrol.1, hcontrol.2.1, hcontrol.2.2.1⟩
  have hidle : Idle s₃ := ⟨(congrArg (·.2.2.2) hcontrol).trans hdown₁, hpaired₃⟩
  obtain ⟨hopened, howner, hrunning⟩ := openIfRunning_opened h hidle
  exact ⟨hopened, by rw [howner, howner₃, howner₁], hrunning⟩

/-- The condition on an event: where it sets the interrupt scheme up with a program attached,
the PF grants XDP queues, and where it brings a running interface up without setting the
scheme up, the scheme is set up. -/
def Granted (s : Adapter) : Event → Prop
  | .xdpSetup prog env _ => prog.isSome → s.xdpProg = none → env.GrantsXdp
  | .queueReset env _ => s.xdpProg.isSome → env.GrantsXdp
  | .resume env _ => s.xdpProg.isSome → env.GrantsXdp
  | .reinit | .setRingparam _ _ | .changeMtu _ | .setPrivFlags _ =>
    s.running = true → s.msixEntries = true
  | _ => True

/-- An interface that is not running, or not present, is down and idle. -/
theorem Inv.idle
    {s : Adapter} (h : Inv s) (hno : ¬ (s.running = true ∧ s.presence = .present)) :
  Idle s
  := by
  constructor
  · rw [← Bool.not_eq_false]
    exact fun hd => hno (h.up hd)
  · apply h.opened.paired

/-- Bringing up a running and present interface keeps the invariant. -/
theorem Inv.of_opened
    {s s' : Adapter} (h : Opened s' ∧ s'.owner = s.owner) (hrunning : s.running = true)
    (hpresent : s.presence = .present) :
  Inv s'
  := by
  obtain ⟨hopened, howner⟩ := h
  refine ⟨hopened, fun _ => ⟨?_, ?_⟩⟩
  · rw [← hrunning]
    apply congrArg (·.2.1) howner
  · rw [← hpresent]
    apply congrArg (·.2.2) howner

/-- Reinitialising the queues of a present device keeps the invariant. -/
theorem reinitQueues_inv
    {K : KernelConfig} {env : InitEnv} {openEnv : OpenEnv} {s s' : Adapter}
    (h : reinitQueues K env openEnv s = some s')
    (hup : s.down = false → s.running = true ∧ s.presence = .present)
    (hpresent : s.presence = .present) (hgrants : s.xdpProg.isSome → env.GrantsXdp) :
  Inv s'
  := by
  obtain ⟨hopened, howner, hrunning⟩ := reinitQueues_opened h hup hgrants
  refine ⟨hopened, fun hd => ⟨hrunning hd, ?_⟩⟩
  rw [← hpresent]
  apply congrArg (·.2.2) howner

/-- Attaching, replacing or detaching a program keeps the invariant. -/
theorem xdpSetup_inv
    {K : KernelConfig} {prog : Option ℕ} {env : InitEnv} {openEnv : OpenEnv} {s s' : Adapter}
    (h : xdpSetup K prog env openEnv s = some s') (hs : Inv s) (hpresent : s.presence = .present)
    (hgrants : prog.isSome → s.xdpProg = none → env.GrantsXdp) :
  Inv s'
  := by
  obtain ⟨fits, -, h⟩ := Option.bind_eq_some_iff.mp h
  cases fits with
  | false =>
    cases h
    apply hs
  | true =>
  simp only [if_true] at h
  split at h
  · rename_i hne
    apply reinitQueues_inv h hs.up hpresent
    intro hsome
    apply hgrants hsome
    cases hold : s.xdpProg with
    | none => rfl
    | some old =>
      rw [hold] at hne
      exact absurd hsome hne
  · -- the program is replaced on the rings, which stay where they are
    rename_i heq
    rw [ne_eq, not_not] at heq
    obtain ⟨rx, hrx, h⟩ := Option.bind_eq_some_iff.mp h
    cases h
    have hstep : RingsStep prog s.rings.rx rx := by
      apply forRings_step _ hrx
      intro r
      refine ⟨rfl, rfl, Or.inr⟩
    constructor
    · constructor
      · intro hmsix
        have hp := hs.opened.paired hmsix
        have hreplaced : Paired { s with xdpProg := prog } := by
          constructor
          · intro hsome
            apply hp.numXdpQueues (heq ▸ hsome)
          · intro hsome
            apply hp.partnered (heq ▸ hsome)
          · intro i hi r hr hsome
            simp only
            rw [heq]
            apply hp.prog i hi r hr hsome
        apply hreplaced.of_sameScheme
        refine ⟨rfl, rfl, hstep, RingsStep.refl _ _⟩
      · apply hs.opened.up
    · apply hs.up

/-- Resuming the device keeps the invariant. -/
theorem resume_inv
    {K : KernelConfig} {env : InitEnv} {openEnv : OpenEnv} {s s' : Adapter}
    (h : resume K env openEnv s = some s') (hs : Idle s)
    (hgrants : s.xdpProg.isSome → env.GrantsXdp) :
  Inv s'
  := by
  obtain ⟨⟨s₁, ok⟩, hinit, h⟩ := Option.bind_eq_some_iff.mp h
  obtain ⟨hcontrol, hpaired⟩ := initInterruptScheme_paired hinit hs.down hgrants
  have hidle : Idle s₁ := ⟨(congrArg (·.2.2.2) hcontrol).trans hs.down, hpaired⟩
  have hstay {s' : Adapter} (hd : s'.down = true) (ho : Opened s') : Inv s' := by
    refine ⟨ho, fun hup => ?_⟩
    rw [hd] at hup
    cases hup
  obtain ⟨⟨s₂, ok₂⟩, hopen, h⟩ := Option.map_eq_some_iff.mp h
  split at hopen
  · rename_i hcond
    rw [Bool.and_eq_true] at hcond
    obtain ⟨hopened, howner, hup⟩ := ixgbevfOpen_opened hopen hidle
    have hrunning : s₂.running = true := (congrArg (·.2.1) howner).trans hcond.2
    cases ok₂ with
    | true =>
      cases h
      refine ⟨hopened.congr s₂.running .present, fun _ => ⟨hrunning, rfl⟩⟩
    | false =>
      cases h
      apply hstay _ hopened
      rw [← Bool.not_eq_false]
      exact fun hd => absurd (hup hd) (by simp)
  · cases hopen
    cases ok with
    | true =>
      cases h
      apply hstay _ (hidle.opened.congr s₁.running .present)
      exact hidle.down
    | false =>
      cases h
      apply hstay hidle.down hidle.opened

/-- Suspending the device keeps the invariant. -/
theorem suspend_inv {s s' : Adapter} (h : suspend s = some s') (hs : Inv s) :
  Inv s'
  := by
  obtain ⟨s₁, hclose, hclear⟩ := Option.bind_eq_some_iff.mp h
  obtain ⟨hcontrol, hmsix⟩ := clearInterruptScheme_some hclear
  have hdown : s₁.down = true := by
    split at hclose
    · apply congrArg (·.2.2.2) (closeSuspend_same hclose).control
    · rename_i hrunning
      cases hclose
      apply (hs.idle fun hand => hrunning hand.1).down
  have hidle : Idle s' := by
    constructor
    · apply (congrArg (·.2.2.2) hcontrol).trans hdown
    · rw [hmsix]
      intro hm
      cases hm
  refine ⟨hidle.opened, fun hup => ?_⟩
  rw [hidle.down] at hup
  cases hup

/-- An I/O error keeps the invariant. -/
theorem ioErrorDetected_inv {s s' : Adapter} (h : ioErrorDetected s = some s') (hs : Inv s) :
  Inv s'
  := by
  have hidle : Idle s' := by
    unfold ioErrorDetected at h
    simp only at h
    split at h
    · apply Idle.of_sameScheme _ (closeSuspend_same h)
      apply Idle.of_down (hs.opened.congr s.running .ioError).paired
    · rename_i hrunning
      cases h
      have hidle := hs.idle fun hand => hrunning hand.1
      refine ⟨hidle.down, (hs.opened.congr s.running .ioError).paired⟩
  refine ⟨hidle.opened, fun hup => ?_⟩
  rw [hidle.down] at hup
  cases hup

/-- Resuming after an I/O error keeps the invariant. -/
theorem ioResume_inv
    {K : KernelConfig} {openEnv : OpenEnv} {s s' : Adapter}
    (h : ioResume K openEnv s = some s') (hs : Idle s) :
  Inv s'
  := by
  obtain ⟨s₁, hopen, h⟩ := Option.map_eq_some_iff.mp h
  cases h
  obtain ⟨hopened, -, hrunning⟩ := openIfRunning_opened hopen hs
  refine ⟨hopened.congr s₁.running .present, fun hup => ⟨hrunning hup, rfl⟩⟩

/-- Opening the interface keeps the invariant. -/
theorem devOpen_inv
    {K : KernelConfig} {openEnv : OpenEnv} {s s' : Adapter} (h : devOpen K openEnv s = some s')
    (hs : Idle s) (hpresent : s.presence = .present) :
  Inv s'
  := by
  obtain ⟨⟨s₁, ok⟩, hopen, h⟩ := Option.map_eq_some_iff.mp h
  cases h
  have hidle : Idle { s with running := true } := by
    constructor
    · apply hs.down
    · intro hmsix
      exact (hs.paired hmsix).congr rfl rfl rfl
  obtain ⟨hopened, howner, hup⟩ := ixgbevfOpen_opened hopen hidle
  refine ⟨hopened.congr ok s₁.presence, fun hd => ⟨hup hd, ?_⟩⟩
  rw [← hpresent]
  apply congrArg (·.2.2) howner

/-- Stopping the interface keeps the invariant. -/
theorem devStop_inv {s s' : Adapter} (h : devStop s = some s') (hs : Inv s) :
  Inv s'
  := by
  obtain ⟨s₁, hclose, h⟩ := Option.map_eq_some_iff.mp h
  cases h
  have hidle : Idle s₁ := by
    unfold ixgbevfClose at hclose
    split at hclose
    · apply (Idle.of_down hs.opened.paired).of_sameScheme (closeSuspend_same hclose)
    · rename_i hpresent
      cases hclose
      apply hs.idle fun hand => hpresent hand.2
  refine ⟨hidle.opened.congr false s₁.presence, fun hup => ?_⟩
  rw [show s₁.down = true from hidle.down] at hup
  cases hup

/-- Closing the interface where it runs leaves it idle. -/
theorem closeIfRunning_idle {s s' : Adapter} (h : closeIfRunning s = some s') (hs : Inv s) :
  Idle s'
  := by
  unfold closeIfRunning ixgbevfClose at h
  split at h
  · split at h
    · apply (Idle.of_down hs.opened.paired).of_sameScheme (closeSuspend_same h)
    · rename_i hpresent
      cases h
      apply hs.idle fun hand => hpresent hand.2
  · rename_i hrunning
    cases h
    apply hs.idle fun hand => hrunning hand.1

/-- Reinitialising a present interface for a new Rx configuration keeps the invariant. -/
theorem reconfigure_inv
    {K : KernelConfig} {s s' : Adapter} (A : Rx.RxConfig) (hs : Inv s)
    (hpresent : s.presence = .present) (hmsix : s.running = true → s.msixEntries = true)
    (h : (if s.running then reinitLocked K { s with rxConfig := A }
      else some { s with rxConfig := A }) = some s') :
  Inv s'
  := by
  have hopened := hs.opened.reconfigure A
  split at h
  · rename_i hrunning
    obtain ⟨hopened', howner⟩ := reinitLocked_opened h hopened (hmsix hrunning)
    exact Inv.of_opened ⟨hopened', howner⟩ hrunning hpresent
  · cases h
    refine ⟨hopened, hs.up⟩

/-- Every event that meets the condition keeps the invariant. -/
theorem step_inv
    {K : KernelConfig} {s s' : Adapter} {e : Event} (hs : Inv s) (hG : Granted s e)
    (h : (device K).step s e s') :
  Inv s'
  := by
  obtain ⟨hen, h⟩ := h
  cases e with
  | devOpen openEnv =>
    apply devOpen_inv h (hs.idle _) hen.2
    rw [hen.1]
    simp
  | devStop => apply devStop_inv h hs
  | xdpSetup prog env openEnv => apply xdpSetup_inv h hs hen hG
  | queueReset env openEnv => apply reinitQueues_inv h hs.up (hs.up hen).2 hG
  | reinit =>
    apply Inv.of_opened (reinitLocked_opened h hs.opened (hG hen.1)) hen.1 hen.2
  | setRingparam tx rx =>
    apply Inv.of_opened (setRingparam_opened h hs.opened (hG hen.1)) hen.1 hen.2
  | changeMtu mtu =>
    simp only [apply, Queues.changeMtu] at h
    split at h
    · cases h
      apply hs
    · apply reconfigure_inv _ hs hen hG h
  | setPrivFlags legacyRx =>
    simp only [apply, Queues.setPrivFlags] at h
    split at h
    · cases h
      apply hs
    · apply reconfigure_inv _ hs hen hG h
  | diagTest openEnv =>
    obtain ⟨s₁, hclose, hopen⟩ := Option.bind_eq_some_iff.mp h
    have howner₁ := (closeIfRunning_down hclose hs.up).2
    obtain ⟨hopened, howner, hrunning⟩ :=
      openIfRunning_opened hopen (closeIfRunning_idle hclose hs)
    refine ⟨hopened, fun hup => ⟨hrunning hup, ?_⟩⟩
    rw [← show s.presence = .present from hen]
    apply congrArg (·.2.2) (howner.trans howner₁)
  | suspend => apply suspend_inv h hs
  | resume env openEnv =>
    apply resume_inv h (hs.idle _) hG
    rw [show s.presence = .suspended from hen]
    simp
  | ioErrorDetected => apply ioErrorDetected_inv h hs
  | ioResume openEnv =>
    apply ioResume_inv h (hs.idle _)
    rw [show s.presence = .ioError from hen]
    simp
  | removed =>
    have hidle := Idle.of_down hs.opened.paired
    rw [← ixgbevfDown_some h] at hidle
    refine ⟨hidle.opened, fun hup => ?_⟩
    rw [hidle.down] at hup
    cases hup

/-- The device starts with the invariant. -/
theorem init_inv {K : KernelConfig} {s : Adapter} (h : (device K).init s) :
  Inv s
  := by
  obtain ⟨A, env, hinit⟩ := h
  obtain ⟨hcontrol, hpaired⟩ := initInterruptScheme_paired hinit rfl (by simp [blank])
  have hidle : Idle s := ⟨congrArg (·.2.2.2) hcontrol, hpaired⟩
  refine ⟨hidle.opened, fun hup => ?_⟩
  rw [hidle.down] at hup
  cases hup

/-- Every active Rx ring with a program has its transmit partner: the XDP ring that
`ixgbevf_run_xdp` looks up is there, has its descriptors and is served by the same vector. -/
def XdpPartner (s : Adapter) : Prop :=
  s.down = false → ∀ i < s.numRxQueues, ∀ r, s.rings.rx i = some r → r.xdpProg.isSome →
    ∃ x, s.rings.xdp r.queueIndex = some x ∧ x.desc = true ∧ x.qVector = r.qVector

/-- The invariant gives every active Rx ring with a program its partner. -/
theorem Inv.xdpPartner {s : Adapter} (h : Inv s) :
  XdpPartner s
  := by
  intro hup i hi r hr hsome
  obtain ⟨hmsix, hready⟩ := h.opened.up hup
  have hp := h.opened.paired hmsix
  have hprog := hp.prog i hi r hr hsome
  obtain ⟨r', x, hr', hx, hidx, hvec⟩ := hp.partnered hprog i hi
  have hrr : r' = r := by
    rw [hr', Option.some.injEq] at hr
    exact hr
  subst hrr
  obtain ⟨x', hx', hdesc⟩ := hready i (by rw [hp.numXdpQueues hprog]; exact hi)
  have hxx : x' = x := by
    rw [hx, Option.some.injEq] at hx'
    exact hx'.symm
  subst hxx
  refine ⟨x', ?_, hdesc, hvec⟩
  rw [hidx, hx]

/-- In every run whose events all meet the condition, every Rx ring that can run an XDP
program has its transmit partner. -/
theorem reachable_xdpPartner
    {K : KernelConfig} {s : Adapter} (h : (device K).Reachable Granted s) :
  XdpPartner s
  := by
  apply Inv.xdpPartner
  apply h.invariant
  · intro s hs
    apply init_inv hs
  · intro s e s' hs hG hstep
    apply step_inv hs hG hstep

/-! ### Two runs -/

/-- An opening of the interface in which nothing fails. -/
def opens : OpenEnv where
  stopped := false
  testing := false
  txSetup _ := .ok
  xdpSetup _ := .ok
  rxSetup _ := .ok
  irqFails := false
  setQueuesFails := false

/-- The device after its probe and the opening of the interface. -/
def opened (apiVersion : ApiVersion) : Adapter :=
  let s := probed apiVersion
  (apply Rx.cacheLine64 s (.devOpen opens)).getD s

/-- The device after its probe, the opening of the interface and the attaching of a program. -/
def attached (apiVersion : ApiVersion) : Adapter :=
  let s := opened apiVersion
  (apply Rx.cacheLine64 s (.xdpSetup (some 0) (plenty apiVersion) opens)).getD s

/-- A result that is there is the one taken with a default. -/
theorem eq_some_getD {α : Type} {x : Option α} (h : x.isSome = true) (d : α) :
  x = some (x.getD d)
  := by
  cases x with
  | none => cases h
  | some a => rfl

/-- The device can be opened after its probe, and a program attached then. -/
theorem attached_reachable
    {G : Adapter → Event → Prop} (apiVersion : ApiVersion) (hopen : ∀ s, G s (.devOpen opens))
    (hattach : G (opened apiVersion) (.xdpSetup (some 0) (plenty apiVersion) opens)) :
  (device Rx.cacheLine64).Reachable G (attached apiVersion)
  := by
  have hinit : (device Rx.cacheLine64).init (probed apiVersion) :=
    ⟨Rx.default82599Vf, plenty apiVersion, probed_init apiVersion⟩
  apply TransSystem.Reachable.step _ hattach
  · constructor
    · cases apiVersion <;> rfl
    · apply eq_some_getD
      cases apiVersion <;> rfl
  apply TransSystem.Reachable.step (TransSystem.Reachable.init hinit) (hopen _)
  constructor
  · cases apiVersion <;> exact ⟨rfl, rfl⟩
  · apply eq_some_getD
    cases apiVersion <;> rfl

/-- With a PF of API 1.3 the attached program finds its transmit partner. -/
theorem attached_xdpPartner :
  XdpPartner (attached .api13)
  := by
  apply reachable_xdpPartner (K := Rx.cacheLine64)
  apply attached_reachable
  · intro s
    trivial
  · intro _ _
    refine ⟨rfl, by decide, rfl⟩

/-- With a PF of API 1.0 the driver attaches the program to its Rx ring and has no XDP ring
for it. -/
theorem attached_no_xdpPartner :
  ¬ ∀ s, (device Rx.cacheLine64).Reachable TransSystem.always s → XdpPartner s
  := by
  intro h
  have hpartner := h (attached .api10) (attached_reachable .api10 (fun _ => trivial) trivial)
  have hring : ((attached .api10).rings.rx 0).any fun r =>
      r.xdpProg.isSome && ((attached .api10).rings.xdp r.queueIndex).isNone := by decide +kernel
  obtain ⟨r, hr, hsome⟩ := (Option.any_eq_true _ _).mp hring
  rw [Bool.and_eq_true, Option.isNone_iff_eq_none] at hsome
  obtain ⟨x, hx, -⟩ := hpartner (by decide +kernel) 0 (by decide +kernel) r hr hsome.1
  rw [hsome.2] at hx
  cases hx

end Ixgbevf.Queues
