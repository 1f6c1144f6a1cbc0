import Ixgbevf.Lib.Ledger
import Ixgbevf.Queues.SingleBuffer

/-!
# The memory of the vectors

`ixgbevf_alloc_q_vectors` puts the vectors that it allocates into `adapter->q_vector`, and
`ixgbevf_free_q_vectors` frees as many as `num_q_vectors` says.  The operations are traced with
the entries of `q_vector` that are filled and freed.  They balance as long as no request for an
interrupt fails, which sets `num_q_vectors` to 0.
-/

namespace Ixgbevf.Queues

open Use

/-- The adapter, and which entries of `q_vector` were filled with a new vector and freed, in
order; the trace settles where `ixgbevf_clear_interrupt_scheme` returns. -/
structure Traced where
  /-- The adapter. -/
  adapter : Adapter
  /-- What happened to the entries of `q_vector`. -/
  uses : List (Use ℕ)

namespace Traced

/-- An operation that allocates and frees no vector. -/
def plain (f : Adapter → Option Adapter) (t : Traced) : Option Traced :=
  (f t.adapter).map fun s => { t with adapter := s }

/-- `ixgbevf_alloc_q_vector`, once its allocation has succeeded. -/
def allocQVector (vIdx txrCount txrIdx xdpCount xdpIdx rxrCount rxrIdx : ℕ) (t : Traced) :
    Option Traced :=
  (Queues.allocQVector vIdx txrCount txrIdx xdpCount xdpIdx rxrCount rxrIdx t.adapter).map fun s =>
    { adapter := s, uses := t.uses ++ [.take vIdx] }

/-- `ixgbevf_free_q_vector`. -/
def freeQVector (vIdx : ℕ) (t : Traced) : Option Traced :=
  (Queues.freeQVector vIdx t.adapter).map fun s => { adapter := s, uses := t.uses ++ [.give vIdx] }

/-- The loop `while (v_idx--)` that frees the vectors below `vIdx`. -/
def freeQVectorsBelow : (vIdx : ℕ) → Traced → Option Traced
  | 0, t => some t
  | vIdx + 1, t => (t.freeQVector vIdx).bind (freeQVectorsBelow vIdx)

/-- The first loop of `ixgbevf_alloc_q_vectors`; `fuel` bounds the iterations. -/
def dealRx (env : InitEnv) : (fuel : ℕ) → Dealing → Traced → Option (Dealing × Traced × Bool)
  | 0, d, t => some (d, t, false)
  | fuel + 1, d, t =>
    if d.rxrRemaining = 0 then
      some (d, t, false)
    else if env.qVectorFails d.vIdx then
      some (d, t, true)
    else
      let rqpv := divRoundUp d.rxrRemaining d.qVectors
      (t.allocQVector d.vIdx 0 0 0 0 rqpv d.rxrIdx).bind fun t =>
        dealRx env fuel { d with
          qVectors := d.qVectors - 1
          vIdx := d.vIdx + 1
          rxrRemaining := d.rxrRemaining - rqpv
          rxrIdx := d.rxrIdx + rqpv } t

/-- The second loop of `ixgbevf_alloc_q_vectors`, with `q_vectors` vectors left. -/
def dealAll (env : InitEnv) : (qVectors : ℕ) → Dealing → Traced → Option (Dealing × Traced × Bool)
  | 0, d, t => some (d, t, false)
  | qVectors + 1, d, t =>
    if env.qVectorFails d.vIdx then
      some (d, t, true)
    else
      let rqpv := divRoundUp d.rxrRemaining (qVectors + 1)
      let tqpv := divRoundUp d.txrRemaining (qVectors + 1)
      let xqpv := divRoundUp d.xdpRemaining (qVectors + 1)
      (t.allocQVector d.vIdx tqpv d.txrIdx xqpv d.xdpIdx rqpv d.rxrIdx).bind fun t =>
        dealAll env qVectors {
          qVectors := qVectors
          vIdx := d.vIdx + 1
          rxrRemaining := d.rxrRemaining - rqpv
          rxrIdx := d.rxrIdx + rqpv
          txrRemaining := d.txrRemaining - tqpv
          txrIdx := d.txrIdx + tqpv
          xdpRemaining := d.xdpRemaining - xqpv
          xdpIdx := d.xdpIdx + xqpv } t

/-- The exit of `ixgbevf_alloc_q_vectors`. -/
def finishDealing (d : Dealing) (t : Traced) (failed : Bool) : Option (Traced × Bool) :=
  if failed then
    (freeQVectorsBelow d.vIdx { t with adapter := { t.adapter with
      numTxQueues := 0, numXdpQueues := 0, numRxQueues := 0, numQVectors := 0 } }).map (·, false)
  else
    some (t, true)

/-- `ixgbevf_alloc_q_vectors`; the result says whether it succeeded. -/
def allocQVectors (env : InitEnv) (t : Traced) : Option (Traced × Bool) :=
  let d : Dealing := {
    qVectors := t.adapter.numQVectors
    vIdx := 0
    rxrRemaining := t.adapter.numRxQueues
    txrRemaining := t.adapter.numTxQueues
    xdpRemaining := t.adapter.numXdpQueues
    rxrIdx := 0
    txrIdx := 0
    xdpIdx := 0 }
  let first :=
    if d.rxrRemaining + d.txrRemaining + d.xdpRemaining ≤ d.qVectors then
      dealRx env d.rxrRemaining d t
    else
      some (d, t, false)
  first.bind fun (d, t, failed) =>
    if failed then
      finishDealing d t true
    else
      (dealAll env d.qVectors d t).bind fun (d, t, failed) => finishDealing d t failed

/-- `ixgbevf_init_interrupt_scheme`; the result says whether it succeeded. -/
def initInterruptScheme (env : InitEnv) (t : Traced) : Option (Traced × Bool) :=
  match setInterruptCapability env (setNumQueues env t.adapter) with
  | (s, false) => some ({ t with adapter := s }, false)
  | (s, true) =>
    (allocQVectors env { t with adapter := s }).map fun
      | (t, true) => ({ t with adapter := { t.adapter with down := true } }, true)
      | (t, false) => ({ t with adapter := { t.adapter with msixEntries := false } }, false)

/-- `ixgbevf_clear_interrupt_scheme`. -/
def clearInterruptScheme (t : Traced) : Option Traced :=
  (freeQVectorsBelow t.adapter.numQVectors { t with adapter := { t.adapter with
    numTxQueues := 0, numXdpQueues := 0, numRxQueues := 0, numQVectors := 0 } }).map fun t =>
      { adapter := { t.adapter with msixEntries := false }, uses := t.uses ++ [.settle] }

/-- The sequence by which `ixgbevf_xdp_setup` and `ixgbevf_queue_reset_subtask` reinitialise
queues and interrupts. -/
def reinitQueues (K : KernelConfig) (env : InitEnv) (openEnv : OpenEnv) (t : Traced) :
    Option Traced := do
  let t ← t.plain closeIfRunning
  let t ← clearInterruptScheme t
  let (t, _) ← initInterruptScheme env t
  t.plain (openIfRunning K openEnv)

/-- `ixgbevf_xdp_setup`. -/
def xdpSetup (K : KernelConfig) (prog : Option ℕ) (env : InitEnv) (openEnv : OpenEnv)
    (t : Traced) : Option Traced := do
  if ← xdpFits K t.adapter t.adapter.numRxQueues then
    if prog.isSome ≠ t.adapter.xdpProg.isSome then
      reinitQueues K env openEnv { t with adapter := { t.adapter with xdpProg := prog } }
    else
      t.plain (Queues.xdpSetup K prog env openEnv)
  else
    return t

/-- `ixgbevf_suspend`. -/
def suspend (t : Traced) : Option Traced :=
  let t := { t with adapter := { t.adapter with presence := .suspended } }
  (t.plain fun s => if s.running then closeSuspend s else some s).bind clearInterruptScheme

/-- `ixgbevf_resume`. -/
def resume (K : KernelConfig) (env : InitEnv) (openEnv : OpenEnv) (t : Traced) : Option Traced :=
  (initInterruptScheme env t).bind fun (t, ok) =>
    t.plain fun s =>
      (if ok && s.running then ixgbevfOpen K openEnv s else some (s, ok)).map fun (s, ok) =>
        if ok then { s with presence := .present } else s

/-- What an event does. -/
def apply (K : KernelConfig) (t : Traced) : Event → Option Traced
  | .xdpSetup prog env openEnv => t.xdpSetup K prog env openEnv
  | .queueReset env openEnv => t.reinitQueues K env openEnv
  | .suspend => t.suspend
  | .resume env openEnv => t.resume K env openEnv
  | e => t.plain fun s => Queues.apply K s e

/-! ### The device from its probe to its removal -/

/-- `ixgbevf_probe` from its call of `ixgbevf_init_interrupt_scheme` on, where `registers` says
whether `register_netdev` succeeds; the result says whether the device is bound. -/
def probe (A : Rx.RxConfig) (env : InitEnv) (registers : Bool) : Option (Traced × Bool) :=
  (initInterruptScheme env { adapter := blank A, uses := [] }).bind fun
    | (t, false) => some (t, false)
    | (t, true) => if registers then some (t, true) else (clearInterruptScheme t).map (·, false)

/-- `ixgbevf_remove`: the stack closes the interface, and the interrupt scheme is cleared. -/
def remove (t : Traced) : Option Traced :=
  (t.plain fun s => (closeIfRunning s).map fun s => { s with running := false }).bind
    clearInterruptScheme

end Traced

/-- Whether the device is bound to the driver, and whether it is asleep then. -/
inductive Phase where
  | awake
  | asleep
  | gone
deriving DecidableEq, Repr

/-- A device in the course of its life. -/
structure Life where
  /-- The adapter and the trace. -/
  traced : Traced
  /-- Its phase. -/
  phase : Phase

/-- What happens to a device. -/
inductive LifeEvent where
  | event (e : Event)
  | remove

namespace Life

/-- The phase after an event: a device is suspended while it is awake, and resumed once. -/
def nextPhase (p : Phase) : Event → Option Phase
  | .suspend => if p = .awake then some .asleep else none
  | .resume _ _ => if p = .asleep then some .awake else none
  | _ => if p = .gone then none else some p

/-- What happens to a device from its probe on. -/
def system (K : KernelConfig) : TransSystem Life LifeEvent where
  init s := ∃ A env registers ok, Traced.probe A env registers = some (s.traced, ok)
    ∧ s.phase = if ok then .awake else .gone
  step s e s' :=
    match e with
    | .event e => Enabled s.traced.adapter e ∧ s.traced.apply K e = some s'.traced
      ∧ nextPhase s.phase e = some s'.phase
    | .remove => s.phase ≠ .gone ∧ s.traced.remove = some s'.traced ∧ s'.phase = .gone

end Life

/-- The answers while the interface is opened during an event. -/
def Event.openEnv : Event → Option OpenEnv
  | .devOpen openEnv | .xdpSetup _ _ openEnv | .queueReset _ openEnv | .diagTest openEnv
  | .resume _ openEnv | .ioResume openEnv => some openEnv
  | _ => none

/-- No request for an interrupt fails during the event. -/
def GrantsIrqs : LifeEvent → Prop
  | .event e => ∀ openEnv ∈ e.openEnv, openEnv.irqFails = false
  | .remove => True

instance GrantsIrqs.decide : (e : LifeEvent) → Decidable (GrantsIrqs e)
  | .event e => inferInstanceAs (Decidable (∀ openEnv ∈ e.openEnv, openEnv.irqFails = false))
  | .remove => inferInstanceAs (Decidable True)

/-! ### The trace leaves the operations as they are -/

namespace Traced

/-- Traced operations one after the other. -/
theorem bind_adapter {x : Option Traced} {f : Traced → Option Traced}
    {g : Adapter → Option Adapter} (h : ∀ t, (f t).map adapter = g t.adapter) :
  (x.bind f).map adapter = (x.map adapter).bind g
  := by
  cases x with
  | none => rfl
  | some t => exact h t

/-- An operation without a trace. -/
theorem plain_adapter (f : Adapter → Option Adapter) (t : Traced) :
  (t.plain f).map adapter = f t.adapter
  := by
  simp [plain, Option.map_map, Function.comp_def]

/-- Freeing the vectors below an index. -/
theorem freeQVectorsBelow_adapter (n : ℕ) (t : Traced) :
  (freeQVectorsBelow n t).map adapter = Queues.freeQVectorsBelow n t.adapter
  := by
  induction n generalizing t with
  | zero => rfl
  | succ n ih =>
    rw [freeQVectorsBelow, bind_adapter ih, freeQVector, Option.map_map]
    simp [Queues.freeQVectorsBelow, Function.comp_def]

/-- The result of a dealing loop without the trace. -/
def dealt (x : Dealing × Traced × Bool) : Dealing × Adapter × Bool := (x.1, x.2.1.adapter, x.2.2)

/-- The first loop over the vectors. -/
theorem dealRx_adapter (env : InitEnv) (fuel : ℕ) (d : Dealing) (t : Traced) :
  (dealRx env fuel d t).map dealt = Queues.dealRx env fuel d t.adapter
  := by
  induction fuel generalizing d t with
  | zero => rfl
  | succ fuel ih =>
    rw [dealRx, Queues.dealRx]
    split
    · rfl
    · split
      · rfl
      · simp only [Traced.allocQVector]
        cases Queues.allocQVector d.vIdx 0 0 0 0 (divRoundUp d.rxrRemaining d.qVectors) d.rxrIdx
          t.adapter with
        | none => rfl
        | some s => exact ih _ _

/-- The second loop over the vectors. -/
theorem dealAll_adapter (env : InitEnv) (n : ℕ) (d : Dealing) (t : Traced) :
  (dealAll env n d t).map dealt = Queues.dealAll env n d t.adapter
  := by
  induction n generalizing d t with
  | zero => rfl
  | succ n ih =>
    rw [dealAll, Queues.dealAll]
    split
    · rfl
    · simp only [Traced.allocQVector]
      cases Queues.allocQVector d.vIdx (divRoundUp d.txrRemaining (n + 1)) d.txrIdx
        (divRoundUp d.xdpRemaining (n + 1)) d.xdpIdx (divRoundUp d.rxrRemaining (n + 1)) d.rxrIdx
        t.adapter with
      | none => rfl
      | some s => exact ih _ _

/-- The result of an operation that may fail, without the trace. -/
def outcome (x : Traced × Bool) : Adapter × Bool := (x.1.adapter, x.2)

/-- The exit of `ixgbevf_alloc_q_vectors`. -/
theorem finishDealing_adapter (d : Dealing) (t : Traced) (failed : Bool) :
  (finishDealing d t failed).map outcome = Queues.finishDealing d t.adapter failed
  := by
  cases failed with
  | false => rfl
  | true =>
    have h := freeQVectorsBelow_adapter d.vIdx { t with adapter := { t.adapter with
      numTxQueues := 0, numXdpQueues := 0, numRxQueues := 0, numQVectors := 0 } }
    simp only [finishDealing, Queues.finishDealing, if_true, ← h, Option.map_map]
    rfl

/-- `ixgbevf_alloc_q_vectors`. -/
theorem allocQVectors_adapter (env : InitEnv) (t : Traced) :
  (allocQVectors env t).map outcome = Queues.allocQVectors env t.adapter
  := by
  have hrest (d : Dealing) (t : Traced) (failed : Bool) :
      (if failed then finishDealing d t true else (dealAll env d.qVectors d t).bind
        fun (d, t, failed) => finishDealing d t failed).map outcome
      = if failed then Queues.finishDealing d t.adapter true else
        (Queues.dealAll env d.qVectors d t.adapter).bind
          fun x => Queues.finishDealing x.1 x.2.1 x.2.2 := by
    cases failed with
    | true => exact finishDealing_adapter d t true
    | false =>
      rw [if_neg Bool.false_ne_true, if_neg Bool.false_ne_true, ← dealAll_adapter]
      cases dealAll env d.qVectors d t with
      | none => rfl
      | some x => exact finishDealing_adapter x.1 x.2.1 x.2.2
  unfold allocQVectors Queues.allocQVectors
  simp only
  split
  · rw [← dealRx_adapter]
    cases dealRx env t.adapter.numRxQueues _ t with
    | none => rfl
    | some x => exact hrest x.1 x.2.1 x.2.2
  · exact hrest _ t false

/-- `ixgbevf_init_interrupt_scheme`. -/
theorem initInterruptScheme_adapter (env : InitEnv) (t : Traced) :
  (initInterruptScheme env t).map outcome = Queues.initInterruptScheme env t.adapter
  := by
  unfold initInterruptScheme Queues.initInterruptScheme
  cases setInterruptCapability env (setNumQueues env t.adapter) with
  | mk s ok =>
    cases ok with
    | false => rfl
    | true =>
      simp only [← allocQVectors_adapter env { t with adapter := s }]
      cases allocQVectors env { t with adapter := s } with
      | none => rfl
      | some x =>
        obtain ⟨t', ok⟩ := x
        cases ok with
        | false => rfl
        | true => rfl

/-- `ixgbevf_clear_interrupt_scheme`. -/
theorem clearInterruptScheme_adapter (t : Traced) :
  (clearInterruptScheme t).map adapter = Queues.clearInterruptScheme t.adapter
  := by
  have h := freeQVectorsBelow_adapter t.adapter.numQVectors { t with adapter := { t.adapter with
    numTxQueues := 0, numXdpQueues := 0, numRxQueues := 0, numQVectors := 0 } }
  simp only [clearInterruptScheme, Queues.clearInterruptScheme, ← h, Option.map_map]
  rfl

/-- A set-up of the interrupt scheme, and what follows whether it succeeded. -/
theorem initInterruptScheme_bind {env : InitEnv} {f : Traced × Bool → Option Traced}
    {g : Adapter × Bool → Option Adapter} (h : ∀ x, (f x).map adapter = g (outcome x)) (t : Traced) :
  ((initInterruptScheme env t).bind f).map adapter
    = (Queues.initInterruptScheme env t.adapter).bind g
  := by
  rw [← initInterruptScheme_adapter]
  cases initInterruptScheme env t with
  | none => rfl
  | some x => exact h x

/-- The reinitialisation of queues and interrupts. -/
theorem reinitQueues_adapter (K : KernelConfig) (env : InitEnv) (openEnv : OpenEnv) (t : Traced) :
  (reinitQueues K env openEnv t).map adapter = Queues.reinitQueues K env openEnv t.adapter
  := by
  have hinit (t : Traced) : ((initInterruptScheme env t).bind fun x =>
        x.1.plain (openIfRunning K openEnv)).map adapter
      = (Queues.initInterruptScheme env t.adapter).bind fun x => openIfRunning K openEnv x.1 :=
    initInterruptScheme_bind (fun x => plain_adapter _ x.1) t
  have hclear (t : Traced) : ((clearInterruptScheme t).bind fun t => (initInterruptScheme env t).bind
        fun x => x.1.plain (openIfRunning K openEnv)).map adapter
      = (Queues.clearInterruptScheme t.adapter).bind fun s =>
        (Queues.initInterruptScheme env s).bind fun x => openIfRunning K openEnv x.1 := by
    rw [bind_adapter (g := fun s => (Queues.initInterruptScheme env s).bind fun x =>
      openIfRunning K openEnv x.1) hinit, clearInterruptScheme_adapter]
  have hall := bind_adapter (x := t.plain closeIfRunning)
    (g := fun s => (Queues.clearInterruptScheme s).bind fun s =>
      (Queues.initInterruptScheme env s).bind fun x => openIfRunning K openEnv x.1) hclear
  rw [plain_adapter] at hall
  exact hall

/-- `ixgbevf_xdp_setup`. -/
theorem xdpSetup_adapter (K : KernelConfig) (prog : Option ℕ) (env : InitEnv) (openEnv : OpenEnv)
    (t : Traced) :
  (xdpSetup K prog env openEnv t).map adapter = Queues.xdpSetup K prog env openEnv t.adapter
  := by
  rw [xdpSetup]
  cases hfits : xdpFits K t.adapter t.adapter.numRxQueues with
  | none =>
    rw [Queues.xdpSetup, hfits]
    rfl
  | some fits =>
    cases fits with
    | false =>
      rw [Queues.xdpSetup, hfits]
      rfl
    | true =>
      by_cases hp : prog.isSome ≠ t.adapter.xdpProg.isSome
      · have h := reinitQueues_adapter K env openEnv
          { t with adapter := { t.adapter with xdpProg := prog } }
        simp only [Queues.xdpSetup, hfits, Option.bind_eq_bind, Option.bind_some, if_true, if_pos hp]
        exact h
      · simp only [Option.bind_eq_bind, Option.bind_some, if_true, if_neg hp]
        exact plain_adapter _ t

/-- The traced operations are the operations of the driver. -/
theorem apply_adapter (K : KernelConfig) (t : Traced) (e : Event) :
  (t.apply K e).map adapter = Queues.apply K t.adapter e
  := by
  have hplain (e : Event) :
      (t.plain fun s => Queues.apply K s e).map adapter = Queues.apply K t.adapter e :=
    plain_adapter _ t
  cases e with
  | xdpSetup prog env openEnv => exact xdpSetup_adapter K prog env openEnv t
  | queueReset env openEnv => exact reinitQueues_adapter K env openEnv t
  | suspend =>
    have h := bind_adapter (x := Traced.plain (fun s => if s.running then closeSuspend s else some s)
      { t with adapter := { t.adapter with presence := .suspended } })
      (g := Queues.clearInterruptScheme) clearInterruptScheme_adapter
    rw [plain_adapter] at h
    exact h
  | resume env openEnv => exact initInterruptScheme_bind (fun x => plain_adapter _ x.1) t
  | _ => exact hplain _

end Traced

/-! ### What leaves the vectors alone -/

/-- The entries of `q_vector`, and `num_q_vectors`. -/
def Adapter.vectors (s : Adapter) : (ℕ → Option QVector) × ℕ := (s.qVector, s.numQVectors)

variable {s s' : Adapter} {ok : Bool}

/-- Setting up the Tx and XDP rings. -/
theorem setupAllTxResources_vectors {txSetup xdpSetup : ℕ → TxSetup}
    (h : setupAllTxResources txSetup xdpSetup s = some (s', ok)) :
  s'.vectors = s.vectors
  := by
  obtain ⟨⟨tx, failed⟩, -, h⟩ := Option.bind_eq_some_iff.mp h
  cases failed with
  | some i =>
    obtain ⟨tx', -, h⟩ := Option.bind_eq_some_iff.mp h
    cases h
    rfl
  | none =>
    obtain ⟨⟨xdp, failed⟩, -, h⟩ := Option.bind_eq_some_iff.mp h
    cases failed with
    | some j =>
      obtain ⟨xdp', -, h⟩ := Option.bind_eq_some_iff.mp h
      obtain ⟨tx', -, h⟩ := Option.bind_eq_some_iff.mp h
      cases h
      rfl
    | none =>
      cases h
      rfl

/-- Setting up the Rx rings. -/
theorem setupAllRxResources_vectors {rxSetup : ℕ → RxSetup}
    (h : setupAllRxResources rxSetup s = some (s', ok)) :
  s'.vectors = s.vectors
  := by
  obtain ⟨⟨rx, failed⟩, -, h⟩ := Option.bind_eq_some_iff.mp h
  cases failed with
  | some i =>
    obtain ⟨rx', -, h⟩ := Option.bind_eq_some_iff.mp h
    cases h
    rfl
  | none =>
    cases h
    rfl

/-- Freeing the Tx and XDP rings. -/
theorem freeAllTxResources_vectors (h : freeAllTxResources s = some s') :
  s'.vectors = s.vectors
  := by
  obtain ⟨tx, -, h⟩ := Option.bind_eq_some_iff.mp h
  obtain ⟨xdp, -, h⟩ := Option.bind_eq_some_iff.mp h
  cases h
  rfl

/-- Freeing the Rx rings. -/
theorem freeAllRxResources_vectors (h : freeAllRxResources s = some s') :
  s'.vectors = s.vectors
  := by
  obtain ⟨rx, -, h⟩ := Option.bind_eq_some_iff.mp h
  cases h
  rfl

/-- Configuring the rings. -/
theorem configure_vectors {K : KernelConfig} (h : configure K s = some s') :
  s'.vectors = s.vectors
  := by
  unfold configure at h
  simp only at h
  split at h
  · obtain ⟨rx, -, h⟩ := Option.bind_eq_some_iff.mp h
    cases h
    rfl
  · cases h

/-- Requests for interrupts that succeed. -/
theorem requestIrq_vectors (h : requestIrq false s = some (s', ok)) :
  s'.vectors = s.vectors ∧ ok = true
  := by
  unfold requestIrq at h
  split at h
  · cases h
    exact ⟨rfl, rfl⟩
  · cases h

/-- Bringing the interface up. -/
theorem upComplete_vectors (h : upComplete s = some s') :
  s'.vectors = s.vectors
  := by
  unfold upComplete at h
  split at h
  · cases h
    rfl
  · cases h

/-- The error exit of `ixgbevf_open`. -/
theorem openFailed_vectors (h : openFailed s = some (s', ok)) :
  s'.vectors = s.vectors
  := by
  obtain ⟨s₁, h₁, h₂⟩ := Option.map_eq_some_iff.mp h
  obtain ⟨s₂, hrx, htx⟩ := Option.bind_eq_some_iff.mp h₁
  cases h₂
  exact (freeAllTxResources_vectors htx).trans (freeAllRxResources_vectors hrx)

/-- Opening the interface while no request for an interrupt fails. -/
theorem ixgbevfOpen_vectors {K : KernelConfig} {env : OpenEnv}
    (h : ixgbevfOpen K env s = some (s', ok)) (henv : env.irqFails = false) :
  s'.vectors = s.vectors
  := by
  unfold ixgbevfOpen at h
  split at h
  · cases h
    rfl
  obtain ⟨⟨s₁, ok₁⟩, h₁, h⟩ := Option.bind_eq_some_iff.mp h
  have hv₁ := setupAllTxResources_vectors h₁
  cases ok₁ with
  | false =>
    cases h
    exact hv₁
  | true =>
  obtain ⟨⟨s₂, ok₂⟩, h₂, h⟩ := Option.bind_eq_some_iff.mp h
  have hv₂ := (setupAllRxResources_vectors h₂).trans hv₁
  cases ok₂ with
  | false =>
    obtain ⟨s₃, h₃, h⟩ := Option.bind_eq_some_iff.mp h
    cases h
    exact (freeAllTxResources_vectors h₃).trans hv₂
  | true =>
  obtain ⟨s₃, h₃, h⟩ := Option.bind_eq_some_iff.mp h
  have hv₃ := (configure_vectors h₃).trans hv₂
  obtain ⟨⟨s₄, ok₄⟩, h₄, h⟩ := Option.bind_eq_some_iff.mp h
  rw [henv] at h₄
  obtain ⟨hirq, rfl⟩ := requestIrq_vectors h₄
  have hv₄ := hirq.trans hv₃
  cases hset : env.setQueuesFails with
  | true =>
    simp only [hset] at h
    exact (openFailed_vectors h).trans hv₄
  | false =>
    simp only [hset] at h
    obtain ⟨s₅, h₅, h⟩ := Option.bind_eq_some_iff.mp h
    cases h
    exact (upComplete_vectors h₅).trans hv₄

/-- Taking the interface down. -/
theorem ixgbevfDown_vectors (h : ixgbevfDown s = some s') :
  s'.vectors = s.vectors
  := by
  rw [ixgbevfDown_some h]
  rfl

/-- Closing or suspending the interface. -/
theorem closeSuspend_vectors (h : closeSuspend s = some s') :
  s'.vectors = s.vectors
  := by
  obtain ⟨s₂, h, hrx⟩ := Option.bind_eq_some_iff.mp h
  obtain ⟨s₁, hdown, htx⟩ := Option.bind_eq_some_iff.mp h
  exact (freeAllRxResources_vectors hrx).trans
    ((freeAllTxResources_vectors htx).trans (ixgbevfDown_vectors hdown))

/-- Closing the interface. -/
theorem ixgbevfClose_vectors (h : ixgbevfClose s = some s') :
  s'.vectors = s.vectors
  := by
  unfold ixgbevfClose at h
  split at h
  · exact closeSuspend_vectors h
  · cases h
    rfl

/-- Closing the interface where it runs. -/
theorem closeIfRunning_vectors (h : closeIfRunning s = some s') :
  s'.vectors = s.vectors
  := by
  unfold closeIfRunning at h
  split at h
  · exact ixgbevfClose_vectors h
  · cases h
    rfl

/-- Opening the interface again where it runs. -/
theorem openIfRunning_vectors {K : KernelConfig} {env : OpenEnv}
    (h : openIfRunning K env s = some s') (henv : env.irqFails = false) :
  s'.vectors = s.vectors
  := by
  unfold openIfRunning at h
  split at h
  · obtain ⟨⟨s₁, ok⟩, hopen, rfl⟩ := Option.map_eq_some_iff.mp h
    exact ixgbevfOpen_vectors hopen henv
  · cases h
    rfl

/-- Bringing an interface up. -/
theorem up_vectors {K : KernelConfig} (h : up K s = some s') :
  s'.vectors = s.vectors
  := by
  obtain ⟨s₁, hconf, hup⟩ := Option.bind_eq_some_iff.mp h
  exact (upComplete_vectors hup).trans (configure_vectors hconf)

/-- Reinitialising the interface. -/
theorem reinitLocked_vectors {K : KernelConfig} (h : reinitLocked K s = some s') :
  s'.vectors = s.vectors
  := by
  obtain ⟨s₁, hdown, hup⟩ := Option.bind_eq_some_iff.mp h
  exact (up_vectors hup).trans (ixgbevfDown_vectors hdown)

/-- An event that neither clears the interrupt scheme nor sets it up. -/
theorem apply_vectors {K : KernelConfig} {e : Event} (h : apply K s e = some s')
    (henv : ∀ openEnv, e.openEnv = some openEnv → openEnv.irqFails = false)
    (he : ∀ env openEnv, e ≠ .queueReset env openEnv ∧ e ≠ .resume env openEnv)
    (hs : e ≠ .suspend)
    (hx : ∀ prog env openEnv, e = .xdpSetup prog env openEnv → prog.isSome = s.xdpProg.isSome) :
  s'.vectors = s.vectors
  := by
  cases e with
  | devOpen openEnv =>
    obtain ⟨⟨s₁, ok⟩, hopen, rfl⟩ := Option.map_eq_some_iff.mp h
    have hv := ixgbevfOpen_vectors hopen (henv openEnv rfl)
    exact hv
  | devStop =>
    obtain ⟨s₁, hclose, rfl⟩ := Option.map_eq_some_iff.mp h
    have hv := ixgbevfClose_vectors hclose
    exact hv
  | xdpSetup prog env openEnv =>
    obtain ⟨fits, -, h⟩ := Option.bind_eq_some_iff.mp h
    split at h
    · have hp : ¬ prog.isSome ≠ s.xdpProg.isSome := not_not.mpr (hx prog env openEnv rfl)
      rw [if_neg hp] at h
      obtain ⟨rx, -, h⟩ := Option.bind_eq_some_iff.mp h
      cases h
      rfl
    · cases h
      rfl
  | queueReset env openEnv => exact absurd rfl (he env openEnv).1
  | reinit => exact reinitLocked_vectors h
  | setRingparam tx rx =>
    obtain ⟨s₁, hdown, h⟩ := Option.bind_eq_some_iff.mp h
    obtain ⟨txRings, -, h⟩ := Option.bind_eq_some_iff.mp h
    obtain ⟨xdpRings, -, h⟩ := Option.bind_eq_some_iff.mp h
    obtain ⟨rxRings, -, h⟩ := Option.bind_eq_some_iff.mp h
    have hv := up_vectors h
    have hd := ixgbevfDown_vectors hdown
    exact hv.trans hd
  | changeMtu mtu =>
    have h' : changeMtu K mtu s = some s' := h
    unfold changeMtu at h'
    split at h'
    · cases h'
      rfl
    · simp only at h'
      split at h'
      · have hv := reinitLocked_vectors h'
        exact hv
      · cases h'
        rfl
  | setPrivFlags legacyRx =>
    have h' : setPrivFlags K legacyRx s = some s' := h
    unfold setPrivFlags at h'
    split at h'
    · cases h'
      rfl
    · simp only at h'
      split at h'
      · have hv := reinitLocked_vectors h'
        exact hv
      · cases h'
        rfl
  | diagTest openEnv =>
    obtain ⟨s₁, hclose, hopen⟩ := Option.bind_eq_some_iff.mp h
    exact (openIfRunning_vectors hopen (henv openEnv rfl)).trans (closeIfRunning_vectors hclose)
  | suspend => exact absurd rfl hs
  | resume env openEnv => exact absurd rfl (he env openEnv).2
  | ioErrorDetected =>
    have h' : ioErrorDetected s = some s' := h
    unfold ioErrorDetected at h'
    simp only at h'
    split at h'
    · have hv := closeSuspend_vectors h'
      exact hv
    · cases h'
      rfl
  | ioResume openEnv =>
    obtain ⟨s₁, hopen, rfl⟩ := Option.map_eq_some_iff.mp h
    have hv := openIfRunning_vectors hopen (henv openEnv rfl)
    exact hv
  | removed => exact ixgbevfDown_vectors h

/-! ### The vectors balance -/

namespace Traced

/-- The trace is in order, and the entries that it leaves filled are the first `n` ones, which
are not null. -/
structure Fills (n : ℕ) (t : Traced) : Prop where
  /-- The trace is in order. -/
  lawful : Lawful ∅ t.uses
  /-- The entries it leaves filled. -/
  held : heldAfter ∅ t.uses = Finset.range n
  /-- The entries that are not null. -/
  qVector (i : ℕ) : (t.adapter.qVector i).isSome ↔ i < n

variable {t t' : Traced} {n : ℕ}

/-- Only the trace and the entries count. -/
theorem Fills.congr (h : Fills n t) (huses : t'.uses = t.uses)
    (hq : t'.adapter.qVector = t.adapter.qVector) :
  Fills n t'
  := by
  constructor
  · rw [huses]
    exact h.lawful
  · rw [huses]
    exact h.held
  · rw [hq]
    exact h.qVector

/-- A vector is allocated behind the ones that are there. -/
theorem Fills.allocQVector {txrCount txrIdx xdpCount xdpIdx rxrCount rxrIdx : ℕ} (h : Fills n t)
    (ht : t.allocQVector n txrCount txrIdx xdpCount xdpIdx rxrCount rxrIdx = some t') :
  Fills (n + 1) t' ∧ t'.adapter.numQVectors = t.adapter.numQVectors
  := by
  obtain ⟨s, hs, rfl⟩ := Option.map_eq_some_iff.mp ht
  unfold Queues.allocQVector at hs
  split at hs
  · cases hs
    refine ⟨⟨?_, ?_, ?_⟩, rfl⟩
    · rw [lawful_append, h.held]
      exact ⟨h.lawful, by simp, trivial⟩
    · rw [heldAfter_append, h.held, Finset.range_add_one]
      rfl
    · intro i
      by_cases hi : i = n
      · subst hi
        simp
      · simp only [Function.update_of_ne hi, h.qVector i]
        omega
  · cases hs

/-- The last vector is freed. -/
theorem Fills.freeQVector (h : Fills (n + 1) t) (ht : t.freeQVector n = some t') :
  Fills n t' ∧ t'.adapter.numQVectors = t.adapter.numQVectors
  := by
  obtain ⟨s, hs, rfl⟩ := Option.map_eq_some_iff.mp ht
  unfold Queues.freeQVector at hs
  split at hs
  · cases hs
  · cases hs
    refine ⟨⟨?_, ?_, ?_⟩, rfl⟩
    · rw [lawful_append, h.held]
      exact ⟨h.lawful, by simp, trivial⟩
    · rw [heldAfter_append, h.held]
      ext i
      simp only [heldAfter, Finset.mem_erase, Finset.mem_range]
      omega
    · intro i
      by_cases hi : i = n
      · subst hi
        simp
      · simp only [Function.update_of_ne hi, h.qVector i]
        omega

/-- All vectors are freed. -/
theorem Fills.freeQVectorsBelow (h : Fills n t) (ht : freeQVectorsBelow n t = some t') :
  Fills 0 t' ∧ t'.adapter.numQVectors = t.adapter.numQVectors
  := by
  induction n generalizing t with
  | zero =>
    cases ht
    exact ⟨h, rfl⟩
  | succ n ih =>
    obtain ⟨t₁, h₁, h₂⟩ := Option.bind_eq_some_iff.mp ht
    obtain ⟨hf, hn⟩ := h.freeQVector h₁
    obtain ⟨hf', hn'⟩ := ih hf h₂
    exact ⟨hf', hn'.trans hn⟩

/-- The second loop fills the entries one after the other. -/
theorem Fills.dealAll {env : InitEnv} {d d' : Dealing} {failed : Bool} (h : Fills d.vIdx t)
    (ht : dealAll env n d t = some (d', t', failed)) :
  Fills d'.vIdx t' ∧ t'.adapter.numQVectors = t.adapter.numQVectors
    ∧ (failed = false → d'.vIdx = d.vIdx + n)
  := by
  induction n generalizing d t with
  | zero =>
    cases ht
    exact ⟨h, rfl, fun _ => rfl⟩
  | succ n ih =>
    rw [Traced.dealAll] at ht
    split at ht
    · cases ht
      exact ⟨h, rfl, fun hf => nomatch hf⟩
    · obtain ⟨t₁, h₁, h₂⟩ := Option.bind_eq_some_iff.mp ht
      obtain ⟨hf₁, hn₁⟩ := h.allocQVector h₁
      obtain ⟨hf', hn', hd⟩ := ih hf₁ h₂
      refine ⟨hf', hn'.trans hn₁, fun hf => ?_⟩
      rw [hd hf]
      simp only
      omega

/-- A set-up of the interrupt scheme without vectors fills as many entries as it counts, and
none when it fails. -/
theorem Fills.initInterruptScheme {env : InitEnv} {ok : Bool} (h : Fills 0 t)
    (hzero : t.adapter.numQVectors = 0) (ht : initInterruptScheme env t = some (t', ok)) :
  Fills t'.adapter.numQVectors t' ∧ (ok = false → t'.adapter.numQVectors = 0)
  := by
  have hnum (s : Adapter) : (setNumQueues env s).vectors = s.vectors := by
    unfold setNumQueues
    split <;> [rfl; split <;> [rfl; split <;> rfl]]
  have hv := hnum t.adapter
  unfold Traced.initInterruptScheme at ht
  split at ht
  next s₁ h₁ =>
    cases ht
    have hs₁ : s₁.vectors = t.adapter.vectors := by
      rw [← hv, setInterruptCapability_fail h₁]
      rfl
    have hn : s₁.numQVectors = 0 := (congrArg (·.2) hs₁).trans hzero
    have hq : s₁.qVector = t.adapter.qVector := congrArg (·.1) hs₁
    constructor
    · rw [hn]
      exact h.congr rfl hq
    · exact fun _ => hn
  next s₁ h₁ =>
    have hlt := numQVectors_lt h₁
    obtain ⟨heq, -, -⟩ := setInterruptCapability_some h₁
    have hq : s₁.qVector = t.adapter.qVector := by
      rw [heq]
      exact congrArg (·.1) hv
    have hfills : Fills 0 { t with adapter := s₁ } := h.congr rfl hq
    obtain ⟨⟨t₂, ok₂⟩, h₂, ht'⟩ := Option.map_eq_some_iff.mp ht
    simp only [allocQVectors, if_neg (Nat.not_le.mpr hlt), Option.bind_some] at h₂
    obtain ⟨⟨d, t₃, failed⟩, h₃, h₄⟩ := Option.bind_eq_some_iff.mp h₂
    obtain ⟨hf₃, hn₃, hd⟩ := hfills.dealAll h₃
    cases failed with
    | true =>
      obtain ⟨t₄, hfree, hok⟩ := Option.map_eq_some_iff.mp h₄
      have hf : Fills d.vIdx { t₃ with adapter := { t₃.adapter with
          numTxQueues := 0, numXdpQueues := 0, numRxQueues := 0, numQVectors := 0 } } :=
        hf₃.congr rfl rfl
      obtain ⟨hf₄, hn₄⟩ := hf.freeQVectorsBelow hfree
      cases hok
      cases ht'
      have hn : t₂.adapter.numQVectors = 0 := hn₄
      constructor
      · show Fills t₂.adapter.numQVectors _
        rw [hn]
        exact hf₄.congr rfl rfl
      · exact fun _ => hn
    | false =>
      cases h₄
      cases ht'
      have hn : d.vIdx = t₃.adapter.numQVectors := by
        rw [hd rfl, hn₃]
        exact Nat.zero_add _
      constructor
      · show Fills t₃.adapter.numQVectors _
        rw [← hn]
        exact hf₃.congr rfl rfl
      · exact fun hfalse => nomatch hfalse

/-- Clearing the interrupt scheme frees every vector. -/
theorem Fills.clearInterruptScheme (h : Fills t.adapter.numQVectors t)
    (ht : clearInterruptScheme t = some t') :
  Fills 0 t' ∧ t'.adapter.numQVectors = 0
  := by
  obtain ⟨t₁, hfree, rfl⟩ := Option.map_eq_some_iff.mp ht
  have hf : Fills t.adapter.numQVectors { t with adapter := { t.adapter with
      numTxQueues := 0, numXdpQueues := 0, numRxQueues := 0, numQVectors := 0 } } :=
    h.congr rfl rfl
  obtain ⟨hf₁, hn₁⟩ := hf.freeQVectorsBelow hfree
  refine ⟨⟨?_, ?_, hf₁.qVector⟩, hn₁⟩
  · rw [lawful_append, hf₁.held]
    exact ⟨hf₁.lawful, rfl, trivial⟩
  · rw [heldAfter_append, hf₁.held]
    rfl

/-- The entries that are filled are the ones that are counted. -/
def Balanced (t : Traced) : Prop := Fills t.adapter.numQVectors t

/-- An operation that leaves the vectors alone. -/
theorem Balanced.plain {f : Adapter → Option Adapter} (h : t.Balanced) (ht : t.plain f = some t')
    (hf : ∀ s, f t.adapter = some s → s.vectors = t.adapter.vectors) :
  t'.Balanced
  := by
  obtain ⟨s, hs, rfl⟩ := Option.map_eq_some_iff.mp ht
  have hv := hf s hs
  have hn : s.numQVectors = t.adapter.numQVectors := congrArg (·.2) hv
  have hq : s.qVector = t.adapter.qVector := congrArg (·.1) hv
  show Fills s.numQVectors _
  rw [hn]
  exact h.congr rfl hq

/-- The reinitialisation of queues and interrupts. -/
theorem Balanced.reinitQueues {K : KernelConfig} {env : InitEnv} {openEnv : OpenEnv}
    (h : t.Balanced) (henv : openEnv.irqFails = false)
    (ht : reinitQueues K env openEnv t = some t') :
  t'.Balanced
  := by
  obtain ⟨t₁, h₁, ht⟩ := Option.bind_eq_some_iff.mp ht
  have hb₁ := h.plain h₁ fun _ => closeIfRunning_vectors
  obtain ⟨t₂, h₂, ht⟩ := Option.bind_eq_some_iff.mp ht
  obtain ⟨hf₂, hn₂⟩ := Fills.clearInterruptScheme hb₁ h₂
  obtain ⟨⟨t₃, ok⟩, h₃, ht⟩ := Option.bind_eq_some_iff.mp ht
  have hb₃ : t₃.Balanced := (hf₂.initInterruptScheme hn₂ h₃).1
  exact hb₃.plain ht fun _ hs => openIfRunning_vectors hs henv

/-- `ixgbevf_xdp_setup`. -/
theorem Balanced.xdpSetup {K : KernelConfig} {prog : Option ℕ} {env : InitEnv} {openEnv : OpenEnv}
    (h : t.Balanced) (henv : openEnv.irqFails = false)
    (ht : xdpSetup K prog env openEnv t = some t') :
  t'.Balanced
  := by
  obtain ⟨fits, -, ht⟩ := Option.bind_eq_some_iff.mp ht
  split at ht
  · split at ht
    · have h' : Balanced { t with adapter := { t.adapter with xdpProg := prog } } :=
        h.congr rfl rfl
      exact h'.reinitQueues henv ht
    next hp =>
      apply h.plain ht
      intro s hs
      have hs' : Queues.apply K t.adapter (.xdpSetup prog env openEnv) = some s := hs
      apply apply_vectors hs'
      · rintro _ ⟨⟩
        exact henv
      · simp
      · simp
      · rintro _ _ _ ⟨⟩
        exact not_not.mp hp
  · cases ht
    exact h

/-- `ixgbevf_suspend`, which leaves no vector. -/
theorem Balanced.suspend (h : t.Balanced) (ht : t.suspend = some t') :
  Fills 0 t' ∧ t'.adapter.numQVectors = 0
  := by
  obtain ⟨t₁, h₁, ht⟩ := Option.bind_eq_some_iff.mp ht
  have h₀ : Balanced { t with adapter := { t.adapter with presence := .suspended } } :=
    h.congr rfl rfl
  have hb₁ : t₁.Balanced := by
    apply h₀.plain h₁
    intro s hs
    split at hs
    · exact closeSuspend_vectors hs
    · cases hs
      rfl
  exact Fills.clearInterruptScheme hb₁ ht

/-- `ixgbevf_resume` of a device without vectors. -/
theorem Balanced.resume {K : KernelConfig} {env : InitEnv} {openEnv : OpenEnv} (h : t.Balanced)
    (hzero : t.adapter.numQVectors = 0) (henv : openEnv.irqFails = false)
    (ht : t.resume K env openEnv = some t') :
  t'.Balanced
  := by
  obtain ⟨⟨t₁, ok⟩, h₁, ht⟩ := Option.bind_eq_some_iff.mp ht
  have hf : Fills 0 t := by
    rw [← hzero]
    exact h
  have hb₁ : t₁.Balanced := (hf.initInterruptScheme hzero h₁).1
  apply hb₁.plain ht
  intro s hs
  obtain ⟨⟨s₂, ok₂⟩, h₂, rfl⟩ := Option.map_eq_some_iff.mp hs
  have hv : s₂.vectors = t₁.adapter.vectors := by
    split at h₂
    · exact ixgbevfOpen_vectors h₂ henv
    · cases h₂
      rfl
  cases ok₂ with
  | true => exact hv
  | false => exact hv

/-- An event during which no request for an interrupt fails, where a device is resumed only
without vectors. -/
theorem Balanced.apply {K : KernelConfig} {e : Event} (h : t.Balanced)
    (henv : ∀ openEnv, e.openEnv = some openEnv → openEnv.irqFails = false)
    (hzero : ∀ env openEnv, e = .resume env openEnv → t.adapter.numQVectors = 0)
    (ht : t.apply K e = some t') :
  t'.Balanced
  := by
  have hplain (ht : t.plain (fun s => Queues.apply K s e) = some t')
      (he : ∀ env openEnv, e ≠ .queueReset env openEnv ∧ e ≠ .resume env openEnv)
      (hs : e ≠ .suspend) (hx : ∀ prog env openEnv, e ≠ .xdpSetup prog env openEnv) : t'.Balanced := by
    apply h.plain ht
    intro s hs'
    apply apply_vectors hs' henv he hs
    exact fun prog env openEnv hp => absurd hp (hx prog env openEnv)
  cases e with
  | xdpSetup prog env openEnv => exact h.xdpSetup (henv openEnv rfl) ht
  | queueReset env openEnv => exact h.reinitQueues (henv openEnv rfl) ht
  | suspend =>
    obtain ⟨hf, hn⟩ := h.suspend ht
    show Fills t'.adapter.numQVectors t'
    rw [hn]
    exact hf
  | resume env openEnv => exact h.resume (hzero env openEnv rfl) (henv openEnv rfl) ht
  | _ => exact hplain ht (by simp) (by simp) (by simp)

/-- `ixgbevf_remove`. -/
theorem Balanced.remove (h : t.Balanced) (ht : t.remove = some t') :
  Fills 0 t' ∧ t'.adapter.numQVectors = 0
  := by
  obtain ⟨t₁, h₁, ht⟩ := Option.bind_eq_some_iff.mp ht
  have hb₁ : t₁.Balanced := by
    apply h.plain h₁
    intro s hs
    obtain ⟨s₁, hclose, rfl⟩ := Option.map_eq_some_iff.mp hs
    have hv := closeIfRunning_vectors hclose
    exact hv
  exact Fills.clearInterruptScheme hb₁ ht

/-- `ixgbevf_probe`, which leaves no vector unless it succeeds. -/
theorem probe_balanced {A : Rx.RxConfig} {env : InitEnv} {registers ok : Bool}
    (h : probe A env registers = some (t, ok)) :
  t.Balanced ∧ (ok = false → t.adapter.numQVectors = 0) ∧ t.adapter.down = true
  := by
  have hblank : Fills 0 { adapter := blank A, uses := [] } := by
    constructor
    · trivial
    · rfl
    · simp [blank]
  obtain ⟨⟨t₁, ok₁⟩, h₁, h⟩ := Option.bind_eq_some_iff.mp h
  obtain ⟨hb₁, hn₁⟩ := hblank.initInterruptScheme rfl h₁
  have hadapter₁ := initInterruptScheme_adapter env { adapter := blank A, uses := [] }
  rw [h₁] at hadapter₁
  obtain ⟨-, hdown₁⟩ := initInterruptScheme_setting hadapter₁.symm rfl
  cases ok₁ with
  | false =>
    cases h
    exact ⟨hb₁, hn₁, hdown₁⟩
  | true =>
    cases registers with
    | true =>
      cases h
      exact ⟨hb₁, fun hno => absurd hno.symm Bool.false_ne_true, hdown₁⟩
    | false =>
      obtain ⟨t₂, h₂, hok⟩ := Option.map_eq_some_iff.mp h
      cases hok
      obtain ⟨hf, hn⟩ := Fills.clearInterruptScheme hb₁ h₂
      have hadapter := clearInterruptScheme_adapter t₁
      rw [h₂] at hadapter
      obtain ⟨-, hdown⟩ := clearInterruptScheme_setting hadapter.symm
      refine ⟨?_, fun _ => hn, hdown.trans hdown₁⟩
      show Fills t.adapter.numQVectors t
      rw [hn]
      exact hf

end Traced

/-! ### A device that is up is running and present -/

/-- A device that is up is running and present. -/
def Attended (s : Adapter) : Prop := s.down = false → s.running = true ∧ s.presence = .present

section Attended

variable {K : KernelConfig} {s s' : Adapter}

/-- A device that is down. -/
theorem Attended.of_down (h : s.down = true) :
  Attended s
  := by
  intro hup
  rw [h] at hup
  cases hup

/-- A device that is not running, or not present, is down. -/
theorem Attended.down (h : Attended s) (hno : ¬ (s.running = true ∧ s.presence = .present)) :
  s.down = true
  := by
  rw [← Bool.not_eq_false]
  exact fun hup => hno (h hup)

/-- Bringing up a device that is present. -/
theorem Attended.of_setting (hpresent : s.presence = .present) (hsetting : s'.setting = s.setting)
    (h : s'.down = false → s'.running = true) :
  Attended s'
  := by
  have hpresence : s'.presence = s.presence := congrArg (·.2.2.2) hsetting
  intro hup
  exact ⟨h hup, hpresence.trans hpresent⟩

/-- Bringing up a device that is running and present. -/
theorem Attended.of_running (hrunning : s.running = true) (hpresent : s.presence = .present)
    (hsetting : s'.setting = s.setting) :
  Attended s'
  := by
  have hrunning' : s'.running = s.running := congrArg (·.2.2.1) hsetting
  exact Attended.of_setting hpresent hsetting fun _ => hrunning'.trans hrunning

/-- The reinitialisation of queues and interrupts. -/
theorem Attended.reinitQueues {env : InitEnv} {openEnv : OpenEnv} (hs : Attended s)
    (hpresent : s.presence = .present) (h : reinitQueues K env openEnv s = some s') :
  Attended s'
  := by
  obtain ⟨s₁, hclose, h⟩ := Option.bind_eq_some_iff.mp h
  obtain ⟨hsetting₁, hdown₁⟩ := closeIfRunning_setting hclose hs
  obtain ⟨s₂, hclear, h⟩ := Option.bind_eq_some_iff.mp h
  obtain ⟨hsetting₂, hdown₂⟩ := clearInterruptScheme_setting hclear
  obtain ⟨⟨s₃, ok⟩, hinit, h⟩ := Option.bind_eq_some_iff.mp h
  obtain ⟨hsetting₃, hdown₃⟩ := initInterruptScheme_setting hinit (hdown₂.trans hdown₁)
  obtain ⟨hsetting₄, hopened⟩ := openIfRunning_configured h hdown₃
  have hsetting : s'.setting = s.setting := by
    rw [hsetting₄, hsetting₃, hsetting₂, hsetting₁]
  exact Attended.of_setting hpresent hsetting fun hup => (hopened hup).1

/-- Reinitialising the interface where it runs. -/
theorem Attended.reconfigure (hs : Attended s) (hpresent : s.presence = .present)
    (h : (if s.running then reinitLocked K s else some s) = some s') :
  Attended s'
  := by
  split at h
  next hrunning => exact Attended.of_running hrunning hpresent (reinitLocked_configured h).1
  · cases h
    exact hs

/-- A suspended device is down. -/
theorem Attended.suspend (hs : Attended s) (h : suspend s = some s') :
  s'.presence = .suspended ∧ s'.down = true
  := by
  obtain ⟨s₁, hclose, hclear⟩ := Option.bind_eq_some_iff.mp h
  obtain ⟨hsetting₂, hdown₂⟩ := clearInterruptScheme_setting hclear
  have hpresence₂ : s'.presence = s₁.presence := congrArg (·.2.2.2) hsetting₂
  rw [hpresence₂, hdown₂]
  split at hclose
  · obtain ⟨hsetting₁, hdown₁⟩ := closeSuspend_setting hclose
    have hpresence₁ : s₁.presence = .suspended := congrArg (·.2.2.2) hsetting₁
    exact ⟨hpresence₁, hdown₁⟩
  next hrunning =>
    cases hclose
    exact ⟨rfl, hs.down fun hand => hrunning hand.1⟩

/-- `ixgbevf_resume`. -/
theorem Attended.resume {env : InitEnv} {openEnv : OpenEnv} (hdown : s.down = true)
    (h : resume K env openEnv s = some s') :
  Attended s'
  := by
  obtain ⟨⟨s₁, ok⟩, hinit, h⟩ := Option.bind_eq_some_iff.mp h
  obtain ⟨-, hdown₁⟩ := initInterruptScheme_setting hinit hdown
  obtain ⟨⟨s₂, ok₂⟩, hopen, rfl⟩ := Option.map_eq_some_iff.mp h
  split at hopen
  next hcond =>
    rw [Bool.and_eq_true] at hcond
    obtain ⟨hsetting₂, hopened⟩ := ixgbevfOpen_configured hopen hdown₁
    have hrunning : s₂.running = s₁.running := congrArg (·.2.2.1) hsetting₂
    cases ok₂ with
    | true => exact fun _ => ⟨hrunning.trans hcond.2, rfl⟩
    | false => exact fun hup => nomatch (hopened hup).1
  · cases hopen
    cases ok with
    | true => exact Attended.of_down hdown₁
    | false => exact Attended.of_down hdown₁

/-- Every event keeps a device that is up running and present. -/
theorem Attended.step {e : Event} (hs : Attended s) (h : (device K).step s e s') :
  Attended s'
  := by
  obtain ⟨hen, h⟩ := h
  cases e with
  | devOpen openEnv =>
    obtain ⟨⟨s₁, ok⟩, hopen, rfl⟩ := Option.map_eq_some_iff.mp h
    have hdown : s.down = true := hs.down (by simp [hen.1])
    obtain ⟨hsetting, hopened⟩ := ixgbevfOpen_configured hopen hdown
    have hpresence : s₁.presence = s.presence := congrArg (·.2.2.2) hsetting
    intro hup
    exact ⟨(hopened hup).1, hpresence.trans hen.2⟩
  | devStop =>
    obtain ⟨s₁, hclose, rfl⟩ := Option.map_eq_some_iff.mp h
    have hclose' : closeIfRunning s = some s₁ := by
      rw [closeIfRunning, if_pos (show s.running = true from hen)]
      exact hclose
    exact Attended.of_down (closeIfRunning_setting hclose' hs).2
  | xdpSetup prog env openEnv =>
    obtain ⟨fits, -, h⟩ := Option.bind_eq_some_iff.mp h
    split at h
    · simp only at h
      split at h
      · have hs' : Attended { s with xdpProg := prog } := hs
        exact hs'.reinitQueues hen h
      · obtain ⟨rx, -, h⟩ := Option.bind_eq_some_iff.mp h
        cases h
        exact hs
    · cases h
      exact hs
  | queueReset env openEnv => exact hs.reinitQueues (hs hen).2 h
  | reinit => exact Attended.of_running hen.1 hen.2 (reinitLocked_configured h).1
  | setRingparam tx rx => exact Attended.of_running hen.1 hen.2 (setRingparam_configured h).1
  | changeMtu mtu =>
    simp only [apply, Queues.changeMtu] at h
    split at h
    · cases h
      exact hs
    · have hs' : Attended { s with rxConfig := { s.rxConfig with mtu := mtu } } := hs
      exact hs'.reconfigure hen h
  | setPrivFlags legacyRx =>
    simp only [apply, Queues.setPrivFlags] at h
    split at h
    · cases h
      exact hs
    · have hs' : Attended { s with rxConfig := { s.rxConfig with legacyRx := legacyRx } } := hs
      exact hs'.reconfigure hen h
  | diagTest openEnv =>
    obtain ⟨s₁, hclose, hopen⟩ := Option.bind_eq_some_iff.mp h
    obtain ⟨hsetting₁, hdown₁⟩ := closeIfRunning_setting hclose hs
    obtain ⟨hsetting₂, hopened⟩ := openIfRunning_configured hopen hdown₁
    exact Attended.of_setting hen (hsetting₂.trans hsetting₁) fun hup => (hopened hup).1
  | suspend => exact Attended.of_down (hs.suspend h).2
  | resume env openEnv =>
    apply Attended.resume (hs.down _) h
    simp [show s.presence = .suspended from hen]
  | ioErrorDetected =>
    have h' : ioErrorDetected s = some s' := h
    unfold ioErrorDetected at h'
    simp only at h'
    split at h'
    · exact Attended.of_down (closeSuspend_setting h').2
    next hrunning =>
      cases h'
      exact Attended.of_down (hs.down fun hand => hrunning hand.1)
  | ioResume openEnv =>
    obtain ⟨s₁, hopen, rfl⟩ := Option.map_eq_some_iff.mp h
    have hdown : s.down = true := hs.down (by simp [show s.presence = .ioError from hen])
    obtain ⟨-, hopened⟩ := openIfRunning_configured hopen hdown
    exact fun hup => ⟨(hopened hup).1, rfl⟩
  | removed =>
    rw [ixgbevfDown_some h]
    exact Attended.of_down rfl

end Attended

/-- What may happen to a suspended device. -/
theorem Attended.suspended {s : Adapter} {e : Event} (hs : Attended s)
    (hpresence : s.presence = .suspended) (hen : Enabled s e) :
  e = .devStop ∨ e = .suspend ∨ ∃ env openEnv, e = .resume env openEnv
  := by
  have hdown : s.down = true := hs.down (by simp [hpresence])
  cases e with
  | devStop => exact Or.inl rfl
  | suspend => exact Or.inr (Or.inl rfl)
  | resume env openEnv => exact Or.inr (Or.inr ⟨env, openEnv, rfl⟩)
  | _ => simp [Enabled, hpresence, hdown] at hen

/-- Stopping a suspended device changes nothing but that it does not run. -/
theorem devStop_suspended {s s' : Adapter} (hpresence : s.presence = .suspended)
    (h : devStop s = some s') :
  s' = { s with running := false }
  := by
  obtain ⟨s₁, hclose, rfl⟩ := Option.map_eq_some_iff.mp h
  rw [ixgbevfClose, hpresence] at hclose
  cases hclose
  rfl

namespace Life

/-- The vectors balance; while the device is asleep it is suspended, and it has vectors only while
it is awake. -/
structure Balanced (s : Life) : Prop where
  /-- The vectors balance. -/
  traced : s.traced.Balanced
  /-- A device that is up is running and present. -/
  attended : s.phase ≠ .gone → Attended s.traced.adapter
  /-- A device that is asleep is suspended. -/
  suspended : s.phase = .asleep → s.traced.adapter.presence = .suspended
  /-- A device that is asleep or gone has no vectors. -/
  none : s.phase ≠ .awake → s.traced.adapter.numQVectors = 0

variable {K : KernelConfig} {s s' : Life}

/-- A new device. -/
theorem Balanced.init (h : (system K).init s) :
  s.Balanced
  := by
  obtain ⟨A, env, registers, ok, hprobe, hphase⟩ := h
  obtain ⟨hb, hn, hdown⟩ := Traced.probe_balanced hprobe
  constructor
  · exact hb
  · intro _
    exact Attended.of_down hdown
  · intro hp
    rw [hphase] at hp
    cases ok <;> cases hp
  · intro hp
    rw [hphase] at hp
    cases ok with
    | true => exact absurd rfl hp
    | false => exact hn rfl

/-- The phase after an event. -/
theorem nextPhase_some {p p' : Phase} {e : Event} (h : nextPhase p e = some p') :
  p ≠ .gone ∧ p' ≠ .gone ∧ (p' = .asleep → e = .suspend ∨ p = .asleep)
    ∧ (e = .suspend → p = .awake) ∧ ∀ env openEnv, e = .resume env openEnv → p ≠ .awake ∧ p' = .awake
  := by
  cases e <;> cases p <;> cases p' <;> simp_all [nextPhase]

/-- An event that leaves the device asleep leaves it suspended and without vectors. -/
theorem Balanced.asleep {e : Event} (hs : s.Balanced)
    (h : (system K).step s (.event e) s') (hp : s'.phase = .asleep) :
  s'.traced.adapter.presence = .suspended ∧ s'.traced.adapter.numQVectors = 0
  := by
  obtain ⟨hen, happly, hphase⟩ := h
  obtain ⟨hgone, -, hasleep, hawake, hresume⟩ := nextPhase_some hphase
  have hadapter := Traced.apply_adapter K s.traced e
  rw [happly] at hadapter
  obtain rfl | hs₀ := hasleep hp
  · obtain ⟨-, hn⟩ := hs.traced.suspend happly
    exact ⟨((hs.attended hgone).suspend hadapter.symm).1, hn⟩
  · have hpresence := hs.suspended hs₀
    have hn := hs.none (by simp [hs₀])
    obtain rfl | rfl | ⟨env, openEnv, rfl⟩ := (hs.attended hgone).suspended hpresence hen
    · have hstop : s'.traced.adapter = { s.traced.adapter with running := false } :=
        devStop_suspended hpresence hadapter.symm
      rw [hstop]
      exact ⟨hpresence, hn⟩
    · rw [hawake rfl] at hs₀
      cases hs₀
    · rw [(hresume env openEnv rfl).2] at hp
      cases hp

/-- What happens to a device while no request for an interrupt fails. -/
theorem Balanced.step {e : LifeEvent} (hs : s.Balanced) (he : GrantsIrqs e)
    (h : (system K).step s e s') :
  s'.Balanced
  := by
  cases e with
  | remove =>
    obtain ⟨-, hremove, hphase⟩ := h
    obtain ⟨hf, hn⟩ := hs.traced.remove hremove
    constructor
    · show Traced.Fills s'.traced.adapter.numQVectors s'.traced
      rw [hn]
      exact hf
    · exact fun hp => absurd hphase hp
    · intro hp
      rw [hphase] at hp
      cases hp
    · exact fun _ => hn
  | event e =>
    have hasleep := hs.asleep h
    obtain ⟨hen, happly, hphase⟩ := h
    obtain ⟨hgone, hgone', -, -, hresume⟩ := nextPhase_some hphase
    have hadapter := Traced.apply_adapter K s.traced e
    rw [happly] at hadapter
    constructor
    · apply hs.traced.apply he _ happly
      exact fun env openEnv hr => hs.none (hresume env openEnv hr).1
    · intro _
      exact (hs.attended hgone).step ⟨hen, hadapter.symm⟩
    · exact fun hp => (hasleep hp).1
    · intro hawake
      have hp : s'.phase = .asleep := by
        generalize s'.phase = p at hawake hgone'
        cases p with
        | awake => exact absurd rfl hawake
        | asleep => rfl
        | gone => exact absurd rfl hgone'
      exact (hasleep hp).2

/-- What can happen to a device and has a result. -/
def Happens (K : KernelConfig) (s : Life) : LifeEvent → Prop
  | .event e => Enabled s.traced.adapter e ∧ (s.traced.apply K e).isSome
    ∧ (nextPhase s.phase e).isSome
  | .remove => s.phase ≠ .gone ∧ s.traced.remove.isSome

instance Happens.decide (K : KernelConfig) (s : Life) : (e : LifeEvent) → Decidable (Happens K s e)
  | .event e => inferInstanceAs (Decidable (Enabled s.traced.adapter e
    ∧ (s.traced.apply K e).isSome ∧ (nextPhase s.phase e).isSome))
  | .remove => inferInstanceAs (Decidable (s.phase ≠ .gone ∧ s.traced.remove.isSome))

/-- The device afterwards. -/
def next (K : KernelConfig) (s : Life) : LifeEvent → Life
  | .event e => {
      traced := (s.traced.apply K e).getD s.traced
      phase := (nextPhase s.phase e).getD s.phase }
  | .remove => { traced := s.traced.remove.getD s.traced, phase := .gone }

/-- What can happen takes the device to the next one. -/
theorem Happens.step {e : LifeEvent} (h : Happens K s e) :
  (system K).step s e (next K s e)
  := by
  cases e with
  | event e =>
    obtain ⟨hen, htraced, hphase⟩ := h
    exact ⟨hen, eq_some_getD htraced _, eq_some_getD hphase _⟩
  | remove =>
    obtain ⟨hgone, htraced⟩ := h
    exact ⟨hgone, eq_some_getD htraced _, rfl⟩

end Life

end Ixgbevf.Queues
