import Ixgbevf.Lib.Run
import Ixgbevf.Rx.Geometry
import Mathlib.Data.List.Basic
import Mathlib.Logic.Function.Basic

/-!
# Queues, vectors and the XDP program

The number of queues the driver uses follows from what the PF grants, the rings are dealt
out to the interrupt vectors, and an XDP program attached to the device is handed to the
Rx rings when their resources are set up.  The model keeps the ring and vector pointers of
the adapter as partial functions; an operation that dereferences a null pointer, or indexes
the vector array out of bounds, has no result.
-/

namespace Ixgbevf.Queues

open Rx (BufferFlags RxConfig Mtu)

/-! ### The adapter -/

/-- The fields of `struct ixgbevf_ring` that tie a ring to its vector, its resources and the
XDP program.  Setting up a ring leaves its buffer array allocated only with its
descriptors. -/
structure Ring where
  /-- The `q_vector` that the ring belongs to. -/
  qVector : ℕ
  /-- `queue_index`. -/
  queueIndex : ℕ
  /-- `reg_idx`. -/
  regIdx : ℕ
  /-- Whether `desc` is not null. -/
  desc : Bool
  /-- Whether `tx_buffer_info` or `rx_buffer_info` is not null. -/
  bufferInfo : Bool
  /-- `xdp_prog`. -/
  xdpProg : Option ℕ
  /-- The flags of `state` that select the buffer layout. -/
  flags : BufferFlags
  desc_of_bufferInfo : bufferInfo = true → desc = true

/-- A `struct ixgbevf_q_vector`: its identity and the rings it serves, a Tx ring marked by
whether it is an XDP ring. -/
structure QVector where
  /-- The identity of the allocation. -/
  id : ℕ
  /-- The rings of `q_vector->tx`, each with `ring_is_xdp` and its `queue_index`. -/
  tx : List (Bool × ℕ)
  /-- The `queue_index` of each ring of `q_vector->rx`. -/
  rx : List ℕ

/-- Whether the network device is present, and if not, what detached it. -/
inductive Presence where
  | present
  | suspended
  | ioError
  deriving DecidableEq, Repr

/-- The ring pointers of the adapter. -/
structure Rings where
  /-- `tx_ring`. -/
  tx : ℕ → Option Ring
  /-- `xdp_ring`. -/
  xdp : ℕ → Option Ring
  /-- `rx_ring`. -/
  rx : ℕ → Option Ring

/-- The part of `struct ixgbevf_adapter` that the queue set-up reads and writes. -/
structure Adapter where
  /-- `xdp_prog`. -/
  xdpProg : Option ℕ
  /-- `num_rx_queues`. -/
  numRxQueues : ℕ
  /-- `num_tx_queues`. -/
  numTxQueues : ℕ
  /-- `num_xdp_queues`. -/
  numXdpQueues : ℕ
  /-- `num_q_vectors`. -/
  numQVectors : ℕ
  /-- The ring pointers. -/
  rings : Rings
  /-- `q_vector`. -/
  qVector : ℕ → Option QVector
  /-- The identity that the next vector allocated takes. -/
  nextId : ℕ
  /-- Whether `msix_entries` is not null. -/
  msixEntries : Bool
  /-- `__IXGBEVF_DOWN`. -/
  down : Bool
  /-- `netif_running`. -/
  running : Bool
  /-- `netif_device_present`. -/
  presence : Presence
  /-- The Rx configuration: the MAC type, the MTU and the legacy flag. -/
  rxConfig : RxConfig

/-- `MAX_Q_VECTORS`. -/
def maxQVectors : ℕ := 2

/-- `IXGBEVF_MAX_RSS_QUEUES`. -/
def maxRssQueues : ℕ := 2

/-- `NON_Q_VECTORS`. -/
def nonQVectors : ℕ := 1

/-- `MIN_MSIX_COUNT`. -/
def minMsixCount : ℕ := 2

/-! ### The number of queues -/

/-- What the rest of the system answers while the interrupt scheme is set up. -/
structure InitEnv where
  /-- `hw->api_version`. -/
  apiVersion : ApiVersion
  /-- Whether `ixgbevf_get_queues` fails. -/
  getQueuesErr : Bool
  /-- The `num_tcs` that `ixgbevf_get_queues` reports. -/
  numTcs : ℕ
  /-- `hw->mac.max_tx_queues`. -/
  maxTxQueues : ℕ
  /-- `num_online_cpus()`. -/
  onlineCpus : ℕ
  /-- Whether the allocation of `msix_entries` fails. -/
  msixEntriesFails : Bool
  /-- The number of MSI-X vectors that `pci_enable_msix_range` can enable. -/
  msixVectors : ℕ
  /-- Whether the allocation of the vector of an index fails. -/
  qVectorFails : ℕ → Bool

/-- The API versions that `ixgbevf_set_num_queues` sets RSS and XDP queues up for. -/
def supportsQueues : ApiVersion → Bool
  | .api11 | .api12 | .api13 | .api15 | .api16 | .api17 => true
  | _ => false

/-- `ixgbevf_set_num_queues`. -/
def setNumQueues (env : InitEnv) (s : Adapter) : Adapter :=
  let s := { s with numRxQueues := 1, numTxQueues := 1, numXdpQueues := 0 }
  if env.getQueuesErr then
    s
  else if 1 < env.numTcs then
    { s with numRxQueues := env.numTcs }
  else if supportsQueues env.apiVersion then
    let rss := min (env.onlineCpus % 2 ^ 16) maxRssQueues
    let rss := if s.xdpProg.isSome && env.maxTxQueues == rss then 1 else rss
    { s with
      numRxQueues := rss
      numTxQueues := rss
      numXdpQueues := if s.xdpProg.isSome then rss else 0 }
  else
    s

/-- `ixgbevf_set_interrupt_capability` with `ixgbevf_acquire_msix_vectors`; the result says
whether it succeeded. -/
def setInterruptCapability (env : InitEnv) (s : Adapter) : Adapter × Bool :=
  let vBudget := min (max s.numRxQueues s.numTxQueues) env.onlineCpus + nonQVectors
  if env.msixEntriesFails then
    ({ s with msixEntries := false }, false)
  else
    let vectors := min vBudget env.msixVectors
    if vectors < minMsixCount then
      ({ s with msixEntries := false }, false)
    else
      ({ s with msixEntries := true, numQVectors := vectors - nonQVectors }, true)

/-! ### Dealing the rings out to the vectors -/

/-- The `while` loops of `ixgbevf_alloc_q_vector`: `count` rings from the index `idx` and the
register index `reg` on. -/
def addRings (mk : ℕ → ℕ → Ring) :
    (count idx reg : ℕ) → (ℕ → Option Ring) → ℕ → Option Ring
  | 0, _, _, rings => rings
  | count + 1, idx, reg, rings =>
    addRings mk count (idx + 1) (reg + 1) (Function.update rings idx (some (mk idx reg)))

/-- A ring as `ixgbevf_alloc_q_vector` leaves it. -/
def freshRing (id idx reg : ℕ) : Ring where
  qVector := id
  queueIndex := idx
  regIdx := reg
  desc := false
  bufferInfo := false
  xdpProg := none
  flags := { usesLargeBuffer := false, usesBuildSkb := false }
  desc_of_bufferInfo := by simp

/-- `ixgbevf_alloc_q_vector`, once its allocation has succeeded. -/
def allocQVector (vIdx txrCount txrIdx xdpCount xdpIdx rxrCount rxrIdx : ℕ) (s : Adapter) :
    Option Adapter :=
  if vIdx < maxQVectors then
    let id := s.nextId
    let regIdx := txrIdx + xdpIdx
    some { s with
      nextId := id + 1
      qVector := Function.update s.qVector vIdx (some {
        id := id
        tx := (List.range' txrIdx txrCount).map (false, ·)
          ++ (List.range' xdpIdx xdpCount).map (true, ·)
        rx := List.range' rxrIdx rxrCount })
      rings := {
        tx := addRings (freshRing id) txrCount txrIdx regIdx s.rings.tx
        xdp := addRings (freshRing id) xdpCount xdpIdx (regIdx + txrCount) s.rings.xdp
        rx := addRings (fun idx _ => freshRing id idx idx) rxrCount rxrIdx rxrIdx s.rings.rx } }
  else
    none

/-- The pointer clearing of `ixgbevf_free_q_vector`. -/
def clearRings (v : QVector) (rings : Rings) : Rings where
  tx i := if (false, i) ∈ v.tx then none else rings.tx i
  xdp i := if (true, i) ∈ v.tx then none else rings.xdp i
  rx i := if i ∈ v.rx then none else rings.rx i

/-- `ixgbevf_free_q_vector`. -/
def freeQVector (vIdx : ℕ) (s : Adapter) : Option Adapter :=
  match s.qVector vIdx with
  | none => none
  | some v =>
    some { s with
      rings := clearRings v s.rings
      qVector := Function.update s.qVector vIdx none }

/-- The loop `while (v_idx--)` that frees the vectors below `vIdx`. -/
def freeQVectorsBelow : (vIdx : ℕ) → Adapter → Option Adapter
  | 0, s => some s
  | vIdx + 1, s => (freeQVector vIdx s).bind (freeQVectorsBelow vIdx)

/-- `DIV_ROUND_UP`. -/
def divRoundUp (n d : ℕ) : ℕ := (n + d - 1) / d

/-- The counters of `ixgbevf_alloc_q_vectors`. -/
structure Dealing where
  /-- `q_vectors`. -/
  qVectors : ℕ
  /-- `v_idx`. -/
  vIdx : ℕ
  /-- `rxr_remaining`. -/
  rxrRemaining : ℕ
  /-- `txr_remaining`. -/
  txrRemaining : ℕ
  /-- `xdp_remaining`. -/
  xdpRemaining : ℕ
  /-- `rxr_idx`. -/
  rxrIdx : ℕ
  /-- `txr_idx`. -/
  txrIdx : ℕ
  /-- `xdp_idx`. -/
  xdpIdx : ℕ

/-- The outcome of a dealing loop: the counters and the adapter, and whether an allocation
failed. -/
abbrev DealResult := Option (Dealing × Adapter × Bool)

/-- The first loop of `ixgbevf_alloc_q_vectors`, which gives vectors to the Rx rings alone;
`fuel` bounds the iterations. -/
def dealRx (env : InitEnv) : (fuel : ℕ) → Dealing → Adapter → DealResult
  | 0, d, s => some (d, s, false)
  | fuel + 1, d, s =>
    if d.rxrRemaining = 0 then
      some (d, s, false)
    else if env.qVectorFails d.vIdx then
      some (d, s, true)
    else
      let rqpv := divRoundUp d.rxrRemaining d.qVectors
      (allocQVector d.vIdx 0 0 0 0 rqpv d.rxrIdx s).bind fun s =>
        dealRx env fuel { d with
          qVectors := d.qVectors - 1
          vIdx := d.vIdx + 1
          rxrRemaining := d.rxrRemaining - rqpv
          rxrIdx := d.rxrIdx + rqpv } s

/-- The second loop of `ixgbevf_alloc_q_vectors`, with `q_vectors` vectors left. -/
def dealAll (env : InitEnv) : (qVectors : ℕ) → Dealing → Adapter → DealResult
  | 0, d, s => some (d, s, false)
  | qVectors + 1, d, s =>
    if env.qVectorFails d.vIdx then
      some (d, s, true)
    else
      let rqpv := divRoundUp d.rxrRemaining (qVectors + 1)
      let tqpv := divRoundUp d.txrRemaining (qVectors + 1)
      let xqpv := divRoundUp d.xdpRemaining (qVectors + 1)
      (allocQVector d.vIdx tqpv d.txrIdx xqpv d.xdpIdx rqpv d.rxrIdx s).bind fun s =>
        dealAll env qVectors {
          qVectors := qVectors
          vIdx := d.vIdx + 1
          rxrRemaining := d.rxrRemaining - rqpv
          rxrIdx := d.rxrIdx + rqpv
          txrRemaining := d.txrRemaining - tqpv
          txrIdx := d.txrIdx + tqpv
          xdpRemaining := d.xdpRemaining - xqpv
          xdpIdx := d.xdpIdx + xqpv } s

/-- The exit of `ixgbevf_alloc_q_vectors`: on an error the counts are cleared and the vectors
allocated so far are freed. -/
def finishDealing (d : Dealing) (s : Adapter) (failed : Bool) : Option (Adapter × Bool) :=
  if failed then
    (freeQVectorsBelow d.vIdx { s with
      numTxQueues := 0, numXdpQueues := 0, numRxQueues := 0, numQVectors := 0 }).map (·, false)
  else
    some (s, true)

/-- `ixgbevf_alloc_q_vectors`; the result says whether it succeeded. -/
def allocQVectors (env : InitEnv) (s : Adapter) : Option (Adapter × Bool) :=
  let d : Dealing := {
    qVectors := s.numQVectors
    vIdx := 0
    rxrRemaining := s.numRxQueues
    txrRemaining := s.numTxQueues
    xdpRemaining := s.numXdpQueues
    rxrIdx := 0
    txrIdx := 0
    xdpIdx := 0 }
  let first :=
    if d.rxrRemaining + d.txrRemaining + d.xdpRemaining ≤ d.qVectors then
      dealRx env d.rxrRemaining d s
    else
      some (d, s, false)
  first.bind fun (d, s, failed) =>
    if failed then
      finishDealing d s true
    else
      (dealAll env d.qVectors d s).bind fun (d, s, failed) => finishDealing d s failed

/-- `ixgbevf_init_interrupt_scheme`; the result says whether it succeeded. -/
def initInterruptScheme (env : InitEnv) (s : Adapter) : Option (Adapter × Bool) :=
  match setInterruptCapability env (setNumQueues env s) with
  | (s, false) => some (s, false)
  | (s, true) =>
    (allocQVectors env s).map fun
      | (s, true) => ({ s with down := true }, true)
      | (s, false) => ({ s with msixEntries := false }, false)

/-- `ixgbevf_clear_interrupt_scheme`. -/
def clearInterruptScheme (s : Adapter) : Option Adapter :=
  (freeQVectorsBelow s.numQVectors { s with
    numTxQueues := 0, numXdpQueues := 0, numRxQueues := 0, numQVectors := 0 }).map
      fun s => { s with msixEntries := false }

/-! ### Ring resources -/

/-- How the set-up of a Tx ring ends. -/
inductive TxSetup where
  | ok
  | bufferInfoFails
  | descFails

/-- How the set-up of an Rx ring ends. -/
inductive RxSetup where
  | ok
  | bufferInfoFails
  | descFails
  | rxqRegFails

/-- `ixgbevf_setup_tx_resources`; the result says whether it succeeded. -/
def setupTxResources (o : TxSetup) (r : Ring) : Ring × Bool :=
  match o with
  | .ok => ({ r with bufferInfo := true, desc := true, desc_of_bufferInfo := by simp }, true)
  | .bufferInfoFails => ({ r with bufferInfo := false, desc_of_bufferInfo := by simp }, false)
  | .descFails =>
    ({ r with bufferInfo := false, desc := false, desc_of_bufferInfo := by simp }, false)

/-- `ixgbevf_setup_rx_resources` with the adapter's program `prog`; the result says whether it
succeeded. -/
def setupRxResources (prog : Option ℕ) (o : RxSetup) (r : Ring) : Ring × Bool :=
  match o with
  | .ok =>
    ({ r with xdpProg := prog, bufferInfo := true, desc := true, desc_of_bufferInfo := by simp },
      true)
  | .bufferInfoFails => ({ r with bufferInfo := false, desc_of_bufferInfo := by simp }, false)
  | .descFails =>
    ({ r with bufferInfo := false, desc := false, desc_of_bufferInfo := by simp }, false)
  | .rxqRegFails =>
    ({ r with bufferInfo := false, desc := true, desc_of_bufferInfo := by simp }, false)

/-- `ixgbevf_free_tx_resources`. -/
def freeTxResources (r : Ring) : Ring :=
  { r with bufferInfo := false, desc := false, desc_of_bufferInfo := by simp }

/-- `ixgbevf_free_rx_resources`. -/
def freeRxResources (r : Ring) : Ring :=
  { r with xdpProg := none, bufferInfo := false, desc := false, desc_of_bufferInfo := by simp }

/-- A loop that updates the rings below `n` one after the other. -/
def forRings (f : Ring → Ring) : (n : ℕ) → (ℕ → Option Ring) → Option (ℕ → Option Ring)
  | 0, rings => some rings
  | n + 1, rings =>
    match rings n with
    | none => none
    | some r => forRings f n (Function.update rings n (some (f r)))

/-- A loop that sets up `n` rings from the index `i` on, up to the first failure; the result
says at which index it failed. -/
def setupRings (setup : ℕ → Ring → Ring × Bool) :
    (n i : ℕ) → (ℕ → Option Ring) → Option ((ℕ → Option Ring) × Option ℕ)
  | 0, _, rings => some (rings, none)
  | n + 1, i, rings =>
    match rings i with
    | none => none
    | some r =>
      let rings := Function.update rings i (some (setup i r).1)
      if (setup i r).2 then setupRings setup n (i + 1) rings else some (rings, some i)

/-- `ixgbevf_setup_all_tx_resources`; the result says whether it succeeded. -/
def setupAllTxResources (txSetup xdpSetup : ℕ → TxSetup) (s : Adapter) :
    Option (Adapter × Bool) := do
  let (tx, failed) ← setupRings (fun i => setupTxResources (txSetup i)) s.numTxQueues 0 s.rings.tx
  match failed with
  | some i =>
    let tx ← forRings freeTxResources i tx
    return ({ s with rings := { s.rings with tx := tx } }, false)
  | none =>
    let (xdp, failed) ←
      setupRings (fun i => setupTxResources (xdpSetup i)) s.numXdpQueues 0 s.rings.xdp
    match failed with
    | some j =>
      let xdp ← forRings freeTxResources j xdp
      let tx ← forRings freeTxResources s.numTxQueues tx
      return ({ s with rings := { s.rings with tx := tx, xdp := xdp } }, false)
    | none => return ({ s with rings := { s.rings with tx := tx, xdp := xdp } }, true)

/-- `ixgbevf_setup_all_rx_resources`; the result says whether it succeeded. -/
def setupAllRxResources (rxSetup : ℕ → RxSetup) (s : Adapter) : Option (Adapter × Bool) := do
  let (rx, failed) ←
    setupRings (fun i => setupRxResources s.xdpProg (rxSetup i)) s.numRxQueues 0 s.rings.rx
  match failed with
  | some i =>
    let rx ← forRings freeRxResources i rx
    return ({ s with rings := { s.rings with rx := rx } }, false)
  | none => return ({ s with rings := { s.rings with rx := rx } }, true)

/-- `ixgbevf_free_all_tx_resources`. -/
def freeAllTxResources (s : Adapter) : Option Adapter := do
  let free := fun r : Ring => if r.desc then freeTxResources r else r
  let tx ← forRings free s.numTxQueues s.rings.tx
  let xdp ← forRings free s.numXdpQueues s.rings.xdp
  return { s with rings := { s.rings with tx := tx, xdp := xdp } }

/-- `ixgbevf_free_all_rx_resources`. -/
def freeAllRxResources (s : Adapter) : Option Adapter := do
  let free := fun r : Ring => if r.desc then freeRxResources r else r
  let rx ← forRings free s.numRxQueues s.rings.rx
  return { s with rings := { s.rings with rx := rx } }

/-! ### Up and down -/

/-- Whether the first `n` rings can be configured, which clears their buffer arrays. -/
def configurable (n : ℕ) (rings : ℕ → Option Ring) : Bool :=
  (List.range n).all fun i => (rings i).any (·.bufferInfo)

/-- The part of `ixgbevf_configure` that touches the rings: `ixgbevf_configure_tx` and
`ixgbevf_configure_rx`. -/
def configure (K : KernelConfig) (s : Adapter) : Option Adapter := do
  let flags := Rx.setRxBufferLen K s.rxConfig
  if configurable s.numTxQueues s.rings.tx && configurable s.numXdpQueues s.rings.xdp
      && configurable s.numRxQueues s.rings.rx then
    let rx ← forRings (fun r => { r with flags := flags }) s.numRxQueues s.rings.rx
    return { s with rings := { s.rings with rx := rx } }
  else
    none

/-- Whether the vectors below `n` are allocated. -/
def vectorsPresent (n : ℕ) (s : Adapter) : Bool := (List.range n).all fun v => (s.qVector v).isSome

/-- `ixgbevf_request_irq`; the result says whether it succeeded. -/
def requestIrq (fails : Bool) (s : Adapter) : Option (Adapter × Bool) :=
  if s.msixEntries && vectorsPresent s.numQVectors s then
    if fails then some ({ s with numQVectors := 0 }, false) else some (s, true)
  else
    none

/-- `ixgbevf_up_complete`. -/
def upComplete (s : Adapter) : Option Adapter :=
  if vectorsPresent s.numQVectors s then some { s with down := false } else none

/-- `ixgbevf_up`. -/
def up (K : KernelConfig) (s : Adapter) : Option Adapter := (configure K s).bind upComplete

/-- `ixgbevf_down`, which masks the interrupts and cleans every ring. -/
def ixgbevfDown (s : Adapter) : Option Adapter :=
  if s.down then
    some s
  else if s.msixEntries && vectorsPresent s.numQVectors s then do
    let _ ← forRings id s.numTxQueues s.rings.tx
    let _ ← forRings id s.numXdpQueues s.rings.xdp
    let _ ← forRings id s.numRxQueues s.rings.rx
    return { s with down := true }
  else
    none

/-- What the rest of the system answers while the interface is opened. -/
structure OpenEnv where
  /-- Whether `hw->adapter_stopped` is still set after a reset. -/
  stopped : Bool
  /-- `__IXGBEVF_TESTING`. -/
  testing : Bool
  /-- How the set-up of each Tx ring ends. -/
  txSetup : ℕ → TxSetup
  /-- How the set-up of each XDP ring ends. -/
  xdpSetup : ℕ → TxSetup
  /-- How the set-up of each Rx ring ends. -/
  rxSetup : ℕ → RxSetup
  /-- Whether `request_irq` fails. -/
  irqFails : Bool
  /-- Whether telling the stack the queue counts fails. -/
  setQueuesFails : Bool

/-- The labels `err_req_irq` and after of `ixgbevf_open`. -/
def openFailed (s : Adapter) : Option (Adapter × Bool) :=
  ((freeAllRxResources s).bind freeAllTxResources).map (·, false)

/-- `ixgbevf_open`; the result says whether it succeeded. -/
def ixgbevfOpen (K : KernelConfig) (env : OpenEnv) (s : Adapter) : Option (Adapter × Bool) := do
  if s.numQVectors = 0 || env.stopped || env.testing then
    return (s, false)
  let (s, ok) ← setupAllTxResources env.txSetup env.xdpSetup s
  if !ok then
    return (s, false)
  let (s, ok) ← setupAllRxResources env.rxSetup s
  if !ok then
    return (← freeAllTxResources s, false)
  let s ← configure K s
  let (s, ok) ← requestIrq env.irqFails s
  if !ok then
    openFailed s
  else if env.setQueuesFails then
    openFailed s
  else
    return (← upComplete s, true)

/-- `ixgbevf_close_suspend`. -/
def closeSuspend (s : Adapter) : Option Adapter :=
  ((ixgbevfDown s).bind freeAllTxResources).bind freeAllRxResources

/-- `ixgbevf_close`. -/
def ixgbevfClose (s : Adapter) : Option Adapter :=
  if s.presence = .present then closeSuspend s else some s

/-- Closing the interface where it runs. -/
def closeIfRunning (s : Adapter) : Option Adapter := if s.running then ixgbevfClose s else some s

/-- Opening the interface again where it runs, with the result ignored. -/
def openIfRunning (K : KernelConfig) (env : OpenEnv) (s : Adapter) : Option Adapter :=
  if s.running then (ixgbevfOpen K env s).map (·.1) else some s

/-- `ixgbevf_reinit_locked`. -/
def reinitLocked (K : KernelConfig) (s : Adapter) : Option Adapter := (ixgbevfDown s).bind (up K)

/-- The sequence by which `ixgbevf_xdp_setup` and `ixgbevf_queue_reset_subtask` reinitialise
queues and interrupts; both ignore the results. -/
def reinitQueues (K : KernelConfig) (env : InitEnv) (openEnv : OpenEnv) (s : Adapter) :
    Option Adapter := do
  let s ← closeIfRunning s
  let s ← clearInterruptScheme s
  let (s, _) ← initInterruptScheme env s
  openIfRunning K openEnv s

/-- The frame size that `ixgbevf_xdp_setup` requires a buffer to hold. -/
def xdpFrameSize (s : Adapter) : ℕ := Rx.maxFrame s.rxConfig + 4

/-- The check of `ixgbevf_xdp_setup` on the rings below `n`. -/
def xdpFits (K : KernelConfig) (s : Adapter) : (n : ℕ) → Option Bool
  | 0 => some true
  | n + 1 =>
    match s.rings.rx n with
    | none => none
    | some r => if Rx.rxBufsz K r.flags < xdpFrameSize s then some false else xdpFits K s n

/-- `ixgbevf_xdp_setup`. -/
def xdpSetup (K : KernelConfig) (prog : Option ℕ) (env : InitEnv) (openEnv : OpenEnv)
    (s : Adapter) : Option Adapter := do
  if ← xdpFits K s s.numRxQueues then
    let old := s.xdpProg
    let s := { s with xdpProg := prog }
    if prog.isSome ≠ old.isSome then
      reinitQueues K env openEnv s
    else
      let rx ← forRings (fun r => { r with xdpProg := prog }) s.numRxQueues s.rings.rx
      return { s with rings := { s.rings with rx := rx } }
  else
    return s

/-- The swap of `ixgbevf_set_ringparam` on a running interface, when the set-up of every clone
succeeded; `tx` and `rx` say which of the counts change. -/
def setRingparam (K : KernelConfig) (tx rx : Bool) (s : Adapter) : Option Adapter := do
  let s ← ixgbevfDown s
  let newTx := if tx then fun r => (setupTxResources .ok r).1 else id
  let newRx := if rx then fun r => (setupRxResources s.xdpProg .ok r).1 else id
  let txRings ← forRings newTx s.numTxQueues s.rings.tx
  let xdpRings ← forRings newTx s.numXdpQueues s.rings.xdp
  let rxRings ← forRings newRx s.numRxQueues s.rings.rx
  up K { s with rings := { tx := txRings, xdp := xdpRings, rx := rxRings } }

/-! ### Runs of the device -/

/-- `ixgbevf_suspend`. -/
def suspend (s : Adapter) : Option Adapter :=
  let s := { s with presence := .suspended }
  (if s.running then closeSuspend s else some s).bind clearInterruptScheme

/-- `ixgbevf_resume`, which attaches the device only when everything succeeded. -/
def resume (K : KernelConfig) (env : InitEnv) (openEnv : OpenEnv) (s : Adapter) :
    Option Adapter :=
  (initInterruptScheme env s).bind fun (s, ok) =>
    (if ok && s.running then ixgbevfOpen K openEnv s else some (s, ok)).map fun (s, ok) =>
      if ok then { s with presence := .present } else s

/-- `ixgbevf_io_error_detected`. -/
def ioErrorDetected (s : Adapter) : Option Adapter :=
  let s := { s with presence := .ioError }
  if s.running then closeSuspend s else some s

/-- `ixgbevf_io_resume`. -/
def ioResume (K : KernelConfig) (openEnv : OpenEnv) (s : Adapter) : Option Adapter :=
  (openIfRunning K openEnv s).map fun s => { s with presence := .present }

/-- The stack opens the interface, which runs unless `ixgbevf_open` fails. -/
def devOpen (K : KernelConfig) (openEnv : OpenEnv) (s : Adapter) : Option Adapter :=
  (ixgbevfOpen K openEnv { s with running := true }).map fun (s, ok) => { s with running := ok }

/-- The stack stops the interface. -/
def devStop (s : Adapter) : Option Adapter :=
  (ixgbevfClose s).map fun s => { s with running := false }

/-- `ixgbevf_change_mtu`, which refuses a change while a program is attached. -/
def changeMtu (K : KernelConfig) (mtu : Mtu) (s : Adapter) : Option Adapter :=
  if s.xdpProg.isSome then
    some s
  else
    let s := { s with rxConfig := { s.rxConfig with mtu := mtu } }
    if s.running then reinitLocked K s else some s

/-- `ixgbevf_set_priv_flags`. -/
def setPrivFlags (K : KernelConfig) (legacyRx : Bool) (s : Adapter) : Option Adapter :=
  if legacyRx = s.rxConfig.legacyRx then
    some s
  else
    let s := { s with rxConfig := { s.rxConfig with legacyRx := legacyRx } }
    if s.running then reinitLocked K s else some s

/-- The offline test of `ixgbevf_diag_test`. -/
def diagTest (K : KernelConfig) (openEnv : OpenEnv) (s : Adapter) : Option Adapter :=
  (closeIfRunning s).bind (openIfRunning K openEnv)

/-- What happens to the device, each under the lock of the network stack, with what the rest
of the system answers meanwhile. -/
inductive Event where
  | devOpen (openEnv : OpenEnv)
  | devStop
  | xdpSetup (prog : Option ℕ) (env : InitEnv) (openEnv : OpenEnv)
  | queueReset (env : InitEnv) (openEnv : OpenEnv)
  | reinit
  | setRingparam (tx rx : Bool)
  | changeMtu (mtu : Mtu)
  | setPrivFlags (legacyRx : Bool)
  | diagTest (openEnv : OpenEnv)
  | suspend
  | resume (env : InitEnv) (openEnv : OpenEnv)
  | ioErrorDetected
  | ioResume (openEnv : OpenEnv)
  | removed

/-- When an event can happen: the stack calls the device's operations while it is present, the
service task tests that the device is up, and a device is resumed from what detached it. -/
def Enabled (s : Adapter) : Event → Prop
  | .devOpen _ => s.running = false ∧ s.presence = .present
  | .devStop => s.running = true
  | .xdpSetup _ _ _ => s.presence = .present
  | .queueReset _ _ => s.down = false
  | .reinit => s.running = true ∧ s.presence = .present
  | .setRingparam _ _ => s.running = true ∧ s.presence = .present
  | .changeMtu _ => s.presence = .present
  | .setPrivFlags _ => s.presence = .present
  | .diagTest _ => s.presence = .present
  | .suspend => True
  | .resume _ _ => s.presence = .suspended
  | .ioErrorDetected => s.presence = .present
  | .ioResume _ => s.presence = .ioError
  | .removed => s.down = false

/-- What an event does. -/
def apply (K : KernelConfig) (s : Adapter) : Event → Option Adapter
  | .devOpen openEnv => Queues.devOpen K openEnv s
  | .devStop => Queues.devStop s
  | .xdpSetup prog env openEnv => Queues.xdpSetup K prog env openEnv s
  | .queueReset env openEnv => reinitQueues K env openEnv s
  | .reinit => reinitLocked K s
  | .setRingparam tx rx => Queues.setRingparam K tx rx s
  | .changeMtu mtu => Queues.changeMtu K mtu s
  | .setPrivFlags legacyRx => Queues.setPrivFlags K legacyRx s
  | .diagTest openEnv => Queues.diagTest K openEnv s
  | .suspend => Queues.suspend s
  | .resume env openEnv => Queues.resume K env openEnv s
  | .ioErrorDetected => Queues.ioErrorDetected s
  | .ioResume openEnv => Queues.ioResume K openEnv s
  | .removed => ixgbevfDown s

/-- The adapter before `ixgbevf_probe` sets up the interrupt scheme. -/
def blank (A : RxConfig) : Adapter where
  xdpProg := none
  numRxQueues := 0
  numTxQueues := 0
  numXdpQueues := 0
  numQVectors := 0
  rings := { tx := fun _ => none, xdp := fun _ => none, rx := fun _ => none }
  qVector _ := none
  nextId := 0
  msixEntries := false
  down := true
  running := false
  presence := .present
  rxConfig := A

/-- The device from the successful end of `ixgbevf_probe` on. -/
def device (K : KernelConfig) : TransSystem Adapter Event where
  init s := ∃ A env, initInterruptScheme env (blank A) = some (s, true)
  step s e s' := Enabled s e ∧ apply K s e = some s'

/-! ### Runs that are computed -/

instance Enabled.decide (s : Adapter) : (e : Event) → Decidable (Enabled s e)
  | .devOpen _ => inferInstanceAs (Decidable (s.running = false ∧ s.presence = .present))
  | .devStop => inferInstanceAs (Decidable (s.running = true))
  | .xdpSetup _ _ _ => inferInstanceAs (Decidable (s.presence = .present))
  | .queueReset _ _ => inferInstanceAs (Decidable (s.down = false))
  | .reinit => inferInstanceAs (Decidable (s.running = true ∧ s.presence = .present))
  | .setRingparam _ _ => inferInstanceAs (Decidable (s.running = true ∧ s.presence = .present))
  | .changeMtu _ => inferInstanceAs (Decidable (s.presence = .present))
  | .setPrivFlags _ => inferInstanceAs (Decidable (s.presence = .present))
  | .diagTest _ => inferInstanceAs (Decidable (s.presence = .present))
  | .suspend => inferInstanceAs (Decidable True)
  | .resume _ _ => inferInstanceAs (Decidable (s.presence = .suspended))
  | .ioErrorDetected => inferInstanceAs (Decidable (s.presence = .present))
  | .ioResume _ => inferInstanceAs (Decidable (s.presence = .ioError))
  | .removed => inferInstanceAs (Decidable (s.down = false))

/-- An event that can happen and has a result. -/
def Happens (K : KernelConfig) (s : Adapter) (e : Event) : Prop :=
  Enabled s e ∧ (apply K s e).isSome

instance Happens.decide (K : KernelConfig) (s : Adapter) (e : Event) :
    Decidable (Happens K s e) :=
  inferInstanceAs (Decidable (Enabled s e ∧ (apply K s e).isSome))

/-- The adapter after an event. -/
def next (K : KernelConfig) (s : Adapter) (e : Event) : Adapter := (apply K s e).getD s

/-- An event that can happen takes the device to the next adapter. -/
theorem Happens.step {K : KernelConfig} {s : Adapter} {e : Event} (h : Happens K s e) :
  (device K).step s e (next K s e)
  := by
  obtain ⟨hen, hsome⟩ := h
  obtain ⟨s', hs'⟩ := Option.isSome_iff_exists.mp hsome
  constructor
  · apply hen
  · rw [next, hs', Option.getD_some]

end Ixgbevf.Queues
