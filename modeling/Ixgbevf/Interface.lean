import Ixgbevf.Lib.Ledger
import Ixgbevf.Lib.Loops
import Ixgbevf.Queues.Dealing
import Ixgbevf.Rx.Pages
import Ixgbevf.Rx.Queue

/-!
# Opening and closing the interface

What `ixgbevf_open` takes, what its error exits and `ixgbevf_close_suspend` give back, and what
they tell the hardware meanwhile.  A call of the driver keeps a list of its effects: resources
taken and given back, the pages of an Rx ring given back, and the writes that enable and disable
the Rx queues or reset the function.  A call that follows a null pointer, or walks buffers that
nothing has written, has no result.
-/

namespace Ixgbevf.Interface

open Queues (TxSetup RxSetup InitEnv initInterruptScheme)
open Rx (RxQueue BufferFlags PageAnswer)
open Loops

/-! ### Data -/

/-- A ring that transmits belongs to the stack or to XDP. -/
inductive TxKind where
  | tx
  | xdp
  deriving DecidableEq, Repr

/-- What the driver takes for an interface. -/
inductive Resource where
  /-- `tx_buffer_info` -/
  | txBufferInfo (kind : TxKind) (i : ℕ)
  /-- `desc` of a ring that transmits -/
  | txDesc (kind : TxKind) (i : ℕ)
  /-- `rx_buffer_info` -/
  | rxBufferInfo (i : ℕ)
  /-- `desc` of an Rx ring -/
  | rxDesc (i : ℕ)
  /-- the registration of `xdp_rxq` -/
  | xdpRxq (i : ℕ)
  /-- the interrupt of an entry of `msix_entries` -/
  | irq (vector : ℕ)
  deriving DecidableEq, Repr

/-- An effect of the driver. -/
inductive Effect where
  /-- a resource is taken or given back -/
  | use (u : Use Resource)
  /-- the pages in an Rx ring are unmapped and freed -/
  | clean (queue : ℕ)
  /-- `ixgbevf_configure_rx_ring` sets `IXGBE_RXDCTL_ENABLE` -/
  | enable (queue : ℕ)
  /-- `ixgbevf_disable_rx_queue` clears `IXGBE_RXDCTL_ENABLE` -/
  | disable (queue : ℕ)
  /-- `ixgbe_reset_hw_vf` writes `IXGBE_CTRL_RST` -/
  | reset
  /-- `ixgbevf_remove_adapter` clears `hw_addr` -/
  | removed
  /-- `ixgbevf_configure_rx` sets up the hash of devices that have one, by
  `ixgbevf_setup_vfmrqc` -/
  | hash
  deriving DecidableEq, Repr

/-- A `struct ixgbevf_ring` that transmits. -/
structure TxRing where
  /-- Whether `desc` is not null. -/
  desc : Bool
  /-- Whether `tx_buffer_info` is not null. -/
  bufferInfo : Bool
  /-- Whether `tx_buffer_info` has been written since it was allocated. -/
  written : Bool
  /-- `next_to_use`. -/
  nextToUse : ℕ
  /-- `next_to_clean`. -/
  nextToClean : ℕ

/-- A `struct ixgbevf_ring` that receives. -/
structure RxRing where
  /-- Whether `desc` is not null. -/
  desc : Bool
  /-- Whether `rx_buffer_info` is not null. -/
  bufferInfo : Bool
  /-- Whether `xdp_rxq` is registered. -/
  xdpRxq : Bool
  /-- The queue: indices, buffers and pages. -/
  queue : RxQueue

/-- The part of `struct ixgbevf_adapter` that opening and closing use, and what they find of the
device. -/
structure Adapter where
  /-- `num_tx_queues` and `num_xdp_queues`. -/
  numTxQueues : TxKind → ℕ
  /-- `num_rx_queues`. -/
  numRxQueues : ℕ
  /-- `num_q_vectors`. -/
  numQVectors : ℕ
  /-- The rings of `tx_ring` and `xdp_ring`. -/
  txRing : TxKind → ℕ → TxRing
  /-- The rings of `rx_ring`. -/
  rxRing : ℕ → RxRing
  /-- Whether an entry of `q_vector` has a ring. -/
  serves : ℕ → Bool
  /-- Whether `msix_entries` is not null. -/
  msixEntries : Bool
  /-- `irqs_ready`. -/
  irqsReady : Bool
  /-- `__IXGBEVF_DOWN`. -/
  down : Bool
  /-- `__IXGBEVF_TESTING`. -/
  testing : Bool
  /-- `__IXGBEVF_REMOVING`. -/
  removing : Bool
  /-- `hw->adapter_stopped`. -/
  adapterStopped : Bool
  /-- Whether `hw->hw_addr` is not null. -/
  hwAddr : Bool
  /-- Whether the device answers when its registers are read. -/
  answers : Bool
  /-- `pci_channel_offline`. -/
  channelOffline : Bool

/-- A call of the driver: the adapter, and the effects of the call so far. -/
structure Call where
  /-- The adapter. -/
  adapter : Adapter
  /-- The effects. -/
  effects : List Effect

/-- What the rest of the system answers while the rings are configured. -/
structure ConfigEnv where
  /-- The buffer layout of each Rx ring. -/
  flags : ℕ → BufferFlags
  /-- How the allocation of a page ends, for each Rx ring and slot. -/
  pages : ℕ → ℕ → PageAnswer

/-- What the rest of the system answers while the interface is opened. -/
structure OpenEnv extends ConfigEnv where
  /-- Whether the reset of a stopped adapter succeeds. -/
  restarts : Bool
  /-- Whether the reset of the error exit succeeds. -/
  resets : Bool
  /-- How the set-up of each ring that transmits ends. -/
  txSetup : TxKind → ℕ → TxSetup
  /-- How the set-up of each Rx ring ends. -/
  rxSetup : ℕ → RxSetup
  /-- Whether `request_irq` fails for an entry of `msix_entries`. -/
  irqFails : ℕ → Bool
  /-- Whether `netif_set_real_num_tx_queues` fails. -/
  setTxQueuesFails : Bool
  /-- Whether `netif_set_real_num_rx_queues` fails. -/
  setRxQueuesFails : Bool

namespace Call

/-- The resources that the call has taken and given back. -/
def uses (c : Call) : List (Use Resource) :=
  c.effects.filterMap fun
    | .use u => some u
    | _ => none

/-- Effects of the call. -/
def emit (es : List Effect) (c : Call) : Call := { c with effects := c.effects ++ es }

/-- Change a ring that transmits. -/
def setTx (kind : TxKind) (i : ℕ) (r : TxRing) (c : Call) : Call :=
  { c with adapter := { c.adapter with
      txRing := Function.update c.adapter.txRing kind
        (Function.update (c.adapter.txRing kind) i r) } }

/-- Change an Rx ring. -/
def setRx (i : ℕ) (r : RxRing) (c : Call) : Call :=
  { c with adapter := { c.adapter with rxRing := Function.update c.adapter.rxRing i r } }

/-! ### The registers -/

/-- A register is read; the result says whether the device answered.  The read that fails marks
the adapter as removed. -/
def readReg (c : Call) : Call × Bool :=
  if c.adapter.hwAddr then
    if c.adapter.answers then
      (c, true)
    else
      (emit [.removed] { c with adapter := { c.adapter with hwAddr := false } }, false)
  else
    (c, false)

/-- A register is read and written, with an effect if the write reaches the device. -/
def writeReg (e : Effect) (c : Call) : Call :=
  match c.readReg with
  | (c, true) => c.emit [e]
  | (c, false) => c

/-- `ixgbevf_disable_rx_queue`. -/
def disableRxQueue (i : ℕ) (c : Call) : Call := c.writeReg (.disable i)

/-- `ixgbevf_reset`, where `resets` says whether `reset_hw` succeeds. -/
def reset (resets : Bool) (c : Call) : Call :=
  if !c.adapter.hwAddr || c.adapter.removing then
    c
  else
    let c := writeReg .reset { c with adapter := { c.adapter with adapterStopped := true } }
    if resets && c.adapter.hwAddr then
      { c with adapter := { c.adapter with adapterStopped := false } }
    else
      c

/-! ### The resources of a ring -/

/-- `ixgbevf_setup_tx_resources`; the result says whether it succeeded. -/
def setupTxResources (o : TxSetup) (kind : TxKind) (i : ℕ) (c : Call) : Call × Bool :=
  let r := c.adapter.txRing kind i
  match o with
  | .ok =>
    ((c.setTx kind i { r with bufferInfo := true, desc := true, written := false }).emit
      [.use (.take (.txBufferInfo kind i)), .use (.take (.txDesc kind i))], true)
  | .bufferInfoFails => (c.setTx kind i { r with bufferInfo := false }, false)
  | .descFails =>
    ((c.setTx kind i { r with bufferInfo := false, desc := false }).emit
      [.use (.take (.txBufferInfo kind i)), .use (.give (.txBufferInfo kind i))], false)

/-- `ixgbevf_clean_tx_ring`. -/
def cleanTxRing (kind : TxKind) (i : ℕ) (c : Call) : Option Call :=
  let r := c.adapter.txRing kind i
  if r.nextToClean = r.nextToUse || r.bufferInfo && r.written then
    some (c.setTx kind i { r with nextToUse := 0, nextToClean := 0 })
  else
    none

/-- `ixgbevf_free_tx_resources`. -/
def freeTxResources (kind : TxKind) (i : ℕ) (c : Call) : Option Call :=
  (c.cleanTxRing kind i).map fun c =>
    let r := c.adapter.txRing kind i
    let info := if r.bufferInfo then [Effect.use (.give (.txBufferInfo kind i))] else []
    let desc := if r.desc then [Effect.use (.give (.txDesc kind i))] else []
    (c.setTx kind i { r with bufferInfo := false, desc := false }).emit (info ++ desc)

/-- `ixgbevf_setup_rx_resources`; the result says whether it succeeded. -/
def setupRxResources (o : RxSetup) (i : ℕ) (c : Call) : Call × Bool :=
  let r := c.adapter.rxRing i
  match o with
  | .ok =>
    ((c.setRx i { r with bufferInfo := true, desc := true, xdpRxq := true }).emit
      [.use (.take (.rxBufferInfo i)), .use (.take (.rxDesc i)), .use (.take (.xdpRxq i))], true)
  | .bufferInfoFails => (c.setRx i { r with bufferInfo := false }, false)
  | .descFails =>
    ((c.setRx i { r with bufferInfo := false, desc := false }).emit
      [.use (.take (.rxBufferInfo i)), .use (.give (.rxBufferInfo i))], false)
  | .rxqRegFails =>
    ((c.setRx i { r with bufferInfo := false, desc := true }).emit
      [.use (.take (.rxBufferInfo i)), .use (.take (.rxDesc i)),
        .use (.give (.rxBufferInfo i))], false)

/-- `ixgbevf_clean_rx_ring`. -/
def cleanRxRing (i : ℕ) (c : Call) : Option Call :=
  let r := c.adapter.rxRing i
  r.queue.cleanRxRing.map fun queue =>
    (c.setRx i { r with queue := queue }).emit
      (if r.queue.ring.nextToClean = r.queue.ring.nextToAlloc then [] else [.clean i])

/-- `ixgbevf_free_rx_resources`. -/
def freeRxResources (i : ℕ) (c : Call) : Option Call :=
  (c.cleanRxRing i).map fun c =>
    let r := c.adapter.rxRing i
    let rxq := if r.xdpRxq then [Effect.use (.give (.xdpRxq i))] else []
    let info := if r.bufferInfo then [Effect.use (.give (.rxBufferInfo i))] else []
    let desc := if r.desc then [Effect.use (.give (.rxDesc i))] else []
    (c.setRx i { r with bufferInfo := false, desc := false, xdpRxq := false }).emit
      (rxq ++ info ++ desc)

/-! ### The resources of all rings -/

/-- `ixgbevf_setup_all_tx_resources`; the result says whether it succeeded. -/
def setupAllTxResources (txSetup : TxKind → ℕ → TxSetup) (c : Call) : Option (Call × Bool) :=
  match tryFrom (fun i => setupTxResources (txSetup .tx i) .tx i) (c.adapter.numTxQueues .tx) 0 c with
  | (c, some i) => (downFrom (freeTxResources .tx) i c).map (·, false)
  | (c, none) =>
    match tryFrom (fun j => setupTxResources (txSetup .xdp j) .xdp j)
      (c.adapter.numTxQueues .xdp) 0 c with
    | (c, some j) =>
      ((downFrom (freeTxResources .xdp) j c).bind
        (downFrom (freeTxResources .tx) (c.adapter.numTxQueues .tx))).map (·, false)
    | (c, none) => some (c, true)

/-- `ixgbevf_setup_all_rx_resources`; the result says whether it succeeded. -/
def setupAllRxResources (rxSetup : ℕ → RxSetup) (c : Call) : Option (Call × Bool) :=
  match tryFrom (fun i => setupRxResources (rxSetup i) i) c.adapter.numRxQueues 0 c with
  | (c, some i) => (downFrom freeRxResources i c).map (·, false)
  | (c, none) => some (c, true)

/-- The loops of `ixgbevf_free_all_tx_resources`, one for each kind of ring. -/
def freeTxRings (kind : TxKind) (c : Call) : Option Call :=
  upFrom (fun i c => if (c.adapter.txRing kind i).desc then c.freeTxResources kind i else some c)
    (c.adapter.numTxQueues kind) 0 c

/-- `ixgbevf_free_all_tx_resources`. -/
def freeAllTxResources (c : Call) : Option Call := (c.freeTxRings .tx).bind (freeTxRings .xdp)

/-- `ixgbevf_free_all_rx_resources`. -/
def freeAllRxResources (c : Call) : Option Call :=
  upFrom (fun i c => if (c.adapter.rxRing i).desc then c.freeRxResources i else some c)
    c.adapter.numRxQueues 0 c

/-! ### The interrupts -/

/-- `request_irq` for an entry of `msix_entries`; the result says whether it succeeded. -/
def requestVector (fails : ℕ → Bool) (vector : ℕ) (c : Call) : Call × Bool :=
  if fails vector then (c, false) else (c.emit [.use (.take (.irq vector))], true)

/-- The loop of `ixgbevf_request_msix_irqs` over the vectors that have a ring; the result has the
vector at which it failed. -/
def requestQueueIrqs (fails : ℕ → Bool) (c : Call) : Call × Option ℕ :=
  tryFrom (fun vector c =>
    if c.adapter.serves vector then c.requestVector fails vector else (c, true))
    c.adapter.numQVectors 0 c

/-- The label `free_queue_irqs` of `ixgbevf_request_msix_irqs`. -/
def freeQueueIrqs (vector : ℕ) (c : Call) : Option (Call × Bool) :=
  (downFrom (fun vector c => some (c.emit [.use (.give (.irq vector))])) vector c).map fun c =>
    ({ c with adapter := { c.adapter with numQVectors := 0 } }, false)

/-- `ixgbevf_request_msix_irqs`, which `ixgbevf_request_irq` calls; the result says whether it
succeeded. -/
def requestIrq (fails : ℕ → Bool) (c : Call) : Option (Call × Bool) :=
  if !c.adapter.msixEntries then
    none
  else
    match c.requestQueueIrqs fails with
    | (c, some vector) => c.freeQueueIrqs vector
    | (c, none) =>
      match c.requestVector fails c.adapter.numQVectors with
      | (c, false) => c.freeQueueIrqs c.adapter.numQVectors
      | (c, true) => some ({ c with adapter := { c.adapter with irqsReady := true } }, true)

/-- `ixgbevf_free_irq`. -/
def freeIrq (c : Call) : Option Call :=
  if !c.adapter.msixEntries || !c.adapter.irqsReady then
    some c
  else
    (upFrom (fun vector c =>
        some (if c.adapter.serves vector then c.emit [.use (.give (.irq vector))] else c))
      c.adapter.numQVectors 0 { c with adapter := { c.adapter with irqsReady := false } }).map
    fun c => c.emit [.use (.give (.irq c.adapter.numQVectors))]

/-! ### Up and down -/

/-- `ixgbevf_configure_tx_ring`, which clears the buffers. -/
def configureTxRing (kind : TxKind) (i : ℕ) (c : Call) : Option Call :=
  let r := c.adapter.txRing kind i
  if r.bufferInfo then
    some (c.setTx kind i { r with written := true, nextToUse := 0, nextToClean := 0 })
  else
    none

/-- `ixgbevf_configure_rx_ring`, which clears the buffers, enables the queue and fills it. -/
def configureRxRing (K : KernelConfig) (env : ConfigEnv) (i : ℕ) (c : Call) : Option Call :=
  let r := c.adapter.rxRing i
  if r.bufferInfo then
    let c := (c.disableRxQueue i).writeReg (.enable i)
    some (c.setRx i { r with queue := r.queue.configureRxRing K (env.flags i) (env.pages i) })
  else
    none

/-- `ixgbevf_configure_rx`. -/
def configureRx (K : KernelConfig) (env : ConfigEnv) (c : Call) : Option Call :=
  let c := c.writeReg .hash
  upFrom (configureRxRing K env) c.adapter.numRxQueues 0 c

/-- The part of `ixgbevf_configure` that touches the rings: `ixgbevf_configure_tx` and
`ixgbevf_configure_rx`. -/
def configure (K : KernelConfig) (env : ConfigEnv) (c : Call) : Option Call := do
  let c ← upFrom (configureTxRing .tx) (c.adapter.numTxQueues .tx) 0 c
  let c ← upFrom (configureTxRing .xdp) (c.adapter.numTxQueues .xdp) 0 c
  c.configureRx K env

/-- `ixgbevf_up_complete`. -/
def upComplete (c : Call) : Call := { c with adapter := { c.adapter with down := false } }

/-- `ixgbevf_up`. -/
def up (K : KernelConfig) (env : ConfigEnv) (c : Call) : Option Call :=
  (c.configure K env).map upComplete

/-- `ixgbevf_clean_all_tx_rings` and `ixgbevf_clean_all_rx_rings`. -/
def cleanAllRings (c : Call) : Option Call := do
  let c ← upFrom (cleanTxRing .tx) (c.adapter.numTxQueues .tx) 0 c
  let c ← upFrom (cleanTxRing .xdp) (c.adapter.numTxQueues .xdp) 0 c
  upFrom cleanRxRing c.adapter.numRxQueues 0 c

/-- `ixgbevf_down`, which does nothing when the interface is down already. -/
def ixgbevfDown (resets : Bool) (c : Call) : Option Call :=
  if c.adapter.down then
    some c
  else do
    let c := { c with adapter := { c.adapter with down := true } }
    let c ← upFrom (fun i c => some (c.disableRxQueue i)) c.adapter.numRxQueues 0 c
    if !c.adapter.msixEntries then
      none
    else
      let c := if c.adapter.channelOffline then c else c.reset resets
      c.cleanAllRings

/-! ### Opening and closing -/

/-- The labels `err_req_irq` and after of `ixgbevf_open`. -/
def openFailed (resets : Bool) (c : Call) : Option (Call × Bool) :=
  (c.freeAllRxResources.bind freeAllTxResources).map fun c => (c.reset resets, false)

/-- `ixgbevf_open` from the call of `ixgbevf_configure` on. -/
def openConfigured (K : KernelConfig) (env : OpenEnv) (c : Call) : Option (Call × Bool) := do
  let c ← c.configure K env.toConfigEnv
  let (c, ok) ← c.requestIrq env.irqFails
  if !ok then
    c.openFailed env.resets
  else if env.setTxQueuesFails || env.setRxQueuesFails then
    c.freeIrq.bind (openFailed env.resets)
  else
    return (c.upComplete, true)

/-- `ixgbevf_open` from the call of `ixgbevf_setup_all_tx_resources` on. -/
def openRings (K : KernelConfig) (env : OpenEnv) (c : Call) : Option (Call × Bool) := do
  let (c, ok) ← c.setupAllTxResources env.txSetup
  if !ok then
    return (c.reset env.resets, false)
  let (c, ok) ← c.setupAllRxResources env.rxSetup
  if !ok then
    let c ← c.freeAllTxResources
    return (c.reset env.resets, false)
  c.openConfigured K env

/-- `ixgbevf_open`; the result says whether it succeeded. -/
def ixgbevfOpen (K : KernelConfig) (env : OpenEnv) (c : Call) : Option (Call × Bool) :=
  if c.adapter.numQVectors = 0 then
    some (c, false)
  else
    let c := if c.adapter.adapterStopped then c.reset env.restarts else c
    if c.adapter.adapterStopped || c.adapter.testing then
      some (c, false)
    else
      c.openRings K env

/-- `ixgbevf_close_suspend`. -/
def closeSuspend (resets : Bool) (c : Call) : Option Call := do
  let c ← c.ixgbevfDown resets
  let c ← c.freeIrq
  let c ← c.freeAllTxResources
  c.freeAllRxResources

/-- `ixgbevf_reinit_locked`. -/
def reinitLocked (K : KernelConfig) (resets : Bool) (env : ConfigEnv) (c : Call) : Option Call :=
  (c.ixgbevfDown resets).bind (up K env)

/-! ### Resizing the rings -/

/-- The old ring is freed, and the clone that `ixgbevf_set_ringparam` has set up takes its
place, with the indices of the time when it was made. -/
def swapTxRing (clone : TxKind → ℕ → TxRing) (kind : TxKind) (i : ℕ) (c : Call) : Option Call :=
  (c.freeTxResources kind i).map fun c => c.setTx kind i { clone kind i with
    bufferInfo := true, desc := true, written := false }

/-- The old ring is freed, and the clone that `ixgbevf_set_ringparam` has set up takes its
place, with the indices and the skb of the time when it was made. -/
def swapRxRing (clone : ℕ → RxRing) (count i : ℕ) (c : Call) : Option Call :=
  (c.freeRxResources i).map fun c =>
    let queue := (c.adapter.rxRing i).queue
    let old := (clone i).queue.ring
    c.setRx i {
      bufferInfo := true
      desc := true
      xdpRxq := true
      queue := { queue with ring := { queue.ring with
        count := count
        nextToUse := old.nextToUse
        nextToClean := old.nextToClean
        nextToAlloc := old.nextToAlloc
        skb := old.skb } } }

/-- The old rings of a kind are freed and their clones take their places, if there are clones. -/
def swapTxRings (tx : Bool) (clone : TxKind → ℕ → TxRing) (kind : TxKind) (c : Call) :
    Option Call :=
  if tx then upFrom (swapTxRing clone kind) (c.adapter.numTxQueues kind) 0 c else some c

/-- The old Rx rings are freed and their clones take their places, if there are clones. -/
def swapRxRings (rx : Bool) (clone : ℕ → RxRing) (count : ℕ) (c : Call) : Option Call :=
  if rx then upFrom (swapRxRing clone count) c.adapter.numRxQueues 0 c else some c

/-- `ixgbevf_set_ringparam` on a running interface, when the set-up of every clone succeeded;
`tx` and `rx` say which of the counts change. -/
def setRingparam (K : KernelConfig) (tx rx : Bool) (count : ℕ) (resets : Bool) (env : ConfigEnv)
    (c : Call) : Option Call := do
  let old := c.adapter
  let c ← c.ixgbevfDown resets
  let c ← c.swapTxRings tx old.txRing .tx
  let c ← c.swapTxRings tx old.txRing .xdp
  let c ← c.swapRxRings rx old.rxRing count
  c.up K env

end Call

/-! ### Runs of the interface -/

/-- A ring that transmits as `ixgbevf_alloc_q_vector` leaves it. -/
def newTxRing : TxRing where
  desc := false
  bufferInfo := false
  written := false
  nextToUse := 0
  nextToClean := 0

/-- An Rx ring as `ixgbevf_alloc_q_vector` leaves it. -/
def newRxRing (count : ℕ) : RxRing where
  desc := false
  bufferInfo := false
  xdpRxq := false
  queue := { RxQueue.fresh with ring := { RxQueue.fresh.ring with count := count } }

/-- The adapter with the rings and vectors that a set-up of the interrupt scheme leaves. -/
def Adapter.ofScheme (q : Queues.Adapter) (count : ℕ) (a : Adapter) : Adapter :=
  { a with
    numTxQueues := fun
      | .tx => q.numTxQueues
      | .xdp => q.numXdpQueues
    numRxQueues := q.numRxQueues
    numQVectors := q.numQVectors
    txRing := fun _ _ => newTxRing
    rxRing := fun _ => newRxRing count
    serves := fun v => (q.qVector v).any fun w => !w.rx.isEmpty || !w.tx.isEmpty
    msixEntries := q.msixEntries }

/-- The adapter before `ixgbevf_probe` sets up the interrupt scheme. -/
def blank : Adapter where
  numTxQueues _ := 0
  numRxQueues := 0
  numQVectors := 0
  txRing _ _ := newTxRing
  rxRing _ := newRxRing 0
  serves _ := false
  msixEntries := false
  irqsReady := false
  down := true
  testing := false
  removing := false
  adapterStopped := false
  hwAddr := true
  answers := true
  channelOffline := false

/-- What happens to the interface. -/
inductive Event where
  /-- `ixgbevf_open` -/
  | devOpen (env : OpenEnv)
  /-- `ixgbevf_close_suspend`, by a close, a suspend or the detection of an I/O error -/
  | close (resets : Bool)
  /-- `ixgbevf_reinit_locked` -/
  | reinit (resets : Bool) (env : ConfigEnv)
  /-- `ixgbevf_set_ringparam` on a running interface -/
  | setRingparam (tx rx : Bool) (count : ℕ) (resets : Bool) (env : ConfigEnv)
  /-- the interrupt scheme is cleared and set up -/
  | scheme (q : Queues.Adapter) (count : ℕ)
  /-- `ixgbevf_service_task` finds the adapter removed -/
  | removed (resets : Bool)
  /-- `ixgbevf_reset` of an interface that is down -/
  | reset (resets : Bool)
  /-- a register is read, as `ixgbevf_service_task` does -/
  | read
  /-- the device starts or stops answering -/
  | answer (answers : Bool)
  /-- the PCI channel goes offline or online -/
  | channel (offline : Bool)
  /-- `ixgbevf_io_slot_reset` and `ixgbevf_resume` map the registers again -/
  | remap
  /-- `ixgbevf_remove` begins -/
  | remove
  /-- an offline test begins or ends -/
  | test (testing : Bool)
  /-- reception on an Rx ring -/
  | receive (i : ℕ) (e : Rx.RxQueue.Event)
  /-- transmission on a ring -/
  | transmit (kind : TxKind) (i nextToUse nextToClean : ℕ)

/-- Whether no Rx ring is being polled, for which `ixgbevf_napi_disable_all` waits. -/
def PollsDone (a : Adapter) : Prop := ∀ i < a.numRxQueues, (a.rxRing i).queue.poll = none

/-- Whether an event of an Rx queue happens while the queue is in use. -/
def InUse : Rx.RxQueue.Event → Prop
  | .configure _ _ | .clean => False
  | _ => True

/-- When an event can happen: the interface is opened, gets another interrupt scheme, and is reset
by itself only while it is down, and it transmits and receives while it is up. -/
def Enabled (a : Adapter) : Event → Prop
  | .devOpen _ => a.down = true
  | .close _ => PollsDone a
  | .reinit _ _ => PollsDone a
  | .setRingparam _ _ count _ _ => PollsDone a ∧ 0 < count
  | .scheme q count => a.down = true ∧ 0 < count
    ∧ ∃ env q₀ ok, q₀.numQVectors = 0 ∧ initInterruptScheme env q₀ = some (q, ok)
  | .removed _ => PollsDone a ∧ a.hwAddr = false
  | .reset _ => a.down = true
  | .read => True
  | .answer _ => True
  | .channel _ => True
  | .remap => a.down = true
  | .remove => True
  | .test _ => True
  | .receive i e => a.down = false ∧ i < a.numRxQueues ∧ InUse e ∧ (a.rxRing i).queue.Enabled e
  | .transmit _ _ _ _ => a.down = false

/-- What an event does. -/
def apply (K : KernelConfig) (c : Call) : Event → Option Call
  | .devOpen env => (c.ixgbevfOpen K env).map (·.1)
  | .close resets => c.closeSuspend resets
  | .reinit resets env => c.reinitLocked K resets env
  | .setRingparam tx rx count resets env => c.setRingparam K tx rx count resets env
  | .scheme q count => some { c with adapter := c.adapter.ofScheme q count }
  | .removed resets => c.ixgbevfDown resets
  | .reset resets => some (c.reset resets)
  | .read => some c.readReg.1
  | .answer answers => some { c with adapter := { c.adapter with answers := answers } }
  | .channel offline => some { c with adapter := { c.adapter with channelOffline := offline } }
  | .remap => some { c with adapter := { c.adapter with hwAddr := true } }
  | .remove => some { c with adapter := { c.adapter with removing := true } }
  | .test testing => some { c with adapter := { c.adapter with testing := testing } }
  | .receive i e => ((c.adapter.rxRing i).queue.apply K e).map fun queue =>
      c.setRx i { c.adapter.rxRing i with queue := queue }
  | .transmit kind i nextToUse nextToClean => some (c.setTx kind i { c.adapter.txRing kind i with
      nextToUse := nextToUse, nextToClean := nextToClean })

/-- The interface from the successful end of `ixgbevf_probe` on, with all its effects. -/
def system (K : KernelConfig) : TransSystem Call Event where
  init s := ∃ env A q count, initInterruptScheme env (Queues.blank A) = some (q, true) ∧ 0 < count
    ∧ s = { adapter := blank.ofScheme q count, effects := [] }
  step s e s' := Enabled s.adapter e ∧ ∃ c, apply K { adapter := s.adapter, effects := [] } e = some c
    ∧ s' = { adapter := c.adapter, effects := s.effects ++ c.effects }

end Ixgbevf.Interface
