import Ixgbevf.Lib.Loops
import Ixgbevf.Queues
import Ixgbevf.Rx.Ring
import Ixgbevf.Tx.Ring

/-!
# Resizing the rings without memory

On an interface that is up `ixgbevf_set_ringparam` sets up rings of the new sizes beside the live
ones. It starts from copies of the live rings, with their indices and their skb; where an
allocation fails, the functions that give a ring's resources back take these for the clone's own.
-/

namespace Ixgbevf.Ringparam

open Cyclic Loops
open Queues (TxSetup RxSetup)
open Rx (SkbPtr)

/-! ### Rings and memory -/

/-- The part of a `struct ixgbevf_ring` that transmits.  Pointers are addresses. -/
structure TxRing where
  /-- `count`. -/
  count : ℕ
  /-- `next_to_use`. -/
  nextToUse : ℕ
  /-- `next_to_clean`. -/
  nextToClean : ℕ
  /-- `ring_is_xdp`. -/
  xdp : Bool
  /-- `tx_buffer_info`. -/
  bufferInfo : Option ℕ
  /-- `desc`. -/
  desc : Option ℕ

/-- The part of a `struct ixgbevf_ring` that receives. -/
structure RxRing where
  /-- `count`. -/
  count : ℕ
  /-- `next_to_use`. -/
  nextToUse : ℕ
  /-- `next_to_clean`. -/
  nextToClean : ℕ
  /-- `next_to_alloc`. -/
  nextToAlloc : ℕ
  /-- `skb`. -/
  skb : SkbPtr
  /-- `rx_buffer_info`. -/
  bufferInfo : Option ℕ
  /-- `desc`. -/
  desc : Option ℕ
  /-- `xdp_rxq`, once it is registered. -/
  xdpRxq : Option ℕ

/-- What memory holds, also where nothing has been written: the entries of an array at an
address. -/
structure Memory where
  /-- Entries of `struct ixgbevf_tx_buffer`; `skb` and `data` share a word. -/
  tx : ℕ → ℕ → Tx.TxBuffer
  /-- Entries of `struct ixgbevf_rx_buffer`. -/
  rx : ℕ → ℕ → Rx.RxBuffer

/-- What a ring may own. -/
inductive Resource where
  /-- an skb that is to be sent, or the frame of an XDP ring -/
  | txData (data : ℕ)
  /-- a mapping of such data -/
  | txMapping (dma : BitVec 64) (len : ℕ)
  /-- the skb of a frame that is not complete -/
  | rxSkb (id : ℕ)
  /-- a page for reception -/
  | page (page : ℕ)
  /-- the mapping of such a page -/
  | rxMapping (page : ℕ)
  /-- memory from `vmalloc` -/
  | array (address : ℕ)
  /-- memory from `dma_alloc_coherent` -/
  | coherent (address : ℕ)
  /-- a registration by `xdp_rxq_info_reg` -/
  | xdpRxq (registration : ℕ)

/-- What the clean-up does. -/
inductive Act where
  /-- The entry `i` of an array of `count` entries is read; it has been written or not. -/
  | read (array i count : ℕ) (written : Bool)
  /-- `dev_kfree_skb_any` or `page_frag_free`. -/
  | freeData (data : Option ℕ)
  /-- `dma_unmap_single` or `dma_unmap_page` of data that is sent. -/
  | unmapData (dma : BitVec 64) (len : ℕ)
  /-- `dev_kfree_skb` of the skb of a ring. -/
  | freeSkb (id : ℕ)
  /-- `dma_unmap_page_attrs`. -/
  | unmapPage (page : Option ℕ)
  /-- `__page_frag_cache_drain`. -/
  | drain (page : Option ℕ) (bias : ℕ)
  /-- `netdev_tx_reset_queue`. -/
  | resetQueue
  /-- `vfree`. -/
  | vfree (address : ℕ)
  /-- `dma_free_coherent`. -/
  | freeCoherent (address : ℕ)
  /-- `xdp_rxq_info_unreg`. -/
  | unregister (registration : ℕ)
  deriving DecidableEq

/-- What an act frees or unmaps. -/
def Act.Releases : Act → Resource → Prop
  | .freeData data, res => ∃ d, data = some d ∧ res = .txData d
  | .unmapData dma len, res => res = .txMapping dma len
  | .freeSkb id, res => res = .rxSkb id
  | .unmapPage page, res => ∃ p, page = some p ∧ res = .rxMapping p
  | .drain page _, res => ∃ p, page = some p ∧ res = .page p
  | .vfree address, res => res = .array address
  | .freeCoherent address, res => res = .coherent address
  | .unregister registration, res => res = .xdpRxq registration
  | .read _ _ _ _, _ => False
  | .resetQueue, _ => False

/-- The slots from `start` up to `stop`. -/
def Between (count start stop i : ℕ) : Prop := i < count ∧ gap count start i < gap count start stop

/-- What a ring that transmits owns. -/
def TxRing.Owns (M : Memory) (r : TxRing) : Resource → Prop
  | .array address => r.bufferInfo = some address
  | .coherent address => r.desc = some address
  | .txData data => ∃ array i, r.bufferInfo = some array ∧
      Between r.count r.nextToClean r.nextToUse i ∧ (M.tx array i).skb = some data
  | .txMapping dma len => ∃ array i, r.bufferInfo = some array ∧
      Between r.count r.nextToClean r.nextToUse i ∧ (M.tx array i).len ≠ 0 ∧
      (M.tx array i).dma = dma ∧ (M.tx array i).len = len
  | _ => False

/-- What a ring that receives owns. -/
def RxRing.Owns (M : Memory) (r : RxRing) : Resource → Prop
  | .array address => r.bufferInfo = some address
  | .coherent address => r.desc = some address
  | .xdpRxq registration => r.xdpRxq = some registration
  | .rxSkb id => ∃ skb, r.skb = .skb skb ∧ skb.id = id
  | .page page | .rxMapping page => ∃ array i, r.bufferInfo = some array ∧
      Between r.count r.nextToClean r.nextToAlloc i ∧ (M.rx array i).page = some page
  | _ => False

/-- The adapter with its live rings.  What is handed out from now on is not in use. -/
structure Adapter where
  /-- `netif_running`. -/
  running : Bool
  /-- `tx_ring_count`. -/
  txRingCount : ℕ
  /-- `rx_ring_count`. -/
  rxRingCount : ℕ
  /-- `num_tx_queues`. -/
  numTxQueues : ℕ
  /-- `num_xdp_queues`. -/
  numXdpQueues : ℕ
  /-- `num_rx_queues`. -/
  numRxQueues : ℕ
  /-- `tx_ring`. -/
  txRing : ℕ → TxRing
  /-- `xdp_ring`. -/
  xdpRing : ℕ → TxRing
  /-- `rx_ring`. -/
  rxRing : ℕ → RxRing
  /-- What memory holds. -/
  memory : Memory
  /-- The first address that has not been handed out. -/
  next : ℕ
  tx_lt (i a : ℕ) : (txRing i).bufferInfo = some a ∨ (txRing i).desc = some a → a < next
  xdp_lt (i a : ℕ) : (xdpRing i).bufferInfo = some a ∨ (xdpRing i).desc = some a → a < next
  rx_lt (i a : ℕ) : (rxRing i).bufferInfo = some a ∨ (rxRing i).desc = some a ∨
    (rxRing i).xdpRxq = some a → a < next

namespace Adapter

variable (A : Adapter)

/-- The ring that the clone `i` is copied from: the clones of the XDP rings come after those of
the others. -/
def liveTx (i : ℕ) : TxRing :=
  if i < A.numTxQueues then A.txRing i else A.xdpRing (i - A.numTxQueues)

/-- The number of clones that transmit. -/
def numTxClones : ℕ := A.numTxQueues + A.numXdpQueues

/-- What the live rings own. -/
def Owns (res : Resource) : Prop :=
  (∃ i < A.numTxClones, (A.liveTx i).Owns A.memory res) ∨
    ∃ i < A.numRxQueues, (A.rxRing i).Owns A.memory res

end Adapter

/-! ### Giving resources back -/

section

variable (M : Memory) (written : ℕ → ℕ → Bool) (fuel : ℕ)

/-- The loop of `ixgbevf_clean_tx_ring` over the slots of a packet, from `i` to the last one.
`fuel` bounds its turns; there is no result where it follows a null pointer or does not end. -/
def cleanTxRest (r : TxRing) (eop : Option ℕ) : ℕ → ℕ → Option (List Act × ℕ)
  | 0, _ => none
  | fuel + 1, i =>
    if eop = some i then
      some ([], i)
    else do
      let i := Cyclic.next r.count i
      let array ← r.bufferInfo
      let b := M.tx array i
      let (acts, last) ← cleanTxRest r eop fuel i
      return (.read array i r.count (written array i)
        :: (if b.len ≠ 0 then [.unmapData b.dma b.len] else []) ++ acts, last)

/-- The loop of `ixgbevf_clean_tx_ring` over the packets from the slot `i` on. -/
def cleanTxPackets (r : TxRing) : ℕ → ℕ → Option (List Act)
  | 0, _ => none
  | turns + 1, i =>
    if i = r.nextToUse then
      some []
    else do
      let array ← r.bufferInfo
      let b := M.tx array i
      let (rest, last) ← cleanTxRest M written r b.nextToWatch fuel i
      let acts ← cleanTxPackets r turns (Cyclic.next r.count last)
      return [.read array i r.count (written array i), .freeData b.skb, .unmapData b.dma b.len]
        ++ rest ++ acts

/-- `ixgbevf_clean_tx_ring`. -/
def cleanTxRing (r : TxRing) : Option (TxRing × List Act) := do
  let acts ← cleanTxPackets M written fuel r (fuel + 1) r.nextToClean
  return ({ r with nextToUse := 0, nextToClean := 0 },
    acts ++ if r.xdp then [] else [.resetQueue])

/-- `ixgbevf_free_tx_resources`. -/
def freeTxResources (r : TxRing) : Option (TxRing × List Act) := do
  let (r, acts) ← cleanTxRing M written fuel r
  return ({ r with bufferInfo := none, desc := none },
    acts ++ r.bufferInfo.toList.map .vfree ++ r.desc.toList.map .freeCoherent)

/-- The loop of `ixgbevf_clean_rx_ring` from the slot `i` on. -/
def cleanRxPages (r : RxRing) : ℕ → ℕ → Option (List Act)
  | 0, _ => none
  | turns + 1, i =>
    if i = r.nextToAlloc then
      some []
    else do
      let array ← r.bufferInfo
      let b := M.rx array i
      let acts ← cleanRxPages r turns (Cyclic.next r.count i)
      return [.read array i r.count (written array i), .unmapPage b.page,
        .drain b.page b.pagecntBias] ++ acts

/-- The skb of a ring is freed, if there is one.  An error pointer is not an skb that can be. -/
def freeRingSkb : SkbPtr → Option (List Act)
  | .null => some []
  | .skb skb => some [.freeSkb skb.id]
  | .err _ => none

/-- `ixgbevf_clean_rx_ring`. -/
def cleanRxRing (r : RxRing) : Option (RxRing × List Act) := do
  let skb ← freeRingSkb r.skb
  let acts ← cleanRxPages M written r (fuel + 1) r.nextToClean
  return ({ r with skb := .null, nextToUse := 0, nextToClean := 0, nextToAlloc := 0 }, skb ++ acts)

/-- `ixgbevf_free_rx_resources`. -/
def freeRxResources (r : RxRing) : Option (RxRing × List Act) := do
  let (r, acts) ← cleanRxRing M written fuel r
  return ({ r with bufferInfo := none, desc := none, xdpRxq := none },
    acts ++ r.xdpRxq.toList.map .unregister ++ r.bufferInfo.toList.map .vfree
      ++ r.desc.toList.map .freeCoherent)

end

/-! ### The call -/

/-- What the call has made so far, and done. -/
structure Work where
  /-- The first address that has not been handed out. -/
  next : ℕ
  /-- The entries that have been written since their array was allocated. -/
  written : ℕ → ℕ → Bool
  /-- What was done. -/
  acts : List Act
  /-- `tx_ring`, the array of the clones that transmit. -/
  txArray : Option ℕ
  /-- The rings in it. -/
  tx : ℕ → TxRing
  /-- `rx_ring`. -/
  rxArray : Option ℕ
  /-- The rings in it. -/
  rx : ℕ → RxRing

/-- How the allocations end. -/
structure Answers where
  /-- `vmalloc` of the clones that transmit. -/
  txArray : Bool
  /-- The set-up of each of them. -/
  tx : ℕ → TxSetup
  /-- `vmalloc` of the clones that receive. -/
  rxArray : Bool
  /-- The set-up of each of them. -/
  rx : ℕ → RxSetup

namespace Work

/-- Something is done. -/
def emit (acts : List Act) (w : Work) : Work := { w with acts := w.acts ++ acts }

/-- `vmalloc`, which returns the next address: nothing has been written there. -/
def vmalloc (w : Work) : Work :=
  { w with next := w.next + 1, written := Function.update w.written w.next fun _ => false }

/-- `dma_alloc_coherent` or `xdp_rxq_info_reg`, which take the next address. -/
def take (w : Work) : Work := { w with next := w.next + 1 }

/-- `ixgbevf_setup_tx_resources` for a ring; the result says whether it succeeded. -/
def setupTxResources (o : TxSetup) (r : TxRing) (w : Work) : Work × TxRing × Bool :=
  match o with
  | .bufferInfoFails => (w, { r with bufferInfo := none }, false)
  | .descFails =>
    (w.vmalloc.emit [.vfree w.next], { r with bufferInfo := none, desc := none }, false)
  | .ok =>
    let array := w.next
    let w := w.vmalloc
    let desc := w.next
    let w := w.take
    (w, { r with bufferInfo := some array, desc := some desc }, true)

/-- `ixgbevf_setup_rx_resources` for a ring; the result says whether it succeeded. -/
def setupRxResources (o : RxSetup) (r : RxRing) (w : Work) : Work × RxRing × Bool :=
  match o with
  | .bufferInfoFails => (w, { r with bufferInfo := none }, false)
  | .descFails =>
    (w.vmalloc.emit [.vfree w.next], { r with bufferInfo := none, desc := none }, false)
  | .rxqRegFails =>
    let array := w.next
    let w := w.vmalloc
    let desc := w.next
    let w := w.take
    (w.emit [.vfree array], { r with bufferInfo := none, desc := some desc }, false)
  | .ok =>
    let array := w.next
    let w := w.vmalloc
    let desc := w.next
    let w := w.take
    let rxq := w.next
    let w := w.take
    (w, { r with bufferInfo := some array, desc := some desc, xdpRxq := some rxq }, true)

/-- The turn of the loops over `tx_ring` that copies a ring and sets the clone up. -/
def cloneTx (A : Adapter) (count : ℕ) (answers : Answers) (i : ℕ) (w : Work) : Work × Bool :=
  let (w, r, ok) := w.setupTxResources (answers.tx i) { A.liveTx i with count := count }
  ({ w with tx := Function.update w.tx i r }, ok)

/-- The turn of the loop over `rx_ring` that copies a ring and sets the clone up. -/
def cloneRx (A : Adapter) (count : ℕ) (answers : Answers) (i : ℕ) (w : Work) : Work × Bool :=
  -- the registration of the live ring is not the clone's
  let (w, r, ok) := w.setupRxResources (answers.rx i)
    { A.rxRing i with xdpRxq := none, count := count }
  ({ w with rx := Function.update w.rx i r }, ok)

/-- `ixgbevf_free_tx_resources` for a clone. -/
def freeTx (M : Memory) (fuel i : ℕ) (w : Work) : Option Work := do
  let (r, acts) ← freeTxResources M w.written fuel (w.tx i)
  return emit acts { w with tx := Function.update w.tx i r }

/-- `ixgbevf_free_rx_resources` for a clone. -/
def freeRx (M : Memory) (fuel i : ℕ) (w : Work) : Option Work := do
  let (r, acts) ← freeRxResources M w.written fuel (w.rx i)
  return emit acts { w with rx := Function.update w.rx i r }

/-- The part of `ixgbevf_set_ringparam` that sets up the clones that transmit; the result says
whether it succeeded. -/
def cloneTxRings (A : Adapter) (count : ℕ) (answers : Answers) (fuel : ℕ) (w : Work) :
    Option (Work × Bool) :=
  if count = A.txRingCount then
    some (w, true)
  else if !answers.txArray then
    some (w, false)
  else
    let array := w.next
    match tryFrom (cloneTx A count answers) A.numTxClones 0
      { w.vmalloc with txArray := some array } with
    | (w, none) => some (w, true)
    | (w, some i) =>
      (downFrom (freeTx A.memory fuel) i w).map fun w =>
        ({ w.emit [.vfree array] with txArray := none }, false)

/-- The part that sets up the clones that receive; the result says whether it succeeded. -/
def cloneRxRings (A : Adapter) (count : ℕ) (answers : Answers) (fuel : ℕ) (w : Work) :
    Option (Work × Bool) :=
  if count = A.rxRingCount then
    some (w, true)
  else if !answers.rxArray then
    some (w, false)
  else
    let array := w.next
    match tryFrom (cloneRx A count answers) A.numRxQueues 0
      { w.vmalloc with rxArray := some array } with
    | (w, none) => some (w, true)
    | (w, some i) =>
      (downFrom (freeRx A.memory fuel) i w).map fun w =>
        ({ w.emit [.vfree array] with rxArray := none }, false)

/-- The label `clear_reset`, with clones that transmit or without them. -/
def clearReset (A : Adapter) (fuel : ℕ) (w : Work) : Option Work :=
  match w.txArray with
  | none => some w
  | some array =>
    (upFrom (freeTx A.memory fuel) A.numTxClones 0 w).map fun w => w.emit [.vfree array]

end Work

/-- The arguments of `ixgbevf_set_ringparam`. -/
structure Request where
  /-- `rx_mini_pending`. -/
  rxMiniPending : BitVec 32
  /-- `rx_jumbo_pending`. -/
  rxJumboPending : BitVec 32
  /-- `tx_pending`. -/
  txPending : BitVec 32
  /-- `rx_pending`. -/
  rxPending : BitVec 32

/-- `IXGBEVF_MIN_NUM_DESCRIPTORS`. -/
def minNumDescriptors : ℕ := 64

/-- `IXGBEVF_MAX_NUM_DESCRIPTORS`. -/
def maxNumDescriptors : ℕ := 4096

/-- A number of descriptors that is allowed. -/
def InRange (pending : BitVec 32) : Prop :=
  minNumDescriptors ≤ pending.toNat ∧ pending.toNat ≤ maxNumDescriptors

instance (pending : BitVec 32) : Decidable (InRange pending) :=
  inferInstanceAs (Decidable (_ ∧ _))

/-- `ALIGN` to `IXGBE_REQ_TX_DESCRIPTOR_MULTIPLE` or `IXGBE_REQ_RX_DESCRIPTOR_MULTIPLE`. -/
def align (pending : BitVec 32) : ℕ := (pending.toNat + 7) / 8 * 8

/-- How `ixgbevf_set_ringparam` ends. -/
inductive Outcome where
  /-- It returns, and the live rings are what they were. -/
  | returned (err : ℤ) (w : Work)
  /-- On an interface that is not up it stores the new sizes, and returns 0. -/
  | stored (txCount rxCount : ℕ)
  /-- It takes the interface down, puts the clones in the place of the rings, and returns 0. -/
  | swaps (w : Work)

/-- `ixgbevf_set_ringparam`, up to where it takes the interface down. -/
def setRingparam (A : Adapter) (req : Request) (answers : Answers) (fuel : ℕ) (w : Work) :
    Option Outcome :=
  let newTxCount := align req.txPending
  let newRxCount := align req.rxPending
  if req.rxMiniPending ≠ 0 ∨ req.rxJumboPending ≠ 0 ∨ ¬ InRange req.txPending ∨
      ¬ InRange req.rxPending then
    some (.returned (-22) w)
  else if newTxCount = A.txRingCount ∧ newRxCount = A.rxRingCount then
    some (.returned 0 w)
  else if !A.running then
    some (.stored newTxCount newRxCount)
  else do
    let (w, ok) ← w.cloneTxRings A newTxCount answers fuel
    if !ok then
      return .returned (-12) (← w.clearReset A fuel)
    let (w, ok) ← w.cloneRxRings A newRxCount answers fuel
    if !ok then
      return .returned (-12) (← w.clearReset A fuel)
    return .swaps w


/-! ### The claim of a call that fails -/

/-- An act that leaves the live rings alone: an entry that is read is one of the array, and has been
written; nothing is given back that a live ring owns. -/
structure Act.Allowed (A : Adapter) (act : Act) : Prop where
  read : ∀ array i count written, act = .read array i count written → written = true ∧ i < count
  releases : ∀ res, act.Releases res → ¬ A.Owns res

/-- The call returns the error, and has left the live rings alone. -/
def Atomic (A : Adapter) : Outcome → Prop
  | .returned err w => err = -12 ∧ ∀ act ∈ w.acts, act.Allowed A
  | _ => False

/-- The call starts: it has not made or done anything, and the pointers to the clones are null. -/
structure Start (A : Adapter) (w : Work) : Prop where
  next : w.next = A.next
  acts : w.acts = []
  txArray : w.txArray = none

/-- The call comes to the clones. -/
structure Proceeds (A : Adapter) (req : Request) : Prop where
  rxMiniPending : req.rxMiniPending = 0
  rxJumboPending : req.rxJumboPending = 0
  txPending : InRange req.txPending
  rxPending : InRange req.rxPending
  running : A.running = true

/-- The number of clones that transmit, when all of them are set up. -/
inductive TxDone (A : Adapter) (req : Request) (answers : Answers) : ℕ → Prop where
  | none : align req.txPending = A.txRingCount → TxDone A req answers 0
  | all : align req.txPending ≠ A.txRingCount → answers.txArray = true →
      (∀ i < A.numTxClones, answers.tx i = .ok) → TxDone A req answers A.numTxClones

/-- An allocation fails when so many clones that transmit, and so many that receive, have been
set up. -/
inductive FailsAt (A : Adapter) (req : Request) (answers : Answers) : ℕ → ℕ → Prop where
  | txArray : align req.txPending ≠ A.txRingCount → answers.txArray = false →
      FailsAt A req answers 0 0
  | tx {i : ℕ} : align req.txPending ≠ A.txRingCount → answers.txArray = true →
      i < A.numTxClones → (∀ j < i, answers.tx j = .ok) → answers.tx i ≠ .ok →
      FailsAt A req answers i 0
  | rxArray {n : ℕ} : TxDone A req answers n → align req.rxPending ≠ A.rxRingCount →
      answers.rxArray = false → FailsAt A req answers n 0
  | rx {n i : ℕ} : TxDone A req answers n → align req.rxPending ≠ A.rxRingCount →
      answers.rxArray = true → i < A.numRxQueues → (∀ j < i, answers.rx j = .ok) →
      answers.rx i ≠ .ok → FailsAt A req answers n i

/-- A ring that transmits has nothing in flight. -/
def TxRing.Quiet (r : TxRing) : Prop := r.nextToClean = r.nextToUse

/-- A ring that receives has no page and no part of a frame. -/
def RxRing.Quiet (r : RxRing) : Prop := r.skb = .null ∧ r.nextToClean = r.nextToAlloc

/-! ### What the call has allocated -/

variable {A : Adapter} {w w' : Work}

/-- What a live ring owns of the memory and the registrations has been handed out before. -/
theorem Adapter.owns_lt {a : ℕ}
    (h : A.Owns (.array a) ∨ A.Owns (.coherent a) ∨ A.Owns (.xdpRxq a)) :
  a < A.next
  := by
  have htx (i : ℕ) (h : (A.liveTx i).bufferInfo = some a ∨ (A.liveTx i).desc = some a) :
      a < A.next := by
    unfold liveTx at h
    split at h
    · exact A.tx_lt i a h
    · exact A.xdp_lt _ a h
  rcases h with (⟨i, -, h⟩ | ⟨i, -, h⟩) | (⟨i, -, h⟩ | ⟨i, -, h⟩) | (⟨i, -, h⟩ | ⟨i, -, h⟩)
  · exact htx i (Or.inl h)
  · exact A.rx_lt i a (Or.inl h)
  · exact htx i (Or.inr h)
  · exact A.rx_lt i a (Or.inr (Or.inl h))
  · exact absurd h id
  · exact A.rx_lt i a (Or.inr (Or.inr h))

/-- An act on what the call itself has allocated. -/
def Act.Own (A : Adapter) : Act → Prop
  | .vfree address => A.next ≤ address
  | .freeCoherent address => A.next ≤ address
  | .unregister registration => A.next ≤ registration
  | .resetQueue => True
  | _ => False

/-- It leaves the live rings alone. -/
theorem Act.Own.allowed {act : Act} (h : act.Own A) :
  act.Allowed A
  := by
  constructor
  · rintro array i count written rfl
    exact absurd h id
  · intro res hres hown
    have hlt {a : ℕ} (hle : A.next ≤ a)
        (h : A.Owns (.array a) ∨ A.Owns (.coherent a) ∨ A.Owns (.xdpRxq a)) : False :=
      Nat.lt_irrefl _ (Nat.lt_of_lt_of_le (Adapter.owns_lt h) hle)
    cases act with
    | vfree a =>
      obtain rfl : res = .array a := hres
      exact hlt h (Or.inl hown)
    | freeCoherent a =>
      obtain rfl : res = .coherent a := hres
      exact hlt h (Or.inr (Or.inl hown))
    | unregister a =>
      obtain rfl : res = .xdpRxq a := hres
      exact hlt h (Or.inr (Or.inr hown))
    | resetQueue => exact hres
    | _ => exact h

/-- So far the call has only given back what it had allocated. -/
structure Sound (A : Adapter) (w : Work) : Prop where
  next : A.next ≤ w.next
  acts : ∀ act ∈ w.acts, act.Own A

/-- Acts on what the call has allocated. -/
theorem Sound.emit {acts : List Act} (h : Sound A w) (hacts : ∀ act ∈ acts, act.Own A) :
  Sound A (w.emit acts)
  := by
  refine ⟨h.next, fun act hact => ?_⟩
  rcases List.mem_append.mp hact with hact | hact
  · exact h.acts act hact
  · exact hacts act hact

/-- The clone `i` that transmits is a copy with memory of its own, of which nothing has been
written. -/
def FreshTx (A : Adapter) (count i : ℕ) (w : Work) : Prop :=
  ∃ array desc, A.next ≤ array ∧ A.next ≤ desc ∧ (∀ j, w.written array j = false) ∧
    w.tx i = { A.liveTx i with count := count, bufferInfo := some array, desc := some desc }

/-- The clone `i` that receives is a copy with memory and a registration of its own. -/
def FreshRx (A : Adapter) (count i : ℕ) (w : Work) : Prop :=
  i < A.numRxQueues ∧ ∃ array desc rxq, A.next ≤ array ∧ A.next ≤ desc ∧ A.next ≤ rxq ∧
    (∀ j, w.written array j = false) ∧
    w.rx i = { A.rxRing i with
      count := count, bufferInfo := some array, desc := some desc, xdpRxq := some rxq }

/-! ### Giving back a clone -/

section

variable {M : Memory} {written : ℕ → ℕ → Bool} {fuel array : ℕ}

/-- A ring with nothing in flight is given back without a look at its entries. -/
theorem freeTxResources_quiet {r : TxRing} (h : r.Quiet) :
  freeTxResources M written fuel r = some
    ({ r with nextToUse := 0, nextToClean := 0, bufferInfo := none, desc := none },
      (if r.xdp then [] else [.resetQueue]) ++ r.bufferInfo.toList.map .vfree
        ++ r.desc.toList.map .freeCoherent)
  := by
  have hdone : r.nextToClean = r.nextToUse := h
  have hloop : cleanTxPackets M written fuel r (fuel + 1) r.nextToClean = some [] := by
    rw [cleanTxPackets, if_pos hdone]
  simp [freeTxResources, cleanTxRing, hloop]

/-- Of any other ring an entry is read. -/
theorem freeTxResources_reads {r : TxRing} {result : TxRing × List Act}
    (harray : r.bufferInfo = some array) (h : freeTxResources M written fuel r = some result) :
  r.Quiet ∨ .read array r.nextToClean r.count (written array r.nextToClean) ∈ result.2
  := by
  rw [freeTxResources, Option.bind_eq_bind, Option.bind_eq_some_iff] at h
  obtain ⟨⟨r₁, acts₁⟩, h, hresult⟩ := h
  rw [cleanTxRing, Option.bind_eq_bind, Option.bind_eq_some_iff] at h
  obtain ⟨acts, h, hring⟩ := h
  cases hring
  cases hresult
  rw [cleanTxPackets] at h
  split at h
  · next hquiet => exact Or.inl hquiet
  · simp only [harray, Option.bind_eq_bind, Option.bind_some, Option.bind_eq_some_iff] at h
    obtain ⟨_, _, _, _, h⟩ := h
    cases h
    simp

/-- A ring without a page or a part of a frame is given back without a look at its entries. -/
theorem freeRxResources_quiet {r : RxRing} (h : r.Quiet) :
  freeRxResources M written fuel r = some
    ({ r with
        skb := .null, nextToUse := 0, nextToClean := 0, nextToAlloc := 0
        bufferInfo := none, desc := none, xdpRxq := none },
      r.xdpRxq.toList.map .unregister ++ r.bufferInfo.toList.map .vfree
        ++ r.desc.toList.map .freeCoherent)
  := by
  have hloop : cleanRxPages M written r (fuel + 1) r.nextToClean = some [] := by
    rw [cleanRxPages, if_pos h.2]
  simp [freeRxResources, cleanRxRing, freeRingSkb, h.1, hloop]

/-- Of any other ring an entry is read, or its skb is freed. -/
theorem freeRxResources_reads {r : RxRing} {result : RxRing × List Act}
    (harray : r.bufferInfo = some array) (h : freeRxResources M written fuel r = some result) :
  r.Quiet ∨ .read array r.nextToClean r.count (written array r.nextToClean) ∈ result.2 ∨
    ∃ skb, r.skb = .skb skb ∧ .freeSkb skb.id ∈ result.2
  := by
  rw [freeRxResources, Option.bind_eq_bind, Option.bind_eq_some_iff] at h
  obtain ⟨⟨r₁, acts₁⟩, h, hresult⟩ := h
  rw [cleanRxRing, Option.bind_eq_bind, Option.bind_eq_some_iff] at h
  obtain ⟨freed, hfreed, h⟩ := h
  rw [Option.bind_eq_some_iff] at h
  obtain ⟨acts, h, hring⟩ := h
  cases hring
  cases hresult
  rw [cleanRxPages] at h
  split at h
  · next hquiet =>
    cases hskb : r.skb with
    | null => exact Or.inl ⟨hskb, hquiet⟩
    | err v =>
      rw [hskb] at hfreed
      cases hfreed
    | skb skb =>
      rw [hskb] at hfreed
      cases hfreed
      exact Or.inr (Or.inr ⟨skb, rfl, by simp⟩)
  · simp only [harray, Option.bind_eq_bind, Option.bind_some, Option.bind_eq_some_iff] at h
    obtain ⟨_, _, h⟩ := h
    cases h
    exact Or.inr (Or.inl (by simp))

end

/-! ### Giving back several -/

/-- A function that gives clones back, one at a time: from a clone that is `fresh` it has a result
where its ring was `quiet`, and otherwise does what is not allowed.  `view` is what it does not
change. -/
structure Freeing {α : Type} (A : Adapter) (free : ℕ → Work → Option Work)
    (fresh : ℕ → Work → Prop) (quiet : ℕ → Prop) (view : Work → α) : Prop where
  run : ∀ i w, fresh i w → quiet i → Sound A w → ∃ w', free i w = some w' ∧ Sound A w'
  result : ∀ i w w', fresh i w → free i w = some w' →
    view w' = view w ∧ (∀ act ∈ w.acts, act ∈ w'.acts) ∧
      (∀ j, j ≠ i → fresh j w → fresh j w') ∧ ((∀ act ∈ w'.acts, act.Allowed A) → quiet i)

namespace Freeing

variable {α : Type} {free : ℕ → Work → Option Work} {fresh : ℕ → Work → Prop} {quiet : ℕ → Prop}
  {view : Work → α} {n : ℕ}

/-- Quiet clones are given back from the last one on. -/
theorem down_run (hf : Freeing A free fresh quiet view) (hfresh : ∀ i < n, fresh i w)
    (hquiet : ∀ i < n, quiet i) (hw : Sound A w) :
  ∃ w', downFrom free n w = some w' ∧ Sound A w'
  := by
  have hloop := downFrom_some (f := free) (I := fun i w => Sound A w ∧ ∀ j < i, fresh j w)
    (i := n) (s := w) ⟨hw, hfresh⟩ (by
      rintro i hi w ⟨hw, hfresh⟩
      have hi' := hfresh i (Nat.lt_succ_self i)
      obtain ⟨w', hw', hsound⟩ := hf.run i w hi' (hquiet i hi) hw
      obtain ⟨-, -, hothers, -⟩ := hf.result i w w' hi' hw'
      exact ⟨w', hw', hsound, fun j hj => hothers j hj.ne (hfresh j (Nat.lt_succ_of_lt hj))⟩)
  obtain ⟨w', hw', hsound, -⟩ := hloop
  exact ⟨w', hw', hsound⟩

/-- Quiet clones are given back from the first one on. -/
theorem up_run (hf : Freeing A free fresh quiet view) (hfresh : ∀ i < n, fresh i w)
    (hquiet : ∀ i < n, quiet i) (hw : Sound A w) :
  ∃ w', upFrom free n 0 w = some w' ∧ Sound A w'
  := by
  have hloop := upFrom_some (f := free) (I := fun i w => Sound A w ∧ ∀ j < n, i ≤ j → fresh j w)
    (n := n) (i := 0) (s := w) ⟨hw, fun j hj _ => hfresh j hj⟩ (by
      rintro i hi w - ⟨hw, hfresh⟩
      rw [Nat.zero_add] at hi
      have hi' := hfresh i hi (Nat.le_refl i)
      obtain ⟨w', hw', hsound⟩ := hf.run i w hi' (hquiet i hi) hw
      obtain ⟨-, -, hothers, -⟩ := hf.result i w w' hi' hw'
      exact ⟨w', hw', hsound, fun j hj hle =>
        hothers j (Nat.ne_of_gt hle) (hfresh j hj (Nat.le_of_succ_le hle))⟩)
  obtain ⟨w', hw', hsound, -⟩ := hloop
  exact ⟨w', hw', hsound⟩

/-- Clones that are given back without doing what is not allowed are quiet. -/
theorem down_result (hf : Freeing A free fresh quiet view) (hfresh : ∀ i < n, fresh i w)
    (h : downFrom free n w = some w') :
  view w' = view w ∧ (∀ act ∈ w.acts, act ∈ w'.acts) ∧
    ((∀ act ∈ w'.acts, act.Allowed A) → ∀ i < n, quiet i)
  := by
  have hloop := downFrom_result (I := fun i w₁ => view w₁ = view w ∧
    (∀ act ∈ w.acts, act ∈ w₁.acts) ∧ (∀ j < i, fresh j w₁) ∧
    ((∀ act ∈ w₁.acts, act.Allowed A) → ∀ j < n, i ≤ j → quiet j)) h
    ⟨rfl, fun _ h => h, hfresh, fun _ j hj hle => absurd hle (Nat.not_le_of_lt hj)⟩ (by
      rintro i hi w₁ w₂ hw₂ ⟨hview, hacts, hfresh, hquiet⟩
      obtain ⟨hview', hacts', hothers, hquiet'⟩ :=
        hf.result i w₁ w₂ (hfresh i (Nat.lt_succ_self i)) hw₂
      refine ⟨hview'.trans hview, fun act hact => hacts' act (hacts act hact),
        fun j hj => hothers j hj.ne (hfresh j (Nat.lt_succ_of_lt hj)), fun hall j hj hle => ?_⟩
      rcases Nat.eq_or_lt_of_le hle with rfl | hlt
      · exact hquiet' hall
      · exact hquiet (fun act hact => hall act (hacts' act hact)) j hj hlt)
  obtain ⟨hview, hacts, -, hquiet⟩ := hloop
  exact ⟨hview, hacts, fun hall i hi => hquiet hall i hi (Nat.zero_le i)⟩

/-- Clones that are given back without doing what is not allowed are quiet. -/
theorem up_result (hf : Freeing A free fresh quiet view) (hfresh : ∀ i < n, fresh i w)
    (h : upFrom free n 0 w = some w') (hall : ∀ act ∈ w'.acts, act.Allowed A) :
  (∀ act ∈ w.acts, act ∈ w'.acts) ∧ ∀ i < n, quiet i
  := by
  have hloop := upFrom_result (I := fun i w₁ => (∀ act ∈ w.acts, act ∈ w₁.acts) ∧
    (∀ j < n, i ≤ j → fresh j w₁) ∧
    ((∀ act ∈ w₁.acts, act.Allowed A) → ∀ j < i, j < n → quiet j)) h
    ⟨fun _ h => h, fun j hj _ => hfresh j hj, fun _ j hj => absurd hj (Nat.not_lt_zero j)⟩ (by
      rintro i hi w₁ w₂ hw₂ ⟨hacts, hfresh, hquiet⟩
      rw [Nat.zero_add] at hi
      obtain ⟨-, hacts', hothers, hquiet'⟩ := hf.result i w₁ w₂ (hfresh i hi (Nat.le_refl i)) hw₂
      refine ⟨fun act hact => hacts' act (hacts act hact), fun j hj hle =>
        hothers j (Nat.ne_of_gt hle) (hfresh j hj (Nat.le_of_succ_le hle)), fun hall j hj hjn => ?_⟩
      rcases Nat.lt_succ_iff_lt_or_eq.mp hj with hlt | rfl
      · exact hquiet (fun act hact => hall act (hacts' act hact)) j hlt hjn
      · exact hquiet' hall)
  obtain ⟨hacts, -, hquiet⟩ := hloop
  rw [Nat.zero_add] at hquiet
  exact ⟨hacts, fun i hi => hquiet hall i hi hi⟩

end Freeing

/-- A clone stays fresh where nothing is written to it. -/
theorem FreshTx.congr {count i : ℕ} (h : FreshTx A count i w)
    (hwritten : ∀ a j, w.written a j = false → w'.written a j = false) (hring : w'.tx i = w.tx i) :
  FreshTx A count i w'
  := by
  obtain ⟨array, desc, harray, hdesc, hclean, heq⟩ := h
  exact ⟨array, desc, harray, hdesc, fun j => hwritten array j (hclean j), hring.trans heq⟩

/-- A clone stays fresh where nothing is written to it. -/
theorem FreshRx.congr {count i : ℕ} (h : FreshRx A count i w)
    (hwritten : ∀ a j, w.written a j = false → w'.written a j = false) (hring : w'.rx i = w.rx i) :
  FreshRx A count i w'
  := by
  obtain ⟨hi, array, desc, rxq, harray, hdesc, hrxq, hclean, heq⟩ := h
  exact ⟨hi, array, desc, rxq, harray, hdesc, hrxq, fun j => hwritten array j (hclean j),
    hring.trans heq⟩

/-- `ixgbevf_free_tx_resources` gives the clones that transmit back. -/
theorem freeing_tx (count fuel : ℕ) :
  Freeing A (Work.freeTx A.memory fuel) (FreshTx A count) (fun i => (A.liveTx i).Quiet)
    Work.txArray
  where
    run i w hfresh hquiet hw := by
      obtain ⟨array, desc, harray, hdesc, -, heq⟩ := hfresh
      have hclone : (w.tx i).Quiet := by rwa [heq]
      refine ⟨_, by rw [Work.freeTx, freeTxResources_quiet hclone]; rfl, ?_⟩
      refine Sound.emit ?_ ?_
      · exact ⟨hw.next, hw.acts⟩
      intro act hact
      rw [heq] at hact
      simp only [Option.toList_some, List.map_cons, List.map_nil, List.mem_append,
        List.mem_singleton] at hact
      rcases hact with (hact | rfl) | rfl
      · split at hact
        · cases hact
        · obtain rfl := List.mem_singleton.mp hact
          trivial
      · exact harray
      · exact hdesc
    result i w w' hfresh h := by
      obtain ⟨array, desc, -, -, hclean, heq⟩ := hfresh
      rw [Work.freeTx, Option.bind_eq_bind, Option.bind_eq_some_iff] at h
      obtain ⟨result, hresult, h⟩ := h
      cases h
      refine ⟨rfl, fun act hact => List.mem_append_left _ hact, ?_, fun hall => ?_⟩
      · intro j hj hfresh
        exact hfresh.congr (fun _ _ h => h) (Function.update_of_ne hj _ _)
      · have harray : (w.tx i).bufferInfo = some array := by rw [heq]
        rcases freeTxResources_reads harray hresult with hquiet | hread
        · rwa [heq] at hquiet
        · have hallowed := (hall _ (List.mem_append_right _ hread)).read _ _ _ _ rfl
          rw [hclean] at hallowed
          cases hallowed.1

/-- `ixgbevf_free_rx_resources` gives the clones that receive back. -/
theorem freeing_rx (count fuel : ℕ) :
  Freeing A (Work.freeRx A.memory fuel) (FreshRx A count) (fun i => (A.rxRing i).Quiet)
    fun w => (w.tx, w.written, w.txArray)
  where
    run i w hfresh hquiet hw := by
      obtain ⟨-, array, desc, rxq, harray, hdesc, hrxq, -, heq⟩ := hfresh
      have hclone : (w.rx i).Quiet := by rwa [heq]
      refine ⟨_, by rw [Work.freeRx, freeRxResources_quiet hclone]; rfl, ?_⟩
      refine Sound.emit ?_ ?_
      · exact ⟨hw.next, hw.acts⟩
      intro act hact
      rw [heq] at hact
      simp only [Option.toList_some, List.map_cons, List.map_nil, List.mem_append,
        List.mem_singleton] at hact
      rcases hact with (rfl | rfl) | rfl
      · exact hrxq
      · exact harray
      · exact hdesc
    result i w w' hfresh h := by
      obtain ⟨hi, array, desc, rxq, -, -, -, hclean, heq⟩ := hfresh
      rw [Work.freeRx, Option.bind_eq_bind, Option.bind_eq_some_iff] at h
      obtain ⟨result, hresult, h⟩ := h
      cases h
      refine ⟨rfl, fun act hact => List.mem_append_left _ hact, ?_, fun hall => ?_⟩
      · intro j hj hfresh
        exact hfresh.congr (fun _ _ h => h) (Function.update_of_ne hj _ _)
      · have harray : (w.rx i).bufferInfo = some array := by rw [heq]
        rcases freeRxResources_reads harray hresult with hquiet | hread | ⟨skb, hskb, hfree⟩
        · rwa [heq] at hquiet
        · have hallowed := (hall _ (List.mem_append_right _ hread)).read _ _ _ _ rfl
          rw [hclean] at hallowed
          cases hallowed.1
        · rw [heq] at hskb
          have hallowed := (hall _ (List.mem_append_right _ hfree)).releases (.rxSkb skb.id) rfl
          exact absurd (Or.inr ⟨i, hi, skb, hskb, rfl⟩) hallowed

/-! ### Making clones -/

/-- A new array holds nothing that has been written, and no other changes. -/
theorem vmalloc_written (w : Work) (a j : ℕ) (h : w.written a j = false) :
  w.vmalloc.written a j = false
  := by
  unfold Work.vmalloc
  by_cases ha : a = w.next
  · subst ha
    simp
  · simp [ha, h]

/-- A turn of the loop that makes the clones that transmit. -/
theorem cloneTx_cases {count i : ℕ} {answers : Answers} (hw : Sound A w)
    (hfresh : ∀ j < i, FreshTx A count j w) :
  Sound A (w.cloneTx A count answers i).1 ∧
    (w.cloneTx A count answers i).1.txArray = w.txArray ∧
    (∀ j < i, FreshTx A count j (w.cloneTx A count answers i).1) ∧
    ((w.cloneTx A count answers i).2 = true ↔ answers.tx i = .ok) ∧
    ((w.cloneTx A count answers i).2 = true → FreshTx A count i (w.cloneTx A count answers i).1)
  := by
  have hother {w' : Work} {r : TxRing}
      (hwritten : ∀ a j, w.written a j = false → w'.written a j = false) (htx : w'.tx = w.tx)
      (j : ℕ) (hj : j < i) : FreshTx A count j { w' with tx := Function.update w'.tx i r } := by
    refine FreshTx.congr (hfresh j hj) ?_ ?_
    · exact hwritten
    · rw [← htx]
      exact Function.update_of_ne hj.ne _ _
  have hnext : A.next ≤ w.next := hw.next
  unfold Work.cloneTx Work.setupTxResources
  cases ho : answers.tx i with
  | ok =>
    refine ⟨⟨Nat.le_add_right_of_le (Nat.le_add_right_of_le hnext), hw.acts⟩, rfl,
      hother (vmalloc_written w) rfl, by simp, fun _ => ?_⟩
    refine ⟨w.next, w.next + 1, hnext, Nat.le_add_right_of_le hnext, fun j => ?_, ?_⟩
    · simp [Work.vmalloc, Work.take]
    · simp [Work.vmalloc, Work.take]
  | bufferInfoFails => exact ⟨⟨hnext, hw.acts⟩, rfl, hother (fun _ _ h => h) rfl, by simp, by simp⟩
  | descFails =>
    refine ⟨⟨Nat.le_add_right_of_le hnext, ?_⟩, rfl, hother (vmalloc_written w) rfl, by simp, by simp⟩
    intro act hact
    rcases List.mem_append.mp hact with hact | hact
    · exact hw.acts act hact
    · obtain rfl := List.mem_singleton.mp hact
      exact hnext

/-- A turn of the loop that makes the clones that receive. -/
theorem cloneRx_cases {count i : ℕ} {answers : Answers} (hw : Sound A w) (hi : i < A.numRxQueues)
    (hfresh : ∀ j < i, FreshRx A count j w) :
  Sound A (w.cloneRx A count answers i).1 ∧
    ((w.cloneRx A count answers i).1.txArray = w.txArray ∧
      (w.cloneRx A count answers i).1.tx = w.tx ∧
      ∀ a j, w.written a j = false → (w.cloneRx A count answers i).1.written a j = false) ∧
    (∀ j < i, FreshRx A count j (w.cloneRx A count answers i).1) ∧
    ((w.cloneRx A count answers i).2 = true ↔ answers.rx i = .ok) ∧
    ((w.cloneRx A count answers i).2 = true → FreshRx A count i (w.cloneRx A count answers i).1)
  := by
  have hother {w' : Work} {r : RxRing}
      (hwritten : ∀ a j, w.written a j = false → w'.written a j = false) (hrx : w'.rx = w.rx)
      (j : ℕ) (hj : j < i) : FreshRx A count j { w' with rx := Function.update w'.rx i r } := by
    refine FreshRx.congr (hfresh j hj) ?_ ?_
    · exact hwritten
    · rw [← hrx]
      exact Function.update_of_ne hj.ne _ _
  have hnext : A.next ≤ w.next := hw.next
  unfold Work.cloneRx Work.setupRxResources
  cases ho : answers.rx i with
  | ok =>
    refine ⟨⟨Nat.le_add_right_of_le (Nat.le_add_right_of_le (Nat.le_add_right_of_le hnext)),
      hw.acts⟩, ⟨rfl, rfl, vmalloc_written w⟩, hother (vmalloc_written w) rfl, by simp, fun _ => ?_⟩
    refine ⟨hi, w.next, w.next + 1, w.next + 2, hnext, Nat.le_add_right_of_le hnext,
      Nat.le_add_right_of_le hnext, fun j => ?_, ?_⟩
    · simp [Work.vmalloc, Work.take]
    · simp [Work.vmalloc, Work.take]
  | bufferInfoFails =>
    exact ⟨⟨hnext, hw.acts⟩, ⟨rfl, rfl, fun _ _ h => h⟩, hother (fun _ _ h => h) rfl, by simp,
      by simp⟩
  | descFails =>
    have hw' : Sound A w.vmalloc := ⟨Nat.le_add_right_of_le hnext, hw.acts⟩
    have hfreed := hw'.emit (show ∀ act ∈ [Act.vfree w.next], act.Own A from
      by simpa [Act.Own] using hnext)
    exact ⟨⟨hfreed.next, hfreed.acts⟩, ⟨rfl, rfl, vmalloc_written w⟩,
      hother (vmalloc_written w) rfl, by simp, by simp⟩
  | rxqRegFails =>
    have hw' : Sound A w.vmalloc.take :=
      ⟨Nat.le_add_right_of_le (Nat.le_add_right_of_le hnext), hw.acts⟩
    have hfreed := hw'.emit (show ∀ act ∈ [Act.vfree w.next], act.Own A from
      by simpa [Act.Own] using hnext)
    exact ⟨⟨hfreed.next, hfreed.acts⟩, ⟨rfl, rfl, vmalloc_written w⟩,
      hother (vmalloc_written w) rfl, by simp, by simp⟩

/-- The loops that make the clones that transmit: they set all of them up, or stop at the first that
cannot be. -/
theorem tryFrom_cloneTx (count : ℕ) (answers : Answers) (hw : Sound A w) (n : ℕ) :
  (∃ w', tryFrom (Work.cloneTx A count answers) n 0 w = (w', none) ∧
      (∀ i < n, answers.tx i = .ok) ∧ Sound A w' ∧ w'.txArray = w.txArray ∧
      ∀ i < n, FreshTx A count i w') ∨
    ∃ i w', i < n ∧ tryFrom (Work.cloneTx A count answers) n 0 w = (w', some i) ∧
      ((∀ j < i, answers.tx j = .ok) ∧ answers.tx i ≠ .ok) ∧ Sound A w' ∧ w'.txArray = w.txArray ∧
      ∀ j < i, FreshTx A count j w'
  := by
  have hloop := tryFrom_cases (f := Work.cloneTx A count answers) (n := n) (i := 0) (s := w)
    (I := fun i w₁ => (∀ j < i, answers.tx j = .ok) ∧ Sound A w₁ ∧ w₁.txArray = w.txArray ∧
      ∀ j < i, FreshTx A count j w₁)
    ⟨fun j hj => absurd hj (Nat.not_lt_zero j), hw, rfl,
      fun j hj => absurd hj (Nat.not_lt_zero j)⟩ (by
      rintro i - w₁ - ⟨hok, hw₁, harray, hfresh⟩ hsucceeds
      obtain ⟨hsound, harray', hbefore, hanswer, hnew⟩ :=
        cloneTx_cases hw₁ hfresh
      refine ⟨fun j hj => ?_, hsound, harray'.trans harray, fun j hj => ?_⟩
      · rcases Nat.lt_succ_iff_lt_or_eq.mp hj with hlt | rfl
        · exact hok j hlt
        · exact hanswer.mp hsucceeds
      · rcases Nat.lt_succ_iff_lt_or_eq.mp hj with hlt | rfl
        · exact hbefore j hlt
        · exact hnew hsucceeds)
  rw [Nat.zero_add] at hloop
  rcases hloop with hall | ⟨i, w₁, -, hi, ⟨hok, hw₁, harray, hfresh⟩, hno, hresult⟩
  · exact Or.inl hall
  · obtain ⟨hsound, harray', hbefore, hanswer, -⟩ :=
      cloneTx_cases hw₁ hfresh
    refine Or.inr ⟨i, _, hi, hresult, ⟨hok, fun h => ?_⟩, hsound, harray'.trans harray, hbefore⟩
    rw [hanswer.mpr h] at hno
    cases hno

/-- The loop that makes the clones that receive leaves those that transmit alone. -/
theorem tryFrom_cloneRx (count : ℕ) (answers : Answers) (hw : Sound A w) {n : ℕ}
    (hn : n ≤ A.numRxQueues) :
  (∃ w', tryFrom (Work.cloneRx A count answers) n 0 w = (w', none) ∧
      ∀ i < n, answers.rx i = .ok) ∨
    ∃ i w', i < n ∧ tryFrom (Work.cloneRx A count answers) n 0 w = (w', some i) ∧
      ((∀ j < i, answers.rx j = .ok) ∧ answers.rx i ≠ .ok) ∧ Sound A w' ∧
      (w'.txArray = w.txArray ∧ w'.tx = w.tx ∧
        ∀ a j, w.written a j = false → w'.written a j = false) ∧
      ∀ j < i, FreshRx A count j w'
  := by
  have hloop := tryFrom_cases (f := Work.cloneRx A count answers) (n := n) (i := 0) (s := w)
    (I := fun i w₁ => (∀ j < i, answers.rx j = .ok) ∧ Sound A w₁ ∧
      (w₁.txArray = w.txArray ∧ w₁.tx = w.tx ∧
        ∀ a j, w.written a j = false → w₁.written a j = false) ∧
      ∀ j < i, FreshRx A count j w₁)
    ⟨fun j hj => absurd hj (Nat.not_lt_zero j), hw, ⟨rfl, rfl, fun _ _ h => h⟩,
      fun j hj => absurd hj (Nat.not_lt_zero j)⟩ (by
      rintro i hi w₁ - ⟨hok, hw₁, ⟨harray, htx, hwritten⟩, hfresh⟩ hsucceeds
      obtain ⟨hsound, ⟨harray', htx', hwritten'⟩, hbefore, hanswer, hnew⟩ :=
        cloneRx_cases (i := i) hw₁ (by omega) hfresh
      refine ⟨fun j hj => ?_, hsound, ⟨harray'.trans harray, htx'.trans htx,
        fun a j h => hwritten' a j (hwritten a j h)⟩, fun j hj => ?_⟩
      · rcases Nat.lt_succ_iff_lt_or_eq.mp hj with hlt | rfl
        · exact hok j hlt
        · exact hanswer.mp hsucceeds
      · rcases Nat.lt_succ_iff_lt_or_eq.mp hj with hlt | rfl
        · exact hbefore j hlt
        · exact hnew hsucceeds)
  rw [Nat.zero_add] at hloop
  rcases hloop with ⟨w', hall, hok, -⟩ |
    ⟨i, w₁, -, hi, ⟨hok, hw₁, ⟨harray, htx, hwritten⟩, hfresh⟩, hno, hresult⟩
  · exact Or.inl ⟨w', hall, hok⟩
  · obtain ⟨hsound, ⟨harray', htx', hwritten'⟩, hbefore, hanswer, -⟩ :=
      cloneRx_cases (i := i) hw₁ (by omega) hfresh
    refine Or.inr ⟨i, _, hi, hresult, ⟨hok, fun h => ?_⟩, hsound, ⟨harray'.trans harray,
      htx'.trans htx, fun a j h => hwritten' a j (hwritten a j h)⟩, hbefore⟩
    rw [hanswer.mpr h] at hno
    cases hno

/-! ### The parts of the call -/

/-- An array of clones is made. -/
theorem Sound.vmalloc (h : Sound A w) :
  Sound A w.vmalloc
  := ⟨Nat.le_add_right_of_le h.next, h.acts⟩

/-- Where the loops stop at the clone `i`, those before it are given back. -/
theorem cloneTxRings_fails {count fuel i : ℕ} {answers : Answers} (hw : Sound A w)
    (hcount : count ≠ A.txRingCount) (harray : answers.txArray = true) (hi : i < A.numTxClones)
    (hok : ∀ j < i, answers.tx j = .ok) (hno : answers.tx i ≠ .ok) :
  ∃ w₁ array, w.cloneTxRings A count answers fuel
      = (downFrom (Work.freeTx A.memory fuel) i w₁).map (fun w =>
        ({ w.emit [.vfree array] with txArray := none }, false)) ∧
    A.next ≤ array ∧ Sound A w₁ ∧ ∀ j < i, FreshTx A count j w₁
  := by
  have hstart : Sound A { w.vmalloc with txArray := some w.next } := ⟨hw.vmalloc.next, hw.acts⟩
  rcases tryFrom_cloneTx count answers hstart A.numTxClones with
    ⟨w₁, -, hall, -⟩ | ⟨i', w₁, -, hresult, ⟨hok', hno'⟩, hsound, -, hfresh⟩
  · exact absurd (hall i hi) hno
  · obtain rfl : i' = i := by
      rcases Nat.lt_trichotomy i' i with hlt | heq | hgt
      · exact absurd (hok i' hlt) hno'
      · exact heq
      · exact absurd (hok' i hgt) hno
    refine ⟨w₁, w.next, ?_, hw.next, hsound, hfresh⟩
    unfold Work.cloneTxRings
    rw [if_neg hcount, harray, Bool.not_true, if_neg Bool.false_ne_true]
    simp only [hresult]

/-- The clones that transmit when those that receive are made. -/
structure TxMade (A : Adapter) (count n : ℕ) (w : Work) : Prop where
  fresh : ∀ i < n, FreshTx A count i w
  array : (n = 0 ∧ w.txArray = none) ∨
    n = A.numTxClones ∧ ∃ array, A.next ≤ array ∧ w.txArray = some array

/-- Where nothing fails, the clones that transmit are made. -/
theorem cloneTxRings_done {n fuel : ℕ} {req : Request} {answers : Answers} (hw : Sound A w)
    (hnone : w.txArray = none) (hdone : TxDone A req answers n) :
  ∃ w₁, w.cloneTxRings A (align req.txPending) answers fuel = some (w₁, true) ∧ Sound A w₁ ∧
    TxMade A (align req.txPending) n w₁
  := by
  cases hdone with
  | none hcount =>
    refine ⟨w, by rw [Work.cloneTxRings, if_pos hcount], hw, ?_, Or.inl ⟨rfl, hnone⟩⟩
    exact fun i hi => absurd hi (Nat.not_lt_zero i)
  | all hcount harray hall =>
    have hstart : Sound A { w.vmalloc with txArray := some w.next } :=
      ⟨hw.vmalloc.next, hw.acts⟩
    rcases tryFrom_cloneTx (align req.txPending) answers hstart A.numTxClones
      with ⟨w₁, hresult, -, hsound, htxArray, hfresh⟩ | ⟨i, w₁, hi, -, ⟨-, hno⟩, -⟩
    · refine ⟨w₁, ?_, hsound, hfresh, Or.inr ⟨rfl, w.next, hw.next, htxArray⟩⟩
      unfold Work.cloneTxRings
      rw [if_neg hcount, harray, Bool.not_true, if_neg Bool.false_ne_true]
      simp only [hresult]
    · exact absurd (hall i hi) hno

/-- Where the loop stops at the clone `i`, those before it are given back, and the clones that
transmit stay as they are. -/
theorem cloneRxRings_fails {txCount count fuel i n : ℕ} {answers : Answers} (hw : Sound A w)
    (hmade : TxMade A txCount n w) (hcount : count ≠ A.rxRingCount)
    (harray : answers.rxArray = true) (hi : i < A.numRxQueues)
    (hok : ∀ j < i, answers.rx j = .ok) (hno : answers.rx i ≠ .ok) :
  ∃ w₁ array, w.cloneRxRings A count answers fuel
      = (downFrom (Work.freeRx A.memory fuel) i w₁).map (fun w =>
        ({ w.emit [.vfree array] with rxArray := none }, false)) ∧
    A.next ≤ array ∧ Sound A w₁ ∧ TxMade A txCount n w₁ ∧ ∀ j < i, FreshRx A count j w₁
  := by
  have hstart : Sound A { w.vmalloc with rxArray := some w.next } := ⟨hw.vmalloc.next, hw.acts⟩
  rcases tryFrom_cloneRx count answers hstart (Nat.le_refl A.numRxQueues)
    with ⟨w₁, -, hall⟩ |
      ⟨i', w₁, -, hresult, ⟨hok', hno'⟩, hsound, ⟨htxArray, htx, hwritten⟩, hfresh⟩
  · exact absurd (hall i hi) hno
  · obtain rfl : i' = i := by
      rcases Nat.lt_trichotomy i' i with hlt | heq | hgt
      · exact absurd (hok i' hlt) hno'
      · exact heq
      · exact absurd (hok' i hgt) hno
    refine ⟨w₁, w.next, ?_, hw.next, hsound, ⟨fun j hj => ?_, ?_⟩, hfresh⟩
    · unfold Work.cloneRxRings
      rw [if_neg hcount, harray, Bool.not_true, if_neg Bool.false_ne_true]
      simp only [hresult]
    · refine (hmade.fresh j hj).congr (fun a k hclean => ?_) (congrFun htx j)
      exact hwritten a k (vmalloc_written w a k hclean)
    · rw [htxArray]
      exact hmade.array

/-- The label `clear_reset` gives quiet clones back. -/
theorem clearReset_run {count n fuel : ℕ} (hmade : TxMade A count n w) (hw : Sound A w)
    (hquiet : ∀ i < n, (A.liveTx i).Quiet) :
  ∃ w', w.clearReset A fuel = some w' ∧ Sound A w'
  := by
  unfold Work.clearReset
  rcases hmade.array with ⟨-, hnone⟩ | ⟨rfl, array, harray, hsome⟩
  · exact ⟨w, by rw [hnone], hw⟩
  · obtain ⟨w', hw', hsound⟩ := (freeing_tx count fuel).up_run hmade.fresh hquiet hw
    refine ⟨w'.emit [.vfree array], by simp only [hsome, hw', Option.map_some], ?_⟩
    exact hsound.emit fun act hact => by
      obtain rfl := List.mem_singleton.mp hact
      exact harray

/-- Where it does not do what is not allowed, the clones were quiet. -/
theorem clearReset_result {count n fuel : ℕ} (hmade : TxMade A count n w)
    (h : w.clearReset A fuel = some w') (hall : ∀ act ∈ w'.acts, act.Allowed A) :
  (∀ act ∈ w.acts, act ∈ w'.acts) ∧ ∀ i < n, (A.liveTx i).Quiet
  := by
  unfold Work.clearReset at h
  rcases hmade.array with ⟨rfl, hnone⟩ | ⟨rfl, array, -, hsome⟩
  · rw [hnone] at h
    cases h
    exact ⟨fun _ h => h, fun i hi => absurd hi (Nat.not_lt_zero i)⟩
  · simp only [hsome, Option.map_eq_some_iff] at h
    obtain ⟨w₁, hw₁, rfl⟩ := h
    obtain ⟨hacts, hquiet⟩ := (freeing_tx count fuel).up_result hmade.fresh hw₁
      fun act hact => hall act (List.mem_append_left _ hact)
    exact ⟨fun act hact => List.mem_append_left _ (hacts act hact), hquiet⟩

/-! ### The call -/

variable {req : Request} {answers : Answers} {fuel : ℕ}

/-- A call that comes to the clones goes on with those that transmit. -/
theorem setRingparam_eq (hreq : Proceeds A req)
    (hchanged : align req.txPending ≠ A.txRingCount ∨ align req.rxPending ≠ A.rxRingCount) :
  setRingparam A req answers fuel w
    = (w.cloneTxRings A (align req.txPending) answers fuel).bind fun p =>
      if p.2 then
        (p.1.cloneRxRings A (align req.rxPending) answers fuel).bind fun p =>
          if p.2 then some (.swaps p.1) else (p.1.clearReset A fuel).map (.returned (-12))
      else
        (p.1.clearReset A fuel).map (.returned (-12))
  := by
  have hvalid : ¬ (req.rxMiniPending ≠ 0 ∨ req.rxJumboPending ≠ 0 ∨ ¬ InRange req.txPending ∨
      ¬ InRange req.rxPending) := by
    simp [hreq.rxMiniPending, hreq.rxJumboPending, hreq.txPending, hreq.rxPending]
  have hsome : ¬ (align req.txPending = A.txRingCount ∧ align req.rxPending = A.rxRingCount) := by
    rintro ⟨htx, hrx⟩
    exact hchanged.elim (absurd htx) (absurd hrx)
  unfold setRingparam
  simp only [if_neg hvalid, if_neg hsome, hreq.running, Bool.not_true, Bool.false_eq_true, if_false]
  congr 1
  funext p
  obtain ⟨w₁, ok⟩ := p
  cases ok with
  | false => cases w₁.clearReset A fuel <;> rfl
  | true =>
    simp only [Bool.not_true, Bool.false_eq_true, if_false, if_true]
    congr 1
    funext p
    obtain ⟨w₂, ok⟩ := p
    cases ok with
    | false => cases w₂.clearReset A fuel <;> rfl
    | true => rfl

/-- A call that stops at a failed allocation is atomic when what comes after it is allowed. -/
theorem atomic_iff_of_stops {x : Option Work}
    (h : setRingparam A req answers fuel w
      = (x.bind (Work.clearReset A fuel)).map (.returned (-12))) :
  (∃ o, setRingparam A req answers fuel w = some o ∧ Atomic A o)
    ↔ ∃ w₁ w₂, x = some w₁ ∧ w₁.clearReset A fuel = some w₂ ∧ ∀ act ∈ w₂.acts, act.Allowed A
  := by
  rw [h]
  constructor
  · rintro ⟨o, ho, hatomic⟩
    obtain ⟨w₂, hw₂, rfl⟩ := Option.map_eq_some_iff.mp ho
    obtain ⟨w₁, hw₁, hw₂⟩ := Option.bind_eq_some_iff.mp hw₂
    exact ⟨w₁, w₂, hw₁, hw₂, hatomic.2⟩
  · rintro ⟨w₁, w₂, rfl, hw₂, hall⟩
    exact ⟨.returned (-12) w₂, by rw [Option.bind_some, hw₂, Option.map_some], rfl, hall⟩

/-- Without clones that transmit `clear_reset` has nothing to give back. -/
theorem clearReset_none (h : w.txArray = none) :
  w.clearReset A fuel = some w
  := by rw [Work.clearReset, h]

/-- For every state of the live rings, all sizes and every allocation that fails, the call returns
the error and leaves the live rings alone exactly when the rings of which a clone had been set up by
then had nothing in flight, no page and no part of a frame. -/
theorem atomic_iff {n m : ℕ} (hw : Start A w) (hreq : Proceeds A req)
    (hfails : FailsAt A req answers n m) (fuel : ℕ) :
  (∃ o, setRingparam A req answers fuel w = some o ∧ Atomic A o)
    ↔ (∀ i < n, (A.liveTx i).Quiet) ∧ ∀ i < m, (A.rxRing i).Quiet
  := by
  have hsound : Sound A w := ⟨hw.next.ge, by simp [hw.acts]⟩
  have hzero {P : ℕ → Prop} : ∀ i < 0, P i := fun i hi => absurd hi (Nat.not_lt_zero i)
  cases hfails with
  | txArray hcount harray =>
    have hstop : setRingparam A req answers fuel w
        = ((some w).bind (Work.clearReset A fuel)).map (.returned (-12)) := by
      rw [setRingparam_eq hreq (Or.inl hcount), Work.cloneTxRings, if_neg hcount, harray]
      rfl
    rw [atomic_iff_of_stops hstop]
    refine iff_of_true ⟨w, w, rfl, clearReset_none hw.txArray, ?_⟩ ⟨hzero, hzero⟩
    exact fun act hact => (hsound.acts act hact).allowed
  | tx hcount harray hi hok hno =>
    obtain ⟨w₁, array, hclones, harray', hsound₁, hfresh⟩ :=
      cloneTxRings_fails hsound hcount harray hi hok hno
    have hstop : setRingparam A req answers fuel w
        = (((downFrom (Work.freeTx A.memory fuel) n w₁).map fun w =>
            { w.emit [.vfree array] with txArray := none }).bind (Work.clearReset A fuel)).map
          (.returned (-12)) := by
      rw [setRingparam_eq hreq (Or.inl hcount), hclones]
      cases downFrom (Work.freeTx A.memory fuel) n w₁ <;> rfl
    rw [atomic_iff_of_stops hstop]
    constructor
    · rintro ⟨w₂, w₃, hw₂, hw₃, hall⟩
      obtain ⟨w₂, hdown, rfl⟩ := Option.map_eq_some_iff.mp hw₂
      rw [clearReset_none rfl] at hw₃
      cases hw₃
      obtain ⟨-, -, hquiet⟩ := (freeing_tx _ fuel).down_result hfresh hdown
      exact ⟨hquiet fun act hact => hall act (List.mem_append_left _ hact), hzero⟩
    · rintro ⟨hquiet, -⟩
      obtain ⟨w₂, hdown, hsound₂⟩ := (freeing_tx _ fuel).down_run hfresh hquiet hsound₁
      refine ⟨_, _, by rw [hdown, Option.map_some], clearReset_none rfl, ?_⟩
      have hfreed := hsound₂.emit (show ∀ act ∈ [Act.vfree array], act.Own A from fun act hact => by
        obtain rfl := List.mem_singleton.mp hact
        exact harray')
      exact fun act hact => (hfreed.acts act hact).allowed
  | rxArray hdone hcount harray =>
    obtain ⟨w₁, hclones, hsound₁, hmade⟩ := cloneTxRings_done hsound hw.txArray hdone
    have hstop : setRingparam A req answers fuel w
        = ((some w₁).bind (Work.clearReset A fuel)).map (.returned (-12)) := by
      rw [setRingparam_eq hreq (Or.inr hcount), hclones, Option.bind_some, if_pos rfl,
        Work.cloneRxRings, if_neg hcount, harray]
      rfl
    rw [atomic_iff_of_stops hstop]
    constructor
    · rintro ⟨w₁, w₂, heq, hw₂, hall⟩
      cases heq
      exact ⟨(clearReset_result hmade hw₂ hall).2, hzero⟩
    · rintro ⟨hquiet, -⟩
      obtain ⟨w₂, hw₂, hsound₂⟩ := clearReset_run hmade hsound₁ hquiet
      exact ⟨w₁, w₂, rfl, hw₂, fun act hact => (hsound₂.acts act hact).allowed⟩
  | rx hdone hcount harray hi hok hno =>
    obtain ⟨w₁, hclones, hsound₁, hmade⟩ := cloneTxRings_done hsound hw.txArray hdone
    obtain ⟨w₂, array, hclonesRx, harray', hsound₂, hmade₂, hfresh⟩ :=
      cloneRxRings_fails hsound₁ hmade hcount harray hi hok hno
    have hstop : setRingparam A req answers fuel w
        = (((downFrom (Work.freeRx A.memory fuel) m w₂).map fun w =>
            { w.emit [.vfree array] with rxArray := none }).bind (Work.clearReset A fuel)).map
          (.returned (-12)) := by
      rw [setRingparam_eq hreq (Or.inr hcount), hclones, Option.bind_some, if_pos rfl, hclonesRx]
      cases downFrom (Work.freeRx A.memory fuel) m w₂ <;> rfl
    have hkept {w₃ : Work} (h : downFrom (Work.freeRx A.memory fuel) m w₂ = some w₃) :
        TxMade A (align req.txPending) n { w₃.emit [.vfree array] with rxArray := none } := by
      obtain ⟨hview, -, -⟩ := (freeing_rx _ fuel).down_result hfresh h
      simp only [Prod.mk.injEq] at hview
      obtain ⟨htx, hwritten, htxArray⟩ := hview
      refine ⟨fun j hj => ?_, ?_⟩
      · refine FreshTx.congr (hmade₂.fresh j hj) (fun a k hclean => ?_) (congrFun htx j)
        exact (congrFun (congrFun hwritten a) k).trans hclean
      · have harrays := hmade₂.array
        rwa [← htxArray] at harrays
    rw [atomic_iff_of_stops hstop]
    constructor
    · rintro ⟨w₃, w₄, hw₃, hw₄, hall⟩
      obtain ⟨w₃, hdown, rfl⟩ := Option.map_eq_some_iff.mp hw₃
      obtain ⟨hacts, hquiet⟩ := clearReset_result (hkept hdown) hw₄ hall
      obtain ⟨-, -, hquietRx⟩ := (freeing_rx _ fuel).down_result hfresh hdown
      exact ⟨hquiet, hquietRx fun act hact => hall act (hacts act (List.mem_append_left _ hact))⟩
    · rintro ⟨hquiet, hquietRx⟩
      obtain ⟨w₃, hdown, hsound₃⟩ := (freeing_rx _ fuel).down_run hfresh hquietRx hsound₂
      have hfreed := hsound₃.emit (show ∀ act ∈ [Act.vfree array], act.Own A from fun act hact => by
        obtain rfl := List.mem_singleton.mp hact
        exact harray')
      obtain ⟨w₄, hw₄, hsound₄⟩ := clearReset_run (hkept hdown)
        ⟨hfreed.next, hfreed.acts⟩ hquiet
      exact ⟨_, w₄, by rw [hdown, Option.map_some], hw₄,
        fun act hact => (hsound₄.acts act hact).allowed⟩

/-! ### A packet in flight -/

/-- What memory holds where a packet was recorded before. -/
def staleMemory : Memory where
  tx _ _ :=
    { nextToWatch := some 0, skb := some 7, bytecount := 64, gsoSegs := 1, protocol := 0
      dma := 0x1000, len := 64, txFlags := 0 }
  rx _ _ := { page := some 5, pageOffset := 0, pagecntBias := 1 }

/-- An adapter that is up, with one ring of each kind; the Tx ring holds packets up to the slot
`nextToUse`. -/
def smallAdapter (nextToUse : ℕ) : Adapter where
  running := true
  txRingCount := 64
  rxRingCount := 64
  numTxQueues := 1
  numXdpQueues := 0
  numRxQueues := 1
  txRing _ :=
    { count := 64, nextToUse := nextToUse, nextToClean := 0, xdp := false
      bufferInfo := some 0, desc := some 1 }
  xdpRing _ :=
    { count := 64, nextToUse := 0, nextToClean := 0, xdp := true, bufferInfo := none, desc := none }
  rxRing _ :=
    { count := 64, nextToUse := 63, nextToClean := 0, nextToAlloc := 63, skb := .null
      bufferInfo := some 2, desc := some 3, xdpRxq := some 4 }
  memory := staleMemory
  next := 8
  tx_lt i a h := by
    rcases h with h | h <;> cases h <;> decide
  xdp_lt i a h := by
    rcases h with h | h <;> cases h
  rx_lt i a h := by
    rcases h with h | h | h <;> cases h <;> decide

/-- The call starts. -/
def startWork (A : Adapter) : Work where
  next := A.next
  written _ _ := false
  acts := []
  txArray := none
  tx _ := A.txRing 0
  rxArray := none
  rx := A.rxRing

/-- 128 descriptors in each ring. -/
def doubled : Request :=
  { rxMiniPending := 0, rxJumboPending := 0, txPending := 128, rxPending := 128 }

/-- There is no memory for the clones that receive. -/
def noRxArray : Answers where
  txArray := true
  tx _ := .ok
  rxArray := false
  rx _ := .ok

/-- The call starts on the adapter. -/
theorem startWork_start (A : Adapter) :
  Start A (startWork A)
  := ⟨rfl, rfl, rfl⟩

/-- The call comes to the clones. -/
theorem doubled_proceeds (nextToUse : ℕ) :
  Proceeds (smallAdapter nextToUse) doubled
  := ⟨rfl, rfl, by decide, by decide, rfl⟩

/-- It fails when the Tx ring has a clone. -/
theorem noRxArray_failsAt (nextToUse : ℕ) :
  FailsAt (smallAdapter nextToUse) doubled noRxArray 1 0
  := by
  have hcount : align 128 ≠ 64 := by decide
  exact FailsAt.rxArray (TxDone.all hcount rfl fun _ _ => rfl) hcount rfl

/-- With an empty Tx ring the call leaves it alone. -/
theorem smallAdapter_atomic_iff :
  (∃ o, setRingparam (smallAdapter 0) doubled noRxArray 1 (startWork (smallAdapter 0)) = some o ∧
      Atomic (smallAdapter 0) o)
    ↔ (∀ i < 1, ((smallAdapter 0).liveTx i).Quiet) ∧ ∀ i < 0, ((smallAdapter 0).rxRing i).Quiet
  := atomic_iff (startWork_start _) (doubled_proceeds 0) (noRxArray_failsAt 0) 1

/-- With a packet in the slot 0 of the Tx ring the call reads that entry of its clone, which holds
whatever was there before, and frees what it finds: the packet that is in flight. -/
theorem smallAdapter_not_atomic :
  (smallAdapter 1).Owns (.txData 7) ∧
  (∃ w, setRingparam (smallAdapter 1) doubled noRxArray 1 (startWork (smallAdapter 1))
      = some (.returned (-12) w) ∧ .read 9 0 128 false ∈ w.acts ∧ .freeData (some 7) ∈ w.acts) ∧
  ¬ ∀ (A : Adapter) (req : Request) (answers : Answers) (w : Work) (n m fuel : ℕ),
    Start A w → Proceeds A req → FailsAt A req answers n m →
    ∃ o, setRingparam A req answers fuel w = some o ∧ Atomic A o
  := by
  have hrun : ∃ w, setRingparam (smallAdapter 1) doubled noRxArray 1 (startWork (smallAdapter 1))
      = some (.returned (-12) w) ∧ .read 9 0 128 false ∈ w.acts ∧ .freeData (some 7) ∈ w.acts := by
    refine ⟨_, rfl, ?_, ?_⟩ <;> decide
  refine ⟨?_, hrun, fun h => ?_⟩
  · exact Or.inl ⟨0, by decide, 0, 0, rfl, ⟨by decide, by decide⟩, rfl⟩
  · obtain ⟨o, ho, hatomic⟩ := h _ _ _ _ _ _ 1 (startWork_start _) (doubled_proceeds 1)
      (noRxArray_failsAt 1)
    obtain ⟨w, hw, hread, -⟩ := hrun
    rw [hw] at ho
    cases ho
    cases ((hatomic.2 _ hread).read _ _ _ _ rfl).1

end Ixgbevf.Ringparam
