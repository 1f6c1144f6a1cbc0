import Ixgbevf.Interface.Ringparam
import Ixgbevf.Tx.Accounts
import Ixgbevf.Rx.Moves

/-!
# Resizing the rings

What a successful call of `ixgbevf_set_ringparam` does to the packets, pages and mappings of an
interface that is up.  It copies the rings and sets the copies up; then it takes the interface down,
frees the rings, puts the copies in their place, and takes the interface up.  Packets come and go
while the copies are made, and the copies know nothing of that.
-/

namespace Ixgbevf.Resize

open Loops
open Ringparam (InRange align)
open Rx (BufferFlags PageAnswer RxQueue)
open Tx (OwnedRing SharedRing)

/-! ### The adapter -/

/-- The copies of the rings that a call of `ixgbevf_set_ringparam` has set up. -/
structure Clones where
  /-- `new_tx_count`. -/
  newTxCount : ℕ
  /-- `new_rx_count`. -/
  newRxCount : ℕ
  /-- `tx_ring`, where the copies of the XDP rings come after the others. -/
  txRing : Option (ℕ → OwnedRing)
  /-- `rx_ring`. -/
  rxRing : Option (ℕ → Rx.RxRing)

/-- An adapter with its rings. -/
structure Adapter where
  /-- `num_tx_queues`. -/
  numTxQueues : ℕ
  /-- `num_xdp_queues`. -/
  numXdpQueues : ℕ
  /-- `num_rx_queues`. -/
  numRxQueues : ℕ
  /-- `tx_ring_count`, which is `xdp_ring_count`. -/
  txRingCount : ℕ
  /-- `rx_ring_count`. -/
  rxRingCount : ℕ
  /-- `tx_ring`. -/
  txRing : ℕ → OwnedRing
  /-- `xdp_ring`. -/
  xdpRing : ℕ → OwnedRing
  /-- `rx_ring`. -/
  rxRing : ℕ → RxQueue
  /-- `__IXGBEVF_DOWN` is not set. -/
  up : Bool
  /-- The copies of a call of `ixgbevf_set_ringparam` that is under way. -/
  clones : Option Clones

/-- What the memory of the copies holds before anything is written there. -/
structure Memory where
  /-- `tx_buffer_info`. -/
  txBuffer : ℕ → ℕ → Tx.TxBuffer
  /-- `desc` of a ring that transmits. -/
  txDesc : ℕ → ℕ → Tx.TxDesc
  /-- `rx_buffer_info`. -/
  rxBuffer : ℕ → ℕ → Rx.RxBuffer
  /-- `desc` of a ring that receives. -/
  rxDesc : ℕ → ℕ → Rx.RxDesc

/-- A ring that transmits is copied, and the copy is set up. -/
def cloneTx (r : OwnedRing) (count : ℕ) (buffer : ℕ → Tx.TxBuffer) (desc : ℕ → Tx.TxDesc) :
    OwnedRing :=
  { r with shared := { r.shared with
      ring := { r.shared.ring with count := count, buffer := buffer, desc := desc } } }

/-- A ring that receives is copied, and the copy is set up. -/
def cloneRx (r : Rx.RxRing) (count : ℕ) (buffer : ℕ → Rx.RxBuffer) (desc : ℕ → Rx.RxDesc) :
    Rx.RxRing :=
  { r with count := count, buffer := buffer, desc := desc }

/-- `*adapter->tx_ring[i] = tx_ring[i]`.  The variables of a call of `ixgbevf_clean_tx_irq` are not
in the ring. -/
def assignTx (r clone : OwnedRing) : OwnedRing :=
  { r with
    shared := { clone.shared with cleaning := r.shared.cleaning }
    packets := clone.packets
    txDoneOld := clone.txDoneOld
    detectHang := clone.detectHang
    hangCheckArmed := clone.hangCheckArmed }

/-- `*adapter->rx_ring[i] = rx_ring[i]`. -/
def assignRx (q : RxQueue) (clone : Rx.RxRing) : RxQueue := { q with ring := clone }

/-- The loop of `ixgbevf_set_ringparam` over the rings that transmit: a ring is freed, and its copy
takes its place. -/
def replaceTx (n : ℕ) (clones : ℕ → OwnedRing) (rings : ℕ → OwnedRing) : Option (ℕ → OwnedRing) :=
  -- `ixgbevf_free_tx_resources` cleans the ring once more
  forEach (fun i r => r.cleanTxRing.map fun r => assignTx r (clones i)) n rings

/-- The loop over the rings that receive. -/
def replaceRx (n : ℕ) (clones : ℕ → Rx.RxRing) (rings : ℕ → RxQueue) : Option (ℕ → RxQueue) :=
  forEach (fun i q => q.cleanRxRing.map fun q => assignRx q (clones i)) n rings

/-- Some rings that transmit are configured. -/
def configureTx (n : ℕ) (rings : ℕ → OwnedRing) : ℕ → OwnedRing := fun i =>
  if i < n then (rings i).configureTxRing (rings i).ring.count else rings i

/-- Some rings that receive are configured. -/
def configureRx (K : KernelConfig) (flags : ℕ → BufferFlags) (alloc : ℕ → ℕ → PageAnswer) (n : ℕ)
    (rings : ℕ → RxQueue) : ℕ → RxQueue := fun i =>
  if i < n then (rings i).configureRxRing K (flags i) (alloc i) else rings i

namespace Adapter

/-- The ring that the copy `i` is made of. -/
def liveTx (A : Adapter) (i : ℕ) : OwnedRing :=
  if i < A.numTxQueues then A.txRing i else A.xdpRing (i - A.numTxQueues)

/-- `ixgbevf_down`, as far as the rings go. -/
def down (A : Adapter) : Option Adapter := do
  let txRing ← forEach (fun _ r => r.cleanTxRing) A.numTxQueues A.txRing
  let xdpRing ← forEach (fun _ r => r.cleanTxRing) A.numXdpQueues A.xdpRing
  let rxRing ← forEach (fun _ q => q.cleanRxRing) A.numRxQueues A.rxRing
  return { A with txRing := txRing, xdpRing := xdpRing, rxRing := rxRing, up := false }

/-- `ixgbevf_up`, as far as the rings go. -/
def bringUp (K : KernelConfig) (flags : ℕ → BufferFlags) (alloc : ℕ → ℕ → PageAnswer)
    (A : Adapter) : Adapter :=
  { A with
    txRing := configureTx A.numTxQueues A.txRing
    xdpRing := configureTx A.numXdpQueues A.xdpRing
    rxRing := configureRx K flags alloc A.numRxQueues A.rxRing
    up := true }

/-- The part of `ixgbevf_set_ringparam` that sets the copies up. -/
def cloneRings (req : Ringparam.Request) (mem : Memory) (A : Adapter) : Adapter :=
  let newTxCount := align req.txPending
  let newRxCount := align req.rxPending
  { A with clones := some {
      newTxCount := newTxCount
      newRxCount := newRxCount
      txRing := if newTxCount ≠ A.txRingCount then
          some fun i => cloneTx (A.liveTx i) newTxCount (mem.txBuffer i) (mem.txDesc i)
        else none
      rxRing := if newRxCount ≠ A.rxRingCount then
          some fun i => cloneRx (A.rxRing i).ring newRxCount (mem.rxBuffer i) (mem.rxDesc i)
        else none } }

/-- The part under `if (tx_ring)`, between `ixgbevf_down` and `ixgbevf_up`. -/
def replaceTxRings (c : Clones) (A : Adapter) : Option Adapter :=
  match c.txRing with
  | none => some A
  | some clones => do
    let txRing ← replaceTx A.numTxQueues clones A.txRing
    let xdpRing ← replaceTx A.numXdpQueues (fun j => clones (A.numTxQueues + j)) A.xdpRing
    return { A with txRing := txRing, xdpRing := xdpRing, txRingCount := c.newTxCount }

/-- The part under `if (rx_ring)`. -/
def replaceRxRings (c : Clones) (A : Adapter) : Option Adapter :=
  match c.rxRing with
  | none => some A
  | some clones => do
    let rxRing ← replaceRx A.numRxQueues clones A.rxRing
    return { A with rxRing := rxRing, rxRingCount := c.newRxCount }

/-- The part of `ixgbevf_set_ringparam` after the copies are set up. -/
def swap (K : KernelConfig) (c : Clones) (flags : ℕ → BufferFlags) (alloc : ℕ → ℕ → PageAnswer)
    (A : Adapter) : Option Adapter := do
  let A ← A.down
  let A ← A.replaceTxRings c
  let A ← A.replaceRxRings c
  return { A.bringUp K flags alloc with clones := none }

end Adapter

/-! ### Runs -/

/-- What happens to an adapter. -/
inductive Event where
  /-- Something happens on a ring that transmits. -/
  | tx (i : ℕ) (e : OwnedRing.Event)
  /-- Something happens on an XDP ring. -/
  | xdp (i : ℕ) (e : OwnedRing.Event)
  /-- Something happens on a ring that receives. -/
  | rx (i : ℕ) (e : RxQueue.Event)
  /-- `ixgbevf_down`. -/
  | down
  /-- `ixgbevf_up`. -/
  | up (flags : ℕ → BufferFlags) (alloc : ℕ → ℕ → PageAnswer)
  /-- `ixgbevf_set_ringparam` sets its copies up. -/
  | clone (req : Ringparam.Request) (mem : Memory)
  /-- It puts them in the place of the rings, and returns 0. -/
  | swap (flags : ℕ → BufferFlags) (alloc : ℕ → ℕ → PageAnswer)

/-- The event is one of traffic, on a ring that receives. -/
def rxTraffic : RxQueue.Event → Bool
  | .clean => false
  | .configure _ _ => false
  | _ => true

/-- No call of `ixgbevf_clean_tx_irq` or `ixgbevf_clean_rx_irq` is under way. -/
def Adapter.Quiet (A : Adapter) : Prop :=
  (∀ i < A.numTxQueues, (A.txRing i).shared.cleaning = none)
    ∧ (∀ i < A.numXdpQueues, (A.xdpRing i).shared.cleaning = none)
    ∧ ∀ i < A.numRxQueues, (A.rxRing i).poll = none

/-- When an event can happen. `ixgbevf_set_ringparam` waits for others to be done with the rings,
and `ixgbevf_down` waits for NAPI. -/
def Enabled (A : Adapter) : Event → Prop
  | .tx i e => A.up = true ∧ i < A.numTxQueues ∧ e.isTraffic = true ∧ (A.txRing i).Enabled e
  | .xdp i e => A.up = true ∧ i < A.numXdpQueues ∧ e.isTraffic = true ∧ (A.xdpRing i).Enabled e
  | .rx i e => i < A.numRxQueues ∧ rxTraffic e = true ∧ (A.rxRing i).Enabled e
  | .down => A.up = true ∧ A.clones = none ∧ A.Quiet
  | .up _ _ => A.up = false ∧ A.clones = none
  | .clone req _ => A.up = true ∧ A.clones = none ∧ req.rxMiniPending = 0 ∧ req.rxJumboPending = 0
    ∧ InRange req.txPending ∧ InRange req.rxPending
    ∧ ¬ (align req.txPending = A.txRingCount ∧ align req.rxPending = A.rxRingCount)
  | .swap _ _ => A.up = true ∧ A.clones.isSome ∧ A.Quiet

/-- What an event does, unless a call follows an error pointer. -/
def apply (K : KernelConfig) (A : Adapter) : Event → Option Adapter
  | .tx i e => ((A.txRing i).next e).map fun r => { A with txRing := Function.update A.txRing i r }
  | .xdp i e =>
    ((A.xdpRing i).next e).map fun r => { A with xdpRing := Function.update A.xdpRing i r }
  | .rx i e =>
    (RxQueue.apply K (A.rxRing i) e).map fun q => { A with rxRing := Function.update A.rxRing i q }
  | .down => A.down
  | .up flags alloc => some (A.bringUp K flags alloc)
  | .clone req mem => some (A.cloneRings req mem)
  | .swap flags alloc => A.clones.bind fun c => A.swap K c flags alloc

/-- A ring that transmits, before it is configured. -/
structure InitTx (r : OwnedRing) (isXdp : Bool) : Prop where
  count : SharedRing.CountOk r.ring.count
  nextToUse : r.ring.nextToUse = 0
  nextToClean : r.ring.nextToClean = 0
  xdp : r.shared.isXdp = isXdp
  cleaning : r.shared.cleaning = none
  torn : r.torn = true
  effects : r.effects = []

/-- An adapter whose rings have been set up. -/
structure Init (A : Adapter) : Prop where
  txRing : ∀ i < A.numTxQueues, InitTx (A.txRing i) false
  xdpRing : ∀ i < A.numXdpQueues, InitTx (A.xdpRing i) true
  rxRing : ∀ i < A.numRxQueues, RxQueue.Init (A.rxRing i)
  up : A.up = false
  clones : A.clones = none

/-- The runs of an adapter. -/
def system (K : KernelConfig) : TransSystem Adapter Event where
  init := Init
  step A e A' := Enabled A e ∧ apply K A e = some A'

/-- The event is one of traffic. -/
def Traffic (_ : Adapter) : Event → Prop
  | .tx _ _ => True
  | .xdp _ _ => True
  | .rx _ _ => True
  | _ => False

/-! ### The claim of a call -/

/-- What was taken for a ring that transmits has been given back in a later state, and as often as
it was taken. -/
structure Returned (r r' : OwnedRing) : Prop where
  /-- The packets and XDP buffers. -/
  data : ∀ id, r.effects.count (.take id) ≤ r'.effects.count (.free id)
    ∧ r'.effects.count (.free id) ≤ r'.effects.count (.take id)
  /-- The mappings that are not empty. -/
  mappings : ∀ m : Tx.Mapping, m.len ≠ 0 →
    r.effects.count (.map m) ≤ r'.effects.count (.unmap m)
      ∧ r'.effects.count (.unmap m) ≤ r'.effects.count (.map m)

/-- What was there on a ring that receives has been released once in a later state. -/
structure Released (q q' : RxQueue) : Prop where
  /-- The skbs that the driver had. -/
  skbs : ∀ id < q.nextSkb, q.skbReleases id = 0 → q'.skbReleases id = 1
  /-- The pages that it had. -/
  pages : ∀ page < q.nextPage, (q.pages page).releases = 0 → (q'.pages page).releases = 1
  /-- The mappings. -/
  mappings : ∀ page < q.nextPage, (q.pages page).unmaps < (q.pages page).maps →
    (q'.pages page).unmaps = (q.pages page).unmaps + 1

/-- What was there before a call is released once. -/
structure AllReleased (A A' : Adapter) : Prop where
  txRing : ∀ i < A.numTxQueues, Returned (A.txRing i) (A'.txRing i)
  xdpRing : ∀ i < A.numXdpQueues, Returned (A.xdpRing i) (A'.xdpRing i)
  rxRing : ∀ i < A.numRxQueues, Released (A.rxRing i) (A'.rxRing i)

/-- After a call no ring has an skb that was freed, and what was there before is released once,
however the traffic goes on. -/
structure Sound (K : KernelConfig) (A A' : Adapter) : Prop where
  skb : ∀ i < A.numRxQueues, (A'.rxRing i).ring.skb = .null ∨
    ∃ skb, (A'.rxRing i).ring.skb = .skb skb ∧ (A'.rxRing i).skbReleases skb.id = 0
  released : ∀ es A'', (system K).Path Traffic A' es A'' → AllReleased A A''

/-- The copies have no skb, and the driver still has every page that is mapped. -/
structure Intact (A : Adapter) : Prop where
  clones : ∀ c ∈ A.clones, ∀ clones ∈ c.rxRing, ∀ i < A.numRxQueues, (clones i).skb = .null
  mapped : ∀ i < A.numRxQueues, ∀ page < (A.rxRing i).nextPage,
    ((A.rxRing i).pages page).unmaps < ((A.rxRing i).pages page).maps →
      ((A.rxRing i).pages page).releases = 0

/-! ### Rings that transmit -/

section

variable {r r' r'' clone : OwnedRing} {x up : Bool}

/-- What holds of a ring that transmits in every state. -/
structure TxOk (r : OwnedRing) (x up : Bool) : Prop where
  /-- Its books. -/
  kept : ∃ ps rs, r.Kept ps rs
  /-- `ring_is_xdp`. -/
  isXdp : r.shared.isXdp = x
  /-- It is configured while the interface is up. -/
  torn : r.torn = !up
  /-- `count`. -/
  count : SharedRing.CountOk r.ring.count

/-- A ring that was set up. -/
theorem TxOk.init (h : InitTx r x) :
  TxOk r x false
  := by
  obtain ⟨hcount, huse, hclean, hxdp, hcleaning, htorn, heffects⟩ := h
  refine ⟨⟨[], [], ?_, fun hup => ?_, fun _ => ⟨rfl, hcleaning, huse.trans hclean.symm, ?_⟩,
    .inr hcleaning, fun _ => rfl⟩, hxdp, htorn, hcount⟩
  · rw [heffects]
    exact .start
  · rw [htorn] at hup
    cases hup
  · exact Nat.lt_of_lt_of_le (by decide) hcount.1

/-- Traffic on a ring. -/
theorem TxOk.traffic {e : OwnedRing.Event} (h : TxOk r x true) (he : e.isTraffic = true)
    (hen : r.Enabled e) (hnext : r.next e = some r') :
  TxOk r' x true
  := by
  obtain ⟨⟨ps, rs, hkept⟩, hxdp, htorn, -⟩ := h
  obtain ⟨-, hxdp', htorn'⟩ := OwnedRing.next_extends he hnext
  obtain ⟨r₁, heq, ps', rs', hkept'⟩ := OwnedRing.step_kept hkept hen
  rw [hnext, Option.some.injEq] at heq
  subst heq
  have htorn' : r'.torn = false := htorn'.trans htorn
  exact ⟨⟨ps', rs', hkept'⟩, hxdp'.trans hxdp, htorn', (hkept'.tracks htorn').holds.count⟩

/-- A ring is torn down. -/
theorem TxOk.cleanTxRing (h : TxOk r x up) (hnone : r.shared.cleaning = none)
    (heq : r.cleanTxRing = some r') :
  TxOk r' x false ∧ r'.Kept [] [] ∧ r'.shared.cleaning = none ∧ ∃ es, r'.effects = r.effects ++ es
  := by
  obtain ⟨⟨ps, rs, hkept⟩, hxdp, -, hcount⟩ := h
  obtain ⟨r₁, heq₁, hkept₁⟩ := hkept.cleanTxRing hnone
  rw [heq, Option.some.injEq] at heq₁
  subst heq₁
  obtain ⟨acts, -, rfl⟩ := Option.map_eq_some_iff.mp heq
  exact ⟨⟨⟨[], [], hkept₁⟩, hxdp, rfl, hcount⟩, hkept₁, hnone, _, rfl⟩

/-- A ring that was torn down, or a copy in its place, is configured. -/
theorem configureTxRing_ok (hbooks : Tx.Books x r.effects [] []) (hxdp : r.shared.isXdp = x)
    (hnone : r.shared.cleaning = none) (hcount : SharedRing.CountOk r.ring.count) :
  TxOk (r.configureTxRing r.ring.count) x true ∧ (r.configureTxRing r.ring.count).Kept [] []
  := by
  have hinit : SharedRing.Init (r.shared.configureTxRing r.ring.count) :=
    ⟨hcount, rfl, rfl, fun _ => rfl, rfl, hnone⟩
  have hkept : (r.configureTxRing r.ring.count).Kept [] [] := by
    refine ⟨?_, fun _ => .init hinit fun _ => rfl, fun hno => ?_, .inr hnone, fun _ => rfl⟩
    · rw [← hxdp] at hbooks
      exact hbooks
    · cases hno
  exact ⟨⟨⟨[], [], hkept⟩, hxdp, rfl, hcount⟩, hkept⟩

end

/-! ### Rings that receive -/

section

variable {K : KernelConfig} {q q' q'' : RxQueue} {up : Bool}

/-- What holds of a ring that receives in every state. -/
structure RxOk (q : RxQueue) (up : Bool) : Prop where
  /-- The indices and the pages. -/
  inv : q.Inv
  /-- The pages that the driver has. -/
  mapped : Rx.Mapped q
  /-- The skbs. -/
  skbs : q.skbs.Accounted
  /-- The field `skb` of the ring, which is out of date while a call is under way. -/
  made : ∀ id, q.ring.skb.skbId = some id → id < q.nextSkb
  /-- It is configured while the interface is up. -/
  active : q.active = up

/-- A ring that was set up. -/
theorem RxOk.init (h : RxQueue.Init q) :
  RxOk q false
  := by
  refine ⟨RxQueue.init_inv h, fun page hlt => ?_, ⟨fun id hid => ?_, fun id hlt => ?_⟩,
    fun id hid => ?_, h.active⟩
  · rw [h.nextPage] at hlt
    cases hlt
  · simp [RxQueue.skbs, RxQueue.current, h.poll, h.skb, Rx.SkbPtr.skbId] at hid
  · have hlt : id < q.nextSkb := hlt
    rw [h.nextSkb] at hlt
    cases hlt
  · simp [h.skb, Rx.SkbPtr.skbId] at hid

/-- Traffic leaves a ring configured. -/
theorem apply_active {e : RxQueue.Event} (hinv : q.Inv) (he : rxTraffic e = true)
    (hen : q.Enabled e) (h : RxQueue.apply K q e = some q') :
  q'.active = q.active
  := by
  cases e with
  | turn t =>
    obtain ⟨p, hp, hturn⟩ := Option.bind_eq_some_iff.mp h
    have hactive := hinv.active_of_poll hp
    exact (RxQueue.cleanRxTurn_same (hinv.window hactive) (hinv.counted hactive p hp) hturn).1
  | writeBack | poll | drop | take =>
    cases h
    rfl
  | configure => cases he
  | clean => cases he

/-- Traffic on a ring. -/
theorem RxOk.traffic {e : RxQueue.Event} (h : RxOk q up) (he : rxTraffic e = true)
    (hen : q.Enabled e) (hnext : RxQueue.apply K q e = some q') :
  RxOk q' up ∧ q.Moves q'
  := by
  have hmoves := RxQueue.step_moves (K := K) h.inv ⟨hen, hnext⟩
  have hskbs := Rx.Skbs.accounted_of_steps hmoves.skbs h.skbs
  refine ⟨⟨RxQueue.step_inv (K := K) h.inv ⟨hen, hnext⟩, hmoves.pages.mapped h.mapped, hskbs,
    fun id hid => ?_, (apply_active h.inv he hen hnext).trans h.active⟩, hmoves⟩
  have hclean : e ≠ .clean := by
    rintro rfl
    cases he
  rcases RxQueue.step_skb (K := K) h.inv hclean ⟨hen, hnext⟩ with hsame | hnone
  · rw [hsame] at hid
    exact Nat.lt_of_lt_of_le (h.made id hid) (Rx.Skbs.next_of_steps hmoves.skbs)
  · apply hskbs.made
    simpa [RxQueue.skbs, RxQueue.current, hnone] using hid

/-- The driver still has every page that is mapped. -/
def HasMapped (q : RxQueue) : Prop :=
  ∀ page < q.nextPage, (q.pages page).unmaps < (q.pages page).maps → (q.pages page).releases = 0

/-- A ring is cleaned. -/
theorem RxOk.cleanRxRing (h : RxOk q up) (hp : q.poll = none) (heq : q.cleanRxRing = some q') :
  RxOk q' false ∧ q.Moves q' ∧ q'.Idle ∧ q'.skbs.current = none ∧ (HasMapped q → Released q q')
  := by
  have hmoves := RxQueue.cleanRxRing_moves h.inv hp heq
  have hinv : q'.Inv := RxQueue.step_inv (K := Rx.cacheLine64) (e := .clean) h.inv ⟨hp, heq⟩
  have hactive := RxQueue.cleanRxRing_active heq
  have hidle := hinv.idle hactive
  obtain ⟨hnull, -, -, -, -, hskb⟩ := RxQueue.cleanRxRing_skb heq
  have hcurrent : q'.skbs.current = none := by
    simp [RxQueue.skbs, RxQueue.current, hidle.poll, hnull, Rx.SkbPtr.skbId]
  have hmade (id : ℕ) (hid : q'.ring.skb.skbId = some id) : id < q'.nextSkb := by
    rw [hnull] at hid
    cases hid
  refine ⟨⟨hinv, hmoves.pages.mapped h.mapped, Rx.Skbs.accounted_of_steps hmoves.skbs h.skbs,
    hmade, hactive⟩, hmoves, hidle, hcurrent, fun hhas => ⟨fun id hlt hzero => ?_,
    fun page hlt hzero => (RxQueue.cleanRxRing_page h.inv heq hlt hzero).1,
    fun page hlt hmapped => (RxQueue.cleanRxRing_page h.inv heq hlt (hhas page hlt hmapped)).2⟩⟩
  -- an skb that was not freed is the one that the driver works on
  have hid := (h.skbs.freed id hlt).resolve_right fun hne => hne hzero
  rcases hskb with ⟨hskb, -⟩ | ⟨skb, hskb, hreleases⟩
  · simp [RxQueue.skbs, RxQueue.current, hp, hskb, Rx.SkbPtr.skbId] at hid
  · obtain rfl : skb.id = id := by
      simpa [RxQueue.skbs, RxQueue.current, hp, hskb, Rx.SkbPtr.skbId] using hid
    rw [hreleases]
    simp [RxQueue.releaseSkb, hzero]

end

/-! ### Rings that are replaced -/

section

variable {K : KernelConfig} {r r' clone : OwnedRing} {x up : Bool} {q : RxQueue}

/-- A ring that transmits is ready to be configured: its books are closed. -/
structure Ready (r r' : OwnedRing) (x : Bool) : Prop where
  books : Tx.Books x r'.effects [] []
  isXdp : r'.shared.isXdp = x
  cleaning : r'.shared.cleaning = none
  count : SharedRing.CountOk r'.ring.count
  effects : ∃ es, r'.effects = r.effects ++ es

/-- A ring is ready after it was torn down. -/
theorem TxOk.ready (h : TxOk r x up) (hnone : r.shared.cleaning = none)
    (heq : r.cleanTxRing = some r') :
  Ready r r' x
  := by
  obtain ⟨hok, hkept, hnone', heffects⟩ := h.cleanTxRing hnone heq
  have hbooks := hkept.books
  rw [hok.isXdp] at hbooks
  exact ⟨hbooks, hok.isXdp, hnone', hok.count, heffects⟩

/-- A copy in the place of a ring that was torn down is ready. -/
theorem Ready.assign (h : Ready r r' x) (hxdp : clone.shared.isXdp = x)
    (hcount : SharedRing.CountOk clone.ring.count) :
  Ready r (assignTx r' clone) x
  := ⟨h.books, hxdp, h.cleaning, hcount, h.effects⟩

/-- More was done before. -/
theorem Ready.after {r₁ : OwnedRing} (h : Ready r r' x) (hbefore : ∃ es, r.effects = r₁.effects ++ es) :
  Ready r₁ r' x
  := by
  obtain ⟨hbooks, hxdp, hnone, hcount, es, heq⟩ := h
  obtain ⟨es₁, heq₁⟩ := hbefore
  exact ⟨hbooks, hxdp, hnone, hcount, es₁ ++ es, by rw [heq, heq₁, List.append_assoc]⟩

/-- A ring that was torn down is torn down again, and its copy takes its place. -/
theorem Ready.replace {r₁ : OwnedRing} (h : TxOk r x up) (hnone : r.shared.cleaning = none)
    (h₁ : r.cleanTxRing = some r₁) (h' : r₁.cleanTxRing.map (assignTx · clone) = some r')
    (hxdp : clone.shared.isXdp = x) (hcount : SharedRing.CountOk clone.ring.count) :
  Ready r r' x
  := by
  obtain ⟨hok, -, hnone₁, heffects⟩ := h.cleanTxRing hnone h₁
  obtain ⟨r₂, h₂, rfl⟩ := Option.map_eq_some_iff.mp h'
  exact ((hok.ready hnone₁ h₂).assign hxdp hcount).after heffects

/-- A copy in the place of a ring that was cleaned is configured. -/
theorem configureRxRing_ok {clone : Rx.RxRing} (flags : BufferFlags) (alloc : ℕ → PageAnswer)
    (h : RxOk q false) (hidle : q.Idle) (hnone : q.skbs.current = none) (hpos : 0 < clone.count)
    (hid : ∀ id, clone.skb.skbId = some id → id < q.nextSkb) :
  RxOk ((assignRx q clone).configureRxRing K flags alloc) true
    ∧ ((assignRx q clone).configureRxRing K flags alloc).ring.skb = clone.skb
    ∧ ((assignRx q clone).configureRxRing K flags alloc).skbs
      = ⟨clone.skb.skbId, q.nextSkb, q.skbReleases⟩
    ∧ Rx.PagesMove q ((assignRx q clone).configureRxRing K flags alloc)
  := by
  obtain ⟨hinv, hactive, hskb, hskbs, hpages⟩ := RxQueue.configureRxRing_configured
    (s := assignRx q clone) (K := K) flags alloc hidle.releases hpos hidle.poll
  have hassign : Rx.PagesMove q (assignRx q clone) := .congr rfl fun _ => ⟨rfl, rfl, rfl⟩
  have hskbs' : (assignRx q clone).skbs = ⟨clone.skb.skbId, q.nextSkb, q.skbReleases⟩ := by
    simp [RxQueue.skbs, RxQueue.current, assignRx, hidle.poll]
  have hpages' := hassign.trans hpages
  rw [hskbs'] at hskbs
  refine ⟨⟨hinv, hpages'.mapped h.mapped, ?_, fun id hskb' => ?_, hactive⟩, hskb, hskbs, hpages'⟩
  · rw [hskbs]
    refine ⟨hid, fun id hlt => .inr ?_⟩
    refine (h.skbs.freed id hlt).resolve_left ?_
    rw [hnone]
    exact (Option.some_ne_none id).symm
  · rw [hskb] at hskb'
    have hnext := congrArg Rx.Skbs.next hskbs
    simp only [RxQueue.skbs] at hnext
    rw [hnext]
    exact hid id hskb'

end

/-! ### The invariant -/

/-- The copies of a call fit the rings. -/
structure ClonesOk (A : Adapter) (c : Clones) : Prop where
  /-- The copies of the rings that transmit. -/
  txRing : ∀ rings ∈ c.txRing, ∀ i < A.numTxQueues,
    (rings i).shared.isXdp = false ∧ SharedRing.CountOk (rings i).ring.count
  /-- The copies of the XDP rings. -/
  xdpRing : ∀ rings ∈ c.txRing, ∀ j < A.numXdpQueues,
    (rings (A.numTxQueues + j)).shared.isXdp = true
      ∧ SharedRing.CountOk (rings (A.numTxQueues + j)).ring.count
  /-- The copies of the rings that receive, whose skbs were made. -/
  rxRing : ∀ rings ∈ c.rxRing, ∀ i < A.numRxQueues, 0 < (rings i).count ∧
    ∀ id, (rings i).skb.skbId = some id → id < (A.rxRing i).nextSkb

/-- What holds of an adapter in every state. -/
structure Inv (A : Adapter) : Prop where
  /-- The rings that transmit. -/
  txRing : ∀ i < A.numTxQueues, TxOk (A.txRing i) false A.up
  /-- The XDP rings. -/
  xdpRing : ∀ i < A.numXdpQueues, TxOk (A.xdpRing i) true A.up
  /-- The rings that receive. -/
  rxRing : ∀ i < A.numRxQueues, RxOk (A.rxRing i) A.up
  /-- The copies. -/
  clones : ∀ c ∈ A.clones, ClonesOk A c

/-- What traffic does to an adapter. -/
structure Later (A A' : Adapter) : Prop where
  /-- The numbers of rings. -/
  queues : A'.numTxQueues = A.numTxQueues ∧ A'.numXdpQueues = A.numXdpQueues
    ∧ A'.numRxQueues = A.numRxQueues
  /-- More is done on the rings that transmit. -/
  txRing : ∀ i < A.numTxQueues, ∃ es, (A'.txRing i).effects = (A.txRing i).effects ++ es
  /-- More is done on the XDP rings. -/
  xdpRing : ∀ i < A.numXdpQueues, ∃ es, (A'.xdpRing i).effects = (A.xdpRing i).effects ++ es
  /-- What happens on the rings that receive. -/
  rxRing : ∀ i < A.numRxQueues, (A.rxRing i).Moves (A'.rxRing i)

variable {K : KernelConfig} {A A' A'' : Adapter}

/-- No traffic. -/
theorem Later.refl (A : Adapter) :
  Later A A
  := ⟨⟨rfl, rfl, rfl⟩, fun _ _ => ⟨[], (List.append_nil _).symm⟩,
    fun _ _ => ⟨[], (List.append_nil _).symm⟩,
    fun _ _ => .congr rfl rfl fun _ => ⟨rfl, rfl, rfl⟩⟩

/-- Traffic goes on. -/
theorem Later.trans (h : Later A A') (h' : Later A' A'') :
  Later A A''
  := by
  obtain ⟨⟨htx, hxdp, hrx⟩, hes, hes', hmoves⟩ := h
  obtain ⟨⟨htx', hxdp', hrx'⟩, hmore, hmore', hmoves'⟩ := h'
  refine ⟨⟨htx'.trans htx, hxdp'.trans hxdp, hrx'.trans hrx⟩, fun i hi => ?_, fun i hi => ?_,
    fun i hi => (hmoves i hi).trans (hmoves' i (hrx ▸ hi))⟩
  · obtain ⟨es, heq⟩ := hes i hi
    obtain ⟨es', heq'⟩ := hmore i (htx ▸ hi)
    exact ⟨es ++ es', by rw [heq', heq, List.append_assoc]⟩
  · obtain ⟨es, heq⟩ := hes' i hi
    obtain ⟨es', heq'⟩ := hmore' i (hxdp ▸ hi)
    exact ⟨es ++ es', by rw [heq', heq, List.append_assoc]⟩

/-- Traffic keeps the invariant. -/
theorem traffic_inv {e : Event} (h : Inv A) (he : Traffic A e) (hstep : (system K).step A e A') :
  Inv A' ∧ Later A A'
  := by
  obtain ⟨hen, hstep⟩ := hstep
  obtain ⟨htx, hxdp, hrx, hclones⟩ := h
  obtain ⟨hqueues, hes, hes', hmoves⟩ := Later.refl A
  cases e with
  | tx j e =>
    obtain ⟨hup, -, htraffic, hen⟩ := hen
    obtain ⟨r, hnext, rfl⟩ := Option.map_eq_some_iff.mp hstep
    refine ⟨⟨fun i hi => ?_, hxdp, hrx, fun c hc => ?_⟩, hqueues, fun i hi => ?_, hes', hmoves⟩
    · by_cases hij : i = j
      · subst hij
        have hok := htx i hi
        rw [hup] at hok
        simpa [hup] using hok.traffic htraffic hen hnext
      · simpa [hij] using htx i hi
    · obtain ⟨h₁, h₂, h₃⟩ := hclones c hc
      exact ⟨h₁, h₂, h₃⟩
    · by_cases hij : i = j
      · subst hij
        simpa only [Function.update_self] using (OwnedRing.next_extends htraffic hnext).effects
      · simp [hij]
  | xdp j e =>
    obtain ⟨hup, -, htraffic, hen⟩ := hen
    obtain ⟨r, hnext, rfl⟩ := Option.map_eq_some_iff.mp hstep
    refine ⟨⟨htx, fun i hi => ?_, hrx, fun c hc => ?_⟩, hqueues, hes, fun i hi => ?_, hmoves⟩
    · by_cases hij : i = j
      · subst hij
        have hok := hxdp i hi
        rw [hup] at hok
        simpa [hup] using hok.traffic htraffic hen hnext
      · simpa [hij] using hxdp i hi
    · obtain ⟨h₁, h₂, h₃⟩ := hclones c hc
      exact ⟨h₁, h₂, h₃⟩
    · by_cases hij : i = j
      · subst hij
        simpa only [Function.update_self] using (OwnedRing.next_extends htraffic hnext).effects
      · simp [hij]
  | rx j e =>
    obtain ⟨hj, htraffic, hen⟩ := hen
    obtain ⟨q, hnext, rfl⟩ := Option.map_eq_some_iff.mp hstep
    obtain ⟨hok, hmove⟩ := (hrx j hj).traffic htraffic hen hnext
    have hnextSkb : (A.rxRing j).nextSkb ≤ q.nextSkb := Rx.Skbs.next_of_steps hmove.skbs
    refine ⟨⟨htx, hxdp, fun i hi => ?_, fun c hc => ?_⟩, hqueues, hes, hes', fun i hi => ?_⟩
    · by_cases hij : i = j
      · subst hij
        simpa using hok
      · simpa [hij] using hrx i hi
    · obtain ⟨h₁, h₂, h₃⟩ := hclones c hc
      refine ⟨h₁, h₂, fun rings hrings i hi => ?_⟩
      obtain ⟨hpos, hid⟩ := h₃ rings hrings i hi
      refine ⟨hpos, fun id hskb => ?_⟩
      by_cases hij : i = j
      · subst hij
        simpa using Nat.lt_of_lt_of_le (hid id hskb) hnextSkb
      · simpa [hij] using hid id hskb
    · by_cases hij : i = j
      · subst hij
        simpa using hmove
      · simpa [hij] using hmoves i hi
  | down => cases he
  | up => cases he
  | clone => cases he
  | swap => cases he

/-- A number of descriptors that is allowed stays so when it is rounded up. -/
theorem countOk_align {pending : BitVec 32} (h : InRange pending) :
  SharedRing.CountOk (align pending)
  := by
  obtain ⟨hmin, hmax⟩ := h
  simp only [Ringparam.minNumDescriptors, Ringparam.maxNumDescriptors] at hmin hmax
  unfold SharedRing.CountOk align
  omega

/-- What `ixgbevf_down` does to each ring. -/
structure IsDown (A A' : Adapter) : Prop where
  queues : A'.numTxQueues = A.numTxQueues ∧ A'.numXdpQueues = A.numXdpQueues
    ∧ A'.numRxQueues = A.numRxQueues
  txRing : ∀ i < A.numTxQueues, (A.txRing i).cleanTxRing = some (A'.txRing i)
  xdpRing : ∀ i < A.numXdpQueues, (A.xdpRing i).cleanTxRing = some (A'.xdpRing i)
  rxRing : ∀ i < A.numRxQueues, (A.rxRing i).cleanRxRing = some (A'.rxRing i)
  up : A'.up = false
  clones : A'.clones = A.clones

/-- `ixgbevf_down` cleans each ring. -/
theorem down_isDown (h : A.down = some A') :
  IsDown A A'
  := by
  obtain ⟨txRing, htx, h⟩ := Option.bind_eq_some_iff.mp h
  obtain ⟨xdpRing, hxdp, h⟩ := Option.bind_eq_some_iff.mp h
  obtain ⟨rxRing, hrx, h⟩ := Option.bind_eq_some_iff.mp h
  cases h
  exact ⟨⟨rfl, rfl, rfl⟩, (forEach_some htx).1, (forEach_some hxdp).1, (forEach_some hrx).1, rfl,
    rfl⟩

/-- An interface that is taken down keeps the invariant. -/
theorem down_inv (h : Inv A) (hquiet : A.Quiet) (hclones : A.clones = none)
    (hdown : A.down = some A') :
  Inv A'
  := by
  obtain ⟨hnone, hnone', hpoll⟩ := hquiet
  obtain ⟨⟨hn, hn', hn''⟩, htx, hxdp, hrx, hup, hsame⟩ := down_isDown hdown
  constructor
  · intro i hi
    rw [hn] at hi
    rw [hup]
    exact ((h.txRing i hi).cleanTxRing (hnone i hi) (htx i hi)).1
  · intro i hi
    rw [hn'] at hi
    rw [hup]
    exact ((h.xdpRing i hi).cleanTxRing (hnone' i hi) (hxdp i hi)).1
  · intro i hi
    rw [hn''] at hi
    rw [hup]
    exact ((h.rxRing i hi).cleanRxRing (hpoll i hi) (hrx i hi)).1
  · intro c hc
    rw [hsame, hclones] at hc
    cases hc

/-- What the loops over the copies do to each ring. -/
structure IsReplaced (c : Clones) (A A' : Adapter) : Prop where
  queues : A'.numTxQueues = A.numTxQueues ∧ A'.numXdpQueues = A.numXdpQueues
    ∧ A'.numRxQueues = A.numRxQueues
  txRing : ∀ i < A.numTxQueues, c.txRing = none ∧ A'.txRing i = A.txRing i ∨
    ∃ rings ∈ c.txRing, (A.txRing i).cleanTxRing.map (assignTx · (rings i)) = some (A'.txRing i)
  xdpRing : ∀ j < A.numXdpQueues, c.txRing = none ∧ A'.xdpRing j = A.xdpRing j ∨
    ∃ rings ∈ c.txRing, (A.xdpRing j).cleanTxRing.map (assignTx · (rings (A.numTxQueues + j)))
      = some (A'.xdpRing j)
  rxRing : ∀ i < A.numRxQueues, c.rxRing = none ∧ A'.rxRing i = A.rxRing i ∨
    ∃ rings ∈ c.rxRing, (A.rxRing i).cleanRxRing.map (assignRx · (rings i)) = some (A'.rxRing i)

/-- A ring is replaced when there are copies. -/
theorem replaceRings_isReplaced {c : Clones} (h : A.replaceTxRings c = some A')
    (h' : A'.replaceRxRings c = some A'') :
  IsReplaced c A A''
  := by
  obtain ⟨newTxCount, newRxCount, clones, clones'⟩ := c
  have htx : IsReplaced ⟨newTxCount, newRxCount, clones, none⟩ A A' := by
    cases clones with
    | none =>
      cases h
      exact ⟨⟨rfl, rfl, rfl⟩, fun _ _ => .inl ⟨rfl, rfl⟩, fun _ _ => .inl ⟨rfl, rfl⟩,
        fun _ _ => .inl ⟨rfl, rfl⟩⟩
    | some rings =>
      obtain ⟨txRing, htx, h⟩ := Option.bind_eq_some_iff.mp h
      obtain ⟨xdpRing, hxdp, h⟩ := Option.bind_eq_some_iff.mp h
      cases h
      exact ⟨⟨rfl, rfl, rfl⟩, fun i hi => .inr ⟨rings, rfl, (forEach_some htx).1 i hi⟩,
        fun j hj => .inr ⟨rings, rfl, (forEach_some hxdp).1 j hj⟩, fun _ _ => .inl ⟨rfl, rfl⟩⟩
  obtain ⟨⟨hn, hn', hn''⟩, htx, hxdp, hsame⟩ := htx
  have hsame (i : ℕ) (hi : i < A.numRxQueues) : A'.rxRing i = A.rxRing i := by
    rcases hsame i hi with ⟨-, hsame⟩ | ⟨rings, hrings, -⟩
    · exact hsame
    · cases hrings
  cases clones' with
  | none =>
    cases h'
    exact ⟨⟨hn, hn', hn''⟩, htx, hxdp, fun i hi => .inl ⟨rfl, hsame i hi⟩⟩
  | some rings =>
    obtain ⟨rxRing, hloop, h'⟩ := Option.bind_eq_some_iff.mp h'
    cases h'
    refine ⟨⟨hn, hn', hn''⟩, htx, hxdp, fun i hi => .inr ⟨rings, rfl, ?_⟩⟩
    rw [← hsame i hi]
    exact (forEach_some hloop).1 i (hn'' ▸ hi)

/-- The skb that the copy of a ring has. -/
def Clones.skb (c : Clones) (i : ℕ) : Rx.SkbPtr :=
  c.rxRing.elim .null fun rings => (rings i).skb

/-- What a call makes of a ring that transmits. -/
structure TxSwapped (r r' : OwnedRing) (x : Bool) : Prop where
  ok : TxOk r' x true
  closed : r'.Kept [] []
  effects : ∃ es, r'.effects = r.effects ++ es

/-- What becomes of a ring that receives, once it is cleaned. -/
structure RxSwapped (q q' : RxQueue) (ptr : Rx.SkbPtr) : Prop where
  ok : RxOk q' true
  skb : q'.ring.skb = ptr
  skbs : q'.skbs = ⟨ptr.skbId, q.nextSkb, q.skbReleases⟩
  pages : Rx.PagesMove q q'

/-- A ring that is ready is configured. -/
theorem Ready.configure {r r' : OwnedRing} {x : Bool} (h : Ready r r' x) :
  TxSwapped r (r'.configureTxRing r'.ring.count) x
  := by
  obtain ⟨hok, hclosed⟩ := configureTxRing_ok h.books h.isXdp h.cleaning h.count
  exact ⟨hok, hclosed, h.effects⟩

/-- A ring that transmits is ready while the interface is down. -/
theorem TxOk.torn_ready {r : OwnedRing} {x : Bool} (h : TxOk r x false) :
  Ready r r x
  := by
  obtain ⟨⟨ps, rs, hkept⟩, hxdp, htorn, hcount⟩ := h
  obtain ⟨rfl, hnone, -⟩ := hkept.torn htorn
  have hbooks := hkept.books
  rw [hkept.idle hnone, hxdp] at hbooks
  exact ⟨hbooks, hxdp, hnone, hcount, [], (List.append_nil _).symm⟩

/-- A ring that receives has no page and no skb while the interface is down. -/
theorem RxOk.idle {q : RxQueue} (h : RxOk q false) :
  q.Idle ∧ q.skbs.current = none
  := by
  have hidle := h.inv.idle h.active
  refine ⟨hidle, ?_⟩
  simp [RxQueue.skbs, RxQueue.current, hidle.poll, hidle.skb, Rx.SkbPtr.skbId]

/-- A ring that was cleaned is configured, with a copy in its place or not. -/
theorem RxOk.configure {q : RxQueue} (h : RxOk q false) (clone : Rx.RxRing) (flags : BufferFlags)
    (alloc : ℕ → PageAnswer) (hpos : 0 < clone.count)
    (hid : ∀ id, clone.skb.skbId = some id → id < q.nextSkb) :
  RxSwapped q ((assignRx q clone).configureRxRing K flags alloc) clone.skb
  := by
  obtain ⟨hidle, hnone⟩ := h.idle
  obtain ⟨hok, hskb, hskbs, hpages⟩ := configureRxRing_ok (K := K) flags alloc h hidle hnone hpos hid
  exact ⟨hok, hskb, hskbs, hpages⟩

/-- What a call makes of the rings. -/
structure IsSwapped (c : Clones) (A A' : Adapter) : Prop where
  queues : A'.numTxQueues = A.numTxQueues ∧ A'.numXdpQueues = A.numXdpQueues
    ∧ A'.numRxQueues = A.numRxQueues
  txRing : ∀ i < A.numTxQueues, TxSwapped (A.txRing i) (A'.txRing i) false
  xdpRing : ∀ i < A.numXdpQueues, TxSwapped (A.xdpRing i) (A'.xdpRing i) true
  rxRing : ∀ i < A.numRxQueues, ∃ q, (A.rxRing i).cleanRxRing = some q
    ∧ RxSwapped q (A'.rxRing i) (c.skb i)
  up : A'.up = true
  clones : A'.clones = none

/-- A ring that transmits is torn down, perhaps replaced, and configured. -/
theorem TxOk.swap {r r₁ r₂ : OwnedRing} {x up : Bool} {clones : Option (ℕ → OwnedRing)} {i : ℕ}
    (h : TxOk r x up) (hnone : r.shared.cleaning = none) (h₁ : r.cleanTxRing = some r₁)
    (hclones : ∀ rings ∈ clones, (rings i).shared.isXdp = x
      ∧ SharedRing.CountOk (rings i).ring.count)
    (h₂ : clones = none ∧ r₂ = r₁ ∨
      ∃ rings ∈ clones, r₁.cleanTxRing.map (assignTx · (rings i)) = some r₂) :
  TxSwapped r (r₂.configureTxRing r₂.ring.count) x
  := by
  rcases h₂ with ⟨-, rfl⟩ | ⟨rings, hrings, h₂⟩
  · exact (h.ready hnone h₁).configure
  · obtain ⟨hxdp, hcount⟩ := hclones rings hrings
    exact (Ready.replace h hnone h₁ h₂ hxdp hcount).configure

/-- A ring that receives is cleaned, perhaps replaced, and configured. -/
theorem RxOk.swap {q q₁ q₂ : RxQueue} {up : Bool} {c : Clones} {i : ℕ} (flags : BufferFlags)
    (alloc : ℕ → PageAnswer) (h : RxOk q up) (hp : q.poll = none) (h₁ : q.cleanRxRing = some q₁)
    (hclones : ∀ rings ∈ c.rxRing, 0 < (rings i).count
      ∧ ∀ id, (rings i).skb.skbId = some id → id < q.nextSkb)
    (h₂ : c.rxRing = none ∧ q₂ = q₁ ∨
      ∃ rings ∈ c.rxRing, q₁.cleanRxRing.map (assignRx · (rings i)) = some q₂) :
  RxSwapped q₁ (q₂.configureRxRing K flags alloc) (c.skb i)
  := by
  obtain ⟨hok, -, hidle, -⟩ := h.cleanRxRing hp h₁
  have hpos : 0 < q₁.ring.count := by
    rw [(RxQueue.cleanRxRing_skb h₁).2.2.2.2.1]
    exact h.inv.count_pos
  rcases h₂ with ⟨hnone, rfl⟩ | ⟨rings, hrings, h₂⟩
  · have hskb : c.skb i = q₂.ring.skb := by
      rw [hidle.skb, Clones.skb, hnone]
      rfl
    rw [hskb]
    exact hok.configure q₂.ring flags alloc hpos hok.made
  · -- the ring is cleaned a second time, which does nothing
    rw [RxQueue.cleanRxRing_idle hidle hpos hok.active, Option.map_some, Option.some.injEq] at h₂
    subst h₂
    obtain ⟨hcount, hid⟩ := hclones rings hrings
    have hskb : c.skb i = (rings i).skb := by
      rw [Clones.skb, Option.mem_def.mp hrings]
      rfl
    rw [hskb]
    refine hok.configure (rings i) flags alloc hcount fun id hskb => ?_
    rw [(RxQueue.cleanRxRing_skb h₁).2.2.1]
    exact hid id hskb

/-- A call tears the rings down, replaces them, and configures them. -/
theorem swap_isSwapped {c : Clones} {flags : ℕ → BufferFlags} {alloc : ℕ → ℕ → PageAnswer}
    (h : Inv A) (hc : A.clones = some c) (hquiet : A.Quiet)
    (hswap : A.swap K c flags alloc = some A') :
  IsSwapped c A A'
  := by
  obtain ⟨A₁, hdown, h₁⟩ := Option.bind_eq_some_iff.mp hswap
  obtain ⟨A₂, htx, h₂⟩ := Option.bind_eq_some_iff.mp h₁
  obtain ⟨A₃, hrx, h₃⟩ := Option.bind_eq_some_iff.mp h₂
  cases h₃
  obtain ⟨hnone, hnone', hpoll⟩ := hquiet
  obtain ⟨⟨hn, hn', hn''⟩, htx₁, hxdp₁, hrx₁, -, -⟩ := down_isDown hdown
  obtain ⟨⟨hm, hm', hm''⟩, htx₂, hxdp₂, hrx₂⟩ := replaceRings_isReplaced htx hrx
  obtain ⟨hclones, hclones', hclones''⟩ := h.clones c hc
  refine ⟨⟨hm.trans hn, hm'.trans hn', hm''.trans hn''⟩, fun i hi => ?_, fun i hi => ?_,
    fun i hi => ⟨A₁.rxRing i, hrx₁ i hi, ?_⟩, rfl, rfl⟩
  · have hlt : i < A₃.numTxQueues := by rwa [hm, hn]
    have hring : (Adapter.bringUp K flags alloc A₃).txRing i
        = (A₃.txRing i).configureTxRing (A₃.txRing i).ring.count := if_pos hlt
    simp only [hring]
    exact (h.txRing i hi).swap (hnone i hi) (htx₁ i hi)
      (fun rings hrings => hclones rings hrings i hi) (htx₂ i (hn ▸ hi))
  · have hlt : i < A₃.numXdpQueues := by rwa [hm', hn']
    have hring : (Adapter.bringUp K flags alloc A₃).xdpRing i
        = (A₃.xdpRing i).configureTxRing (A₃.xdpRing i).ring.count := if_pos hlt
    simp only [hring]
    have hreplaced := hxdp₂ i (hn' ▸ hi)
    rw [hn] at hreplaced
    exact (h.xdpRing i hi).swap (i := A.numTxQueues + i) (hnone' i hi) (hxdp₁ i hi)
      (fun rings hrings => hclones' rings hrings i hi) hreplaced
  · have hlt : i < A₃.numRxQueues := by rwa [hm'', hn'']
    have hring : (Adapter.bringUp K flags alloc A₃).rxRing i
        = (A₃.rxRing i).configureRxRing K (flags i) (alloc i) := if_pos hlt
    simp only [hring]
    exact (h.rxRing i hi).swap (flags i) (alloc i) (hpoll i hi) (hrx₁ i hi)
      (fun rings hrings => hclones'' rings hrings i hi) (hrx₂ i (hn'' ▸ hi))

/-- An interface that is taken up keeps the invariant. -/
theorem bringUp_inv {flags : ℕ → BufferFlags} {alloc : ℕ → ℕ → PageAnswer} (h : Inv A)
    (hup : A.up = false) (hclones : A.clones = none) :
  Inv (A.bringUp K flags alloc)
  := by
  obtain ⟨htx, hxdp, hrx, -⟩ := h
  rw [hup] at htx hxdp hrx
  refine ⟨fun i hi => ?_, fun i hi => ?_, fun i hi => ?_, fun c hc => ?_⟩
  · have hring : (A.bringUp K flags alloc).txRing i
        = (A.txRing i).configureTxRing (A.txRing i).ring.count := if_pos hi
    rw [hring]
    exact (htx i hi).torn_ready.configure.ok
  · have hring : (A.bringUp K flags alloc).xdpRing i
        = (A.xdpRing i).configureTxRing (A.xdpRing i).ring.count := if_pos hi
    rw [hring]
    exact (hxdp i hi).torn_ready.configure.ok
  · have hring : (A.bringUp K flags alloc).rxRing i
        = (A.rxRing i).configureRxRing K (flags i) (alloc i) := if_pos hi
    rw [hring]
    have hok := hrx i hi
    exact (hok.configure (K := K) (A.rxRing i).ring (flags i) (alloc i)
      hok.inv.count_pos hok.made).ok
  · rw [show (A.bringUp K flags alloc).clones = none from hclones] at hc
    cases hc

/-- The copies of a call fit the rings. -/
theorem cloneRings_inv {req : Ringparam.Request} {mem : Memory} (h : Inv A) (htx : InRange req.txPending)
    (hrx : InRange req.rxPending) :
  Inv (A.cloneRings req mem)
  := by
  refine ⟨h.txRing, h.xdpRing, h.rxRing, fun c hc => ?_⟩
  cases hc
  refine ⟨fun rings hrings i hi => ?_, fun rings hrings j hj => ?_, fun rings hrings i hi => ?_⟩
  · obtain ⟨-, heq⟩ := Option.ite_none_right_eq_some.mp hrings
    cases heq
    have hlive : A.liveTx i = A.txRing i := if_pos hi
    refine ⟨?_, countOk_align htx⟩
    simp only [cloneTx, hlive]
    exact (h.txRing i hi).isXdp
  · obtain ⟨-, heq⟩ := Option.ite_none_right_eq_some.mp hrings
    cases heq
    have hlive : A.liveTx (A.numTxQueues + j) = A.xdpRing j := by
      rw [Adapter.liveTx, if_neg (Nat.not_lt.mpr (Nat.le_add_right _ _)), Nat.add_sub_cancel_left]
    refine ⟨?_, countOk_align htx⟩
    simp only [Adapter.cloneRings, cloneTx, hlive]
    exact (h.xdpRing j hj).isXdp
  · obtain ⟨-, heq⟩ := Option.ite_none_right_eq_some.mp hrings
    cases heq
    have hpos : 0 < 64 := by decide
    exact ⟨Nat.lt_of_lt_of_le hpos (countOk_align hrx).1, (h.rxRing i hi).made⟩

/-- Every event keeps the invariant. -/
theorem step_inv {e : Event} (h : Inv A) (hstep : (system K).step A e A') :
  Inv A'
  := by
  obtain ⟨hen, happly⟩ := hstep
  cases e with
  | tx i e => exact (traffic_inv (e := .tx i e) h trivial ⟨hen, happly⟩).1
  | xdp i e => exact (traffic_inv (e := .xdp i e) h trivial ⟨hen, happly⟩).1
  | rx i e => exact (traffic_inv (e := .rx i e) h trivial ⟨hen, happly⟩).1
  | down =>
    obtain ⟨-, hclones, hquiet⟩ := hen
    exact down_inv h hquiet hclones happly
  | up flags alloc =>
    obtain ⟨hup, hclones⟩ := hen
    cases happly
    exact bringUp_inv h hup hclones
  | clone req mem =>
    obtain ⟨-, -, -, -, htx, hrx, -⟩ := hen
    cases happly
    exact cloneRings_inv h htx hrx
  | swap flags alloc =>
    obtain ⟨-, -, hquiet⟩ := hen
    obtain ⟨c, hc, hswap⟩ := Option.bind_eq_some_iff.mp happly
    obtain ⟨⟨hn, hn', hn''⟩, htx, hxdp, hrx, hup, hclones⟩ := swap_isSwapped h hc hquiet hswap
    constructor
    · intro i hi
      rw [hup]
      exact (htx i (hn ▸ hi)).ok
    · intro i hi
      rw [hup]
      exact (hxdp i (hn' ▸ hi)).ok
    · intro i hi
      rw [hup]
      obtain ⟨q, -, hswapped⟩ := hrx i (hn'' ▸ hi)
      exact hswapped.ok
    · intro c hc
      rw [hclones] at hc
      cases hc

/-- The invariant holds in every reachable state. -/
theorem reachable_inv (h : (system K).Reachable TransSystem.always A) :
  Inv A
  := by
  refine h.invariant (fun A hA => ?_) fun _ _ _ hinv _ hstep => step_inv hinv hstep
  obtain ⟨htx, hxdp, hrx, hup, hclones⟩ := hA
  constructor
  · intro i hi
    rw [hup]
    exact .init (htx i hi)
  · intro i hi
    rw [hup]
    exact .init (hxdp i hi)
  · intro i hi
    rw [hup]
    exact .init (hrx i hi)
  · intro c hc
    rw [hclones] at hc
    cases hc

/-! ### What a call does -/

/-- An event that can happen leads to a reachable state. -/
theorem reachable_after (e : Event) (h : (system K).Reachable TransSystem.always A)
    (hen : Enabled A e) (happly : apply K A e = some A') :
  (system K).Reachable TransSystem.always A'
  := h.step trivial ⟨hen, happly⟩

/-- An interface with a ring of 64 descriptors in each direction. -/
def smallAdapter : Adapter where
  numTxQueues := 1
  numXdpQueues := 0
  numRxQueues := 1
  txRingCount := 64
  rxRingCount := 64
  txRing _ := { Tx.OwnedRing.freshRing with torn := true }
  xdpRing _ := { Tx.OwnedRing.freshRing with torn := true }
  rxRing _ := .fresh
  up := false
  clones := none

end Ixgbevf.Resize
