import Ixgbevf.Stats
import Mathlib.Algebra.BigOperators.Pi

/-!
# The totals over the rings

`ixgbevf_update_stats` adds up the software statistics of the rings. Those of an Rx ring and those
of a Tx ring are in one union, and the loop over the Tx rings follows the pointers of
`adapter->rx_ring`: it adds up the words of the wrong rings.
-/

namespace Ixgbevf.Stats

open Finset

/-! ### Rings -/

/-- `struct ixgbevf_stats`, with the fields of `BP_EXTENDED_STATS`. -/
structure QueueStats where
  /-- `packets`. -/
  packets : BitVec 64
  /-- `bytes`. -/
  bytes : BitVec 64
  /-- `yields`. -/
  yields : BitVec 64
  /-- `misses`. -/
  misses : BitVec 64
  /-- `cleaned`. -/
  cleaned : BitVec 64
  deriving DecidableEq, Repr

/-- `struct ixgbevf_tx_queue_stats`. -/
structure TxQueueStats where
  /-- `restart_queue`. -/
  restartQueue : BitVec 64
  /-- `tx_busy`. -/
  txBusy : BitVec 64
  /-- `tx_done_old`. -/
  txDoneOld : BitVec 64
  deriving DecidableEq, Repr

/-- `struct ixgbevf_rx_queue_stats`. -/
structure RxQueueStats where
  /-- `alloc_rx_page_failed`. -/
  allocRxPageFailed : BitVec 64
  /-- `alloc_rx_buff_failed`. -/
  allocRxBuffFailed : BitVec 64
  /-- `alloc_rx_page`. -/
  allocRxPage : BitVec 64
  /-- `csum_err`. -/
  csumErr : BitVec 64
  deriving DecidableEq, Repr

/-- The part of `struct ixgbevf_ring` that the statistics read: the words are those of the union of
`tx_stats` and `rx_stats`. -/
structure Ring where
  /-- `stats`. -/
  stats : QueueStats
  /-- The first word of the union. -/
  word₀ : BitVec 64
  /-- The second one. -/
  word₁ : BitVec 64
  /-- The third one. -/
  word₂ : BitVec 64
  /-- The last one, of `rx_stats` alone. -/
  word₃ : BitVec 64
  deriving DecidableEq, Repr

/-- `tx_stats`. -/
def Ring.txStats (r : Ring) : TxQueueStats :=
  { restartQueue := r.word₀
    txBusy := r.word₁
    txDoneOld := r.word₂ }

/-- `rx_stats`. -/
def Ring.rxStats (r : Ring) : RxQueueStats :=
  { allocRxPageFailed := r.word₀
    allocRxBuffFailed := r.word₁
    allocRxPage := r.word₂
    csumErr := r.word₃ }

/-- `MAX_TX_QUEUES`, `MAX_XDP_QUEUES` and `MAX_RX_QUEUES`. -/
def maxQueues : ℕ := 8

/-- The part of `struct ixgbevf_adapter` that belongs to the statistics. -/
structure Adapter where
  /-- `num_tx_queues`. -/
  numTxQueues : ℕ
  /-- `num_xdp_queues`. -/
  numXdpQueues : ℕ
  /-- `num_rx_queues`. -/
  numRxQueues : ℕ
  /-- `tx_ring`. -/
  txRing : ℕ → Option Ring
  /-- `xdp_ring`. -/
  xdpRing : ℕ → Option Ring
  /-- `rx_ring`. -/
  rxRing : ℕ → Option Ring
  /-- The hardware counters, and the flags of `state`. -/
  device : Device
  /-- `restart_queue`. -/
  restartQueue : BitVec 64
  /-- `tx_busy`. -/
  txBusy : BitVec 64
  /-- `hw_csum_rx_error`. -/
  hwCsumRxError : BitVec 64
  /-- `alloc_rx_page_failed`. -/
  allocRxPageFailed : BitVec 64
  /-- `alloc_rx_buff_failed`. -/
  allocRxBuffFailed : BitVec 64
  /-- `alloc_rx_page`. -/
  allocRxPage : BitVec 64
  /-- `tx_timeout_count`. -/
  txTimeoutCount : BitVec 32
  /-- The rings are in arrays of this size. -/
  txBound : numTxQueues ≤ maxQueues
  /-- The rings for XDP are, too. -/
  xdpBound : numXdpQueues ≤ maxQueues
  /-- And so are those for reception. -/
  rxBound : numRxQueues ≤ maxQueues

/-! ### Loops over rings -/

section

variable {M : Type} [AddCommMonoid M]

/-- A loop that adds up a field of the first `n` rings of an array. There is no result where it
follows a null pointer. -/
def sumRings (field : Ring → M) (ring : ℕ → Option Ring) (n : ℕ) : Option M :=
  (List.range n).foldlM (fun sum i => (ring i).map fun r => sum + field r) 0

/-- The sum of a field over the rings that there are among the first `n`. -/
def total (field : Ring → M) (ring : ℕ → Option Ring) (n : ℕ) : M :=
  ∑ i ∈ range n, (ring i).elim 0 field

/-- The rings of an array that a loop visits exist. -/
def Present (ring : ℕ → Option Ring) (n : ℕ) : Prop := ∀ i < n, (ring i).isSome = true

/-- One more ring is visited. -/
theorem present_succ {ring : ℕ → Option Ring} {n : ℕ} :
  Present ring (n + 1) ↔ Present ring n ∧ (ring n).isSome = true
  := by
  constructor
  · intro h
    exact ⟨fun i hi => h i (Nat.lt_succ_of_lt hi), h n (Nat.lt_succ_self n)⟩
  · rintro ⟨h, hn⟩ i hi
    rcases Nat.lt_succ_iff_lt_or_eq.mp hi with hlt | rfl
    · exact h i hlt
    · exact hn

/-- Two loops over an array visit the rings of the longer one. -/
theorem present_max {ring : ℕ → Option Ring} {m n : ℕ} :
  Present ring (max m n) ↔ Present ring m ∧ Present ring n
  := by
  constructor
  · intro h
    exact ⟨fun i hi => h i (lt_max_of_lt_left hi), fun i hi => h i (lt_max_of_lt_right hi)⟩
  · rintro ⟨hm, hn⟩ i hi
    rcases lt_max_iff.mp hi with hlt | hlt
    · exact hm i hlt
    · exact hn i hlt

/-- A loop has a result where the rings exist: their sum. -/
theorem sumRings_eq_some {field : Ring → M} {ring : ℕ → Option Ring} {n : ℕ} {sum : M} :
  sumRings field ring n = some sum ↔ Present ring n ∧ total field ring n = sum
  := by
  induction n generalizing sum with
  | zero => simp [sumRings, total, Present]
  | succ n ih =>
    unfold sumRings at *
    rw [List.range_succ, List.foldlM_append, present_succ, total, sum_range_succ]
    constructor
    · intro h
      obtain ⟨rest, hrest, hlast⟩ := Option.bind_eq_some_iff.mp h
      obtain ⟨hpresent, htotal⟩ := ih.mp hrest
      cases hr : ring n with
      | none => simp [hr] at hlast
      | some r =>
        rw [total] at htotal
        rw [htotal]
        simpa [hr, hpresent] using hlast
    · rintro ⟨⟨hpresent, hlast⟩, hsum⟩
      obtain ⟨r, hr⟩ := Option.isSome_iff_exists.mp hlast
      refine Option.bind_eq_some_iff.mpr ⟨_, ih.mpr ⟨hpresent, rfl⟩, ?_⟩
      simpa [hr, total] using hsum

/-- A loop over two fields adds up each. -/
theorem total_prod {N : Type} [AddCommMonoid N] (field : Ring → M) (field' : Ring → N)
    (ring : ℕ → Option Ring) (n : ℕ) :
  total (fun r => (field r, field' r)) ring n = (total field ring n, total field' ring n)
  := by
  unfold total
  rw [Prod.ext_iff, Prod.fst_sum, Prod.snd_sum]
  constructor
  · apply sum_congr rfl
    intro i _
    cases ring i <;> rfl
  · apply sum_congr rfl
    intro i _
    cases ring i <;> rfl

end

/-! ### Updating the totals -/

namespace Adapter

/-- The loop of `ixgbevf_update_stats` over the Rx rings: `csum_err`, `alloc_rx_page_failed`,
`alloc_rx_buff_failed` and `alloc_rx_page`. -/
def rxTotals (a : Adapter) : Option (BitVec 64 × BitVec 64 × BitVec 64 × BitVec 64) :=
  sumRings
    (fun r => (r.rxStats.csumErr, r.rxStats.allocRxPageFailed, r.rxStats.allocRxBuffFailed,
      r.rxStats.allocRxPage))
    a.rxRing a.numRxQueues

/-- Its loop over the Tx rings: `restart_queue` and `tx_busy`. -/
def txTotals (a : Adapter) : Option (BitVec 64 × BitVec 64) :=
  -- the pointers are those of `adapter->rx_ring`
  sumRings (fun r => (r.txStats.restartQueue, r.txStats.txBusy)) a.rxRing a.numTxQueues

/-- `ixgbevf_update_stats`. -/
def updateStats (a : Adapter) : Option Adapter :=
  if a.device.down || a.device.resetting then
    some a
  else do
    let rx ← a.rxTotals
    let tx ← a.txTotals
    return { a with
      device := Stats.updateStats a.device
      hwCsumRxError := rx.1
      allocRxPageFailed := rx.2.1
      allocRxBuffFailed := rx.2.2.1
      allocRxPage := rx.2.2.2
      restartQueue := tx.1
      txBusy := tx.2 }

variable {a a' : Adapter}

/-- An update that is skipped does nothing. -/
theorem updateStats_skipped (h : Skipped a.device) :
  a.updateStats = some a
  := by
  unfold updateStats
  rw [if_pos (by simpa [Skipped] using h)]

/-- What an update that is not skipped does: the Tx totals are sums over the first Rx rings. -/
theorem updateStats_eq_some (h : ¬ Skipped a.device) :
  a.updateStats = some a' ↔ Present a.rxRing a.numRxQueues ∧ Present a.rxRing a.numTxQueues ∧
    a' = { a with
      device := Stats.updateStats a.device
      hwCsumRxError := total (fun r => r.rxStats.csumErr) a.rxRing a.numRxQueues
      allocRxPageFailed := total (fun r => r.rxStats.allocRxPageFailed) a.rxRing a.numRxQueues
      allocRxBuffFailed := total (fun r => r.rxStats.allocRxBuffFailed) a.rxRing a.numRxQueues
      allocRxPage := total (fun r => r.rxStats.allocRxPage) a.rxRing a.numRxQueues
      restartQueue := total (fun r => r.txStats.restartQueue) a.rxRing a.numTxQueues
      txBusy := total (fun r => r.txStats.txBusy) a.rxRing a.numTxQueues }
  := by
  unfold updateStats rxTotals txTotals
  rw [if_neg (by simpa [Skipped] using h)]
  simp only [Option.bind_eq_bind, Option.bind_eq_some_iff, sumRings_eq_some, total_prod]
  constructor
  · rintro ⟨rx, ⟨hrx, rfl⟩, tx, ⟨htx, rfl⟩, hret⟩
    cases hret
    exact ⟨hrx, htx, rfl⟩
  · rintro ⟨hrx, htx, rfl⟩
    exact ⟨_, ⟨hrx, rfl⟩, _, ⟨htx, rfl⟩, rfl⟩

/-- A ring with the first two words of its statistics. -/
def ringWith (word₀ word₁ : BitVec 64) : Ring :=
  { stats := { packets := 0, bytes := 0, yields := 0, misses := 0, cleaned := 0 }
    word₀ := word₀
    word₁ := word₁
    word₂ := 0
    word₃ := 0 }

/-- An adapter that is up, with a Tx ring and an Rx ring. -/
def twoRings (tx rx : Ring) : Adapter :=
  { numTxQueues := 1
    numXdpQueues := 0
    numRxQueues := 1
    txRing := fun i => if i = 0 then some tx else none
    xdpRing := fun _ => none
    rxRing := fun i => if i = 0 then some rx else none
    device := { blank with down := false }
    restartQueue := 0
    txBusy := 0
    hwCsumRxError := 0
    allocRxPageFailed := 0
    allocRxBuffFailed := 0
    allocRxPage := 0
    txTimeoutCount := 0
    txBound := by decide
    xdpBound := by decide
    rxBound := by decide }

end Adapter

end Ixgbevf.Stats
