import Ixgbevf.Interface.Open

/-!
# The interface in every run

Whenever the interface is down its adapter is closed, so that `ixgbevf_open` finds what it relies
on.
-/

namespace Ixgbevf.Interface

open Queues (InitEnv initInterruptScheme)
open Rx (RxQueue PageAnswer BufferFlags SkbPtr)
open Loops

/-! ### Queues that can be configured -/

/-- The queue with another skb. -/
def withSkb (skb : SkbPtr) (q : RxQueue) : RxQueue := { q with ring := { q.ring with skb := skb } }

/-- Refilling a ring does not look at its skb. -/
theorem allocLoop_withSkb (K : KernelConfig) (alloc : ℕ → PageAnswer) (skb : SkbPtr) (n i : ℕ)
    (q : RxQueue) :
  RxQueue.allocLoop K alloc n i (withSkb skb q)
    = (withSkb skb (RxQueue.allocLoop K alloc n i q).1, (RxQueue.allocLoop K alloc n i q).2)
  := by
  induction n generalizing i q with
  | zero => rfl
  | succ n ih =>
    have hpage : RxQueue.allocMappedPage K (alloc i) i (withSkb skb q)
        = (withSkb skb (RxQueue.allocMappedPage K (alloc i) i q).1,
          (RxQueue.allocMappedPage K (alloc i) i q).2) := by
      have hbuf : ((withSkb skb q).ring.buffer i).page = (q.ring.buffer i).page := rfl
      unfold RxQueue.allocMappedPage
      rw [hbuf]
      cases (q.ring.buffer i).page with
      | some page => rfl
      | none => cases alloc i <;> rfl
    rw [RxQueue.allocLoop, RxQueue.allocLoop, hpage]
    cases RxQueue.allocMappedPage K (alloc i) i q with
    | mk q₁ ok =>
      cases ok with
      | false => rfl
      | true =>
        exact ih (Cyclic.next q₁.ring.count i) { q₁ with
          ring := (q₁.ring.setDesc i fun d => { d with pktAddr := q₁.bufferAddr i }).setDesc
            (Cyclic.next q₁.ring.count i) fun d => { d with length := 0 } }

/-- Configuring a ring does not look at its skb. -/
theorem configureRxRing_withSkb (K : KernelConfig) (flags : BufferFlags) (alloc : ℕ → PageAnswer)
    (skb : SkbPtr) (q : RxQueue) :
  (withSkb skb q).configureRxRing K flags alloc = withSkb skb (q.configureRxRing K flags alloc)
  := by
  have hrefill (n : ℕ) (q : RxQueue) : RxQueue.allocRxBuffers K alloc n (withSkb skb q)
      = withSkb skb (RxQueue.allocRxBuffers K alloc n q) := by
    have hloop := allocLoop_withSkb K alloc skb n q.ring.nextToUse q
    have huse : (withSkb skb q).ring.nextToUse = q.ring.nextToUse := rfl
    rw [RxQueue.allocRxBuffers, RxQueue.allocRxBuffers, huse, hloop]
    cases RxQueue.allocLoop K alloc n q.ring.nextToUse q with
    | mk q₁ i =>
      by_cases hi : q₁.ring.nextToUse = i
      · have hi' : (withSkb skb q₁).ring.nextToUse = i := hi
        simp only [ne_eq, hi, hi', not_true_eq_false, if_false]
      · have hi' : ¬ (withSkb skb q₁).ring.nextToUse = i := hi
        simp only [ne_eq, hi, hi', not_false_eq_true, if_true]
        rfl
  exact hrefill _ { q with
    ring := ({ q.ring with
      flags := flags
      tail := 0
      buffer := fun _ => { page := none, pageOffset := 0, pagecntBias := 0 }
      nextToClean := 0
      nextToUse := 0
      nextToAlloc := 0 } : Rx.RxRing).setDesc 0 fun d => { d with length := 0 }
    head := 0
    active := true }

/-- Configuring the ring of a queue leaves it in a state of its runs. -/
def Configurable (q : RxQueue) : Prop :=
  ∀ K flags alloc, (q.configureRxRing K flags alloc).Inv
    ∧ (q.configureRxRing K flags alloc).active = true

/-- A queue that is not in use can be configured, also with other indices, another skb and
another number of descriptors. -/
theorem configurable {q : RxQueue} (h : q.Inv) (hactive : q.active = false)
    {count nextToUse nextToClean nextToAlloc : ℕ} {skb : SkbPtr} (hcount : 0 < count) :
  Configurable { q with ring := { q.ring with
    count := count
    nextToUse := nextToUse
    nextToClean := nextToClean
    nextToAlloc := nextToAlloc
    skb := skb } }
  := by
  intro K flags alloc
  obtain ⟨q₁, hq₁⟩ : ∃ q₁ : RxQueue, q₁ = { q with ring := { q.ring with count := count } } :=
    ⟨_, rfl⟩
  have hidle := h.idle hactive
  have hinv₁ : q₁.Inv := by
    rw [hq₁]
    constructor
    · exact hcount
    · intro hno
      rw [show q.active = true from hno] at hactive
      cases hactive
    · intro hno
      rw [show q.active = true from hno] at hactive
      cases hactive
    · intro _
      exact ⟨hidle.nextToClean, hidle.nextToUse, hidle.nextToAlloc, hidle.skb, hidle.poll,
        hidle.releases⟩
  have hactive₁ : q₁.active = false := by rw [hq₁]; exact hactive
  obtain ⟨-, -, -, hinv₂, hactive₂⟩ := configure_clean K flags alloc
    hinv₁ hactive₁
  have hsame : RxQueue.configureRxRing K flags alloc { q with ring := { q.ring with
      count := count
      nextToUse := nextToUse
      nextToClean := nextToClean
      nextToAlloc := nextToAlloc
      skb := skb } } = withSkb skb (q₁.configureRxRing K flags alloc) := by
    rw [← configureRxRing_withSkb, hq₁]
    rfl
  rw [hsame]
  refine ⟨?_, hactive₂⟩
  have hwin := hinv₂.window hactive₂
  constructor
  · exact hinv₂.count_pos
  · intro _
    exact ⟨⟨hwin.indices.clean_lt, hwin.indices.use_lt, hwin.indices.alloc_lt, hwin.indices.use_le⟩,
      hwin.slots, hwin.inj, hwin.tail, hwin.head_lt, hwin.head_le, hwin.cleared, hwin.held,
      hwin.found, hwin.once⟩
  · intro _ p hp
    obtain ⟨hrec, hroom⟩ := hinv₂.counted hactive₂ p hp
    exact ⟨hrec, hroom⟩
  · intro hno
    rw [show (withSkb skb (q₁.configureRxRing K flags alloc)).active = true from hactive₂] at hno
    cases hno

/-- A queue that is not in use can be configured. -/
theorem configurable_idle {q : RxQueue} (h : q.Inv) (hactive : q.active = false) :
  Configurable q
  := by
  intro K flags alloc
  obtain ⟨-, -, -, hinv, hactive⟩ := configure_clean K flags alloc h
    hactive
  exact ⟨hinv, hactive⟩

/-! ### The registers -/

/-- A read leaves the adapter alone, except that it may find the device removed. -/
theorem readReg_adapter (c : Call) :
  ∃ hwAddr, c.readReg.1.adapter = { c.adapter with hwAddr := hwAddr }
  := by
  rw [Call.readReg]
  cases c.adapter.hwAddr with
  | false => exact ⟨c.adapter.hwAddr, rfl⟩
  | true =>
    cases c.adapter.answers with
    | false => exact ⟨false, rfl⟩
    | true => exact ⟨c.adapter.hwAddr, rfl⟩

/-- So does a write. -/
theorem writeReg_adapter (e : Effect) (c : Call) :
  ∃ hwAddr, (c.writeReg e).adapter = { c.adapter with hwAddr := hwAddr }
  := by
  obtain ⟨hwAddr, hread⟩ := readReg_adapter c
  refine ⟨hwAddr, ?_⟩
  rw [← hread, Call.writeReg]
  cases c.readReg with
  | mk c' ok => cases ok <;> rfl

/-- A reset leaves the adapter alone, except that it may find the device removed and that it may
stop and start it. -/
theorem reset_adapter (resets : Bool) (c : Call) :
  ∃ hwAddr stopped, (c.reset resets).adapter
    = { c.adapter with hwAddr := hwAddr, adapterStopped := stopped }
  := by
  rw [Call.reset]
  split
  · exact ⟨c.adapter.hwAddr, c.adapter.adapterStopped, rfl⟩
  · obtain ⟨hwAddr, hwrite⟩ := writeReg_adapter .reset
      { c with adapter := { c.adapter with adapterStopped := true } }
    simp only
    split
    · exact ⟨hwAddr, false, by rw [hwrite]⟩
    · exact ⟨hwAddr, true, by rw [hwrite]⟩

/-! ### Calls on an adapter that is down -/

/-- The adapter is closed and down. -/
structure Shut (a : Adapter) : Prop extends Closed a where
  /-- It is down. -/
  down : a.down = true

namespace Shut

variable {a : Adapter} {c c' : Call}

/-- A ring that transmits is empty afterwards. -/
theorem setTx {kind : TxKind} {i : ℕ} {r : TxRing} (h : Shut c.adapter)
    (hr : r.nextToClean = r.nextToUse) :
  Shut (c.setTx kind i r).adapter
  := by
  refine ⟨⟨h.rx, fun k j hj => ?_, h.serves, h.msixEntries⟩, h.down⟩
  have hold := h.tx k j hj
  simp only [Call.setTx, Function.update_apply]
  split
  next hk =>
    subst hk
    simp only [Function.update_apply]
    split
    · exact hr
    · exact hold
  · exact hold

/-- An Rx ring is not in use afterwards. -/
theorem setRx {i : ℕ} {r : RxRing} (h : Shut c.adapter)
    (hr : i < c.adapter.numRxQueues → r.queue.Inv ∧ r.queue.active = false) :
  Shut (c.setRx i r).adapter
  := by
  refine ⟨⟨fun j hj => ?_, h.tx, h.serves, h.msixEntries⟩, h.down⟩
  simp only [Call.setRx, Function.update_apply]
  split
  next hji =>
    subst hji
    exact hr hj
  · exact h.rx j hj

/-- `ixgbevf_free_tx_resources`. -/
theorem freeTx {kind : TxKind} {i : ℕ} (h : Shut c.adapter)
    (hc : c.freeTxResources kind i = some c') :
  Shut c'.adapter
  := by
  obtain ⟨c₁, h₁, rfl⟩ := Option.map_eq_some_iff.mp hc
  rw [Call.cleanTxRing] at h₁
  split at h₁
  · cases h₁
    have hempty : Shut (c.setTx kind i { c.adapter.txRing kind i with
        nextToUse := 0, nextToClean := 0 }).adapter := h.setTx rfl
    apply hempty.setTx
    simp [Call.setTx]
  · cases h₁

/-- `ixgbevf_free_rx_resources`. -/
theorem freeRx {i : ℕ} (h : Shut c.adapter) (hc : c.freeRxResources i = some c') :
  Shut c'.adapter
  := by
  obtain ⟨c₁, h₁, rfl⟩ := Option.map_eq_some_iff.mp hc
  obtain ⟨q', hclean, rfl⟩ := Option.map_eq_some_iff.mp h₁
  have hq (hi : i < c.adapter.numRxQueues) : q'.Inv ∧ q'.active = false := by
    obtain ⟨hinv, hactive⟩ := h.rx i hi
    rw [clean_idle hinv hactive, Option.some.injEq] at hclean
    rw [← hclean]
    exact ⟨hinv, hactive⟩
  have hcleaned : Shut (c.setRx i { c.adapter.rxRing i with queue := q' }).adapter :=
    h.setRx hq
  apply hcleaned.setRx
  exact hcleaned.rx i

/-- `ixgbevf_free_all_tx_resources`. -/
theorem freeAllTx (h : Shut c.adapter) (hc : c.freeAllTxResources = some c') :
  Shut c'.adapter
  := by
  have hrings {kind : TxKind} {c c' : Call} (h : Shut c.adapter) (hc : c.freeTxRings kind = some c') :
      Shut c'.adapter := by
    apply upFrom_keeps (I := fun c => Shut c.adapter) hc h
    intro j _ c c' hbody hs
    split at hbody
    · exact hs.freeTx hbody
    · cases hbody
      exact hs
  obtain ⟨c₁, h₁, h₂⟩ := Option.bind_eq_some_iff.mp hc
  exact hrings (hrings h h₁) h₂

/-- `ixgbevf_free_all_rx_resources`. -/
theorem freeAllRx (h : Shut c.adapter) (hc : c.freeAllRxResources = some c') :
  Shut c'.adapter
  := by
  apply upFrom_keeps (I := fun c => Shut c.adapter) hc h
  intro j _ c c' hbody hs
  split at hbody
  · exact hs.freeRx hbody
  · cases hbody
    exact hs

/-- `ixgbevf_free_irq`. -/
theorem freeIrq (h : Shut c.adapter) (hc : c.freeIrq = some c') :
  Shut c'.adapter
  := by
  rw [Call.freeIrq] at hc
  split at hc
  · cases hc
    exact h
  · obtain ⟨c₁, h₁, rfl⟩ := Option.map_eq_some_iff.mp hc
    have h₀ : Shut { c.adapter with irqsReady := false } :=
      ⟨⟨h.rx, h.tx, h.serves, h.msixEntries⟩, h.down⟩
    have hs₁ : Shut c₁.adapter := by
      apply upFrom_keeps (I := fun c => Shut c.adapter) h₁ h₀
      intro j _ c c' hbody hs
      cases hbody
      split
      · exact hs
      · exact hs
    exact hs₁

end Shut

/-! ### Up and down -/

/-- What holds of the adapter in every state of a run: its Rx rings are in use exactly while it is
up, the other rings are empty while it is down, and every vector has a ring. -/
structure Sound (a : Adapter) : Prop where
  /-- The Rx rings. -/
  rx : ∀ i < a.numRxQueues, (a.rxRing i).queue.Inv ∧ (a.rxRing i).queue.active = !a.down
  /-- The rings that transmit. -/
  tx : a.down = true → ∀ kind, ∀ i < a.numTxQueues kind,
    (a.txRing kind i).nextToClean = (a.txRing kind i).nextToUse
  /-- The vectors. -/
  serves : ∀ v < a.numQVectors, a.serves v = true
  /-- The interrupts. -/
  msixEntries : a.numQVectors ≠ 0 → a.msixEntries = true

/-- A sound adapter that is down. -/
theorem Sound.shut {a : Adapter} (h : Sound a) (hdown : a.down = true) :
  Shut a
  := by
  have hrx := h.rx
  rw [hdown] at hrx
  exact ⟨⟨hrx, h.tx hdown, h.serves, h.msixEntries⟩, hdown⟩

/-- A closed adapter that is down. -/
theorem Shut.sound {a : Adapter} (h : Shut a) :
  Sound a
  := by
  constructor
  · rw [h.down]
    exact h.rx
  · exact fun _ => h.tx
  · exact h.serves
  · exact h.msixEntries

/-- An adapter that is being taken down: of its Rx rings the first ones are cleaned, and so are the
other rings. -/
structure Emptying (tx : TxKind → ℕ) (rx : ℕ) (a : Adapter) : Prop where
  /-- The Rx rings. -/
  rx : ∀ i < a.numRxQueues, (a.rxRing i).queue.Inv
    ∧ if i < rx then (a.rxRing i).queue.active = false else (a.rxRing i).queue.poll = none
  /-- The rings that transmit. -/
  tx : ∀ kind, ∀ i < a.numTxQueues kind, i < tx kind →
    (a.txRing kind i).nextToClean = (a.txRing kind i).nextToUse
  /-- The vectors. -/
  serves : ∀ v < a.numQVectors, a.serves v = true
  /-- The interrupts. -/
  msixEntries : a.numQVectors ≠ 0 → a.msixEntries = true
  /-- It is down. -/
  down : a.down = true

namespace Emptying

variable {tx : TxKind → ℕ} {rx : ℕ} {c c' : Call}

/-- What is told the hardware changes nothing of it. -/
theorem writeReg {e : Effect} (h : Emptying tx rx c.adapter) :
  Emptying tx rx (c.writeReg e).adapter
  := by
  obtain ⟨_, hsame⟩ := writeReg_adapter e c
  rw [hsame]
  exact ⟨h.rx, h.tx, h.serves, h.msixEntries, h.down⟩

/-- `ixgbevf_reset`. -/
theorem reset {resets : Bool} (h : Emptying tx rx c.adapter) :
  Emptying tx rx (c.reset resets).adapter
  := by
  obtain ⟨_, _, hsame⟩ := reset_adapter resets c
  rw [hsame]
  exact ⟨h.rx, h.tx, h.serves, h.msixEntries, h.down⟩

/-- `ixgbevf_clean_tx_ring`. -/
theorem cleanTx {kind : TxKind} {n : ℕ} (h : Emptying (Function.update tx kind n) rx c.adapter)
    (hc : c.cleanTxRing kind n = some c') :
  Emptying (Function.update tx kind (n + 1)) rx c'.adapter
  := by
  rw [Call.cleanTxRing] at hc
  split at hc
  · cases hc
    refine ⟨h.rx, fun k j hj hlt => ?_, h.serves, h.msixEntries, h.down⟩
    have hold := h.tx k j hj
    simp only [Call.setTx, Function.update_apply] at hold hlt ⊢
    split
    next hk =>
      subst hk
      rw [if_pos rfl] at hold hlt
      simp only [Function.update_apply]
      split
      · rfl
      · exact hold (by omega)
    next hk =>
      rw [if_neg hk] at hold hlt
      exact hold hlt
  · cases hc

/-- `ixgbevf_clean_rx_ring`. -/
theorem cleanRx {n : ℕ} (h : Emptying tx n c.adapter) (hc : c.cleanRxRing n = some c') :
  Emptying tx (n + 1) c'.adapter
  := by
  obtain ⟨q', hclean, rfl⟩ := Option.map_eq_some_iff.mp hc
  refine ⟨fun j hj => ?_, h.tx, h.serves, h.msixEntries, h.down⟩
  obtain ⟨hinv, hor⟩ := h.rx j hj
  simp only [Call.emit, Call.setRx, Function.update_apply]
  split
  next hji =>
    subst hji
    rw [if_neg (Nat.lt_irrefl j)] at hor
    rw [if_pos (Nat.lt_succ_self j)]
    exact ⟨RxQueue.step_inv (K := Rx.cacheLine64) (e := .clean) hinv ⟨hor, hclean⟩,
      RxQueue.cleanRxRing_active hclean⟩
  next hji =>
    refine ⟨hinv, ?_⟩
    split at hor
    · rw [if_pos (by omega)]
      exact hor
    · rw [if_neg (by omega)]
      exact hor

/-- `ixgbevf_clean_all_tx_rings` and `ixgbevf_clean_all_rx_rings`. -/
theorem cleanAllRings (h : Emptying (fun _ => 0) 0 c.adapter) (hc : c.cleanAllRings = some c') :
  Shut c'.adapter
  := by
  have hupdate (tx : TxKind → ℕ) (kind : TxKind) (n : ℕ) (hn : tx kind = n) :
      Function.update tx kind n = tx := by
    rw [← hn, Function.update_eq_self]
  obtain ⟨c₁, h₁, hc⟩ := Option.bind_eq_some_iff.mp hc
  obtain ⟨c₂, h₂, h₃⟩ := Option.bind_eq_some_iff.mp hc
  have hnum (c : Call) (tx : TxKind → ℕ) (rx : ℕ) (kind : TxKind) (c' : Call) (n : ℕ)
      (h : Emptying tx rx c.adapter) (hzero : tx kind = 0)
      (hloop : upFrom (Call.cleanTxRing kind) n 0 c = some c') :
      Emptying (Function.update tx kind n) rx c'.adapter
        ∧ c'.adapter.numTxQueues = c.adapter.numTxQueues
        ∧ c'.adapter.numRxQueues = c.adapter.numRxQueues := by
    have hI := upFrom_result (I := fun j c₁ => Emptying (Function.update tx kind j) rx c₁.adapter
        ∧ c₁.adapter.numTxQueues = c.adapter.numTxQueues
        ∧ c₁.adapter.numRxQueues = c.adapter.numRxQueues) hloop
      ⟨by rw [hupdate tx kind 0 hzero]; exact h, rfl, rfl⟩ (by
        rintro j - c₁ c₂ hbody ⟨he, htx, hrx⟩
        refine ⟨he.cleanTx hbody, ?_⟩
        rw [Call.cleanTxRing] at hbody
        split at hbody
        · cases hbody
          exact ⟨htx, hrx⟩
        · cases hbody)
    rw [Nat.zero_add] at hI
    exact hI
  obtain ⟨he₁, htx₁, hrx₁⟩ := hnum _ _ _ _ _ _ h rfl h₁
  obtain ⟨he₂, htx₂, hrx₂⟩ := hnum _ _ _ _ _ _ he₁ rfl h₂
  have he₃ := upFrom_result (I := fun j c₃ => Emptying
      (Function.update (Function.update (fun _ => 0) .tx (c.adapter.numTxQueues .tx)) .xdp
        (c₁.adapter.numTxQueues .xdp)) j c₃.adapter
      ∧ c₃.adapter.numTxQueues = c₂.adapter.numTxQueues
      ∧ c₃.adapter.numRxQueues = c₂.adapter.numRxQueues) h₃ ⟨he₂, rfl, rfl⟩ (by
    rintro j - c₃ c₄ hbody ⟨he, htx, hrx⟩
    refine ⟨he.cleanRx hbody, ?_⟩
    obtain ⟨q', -, rfl⟩ := Option.map_eq_some_iff.mp hbody
    exact ⟨htx, hrx⟩)
  rw [Nat.zero_add] at he₃
  obtain ⟨he, htx₃, hrx₃⟩ := he₃
  refine ⟨⟨fun i hi => ?_, fun kind i hi => ?_, he.serves, he.msixEntries⟩, he.down⟩
  · obtain ⟨hinv, hor⟩ := he.rx i hi
    rw [hrx₃] at hi
    rw [if_pos hi] at hor
    exact ⟨hinv, hor⟩
  · apply he.tx kind i hi
    rw [htx₃, htx₂, htx₁] at hi
    cases kind with
    | tx => exact hi
    | xdp =>
      rw [htx₁]
      exact hi

end Emptying

/-- `ixgbevf_down` leaves the adapter closed. -/
theorem Sound.ixgbevfDown {c c' : Call} {resets : Bool} (h : Sound c.adapter)
    (hpolls : PollsDone c.adapter) (hc : c.ixgbevfDown resets = some c') :
  Shut c'.adapter
  := by
  rw [Call.ixgbevfDown] at hc
  split at hc
  next hdown =>
    cases hc
    exact h.shut hdown
  · have h₀ : Emptying (fun _ => 0) 0 { c.adapter with down := true } := by
      refine ⟨fun i hi => ?_, fun _ _ _ hf => absurd hf (Nat.not_lt_zero _), h.serves,
        h.msixEntries, rfl⟩
      rw [if_neg (Nat.not_lt_zero i)]
      exact ⟨(h.rx i hi).1, hpolls i hi⟩
    obtain ⟨c₁, h₁, hc⟩ := Option.bind_eq_some_iff.mp hc
    have he₁ : Emptying (fun _ => 0) 0 c₁.adapter := by
      apply upFrom_keeps (I := fun c => Emptying (fun _ => 0) 0 c.adapter) h₁ h₀
      intro j _ c c' hbody hs
      cases hbody
      exact hs.writeReg
    split at hc
    · cases hc
    · apply Emptying.cleanAllRings _ hc
      split
      · exact he₁
      · exact he₁.reset

/-- An adapter that is being brought up: of its Rx rings the first ones are configured, and the
others can be. -/
structure Filling (n : ℕ) (a : Adapter) : Prop where
  /-- The Rx rings. -/
  rx : ∀ i < a.numRxQueues, if i < n then
    (a.rxRing i).queue.Inv ∧ (a.rxRing i).queue.active = true else Configurable (a.rxRing i).queue
  /-- The vectors. -/
  serves : ∀ v < a.numQVectors, a.serves v = true
  /-- The interrupts. -/
  msixEntries : a.numQVectors ≠ 0 → a.msixEntries = true

/-- A closed adapter can be brought up. -/
theorem Closed.filling {a : Adapter} (h : Closed a) :
  Filling 0 a
  := by
  refine ⟨fun i hi => ?_, h.serves, h.msixEntries⟩
  rw [if_neg (Nat.not_lt_zero i)]
  obtain ⟨hinv, hactive⟩ := h.rx i hi
  exact configurable_idle hinv hactive

namespace Filling

variable {n : ℕ} {c c' : Call}

/-- What is told the hardware changes nothing of it. -/
theorem writeReg {e : Effect} (h : Filling n c.adapter) :
  Filling n (c.writeReg e).adapter
  := by
  obtain ⟨_, hsame⟩ := writeReg_adapter e c
  rw [hsame]
  exact ⟨h.rx, h.serves, h.msixEntries⟩

/-- `ixgbevf_configure_rx_ring`. -/
theorem configureRx {K : KernelConfig} {env : ConfigEnv} (h : Filling n c.adapter)
    (hn : n < c.adapter.numRxQueues) (hc : c.configureRxRing K env n = some c') :
  Filling (n + 1) c'.adapter ∧ c'.adapter.numRxQueues = c.adapter.numRxQueues
  := by
  rw [Call.configureRxRing] at hc
  split at hc
  · cases hc
    have hf : Filling n ((c.disableRxQueue n).writeReg (.enable n)).adapter :=
      writeReg (writeReg h)
    have hnum : ((c.disableRxQueue n).writeReg (.enable n)).adapter.numRxQueues
        = c.adapter.numRxQueues := by
      obtain ⟨_, hdisable⟩ := writeReg_adapter (.disable n) c
      obtain ⟨_, henable⟩ := writeReg_adapter (.enable n) (c.disableRxQueue n)
      rw [henable]
      exact congrArg (·.numRxQueues) hdisable
    refine ⟨⟨fun j hj => ?_, hf.serves, hf.msixEntries⟩, hnum⟩
    have hold := hf.rx j hj
    simp only [Call.setRx, Function.update_apply]
    by_cases hjn : j = n
    · subst hjn
      have hcan := h.rx j hn
      rw [if_neg (Nat.lt_irrefl j)] at hcan
      rw [if_pos (Nat.lt_succ_self j), if_pos rfl]
      exact hcan K (env.flags j) (env.pages j)
    · rw [if_neg hjn]
      split at hold
      · rw [if_pos (by omega)]
        exact hold
      · rw [if_neg (by omega)]
        exact hold
  · cases hc

/-- `ixgbevf_up`. -/
theorem up {K : KernelConfig} {env : ConfigEnv} (h : Filling 0 c.adapter)
    (hc : c.up K env = some c') :
  Sound c'.adapter
  := by
  obtain ⟨c₃, hconf, rfl⟩ := Option.map_eq_some_iff.mp hc
  obtain ⟨c₁, h₁, hconf⟩ := Option.bind_eq_some_iff.mp hconf
  obtain ⟨c₂, h₂, h₃⟩ := Option.bind_eq_some_iff.mp hconf
  have htx {kind : TxKind} {n : ℕ} {c c' : Call} (h : Filling 0 c.adapter)
      (hloop : upFrom (Call.configureTxRing kind) n 0 c = some c') : Filling 0 c'.adapter := by
    apply upFrom_keeps (I := fun c => Filling 0 c.adapter) hloop h
    intro j _ c c' hbody hs
    rw [Call.configureTxRing] at hbody
    split at hbody
    · cases hbody
      exact ⟨hs.rx, hs.serves, hs.msixEntries⟩
    · cases hbody
  have hhash := (htx (htx h h₁) h₂).writeReg (e := .hash)
  have hrx := upFrom_result (I := fun j c => Filling j c.adapter
      ∧ c.adapter.numRxQueues = (c₂.writeReg .hash).adapter.numRxQueues) h₃ ⟨hhash, rfl⟩ (by
      rintro j hj c c' hbody ⟨hf, hnum⟩
      rw [Nat.zero_add] at hj
      obtain ⟨hf', hnum'⟩ := hf.configureRx (by omega) hbody
      exact ⟨hf', hnum'.trans hnum⟩)
  rw [Nat.zero_add] at hrx
  obtain ⟨hf, hnum⟩ := hrx
  constructor
  · intro i hi
    have hi' : i < c₃.adapter.numRxQueues := hi
    have hactive := hf.rx i hi'
    rw [if_pos (by omega)] at hactive
    exact hactive
  · intro hdown
    cases hdown
  · exact hf.serves
  · exact hf.msixEntries

end Filling

/-! ### Every event -/

section Events

variable {K : KernelConfig} {c c' : Call}

/-- `ixgbevf_close_suspend`. -/
theorem Sound.closeSuspend {resets : Bool} (h : Sound c.adapter) (hpolls : PollsDone c.adapter)
    (hc : c.closeSuspend resets = some c') :
  Sound c'.adapter
  := by
  obtain ⟨c₁, h₁, hc⟩ := Option.bind_eq_some_iff.mp hc
  obtain ⟨c₂, h₂, hc⟩ := Option.bind_eq_some_iff.mp hc
  obtain ⟨c₃, h₃, h₄⟩ := Option.bind_eq_some_iff.mp hc
  have hshut := h.ixgbevfDown hpolls h₁
  exact (((hshut.freeIrq h₂).freeAllTx h₃).freeAllRx h₄).sound

/-- `ixgbevf_reinit_locked`. -/
theorem Sound.reinitLocked {resets : Bool} {env : ConfigEnv} (h : Sound c.adapter)
    (hpolls : PollsDone c.adapter) (hc : c.reinitLocked K resets env = some c') :
  Sound c'.adapter
  := by
  obtain ⟨c₁, h₁, h₂⟩ := Option.bind_eq_some_iff.mp hc
  exact (h.ixgbevfDown hpolls h₁).toClosed.filling.up h₂

/-- What the Rx rings and the vectors are. -/
def Adapter.rxPart (a : Adapter) : (ℕ → RxRing) × ℕ × ℕ × (ℕ → Bool) × Bool :=
  (a.rxRing, a.numRxQueues, a.numQVectors, a.serves, a.msixEntries)

/-- The swap of the rings that transmit leaves the Rx rings alone. -/
theorem swapTx_rxPart {clone : TxKind → ℕ → TxRing} {kind : TxKind} {n : ℕ}
    (hc : upFrom (Call.swapTxRing clone kind) n 0 c = some c') :
  c'.adapter.rxPart = c.adapter.rxPart
  := by
  apply upFrom_keeps (I := fun c₁ => c₁.adapter.rxPart = c.adapter.rxPart) hc rfl
  intro j _ c₁ c₂ hbody hs
  obtain ⟨c₃, hfree, rfl⟩ := Option.map_eq_some_iff.mp hbody
  obtain ⟨c₄, hclean, rfl⟩ := Option.map_eq_some_iff.mp hfree
  rw [Call.cleanTxRing] at hclean
  split at hclean
  · cases hclean
    exact hs
  · cases hclean

/-- Rx rings that are not in use from the `n`-th on, and can all be configured. -/
structure Swapping (n : ℕ) (a : Adapter) : Prop where
  /-- The rings that are still to be swapped. -/
  old : ∀ i < a.numRxQueues, n ≤ i →
    (a.rxRing i).queue.Inv ∧ (a.rxRing i).queue.active = false
  /-- The rings that have been swapped. -/
  new : ∀ i < a.numRxQueues, i < n → Configurable (a.rxRing i).queue
  /-- The vectors. -/
  serves : ∀ v < a.numQVectors, a.serves v = true
  /-- The interrupts. -/
  msixEntries : a.numQVectors ≠ 0 → a.msixEntries = true

/-- The swap of an Rx ring. -/
theorem Swapping.swapRx {clone : ℕ → RxRing} {count n : ℕ} (h : Swapping n c.adapter)
    (hn : n < c.adapter.numRxQueues) (hcount : 0 < count)
    (hc : c.swapRxRing clone count n = some c') :
  Swapping (n + 1) c'.adapter ∧ c'.adapter.numRxQueues = c.adapter.numRxQueues
  := by
  obtain ⟨c₁, h₁, rfl⟩ := Option.map_eq_some_iff.mp hc
  obtain ⟨c₂, h₂, rfl⟩ := Option.map_eq_some_iff.mp h₁
  obtain ⟨q', hclean, rfl⟩ := Option.map_eq_some_iff.mp h₂
  obtain ⟨hinv, hactive⟩ := h.old n hn le_rfl
  rw [clean_idle hinv hactive, Option.some.injEq] at hclean
  subst hclean
  refine ⟨⟨fun j hj hle => ?_, fun j hj hlt => ?_, h.serves, h.msixEntries⟩, rfl⟩
  · have hne : j ≠ n := by omega
    simp only [Call.setRx, Call.emit, Function.update_of_ne hne]
    exact h.old j hj (by omega)
  · by_cases hjn : j = n
    · subst hjn
      simp only [Call.setRx, Call.emit, Function.update_self]
      exact configurable hinv hactive hcount
    · simp only [Call.setRx, Call.emit, Function.update_of_ne hjn]
      exact h.new j hj (by omega)

/-- `ixgbevf_set_ringparam`. -/
theorem Sound.setRingparam {tx rx resets : Bool} {count : ℕ} {env : ConfigEnv}
    (h : Sound c.adapter) (hpolls : PollsDone c.adapter) (hcount : 0 < count)
    (hc : c.setRingparam K tx rx count resets env = some c') :
  Sound c'.adapter
  := by
  obtain ⟨c₁, h₁, hc⟩ := Option.bind_eq_some_iff.mp hc
  obtain ⟨c₂, h₂, hc⟩ := Option.bind_eq_some_iff.mp hc
  obtain ⟨c₃, h₃, hc⟩ := Option.bind_eq_some_iff.mp hc
  obtain ⟨c₄, h₄, h₅⟩ := Option.bind_eq_some_iff.mp hc
  have hshut := h.ixgbevfDown hpolls h₁
  have hpart {kind : TxKind} {c₀ c₁ : Call}
      (h : c₀.swapTxRings tx c.adapter.txRing kind = some c₁) :
      c₁.adapter.rxPart = c₀.adapter.rxPart := by
    rw [Call.swapTxRings] at h
    split at h
    · exact swapTx_rxPart h
    · cases h
      rfl
  have hsame : c₃.adapter.rxPart = c₁.adapter.rxPart := (hpart h₃).trans (hpart h₂)
  simp only [Adapter.rxPart, Prod.mk.injEq] at hsame
  obtain ⟨hring, hnum, hvectors, hserves, hmsix⟩ := hsame
  have hswap : Swapping 0 c₃.adapter := by
    refine ⟨?_, fun _ _ hlt => absurd hlt (Nat.not_lt_zero _), ?_, ?_⟩
    · rw [hring, hnum]
      exact fun i hi _ => hshut.rx i hi
    · rw [hvectors, hserves]
      exact hshut.serves
    · rw [hvectors, hmsix]
      exact hshut.msixEntries
  suffices hf : Filling 0 c₄.adapter from hf.up h₅
  rw [Call.swapRxRings] at h₄
  split at h₄
  · have hI := upFrom_result (I := fun j c => Swapping j c.adapter
        ∧ c.adapter.numRxQueues = c₃.adapter.numRxQueues) h₄ ⟨hswap, rfl⟩ (by
      rintro j hj c c' hbody ⟨hs, hnum'⟩
      rw [Nat.zero_add] at hj
      obtain ⟨hs', hnum''⟩ := hs.swapRx (by omega) hcount hbody
      exact ⟨hs', hnum''.trans hnum'⟩)
    rw [Nat.zero_add] at hI
    obtain ⟨hs, hnum'⟩ := hI
    refine ⟨fun i hi => ?_, hs.serves, hs.msixEntries⟩
    rw [if_neg (Nat.not_lt_zero i)]
    exact hs.new i hi (by omega)
  · cases h₄
    refine ⟨fun i hi => ?_, hswap.serves, hswap.msixEntries⟩
    rw [if_neg (Nat.not_lt_zero i)]
    obtain ⟨hinv, hactive⟩ := hswap.old i hi (Nat.zero_le i)
    exact configurable_idle hinv hactive

/-- A new interrupt scheme. -/
theorem scheme_sound {env : InitEnv} {q₀ q : Queues.Adapter} {ok : Bool} {count : ℕ} {a : Adapter}
    (hq : initInterruptScheme env q₀ = some (q, ok)) (hzero : q₀.numQVectors = 0)
    (hcount : 0 < count) (hdown : a.down = true) :
  Sound (a.ofScheme q count)
  := by
  have hqueue : RxQueue.Init (newRxRing count).queue := by
    constructor <;> simp [newRxRing, RxQueue.fresh, Rx.unmappablePage, hcount]
  have hvectors : (∀ v < q.numQVectors,
        ((q.qVector v).any fun w => !w.rx.isEmpty || !w.tx.isEmpty) = true)
      ∧ (q.numQVectors ≠ 0 → q.msixEntries = true) := by
    obtain ⟨hmsix, hfail⟩ := Queues.initInterruptScheme_counts hq hzero
    cases ok with
    | false =>
      have hnone : q.numQVectors = 0 := hfail rfl
      exact ⟨fun v hv => absurd hv (by omega), fun hno => absurd hnone hno⟩
    | true =>
      refine ⟨fun v hv => ?_, fun _ => hmsix⟩
      obtain ⟨w, hw, hrx⟩ := (Queues.initInterruptScheme_servesRx hq).1 v (Nat.zero_le v) hv
      rw [hw, Option.any_some]
      cases hrings : w.rx with
      | nil => exact absurd hrings hrx
      | cons r rest => rfl
  constructor
  · intro i _
    have hinv := RxQueue.init_inv hqueue
    refine ⟨hinv, ?_⟩
    show false = !a.down
    rw [hdown]
    rfl
  · exact fun _ _ _ _ => rfl
  · exact hvectors.1
  · exact hvectors.2

/-- Reception on an Rx ring leaves it in use. -/
theorem receive_inUse {q q' : RxQueue} {e : RxQueue.Event} (h : q.Inv) (hactive : q.active = true)
    (he : InUse e) (hen : q.Enabled e) (hq : q.apply K e = some q') :
  q'.Inv ∧ q'.active = true
  := by
  refine ⟨RxQueue.step_inv h ⟨hen, hq⟩, ?_⟩
  rw [← hactive]
  cases e with
  | configure flags alloc => exact he.elim
  | writeBack length eop frameErr =>
    cases hq
    rfl
  | poll budget =>
    cases hq
    rfl
  | turn t =>
    obtain ⟨p, hp, hturn⟩ := Option.bind_eq_some_iff.mp hq
    exact (RxQueue.cleanRxTurn_same (h.window hactive) (h.counted hactive p hp) hturn).1
  | clean => exact he.elim
  | drop page half =>
    cases hq
    rfl
  | take page half =>
    cases hq
    rfl

/-- `ixgbevf_open`. -/
theorem Sound.devOpen {env : OpenEnv} {a : Adapter} (h : Sound a) (hdown : a.down = true)
    {ok : Bool} (hc : Call.ixgbevfOpen K env { adapter := a, effects := [] } = some (c, ok)) :
  Sound c.adapter
  := by
  obtain ⟨c', heq, hholds⟩ | ⟨c', heq, hclosed, hframe, -⟩ :=
    ixgbevfOpen_cases K env (h.shut hdown).toClosed
  · rw [heq] at hc
    cases hc
    have hrx : c'.adapter.numRxQueues = a.numRxQueues := congrArg (·.2.1) hholds.frame
    have hvectors : c'.adapter.numQVectors = a.numQVectors := hholds.vectors
    obtain ⟨hserves, hmsix⟩ := hholds.frame_irqs
    constructor
    · intro i hi
      have hi' : i < a.numRxQueues := by
        rw [← hrx]
        exact hi
      exact hholds.inUse i hi' hi'
    · intro hno
      cases hno
    · show ∀ v < c'.adapter.numQVectors, c'.adapter.serves v = true
      rw [hvectors, hserves]
      exact h.serves
    · show c'.adapter.numQVectors ≠ 0 → c'.adapter.msixEntries = true
      rw [hvectors, hmsix]
      exact h.msixEntries
  · rw [heq] at hc
    cases hc
    exact Shut.sound ⟨hclosed, (congrArg (·.2.2.2.2.1) hframe).trans hdown⟩

/-- A reset leaves the adapter sound. -/
theorem Sound.reset {resets : Bool} (h : Sound c.adapter) :
  Sound (c.reset resets).adapter
  := by
  obtain ⟨_, _, hsame⟩ := reset_adapter resets c
  rw [hsame]
  exact ⟨h.rx, h.tx, h.serves, h.msixEntries⟩

/-- Every event leaves the adapter sound. -/
theorem Sound.step {s s' : Call} {e : Event} (h : Sound s.adapter)
    (hstep : (system K).step s e s') :
  Sound s'.adapter
  := by
  obtain ⟨hen, c, hc, rfl⟩ := hstep
  show Sound c.adapter
  cases e with
  | devOpen env =>
    obtain ⟨⟨c', ok⟩, hopen, rfl⟩ := Option.map_eq_some_iff.mp hc
    exact h.devOpen hen hopen
  | close resets => exact h.closeSuspend (c := ⟨s.adapter, []⟩) hen hc
  | reinit resets env => exact h.reinitLocked (c := ⟨s.adapter, []⟩) hen hc
  | setRingparam tx rx count resets env => exact h.setRingparam (c := ⟨s.adapter, []⟩) hen.1 hen.2 hc
  | scheme q count =>
    cases hc
    obtain ⟨hdown, hcount, env, q₀, ok, hzero, hq⟩ := hen
    exact scheme_sound hq hzero hcount hdown
  | removed resets => exact (h.ixgbevfDown (c := ⟨s.adapter, []⟩) hen.1 hc).sound
  | reset resets =>
    cases hc
    exact h.reset (c := ⟨s.adapter, []⟩)
  | read =>
    cases hc
    obtain ⟨_, hsame⟩ := readReg_adapter ⟨s.adapter, []⟩
    rw [hsame]
    exact ⟨h.rx, h.tx, h.serves, h.msixEntries⟩
  | answer answers =>
    cases hc
    exact ⟨h.rx, h.tx, h.serves, h.msixEntries⟩
  | channel offline =>
    cases hc
    exact ⟨h.rx, h.tx, h.serves, h.msixEntries⟩
  | remap =>
    cases hc
    exact ⟨h.rx, h.tx, h.serves, h.msixEntries⟩
  | remove =>
    cases hc
    exact ⟨h.rx, h.tx, h.serves, h.msixEntries⟩
  | test testing =>
    cases hc
    exact ⟨h.rx, h.tx, h.serves, h.msixEntries⟩
  | receive i e =>
    obtain ⟨queue, hqueue, rfl⟩ := Option.map_eq_some_iff.mp hc
    obtain ⟨hup, hi, hinUse, hq⟩ := hen
    refine ⟨fun j hj => ?_, h.tx, h.serves, h.msixEntries⟩
    simp only [Call.setRx, Function.update_apply]
    split
    next hji =>
      obtain ⟨hinv, hactive⟩ := h.rx i hi
      rw [hup] at hactive ⊢
      exact receive_inUse hinv hactive hinUse hq hqueue
    · exact h.rx j hj
  | transmit kind i nextToUse nextToClean =>
    cases hc
    have hup : s.adapter.down = false := hen
    refine ⟨h.rx, fun hdown => ?_, h.serves, h.msixEntries⟩
    exact absurd (hup.symm.trans hdown) Bool.false_ne_true

/-- The adapter is sound in every state of a run. -/
theorem reachable_sound {G : Call → Event → Prop} {s : Call} (h : (system K).Reachable G s) :
  Sound s.adapter
  := by
  induction h with
  | init hinit =>
    obtain ⟨env, A, q, count, hq, hcount, rfl⟩ := hinit
    exact scheme_sound hq rfl hcount rfl
  | step _ _ hstep ih => exact ih.step hstep

end Events

/-! ### All or nothing -/

/-- In every run, whenever the interface is down, `ixgbevf_open` returns, and if it fails it has
given back everything it has taken, each thing once, unless it is the registration of an XDP queue
that fails. -/
theorem open_allOrNothing {K : KernelConfig} {env : OpenEnv} {s : Call}
    (h : (system K).Reachable TransSystem.always s) (hdown : s.adapter.down = true) :
  ∃ c ok, Call.ixgbevfOpen K env { adapter := s.adapter, effects := [] } = some (c, ok)
    ∧ (ok = false → (AllOrNothing s.adapter c ↔ ¬ FailsAtRxq env s.adapter))
  := by
  obtain ⟨c, heq, -⟩ | ⟨c, heq, -, -, hall⟩ :=
    ixgbevfOpen_cases K env ((reachable_sound h).shut hdown).toClosed
  · exact ⟨c.upComplete, true, heq, fun hno => nomatch hno⟩
  · exact ⟨c, false, heq, fun _ => hall⟩

/-- The interface after the probe of a system with two processors. -/
def probed : Call where
  adapter := blank.ofScheme (Queues.probed .api13) 512
  effects := []

/-- The interface begins there. -/
theorem probed_reachable (K : KernelConfig) (G : Call → Event → Prop) :
  (system K).Reachable G probed
  := .init ⟨_, _, _, _, Queues.probed_init .api13, by decide, rfl⟩

/-- The answers of a system that has memory for one page of each Rx ring, whose set-up ends as
`rxSetup` says. -/
def answering (rxSetup : ℕ → Queues.RxSetup) : OpenEnv where
  flags _ := { usesLargeBuffer := false, usesBuildSkb := true }
  pages _ i := if i = 0 then .ok else .noPage
  restarts := true
  resets := true
  txSetup _ _ := .ok
  rxSetup := rxSetup
  irqFails _ := false
  setTxQueuesFails := false
  setRxQueuesFails := false

/-- After the probe the interface can be opened, and the descriptors of its second Rx ring have
no memory. -/
theorem probed_allOrNothing :
  probed.adapter.down = true ∧ ∃ c ok, Call.ixgbevfOpen Rx.cacheLine64
      (answering fun i => if i = 1 then .descFails else .ok)
      { adapter := probed.adapter, effects := [] } = some (c, ok)
    ∧ (ok = false → (AllOrNothing probed.adapter c ↔ ¬ FailsAtRxq
      (answering fun i => if i = 1 then .descFails else .ok) probed.adapter))
  := ⟨rfl, open_allOrNothing (probed_reachable _ _) rfl⟩

/-- The registration of an XDP queue fails, and the descriptors of its ring are left. -/
theorem rxqRegFails_not_allOrNothing :
  ∃ c, Call.ixgbevfOpen Rx.cacheLine64 (answering fun _ => .rxqRegFails)
      { adapter := probed.adapter, effects := [] } = some (c, false)
    ∧ ¬ AllOrNothing probed.adapter c
  := by
  have hdown : probed.adapter.down = true := rfl
  have hfails : FailsAtRxq (answering fun _ => .rxqRegFails) probed.adapter := by
    refine ⟨?_, fun _ _ _ => rfl, 0, by decide, rfl, fun i hi => absurd hi (Nat.not_lt_zero i)⟩
    rintro (hno | hno | ⟨hno, -⟩) <;> exact absurd hno (by decide)
  have hnot : (Call.ixgbevfOpen Rx.cacheLine64 (answering fun _ => .rxqRegFails)
      { adapter := probed.adapter, effects := [] }).map (·.2) = some false := by
    decide +kernel
  obtain ⟨c, heq, -⟩ | ⟨c, heq, -, -, hall⟩ := ixgbevfOpen_cases Rx.cacheLine64
    (answering fun _ => .rxqRegFails)
    ((reachable_sound (probed_reachable Rx.cacheLine64 TransSystem.always)).shut hdown).toClosed
  · rw [heq] at hnot
    cases hnot
  · exact ⟨c, heq, fun h => hall.mp h hfails⟩

end Ixgbevf.Interface
