import Mathlib.Tactic.SplitIfs
import Ixgbevf.Lib.Run
import Ixgbevf.Tx.Map

/-!
# A Tx queue

One Tx queue with the parties that work on it: a call of `ixgbevf_xmit_frame`, a call of
`ixgbevf_clean_tx_irq`, the hardware that writes descriptors back, and the watchdog that
turns the carrier on and off.  A call of the driver is cut into steps where another party
can come in between: a step reads or writes one thing that others write or read.
-/

namespace Ixgbevf.Tx

open Cyclic

/-! ### Sizes -/

/-- The `count + 3` of `ixgbevf_xmit_frame_ring`, where `count` has 16 bits. -/
def Skb.size (skb : Skb) : ℕ :=
  (txdUseCount skb.headlen + (skb.frags.map txdUseCount).sum) % 2 ^ 16 + 3

/-- The constants that a queue is built with: `MAX_SKB_FRAGS` of the kernel, and a ring size
that `ixgbevf_set_ringparam` accepts. -/
structure Config where
  /-- `MAX_SKB_FRAGS`. -/
  maxSkbFrags : ℕ
  /-- The ring size. -/
  count : ℕ
  /-- The least `MAX_SKB_FRAGS`. -/
  frags_ge : 17 ≤ maxSkbFrags
  /-- The largest `MAX_SKB_FRAGS`. -/
  frags_le : maxSkbFrags ≤ 45
  /-- `IXGBEVF_MIN_TXD`. -/
  count_ge : 64 ≤ count
  /-- `IXGBEVF_MAX_TXD`. -/
  count_le : count ≤ 4096
  /-- `IXGBE_REQ_TX_DESCRIPTOR_MULTIPLE`. -/
  count_mul : count % 8 = 0

/-- `DESC_NEEDED`. -/
def Config.descNeeded (C : Config) : ℕ := C.maxSkbFrags + 4

/-- `TX_WAKE_THRESHOLD`. -/
def Config.txWakeThreshold (C : Config) : ℕ := C.descNeeded * 2

/-! ### Where the calls stand -/

/-- A call of `ixgbevf_xmit_frame`, with what the kernel answers during the call. -/
structure Call where
  /-- The packet. -/
  skb : Skb
  /-- `netdev_xmit_more`. -/
  more : Bool
  /-- `skb_put_padto` fails and frees the packet. -/
  padFails : Bool
  /-- `skb_cow_head` fails. -/
  cowFails : Bool
  /-- The answers of the mappings, in order. -/
  map : ℕ → Option (BitVec 64)
  /-- `netdev_tx_sent_queue` finds the byte limit of the queue reached. -/
  bqlFull : Bool

/-- The call after a `skb_put_padto` that succeeded. -/
def Call.padded (c : Call) : Call := { c with skb := c.skb.putPadto 17 }

/-- The steps of `ixgbevf_maybe_stop_tx`. -/
inductive StopStep where
  | check
  | stop
  | recheck
  | start
  deriving DecidableEq, Repr

/-- The steps of `ixgbevf_xmit_frame` after its first checks. -/
inductive XmitPc where
  /-- No call is made. -/
  | idle
  /-- The call of `ixgbevf_maybe_stop_tx` before the packet is put on the ring. -/
  | before (p : StopStep) (c : Call)
  /-- The packet is about to be recorded. -/
  | offload (c : Call)
  /-- The context descriptor is in the slot `first`, and `ixgbevf_tx_map` is about to start. -/
  | map (c : Call) (first : ℕ) (hdrLen : BitVec 8)
  /-- The call of `ixgbevf_maybe_stop_tx` after the packet is put on the ring. -/
  | after (p : StopStep) (c : Call)
  /-- The tail register is about to be written, or not. -/
  | doorbell (c : Call)

/-- No call is made. -/
def XmitPc.isIdle : XmitPc → Bool
  | .idle => true
  | _ => false

/-- The call will still ask for room or come to the tail register. -/
def XmitPc.looksAgain : XmitPc → Bool
  | .before .recheck _ => true
  | .before .start _ => true
  | .after _ _ => true
  | .doorbell _ => true
  | _ => false

/-- The steps of `ixgbevf_clean_tx_irq`, with its `i`, `budget` and `total_packets`. -/
inductive CleanPc where
  /-- No call is made. -/
  | idle
  /-- An iteration of the loop. -/
  | scan (i budget packets : ℕ)
  /-- The update of `next_to_clean`. -/
  | finish (i budget packets : ℕ)
  /-- The check for a hang. -/
  | hang (budget packets : ℕ)
  /-- A hang is detected. -/
  | hangStop
  /-- The report to the queue and the test of the carrier. -/
  | complete (budget packets : ℕ)
  /-- The test of `ixgbevf_desc_unused`. -/
  | room (budget : ℕ)
  /-- The wake-up. -/
  | wake (budget : ℕ)
  deriving DecidableEq, Repr

/-- The call has cleaned packets, and will come to the wake-up unless it finds a hang, no
carrier or no room. -/
def CleanPc.mayWake : CleanPc → Bool
  | .hang _ packets => packets ≠ 0
  | .complete _ packets => packets ≠ 0
  | .room _ => true
  | .wake _ => true
  | _ => false

/-- A call of `ixgbevf_xmit_frame` that has returned. -/
structure Returned where
  /-- `netdev_xmit_more`. -/
  more : Bool
  /-- The call returned `NETDEV_TX_BUSY`. -/
  busy : Bool
  /-- The queue was stopped, by the driver or by its byte limit, when the call returned. -/
  stopped : Bool
  deriving DecidableEq, Repr

/-- A Tx queue. -/
structure TxQueue where
  /-- The ring. -/
  ring : TxRing
  /-- `__QUEUE_STATE_DRV_XOFF`: the driver has stopped the queue. -/
  drvXoff : Bool
  /-- `__QUEUE_STATE_STACK_XOFF`: the byte limit of the queue is reached. -/
  stackXoff : Bool
  /-- `netif_carrier_ok`. -/
  carrier : Bool
  /-- `__IXGBEVF_DOWN`. -/
  down : Bool
  /-- `__IXGBEVF_RESET_REQUESTED`. -/
  resetRequested : Bool
  /-- `__IXGBEVF_TX_DETECT_HANG`. -/
  detectHang : Bool
  /-- `__IXGBEVF_HANG_CHECK_ARMED`. -/
  hangCheckArmed : Bool
  /-- `stats.packets`. -/
  packets : ℕ
  /-- `tx_stats.tx_done_old`. -/
  txDoneOld : BitVec 32
  /-- The call of `ixgbevf_xmit_frame`. -/
  xmit : XmitPc
  /-- The call of `ixgbevf_clean_tx_irq`. -/
  clean : CleanPc
  /-- The last call of `ixgbevf_xmit_frame` that has returned. -/
  last : Option Returned
  /-- The last result of `ixgbevf_clean_tx_irq`. -/
  cleaned : Option Bool
  /-- What the driver did to packets and mappings. -/
  acts : List TxAct

namespace TxQueue

/-- `netif_xmit_stopped`. -/
def xmitStopped (s : TxQueue) : Bool := s.drvXoff || s.stackXoff

/-! ### Stopping the queue -/

/-- Where `ixgbevf_maybe_stop_tx` goes from one of its steps. -/
inductive StopNext where
  | step (p : StopStep)
  | done (busy : Bool)

/-- The steps of `ixgbevf_maybe_stop_tx`. -/
def maybeStopTx (size : ℕ) (s : TxQueue) : StopStep → TxQueue × StopNext
  | .check => (s, if s.ring.descUnused ≥ size then .done false else .step .stop)
  | .stop => ({ s with drvXoff := true }, .step .recheck)
  | .recheck => (s, if s.ring.descUnused < size then .done true else .step .start)
  | .start => ({ s with drvXoff := false }, .done false)

/-! ### Transmission -/

/-- A call of `ixgbevf_xmit_frame` returns. -/
def returns (s : TxQueue) (c : Call) (busy : Bool) : TxQueue :=
  { s with xmit := .idle, last := some ⟨c.more, busy, s.xmitStopped⟩ }

/-- The packet is freed at once. -/
def drops (s : TxQueue) (c : Call) : TxQueue :=
  { s with acts := s.acts ++ [TxAct.freeSkb c.skb.id] }.returns c false

/-- `ixgbevf_xmit_frame`, and `ixgbevf_xmit_frame_ring` up to its call of
`ixgbevf_maybe_stop_tx`. -/
def xmitFrame (s : TxQueue) (c : Call) : TxQueue :=
  if c.skb.len = 0 then s.drops c
  -- a padding that fails frees the packet
  else if c.skb.len < 17 ∧ c.padFails then s.drops c
  else
    let c := c.padded
    if c.skb.protocol = ethPLldp then s.drops c
    else { s with xmit := .before .check c }

/-- One more step of the call of `ixgbevf_xmit_frame`. -/
def xmitStep (C : Config) (s : TxQueue) : TxQueue :=
  match s.xmit with
  | .idle => s
  | .before p c =>
    let (s, n) := s.maybeStopTx c.skb.size p
    match n with
    | .step p => { s with xmit := .before p c }
    | .done true => s.returns c true
    | .done false => { s with xmit := .offload c }
  | .offload c =>
    let first := s.ring.nextToUse
    let (o, acts) := xmitOffload c.cowFails s.ring c.skb
    let s := { s with acts := s.acts ++ acts }
    match o with
    | .dropped r => { s with ring := r }.returns c false
    | .ready r hdrLen => { s with ring := r, xmit := .map c first hdrLen }
  | .map c first hdrLen =>
    let (queued, r, acts) := txMap c.map s.ring first c.skb hdrLen
    let s := { s with ring := r, acts := s.acts ++ acts }
    if queued then { s with stackXoff := s.stackXoff || c.bqlFull, xmit := .after .check c }
    else s.returns c false
  | .after p c =>
    let (s, n) := s.maybeStopTx C.descNeeded p
    match n with
    | .step p => { s with xmit := .after p c }
    | .done _ => { s with xmit := .doorbell c }
  | .doorbell c =>
    if ¬ c.more ∨ s.xmitStopped then
      { s with ring := { s.ring with tail := s.ring.nextToUse } }.returns c false
    else s.returns c false

/-! ### Cleaning -/

/-- The inner loop of `ixgbevf_clean_tx_irq`: the slots after `i` up to the last one of the
packet are unmapped.  The fuel is a bound on their number. -/
def unmapFrags (eop : ℕ) : ℕ → ℕ → TxRing → TxRing × ℕ × List TxAct
  | 0, i, r => (r, i, [])
  | fuel + 1, i, r =>
    if i = eop then (r, i, [])
    else
      let i := next r.count i
      let b := r.buffer i
      let act := if b.len ≠ 0 then [TxAct.unmapPage b.dma b.len] else []
      let r := r.setBuffer i fun b => if b.len ≠ 0 then { b with len := 0 } else b
      let (r, j, acts) := unmapFrags eop fuel i r
      (r, j, act ++ acts)

/-- The packet in the slot `i` is taken off the ring: the new ring, the slot after the packet
and what was done to the packet. -/
def cleanPacket (r : TxRing) (i eop : ℕ) : TxRing × ℕ × List TxAct :=
  let b := r.buffer i
  let acts := b.skb.toList.map TxAct.freeSkb ++ [TxAct.unmapSingle b.dma b.len]
  let r := r.setBuffer i fun b => { b with nextToWatch := none, len := 0 }
  let (r, i, acts') := unmapFrags eop r.count i r
  (r, next r.count i, acts ++ acts')

/-- `ixgbevf_get_tx_pending`, where `head` is the head register. -/
def getTxPending (r : TxRing) (head : ℕ) : ℕ :=
  if head ≠ r.tail then
    if head < r.tail then r.tail - head else r.tail + r.count - head
  else 0

/-- `ixgbevf_check_tx_hang`. -/
def checkTxHang (s : TxQueue) (head : ℕ) : TxQueue × Bool :=
  let txDone := BitVec.ofNat 32 s.packets
  let s := { s with detectHang := false }
  if s.txDoneOld = txDone ∧ getTxPending s.ring head ≠ 0 then
    ({ s with hangCheckArmed := true }, s.hangCheckArmed)
  else ({ s with hangCheckArmed := false, txDoneOld := txDone }, false)

/-- `ixgbevf_tx_timeout_reset`. -/
def txTimeoutReset (s : TxQueue) : TxQueue :=
  if ¬ s.down then { s with resetRequested := true } else s

/-- `ixgbevf_clean_tx_irq` returns. -/
def cleanReturns (s : TxQueue) (result : Bool) : TxQueue :=
  { s with clean := .idle, cleaned := some result }

/-- `ixgbevf_clean_tx_irq` up to its loop. -/
def cleanTxIrq (s : TxQueue) : TxQueue :=
  if s.down then s.cleanReturns true
  else { s with clean := .scan s.ring.nextToClean (s.ring.count / 2) 0 }

/-- What a step of `ixgbevf_clean_tx_irq` is answered. -/
structure CleanAnswer where
  /-- The head register. -/
  head : ℕ
  /-- `netdev_tx_completed_queue` finds the queue below its byte limit. -/
  bqlOpen : Bool
  deriving DecidableEq, Repr

/-- One more step of the call of `ixgbevf_clean_tx_irq`. -/
def cleanStep (C : Config) (s : TxQueue) (a : CleanAnswer) : TxQueue :=
  match s.clean with
  | .idle => s
  | .scan i budget packets =>
    match (s.ring.buffer i).nextToWatch with
    | none => { s with clean := .finish i budget packets }
    | some eop =>
      if (s.ring.desc eop).olinfoStatus &&& txdStatDd = 0#32 then
        { s with clean := .finish i budget packets }
      else
        let packets := packets + (s.ring.buffer i).gsoSegs
        let (r, i, acts) := cleanPacket s.ring i eop
        let s := { s with ring := r, acts := s.acts ++ acts }
        if budget - 1 = 0 then { s with clean := .finish i (budget - 1) packets }
        else { s with clean := .scan i (budget - 1) packets }
  | .finish i budget packets =>
    { s with
      ring := { s.ring with nextToClean := i }
      packets := s.packets + packets
      clean := .hang budget packets }
  | .hang budget packets =>
    if s.detectHang then
      let (s, hung) := s.checkTxHang a.head
      if hung then { s with clean := .hangStop } else { s with clean := .complete budget packets }
    else { s with clean := .complete budget packets }
  | .hangStop =>
    { s with drvXoff := true }.txTimeoutReset.cleanReturns true
  | .complete budget packets =>
    let s := { s with stackXoff := s.stackXoff && !a.bqlOpen }
    if packets ≠ 0 ∧ s.carrier then { s with clean := .room budget }
    else s.cleanReturns (budget ≠ 0)
  | .room budget =>
    if s.ring.descUnused ≥ C.txWakeThreshold then { s with clean := .wake budget }
    else s.cleanReturns (budget ≠ 0)
  | .wake budget =>
    if s.drvXoff ∧ ¬ s.down then { s with drvXoff := false }.cleanReturns (budget ≠ 0)
    else s.cleanReturns (budget ≠ 0)

/-! ### Runs -/

/-- What may happen on a queue. -/
inductive Event where
  /-- The stack calls `ixgbevf_xmit_frame`. -/
  | xmit (c : Call)
  /-- That call takes a step. -/
  | xmitStep
  /-- `ixgbevf_clean_tx_irq` is called. -/
  | clean
  /-- That call takes a step. -/
  | cleanStep (a : CleanAnswer)
  /-- The hardware writes a descriptor back. -/
  | writeBack (i : ℕ) (d : TxDesc)
  /-- `ixgbevf_watchdog_link_is_up` or `ixgbevf_watchdog_link_is_down`. -/
  | carrier (on : Bool)
  /-- `ixgbevf_check_hang_subtask`. -/
  | checkHang

/-- The slot `i` is between `next_to_clean` and the tail register: the hardware may own it. -/
def Owned (r : TxRing) (i : ℕ) : Prop :=
  i < r.count ∧ gap r.count r.nextToClean i < gap r.count r.nextToClean r.tail

instance (r : TxRing) (i : ℕ) : Decidable (Owned r i) := by
  unfold Owned
  infer_instance

/-- When an event may happen: a queue has one call of each kind at a time, the hardware writes
back what it owns, and its head register is not past the tail. -/
def Enabled (C : Config) (s : TxQueue) : Event → Prop
  | .xmit c => s.xmit.isIdle ∧ c.skb.Ok C.maxSkbFrags
  | .clean => s.clean = .idle
  | .cleanStep a => Owned s.ring a.head ∨ a.head = s.ring.tail
  | .writeBack i _ => Owned s.ring i
  | _ => True

/-- The queue after an event. -/
def next (C : Config) (s : TxQueue) : Event → TxQueue
  | .xmit c => s.xmitFrame c
  | .xmitStep => s.xmitStep C
  | .clean => s.cleanTxIrq
  | .cleanStep a => s.cleanStep C a
  | .writeBack i d => { s with ring := s.ring.setDesc i fun _ => d }
  | .carrier on => { s with carrier := on }
  | .checkHang => if ¬ s.down ∧ s.carrier then { s with detectHang := true } else s

/-- A queue that is set up: `ixgbevf_configure_tx_ring` has cleared the buffers and set the
indices and the tail register to zero, and the queue is started. -/
structure Init (C : Config) (s : TxQueue) : Prop where
  /-- `count`. -/
  count : s.ring.count = C.count
  /-- `next_to_use`. -/
  nextToUse : s.ring.nextToUse = 0
  /-- `next_to_clean`. -/
  nextToClean : s.ring.nextToClean = 0
  /-- The tail register. -/
  tail : s.ring.tail = 0
  /-- No packet is on the ring. -/
  watch : ∀ i, (s.ring.buffer i).nextToWatch = none
  /-- The queue is started. -/
  drvXoff : s.drvXoff = false
  /-- The interface is up. -/
  down : s.down = false
  /-- No call is made. -/
  xmit : s.xmit = .idle
  /-- No call is made. -/
  clean : s.clean = .idle
  /-- No call has returned. -/
  last : s.last = none

/-- The runs of a queue. -/
def system (C : Config) : TransSystem TxQueue Event where
  init := Init C
  step s e s' := Enabled C s e ∧ s' = next C s e

instance (F : ℕ) (skb : Skb) : Decidable (skb.Ok F) :=
  decidable_of_iff (skb.frags.length ≤ F ∧ (∀ frag ∈ skb.frags, 0 < frag) ∧ skb.len ≤ 65536
    ∧ (skb.gsoSize ≠ 0 → 0 < skb.gsoSegs))
    ⟨fun ⟨h₁, h₂, h₃, h₄⟩ => ⟨h₁, h₂, h₃, h₄⟩, fun ⟨h₁, h₂, h₃, h₄⟩ => ⟨h₁, h₂, h₃, h₄⟩⟩

instance (C : Config) (s : TxQueue) : (e : Event) → Decidable (Enabled C s e)
  | .xmit c => inferInstanceAs (Decidable (s.xmit.isIdle ∧ c.skb.Ok C.maxSkbFrags))
  | .xmitStep => isTrue trivial
  | .clean => inferInstanceAs (Decidable (s.clean = .idle))
  | .cleanStep a => inferInstanceAs (Decidable (Owned s.ring a.head ∨ a.head = s.ring.tail))
  | .writeBack i _ => inferInstanceAs (Decidable (Owned s.ring i))
  | .carrier _ => isTrue trivial
  | .checkHang => isTrue trivial

/-! ### A queue that is set up -/

/-- The smallest ring, on a kernel with 17 fragments to a packet. -/
def smallRing : Config where
  maxSkbFrags := 17
  count := 64
  frags_ge := by decide
  frags_le := by decide
  count_ge := by decide
  count_le := by decide
  count_mul := by decide

/-- A buffer after `ixgbevf_configure_tx_ring`. -/
def clearBuffer : TxBuffer := ⟨none, none, 0, 0, 0#16, 0#64, 0, 0#32⟩

/-- A queue after `ixgbevf_configure_tx_ring`. -/
def fresh (C : Config) : TxQueue where
  ring :=
    { count := C.count, nextToUse := 0, nextToClean := 0, tail := 0
      buffer := fun _ => clearBuffer
      desc := fun _ => ⟨0#64, 0#32, 0#32⟩ }
  drvXoff := false
  stackXoff := false
  carrier := true
  down := false
  resetRequested := false
  detectHang := false
  hangCheckArmed := false
  packets := 0
  txDoneOld := 0#32
  xmit := .idle
  clean := .idle
  last := none
  cleaned := none
  acts := []

/-- A queue after `ixgbevf_configure_tx_ring` is set up. -/
theorem fresh_init (C : Config) :
  Init C (fresh C)
  := ⟨rfl, rfl, rfl, rfl, fun _ => rfl, rfl, rfl, rfl, rfl, rfl⟩

/-- An untagged packet without offloads. -/
def plainSkb (id headlen : ℕ) (frags : List ℕ) (protocol : BitVec 16) : Skb where
  id := id
  headlen := headlen
  frags := frags
  protocol := protocol
  vlanTag := none
  vlanHdr := none
  csumPartial := false
  gsoSize := 0
  gsoSegs := 0
  networkOffset := 14
  csumStart := 34
  csumOffset := 0
  ipv4 := true
  doff := 5
  ipv4Sctp := false
  ipv6Sctp := false

/-- A call in which nothing fails. -/
def plainCall (skb : Skb) (more : Bool) : Call where
  skb := skb
  more := more
  padFails := false
  cowFails := false
  map k := some (BitVec.ofNat 64 k)
  bqlFull := false

/-- A call of `ixgbevf_xmit_frame` with the steps that put its packet on the ring. -/
def sends (c : Call) : List Event :=
  [.xmit c, .xmitStep, .xmitStep, .xmitStep, .xmitStep, .xmitStep]

/-! ### What a step can do -/

/-- The packet is dropped before `ixgbevf_xmit_frame_ring` asks for room. -/
def DropsAtOnce (c : Call) : Prop :=
  c.skb.len = 0 ∨ (c.skb.len < 17 ∧ c.padFails) ∨ c.skb.protocol = ethPLldp

instance (c : Call) : Decidable (DropsAtOnce c) := by
  unfold DropsAtOnce
  infer_instance

/-- A call drops its packet at once or asks for room. -/
theorem xmitFrame_cases (s : TxQueue) (c : Call) :
  (DropsAtOnce c ∧ s.xmitFrame c = s.drops c)
    ∨ s.xmitFrame c = { s with xmit := .before .check c.padded }
  := by
  have hprotocol : c.padded.skb.protocol = c.skb.protocol := by
    unfold Call.padded Skb.putPadto
    split <;> rfl
  have hdrops : s.drops c.padded = s.drops c := by
    unfold drops returns Call.padded Skb.putPadto
    split <;> rfl
  unfold xmitFrame DropsAtOnce
  by_cases hlen : c.skb.len = 0
  · exact .inl ⟨.inl hlen, by rw [if_pos hlen]⟩
  · by_cases hpad : c.skb.len < 17 ∧ c.padFails
    · exact .inl ⟨.inr (.inl hpad), by rw [if_neg hlen, if_pos hpad]⟩
    · by_cases hlldp : c.skb.protocol = ethPLldp
      · refine .inl ⟨.inr (.inr hlldp), ?_⟩
        simp only [if_neg hlen, if_neg hpad, hprotocol, if_pos hlldp, hdrops]
      · refine .inr ?_
        simp only [if_neg hlen, if_neg hpad, hprotocol, if_neg hlldp]

/-- What a step of a call of `ixgbevf_xmit_frame` can do. -/
inductive XmitMove (C : Config) (s : TxQueue) : TxQueue → Prop where
  | room {c : Call} : s.xmit = .before .check c → c.skb.size ≤ s.ring.descUnused →
      XmitMove C s { s with xmit := .offload c }
  | full {c : Call} : s.xmit = .before .check c → XmitMove C s { s with xmit := .before .stop c }
  | stop {c : Call} : s.xmit = .before .stop c →
      XmitMove C s { s with drvXoff := true, xmit := .before .recheck c }
  | busy {c : Call} : s.xmit = .before .recheck c → s.ring.descUnused < c.skb.size →
      XmitMove C s (s.returns c true)
  | reprieve {c : Call} : s.xmit = .before .recheck c → c.skb.size ≤ s.ring.descUnused →
      XmitMove C s { s with xmit := .before .start c }
  | start {c : Call} : s.xmit = .before .start c →
      XmitMove C s { s with drvXoff := false, xmit := .offload c }
  | dropped {c : Call} {r : TxRing} {acts : List TxAct} : s.xmit = .offload c →
      xmitOffload c.cowFails s.ring c.skb = (.dropped r, acts) →
      XmitMove C s ({ s with ring := r, acts := s.acts ++ acts }.returns c false)
  | ready {c : Call} {r : TxRing} {hdrLen : BitVec 8} {acts : List TxAct} : s.xmit = .offload c →
      xmitOffload c.cowFails s.ring c.skb = (.ready r hdrLen, acts) →
      XmitMove C s
        { s with ring := r, acts := s.acts ++ acts, xmit := .map c s.ring.nextToUse hdrLen }
  | failed {c : Call} {first : ℕ} {hdrLen : BitVec 8} {r : TxRing} {acts : List TxAct} :
      s.xmit = .map c first hdrLen →
      txMap c.map s.ring first c.skb hdrLen = (false, r, acts) →
      XmitMove C s ({ s with ring := r, acts := s.acts ++ acts }.returns c false)
  | queued {c : Call} {first : ℕ} {hdrLen : BitVec 8} {r : TxRing} {acts : List TxAct} :
      s.xmit = .map c first hdrLen →
      txMap c.map s.ring first c.skb hdrLen = (true, r, acts) →
      XmitMove C s
        { s with
          ring := r, acts := s.acts ++ acts, stackXoff := s.stackXoff || c.bqlFull
          xmit := .after .check c }
  | after {c : Call} {p q : StopStep} (off : Bool) : s.xmit = .after p c →
      XmitMove C s { s with drvXoff := off, xmit := .after q c }
  | placed {c : Call} {p : StopStep} (off : Bool) : s.xmit = .after p c →
      XmitMove C s { s with drvXoff := off, xmit := .doorbell c }
  | rung {c : Call} : s.xmit = .doorbell c → (¬ c.more ∨ s.xmitStopped) →
      XmitMove C s ({ s with ring := { s.ring with tail := s.ring.nextToUse } }.returns c false)
  | quiet {c : Call} : s.xmit = .doorbell c → c.more → ¬ s.xmitStopped →
      XmitMove C s (s.returns c false)

/-- A step of a call of `ixgbevf_xmit_frame` does one of these. -/
theorem xmitStep_move {C : Config} {s : TxQueue} (hx : s.xmit.isIdle = false) :
  XmitMove C s (s.xmitStep C)
  := by
  rw [xmitStep]
  cases hpc : s.xmit with
  | idle =>
    rw [hpc] at hx
    cases hx
  | before p c =>
    cases p with
    | check =>
      by_cases hroom : s.ring.descUnused ≥ c.skb.size
      · simp only [maybeStopTx, if_pos hroom]
        exact .room hpc hroom
      · simp only [maybeStopTx, if_neg hroom]
        exact .full hpc
    | stop => exact .stop hpc
    | recheck =>
      by_cases hfull : s.ring.descUnused < c.skb.size
      · simp only [maybeStopTx, if_pos hfull]
        exact .busy hpc hfull
      · simp only [maybeStopTx, if_neg hfull]
        exact .reprieve hpc (Nat.le_of_not_lt hfull)
    | start => exact .start hpc
  | offload c =>
    rcases ho : xmitOffload c.cowFails s.ring c.skb with ⟨o, acts⟩
    simp only [ho]
    cases o with
    | dropped r => exact .dropped hpc ho
    | ready r hdrLen => exact .ready hpc ho
  | map c first hdrLen =>
    rcases hm : txMap c.map s.ring first c.skb hdrLen with ⟨queued, r, acts⟩
    simp only [hm]
    cases queued with
    | false => exact .failed hpc hm
    | true => exact .queued hpc hm
  | after p c =>
    cases p with
    | check =>
      by_cases hroom : s.ring.descUnused ≥ C.descNeeded
      · simp only [maybeStopTx, if_pos hroom]
        exact .placed s.drvXoff hpc
      · simp only [maybeStopTx, if_neg hroom]
        exact .after s.drvXoff hpc
    | stop => exact .after true hpc
    | recheck =>
      by_cases hfull : s.ring.descUnused < C.descNeeded
      · simp only [maybeStopTx, if_pos hfull]
        exact .placed s.drvXoff hpc
      · simp only [maybeStopTx, if_neg hfull]
        exact .after s.drvXoff hpc
    | start => exact .placed false hpc
  | doorbell c =>
    by_cases hring : ¬ c.more ∨ s.xmitStopped
    · simp only [if_pos hring]
      exact .rung hpc hring
    · simp only [if_neg hring]
      obtain ⟨hmore, hstopped⟩ := not_or.mp hring
      exact .quiet hpc (not_not.mp hmore) hstopped

/-- What a step of a call of `ixgbevf_clean_tx_irq` can do. -/
inductive CleanMove (C : Config) (s : TxQueue) (a : CleanAnswer) : TxQueue → Prop where
  | stopped {i budget packets : ℕ} : s.clean = .scan i budget packets →
      CleanMove C s a { s with clean := .finish i budget packets }
  | packet {i budget packets eop j : ℕ} {r : TxRing} {acts : List TxAct} (pc : CleanPc) :
      s.clean = .scan i budget packets → (s.ring.buffer i).nextToWatch = some eop →
      ¬ s.ring.Clear eop → cleanPacket s.ring i eop = (r, j, acts) →
      pc = .finish j (budget - 1) (packets + (s.ring.buffer i).gsoSegs)
        ∨ pc = .scan j (budget - 1) (packets + (s.ring.buffer i).gsoSegs) →
      CleanMove C s a { s with ring := r, acts := s.acts ++ acts, clean := pc }
  | finish {i budget packets : ℕ} : s.clean = .finish i budget packets →
      CleanMove C s a
        { s with
          ring := { s.ring with nextToClean := i }
          packets := s.packets + packets
          clean := .hang budget packets }
  | checked {budget packets : ℕ} (armed detect : Bool) (done : BitVec 32) :
      s.clean = .hang budget packets →
      CleanMove C s a
        { s with
          hangCheckArmed := armed, detectHang := detect, txDoneOld := done
          clean := .complete budget packets }
  | hung {budget packets : ℕ} (armed detect : Bool) (done : BitVec 32) :
      s.clean = .hang budget packets → getTxPending s.ring a.head ≠ 0 →
      CleanMove C s a
        { s with
          hangCheckArmed := armed, detectHang := detect, txDoneOld := done, clean := .hangStop }
  | hangStop (reset : Bool) : s.clean = .hangStop →
      CleanMove C s a ({ s with drvXoff := true, resetRequested := reset }.cleanReturns true)
  | carrier {budget packets : ℕ} (off : Bool) : s.clean = .complete budget packets →
      packets ≠ 0 → s.carrier →
      CleanMove C s a { s with stackXoff := off, clean := .room budget }
  | noCarrier {budget packets : ℕ} (off : Bool) : s.clean = .complete budget packets →
      (packets ≠ 0 → ¬ s.carrier) →
      CleanMove C s a ({ s with stackXoff := off }.cleanReturns (budget ≠ 0))
  | room {budget : ℕ} : s.clean = .room budget → C.txWakeThreshold ≤ s.ring.descUnused →
      CleanMove C s a { s with clean := .wake budget }
  | noRoom {budget : ℕ} : s.clean = .room budget → s.ring.descUnused < C.txWakeThreshold →
      CleanMove C s a (s.cleanReturns (budget ≠ 0))
  | woken {budget : ℕ} : s.clean = .wake budget →
      CleanMove C s a ({ s with drvXoff := false }.cleanReturns (budget ≠ 0))
  | running {budget : ℕ} : s.clean = .wake budget → ¬ (s.drvXoff ∧ ¬ s.down) →
      CleanMove C s a (s.cleanReturns (budget ≠ 0))

/-- A step of a call of `ixgbevf_clean_tx_irq` does one of these. -/
theorem cleanStep_move {C : Config} {s : TxQueue} (a : CleanAnswer) (hc : s.clean ≠ .idle) :
  CleanMove C s a (s.cleanStep C a)
  := by
  rw [cleanStep]
  cases hpc : s.clean with
  | idle => exact absurd hpc hc
  | scan i budget packets =>
    cases hwatch : (s.ring.buffer i).nextToWatch with
    | none =>
      simp only [hwatch]
      exact .stopped hpc
    | some eop =>
      simp only [hwatch]
      by_cases hdone : (s.ring.desc eop).olinfoStatus &&& txdStatDd = 0#32
      · rw [if_pos hdone]
        exact .stopped hpc
      · rcases hr : cleanPacket s.ring i eop with ⟨r, j, acts⟩
        rw [if_neg hdone]
        simp only [hr]
        split
        · exact .packet _ hpc hwatch hdone hr (.inl rfl)
        · exact .packet _ hpc hwatch hdone hr (.inr rfl)
  | finish i budget packets => exact .finish hpc
  | hang budget packets =>
    by_cases hdetect : s.detectHang
    · simp only [if_pos hdetect, checkTxHang]
      by_cases hpending : s.txDoneOld = BitVec.ofNat 32 s.packets ∧ getTxPending s.ring a.head ≠ 0
      · simp only [if_pos hpending]
        split
        · exact .hung true false s.txDoneOld hpc hpending.2
        · exact .checked true false s.txDoneOld hpc
      · simp only [if_neg hpending]
        exact .checked false false _ hpc
    · simp only [if_neg hdetect]
      exact .checked s.hangCheckArmed s.detectHang s.txDoneOld hpc
  | hangStop =>
    simp only [txTimeoutReset]
    split
    · exact .hangStop true hpc
    · exact .hangStop s.resetRequested hpc
  | complete budget packets =>
    by_cases hcarrier : packets ≠ 0 ∧ s.carrier
    · simp only [if_pos hcarrier]
      exact .carrier _ hpc hcarrier.1 hcarrier.2
    · simp only [if_neg hcarrier]
      exact .noCarrier _ hpc fun hp hon => hcarrier ⟨hp, hon⟩
  | room budget =>
    by_cases hroom : s.ring.descUnused ≥ C.txWakeThreshold
    · simp only [if_pos hroom]
      exact .room hpc hroom
    · simp only [if_neg hroom]
      exact .noRoom hpc (Nat.lt_of_not_le hroom)
  | wake budget =>
    by_cases hwake : s.drvXoff ∧ ¬ s.down
    · simp only [if_pos hwake]
      exact .woken hpc
    · simp only [if_neg hwake]
      exact .running hpc hwake

end TxQueue

end Ixgbevf.Tx
