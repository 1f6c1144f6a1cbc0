import Ixgbevf.Tx.Slots

/-!
# The books of a Tx ring

What is done to the packets of a Tx ring over its whole life: they are taken, mapped and put on the
ring, cleaned once the hardware has reported them, or given up when the ring is torn down.  The
`Books` of a ring are an account of that in terms of packets: there is a queue of packets, a packet
leaves it at its front, and then everything that was done for it is undone.
-/

namespace Ixgbevf.Tx

open Cyclic
open TxRing (Within)

/-! ### Effects -/

/-- What is done on a ring. -/
inductive TxEffect where
  /-- A packet or an XDP buffer becomes the driver's. -/
  | take (id : ℕ)
  /-- A mapping is made. -/
  | map (m : Mapping)
  /-- A packet is put on the ring: its last descriptor is in the slot `slot`, and its first buffer
  has these `gso_segs` and this `bytecount`. -/
  | put (slot segs bytes : ℕ)
  /-- The hardware reports `IXGBE_TXD_STAT_DD` in a slot. -/
  | done (slot : ℕ)
  /-- A packet or an XDP buffer is freed. -/
  | free (id : ℕ)
  /-- A mapping is undone. -/
  | unmap (m : Mapping)
  /-- `netdev_tx_completed_queue`. -/
  | completed (packets bytes : ℕ)
  /-- `ixgbevf_tx_timeout_reset` after a hang is detected. -/
  | hang
  /-- `netdev_tx_reset_queue`. -/
  | resetQueue
  deriving DecidableEq, Repr

/-- The effect of an act on a packet, if it frees or unmaps anything. -/
def TxEffect.ofAct : TxAct → Option TxEffect
  | .freeSkb id => some (.free id)
  | .unmapSingle dma len => some (.unmap ⟨true, dma, len⟩)
  | .unmapPage dma len => some (.unmap ⟨false, dma, len⟩)
  | .checksumHelp _ => none

/-- A Tx ring with the state of the call of `ixgbevf_clean_tx_irq` on it. -/
structure OwnedRing where
  /-- The ring that transmission and cleaning share. -/
  shared : SharedRing
  /-- `total_bytes` of the call. -/
  totalBytes : ℕ
  /-- `total_packets` of the call. -/
  totalPackets : ℕ
  /-- `stats.packets`. -/
  packets : ℕ
  /-- `tx_stats.tx_done_old`. -/
  txDoneOld : BitVec 32
  /-- `__IXGBEVF_TX_DETECT_HANG`. -/
  detectHang : Bool
  /-- `__IXGBEVF_HANG_CHECK_ARMED`. -/
  hangCheckArmed : Bool
  /-- `ixgbevf_clean_tx_ring` was called since the ring was configured. -/
  torn : Bool
  /-- What was done so far. -/
  effects : List TxEffect

namespace OwnedRing

/-- The ring. -/
def ring (s : OwnedRing) : TxRing := s.shared.ring

/-- Something is done. -/
def emit (s : OwnedRing) (es : List TxEffect) : OwnedRing := { s with effects := s.effects ++ es }

/-- The ring is changed. -/
def setRing (s : OwnedRing) (r : TxRing) : OwnedRing :=
  { s with shared := { s.shared with ring := r } }

/-! ### Transmission -/

/-- The packet whose first buffer is in the slot `first` is on the ring. -/
def puts (r : TxRing) (first : ℕ) : List TxEffect :=
  (r.buffer first).nextToWatch.toList.map fun slot =>
    .put slot (r.buffer first).gsoSegs (r.buffer first).bytecount

/-- A packet is freed at once. -/
def drops (s : OwnedRing) (c : Call) : OwnedRing := s.emit [.take c.skb.id, .free c.skb.id]

/-- `ixgbevf_xmit_frame_ring`.  A packet for which it returns `NETDEV_TX_BUSY` is not taken. -/
def xmitFrameRing (s : OwnedRing) (c : Call) : OwnedRing :=
  if c.skb.protocol = ethPLldp then s.drops c
  else if s.ring.descUnused < c.skb.size then s
  else
    let first := s.ring.nextToUse
    match xmitOffload c.cowFails s.ring c.skb with
    | (.dropped r, acts) =>
      (s.setRing r).emit (TxEffect.take c.skb.id :: acts.filterMap TxEffect.ofAct)
    | (.ready r hdrLen, acts) =>
      let (queued, r, acts') := txMap c.map r first c.skb hdrLen
      (s.setRing r).emit (TxEffect.take c.skb.id :: acts.filterMap TxEffect.ofAct
        ++ c.mappings.map TxEffect.map
        ++ if queued then puts r first else acts'.filterMap TxEffect.ofAct)

/-- `ixgbevf_xmit_frame`. -/
def xmitFrame (s : OwnedRing) (c : Call) : OwnedRing :=
  if c.skb.len = 0 then s.drops c
  -- a padding that fails frees the packet
  else if c.skb.len < 17 ∧ c.padFails then s.drops c
  else s.xmitFrameRing c.padded

/-- `ixgbevf_xmit_xdp_ring`.  A buffer for which it returns `IXGBEVF_XDP_CONSUMED` is not taken. -/
def xmitXdp (s : OwnedRing) (xdp : XdpBuff) : OwnedRing :=
  match xmitXdpRing s.ring s.shared.primed xdp with
  | none => s
  | some r =>
    { s with shared := { s.shared with ring := r, primed := true } }.emit
      (TxEffect.take xdp.data :: xdp.map.toList.map (fun dma => TxEffect.map ⟨true, dma, xdp.len⟩)
        ++ puts r s.ring.nextToUse)

/-! ### Cleaning -/

/-- `ixgbevf_check_tx_hang`, where `head` and `tail` are what the registers of the ring say. -/
def checkTxHang (s : OwnedRing) (head tail : ℕ) : OwnedRing × Bool :=
  let txDone := BitVec.ofNat 32 s.packets
  let s := { s with detectHang := false }
  if s.txDoneOld = txDone ∧ TxQueue.getTxPending { s.ring with tail := tail } head ≠ 0 then
    ({ s with hangCheckArmed := true }, s.hangCheckArmed)
  else ({ s with hangCheckArmed := false, txDoneOld := txDone }, false)

/-- `ixgbevf_clean_tx_irq` after its loop has ended in the slot `i`. -/
def cleanEnd (s : OwnedRing) (i head tail : ℕ) : OwnedRing :=
  let s := { s with shared := s.shared.cleanEnd i, packets := s.packets + s.totalPackets }
  let p := if s.detectHang then s.checkTxHang head tail else (s, false)
  if p.2 then p.1.emit [.hang]
  else if s.shared.isXdp then p.1
  else p.1.emit [.completed s.totalPackets s.totalBytes]

/-- The loop of `ixgbevf_clean_tx_irq` in the slot `i`, and what comes after it where it ends. -/
def cleanLoop (s : OwnedRing) (i budget head tail : ℕ) : OwnedRing :=
  match (s.ring.buffer i).nextToWatch with
  | none => s.cleanEnd i head tail
  | some eop =>
    if (s.ring.desc eop).olinfoStatus &&& txdStatDd = 0#32 then s.cleanEnd i head tail
    else
      let b := s.ring.buffer i
      let p := TxQueue.cleanPacket s.ring i eop
      -- the counts of the call have 32 bits
      let s := { s.setRing p.1 with
        totalBytes := (s.totalBytes + b.bytecount) % 2 ^ 32
        totalPackets := (s.totalPackets + b.gsoSegs) % 2 ^ 32 }.emit
          (p.2.2.filterMap TxEffect.ofAct)
      if budget - 1 = 0 then s.cleanEnd p.2.1 head tail
      else { s with shared := { s.shared with cleaning := some (p.2.1, budget - 1) } }

/-- `ixgbevf_clean_tx_irq` up to its loop. -/
def cleanTxIrq (s : OwnedRing) : OwnedRing :=
  { s with
    shared := { s.shared with cleaning := some (s.ring.nextToClean, s.ring.count / 2) }
    totalBytes := 0
    totalPackets := 0 }

/-- `ixgbevf_clean_tx_ring`, unless its loop does not end. -/
def cleanTxRing (s : OwnedRing) : Option OwnedRing :=
  (freePackets s.ring s.ring.count s.ring.nextToClean).map fun acts =>
    { s.setRing { s.ring with nextToUse := 0, nextToClean := 0 } with torn := true }.emit
      (acts.filterMap TxEffect.ofAct ++ if s.shared.isXdp then [] else [TxEffect.resetQueue])

/-- `ixgbevf_configure_tx_ring` on a ring of `count` descriptors. -/
def configureTxRing (s : OwnedRing) (count : ℕ) : OwnedRing :=
  { s with shared := s.shared.configureTxRing count, hangCheckArmed := false, torn := false }

/-- The hardware writes a descriptor back. -/
def writeBack (s : OwnedRing) (i : ℕ) (d : TxDesc) : OwnedRing :=
  (s.setRing (s.ring.setDesc i fun _ => d)).emit
    (if d.olinfoStatus &&& txdStatDd = 0#32 then [] else [.done i])

/-! ### Runs -/

/-- What happens on a ring. -/
inductive Event where
  /-- `ixgbevf_xmit_frame` is called. -/
  | xmit (c : Call)
  /-- `ixgbevf_xmit_xdp_ring` is called. -/
  | xmitXdp (xdp : XdpBuff)
  /-- `ixgbevf_clean_tx_irq` is called. -/
  | clean
  /-- That call goes through its loop once. -/
  | cleanStep (head tail : ℕ)
  /-- The hardware writes a descriptor back. -/
  | writeBack (i : ℕ) (d : TxDesc)
  /-- `ixgbevf_check_hang_subtask`. -/
  | checkHang
  /-- `ixgbevf_clean_tx_ring` is called. -/
  | teardown
  /-- `ixgbevf_configure_tx_ring`, on a ring with so many descriptors. -/
  | configure (count : ℕ)

/-- When an event may happen.  A ring has packets of the stack, whose fragments are not empty
and whose descriptors can be counted in 16 bits, or XDP frames; it is cleaned by one call at a
time; and between its teardown and its configuration the interface is down. -/
def Enabled (s : OwnedRing) : Event → Prop
  | .xmit c => s.torn = false ∧ s.shared.isXdp = false ∧ (∀ frag ∈ c.skb.frags, 0 < frag)
    ∧ txdUseCount c.skb.headlen + (c.skb.frags.map txdUseCount).sum < 2 ^ 16
  | .xmitXdp _ => s.torn = false ∧ s.shared.isXdp = true
  | .clean => s.torn = false ∧ s.shared.cleaning = none
  | .teardown => s.shared.cleaning = none
  | .configure count => s.torn = true ∧ SharedRing.CountOk count
  | _ => True

/-- The ring after an event, unless a loop does not end. -/
def next (s : OwnedRing) : Event → Option OwnedRing
  | .xmit c => some (s.xmitFrame c)
  | .xmitXdp xdp => some (s.xmitXdp xdp)
  | .clean => some s.cleanTxIrq
  | .cleanStep head tail =>
    match s.shared.cleaning with
    | none => some s
    | some (i, budget) => some (s.cleanLoop i budget head tail)
  | .writeBack i d => some (s.writeBack i d)
  | .checkHang => some { s with detectHang := true }
  | .teardown => s.cleanTxRing
  | .configure count => some (s.configureTxRing count)

/-- A ring after `ixgbevf_configure_tx_ring`.  Its counters are those of its life so far. -/
structure Init (s : OwnedRing) : Prop where
  /-- The indices and the watches. -/
  shared : SharedRing.Init s.shared
  /-- No mapping is held. -/
  len : ∀ j, (s.ring.buffer j).len = 0
  /-- No hang is suspected. -/
  hangCheckArmed : s.hangCheckArmed = false
  /-- The ring is configured. -/
  torn : s.torn = false
  /-- Nothing was done. -/
  effects : s.effects = []

/-- The runs of a ring. -/
def system : TransSystem OwnedRing Event where
  init := Init
  step s e s' := Enabled s e ∧ s.next e = some s'

end OwnedRing

/-! ### Books -/

/-- A packet on the ring. -/
structure Packet where
  /-- The packet, or the data of the XDP frame. -/
  id : ℕ
  /-- Its mappings. -/
  maps : List Mapping
  /-- The slot of its last descriptor. -/
  slot : ℕ
  /-- The slots that it takes. -/
  descs : ℕ
  /-- Its `gso_segs`. -/
  segs : ℕ
  /-- Its `bytecount`. -/
  bytes : ℕ
  /-- The hardware has reported its last descriptor since it was put on the ring. -/
  reported : Bool

namespace Packet

/-- What is done to put a packet on the ring. -/
def accepted (p : Packet) : List TxEffect :=
  TxEffect.take p.id :: p.maps.map TxEffect.map ++ [.put p.slot p.segs p.bytes]

/-- What is done to give a packet back. -/
def released (p : Packet) : List TxEffect := .free p.id :: p.maps.map TxEffect.unmap

/-- The hardware reports a slot. -/
def mark (slot : ℕ) (p : Packet) : Packet := if p.slot = slot then { p with reported := true } else p

end Packet

/-- What is done with a packet that is not put on the ring, after some mappings were made for it:
those that are not empty are undone, the last one first, and it is freed. -/
def givenUp (id : ℕ) (maps : List Mapping) : List TxEffect :=
  TxEffect.take id :: maps.map TxEffect.map
    ++ ((maps.filter fun m => decide (m.len ≠ 0)).reverse.map TxEffect.unmap ++ [.free id])

/-- The books of a ring: the effects so far, the packets on the ring, and those that were freed
and are not yet reported to the queue.  A packet is freed when it is the first one on the ring and
the hardware has reported it, or when the ring is torn down.  The queue hears of all packets that
were freed since it last did, but for a call that detects a hang, and for XDP rings, which have no
queue. -/
inductive Books (xdp : Bool) : List TxEffect → List Packet → List Packet → Prop where
  | start : Books xdp [] [] []
  | accept {es : List TxEffect} {ps rs : List Packet} {p : Packet} : Books xdp es ps rs →
      p.reported = false → Books xdp (es ++ p.accepted) (ps ++ [p]) rs
  | giveUp {es : List TxEffect} {ps rs : List Packet} (id : ℕ) (maps : List Mapping) :
      Books xdp es ps rs → Books xdp (es ++ givenUp id maps) ps rs
  | done {es : List TxEffect} {ps rs : List Packet} (slot : ℕ) : Books xdp es ps rs →
      Books xdp (es ++ [.done slot]) (ps.map (Packet.mark slot)) rs
  | release {es : List TxEffect} {ps rs : List Packet} {p : Packet} : Books xdp es (p :: ps) rs →
      p.reported = true → Books xdp (es ++ p.released) ps (rs ++ [p])
  | report {es : List TxEffect} {ps rs : List Packet} : xdp = false → Books xdp es ps rs →
      Books xdp (es ++ [.completed ((rs.map Packet.segs).sum % 2 ^ 32)
        ((rs.map Packet.bytes).sum % 2 ^ 32)]) ps []
  | unheard {es : List TxEffect} {ps rs : List Packet} : xdp = true → Books xdp es ps rs →
      Books xdp es ps []
  | hang {es : List TxEffect} {ps rs : List Packet} : Books xdp es ps rs →
      Books xdp (es ++ [.hang]) ps []
  | teardown {es : List TxEffect} {ps : List Packet} : Books xdp es ps [] →
      Books xdp (es ++ (ps.flatMap Packet.released ++ if xdp then [] else [TxEffect.resetQueue])) [] []

/-- Different mappings are made and undone by different effects. -/
theorem TxEffect.map_injective :
  Function.Injective TxEffect.map
  := fun _ _ h => TxEffect.map.inj h

/-- Different mappings are undone by different effects. -/
theorem TxEffect.unmap_injective :
  Function.Injective TxEffect.unmap
  := fun _ _ h => TxEffect.unmap.inj h

/-- Mappings are made by no other effect. -/
theorem count_map_of_ne {e : TxEffect} {f : Mapping → TxEffect} (h : ∀ m, f m ≠ e)
    (maps : List Mapping) :
  (maps.map f).count e = 0
  := by
  apply List.count_eq_zero.mpr
  intro hmem
  obtain ⟨m, -, heq⟩ := List.mem_map.mp hmem
  exact h m heq

/-- The effects that take and free packets, among those of a packet. -/
theorem Packet.count_ids (p : Packet) (id : ℕ) :
  p.accepted.count (.take id) = p.accepted.count (.free id) + [p.id].count id
    ∧ p.released.count (.free id) = p.released.count (.take id) + [p.id].count id
  := by
  have hmap := count_map_of_ne (e := .take id) (f := .map) (by simp) p.maps
  have hmap' := count_map_of_ne (e := .free id) (f := .map) (by simp) p.maps
  have hunmap := count_map_of_ne (e := .take id) (f := .unmap) (by simp) p.maps
  have hunmap' := count_map_of_ne (e := .free id) (f := .unmap) (by simp) p.maps
  constructor
  · simp [accepted, List.count_cons, hmap, hmap']
  · simp [released, List.count_cons, hunmap, hunmap']

/-- The effects that make and undo mappings, among those of a packet. -/
theorem Packet.count_maps (p : Packet) (m : Mapping) :
  p.accepted.count (.map m) = p.accepted.count (.unmap m) + p.maps.count m
    ∧ p.released.count (.unmap m) = p.released.count (.map m) + p.maps.count m
  := by
  have hmap := List.count_map_of_injective p.maps _ TxEffect.map_injective m
  have hmap' := count_map_of_ne (e := .unmap m) (f := .map) (by simp) p.maps
  have hunmap := count_map_of_ne (e := .map m) (f := .unmap) (by simp) p.maps
  have hunmap' := List.count_map_of_injective p.maps _ TxEffect.unmap_injective m
  constructor
  · simp [accepted, hmap, hmap']
  · simp [released, hunmap, hunmap']

/-- A packet that is given up is freed. -/
theorem givenUp_count_ids (id' : ℕ) (maps : List Mapping) (id : ℕ) :
  (givenUp id' maps).count (.take id) = (givenUp id' maps).count (.free id)
  := by
  have hmap := count_map_of_ne (e := .take id) (f := .map) (by simp) maps
  have hmap' := count_map_of_ne (e := .free id) (f := .map) (by simp) maps
  have hunmap := fun maps => count_map_of_ne (e := .take id) (f := .unmap) (by simp) maps
  have hunmap' := fun maps => count_map_of_ne (e := .free id) (f := .unmap) (by simp) maps
  simp [givenUp, List.count_cons, hmap, hmap', hunmap, hunmap']

/-- The mappings of a packet that is given up are undone, but for empty ones. -/
theorem givenUp_count_maps (id : ℕ) (maps : List Mapping) {m : Mapping} (hm : m.len ≠ 0) :
  (givenUp id maps).count (.map m) = (givenUp id maps).count (.unmap m)
  := by
  have hmap := List.count_map_of_injective maps _ TxEffect.map_injective m
  have hmap' := count_map_of_ne (e := .unmap m) (f := .map) (by simp) maps
  have hunmap := fun maps => count_map_of_ne (e := .map m) (f := .unmap) (by simp) maps
  have hunmap' := fun maps => List.count_map_of_injective maps _ TxEffect.unmap_injective m
  have hfilter : (maps.filter fun m => decide (m.len ≠ 0)).count m = maps.count m :=
    List.count_filter (by simpa using hm)
  simp only [givenUp, List.count_append, List.count_cons, List.count_nil, hmap, hmap', hunmap,
    hunmap', List.count_reverse, hfilter]
  simp

/-- Marking a packet changes nothing else of it. -/
theorem Packet.mark_same (slot : ℕ) (p : Packet) :
  (p.mark slot).id = p.id ∧ (p.mark slot).maps = p.maps ∧ (p.mark slot).slot = p.slot
    ∧ (p.mark slot).descs = p.descs ∧ (p.mark slot).segs = p.segs ∧ (p.mark slot).bytes = p.bytes
  := by
  unfold mark
  split <;> exact ⟨rfl, rfl, rfl, rfl, rfl, rfl⟩

/-- The effects that concern no packet. -/
def TxEffect.aside : TxEffect → Bool
  | .done _ => true
  | .completed _ _ => true
  | .hang => true
  | .resetQueue => true
  | _ => false

/-- Effects that concern no packet are none of another kind. -/
theorem count_aside {e : TxEffect} (he : e.aside = false) {es : List TxEffect}
    (hes : ∀ e' ∈ es, e'.aside = true) :
  es.count e = 0
  := by
  apply List.count_eq_zero.mpr
  intro hmem
  rw [hes e hmem] at he
  cases he

namespace Books

variable {xdp : Bool} {es : List TxEffect} {ps rs : List Packet}

/-- Two effects that a packet has as many times more and less balance, but for the packets on the
ring. -/
theorem balance {t f : TxEffect} {w : Packet → ℕ} (h : Books xdp es ps rs)
    (haccept : ∀ p, p.accepted.count t = p.accepted.count f + w p)
    (hrelease : ∀ p, p.released.count f = p.released.count t + w p)
    (hgiveUp : ∀ id maps, (givenUp id maps).count t = (givenUp id maps).count f)
    (hmark : ∀ slot p, w (p.mark slot) = w p) (ht : t.aside = false) (hf : f.aside = false) :
  es.count t = es.count f + (ps.map w).sum
  := by
  have hzero {es : List TxEffect} (hes : ∀ e ∈ es, e.aside = true) : es.count t = es.count f := by
    rw [count_aside ht hes, count_aside hf hes]
  have haside {e : TxEffect} (he : e.aside = true) : [e].count t = [e].count f :=
    hzero fun e' he' => List.mem_singleton.mp he' ▸ he
  induction h with
  | start => rfl
  | @accept es ps rs p _ _ ih =>
    rw [List.count_append, List.count_append, haccept, ih, List.map_append, List.sum_append,
      List.map_singleton, List.sum_singleton]
    omega
  | giveUp id maps _ ih =>
    rw [List.count_append, List.count_append, hgiveUp, ih]
    omega
  | done slot _ ih =>
    rw [List.count_append, List.count_append, haside rfl, ih, List.map_map]
    have hweights : (w ∘ Packet.mark slot) = w := funext (hmark slot)
    rw [hweights]
    omega
  | @release es ps rs p _ _ ih =>
    rw [List.count_append, List.count_append, hrelease, ih, List.map_cons, List.sum_cons]
    omega
  | report _ _ ih =>
    rw [List.count_append, List.count_append, haside rfl, ih]
    omega
  | unheard _ _ ih => exact ih
  | hang _ ih =>
    rw [List.count_append, List.count_append, haside rfl, ih]
    omega
  | @teardown es ps _ ih =>
    have hreset : (if xdp then [] else [TxEffect.resetQueue]).count t
        = (if xdp then [] else [TxEffect.resetQueue]).count f := by
      split
      · rfl
      · exact haside rfl
    have hall : ∀ ps : List Packet, (ps.flatMap Packet.released).count f
        = (ps.flatMap Packet.released).count t + (ps.map w).sum := by
      intro ps
      induction ps with
      | nil => rfl
      | cons p ps ih =>
        rw [List.flatMap_cons, List.count_append, List.count_append, hrelease, ih, List.map_cons,
          List.sum_cons]
        omega
    rw [List.count_append, List.count_append, List.count_append, List.count_append, hreset, hall, ih]
    simp only [List.map_nil, List.sum_nil]
    omega

/-- Every packet that was taken was freed once or is on the ring. -/
theorem count_ids (h : Books xdp es ps rs) (id : ℕ) :
  es.count (.take id) = es.count (.free id) + (ps.map Packet.id).count id
  := by
  have hbalance := h.balance (t := .take id) (f := .free id) (w := fun p => [p.id].count id)
    (fun p => (p.count_ids id).1) (fun p => (p.count_ids id).2)
    (fun id' maps => givenUp_count_ids id' maps id)
    (fun slot p => by simp only [(p.mark_same slot).1]) rfl rfl
  have hsum : (ps.map fun p => [p.id].count id).sum = (ps.map Packet.id).count id := by
    have hids : ps.map Packet.id = ps.flatMap fun p => [p.id] := List.map_eq_flatMap
    rw [hids, List.count_flatMap]
    rfl
  rw [hbalance, hsum]

/-- Every mapping that was made was undone once or is of a packet on the ring, unless it is
empty. -/
theorem count_maps (h : Books xdp es ps rs) {m : Mapping} (hm : m.len ≠ 0) :
  es.count (.map m) = es.count (.unmap m) + (ps.flatMap Packet.maps).count m
  := by
  have hbalance := h.balance (t := .map m) (f := .unmap m) (w := fun p => p.maps.count m)
    (fun p => (p.count_maps m).1) (fun p => (p.count_maps m).2)
    (fun id maps => givenUp_count_maps id maps hm)
    (fun slot p => by simp only [(p.mark_same slot).2.1]) rfl rfl
  have hsum : (ps.map fun p => p.maps.count m).sum = (ps.flatMap Packet.maps).count m := by
    rw [List.count_flatMap]
    rfl
  rw [hbalance, hsum]

end Books

end Ixgbevf.Tx
