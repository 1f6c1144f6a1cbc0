import Ixgbevf.Tx.Frames

/-!
# The capacity of a Tx ring

A ring of the stack or an XDP ring, with transmission and cleaning on it.  A transmission is
one step, as seen from the last time that it reads `next_to_clean`; a call of
`ixgbevf_clean_tx_irq` is cut into the packets that it cleans, and transmissions may come in
between.  A slot is occupied from the transmission that takes it until `next_to_clean` is
past it.
-/

namespace Ixgbevf.Tx

open Cyclic
open TxRing (Within)

/-! ### Transmission -/

/-- What `ixgbevf_xmit_xdp_ring` reads of a `struct xdp_buff`, and the answer of its mapping. -/
structure XdpBuff where
  /-- `data`. -/
  data : ℕ
  /-- `data_end - data`. -/
  len : ℕ
  /-- The answer of the mapping. -/
  map : Option (BitVec 64)

/-- The context descriptor of an XDP ring, with the `ETH_HLEN` of its frames. -/
def xdpContext : TxDesc where
  bufferAddr := 14#64 <<< 9
  cmdTypeLen := advtxdDcmdDext ||| advtxdDtypCtxt
  olinfoStatus := 0#32

/-- `ixgbevf_xmit_xdp_ring`, where `primed` is `__IXGBEVF_TX_XDP_RING_PRIMED`: the ring on
which the frame is sent, or `none` for `IXGBEVF_XDP_CONSUMED`. -/
def xmitXdpRing (r : TxRing) (primed : Bool) (xdp : XdpBuff) : Option TxRing :=
  if r.descUnused = 0 then none
  else xdp.map.map fun dma =>
    let buffer := r.nextToUse
    -- `data` and `skb` share a union
    let r := r.setBuffer buffer fun b =>
      { b with
        len := xdp.len
        dma := dma
        skb := some xdp.data
        bytecount := xdp.len
        gsoSegs := 1
        protocol := 0#16 }
    let (r, i) := if primed then (r, buffer) else (r.setDesc 0 fun _ => xdpContext, 1)
    let r := r.setDesc i fun _ =>
      { bufferAddr := dma
        cmdTypeLen := advtxdDtypData ||| advtxdDcmdDext ||| advtxdDcmdIfcs
          ||| (BitVec.ofNat 32 xdp.len ||| txdCmd)
        olinfoStatus := (BitVec.ofNat 32 xdp.len <<< 14) ||| advtxdCc }
    let r := r.setBuffer buffer fun b => { b with nextToWatch := some i }
    { r with nextToUse := next r.count i }

/-- `ixgbevf_xmit_frame_ring` on the ring. -/
def xmitFrameRing (r : TxRing) (c : Call) : TxRing :=
  if c.skb.protocol = ethPLldp then r
  else if r.descUnused < c.skb.size then r
  else
    match xmitOffload c.cowFails r c.skb with
    | (.dropped r, _) => r
    | (.ready r' hdrLen, _) => (txMap c.map r' r.nextToUse c.skb hdrLen).2.1

/-- A transmission that takes `n` slots, and writes only slots that are unused. -/
structure Sent (r : TxRing) (n : ℕ) (r' : TxRing) : Prop where
  /-- Only unused slots are written. -/
  within : r.Within r.nextToUse r.descUnused r'
  /-- The slots are unused. -/
  le : n ≤ r.descUnused
  /-- `next_to_use` is past the slots. -/
  use : r'.nextToUse = ahead r.count r.nextToUse n
  /-- The last slot is watched from the first one. -/
  watch : r'.watch = if n = 0 then r.watch
    else Function.update r.watch r.nextToUse (some (ahead r.count r.nextToUse (n - 1)))

/-- A transmission that takes no slots. -/
theorem Sent.none {r r' : TxRing} (huse : r.nextToUse < r.count)
    (hwithin : r.Within r.nextToUse r.descUnused r') (hnext : r'.nextToUse = r.nextToUse)
    (hwatch : r'.watch = r.watch) :
  Sent r 0 r'
  := by
  refine ⟨hwithin, Nat.zero_le _, ?_, by rw [hwatch, if_pos rfl]⟩
  rw [hnext, ahead_zero huse]

/-- A packet takes fewer slots than the driver asks for, unless its descriptors do not fit into
16 bits. -/
theorem Skb.descs_lt_size {skb : Skb} (hfrags : ∀ frag ∈ skb.frags, 0 < frag)
    (hcount : txdUseCount skb.headlen + (skb.frags.map txdUseCount).sum < 2 ^ 16) :
  skb.descs + 1 < skb.size
  := by
  unfold Skb.descs Skb.size
  rw [sum_descsOf hfrags, Nat.mod_eq_of_lt hcount]
  unfold descsOf
  omega

/-- What `ixgbevf_xmit_frame_ring` does to the ring. -/
theorem xmitFrameRing_sent {r : TxRing} {c : Call} (hclean : r.nextToClean < r.count)
    (huse : r.nextToUse < r.count) (hfrags : ∀ frag ∈ c.skb.frags, 0 < frag)
    (hcount : txdUseCount c.skb.headlen + (c.skb.frags.map txdUseCount).sum < 2 ^ 16) :
  ∃ n, Sent r n (xmitFrameRing r c)
  := by
  unfold xmitFrameRing
  split
  · exact ⟨0, .none huse (.refl r) rfl rfl⟩
  split
  · exact ⟨0, .none huse (.refl r) rfl rfl⟩
  rename_i hroom
  have hsize := c.skb.descs_lt_size hfrags hcount
  have hunused := TxRing.descUnused_eq hclean huse
  rcases xmitOffload_prepared c.cowFails r c.skb with
    ⟨r₁, acts, heq, h₁, hnext⟩ | ⟨r₁, hdrLen, acts, heq, h₁, hnext, -⟩
  · rw [heq]
    exact ⟨0, .none huse (h₁.within.mono (by omega)) hnext (funext h₁.watch)⟩
  · rw [heq]
    simp only
    have hcount₁ : r₁.count = r.count := h₁.within.count
    have hwatch₁ : r₁.watch = r.watch := funext h₁.watch
    rw [← hcount₁] at hnext
    rcases txMap_within c.map c.skb hdrLen (r := r₁) (by rwa [hcount₁]) hnext (by omega) with
      ⟨r₂, acts₂, heq₂, hsame, hback, h₂⟩ | ⟨r₂, n, heq₂, hn, hpos, hplaced, h₂⟩
    · rw [heq₂]
      have hwithin := (h₁.within.mono (by omega)).trans (h₂.mono (show _ ≤ r.descUnused by omega))
      exact ⟨0, .none huse hwithin hback ((funext hsame.watch).trans hwatch₁)⟩
    · rw [heq₂]
      refine ⟨n, (h₁.within.mono (by omega)).trans (h₂.mono (by omega)), by omega, ?_, ?_⟩
      · rw [← hcount₁]
        exact hplaced.nextToUse
      · rw [if_neg (by omega), ← hcount₁, ← hwatch₁]
        exact hplaced.watch

/-- A frame with its watch on the slot `i`. -/
theorem setBuffer_watch (r : TxRing) (b i : ℕ) :
  (r.setBuffer b fun t => { t with nextToWatch := some i }).watch
    = Function.update r.watch b (some i)
  := by
  funext j
  by_cases hj : j = b
  · subst hj
    simp [TxRing.watch, TxRing.setBuffer]
  · simp [TxRing.watch, TxRing.setBuffer, hj]

/-- What `ixgbevf_xmit_xdp_ring` does to the ring: the first frame takes the slots 0 and 1, and
any other one takes the slot `next_to_use`. -/
theorem xmitXdpRing_sent {r r' : TxRing} {primed : Bool} {xdp : XdpBuff}
    (hclean : r.nextToClean < r.count) (huse : r.nextToUse < r.count)
    (hunprimed : primed = false → r.nextToUse = 0 ∧ r.nextToClean = 0 ∧ 3 ≤ r.count)
    (h : xmitXdpRing r primed xdp = some r') :
  ∃ n, 0 < n ∧ Sent r n r'
  := by
  have hunused := TxRing.descUnused_eq hclean huse
  unfold xmitXdpRing at h
  split at h
  · cases h
  rename_i hroom
  rw [Option.map_eq_some_iff] at h
  obtain ⟨dma, -, rfl⟩ := h
  set r₁ := r.setBuffer r.nextToUse (fun b =>
    { b with
      len := xdp.len
      dma := dma
      skb := some xdp.data
      bytecount := xdp.len
      gsoSegs := 1
      protocol := 0#16 }) with hr₁
  have hfirst : gap r.count r.nextToUse r.nextToUse < r.descUnused := by
    rw [gap_self]
    omega
  have h₁ : r.Within r.nextToUse r.descUnused r₁ := .setBuffer _ hfirst
  have hwatch₁ : r₁.watch = r.watch := by
    funext j
    by_cases hj : j = r.nextToUse
    · subst hj
      simp [TxRing.watch, hr₁, TxRing.setBuffer]
    · simp [TxRing.watch, hr₁, TxRing.setBuffer, hj]
  cases primed with
  | true =>
    refine ⟨1, Nat.one_pos, ?_, by omega, (ahead_one huse).symm, ?_⟩
    · apply Within.use
      exact (h₁.trans (.setDesc _ hfirst)).trans (.setBuffer _ hfirst)
    · rw [if_neg Nat.one_ne_zero, Nat.sub_self, ahead_zero huse, ← hwatch₁]
      exact setBuffer_watch _ _ _
  | false =>
    obtain ⟨hzero, hzero', hcount⟩ := hunprimed rfl
    have hsecond : gap r.count r.nextToUse 1 < r.descUnused := by
      rw [hzero', hzero, gap_self] at hunused
      rw [hzero, gap, if_pos (Nat.zero_le 1)]
      omega
    have hnext : ahead r.count r.nextToUse 1 = 1 := by
      rw [hzero, ahead, if_pos (by omega)]
    refine ⟨2, Nat.two_pos, ?_, ?_, ?_, ?_⟩
    · apply Within.use
      refine ((h₁.trans (.setDesc _ ?_)).trans (.setDesc _ hsecond)).trans (.setBuffer _ hfirst)
      rw [← hzero]
      exact hfirst
    · rw [hzero', hzero, gap_self] at hunused
      omega
    · rw [← next_ahead huse (by omega), hnext]
      rfl
    · rw [if_neg (by decide), hnext, ← hwatch₁]
      exact setBuffer_watch _ _ _

/-! ### Runs -/

/-- A ring that transmission and cleaning share. -/
structure SharedRing where
  /-- The ring. -/
  ring : TxRing
  /-- `ring_is_xdp`. -/
  isXdp : Bool
  /-- `__IXGBEVF_TX_XDP_RING_PRIMED`. -/
  primed : Bool
  /-- The `i` and the `budget` of a call of `ixgbevf_clean_tx_irq`. -/
  cleaning : Option (ℕ × ℕ)

namespace SharedRing

/-- What happens on a ring. -/
inductive Event where
  /-- `ixgbevf_xmit_frame_ring` is called. -/
  | xmit (c : Call)
  /-- `ixgbevf_xmit_xdp_ring` is called. -/
  | xmitXdp (xdp : XdpBuff)
  /-- `ixgbevf_clean_tx_irq` is called. -/
  | clean
  /-- That call goes through its loop once. -/
  | cleanStep
  /-- The hardware writes a descriptor back. -/
  | writeBack (i : ℕ) (d : TxDesc)
  /-- `ixgbevf_configure_tx_ring`, on a ring with so many descriptors. -/
  | configure (count : ℕ)

/-- The event is a transmission. -/
def Event.transmits : Event → Bool
  | .xmit _ => true
  | .xmitXdp _ => true
  | _ => false

/-- The loop of `ixgbevf_clean_tx_irq` ends in the slot `i`. -/
def cleanEnd (s : SharedRing) (i : ℕ) : SharedRing :=
  { s with ring := { s.ring with nextToClean := i }, cleaning := none }

/-- The loop of `ixgbevf_clean_tx_irq` in the slot `i`. -/
def cleanLoop (s : SharedRing) (i budget : ℕ) : SharedRing :=
  match (s.ring.buffer i).nextToWatch with
  | none => s.cleanEnd i
  | some eop =>
    if (s.ring.desc eop).olinfoStatus &&& txdStatDd = 0#32 then s.cleanEnd i
    else
      let (r, i, _) := TxQueue.cleanPacket s.ring i eop
      let s := { s with ring := r }
      if budget - 1 = 0 then s.cleanEnd i else { s with cleaning := some (i, budget - 1) }

/-- `ixgbevf_configure_tx_ring` on a ring of `count` descriptors. -/
def configureTxRing (s : SharedRing) (count : ℕ) : SharedRing :=
  { s with
    ring :=
      { s.ring with
        count := count
        nextToUse := 0
        nextToClean := 0
        tail := 0
        buffer := fun _ => TxQueue.clearBuffer }
    primed := false }

/-- The ring after an event. -/
def next (s : SharedRing) : Event → SharedRing
  | .xmit c => { s with ring := xmitFrameRing s.ring c }
  | .xmitXdp xdp =>
    match xmitXdpRing s.ring s.primed xdp with
    | none => s
    | some r => { s with ring := r, primed := true }
  | .clean => { s with cleaning := some (s.ring.nextToClean, s.ring.count / 2) }
  | .cleanStep =>
    match s.cleaning with
    | none => s
    | some (i, budget) => s.cleanLoop i budget
  | .writeBack i d => { s with ring := s.ring.setDesc i fun _ => d }
  | .configure count => s.configureTxRing count

/-- A ring size between `IXGBEVF_MIN_TXD` and `IXGBEVF_MAX_TXD`. -/
def CountOk (count : ℕ) : Prop := 64 ≤ count ∧ count ≤ 4096

instance (count : ℕ) : Decidable (CountOk count) :=
  inferInstanceAs (Decidable (64 ≤ count ∧ count ≤ 4096))

/-- When an event may happen.  A ring has packets of the stack, whose fragments are not empty
and whose descriptors can be counted in 16 bits, or XDP frames; and it is cleaned by one call
at a time. -/
def Enabled (s : SharedRing) : Event → Prop
  | .xmit c => s.isXdp = false ∧ (∀ frag ∈ c.skb.frags, 0 < frag)
    ∧ txdUseCount c.skb.headlen + (c.skb.frags.map txdUseCount).sum < 2 ^ 16
  | .xmitXdp _ => s.isXdp = true
  | .clean => s.cleaning = none
  | .configure count => s.cleaning = none ∧ CountOk count
  | _ => True

/-- A ring after `ixgbevf_configure_tx_ring`. -/
structure Init (s : SharedRing) : Prop where
  /-- `count`. -/
  count : CountOk s.ring.count
  /-- `next_to_use`. -/
  nextToUse : s.ring.nextToUse = 0
  /-- `next_to_clean`. -/
  nextToClean : s.ring.nextToClean = 0
  /-- No packet is on the ring. -/
  watch : ∀ i, s.ring.watch i = none
  /-- No XDP frame was sent. -/
  primed : s.primed = false
  /-- No call is made. -/
  cleaning : s.cleaning = none

/-- The runs of a ring. -/
def system : TransSystem SharedRing Event where
  init := Init
  step s e s' := Enabled s e ∧ s' = next s e

/-! ### Occupied slots -/

/-- Where cleaning stands. -/
def front (s : SharedRing) : ℕ :=
  match s.cleaning with
  | none => s.ring.nextToClean
  | some (i, _) => i

/-- The slot `j` belongs to a packet on the ring, or to one that was cleaned since
`next_to_clean` was last written. -/
def Occupied (s : SharedRing) (j : ℕ) : Prop :=
  Covered s.ring.count s.ring.watch j
    ∨ gap s.ring.count s.ring.nextToClean j < gap s.ring.count s.ring.nextToClean s.front

instance (s : SharedRing) : DecidablePred s.Occupied := fun j =>
  inferInstanceAs (Decidable (Covered s.ring.count s.ring.watch j ∨ _))

/-- The occupied slots. -/
def occupied (s : SharedRing) : Finset ℕ := (Finset.range s.ring.count).filter s.Occupied

/-- The ring holds packets of the lengths `ps`. -/
structure Holds (s : SharedRing) (ps : List ℕ) : Prop where
  /-- `count`. -/
  count : CountOk s.ring.count
  /-- `next_to_clean` is on the ring. -/
  clean_lt : s.ring.nextToClean < s.ring.count
  /-- Cleaning stands on the ring. -/
  front_lt : s.front < s.ring.count
  /-- The packets. -/
  tiles : Tiles s.ring.count s.ring.watch s.front ps
  /-- `next_to_use` is past the packets. -/
  use : s.ring.nextToUse = ahead s.ring.count s.front ps.sum
  /-- The packets and those that were cleaned leave a slot free. -/
  room : gap s.ring.count s.ring.nextToClean s.front + ps.sum < s.ring.count
  /-- Before its first frame an XDP ring is as it was configured. -/
  unprimed : s.isXdp = true → s.primed = false →
    ps = [] ∧ s.ring.nextToUse = 0 ∧ s.ring.nextToClean = 0

/-- A ring that is configured holds no packets. -/
theorem init_holds {s : SharedRing} (h : Init s) :
  s.Holds []
  := by
  have hfront : s.front = 0 := by
    rw [front, h.cleaning]
    exact h.nextToClean
  have hcount := h.count.1
  refine ⟨h.count, ?_, ?_, .empty (by omega) fun j _ => h.watch j, ?_, ?_,
    fun _ _ => ⟨rfl, h.nextToUse, h.nextToClean⟩⟩
  · rw [h.nextToClean]
    omega
  · rw [hfront]
    omega
  · rw [h.nextToUse, hfront]
    exact (ahead_zero (by omega)).symm
  · rw [h.nextToClean, hfront, gap_self]
    simpa using (by omega : 0 < s.ring.count)

namespace Holds

variable {s : SharedRing} {ps : List ℕ}

/-- The way from `next_to_clean` to `next_to_use`. -/
theorem gap_use (h : s.Holds ps) :
  gap s.ring.count s.ring.nextToClean s.ring.nextToUse
    = gap s.ring.count s.ring.nextToClean s.front + ps.sum
  := by
  rw [h.use]
  exact gap_ahead_right h.clean_lt h.front_lt h.room

/-- `next_to_use` is on the ring. -/
theorem use_lt (h : s.Holds ps) :
  s.ring.nextToUse < s.ring.count
  := by
  rw [h.use]
  exact ahead_lt h.front_lt h.tiles.fit.le

/-- The occupied slots are those from `next_to_clean` to `next_to_use`. -/
theorem occupied_iff (h : s.Holds ps) {j : ℕ} (hj : j < s.ring.count) :
  s.Occupied j ↔ gap s.ring.count s.ring.nextToClean j
    < gap s.ring.count s.ring.nextToClean s.ring.nextToUse
  := by
  have hroom := h.room
  have hclean := h.clean_lt
  have hfront := h.front_lt
  rw [Occupied, h.tiles.covered_iff h.front_lt hj, h.gap_use]
  unfold gap at *
  split_ifs at * <;> omega

/-- The occupied slots and the unused ones are all but one. -/
theorem card_occupied (h : s.Holds ps) :
  s.occupied.card + s.ring.descUnused = s.ring.count - 1
  := by
  have hunused := TxRing.descUnused_eq h.clean_lt h.use_lt
  have hcard := card_gap_lt h.clean_lt (gap_lt h.clean_lt h.use_lt).le
  have heq : s.occupied = (Finset.range s.ring.count).filter fun j =>
      gap s.ring.count s.ring.nextToClean j
        < gap s.ring.count s.ring.nextToClean s.ring.nextToUse := by
    apply Finset.filter_congr
    intro j hj
    exact h.occupied_iff (Finset.mem_range.mp hj)
  rw [heq, hcard]
  omega

/-- A transmission writes no occupied slot. -/
theorem sent_occupied (h : s.Holds ps) {n : ℕ} {r : TxRing} (hsent : Sent s.ring n r) {j : ℕ}
    (hj : j ∈ s.occupied) :
  r.desc j = s.ring.desc j
  := by
  obtain ⟨hlt, hocc⟩ := Finset.mem_filter.mp hj
  rw [Finset.mem_range] at hlt
  rw [h.occupied_iff hlt] at hocc
  have hunused := TxRing.descUnused_eq h.clean_lt h.use_lt
  have hclean := h.clean_lt
  have huse := h.use_lt
  refine (hsent.within.kept j hlt ?_).2
  unfold gap at *
  split_ifs at * <;> omega

/-- What a transmission leaves as it is. -/
theorem sent_frame (h : s.Holds ps) {n : ℕ} {r : TxRing} (hsent : Sent s.ring n r) (primed : Bool) :
  CountOk r.count ∧ r.nextToClean < r.count
    ∧ ({ s with ring := r, primed := primed } : SharedRing).front = s.front
    ∧ s.front < r.count
  := by
  have hcount : r.count = s.ring.count := hsent.within.count
  have hclean : r.nextToClean = s.ring.nextToClean := hsent.within.nextToClean
  rw [hcount, hclean]
  refine ⟨h.count, h.clean_lt, ?_, h.front_lt⟩
  cases hcleaning : s.cleaning with
  | none => simp [front, hcleaning, hclean]
  | some c => simp [front, hcleaning]

/-- A transmission that takes no slots. -/
theorem sent_none (h : s.Holds ps) {r : TxRing} (hsent : Sent s.ring 0 r) {primed : Bool}
    (hprimed : s.isXdp = true → primed = false → s.primed = false) :
  { s with ring := r, primed := primed }.Holds ps
  := by
  set s' : SharedRing := { s with ring := r, primed := primed } with hs'
  have hcount : r.count = s.ring.count := hsent.within.count
  have hclean : r.nextToClean = s.ring.nextToClean := hsent.within.nextToClean
  have hwatch := hsent.watch
  have huse : r.nextToUse = s.ring.nextToUse := by
    rw [hsent.use, ahead_zero h.use_lt]
  rw [if_pos rfl] at hwatch
  obtain ⟨hcountOk, hcleanLt, hfront, hfrontLt⟩ := h.sent_frame hsent primed
  rw [← hfront] at hfrontLt
  refine ⟨hcountOk, hcleanLt, hfrontLt, ?_, ?_, ?_, fun hxdp hno => ?_⟩
  · change Tiles r.count r.watch s'.front ps
    rw [hcount, hfront, hwatch]
    exact h.tiles
  · change r.nextToUse = ahead r.count s'.front ps.sum
    rw [hcount, hfront, huse]
    exact h.use
  · change gap r.count r.nextToClean s'.front + ps.sum < r.count
    rw [hcount, hclean, hfront]
    exact h.room
  · obtain ⟨hps, huse', hclean'⟩ := h.unprimed hxdp (hprimed hxdp hno)
    exact ⟨hps, huse.trans huse', hclean.trans hclean'⟩

/-- A transmission that takes slots puts a packet on the ring. -/
theorem sent_packet (h : s.Holds ps) {n : ℕ} {r : TxRing} (hsent : Sent s.ring n r) (hn : 0 < n)
    {primed : Bool} (hprimed : s.isXdp = true → primed = true) :
  { s with ring := r, primed := primed }.Holds (ps ++ [n])
  := by
  set s' : SharedRing := { s with ring := r, primed := primed } with hs'
  have hcount : r.count = s.ring.count := hsent.within.count
  have hclean : r.nextToClean = s.ring.nextToClean := hsent.within.nextToClean
  have hunused := TxRing.descUnused_eq h.clean_lt h.use_lt
  have hle := hsent.le
  have hgap := h.gap_use
  have hroom := h.room
  have hwatch := hsent.watch
  rw [if_neg (by omega)] at hwatch
  have hsum : (ps ++ [n]).sum = ps.sum + n := by
    rw [List.sum_append, List.sum_singleton]
  obtain ⟨hcountOk, hcleanLt, hfront, hfrontLt⟩ := h.sent_frame hsent primed
  rw [← hfront] at hfrontLt
  refine ⟨hcountOk, hcleanLt, hfrontLt, ?_, ?_, ?_, fun hxdp hno => ?_⟩
  · change Tiles r.count r.watch s'.front (ps ++ [n])
    rw [hcount, hfront, hwatch, h.use]
    exact h.tiles.push h.front_lt hn (by omega)
  · change r.nextToUse = ahead r.count s'.front (ps ++ [n]).sum
    rw [hcount, hfront, hsent.use, h.use, hsum, ahead_ahead h.front_lt (by omega)]
  · change gap r.count r.nextToClean s'.front + (ps ++ [n]).sum < r.count
    rw [hcount, hclean, hfront, hsum]
    omega
  · have hno : primed = false := hno
    rw [hprimed hxdp] at hno
    cases hno

/-- A transmission puts its packet on the ring. -/
theorem sent (h : s.Holds ps) {n : ℕ} {r : TxRing} (hsent : Sent s.ring n r) {primed : Bool}
    (hprimed : s.isXdp = true → primed = false → n = 0 ∧ s.primed = false) :
  ∃ ps', { s with ring := r, primed := primed }.Holds ps'
  := by
  rcases Nat.eq_zero_or_pos n with rfl | hn
  · exact ⟨ps, h.sent_none hsent fun hxdp hno => (hprimed hxdp hno).2⟩
  · refine ⟨ps ++ [n], h.sent_packet hsent hn fun hxdp => ?_⟩
    cases hp : primed with
    | true => rfl
    | false => exact absurd (hprimed hxdp hp).1 (Nat.ne_of_gt hn)

/-- The loop of the cleaning ends. -/
theorem cleanEnd (h : s.Holds ps) :
  (s.cleanEnd s.front).Holds ps
  := by
  refine ⟨h.count, h.front_lt, h.front_lt, h.tiles, h.use, ?_, fun hxdp hno => ?_⟩
  · change gap s.ring.count s.front s.front + ps.sum < s.ring.count
    rw [gap_self, Nat.zero_add]
    exact h.tiles.fit
  · obtain ⟨rfl, huse, hclean⟩ := h.unprimed hxdp hno
    have hfront := h.use
    rw [List.sum_nil, ahead_zero h.front_lt] at hfront
    exact ⟨rfl, huse, hfront.symm.trans huse⟩

/-- The packet in the slot where cleaning stands ends where it is watched. -/
theorem watched (h : s.Holds ps) {eop : ℕ} (heop : (s.ring.buffer s.front).nextToWatch = some eop) :
  ∃ n ps', ps = n :: ps' ∧ 0 < n ∧ n < s.ring.count ∧ eop = ahead s.ring.count s.front (n - 1)
  := by
  rcases ps with _ | ⟨n, ps⟩
  · have hnone := h.tiles.front_none h.front_lt
    rw [TxRing.watch, heop] at hnone
    cases hnone
  · have hfit := h.tiles.fit
    have hn := h.tiles.pos n List.mem_cons_self
    have hfront := h.tiles.front h.front_lt
    rw [List.sum_cons] at hfit
    rw [TxRing.watch, heop, Option.some.injEq] at hfront
    exact ⟨n, ps, rfl, hn, by omega, hfront⟩

/-- The first packet is taken off the ring. -/
theorem cleaned {n : ℕ} (h : s.Holds (n :: ps)) :
  ∃ r acts, TxQueue.cleanPacket s.ring s.front (ahead s.ring.count s.front (n - 1))
      = (r, ahead s.ring.count s.front n, acts)
    ∧ Within s.front n s.ring r
    ∧ (∀ j < s.ring.count, gap s.ring.count s.front j < n → (r.buffer j).len = 0)
    ∧ ∀ b, SharedRing.Holds
      { s with ring := r, cleaning := some (ahead s.ring.count s.front n, b) } ps
  := by
  have htiles := h.tiles
  have hfrontLt := h.front_lt
  have hroom := h.room
  have huse := h.use
  have hn := htiles.pos n List.mem_cons_self
  have hfit := htiles.fit
  rw [List.sum_cons] at hfit hroom huse
  obtain ⟨r', acts, heq, hwithin, hnext, hwatch, hlen⟩ :=
    cleanPacket_zeroed s.ring hfrontLt hn (by omega)
  have hcount : r'.count = s.ring.count := hwithin.count
  have hclean : r'.nextToClean = s.ring.nextToClean := hwithin.nextToClean
  have hfront' : ahead s.ring.count s.front n < s.ring.count := ahead_lt hfrontLt (by omega)
  refine ⟨r', acts, heq, hwithin, hlen, fun b => ?_⟩
  refine ⟨?_, ?_, ?_, ?_, ?_, ?_, fun hxdp hno => ?_⟩
  · change CountOk r'.count
    rw [hcount]
    exact h.count
  · change r'.nextToClean < r'.count
    rw [hcount, hclean]
    exact h.clean_lt
  · change ahead s.ring.count s.front n < r'.count
    rwa [hcount]
  · change Tiles r'.count r'.watch (ahead s.ring.count s.front n) ps
    rw [hcount]
    exact (htiles.pop hfrontLt).congr hwatch
  · change r'.nextToUse = ahead r'.count (ahead s.ring.count s.front n) ps.sum
    rw [hcount, hnext, huse, ahead_ahead hfrontLt (by omega)]
  · change gap r'.count r'.nextToClean (ahead s.ring.count s.front n) + ps.sum < r'.count
    rw [hcount, hclean, gap_ahead_right h.clean_lt hfrontLt (by omega)]
    omega
  · obtain ⟨hps, -⟩ := h.unprimed hxdp hno
    cases hps

/-- A call of `ixgbevf_clean_tx_irq` goes through its loop. -/
theorem cleanLoop (h : s.Holds ps) {i budget : ℕ} (hc : s.cleaning = some (i, budget)) :
  ∃ ps', (s.cleanLoop i budget).Holds ps'
  := by
  have hi : s.front = i := by
    rw [front, hc]
  have hend := h.cleanEnd
  rw [hi] at hend
  unfold SharedRing.cleanLoop
  split
  · exact ⟨ps, hend⟩
  rename_i eop heop
  split
  · exact ⟨ps, hend⟩
  rw [← hi] at heop ⊢
  obtain ⟨n, ps, rfl, -, -, rfl⟩ := h.watched heop
  obtain ⟨r', acts, heq, -, -, hloop⟩ := h.cleaned
  rw [heq]
  simp only
  split
  · exact ⟨ps, (hloop 0).cleanEnd⟩
  · exact ⟨ps, hloop _⟩

end Holds

/-- A transmission takes unused slots, as many as it moves `next_to_use` on. -/
theorem transmits_sent {s s' : SharedRing} {ps : List ℕ} {e : Event} (h : s.Holds ps)
    (he : e.transmits = true) (hstep : system.step s e s') :
  ∃ n, Sent s.ring n s'.ring ∧ s' = { s with ring := s'.ring, primed := s'.primed }
    ∧ (s.isXdp = true → s'.primed = false → n = 0 ∧ s.primed = false)
  := by
  obtain ⟨henabled, rfl⟩ := hstep
  cases e with
  | xmit c =>
    obtain ⟨hxdp, hfrags, hcount⟩ := henabled
    obtain ⟨n, hsent⟩ := xmitFrameRing_sent h.clean_lt h.use_lt hfrags hcount
    refine ⟨n, hsent, rfl, fun hxdp' => ?_⟩
    rw [hxdp] at hxdp'
    cases hxdp'
  | xmitXdp xdp =>
    have hxdp : s.isXdp = true := henabled
    have hcount := h.count.1
    cases hxmit : xmitXdpRing s.ring s.primed xdp with
    | none =>
      simp only [next, hxmit]
      exact ⟨0, .none h.use_lt (.refl _) rfl rfl, trivial, fun _ hno => ⟨rfl, hno⟩⟩
    | some r =>
      simp only [next, hxmit]
      obtain ⟨n, -, hsent⟩ := xmitXdpRing_sent h.clean_lt h.use_lt
        (fun hno => ⟨(h.unprimed hxdp hno).2.1, (h.unprimed hxdp hno).2.2, by omega⟩) hxmit
      refine ⟨n, hsent, trivial, fun _ hno => ?_⟩
      cases hno
  | clean => cases he
  | cleanStep => cases he
  | writeBack i d => cases he
  | configure count => cases he

/-- Every step keeps packets on the ring. -/
theorem step_holds {s s' : SharedRing} {ps : List ℕ} {e : Event} (h : s.Holds ps)
    (hstep : system.step s e s') :
  ∃ ps', s'.Holds ps'
  := by
  by_cases he : e.transmits = true
  · obtain ⟨n, hsent, heq, hprimed⟩ := transmits_sent h he hstep
    rw [heq]
    exact h.sent hsent hprimed
  obtain ⟨henabled, rfl⟩ := hstep
  cases e with
  | xmit c => exact absurd rfl he
  | xmitXdp xdp => exact absurd rfl he
  | clean =>
    have hnone : s.cleaning = none := henabled
    have hfront : s.front = s.ring.nextToClean := by
      rw [front, hnone]
    obtain ⟨hcount, hclean, hfrontLt, htiles, huse, hroom, hunprimed⟩ := h
    rw [hfront] at hfrontLt htiles huse hroom
    exact ⟨ps, hcount, hclean, hfrontLt, htiles, huse, hroom, hunprimed⟩
  | cleanStep =>
    cases hc : s.cleaning with
    | none =>
      simp only [next, hc]
      exact ⟨ps, h⟩
    | some c =>
      simp only [next, hc]
      exact h.cleanLoop hc
  | writeBack i d => exact ⟨ps, h.count, h.clean_lt, h.front_lt, h.tiles, h.use, h.room, h.unprimed⟩
  | configure count =>
    obtain ⟨hnone, hcount⟩ := henabled
    exact ⟨[], init_holds ⟨hcount, rfl, rfl, fun _ => rfl, rfl, hnone⟩⟩

/-- In every run a ring holds packets. -/
theorem reachable_holds {s : SharedRing} (h : system.Reachable TransSystem.always s) :
  ∃ ps, s.Holds ps
  := by
  apply TransSystem.Reachable.invariant _ _ h
  · intro s hinit
    exact ⟨[], init_holds hinit⟩
  · rintro s e s' ⟨ps, hholds⟩ - hstep
    exact step_holds hholds hstep

/-- In every run the occupied slots and the unused ones are all but one slot of the ring, and
a transmission writes no occupied slot and moves `next_to_use` over unused slots only, so that
it does not come to `next_to_clean`.  The hardware may write any slot at any time, so a
descriptor that a transmission leaves as it is is one that it does not write. -/
theorem reachable_capacity {s : SharedRing} (h : system.Reachable TransSystem.always s) :
  s.occupied.card + s.ring.descUnused = s.ring.count - 1
    ∧ ∀ e s', e.transmits = true → system.step s e s' →
      (∀ j ∈ s.occupied, s'.ring.desc j = s.ring.desc j)
        ∧ ∃ n ≤ s.ring.descUnused,
          s'.ring.nextToUse = ahead s.ring.count s.ring.nextToUse n
            ∧ gap s.ring.count s.ring.nextToClean s'.ring.nextToUse
              = gap s.ring.count s.ring.nextToClean s.ring.nextToUse + n
  := by
  obtain ⟨ps, hholds⟩ := reachable_holds h
  refine ⟨hholds.card_occupied, fun e s' he hstep => ?_⟩
  obtain ⟨n, hsent, -⟩ := transmits_sent hholds he hstep
  have hunused := TxRing.descUnused_eq hholds.clean_lt hholds.use_lt
  have hle := hsent.le
  refine ⟨fun j hj => hholds.sent_occupied hsent hj, n, hle, hsent.use, ?_⟩
  rw [hsent.use]
  exact gap_ahead_right hholds.clean_lt hholds.use_lt (by omega)

/-- An XDP ring after `ixgbevf_configure_tx_ring`. -/
def freshXdp : SharedRing where
  ring := (TxQueue.fresh TxQueue.smallRing).ring
  isXdp := true
  primed := false
  cleaning := none

/-- A frame that is mapped. -/
def xdpFrame : Event := .xmitXdp ⟨1, 60, some 0x1000#64⟩

/-- The first frame on an XDP ring takes two slots. -/
theorem reachable_capacity_firstFrame :
  (freshXdp.next xdpFrame).occupied = {0, 1}
    ∧ (freshXdp.next xdpFrame).occupied.card + (freshXdp.next xdpFrame).ring.descUnused
      = (freshXdp.next xdpFrame).ring.count - 1
  := by
  have hinit : Init freshXdp := ⟨by decide, rfl, rfl, fun _ => rfl, rfl, rfl⟩
  have hstep : system.step freshXdp xdpFrame (freshXdp.next xdpFrame) := ⟨rfl, rfl⟩
  exact ⟨by decide +kernel, (reachable_capacity (.step (.init hinit) trivial hstep)).1⟩

end SharedRing

end Ixgbevf.Tx
