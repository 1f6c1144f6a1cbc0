import Ixgbevf.Lib.Bits
import Ixgbevf.Tx.Ring

/-!
# Putting a packet on a Tx ring

The offload descriptors and `ixgbevf_tx_map`, up to its update of `next_to_use`.  A
packet that is put on the ring adds one segment at its end; a packet that is dropped leaves
the ring where it was (`xmitOffload_offloaded`, `txMap_placed`), at the first mapping that is
refused (`txMap_failed_first`).
-/

namespace Ixgbevf.Tx

open Cyclic

/-! ### Offloads -/

/-- What `ixgbevf_tso` does: it fails, leaves the packet alone, or writes a context
descriptor and reports the length of the headers. -/
inductive TsoResult where
  | error
  | skip
  | done (r : TxRing) (hdrLen : BitVec 8)

/-- `ixgbevf_tso` for the packet that starts in the slot `first`, where `cowFails` says that
`skb_cow_head` fails. -/
def tso (cowFails : Bool) (r : TxRing) (first : ℕ) (skb : Skb) : TsoResult :=
  if ¬ skb.csumPartial then .skip
  else if skb.gsoSize = 0 then .skip
  else if cowFails then .error
  else
    let typeTucmd := advtxdTucmdL4tTcp ||| (if skb.ipv4 then advtxdTucmdIpv4 else 0#32)
    let flags := txFlagsTso ||| txFlagsCsum ||| (if skb.ipv4 then txFlagsIpv4 else 0#32)
    let l4Offset := BitVec.ofNat 32 skb.csumStart
    -- the length is kept in a byte
    let hdrLen := BitVec.ofNat 8 (skb.doff * 4 + skb.csumStart)
    let r := r.setBuffer first fun b =>
      { b with
        txFlags := b.txFlags ||| flags
        gsoSegs := skb.gsoSegs
        bytecount := b.bytecount + (skb.gsoSegs - 1) * hdrLen.toNat }
    let mssL4lenIdx := ((hdrLen.setWidth 32 - l4Offset) <<< 8)
      ||| (BitVec.ofNat 32 skb.gsoSize <<< 16) ||| advtxdIdx1
    let vlanMacipLens := (l4Offset - BitVec.ofNat 32 skb.networkOffset)
      ||| (BitVec.ofNat 32 skb.networkOffset <<< 9)
      ||| ((r.buffer first).txFlags &&& txFlagsVlanMask)
    .done (r.txCtxtdesc vlanMacipLens typeTucmd mssL4lenIdx) hdrLen

/-- The layer 4 type that the context descriptor names for a partial checksum, or `none`
where the checksum is completed in software. -/
def csumType (protocol : BitVec 16) (skb : Skb) : Option (BitVec 32) :=
  if skb.csumOffset = 16 then some advtxdTucmdL4tTcp
  else if skb.csumOffset = 6 then some advtxdTucmdL4tUdp
  else if skb.csumOffset = 8 ∧ ((protocol = ethPIp ∧ skb.ipv4Sctp)
      ∨ (protocol = ethPIpv6 ∧ skb.ipv6Sctp)) then some advtxdTucmdL4tSctp
  else none

/-- The label `no_csum` of `ixgbevf_tx_csum`. -/
def noCsum (r : TxRing) (first : ℕ) (skb : Skb) (vlanMacipLens typeTucmd : BitVec 32) : TxRing :=
  r.txCtxtdesc
    (vlanMacipLens ||| (BitVec.ofNat 32 skb.networkOffset <<< 9)
      ||| ((r.buffer first).txFlags &&& txFlagsVlanMask)) typeTucmd 0#32

/-- `ixgbevf_tx_csum`. -/
def txCsum (r : TxRing) (first : ℕ) (skb : Skb) : TxRing × List TxAct :=
  if ¬ skb.csumPartial then
    (noCsum r first skb 0#32 0#32, [])
  else
    match csumType (r.buffer first).protocol skb with
    | none => (noCsum r first skb 0#32 0#32, [.checksumHelp skb.id])
    | some l4 =>
      let typeTucmd := l4 |||
        (if (r.buffer first).protocol = ethPIp then advtxdTucmdIpv4 else 0#32)
      let r := r.setBuffer first fun b => { b with txFlags := b.txFlags ||| txFlagsCsum }
      (noCsum r first skb
        (BitVec.ofNat 32 skb.csumStart - BitVec.ofNat 32 skb.networkOffset) typeTucmd, [])

/-- `ixgbevf_tx_cmd_type`. -/
def txCmdType (txFlags : BitVec 32) : BitVec 32 :=
  advtxdDtypData ||| advtxdDcmdIfcs ||| advtxdDcmdDext
    ||| (if txFlags &&& txFlagsVlan ≠ 0#32 then advtxdDcmdVle else 0#32)
    ||| (if txFlags &&& txFlagsTso ≠ 0#32 then advtxdDcmdTse else 0#32)

/-- `ixgbevf_tx_olinfo_status`. -/
def txOlinfoStatus (txFlags : BitVec 32) (paylen : BitVec 32) : BitVec 32 :=
  (paylen <<< 14)
    ||| (if txFlags &&& txFlagsCsum ≠ 0#32 then advtxdPoptsTxsm else 0#32)
    ||| (if txFlags &&& txFlagsIpv4 ≠ 0#32 then advtxdPoptsIxsm else 0#32)
    ||| (if txFlags &&& txFlagsTso ≠ 0#32 then advtxdIdx1 else 0#32)
    ||| advtxdCc

/-! ### Mapping -/

/-- Where the loop of `ixgbevf_tx_map` stands: the ring, the descriptor and the size that is
left for it. -/
structure MapState where
  /-- The ring. -/
  ring : TxRing
  /-- `i`, the position of `tx_desc`. -/
  i : ℕ
  /-- `size`. -/
  size : ℕ

/-- Move on to the next descriptor, after writing `cmd_type_len` of the present one. -/
def MapState.nextDesc (s : MapState) (cmdTypeLen : BitVec 32) : MapState :=
  let r := s.ring.setDesc s.i fun d => { d with cmdTypeLen := cmdTypeLen }
  let i := next r.count s.i
  { s with ring := r.setDesc i fun d => { d with olinfoStatus := 0#32 }, i := i }

/-- The inner loop, which spreads a buffer that is too large for one descriptor.  The fuel
is a bound on the size that is left. -/
def splitBuffer (cmdType : BitVec 32) : ℕ → BitVec 64 → MapState → MapState
  | 0, _, s => s
  | fuel + 1, dma, s =>
    if s.size > maxDataPerTxd then
      let s := s.nextDesc (cmdType ||| BitVec.ofNat 32 maxDataPerTxd)
      let dma := dma + BitVec.ofNat 64 maxDataPerTxd
      splitBuffer cmdType fuel dma
        { s with
          ring := s.ring.setDesc s.i fun d => { d with bufferAddr := dma }
          size := s.size - maxDataPerTxd }
    else s

/-- How the mapping loop ends: on the last descriptor, or with a mapping that failed. -/
inductive Mapped where
  | done (s : MapState)
  | failed (s : MapState)

/-- The loop of `ixgbevf_tx_map` over the head and the fragments.  `map` answers the
mappings in order, and `k` is the next one; `b` is the slot of `tx_buffer`. -/
def mapBuffers (map : ℕ → Option (BitVec 64)) (cmdType : BitVec 32) :
    List ℕ → ℕ → ℕ → MapState → Mapped
  | frags, k, b, s =>
    match map k with
    | none => .failed s
    | some dma =>
      let r := s.ring.setBuffer b fun t => { t with len := s.size, dma := dma }
      let r := r.setDesc s.i fun d => { d with bufferAddr := dma }
      let s := splitBuffer cmdType s.size dma { s with ring := r }
      match frags with
      | [] => .done s
      | frag :: frags =>
        if (frag :: frags).sum = 0 then .done s
        else
          let s := s.nextDesc (cmdType ||| BitVec.ofNat 32 s.size)
          mapBuffers map cmdType frags (k + 1) s.i { s with size := frag }

/-- The label `dma_error` of `ixgbevf_tx_map`: from the slot `i` back to `first`.  The fuel
is a bound on the distance. -/
def unmapBack (first : ℕ) : ℕ → ℕ → TxRing → TxRing × ℕ × List TxAct
  | 0, i, r => (r, i, [])
  | fuel + 1, i, r =>
    if i = first then (r, i, [])
    else
      let b := r.buffer i
      let act := if b.len ≠ 0 then [TxAct.unmapPage b.dma b.len] else []
      let r := r.setBuffer i fun b => { b with len := 0 }
      let (r, j, acts) := unmapBack first fuel (prev r.count i) r
      (r, j, act ++ acts)

/-- The end of `dma_error`: the head is unmapped, the packet is freed and the ring goes back
to the slot `i`. -/
def dropMapped (i : ℕ) (r : TxRing) : TxRing × List TxAct :=
  let b := r.buffer i
  let unmap := if b.len ≠ 0 then [TxAct.unmapSingle b.dma b.len] else []
  let free := b.skb.toList.map TxAct.freeSkb
  ({ r.setBuffer i fun b => { b with len := 0, skb := none } with nextToUse := i }, unmap ++ free)

/-- `ixgbevf_tx_map` up to its update of `next_to_use`: whether the packet was put on the
ring, the ring and what was done to the packet. -/
def txMap (map : ℕ → Option (BitVec 64)) (r : TxRing) (first : ℕ) (skb : Skb)
    (hdrLen : BitVec 8) : Bool × TxRing × List TxAct :=
  let txFlags := (r.buffer first).txFlags
  let cmdType := txCmdType txFlags
  let i := r.nextToUse
  let paylen := BitVec.ofNat 32 skb.len - hdrLen.setWidth 32
  let r := r.setDesc i fun d => { d with olinfoStatus := txOlinfoStatus txFlags paylen }
  match mapBuffers map cmdType skb.frags 0 first ⟨r, i, skb.headlen⟩ with
  | .failed s =>
    let (r, i, acts) := unmapBack first s.ring.count s.i s.ring
    let (r, acts') := dropMapped i r
    (false, r, acts ++ acts')
  | .done s =>
    -- the last descriptor asks for a report and ends the packet
    let r := s.ring.setDesc s.i fun d =>
      { d with cmdTypeLen := cmdType ||| BitVec.ofNat 32 s.size ||| txdCmd }
    let r := r.setBuffer first fun b => { b with nextToWatch := some s.i }
    (true, { r with nextToUse := next r.count s.i }, [])

/-- The flags and the protocol of a packet with its VLAN tag, or `none` where the packet
does not reach to its VLAN header. -/
def vlanFlags (skb : Skb) : Option (BitVec 32 × BitVec 16) :=
  match skb.vlanTag with
  | some tag => some ((tag.setWidth 32 <<< 16) ||| txFlagsVlan, skb.protocol)
  | none =>
    if skb.protocol = ethP8021q then
      skb.vlanHdr.map fun (tci, protocol) => (tci.setWidth 32 <<< 16, protocol)
    else
      some (0#32, skb.protocol)

/-- What happens to a packet before it is mapped: it is dropped, or its context descriptor is
on the ring. -/
inductive Offload where
  | dropped (r : TxRing)
  | ready (r : TxRing) (hdrLen : BitVec 8)

/-- The label `out_drop` of `ixgbevf_xmit_frame_ring`. -/
def outDrop (r : TxRing) (first : ℕ) : Offload × List TxAct :=
  (.dropped (r.setBuffer first fun b => { b with skb := none }),
    (r.buffer first).skb.toList.map TxAct.freeSkb)

/-- `ixgbevf_xmit_frame_ring` from the record of the first descriptor to its call of
`ixgbevf_tx_map`, with what is done to the packet. -/
def xmitOffload (cowFails : Bool) (r : TxRing) (skb : Skb) : Offload × List TxAct :=
  let first := r.nextToUse
  let r := r.setBuffer first fun b =>
    { b with skb := some skb.id, bytecount := skb.len, gsoSegs := 1 }
  match vlanFlags skb with
  | none => outDrop r first
  | some (txFlags, protocol) =>
    let r := r.setBuffer first fun b => { b with txFlags := txFlags, protocol := protocol }
    match tso cowFails r first skb with
    | .error => outDrop r first
    | .done r hdrLen => (.ready r hdrLen, [])
    | .skip =>
      let (r, acts) := txCsum r first skb
      (.ready r 0#8, acts)

/-! ### What stays the same -/

/-- The ring is the same but for the data of buffers that are not watched and for
descriptors, of which those that are not written back stay so. -/
structure TxRing.Same (r r' : TxRing) : Prop where
  /-- `count`. -/
  count : r'.count = r.count
  /-- `next_to_clean`. -/
  nextToClean : r'.nextToClean = r.nextToClean
  /-- `tail`. -/
  tail : r'.tail = r.tail
  /-- `next_to_watch`. -/
  watch : ∀ j, (r'.buffer j).nextToWatch = (r.buffer j).nextToWatch
  /-- `gso_segs` of the slots in which a packet starts. -/
  segs : ∀ j, (r.buffer j).nextToWatch ≠ none → (r'.buffer j).gsoSegs = (r.buffer j).gsoSegs
  /-- `status`. -/
  status : ∀ j, (r.desc j).olinfoStatus &&& txdStatDd = 0#32
    → (r'.desc j).olinfoStatus &&& txdStatDd = 0#32

/-- Nothing changes. -/
theorem TxRing.Same.refl (r : TxRing) :
  r.Same r
  := ⟨rfl, rfl, rfl, fun _ => rfl, fun _ _ => rfl, fun _ h => h⟩

/-- One change after another. -/
theorem TxRing.Same.trans {r r' r'' : TxRing} (h : r.Same r') (h' : r'.Same r'') :
  r.Same r''
  := by
  refine ⟨h'.count.trans h.count, h'.nextToClean.trans h.nextToClean, h'.tail.trans h.tail,
    fun j => (h'.watch j).trans (h.watch j), fun j hj => ?_, fun j hj => h'.status j (h.status j hj)⟩
  rw [h'.segs j (by rwa [h.watch]), h.segs j hj]

/-- A change of a buffer that keeps `gso_segs`. -/
theorem setBuffer_segs {r : TxRing} {i : ℕ} {f : TxBuffer → TxBuffer}
    (hs : ∀ b, (f b).gsoSegs = b.gsoSegs) (j : ℕ) :
  ((r.setBuffer i f).buffer j).gsoSegs = (r.buffer j).gsoSegs
  := by
  by_cases hj : j = i
  · subst hj
    simp [TxRing.setBuffer, hs]
  · simp [TxRing.setBuffer, hj]

/-- A change of a buffer that keeps `next_to_watch` and `gso_segs`. -/
theorem setBuffer_same {r : TxRing} {i : ℕ} {f : TxBuffer → TxBuffer}
    (hw : ∀ b, (f b).nextToWatch = b.nextToWatch) (hs : ∀ b, (f b).gsoSegs = b.gsoSegs) :
  r.Same (r.setBuffer i f)
  := by
  refine ⟨rfl, rfl, rfl, fun j => ?_, fun j _ => setBuffer_segs hs j, fun _ h => h⟩
  by_cases hj : j = i
  · subst hj
    simp [TxRing.setBuffer, hw]
  · simp [TxRing.setBuffer, hj]

/-- A change of a buffer in which no packet starts. -/
theorem setBuffer_same_of_unwatched {r : TxRing} {i : ℕ} {f : TxBuffer → TxBuffer}
    (hi : (r.buffer i).nextToWatch = none) (hw : ∀ b, (f b).nextToWatch = b.nextToWatch) :
  r.Same (r.setBuffer i f)
  := by
  refine ⟨rfl, rfl, rfl, fun j => ?_, fun j hne => ?_, fun _ h => h⟩
  · by_cases hj : j = i
    · subst hj
      simp [TxRing.setBuffer, hw]
    · simp [TxRing.setBuffer, hj]
  · by_cases hj : j = i
    · subst hj
      exact absurd hi hne
    · simp [TxRing.setBuffer, hj]

/-- A change of a descriptor that does not write it back. -/
theorem setDesc_same {r : TxRing} {i : ℕ} {g : TxDesc → TxDesc}
    (hg : (r.desc i).olinfoStatus &&& txdStatDd = 0#32
      → (g (r.desc i)).olinfoStatus &&& txdStatDd = 0#32) :
  r.Same (r.setDesc i g)
  := by
  refine ⟨rfl, rfl, rfl, fun _ => rfl, fun _ _ => rfl, fun j hj => ?_⟩
  by_cases hji : j = i
  · subst hji
    simpa [TxRing.setDesc] using hg hj
  · simpa [TxRing.setDesc, hji] using hj

/-- The status of a descriptor is not written back. -/
def TxRing.Clear (r : TxRing) (j : ℕ) : Prop :=
  (r.desc j).olinfoStatus &&& txdStatDd = 0#32

/-! ### Offloads -/

/-- A context descriptor with an index that has the lowest bit clear. -/
theorem txCtxtdesc_same
    (r : TxRing) (lens tucmd : BitVec 32) {idx : BitVec 32} (hidx : idx &&& txdStatDd = 0#32) :
  r.Same (r.txCtxtdesc lens tucmd idx) ∧ (r.txCtxtdesc lens tucmd idx).Clear r.nextToUse
  := by
  constructor
  · refine ⟨rfl, rfl, rfl, fun _ => rfl, fun _ _ => rfl, fun j hj => ?_⟩
    by_cases hji : j = r.nextToUse
    · subst hji
      simpa [TxRing.txCtxtdesc, TxRing.setDesc] using hidx
    · simpa [TxRing.txCtxtdesc, TxRing.setDesc, hji] using hj
  · simpa [TxRing.Clear, TxRing.txCtxtdesc, TxRing.setDesc] using hidx

/-- The index of a TSO context leaves the lowest bit clear. -/
theorem mssL4lenIdx_clear (a b : BitVec 32) :
  ((a <<< 8) ||| (b <<< 16) ||| advtxdIdx1) &&& txdStatDd = 0#32
  := by
  apply Bits.or_and_eq_zero (Bits.or_and_eq_zero _ _) (by decide)
  · apply Bits.shiftLeft_and_one _ (by decide)
  · apply Bits.shiftLeft_and_one _ (by decide)

/-- The status that a data descriptor starts with leaves the lowest bit clear. -/
theorem txOlinfoStatus_clear (txFlags paylen : BitVec 32) :
  txOlinfoStatus txFlags paylen &&& txdStatDd = 0#32
  := by
  have hbit {P : Prop} [Decidable P] {x : BitVec 32} (hx : x &&& txdStatDd = 0#32) :
      (if P then x else 0#32) &&& txdStatDd = 0#32 := by
    split
    · exact hx
    · rfl
  apply Bits.or_and_eq_zero _ (by decide)
  apply Bits.or_and_eq_zero _ (hbit (by decide))
  apply Bits.or_and_eq_zero _ (hbit (by decide))
  apply Bits.or_and_eq_zero _ (hbit (by decide))
  apply Bits.shiftLeft_and_one _ (by decide)

/-- What the stack promises of a packet, where `maxFrags` is `MAX_SKB_FRAGS`. -/
structure Skb.Ok (maxFrags : ℕ) (skb : Skb) : Prop where
  /-- The packet has at most so many fragments. -/
  frags : skb.frags.length ≤ maxFrags
  /-- No fragment is empty. -/
  frags_pos : ∀ frag ∈ skb.frags, 0 < frag
  /-- The length is limited, by `gso_max_size` for a GSO packet. -/
  len : skb.len ≤ 65536
  /-- A GSO packet has segments. -/
  segs : skb.gsoSize ≠ 0 → 0 < skb.gsoSegs

/-- The context descriptor of a packet: it takes the slot `next_to_use`, where no packet
was. -/
structure Offloaded (r r' : TxRing) : Prop where
  /-- What stays. -/
  same : r.Same r'
  /-- One slot is taken. -/
  nextToUse : r'.nextToUse = next r.count r.nextToUse
  /-- The slot is not written back. -/
  clear : r'.Clear r.nextToUse
  /-- The packet counts. -/
  segs : 0 < (r'.buffer r.nextToUse).gsoSegs

/-- Changes that leave the slot where it is may come before the context descriptor. -/
theorem Offloaded.after {r r₁ r' : TxRing} (h : Offloaded r₁ r') (hsame : r.Same r₁)
    (hnext : r₁.nextToUse = r.nextToUse) :
  Offloaded r r'
  := by
  obtain ⟨hsame', hnext', hclear, hsegs⟩ := h
  rw [hnext] at hclear hsegs
  refine ⟨hsame.trans hsame', ?_, hclear, hsegs⟩
  rw [hnext', hnext, hsame.count]

/-- The label `no_csum` writes a context descriptor. -/
theorem noCsum_offloaded {r : TxRing} (skb : Skb) (lens tucmd : BitVec 32)
    (hsegs : 0 < (r.buffer r.nextToUse).gsoSegs) :
  Offloaded r (noCsum r r.nextToUse skb lens tucmd)
  := by
  obtain ⟨hsame, hclear⟩ := txCtxtdesc_same r
    (lens ||| (BitVec.ofNat 32 skb.networkOffset <<< 9)
      ||| ((r.buffer r.nextToUse).txFlags &&& txFlagsVlanMask)) tucmd BitVec.zero_and
  exact ⟨hsame, rfl, hclear, hsegs⟩

/-- `ixgbevf_tx_csum` writes a context descriptor. -/
theorem txCsum_offloaded {r : TxRing} (skb : Skb)
    (hsegs : 0 < (r.buffer r.nextToUse).gsoSegs) :
  Offloaded r (txCsum r r.nextToUse skb).1
  := by
  unfold txCsum
  split
  · apply noCsum_offloaded skb _ _ hsegs
  · split
    · apply noCsum_offloaded skb _ _ hsegs
    · apply Offloaded.after (noCsum_offloaded skb _ _ _) (setBuffer_same _ _) rfl
      · simpa [TxRing.setBuffer] using hsegs
      · intro b
        rfl
      · intro b
        rfl

/-- `ixgbevf_tso` fails, leaves the packet alone, or writes a context descriptor. -/
theorem tso_offloaded {r r' : TxRing} {cowFails : Bool} {skb : Skb} {hdrLen : BitVec 8}
    (hsegs : skb.gsoSize ≠ 0 → 0 < skb.gsoSegs)
    (hfree : (r.buffer r.nextToUse).nextToWatch = none)
    (h : tso cowFails r r.nextToUse skb = .done r' hdrLen) :
  Offloaded r r'
  := by
  unfold tso at h
  split at h
  · cases h
  split at h
  · cases h
  split at h
  · cases h
  rename_i hgso _
  cases h
  have hctxt := fun r lens tucmd a b => txCtxtdesc_same r lens tucmd (mssL4lenIdx_clear a b)
  apply Offloaded.after ⟨(hctxt _ _ _ _ _).1, rfl, (hctxt _ _ _ _ _).2, _⟩
    (setBuffer_same_of_unwatched hfree _) rfl
  · simpa [TxRing.setBuffer, TxRing.txCtxtdesc] using hsegs hgso
  · intro b
    rfl

/-- A packet that is dropped before it is mapped leaves the ring where it was, and any other
one takes a slot for its context descriptor. -/
theorem xmitOffload_offloaded {r : TxRing} (cowFails : Bool) {skb : Skb}
    (hsegs : skb.gsoSize ≠ 0 → 0 < skb.gsoSegs)
    (hfree : (r.buffer r.nextToUse).nextToWatch = none) :
  (∃ r' acts, xmitOffload cowFails r skb = (.dropped r', acts)
      ∧ r.Same r' ∧ r'.nextToUse = r.nextToUse)
    ∨ ∃ r' hdrLen acts, xmitOffload cowFails r skb = (.ready r' hdrLen, acts) ∧ Offloaded r r'
  := by
  set r₁ := (r.setBuffer r.nextToUse fun b =>
    { b with skb := some skb.id, bytecount := skb.len, gsoSegs := 1 }) with hr₁
  have hsame₁ : r.Same r₁ := setBuffer_same_of_unwatched hfree fun _ => rfl
  have hdrop {r₂ : TxRing} (h : r.Same r₂) (hnext : r₂.nextToUse = r.nextToUse) :
      ∃ r' acts, outDrop r₂ r.nextToUse = (.dropped r', acts) ∧ r.Same r'
        ∧ r'.nextToUse = r.nextToUse := by
    refine ⟨_, _, rfl, h.trans (setBuffer_same ?_ ?_), hnext⟩
    · intro b
      rfl
    · intro b
      rfl
  unfold xmitOffload
  simp only [← hr₁]
  cases vlanFlags skb with
  | none => exact .inl (hdrop hsame₁ rfl)
  | some flags =>
    obtain ⟨txFlags, protocol⟩ := flags
    set r₂ := (r₁.setBuffer r.nextToUse fun b =>
      { b with txFlags := txFlags, protocol := protocol }) with hr₂
    have hsame₂ : r.Same r₂ := hsame₁.trans (setBuffer_same (fun _ => rfl) fun _ => rfl)
    have hfree₂ : (r₂.buffer r₂.nextToUse).nextToWatch = none := by
      rw [hsame₂.watch]
      exact hfree
    have hsegs₂ : 0 < (r₂.buffer r₂.nextToUse).gsoSegs := by
      simp [hr₂, hr₁, TxRing.setBuffer]
    simp only [← hr₂]
    cases htso : tso cowFails r₂ r.nextToUse skb with
    | error => exact .inl (hdrop hsame₂ rfl)
    | done r' hdrLen =>
      exact .inr ⟨_, _, _, rfl, (tso_offloaded hsegs hfree₂ htso).after hsame₂ rfl⟩
    | skip => exact .inr ⟨_, _, _, rfl, (txCsum_offloaded skb hsegs₂).after hsame₂ rfl⟩

/-! ### The mapping loop -/

/-- A change of a descriptor that keeps its status word. -/
theorem setDesc_olinfo {r : TxRing} {i : ℕ} {g : TxDesc → TxDesc}
    (hg : ∀ d, (g d).olinfoStatus = d.olinfoStatus) (j : ℕ) :
  ((r.setDesc i g).desc j).olinfoStatus = (r.desc j).olinfoStatus
  := by
  by_cases hj : j = i
  · subst hj
    simp [TxRing.setDesc, hg]
  · simp [TxRing.setDesc, hj]

/-- The descriptors that a buffer of `size` bytes takes. -/
def descsOf (size : ℕ) : ℕ := max 1 (txdUseCount size)

/-- The mapping loop goes from `s` to `s'` in `n` steps around the ring. -/
structure MapState.Advance (s : MapState) (n : ℕ) (s' : MapState) : Prop where
  /-- What stays. -/
  same : s.ring.Same s'.ring
  /-- `next_to_use` stays. -/
  nextToUse : s'.ring.nextToUse = s.ring.nextToUse
  /-- `gso_segs` stays, in whatever slot. -/
  segs : ∀ j, (s'.ring.buffer j).gsoSegs = (s.ring.buffer j).gsoSegs
  /-- The slots that are passed. -/
  i : s'.i = ahead s.ring.count s.i n
  /-- The status words of the other slots stay. -/
  others : ∀ j, (∀ m, 0 < m → m ≤ n → j ≠ ahead s.ring.count s.i m)
    → (s'.ring.desc j).olinfoStatus = (s.ring.desc j).olinfoStatus
  /-- The descriptors that are passed are not written back, if the first one is not. -/
  clear : s.ring.Clear s.i → ∀ m ≤ n, s'.ring.Clear (ahead s.ring.count s.i m)

namespace MapState.Advance

variable {s s' s'' : MapState} {n m : ℕ}

/-- Changes that stay in the slot. -/
theorem stay (hi : s.i < s.ring.count) (hsame : s.ring.Same s'.ring)
    (hnext : s'.ring.nextToUse = s.ring.nextToUse)
    (hsegs : ∀ j, (s'.ring.buffer j).gsoSegs = (s.ring.buffer j).gsoSegs) (hs : s'.i = s.i)
    (hothers : ∀ j, (s'.ring.desc j).olinfoStatus = (s.ring.desc j).olinfoStatus) :
  s.Advance 0 s'
  := by
  refine ⟨hsame, hnext, hsegs, by rw [hs, ahead_zero hi], fun j _ => hothers j, fun h m hm => ?_⟩
  obtain rfl := Nat.le_zero.mp hm
  rw [ahead_zero hi]
  exact hsame.status _ h

/-- Steps after steps. -/
theorem trans (h : s.Advance n s') (h' : s'.Advance m s'') (hi : s.i < s.ring.count)
    (hn : n + m ≤ s.ring.count) :
  s.Advance (n + m) s''
  := by
  refine ⟨h.same.trans h'.same, h'.nextToUse.trans h.nextToUse,
    fun j => (h'.segs j).trans (h.segs j), ?_, fun j hj => ?_, fun hclear k hk => ?_⟩
  · rw [h'.i, h.same.count, h.i, ahead_ahead hi hn]
  · rw [h'.others j, h.others j]
    · intro k hk hkn
      exact hj k hk (by omega)
    · intro k hk hkm
      rw [h.same.count, h.i, ahead_ahead hi (by omega)]
      exact hj (n + k) (by omega) (by omega)
  · rcases Nat.le_total k n with hkn | hkn
    · exact h'.same.status _ (h.clear hclear k hkn)
    · have hstart : s'.ring.Clear s'.i := by
        rw [h.i]
        exact h.clear hclear n (Nat.le_refl n)
      have hpassed := h'.clear hstart (k - n) (by omega)
      rwa [h.same.count, h.i, ahead_ahead hi (by omega), Nat.add_sub_cancel' hkn] at hpassed

/-- The slot is on the ring. -/
theorem i_lt (h : s.Advance n s') (hi : s.i < s.ring.count) (hn : n ≤ s.ring.count) :
  s'.i < s'.ring.count
  := by
  rw [h.i, h.same.count]
  exact ahead_lt hi hn

end MapState.Advance

/-- Moving on to the next descriptor is one step. -/
theorem nextDesc_advance {s : MapState} (cmdTypeLen : BitVec 32) (hi : s.i < s.ring.count) :
  s.Advance 1 (s.nextDesc cmdTypeLen)
  := by
  have hcmd : s.ring.Same (s.ring.setDesc s.i fun d => { d with cmdTypeLen := cmdTypeLen }) :=
    setDesc_same id
  have hsame : s.ring.Same (s.nextDesc cmdTypeLen).ring := by
    apply hcmd.trans
    apply setDesc_same (i := next s.ring.count s.i) (g := fun d => { d with olinfoStatus := 0#32 })
    intro _
    simp
  refine ⟨hsame, rfl, fun _ => rfl, ?_, fun j hj => ?_, fun hclear m hm => ?_⟩
  · rw [ahead_one hi]
    rfl
  · have hne := hj 1 Nat.one_pos (Nat.le_refl 1)
    rw [ahead_one hi] at hne
    rw [← setDesc_olinfo (r := s.ring) (i := s.i) (g := fun d => { d with cmdTypeLen := cmdTypeLen })
      (fun _ => rfl) j]
    simp [MapState.nextDesc, TxRing.setDesc, hne]
  · rcases Nat.le_one_iff_eq_zero_or_eq_one.mp hm with rfl | rfl
    · rw [ahead_zero hi]
      exact hsame.status _ hclear
    · rw [ahead_one hi]
      simp [TxRing.Clear, MapState.nextDesc, TxRing.setDesc]

/-- Writing the address of a buffer stays in the slot. -/
theorem setAddr_advance {s : MapState} (addr : BitVec 64) (size : ℕ) (hi : s.i < s.ring.count) :
  s.Advance 0 ⟨s.ring.setDesc s.i fun d => { d with bufferAddr := addr }, s.i, size⟩
  := by
  have hsame : s.ring.Same (s.ring.setDesc s.i fun d => { d with bufferAddr := addr }) := by
    apply setDesc_same
    exact id
  refine .stay hi hsame rfl (fun _ => rfl) rfl ?_
  apply setDesc_olinfo (g := fun d => { d with bufferAddr := addr })
  intro _
  rfl

/-- The inner loop takes the descriptors of its buffer but for the last one. -/
theorem splitBuffer_advance {s : MapState} (cmdType : BitVec 32) {fuel : ℕ} (dma : BitVec 64)
    (hi : s.i < s.ring.count) (hfuel : s.size ≤ fuel) (hfit : descsOf s.size ≤ s.ring.count) :
  s.Advance (descsOf s.size - 1) (splitBuffer cmdType fuel dma s)
  := by
  induction fuel generalizing s dma with
  | zero =>
    rw [Nat.le_zero.mp hfuel]
    exact .stay hi (.refl _) rfl (fun _ => rfl) rfl fun _ => rfl
  | succ fuel ih =>
    rw [splitBuffer]
    split
    · rename_i hlarge
      have hdescs : descsOf s.size = descsOf (s.size - maxDataPerTxd) + 1 := by
        unfold descsOf txdUseCount maxDataPerTxd at *
        omega
      set s₁ := s.nextDesc (cmdType ||| BitVec.ofNat 32 maxDataPerTxd) with hs₁
      have h₁ : s.Advance 1 s₁ := nextDesc_advance _ hi
      have h₂ := h₁.trans (setAddr_advance (dma + BitVec.ofNat 64 maxDataPerTxd)
        (s₁.size - maxDataPerTxd) (h₁.i_lt hi (by omega))) hi (by omega)
      have hpos : 1 ≤ descsOf (s.size - maxDataPerTxd) := Nat.le_max_left _ _
      have hsum : descsOf s.size - 1 = 1 + (descsOf (s.size - maxDataPerTxd) - 1) := by
        omega
      rw [hsum]
      have hmax : 0 < maxDataPerTxd := by decide
      have hfuel' : s.size - maxDataPerTxd ≤ fuel := by omega
      have hfit' : descsOf (s.size - maxDataPerTxd) ≤ s.ring.count := by omega
      have hsteps : 1 + (descsOf (s.size - maxDataPerTxd) - 1) ≤ s.ring.count := by omega
      rw [← h₂.same.count] at hfit'
      exact h₂.trans (ih _ (h₂.i_lt hi (by omega)) hfuel' hfit') hi hsteps
    · rename_i hsmall
      have hdescs : descsOf s.size = 1 := by
        unfold descsOf txdUseCount maxDataPerTxd at *
        omega
      rw [hdescs]
      exact .stay hi (.refl _) rfl (fun _ => rfl) rfl fun _ => rfl

/-- A buffer takes its descriptors but for the last one. -/
theorem mapBuffer_advance {s : MapState} (cmdType : BitVec 32) (dma : BitVec 64) (b : ℕ)
    (hi : s.i < s.ring.count) (hfit : descsOf s.size ≤ s.ring.count) :
  s.Advance (descsOf s.size - 1) (splitBuffer cmdType s.size dma
    ⟨(s.ring.setBuffer b fun t => { t with len := s.size, dma := dma }).setDesc s.i
      fun d => { d with bufferAddr := dma }, s.i, s.size⟩)
  := by
  set r := s.ring.setBuffer b fun t => { t with len := s.size, dma := dma } with hr
  have hbuffer : s.ring.Same r := setBuffer_same (fun _ => rfl) fun _ => rfl
  have hsegs : ∀ j, (r.buffer j).gsoSegs = (s.ring.buffer j).gsoSegs := setBuffer_segs fun _ => rfl
  have haddr := (setAddr_advance (s := { s with ring := r }) dma s.size hi).same
  have hstay : s.Advance 0 ⟨r.setDesc s.i fun d => { d with bufferAddr := dma }, s.i, s.size⟩ := by
    refine .stay hi (hbuffer.trans haddr) rfl hsegs rfl ?_
    apply setDesc_olinfo (r := r) (g := fun d => { d with bufferAddr := dma })
    intro _
    rfl
  have hsplit := hstay.trans (splitBuffer_advance cmdType dma hi
    (Nat.le_refl _) hfit) hi (by have := hfit; simp only; omega)
  rwa [Nat.zero_add] at hsplit

/-- The mapping loop takes at most the descriptors of its buffers, the last one not counted. -/
theorem mapBuffers_advance
    (map : ℕ → Option (BitVec 64)) (cmdType : BitVec 32) (frags : List ℕ) (k b : ℕ)
    {s : MapState} (hi : s.i < s.ring.count)
    (hfit : descsOf s.size + (frags.map descsOf).sum ≤ s.ring.count) :
  ∃ n s', (mapBuffers map cmdType frags k b s = .done s'
      ∨ mapBuffers map cmdType frags k b s = .failed s')
    ∧ n < descsOf s.size + (frags.map descsOf).sum ∧ s.Advance n s'
  := by
  have hpos (size : ℕ) : 1 ≤ descsOf size := Nat.le_max_left _ _
  have hhead := hpos s.size
  induction frags generalizing k b s with
  | nil =>
    rw [mapBuffers]
    cases map k with
    | none => exact ⟨0, s, .inr rfl, by omega, .stay hi (.refl _) rfl (fun _ => rfl) rfl fun _ => rfl⟩
    | some dma =>
      refine ⟨_, _, .inl rfl, ?_, mapBuffer_advance cmdType dma b hi (by omega)⟩
      omega
  | cons frag frags ih =>
    rw [List.map_cons, List.sum_cons] at hfit ⊢
    have hfrag := hpos frag
    rw [mapBuffers]
    cases map k with
    | none => exact ⟨0, s, .inr rfl, by omega, .stay hi (.refl _) rfl (fun _ => rfl) rfl fun _ => rfl⟩
    | some dma =>
      have h₁ := mapBuffer_advance cmdType dma b hi (by omega)
      simp only
      set s₁ := splitBuffer cmdType s.size dma _ with hs₁
      split
      · exact ⟨_, _, .inl rfl, by omega, h₁⟩
      · have hi₁ := h₁.i_lt hi (by omega)
        have hnext : s₁.Advance 1
            { s₁.nextDesc (cmdType ||| BitVec.ofNat 32 s₁.size) with size := frag } := by
          obtain ⟨hsame, hnext, hsegs, hi, hothers, hclear⟩ :=
            nextDesc_advance (cmdType ||| BitVec.ofNat 32 s₁.size) hi₁
          exact ⟨hsame, hnext, hsegs, hi, hothers, hclear⟩
        have h₂ := h₁.trans hnext hi (by omega)
        have hcount := h₂.same.count
        have hrest : descsOf frag + (frags.map descsOf).sum ≤ s.ring.count := by omega
        rw [← hcount] at hrest
        obtain ⟨n, s', heq, hn, h₃⟩ := ih (k + 1)
          (s₁.nextDesc (cmdType ||| BitVec.ofNat 32 s₁.size)).i
          (h₂.i_lt hi (by omega)) hrest hfrag
        have hless : n < descsOf frag + (frags.map descsOf).sum := hn
        exact ⟨_, _, heq, by omega, h₂.trans h₃ hi (by omega)⟩

/-! ### The end of the mapping -/

/-- From the slot `m` steps after `first` the label `dma_error` goes back to `first`. -/
theorem unmapBack_first (r : TxRing) {first m : ℕ} (fuel : ℕ) (hfirst : first < r.count)
    (hm : m ≤ fuel) (hc : m < r.count) :
  ∃ r' acts, unmapBack first fuel (ahead r.count first m) r = (r', first, acts)
    ∧ r.Same r' ∧ r'.nextToUse = r.nextToUse
  := by
  induction fuel generalizing r m with
  | zero =>
    obtain rfl := Nat.le_zero.mp hm
    rw [ahead_zero hfirst]
    exact ⟨_, _, rfl, .refl _, rfl⟩
  | succ fuel ih =>
    rw [unmapBack]
    split
    · rename_i heq
      rw [heq]
      exact ⟨_, _, rfl, .refl _, rfl⟩
    · rename_i hne
      obtain ⟨m, rfl⟩ : ∃ k, m = k + 1 := by
        rcases m with _ | m
        · rw [ahead_zero hfirst] at hne
          exact absurd rfl hne
        · exact ⟨m, rfl⟩
      have hsame : r.Same (r.setBuffer (ahead r.count first (m + 1)) fun b => { b with len := 0 }) :=
        setBuffer_same (fun _ => rfl) fun _ => rfl
      obtain ⟨r', acts, heq, hsame', hnext⟩ := ih
        (r.setBuffer (ahead r.count first (m + 1)) fun b => { b with len := 0 })
        (m := m) hfirst (by omega) (Nat.lt_of_succ_lt hc)
      rw [TxRing.setBuffer_count] at heq
      simp only [TxRing.setBuffer_count, prev_ahead, heq]
      exact ⟨_, _, rfl, hsame.trans hsame', hnext⟩

/-- The end of `dma_error` changes buffers, and takes `next_to_use` to the slot. -/
theorem dropMapped_same (i : ℕ) (r : TxRing) :
  r.Same (dropMapped i r).1 ∧ (dropMapped i r).1.nextToUse = i
  := by
  have hsame : r.Same (r.setBuffer i fun b => { b with len := 0, skb := none }) :=
    setBuffer_same (fun _ => rfl) fun _ => rfl
  obtain ⟨hcount, hclean, htail, hwatch, hsegs, hstatus⟩ := hsame
  exact ⟨⟨hcount, hclean, htail, hwatch, hsegs, hstatus⟩, rfl⟩

/-- A packet is put on the ring in the `n` slots from `first` on. -/
structure TxRing.Placed (r : TxRing) (first n : ℕ) (r' : TxRing) : Prop where
  /-- `count`. -/
  count : r'.count = r.count
  /-- `next_to_clean`. -/
  nextToClean : r'.nextToClean = r.nextToClean
  /-- `tail`. -/
  tail : r'.tail = r.tail
  /-- `next_to_use` is past the packet. -/
  nextToUse : r'.nextToUse = ahead r.count first n
  /-- The last slot of the packet is watched from its first one. -/
  watch : (fun j => (r'.buffer j).nextToWatch)
    = Function.update (fun j => (r.buffer j).nextToWatch) first (some (ahead r.count first (n - 1)))
  /-- `gso_segs` of the slots in which a packet starts. -/
  segs : ∀ j, j = first ∨ (r.buffer j).nextToWatch ≠ none → (r'.buffer j).gsoSegs = (r.buffer j).gsoSegs
  /-- `status`. -/
  status : ∀ j, r.Clear j → r'.Clear j
  /-- The packet is not written back. -/
  clear : r.Clear first → ∀ m < n, r'.Clear (ahead r.count first m)

/-- The descriptors that the buffers of a packet take. -/
def Skb.descs (skb : Skb) : ℕ := descsOf skb.headlen + (skb.frags.map descsOf).sum

/-- A packet whose buffers are mapped is put on the ring by its last descriptor, the watch on
it and the new `next_to_use`. -/
theorem placed_of_advance
    {r r' : TxRing} {first n : ℕ} (cmd : BitVec 32) (hfirst : first < r.count)
    (hn : n + 1 < r.count) (hsame : r.Same r')
    (hsegs : ∀ j, (r'.buffer j).gsoSegs = (r.buffer j).gsoSegs)
    (hclear : r.Clear first → ∀ m ≤ n, r'.Clear (ahead r.count first m)) :
  r.Placed first (n + 1)
    { (r'.setDesc (ahead r.count first n) fun d => { d with cmdTypeLen := cmd }).setBuffer first
        fun b => { b with nextToWatch := some (ahead r.count first n) } with
      nextToUse := next r.count (ahead r.count first n) }
  := by
  set r₁ := r'.setDesc (ahead r.count first n) fun d => { d with cmdTypeLen := cmd } with hr₁
  have hcmd : r'.Same r₁ := by
    apply setDesc_same
    exact id
  have hsame₁ := hsame.trans hcmd
  refine ⟨hsame.count, hsame.nextToClean, hsame.tail, ?_, ?_, fun j _ => ?_, ?_, ?_⟩
  · exact next_ahead hfirst (by omega)
  · funext j
    by_cases hj : j = first
    · subst hj
      simp [TxRing.setBuffer]
    · simpa [TxRing.setBuffer, hj] using hsame₁.watch j
  · rw [← hsegs]
    apply setBuffer_segs (r := r₁) (i := first)
      (f := fun b => { b with nextToWatch := some (ahead r.count first n) })
    intro _
    rfl
  · exact hsame₁.status
  · intro h m hm
    exact hcmd.status _ (hclear h m (by omega))

/-- A packet whose context descriptor is in the slot `first` is put on the ring, or the ring
goes back to `first`. -/
theorem txMap_placed (map : ℕ → Option (BitVec 64)) {r : TxRing} {first : ℕ} (skb : Skb)
    (hdrLen : BitVec 8) (hfirst : first < r.count) (hnext : r.nextToUse = next r.count first)
    (hfit : skb.descs + 1 < r.count) :
  (∃ r' acts, txMap map r first skb hdrLen = (false, r', acts)
      ∧ r.Same r' ∧ r'.nextToUse = first)
    ∨ ∃ r' n, txMap map r first skb hdrLen = (true, r', [])
      ∧ n ≤ skb.descs + 1 ∧ 0 < n ∧ r.Placed first n r'
  := by
  have hi : r.nextToUse < r.count := by
    rw [hnext]
    exact next_lt hfirst
  rw [← ahead_one hfirst] at hnext
  set olinfoStatus := txOlinfoStatus (r.buffer first).txFlags
    (BitVec.ofNat 32 skb.len - hdrLen.setWidth 32) with holinfo
  set r₁ := r.setDesc r.nextToUse fun d => { d with olinfoStatus := olinfoStatus } with hr₁
  have hsame₁ : r.Same r₁ := by
    apply setDesc_same
    intro _
    apply txOlinfoStatus_clear
  have hclear₁ : r₁.Clear r.nextToUse := by
    simpa [TxRing.Clear, hr₁, TxRing.setDesc] using txOlinfoStatus_clear _ _
  obtain ⟨n, s', heq, hn, hadv⟩ := mapBuffers_advance map
    (txCmdType (r.buffer first).txFlags) skb.frags 0 first
    (s := ⟨r₁, r.nextToUse, skb.headlen⟩) hi (Nat.le_of_lt (Nat.lt_of_succ_lt hfit))
  have hn : n < skb.descs := hn
  have hcount : s'.ring.count = r.count := hadv.same.count
  have hi' : s'.i = ahead r.count first (n + 1) := by
    rw [hadv.i]
    change ahead r.count r.nextToUse n = _
    rw [hnext, ahead_ahead hfirst (by omega), Nat.add_comm]
  unfold txMap
  simp only [← holinfo, ← hr₁]
  rcases heq with heq | heq
  · refine .inr ⟨_, n + 2, by rw [heq], by omega, by omega, ?_⟩
    have hpassed : r.Clear first → ∀ m ≤ n + 1, s'.ring.Clear (ahead r.count first m) := by
      intro hclear m hm
      rcases m with _ | m
      · rw [ahead_zero hfirst]
        exact hadv.same.status _ (hsame₁.status _ hclear)
      · have h : s'.ring.Clear (ahead r.count r.nextToUse m) := hadv.clear hclear₁ m (by omega)
        rwa [hnext, ahead_ahead hfirst (by omega), Nat.add_comm] at h
    have hplaced := placed_of_advance (n := n + 1)
      (txCmdType (r.buffer first).txFlags ||| BitVec.ofNat 32 s'.size ||| txdCmd) hfirst
      (by omega) (hsame₁.trans hadv.same) hadv.segs hpassed
    rw [← hi', ← hcount] at hplaced
    exact hplaced
  · have hback := unmapBack_first s'.ring (m := n + 1) s'.ring.count
      (show first < s'.ring.count by omega) (by omega) (by omega)
    obtain ⟨r', acts, hback, hsame, -⟩ := hback
    rw [hcount, ← hi', ← hcount] at hback
    obtain ⟨hdrop, hfirst'⟩ := dropMapped_same first r'
    refine .inl ⟨(dropMapped first r').1, acts ++ (dropMapped first r').2, ?_, ?_, hfirst'⟩
    · simp only [heq, hback]
    · exact ((hsame₁.trans hadv.same).trans hsame).trans hdrop

/-! ### Mappings that fail -/

/-- A mapping loop that fails does so at the first mapping that is refused, with data left for
it. -/
theorem mapBuffers_failed_first {map : ℕ → Option (BitVec 64)} {cmdType : BitVec 32}
    {frags : List ℕ} {k b : ℕ} {s s' : MapState}
    (h : mapBuffers map cmdType frags k b s = .failed s') :
  ∃ n ≤ frags.length, map (k + n) = none ∧ (∀ j < n, map (k + j) ≠ none)
    ∧ (n ≠ 0 → (frags.drop (n - 1)).sum ≠ 0)
  := by
  induction frags generalizing k b s with
  | nil =>
    rw [mapBuffers] at h
    cases hmap : map k with
    | none => exact ⟨0, Nat.le_refl _, hmap, fun j hj => absurd hj (Nat.not_lt_zero j), by simp⟩
    | some dma =>
      rw [hmap] at h
      cases h
  | cons frag frags ih =>
    rw [mapBuffers] at h
    cases hmap : map k with
    | none => exact ⟨0, Nat.zero_le _, hmap, fun j hj => absurd hj (Nat.not_lt_zero j), by simp⟩
    | some dma =>
      simp only [hmap] at h
      split at h
      · cases h
      · rename_i hsum
        obtain ⟨n, hn, hnone, hsome, hdata⟩ := ih h
        refine ⟨n + 1, Nat.succ_le_succ hn, ?_, fun j hj => ?_, fun _ => ?_⟩
        · rwa [show k + (n + 1) = k + 1 + n by omega]
        · rcases j with _ | j
          · rw [Nat.add_zero, hmap]
            exact Option.some_ne_none dma
          · rw [show k + (j + 1) = k + 1 + j by omega]
            exact hsome j (Nat.lt_of_succ_lt_succ hj)
        · rcases n with _ | n
          · exact hsum
          · exact hdata (Nat.succ_ne_zero n)

/-- A packet is dropped by `ixgbevf_tx_map` at the first mapping that is refused. -/
theorem txMap_failed_first {map : ℕ → Option (BitVec 64)} {r r' : TxRing} {first : ℕ} {skb : Skb}
    {hdrLen : BitVec 8} {acts : List TxAct}
    (h : txMap map r first skb hdrLen = (false, r', acts)) :
  ∃ k ≤ skb.frags.length, map k = none ∧ (∀ j < k, map j ≠ none)
    ∧ (k ≠ 0 → (skb.frags.drop (k - 1)).sum ≠ 0)
  := by
  unfold txMap at h
  simp only at h
  split at h
  · rename_i s hfailed
    simpa only [Nat.zero_add] using mapBuffers_failed_first hfailed
  · cases h

end Ixgbevf.Tx
