import Ixgbevf.Tx.Context

/-!
# Checksums of transmitted packets

The checksum of a packet with `CHECKSUM_PARTIAL` is completed by the hardware, which is told
so by the descriptors, or by `skb_checksum_help`.  `resolved_iff` says for which packets one of
the two is the case when the packet is on the ring; the driver does not ask whether
`skb_checksum_help` succeeded.
-/

namespace Ixgbevf.Tx

open Cyclic

/-! ### Who completes the checksum -/

/-- The transport protocols whose checksums the hardware completes. -/
inductive Transport where
  | udp
  | tcp
  | sctp
  deriving DecidableEq, Repr

/-- The offset of the checksum in the transport header. -/
def Transport.csumOffset : Transport → ℕ
  | udp => 6
  | tcp => 16
  | sctp => 8

/-- The value of the L4T field that names the protocol. -/
def Transport.l4t : Transport → ℕ
  | udp => 0
  | tcp => 1
  | sctp => 2

/-- The L4T field of a context descriptor, bits 12 to 11 of `type_tucmd_mlhl`. -/
def l4tField (typeTucmd : BitVec 32) : ℕ := ((typeTucmd >>> 11) &&& 0x3#32).toNat

/-- The descriptor is an advanced context descriptor. -/
def TxDesc.IsContext (d : TxDesc) : Prop :=
  d.cmdTypeLen &&& 0x20f00000#32 = advtxdDcmdDext ||| advtxdDtypCtxt

/-- The descriptors in the slots `first` and `data` ask the hardware for the checksum of the
packet, with the protocol to which the checksum belongs. -/
def HardwareChecksum (r : TxRing) (first data : ℕ) (skb : Skb) : Prop :=
  (r.desc data).olinfoStatus &&& advtxdPoptsTxsm ≠ 0#32 ∧ (r.desc first).IsContext
    ∧ ∃ t : Transport, t.csumOffset = skb.csumOffset ∧ (t = .sctp → skb.ipv4Sctp ∨ skb.ipv6Sctp)
      ∧ l4tField (r.desc first).cmdTypeLen = t.l4t

/-- The checksum of a packet is left to the hardware, or it was completed by
`skb_checksum_help`, which `helpFails` says to fail. -/
def Resolved (helpFails : Bool) (r : TxRing) (first data : ℕ) (skb : Skb) (acts : List TxAct) :
    Prop :=
  HardwareChecksum r first data skb ∨ (.checksumHelp skb.id ∈ acts ∧ ¬ helpFails)

/-- The hardware knows the protocol of a packet that is not segmented: its checksum is that of
TCP, of UDP, or of an SCTP packet that is found to be one. -/
def Skb.KnownToHardware (skb : Skb) : Prop :=
  ∃ txFlags protocol, vlanFlags skb = some (txFlags, protocol) ∧ csumType protocol skb ≠ none

/-! ### The mapping loop -/

/-- Moving on to the next descriptor writes two descriptors. -/
theorem nextDesc_desc {s : MapState} (cmdTypeLen : BitVec 32) {j : ℕ} (hi : j ≠ s.i)
    (hnext : j ≠ next s.ring.count s.i) :
  (s.nextDesc cmdTypeLen).ring.desc j = s.ring.desc j
  := by simp [MapState.nextDesc, TxRing.setDesc, hi, hnext]

/-- The inner loop writes the descriptors of its buffer. -/
theorem splitBuffer_desc {s : MapState} (cmdType : BitVec 32) (fuel : ℕ) {j : ℕ} (dma : BitVec 64)
    (hi : s.i < s.ring.count) (hfit : descsOf s.size ≤ s.ring.count)
    (hj : ∀ m < descsOf s.size, j ≠ ahead s.ring.count s.i m) :
  (splitBuffer cmdType fuel dma s).ring.desc j = s.ring.desc j
  := by
  induction fuel generalizing s dma with
  | zero => rfl
  | succ fuel ih =>
    rw [splitBuffer]
    split
    · rename_i hlarge
      have hdescs : descsOf s.size = descsOf (s.size - maxDataPerTxd) + 1 := by
        unfold descsOf txdUseCount maxDataPerTxd at *
        omega
      have hpos : 1 ≤ descsOf (s.size - maxDataPerTxd) := Nat.le_max_left _ _
      have hj₀ := hj 0 (by omega)
      have hj₁ := hj 1 (by omega)
      rw [ahead_zero hi] at hj₀
      rw [ahead_one hi] at hj₁
      have hnext := nextDesc_desc (cmdType ||| BitVec.ofNat 32 maxDataPerTxd) hj₀ hj₁
      rw [← hnext]
      have hstep : ∀ m < descsOf (s.size - maxDataPerTxd),
          j ≠ ahead s.ring.count (next s.ring.count s.i) m := by
        intro m hm
        rw [← ahead_one hi, ahead_ahead hi (by omega)]
        exact hj (1 + m) (by omega)
      rw [ih]
      · exact Function.update_of_ne hj₁ _ _
      · exact next_lt hi
      · change descsOf (s.size - maxDataPerTxd) ≤ s.ring.count
        omega
      · exact hstep
    · rfl

/-- A buffer that is mapped writes its descriptors. -/
theorem mapBuffer_desc {s : MapState} (cmdType : BitVec 32) (dma : BitVec 64) (b : ℕ) {j : ℕ}
    (hi : s.i < s.ring.count) (hfit : descsOf s.size ≤ s.ring.count)
    (hj : ∀ m < descsOf s.size, j ≠ ahead s.ring.count s.i m) :
  (splitBuffer cmdType s.size dma
    ⟨(s.ring.setBuffer b fun t => { t with len := s.size, dma := dma }).setDesc s.i
      fun d => { d with bufferAddr := dma }, s.i, s.size⟩).ring.desc j = s.ring.desc j
  := by
  have hpos : 1 ≤ descsOf s.size := Nat.le_max_left _ _
  have hj₀ := hj 0 hpos
  rw [ahead_zero hi] at hj₀
  set r := (s.ring.setBuffer b fun t => { t with len := s.size, dma := dma }).setDesc s.i
    fun d => { d with bufferAddr := dma } with hr
  have hsplit := splitBuffer_desc (s := ⟨r, s.i, s.size⟩) cmdType s.size dma hi hfit hj
  rw [hsplit]
  exact Function.update_of_ne hj₀ _ _

/-- The mapping loop writes the descriptors of its buffers, and ends in one of them. -/
theorem mapBuffers_desc (map : ℕ → Option (BitVec 64)) (cmdType : BitVec 32) (frags : List ℕ)
    (k b : ℕ) {s s' : MapState} {j : ℕ} (hi : s.i < s.ring.count)
    (hfit : descsOf s.size + (frags.map descsOf).sum ≤ s.ring.count)
    (hj : ∀ m < descsOf s.size + (frags.map descsOf).sum, j ≠ ahead s.ring.count s.i m)
    (h : mapBuffers map cmdType frags k b s = .done s') :
  s'.ring.desc j = s.ring.desc j ∧ j ≠ s'.i
  := by
  have hpos (size : ℕ) : 1 ≤ descsOf size := Nat.le_max_left _ _
  induction frags generalizing k b s with
  | nil =>
    have hhead := hpos s.size
    rw [mapBuffers] at h
    rcases hmap : map k with _ | dma
    · rw [hmap] at h
      cases h
    · simp only [hmap] at h
      cases h
      have hadv := mapBuffer_advance cmdType dma b hi (by omega)
      refine ⟨mapBuffer_desc cmdType dma b hi (by omega) fun m hm => hj m (by omega), ?_⟩
      rw [hadv.i]
      exact hj _ (by omega)
  | cons frag frags ih =>
    have hhead := hpos s.size
    have hfrag := hpos frag
    rw [List.map_cons, List.sum_cons] at hfit hj
    rw [mapBuffers] at h
    rcases hmap : map k with _ | dma
    · rw [hmap] at h
      cases h
    · simp only [hmap] at h
      have hadv := mapBuffer_advance cmdType dma b hi (by omega)
      have hdesc := mapBuffer_desc cmdType dma b hi (by omega) fun m hm => hj m (by omega)
      set s₁ := splitBuffer cmdType s.size dma _ with hs₁
      have hlast : s₁.i = ahead s.ring.count s.i (descsOf s.size - 1) := hadv.i
      have hcount : s₁.ring.count = s.ring.count := hadv.same.count
      split at h
      · rw [Mapped.done.injEq] at h
        rw [← h]
        refine ⟨hdesc, ?_⟩
        rw [hlast]
        exact hj _ (by omega)
      · have hnext : next s₁.ring.count s₁.i = ahead s.ring.count s.i (descsOf s.size) := by
          rw [hcount, hlast, next_ahead hi (by omega), Nat.sub_add_cancel hhead]
        have hkept := nextDesc_desc (s := s₁) (j := j) (cmdType ||| BitVec.ofNat 32 s₁.size)
          (by rw [hlast]; exact hj _ (by omega)) (by rw [hnext]; exact hj _ (by omega))
        have hstep : ∀ m < descsOf frag + (frags.map descsOf).sum,
            j ≠ ahead s₁.ring.count (next s₁.ring.count s₁.i) m := by
          intro m hm
          rw [hnext, hcount, ahead_ahead hi (by omega)]
          exact hj _ (by omega)
        obtain ⟨hdesc', hne⟩ := ih _ _
          (s := { s₁.nextDesc (cmdType ||| BitVec.ofNat 32 s₁.size) with size := frag })
          (by change next s₁.ring.count s₁.i < s₁.ring.count
              rw [hnext, hcount]
              exact ahead_lt hi (by omega))
          (by change descsOf frag + (frags.map descsOf).sum ≤ s₁.ring.count
              omega)
          hstep h
        exact ⟨hdesc'.trans (hkept.trans hdesc), hne⟩

/-- Putting a packet on the ring leaves its context descriptor as it is. -/
theorem txMap_context {map : ℕ → Option (BitVec 64)} {r r' : TxRing} {first : ℕ} {skb : Skb}
    {hdrLen : BitVec 8} {acts : List TxAct} (hfirst : first < r.count)
    (hnext : r.nextToUse = next r.count first) (hfit : skb.descs + 1 < r.count)
    (h : txMap map r first skb hdrLen = (true, r', acts)) :
  r'.desc first = r.desc first
  := by
  have hi : r.nextToUse < r.count := by
    rw [hnext]
    exact next_lt hfirst
  have hother : ∀ m < skb.descs, first ≠ ahead r.count r.nextToUse m := by
    intro m hm
    rw [hnext, ← ahead_one hfirst, ahead_ahead hfirst (by omega), Ne, ← gap_eq_zero hfirst,
      gap_ahead hfirst (by omega)]
    omega
  have hne := hother 0 (Nat.lt_of_lt_of_le (Nat.le_max_left 1 _) (Nat.le_add_right _ _))
  rw [ahead_zero hi] at hne
  unfold txMap at h
  simp only at h
  split at h
  · cases h
  · rename_i s hdone
    have hslots : skb.descs ≤ r.count := Nat.le_of_lt (Nat.lt_of_succ_lt hfit)
    set r₁ := r.setDesc r.nextToUse _ with hr₁
    obtain ⟨hdesc, hlast⟩ := mapBuffers_desc map _ skb.frags 0 first
      (s := ⟨r₁, r.nextToUse, skb.headlen⟩) hi hslots hother hdone
    cases h
    change Function.update s.ring.desc s.i _ first = _
    rw [Function.update_of_ne hlast, hdesc]
    exact Function.update_of_ne hne _ _

/-! ### The offloads -/

/-- What is known of a packet whose context descriptor is on the ring: what the descriptor says
of its protocol, and whether the hardware will be asked for its checksum. -/
structure Asks (r r' : TxRing) (offload : Option (BitVec 32)) : Prop where
  /-- `count`. -/
  count : r'.count = r.count
  /-- The slot that is taken. -/
  nextToUse : r'.nextToUse = next r.count r.nextToUse
  /-- `IXGBE_TX_FLAGS_CSUM`. -/
  flag : (r'.buffer r.nextToUse).txFlags &&& txFlagsCsum ≠ 0#32 ↔ offload.isSome
  /-- `type_tucmd_mlhl`. -/
  context : ∀ tucmd, offload = some tucmd →
    (r'.desc r.nextToUse).cmdTypeLen = tucmd ||| advtxdDcmdDext ||| advtxdDtypCtxt

/-- A GSO packet is announced as TCP. -/
theorem xmitOffload_gso {r r' : TxRing} {skb : Skb} {cowFails : Bool} {hdrLen : BitVec 8}
    {acts : List TxAct} (hcsum : skb.csumPartial) (hgso : skb.gsoSize ≠ 0)
    (h : xmitOffload cowFails r skb = (.ready r' hdrLen, acts)) :
  acts = []
    ∧ Asks r r' (some (advtxdTucmdL4tTcp ||| if skb.ipv4 then advtxdTucmdIpv4 else 0#32))
  := by
  unfold xmitOffload at h
  cases hvlan : vlanFlags skb with
  | none =>
    rw [hvlan] at h
    cases h
  | some flags =>
    obtain ⟨txFlags, protocol⟩ := flags
    simp only [hvlan] at h
    cases cowFails with
    | true => simp [tso, hcsum, hgso, outDrop] at h
    | false =>
      simp only [tso, hcsum, hgso, not_true, if_false, Bool.false_eq_true] at h
      rw [Prod.mk.injEq, Offload.ready.injEq] at h
      obtain ⟨⟨rfl, -⟩, rfl⟩ := h
      refine ⟨rfl, rfl, rfl, ?_, ?_⟩
      · simp only [TxRing.txCtxtdesc, TxRing.setDesc, TxRing.setBuffer, Function.update_self,
          Option.isSome_some, iff_true]
        exact (Bits.or_and_ne_zero _ _ _).mpr (.inr (by split <;> decide))
      · rintro _ ⟨⟩
        simp [TxRing.txCtxtdesc, TxRing.setDesc, TxRing.setBuffer]

/-- A packet that is not segmented is announced as what `ixgbevf_tx_csum` finds, and otherwise
given to `skb_checksum_help`. -/
theorem xmitOffload_csum {r r' : TxRing} {skb : Skb} {cowFails : Bool} {hdrLen : BitVec 8}
    {acts : List TxAct} {txFlags : BitVec 32} {protocol : BitVec 16} (hcsum : skb.csumPartial)
    (hgso : skb.gsoSize = 0) (hvlan : vlanFlags skb = some (txFlags, protocol))
    (h : xmitOffload cowFails r skb = (.ready r' hdrLen, acts)) :
  acts = (if csumType protocol skb = none then [.checksumHelp skb.id] else [])
    ∧ Asks r r' ((csumType protocol skb).map fun l4 =>
      l4 ||| if protocol = ethPIp then advtxdTucmdIpv4 else 0#32)
  := by
  obtain ⟨hflags, hprotocol⟩ := recorded_buffer r skb txFlags protocol
  rw [xmitOffload_skip cowFails r (fun _ => hgso) hvlan] at h
  set r₁ := recorded r skb txFlags protocol with hr₁
  have huse : r.nextToUse = r₁.nextToUse := rfl
  have hclear := vlanFlags_csum hvlan
  rw [huse] at hflags hprotocol h
  cases hl4 : csumType protocol skb with
  | none =>
    rw [txCsum_bare (by rw [hprotocol, hl4]; exact fun _ => rfl)] at h
    rw [Prod.mk.injEq, Offload.ready.injEq] at h
    obtain ⟨⟨rfl, -⟩, rfl⟩ := h
    refine ⟨by rw [if_pos hcsum, if_pos rfl], rfl, rfl, ?_, by simp⟩
    change (r₁.buffer r₁.nextToUse).txFlags &&& _ ≠ _ ↔ _
    simp [hflags, hclear]
  | some l4 =>
    rw [txCsum_offload hcsum (by rw [hprotocol, hl4])] at h
    rw [Prod.mk.injEq, Offload.ready.injEq] at h
    obtain ⟨⟨rfl, -⟩, rfl⟩ := h
    refine ⟨by rw [if_neg (Option.some_ne_none l4)], rfl, rfl, ?_, ?_⟩
    · have hflag : ((r₁.buffer r₁.nextToUse).txFlags ||| txFlagsCsum) &&& txFlagsCsum ≠ 0#32 :=
        (Bits.or_and_ne_zero _ _ _).mpr (.inr (by decide))
      rw [huse]
      simpa [noCsum, TxRing.txCtxtdesc, TxRing.setDesc, TxRing.setBuffer] using hflag
    · rintro _ ⟨⟩
      set r₂ := r₁.setBuffer r₁.nextToUse fun b => { b with txFlags := b.txFlags ||| txFlagsCsum }
        with hr₂
      have hdesc := noCsum_desc r₂ skb
        (BitVec.ofNat 32 skb.csumStart - BitVec.ofNat 32 skb.networkOffset)
        (l4 ||| if (r₁.buffer r₁.nextToUse).protocol = ethPIp then advtxdTucmdIpv4 else 0#32)
      rw [hprotocol] at hdesc ⊢
      exact congrArg TxDesc.cmdTypeLen hdesc

/-- The hardware is asked for the checksum of a packet whose flags say so. -/
theorem txOlinfoStatus_txsm (txFlags paylen : BitVec 32) :
  txOlinfoStatus txFlags paylen &&& advtxdPoptsTxsm ≠ 0#32 ↔ txFlags &&& txFlagsCsum ≠ 0#32
  := by
  have hpaylen : (paylen <<< 14) &&& advtxdPoptsTxsm = 0#32 := by
    rw [show advtxdPoptsTxsm = BitVec.twoPow 32 9 by decide, BitVec.and_twoPow, if_neg]
    simp
  have hother {P : Prop} [Decidable P] {x : BitVec 32} (hx : x &&& advtxdPoptsTxsm = 0#32) :
      (if P then x else 0#32) &&& advtxdPoptsTxsm = 0#32 := by
    split
    · exact hx
    · rfl
  have hixsm := hother (P := txFlags &&& txFlagsIpv4 ≠ 0#32) (x := advtxdPoptsIxsm) (by decide)
  have hidx := hother (P := txFlags &&& txFlagsTso ≠ 0#32) (x := advtxdIdx1) (by decide)
  unfold txOlinfoStatus
  rw [Bits.or_and_ne_zero, Bits.or_and_ne_zero, Bits.or_and_ne_zero, Bits.or_and_ne_zero, hpaylen,
    hixsm, hidx, show advtxdCc &&& advtxdPoptsTxsm = 0#32 by decide]
  by_cases hflag : txFlags &&& txFlagsCsum ≠ 0#32
  · rw [if_pos hflag]
    exact ⟨fun _ => hflag, fun _ => .inl (.inl (.inl (.inr (by decide))))⟩
  · rw [if_neg hflag]
    simp [hflag]

/-- The word that names the protocol to the hardware. -/
def Transport.tucmd : Transport → BitVec 32
  | udp => advtxdTucmdL4tUdp
  | tcp => advtxdTucmdL4tTcp
  | sctp => advtxdTucmdL4tSctp

/-- What the hardware reads in a descriptor that announces a protocol. -/
theorem Transport.announced (t : Transport) (p : Prop) [Decidable p] {d : TxDesc}
    (hd : d.cmdTypeLen
      = (t.tucmd ||| if p then advtxdTucmdIpv4 else 0#32) ||| advtxdDcmdDext ||| advtxdDtypCtxt) :
  d.IsContext ∧ l4tField d.cmdTypeLen = t.l4t
  := by
  unfold TxDesc.IsContext
  rw [hd]
  split <;> cases t <;> decide

/-- The protocol that `ixgbevf_tx_csum` finds is the one to which the checksum belongs. -/
theorem csumType_transport {protocol : BitVec 16} {skb : Skb} {l4 : BitVec 32}
    (h : csumType protocol skb = some l4) :
  ∃ t : Transport, l4 = t.tucmd ∧ t.csumOffset = skb.csumOffset
    ∧ (t = .sctp → skb.ipv4Sctp ∨ skb.ipv6Sctp)
  := by
  unfold csumType at h
  split at h
  · rename_i hoffset
    cases h
    exact ⟨.tcp, rfl, hoffset.symm, by simp⟩
  split at h
  · rename_i hoffset
    cases h
    exact ⟨.udp, rfl, hoffset.symm, by simp⟩
  split at h
  · rename_i hsctp
    cases h
    obtain ⟨hoffset, ⟨-, hproto⟩ | ⟨-, hproto⟩⟩ := hsctp
    · exact ⟨.sctp, rfl, hoffset.symm, fun _ => .inl hproto⟩
    · exact ⟨.sctp, rfl, hoffset.symm, fun _ => .inr hproto⟩
  · cases h

/-! ### Packets on the ring -/

/-- What the hardware reads once the packet is on the ring. -/
theorem Asks.mapped {map : ℕ → Option (BitVec 64)} {r r₁ r₂ : TxRing} {skb : Skb}
    {hdrLen : BitVec 8} {acts : List TxAct} {offload : Option (BitVec 32)} (h : Asks r r₁ offload)
    (hmap : txMap map r₁ r.nextToUse skb hdrLen = (true, r₂, acts)) (hi : r.nextToUse < r.count)
    (hfit : skb.descs + 1 < r.count) :
  ((r₂.desc r₁.nextToUse).olinfoStatus &&& advtxdPoptsTxsm ≠ 0#32 ↔ offload.isSome)
    ∧ r₂.desc r.nextToUse = r₁.desc r.nextToUse
  := by
  have hcount := h.count
  have hnext : r₁.nextToUse = next r₁.count r.nextToUse := by
    rw [hcount]
    exact h.nextToUse
  have hi₁ : r₁.nextToUse < r₁.count := by
    rw [hnext, hcount]
    exact next_lt hi
  have holinfo := txMap_olinfo map r.nextToUse skb hdrLen hi₁ (by omega)
  rw [hmap] at holinfo
  refine ⟨?_, txMap_context (by omega) hnext (by omega) hmap⟩
  rw [holinfo, txOlinfoStatus_txsm]
  exact h.flag

/-- A packet that is announced has its checksum completed by the hardware when it is announced
as what it is. -/
theorem hardwareChecksum_iff {r : TxRing} {first data : ℕ} (skb : Skb) (t : Transport)
    (p : Prop) [Decidable p] (hasked : (r.desc data).olinfoStatus &&& advtxdPoptsTxsm ≠ 0#32)
    (hdesc : (r.desc first).cmdTypeLen
      = (t.tucmd ||| if p then advtxdTucmdIpv4 else 0#32) ||| advtxdDcmdDext ||| advtxdDtypCtxt) :
  HardwareChecksum r first data skb
    ↔ t.csumOffset = skb.csumOffset ∧ (t = .sctp → skb.ipv4Sctp ∨ skb.ipv6Sctp)
  := by
  obtain ⟨hcontext, hl4t⟩ := t.announced p hdesc
  constructor
  · rintro ⟨-, -, t', hoffset, hsctp, hl4t'⟩
    have heq : t' = t := by
      rw [hl4t] at hl4t'
      cases t <;> cases t' <;> first | rfl | cases hl4t'
    rw [← heq]
    exact ⟨hoffset, hsctp⟩
  · rintro ⟨hoffset, hsctp⟩
    exact ⟨hasked, hcontext, t, hoffset, hsctp, hl4t⟩

/-- The checksum of a packet that is put on the ring is left to the hardware or completed
exactly when it is the one of a segmented TCP packet, when the hardware knows its protocol, or
when `skb_checksum_help` succeeds. -/
theorem resolved_iff {map : ℕ → Option (BitVec 64)} {cowFails : Bool} {r r₁ r₂ : TxRing}
    {skb : Skb} {hdrLen : BitVec 8} {acts acts' : List TxAct} (helpFails : Bool)
    (hcsum : skb.csumPartial) (hoffload : xmitOffload cowFails r skb = (.ready r₁ hdrLen, acts))
    (hmap : txMap map r₁ r.nextToUse skb hdrLen = (true, r₂, acts'))
    (hi : r.nextToUse < r.count) (hfit : skb.descs + 1 < r.count) :
  Resolved helpFails r₂ r.nextToUse r₁.nextToUse skb acts
    ↔ if skb.gsoSize ≠ 0 then skb.csumOffset = 16 else skb.KnownToHardware ∨ ¬ helpFails
  := by
  by_cases hgso : skb.gsoSize = 0
  · rw [if_neg (by simp [hgso])]
    cases hvlan : vlanFlags skb with
    | none =>
      unfold xmitOffload at hoffload
      rw [hvlan] at hoffload
      cases hoffload
    | some flags =>
      obtain ⟨txFlags, protocol⟩ := flags
      obtain ⟨hacts, hasks⟩ := xmitOffload_csum hcsum hgso hvlan hoffload
      obtain ⟨hasked, hdesc⟩ := hasks.mapped hmap hi hfit
      cases hl4 : csumType protocol skb with
      | none =>
        rw [hl4] at hacts hasked
        have hno : ¬ HardwareChecksum r₂ r.nextToUse r₁.nextToUse skb := by
          rintro ⟨htxsm, -⟩
          simpa using hasked.mp htxsm
        have hunknown : ¬ skb.KnownToHardware := by
          rintro ⟨txFlags', protocol', hvlan', hknown⟩
          rw [hvlan] at hvlan'
          cases hvlan'
          exact hknown hl4
        unfold Resolved
        simp [hno, hunknown, hacts]
      | some l4 =>
        obtain ⟨t, rfl, hoffset, hsctp⟩ := csumType_transport hl4
        rw [hl4] at hasks hasked
        have hknown : skb.KnownToHardware := ⟨txFlags, protocol, hvlan, by simp [hl4]⟩
        have hcontext := hasks.context _ rfl
        rw [← hdesc] at hcontext
        have hhardware := (hardwareChecksum_iff skb t (protocol = ethPIp)
          (hasked.mpr rfl) hcontext).mpr ⟨hoffset, hsctp⟩
        exact ⟨fun _ => .inl hknown, fun _ => .inl hhardware⟩
  · rw [if_pos hgso]
    obtain ⟨rfl, hasks⟩ := xmitOffload_gso hcsum hgso hoffload
    obtain ⟨hasked, hdesc⟩ := hasks.mapped hmap hi hfit
    have hcontext := hasks.context _ rfl
    rw [← hdesc] at hcontext
    have hhardware := hardwareChecksum_iff skb .tcp skb.ipv4 (hasked.mpr rfl) hcontext
    constructor
    · rintro (hknown | ⟨hhelp, -⟩)
      · exact (hhardware.mp hknown).1.symm
      · cases hhelp
    · intro hoffset
      exact .inl (hhardware.mpr ⟨hoffset.symm, by simp⟩)

/-! ### Two packets -/

/-- An IPv4 packet of 60 bytes whose checksum is `csumOffset` bytes into its transport header. -/
def partialSkb (csumOffset : ℕ) : Skb where
  id := 1
  headlen := 60
  frags := []
  protocol := ethPIp
  vlanTag := none
  vlanHdr := none
  csumPartial := true
  gsoSize := 0
  gsoSegs := 0
  networkOffset := 14
  csumStart := 34
  csumOffset := csumOffset
  ipv4 := true
  doff := 5
  ipv4Sctp := false
  ipv6Sctp := false

/-- A UDP packet is left to the hardware. -/
theorem partialSkb_resolved :
  ∃ r₁ r₂, xmitOffload false emptyRing (partialSkb 6) = (.ready r₁ 0#8, [])
    ∧ txMap (fun _ => some 0#64) r₁ 0 (partialSkb 6) 0#8 = (true, r₂, [])
    ∧ Resolved true r₂ 0 r₁.nextToUse (partialSkb 6) []
  := by
  refine ⟨_, _, rfl, rfl, ?_⟩
  apply (@resolved_iff (fun _ => some 0#64) false emptyRing _ _ (partialSkb 6) 0#8 [] [] true rfl
    rfl rfl (by decide) (by decide)).mpr
  exact .inl ⟨_, _, rfl, by decide⟩

/-- An ICMPv6 packet for which `skb_checksum_help` fails is sent as it is. -/
theorem partialSkb_not_resolved :
  ¬ ∀ map cowFails r skb r₁ hdrLen acts r₂ acts' helpFails, skb.csumPartial →
    xmitOffload cowFails r skb = (.ready r₁ hdrLen, acts) →
    txMap map r₁ r.nextToUse skb hdrLen = (true, r₂, acts') → r.nextToUse < r.count →
    skb.descs + 1 < r.count → Resolved helpFails r₂ r.nextToUse r₁.nextToUse skb acts
  := by
  intro h
  rcases h (fun _ => some 0#64) false emptyRing (partialSkb 2) _ _ _ _ _ true rfl rfl rfl (by decide)
    (by decide) with ⟨htxsm, -⟩ | ⟨-, hhelp⟩
  · revert htxsm
    decide
  · exact hhelp rfl

end Ixgbevf.Tx
