import Ixgbevf.Tx.Headers

/-!
# Context descriptors of packets that are not segmented

`ixgbevf_tx_csum` puts the VLAN tag, the offset of the network header and the length of the
IP header into one word without masks.  `csumContext_iff` says that the word holds the three
exactly when the offset fits its field: `ixgbevf_features_check` takes the offloads away from
a packet whose offset does not, but the offset is written all the same.
-/

namespace Ixgbevf.Tx

open Cyclic

/-! ### Fields -/

/-- The IPLEN field, bits 8 to 0 of `vlan_macip_lens`. -/
def iplenField (vlanMacipLens : BitVec 32) : ℕ := (vlanMacipLens &&& 0x1ff#32).toNat

/-- The MACLEN field, bits 15 to 9 of `vlan_macip_lens`. -/
def maclenField (vlanMacipLens : BitVec 32) : ℕ := ((vlanMacipLens >>> 9) &&& 0x7f#32).toNat

/-- The VLAN field, bits 31 to 16 of `vlan_macip_lens`. -/
def vlanField (vlanMacipLens : BitVec 32) : ℕ := (vlanMacipLens >>> 16).toNat

/-- The word `vlan_macip_lens` of a context descriptor. -/
def TxDesc.vlanMacipLens (d : TxDesc) : BitVec 32 := d.bufferAddr.setWidth 32

/-- The word that is put together of the three, where the VLAN tag comes with the flags of the
packet. -/
theorem vlanMacipLens_toNat {iplen maclen : BitVec 32} (txFlags : BitVec 32)
    (hip : iplen.toNat < 2 ^ 9) (hmac : maclen.toNat < 2 ^ 7) :
  (iplen ||| (maclen <<< 9) ||| (txFlags &&& txFlagsVlanMask)).toNat
    = iplen.toNat + maclen.toNat * 2 ^ 9 + (txFlags >>> 16).toNat * 2 ^ 16
  := by
  have htag : txFlags &&& txFlagsVlanMask = (txFlags >>> 16) <<< 16 := by
    rw [BitVec.shiftLeft_ushiftRight]
    rfl
  have hlt : (txFlags >>> 16).toNat < 2 ^ 16 := by
    rw [BitVec.toNat_ushiftRight, Nat.shiftRight_eq_div_pow]
    omega
  have hlow : (iplen ||| maclen <<< 9).toNat = iplen.toNat + maclen.toNat * 2 ^ 9 :=
    Bits.toNat_or_shiftLeft hip (by omega)
  rw [htag, ← hlow]
  exact Bits.toNat_or_shiftLeft (by omega) (by omega)

/-- The fields of the word, where each of the three fits its field. -/
theorem vlanMacipLens_fields (iplen maclen txFlags : BitVec 32)
    (hip : iplen.toNat < 2 ^ 9) (hmac : maclen.toNat < 2 ^ 7) :
  let word := iplen ||| (maclen <<< 9) ||| (txFlags &&& txFlagsVlanMask)
  iplenField word = iplen.toNat ∧ maclenField word = maclen.toNat
    ∧ vlanField word = (txFlags >>> 16).toNat
  := by
  intro word
  have hword : word.toNat = _ := vlanMacipLens_toNat txFlags hip hmac
  have hlow : iplenField word = word.toNat % 2 ^ 9 := Bits.toNat_and_mask (k := 9) word (by decide)
  have hmid : maclenField word = (word >>> 9).toNat % 2 ^ 7 :=
    Bits.toNat_and_mask (k := 7) (word >>> 9) (by decide)
  refine ⟨?_, ?_, ?_⟩
  · omega
  · rw [hmid, BitVec.toNat_ushiftRight, Nat.shiftRight_eq_div_pow]
    omega
  · unfold vlanField
    rw [BitVec.toNat_ushiftRight, hword, Nat.shiftRight_eq_div_pow]
    omega

/-! ### Packets -/

/-- What the stack promises of a packet that is not segmented: it uses no offload that
`ixgbevf_features_check` takes away. -/
structure Skb.Stripped (skb : Skb) : Prop where
  /-- The packet is no GSO packet. -/
  gso : skb.gsoSize = 0
  /-- The start of the checksum is an offset in the packet. -/
  csumStart_lt : skb.csumStart < 2 ^ 16
  /-- The offloads that are left. -/
  enabled : ∃ encapsulation features,
    (skb.csumPartial → (featuresCheck skb encapsulation features).hwCsum
        ∨ (featuresCheck skb encapsulation features).sctpCrc)
      ∧ (skb.vlanTag.isSome → (featuresCheck skb encapsulation features).hwVlanCtagTx)

/-- A packet whose checksum is left to the hardware has short headers. -/
theorem Skb.Stripped.headers {skb : Skb} (h : skb.Stripped) (hcsum : skb.csumPartial)
    (hnetwork : skb.networkOffset < 2 ^ 32) :
  skb.networkOffset ≤ 127 ∧ skb.networkOffset ≤ skb.csumStart
    ∧ skb.csumStart - skb.networkOffset ≤ 511
  := by
  obtain ⟨encapsulation, features, hleft, -⟩ := h.enabled
  have hstart := h.csumStart_lt
  have hleft := hleft hcsum
  unfold featuresCheck at hleft
  simp only at hleft
  split at hleft
  · simp at hleft
  rename_i hmac
  split at hleft
  · simp at hleft
  rename_i hlen
  have hstart : skb.csumStart % 2 ^ 32 = skb.csumStart := Nat.mod_eq_of_lt (by omega)
  rw [gt_iff_lt, BitVec.lt_def, BitVec.toNat_ofNat, Nat.mod_eq_of_lt hnetwork,
    show maxMacHdrLen.toNat = 127 from rfl] at hmac
  rw [gt_iff_lt, BitVec.lt_def, BitVec.toNat_sub, BitVec.toNat_ofNat, BitVec.toNat_ofNat, hstart,
    Nat.mod_eq_of_lt hnetwork, show maxNetworkHdrLen.toNat = 511 from rfl] at hlen
  omega

/-- `ixgbevf_xmit_frame_ring` writes a context descriptor for a packet at `next_to_use` from
which its fields are read back: the VLAN tag of its flags, the offset of its network header
and, if the hardware is asked for its checksum, the length of its IP header. -/
def CsumContext (cowFails : Bool) (r : TxRing) (skb : Skb) : Prop :=
  ∃ txFlags protocol r' acts, vlanFlags skb = some (txFlags, protocol)
    ∧ xmitOffload cowFails r skb = (.ready r' 0#8, acts)
    ∧ vlanField (r'.desc r.nextToUse).vlanMacipLens = (txFlags >>> 16).toNat
    ∧ maclenField (r'.desc r.nextToUse).vlanMacipLens = skb.networkOffset
    ∧ ((r'.buffer r.nextToUse).txFlags &&& txFlagsCsum ≠ 0#32 →
      iplenField (r'.desc r.nextToUse).vlanMacipLens = skb.csumStart - skb.networkOffset)

/-! ### The descriptor -/

/-- The ring once `ixgbevf_xmit_frame_ring` has recorded a packet, its flags and its protocol. -/
def recorded (r : TxRing) (skb : Skb) (txFlags : BitVec 32) (protocol : BitVec 16) : TxRing :=
  (r.setBuffer r.nextToUse fun b =>
    { b with skb := some skb.id, bytecount := skb.len, gsoSegs := 1 }).setBuffer r.nextToUse
      fun b => { b with txFlags := txFlags, protocol := protocol }

/-- The flags and the protocol of a recorded packet. -/
theorem recorded_buffer (r : TxRing) (skb : Skb) (txFlags : BitVec 32) (protocol : BitVec 16) :
  ((recorded r skb txFlags protocol).buffer r.nextToUse).txFlags = txFlags
    ∧ ((recorded r skb txFlags protocol).buffer r.nextToUse).protocol = protocol
  := by simp [recorded, TxRing.setBuffer]

/-- A packet that is not segmented comes to `ixgbevf_tx_csum`. -/
theorem xmitOffload_skip {skb : Skb} {txFlags : BitVec 32} {protocol : BitVec 16}
    (cowFails : Bool) (r : TxRing) (hgso : skb.csumPartial → skb.gsoSize = 0)
    (hvlan : vlanFlags skb = some (txFlags, protocol)) :
  xmitOffload cowFails r skb
    = (.ready (txCsum (recorded r skb txFlags protocol) r.nextToUse skb).1 0#8,
      (txCsum (recorded r skb txFlags protocol) r.nextToUse skb).2)
  := by
  have hskip (r : TxRing) (first : ℕ) : tso cowFails r first skb = .skip := by
    unfold tso
    split
    · rfl
    · rename_i hcsum
      rw [if_pos (hgso (not_not.mp hcsum))]
  unfold xmitOffload
  simp only [hvlan, hskip]
  rfl

/-- The context descriptor that the label `no_csum` writes. -/
theorem noCsum_desc (r : TxRing) (skb : Skb) (lens tucmd : BitVec 32) :
  (noCsum r r.nextToUse skb lens tucmd).desc r.nextToUse
    = { bufferAddr := (lens ||| (BitVec.ofNat 32 skb.networkOffset <<< 9)
          ||| ((r.buffer r.nextToUse).txFlags &&& txFlagsVlanMask)).setWidth 64
        cmdTypeLen := tucmd ||| advtxdDcmdDext ||| advtxdDtypCtxt
        olinfoStatus := 0#32 }
  := by simp [noCsum, TxRing.txCtxtdesc, TxRing.setDesc]

/-- A packet whose checksum is not left to the hardware. -/
theorem txCsum_bare {r : TxRing} {first : ℕ} {skb : Skb}
    (h : skb.csumPartial → csumType (r.buffer first).protocol skb = none) :
  txCsum r first skb
    = (noCsum r first skb 0#32 0#32, if skb.csumPartial then [.checksumHelp skb.id] else [])
  := by
  unfold txCsum
  cases hcsum : skb.csumPartial with
  | false => simp
  | true => simp [h hcsum]

/-- A packet whose checksum is left to the hardware. -/
theorem txCsum_offload {r : TxRing} {first : ℕ} {skb : Skb} {l4 : BitVec 32}
    (hcsum : skb.csumPartial) (h : csumType (r.buffer first).protocol skb = some l4) :
  txCsum r first skb
    = (noCsum (r.setBuffer first fun b => { b with txFlags := b.txFlags ||| txFlagsCsum }) first skb
        (BitVec.ofNat 32 skb.csumStart - BitVec.ofNat 32 skb.networkOffset)
        (l4 ||| if (r.buffer first).protocol = ethPIp then advtxdTucmdIpv4 else 0#32), [])
  := by
  unfold txCsum
  simp [hcsum, h]

/-- The VLAN tag of a packet is all that its flags hold above the flag of the tag. -/
theorem vlanFlags_csum {skb : Skb} {txFlags : BitVec 32} {protocol : BitVec 16}
    (h : vlanFlags skb = some (txFlags, protocol)) :
  txFlags &&& txFlagsCsum = 0#32
  := by
  have htag (tag : BitVec 16) : (tag.setWidth 32 <<< 16) &&& txFlagsCsum = 0#32 :=
    Bits.shiftLeft_and_one _ (by decide)
  unfold vlanFlags at h
  split at h
  · rw [Option.some.injEq, Prod.mk.injEq] at h
    rw [← h.1]
    exact Bits.or_and_eq_zero (htag _) (by decide)
  · split at h
    · obtain ⟨hdr, -, hflags⟩ := Option.map_eq_some_iff.mp h
      rw [Prod.mk.injEq] at hflags
      rw [← hflags.1]
      exact htag _
    · rw [Option.some.injEq, Prod.mk.injEq] at h
      rw [← h.1]
      rfl

/-- The word of the descriptor that the label `no_csum` writes. -/
theorem noCsum_vlanMacipLens (r : TxRing) (skb : Skb) (lens tucmd : BitVec 32) :
  ((noCsum r r.nextToUse skb lens tucmd).desc r.nextToUse).vlanMacipLens
    = lens ||| (BitVec.ofNat 32 skb.networkOffset <<< 9)
      ||| ((r.buffer r.nextToUse).txFlags &&& txFlagsVlanMask)
  := by
  rw [noCsum_desc, TxDesc.vlanMacipLens, BitVec.setWidth_setWidth_of_le _ (by decide),
    BitVec.setWidth_eq]

/-- The offset of a network header as a word. -/
theorem toNat_networkOffset {skb : Skb} (h : skb.networkOffset ≤ 127) :
  (BitVec.ofNat 32 skb.networkOffset).toNat = skb.networkOffset
  := by
  rw [BitVec.toNat_ofNat, Nat.mod_eq_of_lt (by omega)]

/-- A packet that is not segmented has its three lengths in its context descriptor exactly when
the offset of its network header fits the field. -/
theorem csumContext_iff {skb : Skb} (cowFails : Bool) (r : TxRing) (h : skb.Stripped)
    (hreach : vlanFlags skb ≠ none) :
  CsumContext cowFails r skb ↔ skb.networkOffset ≤ 127
  := by
  obtain ⟨⟨txFlags, protocol⟩, hvlan⟩ := Option.ne_none_iff_exists'.mp hreach
  have hgso : skb.csumPartial → skb.gsoSize = 0 := fun _ => h.gso
  constructor
  · rintro ⟨-, -, r', acts, -, -, -, hmac, -⟩
    have hlt : maclenField (r'.desc r.nextToUse).vlanMacipLens < 2 ^ 7 := by
      have hmask := Bits.toNat_and_mask (k := 7)
        ((r'.desc r.nextToUse).vlanMacipLens >>> 9) (by decide)
      change maclenField _ = _ at hmask
      omega
    omega
  · intro hshort
    have hnetwork := toNat_networkOffset hshort
    have hskip := xmitOffload_skip cowFails r hgso hvlan
    obtain ⟨hflags, hprotocol⟩ := recorded_buffer r skb txFlags protocol
    have hclear := vlanFlags_csum hvlan
    set r₁ := recorded r skb txFlags protocol with hr₁
    have huse : r.nextToUse = r₁.nextToUse := rfl
    refine ⟨txFlags, protocol, _, _, hvlan, hskip, ?_⟩
    rw [huse] at hflags hprotocol ⊢
    by_cases hbare : skb.csumPartial → csumType protocol skb = none
    · rw [txCsum_bare (by rwa [hprotocol])]
      obtain ⟨-, hmac, hvlan⟩ := vlanMacipLens_fields 0#32 (BitVec.ofNat 32 skb.networkOffset)
        txFlags (by decide) (by omega)
      rw [noCsum_vlanMacipLens, hflags, hmac, hvlan]
      refine ⟨rfl, hnetwork, fun hoffload => absurd ?_ hoffload⟩
      exact hflags ▸ hclear
    · obtain ⟨hcsum, hne⟩ := Classical.not_imp.mp hbare
      obtain ⟨l4, hl4⟩ := Option.ne_none_iff_exists'.mp hne
      obtain ⟨-, hle, hip⟩ := h.headers hcsum (by omega)
      have hstart := h.csumStart_lt
      have hlens : (BitVec.ofNat 32 skb.csumStart - BitVec.ofNat 32 skb.networkOffset).toNat
          = skb.csumStart - skb.networkOffset := by
        rw [BitVec.toNat_sub_of_le _, hnetwork, BitVec.toNat_ofNat, Nat.mod_eq_of_lt (by omega)]
        rw [BitVec.le_def, hnetwork, BitVec.toNat_ofNat, Nat.mod_eq_of_lt (by omega)]
        exact hle
      rw [txCsum_offload hcsum (by rwa [hprotocol])]
      set r₂ := r₁.setBuffer r₁.nextToUse fun b => { b with txFlags := b.txFlags ||| txFlagsCsum }
        with hr₂
      have hflags₂ : (r₂.buffer r₂.nextToUse).txFlags = txFlags ||| txFlagsCsum := by
        simp [hr₂, TxRing.setBuffer, hflags]
      have htag : (txFlags ||| txFlagsCsum) >>> 16 = txFlags >>> 16 := by
        rw [BitVec.ushiftRight_or_distrib]
        exact BitVec.or_zero
      obtain ⟨hiplen, hmac, hvlan⟩ := vlanMacipLens_fields
        (BitVec.ofNat 32 skb.csumStart - BitVec.ofNat 32 skb.networkOffset)
        (BitVec.ofNat 32 skb.networkOffset) (txFlags ||| txFlagsCsum) (by omega) (by omega)
      rw [show r₁.nextToUse = r₂.nextToUse from rfl, noCsum_vlanMacipLens, hflags₂, hmac, hvlan,
        hiplen, htag]
      exact ⟨rfl, hnetwork, fun _ => hlens⟩

/-! ### Two packets -/

/-- A packet with its VLAN tag in the data, whose network header is `n` bytes in. -/
def taggedSkb (n : ℕ) : Skb where
  id := 1
  headlen := 1000
  frags := []
  protocol := ethP8021q
  vlanTag := none
  vlanHdr := some (2#16, ethPIp)
  csumPartial := false
  gsoSize := 0
  gsoSegs := 0
  networkOffset := n
  csumStart := 0
  csumOffset := 0
  ipv4 := true
  doff := 5
  ipv4Sctp := false
  ipv6Sctp := false

/-- The packet uses no offload. -/
theorem taggedSkb_stripped (n : ℕ) :
  (taggedSkb n).Stripped
  := by
  refine ⟨rfl, show 0 < 2 ^ 16 by decide, false, ⟨true, true, true, true, true, true⟩, ?_, ?_⟩
  · intro h
    cases h
  · intro h
    cases h

/-- A network header after one VLAN tag. -/
theorem taggedSkb_csumContext :
  CsumContext false emptyRing (taggedSkb 18)
  := by
  apply (csumContext_iff false emptyRing (taggedSkb_stripped 18) (by decide)).mpr
  decide

/-- A network header 128 bytes in changes the VLAN tag. -/
theorem taggedSkb_no_csumContext :
  ¬ ∀ cowFails r skb, skb.Stripped → vlanFlags skb ≠ none → CsumContext cowFails r skb
  := by
  intro h
  obtain ⟨txFlags, protocol, r', acts, hvlan, hready, htag, -⟩ :=
    h false emptyRing (taggedSkb 128) (taggedSkb_stripped 128) (by decide)
  have hflags : txFlags = 2#32 <<< 16 ∧ protocol = ethPIp := by
    change some (2#32 <<< 16, ethPIp) = some (txFlags, protocol) at hvlan
    rw [Option.some.injEq, Prod.mk.injEq] at hvlan
    exact ⟨hvlan.1.symm, hvlan.2.symm⟩
  obtain ⟨rfl, rfl⟩ := hflags
  rw [xmitOffload_skip false emptyRing (by decide) hvlan] at hready
  cases hready
  revert htag
  decide

end Ixgbevf.Tx
