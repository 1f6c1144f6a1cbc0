import Ixgbevf.Lib.Bits
import Ixgbevf.Tx.Map

/-!
# Header lengths of segmented packets

The length of the headers that the hardware repeats before each segment goes through a
byte, into the L4LEN field of the context descriptor and out of the PAYLEN field of the
first data descriptor.  `tsoHeaders_iff` says that the three are right exactly when the
length fits the byte, which the limits of `ixgbevf_features_check` do not imply.
-/

namespace Ixgbevf.Tx

open Cyclic

/-! ### Features -/

/-- The features of `netdev_features_t` that `ixgbevf_features_check` reads or clears. -/
structure Features where
  /-- `NETIF_F_HW_CSUM`. -/
  hwCsum : Bool
  /-- `NETIF_F_SCTP_CRC`. -/
  sctpCrc : Bool
  /-- `NETIF_F_HW_VLAN_CTAG_TX`. -/
  hwVlanCtagTx : Bool
  /-- `NETIF_F_TSO`. -/
  tso : Bool
  /-- `NETIF_F_TSO6`. -/
  tso6 : Bool
  /-- `NETIF_F_TSO_MANGLEID`. -/
  tsoMangleid : Bool
  deriving DecidableEq, Repr

/-- `IXGBEVF_MAX_MAC_HDR_LEN`. -/
def maxMacHdrLen : BitVec 32 := 127#32

/-- `IXGBEVF_MAX_NETWORK_HDR_LEN`. -/
def maxNetworkHdrLen : BitVec 32 := 511#32

/-- `ixgbevf_features_check`, where `encapsulation` is the flag of the packet. -/
def featuresCheck (skb : Skb) (encapsulation : Bool) (features : Features) : Features :=
  let macHdrLen := BitVec.ofNat 32 skb.networkOffset
  let networkHdrLen := BitVec.ofNat 32 skb.csumStart - BitVec.ofNat 32 skb.networkOffset
  if macHdrLen > maxMacHdrLen then
    { features with
      hwCsum := false, sctpCrc := false, hwVlanCtagTx := false, tso := false, tso6 := false }
  else if networkHdrLen > maxNetworkHdrLen then
    { features with hwCsum := false, sctpCrc := false, tso := false, tso6 := false }
  else if encapsulation ∧ ¬ features.tsoMangleid then
    { features with tso := false }
  else features

/-! ### Fields -/

/-- The L4LEN field of a context descriptor, bits 15 to 8 of `mss_l4len_idx`. -/
def l4lenField (mssL4lenIdx : BitVec 32) : ℕ := ((mssL4lenIdx >>> 8) &&& 0xff#32).toNat

/-- The MSS field of a context descriptor, bits 31 to 16 of `mss_l4len_idx`. -/
def mssField (mssL4lenIdx : BitVec 32) : ℕ := (mssL4lenIdx >>> 16).toNat

/-- The PAYLEN field of a data descriptor, bits 31 to 14 of `olinfo_status`. -/
def paylenField (olinfoStatus : BitVec 32) : ℕ := (olinfoStatus >>> 14).toNat

/-- The length of the headers of a segmented packet. -/
def Skb.hdrLen (skb : Skb) : ℕ := skb.csumStart + 4 * skb.doff

/-- A GSO packet with a partial checksum for which `ixgbevf_features_check` leaves the
segmentation to the hardware. -/
structure Skb.Segmented (skb : Skb) : Prop where
  /-- The checksum is partial. -/
  csumPartial : skb.csumPartial
  /-- The packet is a GSO packet. -/
  gso : skb.gsoSize ≠ 0
  /-- `gso_size` has 16 bits. -/
  gsoSize_lt : skb.gsoSize < 2 ^ 16
  /-- `doff` has 4 bits. -/
  doff_lt : skb.doff < 2 ^ 4
  /-- The headers are in the packet. -/
  headers : skb.hdrLen ≤ skb.len
  /-- `gso_max_size`. -/
  len : skb.len ≤ 65536
  /-- The segmentation is left enabled. -/
  enabled : ∃ encapsulation features, (featuresCheck skb encapsulation features).tso
    ∨ (featuresCheck skb encapsulation features).tso6

/-- Where `ixgbevf_tso` writes a context descriptor for the packet at `next_to_use`, the
length it reports and the fields of the two descriptors are those of the headers. -/
def TsoHeaders (map : ℕ → Option (BitVec 64)) (r : TxRing) (skb : Skb) : Prop :=
  ∃ r' hdrLen, tso false r r.nextToUse skb = .done r' hdrLen
    ∧ hdrLen.toNat = skb.hdrLen
    ∧ l4lenField (r'.desc r.nextToUse).olinfoStatus = 4 * skb.doff
    ∧ mssField (r'.desc r.nextToUse).olinfoStatus = skb.gsoSize
    ∧ paylenField ((txMap map r' r.nextToUse skb hdrLen).2.1.desc r'.nextToUse).olinfoStatus
      = skb.len - skb.hdrLen

/-! ### What is written -/

/-- The clean-up of a mapping that failed leaves the descriptors alone. -/
theorem unmapBack_desc (first fuel i : ℕ) (r : TxRing) :
  (unmapBack first fuel i r).1.desc = r.desc
  := by
  induction fuel generalizing i r with
  | zero => rfl
  | succ fuel ih =>
    rw [unmapBack]
    split
    · rfl
    · exact ih _ _

/-- The first data descriptor of a packet keeps the status word that it is given first. -/
theorem txMap_olinfo (map : ℕ → Option (BitVec 64)) {r : TxRing} (first : ℕ) (skb : Skb)
    (hdrLen : BitVec 8) (hi : r.nextToUse < r.count) (hfit : skb.descs ≤ r.count) :
  ((txMap map r first skb hdrLen).2.1.desc r.nextToUse).olinfoStatus
    = txOlinfoStatus (r.buffer first).txFlags (BitVec.ofNat 32 skb.len - hdrLen.setWidth 32)
  := by
  set olinfoStatus := txOlinfoStatus (r.buffer first).txFlags
    (BitVec.ofNat 32 skb.len - hdrLen.setWidth 32) with holinfo
  set r₁ := r.setDesc r.nextToUse fun d => { d with olinfoStatus := olinfoStatus } with hr₁
  have hstart : (r₁.desc r.nextToUse).olinfoStatus = olinfoStatus := by
    simp [hr₁, TxRing.setDesc]
  obtain ⟨n, s', heq, hn, hadv⟩ := mapBuffers_advance map
    (txCmdType (r.buffer first).txFlags) skb.frags 0 first
    (s := ⟨r₁, r.nextToUse, skb.headlen⟩) hi hfit
  have hn : n < skb.descs := hn
  have hkept : (s'.ring.desc r.nextToUse).olinfoStatus = olinfoStatus := by
    rw [hadv.others, hstart]
    intro m hm hmn
    change r.nextToUse ≠ ahead r.count r.nextToUse m
    rw [Ne, ← gap_eq_zero hi, gap_ahead hi (by omega)]
    omega
  unfold txMap
  simp only [← holinfo, ← hr₁]
  rcases heq with heq | heq
  · set cmdType := txCmdType (r.buffer first).txFlags ||| BitVec.ofNat 32 s'.size ||| txdCmd
      with hcmd
    rw [heq, ← hkept]
    exact setDesc_olinfo (r := s'.ring) (i := s'.i)
      (g := fun d => { d with cmdTypeLen := cmdType }) (fun _ => rfl) r.nextToUse
  · rw [heq, ← hkept]
    change ((unmapBack first s'.ring.count s'.i s'.ring).1.desc r.nextToUse).olinfoStatus = _
    rw [unmapBack_desc]

/-- The word of a TSO context as a number. -/
theorem mssL4lenIdx_toNat {x g : BitVec 32} (hx : x.toNat < 2 ^ 8) (hg : g.toNat < 2 ^ 16) :
  ((x <<< 8) ||| (g <<< 16) ||| advtxdIdx1).toNat = 16 + x.toNat * 2 ^ 8 + g.toNat * 2 ^ 16
  := by
  have hlow : (advtxdIdx1 ||| x <<< 8).toNat = 16 + x.toNat * 2 ^ 8 :=
    Bits.toNat_or_shiftLeft (by decide) (by omega)
  have hall : ((advtxdIdx1 ||| x <<< 8) ||| g <<< 16).toNat
      = (advtxdIdx1 ||| x <<< 8).toNat + g.toNat * 2 ^ 16 :=
    Bits.toNat_or_shiftLeft (by omega) (by omega)
  rw [← hlow, ← hall]
  congr 1
  rw [BitVec.or_comm _ advtxdIdx1, ← BitVec.or_assoc]

/-- The fields of a TSO context. -/
theorem mssL4lenIdx_fields {x g : BitVec 32} (hx : x.toNat < 2 ^ 8) (hg : g.toNat < 2 ^ 16) :
  l4lenField ((x <<< 8) ||| (g <<< 16) ||| advtxdIdx1) = x.toNat
    ∧ mssField ((x <<< 8) ||| (g <<< 16) ||| advtxdIdx1) = g.toNat
  := by
  have hword := mssL4lenIdx_toNat hx hg
  have hmask := Bits.toNat_and_mask (k := 8)
    (((x <<< 8) ||| (g <<< 16) ||| advtxdIdx1) >>> 8) (by decide)
  constructor
  · refine hmask.trans ?_
    rw [BitVec.toNat_ushiftRight, hword, Nat.shiftRight_eq_div_pow]
    omega
  · unfold mssField
    rw [BitVec.toNat_ushiftRight, hword, Nat.shiftRight_eq_div_pow]
    omega

/-- The payload length is above the other fields of the status word. -/
theorem paylenField_olinfo (txFlags : BitVec 32) {paylen : BitVec 32} (h : paylen.toNat < 2 ^ 18) :
  paylenField (txOlinfoStatus txFlags paylen) = paylen.toNat
  := by
  have hflag {P : Prop} [Decidable P] {x : BitVec 32} (hx : x.toNat < 2 ^ 14) :
      (if P then x else 0#32).toNat < 2 ^ 14 := by
    split
    · exact hx
    · decide
  have hor {x y : BitVec 32} (hx : x.toNat < 2 ^ 14) (hy : y.toNat < 2 ^ 14) :
      (x ||| y).toNat < 2 ^ 14 := by
    rw [BitVec.toNat_or]
    exact Nat.or_lt_two_pow hx hy
  have hlow : ((if txFlags &&& txFlagsCsum ≠ 0#32 then advtxdPoptsTxsm else 0#32)
      ||| ((if txFlags &&& txFlagsIpv4 ≠ 0#32 then advtxdPoptsIxsm else 0#32)
      ||| ((if txFlags &&& txFlagsTso ≠ 0#32 then advtxdIdx1 else 0#32)
      ||| advtxdCc))).toNat < 2 ^ 14 :=
    hor (hflag (by decide)) (hor (hflag (by decide)) (hor (hflag (by decide)) (by decide)))
  unfold paylenField txOlinfoStatus
  rw [BitVec.or_assoc, BitVec.or_assoc, BitVec.or_assoc, BitVec.or_comm, BitVec.toNat_ushiftRight,
    Bits.toNat_or_shiftLeft hlow (by omega), Nat.shiftRight_eq_div_pow]
  omega

/-- For a segmented packet `ixgbevf_tso` writes a context descriptor with the length of the
headers cut to a byte. -/
theorem tso_done (r : TxRing) {skb : Skb} (h : skb.Segmented) :
  ∃ r', tso false r r.nextToUse skb = .done r' (BitVec.ofNat 8 skb.hdrLen)
    ∧ r'.count = r.count ∧ r'.nextToUse = next r.count r.nextToUse
    ∧ (r'.desc r.nextToUse).olinfoStatus
      = (((BitVec.ofNat 8 skb.hdrLen).setWidth 32 - BitVec.ofNat 32 skb.csumStart) <<< 8)
        ||| (BitVec.ofNat 32 skb.gsoSize <<< 16) ||| advtxdIdx1
  := by
  have hlen : skb.doff * 4 + skb.csumStart = skb.hdrLen := by
    unfold Skb.hdrLen
    omega
  unfold tso
  rw [if_neg (by simp [h.csumPartial]), if_neg h.gso, if_neg (by simp), hlen]
  exact ⟨_, rfl, rfl, rfl, by simp [TxRing.txCtxtdesc, TxRing.setDesc]⟩

/-- The headers of a segmented packet are described right exactly when their length fits a
byte. -/
theorem tsoHeaders_iff (map : ℕ → Option (BitVec 64)) {r : TxRing} {skb : Skb}
    (h : skb.Segmented) (hi : r.nextToUse < r.count) (hfit : skb.descs + 1 < r.count) :
  TsoHeaders map r skb ↔ skb.hdrLen < 2 ^ 8
  := by
  obtain ⟨r', hdone, hcount, hnext, hword⟩ := tso_done r h
  constructor
  · rintro ⟨r'', hdrLen, hdone', hlen, -⟩
    rw [hdone] at hdone'
    cases hdone'
    rw [← hlen]
    exact (BitVec.ofNat 8 skb.hdrLen).isLt
  · intro hshort
    have hheaders := h.headers
    have hlen := h.len
    have hdoff := h.doff_lt
    have hgso := h.gsoSize_lt
    have hdef : skb.hdrLen = skb.csumStart + 4 * skb.doff := rfl
    have hbyte : (BitVec.ofNat 8 skb.hdrLen).toNat = skb.hdrLen := by
      rw [BitVec.toNat_ofNat, Nat.mod_eq_of_lt hshort]
    have hwide : ((BitVec.ofNat 8 skb.hdrLen).setWidth 32).toNat = skb.hdrLen := by
      rw [BitVec.toNat_setWidth, hbyte, Nat.mod_eq_of_lt (by omega)]
    have hl4 : ((BitVec.ofNat 8 skb.hdrLen).setWidth 32 - BitVec.ofNat 32 skb.csumStart).toNat
        = 4 * skb.doff := by
      rw [BitVec.toNat_sub_of_le _, hwide, BitVec.toNat_ofNat, Nat.mod_eq_of_lt (by omega)]
      · omega
      · rw [BitVec.le_def, hwide, BitVec.toNat_ofNat, Nat.mod_eq_of_lt (by omega)]
        omega
    have hmss : (BitVec.ofNat 32 skb.gsoSize).toNat = skb.gsoSize := by
      rw [BitVec.toNat_ofNat, Nat.mod_eq_of_lt (by omega)]
    have hpay : (BitVec.ofNat 32 skb.len - (BitVec.ofNat 8 skb.hdrLen).setWidth 32).toNat
        = skb.len - skb.hdrLen := by
      rw [BitVec.toNat_sub_of_le _, hwide, BitVec.toNat_ofNat, Nat.mod_eq_of_lt (by omega)]
      rw [BitVec.le_def, hwide, BitVec.toNat_ofNat, Nat.mod_eq_of_lt (by omega)]
      exact hheaders
    obtain ⟨hfield, hfield'⟩ := mssL4lenIdx_fields (x := (BitVec.ofNat 8 skb.hdrLen).setWidth 32
      - BitVec.ofNat 32 skb.csumStart) (g := BitVec.ofNat 32 skb.gsoSize) (by omega) (by omega)
    refine ⟨r', _, hdone, hbyte, ?_, ?_, ?_⟩
    · rw [hword, hfield, hl4]
    · rw [hword, hfield', hmss]
    · have hi' : r'.nextToUse < r'.count := by
        rw [hnext, hcount]
        exact next_lt hi
      rw [txMap_olinfo map r.nextToUse _ _ hi' (by omega), paylenField_olinfo _ (by omega), hpay]

/-! ### Two packets -/

/-- A TCP packet in IPv6 with network headers of `n` bytes. -/
def segmentedSkb (n : ℕ) : Skb where
  id := 1
  headlen := 2000
  frags := []
  protocol := ethPIpv6
  vlanTag := none
  vlanHdr := none
  csumPartial := true
  gsoSize := 1000
  gsoSegs := 2
  networkOffset := 14
  csumStart := 14 + n
  csumOffset := 16
  ipv4 := false
  doff := 5
  ipv4Sctp := false
  ipv6Sctp := false

/-- An empty ring. -/
def emptyRing : TxRing where
  count := 64
  nextToUse := 0
  nextToClean := 0
  tail := 0
  buffer _ := ⟨none, none, 0, 0, 0#16, 0#64, 0, 0#32⟩
  desc _ := ⟨0#64, 0#32, 0#32⟩

/-- The packet is left to the hardware as long as its network headers are short enough for
`ixgbevf_features_check`. -/
theorem segmentedSkb_segmented {n : ℕ} (hn : n ≤ 511) :
  (segmentedSkb n).Segmented
  := by
  refine ⟨rfl, show 1000 ≠ 0 by decide, show 1000 < 2 ^ 16 by decide, show 5 < 2 ^ 4 by decide, ?_,
    show 2000 + 0 ≤ 65536 by decide, false, ⟨true, true, true, true, true, true⟩, ?_⟩
  · change 14 + n + 4 * 5 ≤ 2000 + 0
    omega
  · have hmac : ¬ BitVec.ofNat 32 14 > maxMacHdrLen := by decide
    have hnetwork : ¬ BitVec.ofNat 32 (14 + n) - BitVec.ofNat 32 14 > maxNetworkHdrLen := by
      rw [gt_iff_lt, BitVec.lt_def, BitVec.toNat_sub_of_le]
      · rw [BitVec.toNat_ofNat, BitVec.toNat_ofNat, Nat.mod_eq_of_lt (by omega)]
        change ¬ 511 < 14 + n - 14
        omega
      · rw [BitVec.le_def, BitVec.toNat_ofNat, BitVec.toNat_ofNat, Nat.mod_eq_of_lt (by omega)]
        omega
    unfold featuresCheck segmentedSkb
    simp only [if_neg hmac, if_neg hnetwork]
    exact .inl rfl

/-- The headers of a packet with 40 bytes of network headers. -/
theorem segmentedSkb_tsoHeaders :
  TsoHeaders (fun _ => some 0#64) emptyRing (segmentedSkb 40)
  := by
  apply (tsoHeaders_iff _ (segmentedSkb_segmented (by decide)) (by decide) (by decide)).mpr
  decide

/-- With 240 bytes of network headers the length is cut to a byte. -/
theorem segmentedSkb_no_tsoHeaders :
  ¬ ∀ map r skb, skb.Segmented → r.nextToUse < r.count → skb.descs + 1 < r.count →
    TsoHeaders map r skb
  := by
  intro h
  have hheaders := h (fun _ => some 0#64) emptyRing (segmentedSkb 240)
    (segmentedSkb_segmented (by decide)) (by decide) (by decide)
  obtain ⟨r', hdrLen, hdone, hlen, -⟩ := hheaders
  have hbyte := hdrLen.isLt
  rw [hlen] at hbyte
  revert hbyte
  decide

end Ixgbevf.Tx
