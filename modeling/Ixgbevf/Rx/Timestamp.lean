import Ixgbevf.Rx.Frames

/-!
# The timestamp behind a frame

An adapter with `IXGBE_FLAG_RX_HWTSTAMP_ENABLED` may write a timestamp behind a frame, which
`ixgbevf_process_skb_fields` cuts off. It does so after `ixgbevf_cleanup_headers` has padded the
skb to 60 bytes, so that the two disagree about the end of a short frame.
-/

namespace Ixgbevf.Rx

/-! ### The data of an skb -/

/-- `PKT_HASH_TYPE_L3` and `PKT_HASH_TYPE_L4`. -/
inductive HashType where
  | l3
  | l4
  deriving DecidableEq, Repr

/-- `CHECKSUM_NONE` and `CHECKSUM_UNNECESSARY`. -/
inductive IpSummed where
  | none
  | unnecessary
  deriving DecidableEq, Repr

/-- The part of `struct sk_buff` that the end of a frame reads and writes. -/
structure SkBuff where
  /-- The linear part of the data. -/
  head : List UInt8
  /-- The fragments behind it. -/
  frags : List (List UInt8)
  /-- `pkt_type`. -/
  pktType : PktType
  /-- `hash`, once it is set. -/
  hash : Option (BitVec 32 × HashType)
  /-- `ip_summed`. -/
  ipSummed : IpSummed
  /-- The VLAN tag, once it is set. -/
  vlanTag : Option (BitVec 16)
  deriving DecidableEq, Repr

namespace SkBuff

/-- The data of an skb, its fragments included. -/
def data (skb : SkBuff) : List UInt8 := skb.head ++ skb.frags.flatten

/-- `skb->len`. -/
def len (skb : SkBuff) : ℕ := skb.data.length

/-- `skb_put_padto`: the data of an skb that is too short becomes linear, and zeros are put behind
it. Without memory for them the skb is freed. -/
def putPadto (len : ℕ) (noMemory : Bool) (skb : SkBuff) : Option SkBuff :=
  if skb.len < len then
    if noMemory then
      none
    else
      some { skb with head := skb.data ++ List.replicate (len - skb.len) 0, frags := [] }
  else
    some skb

/-- `eth_skb_pad`. -/
def ethSkbPad (noMemory : Bool) (skb : SkBuff) : Option SkBuff := skb.putPadto ethZlen noMemory

/-- The first bytes of the fragments: those behind the last byte are released. -/
def trimFrags : ℕ → List (List UInt8) → List (List UInt8)
  | _, [] => []
  | n, frag :: frags =>
    if frag.length < n then frag :: trimFrags (n - frag.length) frags else [frag.take n]

/-- `__pskb_trim`, to a length that is not above that of the skb. -/
def pskbTrim (len : ℕ) (skb : SkBuff) : SkBuff :=
  if len ≤ skb.head.length then
    { skb with head := skb.head.take len, frags := [] }
  else
    { skb with frags := trimFrags (len - skb.head.length) skb.frags }

/-- Trimming the fragments leaves their first bytes. -/
theorem flatten_trimFrags (n : ℕ) (frags : List (List UInt8)) :
  (trimFrags n frags).flatten = frags.flatten.take n
  := by
  induction frags generalizing n with
  | nil => simp [trimFrags]
  | cons frag frags ih =>
    rw [trimFrags, List.flatten_cons, List.take_append]
    split
    · next h => rw [List.flatten_cons, ih, List.take_of_length_le h.le]
    · next h => simp [Nat.sub_eq_zero_of_le (Nat.le_of_not_lt h)]

/-- Trimming an skb leaves its first bytes. -/
@[simp]
theorem data_pskbTrim (n : ℕ) (skb : SkBuff) :
  (skb.pskbTrim n).data = skb.data.take n
  := by
  unfold pskbTrim data
  split
  · next h => simp [List.take_append, Nat.sub_eq_zero_of_le h]
  · next h =>
    have hhead : skb.head.length ≤ n := (Nat.lt_of_not_le h).le
    rw [List.take_append, flatten_trimFrags, List.take_of_length_le hhead]

end SkBuff

/-- A frame with zeros behind it, up to the length of the shortest Ethernet frame. -/
def zeroPadded (frame : List UInt8) : List UInt8 :=
  frame ++ List.replicate (ethZlen - frame.length) 0

/-- A frame that is long enough is not padded. -/
theorem zeroPadded_long {frame : List UInt8} (h : ethZlen ≤ frame.length) :
  zeroPadded frame = frame
  := by simp [zeroPadded, Nat.sub_eq_zero_of_le h]

/-- The length of a padded frame. -/
@[simp]
theorem zeroPadded_length (frame : List UInt8) :
  (zeroPadded frame).length = max frame.length ethZlen
  := by
  rw [zeroPadded, List.length_append, List.length_replicate]
  omega

/-- An skb is padded unless it is short and there is no memory. -/
theorem SkBuff.ethSkbPad_some {noMemory : Bool} {skb skb' : SkBuff}
    (h : skb.ethSkbPad noMemory = some skb') :
  skb'.data = zeroPadded skb.data ∧ skb'.pktType = skb.pktType
  := by
  unfold ethSkbPad putPadto at h
  split at h
  · split at h
    · cases h
    · cases h
      exact ⟨by simp [data, zeroPadded, len], rfl⟩
  · next hlen =>
    cases h
    exact ⟨(zeroPadded_long (Nat.le_of_not_lt hlen)).symm, rfl⟩

/-! ### The end of a frame -/

/-- What the device writes back into the last descriptor of a frame. -/
structure RxWriteback where
  /-- `hs_rss.pkt_info`. -/
  pktInfo : BitVec 16
  /-- `hi_dword.rss`. -/
  rss : BitVec 32
  /-- `status_error`. -/
  statusError : BitVec 32
  /-- `vlan`. -/
  vlan : BitVec 16
  deriving DecidableEq, Repr

/-- `ixgbevf_test_staterr`. -/
def RxWriteback.testStaterr (d : RxWriteback) (bits : BitVec 32) : Bool := d.statusError &&& bits != 0

/-- `IXGBE_RXD_STAT_VP`. -/
def rxdStatVp : BitVec 32 := 0x08

/-- `IXGBE_RXD_STAT_L4CS`. -/
def rxdStatL4cs : BitVec 32 := 0x20

/-- `IXGBE_RXD_STAT_IPCS`. -/
def rxdStatIpcs : BitVec 32 := 0x40

/-- `IXGBE_RXD_STAT_TSIP`. -/
def rxdStatTsip : BitVec 32 := 0x8000

/-- `IXGBE_RXDADV_ERR_TCPE`. -/
def rxdadvErrTcpe : BitVec 32 := 0x40000000

/-- `IXGBE_RXDADV_ERR_IPE`. -/
def rxdadvErrIpe : BitVec 32 := 0x80000000

/-- `IXGBE_RXDADV_ERR_FRAME_ERR_MASK`: `CE`, `LE`, `PE`, `OSE` and `USE`. -/
def rxdadvErrFrameErrMask : BitVec 32 :=
  0x01000000 ||| 0x02000000 ||| 0x08000000 ||| 0x10000000 ||| 0x20000000

/-- `IXGBE_RXDADV_RSSTYPE_MASK`. -/
def rxdadvRsstypeMask : BitVec 16 := 0x000F

/-- `IXGBE_RXDADV_PKTTYPE_UDP`. -/
def rxdadvPkttypeUdp : BitVec 16 := 0x0200

/-- `IXGBE_RSS_L4_TYPES_MASK`: the types of TCP and UDP over IPv4 and IPv6. -/
def rssL4TypesMask : BitVec 64 := 1 <<< 1 ||| 1 <<< 7 ||| 1 <<< 3 ||| 1 <<< 8

/-- `VLAN_VID_MASK`. -/
def vlanVidMask : BitVec 16 := 0x0fff

/-- `IXGBE_TS_HDR_LEN`. -/
def tsHdrLen : ℕ := 8

/-- What the functions read of the adapter, the device and the ring. -/
structure RxTraits where
  /-- `IXGBE_FLAG_RX_HWTSTAMP_ENABLED` of `adapter->flags`. -/
  rxHwtstamp : Bool
  /-- `NETIF_F_RXHASH` of `netdev->features`. -/
  rxHash : Bool
  /-- `NETIF_F_RXCSUM` of `netdev->features`. -/
  rxCsum : Bool
  /-- `NETIF_F_RXALL` of `netdev->features`. -/
  rxAll : Bool
  /-- `active_vlans`. -/
  activeVlans : BitVec 16 → Bool
  /-- `__IXGBEVF_RX_CSUM_UDP_ZERO_ERR` of `ring->state`. -/
  csumUdpZeroErr : Bool
  /-- The type that `eth_type_trans` reads off the destination of a frame. -/
  classify : List UInt8 → PktType

variable (c : RxTraits) (d : RxWriteback)

/-- `ixgbevf_rx_hash`. -/
def rxHash (skb : SkBuff) : SkBuff :=
  let rssType := d.pktInfo &&& rxdadvRsstypeMask
  if c.rxHash && rssType != 0 then
    { skb with
      hash := some (d.rss, if rssL4TypesMask.getLsbD rssType.toNat then .l4 else .l3) }
  else
    skb

/-- `ixgbevf_rx_checksum`, with what it adds to `rx_stats.csum_err`. -/
def rxChecksum (skb : SkBuff) : ℕ × SkBuff :=
  if !c.rxCsum then
    (0, skb)
  else if d.testStaterr rxdStatIpcs && d.testStaterr rxdadvErrIpe then
    (1, skb)
  else if !d.testStaterr rxdStatL4cs then
    (0, skb)
  else if d.testStaterr rxdadvErrTcpe then
    -- an erratum of the 82599: the error of a UDP frame may be a checksum of zero
    if d.pktInfo &&& rxdadvPkttypeUdp != 0 && c.csumUdpZeroErr then (0, skb) else (1, skb)
  else
    (0, { skb with ipSummed := .unnecessary })

/-- The VLAN tag of the descriptor, if the VLAN is active. -/
def rxVlan (skb : SkBuff) : SkBuff :=
  if d.testStaterr rxdStatVp && c.activeVlans (d.vlan &&& vlanVidMask) then
    { skb with vlanTag := some d.vlan }
  else
    skb

/-- The timestamp is cut off. -/
def rxTrim (skb : SkBuff) : SkBuff :=
  if c.rxHwtstamp && d.testStaterr rxdStatTsip then skb.pskbTrim (skb.len - tsHdrLen) else skb

/-- `ixgbevf_process_skb_fields`, with what it adds to `rx_stats.csum_err`. -/
def processSkb (skb : SkBuff) : ℕ × SkBuff :=
  let (errors, skb) := rxChecksum c d (rxHash c d skb)
  let skb := rxTrim c d (rxVlan c d skb)
  (errors, { skb with pktType := c.classify skb.data })

/-- `ixgbevf_cleanup_headers` for an skb: nothing is left of one that has been freed. -/
def cleanupHeaders (noMemory : Bool) (skb : SkBuff) : Option SkBuff :=
  if d.testStaterr rxdadvErrFrameErrMask && !c.rxAll then none else skb.ethSkbPad noMemory

/-- The part of `ixgbevf_clean_rx_irq` behind `ixgbevf_is_non_eop`, for an skb that holds a frame:
what is handed to `ixgbevf_rx_skb`. The last test is that for frames that come back. -/
def handOver (noMemory ownSource : Bool) (skb : SkBuff) : Option SkBuff :=
  (cleanupHeaders c d noMemory skb).bind fun skb =>
    if skb.pktType ≠ .host ∧ ownSource = true then none else some (processSkb c d skb).2

/-! ### What is handed over -/

section

variable {c : RxTraits} {d : RxWriteback} {noMemory ownSource : Bool} {skb skb' : SkBuff}

/-- The receive hash does not change the data. -/
@[simp]
theorem rxHash_data :
  (rxHash c d skb).data = skb.data
  := by
  unfold rxHash
  simp only
  split <;> rfl

/-- The checksum does not change the data. -/
@[simp]
theorem rxChecksum_data :
  (rxChecksum c d skb).2.data = skb.data
  := by
  unfold rxChecksum
  repeat' split
  all_goals rfl

/-- The VLAN tag does not change the data. -/
@[simp]
theorem rxVlan_data :
  (rxVlan c d skb).data = skb.data
  := by
  unfold rxVlan
  split <;> rfl

/-- The data after the fields of an skb have been set: only the timestamp is gone. -/
theorem processSkb_data :
  (processSkb c d skb).2.data
    = if c.rxHwtstamp && d.testStaterr rxdStatTsip then
        skb.data.take (skb.data.length - tsHdrLen)
      else
        skb.data
  := by
  have hdata : (processSkb c d skb).2.data
      = (rxTrim c d (rxVlan c d (rxChecksum c d (rxHash c d skb)).2)).data := rfl
  rw [hdata, rxTrim]
  split <;> simp [SkBuff.len]

/-- What is handed over has been padded before the timestamp is cut off. -/
theorem handOver_data (h : handOver c d noMemory ownSource skb = some skb') :
  skb'.data = if c.rxHwtstamp && d.testStaterr rxdStatTsip then
      (zeroPadded skb.data).take ((zeroPadded skb.data).length - tsHdrLen)
    else
      zeroPadded skb.data
  := by
  obtain ⟨padded, hpad, hskb⟩ := Option.bind_eq_some_iff.mp h
  unfold cleanupHeaders at hpad
  split at hpad
  · cases hpad
  · split at hskb
    · cases hskb
    · cases hskb
      rw [processSkb_data, (SkBuff.ethSkbPad_some hpad).1]

/-- Which skbs are handed over: the fate of the frame in the model of the ring. -/
theorem handOver_isSome_iff {t : Turn} {r : RxDesc} {q : Skb}
    (herr : r.frameErr = d.testStaterr rxdadvErrFrameErrMask) (hall : t.rxAll = c.rxAll)
    (hlen : q.len = skb.len) (htype : q.pktType = skb.pktType) :
  (handOver c d t.padFails t.ownSource skb).isSome = true ↔ RxQueue.fate t r q = .passed
  := by
  unfold handOver cleanupHeaders RxQueue.fate
  rw [herr, hall, hlen, htype]
  split
  · next h => simp [h]
  · next h =>
    cases hpad : skb.ethSkbPad t.padFails with
    | none =>
      have hshort : skb.len < ethZlen ∧ t.padFails = true := by
        unfold SkBuff.ethSkbPad SkBuff.putPadto at hpad
        grind
      simp [hshort]
    | some padded =>
      have hroom : ¬ (skb.len < ethZlen ∧ t.padFails = true) := by
        rintro ⟨hshort, hfails⟩
        simp [SkBuff.ethSkbPad, SkBuff.putPadto, hshort, hfails] at hpad
      rw [Option.bind_some, (SkBuff.ethSkbPad_some hpad).2]
      by_cases hback : skb.pktType ≠ .host ∧ t.ownSource = true
      · simp [hback, h, hroom]
      · simp [hback, h, hroom]

/-! ### Frames with a timestamp -/

/-- The device has written a frame with a timestamp behind it. -/
structure Stamped (c : RxTraits) (d : RxWriteback) (skb : SkBuff) (frame stamp : List UInt8) :
    Prop where
  /-- The adapter puts timestamps behind frames. -/
  enabled : c.rxHwtstamp = true
  /-- The descriptor says that there is one. -/
  tsip : d.testStaterr rxdStatTsip = true
  /-- Its length. -/
  length : stamp.length = tsHdrLen
  /-- It is behind the frame. -/
  data : skb.data = frame ++ stamp

variable {frame stamp : List UInt8}

/-- The data that is handed over, for a frame that was padded with its timestamp: the timestamp is
a part of it, as far as there is room. -/
theorem Stamped.short_data
    (hs : Stamped c d skb frame stamp) (h : handOver c d noMemory ownSource skb = some skb')
    (hshort : frame.length + tsHdrLen < ethZlen) :
  skb'.data = (frame ++ stamp ++ List.replicate (ethZlen - tsHdrLen - frame.length) 0).take
    (ethZlen - tsHdrLen)
  := by
  have hlen : (zeroPadded (frame ++ stamp)).length = ethZlen := by
    rw [zeroPadded_length, List.length_append, hs.length]
    omega
  rw [handOver_data h, hs.enabled, hs.tsip, hs.data, hlen]
  simp only [Bool.and_self, if_true, zeroPadded, List.take_append, List.take_replicate,
    List.length_append, hs.length]
  congr 2
  unfold ethZlen tsHdrLen at *
  omega

/-- The data that is handed over, for a frame that is long enough with its timestamp: the frame
alone, without padding. -/
theorem Stamped.long_data
    (hs : Stamped c d skb frame stamp) (h : handOver c d noMemory ownSource skb = some skb')
    (hlong : ethZlen ≤ frame.length + tsHdrLen) :
  skb'.data = frame
  := by
  have hlen : ethZlen ≤ (frame ++ stamp).length := by
    rw [List.length_append, hs.length]
    exact hlong
  rw [handOver_data h, hs.enabled, hs.tsip, hs.data, zeroPadded_long hlen]
  simp [hs.length]

/-- The stack receives the frame without its timestamp, padded to 60 bytes, exactly when the frame
needs no padding. -/
theorem Stamped.removed_iff
    (hs : Stamped c d skb frame stamp) (h : handOver c d noMemory ownSource skb = some skb') :
  skb'.data = zeroPadded frame ↔ ethZlen ≤ frame.length
  := by
  constructor
  · intro hdata
    have hlen : skb'.data.length = max frame.length ethZlen := by rw [hdata, zeroPadded_length]
    by_contra hno
    by_cases hlong : ethZlen ≤ frame.length + tsHdrLen
    · rw [hs.long_data h hlong] at hlen
      omega
    · rw [hs.short_data h (Nat.lt_of_not_le hlong)] at hlen
      rw [List.length_take] at hlen
      unfold ethZlen tsHdrLen at *
      omega
  · intro hlong
    rw [zeroPadded_long hlong]
    exact hs.long_data h (Nat.le_add_right_of_le hlong)

end

/-! ### A frame of the local switch -/

/-- An X550 without other features. -/
def x550Traits : RxTraits :=
  { rxHwtstamp := true
    rxHash := false
    rxCsum := false
    rxAll := false
    activeVlans := fun _ => false
    csumUdpZeroErr := false
    classify := fun _ => .host }

/-- The last descriptor of a frame with a timestamp. -/
def stampedDesc : RxWriteback := { pktInfo := 0, rss := 0, statusError := 0x8003, vlan := 0 }

/-- An skb with linear data. -/
def linearSkb (bytes : List UInt8) : SkBuff :=
  { head := bytes
    frags := []
    pktType := .host
    hash := none
    ipSummed := .none
    vlanTag := none }

/-- A frame of `n` bytes. -/
def plainFrame (n : ℕ) : List UInt8 := List.replicate n 0xaa

/-- A timestamp. -/
def plainStamp : List UInt8 := List.replicate tsHdrLen 0x55

/-- The skb of a frame with a timestamp. -/
theorem plainFrame_stamped (n : ℕ) :
  Stamped x550Traits stampedDesc (linearSkb (plainFrame n ++ plainStamp)) (plainFrame n) plainStamp
  where
    enabled := rfl
    tsip := rfl
    length := rfl
    data := List.append_nil _

/-- A frame of 64 bytes loses its timestamp, one of 42 bytes does not. -/
theorem plainFrame_removed_iff :
  ((linearSkb (plainFrame 64)).data = zeroPadded (plainFrame 64)
      ↔ ethZlen ≤ (plainFrame 64).length) ∧
    ((linearSkb (plainFrame 42 ++ plainStamp ++ [0, 0])).data = zeroPadded (plainFrame 42)
      ↔ ethZlen ≤ (plainFrame 42).length)
  := by
  have hlong : handOver x550Traits stampedDesc false false (linearSkb (plainFrame 64 ++ plainStamp))
      = some (linearSkb (plainFrame 64)) := by decide +kernel
  have hshort : handOver x550Traits stampedDesc false false (linearSkb (plainFrame 42 ++ plainStamp))
      = some (linearSkb (plainFrame 42 ++ plainStamp ++ [0, 0])) := by decide +kernel
  exact ⟨(plainFrame_stamped 64).removed_iff hlong, (plainFrame_stamped 42).removed_iff hshort⟩

/-- The stack receives a frame of 42 bytes with its timestamp behind it. -/
theorem plainFrame_not_removed :
  ∃ c d skb frame stamp skb', Stamped c d skb frame stamp ∧
    handOver c d false false skb = some skb' ∧ skb'.data ≠ zeroPadded frame ∧
    skb'.data = frame ++ stamp ++ [0, 0]
  := by
  refine ⟨x550Traits, stampedDesc, _, _, _, linearSkb (plainFrame 42 ++ plainStamp ++ [0, 0]),
    plainFrame_stamped 42, ?_, ?_, ?_⟩ <;> decide +kernel

end Ixgbevf.Rx
