import Ixgbevf.Kernel
import Ixgbevf.Lib.Bits
import Ixgbevf.Types
import Mathlib.Tactic.Ring
import Mathlib.Tactic.Tauto

/-!
# Geometry of an Rx buffer

A page of the Rx ring is used in two halves.  The driver selects the buffer length of a
ring, programs `SRRCTL` and `RXDCTL` from it and hands the hardware a `page_offset` in one
of the halves; the hardware splits an accepted frame over buffers of the programmed size.
The bytes written at `page_offset` must stay in the half, and leave the end of the half to
the shared info when the driver builds an skb around the buffer.
-/

namespace Ixgbevf.Rx

/-! ### Buffer length selection -/

/-- `IXGBEVF_RXBUFFER_256`, the header size of `SRRCTL`. -/
def rxHdrSize : ℕ := 256

/-- `IXGBEVF_RXBUFFER_2048`. -/
def rxbuffer2048 : ℕ := 2048

/-- `IXGBEVF_RXBUFFER_3072`. -/
def rxbuffer3072 : ℕ := 3072

/-- The flags of `ring->state` that fix the layout of an Rx buffer. -/
structure BufferFlags where
  /-- `__IXGBEVF_RX_3K_BUFFER`. -/
  usesLargeBuffer : Bool
  /-- `__IXGBEVF_RX_BUILD_SKB_ENABLED`. -/
  usesBuildSkb : Bool
  deriving DecidableEq, Repr

/-- An MTU the network device accepts: `netdev->min_mtu` is 68 and `netdev->max_mtu` is
`IXGBE_MAX_JUMBO_FRAME_SIZE` less the Ethernet header and checksum. -/
structure Mtu where
  /-- The MTU in bytes. -/
  val : ℕ
  min_le : 68 ≤ val
  le_max : val ≤ 16128 - (ethHlen + ethFcsLen)

/-- The part of the adapter that the Rx configuration reads. -/
structure RxConfig where
  /-- `hw.mac.type`. -/
  macType : MacType
  /-- `netdev->mtu`. -/
  mtu : Mtu
  /-- `IXGBEVF_FLAGS_LEGACY_RX`. -/
  legacyRx : Bool

/-- `IXGBEVF_MAX_FRAME_BUILD_SKB`. -/
def maxFrameBuildSkb (K : KernelConfig) : ℕ := K.skbWithOverhead rxbuffer2048 - K.skbPad

/-- The largest frame of an MTU. -/
def maxFrame (A : RxConfig) : ℕ := A.mtu.val + ethHlen + ethFcsLen

/-- `ixgbevf_set_rx_buffer_len`. -/
def setRxBufferLen (K : KernelConfig) (A : RxConfig) : BufferFlags :=
  if A.legacyRx then
    { usesLargeBuffer := false, usesBuildSkb := false }
  else if maxFrame A ≤ maxFrameBuildSkb K then
    { usesLargeBuffer := false, usesBuildSkb := true }
  else
    { usesLargeBuffer := true, usesBuildSkb := true }

/-- `ixgbevf_rx_bufsz`. -/
def rxBufsz (K : KernelConfig) (ring : BufferFlags) : ℕ :=
  if ring.usesLargeBuffer then rxbuffer3072
  else if ring.usesBuildSkb then maxFrameBuildSkb K
  else rxbuffer2048

/-- `ixgbevf_rx_pg_order`. -/
def rxPgOrder (ring : BufferFlags) : ℕ := if ring.usesLargeBuffer then 1 else 0

/-- `ixgbevf_rx_pg_size`. -/
def rxPgSize (ring : BufferFlags) : ℕ := pageSize <<< rxPgOrder ring

/-- The `truesize` of a buffer: half of the page. -/
def rxTruesize (ring : BufferFlags) : ℕ := rxPgSize ring / 2

/-- `ixgbevf_rx_offset`. -/
def rxOffset (K : KernelConfig) (ring : BufferFlags) : ℕ :=
  if ring.usesBuildSkb then K.skbPad else 0

/-- The flip of `page_offset` by which the driver moves to the other half of the page. -/
def flip (ring : BufferFlags) (pageOffset : ℕ) : ℕ := pageOffset ^^^ rxTruesize ring

/-- The `page_offset` of a buffer after `n` flips of the page it was mapped with. -/
def pageOffset (K : KernelConfig) (ring : BufferFlags) (n : ℕ) : ℕ :=
  (flip ring)^[n] (rxOffset K ring)

/-! ### Registers -/

/-- `IXGBE_RXDCTL_RLPMLMASK`. -/
def rxdctlRlpmlmask : BitVec 32 := 0x00003FFF#32

/-- `IXGBE_RXDCTL_RLPML_EN`. -/
def rxdctlRlpmlEn : BitVec 32 := 0x00008000#32

/-- `IXGBE_RXDCTL_ENABLE`. -/
def rxdctlEnable : BitVec 32 := 0x02000000#32

/-- `IXGBE_RXDCTL_VME`. -/
def rxdctlVme : BitVec 32 := 0x40000000#32

/-- `IXGBE_SRRCTL_BSIZEPKT_MASK`. -/
def srrctlBsizepktMask : BitVec 32 := 0x0000007F#32

/-- `ixgbevf_configure_srrctl`: the value written to `VFSRRCTL`. -/
def configureSrrctl (ring : BufferFlags) : BitVec 32 :=
  0x10000000#32 ||| (BitVec.ofNat 32 (rxHdrSize <<< 2) |||
    (BitVec.ofNat 32 ((if ring.usesLargeBuffer then rxbuffer3072 else rxbuffer2048) >>> 10) |||
      0x02000000#32))

/-- The `rlpml` that `ixgbevf_configure_rx_ring` programs where the MAC supports it. -/
def rlpml (K : KernelConfig) (A : RxConfig) (ring : BufferFlags) : ℕ :=
  if ring.usesBuildSkb && !ring.usesLargeBuffer then
    min (maxFrame A) (maxFrameBuildSkb K)
  else
    maxFrame A

/-- The value `ixgbevf_configure_rx_ring` writes to `VFRXDCTL`, from the value `rxdctl` it
read there. -/
def configureRxdctl (K : KernelConfig) (A : RxConfig) (ring : BufferFlags)
    (rxdctl : BitVec 32) : BitVec 32 :=
  let rxdctl :=
    if A.macType ≠ .mac82599Vf then
      (rxdctl &&& ~~~(rxdctlRlpmlmask ||| rxdctlRlpmlEn)) |||
        (BitVec.ofNat 32 (rlpml K A ring) ||| rxdctlRlpmlEn)
    else
      rxdctl
  rxdctl ||| (rxdctlEnable ||| rxdctlVme)

/-! ### The hardware -/

/-- The buffer size in bytes that the hardware takes from `SRRCTL.BSIZEPKT`, a number of
kilobytes. -/
def bsizepkt (srrctl : BitVec 32) : ℕ := (srrctl &&& srrctlBsizepktMask).toNat * 1024

/-- A frame the hardware writes to memory: where the MAC supports the long packet limit and
`RXDCTL` enables it, no longer than `RXDCTL.RLPML`. -/
def Accepted (mac : MacType) (rxdctl : BitVec 32) (len : ℕ) : Prop :=
  mac ≠ .mac82599Vf → rxdctl &&& rxdctlRlpmlEn ≠ 0#32 →
    len ≤ (rxdctl &&& rxdctlRlpmlmask).toNat

/-- The bytes the hardware writes into the `k`-th buffer of a frame. -/
def dmaBytes (bsize len k : ℕ) : ℕ := min bsize (len - k * bsize)

/-! ### The layout in memory -/

/-- The end of the half of the page that an offset lies in. -/
def halfEnd (ring : BufferFlags) (offset : ℕ) : ℕ :=
  (offset / rxTruesize ring + 1) * rxTruesize ring

/-- Where `build_skb` puts the shared info: `data_hard_start` is `page_offset` less the
offset of the ring, and the shared info ends `truesize` bytes later. -/
def sharedInfoStart (K : KernelConfig) (ring : BufferFlags) (offset : ℕ) : ℕ :=
  offset - rxOffset K ring + rxTruesize ring - K.sharedInfoSpace

/-- The hardware's write at `offset` stays in its half of the page, and leaves room for the
shared info when the ring uses `build_skb`. -/
def WriteFits (K : KernelConfig) (ring : BufferFlags) (offset bytes : ℕ) : Prop :=
  offset + bytes ≤ halfEnd ring offset ∧
    (ring.usesBuildSkb → offset + bytes ≤ sharedInfoStart K ring offset)

/-- Every write of every frame the hardware accepts fits, at every `page_offset` a buffer
of the configured ring can have. -/
def BuffersFit (K : KernelConfig) (A : RxConfig) (rxdctl : BitVec 32) : Prop :=
  let ring := setRxBufferLen K A
  ∀ n len k, Accepted A.macType (configureRxdctl K A ring rxdctl) len →
    WriteFits K ring (pageOffset K ring n) (dmaBytes (bsizepkt (configureSrrctl ring)) len k)

/-! ### What the configuration amounts to -/

/-- The truesize of a buffer is 2048 or 4096 bytes. -/
theorem rxTruesize_eq (ring : BufferFlags) :
  rxTruesize ring = 2 ^ (if ring.usesLargeBuffer then 12 else 11)
  := by
  cases h : ring.usesLargeBuffer <;> simp [rxTruesize, rxPgSize, rxPgOrder, pageSize, h]

/-- The offset of a ring lies in the first half of the page. -/
theorem rxOffset_lt (K : KernelConfig) (ring : BufferFlags) :
  rxOffset K ring < rxTruesize ring
  := by
  have := K.skbPad_add_sharedInfoSpace_lt
  rw [rxTruesize_eq]
  unfold rxOffset
  split <;> split <;> omega

/-- Every `page_offset` is the offset of the ring in one of the two halves. -/
theorem pageOffset_eq (K : KernelConfig) (ring : BufferFlags) (n : ℕ) :
  pageOffset K ring n = rxOffset K ring + n % 2 * rxTruesize ring
  := by
  have h := rxOffset_lt K ring
  unfold pageOffset flip
  rw [rxTruesize_eq] at h ⊢
  apply Bits.iterate_xor_two_pow h

/-- The hardware's buffer size is the one the flags ask for. -/
theorem bsizepkt_configureSrrctl (ring : BufferFlags) :
  bsizepkt (configureSrrctl ring)
    = if ring.usesLargeBuffer then rxbuffer3072 else rxbuffer2048
  := by
  cases h : ring.usesLargeBuffer <;> simp only [configureSrrctl, h] <;> decide

/-- The programmed `rlpml` fits its register field. -/
theorem rlpml_lt (K : KernelConfig) (A : RxConfig) (ring : BufferFlags) :
  rlpml K A ring < 2 ^ 14
  := by
  have := A.mtu.le_max
  have h : maxFrame A < 2 ^ 14 := by
    unfold maxFrame ethHlen ethFcsLen at *
    omega
  unfold rlpml
  split <;> omega

/-- Where the MAC supports the long packet limit, the fields of the limit in the configured
register are the ones written. -/
theorem configureRxdctl_and
    (K : KernelConfig) (A : RxConfig) (ring : BufferFlags) (rxdctl : BitVec 32)
    (h : A.macType ≠ .mac82599Vf) {f : BitVec 32}
    (hf : f &&& (rxdctlRlpmlmask ||| rxdctlRlpmlEn) = f)
    (hs : (rxdctlEnable ||| rxdctlVme) &&& f = 0#32) :
  configureRxdctl K A ring rxdctl &&& f
    = (BitVec.ofNat 32 (rlpml K A ring) ||| rxdctlRlpmlEn) &&& f
  := by
  simp only [configureRxdctl, if_pos h]
  apply Bits.field_update _ _ hf hs

/-- On a MAC with a working long packet limit the configured register limits frames to
`rlpml`. -/
theorem accepted_iff_of_ne
    (K : KernelConfig) (A : RxConfig) (ring : BufferFlags) (rxdctl : BitVec 32) (len : ℕ)
    (h : A.macType ≠ .mac82599Vf) :
  Accepted A.macType (configureRxdctl K A ring rxdctl) len ↔ len ≤ rlpml K A ring
  := by
  have hen : configureRxdctl K A ring rxdctl &&& rxdctlRlpmlEn ≠ 0#32 := by
    rw [configureRxdctl_and K A ring rxdctl h (by decide) (by decide),
      BitVec.and_or_distrib_right, BitVec.and_self, Ne, BitVec.or_eq_zero_iff, not_and]
    intro _
    decide
  have hlen : (configureRxdctl K A ring rxdctl &&& rxdctlRlpmlmask).toNat = rlpml K A ring := by
    rw [configureRxdctl_and K A ring rxdctl h (by decide) (by decide),
      BitVec.and_or_distrib_right, show rxdctlRlpmlEn &&& rxdctlRlpmlmask = 0#32 by decide,
      BitVec.or_zero]
    apply Bits.ofNat_and_mask (by omega) (rlpml_lt K A ring)
  simp only [Accepted, hlen]
  tauto

/-- A write fits at a `page_offset` exactly when it fits behind the ring's offset in the
first half of the page. -/
theorem writeFits_pageOffset_iff
    (K : KernelConfig) (ring : BufferFlags) (n bytes : ℕ) :
  WriteFits K ring (pageOffset K ring n) bytes
    ↔ rxOffset K ring + bytes ≤ rxTruesize ring ∧
      (ring.usesBuildSkb → rxOffset K ring + bytes + K.sharedInfoSpace ≤ rxTruesize ring)
  := by
  have hlt := rxOffset_lt K ring
  have hspace : K.sharedInfoSpace ≤ rxTruesize ring := by
    have := K.skbPad_add_sharedInfoSpace_lt
    rw [rxTruesize_eq]
    split <;> omega
  have hend : halfEnd ring (pageOffset K ring n)
      = n % 2 * rxTruesize ring + rxTruesize ring := by
    rw [halfEnd, pageOffset_eq, Nat.add_mul_div_right _ _ (by omega), Nat.div_eq_of_lt hlt]
    ring
  unfold WriteFits sharedInfoStart
  rw [hend, pageOffset_eq]
  constructor <;> rintro ⟨h₁, h₂⟩ <;> refine ⟨by omega, fun h => ?_⟩ <;> have := h₂ h <;> omega

/-- The most bytes the hardware writes into one buffer: the buffer size, and no more than the
long packet limit where the MAC supports it. -/
def maxDmaBytes (K : KernelConfig) (A : RxConfig) (ring : BufferFlags) : ℕ :=
  let bsize := bsizepkt (configureSrrctl ring)
  if A.macType = .mac82599Vf then bsize else min bsize (rlpml K A ring)

/-- No accepted frame puts more than `maxDmaBytes` into a buffer. -/
theorem dmaBytes_le
    (K : KernelConfig) (A : RxConfig) (ring : BufferFlags) (rxdctl : BitVec 32) {len : ℕ}
    (k : ℕ) (h : Accepted A.macType (configureRxdctl K A ring rxdctl) len) :
  dmaBytes (bsizepkt (configureSrrctl ring)) len k ≤ maxDmaBytes K A ring
  := by
  unfold dmaBytes maxDmaBytes
  by_cases hmac : A.macType = .mac82599Vf
  · simp only [if_pos hmac]
    apply Nat.min_le_left
  · rw [accepted_iff_of_ne K A ring rxdctl len hmac] at h
    simp only [if_neg hmac]
    omega

/-- Some accepted frame puts `maxDmaBytes` into its first buffer. -/
theorem exists_dmaBytes_eq
    (K : KernelConfig) (A : RxConfig) (ring : BufferFlags) (rxdctl : BitVec 32) :
  ∃ len, Accepted A.macType (configureRxdctl K A ring rxdctl) len ∧
    dmaBytes (bsizepkt (configureSrrctl ring)) len 0 = maxDmaBytes K A ring
  := by
  unfold dmaBytes maxDmaBytes
  by_cases hmac : A.macType = .mac82599Vf
  · use bsizepkt (configureSrrctl ring)
    constructor
    · intro hne
      contradiction
    · simp [if_pos hmac]
  · use rlpml K A ring
    rw [accepted_iff_of_ne K A ring rxdctl _ hmac]
    simp [if_neg hmac]

/-- The buffers fit exactly when the largest write fits behind the ring's offset in the first
half of the page. -/
theorem buffersFit_iff_max
    (K : KernelConfig) (A : RxConfig) (rxdctl : BitVec 32) :
  BuffersFit K A rxdctl
    ↔ let ring := setRxBufferLen K A
      let used := rxOffset K ring + maxDmaBytes K A ring
      used ≤ rxTruesize ring ∧ (ring.usesBuildSkb → used + K.sharedInfoSpace ≤ rxTruesize ring)
  := by
  unfold BuffersFit
  simp only [writeFits_pageOffset_iff]
  constructor
  · intro h
    obtain ⟨len, hlen, hmax⟩ := exists_dmaBytes_eq K A (setRxBufferLen K A) rxdctl
    rw [← hmax]
    apply h 0 len 0 hlen
  · rintro ⟨h₁, h₂⟩ _ len k hlen
    have hle := dmaBytes_le K A _ rxdctl k hlen
    refine ⟨by omega, fun hb => ?_⟩
    have := h₂ hb
    omega

/-- The largest frame a buffer of 2048 bytes takes behind the padding. -/
theorem maxFrameBuildSkb_add (K : KernelConfig) :
  maxFrameBuildSkb K + K.skbPad + K.sharedInfoSpace = 2048
  := by
  have := K.skbPad_add_sharedInfoSpace_lt
  unfold maxFrameBuildSkb KernelConfig.skbWithOverhead rxbuffer2048
  omega

/-- A legacy ring has its whole half page for the small buffer. -/
theorem buffersFit_of_legacy
    (K : KernelConfig) (A : RxConfig) (rxdctl : BitVec 32) (h : A.legacyRx = true) :
  BuffersFit K A rxdctl
  := by
  rw [buffersFit_iff_max]
  have hring : setRxBufferLen K A = { usesLargeBuffer := false, usesBuildSkb := false } := by
    rw [setRxBufferLen, if_pos h]
  simp only [hring, rxOffset, maxDmaBytes, bsizepkt_configureSrrctl, rxTruesize_eq, rxbuffer2048]
  by_cases hmac : A.macType = .mac82599Vf <;> simp [hmac]

/-- A ring that builds skbs around the small buffer fits exactly when the cap on `rlpml`
works. -/
theorem buffersFit_iff_of_small
    (K : KernelConfig) (A : RxConfig) (rxdctl : BitVec 32) (h : A.legacyRx = false)
    (hframe : maxFrame A ≤ maxFrameBuildSkb K) :
  BuffersFit K A rxdctl ↔ A.macType ≠ .mac82599Vf
  := by
  rw [buffersFit_iff_max]
  have hbuild := maxFrameBuildSkb_add K
  have hpos := K.sharedInfoSpace_pos
  have hring : setRxBufferLen K A = { usesLargeBuffer := false, usesBuildSkb := true } := by
    simp [setRxBufferLen, h, hframe]
  simp only [hring, rxOffset, maxDmaBytes, bsizepkt_configureSrrctl, rxTruesize_eq, rlpml,
    rxbuffer2048]
  by_cases hmac : A.macType = .mac82599Vf
  · simp [hmac]
    omega
  · simp [hmac]
    omega

/-- A ring with the large buffer fits exactly when its largest write leaves room for the
padding and the shared info. -/
theorem buffersFit_iff_of_large
    (K : KernelConfig) (A : RxConfig) (rxdctl : BitVec 32) (h : A.legacyRx = false)
    (hframe : maxFrameBuildSkb K < maxFrame A) :
  BuffersFit K A rxdctl
    ↔ K.skbPad + (if A.macType = .mac82599Vf then rxbuffer3072
        else min rxbuffer3072 (maxFrame A)) + K.sharedInfoSpace ≤ pageSize
  := by
  rw [buffersFit_iff_max]
  have hring : setRxBufferLen K A = { usesLargeBuffer := true, usesBuildSkb := true } := by
    simp [setRxBufferLen, h, hframe]
  simp only [hring, rxOffset, maxDmaBytes, bsizepkt_configureSrrctl, rxTruesize_eq, rlpml,
    pageSize]
  by_cases hmac : A.macType = .mac82599Vf
  · simp [hmac]
    omega
  · simp [hmac]
    omega

/-- On every MAC, for every MTU and setting of the legacy flag, the hardware's writes stay in
their half of the page and clear of the shared info exactly when the 82599 VF, which has no
long packet limit, does not build skbs around the small buffer, and the largest write of the
large buffer leaves room for the padding and the shared info. -/
theorem buffersFit_iff
    (K : KernelConfig) (A : RxConfig) (rxdctl : BitVec 32) :
  BuffersFit K A rxdctl
    ↔ (A.macType = .mac82599Vf → A.legacyRx = false → maxFrameBuildSkb K < maxFrame A) ∧
      (A.legacyRx = false → maxFrameBuildSkb K < maxFrame A →
        K.skbPad + (if A.macType = .mac82599Vf then rxbuffer3072
          else min rxbuffer3072 (maxFrame A)) + K.sharedInfoSpace ≤ pageSize)
  := by
  cases h : A.legacyRx with
  | true => simp [buffersFit_of_legacy K A rxdctl h]
  | false =>
    by_cases hframe : maxFrame A ≤ maxFrameBuildSkb K
    · rw [buffersFit_iff_of_small K A rxdctl h hframe]
      have hnot : ¬ maxFrameBuildSkb K < maxFrame A := by omega
      simp [hnot]
    · have hlarge : maxFrameBuildSkb K < maxFrame A := by omega
      rw [buffersFit_iff_of_large K A rxdctl h hlarge]
      simp [hlarge]

/-- A kernel with a cache line of 64 bytes, a padding of 64 bytes and a shared info of 320
bytes. -/
def cacheLine64 : KernelConfig where
  skbDataAlign x := (x + 63) / 64 * 64
  netSkbPad := 64
  netIpAlign := 0
  sizeofSharedInfo := 320
  le_skbDataAlign x := by omega
  sharedInfo_pos := by decide
  room := by decide

/-- An 82599 VF with the default MTU that builds skbs around its Rx buffers. -/
def default82599Vf : RxConfig where
  macType := .mac82599Vf
  mtu := { val := 1500, min_le := by decide, le_max := by decide }
  legacyRx := false

/-- On an 82599 VF with the default MTU a frame of 2048 bytes that the PF lets through is
written over the end of the half page it was given. -/
theorem default82599Vf_overrun :
  ¬ BuffersFit cacheLine64 default82599Vf 0#32
  := by
  intro h
  have hfit := h 0 2048 0 (fun hne => absurd rfl hne)
  revert hfit
  unfold WriteFits
  decide

end Ixgbevf.Rx
