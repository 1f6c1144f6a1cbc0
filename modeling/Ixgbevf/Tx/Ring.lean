import Mathlib.Data.Nat.Notation
import Mathlib.Algebra.Ring.Nat
import Mathlib.Logic.Function.Basic
import Ixgbevf.Lib.Cyclic

/-!
# Tx rings

A Tx ring with its buffers and descriptors, and the packets that the stack hands to the
driver.  Positions on the ring are indices, and a pointer into one of its two arrays is
the index it points to.  What the driver does to memory that is not its own is listed as
actions.
-/

namespace Ixgbevf.Tx

open Cyclic

/-! ### Constants -/

/-- `IXGBE_MAX_DATA_PER_TXD`. -/
def maxDataPerTxd : ℕ := 16384

/-- `TXD_USE_COUNT`, rounding up. -/
def txdUseCount (size : ℕ) : ℕ := (size + maxDataPerTxd - 1) / maxDataPerTxd

/-- `IXGBE_TX_FLAGS_CSUM`. -/
def txFlagsCsum : BitVec 32 := 0x1#32

/-- `IXGBE_TX_FLAGS_VLAN`. -/
def txFlagsVlan : BitVec 32 := 0x2#32

/-- `IXGBE_TX_FLAGS_TSO`. -/
def txFlagsTso : BitVec 32 := 0x4#32

/-- `IXGBE_TX_FLAGS_IPV4`. -/
def txFlagsIpv4 : BitVec 32 := 0x8#32

/-- `IXGBE_TX_FLAGS_VLAN_MASK`. -/
def txFlagsVlanMask : BitVec 32 := 0xffff0000#32

/-- `IXGBE_TXD_STAT_DD`. -/
def txdStatDd : BitVec 32 := 0x1#32

/-- `IXGBE_TXD_CMD`: the descriptor ends a packet and asks for a report. -/
def txdCmd : BitVec 32 := 0x01000000#32 ||| 0x08000000#32

/-- `IXGBE_ADVTXD_DTYP_DATA`. -/
def advtxdDtypData : BitVec 32 := 0x00300000#32

/-- `IXGBE_ADVTXD_DTYP_CTXT`. -/
def advtxdDtypCtxt : BitVec 32 := 0x00200000#32

/-- `IXGBE_ADVTXD_DCMD_IFCS`. -/
def advtxdDcmdIfcs : BitVec 32 := 0x02000000#32

/-- `IXGBE_ADVTXD_DCMD_DEXT`. -/
def advtxdDcmdDext : BitVec 32 := 0x20000000#32

/-- `IXGBE_ADVTXD_DCMD_VLE`. -/
def advtxdDcmdVle : BitVec 32 := 0x40000000#32

/-- `IXGBE_ADVTXD_DCMD_TSE`. -/
def advtxdDcmdTse : BitVec 32 := 0x80000000#32

/-- `IXGBE_ADVTXD_TUCMD_IPV4`. -/
def advtxdTucmdIpv4 : BitVec 32 := 0x00000400#32

/-- `IXGBE_ADVTXD_TUCMD_L4T_UDP`. -/
def advtxdTucmdL4tUdp : BitVec 32 := 0#32

/-- `IXGBE_ADVTXD_TUCMD_L4T_TCP`. -/
def advtxdTucmdL4tTcp : BitVec 32 := 0x00000800#32

/-- `IXGBE_ADVTXD_TUCMD_L4T_SCTP`. -/
def advtxdTucmdL4tSctp : BitVec 32 := 0x00001000#32

/-- `IXGBE_ADVTXD_POPTS_TXSM`. -/
def advtxdPoptsTxsm : BitVec 32 := 0x200#32

/-- `IXGBE_ADVTXD_POPTS_IXSM`. -/
def advtxdPoptsIxsm : BitVec 32 := 0x100#32

/-- `IXGBE_ADVTXD_CC`. -/
def advtxdCc : BitVec 32 := 0x80#32

/-- The index 1 of a context, `1u << IXGBE_ADVTXD_IDX_SHIFT`. -/
def advtxdIdx1 : BitVec 32 := 0x10#32

/-- `ETH_P_IP`. -/
def ethPIp : BitVec 16 := 0x0800#16

/-- `ETH_P_IPV6`. -/
def ethPIpv6 : BitVec 16 := 0x86DD#16

/-- `ETH_P_8021Q`. -/
def ethP8021q : BitVec 16 := 0x8100#16

/-- The protocol number of LLDP frames, which VFs do not forward. -/
def ethPLldp : BitVec 16 := 0x88CC#16

/-! ### Packets -/

/-- What the driver reads of a `struct sk_buff`.  Offsets count from `skb->data`. -/
structure Skb where
  /-- Which packet it is. -/
  id : ℕ
  /-- `skb_headlen`. -/
  headlen : ℕ
  /-- The sizes of the fragments. -/
  frags : List ℕ
  /-- `skb->protocol`, in the byte order of the host. -/
  protocol : BitVec 16
  /-- The tag of `skb_vlan_tag_present` and `skb_vlan_tag_get`. -/
  vlanTag : Option (BitVec 16)
  /-- The VLAN header after the Ethernet header, where the packet reaches that far:
  `h_vlan_TCI` and `h_vlan_encapsulated_proto`. -/
  vlanHdr : Option (BitVec 16 × BitVec 16)
  /-- `skb->ip_summed` is `CHECKSUM_PARTIAL`. -/
  csumPartial : Bool
  /-- `gso_size`, not zero for a GSO packet. -/
  gsoSize : ℕ
  /-- `gso_segs`. -/
  gsoSegs : ℕ
  /-- `skb_network_offset`. -/
  networkOffset : ℕ
  /-- `skb_checksum_start_offset`. -/
  csumStart : ℕ
  /-- `skb->csum_offset`. -/
  csumOffset : ℕ
  /-- The version of the IP header is 4. -/
  ipv4 : Bool
  /-- The `doff` of the TCP header. -/
  doff : ℕ
  /-- The protocol of the IPv4 header is SCTP. -/
  ipv4Sctp : Bool
  /-- `ixgbevf_ipv6_csum_is_sctp`. -/
  ipv6Sctp : Bool
  deriving DecidableEq, Repr

/-- `skb->data_len`. -/
def Skb.dataLen (skb : Skb) : ℕ := skb.frags.sum

/-- `skb->len`. -/
def Skb.len (skb : Skb) : ℕ := skb.headlen + skb.dataLen

/-- A packet after a `skb_put_padto` to `n` bytes that succeeded: a packet that is padded
is made linear. -/
def Skb.putPadto (skb : Skb) (n : ℕ) : Skb :=
  if skb.len < n then { skb with headlen := n, frags := [] } else skb

/-! ### Rings -/

/-- `struct ixgbevf_tx_buffer`. -/
structure TxBuffer where
  /-- `next_to_watch`, the descriptor that ends the packet that starts here. -/
  nextToWatch : Option ℕ
  /-- `skb`. -/
  skb : Option ℕ
  /-- `bytecount`. -/
  bytecount : ℕ
  /-- `gso_segs`. -/
  gsoSegs : ℕ
  /-- `protocol`, in the byte order of the host. -/
  protocol : BitVec 16
  /-- `dma`. -/
  dma : BitVec 64
  /-- `len`, not zero while a mapping is held. -/
  len : ℕ
  /-- `tx_flags`. -/
  txFlags : BitVec 32
  deriving DecidableEq, Repr

/-- `union ixgbe_adv_tx_desc` in the words of its `read` member.  A context descriptor and
the write-back of the hardware use the same words. -/
structure TxDesc where
  /-- `buffer_addr`. -/
  bufferAddr : BitVec 64
  /-- `cmd_type_len`. -/
  cmdTypeLen : BitVec 32
  /-- `olinfo_status`, and `status` in the write-back. -/
  olinfoStatus : BitVec 32
  deriving DecidableEq, Repr

/-- The part of `struct ixgbevf_ring` that transmission uses. -/
structure TxRing where
  /-- `count`. -/
  count : ℕ
  /-- `next_to_use`. -/
  nextToUse : ℕ
  /-- `next_to_clean`. -/
  nextToClean : ℕ
  /-- The last value written to the tail register. -/
  tail : ℕ
  /-- `tx_buffer_info`. -/
  buffer : ℕ → TxBuffer
  /-- `desc`. -/
  desc : ℕ → TxDesc

/-- What the driver does to packets and mappings. -/
inductive TxAct where
  /-- The packet is freed. -/
  | freeSkb (id : ℕ)
  /-- `dma_unmap_single`. -/
  | unmapSingle (dma : BitVec 64) (len : ℕ)
  /-- `dma_unmap_page`. -/
  | unmapPage (dma : BitVec 64) (len : ℕ)
  /-- `skb_checksum_help`. -/
  | checksumHelp (id : ℕ)
  deriving DecidableEq, Repr

namespace TxRing

/-- Change a buffer. -/
def setBuffer (r : TxRing) (i : ℕ) (f : TxBuffer → TxBuffer) : TxRing :=
  { r with buffer := Function.update r.buffer i (f (r.buffer i)) }

/-- Change a descriptor. -/
def setDesc (r : TxRing) (i : ℕ) (f : TxDesc → TxDesc) : TxRing :=
  { r with desc := Function.update r.desc i (f (r.desc i)) }

/-- `ixgbevf_desc_unused`. -/
def descUnused (r : TxRing) : ℕ :=
  (if r.nextToClean > r.nextToUse then 0 else r.count) + r.nextToClean - r.nextToUse - 1

/-- `ixgbevf_tx_ctxtdesc`. -/
def txCtxtdesc (r : TxRing) (vlanMacipLens typeTucmd mssL4lenIdx : BitVec 32) : TxRing :=
  let i := r.nextToUse
  let r := { r with nextToUse := next r.count i }
  -- the words are written as `vlan_macip_lens` and `seqnum_seed`
  r.setDesc i fun _ =>
    { bufferAddr := vlanMacipLens.setWidth 64
      cmdTypeLen := typeTucmd ||| advtxdDcmdDext ||| advtxdDtypCtxt
      olinfoStatus := mssL4lenIdx }

section Fields

variable (r : TxRing) (i : ℕ) (f : TxBuffer → TxBuffer) (g : TxDesc → TxDesc)

@[simp] theorem setBuffer_count : (r.setBuffer i f).count = r.count := rfl
@[simp] theorem setBuffer_nextToUse : (r.setBuffer i f).nextToUse = r.nextToUse := rfl
@[simp] theorem setBuffer_nextToClean : (r.setBuffer i f).nextToClean = r.nextToClean := rfl
@[simp] theorem setBuffer_tail : (r.setBuffer i f).tail = r.tail := rfl
@[simp] theorem setBuffer_desc : (r.setBuffer i f).desc = r.desc := rfl
@[simp] theorem setDesc_count : (r.setDesc i g).count = r.count := rfl
@[simp] theorem setDesc_nextToUse : (r.setDesc i g).nextToUse = r.nextToUse := rfl
@[simp] theorem setDesc_nextToClean : (r.setDesc i g).nextToClean = r.nextToClean := rfl
@[simp] theorem setDesc_tail : (r.setDesc i g).tail = r.tail := rfl
@[simp] theorem setDesc_buffer : (r.setDesc i g).buffer = r.buffer := rfl

end Fields

/-- The unused descriptors are those that are not between the two indices, but for the one
that keeps a full ring from looking empty. -/
theorem descUnused_eq {r : TxRing} (hc : r.nextToClean < r.count) (hu : r.nextToUse < r.count) :
  r.descUnused + gap r.count r.nextToClean r.nextToUse + 1 = r.count
  := by
  unfold descUnused gap
  split_ifs <;> omega

/-- What is unused once the packets up to the slot `i` are cleaned. -/
theorem descUnused_cleaned {r : TxRing} {i n : ℕ} (hi : i < r.count) (hu : r.nextToUse < r.count)
    (h : gap r.count i r.nextToUse + n < r.count) :
  n ≤ { r with nextToClean := i }.descUnused
  := by
  have hunused : { r with nextToClean := i }.descUnused + gap r.count i r.nextToUse + 1 = r.count :=
    descUnused_eq hi hu
  omega

end TxRing

end Ixgbevf.Tx
