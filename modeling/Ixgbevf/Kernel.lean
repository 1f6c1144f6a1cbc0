import Mathlib.Data.Nat.Notation

/-!
# Kernel constants

The constants the driver takes from the kernel it is built for.  The page size is 4096
and `HAVE_SWIOTLB_SKIP_CPU_SYNC` is defined; the constants that depend on the kernel's
configuration are parameters.
-/

namespace Ixgbevf

/-- `PAGE_SIZE`. -/
def pageSize : ℕ := 4096

/-- `ETH_HLEN`. -/
def ethHlen : ℕ := 14

/-- `ETH_FCS_LEN`. -/
def ethFcsLen : ℕ := 4

/-- The constants of the kernel configuration that the Rx buffer layout depends on, with
what every kernel satisfies: alignment rounds up, the shared info is not empty and fits
with the padding into a buffer of 2048 bytes. -/
structure KernelConfig where
  /-- `SKB_DATA_ALIGN`. -/
  skbDataAlign : ℕ → ℕ
  /-- `NET_SKB_PAD`. -/
  netSkbPad : ℕ
  /-- `NET_IP_ALIGN`. -/
  netIpAlign : ℕ
  /-- `sizeof(struct skb_shared_info)`. -/
  sizeofSharedInfo : ℕ
  le_skbDataAlign : ∀ x, x ≤ skbDataAlign x
  sharedInfo_pos : 0 < sizeofSharedInfo
  room : netSkbPad + netIpAlign + skbDataAlign sizeofSharedInfo < 2048

namespace KernelConfig

/-- The bytes `SKB_DATA_ALIGN(sizeof(struct skb_shared_info))` that the shared info takes
at the end of an skb's data. -/
def sharedInfoSpace (K : KernelConfig) : ℕ := K.skbDataAlign K.sizeofSharedInfo

/-- `SKB_WITH_OVERHEAD`. -/
def skbWithOverhead (K : KernelConfig) (x : ℕ) : ℕ := x - K.sharedInfoSpace

/-- `IXGBEVF_SKB_PAD`. -/
def skbPad (K : KernelConfig) : ℕ := K.netSkbPad + K.netIpAlign

/-- The shared info takes space. -/
theorem sharedInfoSpace_pos (K : KernelConfig) :
  0 < K.sharedInfoSpace
  := by
  apply Nat.lt_of_lt_of_le K.sharedInfo_pos (K.le_skbDataAlign _)

/-- The padding and the shared info fit into a buffer of 2048 bytes. -/
theorem skbPad_add_sharedInfoSpace_lt (K : KernelConfig) :
  K.skbPad + K.sharedInfoSpace < 2048
  := by
  apply K.room

end KernelConfig

end Ixgbevf
