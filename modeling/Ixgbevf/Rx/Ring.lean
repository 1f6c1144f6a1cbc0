import Mathlib.Algebra.Ring.Nat
import Mathlib.Logic.Function.Basic
import Ixgbevf.Lib.Cyclic
import Ixgbevf.Rx.Geometry

/-!
# An Rx ring and its pages

An Rx ring with its buffers and descriptors, the pages it draws from the kernel, and the skbs
that the driver makes.  Positions on the ring are indices.  A page keeps the books that the
kernel and the DMA layer keep of it: its references, its mapping, and how often the driver
has given it back.  An operation that follows a null or error pointer has no result.
-/

namespace Ixgbevf.Rx

open Cyclic

/-! ### Constants -/

/-- `IXGBEVF_RX_BUFFER_WRITE`. -/
def rxBufferWrite : ℕ := 16

/-- `USHRT_MAX`. -/
def ushrtMax : ℕ := 65535

/-- `ETH_ZLEN`, to which `eth_skb_pad` pads. -/
def ethZlen : ℕ := 60

/-! ### Data -/

/-- `struct ixgbevf_rx_buffer`, where `dma` is the address of the page. -/
structure RxBuffer where
  /-- `page`. -/
  page : Option ℕ
  /-- `page_offset`. -/
  pageOffset : ℕ
  /-- `pagecnt_bias`, of 16 bits. -/
  pagecntBias : ℕ
  deriving DecidableEq, Repr

/-- `union ixgbe_adv_rx_desc`. -/
structure RxDesc where
  /-- `read.pkt_addr`, a page and an offset in it. -/
  pktAddr : Option (ℕ × ℕ)
  /-- `wb.upper.length`. -/
  length : ℕ
  /-- `IXGBE_RXD_STAT_EOP` in `wb.upper.status_error`. -/
  eop : Bool
  /-- A bit of `IXGBE_RXDADV_ERR_FRAME_ERR_MASK` in `wb.upper.status_error`. -/
  frameErr : Bool
  deriving DecidableEq, Repr

/-- `skb->pkt_type`, as far as the driver looks at it. -/
inductive PktType where
  | host
  | broadcast
  | multicast
  deriving DecidableEq, Repr

/-- An skb under construction. -/
structure Skb where
  /-- Which skb it is. -/
  id : ℕ
  /-- `skb->len`. -/
  len : ℕ
  /-- `skb->pkt_type`. -/
  pktType : PktType
  deriving DecidableEq, Repr

/-- A verdict of `ixgbevf_run_xdp` other than `IXGBEVF_XDP_PASS`. -/
inductive XdpVerdict where
  | consumed
  | tx
  deriving DecidableEq, Repr

/-- What the variable `skb` points at: nothing, a verdict as an error pointer, or an skb. -/
inductive SkbPtr where
  | null
  | err (verdict : XdpVerdict)
  | skb (skb : Skb)
  deriving DecidableEq, Repr

/-- The part of `struct ixgbevf_ring` that reception uses. -/
structure RxRing where
  /-- `count`. -/
  count : ℕ
  /-- The flags of `state` that select the buffer layout. -/
  flags : BufferFlags
  /-- `next_to_use`. -/
  nextToUse : ℕ
  /-- `next_to_clean`. -/
  nextToClean : ℕ
  /-- `next_to_alloc`. -/
  nextToAlloc : ℕ
  /-- The last value written to the tail register. -/
  tail : ℕ
  /-- `rx_buffer_info`. -/
  buffer : ℕ → RxBuffer
  /-- `desc`. -/
  desc : ℕ → RxDesc
  /-- `skb`. -/
  skb : SkbPtr

/-- What the kernel and the DMA layer know of a page. -/
structure Page where
  /-- `page_ref_count`. -/
  refCount : ℕ
  /-- The halves that skbs and the XDP Tx ring hold references to, one for each reference. -/
  users : List ℕ
  /-- How often it has been mapped. -/
  maps : ℕ
  /-- How often it has been unmapped. -/
  unmaps : ℕ
  /-- How often the driver has given up its references. -/
  releases : ℕ
  deriving DecidableEq, Repr

/-- The variables of a call of `ixgbevf_clean_rx_irq`. -/
structure Poll where
  /-- `budget`. -/
  budget : ℕ
  /-- `cleaned_count`. -/
  cleanedCount : ℕ
  /-- `total_rx_packets`. -/
  totalRxPackets : ℕ
  /-- `skb`. -/
  skb : SkbPtr
  deriving DecidableEq, Repr

/-- A receive queue: the ring, the pages and skbs it uses, the hardware and the call of
`ixgbevf_clean_rx_irq` that is under way. -/
structure RxQueue where
  /-- The ring. -/
  ring : RxRing
  /-- The descriptor that the hardware writes back next. -/
  head : ℕ
  /-- The pages. -/
  pages : ℕ → Page
  /-- The page that the kernel hands out next. -/
  nextPage : ℕ
  /-- The skb that is made next. -/
  nextSkb : ℕ
  /-- How often the driver has freed an skb or passed it to the stack. -/
  skbReleases : ℕ → ℕ
  /-- Whether the ring has been configured and not been cleaned since. -/
  active : Bool
  /-- The call of `ixgbevf_clean_rx_irq`. -/
  poll : Option Poll

namespace RxRing

/-- `ixgbevf_desc_unused`. -/
def descUnused (r : RxRing) : ℕ :=
  (if r.nextToClean > r.nextToUse then 0 else r.count) + r.nextToClean - r.nextToUse - 1

/-- Change a buffer. -/
def setBuffer (r : RxRing) (i : ℕ) (f : RxBuffer → RxBuffer) : RxRing :=
  { r with buffer := Function.update r.buffer i (f (r.buffer i)) }

/-- Change a descriptor. -/
def setDesc (r : RxRing) (i : ℕ) (f : RxDesc → RxDesc) : RxRing :=
  { r with desc := Function.update r.desc i (f (r.desc i)) }

end RxRing

/-- The half of the page that an offset lies in. -/
def half (flags : BufferFlags) (offset : ℕ) : ℕ := offset / rxTruesize flags

namespace RxQueue

/-- Change a buffer of the ring. -/
def setBuffer (s : RxQueue) (i : ℕ) (f : RxBuffer → RxBuffer) : RxQueue :=
  { s with ring := s.ring.setBuffer i f }

/-- Change what is known of a page. -/
def setPage (s : RxQueue) (page : ℕ) (f : Page → Page) : RxQueue :=
  { s with pages := Function.update s.pages page (f (s.pages page)) }

/-- An skb is freed or passed to the stack. -/
def releaseSkb (s : RxQueue) (skb : Skb) : RxQueue :=
  { s with skbReleases := Function.update s.skbReleases skb.id (s.skbReleases skb.id + 1) }

/-! ### Refilling the ring -/

end RxQueue

/-- How the allocation of a page ends. -/
inductive PageAnswer where
  | ok
  | noPage
  | noMapping
  deriving DecidableEq, Repr

/-- A page as `dev_alloc_pages` and `dma_map_page_attrs` leave it. -/
def mappedPage : Page := { refCount := 1, users := [], maps := 1, unmaps := 0, releases := 0 }

/-- A page that is freed because it could not be mapped. -/
def unmappablePage : Page := { refCount := 0, users := [], maps := 0, unmaps := 0, releases := 1 }

namespace RxQueue

/-- `ixgbevf_alloc_mapped_page` for the buffer `i`; the result says whether the buffer has a
page. -/
def allocMappedPage (K : KernelConfig) (answer : PageAnswer) (i : ℕ) (s : RxQueue) :
    RxQueue × Bool :=
  match (s.ring.buffer i).page with
  | some _ => (s, true)
  | none =>
    match answer with
    | .noPage => (s, false)
    | .noMapping =>
      ({ s with
        pages := Function.update s.pages s.nextPage unmappablePage
        nextPage := s.nextPage + 1 }, false)
    | .ok =>
      ({ s with
        pages := Function.update s.pages s.nextPage mappedPage
        nextPage := s.nextPage + 1
        ring := s.ring.setBuffer i fun _ => {
          page := some s.nextPage
          pageOffset := rxOffset K s.ring.flags
          pagecntBias := 1 } }, true)

/-- The address that the buffer `i` has in the descriptor it is handed out with. -/
def bufferAddr (s : RxQueue) (i : ℕ) : Option (ℕ × ℕ) :=
  (s.ring.buffer i).page.map (·, (s.ring.buffer i).pageOffset)

/-- The loop of `ixgbevf_alloc_rx_buffers` from the slot `i` on; the result has the slot at
which it ends. -/
def allocLoop (K : KernelConfig) (alloc : ℕ → PageAnswer) :
    (cleanedCount i : ℕ) → RxQueue → RxQueue × ℕ
  | 0, i, s => (s, i)
  | cleanedCount + 1, i, s =>
    match allocMappedPage K (alloc i) i s with
    | (s, false) => (s, i)
    | (s, true) =>
      let j := next s.ring.count i
      let r := s.ring.setDesc i fun d => { d with pktAddr := s.bufferAddr i }
      let r := r.setDesc j fun d => { d with length := 0 }
      allocLoop K alloc cleanedCount j { s with ring := r }

/-- `ixgbevf_alloc_rx_buffers`. -/
def allocRxBuffers (K : KernelConfig) (alloc : ℕ → PageAnswer) (cleanedCount : ℕ)
    (s : RxQueue) : RxQueue :=
  let (s, i) := allocLoop K alloc cleanedCount s.ring.nextToUse s
  if s.ring.nextToUse ≠ i then
    { s with ring := { s.ring with nextToUse := i, nextToAlloc := i, tail := i } }
  else
    s

/-! ### Giving buffers back -/

/-- The test of `ixgbevf_can_reuse_rx_page`, where `reserved` is the answer of
`ixgbevf_page_is_reserved`.  The subtraction has 32 bits. -/
def canReuse (reserved : Bool) (refCount pagecntBias : ℕ) : Bool :=
  !reserved && decide ((refCount + 2 ^ 32 - pagecntBias) % 2 ^ 32 ≤ 1)

/-- `ixgbevf_can_reuse_rx_page`: the test, and the references it restocks. -/
def canReuseRxPage (reserved : Bool) (i page : ℕ) (s : RxQueue) : RxQueue × Bool :=
  let bias := (s.ring.buffer i).pagecntBias
  if canReuse reserved (s.pages page).refCount bias then
    if bias = 0 then
      let s := s.setPage page fun p => { p with refCount := p.refCount + ushrtMax }
      (s.setBuffer i fun b => { b with pagecntBias := ushrtMax }, true)
    else
      (s, true)
  else
    (s, false)

/-- `ixgbevf_reuse_rx_page`. -/
def reuseRxPage (i : ℕ) (s : RxQueue) : RxQueue :=
  let nta := s.ring.nextToAlloc
  let s := { s with ring := { s.ring with nextToAlloc := next s.ring.count nta } }
  s.setBuffer nta fun _ => s.ring.buffer i

/-- `__page_frag_cache_drain`. -/
def pageFragCacheDrain (page count : ℕ) (s : RxQueue) : RxQueue :=
  s.setPage page fun p => { p with refCount := p.refCount - count, releases := p.releases + 1 }

/-- `dma_unmap_page_attrs` of a page's mapping. -/
def dmaUnmapPage (page : ℕ) (s : RxQueue) : RxQueue :=
  s.setPage page fun p => { p with unmaps := p.unmaps + 1 }

/-- `ixgbevf_put_rx_buffer` of the buffer `i`, which holds `page`. -/
def putRxBuffer (reserved : Bool) (skb : SkbPtr) (i page : ℕ) (s : RxQueue) : RxQueue :=
  let s :=
    match canReuseRxPage reserved i page s with
    | (s, true) => reuseRxPage i s
    | (s, false) =>
      let s :=
        match skb with
        | .err _ => dmaUnmapPage page s
        | _ => s
      pageFragCacheDrain page (s.ring.buffer i).pagecntBias s
  s.setBuffer i fun b => { b with page := none }

/-! ### Taking a buffer's data -/

/-- `ixgbevf_get_rx_buffer`: the reference that the buffer `i` may hand out is taken off its
bias. -/
def getRxBuffer (i : ℕ) (s : RxQueue) : RxQueue :=
  s.setBuffer i fun b => { b with pagecntBias := (b.pagecntBias + ushrtMax) % 2 ^ 16 }

/-- The reference that was taken off the bias of the buffer `i` goes back. -/
def keepRxBuffer (i : ℕ) (s : RxQueue) : RxQueue :=
  s.setBuffer i fun b => { b with pagecntBias := (b.pagecntBias + 1) % 2 ^ 16 }

/-- `ixgbevf_rx_buffer_flip`. -/
def rxBufferFlip (i : ℕ) (s : RxQueue) : RxQueue :=
  s.setBuffer i fun b => { b with pageOffset := flip s.ring.flags b.pageOffset }

/-- The reference that was taken off the bias of the buffer `i` is held for the half that the
buffer points at. -/
def useHalf (i page : ℕ) (s : RxQueue) : RxQueue :=
  s.setPage page fun p =>
    { p with users := half s.ring.flags (s.ring.buffer i).pageOffset :: p.users }

/-- `ixgbevf_add_rx_frag`. -/
def addRxFrag (i page size : ℕ) (skb : Skb) (s : RxQueue) : RxQueue × SkbPtr :=
  (rxBufferFlip i (useHalf i page s), .skb { skb with len := skb.len + size })

/-- An skb of a length, with the type that the kernel gives it. -/
def newSkb (pktType : PktType) (len : ℕ) (s : RxQueue) : RxQueue × SkbPtr :=
  ({ s with nextSkb := s.nextSkb + 1 },
    .skb { id := s.nextSkb, len := len, pktType := pktType })

end RxQueue

/-- What the XDP program does with a frame.  A program that passes the frame may change its
length. -/
inductive XdpAct where
  | pass (len : Option ℕ)
  | consumed
  | tx
  deriving DecidableEq, Repr

/-- What the rest of the system answers during one turn of the loop of
`ixgbevf_clean_rx_irq`. -/
structure Turn where
  /-- How the allocation of a page for each slot ends. -/
  alloc : ℕ → PageAnswer
  /-- What the XDP program does, which passes every frame where there is none. -/
  xdp : XdpAct
  /-- The kernel has no memory for an skb. -/
  skbFails : Bool
  /-- `pkt_type` of an skb that the kernel makes. -/
  pktType : PktType
  /-- `eth_get_headlen`. -/
  headlen : ℕ
  /-- `ixgbevf_page_is_reserved`. -/
  reserved : Bool
  /-- `NETIF_F_RXALL`. -/
  rxAll : Bool
  /-- `eth_skb_pad` finds no memory. -/
  padFails : Bool
  /-- The source of the frame is the address of the device. -/
  ownSource : Bool

/-- The length of the frame in the XDP buffer after the program. -/
def XdpAct.length (size : ℕ) : XdpAct → ℕ
  | .pass len => len.getD size
  | _ => size

namespace RxQueue

/-- `ixgbevf_run_xdp` on the data of the buffer `i`; a frame that is transmitted is held by
the XDP Tx ring. -/
def runXdp (xdp : XdpAct) (i page : ℕ) (s : RxQueue) : RxQueue × SkbPtr :=
  match xdp with
  | .pass _ => (s, .null)
  | .consumed => (s, .err .consumed)
  | .tx => (useHalf i page s, .err .tx)

/-- `ixgbevf_build_skb`. -/
def buildSkb (t : Turn) (i page size : ℕ) (s : RxQueue) : RxQueue × SkbPtr :=
  if t.skbFails then (s, .null) else newSkb t.pktType size (rxBufferFlip i (useHalf i page s))

/-- `ixgbevf_construct_skb`: the head of the frame is copied, and what is left of it stays in
the page. -/
def constructSkb (t : Turn) (i page size : ℕ) (s : RxQueue) : RxQueue × SkbPtr :=
  if t.skbFails then
    (s, .null)
  else
    let headlen := if rxHdrSize < size then min t.headlen rxHdrSize else size
    if size - headlen ≠ 0 then
      newSkb t.pktType size (rxBufferFlip i (useHalf i page s))
    else
      newSkb t.pktType size (keepRxBuffer i s)

/-- The branches of `ixgbevf_clean_rx_irq` on the variable `skb`. -/
def takeData (t : Turn) (i page size : ℕ) (skb : SkbPtr) (s : RxQueue) : RxQueue × SkbPtr :=
  match skb with
  | .err .tx => (rxBufferFlip i s, .err .tx)
  | .err .consumed => (keepRxBuffer i s, .err .consumed)
  | .skb skb => addRxFrag i page size skb s
  | .null =>
    if s.ring.flags.usesBuildSkb then
      buildSkb t i page (t.xdp.length size) s
    else
      constructSkb t i page (t.xdp.length size) s

/-! ### One turn of the loop -/

/-- The end of `ixgbevf_clean_rx_irq`. -/
def finishPoll (skb : SkbPtr) (s : RxQueue) : RxQueue :=
  { s with ring := { s.ring with skb := skb }, poll := none }

/-- The part of a turn after `ixgbevf_is_non_eop`, for the frame that the descriptor `d` ends:
`ixgbevf_cleanup_headers`, the pruning of frames that come back, and the hand-over to the
stack. -/
def endFrame (t : Turn) (d : RxDesc) (p : Poll) (s : RxQueue) : RxQueue :=
  match p.skb with
  | .null => s
  | .err _ => { s with poll := some { p with skb := .null } }
  | .skb skb =>
    if (d.frameErr && !t.rxAll) || (decide (skb.len < ethZlen) && t.padFails) then
      { s.releaseSkb skb with poll := some { p with skb := .null } }
    else if skb.pktType ≠ .host ∧ t.ownSource then
      { s.releaseSkb skb with poll := some p }
    else
      { s.releaseSkb skb with
        poll := some { p with skb := .null, totalRxPackets := p.totalRxPackets + 1 } }

/-- The part of a turn from `ixgbevf_put_rx_buffer` on, once the data of the buffer has been
taken. -/
def retireBuffer (t : Turn) (page : ℕ) (p : Poll) (s : RxQueue) : RxQueue :=
  let i := s.ring.nextToClean
  let d := s.ring.desc i
  let s := putRxBuffer t.reserved p.skb i page s
  let p := { p with cleanedCount := p.cleanedCount + 1 }
  let s := { s with
    ring := { s.ring with nextToClean := next s.ring.count s.ring.nextToClean }
    poll := some p }
  if d.eop then endFrame t d p s else s

/-- The part of a turn after the branches on `skb`: without an skb the call ends, and the
buffer stays for the next one. -/
def settleTurn (t : Turn) (page : ℕ) (p : Poll) (skb : SkbPtr) (s : RxQueue) : RxQueue :=
  match skb with
  | .null => finishPoll .null (keepRxBuffer s.ring.nextToClean s)
  | .err v => retireBuffer t page { p with skb := .err v, totalRxPackets := p.totalRxPackets + 1 } s
  | .skb skb => retireBuffer t page { p with skb := .skb skb } s

/-- The part of a turn from `ixgbevf_get_rx_buffer` on. -/
def receive (t : Turn) (page : ℕ) (p : Poll) (s : RxQueue) : RxQueue :=
  let i := s.ring.nextToClean
  let size := (s.ring.desc i).length
  let s := getRxBuffer i s
  let (s, skb) := if p.skb = .null then runXdp t.xdp i page s else (s, p.skb)
  let (s, skb) := takeData t i page size skb s
  settleTurn t page p skb s

/-- One turn of the loop of `ixgbevf_clean_rx_irq`, or its end. -/
def cleanRxTurn (K : KernelConfig) (t : Turn) (p : Poll) (s : RxQueue) : Option RxQueue :=
  if p.totalRxPackets < p.budget then
    let (s, p) :=
      if rxBufferWrite ≤ p.cleanedCount then
        (allocRxBuffers K t.alloc p.cleanedCount s, { p with cleanedCount := 0 })
      else
        (s, p)
    if (s.ring.desc s.ring.nextToClean).length = 0 then
      some (finishPoll p.skb s)
    else
      (s.ring.buffer s.ring.nextToClean).page.map fun page => receive t page p s
  else
    some (finishPoll p.skb s)

/-- The start of `ixgbevf_clean_rx_irq`. -/
def cleanRxIrq (budget : ℕ) (s : RxQueue) : RxQueue :=
  { s with poll := some {
      budget := budget
      cleanedCount := s.ring.descUnused
      totalRxPackets := 0
      skb := s.ring.skb } }

/-! ### Setting up and tearing down -/

/-- `ixgbevf_configure_rx_ring`, with the buffer layout that was chosen before. -/
def configureRxRing (K : KernelConfig) (flags : BufferFlags) (alloc : ℕ → PageAnswer)
    (s : RxQueue) : RxQueue :=
  let r := { s.ring with
    flags := flags
    tail := 0
    buffer := fun _ => { page := none, pageOffset := 0, pagecntBias := 0 }
    nextToClean := 0
    nextToUse := 0
    nextToAlloc := 0 }
  let r := r.setDesc 0 fun d => { d with length := 0 }
  let s := { s with ring := r, head := 0, active := true }
  allocRxBuffers K alloc r.descUnused s

/-- The loop of `ixgbevf_clean_rx_ring` from the slot `i` on; `fuel` bounds the turns. -/
def releasePages : (fuel i : ℕ) → RxQueue → Option RxQueue
  | 0, _, s => some s
  | fuel + 1, i, s =>
    if i = s.ring.nextToAlloc then
      some s
    else
      match (s.ring.buffer i).page with
      | none => none
      | some page =>
        let bias := (s.ring.buffer i).pagecntBias
        releasePages fuel (next s.ring.count i) (pageFragCacheDrain page bias (dmaUnmapPage page s))

/-- `ixgbevf_clean_rx_ring`. -/
def cleanRxRing (s : RxQueue) : Option RxQueue :=
  let clean := fun s : RxQueue =>
    (releasePages s.ring.count s.ring.nextToClean s).map fun s => { s with
      ring := { s.ring with nextToAlloc := 0, nextToClean := 0, nextToUse := 0, skb := .null }
      active := false }
  match s.ring.skb with
  | .null => clean s
  | .err _ => none
  | .skb skb => clean (s.releaseSkb skb)

end RxQueue

end Ixgbevf.Rx
