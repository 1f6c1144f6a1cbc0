import Ixgbevf.Lib.Chunks
import Ixgbevf.Rx.Halves

/-!
# Frames and their skbs

The hardware spreads a frame over one or more descriptors and marks the last of them.
`ixgbevf_clean_rx_irq` keeps the skb of the frame that it works on in one variable, over the
turns of its loop and, in `rx_ring->skb`, from one call to the next.  A log beside the queue
records what the hardware has written back, what every skb holds, and what became of each
frame.
-/

namespace Ixgbevf.Rx

open Cyclic Chunks

/-! ### What is written back -/

/-- A descriptor that the hardware has written back, with the address it had. -/
structure Written where
  /-- `read.pkt_addr` before the write-back: where the data are. -/
  addr : Option (ℕ × ℕ)
  /-- `wb.upper.length`. -/
  length : ℕ
  /-- `IXGBE_RXD_STAT_EOP`. -/
  eop : Bool
  /-- A bit of `IXGBE_RXDADV_ERR_FRAME_ERR_MASK`. -/
  frameErr : Bool
  deriving DecidableEq, Repr

/-- The bytes of a page from an offset on, each by its page and offset. -/
def bytesAt (page offset size : ℕ) : List (ℕ × ℕ) :=
  (List.range size).map fun k => (page, offset + k)

/-- The bytes of the buffer of a descriptor. -/
def Written.bytes (w : Written) : List (ℕ × ℕ) :=
  w.addr.elim [] fun a => bytesAt a.1 a.2 w.length

/-- The bytes of a frame. -/
def frameBytes (ws : List Written) : List (ℕ × ℕ) := ws.flatMap Written.bytes

/-- What becomes of a frame that has ended. -/
inductive Fate where
  /-- `ixgbevf_cleanup_headers` frees its skb. -/
  | dropped
  /-- It is removed as one that came back from the switch. -/
  | pruned
  /-- It is passed to `ixgbevf_rx_skb`. -/
  | passed
  deriving DecidableEq, Repr

/-- What the driver has done with the descriptors since the ring was configured. -/
structure Log where
  /-- The descriptors that the hardware has written back. -/
  written : List Written
  /-- How many of them the driver has worked off. -/
  taken : ℕ
  /-- What each skb holds. -/
  data : ℕ → List (ℕ × ℕ)
  /-- What became of the frames that have ended. -/
  fates : List Fate
  /-- What the skbs passed to `ixgbevf_rx_skb` held. -/
  passed : List (List (ℕ × ℕ))

namespace RxQueue

/-- The fate of a frame with the last descriptor `d` whose skb is `skb`: the tests of
`ixgbevf_cleanup_headers`, and the one for frames that come back. -/
def fate (t : Turn) (d : RxDesc) (skb : Skb) : Fate :=
  if (d.frameErr && !t.rxAll) || (decide (skb.len < ethZlen) && t.padFails) then
    .dropped
  else if skb.pktType ≠ .host ∧ t.ownSource then
    .pruned
  else
    .passed

/-- The variables of the call after a frame has ended with a fate. -/
def endedPoll (p : Poll) : Fate → Poll
  | .dropped => { p with skb := .null }
  | .pruned => p
  | .passed => { p with skb := .null, totalRxPackets := p.totalRxPackets + 1 }

/-- The end of a frame that has an skb. -/
theorem endFrame_skb (t : Turn) (d : RxDesc) (p : Poll) (s : RxQueue) {skb : Skb}
    (hp : p.skb = .skb skb) :
  endFrame t d p s = { s.releaseSkb skb with poll := some (endedPoll p (fate t d skb)) }
  := by
  rw [endFrame, hp]
  simp only [fate]
  split
  · rfl
  · split <;> rfl

/-! ### The log -/

/-- What a new skb holds of a buffer: all of it where the skb is built around it, else a copy of
the head and a fragment. -/
def newData (t : Turn) (flags : BufferFlags) (page offset size : ℕ) : List (ℕ × ℕ) :=
  if flags.usesBuildSkb then
    bytesAt page offset size
  else
    let headlen := if rxHdrSize < size then min t.headlen rxHdrSize else size
    bytesAt page offset headlen ++ bytesAt page (offset + headlen) (size - headlen)

/-- The skb that holds the buffer at `next_to_clean` after a turn, unless there is none. -/
def frameSkb (t : Turn) (p : Poll) (s : RxQueue) : Option Skb :=
  let size := (s.ring.desc s.ring.nextToClean).length
  match p.skb with
  | .skb skb => some { skb with len := skb.len + size }
  | .null =>
    if t.xdp.passes && !t.skbFails then
      some { id := s.nextSkb, len := t.xdp.length size, pktType := t.pktType }
    else
      none
  | .err _ => none

/-- What this skb holds. -/
def frameData (t : Turn) (page : ℕ) (p : Poll) (s : RxQueue) (g : Log) : List (ℕ × ℕ) :=
  let i := s.ring.nextToClean
  let offset := (s.ring.buffer i).pageOffset
  match p.skb with
  | .skb skb => g.data skb.id ++ bytesAt page offset (s.ring.desc i).length
  | _ => newData t s.ring.flags page offset (t.xdp.length (s.ring.desc i).length)

/-- The log after the data of the buffer at `next_to_clean` have gone to `skb`. -/
def logSkb (t : Turn) (d : RxDesc) (skb : Skb) (data : List (ℕ × ℕ)) (g : Log) : Log :=
  let g := { g with taken := g.taken + 1, data := Function.update g.data skb.id data }
  if d.eop then
    { g with
      fates := g.fates ++ [fate t d skb]
      passed := g.passed ++ if fate t d skb = .passed then [data] else [] }
  else
    g

/-- The log after the part of a turn from `ixgbevf_get_rx_buffer` on.  A buffer whose frame has
no skb is worked off where the XDP program took the frame, and stays where there is no
memory. -/
def logReceive (t : Turn) (page : ℕ) (p : Poll) (s : RxQueue) (g : Log) : Log :=
  match frameSkb t p s with
  | some skb =>
    logSkb t (s.ring.desc s.ring.nextToClean) skb (frameData t page p s g) g
  | none =>
    if p.skb = .null ∧ t.xdp.passes then g else { g with taken := g.taken + 1 }

/-- The log after a turn. -/
def logTurn (K : KernelConfig) (t : Turn) (p : Poll) (s : RxQueue) (g : Log) : Log :=
  if p.totalRxPackets < p.budget then
    let s := if rxBufferWrite ≤ p.cleanedCount then allocRxBuffers K t.alloc p.cleanedCount s else s
    if (s.ring.desc s.ring.nextToClean).length = 0 then
      g
    else
      (s.ring.buffer s.ring.nextToClean).page.elim g fun page => logReceive t page p s g
  else
    g

/-- The log of a ring that has just been configured. -/
def emptyLog : Log :=
  { written := [], taken := 0, data := fun _ => [], fates := [], passed := [] }

/-- The log after an event. -/
def logEvent (K : KernelConfig) (s : RxQueue) (g : Log) : Event → Log
  | .configure _ _ => emptyLog
  | .writeBack length eop frameErr =>
    { g with written := g.written ++ [{
        addr := (s.ring.desc s.head).pktAddr
        length := length
        eop := eop
        frameErr := frameErr }] }
  | .turn t => s.poll.elim g fun p => logTurn K t p s g
  | .poll _ | .clean | .drop _ _ | .take _ _ => g

end RxQueue

/-- An Rx queue with its log. -/
structure Traffic where
  /-- The queue. -/
  queue : RxQueue
  /-- The log. -/
  log : Log

/-- The queue with its log. -/
def traffic (K : KernelConfig) : TransSystem Traffic RxQueue.Event where
  init r := r.queue.Init ∧ r.log = RxQueue.emptyLog
  step r e r' := (RxQueue.system K).step r.queue e r'.queue ∧
    r'.log = RxQueue.logEvent K r.queue r.log e

namespace RxQueue

variable {K : KernelConfig} {s s' : RxQueue} {g : Log}

/-! ### Written descriptors wait in order -/

/-- The descriptor in the slot `i`, with the address of its buffer. -/
def writtenAt (s : RxQueue) (i : ℕ) : Written where
  addr := s.bufferAddr i
  length := (s.ring.desc i).length
  eop := (s.ring.desc i).eop
  frameErr := (s.ring.desc i).frameErr

/-- The slots from `next_to_clean` up to the one that the hardware writes back next hold what it
has written back and the driver has not worked off, in this order. -/
structure InOrder (s : RxQueue) (g : Log) : Prop where
  /-- The number of slots. -/
  length : g.taken + gap s.ring.count s.ring.nextToClean s.head = g.written.length
  /-- What the slots hold. -/
  slots : ∀ i < s.ring.count,
    gap s.ring.count s.ring.nextToClean i < gap s.ring.count s.ring.nextToClean s.head →
    g.written[g.taken + gap s.ring.count s.ring.nextToClean i]? = some (s.writtenAt i)

/-- A move of refilling leaves alone the slots that wait. -/
theorem Refill.writtenAt
    (hmove : Refill K s s') (hwin : s.Window) {i : ℕ}
    (hlt : gap s.ring.count s.ring.nextToClean i < gap s.ring.count s.ring.nextToClean s.head) :
  s'.writtenAt i = s.writtenAt i
  := by
  have hle := hwin.head_le
  have huse : i ≠ s.ring.nextToUse := by
    rintro rfl
    omega
  have hnext (room : gap s.ring.count s.ring.nextToClean s.ring.nextToUse + 1 < s.ring.count) :
      i ≠ next s.ring.count s.ring.nextToUse := by
    rintro rfl
    rw [hwin.gap_next_use room] at hlt
    omega
  cases hmove with
  | recycled room _ =>
    simp [RxQueue.writtenAt, bufferAddr, RxQueue.handOver, RxRing.setDesc, huse, hnext room]
  | fresh room heq =>
    rw [heq] at huse
    have hnext := hnext room
    rw [heq] at hnext
    simp [RxQueue.writtenAt, bufferAddr, RxQueue.handOver, RxQueue.fill, RxRing.setDesc,
      RxRing.setBuffer, heq, huse, hnext]
  | wasted => rfl

/-- Refilling leaves the order alone. -/
theorem InOrder.refills
    (h : s.InOrder g) (hwin : s.Window) (hpath : Relation.ReflTransGen (Refill K) s s') :
  s'.InOrder g
  := by
  induction hpath with
  | refl => apply h
  | tail hpath hmove ih =>
    have hsame := hmove.sameRest
    constructor
    · rw [hsame.count, hsame.nextToClean, hsame.head]
      apply ih.length
    · intro i hi hlt
      rw [hsame.count] at hi
      rw [hsame.count, hsame.nextToClean, hsame.head] at hlt
      rw [hsame.count, hsame.nextToClean, hmove.writtenAt (hwin.refills hpath) hlt]
      apply ih.slots i hi hlt

/-- Only what has been written back and how much has been worked off matters. -/
theorem InOrder.congr
    {g' : Log} (h : s.InOrder g) (hwritten : g'.written = g.written) (htaken : g'.taken = g.taken) :
  s.InOrder g'
  := by
  constructor
  · rw [hwritten, htaken]
    exact h.length
  · rw [hwritten, htaken]
    exact h.slots

/-- A descriptor that is written back, with the address of its buffer, is the last one that
waits. -/
theorem InOrder.concat
    {g' : Log} (h : s.InOrder g) (hwin : s.Window) (hne : s.head ≠ s.ring.tail) (length : ℕ)
    (eop frameErr : Bool)
    (hwritten : g'.written = g.written ++ [{
      addr := s.bufferAddr s.head, length := length, eop := eop, frameErr := frameErr }])
    (htaken : g'.taken = g.taken) :
  { s with
    ring := s.ring.setDesc s.head fun _ =>
      { pktAddr := none, length := length, eop := eop, frameErr := frameErr }
    head := next s.ring.count s.head }.InOrder g'
  := by
  have hidx := hwin.indices
  rw [hwin.tail] at hne
  have hlt : gap s.ring.count s.ring.nextToClean s.head
      < gap s.ring.count s.ring.nextToClean s.ring.nextToUse := by
    have hgap := (gap_inj hidx.clean_lt hwin.head_lt hidx.use_lt).not.mpr hne
    have := hwin.head_le
    omega
  have hwide := gap_lt hidx.clean_lt hidx.use_lt
  have hnext := gap_next hidx.clean_lt hwin.head_lt (by omega)
  have hlen := h.length
  constructor
  · simp only [RxRing.setDesc, hwritten, htaken, List.length_append, List.length_singleton]
    omega
  · intro i hi hgap
    simp only [RxRing.setDesc, hwritten, htaken, RxQueue.writtenAt, bufferAddr] at hi hgap ⊢
    rw [hnext] at hgap
    by_cases hih : i = s.head
    · subst hih
      rw [hlen, List.getElem?_append_right le_rfl]
      simp
    · have hne' := (gap_inj hidx.clean_lt hi hwin.head_lt).not.mpr hih
      have hslot := h.slots i hi (by omega)
      rw [List.getElem?_append_left (by omega), hslot, Function.update_of_ne hih]
      rfl

/-- A write-back is the last one that waits. -/
theorem InOrder.writeBack
    (h : s.InOrder g) (hwin : s.Window) (hhalves : s.Halves K) (hne : s.head ≠ s.ring.tail)
    (length : ℕ) (eop frameErr : Bool) :
  { s with
    ring := s.ring.setDesc s.head fun _ =>
      { pktAddr := none, length := length, eop := eop, frameErr := frameErr }
    head := next s.ring.count s.head }.InOrder
      (logEvent K s g (.writeBack length eop frameErr))
  := by
  -- the address of the new one is that of its buffer
  have hown : s.HwOwns s.head := by
    have hpos := (gap_eq_zero (b := s.ring.nextToUse) hwin.head_lt).not.mpr (hwin.tail ▸ hne)
    unfold HwOwns
    rw [gap_self]
    omega
  have haddr := hhalves.descs s.head hwin.head_lt hown
  apply h.concat hwin hne
  · simp only [logEvent, haddr]
  · rfl

/-- The oldest descriptor that waits is worked off. -/
theorem InOrder.taken
    (h : s.InOrder g) (hwin : s.Window) (hne : s.ring.nextToClean ≠ s.head) {g' : Log}
    (hcount : s'.ring.count = s.ring.count) (hhead : s'.head = s.head)
    (hclean : s'.ring.nextToClean = next s.ring.count s.ring.nextToClean)
    (hdesc : s'.ring.desc = s.ring.desc)
    (hbuffer : ∀ i, i ≠ s.ring.nextToClean → i ≠ s.ring.nextToAlloc →
      s'.ring.buffer i = s.ring.buffer i)
    (hwritten : g'.written = g.written) (htaken : g'.taken = g.taken + 1) :
  s'.InOrder g'
  := by
  have hidx := hwin.indices
  have hlen := h.length
  have hgap := gap_next_left hidx.clean_lt hwin.head_lt hne
  constructor
  · rw [hcount, hhead, hclean, hwritten, htaken]
    omega
  · intro i hi hlt
    rw [hcount, hhead, hclean] at hlt
    rw [hcount] at hi
    have hic : i ≠ s.ring.nextToClean := by
      rintro rfl
      have := gap_next_self hidx.clean_lt
      have := gap_lt hidx.clean_lt hwin.head_lt
      omega
    have hgap' := gap_next_left hidx.clean_lt hi (Ne.symm hic)
    have hia : i ≠ s.ring.nextToAlloc := by
      rintro rfl
      have := hwin.head_le
      have := hidx.use_le
      omega
    have hslot := h.slots i hi (by omega)
    rw [hcount, hclean, hwritten, htaken]
    rw [← hgap', ← Nat.add_assoc, Nat.add_right_comm] at hslot
    rw [hslot]
    simp only [RxQueue.writtenAt, bufferAddr, hdesc, hbuffer i hic hia]

/-! ### What a turn does with the data -/

/-- Bytes that follow each other. -/
theorem bytesAt_append (page offset n m : ℕ) :
  bytesAt page offset n ++ bytesAt page (offset + n) m = bytesAt page offset (n + m)
  := by
  simp [bytesAt, List.range_add, Nat.add_assoc, Function.comp_def]

/-- A new skb holds the whole buffer, however it is made. -/
theorem newData_eq (t : Turn) (flags : BufferFlags) (page offset size : ℕ) :
  newData t flags page offset size = bytesAt page offset size
  := by
  unfold newData
  split
  · rfl
  · simp only
    rw [bytesAt_append]
    congr 1
    split <;> omega

/-- Without memory for an skb the call ends, and a buffer that an XDP program took is retired and
counted. -/
theorem receive_none {t : Turn} {p : Poll} (page : ℕ) (h : frameSkb t p s = none) :
  (p.skb = .null ∧ t.xdp.passes = true) ∧
      receive t page p s = finishPoll .null (useBuffer .kept s.ring.nextToClean page s) ∨
    ¬ (p.skb = .null ∧ t.xdp.passes = true) ∧ ∃ v u, receive t page p s
      = retireBuffer t page { p with skb := .err v, totalRxPackets := p.totalRxPackets + 1 }
        (useBuffer u s.ring.nextToClean page s)
  := by
  cases hp : p.skb with
  | skb skb => simp [frameSkb, hp] at h
  | err v =>
    refine Or.inr ⟨by simp, v, ?_⟩
    cases v with
    | consumed =>
      use .kept
      simp [receive, hp, takeData, settleTurn, useBuffer]
    | tx =>
      use .stray
      simp [receive, hp, takeData, settleTurn, useBuffer]
  | null =>
    cases hx : t.xdp with
    | consumed =>
      refine Or.inr ⟨by simp [XdpAct.passes], .consumed, .kept, ?_⟩
      simp [receive, hp, hx, runXdp, takeData, settleTurn, useBuffer]
    | tx =>
      refine Or.inr ⟨by simp [XdpAct.passes], .tx, .used, ?_⟩
      simp [receive, hp, hx, runXdp, takeData, settleTurn, useBuffer]
    | pass len =>
      have hfails : t.skbFails = true := by simpa [frameSkb, hp, hx, XdpAct.passes] using h
      refine Or.inl ⟨⟨rfl, rfl⟩, ?_⟩
      simp [receive, hp, hx, runXdp, takeData, buildSkb, constructSkb, hfails, settleTurn,
        useBuffer]
      rfl

/-- A buffer that an skb holds is retired. -/
theorem receive_some
    {t : Turn} {p : Poll} {skb : Skb} (page : ℕ) (h : frameSkb t p s = some skb) :
  ∃ u n, receive t page p s
      = retireBuffer t page { p with skb := .skb skb }
        { useBuffer u s.ring.nextToClean page s with nextSkb := n } ∧
    s.nextSkb ≤ n ∧ (p.skb = .null → skb.id = s.nextSkb ∧ n = s.nextSkb + 1)
  := by
  cases hp : p.skb with
  | err v => simp [frameSkb, hp] at h
  | skb old =>
    have hskb : skb = { old with len := old.len + (s.ring.desc s.ring.nextToClean).length } := by
      simpa [frameSkb, hp] using h.symm
    subst hskb
    use .used, s.nextSkb
    refine ⟨?_, le_rfl, by simp⟩
    unfold receive
    simp only [hp]
    rfl
  | null =>
    obtain ⟨⟨hpass, hfails⟩, hskb⟩ : (t.xdp.passes = true ∧ t.skbFails = false) ∧ {
        id := s.nextSkb
        len := t.xdp.length (s.ring.desc s.ring.nextToClean).length
        pktType := t.pktType } = skb := by simpa [frameSkb, hp] using h
    subst hskb
    cases hx : t.xdp with
    | consumed => simp [hx, XdpAct.passes] at hpass
    | tx => simp [hx, XdpAct.passes] at hpass
    | pass len =>
      unfold receive
      simp only [hp, if_true, hx, runXdp]
      rcases skb_cases hfails s.ring.nextToClean page (s.ring.desc s.ring.nextToClean).length
        (getRxBuffer s.ring.nextToClean s) with ⟨-, heq⟩ | ⟨-, heq⟩
      · use .used, s.nextSkb + 1
        refine ⟨?_, by omega, by simp⟩
        rw [heq]
        simp only [settleTurn, newSkb, hx]
        rfl
      · use .kept, s.nextSkb + 1
        refine ⟨?_, by omega, by simp⟩
        rw [heq]
        simp only [settleTurn, newSkb, hx]
        rfl

/-- Retiring a buffer that an skb holds, and ending its frame. -/
theorem retireBuffer_skb (t : Turn) (page : ℕ) (p : Poll) (s : RxQueue) {skb : Skb}
    (hp : p.skb = .skb skb) :
  retireBuffer t page p s =
    let d := s.ring.desc s.ring.nextToClean
    let s' := passClean (putRxBuffer t.reserved p.skb s.ring.nextToClean page s)
    let p' := { p with cleanedCount := p.cleanedCount + 1 }
    if d.eop then
      { s'.releaseSkb skb with poll := some (endedPoll p' (fate t d skb)) }
    else
      { s' with poll := some p' }
  := by
  unfold retireBuffer
  simp only
  split
  · exact endFrame_skb t _ { p with cleanedCount := p.cleanedCount + 1 } _ hp
  · rfl

end RxQueue

/-! ### Reassembly -/

/-- The frames that the driver has worked off, and the descriptors of the one it works on. -/
def frames (g : Log) : List (List Written) × List Written :=
  chunks Written.eop (g.written.take g.taken)

namespace RxQueue

variable {K : KernelConfig} {s s' : RxQueue} {g g' : Log}

/-- The variable `skb`, which waits in `rx_ring->skb` between two calls. -/
def current (s : RxQueue) : SkbPtr := s.poll.elim s.ring.skb Poll.skb

/-- The skbs passed on are the frames that were not discarded, and the skb of the driver is that
of the frame it works on. -/
structure Reassembled (s : RxQueue) (g : Log) : Prop where
  /-- Every frame that has ended has a fate. -/
  fates : (frames g).1.length = g.fates.length
  /-- The skbs passed to `ixgbevf_rx_skb` held the frames with this fate, in order. -/
  passed : g.passed = kept (fun f => decide (f = .passed)) frameBytes (frames g).1 g.fates
  /-- Without an skb the driver is between two frames. -/
  between : s.current = .null → (frames g).2 = []
  /-- An skb holds what the driver has taken of a frame. -/
  within : ∀ skb, s.current = .skb skb → (frames g).2 ≠ [] ∧
    g.data skb.id = frameBytes (frames g).2 ∧ skb.len = (frameBytes (frames g).2).length

/-- The skb that the driver works on has not been freed, and no skb is freed twice. -/
structure Live (s : RxQueue) : Prop where
  /-- The driver has no verdict of an XDP program. -/
  verdict : s.current.isErr = false
  /-- The skb of the driver. -/
  live : ∀ skb, s.current = .skb skb → skb.id < s.nextSkb ∧ s.skbReleases skb.id = 0
  /-- The skbs that have not been made. -/
  fresh : ∀ id, s.nextSkb ≤ id → s.skbReleases id = 0
  /-- An skb is freed or passed on once. -/
  once : ∀ id, s.skbReleases id ≤ 1

/-- One more descriptor has been worked off. -/
theorem frames_taken
    {w : Written} (hw : g.written[g.taken]? = some w) (hwritten : g'.written = g.written)
    (htaken : g'.taken = g.taken + 1) :
  frames g' = push Written.eop (frames g) w
  := by
  unfold frames
  rw [hwritten, htaken, List.take_add_one, hw, Option.toList_some, chunks_concat]

/-- The data of a descriptor go to the skb of the frame. -/
theorem Reassembled.logSkb
    {t : Turn} {d : RxDesc} {skb : Skb} {w : Written} {data : List (ℕ × ℕ)}
    (h : s.Reassembled g) (hw : g.written[g.taken]? = some w) (hd : d.eop = w.eop)
    (hdata : data = frameBytes ((frames g).2 ++ [w])) (hlen : skb.len = data.length)
    (hcur : s'.current = if d.eop then .null else .skb skb) :
  s'.Reassembled (RxQueue.logSkb t d skb data g)
  := by
  have hframes : frames (RxQueue.logSkb t d skb data g) = push Written.eop (frames g) w := by
    apply frames_taken hw <;> (unfold RxQueue.logSkb; simp only; split <;> rfl)
  rw [push, ← hd] at hframes
  cases heop : d.eop with
  | true =>
    -- the frame ends here
    simp only [heop, if_true] at hframes hcur
    simp only [RxQueue.logSkb, heop, if_true] at hframes ⊢
    constructor
    · rw [hframes]
      simp [h.fates]
    · rw [hframes, kept_concat _ _ h.fates, ← h.passed, hdata]
      simp
    · intro _
      rw [hframes]
    · intro skb' hskb'
      rw [hcur] at hskb'
      cases hskb'
  | false =>
    simp only [heop, Bool.false_eq_true, if_false] at hframes hcur
    simp only [RxQueue.logSkb, heop, Bool.false_eq_true, if_false] at hframes ⊢
    constructor
    · rw [hframes]
      exact h.fates
    · rw [hframes]
      exact h.passed
    · intro hnull
      rw [hcur] at hnull
      cases hnull
    · intro skb' hskb'
      rw [hcur] at hskb'
      cases hskb'
      rw [hframes]
      simp only [Function.update_self]
      rw [← hdata]
      exact ⟨by simp, rfl, hlen⟩

/-- The buffer in the slot at `next_to_clean`. -/
theorem writtenAt_bytes
    {page : ℕ} (hpage : s.ring.pageAt s.ring.nextToClean = some page) :
  (s.writtenAt s.ring.nextToClean).bytes
    = bytesAt page (s.ring.buffer s.ring.nextToClean).pageOffset
      (s.ring.desc s.ring.nextToClean).length
  := by
  unfold RxRing.pageAt at hpage
  simp [Written.bytes, RxQueue.writtenAt, bufferAddr, hpage]

/-- The skb of a frame holds the buffers of the frame up to this one. -/
theorem frameData_eq
    {t : Turn} {page : ℕ} {p : Poll} {skb : Skb} (h : s.Reassembled g)
    (hcur : s.current = p.skb) (hpage : s.ring.pageAt s.ring.nextToClean = some page)
    (hx : t.xdp = .pass none) (hskb : frameSkb t p s = some skb) :
  frameData t page p s g
      = frameBytes ((frames g).2 ++ [s.writtenAt s.ring.nextToClean]) ∧
    skb.len = (frameData t page p s g).length
  := by
  have hbytes := writtenAt_bytes hpage
  have hlength (page offset size : ℕ) : (bytesAt page offset size).length = size := by
    simp [bytesAt]
  cases hp : p.skb with
  | err v => simp [frameSkb, hp] at hskb
  | skb old =>
    obtain ⟨-, hdata, hlen⟩ := h.within old (hcur.trans hp)
    have hskb' : skb = { old with len := old.len + (s.ring.desc s.ring.nextToClean).length } := by
      simpa [frameSkb, hp] using hskb.symm
    simp [frameData, hp, frameBytes, hbytes, hdata, hskb', hlen, hlength]
  | null =>
    have hrest := h.between (hcur.trans hp)
    have hlen : skb.len = (s.ring.desc s.ring.nextToClean).length := by
      simp only [frameSkb, hp, hx, XdpAct.passes, Bool.true_and, XdpAct.length,
        Option.getD_none] at hskb
      split at hskb
      · cases hskb
        rfl
      · cases hskb
    simp [frameData, hp, newData_eq, hrest, frameBytes, hbytes, hx, XdpAct.length, hlength, hlen]

/-! ### A turn -/

/-- What putting a buffer leaves alone. -/
theorem putRxBuffer_same (reserved : Bool) (skb : SkbPtr) (i page : ℕ) (s : RxQueue) :
  let s' := putRxBuffer reserved skb i page s
  s'.ring.count = s.ring.count ∧ s'.ring.nextToClean = s.ring.nextToClean ∧
    s'.ring.desc = s.ring.desc ∧ s'.head = s.head ∧ s'.skbReleases = s.skbReleases ∧
    s'.nextSkb = s.nextSkb ∧
    ∀ j, j ≠ i → j ≠ s.ring.nextToAlloc → s'.ring.buffer j = s.ring.buffer j
  := by
  intro s'
  simp only [s', putRxBuffer_eq]
  split
  · refine ⟨rfl, rfl, rfl, rfl, rfl, rfl, ?_⟩
    intro j hi ha
    rw [recycle_buffer, if_neg hi, if_neg ha]
  · refine ⟨rfl, rfl, rfl, rfl, rfl, rfl, ?_⟩
    intro j hi _
    rw [drain_buffer, if_neg hi]

/-- What taking the data of a buffer leaves alone. -/
theorem useBuffer_same (u : Use) (i page : ℕ) (s : RxQueue) :
  let s' := useBuffer u i page s
  s'.ring.count = s.ring.count ∧ s'.ring.nextToClean = s.ring.nextToClean ∧
    s'.ring.nextToAlloc = s.ring.nextToAlloc ∧ s'.ring.desc = s.ring.desc ∧ s'.head = s.head ∧
    s'.skbReleases = s.skbReleases
  := by
  cases u <;> exact ⟨rfl, rfl, rfl, rfl, rfl, rfl⟩

/-- The skb of a frame is one that the driver works on, or a new one. -/
theorem frameSkb_live
    {t : Turn} {p : Poll} {skb : Skb} {n : ℕ} (hlive : s.Live) (hcur : s.current = p.skb)
    (hskb : frameSkb t p s = some skb) (hn : s.nextSkb ≤ n)
    (hnew : p.skb = .null → skb.id = s.nextSkb ∧ n = s.nextSkb + 1) :
  skb.id < n ∧ s.skbReleases skb.id = 0
  := by
  cases hp : p.skb with
  | err v => simp [frameSkb, hp] at hskb
  | skb old =>
    have hid : skb.id = old.id := by
      simp only [frameSkb, hp, Option.some.injEq] at hskb
      rw [← hskb]
    obtain ⟨hlt, hrel⟩ := hlive.live old (hcur.trans hp)
    rw [hid]
    exact ⟨by omega, hrel⟩
  | null =>
    obtain ⟨hid, hn'⟩ := hnew hp
    rw [hid]
    exact ⟨by omega, hlive.fresh _ le_rfl⟩

/-- A frame that is not pruned leaves no skb behind. -/
theorem endedPoll_skb {p : Poll} {f : Fate} (hf : f ≠ .pruned) :
  (endedPoll p f).skb = .null
  := by
  cases f with
  | pruned => exact absurd rfl hf
  | dropped => rfl
  | passed => rfl

/-- The skb of the driver stays what it was, or is gone. -/
theorem Live.congr
    (h : s.Live) (hcur : s'.current = s.current ∨ s'.current = .null)
    (hnext : s'.nextSkb = s.nextSkb) (hreleases : s'.skbReleases = s.skbReleases) :
  s'.Live
  := by
  constructor
  · rcases hcur with hcur | hcur
    · rw [hcur]
      exact h.verdict
    · rw [hcur]
      rfl
  · intro skb hskb
    rw [hnext, hreleases]
    rcases hcur with hcur | hcur
    · exact h.live skb (hcur.symm.trans hskb)
    · rw [hcur] at hskb
      cases hskb
  · rw [hnext, hreleases]
    exact h.fresh
  · rw [hreleases]
    exact h.once

/-- An skb that has not been freed is freed or passed on, after which the driver has none, or
stays the skb of the driver. -/
theorem Live.settle
    {skb : Skb} (ends : Bool) (h : s.Live) (hn : s.nextSkb ≤ s'.nextSkb)
    (hid : skb.id < s'.nextSkb) (hrel : s.skbReleases skb.id = 0)
    (hcur : s'.current = if ends then .null else .skb skb)
    (hreleases : s'.skbReleases = if ends then
      Function.update s.skbReleases skb.id (s.skbReleases skb.id + 1) else s.skbReleases) :
  s'.Live
  := by
  cases ends with
  | true =>
    simp only [if_true] at hcur hreleases
    constructor
    · rw [hcur]
      rfl
    · intro skb' hskb'
      rw [hcur] at hskb'
      cases hskb'
    · intro id hle
      rw [hreleases, Function.update_of_ne (by omega)]
      exact h.fresh id (by omega)
    · intro id
      rw [hreleases, Function.update_apply]
      split
      · omega
      · exact h.once id
  | false =>
    simp only [Bool.false_eq_true, if_false] at hcur hreleases
    constructor
    · rw [hcur]
      rfl
    · intro skb' hskb'
      rw [hcur] at hskb'
      cases hskb'
      rw [hreleases]
      exact ⟨hid, hrel⟩
    · intro id hle
      rw [hreleases]
      exact h.fresh id (by omega)
    · rw [hreleases]
      exact h.once

/-- What retiring a buffer that an skb holds comes to, where its frame is not pruned. -/
theorem retireBuffer_result
    {t : Turn} {page : ℕ} {p : Poll} {skb : Skb} (hs' : s' = retireBuffer t page p s)
    (hp : p.skb = .skb skb)
    (hkept : (s.ring.desc s.ring.nextToClean).eop = true →
      fate t (s.ring.desc s.ring.nextToClean) skb ≠ .pruned) :
  let d := s.ring.desc s.ring.nextToClean
  s'.current = (if d.eop then .null else .skb skb) ∧
    s'.skbReleases = (if d.eop then
      Function.update s.skbReleases skb.id (s.skbReleases skb.id + 1) else s.skbReleases) ∧
    s'.nextSkb = s.nextSkb
  := by
  intro d
  obtain ⟨-, -, -, -, hrel, hnext, -⟩ :=
    putRxBuffer_same t.reserved p.skb s.ring.nextToClean page s
  rw [hs', retireBuffer_skb t page p s hp]
  cases heop : d.eop with
  | true =>
    have heop' : (s.ring.desc s.ring.nextToClean).eop = true := heop
    simp only [heop', if_true]
    refine ⟨endedPoll_skb (hkept heop), ?_, hnext⟩
    simp only [releaseSkb, passClean, hrel]
  | false =>
    have heop' : (s.ring.desc s.ring.nextToClean).eop = false := heop
    simp only [heop', Bool.false_eq_true, if_false]
    exact ⟨hp, hrel, hnext⟩

/-- Retiring a buffer passes on to the next slot and leaves the others alone. -/
theorem retireBuffer_ring (t : Turn) (page : ℕ) (p : Poll) (s : RxQueue) :
  let s' := retireBuffer t page p s
  s'.ring.count = s.ring.count ∧ s'.head = s.head ∧
    s'.ring.nextToClean = next s.ring.count s.ring.nextToClean ∧ s'.ring.desc = s.ring.desc ∧
    ∀ j, j ≠ s.ring.nextToClean → j ≠ s.ring.nextToAlloc → s'.ring.buffer j = s.ring.buffer j
  := by
  intro s'
  obtain ⟨p', f, heq, -⟩ := retireBuffer_eq t page p s
  obtain ⟨hcount, hclean, hdesc, hhead, -, -, hbuffer⟩ :=
    putRxBuffer_same t.reserved p.skb s.ring.nextToClean page s
  simp only [s', heq]
  refine ⟨hcount, hhead, ?_, hdesc, hbuffer⟩
  simp only [passClean, hcount, hclean]

/-- Retiring a buffer works off the oldest descriptor that waits. -/
theorem InOrder.retireBuffer
    {s₂ : RxQueue} {u : Use} {n : ℕ} (h : s.InOrder g) (hwin : s.Window)
    (hne : s.ring.nextToClean ≠ s.head) (t : Turn) (page : ℕ) (p : Poll)
    (hs₂ : s₂ = { useBuffer u s.ring.nextToClean page s with nextSkb := n })
    (hwritten : g'.written = g.written) (htaken : g'.taken = g.taken + 1) :
  (RxQueue.retireBuffer t page p s₂).InOrder g'
  := by
  obtain ⟨ucount, uclean, ualloc, udesc, uhead, -⟩ := useBuffer_same u s.ring.nextToClean page s
  obtain ⟨hcount, hhead, hclean, hdesc, hbuffer⟩ := retireBuffer_ring t page p s₂
  have hring : s₂.ring = (useBuffer u s.ring.nextToClean page s).ring := by rw [hs₂]
  have hhead₂ : s₂.head = s.head := by rw [hs₂]; exact uhead
  rw [hring] at hcount hclean hdesc hbuffer
  apply h.taken hwin hne (hcount.trans ucount) (hhead.trans hhead₂) _ (hdesc.trans udesc) _
    hwritten htaken
  · rw [hclean, ucount, uclean]
  · intro i hic hia
    rw [hbuffer i (by rwa [uclean]) (by rwa [ualloc])]
    exact useBuffer_of_ne u page s hic

/-- A buffer that stays leaves the order alone. -/
theorem InOrder.failed (h : s.InOrder g) (page : ℕ) :
  (finishPoll .null (useBuffer .kept s.ring.nextToClean page s)).InOrder g
  := by
  constructor
  · exact h.length
  · intro i hi hlt
    have hslot := h.slots i hi hlt
    have haddr : (finishPoll .null (useBuffer .kept s.ring.nextToClean page s)).writtenAt i
        = s.writtenAt i := by
      by_cases hic : i = s.ring.nextToClean
      · subst hic
        simp [RxQueue.writtenAt, bufferAddr, finishPoll, useBuffer, keepRxBuffer, getRxBuffer,
          setBuffer, RxRing.setBuffer]
      · simp [RxQueue.writtenAt, bufferAddr, finishPoll, useBuffer, keepRxBuffer, getRxBuffer,
          setBuffer, RxRing.setBuffer, hic]
    rw [haddr]
    exact hslot

/-- What the log of a buffer that goes to an skb says of the descriptors. -/
theorem logSkb_taken (t : Turn) (d : RxDesc) (skb : Skb) (data : List (ℕ × ℕ)) (g : Log) :
  (logSkb t d skb data g).written = g.written ∧ (logSkb t d skb data g).taken = g.taken + 1
  := by
  unfold logSkb
  simp only
  split <;> exact ⟨rfl, rfl⟩

/-- The part of a turn from `ixgbevf_get_rx_buffer` on works off the oldest descriptor that waits,
or leaves it. -/
theorem InOrder.receive
    (h : s.InOrder g) (hwin : s.Window) (hne : s.ring.nextToClean ≠ s.head) (t : Turn) (page : ℕ)
    (p : Poll) :
  (RxQueue.receive t page p s).InOrder (logReceive t page p s g)
  := by
  cases hskb : frameSkb t p s with
  | some skb =>
    obtain ⟨u, n, heq, -, -⟩ := receive_some page hskb
    obtain ⟨hwritten, htaken⟩ := logSkb_taken t (s.ring.desc s.ring.nextToClean) skb
      (frameData t page p s g) g
    rw [heq]
    apply h.retireBuffer hwin hne t page _ rfl <;> simp [logReceive, hskb, hwritten, htaken]
  | none =>
    rcases receive_none page hskb with ⟨hfails, heq⟩ | ⟨htook, v, u, heq⟩
    · have hlog : logReceive t page p s g = g := by simp [logReceive, hskb, hfails]
      rw [heq, hlog]
      exact h.failed page
    · have hsame : useBuffer u s.ring.nextToClean page s
          = { useBuffer u s.ring.nextToClean page s with
              nextSkb := (useBuffer u s.ring.nextToClean page s).nextSkb } := rfl
      rw [heq]
      apply h.retireBuffer hwin hne t page _ hsame <;> simp [logReceive, hskb, htook]

/-- A part of a turn from `ixgbevf_get_rx_buffer` on takes the descriptor at `next_to_clean` to
the skb of its frame. -/
theorem receive_frames
    {t : Turn} {page : ℕ} {p : Poll} (h : s.Reassembled g) (hlive : s.Live) (hord : s.InOrder g)
    (hwin : s.Window) (hne : s.ring.nextToClean ≠ s.head)
    (hpage : s.ring.pageAt s.ring.nextToClean = some page) (hcur : s.current = p.skb)
    (hx : t.xdp = .pass none)
    (hkept : ∀ skb, frameSkb t p s = some skb →
      (s.ring.desc s.ring.nextToClean).eop = true →
      fate t (s.ring.desc s.ring.nextToClean) skb ≠ .pruned) :
  (receive t page p s).Reassembled (logReceive t page p s g) ∧ (receive t page p s).Live ∧
    (receive t page p s).InOrder (logReceive t page p s g)
  := by
  have hinorder := hord.receive hwin hne t page p
  cases hskb : frameSkb t p s with
  | none =>
    rcases receive_none page hskb with ⟨⟨hnull, hpass⟩, heq⟩ | ⟨htook, -⟩
    · have hlog : logReceive t page p s g = g := by simp [logReceive, hskb, hnull, hpass]
      rw [heq, hlog] at hinorder ⊢
      rw [hnull] at hcur
      refine ⟨?_, hlive.congr (Or.inr rfl) rfl rfl, hinorder⟩
      constructor
      · exact h.fates
      · exact h.passed
      · intro _
        exact h.between hcur
      · intro skb hskb
        cases hskb
    · have herr : p.skb.isErr = false := hcur ▸ hlive.verdict
      cases hp : p.skb with
      | null => simp [hp, hx, XdpAct.passes] at htook
      | err v => simp [hp, SkbPtr.isErr] at herr
      | skb skb => simp [frameSkb, hp] at hskb
  | some skb =>
    obtain ⟨u, n, heq, hn, hnew⟩ := receive_some page hskb
    obtain ⟨hid, hrel⟩ := frameSkb_live hlive hcur hskb hn hnew
    have hkept := hkept skb hskb
    obtain ⟨hdata, hlen⟩ := frameData_eq h hcur hpage hx hskb
    have hw := hord.slots _ hwin.indices.clean_lt (by
      have := (gap_eq_zero (b := s.head) hwin.indices.clean_lt).not.mpr hne
      simp only [gap_self]
      omega)
    rw [gap_self, Nat.add_zero] at hw
    have hlog : logReceive t page p s g
        = logSkb t (s.ring.desc s.ring.nextToClean) skb (frameData t page p s g) g := by
      simp [logReceive, hskb]
    obtain ⟨-, uclean, -, udesc, -, urel⟩ := useBuffer_same u s.ring.nextToClean page s
    obtain ⟨hcur', hrel', hnext⟩ :=
      retireBuffer_result heq rfl (by simpa only [uclean, udesc] using hkept)
    simp only [uclean, udesc, urel] at hcur' hrel'
    refine ⟨?_, ?_, hinorder⟩
    · rw [hlog]
      exact h.logSkb hw rfl hdata hlen hcur'
    · apply hlive.settle _ (by rw [hnext]; exact hn) (by rw [hnext]; exact hid) hrel hcur' hrel'

/-- What frames have become does not change while the skb of the driver stays. -/
theorem Reassembled.congr (h : s.Reassembled g) (hcur : s'.current = s.current) :
  s'.Reassembled g
  := by
  constructor
  · exact h.fates
  · exact h.passed
  · rw [hcur]
    exact h.between
  · rw [hcur]
    exact h.within

/-- There is no XDP program: every frame is passed on as it is. -/
def NoXdp : Event → Prop
  | .turn t => t.xdp = .pass none
  | _ => True

/-- The frame that a turn ends is not removed as one that came back. -/
def PrunesNone (s : RxQueue) : Event → Prop
  | .turn t => ∀ p ∈ s.poll, p.totalRxPackets < p.budget →
    (s.ring.desc s.ring.nextToClean).length ≠ 0 →
    (s.ring.desc s.ring.nextToClean).eop = true →
    ∀ skb ∈ frameSkb t p s, fate t (s.ring.desc s.ring.nextToClean) skb ≠ .pruned
  | _ => True

/-- A turn within the budget refills the ring, and then ends the call or receives the buffer at
`next_to_clean`, as the log says. -/
theorem cleanRxTurn_receives
    {t : Turn} {p : Poll} (hwin : s.Window) (hcounted : s.ring.Counted p.cleanedCount)
    (hbudget : p.totalRxPackets < p.budget) (hturn : cleanRxTurn K t p s = some s') :
  ∃ s₁ n, Relation.ReflTransGen (Refill K) s s₁ ∧
    (((s₁.ring.desc s₁.ring.nextToClean).length = 0 ∧ s' = finishPoll p.skb s₁ ∧
        logTurn K t p s g = g) ∨
      ∃ page, (s₁.ring.desc s₁.ring.nextToClean).length ≠ 0 ∧
        s₁.ring.pageAt s₁.ring.nextToClean = some page ∧
        s' = receive t page { p with cleanedCount := n } s₁ ∧
        logTurn K t p s g = logReceive t page { p with cleanedCount := n } s₁ g)
  := by
  unfold cleanRxTurn at hturn
  unfold logTurn
  rw [if_pos hbudget] at hturn ⊢
  obtain ⟨s₁, n, hpath, hs₁, hin⟩ : ∃ s₁ n,
      Relation.ReflTransGen (Refill K) s s₁ ∧
      s₁ = (if rxBufferWrite ≤ p.cleanedCount then allocRxBuffers K t.alloc p.cleanedCount s
        else s) ∧
      (if (s₁.ring.desc s₁.ring.nextToClean).length = 0 then some (finishPoll p.skb s₁)
        else (s₁.ring.buffer s₁.ring.nextToClean).page.map fun page =>
          receive t page { p with cleanedCount := n } s₁) = some s' := by
    by_cases hle : rxBufferWrite ≤ p.cleanedCount
    · simp only [if_pos hle] at hturn ⊢
      exact ⟨_, 0,
        (allocRxBuffers_refills t.alloc hwin hcounted.room hcounted.recycled).1, rfl, hturn⟩
    · simp only [if_neg hle] at hturn ⊢
      exact ⟨_, p.cleanedCount, Relation.ReflTransGen.refl, rfl, hturn⟩
  rw [← hs₁]
  use s₁, n, hpath
  by_cases hlen : (s₁.ring.desc s₁.ring.nextToClean).length = 0
  · rw [if_pos hlen] at hin ⊢
    rw [Option.some.injEq] at hin
    exact Or.inl ⟨hlen, hin.symm, rfl⟩
  · rw [if_neg hlen] at hin ⊢
    obtain ⟨page, hpage, hreceive⟩ := Option.map_eq_some_iff.mp hin
    refine Or.inr ⟨page, hlen, hpage, hreceive.symm, ?_⟩
    rw [hpage, Option.elim_some]
    rfl

/-- Refilling leaves the buffer that is received alone. -/
theorem frameSkb_refills
    {s₁ : RxQueue} (t : Turn) (p : Poll) (n : ℕ) (hwin : s.Window)
    (hpath : Relation.ReflTransGen (Refill K) s s₁)
    (hlen : (s₁.ring.desc s₁.ring.nextToClean).length ≠ 0) :
  s₁.ring.desc s₁.ring.nextToClean = s.ring.desc s.ring.nextToClean ∧
    frameSkb t { p with cleanedCount := n } s₁ = frameSkb t p s
  := by
  have hsame := refills_sameRest hpath
  have hne₁ := (hwin.refills hpath).clean_ne_head hlen
  rw [hsame.nextToClean, hsame.head] at hne₁
  obtain ⟨-, hdesc, -, -⟩ := refills_clean hpath hwin hne₁
  constructor
  · rw [hsame.nextToClean, hdesc]
  · simp only [frameSkb, hsame.nextToClean, hdesc, hsame.nextSkb]

/-- A turn that meets the condition takes a descriptor to the skb of its frame, or leaves things
as they are. -/
theorem cleanRxTurn_frames
    {t : Turn} {p : Poll} (h : s.Reassembled g) (hlive : s.Live) (hord : s.InOrder g)
    (hwin : s.Window) (hcounted : s.ring.Counted p.cleanedCount) (hp : s.poll = some p)
    (hx : NoXdp (.turn t)) (hG : s.PrunesNone (.turn t))
    (hturn : cleanRxTurn K t p s = some s') :
  s'.Reassembled (logTurn K t p s g) ∧ s'.Live ∧ s'.InOrder (logTurn K t p s g)
  := by
  have hcur : s.current = p.skb := by simp [current, hp]
  have hfinish {s₁ : RxQueue} (hpath : Relation.ReflTransGen (Refill K) s s₁) :
      (finishPoll p.skb s₁).Reassembled g ∧ (finishPoll p.skb s₁).Live ∧
        (finishPoll p.skb s₁).InOrder g := by
    have hsame := refills_sameRest hpath
    have hord₁ := hord.refills hwin hpath
    have hcur₁ : (finishPoll p.skb s₁).current = s.current := hcur.symm
    exact ⟨h.congr hcur₁, hlive.congr (Or.inl hcur₁) hsame.nextSkb hsame.skbReleases,
      hord₁.length, hord₁.slots⟩
  by_cases hbudget : p.totalRxPackets < p.budget
  · obtain ⟨s₁, n, hpath, ⟨-, hs', hlog⟩ | ⟨page, hlen, hpage, hs', hlog⟩⟩ :=
      cleanRxTurn_receives (g := g) hwin hcounted hbudget hturn
    · rw [hs', hlog]
      exact hfinish hpath
    · have hsame := refills_sameRest hpath
      have hwin₁ := hwin.refills hpath
      obtain ⟨hdesc, hskb⟩ := frameSkb_refills t p n hwin hpath hlen
      have hcur₁ : s₁.current = { p with cleanedCount := n }.skb := by
        simp only [current, hsame.poll, hp, Option.elim_some]
      have hstay := hcur₁.trans hcur.symm
      rw [hs', hlog]
      apply receive_frames (h.congr hstay)
        (hlive.congr (Or.inl hstay) hsame.nextSkb hsame.skbReleases)
        (hord.refills hwin hpath) hwin₁ (hwin₁.clean_ne_head hlen) hpage hcur₁ hx
      intro skb hmem heop
      rw [hskb] at hmem
      rw [hdesc] at heop hlen ⊢
      exact hG p hp hbudget hlen heop skb hmem
  · unfold cleanRxTurn at hturn
    unfold logTurn
    rw [if_neg hbudget] at hturn ⊢
    cases hturn
    exact hfinish Relation.ReflTransGen.refl

/-! ### Runs -/

/-- Releasing pages changes the pages alone. -/
theorem releasePages_pages {fuel i : ℕ} (h : releasePages fuel i s = some s') :
  ∃ pages, s' = { s with pages := pages }
  := by
  induction fuel generalizing s i with
  | zero =>
    rw [releasePages, Option.some.injEq] at h
    exact ⟨s.pages, h.symm⟩
  | succ fuel ih =>
    rw [releasePages] at h
    split at h
    · rw [Option.some.injEq] at h
      exact ⟨s.pages, h.symm⟩
    · split at h
      · cases h
      · obtain ⟨pages, rfl⟩ := ih h
        exact ⟨pages, rfl⟩

/-- Cleaning the ring frees the skb of the driver. -/
theorem Live.cleanRxRing (h : s.Live) (hp : s.poll = none) (hclean : RxQueue.cleanRxRing s = some s') :
  s'.Live
  := by
  have hcur : s.current = s.ring.skb := by simp [current, hp]
  unfold RxQueue.cleanRxRing at hclean
  cases hskb : s.ring.skb with
  | null =>
    simp only [hskb, Option.map_eq_some_iff] at hclean
    obtain ⟨s₁, hrelease, rfl⟩ := hclean
    obtain ⟨pages, rfl⟩ := releasePages_pages hrelease
    exact h.congr (Or.inr (by simp [current, hp])) rfl rfl
  | err v =>
    simp only [hskb] at hclean
    cases hclean
  | skb skb =>
    simp only [hskb, Option.map_eq_some_iff] at hclean
    obtain ⟨s₁, hrelease, rfl⟩ := hclean
    obtain ⟨pages, rfl⟩ := releasePages_pages hrelease
    obtain ⟨hid, hrel⟩ := h.live skb (hcur.trans hskb)
    exact h.settle true le_rfl hid hrel (by simp [current, releaseSkb, hp]) rfl

/-- A configured ring starts with an empty log. -/
theorem reassembled_empty (hcur : s.current = .null) :
  s.Reassembled emptyLog
  := by
  have hframes : frames emptyLog = ([], []) := rfl
  constructor
  · rfl
  · rfl
  · intro _
    rfl
  · intro skb hskb
    rw [hcur] at hskb
    cases hskb

end RxQueue

namespace Traffic

open RxQueue

variable {K : KernelConfig} {r r' : Traffic}

/-- What holds of a queue and its log in every state of a run. -/
structure Inv (r : Traffic) : Prop where
  /-- The skbs. -/
  live : r.queue.Live
  /-- The descriptors that wait. -/
  inOrder : r.queue.active = true → r.queue.InOrder r.log
  /-- The frames. -/
  reassembled : r.queue.active = true → r.queue.Reassembled r.log

/-- Events without an XDP program. -/
def WithoutXdp (_ : Traffic) (e : Event) : Prop := NoXdp e

/-- Events without an XDP program that remove no frame as one that came back. -/
def KeepsFrames (r : Traffic) (e : Event) : Prop := NoXdp e ∧ r.queue.PrunesNone e

/-- Without the log a run is one of the queue. -/
theorem reachable_queue
    {G : Traffic → Event → Prop} {G' : RxQueue → Event → Prop}
    (hG : ∀ r e, G r e → G' r.queue e) (h : (traffic K).Reachable G r) :
  (system K).Reachable G' r.queue
  := by
  induction h with
  | init h => exact TransSystem.Reachable.init h.1
  | step _ he hstep ih => exact TransSystem.Reachable.step ih (hG _ _ he) hstep.1

/-- Without an XDP program no frame is left to one. -/
theorem KeepsFrames.contained (r : Traffic) (e : Event) (h : KeepsFrames r e) :
  r.queue.FramesContained e
  := by
  cases e with
  | turn t =>
    intro p _ _ _ _ hxdp
    have hx : t.xdp = .pass none := h.1
    rw [hx] at hxdp
    cases hxdp
  | _ => trivial

/-- Every event that meets the condition keeps the invariant. -/
theorem step_inv
    {e : Event} (hreach : (traffic K).Reachable KeepsFrames r) (h : r.Inv) (hG : KeepsFrames r e)
    (hstep : (traffic K).step r e r') :
  r'.Inv
  := by
  obtain ⟨⟨hen, hstep⟩, hlog⟩ := hstep
  have hqueue := reachable_queue KeepsFrames.contained hreach
  have hinv := reachable_inv hqueue
  have hhalves := reachable_halves hqueue
  obtain ⟨s, g⟩ := r
  obtain ⟨s', g'⟩ := r'
  dsimp only at hen hstep hlog hinv hhalves
  subst hlog
  obtain ⟨hlive, hord, hre⟩ := h
  dsimp only at hlive hord hre
  cases e with
  | configure flags alloc =>
    cases hstep
    have hidle := hinv.idle hen.1
    have hpath := configureRxRing_refills (K := K) flags alloc hidle hinv.count_pos
    have hsame := refills_sameRest hpath
    have hnull : (configureRxRing K flags alloc s).current = .null := by
      simp only [current, hsame.poll, hsame.skb]
      simp [cleared, hidle.poll, hidle.skb]
    constructor
    · exact hlive.congr (Or.inr hnull) hsame.nextSkb hsame.skbReleases
    · intro _
      have hcleared : (s.cleared flags).InOrder emptyLog := by
        constructor
        · simp [cleared, emptyLog]
        · intro i _ hlt
          simp [cleared] at hlt
      exact hcleared.refills (cleared_window flags hidle hinv.count_pos) hpath
    · intro _
      exact reassembled_empty hnull
  | writeBack length eop frameErr =>
    cases hstep
    constructor
    · exact hlive.congr (Or.inl rfl) rfl rfl
    · intro hactive
      exact (hord hactive).writeBack (hinv.window hactive) (hhalves.halves hactive) hen length eop
        frameErr
    · intro hactive
      have hframes : frames (logEvent K s g (.writeBack length eop frameErr)) = frames g := by
        unfold frames
        simp only [logEvent]
        rw [List.take_append_of_le_length]
        have := (hord hactive).length
        omega
      obtain ⟨h₁, h₂, h₃, h₄⟩ := hre hactive
      constructor
      · rw [hframes]
        exact h₁
      · rw [hframes]
        exact h₂
      · rw [hframes]
        exact h₃
      · rw [hframes]
        exact h₄
  | poll budget =>
    cases hstep
    have hcur : (cleanRxIrq budget s).current = s.current := by
      simp [current, cleanRxIrq, hen.2]
    constructor
    · exact hlive.congr (Or.inl hcur) rfl rfl
    · intro hactive
      obtain ⟨h₁, h₂⟩ := hord hactive
      exact ⟨h₁, h₂⟩
    · intro hactive
      exact (hre hactive).congr hcur
  | turn t =>
    obtain ⟨p, hp, hturn⟩ := Option.bind_eq_some_iff.mp hstep
    have hactive := hinv.active_of_poll hp
    obtain ⟨h₁, h₂, h₃⟩ := cleanRxTurn_frames (hre hactive) hlive (hord hactive)
      (hinv.window hactive) (hinv.counted hactive p hp) hp hG.1 hG.2 hturn
    have hlog : logEvent K s g (.turn t) = logTurn K t p s g := by simp [logEvent, hp]
    constructor
    · exact h₂
    · intro _
      rw [hlog]
      exact h₃
    · intro _
      rw [hlog]
      exact h₁
  | clean =>
    have hidle := cleanRxRing_active hstep
    constructor
    · exact hlive.cleanRxRing hen hstep
    · intro hactive
      rw [hidle] at hactive
      cases hactive
    · intro hactive
      rw [hidle] at hactive
      cases hactive
  | drop page half =>
    cases hstep
    constructor
    · exact hlive.congr (Or.inl rfl) rfl rfl
    · intro hactive
      obtain ⟨h₁, h₂⟩ := hord hactive
      exact ⟨h₁, h₂⟩
    · intro hactive
      exact (hre hactive).congr rfl
  | take page half =>
    cases hstep
    constructor
    · exact hlive.congr (Or.inl rfl) rfl rfl
    · intro hactive
      obtain ⟨h₁, h₂⟩ := hord hactive
      exact ⟨h₁, h₂⟩
    · intro hactive
      exact (hre hactive).congr rfl

/-- The queue with its log after an event. -/
def after (K : KernelConfig) (r : Traffic) (e : Event) : Traffic :=
  { queue := RxQueue.after K r.queue e, log := logEvent K r.queue r.log e }

/-- An event that can happen takes the queue with its log to the one after it. -/
theorem step_after {e : Event} (h : Happens K r.queue e) :
  (traffic K).step r e (r.after K e)
  := ⟨h.step, rfl⟩

/-- A queue with 64 descriptors. -/
def fresh : Traffic := { queue := RxQueue.fresh, log := emptyLog }

/-- The queue after events from `fresh` on that all happen is reachable. -/
theorem run_reachable
    {G : Traffic → Event → Prop} {es : List Event}
    (hes : TransSystem.AllAlong (fun r e => Happens K r.queue e ∧ G r e) (after K) fresh es) :
  (traffic K).Reachable G (es.foldl (after K) fresh)
  := by
  have hinit : (traffic K).Reachable G fresh := TransSystem.Reachable.init ⟨fresh_init, rfl⟩
  apply TransSystem.Reachable.foldl _ hinit hes
  intro r e he
  exact ⟨he.2, step_after he.1⟩

instance WithoutXdp.decide (r : Traffic) : (e : Event) → Decidable (r.WithoutXdp e)
  | .turn t => inferInstanceAs (Decidable (t.xdp = .pass none))
  | .configure _ _ | .writeBack _ _ _ | .poll _ | .clean | .drop _ _ | .take _ _ => isTrue trivial

instance KeepsFrames.decide (r : Traffic) : (e : Event) → Decidable (r.KeepsFrames e)
  | .turn t => inferInstanceAs (Decidable (t.xdp = .pass none ∧
      ∀ p ∈ r.queue.poll, p.totalRxPackets < p.budget →
      (r.queue.ring.desc r.queue.ring.nextToClean).length ≠ 0 →
      (r.queue.ring.desc r.queue.ring.nextToClean).eop = true →
      ∀ skb ∈ frameSkb t p r.queue,
        fate t (r.queue.ring.desc r.queue.ring.nextToClean) skb ≠ .pruned))
  | .configure _ _ | .writeBack _ _ _ | .poll _ | .clean | .drop _ _ | .take _ _ =>
    isTrue ⟨trivial, trivial⟩

end Traffic

end Ixgbevf.Rx
