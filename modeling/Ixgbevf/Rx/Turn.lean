import Ixgbevf.Rx.Window

/-!
# What a turn of the receive loop does

A turn that finds a descriptor written back takes the data of its buffer, and the reference
that came off the bias of the buffer is used for it, kept, or lost.  Then the buffer is
retired: its page goes back to the ring, or is given up.
-/

namespace Ixgbevf.Rx

open Cyclic

/-- What becomes of the reference that a turn takes off the bias of a buffer: it is held for
the half of the page, it goes back, or the driver flips the buffer without a holder. -/
inductive Use where
  | used
  | kept
  | stray
  deriving DecidableEq, Repr

/-- Whether a variable `skb` is an error pointer. -/
def SkbPtr.isErr : SkbPtr → Bool
  | .err _ => true
  | _ => false

/-- The program passes the frame on. -/
def XdpAct.passes : XdpAct → Bool
  | .pass _ => true
  | _ => false

namespace RxQueue

/-- The queue once the data of the buffer `i` has been taken. -/
def useBuffer (u : Use) (i page : ℕ) (s : RxQueue) : RxQueue :=
  match u with
  | .used => rxBufferFlip i (useHalf i page (getRxBuffer i s))
  | .kept => keepRxBuffer i (getRxBuffer i s)
  | .stray => rxBufferFlip i (getRxBuffer i s)

/-- The frame in the slot at `next_to_clean` is copied when an skb is made for it. -/
def Copies (s : RxQueue) (t : Turn) : Prop :=
  s.ring.flags.usesBuildSkb = false ∧
    t.xdp.length (s.ring.desc s.ring.nextToClean).length ≤ rxHdrSize

/-- What a turn that starts with the variable `skb` makes of it, with what becomes of the
reference and the number of the skb after. -/
inductive Taken (t : Turn) (s : RxQueue) : SkbPtr → Use → SkbPtr → ℕ → Prop where
  /-- The program drops the frame. -/
  | consumed : t.xdp = .consumed → Taken t s .null .kept (.err .consumed) s.nextSkb
  /-- The program transmits the frame. -/
  | xmit : t.xdp = .tx → Taken t s .null .used (.err .tx) s.nextSkb
  /-- A further buffer of a frame that the program dropped. -/
  | stillConsumed : Taken t s (.err .consumed) .kept (.err .consumed) s.nextSkb
  /-- A further buffer of a frame that the program transmitted. -/
  | stillXmit : Taken t s (.err .tx) .stray (.err .tx) s.nextSkb
  /-- A further buffer of an skb. -/
  | frag (skb : Skb) (len : ℕ) :
    Taken t s (.skb skb) .used (.skb { skb with len := len }) s.nextSkb
  /-- A new skb that holds the half of the page. -/
  | fresh (len : ℕ) : t.xdp.passes → t.skbFails = false → ¬ s.Copies t →
    Taken t s .null .used (.skb { id := s.nextSkb, len := len, pktType := t.pktType })
      (s.nextSkb + 1)
  /-- A new skb that the frame was copied to. -/
  | copy (len : ℕ) : t.xdp.passes → t.skbFails = false → s.Copies t →
    Taken t s .null .kept (.skb { id := s.nextSkb, len := len, pktType := t.pktType })
      (s.nextSkb + 1)

/-- What a turn from `ixgbevf_get_rx_buffer` on comes to. -/
inductive Received (t : Turn) (page : ℕ) (p : Poll) (s : RxQueue) : RxQueue → Prop where
  /-- There is no memory for an skb. -/
  | failed : p.skb = .null →
    Received t page p s (finishPoll .null (useBuffer .kept s.ring.nextToClean page s))
  /-- The buffer is retired. -/
  | retired (u : Use) (skb : SkbPtr) (n total : ℕ) : Taken t s p.skb u skb n →
    Received t page p s
      (retireBuffer t page { p with skb := skb, totalRxPackets := total }
        { useBuffer u s.ring.nextToClean page s with nextSkb := n })

/-- A new skb holds the half of the page or a copy of the frame. -/
theorem skb_cases
    {t : Turn} (h : t.skbFails = false) (i page size : ℕ) (s : RxQueue) :
  (s.ring.flags.usesBuildSkb = true ∨ rxHdrSize < t.xdp.length size) ∧
      takeData t i page size .null s
        = newSkb t.pktType (t.xdp.length size) (rxBufferFlip i (useHalf i page s)) ∨
    (s.ring.flags.usesBuildSkb = false ∧ t.xdp.length size ≤ rxHdrSize) ∧
      takeData t i page size .null s = newSkb t.pktType (t.xdp.length size) (keepRxBuffer i s)
  := by
  cases hbuild : s.ring.flags.usesBuildSkb with
  | true => simp [takeData, buildSkb, h, hbuild]
  | false =>
    by_cases hsize : rxHdrSize < t.xdp.length size
    · have hleft : ¬ t.xdp.length size - min t.headlen rxHdrSize = 0 := by omega
      simp [takeData, constructSkb, h, hbuild, hsize, hleft]
    · simp [takeData, constructSkb, h, hbuild, hsize]
      omega

/-- The turns that start without an skb. -/
theorem receive_of_null {t : Turn} {page : ℕ} {p : Poll} {s : RxQueue} (hp : p.skb = .null) :
  Received t page p s (receive t page p s)
  := by
  have hskb : ∀ u skb n, Taken t s .null u skb n → ∀ total,
      Received t page p s (retireBuffer t page { p with skb := skb, totalRxPackets := total }
        { useBuffer u s.ring.nextToClean page s with nextSkb := n }) := by
    intro u skb n h total
    apply Received.retired
    rw [hp]
    apply h
  unfold receive
  simp only [hp, if_true]
  cases hx : t.xdp with
  | consumed => apply hskb _ _ _ (Taken.consumed hx)
  | tx => apply hskb _ _ _ (Taken.xmit hx)
  | pass len =>
    have hpass : t.xdp.passes := by rw [hx]; rfl
    cases hfails : t.skbFails with
    | true =>
      simp only [runXdp, takeData, buildSkb, constructSkb, hfails, if_true, ite_self, settleTurn]
      apply Received.failed hp
    | false =>
      rcases skb_cases hfails s.ring.nextToClean page (s.ring.desc s.ring.nextToClean).length
        (getRxBuffer s.ring.nextToClean s) with ⟨hkept, h⟩ | ⟨hcopy, h⟩
      · simp only [runXdp, h]
        apply hskb _ _ _ (Taken.fresh _ hpass hfails _)
        rintro ⟨hbuild, hsize⟩
        rw [hx] at hkept
        rcases hkept with hkept | hkept
        · rw [show (getRxBuffer s.ring.nextToClean s).ring.flags = s.ring.flags from rfl,
            hbuild] at hkept
          cases hkept
        · rw [hx] at hsize
          omega
      · simp only [runXdp, h]
        apply hskb _ _ _ (Taken.copy _ hpass hfails _)
        apply hcopy

/-- What a turn from `ixgbevf_get_rx_buffer` on comes to. -/
theorem receive_received (t : Turn) (page : ℕ) (p : Poll) (s : RxQueue) :
  Received t page p s (receive t page p s)
  := by
  have hskb : ∀ u skb n, Taken t s p.skb u skb n → ∀ total,
      Received t page p s (retireBuffer t page { p with skb := skb, totalRxPackets := total }
        { useBuffer u s.ring.nextToClean page s with nextSkb := n }) := by
    intro u skb n h total
    apply Received.retired _ _ _ _ h
  cases hp : p.skb with
  | null => apply receive_of_null hp
  | err v =>
    rw [hp] at hskb
    unfold receive
    simp only [hp]
    cases v with
    | consumed => apply hskb _ _ _ Taken.stillConsumed
    | tx => apply hskb _ _ _ Taken.stillXmit
  | skb skb =>
    rw [hp] at hskb
    unfold receive
    simp only [hp]
    apply hskb _ _ _ (Taken.frag skb _)

/-! ### Retiring a buffer -/

/-- The page of the buffer `i` goes back to the ring, at `next_to_alloc`, with its references
restocked where the bias is used up. -/
def recycle (i page : ℕ) (s : RxQueue) : RxQueue :=
  let b := s.ring.buffer i
  let b := { b with pagecntBias := if b.pagecntBias = 0 then ushrtMax else b.pagecntBias }
  { s with
    ring := { s.ring with
      nextToAlloc := next s.ring.count s.ring.nextToAlloc
      buffer := Function.update (Function.update s.ring.buffer s.ring.nextToAlloc b) i
        { b with page := none } }
    pages := Function.update s.pages page { s.pages page with
      refCount := (s.pages page).refCount
        + if (s.ring.buffer i).pagecntBias = 0 then ushrtMax else 0 } }

/-- The references that the buffer `i` has to its page are given up. -/
def drain (unmap : Bool) (i page : ℕ) (s : RxQueue) : RxQueue :=
  { s with
    ring := s.ring.setBuffer i fun b => { b with page := none }
    pages := Function.update s.pages page { s.pages page with
      refCount := (s.pages page).refCount - (s.ring.buffer i).pagecntBias
      unmaps := (s.pages page).unmaps + if unmap then 1 else 0
      releases := (s.pages page).releases + 1 } }

/-- `ixgbevf_put_rx_buffer` recycles the page or drains it. -/
theorem putRxBuffer_eq (reserved : Bool) (skb : SkbPtr) (i page : ℕ) (s : RxQueue) :
  putRxBuffer reserved skb i page s
    = if canReuse reserved (s.pages page).refCount (s.ring.buffer i).pagecntBias then
        recycle i page s
      else
        drain skb.isErr i page s
  := by
  unfold putRxBuffer canReuseRxPage
  split
  · rename_i s₁ h
    simp only at h
    split at h
    · rename_i hreuse
      rw [if_pos hreuse]
      split at h
      · -- the bias is restocked
        rename_i hzero
        cases h
        simp only [reuseRxPage, setBuffer, setPage, recycle, RxRing.setBuffer, hzero, if_true,
          Function.update_self]
        congr 2
        funext j
        simp only [Function.update_apply]
        split <;> split <;> simp_all
      · rename_i hpos
        cases h
        simp only [reuseRxPage, setBuffer, recycle, RxRing.setBuffer, hpos, if_false,
          Nat.add_zero, Function.update_eq_self]
        congr 2
        funext j
        simp only [Function.update_apply]
        split
        · split <;> simp_all
        · rfl
    · cases h
  · rename_i s₁ h
    simp only at h
    split at h
    · split at h <;> cases h
    · rename_i hdrain
      cases h
      rw [if_neg hdrain]
      cases skb <;>
        simp [pageFragCacheDrain, dmaUnmapPage, setPage, setBuffer, drain, SkbPtr.isErr]

/-- The slot at `next_to_clean` has been worked off. -/
def passClean (s : RxQueue) : RxQueue :=
  { s with ring := { s.ring with nextToClean := next s.ring.count s.ring.nextToClean } }

/-- Ending a frame changes only the variables of the call and who has which skb. -/
theorem endFrame_eq (t : Turn) (d : RxDesc) (p : Poll) (s : RxQueue) (hp : s.poll = some p) :
  ∃ p' f, endFrame t d p s = { s with poll := some p', skbReleases := f } ∧
    p'.cleanedCount = p.cleanedCount
  := by
  unfold endFrame
  split
  · use p, s.skbReleases
    rw [← hp]
    exact ⟨rfl, rfl⟩
  · use { p with skb := .null }, s.skbReleases
  · rename_i skb hskb
    split
    · use { p with skb := .null }, (s.releaseSkb skb).skbReleases
      exact ⟨rfl, rfl⟩
    · split
      · use p, (s.releaseSkb skb).skbReleases
        exact ⟨rfl, rfl⟩
      · use { p with skb := .null, totalRxPackets := p.totalRxPackets + 1 },
          (s.releaseSkb skb).skbReleases
        exact ⟨rfl, rfl⟩

/-- Retiring a buffer puts it and passes on to the next slot. -/
theorem retireBuffer_eq (t : Turn) (page : ℕ) (p : Poll) (s : RxQueue) :
  ∃ p' f, retireBuffer t page p s
      = { passClean (putRxBuffer t.reserved p.skb s.ring.nextToClean page s) with
          poll := some p', skbReleases := f } ∧
    p'.cleanedCount = p.cleanedCount + 1
  := by
  unfold retireBuffer
  simp only
  split
  · obtain ⟨p', f, heq, hcount⟩ := endFrame_eq t (s.ring.desc s.ring.nextToClean)
      { p with cleanedCount := p.cleanedCount + 1 }
      { passClean (putRxBuffer t.reserved p.skb s.ring.nextToClean page s) with
        poll := some { p with cleanedCount := p.cleanedCount + 1 } } rfl
    use p', f
    refine ⟨?_, hcount⟩
    apply heq
  · use { p with cleanedCount := p.cleanedCount + 1 },
      (putRxBuffer t.reserved p.skb s.ring.nextToClean page s).skbReleases
    exact ⟨rfl, rfl⟩

end RxQueue

end Ixgbevf.Rx
