import Ixgbevf.Rx.Pages

/-!
# The bias of an Rx buffer

The driver takes a reference off the bias of a buffer before it looks at the data, and gives
it back or restocks the bias before the buffer goes back to the ring.  So the bias of a buffer
that holds a page is at least 1, and 16 bits hold it.
-/

namespace Ixgbevf.Rx

open Cyclic

/-- The bias that a use of the reference leaves of the bias `b`. -/
def Use.bias (b : ℕ) : Use → ℕ
  | .kept => b
  | _ => b - 1

namespace RxQueue

variable {K : KernelConfig} {s s' : RxQueue}

/-- The bias of every buffer that holds a page is at least 1 and at most `USHRT_MAX`. -/
def Biased (s : RxQueue) : Prop :=
  ∀ i < s.ring.count, ∀ page, s.ring.pageAt i = some page →
    1 ≤ (s.ring.buffer i).pagecntBias ∧ (s.ring.buffer i).pagecntBias ≤ ushrtMax

/-- Taking the data of a buffer changes no other buffer. -/
theorem useBuffer_of_ne (u : Use) {i j : ℕ} (page : ℕ) (s : RxQueue) (h : j ≠ i) :
  (useBuffer u i page s).ring.buffer j = s.ring.buffer j
  := by
  cases u <;>
    simp [useBuffer, rxBufferFlip, useHalf, getRxBuffer, keepRxBuffer, setBuffer, setPage,
      RxRing.setBuffer, Function.update_of_ne h]

/-- The bias that taking the data of a buffer leaves, which neither underflows nor overflows. -/
theorem useBuffer_bias
    (u : Use) (i page : ℕ) (s : RxQueue) (hpos : 1 ≤ (s.ring.buffer i).pagecntBias)
    (hle : (s.ring.buffer i).pagecntBias ≤ ushrtMax) :
  ((useBuffer u i page s).ring.buffer i).pagecntBias = u.bias (s.ring.buffer i).pagecntBias
  := by
  unfold ushrtMax at hle
  cases u <;>
    simp only [useBuffer, rxBufferFlip, useHalf, getRxBuffer, keepRxBuffer, setBuffer, setPage,
      RxRing.setBuffer, Function.update_self, Use.bias, ushrtMax] <;>
    omega

/-- A move of refilling keeps the biases in bounds. -/
theorem Biased.refill (h : s.Biased) (hmove : Refill K s s') :
  s'.Biased
  := by
  intro i hi page hp
  cases hmove with
  | recycled => exact h i hi page hp
  | fresh =>
    simp only [RxRing.pageAt, RxQueue.handOver, RxQueue.fill, RxRing.setDesc, RxRing.setBuffer,
      Function.update_apply] at hp hi ⊢
    split at hp
    · rename_i heq
      simp [heq, ushrtMax]
    · rename_i hne
      rw [if_neg hne]
      apply h i hi page hp
  | wasted => exact h i hi page hp

/-- Refilling keeps the biases in bounds. -/
theorem Biased.refills (h : s.Biased) (hpath : Relation.ReflTransGen (Refill K) s s') :
  s'.Biased
  := by
  induction hpath with
  | refl => apply h
  | tail _ hmove ih => apply ih.refill hmove

/-- The buffers after a page has been recycled. -/
theorem recycle_buffer (i page j : ℕ) (s : RxQueue) :
  (recycle i page s).ring.buffer j
    = if j = i then
        { s.ring.buffer i with
          page := none
          pagecntBias := if (s.ring.buffer i).pagecntBias = 0 then ushrtMax
            else (s.ring.buffer i).pagecntBias }
      else if j = s.ring.nextToAlloc then
        { s.ring.buffer i with
          pagecntBias := if (s.ring.buffer i).pagecntBias = 0 then ushrtMax
            else (s.ring.buffer i).pagecntBias }
      else
        s.ring.buffer j
  := by
  simp only [recycle, Function.update_apply]

/-- The buffers after a page has been given up. -/
theorem drain_buffer (unmap : Bool) (i page j : ℕ) (s : RxQueue) :
  (drain unmap i page s).ring.buffer j
    = if j = i then { s.ring.buffer i with page := none } else s.ring.buffer j
  := by
  simp only [drain, RxRing.setBuffer, Function.update_apply]

/-- Putting a buffer whose bias may be used up, where the others are in bounds. -/
theorem putRxBuffer_biased
    {reserved : Bool} {skb : SkbPtr} {i page : ℕ}
    (h : ∀ j < s.ring.count, j ≠ i → ∀ q, s.ring.pageAt j = some q →
      1 ≤ (s.ring.buffer j).pagecntBias ∧ (s.ring.buffer j).pagecntBias ≤ ushrtMax)
    (hi : (s.ring.buffer i).pagecntBias ≤ ushrtMax) :
  (putRxBuffer reserved skb i page s).Biased
  := by
  rw [putRxBuffer_eq]
  split
  · intro j hj q hq
    simp only [RxRing.pageAt] at hq
    rw [recycle_buffer] at hq ⊢
    split at hq
    · cases hq
    rename_i hji
    rw [if_neg hji]
    split
    · split
      · simp [ushrtMax]
      · simp only
        omega
    · rename_i hja
      rw [if_neg hja] at hq
      apply h j hj hji q hq
  · intro j hj q hq
    simp only [RxRing.pageAt] at hq
    rw [drain_buffer] at hq ⊢
    split at hq
    · cases hq
    rename_i hji
    rw [if_neg hji]
    apply h j hj hji q hq

/-- A turn keeps the biases in bounds. -/
theorem cleanRxTurn_biased
    {t : Turn} {p : Poll} (h : s.Biased) (hwin : s.Window)
    (hp : s.ring.Counted p.cleanedCount) (hturn : cleanRxTurn K t p s = some s') :
  s'.Biased
  := by
  obtain ⟨s₁, p₁, hpath, -, -, hend | ⟨-, -, page, hpage, hreceived⟩⟩ :=
    cleanRxTurn_cases hwin hp hturn
  · subst hend
    apply h.refills hpath
  have h₁ := h.refills hpath
  have hc := (hwin.refills hpath).indices.clean_lt
  obtain ⟨hpos, hle⟩ := h₁ _ hc page hpage
  have hbias (u : Use) := useBuffer_bias u s₁.ring.nextToClean page s₁ hpos hle
  have hother (u : Use) : ∀ j < s₁.ring.count, j ≠ s₁.ring.nextToClean → ∀ q,
      (useBuffer u s₁.ring.nextToClean page s₁).ring.pageAt j = some q →
      1 ≤ ((useBuffer u s₁.ring.nextToClean page s₁).ring.buffer j).pagecntBias ∧
        ((useBuffer u s₁.ring.nextToClean page s₁).ring.buffer j).pagecntBias ≤ ushrtMax := by
    intro j hj hne q hq
    rw [useBuffer_pageAt] at hq
    rw [useBuffer_of_ne u page s₁ hne]
    apply h₁ j hj q hq
  cases hreceived with
  | failed =>
    intro j hj q hq
    by_cases hne : j = s₁.ring.nextToClean
    · subst hne
      simp only [finishPoll, hbias, Use.bias]
      exact ⟨hpos, hle⟩
    · apply hother .kept j hj hne q hq
  | retired u skb n total =>
    obtain ⟨p', f, heq, -⟩ := retireBuffer_eq t page
      { p₁ with skb := skb, totalRxPackets := total }
      { useBuffer u s₁.ring.nextToClean page s₁ with nextSkb := n }
    rw [heq]
    have hput : (putRxBuffer t.reserved skb s₁.ring.nextToClean page
        { useBuffer u s₁.ring.nextToClean page s₁ with nextSkb := n }).Biased := by
      apply putRxBuffer_biased
      · cases u <;> apply hother
      · simp only [hbias]
        cases u <;> simp only [Use.bias] <;> omega
    cases u <;> exact hput

/-- In every state of a run the biases of a configured ring are in bounds. -/
theorem reachable_biased
    {G : RxQueue → Event → Prop} (h : (system K).Reachable G s) (hactive : s.active = true) :
  s.Biased
  := by
  suffices hinv : s.Inv ∧ (s.active = true → s.Biased) from hinv.2 hactive
  apply h.invariant
  · intro s hs
    refine ⟨init_inv hs, ?_⟩
    rw [hs.active]
    intro hno
    cases hno
  · rintro s e s' ⟨hinv, hbias⟩ - hstep
    refine ⟨step_inv hinv hstep, ?_⟩
    obtain ⟨hen, hstep⟩ := hstep
    cases e with
    | configure flags alloc =>
      cases hstep
      intro _
      have hempty : (s.cleared flags).Biased := by
        intro i _ page hp
        cases hp
      apply hempty.refills (configureRxRing_refills flags alloc (hinv.idle hen.1) hinv.count_pos)
    | writeBack length eop frameErr =>
      cases hstep
      exact hbias
    | poll budget =>
      cases hstep
      exact hbias
    | turn t =>
      obtain ⟨p, hp, hturn⟩ := Option.bind_eq_some_iff.mp hstep
      intro _
      have hactive := hinv.active_of_poll hp
      apply cleanRxTurn_biased (hbias hactive) (hinv.window hactive) _ hturn
      apply hinv.counted hactive p hp
    | clean =>
      intro hno
      rw [cleanRxRing_active hstep] at hno
      cases hno
    | drop page half =>
      cases hstep
      exact hbias
    | take page half =>
      cases hstep
      exact hbias

end RxQueue

end Ixgbevf.Rx
