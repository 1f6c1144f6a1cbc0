import Ixgbevf.Rx.Budget

/-!
# The supply of an Rx ring

`ixgbevf_alloc_rx_buffers` stops at the first page that it does not get, and the ring goes on with
the buffers that it has, possibly with none.  Nothing asks for the rest but the loop of
`ixgbevf_clean_rx_irq`, which takes up the unused descriptors as its first count, refills the ring
at 16 counted slots, and may return with up to 16 of them counted.  So one call that finds memory
makes up for any shortage before it.
-/

namespace Ixgbevf.Rx

open Cyclic

namespace RxQueue

variable {K : KernelConfig} {s s' : RxQueue}

/-- Every page that the driver asks for is there and can be mapped. -/
def HasMemory (_ : RxQueue) : Event → Prop
  | .configure _ alloc => ∀ i, alloc i = .ok
  | .turn t => ∀ i, t.alloc i = .ok
  | .writeBack _ _ _ | .poll _ | .clean | .drop _ _ | .take _ _ => True

/-- All descriptors have been handed to the hardware but for `n`. -/
def Short (s : RxQueue) (n : ℕ) : Prop :=
  gap s.ring.count s.ring.nextToClean s.ring.nextToUse + n + 1 = s.ring.count

/-- A call knows of every descriptor that has not been handed to the hardware, and has 16 of them at
most once it has used up its budget. -/
structure Poll.Knows (p : Poll) (s : RxQueue) : Prop where
  /-- The count. -/
  short : s.Short p.cleanedCount
  /-- The bound. -/
  bounded : p.cleanedCount ≤ rxBufferWrite ∨ p.totalRxPackets < p.budget

/-- The supply of a ring: outside of a call 16 descriptors at most have not been handed to the
hardware, and a call knows of all of them. -/
structure Supplied (s : RxQueue) : Prop where
  /-- Outside of a call. -/
  idle : s.active = true → s.poll = none → s.ring.descUnused ≤ rxBufferWrite
  /-- In a call. -/
  call : s.active = true → ∀ p, s.poll = some p → Poll.Knows p s

/-- The unused descriptors of a ring that is short of `n`. -/
theorem Window.short_iff (h : s.Window) {n : ℕ} :
  s.Short n ↔ s.ring.descUnused = n
  := by
  have hunused := RxRing.descUnused_eq h.indices.clean_lt h.indices.use_lt
  unfold Short
  omega

/-- The count of a ring that is short of it covers the slots that have not been refilled. -/
theorem Window.counted_short {n : ℕ} (h : s.Window) (hshort : s.Short n) :
  s.ring.Counted n
  := by
  rw [h.short_iff] at hshort
  rw [← hshort]
  exact h.counted_descUnused

/-- How short a ring is depends on its size and its indices. -/
theorem Short.congr
    {n : ℕ} (h : s.Short n) (hcount : s'.ring.count = s.ring.count)
    (hclean : s'.ring.nextToClean = s.ring.nextToClean)
    (huse : s'.ring.nextToUse = s.ring.nextToUse) :
  s'.Short n
  := by
  unfold Short
  rw [hcount, hclean, huse]
  exact h

/-! ### A turn -/

/-- With memory for every page `ixgbevf_alloc_rx_buffers` hands over what the ring is short of. -/
theorem Window.short_alloc
    {alloc : ℕ → PageAnswer} {n : ℕ} (h : s.Window) (hshort : s.Short n)
    (halloc : ∀ i, alloc i = .ok) :
  (allocRxBuffers K alloc n s).Short 0
  := by
  have hidx := h.indices
  have hcounted := h.counted_short hshort
  have hsame := refills_sameRest
    (allocRxBuffers_refills (K := K) alloc h hcounted.room hcounted.recycled).1
  have hroom := hcounted.room
  obtain rfl : alloc = fun _ => .ok := funext halloc
  have huse := allocRxBuffers_ok (K := K) (n := n) hidx.use_lt (by omega)
  unfold Short at hshort ⊢
  rw [hsame.count, hsame.nextToClean, huse, gap_ahead_right hidx.clean_lt hidx.use_lt hroom]
  omega

/-- A turn that has budget left starts with a ring that is short of fewer than 16 descriptors. -/
theorem cleanRxTurn_refilled
    {t : Turn} {p : Poll} (h : s.Window) (hshort : s.Short p.cleanedCount)
    (hmem : ∀ i, t.alloc i = .ok) (hbudget : p.totalRxPackets < p.budget)
    (hturn : cleanRxTurn K t p s = some s') :
  ∃ s₁ n, Relation.ReflTransGen (Refill K) s s₁ ∧ s₁.Short n ∧ n < rxBufferWrite ∧
    (s' = finishPoll p.skb s₁ ∨
      (s₁.ring.desc s₁.ring.nextToClean).length ≠ 0 ∧
        ∃ page, s' = receive t page { p with cleanedCount := n } s₁)
  := by
  have hcounted := h.counted_short hshort
  have hrest {s₁ : RxQueue} {n : ℕ}
      (hin : (if (s₁.ring.desc s₁.ring.nextToClean).length = 0 then some (finishPoll p.skb s₁)
        else (s₁.ring.buffer s₁.ring.nextToClean).page.map fun page =>
          receive t page { p with cleanedCount := n } s₁) = some s') :
      s' = finishPoll p.skb s₁ ∨ (s₁.ring.desc s₁.ring.nextToClean).length ≠ 0 ∧
        ∃ page, s' = receive t page { p with cleanedCount := n } s₁ := by
    split at hin
    · cases hin
      exact Or.inl rfl
    · rename_i hlen
      obtain ⟨page, -, hreceive⟩ := Option.map_eq_some_iff.mp hin
      exact Or.inr ⟨hlen, page, hreceive.symm⟩
  unfold cleanRxTurn at hturn
  rw [if_pos hbudget] at hturn
  by_cases hle : rxBufferWrite ≤ p.cleanedCount
  · simp only [if_pos hle] at hturn
    refine ⟨_, 0, (allocRxBuffers_refills t.alloc h hcounted.room hcounted.recycled).1,
      h.short_alloc hshort hmem, by decide, hrest hturn⟩
  · simp only [if_neg hle] at hturn
    exact ⟨s, p.cleanedCount, Relation.ReflTransGen.refl, hshort, Nat.lt_of_not_le hle,
      hrest hturn⟩

/-- A ring that is short of 16 descriptors at most is supplied once its call has ended. -/
theorem Window.supplied_end
    {n : ℕ} (h : s.Window) (hpoll : s.poll = none) (hshort : s.Short n) (hle : n ≤ rxBufferWrite) :
  s.Supplied
  := by
  constructor
  · intro _ _
    rw [h.short_iff.mp hshort]
    exact hle
  · intro _ p hp
    rw [hpoll] at hp
    cases hp

/-- Retiring a buffer leaves the call with one descriptor more to hand over. -/
theorem Window.short_retire
    {n : ℕ} (h : s.Window) (page : ℕ) (t : Turn) (p : Poll) (hshort : s.Short n)
    (hne : s.ring.nextToClean ≠ s.head) :
  (RxQueue.retireBuffer t page p s).Short (n + 1)
  := by
  have hidx := h.indices
  obtain ⟨hcount, -, hclean, -, -⟩ := retireBuffer_ring t page p s
  have huse := retireBuffer_nextToUse t page p s
  have hleft := gap_next_left hidx.clean_lt hidx.use_lt (h.clean_ne hne).1
  unfold Short at hshort ⊢
  rw [hcount, hclean, huse]
  omega

/-- What follows on `ixgbevf_get_rx_buffer` keeps the supply, where fewer than 16 descriptors have not
been handed over. -/
theorem Received.supplied
    {t : Turn} {page : ℕ} {p : Poll} (hreceived : Received t page p s s') (h : s.Window)
    (h' : s'.Window) (hne : s.ring.nextToClean ≠ s.head) (hshort : s.Short p.cleanedCount)
    (hlt : p.cleanedCount < rxBufferWrite) :
  s'.Supplied
  := by
  cases hreceived with
  | failed =>
    apply h'.supplied_end rfl _ hlt.le
    exact hshort.congr rfl rfl rfl
  | retired u skb m total =>
    have hshort' := (h.useBuffer u s.ring.nextToClean page m).short_retire page t
      { p with skb := skb, totalRxPackets := total }
      (hshort.congr (by cases u <;> rfl) (by cases u <;> rfl) (by cases u <;> rfl))
      (by cases u <;> exact hne)
    obtain ⟨p', f, heq, hcount⟩ := retireBuffer_eq t page
      { p with skb := skb, totalRxPackets := total }
      { useBuffer u s.ring.nextToClean page s with nextSkb := m }
    have hpoll : (retireBuffer t page { p with skb := skb, totalRxPackets := total }
        { useBuffer u s.ring.nextToClean page s with nextSkb := m }).poll = some p' := by rw [heq]
    constructor
    · intro _ hnone
      rw [hpoll] at hnone
      cases hnone
    · intro _ p₁ hp₁
      rw [hpoll, Option.some.injEq] at hp₁
      subst hp₁
      constructor
      · rw [hcount]
        exact hshort'
      · left
        rw [hcount]
        exact hlt

/-- With memory for every page a turn keeps the supply. -/
theorem cleanRxTurn_supplied
    {t : Turn} {p : Poll} (h : s.Window) (hknows : Poll.Knows p s) (hmem : ∀ i, t.alloc i = .ok)
    (hturn : cleanRxTurn K t p s = some s') :
  s'.Supplied
  := by
  have h' := (cleanRxTurn_window h (h.counted_short hknows.short) hturn).1
  by_cases hbudget : p.totalRxPackets < p.budget
  · obtain ⟨s₁, n, hpath, hshort, hlt, rfl | ⟨hlen, page, rfl⟩⟩ :=
      cleanRxTurn_refilled h hknows.short hmem hbudget hturn
    · exact h'.supplied_end rfl (hshort.congr rfl rfl rfl) hlt.le
    · have h₁ := h.refills hpath
      exact (receive_received t page { p with cleanedCount := n } s₁).supplied h₁ h'
        (h₁.clean_ne_head hlen) hshort hlt
  · unfold cleanRxTurn at hturn
    rw [if_neg hbudget] at hturn
    cases hturn
    apply h'.supplied_end rfl (hknows.short.congr rfl rfl rfl)
    exact hknows.bounded.resolve_right hbudget

/-! ### Runs -/

/-- A call that is started with a budget knows of every descriptor that has not been handed over,
whatever came before it. -/
theorem Window.supplied_poll {budget : ℕ} (h : s.Window) (hpos : 0 < budget) :
  (cleanRxIrq budget s).Supplied
  := by
  constructor
  · intro _ hnone
    cases hnone
  · intro _ p hp
    cases hp
    exact ⟨h.short_iff.mpr rfl, Or.inr hpos⟩

/-- With memory for every page a ring is configured with no unused descriptor. -/
theorem Idle.supplied_configure
    {alloc : ℕ → PageAnswer} (flags : BufferFlags) (h : s.Idle) (hpos : 0 < s.ring.count)
    (hpoll : s.poll = none) (halloc : ∀ i, alloc i = .ok) :
  (configureRxRing K flags alloc s).Supplied
  := by
  have hwin := cleared_window_of flags h.releases hpos
  have hpath := configureRxRing_refills (K := K) flags alloc h hpos
  apply (hwin.refills hpath).supplied_end ((refills_sameRest hpath).poll.trans hpoll) _ (Nat.zero_le _)
  exact hwin.short_alloc (hwin.short_iff.mpr rfl) halloc

/-- The supply depends on the indices and the call. -/
theorem Supplied.congr
    (h : s.Supplied) (hactive : s'.active = s.active) (hpoll : s'.poll = s.poll)
    (hcount : s'.ring.count = s.ring.count) (hclean : s'.ring.nextToClean = s.ring.nextToClean)
    (huse : s'.ring.nextToUse = s.ring.nextToUse) :
  s'.Supplied
  := by
  constructor
  · intro ha hp
    rw [hactive] at ha
    rw [hpoll] at hp
    unfold RxRing.descUnused
    rw [hcount, hclean, huse]
    exact h.idle ha hp
  · intro ha p hp
    rw [hactive] at ha
    rw [hpoll] at hp
    obtain ⟨hshort, hbounded⟩ := h.call ha p hp
    exact ⟨hshort.congr hcount hclean huse, hbounded⟩

/-- With memory for every page an event keeps the supply. -/
theorem step_supplied
    {e : Event} (hinv : s.Inv) (h : s.Supplied) (hmem : HasMemory s e)
    (hstep : (system K).step s e s') :
  s'.Supplied
  := by
  obtain ⟨hen, heq⟩ := hstep
  cases e with
  | configure flags alloc =>
    cases heq
    exact (hinv.idle hen.1).supplied_configure flags hinv.count_pos hen.2 hmem
  | writeBack length eop frameErr =>
    cases heq
    exact h.congr rfl rfl rfl rfl rfl
  | poll budget =>
    cases heq
    constructor
    · intro _ hnone
      cases hnone
    · intro _ p hp
      cases hp
      exact ⟨(hinv.window hen.1).short_iff.mpr rfl, Or.inl (h.idle hen.1 hen.2)⟩
  | turn t =>
    obtain ⟨p, hp, hturn⟩ := Option.bind_eq_some_iff.mp heq
    have hactive : s.active = true := by
      by_contra hno
      rw [(hinv.idle (Bool.eq_false_of_not_eq_true hno)).poll] at hp
      cases hp
    exact cleanRxTurn_supplied (hinv.window hactive) (h.call hactive p hp) hmem hturn
  | clean =>
    have hactive := cleanRxRing_active heq
    constructor <;> intro hno <;> rw [hactive] at hno <;> cases hno
  | drop page half =>
    cases heq
    exact h.congr rfl rfl rfl rfl rfl
  | take page half =>
    cases heq
    exact h.congr rfl rfl rfl rfl rfl

/-- Once memory is there again, one call of `ixgbevf_clean_rx_irq` makes up for any shortage: in any
run on, whenever no call is under way, the hardware has all descriptors but 16 at most. -/
theorem reachable_supplied
    {G : RxQueue → Event → Prop} {s₀ s₁ : RxQueue} {budget : ℕ} {es : List Event}
    (hreach : (system K).Reachable G s₀) (hpos : 0 < budget)
    (hstart : (system K).step s₀ (.poll budget) s₁) (hpath : (system K).Path HasMemory s₁ es s)
    (hactive : s.active = true) (hidle : s.poll = none) :
  s.ring.descUnused ≤ rxBufferWrite
  := by
  have hreach₁ : (system K).Reachable TransSystem.always s₁ :=
    (hreach.mono fun _ _ _ => trivial).step trivial hstart
  obtain ⟨hen, heq⟩ := hstart
  cases heq
  have hsupplied := ((reachable_inv hreach).window hen.1).supplied_poll hpos
  refine Supplied.idle (s := s) ?_ hactive hidle
  refine (hpath.invariant (I := fun s => s.Inv ∧ s.Supplied) ?_
    ⟨reachable_inv hreach₁, hsupplied⟩).2
  intro s e s' ⟨hinv, hs⟩ hmem hstep
  exact ⟨step_inv hinv hstep, step_supplied hinv hs hmem hstep⟩

/-- A queue with 64 descriptors that was configured without memory. -/
def dry : RxQueue :=
  [.configure { usesLargeBuffer := false, usesBuildSkb := true } fun _ => .noPage].foldl
    (after cacheLine64) fresh

/-- A call of the queue that was configured without memory has started. -/
def polled : RxQueue := after cacheLine64 dry (.poll 64)

/-- The queue that was configured without memory, after a call that found some. -/
def watered : RxQueue := after cacheLine64 polled (.turn (plainTurn (.pass none)))

/-- The hardware has no descriptor of a ring that was configured without memory, and has them again
after a call that found some. -/
theorem watered_supplied :
  dry.ring.descUnused = 63 ∧ watered.ring.descUnused ≤ rxBufferWrite
  := by
  have hreach : (system cacheLine64).Reachable TransSystem.always dry := by
    apply run_reachable
    decide +kernel
  have hpoll : (system cacheLine64).step dry (.poll 64) polled := by
    apply Happens.step
    decide +kernel
  have hturn : (system cacheLine64).step polled (.turn (plainTurn (.pass none))) watered := by
    apply Happens.step
    decide +kernel
  have hmem : HasMemory polled (.turn (plainTurn (.pass none))) := by
    intro i
    rfl
  refine ⟨by decide +kernel, ?_⟩
  exact reachable_supplied hreach (by decide) hpoll (.cons hmem hturn (.nil watered))
    (by decide +kernel) (by decide +kernel)

end RxQueue

end Ixgbevf.Rx
