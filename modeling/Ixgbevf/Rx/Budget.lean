import Ixgbevf.Rx.Frames

/-!
# The budget of a call

`ixgbevf_poll` shares its budget, "the maximum number of packets the driver is allowed to
process", among the Rx rings.  `ixgbevf_clean_rx_irq` counts the frames that it passes on and the
descriptors that an XDP program took.  It does not count a frame that it frees for an error, for
want of padding, or as one that came back, and the buffers of such a frame go back to the hardware
within the call.
-/

namespace Ixgbevf.Rx

open Cyclic Chunks

/-- What a call of `ixgbevf_clean_rx_irq` has done. -/
structure Call where
  /-- `budget`. -/
  budget : ℕ
  /-- The turns that it has taken. -/
  turns : ℕ
  /-- The descriptors that it has worked off. -/
  taken : ℕ
  /-- The frames that it has freed instead of passing them on. -/
  lost : ℕ
  /-- What it has returned. -/
  returned : Option ℕ
  deriving DecidableEq, Repr

namespace RxQueue

/-- The frame that a turn ends is freed instead of being passed on. -/
def Loses (t : Turn) (p : Poll) (s : RxQueue) : Prop :=
  p.totalRxPackets < p.budget ∧ (s.ring.desc s.ring.nextToClean).length ≠ 0 ∧
    (s.ring.desc s.ring.nextToClean).eop = true ∧
    ∃ skb ∈ frameSkb t p s, fate t (s.ring.desc s.ring.nextToClean) skb ≠ .passed

instance (t : Turn) (p : Poll) (s : RxQueue) : Decidable (Loses t p s) :=
  inferInstanceAs (Decidable (_ ∧ _ ∧ _ ∧ ∃ skb ∈ frameSkb t p s, _))

/-- The call after a turn that takes the queue from `s` to `s'`. -/
def callTurn (t : Turn) (p : Poll) (s s' : RxQueue) (c : Call) : Call :=
  { c with
    turns := c.turns + 1
    taken := c.taken + gap s.ring.count s.ring.nextToClean s'.ring.nextToClean
    lost := c.lost + if Loses t p s then 1 else 0
    returned := if s'.poll.isNone then some p.totalRxPackets else none }

/-- A call that has just started. -/
def startedCall (budget : ℕ) : Call :=
  { budget := budget, turns := 0, taken := 0, lost := 0, returned := none }

/-- The call that is under way, or the last one, after an event that takes the queue from `s` to
`s'`. -/
def callEvent (s s' : RxQueue) (c : Call) : Event → Call
  | .poll budget => startedCall budget
  | .turn t => s.poll.elim c fun p => callTurn t p s s' c
  | .configure _ _ | .writeBack _ _ _ | .clean | .drop _ _ | .take _ _ => c

end RxQueue

/-- A queue with its log and its calls. -/
structure Calls where
  /-- The queue with its log. -/
  traffic : Traffic
  /-- The call that is under way, or the last one. -/
  call : Call

/-- The queue with its log and its calls. -/
def calls (K : KernelConfig) : TransSystem Calls RxQueue.Event where
  init r := (traffic K).init r.traffic ∧ r.call = RxQueue.startedCall 0
  step r e r' := (traffic K).step r.traffic e r'.traffic ∧
    r'.call = RxQueue.callEvent r.traffic.queue r'.traffic.queue r.call e

namespace Calls

open RxQueue

/-- The hardware spreads no frame over more than `m` descriptors. -/
def FramesOf (m : ℕ) (r : Calls) : Event → Prop
  | .writeBack _ _ _ => (chunks Written.eop r.traffic.log.written).2.length < m
  | _ => True

/-- Every turn of the call has a result, each but the last one works off a descriptor, and the call
returns its budget at most. -/
structure Ends (K : KernelConfig) (r : Calls) : Prop where
  /-- The next turn. -/
  proceeds : ∀ t, r.traffic.queue.poll.isSome → ∃ r', (calls K).step r (.turn t) r'
  /-- The turns. -/
  turns : r.call.turns ≤ r.call.taken + 1
  /-- The result. -/
  returned : ∀ n ∈ r.call.returned, n ≤ r.call.budget

/-- What a call may work off is bounded by its budget and the descriptors of a frame, in every run
under a condition on the events. -/
def Bounded (K : KernelConfig) (G : Calls → Event → Prop) : Prop :=
  ∃ f : ℕ → ℕ → ℕ, ∀ m r, (calls K).Reachable (fun r e => G r e ∧ FramesOf m r e) r →
    r.call.taken ≤ f r.call.budget m ∧ r.Ends K

/-- The frames that a call frees instead of passing them on are bounded in the same way. -/
def LossesBounded (K : KernelConfig) (G : Calls → Event → Prop) : Prop :=
  ∃ f : ℕ → ℕ → ℕ, ∀ m r, (calls K).Reachable (fun r e => G r e ∧ FramesOf m r e) r →
    r.call.lost ≤ f r.call.budget m

end Calls

/-! ### What a turn counts -/

namespace RxQueue

variable {K : KernelConfig} {s s' : RxQueue} {g : Log}

/-- The variables of the call after the frame with the last descriptor `d` has ended. -/
def framePoll (t : Turn) (d : RxDesc) (p : Poll) : Poll :=
  match p.skb with
  | .null => p
  | .err _ => { p with skb := .null }
  | .skb skb => endedPoll p (fate t d skb)

/-- Ending a frame leaves the call under way. -/
theorem endFrame_framePoll (t : Turn) (d : RxDesc) (p : Poll) (hp : s.poll = some p) :
  (endFrame t d p s).poll = some (framePoll t d p)
  := by
  unfold framePoll
  cases hskb : p.skb with
  | null => simp [endFrame, hskb, hp]
  | err v => simp [endFrame, hskb]
  | skb skb => rw [endFrame_skb t d p s hskb]

/-- The variables of the call after the buffer with the descriptor `d` has been retired. -/
def retiredPoll (t : Turn) (d : RxDesc) (p : Poll) : Poll :=
  let p := { p with cleanedCount := p.cleanedCount + 1 }
  if d.eop then framePoll t d p else p

/-- Retiring a buffer leaves the call under way. -/
theorem retireBuffer_poll (t : Turn) (page : ℕ) (p : Poll) (s : RxQueue) :
  (retireBuffer t page p s).poll
    = some (retiredPoll t (s.ring.desc s.ring.nextToClean) p)
  := by
  unfold retireBuffer retiredPoll
  simp only
  split
  · apply endFrame_framePoll
    rfl
  · rfl

/-- What a turn that works off a descriptor does to the variables of the call. -/
structure Counts (t : Turn) (p : Poll) (s : RxQueue) (p' : Poll) : Prop where
  /-- `budget`. -/
  budget : p'.budget = p.budget
  /-- The count does not fall. -/
  mono : p.totalRxPackets ≤ p'.totalRxPackets
  /-- It rises by one at most. -/
  step : p'.totalRxPackets ≤ p.totalRxPackets + 1
  /-- The end of a frame is counted unless it is lost. -/
  ended : (s.ring.desc s.ring.nextToClean).eop = true →
    p.totalRxPackets + 1 ≤ p'.totalRxPackets + if Loses t p s then 1 else 0

/-- A turn that takes a buffer to an skb counts the frame that it passes on. -/
theorem counts_skb
    {t : Turn} {p : Poll} {skb : Skb} (n : ℕ) (hbudget : p.totalRxPackets < p.budget)
    (hlen : (s.ring.desc s.ring.nextToClean).length ≠ 0) (hskb : frameSkb t p s = some skb) :
  Counts t p s (retiredPoll t (s.ring.desc s.ring.nextToClean)
    { p with cleanedCount := n, skb := .skb skb })
  := by
  cases heop : (s.ring.desc s.ring.nextToClean).eop with
  | false =>
    simp only [retiredPoll, heop, Bool.false_eq_true, if_false]
    constructor <;> simp [heop]
  | true =>
    simp only [retiredPoll, heop, if_true, framePoll]
    cases hfate : fate t (s.ring.desc s.ring.nextToClean) skb with
    | passed => constructor <;> simp [endedPoll]
    | dropped | pruned =>
      have hlost : Loses t p s := ⟨hbudget, hlen, heop, skb, hskb, by simp [hfate]⟩
      constructor <;> simp [endedPoll, hlost]

/-- A turn that finds a verdict of an XDP program counts the descriptor. -/
theorem counts_err (t : Turn) (p : Poll) (n : ℕ) (v : XdpVerdict) (s : RxQueue) :
  Counts t p s (retiredPoll t (s.ring.desc s.ring.nextToClean)
    { p with cleanedCount := n, skb := .err v, totalRxPackets := p.totalRxPackets + 1 })
  := by
  simp only [retiredPoll, framePoll]
  split <;> constructor <;> simp

/-- What the part of a turn from `ixgbevf_get_rx_buffer` on comes to: the call ends and loses no
frame, or the slot at `next_to_clean` is worked off. -/
theorem receive_counts
    {t : Turn} {p : Poll} (page n : ℕ) (hbudget : p.totalRxPackets < p.budget)
    (hlen : (s.ring.desc s.ring.nextToClean).length ≠ 0) :
  ((receive t page { p with cleanedCount := n } s).poll = none ∧ ¬ Loses t p s ∧
      (receive t page { p with cleanedCount := n } s).ring.nextToClean = s.ring.nextToClean ∧
      logReceive t page { p with cleanedCount := n } s g = g) ∨
    ∃ p', (receive t page { p with cleanedCount := n } s).poll = some p' ∧ Counts t p s p' ∧
      (receive t page { p with cleanedCount := n } s).ring.nextToClean
        = next s.ring.count s.ring.nextToClean ∧
      (logReceive t page { p with cleanedCount := n } s g).written = g.written ∧
      (logReceive t page { p with cleanedCount := n } s g).taken = g.taken + 1
  := by
  have hframe : frameSkb t { p with cleanedCount := n } s = frameSkb t p s := rfl
  cases hskb : frameSkb t p s with
  | some skb =>
    obtain ⟨u, m, heq, -, -⟩ := receive_some page (hframe.trans hskb)
    obtain ⟨ucount, uclean, -, udesc, -, -⟩ := useBuffer_same u s.ring.nextToClean page s
    obtain ⟨-, -, hclean, -, -⟩ := retireBuffer_ring t page
      { p with cleanedCount := n, skb := .skb skb }
      { useBuffer u s.ring.nextToClean page s with nextSkb := m }
    have hpoll := retireBuffer_poll t page { p with cleanedCount := n, skb := .skb skb }
      { useBuffer u s.ring.nextToClean page s with nextSkb := m }
    simp only [ucount, uclean, udesc] at hclean hpoll
    rw [heq]
    refine Or.inr ⟨_, hpoll, counts_skb n hbudget hlen hskb, hclean, ?_⟩
    simp only [logReceive, hframe, hskb]
    apply logSkb_taken
  | none =>
    rcases receive_none page (hframe.trans hskb) with ⟨hfails, heq⟩ | ⟨htook, v, u, heq⟩
    · refine Or.inl ⟨by rw [heq]; rfl, ?_, by rw [heq]; rfl, ?_⟩
      · rintro ⟨-, -, -, skb, hmem, -⟩
        rw [hskb] at hmem
        cases hmem
      · simp only [logReceive, hframe, hskb]
        exact if_pos hfails
    · obtain ⟨ucount, uclean, -, udesc, -, -⟩ := useBuffer_same u s.ring.nextToClean page s
      have hpoll := retireBuffer_poll t page { p with
        cleanedCount := n, skb := .err v, totalRxPackets := p.totalRxPackets + 1 }
        (useBuffer u s.ring.nextToClean page s)
      obtain ⟨-, -, hclean, -, -⟩ := retireBuffer_ring t page { p with
        cleanedCount := n, skb := .err v, totalRxPackets := p.totalRxPackets + 1 }
        (useBuffer u s.ring.nextToClean page s)
      simp only [ucount, uclean, udesc] at hclean hpoll
      rw [heq]
      refine Or.inr ⟨_, hpoll, counts_err t p n v s, hclean, ?_⟩
      simp only [logReceive, hframe, hskb, if_neg htook, true_and]

/-- Refilling leaves alone whether a frame is lost. -/
theorem loses_refills
    {s₁ : RxQueue} (t : Turn) (p : Poll) (hwin : s.Window)
    (hpath : Relation.ReflTransGen (Refill K) s s₁) :
  Loses t p s₁ ↔ Loses t p s
  := by
  by_cases hlen : (s₁.ring.desc s₁.ring.nextToClean).length = 0
  · have hlen' : (s.ring.desc s.ring.nextToClean).length = 0 := by
      by_contra hwritten
      obtain ⟨-, hdesc, -, -⟩ := refills_clean hpath hwin (hwin.clean_ne_head hwritten)
      rw [(refills_sameRest hpath).nextToClean, hdesc] at hlen
      exact hwritten hlen
    simp [Loses, hlen, hlen']
  · obtain ⟨hdesc, hskb⟩ := frameSkb_refills t p p.cleanedCount hwin hpath hlen
    unfold Loses
    rw [hdesc, hskb]

/-- What a turn comes to: the call ends and loses no frame, or the slot at `next_to_clean` is worked
off. -/
theorem cleanRxTurn_counts
    {t : Turn} {p : Poll} (g : Log) (hwin : s.Window) (hcounted : s.ring.Counted p.cleanedCount)
    (hturn : cleanRxTurn K t p s = some s') :
  s'.poll = none ∧ ¬ Loses t p s ∧ s'.ring.nextToClean = s.ring.nextToClean ∧
      logTurn K t p s g = g ∨
    ∃ p', s'.poll = some p' ∧ p.totalRxPackets < p.budget ∧ s.ring.nextToClean ≠ s.head ∧
      Counts t p s p' ∧ s'.ring.nextToClean = next s.ring.count s.ring.nextToClean ∧
      (logTurn K t p s g).written = g.written ∧ (logTurn K t p s g).taken = g.taken + 1
  := by
  by_cases hbudget : p.totalRxPackets < p.budget
  · obtain ⟨s₁, n, hpath, ⟨hlen, hs', hlog⟩ | ⟨page, hlen, hpage, hs', hlog⟩⟩ :=
      cleanRxTurn_receives (g := g) hwin hcounted hbudget hturn
    · rw [hs', hlog]
      refine Or.inl ⟨rfl, ?_, (refills_sameRest hpath).nextToClean, rfl⟩
      rw [← loses_refills t p hwin hpath]
      rintro ⟨-, hwritten, -⟩
      exact hwritten hlen
    · have hsame := refills_sameRest hpath
      have hne := (hwin.refills hpath).clean_ne_head hlen
      have hcounts := receive_counts (t := t) (p := p) (g := g) page n hbudget hlen
      have hloses := loses_refills t p hwin hpath
      rw [hs', hlog]
      rw [hsame.nextToClean, hsame.count, hloses] at hcounts
      rcases hcounts with hend | ⟨p', hpoll, hcounts, hclean, hlog'⟩
      · exact Or.inl hend
      · refine Or.inr ⟨p', hpoll, hbudget, ?_, ?_, hclean, hlog'⟩
        · rw [← hsame.nextToClean, ← hsame.head]
          exact hne
        · obtain ⟨hdesc, -⟩ := frameSkb_refills t p n hwin hpath hlen
          constructor
          · exact hcounts.budget
          · exact hcounts.mono
          · exact hcounts.step
          · have hended := hcounts.ended
            simp only [hdesc, hloses] at hended
            exact hended
  · unfold cleanRxTurn at hturn
    unfold logTurn
    rw [if_neg hbudget] at hturn ⊢
    cases hturn
    refine Or.inl ⟨rfl, ?_, rfl, rfl⟩
    rintro ⟨hlt, -⟩
    exact hbudget hlt

/-- A turn of a call that is under way has a result. -/
theorem cleanRxTurn_isSome
    {p : Poll} (t : Turn) (hwin : s.Window) (hcounted : s.ring.Counted p.cleanedCount) :
  ∃ s', cleanRxTurn K t p s = some s'
  := by
  have hin {s₁ : RxQueue} (h : s₁.Window) (n : ℕ) :
      ∃ s', (if (s₁.ring.desc s₁.ring.nextToClean).length = 0 then some (finishPoll p.skb s₁)
        else (s₁.ring.buffer s₁.ring.nextToClean).page.map fun page =>
          receive t page { p with cleanedCount := n } s₁) = some s' := by
    by_cases hlen : (s₁.ring.desc s₁.ring.nextToClean).length = 0
    · exact ⟨_, if_pos hlen⟩
    · obtain ⟨page, hpage⟩ := h.clean_page hlen
      rw [if_neg hlen, hpage]
      exact ⟨_, rfl⟩
  unfold cleanRxTurn
  split
  · by_cases hle : rxBufferWrite ≤ p.cleanedCount
    · simp only [if_pos hle]
      exact hin (hwin.refills
        (allocRxBuffers_refills t.alloc hwin hcounted.room hcounted.recycled).1) 0
    · simp only [if_neg hle]
      exact hin hwin p.cleanedCount
  · exact ⟨_, rfl⟩

/-! ### The descriptors that wait -/

/-- The slots from `next_to_clean` up to the one that the hardware writes back next hold what it has
written back and the driver has not worked off, in this order, but for the addresses. -/
def Waits (s : RxQueue) (g : Log) : Prop :=
  ∃ ws, ws.map Written.eop = g.written.map Written.eop ∧ s.InOrder { g with written := ws }

/-- The number of descriptors that wait. -/
theorem Waits.length (h : s.Waits g) :
  g.taken + gap s.ring.count s.ring.nextToClean s.head = g.written.length
  := by
  obtain ⟨ws, hws, hord⟩ := h
  have hlen := congrArg List.length hws
  rw [List.length_map, List.length_map] at hlen
  rw [← hlen]
  exact hord.length

/-- The oldest descriptor that waits is in the slot at `next_to_clean`. -/
theorem Waits.oldest (h : s.Waits g) (hwin : s.Window) (hne : s.ring.nextToClean ≠ s.head) :
  ∃ w, g.written[g.taken]? = some w ∧ w.eop = (s.ring.desc s.ring.nextToClean).eop
  := by
  obtain ⟨ws, hws, hord⟩ := h
  have hc := hwin.indices.clean_lt
  have hgap := (gap_eq_zero (b := s.head) hc).not.mpr hne
  have hw := hord.slots _ hc (by simp only [gap_self]; omega)
  rw [gap_self, Nat.add_zero] at hw
  have heop := congrArg (·[g.taken]?) hws
  simp only [List.getElem?_map] at heop hw
  rw [hw, Option.map_some] at heop
  obtain ⟨w, hw', hweop⟩ := Option.map_eq_some_iff.mp heop.symm
  exact ⟨w, hw', hweop⟩

/-- A write-back is the last one that waits. -/
theorem Waits.writeBack
    (K : KernelConfig) (h : s.Waits g) (hwin : s.Window) (hne : s.head ≠ s.ring.tail)
    (length : ℕ) (eop frameErr : Bool) :
  { s with
    ring := s.ring.setDesc s.head fun _ =>
      { pktAddr := none, length := length, eop := eop, frameErr := frameErr }
    head := next s.ring.count s.head }.Waits (logEvent K s g (.writeBack length eop frameErr))
  := by
  obtain ⟨ws, hws, hord⟩ := h
  refine ⟨ws ++ [{
    addr := s.bufferAddr s.head
    length := length
    eop := eop
    frameErr := frameErr }], ?_, ?_⟩
  · simp [logEvent, hws]
  · exact hord.concat hwin hne length eop frameErr rfl rfl

/-- A turn works off the oldest descriptor that waits, or none. -/
theorem Waits.turn
    {t : Turn} {p : Poll} (h : s.Waits g) (hwin : s.Window)
    (hcounted : s.ring.Counted p.cleanedCount) (hturn : cleanRxTurn K t p s = some s') :
  s'.Waits (logTurn K t p s g)
  := by
  obtain ⟨ws, hws, hord⟩ := h
  have hord' : s'.InOrder (logTurn K t p s { g with written := ws }) := by
    by_cases hbudget : p.totalRxPackets < p.budget
    · obtain ⟨s₁, n, hpath, ⟨hlen, hs', hlog⟩ | ⟨page, hlen, hpage, hs', hlog⟩⟩ :=
        cleanRxTurn_receives (g := { g with written := ws }) hwin hcounted hbudget hturn
      · have hord₁ := hord.refills hwin hpath
        rw [hs', hlog]
        exact ⟨hord₁.length, hord₁.slots⟩
      · have hwin₁ := hwin.refills hpath
        rw [hs', hlog]
        exact (hord.refills hwin hpath).receive hwin₁ (hwin₁.clean_ne_head hlen) t page _
    · unfold cleanRxTurn at hturn
      unfold logTurn
      rw [if_neg hbudget] at hturn ⊢
      cases hturn
      exact ⟨hord.length, hord.slots⟩
  rcases cleanRxTurn_counts g hwin hcounted hturn with
    ⟨hpoll, -, -, hlog⟩ | ⟨p', hpoll, -, -, -, -, hwritten, htaken⟩
  · rcases cleanRxTurn_counts { g with written := ws } hwin hcounted hturn with
      ⟨-, -, -, hlog'⟩ | ⟨p', hpoll', -⟩
    · rw [hlog]
      rw [hlog'] at hord'
      exact ⟨ws, hws, hord'⟩
    · rw [hpoll] at hpoll'
      cases hpoll'
  · rcases cleanRxTurn_counts { g with written := ws } hwin hcounted hturn with
      ⟨hpoll', -⟩ | ⟨-, -, -, -, -, -, hwritten', htaken'⟩
    · rw [hpoll] at hpoll'
      cases hpoll'
    · refine ⟨ws, ?_, hord'.congr hwritten'.symm ?_⟩
      · rw [hwritten, hws]
      · rw [htaken']
        exact htaken

end RxQueue

/-! ### What a call counts -/

/-- No frame in a stream of descriptors has more than `m` of them. -/
structure FramesFit (m : ℕ) (ws : List Written) : Prop where
  /-- What there is of a frame. -/
  part : ∀ k, (chunks Written.eop (ws.take k)).2.length ≤ m
  /-- A further descriptor has room in its frame. -/
  room : ∀ k < ws.length, (chunks Written.eop (ws.take k)).2.length < m

/-- One more descriptor. -/
theorem FramesFit.concat
    {m : ℕ} {ws : List Written} (h : FramesFit m ws)
    (hlt : (chunks Written.eop ws).2.length < m) (w : Written) :
  FramesFit m (ws ++ [w])
  := by
  have hold {k : ℕ} (hk : k ≤ ws.length) : (ws ++ [w]).take k = ws.take k :=
    List.take_append_of_le_length hk
  constructor
  · intro k
    rcases Nat.lt_or_ge ws.length k with hk | hk
    · rw [List.take_of_length_le (by simp; omega)]
      have := length_chunks_concat_le Written.eop ws w
      omega
    · rw [hold hk]
      exact h.part k
  · intro k hk
    rw [List.length_append, List.length_singleton] at hk
    rw [hold (by omega)]
    rcases Nat.lt_or_ge k ws.length with hlt' | hge
    · exact h.room k hlt'
    · rw [List.take_of_length_le hge]
      exact hlt

/-- What holds of a call that is under way, where the driver has worked off `part` descriptors of a
frame that has not ended. -/
structure Call.Running (m : ℕ) (p : Poll) (part : ℕ) (c : Call) : Prop where
  /-- `budget`. -/
  budget : p.budget = c.budget
  /-- The count. -/
  total : p.totalRxPackets ≤ p.budget
  /-- Every frame that has ended is counted or lost. -/
  taken : c.taken ≤ m * (p.totalRxPackets + c.lost) + part
  /-- Every turn has worked off a descriptor. -/
  turns : c.turns = c.taken
  /-- It has not returned. -/
  returned : c.returned = none

/-- What holds of a call in every state. -/
structure Call.Fits (m : ℕ) (c : Call) : Prop where
  /-- The descriptors. -/
  taken : c.taken ≤ m * (c.budget + c.lost + 1)
  /-- The frames that are lost have a descriptor each. -/
  lost : c.lost ≤ c.taken
  /-- The turns. -/
  turns : c.turns ≤ c.taken + 1
  /-- The result. -/
  returned : ∀ n ∈ c.returned, n ≤ c.budget

namespace Calls

open RxQueue

variable {K : KernelConfig} {m : ℕ} {r r' : Calls} {G : Calls → Event → Prop}

/-- What holds of the calls in every state of a run. -/
structure Inv (m : ℕ) (r : Calls) : Prop where
  /-- The descriptors that wait. -/
  waits : r.traffic.queue.active = true → r.traffic.queue.Waits r.traffic.log
  /-- The frames. -/
  frames : FramesFit m r.traffic.log.written
  /-- The call that is under way. -/
  running : ∀ p, r.traffic.queue.poll = some p →
    r.call.Running m p (Rx.frames r.traffic.log).2.length
  /-- The last call. -/
  fits : r.call.Fits m

/-- A turn that works off a descriptor keeps what holds of the call. -/
theorem running_turn
    {t : Turn} {p p' : Poll} {s s' : RxQueue} {g g' : Log} {c : Call}
    (h : c.Running m p (frames g).2.length) (hfits : c.Fits m) (hfit : FramesFit m g.written)
    (hwaits : s.Waits g) (hwin : s.Window) (hne : s.ring.nextToClean ≠ s.head)
    (hbudget : p.totalRxPackets < p.budget) (hcounts : Counts t p s p')
    (hclean : s'.ring.nextToClean = next s.ring.count s.ring.nextToClean)
    (hpoll : s'.poll = some p') (hwritten : g'.written = g.written)
    (htaken : g'.taken = g.taken + 1) :
  (callTurn t p s s' c).Running m p' (frames g').2.length ∧ (callTurn t p s s' c).Fits m
  := by
  have hc := hwin.indices.clean_lt
  have hgap := (gap_eq_zero (b := s.head) hc).not.mpr hne
  have hwide := gap_lt hc hwin.head_lt
  have hone : gap s.ring.count s.ring.nextToClean s'.ring.nextToClean = 1 := by
    rw [hclean, gap_next hc hc (by simp; omega), gap_self]
  obtain ⟨w, hw, heop⟩ := hwaits.oldest hwin hne
  have hroom := hfit.room _ (List.getElem?_eq_some_iff.mp hw).1
  have hframes := frames_taken hw hwritten htaken
  obtain ⟨hb, htotal, htake, hturns, hnone⟩ := h
  obtain ⟨loss, hloss⟩ : ∃ loss, loss = if Loses t p s then 1 else 0 := ⟨_, rfl⟩
  have hended := hcounts.ended
  rw [← hloss] at hended
  have hmono := hcounts.mono
  -- the descriptors of the frames that have ended, and of the one that has not
  have htake' : c.taken + 1 ≤ m * (p'.totalRxPackets + (c.lost + loss)) + (frames g').2.length := by
    rw [hframes, push]
    split
    next hends =>
      have hle : p.totalRxPackets + c.lost + 1 ≤ p'.totalRxPackets + (c.lost + loss) := by
        have := hended (heop.symm.trans hends)
        omega
      have hpart : (frames g).2.length < m := hroom
      calc c.taken + 1 ≤ m * (p.totalRxPackets + c.lost) + m := by omega
        _ = m * (p.totalRxPackets + c.lost + 1) := (Nat.mul_succ _ _).symm
        _ ≤ _ := Nat.mul_le_mul_left m hle
    next =>
      have hle : m * (p.totalRxPackets + c.lost) ≤ m * (p'.totalRxPackets + (c.lost + loss)) :=
        Nat.mul_le_mul_left m (by omega)
      rw [List.length_append, List.length_singleton]
      omega
  have hpart : (frames g').2.length ≤ m := by
    unfold frames
    rw [hwritten]
    exact hfit.part _
  have hstep := hcounts.step
  have hcall : callTurn t p s s' c = { c with
      turns := c.taken + 1, taken := c.taken + 1, lost := c.lost + loss } := by
    simp [callTurn, hone, hturns, hpoll, hnone, hloss]
  rw [hcall]
  constructor
  · constructor
    · exact hcounts.budget.trans hb
    · rw [hcounts.budget]
      omega
    · exact htake'
    · rfl
    · exact hnone
  · constructor
    · have hle : m * (p'.totalRxPackets + (c.lost + loss)) ≤ m * (c.budget + (c.lost + loss)) :=
        Nat.mul_le_mul_left m (by omega)
      simp only [Nat.mul_succ]
      omega
    · have := hfits.lost
      have : loss ≤ 1 := by
        rw [hloss]
        split <;> omega
      simp only
      omega
    · exact Nat.le_succ _
    · simp [hnone]

/-- A turn that ends the call keeps what holds of it. -/
theorem fits_turn
    {t : Turn} {p : Poll} {s s' : RxQueue} {c : Call} {part : ℕ} (h : c.Running m p part)
    (hfits : c.Fits m) (hpoll : s'.poll = none) (hlost : ¬ Loses t p s)
    (hclean : s'.ring.nextToClean = s.ring.nextToClean) :
  (callTurn t p s s' c).Fits m
  := by
  obtain ⟨hb, htotal, -, hturns, -⟩ := h
  have hsame : callTurn t p s s' c
      = { c with turns := c.turns + 1, returned := some p.totalRxPackets } := by
    simp [callTurn, hclean, hlost, hpoll]
  rw [hsame]
  constructor
  · exact hfits.taken
  · exact hfits.lost
  · exact (Nat.succ_le_succ hturns.le)
  · simp only [Option.mem_def, Option.some.injEq, forall_eq']
    omega

/-- Without its log and its calls a run is one of the queue. -/
theorem reachable_queue (h : (calls K).Reachable G r) :
  (system K).Reachable TransSystem.always r.traffic.queue
  := by
  induction h with
  | init h => exact TransSystem.Reachable.init h.1.1
  | step _ _ hstep ih => exact TransSystem.Reachable.step ih trivial hstep.1.1

/-- A stream without descriptors. -/
theorem framesFit_nil (m : ℕ) :
  FramesFit m []
  := by
  constructor
  · intro k
    simp
  · intro k hk
    simp at hk

/-- A write-back leaves alone what the driver has worked off. -/
theorem frames_writeBack
    {s : RxQueue} {g : Log} (K : KernelConfig) (h : s.Waits g) (length : ℕ) (eop frameErr : Bool) :
  frames (logEvent K s g (.writeBack length eop frameErr)) = frames g
  := by
  have hlen := h.length
  unfold frames
  simp only [logEvent]
  rw [List.take_append_of_le_length (by omega)]

/-- Every event keeps the invariant, where no frame has more than `m` descriptors. -/
theorem step_inv
    {e : Event} (hreach : (calls K).Reachable G r) (h : r.Inv m) (hG : FramesOf m r e)
    (hstep : (calls K).step r e r') :
  r'.Inv m
  := by
  obtain ⟨⟨⟨hen, hstep⟩, hlog⟩, hcall⟩ := hstep
  have hinv := reachable_inv (reachable_queue hreach)
  have hinv' := RxQueue.step_inv (K := K) hinv ⟨hen, hstep⟩
  obtain ⟨⟨s, g⟩, c⟩ := r
  obtain ⟨⟨s', g'⟩, c'⟩ := r'
  dsimp only at hen hstep hlog hcall hinv hinv'
  subst hlog hcall
  obtain ⟨hwaits, hfit, hrunning, hfits⟩ := h
  dsimp only at hwaits hfit hrunning hfits
  -- an event that leaves the call and the log alone
  have hkeeps (hs' : s'.active = s.active ∧ s'.poll = s.poll) (hwaits' : s.Waits g → s'.Waits g) :
      Calls.Inv m { traffic := { queue := s', log := g }, call := c } := by
    constructor
    · intro hactive
      exact hwaits' (hwaits (hs'.1.symm.trans hactive))
    · exact hfit
    · intro p hp
      exact hrunning p (hs'.2.symm.trans hp)
    · exact hfits
  cases e with
  | configure flags alloc =>
    cases hstep
    have hidle := hinv.idle hen.1
    have hpath := configureRxRing_refills (K := K) flags alloc hidle hinv.count_pos
    constructor
    · intro _
      have hcleared : (s.cleared flags).InOrder emptyLog := by
        constructor
        · simp [cleared, emptyLog]
        · intro i _ hlt
          simp [cleared] at hlt
      exact ⟨[], rfl, hcleared.refills (cleared_window flags hidle hinv.count_pos) hpath⟩
    · exact framesFit_nil m
    · intro p hp
      have hpoll : (configureRxRing K flags alloc s).poll = none :=
        (refills_sameRest hpath).poll.trans hidle.poll
      rw [hpoll] at hp
      cases hp
    · exact hfits
  | writeBack length eop frameErr =>
    cases hstep
    constructor
    · intro hactive
      exact (hwaits hactive).writeBack K (hinv.window hactive) hen length eop frameErr
    · exact hfit.concat hG _
    · intro p hp
      rw [frames_writeBack K (hwaits (hinv.active_of_poll hp))]
      exact hrunning p hp
    · exact hfits
  | poll budget =>
    cases hstep
    constructor
    · intro hactive
      obtain ⟨ws, hws, h₁, h₂⟩ := hwaits hactive
      exact ⟨ws, hws, h₁, h₂⟩
    · exact hfit
    · intro p hp
      cases hp
      constructor <;> simp [callEvent, startedCall]
    · constructor <;> simp [callEvent, startedCall]
  | turn t =>
    obtain ⟨p, hp, hturn⟩ := Option.bind_eq_some_iff.mp hstep
    have hactive := hinv.active_of_poll hp
    have hwin := hinv.window hactive
    have hwaits' := (hwaits hactive).turn hwin (hinv.counted hactive p hp) hturn
    have hcounts := cleanRxTurn_counts g hwin (hinv.counted hactive p hp) hturn
    have hlog : logEvent K s g (.turn t) = logTurn K t p s g := by simp [logEvent, hp]
    have hcall : callEvent s s' c (.turn t) = callTurn t p s s' c := by simp [callEvent, hp]
    rw [hlog, hcall]
    rcases hcounts with ⟨hend, hlost, hclean, hsame⟩ |
      ⟨p', hp', hbudget, hne, hcounts, hclean, hwritten, htaken⟩
    · constructor
      · intro _
        exact hwaits'
      · rw [hsame]
        exact hfit
      · intro p' hp'
        rw [hend] at hp'
        cases hp'
      · exact fits_turn (hrunning p hp) hfits hend hlost hclean
    · obtain ⟨hrun, hfits'⟩ := running_turn (hrunning p hp) hfits hfit (hwaits hactive) hwin hne hbudget
        hcounts hclean hp' hwritten htaken
      constructor
      · intro _
        exact hwaits'
      · rw [hwritten]
        exact hfit
      · intro q hq
        rw [hp', Option.some.injEq] at hq
        subst hq
        exact hrun
      · exact hfits'
  | clean =>
    have hidle := hinv'.idle (cleanRxRing_active hstep)
    have hactive := cleanRxRing_active hstep
    constructor
    · intro h
      rw [hactive] at h
      cases h
    · exact hfit
    · intro p hp
      rw [hidle.poll] at hp
      cases hp
    · exact hfits
  | drop page half =>
    cases hstep
    apply hkeeps ⟨rfl, rfl⟩
    rintro ⟨ws, hws, h₁, h₂⟩
    exact ⟨ws, hws, h₁, h₂⟩
  | take page half =>
    cases hstep
    apply hkeeps ⟨rfl, rfl⟩
    rintro ⟨ws, hws, h₁, h₂⟩
    exact ⟨ws, hws, h₁, h₂⟩

/-- The invariant holds in every run in which no frame has more than `m` descriptors. -/
theorem reachable_fits (h : (calls K).Reachable (fun r e => G r e ∧ FramesOf m r e) r) :
  r.Inv m
  := by
  induction h with
  | @init r h =>
    obtain ⟨⟨hinit, hlog⟩, hcall⟩ := h
    constructor
    · intro hactive
      rw [hinit.active] at hactive
      cases hactive
    · rw [hlog]
      exact framesFit_nil m
    · intro p hp
      rw [hinit.poll] at hp
      cases hp
    · rw [hcall]
      constructor <;> simp [startedCall]
  | step hreach hG hstep ih => exact step_inv hreach ih hG.2 hstep

/-- The call goes on to its end. -/
theorem ends (hreach : (calls K).Reachable G r) (hfits : r.call.Fits m) :
  r.Ends K
  := by
  have hinv := reachable_inv (reachable_queue hreach)
  constructor
  · intro t hpoll
    obtain ⟨p, hp⟩ := Option.isSome_iff_exists.mp hpoll
    have hactive := hinv.active_of_poll hp
    obtain ⟨s', hs'⟩ := cleanRxTurn_isSome (K := K) t (hinv.window hactive)
      (hinv.counted hactive p hp)
    refine ⟨{
      traffic := { queue := s', log := logEvent K r.traffic.queue r.traffic.log (.turn t) }
      call := callEvent r.traffic.queue s' r.call (.turn t) }, ⟨⟨hpoll, ?_⟩, rfl⟩, rfl⟩
    rw [apply, hp, Option.bind_some, hs']
  · exact hfits.turns
  · exact hfits.returned

/-- Under a condition on the events, a call works off a number of descriptors that is bounded by its
budget and the descriptors of a frame, and ends with its budget at most, exactly when the frames
that it frees instead of passing them on are bounded by them. -/
theorem bounded_iff (K : KernelConfig) (G : Calls → Event → Prop) :
  Bounded K G ↔ LossesBounded K G
  := by
  constructor
  · rintro ⟨f, hf⟩
    use f
    intro m r hr
    exact (reachable_fits hr).fits.lost.trans (hf m r hr).1
  · rintro ⟨f, hf⟩
    use fun b m => m * (b + f b m + 1)
    intro m r hr
    have hfits := (reachable_fits hr).fits
    refine ⟨hfits.taken.trans (Nat.mul_le_mul_left m ?_), ends hr hfits⟩
    have := hf m r hr
    omega

end Calls

/-! ### Frames with errors -/

namespace RxQueue

variable {K : KernelConfig} {s s' : RxQueue}

/-- With memory for every page the loop of `ixgbevf_alloc_rx_buffers` goes all the way. -/
theorem allocLoop_ok {n i : ℕ} (hi : i < s.ring.count) (hn : n ≤ s.ring.count) :
  (allocLoop K (fun _ => .ok) n i s).2 = ahead s.ring.count i n ∧
    (allocLoop K (fun _ => .ok) n i s).1.ring.nextToUse = s.ring.nextToUse
  := by
  induction n generalizing i s with
  | zero => exact ⟨(ahead_zero hi).symm, rfl⟩
  | succ n ih =>
    obtain ⟨s₁, halloc, hcount, huse⟩ : ∃ s₁, allocMappedPage K .ok i s = (s₁, true) ∧
        s₁.ring.count = s.ring.count ∧ s₁.ring.nextToUse = s.ring.nextToUse := by
      unfold allocMappedPage
      cases (s.ring.buffer i).page with
      | some page => exact ⟨s, rfl, rfl, rfl⟩
      | none => exact ⟨_, rfl, rfl, rfl⟩
    have hrest {s₂ : RxQueue} (h₂ : s₂.ring.count = s₁.ring.count)
        (huse₂ : s₂.ring.nextToUse = s₁.ring.nextToUse) :
        (allocLoop K (fun _ => .ok) n (next s₁.ring.count i) s₂).2 = ahead s.ring.count i (n + 1) ∧
          (allocLoop K (fun _ => .ok) n (next s₁.ring.count i) s₂).1.ring.nextToUse
            = s.ring.nextToUse := by
      rw [hcount] at h₂ ⊢
      obtain ⟨hend, huse'⟩ := ih (s := s₂) (i := next s.ring.count i) (h₂.symm ▸ next_lt hi)
        (by omega)
      refine ⟨?_, huse'.trans (huse₂.trans huse)⟩
      rw [hend, h₂, ← ahead_one hi, ahead_ahead hi (by omega), Nat.add_comm]
    simp only [allocLoop, halloc]
    exact hrest rfl rfl

/-- With memory for every page all slots are refilled. -/
theorem allocRxBuffers_ok {n : ℕ} (hi : s.ring.nextToUse < s.ring.count) (hn : n ≤ s.ring.count) :
  (allocRxBuffers K (fun _ => .ok) n s).ring.nextToUse = ahead s.ring.count s.ring.nextToUse n
  := by
  obtain ⟨hend, huse⟩ := allocLoop_ok (K := K) hi hn
  rcases hloop : allocLoop K (fun _ => .ok) n s.ring.nextToUse s with ⟨s₁, i⟩
  rw [hloop] at hend huse
  simp only [allocRxBuffers, hloop]
  split
  · exact hend
  · rename_i hsame
    rw [ne_eq, not_not] at hsame
    rw [hsame]
    exact hend

/-- Retiring a buffer leaves `next_to_use` alone. -/
theorem retireBuffer_nextToUse (t : Turn) (page : ℕ) (p : Poll) (s : RxQueue) :
  (retireBuffer t page p s).ring.nextToUse = s.ring.nextToUse
  := by
  obtain ⟨p', f, heq, -⟩ := retireBuffer_eq t page p s
  rw [heq, putRxBuffer_eq]
  split <;> rfl

/-- The call of a queue with the budget 1 that has passed nothing on. -/
def vainPoll (cleanedCount : ℕ) : Poll :=
  { budget := 1, cleanedCount := cleanedCount, totalRxPackets := 0, skb := .null }

/-- A call has passed nothing on, and the ring has been refilled but for the slots that it has
counted. -/
structure InVain (s : RxQueue) (cleanedCount : ℕ) : Prop where
  /-- The ring. -/
  window : s.Window
  /-- The call. -/
  poll : s.poll = some (vainPoll cleanedCount)
  /-- Not more slots have been counted than the next turn refills. -/
  le : cleanedCount ≤ rxBufferWrite
  /-- The other slots have been refilled. -/
  refilled : gap s.ring.count s.ring.nextToClean s.ring.nextToUse + cleanedCount + 1 = s.ring.count

/-- The count covers the slots that have not been refilled. -/
theorem InVain.counted {n : ℕ} (h : s.InVain n) :
  s.ring.Counted n
  := by
  have hidx := h.window.indices
  have hlt := gap_lt hidx.clean_lt hidx.alloc_lt
  have hrefilled := h.refilled
  constructor <;> omega

/-- A turn refills the ring once 16 slots have been counted. -/
theorem InVain.refill
    {n : ℕ} (h : s.InVain n) {xdp : XdpAct}
    (hturn : cleanRxTurn K (plainTurn xdp) (vainPoll n) s = some s')
    (hwritten : (s.ring.desc s.ring.nextToClean).length ≠ 0) :
  ∃ s₁ n₁ page, Relation.ReflTransGen (Refill K) s s₁ ∧ n₁ < rxBufferWrite ∧
    gap s.ring.count s.ring.nextToClean s₁.ring.nextToUse + n₁ + 1 = s.ring.count ∧
    s' = receive (plainTurn xdp) page (vainPoll n₁) s₁
  := by
  have hidx := h.window.indices
  have hcounted := h.counted
  have hrefilled := h.refilled
  have hin {s₁ : RxQueue} {n₁ : ℕ} (hpath : Relation.ReflTransGen (Refill K) s s₁)
      (hrest : (if (s₁.ring.desc s₁.ring.nextToClean).length = 0 then some (finishPoll .null s₁)
        else (s₁.ring.buffer s₁.ring.nextToClean).page.map fun page =>
          receive (plainTurn xdp) page (vainPoll n₁) s₁) = some s') :
      ∃ page, s' = receive (plainTurn xdp) page (vainPoll n₁) s₁ := by
    obtain ⟨-, hdesc, -, -⟩ := refills_clean hpath h.window (h.window.clean_ne_head hwritten)
    rw [(refills_sameRest hpath).nextToClean, hdesc, if_neg hwritten] at hrest
    obtain ⟨page, -, hreceive⟩ := Option.map_eq_some_iff.mp hrest
    exact ⟨page, hreceive.symm⟩
  unfold cleanRxTurn at hturn
  rw [if_pos (by simp [vainPoll])] at hturn
  by_cases hle : rxBufferWrite ≤ (vainPoll n).cleanedCount
  · simp only [if_pos hle] at hturn
    have hpath := (allocRxBuffers_refills (K := K) (plainTurn xdp).alloc h.window hcounted.room
      hcounted.recycled).1
    obtain ⟨page, hs'⟩ := hin hpath hturn
    refine ⟨_, 0, page, hpath, by decide, ?_, hs'⟩
    have huse := allocRxBuffers_ok (K := K) (n := n) hidx.use_lt (by omega)
    rw [show (plainTurn xdp).alloc = fun _ => .ok from rfl, huse,
      gap_ahead_right hidx.clean_lt hidx.use_lt hcounted.room]
    omega
  · simp only [if_neg hle] at hturn
    obtain ⟨page, hs'⟩ := hin Relation.ReflTransGen.refl hturn
    exact ⟨s, n, page, Relation.ReflTransGen.refl, Nat.lt_of_not_le hle, hrefilled, hs'⟩

/-- A turn with a frame whose descriptor has an error frees the frame. -/
theorem InVain.turn
    {n : ℕ} (h : s.InVain n) (hwritten : (s.ring.desc s.ring.nextToClean).length ≠ 0)
    (herr : (s.ring.desc s.ring.nextToClean).frameErr = true)
    (heop : (s.ring.desc s.ring.nextToClean).eop = true)
    (hturn : cleanRxTurn K (plainTurn (.pass none)) (vainPoll n) s = some s') :
  ∃ n', s'.InVain n' ∧ s'.ring.nextToClean = next s.ring.count s.ring.nextToClean ∧
    s'.ring.count = s.ring.count ∧ s'.head = s.head
  := by
  have hwin' := (cleanRxTurn_window h.window h.counted hturn).1
  obtain ⟨s₁, n₁, page, hpath, hlt, hgap, hs'⟩ := h.refill hturn hwritten
  have hsame := refills_sameRest hpath
  have hwin₁ := h.window.refills hpath
  have hne := h.window.clean_ne_head hwritten
  obtain ⟨-, hdesc, -, -⟩ := refills_clean hpath h.window hne
  rw [← hsame.nextToClean, ← hsame.head] at hne
  obtain ⟨skb, hskb⟩ : ∃ skb, frameSkb (plainTurn (.pass none)) (vainPoll n₁) s₁ = some skb :=
    ⟨_, rfl⟩
  obtain ⟨u, k, heq, -, -⟩ := receive_some page hskb
  rw [heq] at hs'
  obtain ⟨ucount, uclean, -, udesc, uhead, -⟩ := useBuffer_same u s₁.ring.nextToClean page s₁
  have huse : (useBuffer u s₁.ring.nextToClean page s₁).ring.nextToUse = s₁.ring.nextToUse := by
    cases u <;> rfl
  obtain ⟨hcount, hhead, hclean, -, -⟩ := retireBuffer_ring (plainTurn (.pass none)) page
    { vainPoll n₁ with skb := .skb skb }
    { useBuffer u s₁.ring.nextToClean page s₁ with nextSkb := k }
  have hpoll := retireBuffer_poll (plainTurn (.pass none)) page { vainPoll n₁ with skb := .skb skb }
    { useBuffer u s₁.ring.nextToClean page s₁ with nextSkb := k }
  have huse' := retireBuffer_nextToUse (plainTurn (.pass none)) page
    { vainPoll n₁ with skb := .skb skb }
    { useBuffer u s₁.ring.nextToClean page s₁ with nextSkb := k }
  rw [← hs'] at hcount hhead hclean hpoll huse'
  simp only [ucount, uclean, udesc, uhead, huse] at hcount hhead hclean hpoll huse'
  rw [hsame.count] at hcount
  rw [hsame.head] at hhead
  rw [hsame.count, hsame.nextToClean] at hclean
  rw [hsame.nextToClean, hdesc] at hpoll
  have hfate : fate (plainTurn (.pass none)) (s.ring.desc s.ring.nextToClean) skb = .dropped := by
    simp [fate, herr, plainTurn]
  refine ⟨n₁ + 1, ?_, hclean, hcount, hhead⟩
  constructor
  · exact hwin'
  · rw [hpoll]
    simp [retiredPoll, framePoll, heop, hfate, endedPoll, vainPoll]
  · exact hlt
  · have hnext := gap_next_left hwin₁.indices.clean_lt hwin₁.indices.use_lt (hwin₁.clean_ne hne).1
    rw [hsame.nextToClean, hsame.count] at hnext
    rw [hcount, hclean, huse']
    omega

end RxQueue

namespace Calls

open RxQueue

variable {K : KernelConfig} {r r' : Calls} {G : Calls → Event → Prop}

/-- A call with the budget 1 has passed nothing on, and waits for the hardware. -/
structure Starved (r : Calls) : Prop where
  /-- The run up to here. -/
  reach : (calls cacheLine64).Reachable (fun r e => TransSystem.always r e ∧ FramesOf 1 r e) r
  /-- The ring. -/
  count : r.traffic.queue.ring.count = 64
  /-- The call. -/
  vain : ∃ n, r.traffic.queue.InVain n
  /-- Nothing waits. -/
  head : r.traffic.queue.head = r.traffic.queue.ring.nextToClean
  /-- The last frame has ended. -/
  part : (chunks Written.eop r.traffic.log.written).2 = []
  /-- The budget. -/
  budget : r.call.budget = 1

/-- The hardware writes back a frame with an error, and the call works it off and goes on. -/
theorem Starved.next (h : Starved r) :
  ∃ r', Starved r' ∧ r'.call.taken = r.call.taken + 1
  := by
  obtain ⟨hreach, hcount, ⟨n, hvain⟩, hhead, hpart, hbudget⟩ := h
  obtain ⟨⟨s, g⟩, c⟩ := r
  dsimp only at hcount hvain hhead hpart hbudget
  have hidx := hvain.window.indices
  have hrefilled := hvain.refilled
  have hle := hvain.le
  -- the hardware has room for a frame
  have hne : s.head ≠ s.ring.tail := by
    rw [hhead, hvain.window.tail]
    intro heq
    rw [heq, gap_self, hcount] at hrefilled
    unfold rxBufferWrite at hle
    omega
  obtain ⟨s₁, hs₁⟩ : ∃ s₁, s₁ = { s with
      ring := s.ring.setDesc s.head fun _ =>
        { pktAddr := none, length := 60, eop := true, frameErr := true }
      head := Cyclic.next s.ring.count s.head } := ⟨_, rfl⟩
  have hvain₁ : s₁.InVain n := by
    rw [hs₁]
    exact ⟨hvain.window.writeBack hne 60 true true, hvain.poll, hle, hrefilled⟩
  have hdesc : s₁.ring.desc s₁.ring.nextToClean
      = { pktAddr := none, length := 60, eop := true, frameErr := true } := by
    simp [hs₁, RxRing.setDesc, hhead]
  have hhead₁ : s₁.head = Cyclic.next s.ring.count s.ring.nextToClean := by rw [hs₁, hhead]
  have hsame₁ : s₁.ring.count = s.ring.count ∧ s₁.ring.nextToClean = s.ring.nextToClean := by
    rw [hs₁]
    exact ⟨rfl, rfl⟩
  have hstep₁ : (calls cacheLine64).step ⟨⟨s, g⟩, c⟩ (.writeBack 60 true true)
      ⟨⟨s₁, logEvent cacheLine64 s g (.writeBack 60 true true)⟩, c⟩ :=
    ⟨⟨⟨hne, by rw [hs₁]; rfl⟩, rfl⟩, rfl⟩
  have hreach₁ := hreach.step ⟨trivial, by simp [FramesOf, hpart]⟩ hstep₁
  -- the call works it off
  obtain ⟨s₂, hturn⟩ := cleanRxTurn_isSome (K := cacheLine64) (plainTurn (.pass none))
    hvain₁.window (p := vainPoll n) hvain₁.counted
  obtain ⟨n', hvain₂, hclean₂, hcount₂, hhead₂⟩ := hvain₁.turn (by simp [hdesc]) (by simp [hdesc])
    (by simp [hdesc]) hturn
  have hpoll₁ := hvain₁.poll
  rcases cleanRxTurn_counts (logEvent cacheLine64 s g (.writeBack 60 true true)) hvain₁.window
    hvain₁.counted hturn with ⟨hnone, -⟩ | ⟨p', -, -, -, -, -, hwritten, -⟩
  · rw [hvain₂.poll] at hnone
    cases hnone
  · have hstep₂ : (calls cacheLine64).step
        ⟨⟨s₁, logEvent cacheLine64 s g (.writeBack 60 true true)⟩, c⟩
        (.turn (plainTurn (.pass none)))
        ⟨⟨s₂, logTurn cacheLine64 (plainTurn (.pass none)) (vainPoll n) s₁
          (logEvent cacheLine64 s g (.writeBack 60 true true))⟩,
          callTurn (plainTurn (.pass none)) (vainPoll n) s₁ s₂ c⟩ := by
      refine ⟨⟨⟨?_, ?_⟩, ?_⟩, ?_⟩
      · simp [Enabled, hpoll₁]
      · rw [apply, hpoll₁, Option.bind_some, hturn]
      · simp [logEvent, hpoll₁]
      · simp [callEvent, hpoll₁]
    have hreach₂ := hreach₁.step (by exact ⟨trivial, trivial⟩) hstep₂
    refine ⟨_, ⟨hreach₂, ?_, ⟨n', hvain₂⟩, ?_, ?_, ?_⟩, ?_⟩
    · exact hcount₂.trans (hsame₁.1.trans hcount)
    · change s₂.head = s₂.ring.nextToClean
      rw [hhead₂, hhead₁, hclean₂, hsame₁.1, hsame₁.2]
    · change (chunks Written.eop (logTurn _ _ _ _ _).written).2 = []
      rw [hwritten]
      simp [logEvent, chunks_concat, push]
    · exact hbudget
    · have hc := hvain₁.window.indices.clean_lt
      simp only [callTurn, hclean₂]
      rw [gap_next hc hc (by rw [gap_self, hsame₁.1, hcount]; decide), gap_self]

/-! ### Runs that are computed -/

/-- The queue with its log and its calls after an event. -/
def after (K : KernelConfig) (r : Calls) (e : Event) : Calls where
  traffic := r.traffic.after K e
  call := callEvent r.traffic.queue (RxQueue.after K r.traffic.queue e) r.call e

/-- A queue with 64 descriptors. -/
def fresh : Calls := { traffic := Traffic.fresh, call := startedCall 0 }

instance FramesOf.decide (m : ℕ) (r : Calls) : (e : Event) → Decidable (FramesOf m r e)
  | .writeBack _ _ _ => inferInstanceAs (Decidable (_ < m))
  | .configure _ _ | .turn _ | .poll _ | .clean | .drop _ _ | .take _ _ => isTrue trivial

/-- The queue after events from `fresh` on that all happen is reachable. -/
theorem run_reachable
    {es : List Event}
    (hes : TransSystem.AllAlong (fun r e => Happens K r.traffic.queue e ∧ G r e) (after K) fresh es) :
  (calls K).Reachable G (es.foldl (after K) fresh)
  := by
  have hinit : (calls K).Reachable G fresh := TransSystem.Reachable.init ⟨⟨fresh_init, rfl⟩, rfl⟩
  apply TransSystem.Reachable.foldl _ hinit hes
  intro r e he
  exact ⟨he.2, Traffic.step_after he.1, rfl⟩

/-- The ring has been configured, and a call with the budget 1 starts. -/
def starved : Calls :=
  [.configure { usesLargeBuffer := false, usesBuildSkb := true } fun _ => .ok, .poll 1].foldl
    (after cacheLine64) fresh

/-- The call has passed nothing on yet. -/
theorem starved_starved :
  Starved starved
  := by
  have hreach : (calls cacheLine64).Reachable
      (fun r e => TransSystem.always r e ∧ FramesOf 1 r e) starved := by
    apply run_reachable
    decide +kernel
  have hinv := reachable_inv (reachable_queue hreach)
  refine ⟨hreach, by decide +kernel, ⟨0, ?_⟩, by decide +kernel, rfl, rfl⟩
  exact ⟨hinv.window (by decide +kernel), by decide +kernel, by decide, by decide +kernel⟩

/-- A call with the budget 1 works off any number of frames with an error, and goes on. -/
theorem starved_taken (n : ℕ) :
  ∃ r, Starved r ∧ r.call.taken = n
  := by
  induction n with
  | zero => exact ⟨starved, starved_starved, rfl⟩
  | succ n ih =>
    obtain ⟨r, hr, htaken⟩ := ih
    obtain ⟨r', hr', htaken'⟩ := hr.next
    exact ⟨r', hr', by rw [htaken', htaken]⟩

/-- While the hardware writes back frames with an error, a call with the budget 1 does not end. -/
theorem errors_not_bounded :
  ¬ Bounded cacheLine64 TransSystem.always
  := by
  rintro ⟨f, hf⟩
  obtain ⟨r, hr, htaken⟩ := starved_taken (f 1 1 + 1)
  have hle := (hf 1 r hr.reach).1
  rw [hr.budget, htaken] at hle
  omega

end Calls

end Ixgbevf.Rx
