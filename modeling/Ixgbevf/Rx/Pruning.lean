import Ixgbevf.Rx.Frames

/-!
# Frames that come back

The switch of the adapter sends a multicast frame back to the VF that sent it.
`ixgbevf_clean_rx_irq` means to discard such frames, but it looks at `skb->pkt_type` before
`ixgbevf_process_skb_fields`, where `eth_type_trans` sets it by the destination address: every
skb still has the type that the kernel gave it.
-/

namespace Ixgbevf.Rx

open Cyclic

namespace RxQueue

variable {K : KernelConfig} {s s' : RxQueue} {g : Log}

/-! ### What the driver should discard -/

/-- A frame to a broadcast or multicast address, as `eth_type_trans` classifies it, with the
address of the device as its source. -/
def Returned (dest : PktType) (t : Turn) : Prop := dest ≠ .host ∧ t.ownSource = true

instance (dest : PktType) (t : Turn) : Decidable (Returned dest t) :=
  inferInstanceAs (Decidable (dest ≠ .host ∧ t.ownSource = true))

/-- The type of an skb after `ixgbevf_process_skb_fields`. -/
def processSkbFields (dest : PktType) (skb : Skb) : Skb := { skb with pktType := dest }

/-- The test would discard these frames if the type had been set before it. -/
theorem fate_processSkbFields (dest : PktType) (t : Turn) (d : RxDesc) (skb : Skb) :
  fate t d (processSkbFields dest skb) = .pruned ↔
    Returned dest t ∧ fate t d (processSkbFields dest skb) ≠ .dropped
  := by
  unfold fate processSkbFields Returned
  split
  · simp
  · split <;> simp_all

/-- A turn ends a frame: the last descriptor of it has been written back, and an skb can be
made where the frame needs one. -/
structure Ends (s : RxQueue) (t : Turn) (p : Poll) : Prop where
  /-- The call. -/
  poll : s.poll = some p
  /-- The budget is not used up. -/
  budget : p.totalRxPackets < p.budget
  /-- The descriptor has been written back. -/
  written : (s.ring.desc s.ring.nextToClean).length ≠ 0
  /-- It is the last one of the frame. -/
  eop : (s.ring.desc s.ring.nextToClean).eop = true
  /-- There is memory for the skb. -/
  memory : p.skb = .null → t.xdp.passes = true → t.skbFails = false

/-- An XDP program has taken the frame. -/
def XdpTook (t : Turn) (p : Poll) : Prop :=
  p.skb.isErr = true ∨ p.skb = .null ∧ t.xdp.passes = false

/-- The length of the frame that the buffer at `next_to_clean` ends. -/
def frameLen (t : Turn) (p : Poll) (s : RxQueue) : ℕ :=
  let size := (s.ring.desc s.ring.nextToClean).length
  match p.skb with
  | .skb skb => skb.len + size
  | _ => t.xdp.length size

/-- The frame has to be padded, and there is no memory for it. -/
def PadFails (s : RxQueue) (t : Turn) (p : Poll) : Prop :=
  frameLen t p s < ethZlen ∧ t.padFails = true

/-- When the driver treats the frame as it should: a frame that came back is taken by an XDP
program or dropped for another reason, and any other frame without an error is neither. -/
def PrunesRight (s : RxQueue) (t : Turn) (p : Poll) (dest : PktType) : Prop :=
  if Returned dest t then
    XdpTook t p ∨ ((s.ring.desc s.ring.nextToClean).frameErr = true ∧ t.rxAll = false) ∨
      s.PadFails t p
  else
    (s.ring.desc s.ring.nextToClean).frameErr = false → ¬ XdpTook t p ∧ ¬ s.PadFails t p

/-- A frame that came back is not passed to `ixgbevf_rx_skb`, and every other one without an
error is. -/
def Prunes (dest : PktType) (t : Turn) (d : RxDesc) (g g' : Log) : Prop :=
  (Returned dest t → g'.passed = g.passed) ∧
    (d.frameErr = false → ¬ Returned dest t → ∃ data, g'.passed = g.passed ++ [data])

/-! ### The type of the skb at the test -/

/-- The skb of the driver has the type that the kernel gives to a new skb. -/
def Unclassified (s : RxQueue) : Prop := ∀ skb, s.current = .skb skb → skb.pktType = .host

/-- The kernel gives new skbs the type `PACKET_HOST`. -/
def HostSkbs : Event → Prop
  | .turn t => t.pktType = .host
  | _ => True

/-- Ending a frame leaves the skb or none. -/
theorem endFrame_poll (t : Turn) (d : RxDesc) (p : Poll) (hp : s.poll = some p) :
  ∃ p', (endFrame t d p s).poll = some p' ∧ (p'.skb = p.skb ∨ p'.skb = .null)
  := by
  cases hskb : p.skb with
  | null => exact ⟨p, by simp [endFrame, hskb, hp], Or.inl hskb⟩
  | err v => exact ⟨{ p with skb := .null }, by simp [endFrame, hskb], Or.inr rfl⟩
  | skb skb =>
    rw [endFrame_skb t d p s hskb]
    refine ⟨_, rfl, ?_⟩
    cases fate t d skb with
    | dropped => exact Or.inr rfl
    | pruned => exact Or.inl hskb
    | passed => exact Or.inr rfl

/-- Retiring a buffer leaves the skb or none. -/
theorem retireBuffer_current (t : Turn) (page : ℕ) (p : Poll) (s : RxQueue) :
  (retireBuffer t page p s).current = p.skb ∨ (retireBuffer t page p s).current = .null
  := by
  unfold retireBuffer
  simp only
  split
  · obtain ⟨p', hp', hskb⟩ := endFrame_poll (s := { passClean
      (putRxBuffer t.reserved p.skb s.ring.nextToClean page s) with
        poll := some { p with cleanedCount := p.cleanedCount + 1 } }) t
      (s.ring.desc s.ring.nextToClean) { p with cleanedCount := p.cleanedCount + 1 } rfl
    unfold passClean at hp'
    rw [current, hp']
    exact hskb
  · exact Or.inl rfl

/-- A turn gives its skb the type of a new one, or leaves the type alone. -/
theorem Received.unclassified
    {t : Turn} {page : ℕ} {p : Poll} (hreceived : Received t page p s s')
    (h : ∀ skb, p.skb = .skb skb → skb.pktType = .host) (ht : t.pktType = .host) :
  s'.Unclassified
  := by
  cases hreceived with
  | failed =>
    intro skb hskb
    cases hskb
  | retired u skb n total htaken =>
    intro skb' hskb'
    have hskb : skb = .skb skb' := by
      rcases retireBuffer_current t page { p with skb := skb, totalRxPackets := total }
        { useBuffer u s.ring.nextToClean page s with nextSkb := n } with hcur | hcur
      · exact hcur.symm.trans hskb'
      · rw [hcur] at hskb'
        cases hskb'
    rw [hskb] at htaken
    generalize hsk : p.skb = sk at htaken
    cases htaken with
    | frag old len => exact h old hsk
    | fresh => exact ht
    | copy => exact ht

/-- In every run in which new skbs have the type `PACKET_HOST`, the skb of the driver has it. -/
theorem reachable_unclassified
    (h : (system K).Reachable (fun _ e => HostSkbs e) s) :
  s.Unclassified
  := by
  induction h with
  | @init s h =>
    intro skb hskb
    simp [current, h.poll, h.skb] at hskb
  | @step s e s' hreach hG hstep ih =>
    have hinv := reachable_inv hreach
    obtain ⟨hen, hstep⟩ := hstep
    cases e with
    | configure flags alloc =>
      cases hstep
      have hidle := hinv.idle hen.1
      have hsame := refills_sameRest
        (configureRxRing_refills (K := K) flags alloc hidle hinv.count_pos)
      intro skb hskb
      simp [current, hsame.poll, hsame.skb, cleared, hidle.poll, hidle.skb] at hskb
    | writeBack length eop frameErr =>
      cases hstep
      exact ih
    | poll budget =>
      cases hstep
      intro skb hskb
      apply ih
      rw [← hskb]
      simp [current, cleanRxIrq, hen.2]
    | turn t =>
      obtain ⟨p, hp, hturn⟩ := Option.bind_eq_some_iff.mp hstep
      have hactive := hinv.active_of_poll hp
      have hcur : s.current = p.skb := by simp [current, hp]
      obtain ⟨s₁, p₁, -, -, hp₁, hend | ⟨-, -, page, -, hreceived⟩⟩ :=
        cleanRxTurn_cases (hinv.window hactive) (hinv.counted hactive p hp) hturn
      · rw [hend]
        intro skb hskb
        exact ih skb (hcur.trans hskb)
      · apply hreceived.unclassified _ hG
        intro skb hskb
        exact ih skb (hcur.trans (hp₁.symm.trans hskb))
    | clean =>
      have hskb : s'.ring.skb = .null ∧ s'.poll = s.poll := by
        have hring : s.ring.skb.isErr = false := by
          rw [← Bool.not_eq_true]
          intro herr
          cases hs : s.ring.skb with
          | null => simp [hs, SkbPtr.isErr] at herr
          | err v => simp [apply, cleanRxRing, hs] at hstep
          | skb skb => simp [hs, SkbPtr.isErr] at herr
        obtain ⟨pages, f, hsome, -⟩ := cleanRxRing_some hinv.paged hring
        simp only [apply, hsome] at hstep
        cases hstep
        exact ⟨rfl, rfl⟩
      intro skb hcur
      simp [current, hskb.1, hskb.2, show s.poll = none from hen] at hcur
    | drop page half =>
      cases hstep
      exact ih
    | take page half =>
      cases hstep
      exact ih

/-! ### Which frames are passed on -/

/-- The frame that a turn ends is passed on. -/
def Passes (s : RxQueue) (t : Turn) (p : Poll) : Prop :=
  ∃ skb, frameSkb t p s = some skb ∧ fate t (s.ring.desc s.ring.nextToClean) skb = .passed

/-- A frame that no XDP program has taken has an skb of its length. -/
theorem frameSkb_eq
    {t : Turn} {p : Poll} (hends : s.Ends t p) (hx : ¬ XdpTook t p) :
  ∃ skb, frameSkb t p s = some skb ∧ skb.len = frameLen t p s ∧
    (skb.pktType = t.pktType ∨ ∃ old, p.skb = .skb old ∧ skb.pktType = old.pktType)
  := by
  cases hp : p.skb with
  | err v => exact absurd (Or.inl (by simp [hp, SkbPtr.isErr])) hx
  | skb old =>
    exact ⟨{ old with len := old.len + (s.ring.desc s.ring.nextToClean).length },
      by simp [frameSkb, hp], by simp [frameLen, hp], Or.inr ⟨old, rfl, rfl⟩⟩
  | null =>
    have hpass : t.xdp.passes = true := by
      rw [← Bool.not_eq_false]
      intro hno
      exact hx (Or.inr ⟨hp, hno⟩)
    have hfails := hends.memory hp hpass
    exact ⟨{ id := s.nextSkb
             len := t.xdp.length (s.ring.desc s.ring.nextToClean).length
             pktType := t.pktType },
      by simp [frameSkb, hp, hpass, hfails], by simp [frameLen, hp], Or.inl rfl⟩

/-- A frame that an XDP program has taken has no skb. -/
theorem frameSkb_xdpTook {t : Turn} {p : Poll} (hx : XdpTook t p) :
  frameSkb t p s = none
  := by
  rcases hx with herr | ⟨hnull, hno⟩
  · cases hp : p.skb with
    | err v => simp [frameSkb, hp]
    | _ => simp [hp, SkbPtr.isErr] at herr
  · simp [frameSkb, hnull, hno]

/-- A frame is passed on unless an XDP program takes it, it has an error or cannot be padded:
its addresses do not matter. -/
theorem passes_iff
    {t : Turn} {p : Poll} (h : s.Unclassified) (ht : t.pktType = .host) (hends : s.Ends t p) :
  s.Passes t p ↔ ¬ XdpTook t p ∧
    ¬ ((s.ring.desc s.ring.nextToClean).frameErr = true ∧ t.rxAll = false) ∧ ¬ s.PadFails t p
  := by
  by_cases hx : XdpTook t p
  · simp [Passes, frameSkb_xdpTook hx, hx]
  · obtain ⟨skb, hskb, hlen, htype⟩ := frameSkb_eq hends hx
    have hhost : skb.pktType = .host := by
      rcases htype with htype | ⟨old, hold, htype⟩
      · rw [htype, ht]
      · rw [htype]
        apply h
        simp [current, hends.poll, hold]
    have hfate : fate t (s.ring.desc s.ring.nextToClean) skb = .passed ↔
        ¬ ((s.ring.desc s.ring.nextToClean).frameErr = true ∧ t.rxAll = false) ∧
          ¬ s.PadFails t p := by
      simp only [fate, hhost, hlen, PadFails]
      cases (s.ring.desc s.ring.nextToClean).frameErr <;> cases t.rxAll <;> simp
    simp [Passes, hskb, hx, hfate]

/-- The log of a turn that ends a frame. -/
theorem logReceive_passed
    {t : Turn} {page : ℕ} {p : Poll} (heop : (s.ring.desc s.ring.nextToClean).eop = true) :
  (s.Passes t p → ∃ data, (logReceive t page p s g).passed = g.passed ++ [data]) ∧
    (¬ s.Passes t p → (logReceive t page p s g).passed = g.passed)
  := by
  unfold Passes logReceive
  cases hskb : frameSkb t p s with
  | none =>
    simp only [reduceCtorEq, false_and, exists_false, not_false_eq_true, forall_const,
      false_imp_iff, true_and]
    split <;> rfl
  | some skb =>
    by_cases hf : fate t (s.ring.desc s.ring.nextToClean) skb = .passed <;>
      simp [logSkb, heop, hf]

end RxQueue

namespace Traffic

open RxQueue

variable {K : KernelConfig} {r r' : Traffic}

/-- In every run in which new skbs have the type `PACKET_HOST`, the driver treats a frame as it
should exactly when the frame did not come back, or is lost for another reason. -/
theorem prunes_iff
    (h : (traffic K).Reachable (fun _ e => HostSkbs e) r) {t : Turn} {p : Poll}
    (ht : t.pktType = .host) (hends : r.queue.Ends t p) (hstep : (traffic K).step r (.turn t) r')
    (dest : PktType) :
  Prunes dest t (r.queue.ring.desc r.queue.ring.nextToClean) r.log r'.log
    ↔ r.queue.PrunesRight t p dest
  := by
  have hqueue : (system K).Reachable (fun _ e => HostSkbs e) r.queue :=
    reachable_queue (fun _ _ he => he) h
  have hinv := reachable_inv hqueue
  have hactive := hinv.active_of_poll hends.poll
  have hpasses := passes_iff (reachable_unclassified hqueue) ht hends
  obtain ⟨⟨-, hturn⟩, hlog⟩ := hstep
  rw [apply, hends.poll, Option.bind_some] at hturn
  have hlog' : r'.log = logTurn K t p r.queue r.log := by simp [hlog, logEvent, hends.poll]
  -- what the turn does to the log
  have hpassed : (r.queue.Passes t p → ∃ data, r'.log.passed = r.log.passed ++ [data]) ∧
      (¬ r.queue.Passes t p → r'.log.passed = r.log.passed) := by
    have hwin := hinv.window hactive
    obtain ⟨s₁, n, hpath, ⟨hlen, -, -⟩ | ⟨page, hlen, hpage, -, heq⟩⟩ :=
      cleanRxTurn_receives (g := r.log) hwin (hinv.counted hactive p hends.poll) hends.budget hturn
    · have hsame := refills_sameRest hpath
      have hne := hwin.clean_ne_head hends.written
      obtain ⟨-, hdesc, -, -⟩ := refills_clean hpath hwin hne
      rw [hsame.nextToClean, hdesc] at hlen
      exact absurd hlen hends.written
    · obtain ⟨hdesc, hskb⟩ := frameSkb_refills t p n hwin hpath hlen
      have hsame : s₁.Passes t { p with cleanedCount := n } ↔ r.queue.Passes t p := by
        unfold Passes
        rw [hdesc, hskb]
      rw [hlog', heq, ← hsame]
      apply logReceive_passed
      rw [hdesc]
      exact hends.eop
  have hgrown (data : List (ℕ × ℕ)) : r.log.passed ++ [data] ≠ r.log.passed := by simp
  have hone : (∃ data, r'.log.passed = r.log.passed ++ [data]) ↔ r.queue.Passes t p := by
    constructor
    · rintro ⟨data, hdata⟩
      by_contra hno
      exact hgrown data (hdata.symm.trans (hpassed.2 hno))
    · exact hpassed.1
  have hnone : r'.log.passed = r.log.passed ↔ ¬ r.queue.Passes t p := by
    constructor
    · intro heq hpass
      obtain ⟨data, hdata⟩ := hpassed.1 hpass
      exact hgrown data (hdata.symm.trans heq)
    · exact hpassed.2
  unfold Prunes PrunesRight
  rw [hone, hnone, hpasses]
  by_cases hret : Returned dest t
  · simp only [hret, if_true, true_imp_iff, not_true, false_imp_iff, implies_true, and_true]
    tauto
  · cases (r.queue.ring.desc r.queue.ring.nextToClean).frameErr <;> simp [hret]

/-! ### A frame that came back -/

instance HostSkbs.decide : (e : Event) → Decidable (HostSkbs e)
  | .turn t => inferInstanceAs (Decidable (t.pktType = .host))
  | .configure _ _ | .writeBack _ _ _ | .poll _ | .clean | .drop _ _ | .take _ _ => isTrue trivial

/-- A frame has been written back, and a call starts. -/
def oneFrame : Traffic :=
  [.configure { usesLargeBuffer := false, usesBuildSkb := true } fun _ => .ok,
    .writeBack 60 true false, .poll 64].foldl (after cacheLine64) fresh

/-- A turn with a frame whose source is the address of the device. -/
def ownTurn : Turn := { plainTurn (.pass none) with ownSource := true }

/-- The variables of the call that has started. -/
def startedPoll : Poll := { budget := 64, cleanedCount := 0, totalRxPackets := 0, skb := .null }

/-- The state before the frame is received is reachable, and the turn ends the frame. -/
theorem oneFrame_ends :
  (traffic cacheLine64).Reachable (fun _ e => HostSkbs e) oneFrame ∧
    oneFrame.queue.Ends ownTurn startedPoll ∧
    (traffic cacheLine64).step oneFrame (.turn ownTurn) (oneFrame.after cacheLine64 (.turn ownTurn))
  := by
  refine ⟨?_, ?_, ?_⟩
  · apply run_reachable
    decide +kernel
  · constructor <;> decide +kernel
  · exact step_after (by decide +kernel)

/-- Whether the frame is treated as it should be depends on its destination. -/
theorem prunes_iff_oneFrame :
  (Prunes .host ownTurn (oneFrame.queue.ring.desc oneFrame.queue.ring.nextToClean) oneFrame.log
      (oneFrame.after cacheLine64 (.turn ownTurn)).log
    ↔ oneFrame.queue.PrunesRight ownTurn startedPoll .host) ∧
  (Prunes .multicast ownTurn (oneFrame.queue.ring.desc oneFrame.queue.ring.nextToClean)
      oneFrame.log (oneFrame.after cacheLine64 (.turn ownTurn)).log
    ↔ oneFrame.queue.PrunesRight ownTurn startedPoll .multicast)
  := by
  obtain ⟨hreach, hends, hstep⟩ := oneFrame_ends
  exact ⟨prunes_iff hreach rfl hends hstep .host, prunes_iff hreach rfl hends hstep .multicast⟩

/-- A multicast frame with the address of the device as its source is passed to the stack. -/
theorem returned_not_pruned :
  ∃ r r' t p, (traffic cacheLine64).Reachable (fun _ e => HostSkbs e) r ∧ t.pktType = .host ∧
    r.queue.Ends t p ∧ (traffic cacheLine64).step r (.turn t) r' ∧ Returned .multicast t ∧
    ¬ Prunes .multicast t (r.queue.ring.desc r.queue.ring.nextToClean) r.log r'.log
  := by
  obtain ⟨hreach, hends, hstep⟩ := oneFrame_ends
  refine ⟨oneFrame, _, ownTurn, startedPoll, hreach, rfl, hends, hstep, by decide, ?_⟩
  intro h
  exact absurd (h.1 (by decide)) (by decide +kernel)

end Traffic

end Ixgbevf.Rx
