import Ixgbevf.Rx.Bias

/-!
# The mappings of Rx pages

A page is mapped when the ring gets it and has to be unmapped when the driver gives it up.  It
is given up when the ring is cleaned, and when it cannot be reused; in the second case
`ixgbevf_put_rx_buffer` unmaps it only after a verdict.
-/

namespace Ixgbevf.Rx

open Cyclic

/-- An skb takes the data of the buffer that a turn works off, where the turn starts with the
variable `skb`. -/
def Turn.FillsSkb (t : Turn) : (skb : SkbPtr) → Prop
  | .null => t.xdp.passes = true ∧ t.skbFails = false
  | .err _ => False
  | .skb _ => True

instance Turn.FillsSkb.decide (t : Turn) : (skb : SkbPtr) → Decidable (t.FillsSkb skb)
  | .null => inferInstanceAs (Decidable (t.xdp.passes = true ∧ t.skbFails = false))
  | .err _ => isFalse id
  | .skb _ => isTrue trivial

namespace RxQueue

variable {K : KernelConfig} {s s' : RxQueue}

/-- A page that the driver has not given up is mapped once and has not been unmapped; a page
that it has given up has been unmapped as often as it was mapped. -/
structure Balanced (s : RxQueue) : Prop where
  live : ∀ page < s.nextPage, (s.pages page).releases = 0 →
    (s.pages page).maps = 1 ∧ (s.pages page).unmaps = 0
  done : ∀ page < s.nextPage, (s.pages page).releases ≠ 0 →
    (s.pages page).unmaps = (s.pages page).maps

/-- The page in the slot at `next_to_clean` can be reused once an skb has its data: it is not
reserved, and beside the bias it has no more than the reference that the skb takes. -/
def Reusable (s : RxQueue) (t : Turn) (skb : SkbPtr) (page : ℕ) : Prop :=
  let refs := (s.pages page).refCount
  let bias := (s.ring.buffer s.ring.nextToClean).pagecntBias
  (skb = .null ∧ s.Copies t → canReuse t.reserved refs bias = true) ∧
    (¬ (skb = .null ∧ s.Copies t) → canReuse t.reserved refs (bias - 1) = true)

/-- The condition on an event: where a turn gives the data of a written back descriptor to an
skb, the page can be reused. -/
def KeepsPages (s : RxQueue) : Event → Prop
  | .turn t => ∀ p ∈ s.poll, p.totalRxPackets < p.budget →
    (s.ring.desc s.ring.nextToClean).length ≠ 0 →
    ∀ page ∈ s.ring.pageAt s.ring.nextToClean, t.FillsSkb p.skb → s.Reusable t p.skb page
  | _ => True

/-! ### What keeps the balance -/

/-- The balance depends on the mappings and the releases of the pages. -/
theorem Balanced.congr
    (h : s.Balanced) (hnext : s'.nextPage = s.nextPage)
    (hpages : ∀ page, (s'.pages page).maps = (s.pages page).maps ∧
      (s'.pages page).unmaps = (s.pages page).unmaps ∧
      (s'.pages page).releases = (s.pages page).releases) :
  s'.Balanced
  := by
  constructor
  · intro page hlt hrel
    obtain ⟨hm, hu, hr⟩ := hpages page
    rw [hm, hu]
    rw [hr] at hrel
    rw [hnext] at hlt
    apply h.live page hlt hrel
  · intro page hlt hrel
    obtain ⟨hm, hu, hr⟩ := hpages page
    rw [hm, hu]
    rw [hr] at hrel
    rw [hnext] at hlt
    apply h.done page hlt hrel

/-- A new page whose mapping is in balance keeps the balance. -/
theorem Balanced.newPage
    (h : s.Balanced) (p : Page) (hlive : p.releases = 0 → p.maps = 1 ∧ p.unmaps = 0)
    (hdone : p.releases ≠ 0 → p.unmaps = p.maps)
    (hpages : s'.pages = Function.update s.pages s.nextPage p)
    (hnext : s'.nextPage = s.nextPage + 1) :
  s'.Balanced
  := by
  constructor
  · intro page hlt hrel
    rw [hpages, Function.update_apply] at hrel ⊢
    split
    · rename_i heq
      rw [if_pos heq] at hrel
      apply hlive hrel
    · rename_i hne
      rw [if_neg hne] at hrel
      apply h.live page (by omega) hrel
  · intro page hlt hrel
    rw [hpages, Function.update_apply] at hrel ⊢
    split
    · rename_i heq
      rw [if_pos heq] at hrel
      apply hdone hrel
    · rename_i hne
      rw [if_neg hne] at hrel
      apply h.done page (by omega) hrel

/-- A move of refilling keeps the balance. -/
theorem Balanced.refill (h : s.Balanced) (hmove : Refill K s s') :
  s'.Balanced
  := by
  cases hmove with
  | recycled => exact h.congr rfl fun _ => ⟨rfl, rfl, rfl⟩
  | fresh => apply h.newPage mappedPage <;> simp [mappedPage, RxQueue.handOver, RxQueue.fill]
  | wasted => apply h.newPage unmappablePage <;> simp [unmappablePage, RxQueue.wastePage]

/-- Refilling keeps the balance. -/
theorem Balanced.refills (h : s.Balanced) (hpath : Relation.ReflTransGen (Refill K) s s') :
  s'.Balanced
  := by
  induction hpath with
  | refl => apply h
  | tail _ hmove ih => apply ih.refill hmove

/-- Taking the data of a buffer keeps the balance. -/
theorem Balanced.useBuffer (h : s.Balanced) (u : Use) (i page n : ℕ) :
  { RxQueue.useBuffer u i page s with nextSkb := n }.Balanced
  := by
  apply h.congr
  · cases u <;> rfl
  · intro q
    cases u with
    | used =>
      simp only [RxQueue.useBuffer, rxBufferFlip, useHalf, getRxBuffer, setBuffer, setPage,
        Function.update_apply]
      split <;> simp_all
    | kept => exact ⟨rfl, rfl, rfl⟩
    | stray => exact ⟨rfl, rfl, rfl⟩

/-- Recycling a page keeps the balance. -/
theorem Balanced.recycle (h : s.Balanced) (i page : ℕ) :
  (RxQueue.recycle i page s).Balanced
  := by
  suffices hsame : ∀ q, ((RxQueue.recycle i page s).pages q).maps = (s.pages q).maps ∧
      ((RxQueue.recycle i page s).pages q).unmaps = (s.pages q).unmaps ∧
      ((RxQueue.recycle i page s).pages q).releases = (s.pages q).releases from
    h.congr rfl hsame
  intro q
  simp only [RxQueue.recycle, Function.update_apply]
  split <;> simp_all

/-- Giving a page up and unmapping it keeps the balance. -/
theorem Balanced.drain
    (h : s.Balanced) {i page : ℕ} (hlt : page < s.nextPage)
    (hrel : (s.pages page).releases = 0) :
  (RxQueue.drain true i page s).Balanced
  := by
  obtain ⟨hmaps, hunmaps⟩ := h.live page hlt hrel
  constructor
  · intro q hq hq0
    simp only [RxQueue.drain, Function.update_apply] at hq hq0 ⊢
    split
    · rename_i heq
      rw [if_pos heq] at hq0
      simp at hq0
    · rename_i hne
      rw [if_neg hne] at hq0
      apply h.live q hq hq0
  · intro q hq hq0
    simp only [RxQueue.drain, Function.update_apply] at hq hq0 ⊢
    split
    · simp [hmaps, hunmaps]
    · rename_i hne
      rw [if_neg hne] at hq0
      apply h.done q hq hq0

/-! ### Turns -/

/-- A turn that gives data to an skb starts with the skb, or makes one; it keeps the reference
only to copy the frame. -/
theorem Taken.fillsSkb
    {t : Turn} {sk : SkbPtr} {u : Use} {b : Skb} {n : ℕ} (h : Taken t s sk u (.skb b) n) :
  t.FillsSkb sk ∧
    (u = .kept ∧ (sk = .null ∧ s.Copies t) ∨ u = .used ∧ ¬ (sk = .null ∧ s.Copies t))
  := by
  cases h with
  | frag skb len =>
    constructor
    · trivial
    · simp
  | fresh len hpass hmem hno =>
    constructor
    · exact ⟨hpass, hmem⟩
    · simp [hno]
  | copy len hpass hmem hcopy =>
    constructor
    · exact ⟨hpass, hmem⟩
    · simp [hcopy]

/-- A turn makes of its variable `skb` a verdict or an skb. -/
theorem Taken.err_or_skb
    {t : Turn} {sk skb : SkbPtr} {u : Use} {n : ℕ} (h : Taken t s sk u skb n) :
  skb.isErr = true ∨ ∃ b, skb = .skb b
  := by
  cases h <;> simp [SkbPtr.isErr]

/-- A buffer that an skb has taken the data of is recycled, where its page can be reused. -/
theorem canReuse_of_taken
    {t : Turn} {sk : SkbPtr} {u : Use} {b : Skb} {n page : ℕ}
    (h : Taken t s sk u (.skb b) n) (hre : s.Reusable t sk page)
    (hpos : 1 ≤ (s.ring.buffer s.ring.nextToClean).pagecntBias)
    (hle : (s.ring.buffer s.ring.nextToClean).pagecntBias ≤ ushrtMax) :
  canReuse t.reserved
      ((useBuffer u s.ring.nextToClean page s).pages page).refCount
      ((useBuffer u s.ring.nextToClean page s).ring.buffer s.ring.nextToClean).pagecntBias = true
  := by
  have hrefs : ((useBuffer u s.ring.nextToClean page s).pages page).refCount
      = (s.pages page).refCount := by
    cases u <;>
      simp [useBuffer, rxBufferFlip, useHalf, getRxBuffer, keepRxBuffer, setBuffer, setPage]
  rw [hrefs, useBuffer_bias u _ page s hpos hle]
  obtain ⟨-, ⟨hu, hcopy⟩ | ⟨hu, hno⟩⟩ := h.fillsSkb
  · rw [hu]
    apply hre.1 hcopy
  · rw [hu]
    apply hre.2 hno

/-- A turn that meets the condition keeps the balance. -/
theorem cleanRxTurn_balanced
    {t : Turn} {p : Poll} (h : s.Balanced) (hwin : s.Window) (hbias : s.Biased)
    (hcounted : s.ring.Counted p.cleanedCount) (hp : s.poll = some p)
    (hG : s.KeepsPages (.turn t)) (hturn : cleanRxTurn K t p s = some s') :
  s'.Balanced
  := by
  obtain ⟨s₁, p₁, hpath, -, hskb, hend | ⟨hbudget, hlen, page, hpage, hreceived⟩⟩ :=
    cleanRxTurn_cases hwin hcounted hturn
  · subst hend
    exact (h.refills hpath).congr rfl fun _ => ⟨rfl, rfl, rfl⟩
  have hbal := h.refills hpath
  have hwin₁ := hwin.refills hpath
  have hsame := refills_sameRest hpath
  have hne : s.ring.nextToClean ≠ s.head := by
    have := hwin₁.clean_ne_head hlen
    rwa [hsame.nextToClean, hsame.head] at this
  obtain ⟨hbuf, hdesc, -, hpages⟩ := refills_clean hpath hwin hne
  have hc := hwin.indices.clean_lt
  -- the slot and its page are as they were before the refilling
  have hpage' : s.ring.pageAt s.ring.nextToClean = some page := by
    rw [hsame.nextToClean] at hpage
    rw [← hpage]
    simp only [RxRing.pageAt, hbuf]
  obtain ⟨hlt, hrel⟩ := hwin.held _ hc page hpage'
  obtain ⟨hpos, hle⟩ := hbias _ hc page hpage'
  cases hreceived with
  | failed =>
    have hbal₂ := hbal.useBuffer .kept s₁.ring.nextToClean page s₁.nextSkb
    exact hbal₂.congr rfl fun _ => ⟨rfl, rfl, rfl⟩
  | retired u skb n total htaken =>
    have hbal₂ := hbal.useBuffer u s₁.ring.nextToClean page n
    obtain ⟨p', f, heq, -⟩ := retireBuffer_eq t page
      { p₁ with skb := skb, totalRxPackets := total }
      { useBuffer u s₁.ring.nextToClean page s₁ with nextSkb := n }
    have hclean : (useBuffer u s₁.ring.nextToClean page s₁).ring.nextToClean
        = s₁.ring.nextToClean := by
      cases u <;> rfl
    rw [heq, putRxBuffer_eq]
    simp only [hclean]
    split
    · exact (hbal₂.recycle s₁.ring.nextToClean page).congr rfl fun _ => ⟨rfl, rfl, rfl⟩
    · rename_i hno
      have hlt₁ : page < s₁.nextPage := (hwin₁.held _ hwin₁.indices.clean_lt page hpage).1
      have hrel₁ : ((useBuffer u s₁.ring.nextToClean page s₁).pages page).releases = 0 := by
        rw [useBuffer_releases, hpages page hlt, hrel]
      have hnext : (useBuffer u s₁.ring.nextToClean page s₁).nextPage = s₁.nextPage := by
        cases u <;> rfl
      cases herr : skb.isErr with
      | true =>
        have hdrain := hbal₂.drain (i := s₁.ring.nextToClean) (by simpa only [hnext] using hlt₁)
          hrel₁
        exact hdrain.congr rfl fun _ => ⟨rfl, rfl, rfl⟩
      | false =>
        -- an skb has the data, so the page can be reused
        obtain herr' | ⟨b, rfl⟩ := htaken.err_or_skb
        · rw [herr] at herr'
          cases herr'
        · rw [hskb] at htaken
          have hcopies : s₁.Copies t ↔ s.Copies t := by
            simp only [Copies, hsame.flags, hsame.nextToClean, hdesc]
          have hre : s₁.Reusable t p.skb page := by
            have hlen' : (s.ring.desc s.ring.nextToClean).length ≠ 0 := by
              rw [hsame.nextToClean, hdesc] at hlen
              exact hlen
            have hre := hG p hp hbudget hlen' page hpage' htaken.fillsSkb.1
            simp only [Reusable, hcopies, hsame.nextToClean, hbuf, hpages page hlt]
            exact hre
          rw [hsame.nextToClean] at hno
          have hreuse := canReuse_of_taken htaken hre
            (by rw [hsame.nextToClean, hbuf]; exact hpos)
            (by rw [hsame.nextToClean, hbuf]; exact hle)
          rw [hsame.nextToClean] at hreuse
          exact absurd hreuse hno

/-- Cleaning the ring keeps the balance. -/
theorem cleanRxRing_balanced
    (h : s.Balanced) (hinv : s.Inv) (hclean : cleanRxRing s = some s') :
  s'.Balanced
  := by
  have hskb : s.ring.skb.isErr = false := by
    cases hptr : s.ring.skb with
    | err v =>
      rw [cleanRxRing, hptr] at hclean
      cases hclean
    | null => rfl
    | skb skb => rfl
  obtain ⟨pages, f, hsome, hrel⟩ := cleanRxRing_some hinv.paged hskb
  rw [hclean, Option.some.injEq] at hsome
  subst hsome
  have hcases {page : ℕ} (hlt : page < s.nextPage) : pages page = s.pages page ∨
      (s.pages page).releases = 0 ∧ ∃ bias, pages page = (s.pages page).released bias := by
    by_cases hone : (s.pages page).releases = 1
    · apply Or.inl
      apply hrel.others
      intro j hj hwin _ hp
      have := (hinv.held hj hwin hp).2
      omega
    · obtain ⟨i, hi, hwin, hp⟩ := hinv.found hlt hone
      apply Or.inr
      refine ⟨(hinv.held hi hwin hp).2, _, hrel.slots i hi hwin (by simp) page hp⟩
  constructor
  · intro page hlt h0
    simp only at hlt h0 ⊢
    rcases hcases hlt with heq | ⟨-, bias, heq⟩
    · rw [heq] at h0 ⊢
      apply h.live page hlt h0
    · rw [heq] at h0
      simp [Page.released] at h0
  · intro page hlt h0
    simp only at hlt h0 ⊢
    rcases hcases hlt with heq | ⟨hlive, bias, heq⟩
    · rw [heq] at h0 ⊢
      apply h.done page hlt h0
    · obtain ⟨hmaps, hunmaps⟩ := h.live page hlt hlive
      rw [heq]
      simp [Page.released, hmaps, hunmaps]

/-! ### Runs -/

/-- Where the references to a page change, its mapping does not. -/
theorem Balanced.setPage
    (h : s.Balanced) (page : ℕ) (f : Page → Page)
    (hf : ∀ p, (f p).maps = p.maps ∧ (f p).unmaps = p.unmaps ∧ (f p).releases = p.releases) :
  (s.setPage page f).Balanced
  := by
  suffices hsame : ∀ q, ((s.setPage page f).pages q).maps = (s.pages q).maps ∧
      ((s.setPage page f).pages q).unmaps = (s.pages q).unmaps ∧
      ((s.setPage page f).pages q).releases = (s.pages q).releases from
    h.congr rfl hsame
  intro q
  simp only [RxQueue.setPage, Function.update_apply]
  split
  · rename_i heq
    rw [heq]
    apply hf
  · exact ⟨rfl, rfl, rfl⟩

/-- In every run whose turns meet the condition, every mapping is balanced. -/
theorem reachable_balanced (h : (system K).Reachable KeepsPages s) :
  s.Balanced
  := by
  induction h with
  | init hinit =>
    constructor <;> intro page hlt <;> rw [hinit.nextPage] at hlt <;> omega
  | @step s e s' hreach hG hstep ih =>
    have hinv := reachable_inv hreach
    obtain ⟨hen, hstep⟩ := hstep
    cases e with
    | configure flags alloc =>
      cases hstep
      have hcleared : (s.cleared flags).Balanced := ih.congr rfl fun _ => ⟨rfl, rfl, rfl⟩
      apply hcleared.refills
      apply configureRxRing_refills flags alloc (hinv.idle hen.1) hinv.count_pos
    | writeBack length eop frameErr =>
      cases hstep
      exact ih.congr rfl fun _ => ⟨rfl, rfl, rfl⟩
    | poll budget =>
      cases hstep
      exact ih.congr rfl fun _ => ⟨rfl, rfl, rfl⟩
    | turn t =>
      obtain ⟨p, hp, hturn⟩ := Option.bind_eq_some_iff.mp hstep
      have hactive := hinv.active_of_poll hp
      apply cleanRxTurn_balanced ih (hinv.window hactive) (reachable_biased hreach hactive)
        (hinv.counted hactive p hp) hp hG hturn
    | clean => apply cleanRxRing_balanced ih hinv hstep
    | drop page half =>
      cases hstep
      apply ih.setPage
      intro p
      exact ⟨rfl, rfl, rfl⟩
    | take page half =>
      cases hstep
      apply ih.setPage
      intro p
      exact ⟨rfl, rfl, rfl⟩

/-! ### A page that the driver may not keep -/

instance Copies.decide (s : RxQueue) (t : Turn) : Decidable (s.Copies t) :=
  inferInstanceAs (Decidable (_ ∧ _))

instance Reusable.decide (s : RxQueue) (t : Turn) (skb : SkbPtr) (page : ℕ) :
    Decidable (s.Reusable t skb page) :=
  inferInstanceAs (Decidable ((_ → _) ∧ (_ → _)))

instance KeepsPages.decide (s : RxQueue) : (e : Event) → Decidable (s.KeepsPages e)
  | .turn t => inferInstanceAs (Decidable (∀ p ∈ s.poll, p.totalRxPackets < p.budget →
      (s.ring.desc s.ring.nextToClean).length ≠ 0 →
      ∀ page ∈ s.ring.pageAt s.ring.nextToClean, t.FillsSkb p.skb → s.Reusable t p.skb page))
  | .configure _ _ | .writeBack _ _ _ | .poll _ | .clean | .drop _ _ | .take _ _ => isTrue trivial

/-- The mappings are balanced once a frame has been passed to the stack. -/
theorem passedOne_balanced :
  passedOne.Balanced
  := by
  apply reachable_balanced (K := cacheLine64)
  apply run_reachable
  decide +kernel

/-- A frame is received in a page that `ixgbevf_page_is_reserved` tells the driver not to
keep. -/
def receivesReserved : List Event :=
  [.configure { usesLargeBuffer := false, usesBuildSkb := true } fun _ => .ok,
    .writeBack 1514 true false, .poll 64,
    .turn { plainTurn (.pass none) with reserved := true }]

/-- The page of a frame that an skb holds is given up and stays mapped. -/
theorem reserved_not_balanced :
  ¬ ∀ s, (system cacheLine64).Reachable TransSystem.always s → s.Balanced
  := by
  intro h
  have hbal := h (receivesReserved.foldl (after cacheLine64) fresh)
    (run_reachable (by decide +kernel))
  have hdone := hbal.done 0
  revert hdone
  decide +kernel

end RxQueue

end Ixgbevf.Rx
