import Ixgbevf.Rx.Turn

/-!
# The pages that an Rx ring holds

In every run the indices keep their order, and while the ring is configured the slots of the
window hold a page each.  Every page that the driver was given is in one slot, or has been
given up once.
-/

namespace Ixgbevf.Rx

open Cyclic

namespace RxQueue

variable {K : KernelConfig} {s s' : RxQueue}

/-! ### Retiring keeps the window -/

/-- The window depends on the indices, the pages of the slots, the lengths of the descriptors
and the releases of the pages. -/
theorem Window.congr
    (h : s.Window) (hcount : s'.ring.count = s.ring.count)
    (hclean : s'.ring.nextToClean = s.ring.nextToClean)
    (huse : s'.ring.nextToUse = s.ring.nextToUse)
    (halloc : s'.ring.nextToAlloc = s.ring.nextToAlloc) (htail : s'.ring.tail = s.ring.tail)
    (hhead : s'.head = s.head) (hdesc : s'.ring.desc = s.ring.desc)
    (hnext : s'.nextPage = s.nextPage) (hpage : s'.ring.pageAt = s.ring.pageAt)
    (hrel : ∀ page, (s'.pages page).releases = (s.pages page).releases) :
  s'.Window
  := by
  obtain ⟨⟨h₁, h₂, h₃, h₄⟩, hslots, hinj, htail', hlt, hle, hclear, hheld, hfound, honce⟩ := h
  constructor
  · constructor <;> simp only [hcount, hclean, huse, halloc] <;> assumption
  · simpa only [RxRing.InWindow, hcount, hclean, halloc, hpage] using hslots
  · simpa only [hcount, hpage] using hinj
  · simpa only [htail, huse] using htail'
  · simpa only [hcount, hhead] using hlt
  · simpa only [hcount, hclean, hhead, huse] using hle
  · simpa only [hcount, hclean, hhead, huse, hdesc] using hclear
  · simpa only [hcount, hpage, hnext, hrel] using hheld
  · simpa only [hcount, hpage, hnext, hrel] using hfound
  · simpa only [hnext, hrel] using honce

/-- Taking the data of a buffer leaves the pages of the slots alone. -/
theorem useBuffer_pageAt (u : Use) (i page : ℕ) (s : RxQueue) :
  (useBuffer u i page s).ring.pageAt = s.ring.pageAt
  := by
  funext j
  cases u <;>
    simp only [useBuffer, rxBufferFlip, useHalf, getRxBuffer, keepRxBuffer, setBuffer, setPage,
      RxRing.setBuffer, RxRing.pageAt, Function.update_apply] <;>
    split <;> simp_all

/-- Taking the data of a buffer leaves the releases of the pages alone. -/
theorem useBuffer_releases (u : Use) (i page : ℕ) (s : RxQueue) (q : ℕ) :
  ((useBuffer u i page s).pages q).releases = (s.pages q).releases
  := by
  cases u with
  | used =>
    simp only [useBuffer, rxBufferFlip, useHalf, getRxBuffer, setBuffer, setPage,
      Function.update_apply]
    split <;> simp_all
  | kept => rfl
  | stray => rfl

/-- Taking the data of a buffer keeps the window. -/
theorem Window.useBuffer (h : s.Window) (u : Use) (i page n : ℕ) :
  { RxQueue.useBuffer u i page s with nextSkb := n }.Window
  := by
  apply h.congr
  case hpage => apply useBuffer_pageAt
  case hrel => apply useBuffer_releases
  all_goals cases u <;> rfl

/-- A slot before the head, and so before `next_to_use`, is in the window. -/
theorem Window.clean_ne (h : s.Window) (hne : s.ring.nextToClean ≠ s.head) :
  s.ring.nextToClean ≠ s.ring.nextToUse ∧ s.ring.nextToClean ≠ s.ring.nextToAlloc
  := by
  have hidx := h.indices
  have hhead := (gap_eq_zero (b := s.head) hidx.clean_lt).not.mpr hne
  have hle := h.head_le
  have hle' := hidx.use_le
  constructor
  · intro heq
    rw [← gap_eq_zero hidx.clean_lt] at heq
    omega
  · intro heq
    rw [← gap_eq_zero hidx.clean_lt] at heq
    omega

/-- Recycling the page of the slot at `next_to_clean` keeps the window. -/
theorem Window.recycled
    {page : ℕ} (h : s.Window) (hne : s.ring.nextToClean ≠ s.head)
    (hpage : s.ring.pageAt s.ring.nextToClean = some page) :
  (passClean (recycle s.ring.nextToClean page s)).Window
  := by
  have hidx := h.indices
  obtain ⟨hneu, hnea⟩ := h.clean_ne hne
  have hc := hidx.clean_lt
  have hleft {b : ℕ} (hb : b < s.ring.count) (hcb : s.ring.nextToClean ≠ b) :=
    gap_next_left hc hb hcb
  have hself := gap_next_self hc
  have hwide := gap_lt hc hidx.alloc_lt
  have halloc : gap s.ring.count (next s.ring.count s.ring.nextToClean)
      (next s.ring.count s.ring.nextToAlloc)
        = gap s.ring.count s.ring.nextToClean s.ring.nextToAlloc := by
    have hone := hleft hidx.alloc_lt hnea
    rw [gap_next (next_lt hc) hidx.alloc_lt (by omega), hone]
  have hpages (j : ℕ) : (passClean (recycle s.ring.nextToClean page s)).ring.pageAt j
      = if j = s.ring.nextToClean then none
        else if j = s.ring.nextToAlloc then some page else s.ring.pageAt j := by
    rw [← hpage]
    simp only [passClean, recycle, RxRing.pageAt, Function.update_apply]
    split
    · rfl
    · split <;> rfl
  have hrel (q : ℕ) : ((passClean (recycle s.ring.nextToClean page s)).pages q).releases
      = (s.pages q).releases := by
    simp only [passClean, recycle, Function.update_apply]
    split <;> simp_all
  have hempty : s.ring.pageAt s.ring.nextToAlloc = none := by
    have hslot := (h.slots _ hidx.alloc_lt).not.mpr (by simp [RxRing.InWindow])
    simpa using hslot
  constructor
  · constructor
    · apply next_lt hc
    · apply hidx.use_lt
    · apply next_lt hidx.alloc_lt
    · simp only [passClean, recycle]
      rw [halloc]
      have := hleft hidx.use_lt hneu
      have := hidx.use_le
      omega
  · intro j hj
    have hslot := h.slots j hj
    rw [hpages]
    simp only [passClean, recycle, RxRing.InWindow] at hslot hj ⊢
    rw [halloc]
    split
    · rename_i heq
      subst heq
      simp only [Option.isSome_none, Bool.false_eq_true, false_iff]
      omega
    · rename_i hnc
      have hj' := hleft hj (Ne.symm hnc)
      split
      · rename_i heq
        subst heq
        simp only [Option.isSome_some, true_iff]
        omega
      · rename_i hna
        have := (gap_inj hc hj hidx.alloc_lt).not.mpr hna
        rw [hslot]
        omega
  · intro i hi j hj q hqi hqj
    rw [hpages] at hqi hqj
    have hwas {k : ℕ} (hk : k < s.ring.count) (hkc : k ≠ s.ring.nextToClean)
        (hkp : s.ring.pageAt k = some page) : False :=
      hkc (h.inj k hk _ hc page hkp hpage)
    split at hqi
    · cases hqi
    split at hqj
    · cases hqj
    rename_i hic hjc
    split at hqi
    · cases hqi
      split at hqj
      · omega
      · exact (hwas hj hjc hqj).elim
    · split at hqj
      · cases hqj
        exact (hwas hi hic hqi).elim
      · apply h.inj i hi j hj q hqi hqj
  · apply h.tail
  · apply h.head_lt
  · simp only [passClean, recycle]
    have := hleft h.head_lt hne
    have := hleft hidx.use_lt hneu
    have := h.head_le
    omega
  · intro i hi hhead huse
    simp only [passClean, recycle] at hi hhead huse ⊢
    have h₁ := hleft h.head_lt hne
    have h₂ := hleft hidx.use_lt hneu
    have hi' : s.ring.nextToClean ≠ i := by
      rintro rfl
      have := gap_lt hc hidx.use_lt
      omega
    have h₃ := hleft hi hi'
    apply h.cleared i hi <;> omega
  · intro i hi q hq
    rw [hpages] at hq
    rw [hrel]
    split at hq
    · cases hq
    split at hq
    · cases hq
      apply h.held _ hc _ hpage
    · apply h.held i hi q hq
  · intro q hq hqrel
    rw [hrel] at hqrel
    obtain ⟨i, hi, hqi⟩ := h.found q hq hqrel
    by_cases hic : i = s.ring.nextToClean
    · subst hic
      rw [hpage, Option.some.injEq] at hqi
      subst hqi
      use s.ring.nextToAlloc, hidx.alloc_lt
      rw [hpages, if_neg (Ne.symm hnea), if_pos rfl]
    · use i, hi
      rw [hpages, if_neg hic, if_neg]
      · apply hqi
      · rintro rfl
        rw [hempty] at hqi
        cases hqi
  · intro q hq
    rw [hrel]
    apply h.once q hq

/-- Giving up the page of the slot at `next_to_clean` keeps the window. -/
theorem Window.drained
    {page : ℕ} (h : s.Window) (hne : s.ring.nextToClean ≠ s.head)
    (hpage : s.ring.pageAt s.ring.nextToClean = some page) (unmap : Bool) :
  (passClean (drain unmap s.ring.nextToClean page s)).Window
  := by
  have hidx := h.indices
  obtain ⟨hneu, hnea⟩ := h.clean_ne hne
  have hc := hidx.clean_lt
  have hleft {b : ℕ} (hb : b < s.ring.count) (hcb : s.ring.nextToClean ≠ b) :=
    gap_next_left hc hb hcb
  have hself := gap_next_self hc
  have hwide := gap_lt hc hidx.alloc_lt
  have halloc := hleft hidx.alloc_lt hnea
  have hpages (j : ℕ) : (passClean (drain unmap s.ring.nextToClean page s)).ring.pageAt j
      = if j = s.ring.nextToClean then none else s.ring.pageAt j := by
    simp only [passClean, drain, RxRing.pageAt, RxRing.setBuffer, Function.update_apply]
    split <;> rfl
  have hrel (q : ℕ) : ((passClean (drain unmap s.ring.nextToClean page s)).pages q).releases
      = if q = page then (s.pages q).releases + 1 else (s.pages q).releases := by
    simp only [passClean, drain, Function.update_apply]
    split <;> simp_all
  constructor
  · constructor
    · apply next_lt hc
    · apply hidx.use_lt
    · apply hidx.alloc_lt
    · simp only [passClean, drain, RxRing.setBuffer]
      have := hleft hidx.use_lt hneu
      have := hidx.use_le
      omega
  · intro j hj
    have hslot := h.slots j hj
    rw [hpages]
    simp only [passClean, drain, RxRing.setBuffer, RxRing.InWindow] at hslot hj ⊢
    split
    · rename_i heq
      subst heq
      simp only [Option.isSome_none, Bool.false_eq_true, false_iff]
      omega
    · rename_i hnc
      have hj' := hleft hj (Ne.symm hnc)
      rw [hslot]
      omega
  · intro i hi j hj q hqi hqj
    rw [hpages] at hqi hqj
    split at hqi
    · cases hqi
    split at hqj
    · cases hqj
    apply h.inj i hi j hj q hqi hqj
  · apply h.tail
  · apply h.head_lt
  · simp only [passClean, drain, RxRing.setBuffer]
    have := hleft h.head_lt hne
    have := hleft hidx.use_lt hneu
    have := h.head_le
    omega
  · intro i hi hhead huse
    simp only [passClean, drain, RxRing.setBuffer] at hi hhead huse ⊢
    have h₁ := hleft h.head_lt hne
    have h₂ := hleft hidx.use_lt hneu
    have hi' : s.ring.nextToClean ≠ i := by
      rintro rfl
      have := gap_lt hc hidx.use_lt
      omega
    have h₃ := hleft hi hi'
    apply h.cleared i hi <;> omega
  · intro i hi q hq
    rw [hpages] at hq
    rw [hrel]
    split at hq
    · cases hq
    · rename_i hic
      rw [if_neg]
      · apply h.held i hi q hq
      · rintro rfl
        exact hic (h.inj i hi _ hc q hq hpage)
  · intro q hq hqrel
    rw [hrel] at hqrel
    split at hqrel
    · omega
    · rename_i hqp
      obtain ⟨i, hi, hqi⟩ := h.found q hq hqrel
      use i, hi
      rw [hpages, if_neg]
      · apply hqi
      · rintro rfl
        rw [hpage, Option.some.injEq] at hqi
        exact hqp hqi.symm
  · intro q hq
    rw [hrel]
    split
    · rename_i heq
      subst heq
      rw [(h.held _ hc _ hpage).2]
    · apply h.once q hq

/-! ### A poll keeps count of what it has cleaned -/

end RxQueue

/-- The `cleaned_count` of a poll covers the recycled slots, and refilling as many slots leaves
one free. -/
structure RxRing.Counted (r : RxRing) (cleanedCount : ℕ) : Prop where
  recycled : gap r.count r.nextToClean r.nextToAlloc
    ≤ gap r.count r.nextToClean r.nextToUse + cleanedCount
  room : gap r.count r.nextToClean r.nextToUse + cleanedCount < r.count

namespace RxQueue

variable {K : KernelConfig} {s s' : RxQueue}

/-- The unused descriptors are a count of cleaned slots. -/
theorem Window.counted_descUnused (h : s.Window) :
  s.ring.Counted s.ring.descUnused
  := by
  have hidx := h.indices
  have hunused := RxRing.descUnused_eq hidx.clean_lt hidx.use_lt
  have hlt := gap_lt hidx.clean_lt hidx.alloc_lt
  constructor <;> omega

/-- Where no recycled slot is left, nothing needs to be counted. -/
theorem Window.counted_zero (h : s.Window) (heq : s.ring.nextToAlloc = s.ring.nextToUse) :
  s.ring.Counted 0
  := by
  have hidx := h.indices
  have hlt := gap_lt hidx.clean_lt hidx.use_lt
  constructor
  · rw [heq]
    omega
  · omega

/-- Retiring a buffer adds one to the count. -/
theorem Window.counted_retired
    {n : ℕ} {r : RxRing} (h : s.Window) (hn : s.ring.Counted n)
    (hne : s.ring.nextToClean ≠ s.head) (hcount : r.count = s.ring.count)
    (hclean : r.nextToClean = next s.ring.count s.ring.nextToClean)
    (huse : r.nextToUse = s.ring.nextToUse)
    (halloc : r.nextToAlloc = next s.ring.count s.ring.nextToAlloc ∨
      r.nextToAlloc = s.ring.nextToAlloc) :
  r.Counted (n + 1)
  := by
  have hidx := h.indices
  obtain ⟨hneu, hnea⟩ := h.clean_ne hne
  have hc := hidx.clean_lt
  have h₁ := gap_next_left hc hidx.use_lt hneu
  have h₂ := gap_next_left hc hidx.alloc_lt hnea
  have hwide := gap_lt hc hidx.alloc_lt
  have hrec := hn.recycled
  have hroom := hn.room
  constructor
  · rw [hcount, hclean, huse]
    rcases halloc with halloc | halloc
    · rw [halloc, gap_next (next_lt hc) hidx.alloc_lt (by omega)]
      omega
    · rw [halloc]
      omega
  · rw [hcount, hclean, huse]
    omega

/-! ### A turn keeps the window -/

/-- What a turn comes to: moves of refilling, and then the end of the call, or a descriptor
that the hardware has written back. -/
theorem cleanRxTurn_cases
    {t : Turn} {p : Poll} (h : s.Window) (hp : s.ring.Counted p.cleanedCount)
    (hturn : cleanRxTurn K t p s = some s') :
  ∃ s₁ p₁, Relation.ReflTransGen (Refill K) s s₁ ∧ s₁.ring.Counted p₁.cleanedCount ∧
    p₁.skb = p.skb ∧
    (s' = finishPoll p.skb s₁ ∨
      p.totalRxPackets < p.budget ∧ (s₁.ring.desc s₁.ring.nextToClean).length ≠ 0 ∧
        ∃ page, s₁.ring.pageAt s₁.ring.nextToClean = some page ∧ Received t page p₁ s₁ s')
  := by
  unfold cleanRxTurn at hturn
  split at hturn
  · rename_i hbudget
    obtain ⟨⟨s₁, p₁⟩, heq⟩ : ∃ x, x = (if rxBufferWrite ≤ p.cleanedCount then
        (allocRxBuffers K t.alloc p.cleanedCount s, { p with cleanedCount := 0 }) else (s, p)) :=
      ⟨_, rfl⟩
    rw [← heq] at hturn
    have hrefill : Relation.ReflTransGen (Refill K) s s₁ ∧ s₁.ring.Counted p₁.cleanedCount ∧
        p₁.skb = p.skb := by
      split at heq
      · cases heq
        obtain ⟨hpath, halloc⟩ := allocRxBuffers_refills t.alloc h hp.room hp.recycled
        exact ⟨hpath, (h.refills hpath).counted_zero halloc, rfl⟩
      · cases heq
        exact ⟨Relation.ReflTransGen.refl, hp, rfl⟩
    obtain ⟨hpath, hcounted, hskb⟩ := hrefill
    use s₁, p₁, hpath, hcounted, hskb
    simp only at hturn
    split at hturn
    · cases hturn
      rw [hskb]
      apply Or.inl rfl
    · rename_i hlen
      obtain ⟨page, hpage, hreceive⟩ := Option.map_eq_some_iff.mp hturn
      apply Or.inr
      refine ⟨hbudget, hlen, page, hpage, ?_⟩
      rw [← hreceive]
      apply receive_received
  · cases hturn
    exact ⟨s, p, Relation.ReflTransGen.refl, hp, rfl, Or.inl rfl⟩

/-- A descriptor with a length is one that the hardware has written back. -/
theorem Window.clean_ne_head
    (h : s.Window) (hlen : (s.ring.desc s.ring.nextToClean).length ≠ 0) :
  s.ring.nextToClean ≠ s.head
  := by
  intro heq
  apply hlen
  apply h.cleared _ h.indices.clean_lt
  · rw [← heq]
  · simp

/-- A descriptor with a length has a page. -/
theorem Window.clean_page
    (h : s.Window) (hlen : (s.ring.desc s.ring.nextToClean).length ≠ 0) :
  ∃ page, (s.ring.buffer s.ring.nextToClean).page = some page
  := by
  have hc := h.indices.clean_lt
  have hpos := (gap_eq_zero hc).not.mpr (h.clean_ne (h.clean_ne_head hlen)).2
  apply Option.isSome_iff_exists.mp
  apply (h.slots _ hc).mpr
  unfold RxRing.InWindow
  rw [gap_self]
  omega

/-- The end of a call keeps the window. -/
theorem Window.finishPoll (h : s.Window) (skb : SkbPtr) :
  (RxQueue.finishPoll skb s).Window
  := by
  apply h.congr
  case hrel => intro page; rfl
  all_goals rfl

/-- Retiring a buffer keeps the window and the count. -/
theorem Window.retireBuffer
    {page : ℕ} (h : s.Window) (t : Turn) (p : Poll) (hp : s.ring.Counted p.cleanedCount)
    (hne : s.ring.nextToClean ≠ s.head) (hpage : s.ring.pageAt s.ring.nextToClean = some page) :
  (RxQueue.retireBuffer t page p s).Window ∧
    ∃ p', (RxQueue.retireBuffer t page p s).poll = some p' ∧
      (RxQueue.retireBuffer t page p s).ring.Counted p'.cleanedCount
  := by
  obtain ⟨p', f, heq, hcount⟩ := retireBuffer_eq t page p s
  rw [heq, putRxBuffer_eq]
  split
  · constructor
    · apply (h.recycled hne hpage).congr
      case hrel => intro q; rfl
      all_goals rfl
    · use p', rfl
      rw [hcount]
      exact h.counted_retired hp hne rfl rfl rfl (Or.inl rfl)
  · constructor
    · apply (h.drained hne hpage p.skb.isErr).congr
      case hrel => intro q; rfl
      all_goals rfl
    · use p', rfl
      rw [hcount]
      exact h.counted_retired hp hne rfl rfl rfl (Or.inr rfl)

/-- Taking the data of a buffer keeps the count. -/
theorem useBuffer_counted (u : Use) (i page n : ℕ) (h : s.ring.Counted n) :
  (RxQueue.useBuffer u i page s).ring.Counted n
  := by
  cases u <;> exact ⟨h.recycled, h.room⟩

/-- A turn keeps the window and the count. -/
theorem cleanRxTurn_window
    {t : Turn} {p : Poll} (h : s.Window) (hp : s.ring.Counted p.cleanedCount)
    (hturn : cleanRxTurn K t p s = some s') :
  s'.Window ∧ ∀ p', s'.poll = some p' → s'.ring.Counted p'.cleanedCount
  := by
  obtain ⟨s₁, p₁, hpath, hcounted, -, hend | ⟨-, hlen, page, hpage, hreceived⟩⟩ :=
    cleanRxTurn_cases h hp hturn
  · subst hend
    constructor
    · apply (h.refills hpath).finishPoll
    · intro p' hp'
      cases hp'
  · have h₁ := h.refills hpath
    have hne := h₁.clean_ne_head hlen
    cases hreceived with
    | failed =>
      constructor
      · apply Window.finishPoll
        exact h₁.useBuffer .kept s₁.ring.nextToClean page s₁.nextSkb
      · intro p' hp'
        cases hp'
    | retired u skb n total =>
      have h₂ := h₁.useBuffer u s₁.ring.nextToClean page n
      have hsame : (useBuffer u s₁.ring.nextToClean page s₁).ring.nextToClean
          = s₁.ring.nextToClean ∧
          (useBuffer u s₁.ring.nextToClean page s₁).head = s₁.head := by
        cases u <;> exact ⟨rfl, rfl⟩
      have hpage' : (useBuffer u s₁.ring.nextToClean page s₁).ring.pageAt
          (useBuffer u s₁.ring.nextToClean page s₁).ring.nextToClean = some page := by
        rw [useBuffer_pageAt, hsame.1]
        apply hpage
      obtain ⟨hwin, p', hpoll, hc⟩ := h₂.retireBuffer t
        { p₁ with skb := skb, totalRxPackets := total } (useBuffer_counted u _ page _ hcounted)
        (by rw [hsame.1, hsame.2]; exact hne) hpage'
      constructor
      · apply hwin
      · intro q hq
        rw [hpoll, Option.some.injEq] at hq
        rw [← hq]
        apply hc

/-! ### Cleaning the ring -/

end RxQueue

/-- A page after its mapping and `bias` references to it have been given up. -/
def Page.released (p : Page) (bias : ℕ) : Page :=
  { p with refCount := p.refCount - bias, unmaps := p.unmaps + 1, releases := p.releases + 1 }

/-- The pages in the slots of the window from `i` on are released, the others stay as they
are. -/
structure Releases (r : RxRing) (i : ℕ) (pages pages' : ℕ → Page) : Prop where
  slots : ∀ j < r.count, r.InWindow j →
    gap r.count r.nextToClean i ≤ gap r.count r.nextToClean j → ∀ page, r.pageAt j = some page →
    pages' page = (pages page).released (r.buffer j).pagecntBias
  others : ∀ page, (∀ j < r.count, r.InWindow j →
    gap r.count r.nextToClean i ≤ gap r.count r.nextToClean j → r.pageAt j ≠ some page) →
    pages' page = pages page

/-- The slots of the window hold a page each. -/
structure RxRing.Paged (r : RxRing) : Prop where
  clean_lt : r.nextToClean < r.count
  alloc_lt : r.nextToAlloc < r.count
  slots : ∀ j < r.count, r.InWindow j → (r.pageAt j).isSome
  inj : ∀ i < r.count, r.InWindow i → ∀ j < r.count, r.InWindow j → ∀ page,
    r.pageAt i = some page → r.pageAt j = some page → i = j

namespace RxQueue

variable {K : KernelConfig} {s s' : RxQueue}

/-- The loop of `ixgbevf_clean_rx_ring` releases the pages of the window. -/
theorem releasePages_some
    (fuel : ℕ) {i : ℕ} (h : s.ring.Paged) (hi : i < s.ring.count)
    (hle : gap s.ring.count s.ring.nextToClean i
      ≤ gap s.ring.count s.ring.nextToClean s.ring.nextToAlloc)
    (hfuel : gap s.ring.count s.ring.nextToClean s.ring.nextToAlloc
      ≤ gap s.ring.count s.ring.nextToClean i + fuel) :
  ∃ pages, releasePages fuel i s = some { s with pages := pages } ∧
    Releases s.ring i s.pages pages
  := by
  induction fuel generalizing i s with
  | zero =>
    use s.pages, rfl
    constructor
    · intro j hj hwin hge
      simp only [RxRing.InWindow] at hwin
      omega
    · intro page _
      rfl
  | succ fuel ih =>
    rw [releasePages]
    split
    · rename_i heq
      use s.pages, rfl
      constructor
      · intro j hj hwin hge
        simp only [RxRing.InWindow] at hwin
        rw [heq] at hge
        omega
      · intro page _
        rfl
    · rename_i hne
      have hc := h.clean_lt
      have hlt : gap s.ring.count s.ring.nextToClean i
          < gap s.ring.count s.ring.nextToClean s.ring.nextToAlloc := by
        have := (gap_inj hc hi h.alloc_lt).not.mpr hne
        omega
      have hwide := gap_lt hc h.alloc_lt
      have hnext := gap_next hc hi (by omega)
      obtain ⟨page, hpage⟩ := Option.isSome_iff_exists.mp (h.slots i hi hlt)
      have hbuf : (s.ring.buffer i).page = some page := hpage
      simp only [hbuf]
      obtain ⟨pages₁, hpages₁⟩ : ∃ pages₁, pages₁ = Function.update s.pages page
        ((s.pages page).released (s.ring.buffer i).pagecntBias) := ⟨_, rfl⟩
      have hstep : pageFragCacheDrain page (s.ring.buffer i).pagecntBias (dmaUnmapPage page s)
          = { s with pages := pages₁ } := by
        simp [pageFragCacheDrain, dmaUnmapPage, setPage, Page.released, hpages₁]
      rw [hstep]
      obtain ⟨pages, hsome, hrel⟩ := ih (s := { s with pages := pages₁ }) h (next_lt hi)
        (by simp only; omega) (by simp only; omega)
      use pages, hsome
      simp only [hpages₁] at hrel
      have hpast {j : ℕ} (hj : j < s.ring.count)
          (hge : gap s.ring.count s.ring.nextToClean i ≤ gap s.ring.count s.ring.nextToClean j)
          (hji : j ≠ i) : gap s.ring.count s.ring.nextToClean (next s.ring.count i)
            ≤ gap s.ring.count s.ring.nextToClean j := by
        have := (gap_inj hc hj hi).not.mpr hji
        omega
      constructor
      · intro j hj hwin hge q hq
        by_cases hji : j = i
        · subst hji
          rw [hpage, Option.some.injEq] at hq
          subst hq
          rw [hrel.others, Function.update_self]
          intro k hk hkwin hkge hkp
          have := h.inj k hk hkwin j hj hwin page hkp hpage
          subst this
          omega
        · rw [hrel.slots j hj hwin (hpast hj hge hji) q hq, Function.update_of_ne]
          rintro rfl
          exact hji (h.inj j hj hwin i hi hlt q hq hpage)
      · intro q hq
        rw [hrel.others, Function.update_of_ne]
        · rintro rfl
          exact hq i hi hlt le_rfl hpage
        · intro j hj hwin hge
          apply hq j hj hwin
          omega

/-- What `ixgbevf_clean_rx_ring` does, unless `skb` is an error pointer. -/
theorem cleanRxRing_some (h : s.ring.Paged) (hskb : s.ring.skb.isErr = false) :
  ∃ pages f, cleanRxRing s = some { s with
      ring := { s.ring with nextToAlloc := 0, nextToClean := 0, nextToUse := 0, skb := .null }
      pages := pages
      skbReleases := f
      active := false } ∧ Releases s.ring s.ring.nextToClean s.pages pages
  := by
  have hself : gap s.ring.count s.ring.nextToClean s.ring.nextToClean = 0 := gap_self
  have hwide := gap_lt h.clean_lt h.alloc_lt
  unfold cleanRxRing
  cases hptr : s.ring.skb with
  | null =>
    obtain ⟨pages, hsome, hrel⟩ := releasePages_some s.ring.count h h.clean_lt
      (by omega) (by omega)
    use pages, s.skbReleases
    simp only [hsome, Option.map_some]
    exact ⟨trivial, hrel⟩
  | err v =>
    rw [hptr] at hskb
    cases hskb
  | skb skb =>
    obtain ⟨pages, hsome, hrel⟩ := releasePages_some (s := s.releaseSkb skb) s.ring.count h
      h.clean_lt (by simp only [releaseSkb]; omega) (by simp only [releaseSkb]; omega)
    use pages, (s.releaseSkb skb).skbReleases
    simp only [releaseSkb] at hsome hrel ⊢
    simp only [hsome, Option.map_some]
    exact ⟨trivial, hrel⟩

/-! ### The invariant of a run -/

/-- A ring that holds no page. -/
structure Idle (s : RxQueue) : Prop where
  nextToClean : s.ring.nextToClean = 0
  nextToUse : s.ring.nextToUse = 0
  nextToAlloc : s.ring.nextToAlloc = 0
  skb : s.ring.skb = .null
  poll : s.poll = none
  releases : ∀ page < s.nextPage, (s.pages page).releases = 1

/-- What holds of the queue in every state of a run. -/
structure Inv (s : RxQueue) : Prop where
  count_pos : 0 < s.ring.count
  window : s.active = true → s.Window
  counted : s.active = true → ∀ p, s.poll = some p → s.ring.Counted p.cleanedCount
  idle : s.active = false → s.Idle

/-- A configured ring has its slots paged. -/
theorem Window.paged (h : s.Window) :
  s.ring.Paged
  := by
  constructor
  · apply h.indices.clean_lt
  · apply h.indices.alloc_lt
  · intro j hj hwin
    apply (h.slots j hj).mpr hwin
  · intro i hi _ j hj _
    apply h.inj i hi j hj

/-- In every state the slots of the window hold a page each, where an idle ring has none. -/
theorem Inv.paged (h : s.Inv) :
  s.ring.Paged
  := by
  cases hactive : s.active with
  | true => apply (h.window hactive).paged
  | false =>
    have hidle := h.idle hactive
    have hempty : ∀ j, ¬ s.ring.InWindow j := by
      intro j hwin
      simp [RxRing.InWindow, hidle.nextToClean, hidle.nextToAlloc] at hwin
    constructor
    · rw [hidle.nextToClean]
      apply h.count_pos
    · rw [hidle.nextToAlloc]
      apply h.count_pos
    · intro j _ hwin
      exact absurd hwin (hempty j)
    · intro i _ hwin
      exact absurd hwin (hempty i)

/-- A ring that is polled is configured. -/
theorem Inv.active_of_poll {p : Poll} (h : s.Inv) (hp : s.poll = some p) :
  s.active = true
  := by
  rw [← Bool.not_eq_false]
  intro hidle
  rw [(h.idle hidle).poll] at hp
  cases hp

/-- A page that the driver has not given up is in a slot of the window. -/
theorem Inv.found (h : s.Inv) {page : ℕ} (hpage : page < s.nextPage)
    (hrel : (s.pages page).releases ≠ 1) :
  ∃ i < s.ring.count, s.ring.InWindow i ∧ s.ring.pageAt i = some page
  := by
  cases hactive : s.active with
  | true =>
    have hwin := h.window hactive
    have hle := hwin.once page hpage
    obtain ⟨i, hi, hp⟩ := hwin.found page hpage (by omega)
    use i, hi
    refine ⟨?_, hp⟩
    apply (hwin.slots i hi).mp
    rw [hp]
    rfl
  | false => exact absurd ((h.idle hactive).releases page hpage) hrel

/-- A page in a slot of the window has not been given up. -/
theorem Inv.held (h : s.Inv) {page i : ℕ} (hi : i < s.ring.count) (hwin : s.ring.InWindow i)
    (hpage : s.ring.pageAt i = some page) :
  page < s.nextPage ∧ (s.pages page).releases = 0
  := by
  cases hactive : s.active with
  | true => apply (h.window hactive).held i hi page hpage
  | false =>
    have hidle := h.idle hactive
    simp [RxRing.InWindow, hidle.nextToClean, hidle.nextToAlloc] at hwin

/-- The queue in `ixgbevf_configure_rx_ring` before it is filled. -/
def cleared (flags : BufferFlags) (s : RxQueue) : RxQueue :=
  { s with
    ring := { s.ring with
      flags := flags
      tail := 0
      buffer := fun _ => { page := none, pageOffset := 0, pagecntBias := 0 }
      nextToClean := 0
      nextToUse := 0
      nextToAlloc := 0
      desc := Function.update s.ring.desc 0 { s.ring.desc 0 with length := 0 } }
    head := 0
    active := true }

/-- The window of a ring that has been cleared is empty. -/
theorem cleared_window_of (flags : BufferFlags)
    (hreleases : ∀ page < s.nextPage, (s.pages page).releases = 1) (hpos : 0 < s.ring.count) :
  (s.cleared flags).Window
  := by
  constructor
  · constructor <;> simp [cleared, hpos]
  · intro i hi
    simp [cleared, RxRing.pageAt, RxRing.InWindow]
  · intro i _ j _ page hp
    cases hp
  · rfl
  · exact hpos
  · simp [cleared]
  · intro i hi _ hle
    simp only [cleared, gap_self, Nat.le_zero, gap_eq_zero hpos] at hle
    subst hle
    simp [cleared]
  · intro i _ page hp
    cases hp
  · intro page hp hrel
    have := hreleases page hp
    simp only [cleared] at hrel
    omega
  · intro page hp
    exact (hreleases page hp).le

/-- The window of an idle ring that has been cleared is empty. -/
theorem cleared_window (flags : BufferFlags) (h : s.Idle) (hpos : 0 < s.ring.count) :
  (s.cleared flags).Window
  := cleared_window_of flags h.releases hpos

/-- Configuring a ring without pages clears it and refills it. -/
theorem configureRxRing_refills_of
    (flags : BufferFlags) (alloc : ℕ → PageAnswer)
    (hreleases : ∀ page < s.nextPage, (s.pages page).releases = 1) (hpos : 0 < s.ring.count) :
  Relation.ReflTransGen (Refill K) (s.cleared flags) (configureRxRing K flags alloc s)
  := by
  have hwin := cleared_window_of flags hreleases hpos
  have hcounted := hwin.counted_descUnused
  exact (allocRxBuffers_refills alloc hwin hcounted.room hcounted.recycled).1

/-- Configuring an idle ring clears it and refills it. -/
theorem configureRxRing_refills
    (flags : BufferFlags) (alloc : ℕ → PageAnswer) (h : s.Idle) (hpos : 0 < s.ring.count) :
  Relation.ReflTransGen (Refill K) (s.cleared flags) (configureRxRing K flags alloc s)
  := configureRxRing_refills_of flags alloc h.releases hpos

/-- A write-back keeps the window. -/
theorem Window.writeBack
    (h : s.Window) (hne : s.head ≠ s.ring.tail) (length : ℕ) (eop frameErr : Bool) :
  { s with
    ring := s.ring.setDesc s.head fun _ =>
      { pktAddr := none, length := length, eop := eop, frameErr := frameErr }
    head := next s.ring.count s.head }.Window
  := by
  have hidx := h.indices
  rw [h.tail] at hne
  have hlt : gap s.ring.count s.ring.nextToClean s.head
      < gap s.ring.count s.ring.nextToClean s.ring.nextToUse := by
    have hgap := (gap_inj hidx.clean_lt h.head_lt hidx.use_lt).not.mpr hne
    have := h.head_le
    omega
  have hwide := gap_lt hidx.clean_lt hidx.use_lt
  have hnext := gap_next hidx.clean_lt h.head_lt (by omega)
  constructor
  · constructor
    · apply hidx.clean_lt
    · apply hidx.use_lt
    · apply hidx.alloc_lt
    · apply hidx.use_le
  · apply h.slots
  · apply h.inj
  · apply h.tail
  · apply next_lt h.head_lt
  · simp only [RxRing.setDesc]
    omega
  · intro i hi hhead huse
    simp only [RxRing.setDesc] at hi hhead huse ⊢
    rw [Function.update_of_ne]
    · apply h.cleared i hi _ huse
      omega
    · rintro rfl
      omega
  · apply h.held
  · apply h.found
  · apply h.once

/-- An event that changes only the references to pages keeps the invariant. -/
theorem Inv.setPage
    (h : s.Inv) (page : ℕ) (f : Page → Page) (hf : ∀ p, (f p).releases = p.releases) :
  (s.setPage page f).Inv
  := by
  have hrel (q : ℕ) : ((s.setPage page f).pages q).releases = (s.pages q).releases := by
    simp only [RxQueue.setPage, Function.update_apply]
    split
    · rename_i heq
      rw [hf, heq]
    · rfl
  constructor
  · apply h.count_pos
  · intro hactive
    apply (h.window hactive).congr
    case hrel => apply hrel
    all_goals rfl
  · apply h.counted
  · intro hactive
    have hidle := h.idle hactive
    constructor
    · apply hidle.nextToClean
    · apply hidle.nextToUse
    · apply hidle.nextToAlloc
    · apply hidle.skb
    · apply hidle.poll
    · intro q hq
      rw [hrel]
      apply hidle.releases q hq

/-- A ring that has been cleaned is not configured. -/
theorem cleanRxRing_active (h : cleanRxRing s = some s') :
  s'.active = false
  := by
  unfold cleanRxRing at h
  cases hskb : s.ring.skb with
  | null =>
    simp only [hskb, Option.map_eq_some_iff] at h
    obtain ⟨s₁, -, rfl⟩ := h
    rfl
  | err v =>
    simp only [hskb] at h
    cases h
  | skb skb =>
    simp only [hskb, Option.map_eq_some_iff] at h
    obtain ⟨s₁, -, rfl⟩ := h
    rfl

/-- A turn leaves the ring configured, and its number of descriptors and the hardware as they
are. -/
theorem cleanRxTurn_same
    {t : Turn} {p : Poll} (h : s.Window) (hp : s.ring.Counted p.cleanedCount)
    (hturn : cleanRxTurn K t p s = some s') :
  s'.active = s.active ∧ s'.ring.count = s.ring.count ∧ s'.head = s.head
  := by
  obtain ⟨s₁, p₁, hpath, -, -, hend | ⟨-, -, page, -, hreceived⟩⟩ := cleanRxTurn_cases h hp hturn
  · have hsame := refills_sameRest hpath
    subst hend
    exact ⟨hsame.active, hsame.count, hsame.head⟩
  · have hsame := refills_sameRest hpath
    rw [← hsame.active, ← hsame.count, ← hsame.head]
    cases hreceived with
    | failed => exact ⟨rfl, rfl, rfl⟩
    | retired u skb n total =>
      obtain ⟨p', f, heq, -⟩ := retireBuffer_eq t page
        { p₁ with skb := skb, totalRxPackets := total }
        { useBuffer u s₁.ring.nextToClean page s₁ with nextSkb := n }
      rw [heq, putRxBuffer_eq]
      split <;> cases u <;> exact ⟨rfl, rfl, rfl⟩

/-- Every event keeps the invariant. -/
theorem step_inv {e : Event} (h : s.Inv) (hstep : (system K).step s e s') :
  s'.Inv
  := by
  obtain ⟨hen, hstep⟩ := hstep
  cases e with
  | configure flags alloc =>
    cases hstep
    have hidle := h.idle hen.1
    have hpath := configureRxRing_refills (K := K) flags alloc hidle h.count_pos
    have hsame := refills_sameRest hpath
    constructor
    · rw [hsame.count]
      apply h.count_pos
    · intro _
      apply (cleared_window flags hidle h.count_pos).refills hpath
    · intro _ p hp
      rw [hsame.poll] at hp
      simp only [cleared, hidle.poll] at hp
      cases hp
    · intro hno
      rw [hsame.active] at hno
      cases hno
  | writeBack length eop frameErr =>
    cases hstep
    constructor
    · apply h.count_pos
    · intro hactive
      apply (h.window hactive).writeBack hen
    · intro hactive p hp
      obtain ⟨hrec, hroom⟩ := h.counted hactive p hp
      exact ⟨hrec, hroom⟩
    · intro hactive
      obtain ⟨h₁, h₂, h₃, h₄, h₅, h₆⟩ := h.idle hactive
      exact ⟨h₁, h₂, h₃, h₄, h₅, h₆⟩
  | poll budget =>
    cases hstep
    have hwin := h.window hen.1
    constructor
    · apply h.count_pos
    · intro _
      apply hwin.congr
      case hrel => intro page; rfl
      all_goals rfl
    · intro _ p hp
      cases hp
      apply hwin.counted_descUnused
    · intro hactive
      have hno : s.active = false := hactive
      rw [hen.1] at hno
      cases hno
  | turn t =>
    obtain ⟨p, hp, hturn⟩ := Option.bind_eq_some_iff.mp hstep
    have hactive := h.active_of_poll hp
    have hwin := h.window hactive
    have hcounted := h.counted hactive p hp
    obtain ⟨hwin', hcounted'⟩ := cleanRxTurn_window hwin hcounted hturn
    obtain ⟨hactive', hcount, -⟩ := cleanRxTurn_same hwin hcounted hturn
    constructor
    · rw [hcount]
      apply h.count_pos
    · intro _
      apply hwin'
    · intro _
      apply hcounted'
    · intro hidle
      rw [hactive', hactive] at hidle
      cases hidle
  | clean =>
    have hskb : s.ring.skb.isErr = false := by
      rw [← Bool.not_eq_true]
      intro herr
      simp only [apply, cleanRxRing] at hstep
      cases hptr : s.ring.skb with
      | null =>
        rw [hptr] at herr
        cases herr
      | err v =>
        rw [hptr] at hstep
        cases hstep
      | skb skb =>
        rw [hptr] at herr
        cases herr
    obtain ⟨pages, f, hsome, hrel⟩ := cleanRxRing_some h.paged hskb
    simp only [apply, hsome] at hstep
    cases hstep
    constructor
    · apply h.count_pos
    · intro hactive
      cases hactive
    · intro hactive
      cases hactive
    · intro _
      refine ⟨rfl, rfl, rfl, rfl, hen, ?_⟩
      intro page hpage
      simp only at hpage ⊢
      by_cases hrel' : (s.pages page).releases = 1
      · rw [hrel.others]
        · apply hrel'
        · intro j hj hwin _ hp
          have := (h.held hj hwin hp).2
          omega
      · obtain ⟨i, hi, hwin, hp⟩ := h.found hpage hrel'
        rw [hrel.slots i hi hwin (by simp) page hp]
        simp [Page.released, (h.held hi hwin hp).2]
  | drop page half =>
    cases hstep
    apply h.setPage
    intro p
    rfl
  | take page half =>
    cases hstep
    apply h.setPage
    intro p
    rfl

/-- A queue starts with the invariant. -/
theorem init_inv (h : Init s) :
  s.Inv
  := by
  constructor
  · apply h.count_pos
  · intro hactive
    rw [h.active] at hactive
    cases hactive
  · intro hactive
    rw [h.active] at hactive
    cases hactive
  · intro _
    refine ⟨h.nextToClean, h.nextToUse, h.nextToAlloc, h.skb, h.poll, ?_⟩
    intro page hpage
    rw [h.nextPage] at hpage
    omega

/-- The invariant holds in every state of a run. -/
theorem reachable_inv {G : RxQueue → Event → Prop} (h : (system K).Reachable G s) :
  s.Inv
  := by
  apply h.invariant
  · intro s hs
    apply init_inv hs
  · intro s e s' hs _ hstep
    apply step_inv hs hstep

end RxQueue

/-! ### Indices and pages in every run -/

/-- The slot `i` of the window holds the page. -/
def RxRing.Holds (r : RxRing) (i page : ℕ) : Prop :=
  i < r.count ∧ r.InWindow i ∧ r.pageAt i = some page

namespace RxQueue

variable {K : KernelConfig} {s s' : RxQueue}

/-- The indices are in order, and a page is in one slot until it is given up, which happens
once. -/
structure Ordered (s : RxQueue) : Prop where
  indices : s.ring.Indices
  pages : ∀ page < s.nextPage,
    ((s.pages page).releases = 0 ∧ ∃! i, s.ring.Holds i page) ∨
      ((s.pages page).releases = 1 ∧ ∀ i, ¬ s.ring.Holds i page)

/-- Exactly the slots of the window hold a page, and the descriptor at `next_to_use` stops the
driver from consuming one that it has not handed to the hardware. -/
structure Filled (s : RxQueue) : Prop where
  slots : ∀ i < s.ring.count, (s.ring.pageAt i).isSome ↔ s.ring.InWindow i
  length : (s.ring.desc s.ring.nextToUse).length = 0
  handed : (s.ring.desc s.ring.nextToClean).length ≠ 0 →
    s.ring.nextToClean ≠ s.ring.nextToUse

/-- `ixgbevf_clean_rx_ring` releases every page that the ring holds once, and no other. -/
def Cleanable (s : RxQueue) : Prop :=
  ∃ s', cleanRxRing s = some s' ∧ (∀ i page, ¬ s'.ring.Holds i page) ∧
    ∀ page, ((∃ i, s.ring.Holds i page) →
        (s'.pages page).releases = (s.pages page).releases + 1) ∧
      ((∀ i, ¬ s.ring.Holds i page) → (s'.pages page).releases = (s.pages page).releases)

/-- The invariant puts the indices and the pages in order. -/
theorem Inv.ordered (h : s.Inv) :
  s.Ordered
  := by
  constructor
  · cases hactive : s.active with
    | true => apply (h.window hactive).indices
    | false =>
      obtain ⟨h₁, h₂, h₃, -, -, -⟩ := h.idle hactive
      constructor <;> simp [h₁, h₂, h₃, h.count_pos]
  · intro page hpage
    by_cases hrel : (s.pages page).releases = 1
    · apply Or.inr
      refine ⟨hrel, ?_⟩
      rintro i ⟨hi, hwin, hp⟩
      have := (h.held hi hwin hp).2
      omega
    · obtain ⟨i, hi, hwin, hp⟩ := h.found hpage hrel
      apply Or.inl
      refine ⟨(h.held hi hwin hp).2, i, ⟨hi, hwin, hp⟩, ?_⟩
      rintro j ⟨hj, hwin', hp'⟩
      apply h.paged.inj j hj hwin' i hi hwin page hp' hp

/-- The window of a configured ring is filled. -/
theorem Window.filled (h : s.Window) :
  s.Filled
  := by
  have hidx := h.indices
  have hlen : (s.ring.desc s.ring.nextToUse).length = 0 := by
    apply h.cleared _ hidx.use_lt h.head_le le_rfl
  constructor
  · apply h.slots
  · apply hlen
  · intro hne heq
    rw [heq] at hne
    exact hne hlen

/-- A ring without a verdict in `skb` can be cleaned. -/
theorem Inv.cleanable (h : s.Inv) (hskb : s.ring.skb.isErr = false) :
  s.Cleanable
  := by
  obtain ⟨pages, f, hsome, hrel⟩ := cleanRxRing_some h.paged hskb
  refine ⟨_, hsome, ?_, ?_⟩
  · rintro i page ⟨-, hwin, -⟩
    simp [RxRing.InWindow] at hwin
  · intro page
    constructor
    · rintro ⟨i, hi, hwin, hp⟩
      simp only [hrel.slots i hi hwin (by simp) page hp, Page.released]
    · intro hno
      simp only
      rw [hrel.others]
      intro j hj hwin _ hp
      exact hno j ⟨hj, hwin, hp⟩

/-- In every run the indices and the pages are in order, the window of a configured ring is
filled, and a ring that no call works on can be cleaned unless it holds a verdict. -/
theorem reachable_ordered (h : (system K).Reachable TransSystem.always s) :
  s.Ordered ∧ (s.active = true → s.Filled) ∧
    (s.poll = none → s.ring.skb.isErr = false → s.Cleanable)
  := by
  have hinv := reachable_inv h
  refine ⟨hinv.ordered, ?_, ?_⟩
  · intro hactive
    apply (hinv.window hactive).filled
  · intro _ hskb
    apply hinv.cleanable hskb

/-- The ring is configured, and a frame is received whose first buffer ends it or not. -/
def receivesOne (xdp : XdpAct) (eop : Bool) : List Event :=
  [.configure { usesLargeBuffer := false, usesBuildSkb := false } fun _ => .ok,
    .writeBack 60 eop false, .poll 64, .turn (plainTurn xdp), .turn (plainTurn xdp)]

/-- The queue after a frame has been passed to the stack. -/
def passedOne : RxQueue := (receivesOne (.pass none) true).foldl (after cacheLine64) fresh

/-- A frame that is passed to the stack leaves everything in order. -/
theorem passedOne_ordered :
  passedOne.Ordered ∧ (passedOne.active = true → passedOne.Filled) ∧
    (passedOne.poll = none → passedOne.ring.skb.isErr = false → passedOne.Cleanable)
  := by
  apply reachable_ordered (K := cacheLine64)
  apply run_reachable
  decide +kernel

/-- Cleaning leaves the descriptor at `next_to_use` as it was written back, and a verdict on the
first buffer of a longer frame cannot be cleaned away. -/
theorem cleaned_not_filled :
  (¬ ∀ s, (system cacheLine64).Reachable TransSystem.always s → s.Filled) ∧
    ¬ ∀ s, (system cacheLine64).Reachable TransSystem.always s → s.poll = none → s.Cleanable
  := by
  constructor
  · intro h
    have hfilled := h ((receivesOne (.pass none) true ++ [Event.clean]).foldl
      (after cacheLine64) fresh) (run_reachable (by decide +kernel))
    have hlen := hfilled.length
    revert hlen
    decide +kernel
  · intro h
    have hnone : (cleanRxRing ((receivesOne .consumed false).foldl
        (after cacheLine64) fresh)).isNone := by
      decide +kernel
    obtain ⟨s', hs', -⟩ := h ((receivesOne .consumed false).foldl (after cacheLine64) fresh)
      (run_reachable (by decide +kernel)) (by decide +kernel)
    rw [hs'] at hnone
    cases hnone

end RxQueue

end Ixgbevf.Rx
