import Mathlib.Logic.Relation
import Mathlib.Tactic.Use
import Ixgbevf.Rx.Queue

/-!
# The window of an Rx ring

The slots from `next_to_clean` up to `next_to_alloc` hold the pages of the ring.  Those up to
`next_to_use` have been handed to the hardware, the ones after it are recycled.  Every
operation of the driver is broken into moves: a slot is refilled and handed over, or the slot
at `next_to_clean` is retired, its page recycled or given up.
-/

namespace Ixgbevf.Rx

open Cyclic

namespace RxRing

/-- The page of a slot. -/
def pageAt (r : RxRing) (i : ℕ) : Option ℕ := (r.buffer i).page

/-- A slot from `next_to_clean` up to `next_to_alloc`. -/
def InWindow (r : RxRing) (i : ℕ) : Prop :=
  gap r.count r.nextToClean i < gap r.count r.nextToClean r.nextToAlloc

/-- The indices are on the ring and in the order `next_to_clean`, `next_to_use`,
`next_to_alloc`. -/
structure Indices (r : RxRing) : Prop where
  clean_lt : r.nextToClean < r.count
  use_lt : r.nextToUse < r.count
  alloc_lt : r.nextToAlloc < r.count
  use_le : gap r.count r.nextToClean r.nextToUse ≤ gap r.count r.nextToClean r.nextToAlloc

/-- The unused descriptors are those that are not between the two indices, but for the one
that keeps a full ring from looking empty. -/
theorem descUnused_eq {r : RxRing} (hc : r.nextToClean < r.count) (hu : r.nextToUse < r.count) :
  r.descUnused + gap r.count r.nextToClean r.nextToUse + 1 = r.count
  := by
  unfold descUnused gap
  split_ifs <;> omega

end RxRing

namespace RxQueue

/-- What holds of a ring while it is configured. -/
structure Window (s : RxQueue) : Prop where
  indices : s.ring.Indices
  slots : ∀ i < s.ring.count, (s.ring.pageAt i).isSome ↔ s.ring.InWindow i
  inj : ∀ i < s.ring.count, ∀ j < s.ring.count, ∀ page,
    s.ring.pageAt i = some page → s.ring.pageAt j = some page → i = j
  tail : s.ring.tail = s.ring.nextToUse
  head_lt : s.head < s.ring.count
  head_le : gap s.ring.count s.ring.nextToClean s.head
    ≤ gap s.ring.count s.ring.nextToClean s.ring.nextToUse
  cleared : ∀ i < s.ring.count,
    gap s.ring.count s.ring.nextToClean s.head ≤ gap s.ring.count s.ring.nextToClean i →
    gap s.ring.count s.ring.nextToClean i
      ≤ gap s.ring.count s.ring.nextToClean s.ring.nextToUse → (s.ring.desc i).length = 0
  held : ∀ i < s.ring.count, ∀ page, s.ring.pageAt i = some page →
    page < s.nextPage ∧ (s.pages page).releases = 0
  found : ∀ page < s.nextPage, (s.pages page).releases = 0 →
    ∃ i < s.ring.count, s.ring.pageAt i = some page
  once : ∀ page < s.nextPage, (s.pages page).releases ≤ 1

/-! ### Refilling a slot -/

/-- The slot at `next_to_use` is handed to the hardware. -/
def handOver (s : RxQueue) : RxQueue :=
  let i := s.ring.nextToUse
  let j := next s.ring.count i
  let r := s.ring.setDesc i fun d => { d with pktAddr := s.bufferAddr i }
  let r := r.setDesc j fun d => { d with length := 0 }
  { s with ring := { r with nextToUse := j, tail := j } }

/-- The slot at `next_to_alloc` gets a new page. -/
def fill (K : KernelConfig) (s : RxQueue) : RxQueue :=
  let i := s.ring.nextToAlloc
  let r := s.ring.setBuffer i fun _ => {
    page := some s.nextPage
    pageOffset := rxOffset K s.ring.flags
    pagecntBias := 1 }
  { s with
    ring := { r with nextToAlloc := next s.ring.count i }
    pages := Function.update s.pages s.nextPage mappedPage
    nextPage := s.nextPage + 1 }

/-- A page is allocated that cannot be mapped. -/
def wastePage (s : RxQueue) : RxQueue :=
  { s with
    pages := Function.update s.pages s.nextPage unmappablePage
    nextPage := s.nextPage + 1 }

/-- A move by which the ring is refilled. -/
inductive Refill (K : KernelConfig) (s : RxQueue) : RxQueue → Prop where
  /-- A recycled page is handed over. -/
  | recycled (room : gap s.ring.count s.ring.nextToClean s.ring.nextToUse + 1 < s.ring.count)
      (hne : s.ring.nextToUse ≠ s.ring.nextToAlloc) : Refill K s s.handOver
  /-- A new page is handed over. -/
  | fresh (room : gap s.ring.count s.ring.nextToClean s.ring.nextToUse + 1 < s.ring.count)
      (heq : s.ring.nextToUse = s.ring.nextToAlloc) : Refill K s (s.fill K).handOver
  /-- A page is freed at once. -/
  | wasted : Refill K s s.wastePage

/-- What refilling leaves alone. -/
structure SameRest (s s' : RxQueue) : Prop where
  count : s'.ring.count = s.ring.count
  flags : s'.ring.flags = s.ring.flags
  nextToClean : s'.ring.nextToClean = s.ring.nextToClean
  skb : s'.ring.skb = s.ring.skb
  head : s'.head = s.head
  nextSkb : s'.nextSkb = s.nextSkb
  skbReleases : s'.skbReleases = s.skbReleases
  active : s'.active = s.active
  poll : s'.poll = s.poll

/-- A move of refilling leaves the rest alone. -/
theorem Refill.sameRest {K : KernelConfig} {s s' : RxQueue} (h : Refill K s s') :
  SameRest s s'
  := by
  cases h <;> constructor <;> rfl

/-- Moves of refilling leave the rest alone. -/
theorem refills_sameRest
    {K : KernelConfig} {s s' : RxQueue} (h : Relation.ReflTransGen (Refill K) s s') :
  SameRest s s'
  := by
  induction h with
  | refl => constructor <;> rfl
  | tail _ hmove ih =>
    have hone := hmove.sameRest
    constructor
    · rw [hone.count, ih.count]
    · rw [hone.flags, ih.flags]
    · rw [hone.nextToClean, ih.nextToClean]
    · rw [hone.skb, ih.skb]
    · rw [hone.head, ih.head]
    · rw [hone.nextSkb, ih.nextSkb]
    · rw [hone.skbReleases, ih.skbReleases]
    · rw [hone.active, ih.active]
    · rw [hone.poll, ih.poll]

variable {K : KernelConfig} {s s' : RxQueue}

/-- The next descriptor of the one at `next_to_use`, where there is room. -/
theorem Window.gap_next_use
    (h : s.Window) (room : gap s.ring.count s.ring.nextToClean s.ring.nextToUse + 1 < s.ring.count) :
  gap s.ring.count s.ring.nextToClean (next s.ring.count s.ring.nextToUse)
    = gap s.ring.count s.ring.nextToClean s.ring.nextToUse + 1
  := by
  apply gap_next h.indices.clean_lt h.indices.use_lt room

/-- Handing a recycled page over keeps the window. -/
theorem Window.handOver
    (h : s.Window) (room : gap s.ring.count s.ring.nextToClean s.ring.nextToUse + 1 < s.ring.count)
    (hne : s.ring.nextToUse ≠ s.ring.nextToAlloc) :
  s.handOver.Window
  := by
  have hidx := h.indices
  have hnext := h.gap_next_use room
  have hle : gap s.ring.count s.ring.nextToClean s.ring.nextToUse + 1
      ≤ gap s.ring.count s.ring.nextToClean s.ring.nextToAlloc := by
    have hgap := (gap_inj hidx.clean_lt hidx.use_lt hidx.alloc_lt).not.mpr hne
    have := hidx.use_le
    omega
  constructor
  · constructor
    · apply hidx.clean_lt
    · apply next_lt hidx.use_lt
    · apply hidx.alloc_lt
    · simp only [RxQueue.handOver, RxRing.setDesc]
      rw [hnext]
      apply hle
  · apply h.slots
  · apply h.inj
  · rfl
  · apply h.head_lt
  · simp only [RxQueue.handOver, RxRing.setDesc]
    rw [hnext]
    have := h.head_le
    omega
  · intro i hi hhead huse
    simp only [RxQueue.handOver, RxRing.setDesc] at hi hhead huse ⊢
    rw [hnext] at huse
    by_cases hij : i = next s.ring.count s.ring.nextToUse
    · subst hij
      rw [Function.update_self]
    · have hne := (gap_inj hidx.clean_lt hi (next_lt hidx.use_lt)).not.mpr hij
      rw [hnext] at hne
      have hlen := h.cleared i hi hhead (by omega)
      rw [Function.update_of_ne hij]
      by_cases hiu : i = s.ring.nextToUse
      · subst hiu
        rw [Function.update_self]
        apply hlen
      · rw [Function.update_of_ne hiu]
        apply hlen
  · apply h.held
  · apply h.found
  · apply h.once

/-- Filling the slot at `next_to_alloc` keeps the window, where the window does not take up the
whole ring. -/
theorem Window.fill
    (h : s.Window)
    (room : gap s.ring.count s.ring.nextToClean s.ring.nextToAlloc + 1 < s.ring.count) :
  (s.fill K).Window
  := by
  have hidx := h.indices
  have hnext := gap_next hidx.clean_lt hidx.alloc_lt room
  have hpage (i : ℕ) : (s.fill K).ring.pageAt i
      = if i = s.ring.nextToAlloc then some s.nextPage else s.ring.pageAt i := by
    simp only [RxQueue.fill, RxRing.setBuffer, RxRing.pageAt, Function.update_apply]
    split <;> rfl
  have hpages {page : ℕ} (hp : page < s.nextPage) :
      (s.fill K).pages page = s.pages page := by
    simp only [RxQueue.fill]
    rw [Function.update_of_ne (by omega)]
  have hnew : ∀ i < s.ring.count, s.ring.pageAt i ≠ some s.nextPage := by
    intro i hi heq
    have := (h.held i hi _ heq).1
    omega
  constructor
  · constructor
    · apply hidx.clean_lt
    · apply hidx.use_lt
    · apply next_lt hidx.alloc_lt
    · simp only [RxQueue.fill, RxRing.setBuffer]
      rw [hnext]
      have := hidx.use_le
      omega
  · intro i hi
    have hslot := h.slots i hi
    rw [hpage]
    simp only [RxRing.InWindow, RxQueue.fill, RxRing.setBuffer] at hslot ⊢
    rw [hnext]
    split
    · rename_i heq
      subst heq
      simp
    · rename_i hne
      have := (gap_inj hidx.clean_lt hi hidx.alloc_lt).not.mpr hne
      rw [hslot]
      omega
  · intro i hi j hj page hpi hpj
    rw [hpage] at hpi hpj
    split at hpi
    · split at hpj
      · omega
      · rw [Option.some.injEq] at hpi
        subst hpi
        exact absurd hpj (hnew j hj)
    · split at hpj
      · rw [Option.some.injEq] at hpj
        subst hpj
        exact absurd hpi (hnew i hi)
      · apply h.inj i hi j hj page hpi hpj
  · apply h.tail
  · apply h.head_lt
  · apply h.head_le
  · apply h.cleared
  · intro i hi page hp
    rw [hpage] at hp
    simp only [RxQueue.fill]
    split at hp
    · cases hp
      rw [Function.update_self]
      exact ⟨by omega, rfl⟩
    · obtain ⟨hlt, hrel⟩ := h.held i hi page hp
      rw [Function.update_of_ne (by omega)]
      exact ⟨by omega, hrel⟩
  · intro page hlt hrel
    by_cases heq : page = s.nextPage
    · subst heq
      use s.ring.nextToAlloc, hidx.alloc_lt
      rw [hpage, if_pos rfl]
    · have hlt' : page < s.nextPage := by
        simp only [RxQueue.fill] at hlt
        omega
      rw [hpages hlt'] at hrel
      obtain ⟨i, hi, hp⟩ := h.found page hlt' hrel
      use i, hi
      rw [hpage, if_neg]
      · apply hp
      · intro hia
        subst hia
        have hwin := (h.slots _ hi).mp (by rw [hp]; rfl)
        simp [RxRing.InWindow] at hwin
  · intro page hlt
    by_cases heq : page = s.nextPage
    · subst heq
      simp [RxQueue.fill, mappedPage]
    · have hlt' : page < s.nextPage := by
        simp only [RxQueue.fill] at hlt
        omega
      rw [hpages hlt']
      apply h.once page hlt'

/-- Freeing a page at once keeps the window. -/
theorem Window.wastePage (h : s.Window) :
  s.wastePage.Window
  := by
  have hpages {page : ℕ} (hp : page < s.nextPage) :
      s.wastePage.pages page = s.pages page := by
    simp only [RxQueue.wastePage]
    rw [Function.update_of_ne (by omega)]
  have hcases {page : ℕ} (hp : page < s.wastePage.nextPage) :
      page < s.nextPage ∨ page = s.nextPage := by
    simp only [RxQueue.wastePage] at hp
    omega
  constructor
  · apply h.indices
  · apply h.slots
  · apply h.inj
  · apply h.tail
  · apply h.head_lt
  · apply h.head_le
  · apply h.cleared
  · intro i hi page hp
    obtain ⟨hlt, hrel⟩ := h.held i hi page hp
    rw [hpages hlt]
    refine ⟨?_, hrel⟩
    simp only [RxQueue.wastePage]
    omega
  · intro page hp hrel
    rcases hcases hp with hlt | rfl
    · rw [hpages hlt] at hrel
      apply h.found page hlt hrel
    · simp [RxQueue.wastePage, unmappablePage] at hrel
  · intro page hp
    rcases hcases hp with hlt | rfl
    · rw [hpages hlt]
      apply h.once page hlt
    · simp [RxQueue.wastePage, unmappablePage]

/-- A move of refilling keeps the window. -/
theorem Window.refill (h : s.Window) (hmove : Refill K s s') :
  s'.Window
  := by
  cases hmove with
  | recycled room hne => apply h.handOver room hne
  | fresh room heq =>
    rw [heq] at room
    have hfill : (s.fill K).Window := h.fill room
    have hlt := h.indices.alloc_lt
    apply hfill.handOver
    · simp only [RxQueue.fill, RxRing.setBuffer]
      rw [heq]
      apply room
    · simp only [RxQueue.fill, RxRing.setBuffer]
      rw [heq]
      unfold next
      split <;> omega
  | wasted => apply h.wastePage

/-- Moves of refilling keep the window. -/
theorem Window.refills (h : s.Window) (hmoves : Relation.ReflTransGen (Refill K) s s') :
  s'.Window
  := by
  induction hmoves with
  | refl => apply h
  | tail _ hmove ih => apply ih.refill hmove

/-- The queue in the loop of `ixgbevf_alloc_rx_buffers` at the slot `i`, as if the slots before
it had been handed over. -/
def advance (s : RxQueue) (i : ℕ) : RxQueue :=
  { s with ring := { s.ring with
      nextToUse := i
      tail := i
      nextToAlloc :=
        if gap s.ring.count s.ring.nextToClean s.ring.nextToAlloc
            < gap s.ring.count s.ring.nextToClean i then i
        else s.ring.nextToAlloc } }

/-- At `next_to_use` no slot has been handed over yet. -/
theorem advance_nextToUse (htail : s.ring.tail = s.ring.nextToUse)
    (hle : gap s.ring.count s.ring.nextToClean s.ring.nextToUse
      ≤ gap s.ring.count s.ring.nextToClean s.ring.nextToAlloc) :
  s.advance s.ring.nextToUse = s
  := by
  unfold advance
  rw [if_neg (by omega)]
  cases s with
  | mk ring =>
    cases ring
    simp_all

/-- What the loop of `ixgbevf_alloc_rx_buffers` comes to: moves of refilling up to the slot at
which it ends, past all recycled pages. -/
theorem allocLoop_refills
    (alloc : ℕ → PageAnswer) {n i i' : ℕ} (h : (s.advance i).Window)
    (room : gap s.ring.count s.ring.nextToClean i + n < s.ring.count)
    (hrecycled : gap s.ring.count s.ring.nextToClean s.ring.nextToAlloc
      ≤ gap s.ring.count s.ring.nextToClean i + n)
    (hloop : allocLoop K alloc n i s = (s', i')) :
  Relation.ReflTransGen (Refill K) (s.advance i) (s'.advance i') ∧
    s'.ring.nextToUse = s.ring.nextToUse ∧ s'.ring.nextToAlloc = s.ring.nextToAlloc ∧
    s'.ring.tail = s.ring.tail ∧
    gap s.ring.count s.ring.nextToClean s.ring.nextToAlloc
      ≤ gap s.ring.count s.ring.nextToClean i'
  := by
  induction n generalizing s i with
  | zero =>
    cases hloop
    exact ⟨Relation.ReflTransGen.refl, rfl, rfl, rfl, hrecycled⟩
  | succ n ih =>
    have hidx := h.indices
    have hi : i < s.ring.count := hidx.use_lt
    have hclean : s.ring.nextToClean < s.ring.count := hidx.clean_lt
    have hnext := gap_next hclean hi (by omega)
    have hslot := h.slots i hi
    simp only [RxRing.InWindow, advance] at hslot
    cases hpage : (s.ring.buffer i).page with
    | some page =>
      -- a recycled page is handed over
      have hhas : allocMappedPage K (alloc i) i s = (s, true) := by simp [allocMappedPage, hpage]
      simp only [allocLoop, hhas] at hloop
      have hlt : gap s.ring.count s.ring.nextToClean i
          < gap s.ring.count s.ring.nextToClean s.ring.nextToAlloc := by
        have hwin := hslot.mp (by simp [RxRing.pageAt, hpage])
        split at hwin <;> omega
      have hmove : Refill K (s.advance i) (s.advance i).handOver := by
        apply Refill.recycled
        · simp only [advance]
          omega
        · simp only [advance]
          rw [if_neg (by omega)]
          intro heq
          rw [← heq] at hlt
          omega
      have hover : (s.advance i).handOver = advance { s with
          ring := (s.ring.setDesc i fun d => { d with pktAddr := s.bufferAddr i }).setDesc
            (next s.ring.count i) fun d => { d with length := 0 } } (next s.ring.count i) := by
        simp only [advance, RxQueue.handOver, RxRing.setDesc, bufferAddr, hnext]
        rw [if_neg (by omega), if_neg (by omega)]
      rw [hover] at hmove
      obtain ⟨hpath, huse, halloc, htail, hle⟩ := ih (h.refill hmove)
        (by simp only [RxRing.setDesc]; omega) (by simp only [RxRing.setDesc]; omega) hloop
      exact ⟨hpath.head hmove, huse, halloc, htail, hle⟩
    | none =>
      have hge : gap s.ring.count s.ring.nextToClean s.ring.nextToAlloc
          ≤ gap s.ring.count s.ring.nextToClean i := by
        by_contra hlt
        rw [if_neg (by omega)] at hslot
        have hwin := hslot.mpr (by omega)
        simp [RxRing.pageAt, hpage] at hwin
      cases halloc : alloc i with
      | noPage =>
        have hno : allocMappedPage K (alloc i) i s = (s, false) := by
          simp [allocMappedPage, hpage, halloc]
        simp only [allocLoop, hno] at hloop
        cases hloop
        exact ⟨Relation.ReflTransGen.refl, rfl, rfl, rfl, hge⟩
      | noMapping =>
        have hno : allocMappedPage K (alloc i) i s = (s.wastePage, false) := by
          simp [allocMappedPage, hpage, halloc, RxQueue.wastePage]
        have hmove : Refill K (s.advance i) (s.wastePage.advance i) := Refill.wasted
        simp only [allocLoop, hno] at hloop
        cases hloop
        exact ⟨Relation.ReflTransGen.single hmove, rfl, rfl, rfl, hge⟩
      | ok =>
        -- a new page is handed over
        have halloc' : (s.advance i).ring.nextToAlloc = i := by
          simp only [advance]
          split
          · rfl
          · rename_i hnlt
            have hna := hidx.alloc_lt
            simp only [advance, if_neg hnlt] at hna
            apply (gap_inj hclean hna hi).mp
            omega
        obtain ⟨s₁, hs₁⟩ : ∃ s₁, s₁ = { s with
            pages := Function.update s.pages s.nextPage mappedPage
            nextPage := s.nextPage + 1
            ring := s.ring.setBuffer i fun _ => {
              page := some s.nextPage
              pageOffset := rxOffset K s.ring.flags
              pagecntBias := 1 } } := ⟨_, rfl⟩
        have hnew : allocMappedPage K (alloc i) i s = (s₁, true) := by
          simp [allocMappedPage, hpage, halloc, hs₁]
        simp only [allocLoop, hnew] at hloop
        have hmove : Refill K (s.advance i) ((s.advance i).fill K).handOver := by
          apply Refill.fresh
          · simp only [advance]
            omega
          · exact halloc'.symm
        have hover : ((s.advance i).fill K).handOver = advance { s₁ with
            ring := (s₁.ring.setDesc i fun d => { d with pktAddr := s₁.bufferAddr i }).setDesc
              (next s₁.ring.count i) fun d => { d with length := 0 } }
              (next s₁.ring.count i) := by
          subst hs₁
          simp only [RxQueue.handOver, RxQueue.fill, halloc']
          simp only [advance, RxRing.setDesc, RxRing.setBuffer, bufferAddr, hnext]
          rw [if_pos (by omega)]
        rw [hover] at hmove
        have hpath := ih (h.refill hmove) (by subst hs₁; simp only [RxRing.setDesc, RxRing.setBuffer]; omega)
          (by subst hs₁; simp only [RxRing.setDesc, RxRing.setBuffer]; omega) hloop
        subst hs₁
        obtain ⟨hpath, huse, halloc, htail, hle⟩ := hpath
        exact ⟨hpath.head hmove, huse, halloc, htail, hle⟩

/-- `ixgbevf_alloc_rx_buffers` comes to moves of refilling, after which no recycled page is left
behind `next_to_use`. -/
theorem allocRxBuffers_refills
    (alloc : ℕ → PageAnswer) {n : ℕ} (h : s.Window)
    (room : gap s.ring.count s.ring.nextToClean s.ring.nextToUse + n < s.ring.count)
    (hrecycled : gap s.ring.count s.ring.nextToClean s.ring.nextToAlloc
      ≤ gap s.ring.count s.ring.nextToClean s.ring.nextToUse + n) :
  Relation.ReflTransGen (Refill K) s (allocRxBuffers K alloc n s) ∧
    (allocRxBuffers K alloc n s).ring.nextToAlloc = (allocRxBuffers K alloc n s).ring.nextToUse
  := by
  have hidx := h.indices
  have hself := advance_nextToUse h.tail hidx.use_le
  rcases hloop : allocLoop K alloc n s.ring.nextToUse s with ⟨s₁, i⟩
  obtain ⟨hpath, huse, halloc, htail, hle⟩ :=
    allocLoop_refills alloc (hself.symm ▸ h) room hrecycled hloop
  rw [hself] at hpath
  have hsame := refills_sameRest hpath
  have hcount : s₁.ring.count = s.ring.count := hsame.count
  have hclean : s₁.ring.nextToClean = s.ring.nextToClean := hsame.nextToClean
  have hilt : i < s.ring.count := by
    rw [← hcount]
    apply (h.refills hpath).indices.use_lt
  have hend : (s₁.advance i).ring.nextToAlloc = i := by
    simp only [advance, hcount, hclean, halloc]
    split
    · rfl
    · apply (gap_inj hidx.clean_lt hidx.alloc_lt hilt).mp
      omega
  have hresult : allocRxBuffers K alloc n s = s₁.advance i := by
    simp only [allocRxBuffers, hloop]
    split
    · unfold advance at hend ⊢
      simp only at hend
      rw [hend]
    · rename_i hsame
      rw [ne_eq, not_not] at hsame
      subst hsame
      symm
      apply advance_nextToUse
      · rw [htail, huse, h.tail]
      · rw [hcount, hclean, huse, halloc]
        apply hidx.use_le
  rw [hresult]
  exact ⟨hpath, hend⟩

/-- Where the slot at `next_to_clean` has been written back, a move of refilling leaves it
alone, as well as the pages there were. -/
theorem Refill.clean
    (hmove : Refill K s s') (h : s.Window) (hne : s.ring.nextToClean ≠ s.head) :
  s'.ring.buffer s.ring.nextToClean = s.ring.buffer s.ring.nextToClean ∧
    s'.ring.desc s.ring.nextToClean = s.ring.desc s.ring.nextToClean ∧
    s.nextPage ≤ s'.nextPage ∧ ∀ page < s.nextPage, s'.pages page = s.pages page
  := by
  have hidx := h.indices
  have hhead := (gap_eq_zero (b := s.head) hidx.clean_lt).not.mpr hne
  have huse : s.ring.nextToClean ≠ s.ring.nextToUse := by
    intro heq
    rw [← gap_eq_zero hidx.clean_lt] at heq
    have := h.head_le
    omega
  have hnext (room : gap s.ring.count s.ring.nextToClean s.ring.nextToUse + 1 < s.ring.count) :
      s.ring.nextToClean ≠ next s.ring.count s.ring.nextToUse := by
    intro heq
    rw [← gap_eq_zero hidx.clean_lt, h.gap_next_use room] at heq
    omega
  cases hmove with
  | recycled room _ =>
    simp only [RxQueue.handOver, RxRing.setDesc]
    rw [Function.update_of_ne (hnext room), Function.update_of_ne huse]
    exact ⟨trivial, rfl, le_rfl, fun _ _ => trivial⟩
  | fresh room heq =>
    simp only [RxQueue.handOver, RxQueue.fill, RxRing.setDesc, RxRing.setBuffer]
    rw [Function.update_of_ne (hnext room), Function.update_of_ne huse, ← heq,
      Function.update_of_ne huse]
    refine ⟨rfl, rfl, by omega, ?_⟩
    intro page hpage
    rw [Function.update_of_ne (by omega)]
  | wasted =>
    simp only [RxQueue.wastePage]
    refine ⟨trivial, trivial, by omega, ?_⟩
    intro page hpage
    rw [Function.update_of_ne (by omega)]

/-- Where the slot at `next_to_clean` has been written back, refilling leaves it alone, as well
as the pages there were. -/
theorem refills_clean
    (hpath : Relation.ReflTransGen (Refill K) s s') (h : s.Window)
    (hne : s.ring.nextToClean ≠ s.head) :
  s'.ring.buffer s.ring.nextToClean = s.ring.buffer s.ring.nextToClean ∧
    s'.ring.desc s.ring.nextToClean = s.ring.desc s.ring.nextToClean ∧
    s.nextPage ≤ s'.nextPage ∧ ∀ page < s.nextPage, s'.pages page = s.pages page
  := by
  induction hpath with
  | refl => exact ⟨rfl, rfl, le_rfl, fun _ _ => rfl⟩
  | tail hpath hmove ih =>
    have hsame := refills_sameRest hpath
    obtain ⟨hbuf, hdesc, hlt, hpages⟩ := ih
    have hone := hmove.clean (h.refills hpath) (by rw [hsame.nextToClean, hsame.head]; exact hne)
    rw [hsame.nextToClean] at hone
    obtain ⟨hbuf', hdesc', hlt', hpages'⟩ := hone
    refine ⟨hbuf'.trans hbuf, hdesc'.trans hdesc, hlt.trans hlt', ?_⟩
    intro page hpage
    rw [hpages' page (by omega), hpages page hpage]

end RxQueue

end Ixgbevf.Rx
