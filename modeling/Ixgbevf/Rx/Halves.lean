import Ixgbevf.Rx.Bias

/-!
# The halves of Rx pages

The network stack and the XDP Tx ring hold references to halves of the pages of an Rx ring.
The references to a page are the bias of its buffer and one for each of them, and a page goes
back to the ring only when at most one of them is left: the one to the half that has just been
used.  So the half that is handed to the hardware has no holder, as long as no frame that an
XDP program takes spreads over several buffers.
-/

namespace Ixgbevf.Rx

open Cyclic

/-! ### The use of one page -/

/-- How a buffer uses its page: beside the bias there is a reference for each holder of a half,
and none of them holds the half that the buffer points at. -/
structure PageUse (K : KernelConfig) (flags : BufferFlags) (b : RxBuffer) (p : Page) : Prop where
  refs : p.refCount = b.pagecntBias + p.users.length
  offset : ∃ n, b.pageOffset = pageOffset K flags n
  idle : half flags b.pageOffset ∉ p.users
  few : p.users.length ≤ 2 ^ 31

variable {K : KernelConfig} {flags : BufferFlags}

/-- The half of an offset after a number of flips. -/
theorem half_pageOffset (n : ℕ) :
  half flags (pageOffset K flags n) = n % 2
  := by
  have hlt := rxOffset_lt K flags
  rw [half, pageOffset_eq, Nat.add_mul_div_right _ _ (by omega), Nat.div_eq_of_lt hlt]
  omega

/-- A flip takes an offset to the one after one more flip. -/
theorem flip_pageOffset (n : ℕ) :
  flip flags (pageOffset K flags n) = pageOffset K flags (n + 1)
  := by
  unfold pageOffset
  rw [Function.iterate_succ_apply']

/-- A flip leaves the half. -/
theorem half_flip_ne {offset n : ℕ} (h : offset = pageOffset K flags n) :
  half flags (flip flags offset) ≠ half flags offset
  := by
  rw [h, flip_pageOffset, half_pageOffset, half_pageOffset]
  omega

/-- A new page has no holder. -/
theorem PageUse.fresh (page : ℕ) :
  PageUse K flags
    { page := some page, pageOffset := rxOffset K flags, pagecntBias := 1 } mappedPage
  := by
  constructor
  · rfl
  · exact ⟨0, rfl⟩
  · simp [mappedPage]
  · simp [mappedPage]

/-- A page that can be reused after its half has been taken has no other holder. -/
theorem PageUse.alone
    {reserved : Bool} {b : RxBuffer} {p : Page} (h : PageUse K flags b p)
    (hpos : 1 ≤ b.pagecntBias)
    (hreuse : RxQueue.canReuse reserved p.refCount (b.pagecntBias - 1) = true) :
  p.users = []
  := by
  have hrefs := h.refs
  have hfew := h.few
  simp only [RxQueue.canReuse, Bool.and_eq_true, decide_eq_true_eq] at hreuse
  apply List.eq_nil_of_length_eq_zero
  omega

/-- A page whose half has been taken goes back to the ring, flipped, with its references
restocked where the bias is used up. -/
theorem PageUse.flipped
    {reserved : Bool} {b : RxBuffer} {p : Page} (h : PageUse K flags b p)
    (hpos : 1 ≤ b.pagecntBias)
    (hreuse : RxQueue.canReuse reserved p.refCount (b.pagecntBias - 1) = true) (q : Option ℕ) :
  PageUse K flags
    { page := q
      pageOffset := flip flags b.pageOffset
      pagecntBias := if b.pagecntBias - 1 = 0 then ushrtMax else b.pagecntBias - 1 }
    { p with
      refCount := p.refCount + if b.pagecntBias - 1 = 0 then ushrtMax else 0
      users := half flags b.pageOffset :: p.users }
  := by
  have halone := h.alone hpos hreuse
  have hrefs := h.refs
  obtain ⟨n, hn⟩ := h.offset
  constructor
  · simp only [List.length_cons]
    split <;> omega
  · use n + 1
    rw [← flip_pageOffset, hn]
  · have hne := half_flip_ne hn
    simp [halone, hne]
  · simp [halone]

/-- A reference to a half is dropped. -/
theorem PageUse.drop
    {b : RxBuffer} {p : Page} (h : PageUse K flags b p) {x : ℕ} (hx : x ∈ p.users) :
  PageUse K flags b { p with refCount := p.refCount - 1, users := p.users.erase x }
  := by
  have hlen := List.length_erase_of_mem hx
  have hpos := List.length_pos_of_mem hx
  have hrefs := h.refs
  have hfew := h.few
  constructor
  · simp only
    omega
  · apply h.offset
  · intro hmem
    apply h.idle
    apply List.mem_of_mem_erase hmem
  · simp only
    omega

/-- A further reference to a half is taken. -/
theorem PageUse.take
    {b : RxBuffer} {p : Page} (h : PageUse K flags b p) {x : ℕ} (hx : x ∈ p.users)
    (hfew : p.users.length < 2 ^ 31) :
  PageUse K flags b { p with refCount := p.refCount + 1, users := x :: p.users }
  := by
  have hrefs := h.refs
  constructor
  · simp only [List.length_cons]
    omega
  · apply h.offset
  · rw [List.mem_cons, not_or]
    constructor
    · rintro rfl
      exact h.idle hx
    · apply h.idle
  · simp only [List.length_cons]
    omega

namespace RxQueue

variable {s s' : RxQueue}

/-! ### The slots of a ring -/

/-- A descriptor from the one that the hardware writes back next up to `next_to_use`. -/
def HwOwns (s : RxQueue) (i : ℕ) : Prop :=
  gap s.ring.count s.head i < gap s.ring.count s.head s.ring.nextToUse

/-- Every slot uses its page as it should, and the descriptors of the hardware have the
addresses of their buffers. -/
structure Halves (K : KernelConfig) (s : RxQueue) : Prop where
  slots : ∀ i < s.ring.count, ∀ page, s.ring.pageAt i = some page →
    PageUse K s.ring.flags (s.ring.buffer i) (s.pages page)
  descs : ∀ i < s.ring.count, s.HwOwns i → (s.ring.desc i).pktAddr = s.bufferAddr i

/-- The references to a page that the driver has given up are those of its holders. -/
def Given (s : RxQueue) : Prop :=
  ∀ page < s.nextPage, (s.pages page).releases ≠ 0 →
    (s.pages page).refCount = (s.pages page).users.length

/-- Neither the ring nor a call has a verdict for the next buffer. -/
structure Whole (s : RxQueue) : Prop where
  ring : s.ring.skb.isErr = false
  poll : ∀ p ∈ s.poll, p.skb.isErr = false

/-- The descriptors of the hardware are in the window. -/
theorem HwOwns.window {i : ℕ} (h : s.HwOwns i) (hwin : s.Window) (hi : i < s.ring.count) :
  gap s.ring.count s.ring.nextToClean s.head ≤ gap s.ring.count s.ring.nextToClean i ∧
    gap s.ring.count s.ring.nextToClean i
      < gap s.ring.count s.ring.nextToClean s.ring.nextToUse
  := by
  have hidx := hwin.indices
  have huse := gap_add_gap hidx.clean_lt hwin.head_lt hidx.use_lt hwin.head_le
  unfold HwOwns at h
  have hwide := gap_lt hidx.clean_lt hidx.use_lt
  -- a descriptor before the head is farther from it than `next_to_use`
  have hle : gap s.ring.count s.ring.nextToClean s.head
      ≤ gap s.ring.count s.ring.nextToClean i := by
    by_contra hlt
    have hadd := gap_add_gap hidx.clean_lt hi hwin.head_lt (by omega)
    unfold gap at *
    have := hidx.clean_lt
    have := hwin.head_lt
    split_ifs at * <;> omega
  have hadd := gap_add_gap hidx.clean_lt hwin.head_lt hi hle
  omega

/-- A descriptor of the hardware holds a page. -/
theorem HwOwns.page {i : ℕ} (h : s.HwOwns i) (hwin : s.Window) (hi : i < s.ring.count) :
  ∃ page, s.ring.pageAt i = some page
  := by
  have hgap := h.window hwin hi
  have hle := hwin.indices.use_le
  rw [← Option.isSome_iff_exists, hwin.slots i hi]
  unfold RxRing.InWindow
  omega

/-! ### Refilling -/

/-- Handing a slot over keeps the halves. -/
theorem Halves.handOver
    (h : s.Halves K) (hwin : s.Window)
    (room : gap s.ring.count s.ring.nextToClean s.ring.nextToUse + 1 < s.ring.count) :
  (RxQueue.handOver s).Halves K
  := by
  have hidx := hwin.indices
  have hadd := gap_add_gap hidx.clean_lt hwin.head_lt hidx.use_lt hwin.head_le
  have hnext := gap_next hwin.head_lt hidx.use_lt (by omega)
  constructor
  · apply h.slots
  · intro i hi hown
    simp only [HwOwns, RxQueue.handOver, RxRing.setDesc] at hi hown
    rw [hnext] at hown
    have hij : i ≠ next s.ring.count s.ring.nextToUse := by
      rintro rfl
      omega
    simp only [RxQueue.handOver, RxRing.setDesc, bufferAddr]
    rw [Function.update_of_ne hij]
    by_cases hiu : i = s.ring.nextToUse
    · subst hiu
      rw [Function.update_self]
    · rw [Function.update_of_ne hiu]
      have hne := (gap_inj hwin.head_lt hi hidx.use_lt).not.mpr hiu
      apply h.descs i hi
      unfold HwOwns
      omega

/-- Filling a slot behind `next_to_use` keeps the halves. -/
theorem Halves.fill
    (h : s.Halves K) (hwin : s.Window) (heq : s.ring.nextToUse = s.ring.nextToAlloc) :
  (RxQueue.fill K s).Halves K
  := by
  constructor
  · intro i hi page hp
    simp only [RxQueue.fill, RxRing.setBuffer, RxRing.pageAt, Function.update_apply] at hi hp ⊢
    split at hp
    · rename_i hia
      rw [Option.some.injEq] at hp
      subst hp
      rw [if_pos hia, if_pos rfl]
      apply PageUse.fresh
    · rename_i hia
      have hlt := (hwin.held i hi page hp).1
      rw [if_neg hia, if_neg (by omega)]
      apply h.slots i hi page hp
  · intro i hi hown
    have hia : i ≠ s.ring.nextToAlloc := by
      rintro rfl
      unfold HwOwns at hown
      simp only [RxQueue.fill, RxRing.setBuffer, heq] at hown
      omega
    simp only [RxQueue.fill, RxRing.setBuffer, bufferAddr]
    rw [Function.update_of_ne hia]
    apply h.descs i hi hown

/-- A move of refilling keeps the halves. -/
theorem Halves.refill (h : s.Halves K) (hwin : s.Window) (hmove : Refill K s s') :
  s'.Halves K
  := by
  cases hmove with
  | recycled room hne => apply h.handOver hwin room
  | fresh room heq =>
    have hroom := room
    rw [heq] at hroom
    apply (h.fill hwin heq).handOver (hwin.fill hroom) room
  | wasted =>
    constructor
    · intro i hi page hp
      have hlt := (hwin.held i hi page hp).1
      simp only [wastePage]
      rw [Function.update_of_ne (by omega)]
      apply h.slots i hi page hp
    · apply h.descs

/-- Moves of refilling keep the halves. -/
theorem Halves.refills
    (h : s.Halves K) (hwin : s.Window) (hpath : Relation.ReflTransGen (Refill K) s s') :
  s'.Halves K
  := by
  induction hpath with
  | refl => apply h
  | tail hpath hmove ih => apply ih.refill (hwin.refills hpath) hmove

/-- Moves of refilling keep the references to the pages that were given up. -/
theorem Given.refills (h : s.Given) (hpath : Relation.ReflTransGen (Refill K) s s') :
  s'.Given
  := by
  induction hpath with
  | refl => apply h
  | tail _ hmove ih =>
    intro page hlt hrel
    cases hmove with
    | recycled => apply ih page hlt hrel
    | fresh =>
      simp only [RxQueue.handOver, RxQueue.fill, Function.update_apply] at hlt hrel ⊢
      split
      · rename_i heq
        rw [if_pos heq] at hrel
        exact absurd rfl hrel
      · rename_i hne
        rw [if_neg hne] at hrel
        apply ih page (by omega) hrel
    | wasted =>
      simp only [wastePage, Function.update_apply] at hlt hrel ⊢
      split
      · rfl
      · rename_i hne
        rw [if_neg hne] at hrel
        apply ih page (by omega) hrel

/-! ### Retiring a buffer -/

/-- A reference that is kept leaves everything as it was. -/
theorem useBuffer_kept
    {i : ℕ} (page : ℕ) (s : RxQueue) (hpos : 1 ≤ (s.ring.buffer i).pagecntBias)
    (hle : (s.ring.buffer i).pagecntBias ≤ ushrtMax) :
  useBuffer .kept i page s = s
  := by
  have hbias := useBuffer_bias .kept i page s hpos hle
  have hbuffer : (useBuffer .kept i page s).ring.buffer = s.ring.buffer := by
    funext j
    by_cases hj : j = i
    · subst hj
      have hrest : (useBuffer .kept j page s).ring.buffer j = { s.ring.buffer j with
          pagecntBias := ((useBuffer .kept j page s).ring.buffer j).pagecntBias } := by
        simp [useBuffer, keepRxBuffer, getRxBuffer, setBuffer, RxRing.setBuffer]
      rw [hrest, hbias]
      rfl
    · apply useBuffer_of_ne .kept page s hj
  cases s with
  | mk ring =>
    cases ring
    simp only [useBuffer, keepRxBuffer, getRxBuffer, setBuffer, RxRing.setBuffer] at hbuffer ⊢
    rw [hbuffer]

/-- The buffer whose half has been taken. -/
theorem useBuffer_used
    {i : ℕ} (page : ℕ) (s : RxQueue) (hpos : 1 ≤ (s.ring.buffer i).pagecntBias)
    (hle : (s.ring.buffer i).pagecntBias ≤ ushrtMax) :
  (useBuffer .used i page s).ring.buffer i = { s.ring.buffer i with
      pageOffset := flip s.ring.flags (s.ring.buffer i).pageOffset
      pagecntBias := (s.ring.buffer i).pagecntBias - 1 } ∧
    (useBuffer .used i page s).pages = Function.update s.pages page { s.pages page with
      users := half s.ring.flags (s.ring.buffer i).pageOffset :: (s.pages page).users }
  := by
  have hbias := useBuffer_bias .used i page s hpos hle
  simp only [Use.bias] at hbias
  rw [← hbias]
  simp [useBuffer, rxBufferFlip, useHalf, getRxBuffer, setBuffer, setPage, RxRing.setBuffer]

/-- What keeps the halves when the buffer at `next_to_clean` is retired: the other slots and
pages stay, and the slot at `next_to_alloc` uses its page as it should. -/
theorem Halves.retired
    {page : ℕ} (h : s.Halves K) (hwin : s.Window) (hne : s.ring.nextToClean ≠ s.head)
    (hpage : s.ring.pageAt s.ring.nextToClean = some page)
    (hcount : s'.ring.count = s.ring.count) (hflags : s'.ring.flags = s.ring.flags)
    (huse : s'.ring.nextToUse = s.ring.nextToUse) (hhead : s'.head = s.head)
    (hdesc : s'.ring.desc = s.ring.desc)
    (hbuffer : ∀ i, i ≠ s.ring.nextToClean → i ≠ s.ring.nextToAlloc →
      s'.ring.buffer i = s.ring.buffer i)
    (hpages : ∀ q, q ≠ page → s'.pages q = s.pages q)
    (hclean : s'.ring.pageAt s.ring.nextToClean = none)
    (halloc : ∀ q, s'.ring.pageAt s.ring.nextToAlloc = some q →
      PageUse K s.ring.flags (s'.ring.buffer s.ring.nextToAlloc) (s'.pages q)) :
  s'.Halves K
  := by
  constructor
  · intro i hi q hq
    rw [hcount] at hi
    rw [hflags]
    by_cases hia : i = s.ring.nextToAlloc
    · subst hia
      apply halloc q hq
    have hic : i ≠ s.ring.nextToClean := by
      rintro rfl
      rw [hclean] at hq
      cases hq
    have hq' : s.ring.pageAt i = some q := by
      rw [← hq]
      simp only [RxRing.pageAt, hbuffer i hic hia]
    rw [hbuffer i hic hia, hpages]
    · apply h.slots i hi q hq'
    · rintro rfl
      exact hic (hwin.inj i hi _ hwin.indices.clean_lt q hq' hpage)
  · intro i hi hown
    rw [hcount] at hi
    have hown' : s.HwOwns i := by
      unfold HwOwns at hown ⊢
      rw [← hcount, ← hhead, ← huse]
      apply hown
    obtain ⟨hle, hlt⟩ := hown'.window hwin hi
    have hidx := hwin.indices
    have hule := hidx.use_le
    have hic : i ≠ s.ring.nextToClean := by
      rintro rfl
      rw [gap_self, Nat.le_zero, gap_eq_zero hidx.clean_lt] at hle
      exact hne hle
    have hia : i ≠ s.ring.nextToAlloc := by
      rintro rfl
      omega
    simp only [bufferAddr, hbuffer i hic hia, hdesc]
    apply h.descs i hi hown'

/-- Recycling or giving up the page of the buffer at `next_to_clean` keeps the halves, where a
recycled page is used as it should. -/
theorem Halves.putRxBuffer
    {page : ℕ} (reserved : Bool) (skb : SkbPtr) {u : Use} (n : ℕ) (h : s.Halves K)
    (hwin : s.Window) (hne : s.ring.nextToClean ≠ s.head)
    (hpage : s.ring.pageAt s.ring.nextToClean = some page)
    (hreuse : canReuse reserved
        ((useBuffer u s.ring.nextToClean page s).pages page).refCount
        ((useBuffer u s.ring.nextToClean page s).ring.buffer s.ring.nextToClean).pagecntBias →
      PageUse K s.ring.flags
        ((recycle s.ring.nextToClean page (useBuffer u s.ring.nextToClean page s)).ring.buffer
          s.ring.nextToAlloc)
        ((recycle s.ring.nextToClean page (useBuffer u s.ring.nextToClean page s)).pages page)) :
  (RxQueue.putRxBuffer reserved skb s.ring.nextToClean page
    { useBuffer u s.ring.nextToClean page s with nextSkb := n }).Halves K
  := by
  have hnea := (hwin.clean_ne hne).2
  have hpages (q : ℕ) (hq : q ≠ page) :
      (useBuffer u s.ring.nextToClean page s).pages q = s.pages q := by
    cases u <;>
      simp [useBuffer, rxBufferFlip, useHalf, getRxBuffer, keepRxBuffer, setBuffer, setPage,
        Function.update_of_ne hq]
  have halloc : (useBuffer u s.ring.nextToClean page s).ring.nextToAlloc = s.ring.nextToAlloc := by
    cases u <;> rfl
  rw [putRxBuffer_eq]
  split
  · rename_i hcan
    apply h.retired hwin hne hpage
    case hbuffer =>
      intro i hic hia
      simp only [recycle_buffer, halloc, if_neg hic, if_neg hia]
      apply useBuffer_of_ne u page s hic
    case hpages =>
      intro q hq
      simp only [recycle, Function.update_of_ne hq]
      apply hpages q hq
    case hclean => simp only [RxRing.pageAt, recycle_buffer, if_true]
    case halloc =>
      intro q hq
      simp only [RxRing.pageAt, recycle_buffer, halloc, if_neg (Ne.symm hnea), if_true] at hq
      have hsame := congrFun (useBuffer_pageAt u s.ring.nextToClean page s) s.ring.nextToClean
      simp only [RxRing.pageAt] at hsame hpage
      rw [hsame, hpage, Option.some.injEq] at hq
      subst hq
      apply hreuse hcan
    all_goals cases u <;> rfl
  · apply h.retired hwin hne hpage
    case hbuffer =>
      intro i hic hia
      simp only [drain_buffer, if_neg hic]
      apply useBuffer_of_ne u page s hic
    case hpages =>
      intro q hq
      simp only [drain, Function.update_of_ne hq]
      apply hpages q hq
    case hclean => simp only [RxRing.pageAt, drain_buffer, if_true]
    case halloc =>
      intro q hq
      simp only [RxRing.pageAt, drain_buffer, if_neg (Ne.symm hnea)] at hq
      rw [useBuffer_of_ne u page s (Ne.symm hnea)] at hq
      have hslot := (hwin.slots _ hwin.indices.alloc_lt).mp (Option.isSome_iff_exists.mpr ⟨q, hq⟩)
      simp [RxRing.InWindow] at hslot
    all_goals cases u <;> rfl

/-! ### Turns -/

/-- Without a verdict for an earlier buffer the reference is used or kept. -/
theorem Taken.used_or_kept
    {t : Turn} {sk skb : SkbPtr} {u : Use} {n : ℕ} (h : Taken t s sk u skb n)
    (hsk : sk.isErr = false) :
  u = .used ∨ u = .kept
  := by
  cases h with
  | stillXmit => cases hsk
  | _ => simp

/-- A new verdict comes from a program that does not pass the frame. -/
theorem Taken.verdict
    {t : Turn} {sk skb : SkbPtr} {u : Use} {n : ℕ} (h : Taken t s sk u skb n)
    (hsk : sk.isErr = false) (hskb : skb.isErr = true) :
  sk = .null ∧ t.xdp.passes = false
  := by
  cases h with
  | consumed hx => simp [hx, XdpAct.passes]
  | xmit hx => simp [hx, XdpAct.passes]
  | stillConsumed => cases hsk
  | stillXmit => cases hsk
  | frag => cases hskb
  | fresh => cases hskb
  | copy => cases hskb

/-- A page that can be reused uses its new slot as it should, whether its half has been taken
or not. -/
theorem Halves.recycled
    {page : ℕ} {reserved : Bool} {u : Use} (h : s.Halves K) (hwin : s.Window) (hbias : s.Biased)
    (hne : s.ring.nextToClean ≠ s.head) (hpage : s.ring.pageAt s.ring.nextToClean = some page)
    (hu : u = .used ∨ u = .kept)
    (hcan : canReuse reserved
        ((useBuffer u s.ring.nextToClean page s).pages page).refCount
        ((useBuffer u s.ring.nextToClean page s).ring.buffer s.ring.nextToClean).pagecntBias) :
  PageUse K s.ring.flags
    ((recycle s.ring.nextToClean page (useBuffer u s.ring.nextToClean page s)).ring.buffer
      s.ring.nextToAlloc)
    ((recycle s.ring.nextToClean page (useBuffer u s.ring.nextToClean page s)).pages page)
  := by
  have hnea := (hwin.clean_ne hne).2
  have halloc : (useBuffer u s.ring.nextToClean page s).ring.nextToAlloc = s.ring.nextToAlloc := by
    cases u <;> rfl
  obtain ⟨hpos, hle⟩ := hbias _ hwin.indices.clean_lt page hpage
  have huse := h.slots _ hwin.indices.clean_lt page hpage
  have hpage' (s₁ : RxQueue) (i : ℕ) : (recycle i page s₁).pages page = { s₁.pages page with
      refCount := (s₁.pages page).refCount
        + if (s₁.ring.buffer i).pagecntBias = 0 then ushrtMax else 0 } := by
    simp only [recycle, Function.update_self]
  rw [recycle_buffer, halloc, if_neg (Ne.symm hnea), if_pos rfl, hpage']
  rcases hu with rfl | rfl
  · obtain ⟨hbuf, hpages⟩ := useBuffer_used page s hpos hle
    simp only [hbuf, hpages, Function.update_self] at hcan ⊢
    apply huse.flipped hpos hcan
  · rw [useBuffer_kept page s hpos hle, if_neg (by omega), if_neg (by omega)]
    exact huse

/-- Retiring a buffer keeps the references to the pages that were given up. -/
theorem Given.putRxBuffer
    {page : ℕ} {reserved : Bool} {skb : SkbPtr} {u : Use} {n : ℕ} (h : s.Given)
    (hhalves : s.Halves K) (hwin : s.Window) (hbias : s.Biased)
    (hpage : s.ring.pageAt s.ring.nextToClean = some page) (hu : u = .used ∨ u = .kept) :
  (RxQueue.putRxBuffer reserved skb s.ring.nextToClean page
    { useBuffer u s.ring.nextToClean page s with nextSkb := n }).Given
  := by
  obtain ⟨hpos, hle⟩ := hbias _ hwin.indices.clean_lt page hpage
  have huse := (hhalves.slots _ hwin.indices.clean_lt page hpage).refs
  have hlive := (hwin.held _ hwin.indices.clean_lt page hpage).2
  have hlive' := (useBuffer_releases u s.ring.nextToClean page s page).trans hlive
  have hnext : (useBuffer u s.ring.nextToClean page s).nextPage = s.nextPage := by
    cases u <;> rfl
  have hother (q : ℕ) (hq : q ≠ page) :
      (useBuffer u s.ring.nextToClean page s).pages q = s.pages q := by
    cases u <;>
      simp [useBuffer, rxBufferFlip, useHalf, getRxBuffer, keepRxBuffer, setBuffer, setPage,
        Function.update_of_ne hq]
  rw [putRxBuffer_eq]
  split
  · intro q hlt hrel
    simp only [recycle, hnext, Function.update_apply] at hlt hrel ⊢
    split
    · rename_i heq
      rw [if_pos heq] at hrel
      exact absurd hlive' hrel
    · rename_i hq
      rw [if_neg hq, hother q hq] at hrel
      rw [hother q hq]
      apply h q hlt hrel
  · intro q hlt hrel
    simp only [drain, hnext, Function.update_apply] at hlt hrel ⊢
    split
    · rcases hu with rfl | rfl
      · obtain ⟨hbuf, hpages⟩ := useBuffer_used page s hpos hle
        simp only [hbuf, hpages, Function.update_self, List.length_cons]
        omega
      · simp only [useBuffer_kept page s hpos hle]
        omega
    · rename_i hq
      rw [if_neg hq, hother q hq] at hrel
      rw [hother q hq]
      apply h q hlt hrel

/-- The poll and what the stack has do not matter for the halves. -/
theorem Halves.passClean (h : s.Halves K) (p : Option Poll) (f : ℕ → ℕ) (skb : SkbPtr) (i : ℕ) :
  { s with
    ring := { s.ring with nextToClean := i, skb := skb }
    poll := p
    skbReleases := f }.Halves K
  := by
  constructor
  · apply h.slots
  · apply h.descs

/-- Receiving a buffer keeps the halves and the references to the pages that were given up. -/
theorem Received.halves
    {t : Turn} {page : ℕ} {p : Poll} (hreceived : Received t page p s s') (h : s.Halves K)
    (hgiven : s.Given) (hwin : s.Window) (hbias : s.Biased) (hne : s.ring.nextToClean ≠ s.head)
    (hpage : s.ring.pageAt s.ring.nextToClean = some page) (hskb : p.skb.isErr = false) :
  s'.Halves K ∧ s'.Given
  := by
  obtain ⟨hpos, hle⟩ := hbias _ hwin.indices.clean_lt page hpage
  cases hreceived with
  | failed =>
    rw [useBuffer_kept page s hpos hle]
    exact ⟨h.passClean none s.skbReleases .null s.ring.nextToClean, hgiven⟩
  | retired u skb n total htaken =>
    have hu := htaken.used_or_kept hskb
    obtain ⟨p', f, heq, -⟩ := retireBuffer_eq t page
      { p with skb := skb, totalRxPackets := total }
      { useBuffer u s.ring.nextToClean page s with nextSkb := n }
    have hclean : (useBuffer u s.ring.nextToClean page s).ring.nextToClean
        = s.ring.nextToClean := by
      cases u <;> rfl
    rw [heq]
    simp only [hclean]
    have hput := Halves.putRxBuffer t.reserved skb n h hwin hne hpage
      (h.recycled hwin hbias hne hpage hu)
    constructor
    · exact hput.passClean (some p') f _ _
    · exact hgiven.putRxBuffer h hwin hbias hpage hu

/-- A frame that ends with the buffer leaves no verdict behind. -/
theorem endFrame_whole
    (t : Turn) (d : RxDesc) (p : Poll) (hp : s.poll = some p) :
  ∀ p' ∈ (endFrame t d p s).poll, p'.skb.isErr = false
  := by
  unfold endFrame
  split
  · rename_i hskb
    intro p' hp'
    rw [hp, Option.mem_some_iff] at hp'
    rw [← hp', hskb]
    rfl
  · simp [SkbPtr.isErr]
  · rename_i skb hskb
    split
    · simp [SkbPtr.isErr]
    · split <;> simp [SkbPtr.isErr, hskb]

/-- Receiving a buffer leaves no verdict behind, where the frame ends with the buffer or goes
on to the stack. -/
theorem Received.whole
    {t : Turn} {page : ℕ} {p : Poll} (hreceived : Received t page p s s') (h : s.Whole)
    (hskb : p.skb.isErr = false)
    (hG : p.skb = .null → t.xdp.passes = false → (s.ring.desc s.ring.nextToClean).eop = true) :
  s'.Whole
  := by
  cases hreceived with
  | failed =>
    constructor
    · rfl
    · simp [finishPoll]
  | retired u skb n total htaken =>
    have hsame : (useBuffer u s.ring.nextToClean page s).ring.skb = s.ring.skb ∧
        (useBuffer u s.ring.nextToClean page s).ring.nextToClean = s.ring.nextToClean ∧
        (useBuffer u s.ring.nextToClean page s).ring.desc = s.ring.desc := by
      cases u <;> exact ⟨rfl, rfl, rfl⟩
    obtain ⟨hring, hclean, hdesc⟩ := hsame
    -- either the frame ends here, or the skb goes on to the next buffer
    have hends : skb.isErr = true → (s.ring.desc s.ring.nextToClean).eop = true := by
      intro herr
      obtain ⟨hnull, hxdp⟩ := htaken.verdict hskb herr
      apply hG hnull hxdp
    constructor
    · obtain ⟨p', f, heq, -⟩ := retireBuffer_eq t page
        { p with skb := skb, totalRxPackets := total }
        { useBuffer u s.ring.nextToClean page s with nextSkb := n }
      rw [heq, putRxBuffer_eq]
      split <;> exact hring ▸ h.ring
    · unfold retireBuffer
      simp only [hclean, hdesc]
      split
      · apply endFrame_whole
        rfl
      · rename_i hmore
        intro p' hp'
        simp only [Option.mem_some_iff] at hp'
        rw [← hp']
        simp only
        rw [← Bool.not_eq_true]
        intro herr
        exact hmore (hends herr)

/-- The condition on an event: a frame that the program does not pass on lies in one buffer. -/
def FramesContained (s : RxQueue) : Event → Prop
  | .turn t => ∀ p ∈ s.poll, p.totalRxPackets < p.budget →
    (s.ring.desc s.ring.nextToClean).length ≠ 0 → p.skb = .null → t.xdp.passes = false →
    (s.ring.desc s.ring.nextToClean).eop = true
  | _ => True

/-- A turn that meets the condition keeps the halves. -/
theorem cleanRxTurn_halves
    {t : Turn} {p : Poll} (h : s.Halves K) (hgiven : s.Given) (hwhole : s.Whole)
    (hwin : s.Window) (hbias : s.Biased) (hcounted : s.ring.Counted p.cleanedCount)
    (hp : s.poll = some p) (hG : s.FramesContained (.turn t))
    (hturn : cleanRxTurn K t p s = some s') :
  s'.Halves K ∧ s'.Given ∧ s'.Whole
  := by
  have hskb := hwhole.poll p hp
  obtain ⟨s₁, p₁, hpath, -, hskb₁, hend | ⟨hbudget, hlen, page, hpage, hreceived⟩⟩ :=
    cleanRxTurn_cases hwin hcounted hturn
  · have hhalves := h.refills hwin hpath
    have hgiven₁ := hgiven.refills hpath
    subst hend
    refine ⟨hhalves.passClean none s₁.skbReleases p.skb s₁.ring.nextToClean, hgiven₁, ?_⟩
    constructor
    · apply hskb
    · simp [finishPoll]
  · have hwin₁ := hwin.refills hpath
    have hsame := refills_sameRest hpath
    have hne₁ := hwin₁.clean_ne_head hlen
    have hne : s.ring.nextToClean ≠ s.head := by
      rwa [hsame.nextToClean, hsame.head] at hne₁
    obtain ⟨-, hdesc, -, -⟩ := refills_clean hpath hwin hne
    rw [← hskb₁] at hskb
    obtain ⟨hhalves, hgiven₁⟩ := hreceived.halves (h.refills hwin hpath) (hgiven.refills hpath)
      hwin₁ (hbias.refills hpath) hne₁ hpage hskb
    refine ⟨hhalves, hgiven₁, ?_⟩
    have hwhole₁ : s₁.Whole := by
      constructor
      · rw [hsame.skb]
        apply hwhole.ring
      · rw [hsame.poll]
        apply hwhole.poll
    apply hreceived.whole hwhole₁ hskb
    intro hnull hxdp
    rw [hsame.nextToClean, hdesc] at hlen ⊢
    rw [hskb₁] at hnull
    apply hG p hp hbudget hlen hnull hxdp

/-! ### Runs -/

/-- A change of the references to one page keeps the halves and the references to the pages
that were given up, if it keeps them of that page. -/
theorem Halves.setPage
    (h : s.Halves K) (page : ℕ) (f : Page → Page)
    (hf : ∀ b, PageUse K s.ring.flags b (s.pages page) →
      PageUse K s.ring.flags b (f (s.pages page))) :
  (s.setPage page f).Halves K
  := by
  constructor
  · intro i hi q hq
    simp only [RxQueue.setPage, Function.update_apply]
    split
    · rename_i heq
      subst heq
      apply hf
      apply h.slots i hi q hq
    · apply h.slots i hi q hq
  · apply h.descs

/-- A change of the references to one page keeps the references to the pages that were given
up, if it keeps them of that page. -/
theorem Given.setPage
    (h : s.Given) (page : ℕ) (f : Page → Page)
    (hrel : (f (s.pages page)).releases = (s.pages page).releases)
    (hf : (s.pages page).refCount = (s.pages page).users.length →
      (f (s.pages page)).refCount = (f (s.pages page)).users.length) :
  (s.setPage page f).Given
  := by
  intro q hlt hq
  simp only [RxQueue.setPage, Function.update_apply] at hlt hq ⊢
  split
  · rename_i heq
    rw [if_pos heq, hrel] at hq
    subst heq
    apply hf
    apply h q hlt hq
  · rename_i hne
    rw [if_neg hne] at hq
    apply h q hlt hq

/-- The write-back of a descriptor keeps the halves. -/
theorem Halves.writeBack
    (h : s.Halves K) (hwin : s.Window) (hne : s.head ≠ s.ring.tail) (length : ℕ)
    (eop frameErr : Bool) :
  { s with
    ring := s.ring.setDesc s.head fun _ =>
      { pktAddr := none, length := length, eop := eop, frameErr := frameErr }
    head := next s.ring.count s.head }.Halves K
  := by
  have hidx := hwin.indices
  rw [hwin.tail] at hne
  have huse := gap_next_left hwin.head_lt hidx.use_lt hne
  have hwide := gap_lt hwin.head_lt hidx.use_lt
  constructor
  · apply h.slots
  · intro i hi hown
    simp only [HwOwns, RxRing.setDesc] at hi hown ⊢
    have hih : i ≠ s.head := by
      rintro rfl
      have := gap_next_self hwin.head_lt
      omega
    have hgap := gap_next_left hwin.head_lt hi (Ne.symm hih)
    rw [Function.update_of_ne hih]
    apply h.descs i hi
    unfold HwOwns
    omega

/-- Cleaning the ring keeps the references to the pages that were given up. -/
theorem cleanRxRing_given
    (h : s.Given) (hhalves : s.active = true → s.Halves K) (hwhole : s.Whole) (hinv : s.Inv)
    (hclean : cleanRxRing s = some s') :
  s'.Given ∧ s'.ring.skb.isErr = false ∧ s'.poll = s.poll
  := by
  obtain ⟨pages, f, hsome, hrel⟩ := cleanRxRing_some hinv.paged hwhole.ring
  rw [hclean, Option.some.injEq] at hsome
  subst hsome
  refine ⟨?_, rfl, rfl⟩
  intro page hlt hpage
  simp only at hlt hpage ⊢
  by_cases hone : (s.pages page).releases = 1
  · rw [hrel.others]
    · apply h page hlt
      omega
    · intro j hj hwin _ hp
      have := (hinv.held hj hwin hp).2
      omega
  · obtain ⟨i, hi, hwin, hp⟩ := hinv.found hlt hone
    have hactive : s.active = true := by
      rw [← Bool.not_eq_false]
      intro hidle
      exact hone ((hinv.idle hidle).releases page hlt)
    have huse := (hhalves hactive).slots i hi page hp
    rw [hrel.slots i hi hwin (by simp) page hp]
    simp only [Page.released]
    have := huse.refs
    omega

/-- What holds of the halves in every state of a run. -/
structure HalvesInv (K : KernelConfig) (s : RxQueue) : Prop where
  halves : s.active = true → s.Halves K
  given : s.Given
  whole : s.Whole

/-- In every run that meets the condition the halves are in order. -/
theorem reachable_halves (h : (system K).Reachable FramesContained s) :
  s.HalvesInv K
  := by
  induction h with
  | @init s hinit =>
    constructor
    · intro hactive
      rw [hinit.active] at hactive
      cases hactive
    · intro page hlt
      rw [hinit.nextPage] at hlt
      omega
    · constructor
      · rw [hinit.skb]
        rfl
      · simp [hinit.poll]
  | @step s e s' hreach hG hstep ih =>
    have hinv := reachable_inv hreach
    obtain ⟨hhalves, hgiven, hwhole⟩ := ih
    obtain ⟨hen, hstep⟩ := hstep
    cases e with
    | configure flags alloc =>
      cases hstep
      have hidle := hinv.idle hen.1
      have hpath := configureRxRing_refills (K := K) flags alloc hidle hinv.count_pos
      have hsame := refills_sameRest hpath
      have hcleared : (s.cleared flags).Halves K := by
        constructor
        · intro i _ page hp
          cases hp
        · intro i hi hown
          simp only [HwOwns, cleared, gap_self] at hown
          omega
      constructor
      · intro _
        apply hcleared.refills (cleared_window flags hidle hinv.count_pos) hpath
      · have hgiven' : (s.cleared flags).Given := hgiven
        apply hgiven'.refills hpath
      · constructor
        · rw [hsame.skb]
          apply hwhole.ring
        · rw [hsame.poll]
          apply hwhole.poll
    | writeBack length eop frameErr =>
      cases hstep
      refine ⟨?_, hgiven, hwhole.ring, hwhole.poll⟩
      intro hactive
      apply (hhalves hactive).writeBack (hinv.window hactive) hen
    | poll budget =>
      cases hstep
      refine ⟨?_, hgiven, hwhole.ring, ?_⟩
      · intro hactive
        exact (hhalves hactive).passClean _ s.skbReleases s.ring.skb s.ring.nextToClean
      · simp [cleanRxIrq, hwhole.ring]
    | turn t =>
      obtain ⟨p, hp, hturn⟩ := Option.bind_eq_some_iff.mp hstep
      have hactive := hinv.active_of_poll hp
      obtain ⟨hhalves', hgiven', hwhole'⟩ := cleanRxTurn_halves (hhalves hactive) hgiven hwhole
        (hinv.window hactive) (reachable_biased hreach hactive) (hinv.counted hactive p hp) hp
        hG hturn
      exact ⟨fun _ => hhalves', hgiven', hwhole'⟩
    | clean =>
      obtain ⟨hgiven', hskb, hpoll⟩ := cleanRxRing_given hgiven hhalves hwhole hinv hstep
      refine ⟨?_, hgiven', hskb, ?_⟩
      · intro hactive
        rw [cleanRxRing_active hstep] at hactive
        cases hactive
      · rw [hpoll]
        apply hwhole.poll
    | drop page half =>
      cases hstep
      have hmem : half ∈ (s.pages page).users := hen
      refine ⟨?_, ?_, hwhole.ring, hwhole.poll⟩
      · intro hactive
        apply (hhalves hactive).setPage
        intro b hb
        apply hb.drop hmem
      · apply hgiven.setPage
        · rfl
        · intro hrefs
          simp only
          rw [List.length_erase_of_mem hmem, hrefs]
    | take page half =>
      cases hstep
      obtain ⟨hmem, hfew⟩ : half ∈ (s.pages page).users ∧ (s.pages page).users.length < 2 ^ 31 :=
        hen
      refine ⟨?_, ?_, hwhole.ring, hwhole.poll⟩
      · intro hactive
        apply (hhalves hactive).setPage
        intro b hb
        apply hb.take hmem hfew
      · apply hgiven.setPage
        · rfl
        · intro hrefs
          simp only [List.length_cons]
          rw [hrefs]

/-- The halves of the pages of a configured ring are used exclusively: `page_ref_count` less
`pagecnt_bias` is the number of references outside the driver, 16 bits hold the bias before,
while and after a turn takes a reference off it, and no half that the hardware may write to is
referenced. -/
structure Exclusive (s : RxQueue) : Prop where
  refs : ∀ i < s.ring.count, ∀ page, s.ring.pageAt i = some page →
    (s.pages page).refCount = (s.ring.buffer i).pagecntBias + (s.pages page).users.length
  bias : ∀ i < s.ring.count, ∀ page, s.ring.pageAt i = some page →
    (s.ring.buffer i).pagecntBias < 2 ^ 16 ∧
      ((getRxBuffer i s).ring.buffer i).pagecntBias + 1 = (s.ring.buffer i).pagecntBias ∧
      ((keepRxBuffer i (getRxBuffer i s)).ring.buffer i).pagecntBias
        = (s.ring.buffer i).pagecntBias
  handed : ∀ i < s.ring.count, s.HwOwns i → ∃ page offset,
    (s.ring.desc i).pktAddr = some (page, offset) ∧
      half s.ring.flags offset ∉ (s.pages page).users

/-- In every run of frames that lie in one buffer or are passed on by the program, the halves
of the pages of a configured ring are used exclusively, and the references to a page that the
driver has given up are those of its holders. -/
theorem reachable_exclusive (h : (system K).Reachable FramesContained s) :
  (s.active = true → s.Exclusive) ∧ s.Given
  := by
  have hinv := reachable_halves h
  refine ⟨?_, hinv.given⟩
  intro hactive
  have hwin := (reachable_inv h).window hactive
  have hbias := reachable_biased h hactive
  have hhalves := hinv.halves hactive
  constructor
  · intro i hi page hp
    apply (hhalves.slots i hi page hp).refs
  · intro i hi page hp
    obtain ⟨hpos, hle⟩ := hbias i hi page hp
    unfold ushrtMax at hle
    simp only [keepRxBuffer, getRxBuffer, setBuffer, RxRing.setBuffer, Function.update_self,
      ushrtMax]
    omega
  · intro i hi hown
    obtain ⟨page, hp⟩ := hown.page hwin hi
    use page, (s.ring.buffer i).pageOffset
    have hpage : (s.ring.buffer i).page = some page := hp
    constructor
    · rw [hhalves.descs i hi hown, bufferAddr, hpage]
      rfl
    · apply (hhalves.slots i hi page hp).idle

instance FramesContained.decide (s : RxQueue) : (e : Event) → Decidable (s.FramesContained e)
  | .turn t => inferInstanceAs (Decidable (∀ p ∈ s.poll, p.totalRxPackets < p.budget →
      (s.ring.desc s.ring.nextToClean).length ≠ 0 → p.skb = .null → t.xdp.passes = false →
      (s.ring.desc s.ring.nextToClean).eop = true))
  | .configure _ _ | .writeBack _ _ _ | .poll _ | .clean | .drop _ _ | .take _ _ => isTrue trivial

/-- A frame that the XDP program transmits leaves its half to the XDP Tx ring alone. -/
theorem transmittedOne_exclusive :
  (((receivesOne .tx true).foldl (after cacheLine64) fresh).active = true →
      ((receivesOne .tx true).foldl (after cacheLine64) fresh).Exclusive) ∧
    ((receivesOne .tx true).foldl (after cacheLine64) fresh).Given
  := by
  apply reachable_exclusive (K := cacheLine64)
  apply run_reachable
  decide +kernel

end RxQueue

end Ixgbevf.Rx
