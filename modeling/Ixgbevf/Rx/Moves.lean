import Ixgbevf.Rx.Mappings
import Ixgbevf.Rx.Frames

/-!
# What becomes of skbs and pages

An event makes skbs and pages, frees the skb that the driver works on, and gives up pages that the
driver holds; it does nothing else to them.  So an skb that was freed and is not the driver's, and
a page that was given up, stay as they are in every run.
-/

namespace Ixgbevf.Rx

open Cyclic

/-! ### Skbs -/

/-- The skb that a variable points at. -/
def SkbPtr.skbId : SkbPtr → Option ℕ
  | .skb s => some s.id
  | _ => none

/-- The skbs of a queue. -/
structure Skbs where
  /-- The one that the driver works on. -/
  current : Option ℕ
  /-- The one that is made next. -/
  next : ℕ
  /-- How often the driver has freed an skb or passed it to the stack. -/
  releases : ℕ → ℕ

namespace Skbs

/-- What may happen to skbs. -/
inductive Step (b : Skbs) : Skbs → Prop where
  /-- An skb is made for a new frame. -/
  | make : b.current = none → Step b { b with current := some b.next, next := b.next + 1 }
  /-- The skb is freed or passed on, and the driver has it still or not. -/
  | release {id : ℕ} (keeps : Bool) : b.current = some id → Step b { b with
      current := if keeps then some id else none
      releases := Function.update b.releases id (b.releases id + 1) }

/-- No skb is lost: one that was made is the one that the driver works on, or has been freed. -/
structure Accounted (b : Skbs) : Prop where
  /-- The driver works on an skb that was made. -/
  made : ∀ id, b.current = some id → id < b.next
  /-- The other ones. -/
  freed : ∀ id < b.next, b.current = some id ∨ b.releases id ≠ 0

/-- The driver works on no skb that was made before `b`, and has left these alone since. -/
structure Since (b b' : Skbs) : Prop where
  /-- Skbs have been made. -/
  next : b.next ≤ b'.next
  /-- The driver works on one of them. -/
  current : ∀ id, b'.current = some id → b.next ≤ id
  /-- The older ones. -/
  releases : ∀ id < b.next, b'.releases id = b.releases id

variable {b b' b'' : Skbs}

/-- What happens to skbs loses none. -/
theorem Step.accounted (h : Step b b') (hb : b.Accounted) :
  b'.Accounted
  := by
  obtain ⟨hmade, hfreed⟩ := hb
  cases h with
  | make hnone =>
    constructor
    · intro id hid
      cases hid
      exact Nat.lt_succ_self _
    · intro id hid
      rcases Nat.lt_succ_iff_lt_or_eq.mp hid with hlt | rfl
      · refine .inr ((hfreed id hlt).resolve_left ?_)
        rw [hnone]
        exact (Option.some_ne_none id).symm
      · exact .inl rfl
  | @release x keeps hx =>
    constructor
    · intro id hid
      cases keeps with
      | true =>
        cases hid
        exact hmade x hx
      | false => cases hid
    · intro id hid
      by_cases heq : id = x
      · refine .inr ?_
        simp [heq]
      · have hid := (hfreed id hid).resolve_left (by simpa [hx] using Ne.symm heq)
        refine .inr ?_
        simpa only [Function.update_of_ne heq] using hid

/-- What happens to skbs leaves the older ones alone. -/
theorem Step.since (h : Step b' b'') (hb : Since b b') :
  Since b b''
  := by
  obtain ⟨hnext, hcurrent, hreleases⟩ := hb
  cases h with
  | make hnone =>
    refine ⟨Nat.le_succ_of_le hnext, fun id hid => ?_, hreleases⟩
    cases hid
    exact hnext
  | @release x keeps hx =>
    refine ⟨hnext, fun id hid => ?_, fun id hid => ?_⟩
    · cases keeps with
      | true =>
        cases hid
        exact hcurrent x hx
      | false => cases hid
    · have hne : id ≠ x := by
        rintro rfl
        exact absurd hid (Nat.not_lt.mpr (hcurrent id hx))
      rw [← hreleases id hid]
      exact Function.update_of_ne hne _ _

/-- No skb is lost. -/
theorem accounted_of_steps (h : Relation.ReflTransGen Step b b') (hb : b.Accounted) :
  b'.Accounted
  := by
  induction h with
  | refl => exact hb
  | tail _ hstep ih => exact hstep.accounted ih

/-- The number of skbs grows. -/
theorem next_of_steps (h : Relation.ReflTransGen Step b b') :
  b.next ≤ b'.next
  := by
  induction h with
  | refl => exact le_rfl
  | tail _ hstep ih =>
    cases hstep with
    | make => exact Nat.le_succ_of_le ih
    | release => exact ih

end Skbs

/-! ### Pages -/

/-- A page that the driver holds is mapped. -/
def Page.Held (p : Page) : Prop := p.releases = 0 → p.maps = 1 ∧ p.unmaps = 0

/-- What may happen to a page: the driver has left it, or has given it up. -/
inductive PageMove (p p' : Page) : Prop where
  | kept : p'.maps = p.maps → p'.unmaps = p.unmaps → p'.releases = p.releases → PageMove p p'
  | givenUp : p.releases = 0 → p'.releases = 1 → PageMove p p'

/-- What may happen to pages. -/
structure PagesMove (s s' : RxQueue) : Prop where
  /-- Pages are allocated. -/
  next : s.nextPage ≤ s'.nextPage
  /-- The pages that were there. -/
  old : ∀ page < s.nextPage, PageMove (s.pages page) (s'.pages page)
  /-- The new ones. -/
  new : ∀ page, s.nextPage ≤ page → page < s'.nextPage → (s'.pages page).Held

/-- The pages that the driver holds are mapped. -/
def Mapped (s : RxQueue) : Prop := ∀ page < s.nextPage, (s.pages page).Held

variable {s s' s'' : RxQueue}

/-- What happens to a page in two steps. -/
theorem PageMove.trans {p p' p'' : Page} (h : PageMove p p') (h' : PageMove p' p'') :
  PageMove p p''
  := by
  cases h with
  | kept hmaps hunmaps hreleases =>
    cases h' with
    | kept hmaps' hunmaps' hreleases' =>
      exact .kept (hmaps'.trans hmaps) (hunmaps'.trans hunmaps) (hreleases'.trans hreleases)
    | givenUp hzero hone => exact .givenUp (hreleases.symm.trans hzero) hone
  | givenUp hzero hone =>
    cases h' with
    | kept _ _ hreleases' => exact .givenUp hzero (hreleases'.trans hone)
    | givenUp hzero' _ =>
      rw [hone] at hzero'
      cases hzero'

/-- A page that the driver holds is mapped, also after something has happened to it. -/
theorem PageMove.held {p p' : Page} (h : PageMove p p') (hp : p.Held) :
  p'.Held
  := by
  intro hzero
  cases h with
  | kept hmaps hunmaps hreleases =>
    rw [hmaps, hunmaps]
    exact hp (hreleases.symm.trans hzero)
  | givenUp _ hone =>
    rw [hone] at hzero
    cases hzero

/-- A page that the driver has given up stays as it is. -/
theorem PageMove.settled {p p' : Page} (h : PageMove p p') (hp : p.releases ≠ 0) :
  p'.maps = p.maps ∧ p'.unmaps = p.unmaps ∧ p'.releases = p.releases
  := by
  cases h with
  | kept hmaps hunmaps hreleases => exact ⟨hmaps, hunmaps, hreleases⟩
  | givenUp hzero _ => exact absurd hzero hp

namespace PagesMove

/-- Nothing happens. -/
theorem congr (hnext : s'.nextPage = s.nextPage)
    (hpages : ∀ page, (s'.pages page).maps = (s.pages page).maps
      ∧ (s'.pages page).unmaps = (s.pages page).unmaps
      ∧ (s'.pages page).releases = (s.pages page).releases) :
  PagesMove s s'
  := by
  refine ⟨hnext.ge, fun page _ => ?_, fun page hle hlt => ?_⟩
  · obtain ⟨hmaps, hunmaps, hreleases⟩ := hpages page
    exact .kept hmaps hunmaps hreleases
  · omega

/-- What happens to pages in two steps. -/
theorem trans (h : PagesMove s s') (h' : PagesMove s' s'') :
  PagesMove s s''
  := by
  refine ⟨h.next.trans h'.next, fun page hlt => ?_, fun page hle hlt => ?_⟩
  · exact (h.old page hlt).trans (h'.old page (Nat.lt_of_lt_of_le hlt h.next))
  · by_cases hpage : page < s'.nextPage
    · exact (h'.old page hpage).held (h.new page hle hpage)
    · exact h'.new page (Nat.le_of_not_lt hpage) hlt

/-- The pages that the driver holds are mapped. -/
theorem mapped (h : PagesMove s s') (hs : Mapped s) :
  Mapped s'
  := by
  intro page hlt
  by_cases hpage : page < s.nextPage
  · exact (h.old page hpage).held (hs page hpage)
  · exact h.new page (Nat.le_of_not_lt hpage) hlt

end PagesMove

/-! ### Events -/

namespace RxQueue

variable {K : KernelConfig} {s s' s'' : RxQueue}

/-- The skbs of a queue. -/
def skbs (s : RxQueue) : Skbs := ⟨s.current.skbId, s.nextSkb, s.skbReleases⟩

/-- What happens to skbs and pages. -/
structure Moves (s s' : RxQueue) : Prop where
  /-- The pages. -/
  pages : PagesMove s s'
  /-- The skbs. -/
  skbs : Relation.ReflTransGen Skbs.Step s.skbs s'.skbs

/-- What happens in two steps. -/
theorem Moves.trans (h : Moves s s') (h' : Moves s' s'') :
  Moves s s''
  := ⟨h.pages.trans h'.pages, h.skbs.trans h'.skbs⟩

/-- Nothing happens. -/
theorem Moves.congr (hskbs : s'.skbs = s.skbs) (hnext : s'.nextPage = s.nextPage)
    (hpages : ∀ page, (s'.pages page).maps = (s.pages page).maps
      ∧ (s'.pages page).unmaps = (s.pages page).unmaps
      ∧ (s'.pages page).releases = (s.pages page).releases) :
  Moves s s'
  := by
  refine ⟨.congr hnext hpages, ?_⟩
  rw [hskbs]

/-- A page is allocated. -/
theorem pagesMove_newPage {p : Page} (hp : p.Held)
    (hpages : s'.pages = Function.update s.pages s.nextPage p)
    (hnext : s'.nextPage = s.nextPage + 1) :
  PagesMove s s'
  := by
  refine ⟨by omega, fun page hlt => ?_, fun page hle hlt => ?_⟩
  · rw [hpages, Function.update_of_ne (Nat.ne_of_lt hlt)]
    exact .kept rfl rfl rfl
  · obtain rfl : page = s.nextPage := by omega
    rw [hpages, Function.update_self]
    exact hp

/-- Refilling allocates pages. -/
theorem Refill.moves (h : Refill K s s') :
  Moves s s'
  := by
  cases h with
  | recycled => exact .congr rfl rfl fun _ => ⟨rfl, rfl, rfl⟩
  | fresh =>
    refine ⟨pagesMove_newPage (p := mappedPage) (fun _ => ⟨rfl, rfl⟩) rfl rfl, .refl⟩
  | wasted =>
    refine ⟨pagesMove_newPage (p := unmappablePage) (fun hzero => ?_) rfl rfl, .refl⟩
    cases hzero

/-- Refilling allocates pages. -/
theorem refills_moves (h : Relation.ReflTransGen (Refill K) s s') :
  Moves s s'
  := by
  induction h with
  | refl => exact .congr rfl rfl fun _ => ⟨rfl, rfl, rfl⟩
  | tail _ hmove ih => exact ih.trans hmove.moves

/-- Taking the data of a buffer leaves the books of its page alone. -/
theorem useBuffer_books (u : Use) (i page : ℕ) (s : RxQueue) (q : ℕ) :
  ((useBuffer u i page s).pages q).maps = (s.pages q).maps
    ∧ ((useBuffer u i page s).pages q).unmaps = (s.pages q).unmaps
    ∧ ((useBuffer u i page s).pages q).releases = (s.pages q).releases
  := by
  cases u with
  | used =>
    simp only [useBuffer, rxBufferFlip, useHalf, getRxBuffer, setBuffer, setPage,
      Function.update_apply]
    split <;> simp_all
  | kept => exact ⟨rfl, rfl, rfl⟩
  | stray => exact ⟨rfl, rfl, rfl⟩

/-- A buffer is put on the ring again, or its page is given up. -/
theorem putRxBuffer_pages (reserved : Bool) (skb : SkbPtr) (i page : ℕ) {s : RxQueue}
    (hheld : (s.pages page).releases = 0) :
  PagesMove s (putRxBuffer reserved skb i page s)
  := by
  rw [putRxBuffer_eq]
  split
  · refine PagesMove.congr ?_ fun q => ?_
    · rfl
    simp only [recycle, Function.update_apply]
    split <;> simp_all
  · refine ⟨le_rfl, fun q _ => ?_, fun q hle hlt => absurd hlt (Nat.not_lt.mpr hle)⟩
    simp only [drain, Function.update_apply]
    split
    · rename_i heq
      subst heq
      exact .givenUp hheld (by simp [hheld])
    · exact .kept rfl rfl rfl

/-- The skb that a turn has the data in is that of the call, or a new one. -/
theorem Taken.skbs {t : Turn} {sk skb : SkbPtr} {u : Use} {n : ℕ} (h : Taken t s sk u skb n)
    (releases : ℕ → ℕ) :
  Relation.ReflTransGen Skbs.Step ⟨sk.skbId, s.nextSkb, releases⟩ ⟨skb.skbId, n, releases⟩
  := by
  cases h with
  | fresh len _ _ _ => exact .single (.make rfl)
  | copy len _ _ _ => exact .single (.make rfl)
  | _ => exact .refl

/-- Ending a frame frees its skb or passes it on. -/
theorem endFrame_skbs (t : Turn) (d : RxDesc) (p : Poll) (hp : s.poll = some p) :
  Relation.ReflTransGen Skbs.Step ⟨p.skb.skbId, s.nextSkb, s.skbReleases⟩ (endFrame t d p s).skbs
  := by
  unfold endFrame
  split
  · have hcur : s.skbs = ⟨p.skb.skbId, s.nextSkb, s.skbReleases⟩ := by
      simp [skbs, current, hp]
    rw [hcur]
  · rename_i hskb
    rw [hskb]
    exact .refl
  · rename_i skb hskb
    rw [hskb]
    split
    · exact .single (.release false rfl)
    · split
      · have hkept : ({ s.releaseSkb skb with poll := some p } : RxQueue).skbs
            = ⟨some skb.id, s.nextSkb, (s.releaseSkb skb).skbReleases⟩ := by
          simp [skbs, current, hskb, SkbPtr.skbId, releaseSkb]
        rw [hkept]
        exact .single (.release true rfl)
      · exact .single (.release false rfl)

/-- Retiring a buffer. -/
theorem retireBuffer_moves (t : Turn) (page : ℕ) (p : Poll) {s : RxQueue}
    (hheld : (s.pages page).releases = 0) :
  PagesMove s (retireBuffer t page p s)
    ∧ Relation.ReflTransGen Skbs.Step ⟨p.skb.skbId, s.nextSkb, s.skbReleases⟩
      (retireBuffer t page p s).skbs
  := by
  constructor
  · obtain ⟨p', f, heq, -⟩ := retireBuffer_eq t page p s
    rw [heq]
    exact (putRxBuffer_pages t.reserved p.skb s.ring.nextToClean page hheld).trans
      (.congr rfl fun _ => ⟨rfl, rfl, rfl⟩)
  · obtain ⟨-, -, -, -, hreleases, hnext, -⟩ :=
      putRxBuffer_same t.reserved p.skb s.ring.nextToClean page s
    unfold retireBuffer
    simp only
    rw [← hreleases, ← hnext]
    split
    · exact endFrame_skbs (s := { passClean (putRxBuffer t.reserved p.skb s.ring.nextToClean page s)
        with poll := some { p with cleanedCount := p.cleanedCount + 1 } }) t _
        { p with cleanedCount := p.cleanedCount + 1 } rfl
    · exact .refl

/-- A turn. -/
theorem cleanRxTurn_moves {t : Turn} {p : Poll} (hwin : s.Window)
    (hcounted : s.ring.Counted p.cleanedCount) (hp : s.poll = some p)
    (hturn : cleanRxTurn K t p s = some s') :
  Moves s s'
  := by
  obtain ⟨s₁, p₁, hpath, -, hskb, hend | ⟨-, -, page, hpage, hreceived⟩⟩ :=
    cleanRxTurn_cases hwin hcounted hturn
  · have hsame := refills_sameRest hpath
    apply (refills_moves hpath).trans
    subst hend
    refine .congr ?_ rfl fun _ => ⟨rfl, rfl, rfl⟩
    simp [skbs, current, finishPoll, hsame.poll, hp]
  · have hsame := refills_sameRest hpath
    apply (refills_moves hpath).trans
    have hwin₁ := hwin.refills hpath
    obtain ⟨-, hheld⟩ := hwin₁.held _ hwin₁.indices.clean_lt page hpage
    have hcur : s₁.skbs = ⟨p₁.skb.skbId, s₁.nextSkb, s₁.skbReleases⟩ := by
      simp [skbs, current, hsame.poll, hp, hskb]
    cases hreceived with
    | failed hnull =>
      refine .congr ?_ rfl fun q => useBuffer_books .kept s₁.ring.nextToClean page s₁ q
      rw [hcur, hnull]
      rfl
    | retired u skb n total htaken =>
      have hbooks := useBuffer_books u s₁.ring.nextToClean page s₁
      obtain ⟨-, -, -, -, -, hreleases⟩ := useBuffer_same u s₁.ring.nextToClean page s₁
      obtain ⟨hpages, hskbs⟩ := retireBuffer_moves t page
        { p₁ with skb := skb, totalRxPackets := total }
        (s := { useBuffer u s₁.ring.nextToClean page s₁ with nextSkb := n })
        ((hbooks page).2.2.trans hheld)
      constructor
      · have hused : PagesMove s₁ { useBuffer u s₁.ring.nextToClean page s₁ with nextSkb := n } :=
          .congr (by cases u <;> rfl) hbooks
        exact hused.trans hpages
      · rw [hcur]
        apply (Taken.skbs htaken s₁.skbReleases).trans
        rw [hreleases] at hskbs
        exact hskbs

/-- Cleaning the ring gives up all pages and frees the skb of the driver. -/
theorem cleanRxRing_moves (hinv : s.Inv) (hp : s.poll = none) (h : cleanRxRing s = some s') :
  Moves s s'
  := by
  have hskb : s.ring.skb.isErr = false := by
    cases hptr : s.ring.skb with
    | err v =>
      rw [cleanRxRing, hptr] at h
      cases h
    | null => rfl
    | skb skb => rfl
  constructor
  · obtain ⟨pages, f, hsome, hrel⟩ := cleanRxRing_some hinv.paged hskb
    rw [h, Option.some.injEq] at hsome
    subst hsome
    refine ⟨le_rfl, fun page hlt => ?_, fun page hle hlt => absurd hlt (Nat.not_lt.mpr hle)⟩
    by_cases hone : (s.pages page).releases = 1
    · have hsame : pages page = s.pages page := by
        apply hrel.others
        intro j hj hwin _ hpage
        rw [(hinv.held hj hwin hpage).2] at hone
        cases hone
      exact hsame ▸ .kept rfl rfl rfl
    · obtain ⟨i, hi, hwin, hpage⟩ := hinv.found hlt hone
      have hzero := (hinv.held hi hwin hpage).2
      refine .givenUp hzero ?_
      simp only
      rw [hrel.slots i hi hwin (by simp) page hpage]
      simp [Page.released, hzero]
  · have hcur : s.skbs = ⟨s.ring.skb.skbId, s.nextSkb, s.skbReleases⟩ := by
      simp [skbs, current, hp]
    rw [hcur]
    unfold cleanRxRing at h
    cases hptr : s.ring.skb with
    | null =>
      simp only [hptr, Option.map_eq_some_iff] at h
      obtain ⟨s₁, hrelease, rfl⟩ := h
      obtain ⟨pages, rfl⟩ := releasePages_pages hrelease
      simp only [skbs, current, hp, Option.elim_none]
      exact .refl
    | err v =>
      simp only [hptr] at h
      cases h
    | skb skb =>
      simp only [hptr, Option.map_eq_some_iff] at h
      obtain ⟨s₁, hrelease, rfl⟩ := h
      obtain ⟨pages, rfl⟩ := releasePages_pages hrelease
      simp only [skbs, current, releaseSkb, hp, Option.elim_none]
      exact .single (.release false rfl)

/-- What an event does to skbs and pages. -/
theorem step_moves {e : Event} (hinv : s.Inv) (hstep : (system K).step s e s') :
  Moves s s'
  := by
  obtain ⟨hen, hstep⟩ := hstep
  cases e with
  | configure flags alloc =>
    cases hstep
    have hidle := hinv.idle hen.1
    have hcleared : Moves s (s.cleared flags) := .congr rfl rfl fun _ => ⟨rfl, rfl, rfl⟩
    exact hcleared.trans (refills_moves (configureRxRing_refills flags alloc hidle hinv.count_pos))
  | writeBack length eop frameErr =>
    cases hstep
    exact .congr rfl rfl fun _ => ⟨rfl, rfl, rfl⟩
  | poll budget =>
    cases hstep
    refine .congr ?_ rfl fun _ => ⟨rfl, rfl, rfl⟩
    simp [skbs, current, cleanRxIrq, hen.2]
  | turn t =>
    obtain ⟨p, hp, hturn⟩ := Option.bind_eq_some_iff.mp hstep
    have hactive := hinv.active_of_poll hp
    exact cleanRxTurn_moves (hinv.window hactive) (hinv.counted hactive p hp) hp hturn
  | clean => exact cleanRxRing_moves hinv hen hstep
  | drop page half | take page half =>
    cases hstep
    refine .congr rfl rfl fun q => ?_
    simp only [setPage, Function.update_apply]
    split <;> simp_all

/-- Outside of `ixgbevf_clean_rx_ring` the field `skb` of the ring is written where a call of
`ixgbevf_clean_rx_irq` ends. -/
theorem step_skb {e : Event} (hinv : s.Inv) (hclean : e ≠ .clean)
    (hstep : (system K).step s e s') :
  s'.ring.skb = s.ring.skb ∨ s'.poll = none
  := by
  obtain ⟨hen, hstep⟩ := hstep
  cases e with
  | configure flags alloc =>
    cases hstep
    have hpath := configureRxRing_refills (K := K) flags alloc (hinv.idle hen.1) hinv.count_pos
    exact .inl (refills_sameRest hpath).skb
  | writeBack | poll | drop | take =>
    cases hstep
    exact .inl rfl
  | turn t =>
    obtain ⟨p, hp, hturn⟩ := Option.bind_eq_some_iff.mp hstep
    have hactive := hinv.active_of_poll hp
    obtain ⟨s₁, p₁, hpath, -, -, hend | ⟨-, -, page, -, hreceived⟩⟩ :=
      cleanRxTurn_cases (hinv.window hactive) (hinv.counted hactive p hp) hturn
    · subst hend
      exact .inr rfl
    · rw [← (refills_sameRest hpath).skb]
      cases hreceived with
      | failed => exact .inr rfl
      | retired u skb n total =>
        obtain ⟨p', f, heq, -⟩ := retireBuffer_eq t page
          { p₁ with skb := skb, totalRxPackets := total }
          { useBuffer u s₁.ring.nextToClean page s₁ with nextSkb := n }
        rw [heq, putRxBuffer_eq]
        refine .inl ?_
        split <;> cases u <;> rfl
  | clean => exact absurd rfl hclean

/-! ### Cleaning and configuring -/

/-- What cleaning the ring does to the skb of the driver, and what it leaves alone. -/
theorem cleanRxRing_skb (h : cleanRxRing s = some s') :
  s'.ring.skb = .null ∧ s'.poll = s.poll ∧ s'.nextSkb = s.nextSkb ∧ s'.nextPage = s.nextPage
    ∧ s'.ring.count = s.ring.count
    ∧ ((s.ring.skb = .null ∧ s'.skbReleases = s.skbReleases)
      ∨ ∃ skb, s.ring.skb = .skb skb ∧ s'.skbReleases = (s.releaseSkb skb).skbReleases)
  := by
  unfold cleanRxRing at h
  cases hptr : s.ring.skb with
  | null =>
    simp only [hptr, Option.map_eq_some_iff] at h
    obtain ⟨s₁, hrelease, rfl⟩ := h
    obtain ⟨pages, rfl⟩ := releasePages_pages hrelease
    exact ⟨rfl, rfl, rfl, rfl, rfl, .inl ⟨rfl, rfl⟩⟩
  | err v =>
    simp only [hptr] at h
    cases h
  | skb skb =>
    simp only [hptr, Option.map_eq_some_iff] at h
    obtain ⟨s₁, hrelease, rfl⟩ := h
    obtain ⟨pages, rfl⟩ := releasePages_pages hrelease
    exact ⟨rfl, rfl, rfl, rfl, rfl, .inr ⟨skb, rfl, rfl⟩⟩

/-- Cleaning the ring gives up and unmaps the pages that the driver has. -/
theorem cleanRxRing_page (hinv : s.Inv) (h : cleanRxRing s = some s') {page : ℕ}
    (hlt : page < s.nextPage) (hzero : (s.pages page).releases = 0) :
  (s'.pages page).releases = 1 ∧ (s'.pages page).unmaps = (s.pages page).unmaps + 1
  := by
  have hskb : s.ring.skb.isErr = false := by
    cases hptr : s.ring.skb with
    | err v =>
      rw [cleanRxRing, hptr] at h
      cases h
    | null => rfl
    | skb skb => rfl
  obtain ⟨pages, f, hsome, hrel⟩ := cleanRxRing_some hinv.paged hskb
  rw [h, Option.some.injEq] at hsome
  subst hsome
  obtain ⟨i, hi, hwin, hpage⟩ := hinv.found hlt (by omega)
  simp only
  rw [hrel.slots i hi hwin (by simp) page hpage]
  simp [Page.released, hzero]

/-- Cleaning an idle ring again does nothing. -/
theorem cleanRxRing_idle (h : s.Idle) (hpos : 0 < s.ring.count) (hactive : s.active = false) :
  cleanRxRing s = some s
  := by
  obtain ⟨ring, head, pages, nextPage, nextSkb, skbReleases, active, poll⟩ := s
  obtain ⟨count, flags, nextToUse, nextToClean, nextToAlloc, tail, buffer, desc, skb⟩ := ring
  obtain ⟨rfl, rfl, rfl, rfl, rfl, -⟩ := h
  subst hactive
  obtain ⟨n, rfl⟩ : ∃ n, count = n + 1 := ⟨count - 1, by simp only at hpos; omega⟩
  simp [cleanRxRing, releasePages]

/-- A ring without pages is configured. -/
theorem configureRxRing_configured (flags : BufferFlags) (alloc : ℕ → PageAnswer)
    (hreleases : ∀ page < s.nextPage, (s.pages page).releases = 1) (hpos : 0 < s.ring.count)
    (hp : s.poll = none) :
  (configureRxRing K flags alloc s).Inv ∧ (configureRxRing K flags alloc s).active = true
    ∧ (configureRxRing K flags alloc s).ring.skb = s.ring.skb
    ∧ (configureRxRing K flags alloc s).skbs = s.skbs
    ∧ PagesMove s (configureRxRing K flags alloc s)
  := by
  have hpath := configureRxRing_refills_of (K := K) flags alloc hreleases hpos
  have hsame := refills_sameRest hpath
  have hnone : (configureRxRing K flags alloc s).poll = none := by
    rw [hsame.poll]
    exact hp
  have hcleared : PagesMove s (s.cleared flags) := .congr rfl fun _ => ⟨rfl, rfl, rfl⟩
  refine ⟨?_, hsame.active, hsame.skb, ?_, hcleared.trans (refills_moves hpath).pages⟩
  · constructor
    · rw [hsame.count]
      exact hpos
    · intro _
      exact (cleared_window_of flags hreleases hpos).refills hpath
    · intro _ p hp
      rw [hnone] at hp
      cases hp
    · intro hno
      rw [hsame.active] at hno
      cases hno
  · simp only [skbs, current, hnone, hp, Option.elim_none, hsame.skb, hsame.nextSkb,
      hsame.skbReleases]
    rfl

end RxQueue

end Ixgbevf.Rx
