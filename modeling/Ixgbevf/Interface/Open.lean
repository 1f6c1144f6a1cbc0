import Ixgbevf.Interface

/-!
# An open that fails

What `ixgbevf_open` holds at each point, and what its error exits give back.
-/

namespace Ixgbevf.Interface

open Queues (TxSetup RxSetup)
open Rx (RxQueue RxRing.InWindow PageAnswer BufferFlags mappedPage unmappablePage)
open Loops Use

/-! ### The pages of a ring -/

/-- Every page that a queue has been handed out in the meantime has been given back once and is
not mapped, and what is known of the other pages is as before. -/
structure Returned (q q' : RxQueue) : Prop where
  /-- The queue is in a state of its runs. -/
  inv : q'.Inv
  /-- The ring is not in use. -/
  active : q'.active = false
  /-- The pages are handed out in order. -/
  le : q.nextPage ≤ q'.nextPage
  /-- The pages handed out in the meantime. -/
  acquired : ∀ page, q.nextPage ≤ page → page < q'.nextPage →
    (q'.pages page).releases = 1 ∧ (q'.pages page).unmaps = (q'.pages page).maps
  /-- The other pages. -/
  others : ∀ page, page < q.nextPage ∨ q'.nextPage ≤ page → q'.pages page = q.pages page

/-- A queue that is not in use. -/
theorem Returned.refl {q : RxQueue} (h : q.Inv) (hactive : q.active = false) :
  Returned q q
  := by
  constructor
  · exact h
  · exact hactive
  · exact le_rfl
  · omega
  · exact fun page _ => rfl

/-- Pages that have been handed out in two stages. -/
theorem Returned.trans {q q' q'' : RxQueue} (h : Returned q q') (h' : Returned q' q'') :
  Returned q q''
  := by
  constructor
  · exact h'.inv
  · exact h'.active
  · exact h.le.trans h'.le
  · intro page hle hlt
    by_cases hpage : page < q'.nextPage
    · rw [h'.others page (Or.inl hpage)]
      exact h.acquired page hle hpage
    · exact h'.acquired page (Nat.not_lt.mp hpage) hlt
  · intro page hpage
    have hle := h.le
    have hle' := h'.le
    rw [h'.others page (by omega), h.others page (by omega)]

/-- Cleaning a ring that is not in use changes nothing. -/
theorem clean_idle {q : RxQueue} (h : q.Inv) (hactive : q.active = false) :
  q.cleanRxRing = some q
  := by
  have hidle := h.idle hactive
  obtain ⟨n, hn⟩ : ∃ n, q.ring.count = n + 1 := ⟨q.ring.count - 1, by have := h.count_pos; omega⟩
  have hrelease : RxQueue.releasePages q.ring.count q.ring.nextToClean q = some q := by
    rw [hn, RxQueue.releasePages, if_pos]
    rw [hidle.nextToClean, hidle.nextToAlloc]
  obtain ⟨ring, head, pages, nextPage, nextSkb, skbReleases, active, poll⟩ := q
  obtain ⟨count, flags, nextToUse, nextToClean, nextToAlloc, tail, buffer, desc, skb⟩ := ring
  obtain rfl : nextToClean = 0 := hidle.nextToClean
  obtain rfl : nextToUse = 0 := hidle.nextToUse
  obtain rfl : nextToAlloc = 0 := hidle.nextToAlloc
  obtain rfl : skb = .null := hidle.skb
  obtain rfl : active = false := hactive
  rw [RxQueue.cleanRxRing]
  simp only at hrelease ⊢
  rw [hrelease]
  rfl

/-- The pages that are handed out while a ring is refilled. -/
theorem refills_pages {K : KernelConfig} {q q' : RxQueue}
    (h : Relation.ReflTransGen (RxQueue.Refill K) q q') :
  q.nextPage ≤ q'.nextPage
    ∧ (∀ page, q.nextPage ≤ page → page < q'.nextPage →
      q'.pages page = mappedPage ∨ q'.pages page = unmappablePage)
    ∧ ∀ page, page < q.nextPage ∨ q'.nextPage ≤ page → q'.pages page = q.pages page
  := by
  induction h with
  | refl => exact ⟨le_rfl, fun page hle hlt => absurd hlt (Nat.not_lt.mpr hle), fun _ _ => rfl⟩
  | @tail q₁ q₂ _ hmove ih =>
    obtain ⟨hle, hnew, hold⟩ := ih
    have hupdate {p : Rx.Page} (hpages : q₂.pages = Function.update q₁.pages q₁.nextPage p)
        (hnext : q₂.nextPage = q₁.nextPage + 1) (hp : p = mappedPage ∨ p = unmappablePage) :
        q.nextPage ≤ q₂.nextPage
          ∧ (∀ page, q.nextPage ≤ page → page < q₂.nextPage →
            q₂.pages page = mappedPage ∨ q₂.pages page = unmappablePage)
          ∧ ∀ page, page < q.nextPage ∨ q₂.nextPage ≤ page → q₂.pages page = q.pages page := by
      refine ⟨by omega, fun page hle' hlt => ?_, fun page hpage => ?_⟩
      · rw [hpages]
        by_cases hpage : page = q₁.nextPage
        · rw [hpage, Function.update_self]
          exact hp
        · rw [Function.update_of_ne hpage]
          exact hnew page hle' (by omega)
      · rw [hpages, Function.update_of_ne (by omega)]
        exact hold page (by omega)
    cases hmove with
    | recycled room hne => exact ⟨hle, hnew, hold⟩
    | fresh room heq => exact hupdate rfl rfl (Or.inl rfl)
    | wasted => exact hupdate rfl rfl (Or.inr rfl)

/-- Cleaning a ring that has just been configured gives back what configuring it took. -/
theorem configure_clean (K : KernelConfig) (flags : BufferFlags) (alloc : ℕ → PageAnswer)
    {q : RxQueue} (h : q.Inv) (hactive : q.active = false) :
  ∃ q', (q.configureRxRing K flags alloc).cleanRxRing = some q' ∧ Returned q q'
    ∧ (q.configureRxRing K flags alloc).Inv ∧ (q.configureRxRing K flags alloc).active = true
  := by
  have hidle := h.idle hactive
  obtain ⟨q₁, hq₁⟩ : ∃ q₁, q₁ = q.configureRxRing K flags alloc := ⟨_, rfl⟩
  have hrefills := RxQueue.configureRxRing_refills (K := K) flags alloc hidle h.count_pos
  have hstep : (RxQueue.system K).step q (.configure flags alloc) q₁ := by
    refine ⟨⟨hactive, hidle.poll⟩, ?_⟩
    rw [hq₁]
    rfl
  have hinv₁ := RxQueue.step_inv h hstep
  rw [← hq₁] at hrefills ⊢
  obtain ⟨hle, hnew, hold⟩ := refills_pages hrefills
  have hsame := RxQueue.refills_sameRest hrefills
  have hskb : q₁.ring.skb.isErr = false := by
    rw [hsame.skb]
    show q.ring.skb.isErr = false
    rw [hidle.skb]
    rfl
  obtain ⟨pages, f, hclean, hrel⟩ := RxQueue.cleanRxRing_some hinv₁.paged hskb
  have hinv₂ := RxQueue.step_inv (K := K) (e := .clean) hinv₁
    ⟨hsame.poll.trans hidle.poll, hclean⟩
  have hothers {page : ℕ} (hpage : q₁.nextPage ≤ page ∨ (q₁.pages page).releases = 1) :
      pages page = q₁.pages page := by
    apply hrel.others
    intro j hj hwin _ hat
    obtain ⟨hlt, hzero⟩ := hinv₁.held hj hwin hat
    omega
  refine ⟨_, hclean, ⟨hinv₂, rfl, hle, fun page hle' hlt => ?_, fun page hpage => ?_⟩, hinv₁,
    hsame.active⟩
  · obtain hp | hp := hnew page hle' hlt
    · -- a page that is in a slot of the window
      obtain ⟨i, hi, hwin, hat⟩ := hinv₁.found hlt (by rw [hp]; decide)
      have hreleased := hrel.slots i hi hwin (by simp [Cyclic.gap_self]) page hat
      simp only [hreleased, hp]
      exact ⟨rfl, rfl⟩
    · have hone : (q₁.pages page).releases = 1 := by rw [hp]; rfl
      simp only [hothers (Or.inr hone), hp]
      exact ⟨rfl, rfl⟩
  · simp only
    obtain hlt | hle' := hpage
    · have hsame' := hold page (Or.inl hlt)
      rw [hothers (Or.inr (by rw [hsame']; exact hidle.releases page hlt)), hsame']
      rfl
    · rw [hothers (Or.inl hle'), hold page (Or.inr hle')]
      rfl

/-! ### What a call holds -/

/-- What a call holds at some point. -/
structure Hold where
  /-- The rings that transmit whose buffers and descriptors it holds. -/
  tx : TxKind → ℕ → Prop
  /-- The Rx rings whose buffers and registration it holds. -/
  rx : ℕ → Prop
  /-- The Rx rings whose descriptors it holds. -/
  rxDesc : ℕ → Prop
  /-- The interrupts that it holds. -/
  irq : ℕ → Prop
  /-- The Rx rings that are in use. -/
  busy : ℕ → Prop
  /-- The vectors that are counted. -/
  vectors : ℕ

namespace Hold

/-- A call that holds nothing. -/
def nothing (vectors : ℕ) : Hold where
  tx _ _ := False
  rx _ := False
  rxDesc _ := False
  irq _ := False
  busy _ := False
  vectors := vectors

/-- The resources that it holds. -/
def Has (H : Hold) : Resource → Prop
  | .txBufferInfo kind i => H.tx kind i
  | .txDesc kind i => H.tx kind i
  | .rxBufferInfo i => H.rx i
  | .rxDesc i => H.rxDesc i
  | .xdpRxq i => H.rx i
  | .irq vector => H.irq vector

end Hold

/-- What opening the interface leaves alone. -/
def Adapter.frame (a : Adapter) :
    (TxKind → ℕ) × ℕ × (ℕ → Bool) × Bool × Bool × Bool × Bool × Bool × Bool :=
  (a.numTxQueues, a.numRxQueues, a.serves, a.msixEntries, a.down, a.testing, a.removing, a.answers,
    a.channelOffline)

/-- A call that began with the adapter `s` and holds what `H` says. -/
structure Holds (s : Adapter) (H : Hold) (c : Call) : Prop where
  /-- The resources. -/
  owns : Owns c.uses H.Has
  /-- What is left alone. -/
  frame : c.adapter.frame = s.frame
  /-- The vectors. -/
  vectors : c.adapter.numQVectors = H.vectors
  /-- The rings that transmit are set up. -/
  tx : ∀ kind i, H.tx kind i →
    (c.adapter.txRing kind i).desc = true ∧ (c.adapter.txRing kind i).bufferInfo = true
  /-- The Rx rings are set up. -/
  rx : ∀ i, H.rx i → H.rxDesc i ∧ (c.adapter.rxRing i).desc = true
    ∧ (c.adapter.rxRing i).bufferInfo = true ∧ (c.adapter.rxRing i).xdpRxq = true
  /-- The rings that transmit are empty. -/
  empty : ∀ kind, ∀ i < s.numTxQueues kind,
    (c.adapter.txRing kind i).nextToClean = (c.adapter.txRing kind i).nextToUse
  /-- An Rx ring can be cleaned. -/
  cleans : ∀ i < s.numRxQueues, ∃ q', (c.adapter.rxRing i).queue.cleanRxRing = some q'
    ∧ Returned (s.rxRing i).queue q'
  /-- An Rx ring that is not in use has given its pages back. -/
  idle : ∀ i < s.numRxQueues, ¬ H.busy i → Returned (s.rxRing i).queue (c.adapter.rxRing i).queue
  /-- An Rx ring that is in use is configured. -/
  inUse : ∀ i < s.numRxQueues, H.busy i → (c.adapter.rxRing i).queue.Inv
    ∧ (c.adapter.rxRing i).queue.active = true

namespace Holds

variable {s : Adapter} {H H' : Hold} {c : Call}

/-- The resources that some effects take and give back. -/
def usesOf (es : List Effect) : List (Use Resource) :=
  es.filterMap fun
    | .use u => some u
    | _ => none

/-- What a call has taken and given back after further effects. -/
theorem uses_emit (es : List Effect) (c : Call) :
  (c.emit es).uses = c.uses ++ usesOf es
  := by
  rw [Call.uses, Call.emit, List.filterMap_append]
  rfl

/-- The same may be said in another way. -/
theorem congr (h : Holds s H c) (htx : ∀ kind i, H.tx kind i ↔ H'.tx kind i)
    (hrx : ∀ i, H.rx i ↔ H'.rx i) (hrxDesc : ∀ i, H.rxDesc i ↔ H'.rxDesc i)
    (hirq : ∀ v, H.irq v ↔ H'.irq v) (hbusy : ∀ i, H.busy i ↔ H'.busy i)
    (hvectors : H.vectors = H'.vectors) :
  Holds s H' c
  := by
  have heq : H = H' := by
    cases H
    cases H'
    simp only [Hold.mk.injEq]
    exact ⟨funext₂ fun k i => propext (htx k i), funext fun i => propext (hrx i),
      funext fun i => propext (hrxDesc i), funext fun v => propext (hirq v),
      funext fun i => propext (hbusy i), hvectors⟩
  rw [← heq]
  exact h

/-- A ring that transmits changes. -/
theorem setTx {kind : TxKind} {i : ℕ} {r : TxRing} {es : List Effect} {T : TxKind → ℕ → Prop}
    (h : Holds s H c) (hempty : r.nextToClean = r.nextToUse)
    (howns : Owns (c.uses ++ usesOf es) { H with tx := T }.Has)
    (hT : ∀ k j, T k j → H.tx k j ∨ k = kind ∧ j = i)
    (hflags : T kind i → r.desc = true ∧ r.bufferInfo = true) :
  Holds s { H with tx := T } ((c.setTx kind i r).emit es)
  := by
  have hring (k : TxKind) (j : ℕ) (P : TxRing → Prop) (hr : k = kind → j = i → P r)
      (hc : ¬ (k = kind ∧ j = i) → P (c.adapter.txRing k j)) :
      P (((c.setTx kind i r).emit es).adapter.txRing k j) := by
    simp only [Call.emit, Call.setTx, Function.update_apply]
    split
    next hk =>
      subst hk
      simp only [Function.update_apply]
      split
      next hj => exact hr rfl hj
      next hj => exact hc fun hand => hj hand.2
    next hk => exact hc fun hand => hk hand.1
  constructor
  · rw [uses_emit]
    exact howns
  · exact h.frame
  · exact h.vectors
  · intro k j hTkj
    apply hring k j fun r => r.desc = true ∧ r.bufferInfo = true
    · rintro rfl rfl
      exact hflags hTkj
    · intro hne
      obtain hold | hnew := hT k j hTkj
      · exact h.tx k j hold
      · exact absurd hnew hne
  · exact h.rx
  · intro k j hj
    apply hring k j fun r => r.nextToClean = r.nextToUse
    · exact fun _ _ => hempty
    · exact fun _ => h.empty k j hj
  · exact h.cleans
  · exact h.idle
  · exact h.inUse

/-- An Rx ring changes. -/
theorem setRx {i : ℕ} {r : RxRing} (es : List Effect) {R D B : ℕ → Prop} (h : Holds s H c)
    (howns : Owns (c.uses ++ usesOf es) { H with rx := R, rxDesc := D }.Has)
    (hR : ∀ j, R j → D j ∧ (H.rx j ∨ j = i))
    (hflags : R i → r.desc = true ∧ r.bufferInfo = true ∧ r.xdpRxq = true)
    (hcleans : i < s.numRxQueues → ∃ q', r.queue.cleanRxRing = some q'
      ∧ Returned (s.rxRing i).queue q')
    (hidle : i < s.numRxQueues → ¬ B i → Returned (s.rxRing i).queue r.queue)
    (hB : ∀ j ≠ i, H.busy j ↔ B j)
    (hinUse : i < s.numRxQueues → B i → r.queue.Inv ∧ r.queue.active = true) :
  Holds s { H with rx := R, rxDesc := D, busy := B } ((c.setRx i r).emit es)
  := by
  have hring (j : ℕ) (P : RxRing → Prop) (hr : j = i → P r)
      (hc : j ≠ i → P (c.adapter.rxRing j)) :
      P (((c.setRx i r).emit es).adapter.rxRing j) := by
    simp only [Call.emit, Call.setRx, Function.update_apply]
    split
    next hj => exact hr hj
    next hj => exact hc hj
  constructor
  · rw [uses_emit]
    exact howns.congr fun r => by cases r <;> rfl
  · exact h.frame
  · exact h.vectors
  · exact h.tx
  · intro j hRj
    obtain ⟨hD, hor⟩ := hR j hRj
    refine ⟨hD, ?_⟩
    apply hring j fun r => r.desc = true ∧ r.bufferInfo = true ∧ r.xdpRxq = true
    · rintro rfl
      exact hflags hRj
    · intro hne
      obtain hold | hnew := hor
      · exact (h.rx j hold).2
      · exact absurd hnew hne
  · exact h.empty
  · intro j hj
    apply hring j fun r => ∃ q', r.queue.cleanRxRing = some q' ∧ Returned (s.rxRing j).queue q'
    · rintro rfl
      exact hcleans hj
    · exact fun _ => h.cleans j hj
  · intro j hj hBj
    apply hring j fun r => Returned (s.rxRing j).queue r.queue
    · rintro rfl
      exact hidle hj hBj
    · exact fun hne => h.idle j hj ((hB j hne).not.mpr hBj)
  · intro j hj hBj
    apply hring j fun r => r.queue.Inv ∧ r.queue.active = true
    · rintro rfl
      exact hinUse hj hBj
    · exact fun hne => h.inUse j hj ((hB j hne).mpr hBj)

/-! ### Rings that transmit -/

/-- A ring that transmits is set up. -/
theorem setupTx (kind : TxKind) (i : ℕ) (h : Holds s H c) (hi : i < s.numTxQueues kind)
    (hno : ¬ H.tx kind i) :
  Holds s { H with tx := fun k j => H.tx k j ∨ k = kind ∧ j = i }
    (c.setupTxResources .ok kind i).1
  := by
  show Holds s _ ((c.setTx kind i { c.adapter.txRing kind i with
    bufferInfo := true, desc := true, written := false }).emit
    [.use (.take (.txBufferInfo kind i)), .use (.take (.txDesc kind i))])
  apply h.setTx
  · exact h.empty kind i hi
  · have h₁ := h.owns.take (r := Resource.txBufferInfo kind i) hno
    have h₂ := h₁.take (r := Resource.txDesc kind i) (by simp [Hold.Has, hno])
    rw [List.append_assoc] at h₂
    apply h₂.congr
    intro r
    cases r <;> simp [Hold.Has] <;> tauto
  · exact fun k j hT => hT
  · exact fun _ => ⟨rfl, rfl⟩

/-- A ring that transmits cannot be set up. -/
theorem setupTx_fail {o : TxSetup} {kind : TxKind} {i : ℕ} (h : Holds s H c)
    (hi : i < s.numTxQueues kind) (hno : ¬ H.tx kind i)
    (hfail : (c.setupTxResources o kind i).2 = false) :
  Holds s H (c.setupTxResources o kind i).1
  := by
  have hsame (r : TxRing) (es : List Effect) (hempty : r.nextToClean = r.nextToUse)
      (howns : Owns (c.uses ++ usesOf es) H.Has) : Holds s H ((c.setTx kind i r).emit es) :=
    h.setTx hempty howns (fun k j hT => Or.inl hT) fun hT => absurd hT hno
  cases o with
  | ok => cases hfail
  | bufferInfoFails =>
    have hnil := hsame { c.adapter.txRing kind i with bufferInfo := false } []
      (h.empty kind i hi) (by rw [usesOf, List.filterMap_nil, List.append_nil]; exact h.owns)
    have hemit : (c.setTx kind i { c.adapter.txRing kind i with bufferInfo := false }).emit []
        = c.setTx kind i { c.adapter.txRing kind i with bufferInfo := false } := by
      simp [Call.emit]
    rw [hemit] at hnil
    exact hnil
  | descFails =>
    apply hsame
    · exact h.empty kind i hi
    · have h₁ := h.owns.take (r := Resource.txBufferInfo kind i) hno
      have h₂ := h₁.give (r := Resource.txBufferInfo kind i) (Or.inr rfl)
      rw [List.append_assoc] at h₂
      exact h₂.congr (or_eq_and_ne_iff hno)

/-- A ring that transmits is freed. -/
theorem freeTx (kind : TxKind) (i : ℕ) (h : Holds s H c) (hi : i < s.numTxQueues kind)
    (hheld : H.tx kind i) :
  ∃ c', c.freeTxResources kind i = some c'
    ∧ Holds s { H with tx := fun k j => H.tx k j ∧ ¬ (k = kind ∧ j = i) } c'
  := by
  obtain ⟨hdesc, hinfo⟩ := h.tx kind i hheld
  obtain ⟨r, hr⟩ : ∃ r, r = c.adapter.txRing kind i := ⟨_, rfl⟩
  have hself (r' : TxRing) : (c.setTx kind i r').adapter.txRing kind i = r' := by
    simp [Call.setTx]
  have htwice (r₁ r₂ : TxRing) : (c.setTx kind i r₁).setTx kind i r₂ = c.setTx kind i r₂ := by
    simp [Call.setTx]
  have hfree : c.freeTxResources kind i = some ((c.setTx kind i { r with
      nextToUse := 0, nextToClean := 0, bufferInfo := false, desc := false }).emit
      [.use (.give (.txBufferInfo kind i)), .use (.give (.txDesc kind i))]) := by
    rw [Call.freeTxResources, Call.cleanTxRing]
    simp only [h.empty kind i hi, decide_true, Bool.true_or, if_true, Option.map_some, hself,
      htwice, hdesc, hinfo, hr]
    rfl
  refine ⟨_, hfree, ?_⟩
  apply h.setTx rfl
  · have h₁ := h.owns.give (r := Resource.txBufferInfo kind i) hheld
    have h₂ := h₁.give (r := Resource.txDesc kind i) (by simp [Hold.Has, hheld])
    rw [List.append_assoc] at h₂
    apply h₂.congr
    intro r
    cases r <;> simp [Hold.Has]
  · exact fun k j hT => Or.inl hT.1
  · exact fun hT => absurd ⟨rfl, rfl⟩ hT.2

/-- The loop that sets up the rings of a kind. -/
theorem setupTxRings (txSetup : TxKind → ℕ → TxSetup) (kind : TxKind) {n : ℕ} (h : Holds s H c)
    (hn : n = s.numTxQueues kind) (hno : ∀ i, ¬ H.tx kind i) :
  (∃ c', tryFrom (fun i => Call.setupTxResources (txSetup kind i) kind i) n 0 c = (c', none)
      ∧ Holds s { H with tx := fun k i => H.tx k i ∨ k = kind ∧ i < n } c'
      ∧ ∀ i < n, txSetup kind i = .ok)
    ∨ ∃ j c', tryFrom (fun i => Call.setupTxResources (txSetup kind i) kind i) n 0 c = (c', some j)
      ∧ j < n ∧ Holds s { H with tx := fun k i => H.tx k i ∨ k = kind ∧ i < j } c'
      ∧ txSetup kind j ≠ .ok
  := by
  have hloop := tryFrom_cases (f := fun i => Call.setupTxResources (txSetup kind i) kind i)
    (I := fun j c => Holds s { H with tx := fun k i => H.tx k i ∨ k = kind ∧ i < j } c
      ∧ ∀ i < j, txSetup kind i = .ok) (n := n) (i := 0) (s := c)
  obtain ⟨c', heq, hholds, hok⟩ | ⟨j, c', -, hj, ⟨hholds, -⟩, hfail, heq⟩ := hloop
    ⟨h.congr (by simp) (by simp) (by simp) (by simp) (by simp) rfl, by simp⟩ (by
      rintro j hj c - ⟨hholds, hok⟩ htrue
      have hsetup : txSetup kind j = .ok := by
        cases ho : txSetup kind j with
        | ok => rfl
        | bufferInfoFails =>
          rw [ho] at htrue
          cases htrue
        | descFails =>
          rw [ho] at htrue
          cases htrue
      simp only [hsetup]
      constructor
      · apply (hholds.setupTx kind j (by omega) (by simp [hno])).congr
        · intro k i
          simp only
          constructor
          · rintro ((hT | ⟨rfl, hi⟩) | ⟨rfl, rfl⟩)
            · exact Or.inl hT
            · exact Or.inr ⟨rfl, by omega⟩
            · exact Or.inr ⟨rfl, by omega⟩
          · rintro (hT | ⟨rfl, hi⟩)
            · exact Or.inl (Or.inl hT)
            · by_cases hij : i = j
              · exact Or.inr ⟨rfl, hij⟩
              · exact Or.inl (Or.inr ⟨rfl, by omega⟩)
        all_goals simp
      · intro i hi
        by_cases hij : i = j
        · rw [hij]
          exact hsetup
        · exact hok i (by omega))
  · rw [Nat.zero_add] at hholds hok
    exact Or.inl ⟨c', heq, hholds, hok⟩
  · rw [Nat.zero_add] at hj
    refine Or.inr ⟨j, _, heq, hj, ?_, ?_⟩
    · exact hholds.setupTx_fail (by omega) (by simp [hno]) hfail
    · intro hok
      rw [hok] at hfail
      cases hfail

/-- The loop that frees the rings of a kind again. -/
theorem freeTxDown {kind : TxKind} {n : ℕ} (hn : n ≤ s.numTxQueues kind)
    (hno : ∀ i, ¬ H.tx kind i)
    (h : Holds s { H with tx := fun k i => H.tx k i ∨ k = kind ∧ i < n } c) :
  ∃ c', downFrom (Call.freeTxResources kind) n c = some c' ∧ Holds s H c'
  := by
  obtain ⟨c', heq, hholds⟩ := downFrom_some
    (I := fun j c => Holds s { H with tx := fun k i => H.tx k i ∨ k = kind ∧ i < j } c) h (by
      intro j hj c hc
      obtain ⟨c', heq, hholds⟩ := hc.freeTx kind j (by omega)
        (Or.inr ⟨rfl, by omega⟩)
      refine ⟨c', heq, ?_⟩
      apply hholds.congr
      · intro k i
        simp only
        constructor
        · rintro ⟨hT | ⟨rfl, hi⟩, hne⟩
          · exact Or.inl hT
          · have hij : i ≠ j := fun hij => hne ⟨rfl, hij⟩
            exact Or.inr ⟨rfl, by omega⟩
        · rintro (hT | ⟨rfl, hi⟩)
          · refine ⟨Or.inl hT, ?_⟩
            rintro ⟨rfl, rfl⟩
            exact hno _ hT
          · exact ⟨Or.inr ⟨rfl, by omega⟩, fun hand => absurd hand.2 (by omega)⟩
      all_goals simp)
  exact ⟨c', heq, hholds.congr (by simp) (by simp) (by simp) (by simp) (by simp) rfl⟩

/-- The loop over the rings of a kind in `ixgbevf_free_all_tx_resources`. -/
theorem freeTxRings (kind : TxKind) {n : ℕ} (hn : n = s.numTxQueues kind)
    (hno : ∀ i, ¬ H.tx kind i)
    (h : Holds s { H with tx := fun k i => H.tx k i ∨ k = kind ∧ i < n } c) :
  ∃ c', c.freeTxRings kind = some c' ∧ Holds s H c'
  := by
  have hnum : c.adapter.numTxQueues = s.numTxQueues := congrArg (·.1) h.frame
  obtain ⟨c', heq, hholds⟩ := upFrom_some (n := n) (i := 0)
    (f := fun i c => if (c.adapter.txRing kind i).desc then c.freeTxResources kind i else some c)
    (I := fun j c => Holds s { H with tx := fun k i => H.tx k i ∨ k = kind ∧ j ≤ i ∧ i < n } c)
    (h.congr (by simp) (by simp) (by simp) (by simp) (by simp) rfl) (by
      intro j hj c _ hc
      have hheld : H.tx kind j ∨ kind = kind ∧ j ≤ j ∧ j < n := Or.inr ⟨rfl, le_rfl, by omega⟩
      obtain ⟨c', heq, hholds⟩ := hc.freeTx kind j (by omega) hheld
      refine ⟨c', ?_, ?_⟩
      · rw [if_pos (hc.tx kind j hheld).1]
        exact heq
      apply hholds.congr
      · intro k i
        simp only
        constructor
        · rintro ⟨hT | ⟨rfl, hi⟩, hne⟩
          · exact Or.inl hT
          · have hij : i ≠ j := fun hij => hne ⟨rfl, hij⟩
            exact Or.inr ⟨rfl, by omega⟩
        · rintro (hT | ⟨rfl, hi⟩)
          · refine ⟨Or.inl hT, ?_⟩
            rintro ⟨rfl, rfl⟩
            exact hno _ hT
          · exact ⟨Or.inr ⟨rfl, by omega⟩, fun hand => absurd hand.2 (by omega)⟩
      all_goals simp)
  refine ⟨c', ?_, ?_⟩
  · rw [Call.freeTxRings, hnum, ← hn]
    exact heq
  · apply hholds.congr
    · intro k i
      simp only [Nat.zero_add, or_iff_left_iff_imp]
      omega
    all_goals simp

/-- `ixgbevf_setup_all_tx_resources`, which leaves nothing behind when it fails. -/
theorem setupAllTx (txSetup : TxKind → ℕ → TxSetup) (h : Holds s H c)
    (hno : ∀ kind i, ¬ H.tx kind i) :
  (∃ c', c.setupAllTxResources txSetup = some (c', true)
      ∧ Holds s { H with tx := fun kind i => i < s.numTxQueues kind } c'
      ∧ ∀ kind, ∀ i < s.numTxQueues kind, txSetup kind i = .ok)
    ∨ ∃ c', c.setupAllTxResources txSetup = some (c', false) ∧ Holds s H c'
      ∧ ∃ kind, ∃ i < s.numTxQueues kind, txSetup kind i ≠ .ok
  := by
  have hnum {c : Call} {H : Hold} (h : Holds s H c) : c.adapter.numTxQueues = s.numTxQueues :=
    congrArg (·.1) h.frame
  rw [Call.setupAllTxResources, hnum h]
  obtain ⟨c₁, heq₁, h₁, hok₁⟩ | ⟨i, c₁, heq₁, hi, h₁, hfail⟩ :=
    h.setupTxRings txSetup .tx rfl (hno .tx)
  · simp only [heq₁, hnum h₁]
    have hno₁ (i : ℕ) : ¬ (H.tx .xdp i ∨ TxKind.xdp = .tx ∧ i < s.numTxQueues .tx) := by
      simp [hno]
    obtain ⟨c₂, heq₂, h₂, hok₂⟩ | ⟨j, c₂, heq₂, hj, h₂, hfail⟩ :=
      h₁.setupTxRings txSetup .xdp rfl hno₁
    · refine Or.inl ⟨c₂, by rw [heq₂], ?_, ?_⟩
      · apply h₂.congr
        · intro kind i
          cases kind <;> simp [hno]
        all_goals simp
      · intro kind i hi
        cases kind with
        | tx => exact hok₁ i hi
        | xdp => exact hok₂ i hi
    · obtain ⟨c₃, heq₃, h₃⟩ := h₂.freeTxDown hj.le hno₁
      obtain ⟨c₄, heq₄, h₄⟩ := h₃.freeTxDown le_rfl (hno .tx)
      refine Or.inr ⟨c₄, ?_, h₄, .xdp, j, hj, hfail⟩
      simp only [heq₂, hnum h₂, heq₃, Option.bind_some, heq₄, Option.map_some]
  · obtain ⟨c₂, heq₂, h₂⟩ := h₁.freeTxDown hi.le (hno .tx)
    refine Or.inr ⟨c₂, ?_, h₂, .tx, i, hi, hfail⟩
    simp only [heq₁, heq₂, Option.map_some]

/-- `ixgbevf_free_all_tx_resources`. -/
theorem freeAllTx (h : Holds s { H with tx := fun kind i => i < s.numTxQueues kind } c) :
  ∃ c', c.freeAllTxResources = some c' ∧ Holds s { H with tx := fun _ _ => False } c'
  := by
  obtain ⟨c₁, heq₁, h₁⟩ := freeTxRings .tx (n := s.numTxQueues .tx)
    (H := { H with tx := fun kind i => kind = .xdp ∧ i < s.numTxQueues kind }) rfl (by simp)
    (h.congr (by
      intro kind i
      cases kind <;> simp) (by simp) (by simp) (by simp) (by simp) rfl)
  obtain ⟨c₂, heq₂, h₂⟩ := freeTxRings .xdp (n := s.numTxQueues .xdp)
    (H := { H with tx := fun _ _ => False }) rfl (by simp)
    (h₁.congr (by
      intro kind i
      cases kind <;> simp) (by simp) (by simp) (by simp) (by simp) rfl)
  refine ⟨c₂, ?_, h₂⟩
  rw [Call.freeAllTxResources, heq₁, Option.bind_some, heq₂]

/-! ### Rx rings -/

/-- An Rx ring is set up. -/
theorem setupRx {i : ℕ} (h : Holds s H c) (hno : ¬ H.rx i) (hnoDesc : ¬ H.rxDesc i) :
  Holds s { H with rx := fun j => H.rx j ∨ j = i, rxDesc := fun j => H.rxDesc j ∨ j = i }
    (c.setupRxResources .ok i).1
  := by
  show Holds s _ ((c.setRx i { c.adapter.rxRing i with
    bufferInfo := true, desc := true, xdpRxq := true }).emit
    [.use (.take (.rxBufferInfo i)), .use (.take (.rxDesc i)), .use (.take (.xdpRxq i))])
  apply h.setRx (B := H.busy)
  · have h₁ := h.owns.take (r := Resource.rxBufferInfo i) hno
    have h₂ := h₁.take (r := Resource.rxDesc i) (by simp [Hold.Has, hnoDesc])
    have h₃ := h₂.take (r := Resource.xdpRxq i) (by simp [Hold.Has, hno])
    rw [List.append_assoc, List.append_assoc] at h₃
    apply h₃.congr
    intro r
    cases r <;> simp [Hold.Has] <;> tauto
  · rintro j (hj | hj)
    · exact ⟨Or.inl (h.rx j hj).1, Or.inl hj⟩
    · exact ⟨Or.inr hj, Or.inr hj⟩
  · exact fun _ => ⟨rfl, rfl, rfl⟩
  · exact h.cleans i
  · exact h.idle i
  · exact fun j _ => Iff.rfl
  · exact h.inUse i

/-- An Rx ring cannot be set up: what it took is given back, but for the descriptors where the
registration failed. -/
theorem setupRx_fail {o : RxSetup} {i : ℕ} (h : Holds s H c) (hno : ¬ H.rx i)
    (hnoDesc : ¬ H.rxDesc i) (hfail : (c.setupRxResources o i).2 = false) :
  Holds s { H with rxDesc := fun j => H.rxDesc j ∨ o = .rxqRegFails ∧ j = i }
    (c.setupRxResources o i).1
  := by
  have hsame (r : RxRing) (es : List Effect) (D : ℕ → Prop)
      (hr : r.queue = (c.adapter.rxRing i).queue) (hD : ∀ j, H.rxDesc j → D j)
      (howns : Owns (c.uses ++ usesOf es) { H with rxDesc := D }.Has) :
      Holds s { H with rxDesc := D } ((c.setRx i r).emit es) := by
    apply h.setRx (R := H.rx) (B := H.busy) es howns
    · exact fun j hj => ⟨hD j (h.rx j hj).1, Or.inl hj⟩
    · exact fun hi => absurd hi hno
    · rw [hr]
      exact h.cleans i
    · rw [hr]
      exact h.idle i
    · exact fun j _ => Iff.rfl
    · rw [hr]
      exact h.inUse i
  have htake := h.owns.take (r := Resource.rxBufferInfo i) hno
  cases o with
  | ok => cases hfail
  | bufferInfoFails =>
    have hnil := hsame { c.adapter.rxRing i with bufferInfo := false } []
      (fun j => H.rxDesc j ∨ RxSetup.bufferInfoFails = .rxqRegFails ∧ j = i) rfl
      (fun j hj => Or.inl hj) (by
        rw [usesOf, List.filterMap_nil, List.append_nil]
        apply h.owns.congr
        intro r
        cases r <;> simp [Hold.Has])
    have hemit : (c.setRx i { c.adapter.rxRing i with bufferInfo := false }).emit []
        = c.setRx i { c.adapter.rxRing i with bufferInfo := false } := by
      simp [Call.emit]
    rw [hemit] at hnil
    exact hnil
  | descFails =>
    have h₂ := htake.give (r := Resource.rxBufferInfo i) (Or.inr rfl)
    rw [List.append_assoc] at h₂
    refine hsame _ _ _ rfl (fun j hj => Or.inl hj) (h₂.congr fun r => ?_)
    cases r <;> simp [Hold.Has]
    exact or_eq_and_ne_iff hno _
  | rxqRegFails =>
    have h₂ := htake.take (r := Resource.rxDesc i) (by simp [Hold.Has, hnoDesc])
    have h₃ := h₂.give (r := Resource.rxBufferInfo i) (Or.inl (Or.inr rfl))
    rw [List.append_assoc, List.append_assoc] at h₃
    refine hsame _ _ _ rfl (fun j hj => Or.inl hj) (h₃.congr fun r => ?_)
    cases r <;> simp [Hold.Has]
    exact or_eq_and_ne_iff hno _

/-- An Rx ring is freed. -/
theorem freeRx {i : ℕ} (h : Holds s H c) (hi : i < s.numRxQueues) (hheld : H.rx i) :
  ∃ c', c.freeRxResources i = some c'
    ∧ Holds s { H with
        rx := fun j => H.rx j ∧ j ≠ i
        rxDesc := fun j => H.rxDesc j ∧ j ≠ i
        busy := fun j => H.busy j ∧ j ≠ i } c'
  := by
  obtain ⟨hheldDesc, hdesc, hinfo, hrxq⟩ := h.rx i hheld
  obtain ⟨q', hclean, hreturned⟩ := h.cleans i hi
  obtain ⟨es, hes⟩ : ∃ es, es = (if (c.adapter.rxRing i).queue.ring.nextToClean
      = (c.adapter.rxRing i).queue.ring.nextToAlloc then [] else [Effect.clean i]) := ⟨_, rfl⟩
  have hfree : c.freeRxResources i = some ((c.setRx i { c.adapter.rxRing i with
      queue := q', bufferInfo := false, desc := false, xdpRxq := false }).emit
      (es ++ [.use (.give (.xdpRxq i)), .use (.give (.rxBufferInfo i)),
        .use (.give (.rxDesc i))])) := by
    rw [Call.freeRxResources, Call.cleanRxRing]
    simp only [hclean, Option.map_some, ← hes]
    have hself (r' : RxRing) (es : List Effect) :
        ((c.setRx i r').emit es).adapter.rxRing i = r' := by
      simp [Call.setRx, Call.emit]
    have htwice (r₁ r₂ : RxRing) (es₁ es₂ : List Effect) :
        (((c.setRx i r₁).emit es₁).setRx i r₂).emit es₂ = (c.setRx i r₂).emit (es₁ ++ es₂) := by
      simp [Call.setRx, Call.emit]
    simp only [hself, htwice, hdesc, hinfo, hrxq, if_true]
    rfl
  refine ⟨_, hfree, ?_⟩
  have huses : usesOf (es ++ [.use (.give (.xdpRxq i)), .use (.give (.rxBufferInfo i)),
      .use (.give (.rxDesc i))])
      = [.give (.xdpRxq i), .give (.rxBufferInfo i), .give (.rxDesc i)] := by
    rw [hes]
    split <;> rfl
  apply h.setRx
  · rw [huses]
    have h₁ := h.owns.give (r := Resource.xdpRxq i) hheld
    have h₂ := h₁.give (r := Resource.rxBufferInfo i) (by simp [Hold.Has, hheld])
    have h₃ := h₂.give (r := Resource.rxDesc i) (by simp [Hold.Has, hheldDesc])
    rw [List.append_assoc, List.append_assoc] at h₃
    apply h₃.congr
    intro r
    cases r <;> simp [Hold.Has]
  · exact fun j hj => ⟨⟨(h.rx j hj.1).1, hj.2⟩, Or.inl hj.1⟩
  · exact fun hi => absurd rfl hi.2
  · exact fun _ => ⟨q', clean_idle hreturned.inv hreturned.active, hreturned⟩
  · exact fun _ _ => hreturned
  · exact fun j hne => ⟨fun hj => ⟨hj, hne⟩, fun hj => hj.1⟩
  · exact fun _ hB => absurd rfl hB.2

/-- `ixgbevf_setup_all_rx_resources`, which leaves nothing behind when it fails but the
descriptors of a ring whose registration failed. -/
theorem setupAllRx (rxSetup : ℕ → RxSetup) (h : Holds s H c) (hno : ∀ i, ¬ H.rx i)
    (hnoDesc : ∀ i, ¬ H.rxDesc i) (hidle : ∀ i, ¬ H.busy i) :
  (∃ c', c.setupAllRxResources rxSetup = some (c', true)
      ∧ Holds s { H with rx := (· < s.numRxQueues), rxDesc := (· < s.numRxQueues) } c'
      ∧ ∀ i < s.numRxQueues, rxSetup i = .ok)
    ∨ ∃ j c', c.setupAllRxResources rxSetup = some (c', false) ∧ j < s.numRxQueues
      ∧ Holds s { H with rxDesc := fun i => rxSetup j = .rxqRegFails ∧ i = j } c'
      ∧ rxSetup j ≠ .ok ∧ ∀ i < j, rxSetup i = .ok
  := by
  have hnum : c.adapter.numRxQueues = s.numRxQueues := congrArg (·.2.1) h.frame
  have hloop := tryFrom_cases (f := fun i => Call.setupRxResources (rxSetup i) i)
    (I := fun j c => Holds s { H with rx := (· < j), rxDesc := (· < j) } c
      ∧ ∀ i < j, rxSetup i = .ok) (n := s.numRxQueues) (i := 0) (s := c)
  rw [Call.setupAllRxResources, hnum]
  obtain ⟨c₁, heq₁, h₁, hok₁⟩ | ⟨j, c₁, -, hj, ⟨h₁, hok₁⟩, hfail, heq₁⟩ := hloop
    ⟨h.congr (by simp) (by simp [hno]) (by simp [hnoDesc]) (by simp) (by simp) rfl, by simp⟩ (by
      rintro j hj c - ⟨hholds, hok⟩ htrue
      have hsetup : rxSetup j = .ok := by
        cases ho : rxSetup j with
        | ok => rfl
        | _ =>
          rw [ho] at htrue
          cases htrue
      simp only [hsetup]
      constructor
      · apply (hholds.setupRx (i := j) (by simp) (by simp)).congr
        · simp
        · exact fun i => Nat.lt_succ_iff_lt_or_eq.symm
        · exact fun i => Nat.lt_succ_iff_lt_or_eq.symm
        all_goals simp
      · intro i hi
        obtain hlt | heq := Nat.lt_succ_iff_lt_or_eq.mp hi
        · exact hok i hlt
        · rw [heq]
          exact hsetup)
  · rw [Nat.zero_add] at h₁ hok₁
    exact Or.inl ⟨c₁, by rw [heq₁], h₁, hok₁⟩
  · rw [Nat.zero_add] at hj
    have h₂ := h₁.setupRx_fail (o := rxSetup j) (by simp) (by simp) hfail
    obtain ⟨c₃, heq₃, h₃⟩ := downFrom_some
      (f := Call.freeRxResources)
      (I := fun k c => Holds s { H with
        rx := (· < k), rxDesc := fun i => i < k ∨ rxSetup j = .rxqRegFails ∧ i = j } c) h₂ (by
        intro k hk c hc
        obtain ⟨c', heq, hholds⟩ := hc.freeRx (i := k) (by omega) (Nat.lt_succ_self k)
        refine ⟨c', heq, ?_⟩
        apply hholds.congr
        · simp
        · intro i
          simp only
          omega
        · intro i
          simp only
          constructor
          · rintro ⟨hi | hi, hne⟩
            · exact Or.inl (by omega)
            · exact Or.inr hi
          · rintro (hi | hi)
            · exact ⟨Or.inl (by omega), by omega⟩
            · exact ⟨Or.inr hi, by omega⟩
        · simp
        · simp [hidle]
        · rfl)
    refine Or.inr ⟨j, c₃, ?_, hj, ?_, ?_, hok₁⟩
    · simp only [heq₁, heq₃, Option.map_some]
    · exact h₃.congr (by simp) (by simp [hno]) (by simp) (by simp) (by simp) rfl
    · intro hok
      rw [hok] at hfail
      cases hfail

/-- `ixgbevf_free_all_rx_resources`. -/
theorem freeAllRx (h : Holds s { H with
    rx := (· < s.numRxQueues), rxDesc := (· < s.numRxQueues), busy := (· < s.numRxQueues) } c) :
  ∃ c', c.freeAllRxResources = some c' ∧ Holds s { H with
    rx := fun _ => False, rxDesc := fun _ => False, busy := fun _ => False } c'
  := by
  have hnum : c.adapter.numRxQueues = s.numRxQueues := congrArg (·.2.1) h.frame
  have hwindow {P : ℕ → Prop} (hP : ∀ i, P i ↔ i < s.numRxQueues) (i : ℕ) :
      P i ↔ 0 ≤ i ∧ i < s.numRxQueues := by simp [hP]
  obtain ⟨c', heq, hholds⟩ := upFrom_some (n := s.numRxQueues) (i := 0)
    (f := fun i c => if (c.adapter.rxRing i).desc then c.freeRxResources i else some c)
    (I := fun j c => Holds s { H with
      rx := fun i => j ≤ i ∧ i < s.numRxQueues
      rxDesc := fun i => j ≤ i ∧ i < s.numRxQueues
      busy := fun i => j ≤ i ∧ i < s.numRxQueues } c)
    (h.congr (by simp) (by simp) (by simp) (by simp) (by simp) rfl) (by
      intro j hj c _ hc
      have hheld : j ≤ j ∧ j < s.numRxQueues := ⟨le_rfl, by omega⟩
      obtain ⟨c', heq, hholds⟩ := hc.freeRx (i := j) (by omega) hheld
      refine ⟨c', ?_, ?_⟩
      · rw [if_pos (hc.rx j hheld).2.1]
        exact heq
      have hnext (i : ℕ) : (j ≤ i ∧ i < s.numRxQueues) ∧ i ≠ j
          ↔ j + 1 ≤ i ∧ i < s.numRxQueues := by omega
      exact hholds.congr (by simp) hnext hnext (by simp) hnext rfl)
  have hnone (i : ℕ) : 0 + s.numRxQueues ≤ i ∧ i < s.numRxQueues ↔ False := by
    simp only [Nat.zero_add, iff_false]
    omega
  refine ⟨c', ?_, hholds.congr (by simp) hnone hnone (by simp) hnone rfl⟩
  rw [Call.freeAllRxResources, hnum]
  exact heq

/-! ### The registers -/

/-- What is told the hardware takes and gives back nothing. -/
theorem regs (hwAddr adapterStopped : Bool) (es : List Effect) (h : Holds s H c)
    (hes : usesOf es = []) :
  Holds s H { adapter := { c.adapter with hwAddr := hwAddr, adapterStopped := adapterStopped }
              effects := c.effects ++ es }
  := by
  constructor
  · have huses : (c.emit es).uses = c.uses := by rw [uses_emit, hes, List.append_nil]
    have howns := h.owns
    rw [← huses] at howns
    exact howns
  · exact h.frame
  · exact h.vectors
  · exact h.tx
  · exact h.rx
  · exact h.empty
  · exact h.cleans
  · exact h.idle
  · exact h.inUse

/-- A register is written. -/
theorem writeReg {e : Effect} (h : Holds s H c) (he : usesOf [e] = []) :
  Holds s H (c.writeReg e)
  := by
  have hgone := h.regs false c.adapter.adapterStopped [.removed] rfl
  rw [Call.writeReg, Call.readReg]
  cases hhw : c.adapter.hwAddr with
  | false => exact h
  | true =>
    cases hans : c.adapter.answers with
    | false => exact hgone
    | true => exact h.regs c.adapter.hwAddr c.adapter.adapterStopped [e] he

/-- `ixgbevf_reset`. -/
theorem reset {resets : Bool} (h : Holds s H c) :
  Holds s H (c.reset resets)
  := by
  have hstop := h.regs c.adapter.hwAddr true [] rfl
  rw [List.append_nil] at hstop
  have hwrite := hstop.writeReg (e := .reset) rfl
  have hstart := hwrite.regs (Call.writeReg .reset { c with
    adapter := { c.adapter with adapterStopped := true } }).adapter.hwAddr false [] rfl
  rw [List.append_nil] at hstart
  rw [Call.reset]
  split
  · exact h
  · simp only
    split
    · exact hstart
    · exact hwrite

/-! ### Configuring the rings -/

/-- `ixgbevf_configure_tx` for the rings of a kind. -/
theorem configureTx (kind : TxKind) {n : ℕ} (h : Holds s H c) (hn : n = s.numTxQueues kind)
    (hheld : ∀ i < n, H.tx kind i) :
  ∃ c', upFrom (Call.configureTxRing kind) n 0 c = some c' ∧ Holds s H c'
  := by
  obtain ⟨c', heq, hholds⟩ := upFrom_some (f := Call.configureTxRing kind) (n := n) (i := 0)
    (I := fun _ c => Holds s H c) h (by
      intro j hj c _ hc
      obtain ⟨hdesc, hinfo⟩ := hc.tx kind j (hheld j (by omega))
      refine ⟨_, if_pos hinfo, ?_⟩
      have hset : Holds s H ((c.setTx kind j { c.adapter.txRing kind j with
          written := true, nextToUse := 0, nextToClean := 0 }).emit []) := hc.setTx (T := H.tx) rfl
        (by rw [usesOf, List.filterMap_nil, List.append_nil]; exact hc.owns)
        (fun k i hT => Or.inl hT) fun _ => ⟨hdesc, hinfo⟩
      rw [Call.emit, List.append_nil] at hset
      exact hset)
  exact ⟨c', heq, hholds⟩

/-- `ixgbevf_configure`. -/
theorem configure (K : KernelConfig) (env : ConfigEnv) (h : Holds s H c)
    (htx : ∀ kind, ∀ i < s.numTxQueues kind, H.tx kind i) (hrx : ∀ i < s.numRxQueues, H.rx i)
    (hidle : ∀ i, ¬ H.busy i) :
  ∃ c', c.configure K env = some c' ∧ Holds s { H with busy := (· < s.numRxQueues) } c'
  := by
  have hnum {c : Call} {H : Hold} (h : Holds s H c) :
      c.adapter.numTxQueues = s.numTxQueues ∧ c.adapter.numRxQueues = s.numRxQueues :=
    ⟨congrArg (·.1) h.frame, congrArg (·.2.1) h.frame⟩
  obtain ⟨c₁, heq₁, h₁⟩ := h.configureTx .tx rfl (htx .tx)
  obtain ⟨c₂, heq₂, h₂⟩ := h₁.configureTx .xdp rfl (htx .xdp)
  have hhash : Holds s H (c₂.writeReg .hash) := h₂.writeReg rfl
  obtain ⟨c₃, heq₃, h₃⟩ := upFrom_some (f := Call.configureRxRing K env) (n := s.numRxQueues) (i := 0)
    (I := fun j c => Holds s { H with busy := (· < j) } c)
    (hhash.congr (by simp) (by simp) (by simp) (by simp) (by simp [hidle]) rfl) (by
      intro j hj c _ hc
      rw [Nat.zero_add] at hj
      obtain ⟨hD, hdesc, hinfo, hrxq⟩ := hc.rx j (hrx j hj)
      refine ⟨_, if_pos hinfo, ?_⟩
      have hregs := (hc.writeReg (e := .disable j) rfl).writeReg (e := .enable j) rfl
      -- the ring has not been in use, and cleaning it gives the pages back
      have hreturned := hc.idle j hj (Nat.lt_irrefl j)
      obtain ⟨q', hclean, hconfigured, hinUse⟩ := configure_clean K (env.flags j)
        (env.pages j) hreturned.inv hreturned.active
      have hset := setRx [] hregs (i := j) (R := H.rx) (D := H.rxDesc) (B := (· < j + 1))
        (r := { c.adapter.rxRing j with queue :=
          (c.adapter.rxRing j).queue.configureRxRing K (env.flags j) (env.pages j) })
        (by
          rw [usesOf, List.filterMap_nil, List.append_nil]
          exact hregs.owns)
        (fun i hi => ⟨(hc.rx i hi).1, Or.inl hi⟩) (fun _ => ⟨hdesc, hinfo, hrxq⟩)
        (fun _ => ⟨q', hclean, hreturned.trans hconfigured⟩) (fun _ hno => absurd j.lt_succ_self hno)
        (fun i hne => by simp only; omega) (fun _ _ => hinUse)
      rw [Call.emit, List.append_nil] at hset
      exact hset)
  refine ⟨c₃, ?_, ?_⟩
  · simp only [Call.configure, Call.configureRx, Option.bind_eq_bind, (hnum h).1, heq₁,
      Option.bind_some, (hnum h₁).1, heq₂, (hnum hhash).2, heq₃]
  · rw [Nat.zero_add] at h₃
    exact h₃

/-! ### The interrupts -/

/-- Interrupts are taken or given back. -/
theorem emitIrq {es : List Effect} {V : ℕ → Prop} (h : Holds s H c)
    (howns : Owns (c.uses ++ usesOf es) { H with irq := V }.Has) :
  Holds s { H with irq := V } (c.emit es)
  := by
  constructor
  · rw [uses_emit]
    exact howns
  · exact h.frame
  · exact h.vectors
  · exact h.tx
  · exact h.rx
  · exact h.empty
  · exact h.cleans
  · exact h.idle
  · exact h.inUse

/-- An interrupt is requested. -/
theorem takeIrq {v : ℕ} (h : Holds s H c) (hno : ¬ H.irq v) :
  Holds s { H with irq := fun w => H.irq w ∨ w = v } (c.emit [.use (.take (.irq v))])
  := by
  apply h.emitIrq
  apply (h.owns.take (r := Resource.irq v) hno).congr
  intro r
  cases r <;> simp [Hold.Has]

/-- An interrupt is freed. -/
theorem giveIrq {v : ℕ} (h : Holds s H c) (hheld : H.irq v) :
  Holds s { H with irq := fun w => H.irq w ∧ w ≠ v } (c.emit [.use (.give (.irq v))])
  := by
  apply h.emitIrq
  apply (h.owns.give (r := Resource.irq v) hheld).congr
  intro r
  cases r <;> simp [Hold.Has]

/-- What is left alone. -/
theorem frame_irqs (h : Holds s H c) :
  c.adapter.serves = s.serves ∧ c.adapter.msixEntries = s.msixEntries
  := ⟨congrArg (·.2.2.1) h.frame, congrArg (·.2.2.2.1) h.frame⟩

/-- The interrupts below one are held, and that one is requested. -/
theorem takeNext {v : ℕ} (h : Holds s { H with irq := (· < v) } c) :
  Holds s { H with irq := (· < v + 1) } (c.emit [.use (.take (.irq v))])
  := by
  apply (h.takeIrq (Nat.lt_irrefl v)).congr
  · simp
  · simp
  · simp
  · exact fun w => Nat.lt_succ_iff_lt_or_eq.symm
  · simp
  · rfl

/-- The interrupts below one are given back, and no vector counts any more. -/
theorem freeQueueIrqs {v : ℕ} (h : Holds s { H with irq := (· < v) } c) (hno : ∀ w, ¬ H.irq w) :
  ∃ c', c.freeQueueIrqs v = some (c', false) ∧ Holds s { H with vectors := 0 } c'
  := by
  obtain ⟨c', heq, hholds⟩ := downFrom_some
    (f := fun vector c => some (c.emit [.use (.give (.irq vector))]))
    (I := fun w c => Holds s { H with irq := (· < w) } c) h (by
      intro w hw c hc
      refine ⟨_, rfl, ?_⟩
      apply (hc.giveIrq (Nat.lt_succ_self w)).congr
      · simp
      · simp
      · simp
      · intro x
        simp only
        omega
      · simp
      · rfl)
  refine ⟨_, by rw [Call.freeQueueIrqs, heq]; rfl, ?_⟩
  have hnone : Holds s H c' :=
    hholds.congr (by simp) (by simp) (by simp) (by simp [hno]) (by simp) rfl
  exact ⟨hnone.owns, hnone.frame, rfl, hnone.tx, hnone.rx, hnone.empty, hnone.cleans, hnone.idle,
    hnone.inUse⟩

/-- The loop over the vectors that have a ring. -/
theorem requestQueueIrqs (fails : ℕ → Bool) (h : Holds s H c) (hno : ∀ v, ¬ H.irq v)
    (hserves : ∀ v < H.vectors, s.serves v = true) :
  ∃ v c' failed, c.requestQueueIrqs fails = (c', failed) ∧ Holds s { H with irq := (· < v) } c'
    ∧ (failed = none ∧ v = H.vectors ∨ failed = some v)
  := by
  have hloop := tryFrom_cases (f := fun vector (c : Call) =>
      if c.adapter.serves vector then c.requestVector fails vector else (c, true))
    (I := fun v c => Holds s { H with irq := (· < v) } c) (n := H.vectors) (i := 0) (s := c)
  rw [Call.requestQueueIrqs, h.vectors]
  obtain ⟨c₁, heq₁, h₁⟩ | ⟨v, c₁, -, hv, h₁, hfail, heq₁⟩ := hloop
    (h.congr (by simp) (by simp) (by simp) (by simp [hno]) (by simp) rfl) (by
      intro v hv c _ hc htrue
      simp only [hc.frame_irqs.1, hserves v (by omega), if_true, Call.requestVector] at htrue ⊢
      split at htrue
      · cases htrue
      next hok =>
        rw [if_neg hok]
        exact hc.takeNext)
  · rw [Nat.zero_add] at h₁
    exact ⟨H.vectors, c₁, none, heq₁, h₁, Or.inl ⟨rfl, rfl⟩⟩
  · simp only [h₁.frame_irqs.1, hserves v (by omega), if_true, Call.requestVector] at hfail heq₁
    split at hfail
    next hv =>
      rw [if_pos hv] at heq₁
      exact ⟨v, c₁, some v, heq₁, h₁, Or.inr rfl⟩
    · cases hfail

/-- `ixgbevf_request_irq`, which leaves nothing behind when it fails. -/
theorem requestIrq (fails : ℕ → Bool) (h : Holds s H c) (hno : ∀ v, ¬ H.irq v)
    (hmsix : s.msixEntries = true) (hserves : ∀ v < H.vectors, s.serves v = true) :
  (∃ c', c.requestIrq fails = some (c', true)
      ∧ Holds s { H with irq := (· ≤ H.vectors) } c' ∧ c'.adapter.irqsReady = true)
    ∨ ∃ c', c.requestIrq fails = some (c', false) ∧ Holds s { H with vectors := 0 } c'
  := by
  rw [Call.requestIrq, h.frame_irqs.2, hmsix, if_neg (by simp)]
  obtain ⟨v, c₁, failed, heq₁, h₁, ⟨rfl, rfl⟩ | rfl⟩ := h.requestQueueIrqs fails hno hserves
  · simp only [heq₁]
    have hvectors : c₁.adapter.numQVectors = H.vectors := h₁.vectors
    cases hf : fails H.vectors with
    | false =>
      have h₂ : Holds s { H with irq := (· ≤ H.vectors) }
          (c₁.emit [.use (.take (.irq H.vectors))]) :=
        h₁.takeNext.congr (by simp) (by simp) (by simp) (fun w => Nat.lt_succ_iff) (by simp) rfl
      refine Or.inl ⟨{ adapter := { c₁.adapter with irqsReady := true }
                       effects := c₁.effects ++ [.use (.take (.irq H.vectors))] }, ?_, ?_, rfl⟩
      · rw [hvectors, Call.requestVector, hf]
        rfl
      · exact ⟨h₂.owns, h₂.frame, h₂.vectors, h₂.tx, h₂.rx, h₂.empty, h₂.cleans, h₂.idle,
          h₂.inUse⟩
    | true =>
      obtain ⟨c₂, heq₂, h₂⟩ := h₁.freeQueueIrqs hno
      refine Or.inr ⟨c₂, ?_, h₂⟩
      rw [hvectors, Call.requestVector, hf]
      simp only [if_true, hvectors, heq₂]
  · simp only [heq₁]
    exact Or.inr (h₁.freeQueueIrqs hno)

/-- `ixgbevf_free_irq` after the interrupts have been requested. -/
theorem freeIrq (h : Holds s { H with irq := (· ≤ H.vectors) } c) (hmsix : s.msixEntries = true)
    (hready : c.adapter.irqsReady = true) (hserves : ∀ v < H.vectors, s.serves v = true) :
  ∃ c', c.freeIrq = some c' ∧ Holds s { H with irq := fun _ => False } c'
  := by
  have hvectors : c.adapter.numQVectors = H.vectors := h.vectors
  have h₀ : Holds s { H with irq := fun w => 0 ≤ w ∧ w ≤ H.vectors }
      { c with adapter := { c.adapter with irqsReady := false } } := by
    have h' : Holds s { H with irq := fun w => 0 ≤ w ∧ w ≤ H.vectors } c :=
      h.congr (by simp) (by simp) (by simp) (by simp) (by simp) rfl
    exact ⟨h'.owns, h'.frame, h'.vectors, h'.tx, h'.rx, h'.empty, h'.cleans, h'.idle, h'.inUse⟩
  obtain ⟨c₁, heq₁, h₁⟩ := upFrom_some (n := c.adapter.numQVectors) (i := 0)
    (f := fun vector c =>
      some (if c.adapter.serves vector then c.emit [.use (.give (.irq vector))] else c))
    (I := fun v c => Holds s { H with irq := fun w => v ≤ w ∧ w ≤ H.vectors } c) h₀ (by
      intro v hv c _ hc
      rw [Nat.zero_add, hvectors] at hv
      refine ⟨_, rfl, ?_⟩
      rw [hc.frame_irqs.1, hserves v hv, if_pos rfl]
      apply (hc.giveIrq (v := v) ⟨le_rfl, hv.le⟩).congr
      · simp
      · simp
      · simp
      · intro w
        simp only
        omega
      all_goals simp)
  rw [Nat.zero_add, hvectors] at h₁
  have hvectors₁ : c₁.adapter.numQVectors = H.vectors := h₁.vectors
  have h₂ := h₁.giveIrq (v := H.vectors) ⟨le_rfl, le_rfl⟩
  refine ⟨_, ?_, h₂.congr (by simp) (by simp) (by simp) ?_ (by simp) rfl⟩
  · rw [Call.freeIrq, h.frame_irqs.2, hmsix, hready, if_neg (by simp), heq₁, Option.map_some,
      hvectors₁]
  · intro w
    simp only [iff_false]
    omega

/-- The error exit after the rings have been configured. -/
theorem openFailed (resets : Bool) (h : Holds s { H with
    tx := fun kind i => i < s.numTxQueues kind
    rx := (· < s.numRxQueues)
    rxDesc := (· < s.numRxQueues)
    busy := (· < s.numRxQueues) } c) (hno : ∀ v, ¬ H.irq v) :
  ∃ c', c.openFailed resets = some (c', false) ∧ Holds s (Hold.nothing H.vectors) c'
  := by
  obtain ⟨c₁, heq₁, h₁⟩ :=
    freeAllRx (H := { H with tx := fun kind i => i < s.numTxQueues kind }) h
  obtain ⟨c₂, heq₂, h₂⟩ := freeAllTx (H := { H with
    rx := fun _ => False, rxDesc := fun _ => False, busy := fun _ => False }) h₁
  refine ⟨_, by rw [Call.openFailed, heq₁, Option.bind_some, heq₂]; rfl, ?_⟩
  apply h₂.reset.congr
  · simp [Hold.nothing]
  · simp [Hold.nothing]
  · simp [Hold.nothing]
  · simp [Hold.nothing, hno]
  · simp [Hold.nothing]
  · rfl

end Holds

/-! ### An adapter that is closed -/

/-- The Rx rings of a closed adapter are not in use, the others are empty, and every vector has
a ring. -/
structure Closed (s : Adapter) : Prop where
  /-- The Rx rings. -/
  rx : ∀ i < s.numRxQueues, (s.rxRing i).queue.Inv ∧ (s.rxRing i).queue.active = false
  /-- The rings that transmit. -/
  tx : ∀ kind, ∀ i < s.numTxQueues kind,
    (s.txRing kind i).nextToClean = (s.txRing kind i).nextToUse
  /-- The vectors. -/
  serves : ∀ v < s.numQVectors, s.serves v = true
  /-- The interrupts. -/
  msixEntries : s.numQVectors ≠ 0 → s.msixEntries = true

variable {s : Adapter} {c : Call}

/-- A call that has done nothing yet. -/
theorem Closed.holds (h : Closed s) :
  Holds s (Hold.nothing s.numQVectors) { adapter := s, effects := [] }
  := by
  constructor
  · apply Owns.nil.congr
    intro r
    cases r <;> rfl
  · rfl
  · rfl
  · exact fun _ _ hf => hf.elim
  · exact fun _ hf => hf.elim
  · exact h.tx
  · intro i hi
    obtain ⟨hinv, hactive⟩ := h.rx i hi
    exact ⟨_, clean_idle hinv hactive, Returned.refl hinv hactive⟩
  · intro i hi _
    obtain ⟨hinv, hactive⟩ := h.rx i hi
    exact Returned.refl hinv hactive
  · exact fun _ _ hf => hf.elim

/-- A call that uses no Rx ring leaves the adapter closed. -/
theorem Holds.closed {H : Hold} (h : Holds s H c) (hs : Closed s) (hidle : ∀ i, ¬ H.busy i)
    (hvectors : H.vectors = s.numQVectors ∨ H.vectors = 0) :
  Closed c.adapter
  := by
  have htx : c.adapter.numTxQueues = s.numTxQueues := congrArg (·.1) h.frame
  have hrx : c.adapter.numRxQueues = s.numRxQueues := congrArg (·.2.1) h.frame
  have hnum : c.adapter.numQVectors = H.vectors := h.vectors
  constructor
  · rw [hrx]
    intro i hi
    have hreturned := h.idle i hi (hidle i)
    exact ⟨hreturned.inv, hreturned.active⟩
  · rw [htx]
    exact h.empty
  · rw [hnum, h.frame_irqs.1]
    obtain heq | heq := hvectors
    · rw [heq]
      exact hs.serves
    · rw [heq]
      exact fun v hv => absurd hv (Nat.not_lt_zero v)
  · rw [hnum, h.frame_irqs.2]
    obtain heq | heq := hvectors
    · rw [heq]
      exact hs.msixEntries
    · rw [heq]
      exact fun hne => absurd rfl hne

/-! ### All or nothing -/

/-- A call gives back whatever it has taken: each resource is given back once, none is given back
that has not been taken, and so it is with the pages of every Rx ring. -/
structure AllOrNothing (s : Adapter) (c : Call) : Prop where
  /-- The resources are taken and given back in order. -/
  lawful : Lawful ∅ c.uses
  /-- Nothing is left. -/
  held : heldAfter ∅ c.uses = ∅
  /-- The pages. -/
  pages : ∀ i < s.numRxQueues, Returned (s.rxRing i).queue (c.adapter.rxRing i).queue

/-- `ixgbevf_open` returns before it takes anything: no vector is left, or a test is running, or
the adapter is stopped and a reset does not start it. -/
def Refuses (env : OpenEnv) (s : Adapter) : Prop :=
  s.numQVectors = 0 ∨ s.testing = true ∨ s.adapterStopped = true ∧
    ¬ (s.hwAddr = true ∧ s.removing = false ∧ s.answers = true ∧ env.restarts = true)

/-- The step of `ixgbevf_open` that fails is the registration of an XDP queue. -/
structure FailsAtRxq (env : OpenEnv) (s : Adapter) : Prop where
  /-- The rings are set up. -/
  accepts : ¬ Refuses env s
  /-- No ring that transmits fails. -/
  tx : ∀ kind, ∀ i < s.numTxQueues kind, env.txSetup kind i = .ok
  /-- The first Rx ring to fail fails there. -/
  rxq : ∃ j < s.numRxQueues, env.rxSetup j = .rxqRegFails ∧ ∀ i < j, env.rxSetup i = .ok

/-- A call that holds nothing has given everything back. -/
theorem Holds.allOrNothing {vectors : ℕ} (h : Holds s (Hold.nothing vectors) c) :
  AllOrNothing s c
  := by
  constructor
  · exact h.owns.lawful
  · rw [h.owns.heldAfter_eq_empty]
    intro r
    cases r <;> exact fun hf => hf
  · exact fun i hi => h.idle i hi fun hf => hf

/-- Whether a reset starts an adapter that is stopped. -/
theorem reset_adapterStopped (resets : Bool) (h : c.adapter.adapterStopped = true) :
  (c.reset resets).adapter.adapterStopped = false ↔ c.adapter.hwAddr = true
    ∧ c.adapter.removing = false ∧ c.adapter.answers = true ∧ resets = true
  := by
  rw [Call.reset, Call.writeReg, Call.readReg]
  cases hhw : c.adapter.hwAddr with
  | false => simp [h]
  | true =>
    cases hremoving : c.adapter.removing with
    | true => simp [h]
    | false =>
      cases hanswers : c.adapter.answers with
      | false => simp [Call.emit]
      | true => cases resets <;> simp [Call.emit, hhw]

/-- What a call holds once the interface is open. -/
def Hold.opened (s : Adapter) : Hold where
  tx kind i := i < s.numTxQueues kind
  rx i := i < s.numRxQueues
  rxDesc i := i < s.numRxQueues
  irq v := v ≤ s.numQVectors
  busy i := i < s.numRxQueues
  vectors := s.numQVectors

/-- `ixgbevf_open` from the call of `ixgbevf_configure` on. -/
theorem Holds.openConfigured (K : KernelConfig) (env : OpenEnv) {H : Hold} (hs : Closed s)
    (hzero : s.numQVectors ≠ 0) (hno : ∀ v, ¬ H.irq v) (hidle : ∀ i, ¬ H.busy i)
    (hvectors : H.vectors = s.numQVectors)
    (h : Holds s { H with
      tx := fun kind i => i < s.numTxQueues kind
      rx := (· < s.numRxQueues)
      rxDesc := (· < s.numRxQueues) } c) :
  (∃ c', c.openConfigured K env = some (c'.upComplete, true) ∧ Holds s (Hold.opened s) c')
    ∨ ∃ c' vectors, c.openConfigured K env = some (c', false)
      ∧ Holds s (Hold.nothing vectors) c' ∧ (vectors = s.numQVectors ∨ vectors = 0)
  := by
  obtain ⟨c₁, heq₁, h₁⟩ := h.configure K env.toConfigEnv (fun _ _ hi => hi)
    (fun _ hi => hi) hidle
  have hmsix := hs.msixEntries hzero
  have hserves : ∀ v < H.vectors, s.serves v = true := by
    rw [hvectors]
    exact hs.serves
  rw [Call.openConfigured]
  simp only [Option.bind_eq_bind, heq₁, Option.bind_some]
  obtain ⟨c₂, heq₂, h₂, hready⟩ | ⟨c₂, heq₂, h₂⟩ :=
    h₁.requestIrq env.irqFails hno hmsix hserves
  · simp only [heq₂, Option.bind_some]
    cases hset : env.setTxQueuesFails || env.setRxQueuesFails with
    | true =>
      obtain ⟨c₃, heq₃, h₃⟩ := h₂.freeIrq hmsix hready hserves
      obtain ⟨c₄, heq₄, h₄⟩ := openFailed env.resets
        (H := { H with irq := fun _ => False }) h₃ fun _ hf => hf
      refine Or.inr ⟨c₄, H.vectors, ?_, h₄, Or.inl hvectors⟩
      simp [heq₃, heq₄]
    | false =>
      refine Or.inl ⟨c₂, by simp, ?_⟩
      apply h₂.congr
      · exact fun _ _ => Iff.rfl
      · exact fun _ => Iff.rfl
      · exact fun _ => Iff.rfl
      · intro v
        rw [hvectors]
        rfl
      · exact fun _ => Iff.rfl
      · exact hvectors
  · obtain ⟨c₃, heq₃, h₃⟩ := openFailed env.resets
      (H := { H with vectors := 0 }) h₂ hno
    refine Or.inr ⟨c₃, 0, ?_, h₃, Or.inr rfl⟩
    simp [heq₂, heq₃]

/-- `ixgbevf_open` from the call of `ixgbevf_setup_all_tx_resources` on: it leaves something
behind where the registration of an XDP queue fails. -/
theorem Holds.openRings {K : KernelConfig} {env : OpenEnv} (hs : Closed s)
    (hzero : s.numQVectors ≠ 0) (h : Holds s (Hold.nothing s.numQVectors) c)
    (haccepts : ¬ Refuses env s) :
  (∃ c', c.openRings K env = some (c'.upComplete, true) ∧ Holds s (Hold.opened s) c')
    ∨ ∃ c', c.openRings K env = some (c', false) ∧ Closed c'.adapter
      ∧ c'.adapter.frame = s.frame ∧ (AllOrNothing s c' ↔ ¬ FailsAtRxq env s)
  := by
  have hback {c : Call} {vectors : ℕ} (h : Holds s (Hold.nothing vectors) c)
      (hvectors : vectors = s.numQVectors ∨ vectors = 0) (hno : ¬ FailsAtRxq env s) :
      Closed c.adapter ∧ c.adapter.frame = s.frame ∧ (AllOrNothing s c ↔ ¬ FailsAtRxq env s) :=
    ⟨h.closed hs (fun _ hf => hf) hvectors, h.frame, fun _ => hno, fun _ => h.allOrNothing⟩
  rw [Call.openRings]
  obtain ⟨c₁, heq₁, h₁, htx⟩ | ⟨c₁, heq₁, h₁, kind, i, hi, hfail⟩ :=
    h.setupAllTx env.txSetup fun _ _ hf => hf
  · simp only [heq₁, Option.bind_eq_bind, Option.bind_some]
    obtain ⟨c₂, heq₂, h₂, hrx⟩ | ⟨j, c₂, heq₂, hj, h₂, hfail, hrx⟩ :=
      h₁.setupAllRx env.rxSetup (fun _ hf => hf) (fun _ hf => hf) fun _ hf => hf
    · simp only [heq₂, Option.bind_some, Bool.not_true, Bool.false_eq_true, if_false]
      have hno : ¬ FailsAtRxq env s := by
        rintro ⟨-, -, j, hj, hfail, -⟩
        rw [hrx j hj] at hfail
        cases hfail
      obtain hopen | ⟨c₃, vectors, heq₃, h₃, hvectors⟩ := openConfigured K env
        (H := Hold.nothing s.numQVectors) hs hzero (fun _ hf => hf) (fun _ hf => hf) rfl h₂
      · exact Or.inl hopen
      · exact Or.inr ⟨c₃, heq₃, hback h₃ hvectors hno⟩
    · obtain ⟨c₃, heq₃, h₃⟩ := freeAllTx (H := { Hold.nothing s.numQVectors with
        rxDesc := fun i => env.rxSetup j = .rxqRegFails ∧ i = j }) h₂
      have h₄ : Holds s _ (c₃.reset env.resets) := h₃.reset
      refine Or.inr ⟨c₃.reset env.resets, by simp [heq₂, heq₃], ?_⟩
      refine ⟨h₄.closed hs (fun _ hf => hf) (Or.inl rfl), h₄.frame, fun hall hno => ?_, fun hno => ?_⟩
      · -- the descriptors of the ring are left
        obtain ⟨haccepts, htx, k, hk, hreg, hok⟩ := hno
        have hkj : k = j := by
          obtain hlt | heq | hlt := Nat.lt_trichotomy k j
          · rw [hrx k hlt] at hreg
            cases hreg
          · exact heq
          · exact absurd (hok j hlt) hfail
        rw [hkj] at hreg
        have hheld := (h₄.owns.held (.rxDesc j)).mpr ⟨hreg, rfl⟩
        rw [hall.held] at hheld
        cases hheld
      · have hreg : env.rxSetup j ≠ .rxqRegFails :=
          fun hreg => hno ⟨haccepts, htx, j, hj, hreg, hrx⟩
        suffices hnothing : Holds s (Hold.nothing s.numQVectors) (c₃.reset env.resets) from
          hnothing.allOrNothing
        apply h₄.congr
        · exact fun _ _ => Iff.rfl
        · exact fun _ => Iff.rfl
        · exact fun i => ⟨fun hi => hreg hi.1, False.elim⟩
        · exact fun _ => Iff.rfl
        · exact fun _ => Iff.rfl
        · rfl
  · refine Or.inr ⟨c₁.reset env.resets, by simp [heq₁], hback h₁.reset (Or.inl rfl) ?_⟩
    exact fun hf => hfail (hf.tx kind i hi)

/-- What `ixgbevf_open` does to an adapter that is closed. -/
theorem ixgbevfOpen_cases (K : KernelConfig) (env : OpenEnv) (hs : Closed s) :
  (∃ c, Call.ixgbevfOpen K env { adapter := s, effects := [] } = some (c.upComplete, true)
      ∧ Holds s (Hold.opened s) c)
    ∨ ∃ c, Call.ixgbevfOpen K env { adapter := s, effects := [] } = some (c, false)
      ∧ Closed c.adapter ∧ c.adapter.frame = s.frame
      ∧ (AllOrNothing s c ↔ ¬ FailsAtRxq env s)
  := by
  have hback {c : Call} (h : Holds s (Hold.nothing s.numQVectors) c) (hrefuses : Refuses env s) :
      Closed c.adapter ∧ c.adapter.frame = s.frame ∧ (AllOrNothing s c ↔ ¬ FailsAtRxq env s) :=
    ⟨h.closed hs (fun _ hf => hf) (Or.inl rfl), h.frame,
      fun _ hno => hno.accepts hrefuses, fun _ => h.allOrNothing⟩
  rw [Call.ixgbevfOpen]
  by_cases hzero : s.numQVectors = 0
  · exact Or.inr ⟨_, if_pos hzero, hback hs.holds (Or.inl hzero)⟩
  rw [if_neg hzero]
  obtain ⟨c₀, hc₀⟩ : ∃ c₀, c₀ = (if s.adapterStopped then
    Call.reset env.restarts { adapter := s, effects := [] } else { adapter := s, effects := [] }) :=
    ⟨_, rfl⟩
  have h₀ : Holds s (Hold.nothing s.numQVectors) c₀ := by
    rw [hc₀]
    split
    · exact hs.holds.reset
    · exact hs.holds
  have hrefuses : (c₀.adapter.adapterStopped || c₀.adapter.testing) = true ↔ Refuses env s := by
    have htesting : c₀.adapter.testing = s.testing := congrArg (·.2.2.2.2.2.1) h₀.frame
    have hstopped : c₀.adapter.adapterStopped = true ↔ s.adapterStopped = true ∧
        ¬ (s.hwAddr = true ∧ s.removing = false ∧ s.answers = true ∧ env.restarts = true) := by
      rw [hc₀]
      split
      next hstop =>
        have hreset := reset_adapterStopped (c := { adapter := s, effects := [] }) env.restarts hstop
        rw [← hreset, Bool.not_eq_false]
        exact ⟨fun h => ⟨hstop, h⟩, fun h => h.2⟩
      next hstop => exact ⟨fun h => absurd h hstop, fun h => absurd h.1 hstop⟩
    rw [Bool.or_eq_true, hstopped, htesting, Refuses]
    tauto
  simp only [← hc₀]
  split
  next hno => exact Or.inr ⟨c₀, rfl, hback h₀ (hrefuses.mp hno)⟩
  next hno => exact h₀.openRings hs hzero (hrefuses.not.mp hno)

end Ixgbevf.Interface
