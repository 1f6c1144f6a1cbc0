import Ixgbevf.Tx.InFlight

/-!
# The slots that a call writes

Transmission writes the slots of its own packet, cleaning those of the packet that it takes
off the ring, and neither any other slot.  `Within a n` says so of the `n` slots from `a` on.
-/

namespace Ixgbevf.Tx

open Cyclic

/-- Of the buffers and descriptors only those of the `n` slots from `a` on are written. -/
structure TxRing.Within (a n : ℕ) (r r' : TxRing) : Prop where
  /-- `count`. -/
  count : r'.count = r.count
  /-- `next_to_clean`. -/
  nextToClean : r'.nextToClean = r.nextToClean
  /-- The other slots. -/
  kept : ∀ j < r.count, n ≤ gap r.count a j → r'.buffer j = r.buffer j ∧ r'.desc j = r.desc j

namespace TxRing.Within

variable {a n i : ℕ} {r r' r'' : TxRing}

/-- Nothing is written. -/
theorem refl (r : TxRing) :
  Within a n r r
  := ⟨rfl, rfl, fun _ _ _ => ⟨rfl, rfl⟩⟩

/-- One call after another. -/
theorem trans (h : Within a n r r') (h' : Within a n r' r'') :
  Within a n r r''
  := by
  refine ⟨h'.count.trans h.count, h'.nextToClean.trans h.nextToClean, fun j hj hgap => ?_⟩
  obtain ⟨hbuffer, hdesc⟩ := h.kept j hj hgap
  rw [← h.count] at hj hgap
  obtain ⟨hbuffer', hdesc'⟩ := h'.kept j hj hgap
  exact ⟨hbuffer'.trans hbuffer, hdesc'.trans hdesc⟩

/-- More slots. -/
theorem mono {m : ℕ} (h : Within a n r r') (hnm : n ≤ m) :
  Within a m r r'
  := ⟨h.count, h.nextToClean, fun j hj hgap => h.kept j hj (Nat.le_trans hnm hgap)⟩

/-- A buffer of the slots is written. -/
theorem setBuffer (f : TxBuffer → TxBuffer) (hi : gap r.count a i < n) :
  Within a n r (r.setBuffer i f)
  := by
  refine ⟨rfl, rfl, fun j _ hgap => ⟨?_, rfl⟩⟩
  apply Function.update_of_ne
  rintro rfl
  omega

/-- A descriptor of the slots is written. -/
theorem setDesc (g : TxDesc → TxDesc) (hi : gap r.count a i < n) :
  Within a n r (r.setDesc i g)
  := by
  refine ⟨rfl, rfl, fun j _ hgap => ⟨rfl, ?_⟩⟩
  apply Function.update_of_ne
  rintro rfl
  omega

/-- `next_to_use` is none of the slots. -/
theorem use (h : Within a n r r') (i : ℕ) :
  Within a n r { r' with nextToUse := i }
  := ⟨h.count, h.nextToClean, h.kept⟩

end TxRing.Within

open TxRing (Within)

/-! ### Transmission -/

/-- The context descriptor takes the slot `next_to_use`. -/
theorem txCtxtdesc_within (r : TxRing) (lens tucmd idx : BitVec 32) :
  Within r.nextToUse 1 r (r.txCtxtdesc lens tucmd idx)
  := by
  refine ⟨rfl, rfl, fun j _ hgap => ⟨rfl, ?_⟩⟩
  apply Function.update_of_ne
  rintro rfl
  rw [gap_self] at hgap
  omega

/-- What comes before the mapping: the slot `next_to_use` is written, but for its watch and
its mapping. -/
structure Prepared (r r' : TxRing) : Prop where
  /-- Only that slot is written. -/
  within : Within r.nextToUse 1 r r'
  /-- `next_to_watch`. -/
  watch : ∀ j, (r'.buffer j).nextToWatch = (r.buffer j).nextToWatch
  /-- The mappings. -/
  mapping : ∀ j, (r'.buffer j).len = (r.buffer j).len ∧ (r'.buffer j).dma = (r.buffer j).dma

/-- One change after another, in the same slot. -/
theorem Prepared.trans {r r' r'' : TxRing} (h : Prepared r r') (h' : Prepared r' r'')
    (hnext : r'.nextToUse = r.nextToUse) :
  Prepared r r''
  := by
  have hwithin := h'.within
  rw [hnext] at hwithin
  refine ⟨h.within.trans hwithin, fun j => (h'.watch j).trans (h.watch j), fun j => ?_⟩
  obtain ⟨hlen, hdma⟩ := h.mapping j
  obtain ⟨hlen', hdma'⟩ := h'.mapping j
  exact ⟨hlen'.trans hlen, hdma'.trans hdma⟩

/-- A change of the buffer that is no change of its watch or its mapping. -/
theorem setBuffer_prepared {r : TxRing} {f : TxBuffer → TxBuffer}
    (hf : ∀ b, (f b).nextToWatch = b.nextToWatch ∧ (f b).len = b.len ∧ (f b).dma = b.dma) :
  Prepared r (r.setBuffer r.nextToUse f)
  := by
  have hbuffer (j : ℕ) : ((r.setBuffer r.nextToUse f).buffer j).nextToWatch
      = (r.buffer j).nextToWatch ∧ ((r.setBuffer r.nextToUse f).buffer j).len = (r.buffer j).len
      ∧ ((r.setBuffer r.nextToUse f).buffer j).dma = (r.buffer j).dma := by
    by_cases hj : j = r.nextToUse
    · subst hj
      simpa [TxRing.setBuffer] using hf _
    · simp [TxRing.setBuffer, hj]
  refine ⟨.setBuffer f ?_, fun j => (hbuffer j).1, fun j => (hbuffer j).2⟩
  rw [gap_self]
  exact Nat.one_pos

/-- The context descriptor is no change of a buffer. -/
theorem txCtxtdesc_prepared (r : TxRing) (lens tucmd idx : BitVec 32) :
  Prepared r (r.txCtxtdesc lens tucmd idx)
  := ⟨txCtxtdesc_within r lens tucmd idx, fun _ => rfl, fun _ => ⟨rfl, rfl⟩⟩

/-- The buffer is changed before the context descriptor is written. -/
theorem setBuffer_txCtxtdesc_prepared {r : TxRing} {f : TxBuffer → TxBuffer}
    (lens tucmd idx : BitVec 32)
    (hf : ∀ b, (f b).nextToWatch = b.nextToWatch ∧ (f b).len = b.len ∧ (f b).dma = b.dma) :
  Prepared r ((r.setBuffer r.nextToUse f).txCtxtdesc lens tucmd idx)
  := (setBuffer_prepared hf).trans (txCtxtdesc_prepared _ lens tucmd idx) rfl

/-- `ixgbevf_tx_csum` writes a context descriptor, and keeps the packet in its buffer. -/
theorem txCsum_prepared (r : TxRing) (skb : Skb) :
  Prepared r (txCsum r r.nextToUse skb).1
    ∧ (txCsum r r.nextToUse skb).1.nextToUse = next r.count r.nextToUse
    ∧ ((txCsum r r.nextToUse skb).1.buffer r.nextToUse).skb = (r.buffer r.nextToUse).skb
  := by
  unfold txCsum
  split
  · exact ⟨txCtxtdesc_prepared r _ _ _, rfl, rfl⟩
  · split
    · exact ⟨txCtxtdesc_prepared r _ _ _, rfl, rfl⟩
    · refine ⟨?_, rfl, ?_⟩
      · simp only [noCsum]
        apply setBuffer_txCtxtdesc_prepared
        intro b
        exact ⟨rfl, rfl, rfl⟩
      · simp [noCsum, TxRing.txCtxtdesc, TxRing.setBuffer]

/-- `ixgbevf_tso` may write a context descriptor, and then keeps the packet in its buffer. -/
theorem tso_prepared {r r' : TxRing} {cowFails : Bool} {skb : Skb} {hdrLen : BitVec 8}
    (h : tso cowFails r r.nextToUse skb = .done r' hdrLen) :
  Prepared r r' ∧ r'.nextToUse = next r.count r.nextToUse
    ∧ (r'.buffer r.nextToUse).skb = (r.buffer r.nextToUse).skb
  := by
  unfold tso at h
  split at h
  · cases h
  split at h
  · cases h
  split at h
  · cases h
  cases h
  refine ⟨?_, rfl, ?_⟩
  · apply setBuffer_txCtxtdesc_prepared
    intro b
    exact ⟨rfl, rfl, rfl⟩
  · simp [TxRing.txCtxtdesc, TxRing.setBuffer]

/-- A packet that is dropped before it is mapped leaves `next_to_use` where it was, and any
other one is in the buffer of the slot that its context descriptor takes. -/
theorem xmitOffload_prepared (cowFails : Bool) (r : TxRing) (skb : Skb) :
  (∃ r' acts, xmitOffload cowFails r skb = (.dropped r', acts)
      ∧ Prepared r r' ∧ r'.nextToUse = r.nextToUse)
    ∨ ∃ r' hdrLen acts, xmitOffload cowFails r skb = (.ready r' hdrLen, acts)
      ∧ Prepared r r' ∧ r'.nextToUse = next r.count r.nextToUse
      ∧ (r'.buffer r.nextToUse).skb = some skb.id
  := by
  set r₁ := (r.setBuffer r.nextToUse fun b =>
    { b with skb := some skb.id, bytecount := skb.len, gsoSegs := 1 }) with hr₁
  have h₁ : Prepared r r₁ := setBuffer_prepared fun _ => ⟨rfl, rfl, rfl⟩
  have hdrop {r₂ : TxRing} (h : Prepared r r₂) (hnext : r₂.nextToUse = r.nextToUse) :
      ∃ r' acts, outDrop r₂ r.nextToUse = (.dropped r', acts) ∧ Prepared r r'
        ∧ r'.nextToUse = r.nextToUse := by
    refine ⟨_, _, rfl, h.trans ?_ hnext, hnext⟩
    rw [← hnext]
    exact setBuffer_prepared fun _ => ⟨rfl, rfl, rfl⟩
  unfold xmitOffload
  simp only [← hr₁]
  cases vlanFlags skb with
  | none => exact .inl (hdrop h₁ rfl)
  | some flags =>
    obtain ⟨txFlags, protocol⟩ := flags
    set r₂ := (r₁.setBuffer r.nextToUse fun b =>
      { b with txFlags := txFlags, protocol := protocol }) with hr₂
    have h₂ : Prepared r r₂ := h₁.trans (setBuffer_prepared fun _ => ⟨rfl, rfl, rfl⟩) rfl
    have hskb : (r₂.buffer r₂.nextToUse).skb = some skb.id := by
      simp [hr₂, hr₁, TxRing.setBuffer]
    simp only [← hr₂]
    cases htso : tso cowFails r₂ r.nextToUse skb with
    | error => exact .inl (hdrop h₂ rfl)
    | done r' hdrLen =>
      obtain ⟨h, hnext, hkept⟩ := tso_prepared (r := r₂) htso
      exact .inr ⟨_, _, _, rfl, h₂.trans h rfl, hnext, hkept.trans hskb⟩
    | skip =>
      obtain ⟨h, hnext, hkept⟩ := txCsum_prepared r₂ skb
      exact .inr ⟨_, _, _, rfl, h₂.trans h rfl, hnext, hkept.trans hskb⟩

/-- Moving on to the next descriptor writes the present one and the next one. -/
theorem nextDesc_within {s : MapState} {a m n : ℕ} (cmdTypeLen : BitVec 32)
    (ha : a < s.ring.count) (hi : s.i = ahead s.ring.count a m) (hm : m + 1 < n)
    (hn : n ≤ s.ring.count) :
  Within a n s.ring (s.nextDesc cmdTypeLen).ring
  := by
  set r := s.ring.setDesc s.i fun d => { d with cmdTypeLen := cmdTypeLen } with hr
  have hpresent : Within a n s.ring r := by
    apply Within.setDesc (g := fun d => { d with cmdTypeLen := cmdTypeLen })
    rw [hi, gap_ahead ha (by omega)]
    omega
  apply hpresent.trans
  apply Within.setDesc (i := next r.count s.i) (g := fun d => { d with olinfoStatus := 0#32 })
  rw [hr, TxRing.setDesc_count, hi, next_ahead ha (by omega), gap_ahead ha (by omega)]
  exact hm

/-- The inner loop writes the descriptors of its buffer. -/
theorem splitBuffer_within {s : MapState} {a m n : ℕ} (cmdType : BitVec 32) (fuel : ℕ)
    (dma : BitVec 64) (ha : a < s.ring.count) (hi : s.i = ahead s.ring.count a m)
    (hm : m + descsOf s.size ≤ n) (hn : n ≤ s.ring.count) :
  Within a n s.ring (splitBuffer cmdType fuel dma s).ring
  := by
  induction fuel generalizing s dma m with
  | zero => exact .refl _
  | succ fuel ih =>
    rw [splitBuffer]
    split
    · rename_i hlarge
      have hdescs : descsOf s.size = descsOf (s.size - maxDataPerTxd) + 1 := by
        unfold descsOf txdUseCount maxDataPerTxd at *
        omega
      have hpos : 1 ≤ descsOf (s.size - maxDataPerTxd) := Nat.le_max_left _ _
      set s₁ := s.nextDesc (cmdType ||| BitVec.ofNat 32 maxDataPerTxd) with hs₁
      have hi₁ : s₁.i = ahead s.ring.count a (m + 1) := by
        rw [← next_ahead ha (by omega), ← hi]
        rfl
      have h₁ : Within a n s.ring s₁.ring := nextDesc_within _ ha hi (by omega) hn
      set r₂ := s₁.ring.setDesc s₁.i
        fun d => { d with bufferAddr := dma + BitVec.ofNat 64 maxDataPerTxd } with hr₂
      have hgap : gap s₁.ring.count a s₁.i < n := by
        change gap s.ring.count a s₁.i < n
        rw [hi₁, gap_ahead ha (by omega)]
        omega
      have h₂ : Within a n s.ring r₂ := h₁.trans (.setDesc _ hgap)
      apply h₂.trans
      apply ih (s := ⟨r₂, s₁.i, s₁.size - maxDataPerTxd⟩) _ ha hi₁ _ hn
      change m + 1 + descsOf (s.size - maxDataPerTxd) ≤ n
      omega
    · exact .refl _

/-- The inner loop writes no buffers. -/
theorem splitBuffer_buffer (cmdType : BitVec 32) (fuel : ℕ) (dma : BitVec 64) (s : MapState) :
  (splitBuffer cmdType fuel dma s).ring.buffer = s.ring.buffer
  := by
  induction fuel generalizing s dma with
  | zero => rfl
  | succ fuel ih =>
    rw [splitBuffer]
    split
    · rw [ih]
      rfl
    · rfl

/-- A buffer is mapped in the slot `b`, and its descriptors are written. -/
theorem mapBuffer_within {s : MapState} {a b m n : ℕ} (cmdType : BitVec 32) (dma : BitVec 64)
    (ha : a < s.ring.count) (hi : s.i = ahead s.ring.count a m) (hb : gap s.ring.count a b < n)
    (hm : m + descsOf s.size ≤ n) (hn : n ≤ s.ring.count) :
  Within a n s.ring (splitBuffer cmdType s.size dma
    ⟨(s.ring.setBuffer b fun t => { t with len := s.size, dma := dma }).setDesc s.i
      fun d => { d with bufferAddr := dma }, s.i, s.size⟩).ring
  := by
  have hpos : 1 ≤ descsOf s.size := Nat.le_max_left _ _
  have hgap : gap s.ring.count a s.i < n := by
    rw [hi, gap_ahead ha (by omega)]
    omega
  set r₁ := s.ring.setBuffer b fun t => { t with len := s.size, dma := dma } with hr₁
  set r₂ := r₁.setDesc s.i fun d => { d with bufferAddr := dma } with hr₂
  have h₁ : Within a n s.ring r₁ := .setBuffer _ hb
  have h₂ : Within a n s.ring r₂ := h₁.trans (.setDesc _ hgap)
  apply h₂.trans
  exact splitBuffer_within (s := ⟨r₂, s.i, s.size⟩) cmdType s.size dma ha hi hm hn

/-- The mapping loop writes no slot past the one where it ends. -/
theorem mapBuffers_within {s : MapState} {a b m : ℕ} (map : ℕ → Option (BitVec 64))
    (cmdType : BitVec 32) (frags : List ℕ) (k : ℕ) (ha : a < s.ring.count)
    (hi : s.i = ahead s.ring.count a m) (hb : gap s.ring.count a b ≤ m)
    (hfit : m + descsOf s.size + (frags.map descsOf).sum ≤ s.ring.count) :
  ∃ n s', (mapBuffers map cmdType frags k b s = .done s'
      ∨ mapBuffers map cmdType frags k b s = .failed s')
    ∧ s'.i = ahead s.ring.count a n
    ∧ m ≤ n ∧ n < m + descsOf s.size + (frags.map descsOf).sum
    ∧ Within a (n + 1) s.ring s'.ring
  := by
  have hpos : 1 ≤ descsOf s.size := Nat.le_max_left _ _
  induction frags generalizing k b m s with
  | nil =>
    rw [mapBuffers]
    cases map k with
    | none => exact ⟨m, s, .inr rfl, hi, Nat.le_refl _, by omega, .refl _⟩
    | some dma =>
      have hlt : s.i < s.ring.count := by
        rw [hi]
        exact ahead_lt ha (by omega)
      have hlast : m + (descsOf s.size - 1) + 1 = m + descsOf s.size := by omega
      have hadv := mapBuffer_advance cmdType dma b hlt (by omega)
      refine ⟨m + (descsOf s.size - 1), _, .inl rfl, ?_, by omega, by omega, ?_⟩
      · rw [hadv.i, hi, ahead_ahead ha (by omega)]
      · rw [hlast]
        exact mapBuffer_within cmdType dma ha hi (by omega) (Nat.le_refl _) (by omega)
  | cons frag frags ih =>
    have hfrag : 1 ≤ descsOf frag := Nat.le_max_left _ _
    rw [List.map_cons, List.sum_cons] at hfit ⊢
    rw [mapBuffers]
    cases map k with
    | none => exact ⟨m, s, .inr rfl, hi, Nat.le_refl _, by omega, .refl _⟩
    | some dma =>
      have hlt : s.i < s.ring.count := by
        rw [hi]
        exact ahead_lt ha (by omega)
      have hlast : m + (descsOf s.size - 1) + 1 = m + descsOf s.size := by omega
      have hadv := mapBuffer_advance cmdType dma b hlt (by omega)
      have h₁ : Within a (m + descsOf s.size) s.ring _ :=
        mapBuffer_within (b := b) cmdType dma ha hi (by omega) (Nat.le_refl _) (by omega)
      simp only
      set s₁ := splitBuffer cmdType s.size dma _ with hs₁
      have hcount : s₁.ring.count = s.ring.count := hadv.same.count
      have hi₁ : s₁.i = ahead s.ring.count a (m + (descsOf s.size - 1)) := by
        rw [hadv.i, hi, ahead_ahead ha (by omega)]
      split
      · refine ⟨m + (descsOf s.size - 1), s₁, .inl rfl, hi₁, by omega, by omega, ?_⟩
        rw [hlast]
        exact h₁
      · set s₂ := s₁.nextDesc (cmdType ||| BitVec.ofNat 32 s₁.size) with hs₂
        have hcount₂ : s₂.ring.count = s.ring.count := hcount
        have hi₂ : s₂.i = ahead s.ring.count a (m + descsOf s.size) := by
          have hnext : s₂.i = next s₁.ring.count s₁.i := rfl
          rw [hnext, hcount, hi₁, next_ahead ha (by omega), hlast]
        have hgap₂ : gap s.ring.count a s₂.i = m + descsOf s.size := by
          rw [hi₂, gap_ahead ha (by omega)]
        have h₂ : Within a (m + descsOf s.size + 1) s.ring s₂.ring := by
          apply (h₁.mono (Nat.le_succ _)).trans
          rw [← hcount] at ha hi₁ hfit
          exact nextDesc_within _ ha hi₁ (by omega) (by omega)
        rw [← hcount₂] at ha hi₂ hgap₂
        have hrest : m + descsOf s.size + descsOf frag + (frags.map descsOf).sum ≤ s₂.ring.count := by
          omega
        obtain ⟨n, s', heq, hi', hle, hn, h'⟩ := ih (s := { s₂ with size := frag }) (b := s₂.i)
          (k + 1) ha hi₂ (Nat.le_of_eq hgap₂) hrest hfrag
        have hn : n < m + descsOf s.size + descsOf frag + (frags.map descsOf).sum := hn
        refine ⟨n, s', heq, ?_, by omega, by omega, ?_⟩
        · rw [hi']
          exact congrArg (ahead · a n) hcount₂
        · exact (h₂.mono (by omega)).trans h'

/-! ### Unmapping -/

/-- The unmapping of a slot that holds a fragment. -/
def TxBuffer.unmap (b : TxBuffer) : List TxAct :=
  if b.len ≠ 0 then [.unmapPage b.dma b.len] else []

/-- The slots from the one `lo` steps after `a` to the one before `hi` steps hold no mapping
any more, and nothing else is changed. -/
structure Zeroed (a lo hi : ℕ) (r r' : TxRing) : Prop where
  /-- `count`. -/
  count : r'.count = r.count
  /-- `next_to_clean`. -/
  nextToClean : r'.nextToClean = r.nextToClean
  /-- `next_to_use`. -/
  nextToUse : r'.nextToUse = r.nextToUse
  /-- The descriptors. -/
  desc : r'.desc = r.desc
  /-- The slots. -/
  zeroed : ∀ j < r.count, lo ≤ gap r.count a j → gap r.count a j < hi →
    r'.buffer j = { r.buffer j with len := 0 }
  /-- The other slots. -/
  kept : ∀ j < r.count, gap r.count a j < lo ∨ hi ≤ gap r.count a j → r'.buffer j = r.buffer j

namespace Zeroed

variable {a lo hi m n : ℕ} {r r' r'' : TxRing}

/-- No slots. -/
theorem refl (r : TxRing) :
  Zeroed a m m r r
  := ⟨rfl, rfl, rfl, rfl, fun _ _ h h' => absurd h' (Nat.not_lt.mpr h), fun _ _ _ => rfl⟩

/-- One slot. -/
theorem setBuffer {f : TxBuffer → TxBuffer} (ha : a < r.count) (hm : m < r.count)
    (hf : ∀ b, f b = { b with len := 0 }) :
  Zeroed a m (m + 1) r (r.setBuffer (ahead r.count a m) f)
  := by
  refine ⟨rfl, rfl, rfl, rfl, fun j hj hlo hhi => ?_, fun j hj hother => ?_⟩
  · have hji : j = ahead r.count a m := by
      rw [← gap_inj ha hj (ahead_lt ha (Nat.le_of_lt hm)), gap_ahead ha hm]
      omega
    rw [hji]
    simp only [TxRing.setBuffer, Function.update_self, hf]
  · apply Function.update_of_ne
    rintro rfl
    rw [gap_ahead ha hm] at hother
    omega

/-- Slots, then slots elsewhere next to them. -/
theorem union {lo₁ hi₁ lo₂ hi₂ : ℕ} (h : Zeroed a lo₁ hi₁ r r') (h' : Zeroed a lo₂ hi₂ r' r'')
    (hunion : ∀ m, lo ≤ m ∧ m < hi ↔ lo₁ ≤ m ∧ m < hi₁ ∨ lo₂ ≤ m ∧ m < hi₂) :
  Zeroed a lo hi r r''
  := by
  refine ⟨h'.count.trans h.count, h'.nextToClean.trans h.nextToClean,
    h'.nextToUse.trans h.nextToUse, h'.desc.trans h.desc, fun j hj hlo hhi => ?_, fun j hj hother => ?_⟩
  · have hj' : j < r'.count := by rwa [h.count]
    have hslot := (hunion (gap r.count a j)).mp ⟨hlo, hhi⟩
    by_cases hfirst : lo₁ ≤ gap r.count a j ∧ gap r.count a j < hi₁
    · by_cases hsecond : lo₂ ≤ gap r.count a j ∧ gap r.count a j < hi₂
      · rw [h'.zeroed j hj' (by rw [h.count]; exact hsecond.1) (by rw [h.count]; exact hsecond.2),
          h.zeroed j hj hfirst.1 hfirst.2]
      · rw [h'.kept j hj' (by rw [h.count]; omega), h.zeroed j hj hfirst.1 hfirst.2]
    · obtain ⟨hlo₂, hhi₂⟩ := hslot.resolve_left hfirst
      rw [h'.zeroed j hj' (by rwa [h.count]) (by rwa [h.count]), h.kept j hj (by omega)]
  · have hnone := (hunion (gap r.count a j)).not.mp (by omega)
    rw [h'.kept j (by rwa [h.count]) (by rw [h.count]; omega), h.kept j hj (by omega)]

/-- Only the slots are written. -/
theorem within (h : Zeroed a lo hi r r') (hn : hi ≤ n) :
  TxRing.Within a n r r'
  := by
  refine ⟨h.count, h.nextToClean, fun j hj hgap => ⟨h.kept j hj (.inr (by omega)), ?_⟩⟩
  rw [h.desc]

end Zeroed

/-- The unmappings of the slots from `m` steps after `a` back to the first step. -/
def TxRing.unmapsBack (r : TxRing) (a : ℕ) : ℕ → List TxAct
  | 0 => []
  | m + 1 => (r.buffer (ahead r.count a (m + 1))).unmap ++ r.unmapsBack a m

/-- The slots that are unmapped are those up to `m` steps after `a`. -/
theorem TxRing.unmapsBack_congr {r r' : TxRing} {a m : ℕ} (ha : a < r.count) (hm : m < r.count)
    (hcount : r'.count = r.count)
    (h : ∀ j < r.count, 0 < gap r.count a j → gap r.count a j ≤ m → r'.buffer j = r.buffer j) :
  r'.unmapsBack a m = r.unmapsBack a m
  := by
  induction m with
  | zero => rfl
  | succ m ih =>
    have hgap : gap r.count a (ahead r.count a (m + 1)) = m + 1 := gap_ahead ha hm
    rw [unmapsBack, unmapsBack, hcount, h _ (ahead_lt ha (Nat.le_of_lt hm)) (by omega) (by omega),
      ih (Nat.lt_of_succ_lt hm) fun j hj hpos hle => h j hj hpos (by omega)]

/-- The label `dma_error` unmaps the slots back to `first`. -/
theorem unmapBack_zeroed (r : TxRing) {first m : ℕ} (fuel : ℕ) (hfirst : first < r.count)
    (hm : m ≤ fuel) (hc : m < r.count) :
  ∃ r', unmapBack first fuel (ahead r.count first m) r = (r', first, r.unmapsBack first m)
    ∧ Zeroed first 1 (m + 1) r r'
  := by
  induction fuel generalizing r m with
  | zero =>
    obtain rfl := Nat.le_zero.mp hm
    rw [ahead_zero hfirst]
    exact ⟨r, rfl, .refl r⟩
  | succ fuel ih =>
    rw [unmapBack]
    rcases m with _ | m
    · rw [ahead_zero hfirst, if_pos rfl]
      exact ⟨r, rfl, .refl r⟩
    · have hne : ahead r.count first (m + 1) ≠ first := by
        rw [Ne, eq_comm, ← gap_eq_zero hfirst, gap_ahead hfirst hc]
        omega
      set r₁ := r.setBuffer (ahead r.count first (m + 1)) fun b => { b with len := 0 } with hr₁
      have h₁ : Zeroed first (m + 1) (m + 2) r r₁ := .setBuffer hfirst hc fun _ => rfl
      obtain ⟨r', heq, h'⟩ := ih r₁ (m := m) hfirst (by omega) (Nat.lt_of_succ_lt hc)
      have hsame : r₁.unmapsBack first m = r.unmapsBack first m := by
        apply TxRing.unmapsBack_congr hfirst (Nat.lt_of_succ_lt hc) h₁.count
        intro j hj _ hle
        exact h₁.kept j hj (.inl (by omega))
      have hcount : r₁.count = r.count := rfl
      rw [hcount] at heq
      refine ⟨r', ?_, h₁.union h' (by omega)⟩
      rw [if_neg hne]
      simp only [hcount, prev_ahead, heq, hsame, TxRing.unmapsBack, TxBuffer.unmap]

/-- From the slot `m` of a packet the inner loop of the cleaning unmaps the slots up to the
last one. -/
theorem unmapFrags_zeroed (r : TxRing) {first m n : ℕ} (fuel : ℕ) (hfirst : first < r.count)
    (hmn : m ≤ n) (hn : n < r.count) (hfuel : n - m ≤ fuel) :
  ∃ r' acts, TxQueue.unmapFrags (ahead r.count first n) fuel (ahead r.count first m) r
      = (r', ahead r.count first n, acts)
    ∧ Zeroed first (m + 1) (n + 1) r r'
  := by
  induction fuel generalizing r m with
  | zero =>
    obtain rfl : m = n := by omega
    exact ⟨r, _, rfl, .refl r⟩
  | succ fuel ih =>
    rw [TxQueue.unmapFrags]
    by_cases heq : m = n
    · rw [heq, if_pos rfl]
      exact ⟨r, _, rfl, .refl r⟩
    · have hne : ahead r.count first m ≠ ahead r.count first n := by
        rwa [Ne, ahead_inj (by omega) hn]
      rw [if_neg hne]
      simp only [next_ahead hfirst (show m + 1 ≤ r.count by omega)]
      set r₁ := r.setBuffer (ahead r.count first (m + 1))
        (fun b => if b.len ≠ 0 then { b with len := 0 } else b) with hr₁
      have h₁ : Zeroed first (m + 1) (m + 2) r r₁ := by
        apply Zeroed.setBuffer hfirst (by omega)
        intro b
        split
        · rfl
        · rename_i hzero
          rw [not_not] at hzero
          rw [← hzero]
      obtain ⟨r', acts, heq', h'⟩ := ih r₁ (m := m + 1) hfirst (by omega) hn (by omega)
      have hcount : r₁.count = r.count := rfl
      rw [hcount] at heq'
      rw [heq']
      exact ⟨r', _, rfl, h₁.union h' (by omega)⟩

/-! ### Packets -/

/-- A packet is put on the ring and only its slots are written, or the ring goes back to the
slot of its context descriptor. -/
theorem txMap_within (map : ℕ → Option (BitVec 64)) {r : TxRing} {first : ℕ} (skb : Skb)
    (hdrLen : BitVec 8) (hfirst : first < r.count) (hnext : r.nextToUse = next r.count first)
    (hfit : skb.descs + 1 < r.count) :
  (∃ r' acts, txMap map r first skb hdrLen = (false, r', acts)
      ∧ r.Same r' ∧ r'.nextToUse = first ∧ Within first (skb.descs + 1) r r')
    ∨ ∃ r' n, txMap map r first skb hdrLen = (true, r', [])
      ∧ n ≤ skb.descs + 1 ∧ 0 < n ∧ r.Placed first n r' ∧ Within first n r r'
  := by
  have hplaced := txMap_placed map skb hdrLen hfirst hnext hfit
  have hpos : 1 ≤ descsOf skb.headlen := Nat.le_max_left _ _
  have hdescs : skb.descs = descsOf skb.headlen + (skb.frags.map descsOf).sum := rfl
  rw [← ahead_one hfirst] at hnext
  set olinfoStatus := txOlinfoStatus (r.buffer first).txFlags
    (BitVec.ofNat 32 skb.len - hdrLen.setWidth 32) with holinfo
  set r₁ := r.setDesc r.nextToUse fun d => { d with olinfoStatus := olinfoStatus } with hr₁
  have hgap : gap r.count first r.nextToUse = 1 := by
    rw [hnext, gap_ahead hfirst (by omega)]
  have h₁ : Within first 2 r r₁ := .setDesc _ (by omega)
  obtain ⟨n, s, heq, hi, hle, hn, hwithin⟩ := mapBuffers_within (b := first) map
    (txCmdType (r.buffer first).txFlags) skb.frags 0 (s := ⟨r₁, r.nextToUse, skb.headlen⟩) hfirst
    hnext (by simp) (by simp only [hr₁, TxRing.setDesc_count]; omega)
  have hn : n < skb.descs + 1 := by
    simp only at hn
    omega
  have hcount : s.ring.count = r.count := hwithin.count
  have hs : Within first (n + 1) r s.ring := (h₁.mono (by omega)).trans hwithin
  have hlast : s.i = ahead r.count first n := hi
  rcases heq with heq | heq
  · set r₂ := s.ring.setDesc s.i fun d => { d with
      cmdTypeLen := txCmdType (r.buffer first).txFlags ||| BitVec.ofNat 32 s.size ||| txdCmd } with hr₂
    set r₃ := r₂.setBuffer first fun b => { b with nextToWatch := some s.i } with hr₃
    have h₂ : Within first (n + 1) r r₂ := by
      apply hs.trans (.setDesc _ _)
      rw [hlast, hcount, gap_ahead hfirst (by omega)]
      exact Nat.lt_succ_self n
    have h₃ : Within first (n + 1) r r₃ := by
      apply h₂.trans (.setBuffer _ _)
      rw [gap_self]
      exact Nat.succ_pos n
    have hmapped : txMap map r first skb hdrLen
        = (true, { r₃ with nextToUse := next r₃.count s.i }, []) := by
      simp only [txMap, ← holinfo, ← hr₁, heq]
      rfl
    rw [hmapped] at hplaced ⊢
    rcases hplaced with ⟨_, _, heq', -⟩ | ⟨r', n', heq', hn', hpos', hplaced⟩
    · cases heq'
    · cases heq'
      have hn : n' = n + 1 := by
        have huse := hplaced.nextToUse
        simp only [hr₃, hr₂, TxRing.setBuffer_count, TxRing.setDesc_count, hcount, hlast] at huse
        rw [next_ahead hfirst (by omega), ahead_inj (by omega) (by omega)] at huse
        exact huse.symm
      rw [hn] at hplaced hn'
      exact .inr ⟨_, n + 1, rfl, hn', Nat.succ_pos n, hplaced, h₃.use _⟩
  · have hfirst' : first < s.ring.count := by rwa [hcount]
    obtain ⟨r', hback, hzeroed⟩ := unmapBack_zeroed s.ring (m := n) s.ring.count hfirst'
      (by omega) (by omega)
    rw [hcount, ← hlast, ← hcount] at hback
    have h₂ : Within first (skb.descs + 1) r r' :=
      (hs.mono (by omega)).trans (hzeroed.within (by omega))
    have hdropped : txMap map r first skb hdrLen = (false, (dropMapped first r').1,
        s.ring.unmapsBack first n ++ (dropMapped first r').2) := by
      simp only [txMap, ← holinfo, ← hr₁, heq, hback]
    rw [hdropped] at hplaced ⊢
    rcases hplaced with ⟨_, _, heq', hsame, huse⟩ | ⟨_, _, heq', -⟩
    · cases heq'
      refine .inl ⟨_, _, rfl, hsame, huse, ?_⟩
      apply (h₂.trans (.setBuffer _ _)).use first
      rw [gap_self]
      exact Nat.succ_pos skb.descs
    · cases heq'

/-- A packet that is taken off the ring leaves no mapping in its slots, and no other slot is
written. -/
theorem cleanPacket_zeroed (r : TxRing) {front n : ℕ} (hfront : front < r.count) (hn : 0 < n)
    (hfit : n < r.count) :
  ∃ r' acts, TxQueue.cleanPacket r front (ahead r.count front (n - 1))
      = (r', ahead r.count front n, acts)
    ∧ Within front n r r' ∧ r'.nextToUse = r.nextToUse
    ∧ (∀ j < r.count, r'.watch j = Function.update r.watch front none j)
    ∧ ∀ j < r.count, gap r.count front j < n → (r'.buffer j).len = 0
  := by
  set r₁ := r.setBuffer front fun b => { b with nextToWatch := none, len := 0 } with hr₁
  have h₁ : Within front n r r₁ := by
    apply Within.setBuffer
    rwa [gap_self]
  have hlen₁ : (r₁.buffer front).len = 0 := by
    simp [hr₁, TxRing.setBuffer]
  obtain ⟨r', acts, heq, h'⟩ := unmapFrags_zeroed r₁ (m := 0) (n := n - 1) r₁.count hfront
    (Nat.zero_le _) (show n - 1 < r.count by omega) (show n - 1 - 0 ≤ r.count by omega)
  have hcount : r₁.count = r.count := rfl
  rw [hcount, ahead_zero hfront] at heq
  have hlast : next r'.count (ahead r.count front (n - 1)) = ahead r.count front n := by
    rw [h'.count, hcount, next_ahead hfront (by omega), Nat.sub_add_cancel hn]
  have hkept {j : ℕ} (hj : j < r.count) (hgap : gap r.count front j = 0) :
      r'.buffer j = r₁.buffer j := h'.kept j hj (.inl (by rw [hcount, hgap]; exact Nat.one_pos))
  have hpacket : TxQueue.cleanPacket r front (ahead r.count front (n - 1))
      = (r', ahead r.count front n, (r.buffer front).skb.toList.map TxAct.freeSkb
        ++ [TxAct.unmapSingle (r.buffer front).dma (r.buffer front).len] ++ acts) := by
    rw [TxQueue.cleanPacket]
    simp only [← hr₁, hcount, heq, hlast]
  refine ⟨r', _, hpacket, h₁.trans (h'.within (by omega)), h'.nextToUse, fun j hj => ?_,
    fun j hj hgap => ?_⟩
  · have hwatch : r'.watch j = r₁.watch j := by
      by_cases hslot : 0 + 1 ≤ gap r.count front j ∧ gap r.count front j < n - 1 + 1
      · rw [TxRing.watch, h'.zeroed j hj hslot.1 hslot.2]
        rfl
      · rw [TxRing.watch, h'.kept j hj (by rw [hcount]; omega)]
        rfl
    rw [hwatch]
    by_cases hjf : j = front
    · subst hjf
      simp [TxRing.watch, hr₁, TxRing.setBuffer]
    · simp [TxRing.watch, hr₁, TxRing.setBuffer, hjf]
  · rcases Nat.eq_zero_or_pos (gap r.count front j) with hzero | hpos
    · have hjf : front = j := (gap_eq_zero hfront).mp hzero
      rw [hkept hj hzero, ← hjf]
      exact hlen₁
    · rw [h'.zeroed j hj (by rw [hcount]; omega) (by rw [hcount]; omega)]

end Ixgbevf.Tx
