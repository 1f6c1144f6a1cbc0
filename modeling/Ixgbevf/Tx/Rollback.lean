import Ixgbevf.Tx.Frames

/-!
# Mappings that fail

What `ixgbevf_tx_map` does when a mapping fails: the mappings that it made are undone, the
packet is freed, and the ring goes back to where it was (`TxQueue.map_rollback`).  The label
`dma_error` walks back over slots of which only some hold a mapping, and knows them by their
length; `unmapsBack` is what it unmaps.
-/

namespace Ixgbevf.Tx

open Cyclic

/-! ### What is unmapped -/

/-- The mappings that were made before the one at the position `k`: their sizes and
positions. -/
def Skb.mapped (skb : Skb) (k : ℕ) : List (ℕ × ℕ) := ((skb.headlen :: skb.frags).take k).zipIdx

/-- A mapping is undone: that of the head as a single buffer, those of the fragments as pages,
and those of empty buffers not at all. -/
def unmapOf (addr : ℕ → BitVec 64) (b : ℕ × ℕ) : List TxAct :=
  if b.1 = 0 then []
  else if b.2 = 0 then [.unmapSingle (addr 0) b.1]
  else [.unmapPage (addr b.2) b.1]

/-- The slots that hold no mapping are passed. -/
theorem unmapsBack_skip {r : TxRing} {first m n : ℕ} (hfirst : first < r.count) (hmn : m ≤ n)
    (hn : n < r.count)
    (hfree : ∀ j < r.count, m < gap r.count first j → gap r.count first j ≤ n →
      (r.buffer j).len = 0) :
  r.unmapsBack first n = r.unmapsBack first m
  := by
  induction n, hmn using Nat.le_induction with
  | base => rfl
  | succ n hmn ih =>
    have hgap : gap r.count first (ahead r.count first (n + 1)) = n + 1 := gap_ahead hfirst hn
    have hzero := hfree _ (ahead_lt hfirst (Nat.le_of_lt hn)) (by omega) (by omega)
    rw [TxRing.unmapsBack, ih (Nat.lt_of_succ_lt hn) fun j hj hlo hhi => hfree j hj hlo (by omega),
      TxBuffer.unmap, hzero]
    rfl

/-! ### The mapping loop -/

/-- A buffer that is mapped, with more data after it, is recorded in its slot, and the loop
stands in the slot after its descriptors. -/
theorem mapBuffers_step {map : ℕ → Option (BitVec 64)} {dma : BitVec 64} {s : MapState}
    {first b k m frag : ℕ} {frags : List ℕ} (cmdType : BitVec 32) (hmap : map k = some dma)
    (hsum : (frag :: frags).sum ≠ 0) (hfirst : first < s.ring.count)
    (hi : s.i = ahead s.ring.count first m) (hfit : m + descsOf s.size < s.ring.count) :
  ∃ s', mapBuffers map cmdType (frag :: frags) k b s = mapBuffers map cmdType frags (k + 1) s'.i s'
    ∧ s'.i = ahead s.ring.count first (m + descsOf s.size) ∧ s'.size = frag
    ∧ s'.ring.count = s.ring.count
    ∧ s'.ring.buffer
      = Function.update s.ring.buffer b { s.ring.buffer b with len := s.size, dma := dma }
  := by
  have hpos : 1 ≤ descsOf s.size := Nat.le_max_left _ _
  have hlt : s.i < s.ring.count := by
    rw [hi]
    exact ahead_lt hfirst (by omega)
  have hadv := mapBuffer_advance cmdType dma b hlt (by omega)
  set s₁ := splitBuffer cmdType s.size dma
    ⟨(s.ring.setBuffer b fun t => { t with len := s.size, dma := dma }).setDesc s.i
      fun d => { d with bufferAddr := dma }, s.i, s.size⟩ with hs₁
  have hcount : s₁.ring.count = s.ring.count := hadv.same.count
  refine ⟨{ s₁.nextDesc (cmdType ||| BitVec.ofNat 32 s₁.size) with size := frag }, ?_, ?_, rfl,
    hcount, ?_⟩
  · rw [mapBuffers, hmap]
    simp only [← hs₁, if_neg hsum]
  · have hnext : (s₁.nextDesc (cmdType ||| BitVec.ofNat 32 s₁.size)).i = next s₁.ring.count s₁.i :=
      rfl
    simp only [hnext, hcount, hadv.i, hi]
    rw [ahead_ahead hfirst (by omega), next_ahead hfirst (by omega)]
    congr 1
    omega
  · exact splitBuffer_buffer cmdType s.size dma _

/-- A fragment is recorded in a slot that held no mapping. -/
theorem unmapsBack_record {r r' : TxRing} {addr : ℕ → BitVec 64} {first m k size : ℕ}
    (hk : 0 < k) (hm : 0 < m) (hfirst : first < r.count) (hlt : m < r.count)
    (hcount : r'.count = r.count) (hfree : (r.buffer (ahead r.count first m)).len = 0)
    (hrecord : r'.buffer = Function.update r.buffer (ahead r.count first m)
      { r.buffer (ahead r.count first m) with len := size, dma := addr k }) :
  r'.unmapsBack first m = unmapOf addr (size, k) ++ r.unmapsBack first m
  := by
  obtain ⟨m, rfl⟩ : ∃ l, m = l + 1 := ⟨m - 1, by omega⟩
  have hgap : gap r.count first (ahead r.count first (m + 1)) = m + 1 := gap_ahead hfirst hlt
  have hbehind : r'.unmapsBack first m = r.unmapsBack first m := by
    apply TxRing.unmapsBack_congr hfirst (Nat.lt_of_succ_lt hlt) hcount
    intro j _ _ hle
    rw [hrecord]
    apply Function.update_of_ne
    rintro rfl
    omega
  have hslot : (r.buffer (ahead r.count first (m + 1))).unmap = [] := by
    rw [TxBuffer.unmap, hfree]
    rfl
  have hslot' : (r'.buffer (ahead r.count first (m + 1))).unmap = unmapOf addr (size, k) := by
    rw [hrecord, Function.update_self, TxBuffer.unmap, unmapOf, if_neg (Nat.ne_of_gt hk)]
    by_cases hsize : size = 0 <;> simp [hsize]
  rw [TxRing.unmapsBack, TxRing.unmapsBack, hcount, hbehind, hslot, hslot', List.nil_append]

/-- The loop fails in the slot `n` steps after `first`, behind which the slots from the one `m`
steps after it on hold the mappings of the fragments `bs`. -/
structure FailsAt (first m n : ℕ) (addr : ℕ → BitVec 64) (bs : List (ℕ × ℕ)) (s s' : MapState) :
    Prop where
  /-- `count`. -/
  count : s'.ring.count = s.ring.count
  /-- The slot. -/
  i : s'.i = ahead s.ring.count first n
  /-- It is not behind the other one. -/
  le : m ≤ n
  /-- What the way back unmaps. -/
  unmaps : s'.ring.unmapsBack first n
    = bs.reverse.flatMap (unmapOf addr) ++ s.ring.unmapsBack first m
  /-- The other slots. -/
  kept : ∀ j < s.ring.count, gap s.ring.count first j < m ∨ n ≤ gap s.ring.count first j →
    s'.ring.buffer j = s.ring.buffer j

/-- The loop goes on with a fragment in the slot `m` steps after `first`, and after `n` more
mappings one fails. -/
theorem mapBuffers_failsAt {map : ℕ → Option (BitVec 64)} {addr : ℕ → BitVec 64}
    {first m k n : ℕ} {s : MapState} (cmdType : BitVec 32) (frags : List ℕ)
    (hmap : ∀ j < n, map (k + j) = some (addr (k + j))) (hfail : map (k + n) = none)
    (hn : n ≤ frags.length) (hdata : n ≠ 0 → (frags.drop (n - 1)).sum ≠ 0) (hk : 0 < k)
    (hm : 0 < m) (hfirst : first < s.ring.count) (hi : s.i = ahead s.ring.count first m)
    (hfit : m + descsOf s.size + (frags.map descsOf).sum ≤ s.ring.count)
    (hfree : ∀ j < s.ring.count, m ≤ gap s.ring.count first j →
      gap s.ring.count first j < m + descsOf s.size + (frags.map descsOf).sum →
      (s.ring.buffer j).len = 0) :
  ∃ p s', mapBuffers map cmdType frags k s.i s = .failed s'
    ∧ p < m + descsOf s.size + (frags.map descsOf).sum
    ∧ FailsAt first m p addr (((s.size :: frags).take n).zipIdx k) s s'
  := by
  induction n generalizing frags k m s with
  | zero =>
    have hpos : 1 ≤ descsOf s.size := Nat.le_max_left _ _
    refine ⟨m, s, ?_, by omega, rfl, hi, Nat.le_refl m, rfl, fun _ _ _ => rfl⟩
    rw [Nat.add_zero] at hfail
    cases frags <;> rw [mapBuffers, hfail]
  | succ n ih =>
    rcases frags with _ | ⟨frag, frags⟩
    · exact absurd hn (Nat.not_succ_le_zero n)
    rw [List.length_cons, Nat.succ_le_succ_iff] at hn
    rw [List.map_cons, List.sum_cons] at hfit hfree ⊢
    have hpos : 1 ≤ descsOf s.size := Nat.le_max_left _ _
    have hfrag : 1 ≤ descsOf frag := Nat.le_max_left _ _
    have hdata := hdata (Nat.succ_ne_zero n)
    rw [Nat.add_sub_cancel] at hdata
    -- there is data left for the mapping that fails
    have hsum : (frag :: frags).sum ≠ 0 := by
      have hsplit := List.sum_take_add_sum_drop (frag :: frags) n
      omega
    obtain ⟨s₁, hstep, hi₁, hsize₁, hcount₁, hbuffer₁⟩ := mapBuffers_step cmdType (b := s.i)
      (hmap 0 (Nat.succ_pos n)) hsum hfirst hi (by omega)
    have hslot : gap s.ring.count first s.i = m := by
      rw [hi, gap_ahead hfirst (by omega)]
    have hkept₁ {j : ℕ} (hj : j < s.ring.count) (hne : gap s.ring.count first j ≠ m) :
        s₁.ring.buffer j = s.ring.buffer j := by
      rw [hbuffer₁]
      apply Function.update_of_ne
      rintro rfl
      exact hne hslot
    have hfree₁ {j : ℕ} (hj : j < s.ring.count) (hlo : m < gap s.ring.count first j)
        (hhi : gap s.ring.count first j < m + descsOf s.size + (descsOf frag + (frags.map descsOf).sum)) :
        (s₁.ring.buffer j).len = 0 := by
      rw [hkept₁ hj (by omega)]
      exact hfree j hj (by omega) hhi
    have hrecord : s₁.ring.unmapsBack first (m + descsOf s.size)
        = unmapOf addr (s.size, k) ++ s.ring.unmapsBack first m := by
      have hskip : s₁.ring.unmapsBack first (m + descsOf s.size) = s₁.ring.unmapsBack first m := by
        apply unmapsBack_skip
        · rwa [hcount₁]
        · exact Nat.le_add_right _ _
        · omega
        · intro j hj hlo hhi
          rw [hcount₁] at hj hlo hhi
          exact hfree₁ hj hlo (by omega)
      rw [hskip]
      rw [hi] at hbuffer₁
      apply unmapsBack_record hk hm hfirst (by omega) hcount₁ _ hbuffer₁
      rw [← hi]
      exact hfree _ (by rw [hi]; exact ahead_lt hfirst (by omega)) (by omega) (by omega)
    obtain ⟨p, s', heq, hp, hfails⟩ := ih (k := k + 1) (m := m + descsOf s.size) (s := s₁) frags
      (fun j hj => by
        have h := hmap (j + 1) (Nat.succ_lt_succ hj)
        rwa [show k + (j + 1) = k + 1 + j by omega] at h)
      (by rwa [show k + (n + 1) = k + 1 + n by omega] at hfail) hn
      (fun hne => by
        obtain ⟨n, rfl⟩ := Nat.exists_eq_succ_of_ne_zero hne
        exact hdata)
      (Nat.succ_pos k) (by omega) (by rwa [hcount₁]) (by rwa [hcount₁])
      (by rw [hcount₁, hsize₁]; omega)
      (fun j hj hlo hhi => by
        rw [hcount₁] at hj hlo hhi
        rw [hsize₁] at hhi
        exact hfree₁ hj (by omega) (by omega))
    rw [hsize₁] at hp hfails
    refine ⟨p, s', hstep.trans heq, by omega, hfails.count.trans hcount₁, ?_, ?_, ?_, ?_⟩
    · rw [hfails.i, hcount₁]
    · have hle := hfails.le
      omega
    · rw [hfails.unmaps, hrecord, List.take_succ_cons, List.zipIdx_cons, List.reverse_cons,
        List.flatMap_append, List.flatMap_singleton, List.append_assoc]
    · intro j hj hother
      have hle := hfails.le
      rw [hfails.kept j (by rwa [hcount₁]) (by rw [hcount₁]; omega), hkept₁ hj (by omega)]

/-! ### The packet -/

/-- The unmapping of the slot that holds the head. -/
def TxBuffer.unmapHead (b : TxBuffer) : List TxAct :=
  if b.len ≠ 0 then [.unmapSingle b.dma b.len] else []

/-- The mapping at the position `k` fails, where the head is at the position 0: the way back to
`first` unmaps what was mapped. -/
theorem mapBuffers_rollback {map : ℕ → Option (BitVec 64)} {addr : ℕ → BitVec 64} {first k : ℕ}
    {s : MapState} {skb : Skb} (cmdType : BitVec 32) (hmap : ∀ j < k, map j = some (addr j))
    (hfail : map k = none) (hk : k ≤ skb.frags.length)
    (hdata : k ≠ 0 → (skb.frags.drop (k - 1)).sum ≠ 0) (hfirst : first < s.ring.count)
    (hi : s.i = ahead s.ring.count first 1) (hsize : s.size = skb.headlen)
    (hfit : skb.descs + 1 < s.ring.count)
    (hfree : ∀ j < s.ring.count, gap s.ring.count first j ≤ skb.descs →
      (s.ring.buffer j).len = 0) :
  ∃ p s', mapBuffers map cmdType skb.frags 0 first s = .failed s' ∧ p ≤ skb.descs
    ∧ s'.ring.count = s.ring.count ∧ s'.i = ahead s.ring.count first p
    ∧ s'.ring.unmapsBack first p ++ (s'.ring.buffer first).unmapHead
      = (skb.mapped k).reverse.flatMap (unmapOf addr)
    ∧ (s'.ring.buffer first).skb = (s.ring.buffer first).skb
    ∧ ∀ j < s.ring.count, p < gap s.ring.count first j → s'.ring.buffer j = s.ring.buffer j
  := by
  have hdescs : skb.descs = descsOf s.size + (skb.frags.map descsOf).sum := by
    rw [hsize]
    rfl
  have hpos : 1 ≤ descsOf s.size := Nat.le_max_left _ _
  have hself : gap s.ring.count first first = 0 := gap_self
  rcases k with _ | n
  · refine ⟨1, s, ?_, by omega, rfl, hi, ?_, rfl, fun _ _ _ => rfl⟩
    · cases hfrags : skb.frags <;> rw [mapBuffers, hfail]
    · have hskip : s.ring.unmapsBack first 1 = s.ring.unmapsBack first 0 := by
        apply unmapsBack_skip hfirst (Nat.zero_le 1) (by omega)
        intro j hj _ hhi
        exact hfree j hj (by omega)
      rw [hskip, TxBuffer.unmapHead, hfree first hfirst (by omega)]
      rfl
  · have hdata := hdata (Nat.succ_ne_zero n)
    rw [Nat.add_sub_cancel] at hdata
    obtain ⟨frag, frags, hfrags⟩ : ∃ frag frags, skb.frags = frag :: frags := by
      cases hfrags : skb.frags with
      | nil =>
        rw [hfrags] at hk
        exact absurd hk (Nat.not_succ_le_zero n)
      | cons frag frags => exact ⟨frag, frags, rfl⟩
    rw [hfrags] at hk hdata
    rw [hfrags, List.map_cons, List.sum_cons] at hdescs
    rw [List.length_cons, Nat.succ_le_succ_iff] at hk
    have hsum : (frag :: frags).sum ≠ 0 := by
      have hsplit := List.sum_take_add_sum_drop (frag :: frags) n
      omega
    obtain ⟨s₁, hstep, hi₁, hsize₁, hcount₁, hbuffer₁⟩ := mapBuffers_step cmdType (b := first)
      (hmap 0 (Nat.succ_pos n)) hsum hfirst hi (by omega)
    have hkept₁ {j : ℕ} (hgap : 0 < gap s.ring.count first j) :
        s₁.ring.buffer j = s.ring.buffer j := by
      rw [hbuffer₁]
      apply Function.update_of_ne
      rintro rfl
      omega
    have hfirst₁ : first < s₁.ring.count := by rwa [hcount₁]
    have hfrag : 1 ≤ descsOf frag := Nat.le_max_left _ _
    have hskip : s₁.ring.unmapsBack first (1 + descsOf s.size) = s₁.ring.unmapsBack first 0 := by
      apply unmapsBack_skip
      · exact hfirst₁
      · exact Nat.zero_le _
      · omega
      · intro j hj hlo hhi
        rw [hcount₁] at hj hlo hhi
        rw [hkept₁ hlo]
        exact hfree j hj (by omega)
    have hrest : ∀ j < n, map (1 + j) = some (addr (1 + j)) := by
      intro j hj
      have h := hmap (j + 1) (Nat.succ_lt_succ hj)
      rwa [Nat.add_comm] at h
    obtain ⟨p, s', heq, hp, hfails⟩ := mapBuffers_failsAt (m := 1 + descsOf s.size) (s := s₁) cmdType
      frags hrest (by rwa [Nat.add_comm] at hfail) hk
      (fun hne => by
        obtain ⟨n, rfl⟩ := Nat.exists_eq_succ_of_ne_zero hne
        exact hdata)
      Nat.one_pos (by omega) hfirst₁ (by rwa [hcount₁])
      (by rw [hcount₁, hsize₁]; omega)
      (fun j hj hlo hhi => by
        rw [hcount₁] at hj hlo hhi
        rw [hsize₁] at hhi
        rw [hkept₁ (by omega)]
        exact hfree j hj (by omega))
    have hle := hfails.le
    have hhead : s'.ring.buffer first = { s.ring.buffer first with len := s.size, dma := addr 0 } := by
      rw [hfails.kept first (by rwa [hcount₁]) (.inl (by rw [hcount₁, hself]; omega)), hbuffer₁,
        Function.update_self]
    rw [hsize₁] at hp
    refine ⟨p, s', ?_, by omega, hfails.count.trans hcount₁, ?_, ?_, ?_, fun j hj hgap => ?_⟩
    · rw [hfrags]
      exact hstep.trans heq
    · rw [hfails.i, hcount₁]
    · have hsingle : (s'.ring.buffer first).unmapHead = unmapOf addr (s.size, 0) := by
        rw [hhead, TxBuffer.unmapHead, unmapOf]
        by_cases hzero : s.size = 0 <;> simp [hzero]
      rw [hfails.unmaps, hskip, hsingle, hsize₁, Skb.mapped, hfrags, ← hsize, List.take_succ_cons,
        List.zipIdx_cons, List.reverse_cons, List.flatMap_append, List.flatMap_singleton]
      simp [TxRing.unmapsBack]
    · rw [hhead]
    · rw [hfails.kept j (by rwa [hcount₁]) (.inr (by rw [hcount₁]; omega)), hkept₁ (by omega)]

/-- A mapping that fails is rolled back on the ring. -/
theorem txMap_rollback {map : ℕ → Option (BitVec 64)} {addr : ℕ → BitVec 64} {r : TxRing}
    {first k : ℕ} {skb : Skb} (hdrLen : BitVec 8) (hmap : ∀ j < k, map j = some (addr j))
    (hfail : map k = none) (hk : k ≤ skb.frags.length)
    (hdata : k ≠ 0 → (skb.frags.drop (k - 1)).sum ≠ 0) (hfirst : first < r.count)
    (hnext : r.nextToUse = next r.count first) (hfit : skb.descs + 1 < r.count)
    (hskb : (r.buffer first).skb = some skb.id)
    (hfree : ∀ j < r.count, gap r.count first j ≤ skb.descs → (r.buffer j).len = 0) :
  ∃ r', txMap map r first skb hdrLen
      = (false, r', (skb.mapped k).reverse.flatMap (unmapOf addr) ++ [TxAct.freeSkb skb.id])
    ∧ r'.nextToUse = first ∧ r.Within first (skb.descs + 1) r' ∧ r'.watch = r.watch
    ∧ ∀ j < r.count, gap r.count first j ≤ skb.descs → (r'.buffer j).len = 0
  := by
  have hwithin := txMap_within map skb hdrLen hfirst hnext hfit
  rw [← ahead_one hfirst] at hnext
  set olinfoStatus := txOlinfoStatus (r.buffer first).txFlags
    (BitVec.ofNat 32 skb.len - hdrLen.setWidth 32) with holinfo
  set r₁ := r.setDesc r.nextToUse fun d => { d with olinfoStatus := olinfoStatus } with hr₁
  obtain ⟨p, s', heq, hp, hcount, hi, hunmaps, hskb', hkept⟩ := mapBuffers_rollback
    (s := ⟨r₁, r.nextToUse, skb.headlen⟩) (txCmdType (r.buffer first).txFlags) hmap hfail hk hdata
    hfirst hnext rfl hfit hfree
  have hcount : s'.ring.count = r.count := hcount
  have hfirst' : first < s'.ring.count := by rwa [hcount]
  obtain ⟨r', hback, hzeroed⟩ := unmapBack_zeroed s'.ring (m := p) s'.ring.count hfirst'
    (by omega) (by omega)
  have hi : s'.i = ahead s'.ring.count first p := by
    rw [hcount]
    exact hi
  rw [← hi] at hback
  have hbuffer : r'.buffer first = s'.ring.buffer first :=
    hzeroed.kept first hfirst' (.inl (by rw [gap_self]; exact Nat.one_pos))
  have hskb' : (r'.buffer first).skb = some skb.id := by
    rw [hbuffer, ← hskb]
    exact hskb'
  have hdropped : txMap map r first skb hdrLen = (false, (dropMapped first r').1,
      (skb.mapped k).reverse.flatMap (unmapOf addr) ++ [TxAct.freeSkb skb.id]) := by
    have hdrop : (dropMapped first r').2
        = (s'.ring.buffer first).unmapHead ++ [TxAct.freeSkb skb.id] := by
      rw [← hbuffer]
      simp only [dropMapped, hskb']
      rfl
    simp only [txMap, ← holinfo, ← hr₁, heq, hback, hdrop]
    rw [← hunmaps, List.append_assoc]
  refine ⟨_, hdropped, ?_⟩
  rw [hdropped] at hwithin
  rcases hwithin with ⟨_, _, heq', hsame, huse, hwithin⟩ | ⟨_, _, heq', -⟩
  · cases heq'
    refine ⟨huse, hwithin, funext hsame.watch, fun j hj hgap => ?_⟩
    by_cases hjf : j = first
    · rw [hjf]
      simp only [dropMapped, TxRing.setBuffer, Function.update_self]
    · have hdrop : (dropMapped first r').1.buffer j = r'.buffer j := Function.update_of_ne hjf _ _
      have hpos : 0 < gap r.count first j := by
        rw [Nat.pos_iff_ne_zero, Ne, gap_eq_zero hfirst]
        exact fun h => hjf h.symm
      rw [hdrop]
      rw [← hcount] at hj hgap hpos
      by_cases hslot : gap s'.ring.count first j ≤ p
      · rw [hzeroed.zeroed j hj hpos (Nat.lt_succ_of_le hslot)]
      · rw [hzeroed.kept j hj (.inr (by omega))]
        rw [hcount] at hj hgap hslot
        rw [hkept j hj (Nat.lt_of_not_le hslot)]
        exact hfree j hj hgap
  · cases heq'

/-- The step in which `ixgbevf_tx_map` drops a packet. -/
theorem TxQueue.xmitStep_dropped {C : Config} {s : TxQueue} {c : Call} {first : ℕ}
    {hdrLen : BitVec 8} {r : TxRing} {acts : List TxAct} (hx : s.xmit = .map c first hdrLen)
    (h : txMap c.map s.ring first c.skb hdrLen = (false, r, acts)) :
  s.xmitStep C = { s with ring := r, acts := s.acts ++ acts }.returns c false
  := by
  unfold xmitStep
  simp only [hx, h]
  rfl

/-- A mapping that fails is rolled back: `next_to_use` is the slot of the context descriptor
again, every buffer that was mapped and is not empty is unmapped once, the last one first, with
its own address and length, no slot is left with a mapping or a watch, the packet is freed, and
no bytes are reported to the queue. -/
theorem TxQueue.map_rollback {C : Config} {s : TxQueue} {c : Call} {first k : ℕ}
    {hdrLen : BitVec 8} {addr : ℕ → BitVec 64} (hx : s.xmit = .map c first hdrLen)
    (hmap : ∀ j < k, c.map j = some (addr j)) (hfail : c.map k = none)
    (hk : k ≤ c.skb.frags.length) (hdata : k ≠ 0 → (c.skb.frags.drop (k - 1)).sum ≠ 0)
    (hfirst : first < s.ring.count) (hnext : s.ring.nextToUse = Cyclic.next s.ring.count first)
    (hfit : c.skb.descs + 1 < s.ring.count) (hskb : (s.ring.buffer first).skb = some c.skb.id)
    (hfree : ∀ j < s.ring.count, gap s.ring.count first j ≤ c.skb.descs →
      (s.ring.buffer j).len = 0) :
  ∃ r', s.xmitStep C = { s with
      ring := r'
      acts := s.acts ++ ((c.skb.mapped k).reverse.flatMap (unmapOf addr)
        ++ [TxAct.freeSkb c.skb.id]) }.returns c false
    ∧ r'.nextToUse = first ∧ s.ring.Within first (c.skb.descs + 1) r' ∧ r'.watch = s.ring.watch
    ∧ ∀ j < s.ring.count, gap s.ring.count first j ≤ c.skb.descs → (r'.buffer j).len = 0
  := by
  obtain ⟨r', heq, hrest⟩ := txMap_rollback hdrLen hmap hfail hk hdata hfirst hnext hfit hskb hfree
  exact ⟨r', xmitStep_dropped hx heq, hrest⟩

namespace TxQueue

/-- A call in which only the mapping at the position `k` fails. -/
def failingCall (skb : Skb) (k : ℕ) : Call :=
  { plainCall skb false with map := fun j => if j = k then none else some (BitVec.ofNat 64 (j + 1)) }

/-- A call of `ixgbevf_xmit_frame` up to the start of `ixgbevf_tx_map`. -/
def offloads (c : Call) : List Event := [.xmit c, .xmitStep, .xmitStep]

/-- A queue on which the first of four pieces of a packet is mapped, and the fourth will not be. -/
def doomedQueue : TxQueue :=
  (offloads (failingCall (plainSkb 1 60 [40000, 100, 100] ethPIp) 3)).foldl
    (next smallRing) (fresh smallRing)

/-- The way back passes the three descriptors of the long fragment. -/
theorem doomedQueue_rollback :
  ∃ r', doomedQueue.xmitStep smallRing = { doomedQueue with
      ring := r'
      acts := doomedQueue.acts
        ++ (((plainSkb 1 60 [40000, 100, 100] ethPIp).mapped 3).reverse.flatMap
            (unmapOf fun j => BitVec.ofNat 64 (j + 1))
          ++ [TxAct.freeSkb 1]) }.returns
        (failingCall (plainSkb 1 60 [40000, 100, 100] ethPIp) 3).padded false
    ∧ r'.nextToUse = 0 ∧ doomedQueue.ring.Within 0 7 r' ∧ r'.watch = doomedQueue.ring.watch
    ∧ ∀ j < 64, gap 64 0 j ≤ 6 → (r'.buffer j).len = 0
  := by
  have hx : doomedQueue.xmit
      = .map (failingCall (plainSkb 1 60 [40000, 100, 100] ethPIp) 3).padded 0 0#8 := rfl
  have hmap : ∀ j < 3, (failingCall (plainSkb 1 60 [40000, 100, 100] ethPIp) 3).padded.map j
      = some (BitVec.ofNat 64 (j + 1)) := by
    decide
  exact map_rollback (C := smallRing) hx hmap rfl (by decide) (by decide) (by decide) (by decide)
    (by decide) (by decide) (by decide +kernel)

/-- A packet without data in its head, whose second mapping fails. -/
def headless : Call := failingCall (plainSkb 1 0 [100, 100] ethPIp) 1

/-- An empty head is mapped, and not unmapped when the mapping after it fails. -/
theorem headless_not_unmapped :
  TransSystem.AllAlong (Enabled smallRing) (next smallRing) (fresh smallRing)
      (offloads headless ++ [Event.xmitStep])
    ∧ headless.map 0 = some 1#64 ∧ headless.map 1 = none
    ∧ ((offloads headless ++ [Event.xmitStep]).foldl (next smallRing) (fresh smallRing)).acts
      = [.freeSkb 1]
  := by
  decide +kernel

/-! ### Runs -/


/-- The slots that no packet has hold no mapping, and a packet that is about to be mapped is in
its slot. -/
structure Unheld (s : TxQueue) : Prop where
  /-- The slots past the packets. -/
  free : ∀ j < s.ring.count, gap s.ring.count s.front s.base ≤ gap s.ring.count s.front j →
    (s.ring.buffer j).len = 0
  /-- The packet. -/
  skb : ∀ c first hdrLen, s.xmit = .map c first hdrLen → (s.ring.buffer first).skb = some c.skb.id

/-- Only where the two parties stand and the lengths matter, unless a packet comes to be
mapped. -/
theorem Unheld.congr {s s' : TxQueue} (h : s.Unheld) (hcount : s'.ring.count = s.ring.count)
    (hfront : s'.front = s.front) (hbase : s'.base = s.base)
    (hlen : ∀ j, (s'.ring.buffer j).len = (s.ring.buffer j).len)
    (hskb : ∀ c first hdrLen, s'.xmit = .map c first hdrLen →
      (s'.ring.buffer first).skb = some c.skb.id) :
  s'.Unheld
  := by
  refine ⟨fun j hj hgap => ?_, hskb⟩
  rw [hcount] at hj hgap
  rw [hfront, hbase] at hgap
  rw [hlen]
  exact h.free j hj hgap

/-- The slots from where a packet is about to be mapped on hold no mapping. -/
theorem Unheld.ahead {C : Config} {s : TxQueue} (h : s.Unheld) (hinv : Inv C s) {n : ℕ}
    (hfit : gap s.ring.count s.ring.nextToClean s.base + n < s.ring.count) :
  ∀ j < s.ring.count, gap s.ring.count s.base j ≤ n → (s.ring.buffer j).len = 0
  := by
  obtain ⟨sent, queued, hflight⟩ := hinv.flight
  have hgap := hflight.gap_base
  have hbase := hflight.base_lt
  have hfront := hflight.front_lt
  have hroom := hflight.room
  have hlen : gap s.ring.count s.front s.base = (sent ++ queued).sum := by
    rw [hflight.base]
    exact gap_ahead hfront hflight.tiles.fit
  intro j hj hle
  apply h.free j hj
  unfold gap at *
  split_ifs at * <;> omega

/-- What is promised to `ixgbevf_tx_map` when it starts. -/
theorem Inv.mapOk {C : Config} {s : TxQueue} {c : Call} {first : ℕ} {hdrLen : BitVec 8}
    (h : Inv C s) (hx : s.xmit = .map c first hdrLen) :
  s.base = first ∧ first < s.ring.count ∧ s.ring.nextToUse = Cyclic.next s.ring.count first
    ∧ gap s.ring.count s.ring.nextToClean s.base + (c.skb.descs + 1) < s.ring.count
  := by
  have hok := h.xmitOk
  rw [hx] at hok
  obtain ⟨hskb, hfits, hnext, -⟩ := hok
  obtain ⟨sent, queued, hflight⟩ := h.flight
  have hbase : s.base = first := by simp [base, hx]
  have hlt := hflight.base_lt
  rw [hbase] at hlt
  have hdescs := hskb.descs_lt_size C.frags_le
  unfold Fits at hfits
  exact ⟨hbase, hlt, hnext, by omega⟩

/-- The slots from where a packet is mapped on are written, and transmission moves on over `m`
of them. -/
theorem Unheld.moved {C : Config} {s t : TxQueue} (h : s.Unheld) (hinv : Inv C s) {m n : ℕ}
    (hm : gap s.ring.count s.ring.nextToClean s.base + m < s.ring.count)
    (hwithin : s.ring.Within s.base n t.ring) (hclean : t.clean = s.clean)
    (hbase : t.base = Cyclic.ahead s.ring.count s.base m)
    (hlen : ∀ j < s.ring.count, m ≤ gap s.ring.count s.base j → gap s.ring.count s.base j < n →
      (t.ring.buffer j).len = 0)
    (hmap : ∀ c first hdrLen, t.xmit ≠ .map c first hdrLen) :
  t.Unheld
  := by
  obtain ⟨sent, queued, hflight⟩ := hinv.flight
  have hgap := hflight.gap_base
  have hfrontLt := hflight.front_lt
  have hcount := hwithin.count
  have hfront : t.front = s.front := front_congr hclean hwithin.nextToClean
  have hsum : gap s.ring.count s.front s.base = (sent ++ queued).sum := by
    rw [hflight.base]
    exact gap_ahead hfrontLt hflight.tiles.fit
  have hmoved : gap s.ring.count s.front t.base = gap s.ring.count s.front s.base + m := by
    rw [hbase]
    exact gap_ahead_right hfrontLt hflight.base_lt (by omega)
  refine ⟨fun j hj hfree => ?_, fun c first hdrLen hx => absurd hx (hmap c first hdrLen)⟩
  rw [hcount] at hj hfree
  rw [hfront, hmoved] at hfree
  have hsplit := gap_add_gap hfrontLt hflight.base_lt hj (by omega)
  by_cases hslot : gap s.ring.count s.base j < n
  · exact hlen j hj (by omega) hslot
  · rw [(hwithin.kept j hj (Nat.le_of_not_lt hslot)).1]
    exact h.free j hj (by omega)

/-- A packet whose mapping fails leaves no mapping. -/
theorem map_unheld_failed {C : Config} {s : TxQueue} {c : Call} {first : ℕ} {hdrLen : BitVec 8}
    {r : TxRing} {acts : List TxAct} (hinv : Inv C s) (h : s.Unheld)
    (hx : s.xmit = .map c first hdrLen)
    (hfail : txMap c.map s.ring first c.skb hdrLen = (false, r, acts)) :
  ({ s with ring := r, acts := s.acts ++ acts }.returns c false).Unheld
  := by
  obtain ⟨hbase, hfirst, hnext, hfit⟩ := hinv.mapOk hx
  obtain ⟨k, hk, hnone, hsome, hdata⟩ := txMap_failed_first hfail
  have hmap : ∀ j < k, c.map j = some ((c.map j).getD 0#64) := by
    intro j hj
    obtain ⟨dma, hdma⟩ := Option.ne_none_iff_exists'.mp (hsome j hj)
    rw [hdma, Option.getD_some]
  have hfree := h.ahead hinv hfit
  rw [hbase] at hfree
  obtain ⟨r', heq, huse, hwithin, -, hlen⟩ := txMap_rollback (k := k) hdrLen hmap hnone hk hdata
    hfirst hnext (by omega) (h.skb c first hdrLen hx) fun j hj hgap => hfree j hj (by omega)
  rw [heq] at hfail
  cases hfail
  rw [← hbase] at hwithin hlen huse
  refine h.moved hinv (m := 0) (by omega) hwithin rfl ?_ ?_ ?_
  · rw [ahead_zero (by rwa [hbase])]
    exact huse
  · exact fun j hj _ hgap => hlen j hj (Nat.le_of_lt_succ hgap)
  · exact fun _ _ _ hmap => by cases hmap

/-- A packet that is mapped takes its slots. -/
theorem map_unheld_queued {C : Config} {s : TxQueue} {c : Call} {first : ℕ} {hdrLen : BitVec 8}
    {r : TxRing} {acts : List TxAct} (hinv : Inv C s) (h : s.Unheld)
    (hx : s.xmit = .map c first hdrLen)
    (hqueue : txMap c.map s.ring first c.skb hdrLen = (true, r, acts)) :
  ({ s with
    ring := r, acts := s.acts ++ acts, stackXoff := s.stackXoff || c.bqlFull
    xmit := .after .check c } : TxQueue).Unheld
  := by
  obtain ⟨hbase, hfirst, hnext, hfit⟩ := hinv.mapOk hx
  rcases txMap_within c.map c.skb hdrLen hfirst hnext (by omega) with
    ⟨_, _, heq, -⟩ | ⟨r', n, heq, hn, hpos, hplaced, hwithin⟩
  · rw [heq] at hqueue
    cases hqueue
  rw [heq] at hqueue
  cases hqueue
  have huse := hplaced.nextToUse
  rw [← hbase] at hwithin huse
  refine h.moved hinv (m := n) (by omega) hwithin rfl ?_ ?_ ?_
  · exact huse
  · exact fun j _ hle hlt => absurd hlt (Nat.not_lt.mpr hle)
  · exact fun _ _ _ hmap => by cases hmap

/-- A step of the transmission keeps the free slots without mappings. -/
theorem xmitMove_unheld {C : Config} {s s' : TxQueue} (hinv : Inv C s) (h : s.Unheld)
    (hmove : XmitMove C s s') :
  s'.Unheld
  := by
  have hbase (hx : ∀ c first hdrLen, s.xmit ≠ .map c first hdrLen) := base_eq hx
  -- a step that leaves the ring alone but for the tail register
  have hsame {t : TxQueue} (hx : ∀ c first hdrLen, s.xmit ≠ .map c first hdrLen)
      (hx' : ∀ c first hdrLen, t.xmit ≠ .map c first hdrLen)
      (hring : t.ring = { s.ring with tail := t.ring.tail }) (hclean : t.clean = s.clean) :
      t.Unheld := by
    have hcount : t.ring.count = s.ring.count := by rw [hring]
    have hnext : t.ring.nextToUse = s.ring.nextToUse := by rw [hring]
    have hntc : t.ring.nextToClean = s.ring.nextToClean := by rw [hring]
    have hlen : ∀ j, (t.ring.buffer j).len = (s.ring.buffer j).len := by
      intro j
      rw [hring]
    apply h.congr hcount _ _ hlen fun c first hdrLen hmap => absurd hmap (hx' c first hdrLen)
    · unfold front
      rw [hclean, hntc]
    · rw [base_eq hx', base_eq hx, hnext]
  cases hmove with
  | room hx _ => exact hsame (by simp [hx]) (by simp) rfl rfl
  | full hx => exact hsame (by simp [hx]) (by simp) rfl rfl
  | stop hx => exact hsame (by simp [hx]) (by simp) rfl rfl
  | busy hx _ => exact hsame (by simp [hx]) (by simp [TxQueue.returns]) rfl rfl
  | reprieve hx _ => exact hsame (by simp [hx]) (by simp) rfl rfl
  | start hx => exact hsame (by simp [hx]) (by simp) rfl rfl
  | dropped hx hdrop =>
    have hb := hbase (by simp [hx])
    rcases xmitOffload_prepared _ s.ring _ with ⟨r, acts, heq, hprep, hnext⟩ | ⟨r, hdrLen, acts, heq, -⟩
    · rw [heq] at hdrop
      cases hdrop
      refine h.congr hprep.within.count (front_congr rfl hprep.within.nextToClean)
        (hnext.trans hb.symm) (fun j => (hprep.mapping j).1) ?_
      intro c first hdrLen hmap
      cases hmap
    · rw [heq] at hdrop
      cases hdrop
  | ready hx hready =>
    have hb := hbase (by simp [hx])
    rcases xmitOffload_prepared _ s.ring _ with ⟨r, acts, heq, -⟩ | ⟨r, hdrLen, acts, heq, hprep, -, hskb⟩
    · rw [heq] at hready
      cases hready
    · rw [heq] at hready
      cases hready
      refine h.congr hprep.within.count (front_congr rfl hprep.within.nextToClean) hb.symm
        (fun j => (hprep.mapping j).1) ?_
      intro c first hdrLen hmap
      cases hmap
      exact hskb
  | failed hx hfail => exact map_unheld_failed hinv h hx hfail
  | queued hx hqueue => exact map_unheld_queued hinv h hx hqueue
  | after off hx => exact hsame (by simp [hx]) (by simp) rfl rfl
  | placed off hx => exact hsame (by simp [hx]) (by simp) rfl rfl
  | rung hx _ => exact hsame (by simp [hx]) (by simp [TxQueue.returns]) rfl rfl
  | quiet hx _ _ => exact hsame (by simp [hx]) (by simp [TxQueue.returns]) rfl rfl

/-- A step that changes no buffer and leaves both parties where they stand. -/
theorem Unheld.still {s s' : TxQueue} (h : s.Unheld) (hcount : s'.ring.count = s.ring.count)
    (hbuffer : s'.ring.buffer = s.ring.buffer) (hfront : s'.front = s.front)
    (hnext : s'.ring.nextToUse = s.ring.nextToUse) (hpc : s'.xmit = s.xmit) :
  s'.Unheld
  := by
  apply h.congr hcount hfront
  · unfold base
    rw [hpc, hnext]
  · intro j
    rw [hbuffer]
  · intro c first hdrLen hx
    rw [hpc] at hx
    rw [hbuffer]
    exact h.skb c first hdrLen hx

/-- A step of the cleaning keeps the free slots without mappings. -/
theorem cleanMove_unheld {C : Config} {s s' : TxQueue} {a : CleanAnswer} (hinv : Inv C s)
    (h : s.Unheld) (hmove : CleanMove C s a s') :
  s'.Unheld
  := by
  cases hmove with
  | @packet i budget packets eop j r acts pc hx hwatch hdone heq hpc =>
    obtain ⟨n, sent, queued, hflight, rfl⟩ := hinv.head hx hwatch hdone
    have hn := hflight.tiles.pos n (by simp)
    have hfit := hflight.tiles.fit
    have hfrontLt := hflight.front_lt
    have hbaseLt := hflight.base_lt
    rw [List.cons_append, List.sum_cons] at hfit
    obtain ⟨r', acts', heq', hwithin, hnext, -, hlen⟩ :=
      cleanPacket_zeroed s.ring hfrontLt hn (by omega)
    rw [heq] at heq'
    cases heq'
    have hcount := hwithin.count
    set s' : TxQueue := { s with ring := r, acts := s.acts ++ acts, clean := pc } with hs'
    have hfront : s.front = i := by simp [front, hx]
    have hfront' : s'.front = Cyclic.ahead s.ring.count i n := by
      rcases hpc with rfl | rfl <;> rfl
    have hbase : s'.base = s.base := by
      unfold base
      rw [show s'.xmit = s.xmit from rfl, show s'.ring.nextToUse = s.ring.nextToUse from hnext]
    have hsum : gap s.ring.count i s.base = n + (sent ++ queued).sum := by
      have hgap := gap_ahead hfrontLt hflight.tiles.fit
      rwa [← hflight.base, List.cons_append, List.sum_cons] at hgap
    have hleft := gap_ahead_left (n := n) hfrontLt hbaseLt (by omega)
    refine ⟨fun l hl hfree => ?_, fun c first hdrLen hmap => ?_⟩
    · change l < r.count at hl
      change gap r.count s'.front s'.base ≤ gap r.count s'.front l at hfree
      rw [hcount] at hl hfree
      rw [hfront', hbase, hleft] at hfree
      by_cases hslot : gap s.ring.count i l < n
      · exact hlen l hl hslot
      · change (r.buffer l).len = 0
        rw [(hwithin.kept l hl (Nat.le_of_not_lt hslot)).1]
        apply h.free l hl
        rw [gap_ahead_left hfrontLt hl (Nat.le_of_not_lt hslot)] at hfree
        rw [hfront]
        omega
    · have hx' : s.xmit = .map c first hdrLen := hmap
      have hfirst : s.base = first := by simp [base, hx']
      change (r.buffer first).skb = some c.skb.id
      rw [(hwithin.kept first (by rwa [← hfirst]) (by rw [← hfirst]; omega)).1]
      exact h.skb c first hdrLen hx'
  | finish hx => exact h.still rfl rfl (by simp [front, hx]) rfl rfl
  | stopped hx => exact h.still rfl rfl (by simp [front, hx]) rfl rfl
  | checked armed detect done hx => exact h.still rfl rfl (by simp [front, hx]) rfl rfl
  | hung armed detect done hx _ => exact h.still rfl rfl (by simp [front, hx]) rfl rfl
  | hangStop reset hx => exact h.still rfl rfl (by simp [front, hx, cleanReturns]) rfl rfl
  | carrier off hx _ _ => exact h.still rfl rfl (by simp [front, hx]) rfl rfl
  | noCarrier off hx _ => exact h.still rfl rfl (by simp [front, hx, cleanReturns]) rfl rfl
  | room hx _ => exact h.still rfl rfl (by simp [front, hx]) rfl rfl
  | noRoom hx _ => exact h.still rfl rfl (by simp [front, hx, cleanReturns]) rfl rfl
  | woken hx => exact h.still rfl rfl (by simp [front, hx, cleanReturns]) rfl rfl
  | running hx _ => exact h.still rfl rfl (by simp [front, hx, cleanReturns]) rfl rfl

/-- A step of a queue keeps the free slots without mappings. -/
theorem step_unheld {C : Config} {s s' : TxQueue} {e : Event} (hinv : Inv C s) (h : s.Unheld)
    (hstep : (system C).step s e s') :
  s'.Unheld
  := by
  obtain ⟨hen, rfl⟩ := hstep
  cases e with
  | xmit c =>
    have hidle : s.xmit = .idle := XmitPc.eq_idle hen.1
    have hbase := base_eq (s := s) (by simp [hidle])
    change (s.xmitFrame c).Unheld
    rcases s.xmitFrame_cases c with ⟨-, heq⟩ | heq
    · rw [heq]
      refine h.congr rfl rfl hbase.symm (fun _ => rfl) ?_
      intro c first hdrLen hmap
      cases hmap
    · rw [heq]
      refine h.congr rfl rfl hbase.symm (fun _ => rfl) ?_
      intro c first hdrLen hmap
      cases hmap
  | xmitStep =>
    cases hidle : s.xmit.isIdle with
    | true =>
      have heq : s.xmitStep C = s := by rw [xmitStep, XmitPc.eq_idle hidle]
      change (s.xmitStep C).Unheld
      rwa [heq]
    | false => exact xmitMove_unheld hinv h (xmitStep_move hidle)
  | clean =>
    have hidle : s.clean = .idle := hen
    change s.cleanTxIrq.Unheld
    rw [cleanTxIrq, if_neg (by simp [hinv.up])]
    exact h.still rfl rfl (by simp [front, hidle]) rfl rfl
  | cleanStep a =>
    by_cases hidle : s.clean = .idle
    · have heq : s.cleanStep C a = s := by rw [cleanStep, hidle]
      change (s.cleanStep C a).Unheld
      rwa [heq]
    · exact cleanMove_unheld hinv h (cleanStep_move a hidle)
  | writeBack i d => exact h.still rfl rfl rfl rfl rfl
  | carrier on => exact h.still rfl rfl rfl rfl rfl
  | checkHang =>
    simp only [next]
    split
    · exact h.still rfl rfl rfl rfl rfl
    · exact h

/-- In a run that starts with cleared buffers the free slots never hold a mapping. -/
theorem path_unheld {C : Config} {s₀ s : TxQueue} {es : List Event}
    {G : TxQueue → Event → Prop} (hinit : Init C s₀) (hclear : ∀ j, (s₀.ring.buffer j).len = 0)
    (hpath : (system C).Path G s₀ es s) :
  Inv C s ∧ s.Unheld
  := by
  have hstart : Inv C s₀ ∧ s₀.Unheld := by
    refine ⟨init_inv hinit, fun j _ _ => hclear j, fun c first hdrLen hx => ?_⟩
    rw [hinit.xmit] at hx
    cases hx
  apply hpath.invariant _ hstart
  rintro s e s' ⟨hinv, h⟩ - hstep
  exact ⟨step_inv hinv hstep, step_unheld hinv h hstep⟩

/-- In every run of a queue that starts with cleared buffers, a mapping that fails is rolled
back. -/
theorem path_rollback {C : Config} {s₀ s : TxQueue} {es : List Event}
    {G : TxQueue → Event → Prop} {c : Call} {first k : ℕ} {hdrLen : BitVec 8}
    {addr : ℕ → BitVec 64} (hinit : Init C s₀) (hclear : ∀ j, (s₀.ring.buffer j).len = 0)
    (hpath : (system C).Path G s₀ es s) (hx : s.xmit = .map c first hdrLen)
    (hmap : ∀ j < k, c.map j = some (addr j)) (hfail : c.map k = none)
    (hk : k ≤ c.skb.frags.length) (hdata : k ≠ 0 → (c.skb.frags.drop (k - 1)).sum ≠ 0) :
  ∃ r', s.xmitStep C = { s with
      ring := r'
      acts := s.acts ++ ((c.skb.mapped k).reverse.flatMap (unmapOf addr)
        ++ [TxAct.freeSkb c.skb.id]) }.returns c false
    ∧ r'.nextToUse = first ∧ s.ring.Within first (c.skb.descs + 1) r' ∧ r'.watch = s.ring.watch
    ∧ ∀ j < s.ring.count, gap s.ring.count first j ≤ c.skb.descs → (r'.buffer j).len = 0
  := by
  obtain ⟨hinv, h⟩ := path_unheld hinit hclear hpath
  obtain ⟨hbase, hfirst, hnext, hfit⟩ := hinv.mapOk hx
  have hfree := h.ahead hinv hfit
  rw [hbase] at hfree
  obtain ⟨r', heq, hrest⟩ := txMap_rollback hdrLen hmap hfail hk hdata hfirst hnext (by omega)
    (h.skb c first hdrLen hx) fun j hj hgap => hfree j hj (by omega)
  exact ⟨r', xmitStep_dropped hx heq, hrest⟩

end TxQueue

end Ixgbevf.Tx
