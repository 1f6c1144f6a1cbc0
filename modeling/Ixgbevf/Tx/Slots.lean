import Ixgbevf.Tx.Rollback
import Ixgbevf.Tx.Capacity

/-!
# What the slots of a packet keep

The buffers of a packet on the ring are all that is left of it for cleaning: from them it is
freed, its mappings are undone, and it is counted.  They keep the mappings that
`ixgbevf_tx_map` made, in the order in which it made them.
-/

namespace Ixgbevf.Tx

open Cyclic

/-! ### Mappings -/

/-- A mapping of `dma_map_single` or of `skb_frag_dma_map`. -/
structure Mapping where
  /-- It was made by `dma_map_single`. -/
  single : Bool
  /-- The address. -/
  dma : BitVec 64
  /-- The length. -/
  len : ℕ
  deriving DecidableEq, Repr

/-- The unmapping of a mapping. -/
def Mapping.unmap (m : Mapping) : TxAct :=
  if m.single then .unmapSingle m.dma m.len else .unmapPage m.dma m.len

/-- The mappings that `ixgbevf_tx_map` makes of buffers of the given sizes, the first of which is
at the position `k`: it stops where one is refused or where no data is left. -/
def mappings (map : ℕ → Option (BitVec 64)) : List ℕ → ℕ → List Mapping
  | [], _ => []
  | size :: sizes, k =>
    match map k with
    | none => []
    | some dma =>
      ⟨k == 0, dma, size⟩ :: (if sizes.sum = 0 then [] else mappings map sizes (k + 1))

/-- The mappings of a packet. -/
def Call.mappings (c : Call) : List Mapping := Tx.mappings c.map (c.skb.headlen :: c.skb.frags) 0

/-- A buffer that is mapped, with more data after it. -/
theorem mappings_cons {map : ℕ → Option (BitVec 64)} {dma : BitVec 64} {size k : ℕ}
    {sizes : List ℕ} (hmap : map k = some dma) (hsum : sizes.sum ≠ 0) :
  mappings map (size :: sizes) k = ⟨k == 0, dma, size⟩ :: mappings map sizes (k + 1)
  := by
  rw [mappings, hmap]
  simp only [if_neg hsum]

/-- The last buffer that is mapped. -/
theorem mappings_last {map : ℕ → Option (BitVec 64)} {dma : BitVec 64} {size k : ℕ}
    (hmap : map k = some dma) :
  mappings map [size] k = [⟨k == 0, dma, size⟩]
  := by
  rw [mappings, hmap]
  rfl

/-- The unmapping of a fragment that is not empty. -/
theorem unmapOf_fragment {dma : BitVec 64} {size k : ℕ} (hsize : 0 < size) (hk : 0 < k) :
  unmapOf (fun _ => dma) (size, k) = [(⟨k == 0, dma, size⟩ : Mapping).unmap]
  := by
  have hne : (k == 0) = false := by simpa using Nat.ne_of_gt hk
  rw [unmapOf, if_neg (Nat.ne_of_gt hsize), if_neg (Nat.ne_of_gt hk), Mapping.unmap, hne]
  rfl

/-- The mappings that are made before one is refused. -/
theorem mappings_refused {map : ℕ → Option (BitVec 64)} {addr : ℕ → BitVec 64} {sizes : List ℕ}
    {k n : ℕ} (hmap : ∀ j < n, map (k + j) = some (addr (k + j))) (hnone : map (k + n) = none)
    (hn : n < sizes.length) (hpos : ∀ size ∈ sizes.tail, 0 < size) :
  mappings map sizes k = ((sizes.take n).zipIdx k).map fun b => ⟨b.2 == 0, addr b.2, b.1⟩
  := by
  induction n generalizing sizes k with
  | zero =>
    rw [Nat.add_zero] at hnone
    cases sizes with
    | nil => rfl
    | cons size sizes =>
      rw [mappings, hnone]
      rfl
  | succ n ih =>
    obtain ⟨size, next, rest, rfl⟩ : ∃ size next rest, sizes = size :: next :: rest := by
      match sizes, hn with
      | size :: next :: rest, _ => exact ⟨size, next, rest, rfl⟩
    have hnext : 0 < next := hpos next List.mem_cons_self
    have hsum : (next :: rest).sum ≠ 0 := by
      rw [List.sum_cons]
      omega
    have hfirst : map k = some (addr k) := hmap 0 (Nat.succ_pos n)
    have hrest : mappings map (next :: rest) (k + 1)
        = (((next :: rest).take n).zipIdx (k + 1)).map fun b => ⟨b.2 == 0, addr b.2, b.1⟩ := by
      apply ih
      · intro j hj
        have h := hmap (j + 1) (Nat.succ_lt_succ hj)
        rwa [show k + (j + 1) = k + 1 + j by omega] at h
      · rwa [show k + (n + 1) = k + 1 + n by omega] at hnone
      · exact Nat.lt_of_succ_lt_succ hn
      · exact fun size hsize => hpos size (List.mem_cons_of_mem _ hsize)
    rw [mappings_cons hfirst hsum, hrest]
    rfl

/-- What is undone of the mappings that were made before one was refused. -/
theorem unmapOf_refused (addr : ℕ → BitVec 64) (bs : List (ℕ × ℕ)) :
  bs.flatMap (unmapOf addr)
    = ((bs.map fun b => (⟨b.2 == 0, addr b.2, b.1⟩ : Mapping)).filter
        fun m => decide (m.len ≠ 0)).map Mapping.unmap
  := by
  induction bs with
  | nil => rfl
  | cons b bs ih =>
    obtain ⟨size, k⟩ := b
    rw [List.flatMap_cons, ih, List.map_cons, List.filter_cons]
    by_cases hsize : size = 0
    · simp [unmapOf, hsize]
    · by_cases hk : k = 0
      · simp [unmapOf, Mapping.unmap, hsize, hk]
      · simp [unmapOf, Mapping.unmap, hsize, hk]

/-! ### Mapping a packet -/

/-- The mappings of the fragments are in the slots that the loop has passed. -/
theorem mapBuffers_kept {map : ℕ → Option (BitVec 64)} {first m k : ℕ} {s s' : MapState}
    {cmdType : BitVec 32} (frags : List ℕ)
    (heq : mapBuffers map cmdType frags k s.i s = .done s') (hsize : 0 < s.size)
    (hpos : ∀ frag ∈ frags, 0 < frag) (hk : 0 < k) (hm : 0 < m) (hfirst : first < s.ring.count)
    (hi : s.i = ahead s.ring.count first m)
    (hfit : m + descsOf s.size + (frags.map descsOf).sum ≤ s.ring.count)
    (hfree : ∀ j < s.ring.count, m ≤ gap s.ring.count first j →
      gap s.ring.count first j < m + descsOf s.size + (frags.map descsOf).sum →
      (s.ring.buffer j).len = 0) :
  ∃ p, m ≤ p ∧ p < m + descsOf s.size + (frags.map descsOf).sum
    ∧ s'.ring.count = s.ring.count ∧ s'.i = ahead s.ring.count first p
    ∧ s'.ring.unmapsBack first p
      = ((mappings map (s.size :: frags) k).map Mapping.unmap).reverse ++ s.ring.unmapsBack first m
    ∧ ∀ j < s.ring.count, gap s.ring.count first j < m → s'.ring.buffer j = s.ring.buffer j
  := by
  induction frags generalizing k m s with
  | nil =>
    have hdescs : 1 ≤ descsOf s.size := Nat.le_max_left _ _
    simp only [List.map_nil, List.sum_nil, Nat.add_zero] at hfit hfree ⊢
    have hlt : s.i < s.ring.count := by
      rw [hi]
      exact ahead_lt hfirst (by omega)
    cases hmap : map k with
    | none =>
      rw [mapBuffers, hmap] at heq
      cases heq
    | some dma =>
      have hadv := mapBuffer_advance cmdType dma s.i hlt (by omega)
      rw [mapBuffers, hmap] at heq
      cases heq
      set s₁ := splitBuffer cmdType s.size dma
        ⟨(s.ring.setBuffer s.i fun t => { t with len := s.size, dma := dma }).setDesc s.i
          fun d => { d with bufferAddr := dma }, s.i, s.size⟩ with hs₁
      have hcount : s₁.ring.count = s.ring.count := hadv.same.count
      have hbuffer : s₁.ring.buffer = Function.update s.ring.buffer s.i
          { s.ring.buffer s.i with len := s.size, dma := dma } :=
        splitBuffer_buffer cmdType s.size dma _
      have hslot : gap s.ring.count first s.i = m := by
        rw [hi, gap_ahead hfirst (by omega)]
      have hkept {j : ℕ} (hne : gap s.ring.count first j ≠ m) :
          s₁.ring.buffer j = s.ring.buffer j := by
        rw [hbuffer]
        apply Function.update_of_ne
        rintro rfl
        exact hne hslot
      have hskip : s₁.ring.unmapsBack first (m + (descsOf s.size - 1))
          = s₁.ring.unmapsBack first m := by
        apply unmapsBack_skip
        · rwa [hcount]
        · exact Nat.le_add_right _ _
        · omega
        · intro j hj hlo hhi
          rw [hcount] at hj hlo hhi
          rw [hkept (by omega)]
          exact hfree j hj (by omega) (by omega)
      have hrecord : s₁.ring.unmapsBack first m
          = unmapOf (fun _ => dma) (s.size, k) ++ s.ring.unmapsBack first m := by
        rw [hi] at hbuffer
        apply unmapsBack_record hk hm hfirst (by omega) hcount _ hbuffer
        rw [← hi]
        exact hfree _ hlt (by omega) (by omega)
      refine ⟨m + (descsOf s.size - 1), by omega, by omega, hcount, ?_, ?_, fun j _ hgap => ?_⟩
      · rw [hadv.i, hi, ahead_ahead hfirst (by omega)]
      · rw [hskip, hrecord, unmapOf_fragment hsize hk, mappings_last hmap]
        rfl
      · exact hkept (by omega)
  | cons frag frags ih =>
    have hdescs : 1 ≤ descsOf s.size := Nat.le_max_left _ _
    have hfrag : 1 ≤ descsOf frag := Nat.le_max_left _ _
    obtain ⟨hpositive, hpos⟩ := List.forall_mem_cons.mp hpos
    rw [List.map_cons, List.sum_cons] at hfit hfree ⊢
    have hsum : (frag :: frags).sum ≠ 0 := by
      rw [List.sum_cons]
      omega
    cases hmap : map k with
    | none =>
      rw [mapBuffers, hmap] at heq
      cases heq
    | some dma =>
      obtain ⟨s₁, hstep, hi₁, hsize₁, hcount₁, hbuffer₁⟩ := mapBuffers_step cmdType (b := s.i)
        hmap hsum hfirst hi (by omega)
      have hslot : gap s.ring.count first s.i = m := by
        rw [hi, gap_ahead hfirst (by omega)]
      have hkept₁ {j : ℕ} (hne : gap s.ring.count first j ≠ m) :
          s₁.ring.buffer j = s.ring.buffer j := by
        rw [hbuffer₁]
        apply Function.update_of_ne
        rintro rfl
        exact hne hslot
      have hskip : s₁.ring.unmapsBack first (m + descsOf s.size) = s₁.ring.unmapsBack first m := by
        apply unmapsBack_skip
        · rwa [hcount₁]
        · exact Nat.le_add_right _ _
        · omega
        · intro j hj hlo hhi
          rw [hcount₁] at hj hlo hhi
          rw [hkept₁ (by omega)]
          exact hfree j hj (by omega) (by omega)
      have hrecord : s₁.ring.unmapsBack first m
          = unmapOf (fun _ => dma) (s.size, k) ++ s.ring.unmapsBack first m := by
        rw [hi] at hbuffer₁
        apply unmapsBack_record hk hm hfirst (by omega) hcount₁ _ hbuffer₁
        rw [← hi]
        exact hfree _ (by rw [hi]; exact ahead_lt hfirst (by omega)) (by omega) (by omega)
      rw [hstep] at heq
      obtain ⟨p, hle, hlt, hcount, hi', hunmaps, hkept⟩ := ih (k := k + 1)
        (m := m + descsOf s.size) heq (by rwa [hsize₁]) hpos (Nat.succ_pos k) (by omega)
        (by rwa [hcount₁]) (by rwa [hcount₁]) (by rw [hcount₁, hsize₁]; omega)
        (fun j hj hlo hhi => by
          rw [hcount₁] at hj hlo hhi
          rw [hsize₁] at hhi
          rw [hkept₁ (by omega)]
          exact hfree j hj (by omega) (by omega))
      rw [hsize₁] at hlt hunmaps
      rw [hcount₁] at hcount hi' hkept
      refine ⟨p, by omega, by omega, hcount, hi', ?_, fun j hj hgap => ?_⟩
      · rw [hunmaps, hskip, hrecord, unmapOf_fragment hsize hk, mappings_cons hmap hsum,
          List.map_cons, List.reverse_cons, List.append_assoc]
      · rw [hkept j hj (by omega), hkept₁ (by omega)]

/-- The mappings of the packet are in the slots that the loop has passed: that of the head in the
slot `first`, and those of the fragments behind it. -/
theorem mapBuffers_packet {map : ℕ → Option (BitVec 64)} {first : ℕ} {s s' : MapState} {skb : Skb}
    {cmdType : BitVec 32} (heq : mapBuffers map cmdType skb.frags 0 first s = .done s')
    (hpos : ∀ frag ∈ skb.frags, 0 < frag) (hfirst : first < s.ring.count)
    (hi : s.i = ahead s.ring.count first 1) (hsize : s.size = skb.headlen)
    (hfit : skb.descs + 1 < s.ring.count)
    (hfree : ∀ j < s.ring.count, gap s.ring.count first j ≤ skb.descs →
      (s.ring.buffer j).len = 0) :
  ∃ p dma, p ≤ skb.descs ∧ s'.ring.count = s.ring.count ∧ s'.i = ahead s.ring.count first p
    ∧ s'.ring.buffer first = { s.ring.buffer first with len := skb.headlen, dma := dma }
    ∧ .unmapSingle dma skb.headlen :: (s'.ring.unmapsBack first p).reverse
      = (mappings map (skb.headlen :: skb.frags) 0).map Mapping.unmap
  := by
  have hdescs : skb.descs = descsOf s.size + (skb.frags.map descsOf).sum := by
    rw [hsize]
    rfl
  have hhead : 1 ≤ descsOf s.size := Nat.le_max_left _ _
  have hself : gap s.ring.count first first = 0 := gap_self
  -- the slots behind the head hold no mapping once the head is recorded
  have hskip {t : MapState} {dma : BitVec 64} (hcount : t.ring.count = s.ring.count)
      (hbuffer : t.ring.buffer
        = Function.update s.ring.buffer first { s.ring.buffer first with len := s.size, dma := dma })
      {p : ℕ} (hp : p ≤ skb.descs) : t.ring.unmapsBack first p = [] := by
    have hzero : t.ring.unmapsBack first p = t.ring.unmapsBack first 0 := by
      apply unmapsBack_skip
      · rwa [hcount]
      · exact Nat.zero_le _
      · omega
      · intro j hj hlo hhi
        rw [hcount] at hj hlo hhi
        rw [hbuffer, Function.update_of_ne]
        · exact hfree j hj (by omega)
        · rintro rfl
          omega
    rw [hzero]
    rfl
  cases hmap : map 0 with
  | none => cases hfrags : skb.frags <;> rw [hfrags, mapBuffers, hmap] at heq <;> cases heq
  | some dma =>
    cases hfrags : skb.frags with
    | nil =>
      rw [hfrags, List.map_nil, List.sum_nil] at hdescs
      have hlt : s.i < s.ring.count := by
        rw [hi]
        exact ahead_lt hfirst (by omega)
      have hadv := mapBuffer_advance cmdType dma first hlt (by omega)
      rw [hfrags, mapBuffers, hmap] at heq
      cases heq
      set s₁ := splitBuffer cmdType s.size dma
        ⟨(s.ring.setBuffer first fun t => { t with len := s.size, dma := dma }).setDesc s.i
          fun d => { d with bufferAddr := dma }, s.i, s.size⟩ with hs₁
      have hcount : s₁.ring.count = s.ring.count := hadv.same.count
      have hbuffer : s₁.ring.buffer = Function.update s.ring.buffer first
          { s.ring.buffer first with len := s.size, dma := dma } :=
        splitBuffer_buffer cmdType s.size dma _
      refine ⟨descsOf s.size, dma, by omega, hcount, ?_, ?_, ?_⟩
      · rw [hadv.i, hi, ahead_ahead hfirst (by omega)]
        congr 1
        omega
      · rw [hbuffer, Function.update_self, hsize]
      · rw [hskip hcount hbuffer (by omega), mappings_last hmap]
        rfl
    | cons frag frags =>
      rw [hfrags] at hpos
      obtain ⟨hfrag, hpos⟩ := List.forall_mem_cons.mp hpos
      rw [hfrags, List.map_cons, List.sum_cons] at hdescs
      have hsum : (frag :: frags).sum ≠ 0 := by
        rw [List.sum_cons]
        omega
      obtain ⟨s₁, hstep, hi₁, hsize₁, hcount₁, hbuffer₁⟩ := mapBuffers_step cmdType (b := first)
        hmap hsum hfirst hi (by omega)
      have hdescs₁ : 1 ≤ descsOf frag := Nat.le_max_left _ _
      rw [hfrags, hstep] at heq
      have hfirst₁ : first < s₁.ring.count := by rwa [hcount₁]
      obtain ⟨p, -, hlt, hcount, hi', hunmaps, hkept⟩ := mapBuffers_kept (m := 1 + descsOf s.size)
        frags heq (by rwa [hsize₁]) hpos Nat.one_pos (by omega) hfirst₁
        (by rwa [hcount₁]) (by rw [hcount₁, hsize₁]; omega)
        (fun j hj hlo hhi => by
          rw [hcount₁] at hj hlo hhi
          rw [hsize₁] at hhi
          rw [hbuffer₁, Function.update_of_ne]
          · exact hfree j hj (by omega)
          · rintro rfl
            omega)
      rw [hsize₁] at hlt hunmaps
      rw [hcount₁] at hcount hi' hkept
      refine ⟨p, dma, by omega, hcount, hi', ?_, ?_⟩
      · rw [hkept first hfirst (by omega), hbuffer₁, Function.update_self, hsize]
      · rw [hunmaps, hskip hcount₁ hbuffer₁ (by omega), List.append_nil, List.reverse_reverse,
          mappings_cons hmap hsum]
        rfl

/-- A packet that is put on the ring keeps its mappings in its slots. -/
theorem txMap_kept {map : ℕ → Option (BitVec 64)} {r r' : TxRing} {first : ℕ} {skb : Skb}
    {hdrLen : BitVec 8} {acts : List TxAct} (hfirst : first < r.count)
    (hnext : r.nextToUse = next r.count first) (hfit : skb.descs + 1 < r.count)
    (hpos : ∀ frag ∈ skb.frags, 0 < frag)
    (hfree : ∀ j < r.count, gap r.count first j ≤ skb.descs → (r.buffer j).len = 0)
    (heq : txMap map r first skb hdrLen = (true, r', acts)) :
  ∃ n, 0 < n ∧ n ≤ skb.descs + 1 ∧ r.Placed first n r' ∧ r.Within first n r'
    ∧ .unmapSingle (r'.buffer first).dma (r'.buffer first).len
        :: (r'.unmapsBack first (n - 1)).reverse
      = (mappings map (skb.headlen :: skb.frags) 0).map Mapping.unmap
    ∧ (r'.buffer first).skb = (r.buffer first).skb
    ∧ (r'.buffer first).bytecount = (r.buffer first).bytecount
  := by
  rcases txMap_within map skb hdrLen hfirst hnext hfit with
    ⟨_, _, heq', -⟩ | ⟨r₂, n, heq', hn, hpos', hplaced, hwithin⟩
  · rw [heq] at heq'
    cases heq'
  rw [heq] at heq'
  cases heq'
  refine ⟨n, hpos', hn, hplaced, hwithin, ?_⟩
  rw [← ahead_one hfirst] at hnext
  set olinfoStatus := txOlinfoStatus (r.buffer first).txFlags
    (BitVec.ofNat 32 skb.len - hdrLen.setWidth 32) with holinfo
  set r₁ := r.setDesc r.nextToUse fun d => { d with olinfoStatus := olinfoStatus } with hr₁
  cases hmapped : mapBuffers map (txCmdType (r.buffer first).txFlags) skb.frags 0 first
      ⟨r₁, r.nextToUse, skb.headlen⟩ with
  | failed s =>
    simp only [txMap, ← holinfo, ← hr₁, hmapped] at heq
    cases heq
  | done s =>
    obtain ⟨p, dma, hp, hcount, hi, hhead, hunmaps⟩ :=
      mapBuffers_packet (s := ⟨r₁, r.nextToUse, skb.headlen⟩) hmapped hpos hfirst hnext rfl hfit hfree
    have hcount : s.ring.count = r.count := hcount
    have hi : s.i = ahead r.count first p := hi
    simp only [txMap, ← holinfo, ← hr₁, hmapped] at heq
    set r₃ := (s.ring.setDesc s.i fun d => { d with
      cmdTypeLen := txCmdType (r.buffer first).txFlags ||| BitVec.ofNat 32 s.size
        ||| txdCmd }).setBuffer first fun b => { b with nextToWatch := some s.i } with hr₃
    have hring : r' = { r₃ with nextToUse := next r₃.count s.i } := by
      have h := congrArg (fun t => t.2.1) heq
      exact h.symm
    have hfirst' : r'.buffer first = { s.ring.buffer first with nextToWatch := some s.i } := by
      rw [hring]
      simp [hr₃, TxRing.setBuffer]
    have hkept : ∀ j, j ≠ first → r'.buffer j = s.ring.buffer j := by
      intro j hj
      rw [hring]
      exact Function.update_of_ne hj _ _
    have hlast : n = p + 1 := by
      have huse := hplaced.nextToUse
      rw [hring] at huse
      have huse : next s.ring.count s.i = ahead r.count first n := huse
      rw [hcount, hi, next_ahead hfirst (by omega), ahead_inj (by omega) (by omega)] at huse
      exact huse.symm
    have hsame : r'.unmapsBack first p = s.ring.unmapsBack first p := by
      apply TxRing.unmapsBack_congr
      · rwa [hcount]
      · omega
      · rw [hring]
        rfl
      · intro j _ hgap _
        apply hkept
        rintro rfl
        rw [gap_self] at hgap
        omega
    rw [hlast, Nat.add_sub_cancel, hsame, hfirst', hhead]
    exact ⟨hunmaps, rfl, rfl⟩

/-! ### Giving a packet back -/

/-- The unmappings of the slots from the first step after `a` on, in the order of the slots. -/
theorem unmapsBack_reverse (r : TxRing) (a n : ℕ) :
  (r.unmapsBack a n).reverse
    = (List.range' 1 n).flatMap fun k => (r.buffer (ahead r.count a k)).unmap
  := by
  have hreverse (b : TxBuffer) : b.unmap.reverse = b.unmap := by
    unfold TxBuffer.unmap
    split <;> rfl
  induction n with
  | zero => rfl
  | succ n ih =>
    rw [TxRing.unmapsBack, List.reverse_append, ih, hreverse, List.range'_1_concat,
      List.flatMap_append, List.flatMap_singleton, Nat.add_comm 1 n]

/-- The slots from the one `m` steps after `first` on, up to the one after `n` steps. -/
theorem range'_step {m n : ℕ} (h : m < n) :
  List.range' (m + 1) (n - m) = (m + 1) :: List.range' (m + 1 + 1) (n - (m + 1))
  := by
  rw [show n - m = n - (m + 1) + 1 by omega, List.range'_succ]

/-- The inner loop of `ixgbevf_clean_tx_irq` unmaps what is in the slots up to the last one. -/
theorem unmapFrags_acts (r : TxRing) {first m n : ℕ} (fuel : ℕ) (hfirst : first < r.count)
    (hmn : m ≤ n) (hn : n < r.count) (hfuel : n - m ≤ fuel) :
  (TxQueue.unmapFrags (ahead r.count first n) fuel (ahead r.count first m) r).2.2
    = (List.range' (m + 1) (n - m)).flatMap fun k => (r.buffer (ahead r.count first k)).unmap
  := by
  induction fuel generalizing r m with
  | zero =>
    obtain rfl : m = n := by omega
    rw [Nat.sub_self]
    rfl
  | succ fuel ih =>
    rw [TxQueue.unmapFrags]
    by_cases heq : m = n
    · rw [heq, if_pos rfl, Nat.sub_self]
      rfl
    · have hne : ahead r.count first m ≠ ahead r.count first n := by
        rwa [Ne, ahead_inj (by omega) hn]
      have hlt : m < n := Nat.lt_of_le_of_ne hmn heq
      rw [if_neg hne]
      simp only [next_ahead hfirst (show m + 1 ≤ r.count by omega)]
      set r₁ := r.setBuffer (ahead r.count first (m + 1))
        (fun b => if b.len ≠ 0 then { b with len := 0 } else b) with hr₁
      have hrest := ih r₁ (m := m + 1) hfirst hlt hn (by omega)
      have hcount : r₁.count = r.count := rfl
      rw [hcount] at hrest
      rw [hrest, range'_step hlt, List.flatMap_cons]
      congr 1
      -- the slots behind are as they were
      apply List.flatMap_congr
      intro k hk
      obtain ⟨hlo, hhi⟩ := List.mem_range'_1.mp hk
      congr 1
      apply Function.update_of_ne
      rw [Ne, ahead_inj (by omega) (by omega)]
      omega

/-- What is done to a packet that is taken off the ring. -/
theorem cleanPacket_acts (r : TxRing) {front n : ℕ} (hfront : front < r.count) (hn : 0 < n)
    (hfit : n < r.count) :
  (TxQueue.cleanPacket r front (ahead r.count front (n - 1))).2.2
    = (r.buffer front).skb.toList.map TxAct.freeSkb
      ++ TxAct.unmapSingle (r.buffer front).dma (r.buffer front).len
        :: (r.unmapsBack front (n - 1)).reverse
  := by
  set r₁ := r.setBuffer front fun b => { b with nextToWatch := none, len := 0 } with hr₁
  have hacts := unmapFrags_acts r₁ (m := 0) (n := n - 1) r₁.count hfront (Nat.zero_le _)
    (show n - 1 < r.count by omega) (show n - 1 - 0 ≤ r.count by omega)
  have hcount : r₁.count = r.count := rfl
  rw [hcount, ahead_zero hfront] at hacts
  have hkept : (List.range' (0 + 1) (n - 1 - 0)).flatMap
        (fun k => (r₁.buffer (ahead r.count front k)).unmap)
      = (r.unmapsBack front (n - 1)).reverse := by
    rw [unmapsBack_reverse]
    apply List.flatMap_congr
    intro k hk
    obtain ⟨hlo, hhi⟩ := List.mem_range'_1.mp hk
    congr 1
    apply Function.update_of_ne
    rw [Ne, eq_comm, ← gap_eq_zero hfront, gap_ahead hfront (by omega)]
    omega
  rw [TxQueue.cleanPacket]
  simp only [← hr₁, hcount, hacts, hkept, List.append_assoc, List.singleton_append]

/-- The inner loop of `ixgbevf_clean_tx_ring`, from the slot `i` on: the slot in which it ends and
what it unmaps.  It has no result where it does not end within the fuel. -/
def unmapRest (r : TxRing) (eop : Option ℕ) : ℕ → ℕ → Option (ℕ × List TxAct)
  | 0, _ => none
  | fuel + 1, i =>
    if eop = some i then some (i, [])
    else
      let i := next r.count i
      (unmapRest r eop fuel i).map fun p => (p.1, (r.buffer i).unmap ++ p.2)

/-- The loop of `ixgbevf_clean_tx_ring`, from the slot `i` on.  It visits a slot at most once, so
that the size of the ring is enough fuel. -/
def freePackets (r : TxRing) : ℕ → ℕ → Option (List TxAct)
  | 0, _ => none
  | fuel + 1, i =>
    if i = r.nextToUse then some []
    else
      let b := r.buffer i
      (unmapRest r b.nextToWatch r.count i).bind fun p =>
        (freePackets r fuel (next r.count p.1)).map fun acts =>
          b.skb.toList.map TxAct.freeSkb ++ TxAct.unmapSingle b.dma b.len :: (p.2 ++ acts)

/-- The inner loop of `ixgbevf_clean_tx_ring` unmaps what is in the slots up to the last one. -/
theorem unmapRest_acts (r : TxRing) {first m n : ℕ} (fuel : ℕ) (hfirst : first < r.count)
    (hmn : m ≤ n) (hn : n < r.count) (hfuel : n - m < fuel) :
  unmapRest r (some (ahead r.count first n)) fuel (ahead r.count first m)
    = some (ahead r.count first n,
      (List.range' (m + 1) (n - m)).flatMap fun k => (r.buffer (ahead r.count first k)).unmap)
  := by
  induction fuel generalizing m with
  | zero => exact absurd hfuel (Nat.not_lt_zero _)
  | succ fuel ih =>
    rw [unmapRest]
    by_cases heq : m = n
    · rw [heq, if_pos rfl, Nat.sub_self]
      rfl
    · have hne : some (ahead r.count first n) ≠ some (ahead r.count first m) := by
        rwa [Ne, Option.some.injEq, ahead_inj hn (by omega), eq_comm]
      have hlt : m < n := Nat.lt_of_le_of_ne hmn heq
      rw [if_neg hne]
      simp only [next_ahead hfirst (show m + 1 ≤ r.count by omega)]
      rw [ih (m := m + 1) hlt (by omega), range'_step hlt, List.flatMap_cons]
      rfl

end Ixgbevf.Tx
