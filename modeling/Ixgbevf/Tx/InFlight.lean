import Ixgbevf.Lib.Tiles
import Ixgbevf.Tx.Queue

/-!
# Packets in flight

What a Tx ring holds.  From the slot `front`, where cleaning stands, to the slot `base`,
where transmission stands, the ring holds packets: first those that the hardware was told
of, then those beyond the tail register, none of which is written back.  `InFlight` says so
of a ring, and `reachable_inv` of every state of every run of a queue.
-/

namespace Ixgbevf.Tx

open Cyclic

/-- The slots of the ring in which packets start, with the last slot of each packet. -/
def TxRing.watch (r : TxRing) (j : ℕ) : Option ℕ := (r.buffer j).nextToWatch

/-- The ring holds packets of the lengths `sent`, then those of the lengths `queued` beyond
the tail register. -/
structure InFlight (r : TxRing) (front base : ℕ) (sent queued : List ℕ) : Prop where
  /-- `next_to_clean` is on the ring. -/
  clean_lt : r.nextToClean < r.count
  /-- Cleaning stands on the ring. -/
  front_lt : front < r.count
  /-- The packets. -/
  tiles : Tiles r.count r.watch front (sent ++ queued)
  /-- Transmission stands past the packets. -/
  base : base = ahead r.count front (sent ++ queued).sum
  /-- The tail register is past the packets that the hardware was told of. -/
  tail : r.tail = ahead r.count front sent.sum
  /-- The packets and what is cleaned since the last update of `next_to_clean` fit. -/
  room : gap r.count r.nextToClean front + (sent ++ queued).sum < r.count
  /-- Every packet counts. -/
  segs : ∀ j, r.watch j ≠ none → 0 < (r.buffer j).gsoSegs
  /-- No packet beyond the tail register is written back. -/
  clear : ∀ m, sent.sum ≤ m → m < (sent ++ queued).sum → r.Clear (ahead r.count front m)

/-- From the slot `m` of a packet the inner loop of the cleaning ends in the last slot `n`. -/
theorem unmapFrags_last (r : TxRing) {first m n : ℕ} (fuel : ℕ) (hfirst : first < r.count)
    (hmn : m ≤ n) (hn : n < r.count) (hfuel : n - m ≤ fuel) :
  ∃ r' acts, TxQueue.unmapFrags (ahead r.count first n) fuel (ahead r.count first m) r
      = (r', ahead r.count first n, acts)
    ∧ r.Same r' ∧ r'.nextToUse = r.nextToUse ∧ ∀ j, (r'.buffer j).gsoSegs = (r.buffer j).gsoSegs
  := by
  induction fuel generalizing r m with
  | zero =>
    obtain rfl : m = n := by omega
    exact ⟨_, _, rfl, .refl _, rfl, fun _ => rfl⟩
  | succ fuel ih =>
    rw [TxQueue.unmapFrags]
    split
    · rename_i heq
      rw [heq]
      exact ⟨_, _, rfl, .refl _, rfl, fun _ => rfl⟩
    · rename_i hne
      have hlt : m < n := by
        rcases Nat.lt_or_eq_of_le hmn with h | rfl
        · exact h
        · exact absurd rfl hne
      simp only [next_ahead hfirst (show m + 1 ≤ r.count by omega)]
      set r₁ := r.setBuffer (ahead r.count first (m + 1))
        (fun b => if b.len ≠ 0 then { b with len := 0 } else b) with hr₁
      have hsegs₁ : ∀ j, (r₁.buffer j).gsoSegs = (r.buffer j).gsoSegs :=
        setBuffer_segs fun b => by split <;> rfl
      have hsame₁ : r.Same r₁ :=
        setBuffer_same (fun b => by split <;> rfl) fun b => by split <;> rfl
      have hcount : r₁.count = r.count := rfl
      obtain ⟨r', acts, heq, hsame, hnext, hsegs⟩ :=
        ih r₁ (m := m + 1) hfirst hlt hn (by omega)
      rw [hcount] at heq
      rw [heq]
      exact ⟨_, _, rfl, hsame₁.trans hsame, hnext, fun j => (hsegs j).trans (hsegs₁ j)⟩

namespace InFlight

variable {r r' : TxRing} {front base : ℕ} {sent queued : List ℕ}

/-- The way from `next_to_clean` to where transmission stands. -/
theorem gap_base (h : InFlight r front base sent queued) :
  gap r.count r.nextToClean base = gap r.count r.nextToClean front + (sent ++ queued).sum
  := by
  rw [h.base]
  exact gap_ahead_right h.clean_lt h.front_lt h.room

/-- The way from `next_to_clean` to the tail register. -/
theorem gap_tail (h : InFlight r front base sent queued) :
  gap r.count r.nextToClean r.tail = gap r.count r.nextToClean front + sent.sum
  := by
  have hroom := h.room
  rw [List.sum_append] at hroom
  rw [h.tail]
  exact gap_ahead_right h.clean_lt h.front_lt (by omega)

/-- The tail register is on the ring. -/
theorem tail_lt (h : InFlight r front base sent queued) :
  r.tail < r.count
  := by
  have hroom := h.room
  rw [List.sum_append] at hroom
  rw [h.tail]
  exact ahead_lt h.front_lt (by omega)

/-- Transmission stands on the ring. -/
theorem base_lt (h : InFlight r front base sent queued) :
  base < r.count
  := by
  rw [h.base]
  exact ahead_lt h.front_lt h.tiles.fit.le

/-- The way from the tail register to where transmission stands. -/
theorem gap_tail_base (h : InFlight r front base sent queued) :
  gap r.count r.tail base = queued.sum
  := by
  have hfit := h.tiles.fit
  rw [List.sum_append] at hfit
  have hbase : base = ahead r.count r.tail queued.sum := by
    rw [h.base, h.tail, ahead_ahead h.front_lt (by omega), List.sum_append]
  rw [hbase]
  exact gap_ahead h.tail_lt (by omega)

/-- With a packet beyond the tail register the ring is not empty. -/
theorem clean_ne_base (h : InFlight r front base sent queued) (hne : r.tail ≠ base) :
  r.nextToClean ≠ base
  := by
  intro heq
  have hgap := h.gap_base
  rw [heq, gap_self] at hgap
  apply hne
  rw [h.tail, h.base]
  congr 1
  rw [List.sum_append] at hgap ⊢
  omega

/-- The hardware does not know of the last packet while there are packets beyond the tail
register. -/
theorem tail_ne_base {n : ℕ} (h : InFlight r front base sent (queued ++ [n])) :
  r.tail ≠ base
  := by
  have hn := h.tiles.pos n (by simp)
  have hfit := h.tiles.fit
  simp only [List.sum_append, List.sum_cons, List.sum_nil] at hfit
  rw [h.tail, h.base, Ne, ahead_inj (by omega) h.tiles.fit]
  simp only [List.sum_append, List.sum_cons, List.sum_nil]
  omega

/-- The hardware does not own the slot where transmission stands. -/
theorem base_not_owned (h : InFlight r front base sent queued) :
  ¬ TxQueue.Owned r base
  := by
  intro howned
  have hlt := howned.2
  rw [h.gap_base, h.gap_tail, List.sum_append] at hlt
  omega

/-- No packet starts where transmission stands. -/
theorem base_free (h : InFlight r front base sent queued) :
  r.watch base = none
  := by
  rw [h.base]
  exact h.tiles.past h.front_lt

/-- Changes that keep the packets. -/
theorem same (h : InFlight r front base sent queued) (hsame : r.Same r') :
  InFlight r' front base sent queued
  := by
  obtain ⟨hclean, hfront, htiles, hbase, htail, hroom, hsegs, hclear⟩ := h
  have hwatch : r'.watch = r.watch := funext hsame.watch
  constructor
  case clean_lt => rwa [hsame.nextToClean, hsame.count]
  case front_lt => rwa [hsame.count]
  case tiles => rwa [hsame.count, hwatch]
  case base => rwa [hsame.count]
  case tail => rwa [hsame.tail, hsame.count]
  case room => rwa [hsame.nextToClean, hsame.count]
  case segs =>
    intro j hj
    rw [hwatch] at hj
    rw [hsame.segs j hj]
    exact hsegs j hj
  case clear =>
    intro m hm hm'
    rw [hsame.count]
    exact hsame.status _ (hclear m hm hm')

/-- A packet is put on the ring. -/
theorem placed {n : ℕ} (h : InFlight r front base sent queued) (hplaced : r.Placed base n r')
    (hn : 0 < n) (hfit : gap r.count r.nextToClean base + n < r.count)
    (hsegs : 0 < (r.buffer base).gsoSegs) (hclear : r.Clear base) :
  InFlight r' front (ahead r.count base n) sent (queued ++ [n])
  := by
  have hgap := h.gap_base
  have hwatch : r'.watch = Function.update r.watch base (some (ahead r.count base (n - 1))) :=
    hplaced.watch
  have hsum : (sent ++ (queued ++ [n])).sum = (sent ++ queued).sum + n := by
    simp [Nat.add_assoc]
  constructor
  case clean_lt => rw [hplaced.nextToClean, hplaced.count]; exact h.clean_lt
  case front_lt => rw [hplaced.count]; exact h.front_lt
  case tiles =>
    rw [hplaced.count, hwatch, ← List.append_assoc, h.base]
    exact h.tiles.push h.front_lt hn (by omega)
  case base =>
    rw [hplaced.count, hsum, h.base, ahead_ahead h.front_lt (by omega)]
  case tail => rw [hplaced.tail, hplaced.count]; exact h.tail
  case room => rw [hplaced.nextToClean, hplaced.count, hsum]; omega
  case segs =>
    intro j hj
    by_cases hjb : j = base
    · rw [hplaced.segs j (.inl hjb), hjb]
      exact hsegs
    · rw [hwatch, Function.update_of_ne hjb] at hj
      rw [hplaced.segs j (.inr hj)]
      exact h.segs j hj
  case clear =>
    intro m hm hm'
    rw [hsum] at hm'
    rw [hplaced.count]
    by_cases hold : m < (sent ++ queued).sum
    · exact hplaced.status _ (h.clear m hm hold)
    · have hpacket := hplaced.clear hclear (m - (sent ++ queued).sum) (by omega)
      rwa [h.base, ahead_ahead h.front_lt (by omega), Nat.add_sub_cancel' (by omega)] at hpacket

/-- The first packet is forgotten. -/
theorem forget {n : ℕ} (h : InFlight r front base (n :: sent) queued) :
  InFlight (r.setBuffer front fun b => { b with nextToWatch := none, len := 0 })
    (ahead r.count front n) base sent queued
  := by
  have hfit := h.tiles.fit
  have hroom := h.room
  have hfront : ahead r.count front n < r.count := by
    apply ahead_lt h.front_lt
    simp at hfit
    omega
  rw [List.cons_append, List.sum_cons] at hfit hroom
  set r' := r.setBuffer front fun b => { b with nextToWatch := none, len := 0 } with hr'
  have hwatch : r'.watch = Function.update r.watch front none := by
    funext j
    by_cases hj : j = front
    · subst hj
      simp [TxRing.watch, hr', TxRing.setBuffer]
    · simp [TxRing.watch, hr', TxRing.setBuffer, hj]
  constructor
  case clean_lt => exact h.clean_lt
  case front_lt => exact hfront
  case tiles =>
    rw [hwatch]
    exact h.tiles.pop h.front_lt
  case base =>
    rw [h.base, List.cons_append, List.sum_cons]
    exact (ahead_ahead h.front_lt (by omega)).symm
  case tail =>
    rw [List.sum_append] at hfit
    have htail := h.tail
    rw [List.sum_cons, ← ahead_ahead h.front_lt (by omega)] at htail
    exact htail
  case room =>
    have hgap := gap_ahead_right (n := n) h.clean_lt h.front_lt (by omega)
    simp only [hr', TxRing.setBuffer_count, TxRing.setBuffer_nextToClean, hgap]
    omega
  case segs =>
    intro j hj
    have hjf : j ≠ front := by
      rintro rfl
      rw [hwatch, Function.update_self] at hj
      exact hj rfl
    rw [hwatch, Function.update_of_ne hjf] at hj
    simpa [hr', TxRing.setBuffer, hjf] using h.segs j hj
  case clear =>
    intro m hm hm'
    have hpast := h.clear (n + m) (by rw [List.sum_cons]; omega)
      (by rw [List.cons_append, List.sum_cons]; omega)
    rw [← ahead_ahead h.front_lt (by omega)] at hpast
    exact hpast

/-- A packet that is written back is one that the hardware was told of. -/
theorem written_back {eop : ℕ} (h : InFlight r front base sent queued)
    (hwatch : (r.buffer front).nextToWatch = some eop) (hdone : ¬ r.Clear eop) :
  ∃ n sent', sent = n :: sent' ∧ 0 < n ∧ eop = ahead r.count front (n - 1)
  := by
  have hfront : r.watch front = some eop := hwatch
  rcases sent with _ | ⟨n, sent⟩
  · rcases queued with _ | ⟨n, queued⟩
    · rw [h.tiles.front_none h.front_lt] at hfront
      cases hfront
    · have hn := h.tiles.pos n List.mem_cons_self
      have htiles : Tiles r.count r.watch front (n :: queued) := h.tiles
      rw [htiles.front h.front_lt, Option.some.injEq] at hfront
      -- its last slot lies beyond the tail register
      refine absurd ?_ hdone
      rw [← hfront]
      apply h.clear _ (Nat.zero_le _)
      rw [List.nil_append, List.sum_cons]
      omega
  · have hn := h.tiles.pos n (by simp)
    have htiles : Tiles r.count r.watch front (n :: (sent ++ queued)) := h.tiles
    rw [htiles.front h.front_lt, Option.some.injEq] at hfront
    exact ⟨n, sent, rfl, hn, hfront.symm⟩

/-- The first packet is cleaned. -/
theorem cleaned {n : ℕ} (h : InFlight r front base (n :: sent) queued) :
  ∃ r' acts, TxQueue.cleanPacket r front (ahead r.count front (n - 1))
      = (r', ahead r.count front n, acts)
    ∧ InFlight r' (ahead r.count front n) base sent queued
    ∧ r'.count = r.count ∧ r'.nextToClean = r.nextToClean ∧ r'.nextToUse = r.nextToUse
    ∧ r'.tail = r.tail ∧ (∀ j, r.Clear j → r'.Clear j)
    ∧ ∀ j, (r'.buffer j).gsoSegs = (r.buffer j).gsoSegs
  := by
  have hn := h.tiles.pos n (by simp)
  have hfit := h.tiles.fit
  rw [List.cons_append, List.sum_cons] at hfit
  set r₁ := r.setBuffer front fun b => { b with nextToWatch := none, len := 0 } with hr₁
  have hforget : InFlight r₁ (ahead r.count front n) base sent queued := h.forget
  have hsegs₁ : ∀ j, (r₁.buffer j).gsoSegs = (r.buffer j).gsoSegs := setBuffer_segs fun _ => rfl
  obtain ⟨r', acts, heq, hsame, hnext, hsegs⟩ := unmapFrags_last r₁ (m := 0)
    (n := n - 1) r₁.count h.front_lt (Nat.zero_le _)
    (show n - 1 < r.count by omega) (show n - 1 - 0 ≤ r.count by omega)
  have hcount : r₁.count = r.count := rfl
  rw [hcount, ahead_zero h.front_lt] at heq
  have hlast : next r'.count (ahead r.count front (n - 1)) = ahead r.count front n := by
    rw [hsame.count, hcount, next_ahead h.front_lt (by omega), Nat.sub_add_cancel hn]
  have hpacket : TxQueue.cleanPacket r front (ahead r.count front (n - 1))
      = (r', ahead r.count front n, (r.buffer front).skb.toList.map TxAct.freeSkb
        ++ [TxAct.unmapSingle (r.buffer front).dma (r.buffer front).len] ++ acts) := by
    rw [TxQueue.cleanPacket]
    simp only [← hr₁, hcount, heq, hlast]
  exact ⟨r', _, hpacket, hforget.same hsame, hsame.count, hsame.nextToClean, hnext, hsame.tail,
    hsame.status, fun j => (hsegs j).trans (hsegs₁ j)⟩

/-- The update of `next_to_clean`. -/
theorem finished (h : InFlight r front base sent queued) :
  InFlight { r with nextToClean := front } front base sent queued
  := by
  obtain ⟨hclean, hfront, htiles, hbase, htail, hroom, hsegs, hclear⟩ := h
  refine ⟨hfront, hfront, htiles, hbase, htail, ?_, hsegs, hclear⟩
  rw [gap_self, Nat.zero_add]
  exact htiles.fit

/-- The update of the tail register. -/
theorem rung (h : InFlight r front base sent queued) :
  InFlight { r with tail := base } front base (sent ++ queued) []
  := by
  obtain ⟨hclean, hfront, htiles, hbase, htail, hroom, hsegs, hclear⟩ := h
  rw [← List.append_nil (sent ++ queued)] at htiles hroom
  refine ⟨hclean, hfront, htiles, ?_, hbase, hroom, hsegs, ?_⟩
  · rw [List.append_nil]
    exact hbase
  · intro m hm hm'
    rw [List.append_nil] at hm'
    omega

/-- The hardware writes back a descriptor that it was told of. -/
theorem writtenBack {i : ℕ} (h : InFlight r front base sent queued) (d : TxDesc)
    (hi : TxQueue.Owned r i) :
  InFlight (r.setDesc i fun _ => d) front base sent queued
  := by
  have hgap := h.gap_tail
  have hroom := h.room
  obtain ⟨hclean, hfront, htiles, hbase, htail, hroom, hsegs, hclear⟩ := h
  refine ⟨hclean, hfront, htiles, hbase, htail, hroom, hsegs, fun m hm hm' => ?_⟩
  have hne : ahead r.count front m ≠ i := by
    rintro rfl
    have howned := hi.2
    rw [gap_ahead_right hclean hfront (by omega), hgap] at howned
    omega
  simpa [TxRing.Clear, TxRing.setDesc, hne] using hclear m hm hm'

end InFlight

/-! ### The sizes of packets -/

/-- Descriptors of full buffers take no more room than the bytes they hold, but for the last
ones. -/
theorem sum_txdUseCount_le (frags : List ℕ) :
  (frags.map txdUseCount).sum * maxDataPerTxd
    ≤ frags.sum + (maxDataPerTxd - 1) * frags.length
  := by
  induction frags with
  | nil => simp
  | cons frag frags ih =>
    have hfrag : txdUseCount frag * maxDataPerTxd ≤ frag + maxDataPerTxd - 1 :=
      Nat.div_mul_le_self _ _
    have hmax : 0 < maxDataPerTxd := by decide
    rw [List.map_cons, List.sum_cons, List.sum_cons, List.length_cons, Nat.add_mul, Nat.mul_succ]
    omega

/-- Fragments that are not empty take as many descriptors as they are counted for. -/
theorem sum_descsOf {frags : List ℕ} (h : ∀ frag ∈ frags, 0 < frag) :
  (frags.map descsOf).sum = (frags.map txdUseCount).sum
  := by
  congr 1
  apply List.map_congr_left
  intro frag hfrag
  have hpos := h frag hfrag
  unfold descsOf txdUseCount maxDataPerTxd
  omega

namespace Skb.Ok

variable {F : ℕ} {skb : Skb}

/-- The descriptors that a packet is counted for. -/
theorem useCount_le (h : skb.Ok F) :
  txdUseCount skb.headlen + (skb.frags.map txdUseCount).sum ≤ F + 5
  := by
  have hhead := sum_txdUseCount_le (skb.headlen :: skb.frags)
  have hfrags := h.frags
  have hlen := h.len
  rw [List.map_cons, List.sum_cons, List.sum_cons, List.length_cons,
    show maxDataPerTxd = 16384 from rfl] at hhead
  unfold Skb.len Skb.dataLen at hlen
  omega

/-- A packet takes fewer slots than the driver asks for. -/
theorem descs_lt_size (h : skb.Ok F) (hF : F ≤ 45) :
  skb.descs + 1 < skb.size
  := by
  have hcount := h.useCount_le
  unfold Skb.descs Skb.size
  rw [sum_descsOf h.frags_pos, Nat.mod_eq_of_lt (by omega)]
  unfold descsOf
  omega

/-- The driver never asks for more slots than the threshold of the wake-up. -/
theorem size_le (h : skb.Ok F) (hF : F ≤ 45) :
  skb.size ≤ F + 8
  := by
  have hcount := h.useCount_le
  unfold Skb.size
  rw [Nat.mod_eq_of_lt (by omega)]
  omega

/-- A padded packet. -/
theorem putPadto (h : skb.Ok F) :
  (skb.putPadto 17).Ok F
  := by
  unfold Skb.putPadto
  by_cases hshort : skb.len < 17
  · rw [if_pos hshort]
    constructor
    case frags => exact Nat.zero_le _
    case frags_pos => exact fun frag hfrag => absurd hfrag List.not_mem_nil
    case len =>
      change 17 + 0 ≤ 65536
      omega
    case segs => exact h.segs
  · rw [if_neg hshort]
    exact h

end Skb.Ok

/-! ### The invariant -/

namespace TxQueue

/-- Where cleaning stands. -/
def front (s : TxQueue) : ℕ :=
  match s.clean with
  | .scan i _ _ => i
  | .finish i _ _ => i
  | _ => s.ring.nextToClean

/-- Where transmission stands: a packet in the middle of its mapping is not on the ring. -/
def base (s : TxQueue) : ℕ :=
  match s.xmit with
  | .map _ first _ => first
  | _ => s.ring.nextToUse

/-- The slots that the driver asks for a packet are free. -/
def Fits (s : TxQueue) (skb : Skb) : Prop :=
  gap s.ring.count s.ring.nextToClean s.base + skb.size < s.ring.count

/-- What holds at the steps of a call of `ixgbevf_xmit_frame`. -/
def XmitOk (C : Config) (s : TxQueue) : XmitPc → Prop
  | .idle => True
  | .before p c => c.skb.Ok C.maxSkbFrags ∧ (p = .start → s.Fits c.skb)
  | .offload c => c.skb.Ok C.maxSkbFrags ∧ s.Fits c.skb
  | .map c first _ => c.skb.Ok C.maxSkbFrags ∧ s.Fits c.skb
      ∧ s.ring.nextToUse = Cyclic.next s.ring.count first ∧ s.ring.Clear first
      ∧ 0 < (s.ring.buffer first).gsoSegs
  -- the hardware was not yet told of the packet
  | .after _ _ => s.ring.tail ≠ s.ring.nextToUse
  | .doorbell _ => s.ring.tail ≠ s.ring.nextToUse

/-- What holds at the steps of a call of `ixgbevf_clean_tx_irq`. -/
def CleanOk (s : TxQueue) : CleanPc → Prop
  | .scan i _ packets => packets = 0 → i = s.ring.nextToClean
  | .finish i _ packets => packets = 0 → i = s.ring.nextToClean
  | .hangStop => s.ring.nextToClean ≠ s.ring.tail
  | _ => True

/-- The invariant of a queue. -/
structure Inv (C : Config) (s : TxQueue) : Prop where
  /-- The size of the ring. -/
  count : s.ring.count = C.count
  /-- The interface is up. -/
  up : s.down = false
  /-- The packets on the ring. -/
  flight : ∃ sent queued, InFlight s.ring s.front s.base sent queued
  /-- The call of `ixgbevf_xmit_frame`. -/
  xmitOk : XmitOk C s s.xmit
  /-- The call of `ixgbevf_clean_tx_irq`. -/
  cleanOk : CleanOk s s.clean

/-- A queue that is set up has the invariant. -/
theorem init_inv {C : Config} {s : TxQueue} (h : Init C s) :
  Inv C s
  := by
  have hpos : 0 < s.ring.count := by
    rw [h.count]
    exact Nat.lt_of_lt_of_le (by decide) C.count_ge
  have hfront : s.front = 0 := by simp [front, h.clean, h.nextToClean]
  have hbase : s.base = 0 := by simp [base, h.xmit, h.nextToUse]
  refine ⟨h.count, h.down, ⟨[], [], ?_⟩, by simp [XmitOk, h.xmit], by simp [CleanOk, h.clean]⟩
  rw [hfront, hbase]
  constructor
  case clean_lt => rw [h.nextToClean]; exact hpos
  case front_lt => exact hpos
  case tiles => exact Tiles.empty hpos fun j _ => h.watch j
  case base => exact (ahead_zero hpos).symm
  case tail => rw [h.tail]; exact (ahead_zero hpos).symm
  case room => simpa [h.nextToClean] using hpos
  case segs => exact fun j hj => absurd (h.watch j) hj
  case clear => simp

/-- The free slots depend on where the two parties stand. -/
theorem Fits.congr {s s' : TxQueue} {skb : Skb} (h : s.Fits skb)
    (hcount : s'.ring.count = s.ring.count) (hclean : s'.ring.nextToClean = s.ring.nextToClean)
    (hbase : s'.base = s.base) :
  s'.Fits skb
  := by
  unfold Fits
  rw [hcount, hclean, hbase]
  exact h

/-- What a call of `ixgbevf_xmit_frame` relies on stays when others make room. -/
theorem XmitOk.mono {C : Config} {s s' : TxQueue} {p : XmitPc} (h : XmitOk C s p)
    (hcount : s'.ring.count = s.ring.count) (hnext : s'.ring.nextToUse = s.ring.nextToUse)
    (htail : s'.ring.tail = s.ring.tail)
    (hfits : ∀ skb, s.Fits skb → s'.Fits skb)
    (hclear : ∀ c first hdrLen, p = .map c first hdrLen → s.ring.Clear first → s'.ring.Clear first)
    (hsegs : ∀ j, (s'.ring.buffer j).gsoSegs = (s.ring.buffer j).gsoSegs) :
  XmitOk C s' p
  := by
  cases p with
  | idle => trivial
  | before p c => exact ⟨h.1, fun hp => hfits _ (h.2 hp)⟩
  | offload c => exact ⟨h.1, hfits _ h.2⟩
  | map c first hdrLen =>
    obtain ⟨hok, hfit, huse, hclean, hpos⟩ := h
    refine ⟨hok, hfits _ hfit, ?_, hclear c first hdrLen rfl hclean, ?_⟩
    · rw [hnext, hcount, huse]
    · rwa [hsegs]
  | after p c =>
    change s'.ring.tail ≠ s'.ring.nextToUse
    rw [htail, hnext]
    exact h
  | doorbell c =>
    change s'.ring.tail ≠ s'.ring.nextToUse
    rw [htail, hnext]
    exact h

/-- What a call of `ixgbevf_clean_tx_irq` relies on stays with the two indices. -/
theorem CleanOk.congr {s s' : TxQueue} {p : CleanPc} (h : CleanOk s p)
    (hclean : s'.ring.nextToClean = s.ring.nextToClean) (htail : s'.ring.tail = s.ring.tail) :
  CleanOk s' p
  := by
  cases p with
  | scan i budget packets => exact fun hp => (h hp).trans hclean.symm
  | finish i budget packets => exact fun hp => (h hp).trans hclean.symm
  | hangStop =>
    change s'.ring.nextToClean ≠ s'.ring.tail
    rw [hclean, htail]
    exact h
  | _ => trivial

/-- Where cleaning stands depends on its step and on `next_to_clean` only. -/
theorem front_congr {s s' : TxQueue} (hpc : s'.clean = s.clean)
    (hclean : s'.ring.nextToClean = s.ring.nextToClean) :
  s'.front = s.front
  := by
  unfold front
  rw [hpc, hclean]

/-- A step of the transmission that leaves the packets on the ring alone. -/
theorem Inv.xmit_same {C : Config} {s s' : TxQueue} (h : Inv C s)
    (hpc : s'.clean = s.clean) (hdown : s'.down = s.down) (hsame : s.ring.Same s'.ring)
    (hbase : s'.base = s.base) (hok : XmitOk C s' s'.xmit) :
  Inv C s'
  := by
  obtain ⟨sent, queued, hflight⟩ := h.flight
  refine ⟨hsame.count.trans h.count, hdown.trans h.up, ⟨sent, queued, ?_⟩, hok, ?_⟩
  · rw [front_congr hpc hsame.nextToClean, hbase]
    exact hflight.same hsame
  · rw [hpc]
    exact h.cleanOk.congr hsame.nextToClean hsame.tail

/-- A call that returns leaves the packets on the ring alone. -/
theorem Inv.returns {C : Config} {s : TxQueue} (h : Inv C s)
    (hbase : s.base = s.ring.nextToUse) (c : Call) (busy : Bool) :
  Inv C (s.returns c busy)
  := h.xmit_same rfl rfl (.refl _) hbase.symm trivial

/-- A call that is not made. -/
theorem XmitPc.eq_idle {p : XmitPc} (h : p.isIdle) :
  p = .idle
  := by
  cases p with
  | idle => rfl
  | _ => cases h

/-- Unless a packet is being mapped, transmission stands at `next_to_use`. -/
theorem base_eq {s : TxQueue} (h : ∀ c first hdrLen, s.xmit ≠ .map c first hdrLen) :
  s.base = s.ring.nextToUse
  := by
  unfold base
  split
  · rename_i hx
    exact absurd hx (h _ _ _)
  · rfl

/-- The driver finds the slots that it asks for free. -/
theorem Inv.fits {C : Config} {s : TxQueue} (h : Inv C s) (hbase : s.base = s.ring.nextToUse)
    {skb : Skb} (hroom : skb.size ≤ s.ring.descUnused) :
  s.Fits skb
  := by
  obtain ⟨sent, queued, hflight⟩ := h.flight
  have hlt := hflight.base_lt
  rw [hbase] at hlt
  have hunused := TxRing.descUnused_eq hflight.clean_lt hlt
  unfold Fits
  rw [hbase]
  omega

/-- A packet is recorded in a free slot. -/
theorem Inv.free {C : Config} {s : TxQueue} (h : Inv C s) (hbase : s.base = s.ring.nextToUse) :
  (s.ring.buffer s.ring.nextToUse).nextToWatch = none
  := by
  obtain ⟨sent, queued, hflight⟩ := h.flight
  rw [← hbase]
  exact hflight.base_free

/-- A step of the transmission before the packet is mapped keeps the invariant. -/
theorem offload_inv {C : Config} {s : TxQueue} {c : Call} (h : Inv C s) (hx : s.xmit = .offload c) :
  (∀ r acts, xmitOffload c.cowFails s.ring c.skb = (.dropped r, acts)
      → Inv C ({ s with ring := r, acts := s.acts ++ acts }.returns c false))
    ∧ ∀ r hdrLen acts, xmitOffload c.cowFails s.ring c.skb = (.ready r hdrLen, acts)
      → Inv C { s with ring := r, acts := s.acts ++ acts, xmit := .map c s.ring.nextToUse hdrLen }
  := by
  have hbase := base_eq (s := s) (by simp [hx])
  have hok := h.xmitOk
  rw [hx] at hok
  rcases xmitOffload_offloaded c.cowFails hok.1.segs (h.free hbase) with
    ⟨r, acts, heq, hsame, hnext⟩ | ⟨r, hdrLen, acts, heq, hoff⟩
  · refine ⟨fun r' acts' heq' => ?_, fun r' hdrLen' acts' heq' => ?_⟩
    · rw [heq] at heq'
      cases heq'
      exact h.xmit_same rfl rfl hsame (hnext.trans hbase.symm) trivial
    · rw [heq] at heq'
      cases heq'
  · refine ⟨fun r' acts' heq' => ?_, fun r' hdrLen' acts' heq' => ?_⟩
    · rw [heq] at heq'
      cases heq'
    · rw [heq] at heq'
      cases heq'
      refine h.xmit_same rfl rfl hoff.same hbase.symm ⟨hok.1, ?_, ?_, hoff.clear, hoff.segs⟩
      · exact hok.2.congr hoff.same.count hoff.same.nextToClean hbase.symm
      · change r.nextToUse = Cyclic.next r.count s.ring.nextToUse
        rw [hoff.same.count]
        exact hoff.nextToUse

/-- The mapping of a packet keeps the invariant, and takes the ring back to the slot of the
packet if it fails. -/
theorem map_inv {C : Config} {s : TxQueue} {c : Call} {first : ℕ} {hdrLen : BitVec 8}
    (h : Inv C s) (hx : s.xmit = .map c first hdrLen) :
  (∀ r acts, txMap c.map s.ring first c.skb hdrLen = (false, r, acts)
      → s.ring.Same r ∧ r.nextToUse = first
        ∧ Inv C ({ s with ring := r, acts := s.acts ++ acts }.returns c false))
    ∧ ∀ r acts, txMap c.map s.ring first c.skb hdrLen = (true, r, acts)
      → Inv C { s with
          ring := r, acts := s.acts ++ acts, stackXoff := s.stackXoff || c.bqlFull
          xmit := .after .check c }
  := by
  have hok := h.xmitOk
  rw [hx] at hok
  obtain ⟨hskb, hfit, hnext, hclear, hsegs⟩ := hok
  obtain ⟨sent, queued, hflight⟩ := h.flight
  have hbase : s.base = first := by simp [base, hx]
  rw [Fits, hbase] at hfit
  rw [hbase] at hflight
  have hdescs := hskb.descs_lt_size C.frags_le
  rcases txMap_placed c.map c.skb hdrLen hflight.base_lt hnext (by omega) with
    ⟨r, acts, heq, hsame, hback⟩ | ⟨r, n, heq, hn, hpos, hplaced⟩
  · refine ⟨fun r' acts' heq' => ?_, fun r' acts' heq' => ?_⟩
    · rw [heq] at heq'
      cases heq'
      exact ⟨hsame, hback, h.xmit_same rfl rfl hsame (hback.trans hbase.symm) trivial⟩
    · rw [heq] at heq'
      cases heq'
  · refine ⟨fun r' acts' heq' => ?_, fun r' acts' heq' => ?_⟩
    · rw [heq] at heq'
      cases heq'
    · rw [heq] at heq'
      cases heq'
      have hflight' := hflight.placed hplaced hpos (by omega) hsegs hclear
      refine ⟨hplaced.count.trans h.count, h.up, ⟨sent, queued ++ [n], ?_⟩, ?_, ?_⟩
      · have hfront := @front_congr s { s with ring := r } rfl hplaced.nextToClean
        rw [← hplaced.nextToUse] at hflight'
        rw [← hfront] at hflight'
        exact hflight'
      · change r.tail ≠ r.nextToUse
        rw [hplaced.nextToUse]
        exact hflight'.tail_ne_base
      · exact h.cleanOk.congr hplaced.nextToClean hplaced.tail

/-- A step of the transmission keeps the invariant. -/
theorem xmitMove_inv {C : Config} {s s' : TxQueue} (h : Inv C s) (hmove : XmitMove C s s') :
  Inv C s'
  := by
  have hok := h.xmitOk
  have hbase (hx : ∀ c first hdrLen, s.xmit ≠ .map c first hdrLen) := base_eq hx
  cases hmove with
  | room hx hroom =>
    rw [hx] at hok
    have hb := hbase (by simp [hx])
    exact h.xmit_same rfl rfl (.refl _) hb.symm ⟨hok.1, (h.fits hb hroom).congr rfl rfl hb.symm⟩
  | full hx =>
    rw [hx] at hok
    exact h.xmit_same rfl rfl (.refl _) (hbase (by simp [hx])).symm ⟨hok.1, by simp⟩
  | stop hx =>
    rw [hx] at hok
    exact h.xmit_same rfl rfl (.refl _) (hbase (by simp [hx])).symm ⟨hok.1, by simp⟩
  | busy hx _ => exact h.returns (hbase (by simp [hx])) _ _
  | reprieve hx hroom =>
    rw [hx] at hok
    have hb := hbase (by simp [hx])
    exact h.xmit_same rfl rfl (.refl _) hb.symm
      ⟨hok.1, fun _ => (h.fits hb hroom).congr rfl rfl hb.symm⟩
  | start hx =>
    rw [hx] at hok
    have hb := hbase (by simp [hx])
    exact h.xmit_same rfl rfl (.refl _) hb.symm ⟨hok.1, (hok.2 rfl).congr rfl rfl hb.symm⟩
  | dropped hx hdrop => exact (offload_inv h hx).1 _ _ hdrop
  | ready hx hready => exact (offload_inv h hx).2 _ _ _ hready
  | failed hx hfail => exact ((map_inv h hx).1 _ _ hfail).2.2
  | queued hx hqueue => exact (map_inv h hx).2 _ _ hqueue
  | after off hx =>
    rw [hx] at hok
    exact h.xmit_same rfl rfl (.refl _) (hbase (by simp [hx])).symm hok
  | placed off hx =>
    rw [hx] at hok
    exact h.xmit_same rfl rfl (.refl _) (hbase (by simp [hx])).symm hok
  | rung hx _ =>
    rw [hx] at hok
    obtain ⟨sent, queued, hflight⟩ := h.flight
    have hb := hbase (by simp [hx])
    rw [hb] at hflight
    refine ⟨h.count, h.up, ⟨sent ++ queued, [], hflight.rung⟩, trivial, ?_⟩
    have hclean := h.cleanOk
    have hne := hflight.clean_ne_base hok
    change CleanOk _ s.clean
    cases hpc : s.clean with
    | hangStop => exact hne
    | _ =>
      rw [hpc] at hclean
      exact hclean
  | quiet hx _ _ => exact h.returns (hbase (by simp [hx])) _ _

/-- A step of the cleaning that leaves the ring alone. -/
theorem Inv.clean_same {C : Config} {s s' : TxQueue} (h : Inv C s) (hring : s'.ring = s.ring)
    (hpc : s'.xmit = s.xmit) (hdown : s'.down = s.down) (hfront : s'.front = s.front)
    (hok : CleanOk s' s'.clean) :
  Inv C s'
  := by
  have hbase : s'.base = s.base := by
    unfold base
    rw [hpc, hring]
  refine ⟨?_, hdown.trans h.up, ?_, ?_, hok⟩
  · rw [hring]
    exact h.count
  · rw [hring, hfront, hbase]
    exact h.flight
  · rw [hpc]
    apply h.xmitOk.mono
    case hcount => rw [hring]
    case hnext => rw [hring]
    case htail => rw [hring]
    case hfits => exact fun skb hfit => hfit.congr (by rw [hring]) (by rw [hring]) hbase
    case hclear =>
      intro c first hdrLen _ hclear
      rwa [hring]
    case hsegs =>
      intro j
      rw [hring]

/-- A packet that is written back is the first one that the hardware was told of. -/
theorem Inv.head {C : Config} {s : TxQueue} {i budget packets eop : ℕ} (h : Inv C s)
    (hx : s.clean = .scan i budget packets) (hwatch : (s.ring.buffer i).nextToWatch = some eop)
    (hdone : ¬ s.ring.Clear eop) :
  ∃ n sent queued, InFlight s.ring i s.base (n :: sent) queued
    ∧ eop = ahead s.ring.count i (n - 1)
  := by
  obtain ⟨sent, queued, hflight⟩ := h.flight
  have hfront : s.front = i := by simp [front, hx]
  rw [hfront] at hflight
  obtain ⟨n, sent', rfl, -, heop⟩ := hflight.written_back hwatch hdone
  exact ⟨n, sent', queued, hflight, heop⟩

/-- The update of `next_to_clean` makes room. -/
theorem Inv.finish_fits {C : Config} {s : TxQueue} (h : Inv C s) {skb : Skb} (hfit : s.Fits skb) :
  gap s.ring.count s.front s.base + skb.size < s.ring.count
  := by
  obtain ⟨sent, queued, hflight⟩ := h.flight
  have hgap := hflight.gap_base
  have hgap' : gap s.ring.count s.front s.base = (sent ++ queued).sum := by
    rw [hflight.base]
    exact gap_ahead hflight.front_lt hflight.tiles.fit
  unfold Fits at hfit
  omega

/-- A step of the cleaning leaves the transmission alone. -/
theorem cleanMove_frame {C : Config} {s s' : TxQueue} {a : CleanAnswer} (h : Inv C s)
    (hmove : CleanMove C s a s') :
  s'.xmit = s.xmit ∧ s'.last = s.last ∧ s'.carrier = s.carrier
    ∧ s'.ring.count = s.ring.count ∧ s'.ring.nextToUse = s.ring.nextToUse
    ∧ s'.ring.tail = s.ring.tail
  := by
  cases hmove with
  | packet pc hx hwatch hdone heq _ =>
    obtain ⟨n, sent, queued, hflight, rfl⟩ := h.head hx hwatch hdone
    obtain ⟨r', acts', heq', -, hcount, -, huse, htail, -, -⟩ := hflight.cleaned
    rw [heq] at heq'
    cases heq'
    exact ⟨rfl, rfl, rfl, hcount, huse, htail⟩
  | _ => exact ⟨rfl, rfl, rfl, rfl, rfl, rfl⟩

/-- A step of the cleaning keeps the invariant. -/
theorem cleanMove_inv {C : Config} {s s' : TxQueue} {a : CleanAnswer} (h : Inv C s)
    (ha : Owned s.ring a.head ∨ a.head = s.ring.tail) (hmove : CleanMove C s a s') :
  Inv C s'
  := by
  have hok := h.cleanOk
  cases hmove with
  | stopped hx =>
    rw [hx] at hok
    exact h.clean_same rfl rfl rfl (by simp [front, hx]) hok
  | @packet i budget packets eop j r acts pc hx hwatch hdone heq hpc =>
    obtain ⟨n, sent, queued, hflight, rfl⟩ := h.head hx hwatch hdone
    obtain ⟨r', acts', heq', hflight', hcount, hclean, huse, htail, hclear, hsegs⟩ :=
      hflight.cleaned
    rw [heq] at heq'
    cases heq'
    have hpos : 0 < (s.ring.buffer i).gsoSegs := by
      apply hflight.segs
      unfold TxRing.watch
      rw [hwatch]
      simp
    set s' : TxQueue := { s with ring := r, acts := s.acts ++ acts, clean := pc } with hs'
    have hbase : s'.base = s.base := by
      unfold base
      rw [show s'.xmit = s.xmit from rfl, show s'.ring.nextToUse = s.ring.nextToUse from huse]
    have hfront : s'.front = ahead s.ring.count i n := by
      rcases hpc with rfl | rfl <;> rfl
    refine ⟨hcount.trans h.count, h.up, ⟨sent, queued, ?_⟩, ?_, ?_⟩
    · rw [hfront, hbase]
      exact hflight'
    · exact h.xmitOk.mono hcount huse htail (fun skb hfit => hfit.congr hcount hclean hbase)
        (fun _ first _ _ hfirst => hclear first hfirst) hsegs
    · rcases hpc with rfl | rfl
      · intro hzero
        omega
      · intro hzero
        omega
  | @finish i budget packets hx =>
    obtain ⟨sent, queued, hflight⟩ := h.flight
    have hfront : s.front = i := by simp [front, hx]
    refine ⟨h.count, h.up, ⟨sent, queued, ?_⟩, ?_, trivial⟩
    · have hfinished := hflight.finished
      rw [hfront] at hfinished
      exact hfinished
    · refine h.xmitOk.mono rfl rfl rfl ?_ (fun _ _ _ _ hclear => hclear) fun _ => rfl
      intro skb hfit
      have hfits := h.finish_fits hfit
      rw [hfront] at hfits
      exact hfits
  | checked armed detect done hx =>
    exact h.clean_same rfl rfl rfl (by simp [front, hx]) trivial
  | hung armed detect done hx hpending =>
    refine h.clean_same rfl rfl rfl (by simp [front, hx]) ?_
    intro heq
    have heq : s.ring.nextToClean = s.ring.tail := heq
    rcases ha with howned | htail
    · have hlt := howned.2
      rw [heq, gap_self] at hlt
      omega
    · simp [getTxPending, htail] at hpending
  | hangStop reset hx => exact h.clean_same rfl rfl rfl (by simp [front, hx, cleanReturns]) trivial
  | carrier off hx _ _ => exact h.clean_same rfl rfl rfl (by simp [front, hx]) trivial
  | noCarrier off hx _ =>
    exact h.clean_same rfl rfl rfl (by simp [front, hx, cleanReturns]) trivial
  | room hx _ => exact h.clean_same rfl rfl rfl (by simp [front, hx]) trivial
  | noRoom hx _ => exact h.clean_same rfl rfl rfl (by simp [front, hx, cleanReturns]) trivial
  | woken hx => exact h.clean_same rfl rfl rfl (by simp [front, hx, cleanReturns]) trivial
  | running hx _ => exact h.clean_same rfl rfl rfl (by simp [front, hx, cleanReturns]) trivial

/-- A step of a queue keeps the invariant. -/
theorem step_inv {C : Config} {s s' : TxQueue} {e : Event} (h : Inv C s)
    (hstep : (system C).step s e s') :
  Inv C s'
  := by
  obtain ⟨hen, rfl⟩ := hstep
  cases e with
  | xmit c =>
    have hidle : s.xmit = .idle := XmitPc.eq_idle hen.1
    have hbase := base_eq (s := s) (by simp [hidle])
    change Inv C (s.xmitFrame c)
    rcases s.xmitFrame_cases c with ⟨-, heq⟩ | heq
    · rw [heq]
      exact h.xmit_same rfl rfl (.refl _) hbase.symm trivial
    · rw [heq]
      exact h.xmit_same rfl rfl (.refl _) hbase.symm ⟨hen.2.putPadto, by simp⟩
  | xmitStep =>
    cases hidle : s.xmit.isIdle with
    | true =>
      have heq : s.xmitStep C = s := by rw [xmitStep, XmitPc.eq_idle hidle]
      change Inv C (s.xmitStep C)
      rwa [heq]
    | false => exact xmitMove_inv h (xmitStep_move hidle)
  | clean =>
    have hidle : s.clean = .idle := hen
    change Inv C s.cleanTxIrq
    rw [cleanTxIrq, if_neg (by simp [h.up])]
    exact h.clean_same rfl rfl rfl (by simp [front, hidle]) fun _ => rfl
  | cleanStep a =>
    by_cases hidle : s.clean = .idle
    · have heq : s.cleanStep C a = s := by rw [cleanStep, hidle]
      change Inv C (s.cleanStep C a)
      rwa [heq]
    · exact cleanMove_inv h hen (cleanStep_move a hidle)
  | writeBack i d =>
    obtain ⟨sent, queued, hflight⟩ := h.flight
    refine ⟨h.count, h.up, ⟨sent, queued, hflight.writtenBack d hen⟩, ?_, h.cleanOk.congr rfl rfl⟩
    refine h.xmitOk.mono rfl rfl rfl (fun _ hfit => hfit.congr rfl rfl rfl) ?_ fun _ => rfl
    intro c first hdrLen hpc hclear
    have hbase : s.base = first := by simp [base, hpc]
    have hne : first ≠ i := by
      rintro rfl
      rw [hbase] at hflight
      exact hflight.base_not_owned hen
    simpa [TxRing.Clear, TxQueue.next, TxRing.setDesc, hne] using hclear
  | carrier on => exact h.clean_same rfl rfl rfl rfl (h.cleanOk.congr rfl rfl)
  | checkHang =>
    simp only [next]
    split
    · exact h.clean_same rfl rfl rfl rfl (h.cleanOk.congr rfl rfl)
    · exact h

/-- Every state of every run has the invariant. -/
theorem reachable_inv {C : Config} {s : TxQueue} {G : TxQueue → Event → Prop}
    (h : (system C).Reachable G s) :
  Inv C s
  := by
  apply h.invariant
  · intro s hs
    exact init_inv hs
  · intro s e s' hs _ hstep
    exact step_inv hs hstep

end TxQueue

end Ixgbevf.Tx
