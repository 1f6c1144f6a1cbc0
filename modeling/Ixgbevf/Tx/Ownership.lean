import Ixgbevf.Tx.Books

/-!
# Who owns a packet

In every run of a Tx ring the packets that its books have on the ring are in its slots, one behind
the other, with what has to be undone for them.  Transmission puts a packet behind them in unused
slots, cleaning takes the first one away, and what it finds there is what was done for the packet.
-/

namespace Ixgbevf.Tx

open Cyclic
open TxRing (Within)

/-! ### Packets on the ring -/

/-- A packet is on the ring in the slots from `a` on. -/
structure OnRing (r : TxRing) (a : ℕ) (p : Packet) : Prop where
  /-- It takes slots. -/
  pos : 0 < p.descs
  /-- Its last descriptor. -/
  slot : p.slot = ahead r.count a (p.descs - 1)
  /-- The last descriptor is watched. -/
  watch : (r.buffer a).nextToWatch = some p.slot
  /-- The packet is in the first buffer. -/
  skb : (r.buffer a).skb = some p.id
  /-- The mappings are in its buffers. -/
  unmaps : .unmapSingle (r.buffer a).dma (r.buffer a).len :: (r.unmapsBack a (p.descs - 1)).reverse
    = p.maps.map Mapping.unmap
  /-- `gso_segs`. -/
  segs : (r.buffer a).gsoSegs = p.segs
  /-- `bytecount`. -/
  bytes : (r.buffer a).bytecount = p.bytes
  /-- If its last descriptor is written back, it is reported. -/
  status : ¬ r.Clear p.slot → p.reported = true

/-- The packets are on the ring one after the other, from the slot `a` on. -/
def Carried (r : TxRing) : ℕ → List Packet → Prop
  | _, [] => True
  | a, p :: ps => OnRing r a p ∧ Carried r (ahead r.count a p.descs) ps

section

variable {r r' : TxRing} {a : ℕ} {p : Packet} {ps : List Packet}

/-- The packet stays on the ring when its slots are left alone. -/
theorem OnRing.congr (h : OnRing r a p) (ha : a < r.count) (hfit : p.descs ≤ r.count)
    (hcount : r'.count = r.count)
    (hsame : ∀ j < r.count, gap r.count a j < p.descs →
      r'.buffer j = r.buffer j ∧ r'.desc j = r.desc j) :
  OnRing r' a p
  := by
  obtain ⟨hpos, hslot, hwatch, hskb, hunmaps, hsegs, hbytes, hstatus⟩ := h
  have hfirst : r'.buffer a = r.buffer a := (hsame a ha (by rwa [gap_self])).1
  have hback : r'.unmapsBack a (p.descs - 1) = r.unmapsBack a (p.descs - 1) := by
    apply TxRing.unmapsBack_congr ha (by omega) hcount
    exact fun j hj _ hle => (hsame j hj (by omega)).1
  have hlast : r'.desc p.slot = r.desc p.slot := by
    rw [hslot]
    apply (hsame _ (ahead_lt ha (by omega)) _).2
    rw [gap_ahead ha (by omega)]
    omega
  constructor
  case pos => exact hpos
  case slot => rwa [hcount]
  case watch => rwa [hfirst]
  case skb => rwa [hfirst]
  case unmaps => rwa [hfirst, hback]
  case segs => rwa [hfirst]
  case bytes => rwa [hfirst]
  case status =>
    unfold TxRing.Clear
    rw [hlast]
    exact hstatus

/-- The packets stay on the ring when their slots are left alone. -/
theorem Carried.congr (h : Carried r a ps) (ha : a < r.count)
    (hfit : (ps.map Packet.descs).sum < r.count) (hcount : r'.count = r.count)
    (hsame : ∀ j < r.count, gap r.count a j < (ps.map Packet.descs).sum →
      r'.buffer j = r.buffer j ∧ r'.desc j = r.desc j) :
  Carried r' a ps
  := by
  induction ps generalizing a with
  | nil => trivial
  | cons p ps ih =>
    obtain ⟨hp, hps⟩ := h
    rw [List.map_cons, List.sum_cons] at hfit hsame
    refine ⟨hp.congr ha (by omega) hcount fun j hj hgap => hsame j hj (by omega), ?_⟩
    rw [hcount]
    apply ih hps (ahead_lt ha (by omega)) (by omega)
    intro j hj hgap
    apply hsame j hj
    by_cases hslot : gap r.count a j < p.descs
    · omega
    · rw [gap_ahead_left ha hj (by omega)] at hgap
      omega

/-- A packet is put behind the others. -/
theorem Carried.push (h : Carried r a ps) (ha : a < r.count)
    (hfit : (ps.map Packet.descs).sum < r.count)
    (hp : OnRing r (ahead r.count a (ps.map Packet.descs).sum) p) :
  Carried r a (ps ++ [p])
  := by
  induction ps generalizing a with
  | nil =>
    rw [List.map_nil, List.sum_nil, ahead_zero ha] at hp
    exact ⟨hp, trivial⟩
  | cons q ps ih =>
    obtain ⟨hq, hps⟩ := h
    rw [List.map_cons, List.sum_cons] at hfit hp
    refine ⟨hq, ih hps (ahead_lt ha (by omega)) (by omega) ?_⟩
    rwa [ahead_ahead ha (by omega)]

/-- The hardware writes a descriptor back. -/
theorem Carried.writeBack (h : Carried r a ps) (i : ℕ) (d : TxDesc) :
  Carried (r.setDesc i fun _ => d) a
    (if d.olinfoStatus &&& txdStatDd = 0#32 then ps else ps.map (Packet.mark i))
  := by
  induction ps generalizing a with
  | nil => split <;> trivial
  | cons p ps ih =>
    obtain ⟨hp, hps⟩ := h
    have hps := ih hps
    have hback : (r.setDesc i fun _ => d).unmapsBack a (p.descs - 1)
        = r.unmapsBack a (p.descs - 1) := by
      induction p.descs - 1 with
      | zero => rfl
      | succ n ih =>
        rw [TxRing.unmapsBack, TxRing.unmapsBack, ih]
        rfl
    have hstatus : ¬ (r.setDesc i fun _ => d).Clear p.slot →
        p.reported = true ∨ (p.slot = i ∧ d.olinfoStatus &&& txdStatDd ≠ 0#32) := by
      intro hclear
      by_cases hi : p.slot = i
      · refine .inr ⟨hi, ?_⟩
        simpa [TxRing.Clear, TxRing.setDesc, hi] using hclear
      · refine .inl (hp.status ?_)
        simpa [TxRing.Clear, TxRing.setDesc, hi] using hclear
    obtain ⟨hpos, hslot, hwatch, hskb, hunmaps, hsegs, hbytes, -⟩ := hp
    rw [← hback] at hunmaps
    split
    · rename_i hno
      rw [if_pos hno] at hps
      refine ⟨⟨hpos, hslot, hwatch, hskb, hunmaps, hsegs, hbytes, fun hclear => ?_⟩, hps⟩
      exact (hstatus hclear).resolve_right fun h => h.2 hno
    · rename_i hdd
      rw [if_neg hdd] at hps
      obtain ⟨hid, hmaps, hslot', hdescs, hsegs', hbytes'⟩ := p.mark_same i
      refine ⟨⟨?_, ?_, ?_, ?_, ?_, ?_, ?_, fun hclear => ?_⟩, ?_⟩
      · rwa [hdescs]
      · rwa [hslot', hdescs]
      · rwa [hslot']
      · rwa [hid]
      · rwa [hdescs, hmaps]
      · rwa [hsegs']
      · rwa [hbytes']
      · rw [hslot'] at hclear
        unfold Packet.mark
        split
        · rfl
        · rename_i hne
          exact (hstatus hclear).resolve_right fun h => hne h.1
      · rw [hdescs]
        exact hps

end

/-! ### Transmission -/

/-- A transmission does nothing, gives a packet up and leaves the ring where it was, or puts a
packet on the ring. -/
inductive Transmits (r : TxRing) : TxRing → List TxEffect → List Packet → Prop where
  | busy : Transmits r r [] []
  | dropped {r' : TxRing} (id : ℕ) (maps : List Mapping) : Sent r 0 r' →
      (∀ j < r.count, (r.buffer j).len = 0 → (r'.buffer j).len = 0) →
      Transmits r r' (givenUp id maps) []
  | accepted {r' : TxRing} {p : Packet} : Sent r p.descs r' → OnRing r' r.nextToUse p →
      (∀ j < r.count, p.descs ≤ gap r.count r.nextToUse j → r'.buffer j = r.buffer j) →
      p.reported = false → Transmits r r' p.accepted [p]

/-- The effects of the unmappings of some mappings. -/
theorem filterMap_unmap (maps : List Mapping) :
  (maps.map Mapping.unmap).filterMap TxEffect.ofAct = maps.map TxEffect.unmap
  := by
  rw [List.filterMap_map]
  have hunmap : TxEffect.ofAct ∘ Mapping.unmap = some ∘ TxEffect.unmap := by
    funext m
    obtain ⟨single, dma, len⟩ := m
    cases single <;> rfl
  rw [hunmap, List.filterMap_eq_map]

/-- The slots that a transmission takes are those that it moves `next_to_use` over. -/
theorem Sent.unique {r r' : TxRing} {n m : ℕ} (h : Sent r n r') (hclean : r.nextToClean < r.count)
    (huse : r.nextToUse < r.count) (hm : m < r.count)
    (hnext : r'.nextToUse = ahead r.count r.nextToUse m) :
  n = m
  := by
  have hunused := TxRing.descUnused_eq hclean huse
  have hle := h.le
  rw [h.use, ahead_inj (by omega) hm] at hnext
  exact hnext

/-- Nothing fails for a packet. -/
structure Call.Flawless (c : Call) : Prop where
  /-- It is no LLDP frame. -/
  protocol : c.skb.protocol ≠ ethPLldp
  /-- It reaches to its VLAN header. -/
  vlan : vlanFlags c.skb ≠ none
  /-- Its head can be written. -/
  cow : c.cowFails = false
  /-- It is mapped. -/
  map : ∀ k, c.map k ≠ none

/-- The segments that the driver counts for a packet. -/
def Skb.segments (skb : Skb) : ℕ := if skb.csumPartial ∧ skb.gsoSize ≠ 0 then skb.gsoSegs else 1

/-- A packet that is dropped before it is mapped is freed. -/
theorem xmitOffload_dropped {cowFails : Bool} {r r' : TxRing} {skb : Skb} {acts : List TxAct}
    (h : xmitOffload cowFails r skb = (.dropped r', acts)) :
  acts = [.freeSkb skb.id] ∧ (vlanFlags skb = none ∨ cowFails = true)
  := by
  unfold xmitOffload at h
  simp only at h
  split at h
  · rename_i hvlan
    obtain ⟨-, rfl⟩ := Prod.mk.inj h
    exact ⟨by simp [TxRing.setBuffer], .inl hvlan⟩
  · split at h
    · rename_i htso
      obtain ⟨-, rfl⟩ := Prod.mk.inj h
      refine ⟨by simp [TxRing.setBuffer], .inr ?_⟩
      unfold tso at htso
      split at htso
      · cases htso
      split at htso
      · cases htso
      split at htso
      · assumption
      · cases htso
    · cases (Prod.mk.inj h).1
    · cases (Prod.mk.inj h).1

/-- A packet with its context descriptor on the ring is neither freed nor unmapped, the descriptor
is not written back, and the segments are counted. -/
theorem xmitOffload_ready {cowFails : Bool} {r r' : TxRing} {skb : Skb} {hdrLen : BitVec 8}
    {acts : List TxAct} (h : xmitOffload cowFails r skb = (.ready r' hdrLen, acts)) :
  acts.filterMap TxEffect.ofAct = [] ∧ r'.Clear r.nextToUse
    ∧ (r'.buffer r.nextToUse).gsoSegs = skb.segments
  := by
  have hcsum (r : TxRing) (skb : Skb) (lens tucmd : BitVec 32) :
      (noCsum r r.nextToUse skb lens tucmd).Clear r.nextToUse :=
    (txCtxtdesc_same r _ _ BitVec.zero_and).2
  unfold xmitOffload at h
  simp only at h
  split at h
  · cases (Prod.mk.inj h).1
  · split at h
    · cases (Prod.mk.inj h).1
    · rename_i htso
      obtain ⟨hready, rfl⟩ := Prod.mk.inj h
      cases hready
      unfold tso at htso
      split at htso
      · cases htso
      split at htso
      · cases htso
      split at htso
      · cases htso
      rename_i hoffload hgso _
      cases htso
      have hsegs : skb.segments = skb.gsoSegs := if_pos ⟨by simpa using hoffload, hgso⟩
      refine ⟨rfl, (txCtxtdesc_same _ _ _ (mssL4lenIdx_clear _ _)).2, ?_⟩
      rw [hsegs]
      simp [TxRing.txCtxtdesc, TxRing.setDesc, TxRing.setBuffer]
    · rename_i htso
      obtain ⟨hready, rfl⟩ := Prod.mk.inj h
      cases hready
      have hone : skb.segments = 1 := by
        rw [Skb.segments, if_neg]
        rintro ⟨hoffload, hgso⟩
        unfold tso at htso
        rw [if_neg (by simpa using hoffload), if_neg hgso] at htso
        split at htso <;> cases htso
      rw [hone]
      unfold txCsum
      split
      · exact ⟨rfl, hcsum _ _ _ _, by simp [noCsum, TxRing.txCtxtdesc, TxRing.setDesc, TxRing.setBuffer]⟩
      · split
        · exact ⟨rfl, hcsum _ _ _ _,
            by simp [noCsum, TxRing.txCtxtdesc, TxRing.setDesc, TxRing.setBuffer]⟩
        · exact ⟨rfl, hcsum _ _ _ _,
            by simp [noCsum, TxRing.txCtxtdesc, TxRing.setDesc, TxRing.setBuffer]⟩

/-- What `dma_error` undoes is what was mapped, but for empty buffers. -/
theorem undone_mappings {c : Call} {addr : ℕ → BitVec 64} {k : ℕ}
    (hmap : ∀ j < k, c.map j = some (addr j)) (hnone : c.map k = none)
    (hk : k ≤ c.skb.frags.length) (hpos : ∀ frag ∈ c.skb.frags, 0 < frag) :
  ((c.skb.mapped k).reverse.flatMap (unmapOf addr) ++ [TxAct.freeSkb c.skb.id]).filterMap
      TxEffect.ofAct
    = (c.mappings.filter fun m => decide (m.len ≠ 0)).reverse.map TxEffect.unmap
      ++ [.free c.skb.id]
  := by
  have hmaps : c.mappings = (c.skb.mapped k).map fun b => ⟨b.2 == 0, addr b.2, b.1⟩ := by
    apply mappings_refused
    · intro j hj
      rw [Nat.zero_add]
      exact hmap j hj
    · rwa [Nat.zero_add]
    · exact Nat.lt_succ_of_le hk
    · exact hpos
  rw [List.filterMap_append, unmapOf_refused, filterMap_unmap, hmaps, List.map_reverse,
    List.filter_reverse]
  rfl

namespace OwnedRing

variable {s : OwnedRing} {c : Call}

/-- The slots that are unused hold no mapping. -/
def Unmapped (r : TxRing) : Prop :=
  ∀ j < r.count, gap r.count r.nextToUse j < r.descUnused → (r.buffer j).len = 0

/-- What `ixgbevf_xmit_frame_ring` does: a packet for which there is room and nothing fails is put on
the ring. -/
theorem xmitFrameRing_transmits (hclean : s.ring.nextToClean < s.ring.count)
    (huse : s.ring.nextToUse < s.ring.count) (hfree : Unmapped s.ring)
    (hpos : ∀ frag ∈ c.skb.frags, 0 < frag)
    (hcount : txdUseCount c.skb.headlen + (c.skb.frags.map txdUseCount).sum < 2 ^ 16) :
  ∃ r es new, s.xmitFrameRing c = (s.setRing r).emit es ∧ Transmits s.ring r es new
    ∧ (c.Flawless → c.skb.size ≤ s.ring.descUnused →
      ∃ p, new = [p] ∧ p.segs = c.skb.segments ∧ p.descs ≤ c.skb.descs + 1)
  := by
  have hsent := xmitFrameRing_sent (c := c) hclean huse hpos hcount
  unfold Tx.xmitFrameRing at hsent
  unfold xmitFrameRing
  split
  · rename_i hlldp
    exact ⟨s.ring, _, _, rfl, .dropped c.skb.id [] (.none huse (.refl _) rfl rfl) fun _ _ h => h,
      fun hflawless => absurd hlldp hflawless.protocol⟩
  rename_i hlldp
  rw [if_neg hlldp] at hsent
  split
  · rename_i hroom
    refine ⟨s.ring, [], [], ?_, .busy, fun _ hle => absurd hroom (Nat.not_lt.mpr hle)⟩
    unfold emit setRing
    rw [List.append_nil]
    rfl
  rename_i hroom
  rw [if_neg hroom] at hsent
  have hsize := c.skb.descs_lt_size hpos hcount
  have hunused := TxRing.descUnused_eq hclean huse
  rcases xmitOffload_prepared c.cowFails s.ring c.skb with
    ⟨r₁, acts, heq, h₁, hnext⟩ | ⟨r₁, hdrLen, acts, heq, h₁, hnext, hskb⟩
  · rw [heq] at hsent ⊢
    obtain ⟨rfl, hfails⟩ := xmitOffload_dropped heq
    obtain ⟨n, hsent⟩ := hsent
    have hn := hsent.unique hclean huse (m := 0) (by omega) (by rwa [ahead_zero huse])
    rw [hn] at hsent
    refine ⟨r₁, _, _, rfl, .dropped c.skb.id [] hsent fun j _ hlen => ?_, fun hflawless => ?_⟩
    · rwa [(h₁.mapping j).1]
    · rcases hfails with hvlan | hcow
      · exact absurd hvlan hflawless.vlan
      · rw [hflawless.cow] at hcow
        cases hcow
  · rw [heq] at hsent ⊢
    obtain ⟨hacts, hclear, hsegs⟩ := xmitOffload_ready heq
    simp only at hsent ⊢
    have hcount₁ : r₁.count = s.ring.count := h₁.within.count
    have hfirst : s.ring.nextToUse < r₁.count := by rwa [hcount₁]
    rw [← hcount₁] at hnext
    have hfree₁ : ∀ j < r₁.count, gap r₁.count s.ring.nextToUse j ≤ c.skb.descs →
        (r₁.buffer j).len = 0 := by
      intro j hj hgap
      rw [hcount₁] at hj hgap
      rw [(h₁.mapping j).1]
      exact hfree j hj (by omega)
    rcases hmap : txMap c.map r₁ s.ring.nextToUse c.skb hdrLen with ⟨queued, r₂, acts'⟩
    simp only [hmap] at hsent ⊢
    obtain ⟨n, hsent⟩ := hsent
    cases queued with
    | false =>
      obtain ⟨k, hk, hnone, hsome, hdata⟩ := txMap_failed_first hmap
      have haddr : ∀ j < k, c.map j = some ((c.map j).getD 0#64) := by
        intro j hj
        obtain ⟨dma, hdma⟩ := Option.ne_none_iff_exists'.mp (hsome j hj)
        rw [hdma, Option.getD_some]
      obtain ⟨r', heq', huse', hwithin, -, hlen⟩ := txMap_rollback hdrLen haddr hnone hk hdata hfirst
        hnext (by omega) hskb hfree₁
      rw [hmap] at heq'
      cases heq'
      have hn := hsent.unique hclean huse (m := 0) (by omega) (by rwa [ahead_zero huse])
      rw [hn] at hsent
      refine ⟨r₂, givenUp c.skb.id c.mappings, [], ?_, .dropped _ _ hsent fun j hj hzero => ?_,
        fun hflawless => absurd hnone (hflawless.map k)⟩
      · rw [hacts, undone_mappings haddr hnone hk hpos, if_neg Bool.false_ne_true]
        rfl
      · by_cases hslot : gap r₁.count s.ring.nextToUse j ≤ c.skb.descs
        · exact hlen j (by rwa [hcount₁]) hslot
        · rwa [(hwithin.kept j (by rwa [hcount₁]) (Nat.lt_of_not_le hslot)).1, (h₁.mapping j).1]
    | true =>
      obtain ⟨n', hpos', hle, hplaced, hwithin, hunmaps, hskb', hbytes'⟩ := txMap_kept hfirst hnext
        (by omega) hpos hfree₁ hmap
      have huse' := hplaced.nextToUse
      rw [hcount₁] at huse'
      have hn := hsent.unique hclean huse (m := n') (by omega) huse'
      rw [hn] at hsent
      have hwatch : (r₂.buffer s.ring.nextToUse).nextToWatch
          = some (ahead s.ring.count s.ring.nextToUse (n' - 1)) := by
        have h := congrFun hplaced.watch s.ring.nextToUse
        rwa [Function.update_self, hcount₁] at h
      set p : Packet :=
        { id := c.skb.id
          maps := c.mappings
          slot := ahead s.ring.count s.ring.nextToUse (n' - 1)
          descs := n'
          segs := (r₂.buffer s.ring.nextToUse).gsoSegs
          bytes := (r₂.buffer s.ring.nextToUse).bytecount
          reported := false } with hp
      have hput : puts r₂ s.ring.nextToUse = [.put p.slot p.segs p.bytes] := by
        rw [puts, hwatch]
        rfl
      have hcount₂ : r₂.count = s.ring.count := hplaced.count.trans hcount₁
      have hlast : r₂.Clear p.slot := by
        have h := hplaced.clear hclear (n' - 1) (by omega)
        rwa [hcount₁] at h
      have hcounted : p.segs = c.skb.segments := (hplaced.segs _ (.inl rfl)).trans hsegs
      refine ⟨r₂, p.accepted, [p], ?_, .accepted hsent ?_ ?_ rfl, fun _ _ => ⟨p, rfl, hcounted, hle⟩⟩
      · rw [if_pos rfl, hput, hacts]
        rfl
      · exact ⟨hpos', by rw [hcount₂], hwatch, hskb'.trans hskb, hunmaps, rfl, rfl,
          fun h => absurd hlast h⟩
      · intro j hj hgap
        have hgap : n' ≤ gap s.ring.count s.ring.nextToUse j := hgap
        rw [(hwithin.kept j (by rwa [hcount₁]) (by rwa [hcount₁])).1]
        exact (h₁.within.kept j hj (by omega)).1

/-- What `ixgbevf_xmit_frame` does: a packet for which there is room and nothing fails is put on the
ring, unless it is padded. -/
theorem xmitFrame_transmits (hclean : s.ring.nextToClean < s.ring.count)
    (huse : s.ring.nextToUse < s.ring.count) (hfree : Unmapped s.ring)
    (hpos : ∀ frag ∈ c.skb.frags, 0 < frag)
    (hcount : txdUseCount c.skb.headlen + (c.skb.frags.map txdUseCount).sum < 2 ^ 16) :
  ∃ r es new, s.xmitFrame c = (s.setRing r).emit es ∧ Transmits s.ring r es new
    ∧ (c.Flawless → 17 ≤ c.skb.len → c.skb.size ≤ s.ring.descUnused →
      ∃ p, new = [p] ∧ p.segs = c.skb.segments ∧ p.descs ≤ c.skb.descs + 1)
  := by
  have hdrops {r : TxRing} (huse : r.nextToUse < r.count) : Transmits r r (givenUp c.skb.id []) [] :=
    .dropped c.skb.id [] (.none huse (.refl _) rfl rfl) fun _ _ h => h
  unfold xmitFrame
  split
  · exact ⟨s.ring, _, _, rfl, hdrops huse, fun _ hlen => by omega⟩
  split
  · exact ⟨s.ring, _, _, rfl, hdrops huse, fun _ hlen => by omega⟩
  unfold Call.padded Skb.putPadto
  split
  · obtain ⟨r, es, new, heq, ht, -⟩ := xmitFrameRing_transmits (s := s)
      (c := { c with skb := { c.skb with headlen := 17, frags := [] } }) hclean huse hfree
      (fun frag hfrag => by cases hfrag) (by decide : txdUseCount 17 + 0 < 2 ^ 16)
    exact ⟨r, es, new, heq, ht, fun _ hlen => by omega⟩
  · obtain ⟨r, es, new, heq, ht, hput⟩ := xmitFrameRing_transmits (s := s) (c := c) hclean huse hfree
      hpos hcount
    exact ⟨r, es, new, heq, ht, fun hflawless _ hroom => hput hflawless hroom⟩

/-- An XDP frame is on the ring. -/
theorem xdp_accepted {r r' : TxRing} {xdp : XdpBuff} {dma : BitVec 64} {i n : ℕ}
    (hclean : r.nextToClean < r.count) (huse : r.nextToUse < r.count) (hfree : Unmapped r)
    (hdma : xdp.map = some dma) (hsent : Sent r n r') (hn : 0 < n)
    (hi : i = ahead r.count r.nextToUse (n - 1))
    (hfirst : r'.buffer r.nextToUse = { r.buffer r.nextToUse with
      nextToWatch := some i
      len := xdp.len
      dma := dma
      skb := some xdp.data
      bytecount := xdp.len
      gsoSegs := 1
      protocol := 0#16 })
    (hkept : ∀ j, j ≠ r.nextToUse → r'.buffer j = r.buffer j) (hclear : r'.Clear i) :
  ∃ p, Transmits r r'
    (TxEffect.take xdp.data :: xdp.map.toList.map (fun dma => TxEffect.map ⟨true, dma, xdp.len⟩)
      ++ puts r' r.nextToUse) [p]
  := by
  have hunused := TxRing.descUnused_eq hclean huse
  have hle := hsent.le
  have hcount : r'.count = r.count := hsent.within.count
  have hother {j : ℕ} (hgap : 0 < gap r.count r.nextToUse j) : r'.buffer j = r.buffer j := by
    apply hkept
    rintro rfl
    rw [gap_self] at hgap
    omega
  have hback : r'.unmapsBack r.nextToUse (n - 1) = r'.unmapsBack r.nextToUse 0 := by
    apply unmapsBack_skip
    · rwa [hcount]
    · exact Nat.zero_le _
    · omega
    · intro j hj hlo hhi
      rw [hcount] at hj hlo hhi
      rw [hother hlo]
      exact hfree j hj (by omega)
  set p : Packet :=
    { id := xdp.data
      maps := [⟨true, dma, xdp.len⟩]
      slot := i
      descs := n
      segs := 1
      bytes := xdp.len
      reported := false } with hp
  have hring : OnRing r' r.nextToUse p := by
    refine ⟨hn, ?_, ?_, ?_, ?_, ?_, ?_, fun h => absurd hclear h⟩
    · rw [hcount]
      exact hi
    · rw [hfirst]
    · rw [hfirst]
    · rw [hfirst, show p.descs = n from rfl, hback]
      rfl
    · rw [hfirst]
    · rw [hfirst]
  have heffects : TxEffect.take xdp.data
      :: xdp.map.toList.map (fun dma => TxEffect.map ⟨true, dma, xdp.len⟩) ++ puts r' r.nextToUse
      = p.accepted := by
    rw [hdma, puts, hfirst]
    rfl
  refine ⟨p, ?_⟩
  rw [heffects]
  exact .accepted hsent hring (fun j _ hgap => hother (Nat.lt_of_lt_of_le hn hgap)) rfl

/-- What `ixgbevf_xmit_xdp_ring` does: the first frame takes the slots 0 and 1, and any other one
takes one slot. -/
theorem xmitXdpRing_transmits {r r' : TxRing} {primed : Bool} {xdp : XdpBuff}
    (hclean : r.nextToClean < r.count) (huse : r.nextToUse < r.count) (hfree : Unmapped r)
    (hunprimed : primed = false → r.nextToUse = 0 ∧ r.nextToClean = 0 ∧ 3 ≤ r.count)
    (h : xmitXdpRing r primed xdp = some r') :
  ∃ p, Transmits r r'
    (TxEffect.take xdp.data :: xdp.map.toList.map (fun dma => TxEffect.map ⟨true, dma, xdp.len⟩)
      ++ puts r' r.nextToUse) [p]
  := by
  obtain ⟨n, hn, hsent⟩ := xmitXdpRing_sent hclean huse hunprimed h
  unfold xmitXdpRing at h
  split at h
  · cases h
  rw [Option.map_eq_some_iff] at h
  obtain ⟨dma, hdma, rfl⟩ := h
  have hstatus : ((BitVec.ofNat 32 xdp.len <<< 14) ||| advtxdCc) &&& txdStatDd = 0#32 :=
    Bits.or_and_eq_zero (Bits.shiftLeft_and_one _ (by decide)) (by decide)
  cases primed with
  | true =>
    have hone := hsent.unique hclean huse (m := 1) (by
      have hunused := TxRing.descUnused_eq hclean huse
      have hle := hsent.le
      omega) (ahead_one huse).symm
    apply xdp_accepted hclean huse hfree hdma hsent hn (i := r.nextToUse)
    case hi => rw [hone, Nat.sub_self, ahead_zero huse]
    case hfirst => simp [TxRing.setBuffer]
    case hkept =>
      intro j hj
      simp [TxRing.setBuffer, hj]
    case hclear => simpa [TxRing.Clear, TxRing.setBuffer, TxRing.setDesc] using hstatus
  | false =>
    obtain ⟨hzero, -, hcount⟩ := hunprimed rfl
    have hsecond : ahead r.count r.nextToUse 1 = 1 := by
      rw [hzero, ahead, if_pos (by omega)]
    have htwo := hsent.unique hclean huse (m := 2) (by omega) (by
      rw [← next_ahead huse (by omega), hsecond]
      rfl)
    apply xdp_accepted hclean huse hfree hdma hsent hn (i := 1)
    case hi => rw [htwo, hsecond]
    case hfirst => simp [TxRing.setBuffer]
    case hkept =>
      intro j hj
      simp [TxRing.setBuffer, hj]
    case hclear => simpa [TxRing.Clear, TxRing.setBuffer, TxRing.setDesc] using hstatus

end OwnedRing

/-! ### What the ring keeps -/

/-- The packets are on the ring from the slot on where cleaning stands, and the other slots hold no
mapping. -/
structure SharedRing.Tracks (t : SharedRing) (ps : List Packet) : Prop where
  /-- The slots that the packets take. -/
  holds : t.Holds (ps.map Packet.descs)
  /-- The packets. -/
  carried : Carried t.ring t.front ps
  /-- The other slots. -/
  free : ∀ j < t.ring.count, (ps.map Packet.descs).sum ≤ gap t.ring.count t.front j →
    (t.ring.buffer j).len = 0

namespace SharedRing.Tracks

variable {t : SharedRing} {ps rs : List Packet} {es : List TxEffect}

/-- A ring that was configured. -/
theorem init (h : SharedRing.Init t) (hlen : ∀ j, (t.ring.buffer j).len = 0) :
  t.Tracks []
  := ⟨init_holds h, trivial, fun j _ _ => hlen j⟩

/-- Where an unused slot is. -/
theorem gap_unused (h : t.Tracks ps) {j : ℕ} (hj : j < t.ring.count)
    (hgap : gap t.ring.count t.ring.nextToUse j < t.ring.descUnused) :
  gap t.ring.count t.front j
    = (ps.map Packet.descs).sum + gap t.ring.count t.ring.nextToUse j
  := by
  have hunused := TxRing.descUnused_eq h.holds.clean_lt h.holds.use_lt
  have hfront := h.holds.front_lt
  have hclean := h.holds.clean_lt
  have huse := h.holds.gap_use
  have hlt := h.holds.use_lt
  have hfit := h.holds.tiles.fit
  have hbase : gap t.ring.count t.front t.ring.nextToUse = (ps.map Packet.descs).sum := by
    rw [h.holds.use]
    exact gap_ahead hfront hfit
  unfold gap at *
  split_ifs at * <;> omega

/-- The unused slots hold no mapping. -/
theorem unmapped (h : t.Tracks ps) :
  OwnedRing.Unmapped t.ring
  := by
  intro j hj hgap
  apply h.free j hj
  rw [h.gap_unused hj hgap]
  exact Nat.le_add_right _ _

/-- A transmission leaves the slots of the packets alone. -/
theorem sent (h : t.Tracks ps) {n : ℕ} {r : TxRing} (hsent : Sent t.ring n r) :
  Carried r t.front ps
  := by
  have hfit := h.holds.tiles.fit
  have hfront := h.holds.front_lt
  have hunused := TxRing.descUnused_eq h.holds.clean_lt h.holds.use_lt
  have hgapUse := h.holds.gap_use
  apply h.carried.congr hfront hfit hsent.within.count
  intro j hj hgap
  apply hsent.within.kept j hj
  have hbehind := gap_ahead_behind hfront hj hgap hfit
  rw [← h.holds.use] at hbehind
  omega

/-- What a transmission does to the packets. -/
theorem transmits (h : t.Tracks ps) {r : TxRing} {new : List Packet} {primed : Bool}
    (ht : Transmits t.ring r es new)
    (hnone : t.isXdp = true → primed = false → t.primed = false)
    (hnew : t.isXdp = true → new ≠ [] → primed = true) :
  { t with ring := r, primed := primed }.Tracks (ps ++ new)
  := by
  have hsame : ∀ {n : ℕ}, Sent t.ring n r →
      ({ t with ring := r, primed := primed } : SharedRing).front = t.front := by
    intro n hsent
    exact (h.holds.sent_frame hsent primed).2.2.1
  have hclean := h.holds.clean_lt
  have huse := h.holds.use_lt
  cases ht with
  | busy =>
    have hsent : Sent t.ring 0 t.ring := .none huse (.refl _) rfl rfl
    rw [List.append_nil]
    refine ⟨h.holds.sent_none hsent hnone, ?_, ?_⟩
    · rw [hsame hsent]
      exact h.carried
    · rw [hsame hsent]
      exact h.free
  | dropped id maps hsent hlen =>
    rw [List.append_nil]
    have hcount : r.count = t.ring.count := hsent.within.count
    refine ⟨h.holds.sent_none hsent hnone, ?_, fun j hj hgap => ?_⟩
    · rw [hsame hsent]
      exact h.sent hsent
    · rw [hsame hsent] at hgap
      have hj : j < t.ring.count := hcount ▸ hj
      have hgap : (ps.map Packet.descs).sum ≤ gap t.ring.count t.front j := hcount ▸ hgap
      exact hlen j hj (h.free j hj hgap)
  | @accepted _ p hsent hp hkept hreported =>
    have hcount : r.count = t.ring.count := hsent.within.count
    have hfit := h.holds.tiles.fit
    have hfront := h.holds.front_lt
    have hholds := h.holds.sent_packet hsent hp.pos fun hxdp => hnew hxdp (List.cons_ne_nil p [])
    have hsum : ((ps ++ [p]).map Packet.descs).sum = (ps.map Packet.descs).sum + p.descs := by
      rw [List.map_append, List.sum_append, List.map_singleton, List.sum_singleton]
    refine ⟨?_, ?_, fun j hj hgap => ?_⟩
    · rw [List.map_append, List.map_singleton]
      exact hholds
    · rw [hsame hsent]
      apply (h.sent hsent).push
      · rwa [hcount]
      · rwa [hcount]
      · rw [hcount, ← h.holds.use]
        exact hp
    · rw [hsame hsent, hsum] at hgap
      have hj : j < t.ring.count := hcount ▸ hj
      have hgap : (ps.map Packet.descs).sum + p.descs ≤ gap t.ring.count t.front j := hcount ▸ hgap
      have hslot : gap t.ring.count t.ring.nextToUse j
          = gap t.ring.count t.front j - (ps.map Packet.descs).sum := by
        rw [h.holds.use]
        exact gap_ahead_left hfront hj (by omega)
      change (r.buffer j).len = 0
      rw [hkept j hj (by omega)]
      exact h.free j hj (by omega)

/-- Cleaning ends. -/
theorem cleanEnd (h : t.Tracks ps) :
  (t.cleanEnd t.front).Tracks ps
  := by
  refine ⟨h.holds.cleanEnd, ?_, h.free⟩
  exact h.carried.congr h.holds.front_lt h.holds.tiles.fit rfl fun _ _ _ => ⟨rfl, rfl⟩

/-- The first packet is taken off the ring, and what was done for it is undone. -/
theorem cleaned {p : Packet} (h : t.Tracks (p :: ps)) :
  ∃ r acts, TxQueue.cleanPacket t.ring t.front p.slot
      = (r, ahead t.ring.count t.front p.descs, acts)
    ∧ acts.filterMap TxEffect.ofAct = p.released ∧ t.ring.Within t.front p.descs r
    ∧ ∀ b, { t with
        ring := r
        cleaning := some (ahead t.ring.count t.front p.descs, b) }.Tracks ps
  := by
  obtain ⟨hp, hps⟩ := h.carried
  have hfront := h.holds.front_lt
  have hfit := h.holds.tiles.fit
  have hfree := h.free
  rw [List.map_cons, List.sum_cons] at hfit hfree
  obtain ⟨r, acts, heq, hwithin, hlen, hholds⟩ := h.holds.cleaned
  have hcount : r.count = t.ring.count := hwithin.count
  have hacts := cleanPacket_acts t.ring hfront hp.pos (by omega)
  rw [heq, hp.skb, hp.unmaps] at hacts
  rw [← hp.slot] at heq
  refine ⟨r, acts, heq, ?_, hwithin, fun b => ⟨hholds b, ?_, fun j hj hgap => ?_⟩⟩
  · have hacts : acts = [TxAct.freeSkb p.id] ++ p.maps.map Mapping.unmap := hacts
    rw [hacts, List.filterMap_append, filterMap_unmap]
    rfl
  · change Carried r (ahead t.ring.count t.front p.descs) ps
    apply hps.congr (ahead_lt hfront (by omega)) (by omega) hcount
    intro j hj hgap
    apply hwithin.kept j hj
    by_contra hslot
    have hbehind := gap_ahead_behind hfront hj (Nat.lt_of_not_le hslot) (by omega)
    omega
  · change j < r.count at hj
    change _ ≤ gap r.count (ahead t.ring.count t.front p.descs) j at hgap
    rw [hcount] at hj hgap
    change (r.buffer j).len = 0
    by_cases hslot : gap t.ring.count t.front j < p.descs
    · exact hlen j hj hslot
    · rw [gap_ahead_left hfront hj (by omega)] at hgap
      rw [(hwithin.kept j hj (by omega)).1]
      exact hfree j hj (by omega)

end SharedRing.Tracks

/-- A call of `ixgbevf_clean_tx_irq` starts. -/
theorem SharedRing.Tracks.start {t : SharedRing} {ps : List Packet} (h : t.Tracks ps)
    (hnone : t.cleaning = none) (budget : ℕ) :
  { t with cleaning := some (t.ring.nextToClean, budget) }.Tracks ps
  := by
  have hfront : t.front = t.ring.nextToClean := by
    rw [SharedRing.front, hnone]
  obtain ⟨hholds, hcarried, hfree⟩ := h
  obtain ⟨hcount, hclean, hfrontLt, htiles, huse, hroom, hunprimed⟩ := hholds
  rw [hfront] at hcarried hfree hfrontLt htiles huse hroom
  exact ⟨⟨hcount, hclean, hfrontLt, htiles, huse, hroom, hunprimed⟩, hcarried, hfree⟩

/-- The hardware writes a descriptor back. -/
theorem SharedRing.Tracks.writeBack {t : SharedRing} {ps : List Packet} (h : t.Tracks ps) (i : ℕ)
    (d : TxDesc) :
  { t with ring := t.ring.setDesc i fun _ => d }.Tracks
    (if d.olinfoStatus &&& txdStatDd = 0#32 then ps else ps.map (Packet.mark i))
  := by
  have hdescs : (if d.olinfoStatus &&& txdStatDd = 0#32 then ps else ps.map (Packet.mark i)).map
      Packet.descs = ps.map Packet.descs := by
    split
    · rfl
    · rw [List.map_map]
      exact List.map_congr_left fun p _ => (p.mark_same i).2.2.2.1
  have hholds : SharedRing.Holds { t with ring := t.ring.setDesc i fun _ => d }
      (ps.map Packet.descs) :=
    ⟨h.holds.count, h.holds.clean_lt, h.holds.front_lt, h.holds.tiles, h.holds.use, h.holds.room,
      h.holds.unprimed⟩
  refine ⟨by rwa [hdescs], h.carried.writeBack i d, ?_⟩
  rw [hdescs]
  exact h.free

/-- Tearing the ring down gives all packets back. -/
theorem freePackets_released {r : TxRing} {a : ℕ} {ps : List Packet} (fuel : ℕ)
    (h : Carried r a ps) (ha : a < r.count) (hfit : (ps.map Packet.descs).sum < r.count)
    (huse : r.nextToUse = ahead r.count a (ps.map Packet.descs).sum) (hfuel : ps.length < fuel) :
  ∃ acts, freePackets r fuel a = some acts
    ∧ acts.filterMap TxEffect.ofAct = ps.flatMap Packet.released
  := by
  induction ps generalizing fuel a with
  | nil =>
    obtain ⟨fuel, rfl⟩ : ∃ n, fuel = n + 1 := ⟨fuel - 1, by simp at hfuel; omega⟩
    rw [List.map_nil, List.sum_nil, ahead_zero ha] at huse
    exact ⟨[], by rw [freePackets, if_pos huse.symm], rfl⟩
  | cons p ps ih =>
    obtain ⟨hp, hps⟩ := h
    obtain ⟨fuel, rfl⟩ : ∃ n, fuel = n + 1 := ⟨fuel - 1, by simp at hfuel; omega⟩
    have hpos := hp.pos
    rw [List.map_cons, List.sum_cons] at hfit huse
    have hne : a ≠ r.nextToUse := by
      rw [huse, Ne, ← gap_eq_zero ha, gap_ahead ha hfit]
      omega
    have hrest := unmapRest_acts r (m := 0) (n := p.descs - 1) r.count ha (Nat.zero_le _) (by omega)
      (by omega)
    rw [ahead_zero ha, ← hp.slot] at hrest
    have hnext : next r.count p.slot = ahead r.count a p.descs := by
      rw [hp.slot, next_ahead ha (by omega), Nat.sub_add_cancel hpos]
    obtain ⟨acts, heq, hacts⟩ := ih fuel hps (ahead_lt ha (by omega)) (by omega)
      (by rw [huse, ahead_ahead ha (by omega)]) (by simp at hfuel; omega)
    have hunmaps := hp.unmaps
    rw [unmapsBack_reverse] at hunmaps
    rw [Nat.zero_add, Nat.sub_zero] at hrest
    refine ⟨[TxAct.freeSkb p.id] ++ (p.maps.map Mapping.unmap ++ acts), ?_, ?_⟩
    · rw [freePackets, if_neg hne]
      simp only [hp.watch, hp.skb, hrest, Option.bind_some, hnext, heq, Option.map_some, ← hunmaps]
      rfl
    · rw [List.filterMap_append, List.filterMap_append, filterMap_unmap, hacts, List.flatMap_cons]
      rfl

end Ixgbevf.Tx
