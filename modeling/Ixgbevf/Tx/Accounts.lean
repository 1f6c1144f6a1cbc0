import Ixgbevf.Tx.Ownership

/-!
# The accounts of a Tx ring

In every run a Tx ring has books: what is on the ring is what the books say, so that every packet
and every mapping is given back once.
-/

namespace Ixgbevf.Tx

open Cyclic

/-! ### Every run -/

namespace OwnedRing

/-- The books of the ring account for what is on it, where `ps` are the packets on it and `rs` those
that the call of `ixgbevf_clean_tx_irq` has freed. -/
structure Kept (s : OwnedRing) (ps rs : List Packet) : Prop where
  /-- The books. -/
  books : Books s.shared.isXdp s.effects ps rs
  /-- The packets on the ring. -/
  tracks : s.torn = false → s.shared.Tracks ps
  /-- A ring that was torn down is empty. -/
  torn : s.torn = true → ps = [] ∧ s.shared.cleaning = none ∧ s.ring.nextToUse = s.ring.nextToClean
    ∧ 0 < s.ring.count
  /-- What a call counts. -/
  totals : s.totalPackets = (rs.map Packet.segs).sum % 2 ^ 32
    ∧ s.totalBytes = (rs.map Packet.bytes).sum % 2 ^ 32 ∨ s.shared.cleaning = none
  /-- Without a call nothing is left to report. -/
  idle : s.shared.cleaning = none → rs = []

variable {s : OwnedRing} {ps rs : List Packet}

/-- The end of a call of `ixgbevf_clean_tx_irq` reports what it counted, unless it detects a hang or
the ring is an XDP ring. -/
theorem cleanEnd_effects (s : OwnedRing) (i head tail : ℕ) :
  (s.cleanEnd i head tail).shared = s.shared.cleanEnd i ∧ (s.cleanEnd i head tail).torn = s.torn
    ∧ ((s.cleanEnd i head tail).effects = s.effects ++ [.hang]
      ∨ (s.shared.isXdp = true ∧ (s.cleanEnd i head tail).effects = s.effects)
      ∨ (s.shared.isXdp = false
        ∧ (s.cleanEnd i head tail).effects
          = s.effects ++ [.completed s.totalPackets s.totalBytes]))
  := by
  set s₁ : OwnedRing :=
    { s with shared := s.shared.cleanEnd i, packets := s.packets + s.totalPackets } with hs₁
  set p := if s₁.detectHang then s₁.checkTxHang head tail else (s₁, false) with hp
  have hsame : p.1.shared = s.shared.cleanEnd i ∧ p.1.torn = s.torn ∧ p.1.effects = s.effects := by
    rw [hp]
    split
    · unfold checkTxHang
      simp only
      split <;> exact ⟨rfl, rfl, rfl⟩
    · exact ⟨rfl, rfl, rfl⟩
  have hend : s.cleanEnd i head tail = if p.2 then p.1.emit [.hang] else if s.shared.isXdp then p.1
      else p.1.emit [.completed s.totalPackets s.totalBytes] := rfl
  obtain ⟨hshared, htorn, heffects⟩ := hsame
  rw [hend]
  split
  · exact ⟨hshared, htorn, .inl (by rw [emit, heffects])⟩
  · split
    · rename_i hxdp
      exact ⟨hshared, htorn, .inr (.inl ⟨hxdp, heffects⟩)⟩
    · rename_i hxdp
      rw [Bool.not_eq_true] at hxdp
      exact ⟨hshared, htorn, .inr (.inr ⟨hxdp, by rw [emit, heffects]⟩)⟩

/-- The end of a call of `ixgbevf_clean_tx_irq` closes its books. -/
theorem Kept.cleanEnd (h : Kept s ps rs) (hup : s.torn = false)
    (htotals : s.totalPackets = (rs.map Packet.segs).sum % 2 ^ 32
      ∧ s.totalBytes = (rs.map Packet.bytes).sum % 2 ^ 32) (head tail : ℕ) :
  Kept (s.cleanEnd s.shared.front head tail) ps []
  := by
  obtain ⟨hshared, htorn, heffects⟩ := s.cleanEnd_effects s.shared.front head tail
  have hxdp : (s.cleanEnd s.shared.front head tail).shared.isXdp = s.shared.isXdp := by
    rw [hshared]
    rfl
  refine ⟨?_, fun _ => ?_, fun htorn' => ?_, .inr ?_, fun _ => rfl⟩
  · rw [hxdp]
    rcases heffects with heq | ⟨hxdp, heq⟩ | ⟨hxdp, heq⟩
    · rw [heq]
      exact h.books.hang
    · rw [heq]
      exact h.books.unheard hxdp
    · rw [heq, htotals.1, htotals.2]
      exact h.books.report hxdp
  · rw [hshared]
    exact (h.tracks hup).cleanEnd
  · rw [htorn, hup] at htorn'
    cases htorn'
  · rw [hshared]
    rfl

/-- The loop of a call of `ixgbevf_clean_tx_irq` has freed the packet `p`, and goes on in the slot
`i`. -/
def freed (s : OwnedRing) (r : TxRing) (i budget : ℕ) (p : Packet) : OwnedRing :=
  { s with
    shared := { s.shared with ring := r, cleaning := some (i, budget) }
    totalBytes := (s.totalBytes + p.bytes) % 2 ^ 32
    totalPackets := (s.totalPackets + p.segs) % 2 ^ 32
    effects := s.effects ++ p.released }

/-- The loop frees the first packet, if the hardware has reported it. -/
theorem cleanLoop_frees {p : Packet} (h : s.shared.Tracks (p :: ps)) (hdone : ¬ s.ring.Clear p.slot)
    (budget head tail : ℕ) :
  ∃ r, s.cleanLoop s.shared.front budget head tail
      = (if budget - 1 = 0 then
          (s.freed r (ahead s.ring.count s.shared.front p.descs) 0 p).cleanEnd
            (ahead s.ring.count s.shared.front p.descs) head tail
        else s.freed r (ahead s.ring.count s.shared.front p.descs) (budget - 1) p)
    ∧ s.ring.Within s.shared.front p.descs r
    ∧ ∀ b, (s.freed r (ahead s.ring.count s.shared.front p.descs) b p).shared.Tracks ps
  := by
  obtain ⟨hp, -⟩ := h.carried
  obtain ⟨r, acts, heq, hacts, hwithin, hkept⟩ := h.cleaned
  have heq : TxQueue.cleanPacket s.ring s.shared.front p.slot
      = (r, ahead s.ring.count s.shared.front p.descs, acts) := heq
  have hwatch : (s.ring.buffer s.shared.front).nextToWatch = some p.slot := hp.watch
  have hsegs : (s.ring.buffer s.shared.front).gsoSegs = p.segs := hp.segs
  have hbytes : (s.ring.buffer s.shared.front).bytecount = p.bytes := hp.bytes
  have hdd : (s.ring.desc p.slot).olinfoStatus &&& txdStatDd ≠ 0#32 := hdone
  refine ⟨r, ?_, hwithin, hkept⟩
  simp only [OwnedRing.cleanLoop, hwatch, if_neg hdd, heq, hacts, hsegs, hbytes]
  rfl

/-- The loop ends where no packet is, and where the hardware has not reported one. -/
theorem cleanLoop_ends {i : ℕ}
    (h : ∀ eop, (s.ring.buffer i).nextToWatch = some eop → s.ring.Clear eop)
    (budget head tail : ℕ) :
  s.cleanLoop i budget head tail = s.cleanEnd i head tail
  := by
  unfold OwnedRing.cleanLoop
  split
  · rfl
  · rename_i eop heop
    exact if_pos (h eop heop)

/-- A call of `ixgbevf_clean_tx_irq` goes through its loop. -/
theorem Kept.cleanLoop (h : Kept s ps rs) {i budget : ℕ} (hc : s.shared.cleaning = some (i, budget))
    (head tail : ℕ) :
  ∃ ps' rs', Kept (s.cleanLoop i budget head tail) ps' rs'
  := by
  have hup : s.torn = false := by
    rw [← Bool.not_eq_true]
    intro htorn
    have hnone := (h.torn htorn).2.1
    rw [hc] at hnone
    cases hnone
  have htotals := h.totals.resolve_right (by rw [hc]; exact Option.some_ne_none _)
  have htracks := h.tracks hup
  have hi : s.shared.front = i := by
    rw [SharedRing.front, hc]
  rw [← hi]
  by_cases hends : ∀ eop, (s.ring.buffer s.shared.front).nextToWatch = some eop → s.ring.Clear eop
  · rw [cleanLoop_ends hends]
    exact ⟨ps, [], h.cleanEnd hup htotals head tail⟩
  push Not at hends
  obtain ⟨eop, heop, hdone⟩ := hends
  obtain ⟨n, ns, hns, -⟩ := htracks.holds.watched heop
  obtain ⟨p, ps, rfl⟩ : ∃ p ps', ps = p :: ps' := by
    cases ps with
    | nil => cases hns
    | cons p ps => exact ⟨p, ps, rfl⟩
  obtain ⟨hp, -⟩ := htracks.carried
  obtain rfl : eop = p.slot := Option.some.inj (heop.symm.trans hp.watch)
  obtain ⟨r, heq, -, hkept⟩ := cleanLoop_frees htracks hdone budget head tail
  have htotals' : (s.totalPackets + p.segs) % 2 ^ 32
        = ((rs ++ [p]).map Packet.segs).sum % 2 ^ 32
      ∧ (s.totalBytes + p.bytes) % 2 ^ 32 = ((rs ++ [p]).map Packet.bytes).sum % 2 ^ 32 := by
    rw [htotals.1, htotals.2, List.map_append, List.map_append, List.sum_append, List.sum_append]
    constructor
    · exact Nat.mod_add_mod _ _ _
    · exact Nat.mod_add_mod _ _ _
  have hfreed (b : ℕ) :
      Kept (s.freed r (ahead s.ring.count s.shared.front p.descs) b p) ps (rs ++ [p]) := by
    refine ⟨h.books.release (hp.status hdone), fun _ => hkept b, fun htorn => ?_, .inl htotals',
      fun hnone => ?_⟩
    · have htorn : s.torn = true := htorn
      rw [hup] at htorn
      cases htorn
    · cases hnone
  rw [heq]
  split
  · exact ⟨ps, [], (hfreed 0).cleanEnd hup htotals' head tail⟩
  · exact ⟨ps, rs ++ [p], hfreed _⟩

end OwnedRing

/-- The books after a transmission. -/
theorem Books.transmits {xdp : Bool} {es es' : List TxEffect} {ps rs new : List Packet}
    {r r' : TxRing} (h : Books xdp es ps rs) (ht : Transmits r r' es' new) :
  Books xdp (es ++ es') (ps ++ new) rs
  := by
  cases ht with
  | busy => simpa using h
  | dropped id maps _ _ =>
    rw [List.append_nil]
    exact h.giveUp id maps
  | accepted _ _ _ hreported => exact h.accept hreported

namespace OwnedRing

variable {s : OwnedRing} {ps rs : List Packet}

/-- A ring that was configured has empty books. -/
theorem init_kept (h : Init s) :
  Kept s [] []
  := by
  refine ⟨?_, fun _ => .init h.shared h.len, fun htorn => ?_, .inr h.shared.cleaning, fun _ => rfl⟩
  · rw [h.effects]
    exact .start
  · rw [h.torn] at htorn
    cases htorn

/-- A transmission is booked. -/
theorem Kept.transmits (h : Kept s ps rs) (hup : s.torn = false) {r : TxRing} {primed : Bool}
    {es : List TxEffect} {new : List Packet} (ht : Transmits s.ring r es new)
    (hnone : s.shared.isXdp = true → primed = false → s.shared.primed = false)
    (hnew : s.shared.isXdp = true → new ≠ [] → primed = true) :
  Kept ({ s with shared := { s.shared with ring := r, primed := primed } }.emit es) (ps ++ new) rs
  := by
  refine ⟨h.books.transmits ht, fun _ => (h.tracks hup).transmits ht hnone hnew, fun htorn => ?_,
    h.totals, h.idle⟩
  have htorn : s.torn = true := htorn
  rw [hup] at htorn
  cases htorn

/-- Tearing the ring down closes its books. -/
theorem Kept.cleanTxRing (h : Kept s ps rs) (hnone : s.shared.cleaning = none) :
  ∃ s', s.cleanTxRing = some s' ∧ Kept s' [] []
  := by
  obtain ⟨acts, hfree, hacts, hcount⟩ : ∃ acts,
      freePackets s.ring s.ring.count s.ring.nextToClean = some acts
        ∧ acts.filterMap TxEffect.ofAct = ps.flatMap Packet.released ∧ 0 < s.ring.count := by
    cases htorn : s.torn with
    | true =>
      obtain ⟨rfl, -, huse, hcount⟩ := h.torn htorn
      obtain ⟨n, hn⟩ : ∃ n, s.ring.count = n + 1 := ⟨s.ring.count - 1, by omega⟩
      exact ⟨[], by rw [hn, freePackets, if_pos huse.symm], rfl, hcount⟩
    | false =>
      have htracks := h.tracks htorn
      have hfit := htracks.holds.tiles.fit
      have hpos := htracks.holds.tiles.pos
      have hlength : ps.length ≤ (ps.map Packet.descs).sum := by
        have hle := List.length_le_sum_of_one_le (ps.map Packet.descs) hpos
        rwa [List.length_map] at hle
      have hfront : s.shared.front = s.ring.nextToClean := by
        rw [SharedRing.front, hnone]
        rfl
      have hcarried := htracks.carried
      have hfrontLt := htracks.holds.front_lt
      have huse := htracks.holds.use
      rw [hfront] at hcarried hfrontLt huse
      obtain ⟨acts, heq, hacts⟩ := freePackets_released s.ring.count hcarried hfrontLt hfit huse
        (Nat.lt_of_le_of_lt hlength hfit)
      exact ⟨acts, heq, hacts, Nat.lt_of_le_of_lt (Nat.zero_le _) hfrontLt⟩
  obtain rfl := h.idle hnone
  refine ⟨_, by rw [OwnedRing.cleanTxRing, hfree, Option.map_some], ?_⟩
  rw [hacts]
  refine ⟨h.books.teardown, fun hup => ?_, fun _ => ⟨rfl, hnone, rfl, hcount⟩, .inr hnone,
    fun _ => rfl⟩
  cases hup

/-- Every step is booked, and no loop runs forever. -/
theorem step_kept {e : Event} (h : Kept s ps rs) (he : Enabled s e) :
  ∃ s', s.next e = some s' ∧ ∃ ps' rs', Kept s' ps' rs'
  := by
  cases e with
  | xmit c =>
    obtain ⟨hup, hxdp, hpos, hcount⟩ := he
    have htracks := h.tracks hup
    obtain ⟨r, es, new, heq, ht, -⟩ := xmitFrame_transmits (s := s) htracks.holds.clean_lt
      htracks.holds.use_lt htracks.unmapped hpos hcount
    refine ⟨s.xmitFrame c, rfl, ps ++ new, rs, ?_⟩
    rw [heq]
    refine h.transmits hup ht (fun _ h => h) fun hxdp' => ?_
    rw [hxdp] at hxdp'
    cases hxdp'
  | xmitXdp xdp =>
    obtain ⟨hup, hxdp⟩ := he
    have htracks := h.tracks hup
    have hcount := htracks.holds.count.1
    refine ⟨s.xmitXdp xdp, rfl, ?_⟩
    unfold OwnedRing.xmitXdp
    split
    · exact ⟨ps, rs, h⟩
    · rename_i r heq
      obtain ⟨p, ht⟩ := xmitXdpRing_transmits htracks.holds.clean_lt htracks.holds.use_lt
        htracks.unmapped (fun hno => by
          obtain ⟨-, huse, hclean⟩ := htracks.holds.unprimed hxdp hno
          exact ⟨huse, hclean, by omega⟩) heq
      refine ⟨ps ++ [p], rs, h.transmits hup ht (fun _ hno => ?_) fun _ _ => rfl⟩
      cases hno
  | clean =>
    obtain ⟨hup, hnone⟩ := he
    obtain rfl := h.idle hnone
    refine ⟨_, rfl, ps, [], h.books, fun _ => (h.tracks hup).start hnone _, fun htorn => ?_,
      .inl ⟨rfl, rfl⟩, fun hbusy => ?_⟩
    · have htorn : s.torn = true := htorn
      rw [hup] at htorn
      cases htorn
    · cases hbusy
  | cleanStep head tail =>
    cases hc : s.shared.cleaning with
    | none => exact ⟨s, by rw [OwnedRing.next, hc], ps, rs, h⟩
    | some c =>
      obtain ⟨i, budget⟩ := c
      exact ⟨s.cleanLoop i budget head tail, by rw [OwnedRing.next, hc], h.cleanLoop hc head tail⟩
  | writeBack i d =>
    refine ⟨s.writeBack i d, rfl,
      if d.olinfoStatus &&& txdStatDd = 0#32 then ps else ps.map (Packet.mark i), rs, ?_,
      fun hup => (h.tracks hup).writeBack i d, fun htorn => ?_, h.totals, h.idle⟩
    · unfold OwnedRing.writeBack
      split
      · rw [emit, List.append_nil]
        exact h.books
      · exact h.books.done i
    · obtain ⟨rfl, hrest⟩ := h.torn htorn
      refine ⟨?_, hrest⟩
      split <;> rfl
  | checkHang => exact ⟨_, rfl, ps, rs, h.books, h.tracks, h.torn, h.totals, h.idle⟩
  | teardown =>
    obtain ⟨s', heq, hkept⟩ := h.cleanTxRing he
    exact ⟨s', heq, [], [], hkept⟩
  | configure count =>
    obtain ⟨htorn, hcount⟩ := he
    obtain ⟨rfl, hnone, -⟩ := h.torn htorn
    have hinit : SharedRing.Init (s.shared.configureTxRing count) :=
      ⟨hcount, rfl, rfl, fun _ => rfl, rfl, hnone⟩
    refine ⟨_, rfl, [], rs, h.books, fun _ => .init hinit fun _ => rfl, fun hno => ?_, .inr hnone,
      h.idle⟩
    cases hno

/-- The event is one of traffic. -/
def Event.isTraffic : Event → Bool
  | .teardown => false
  | .configure _ => false
  | _ => true

/-- Something more was done on a ring. -/
structure Extends (s s' : OwnedRing) : Prop where
  /-- What was done stays done. -/
  effects : ∃ es, s'.effects = s.effects ++ es
  /-- `ring_is_xdp`. -/
  isXdp : s'.shared.isXdp = s.shared.isXdp
  /-- The ring stays configured. -/
  torn : s'.torn = s.torn

/-- Nothing more was done. -/
theorem Extends.refl (s : OwnedRing) :
  Extends s s
  := ⟨⟨[], (List.append_nil _).symm⟩, rfl, rfl⟩

/-- More was done in two steps. -/
theorem Extends.trans {s' s'' : OwnedRing} (h : Extends s s') (h' : Extends s' s'') :
  Extends s s''
  := by
  obtain ⟨es, heq⟩ := h.effects
  obtain ⟨es', heq'⟩ := h'.effects
  exact ⟨⟨es ++ es', by rw [heq', heq, List.append_assoc]⟩, h'.isXdp.trans h.isXdp,
    h'.torn.trans h.torn⟩

/-- The end of a call of `ixgbevf_clean_tx_irq`. -/
theorem cleanEnd_extends (s : OwnedRing) (i head tail : ℕ) :
  Extends s (s.cleanEnd i head tail)
  := by
  obtain ⟨hshared, htorn, heffects⟩ := s.cleanEnd_effects i head tail
  refine ⟨?_, by rw [hshared]; rfl, htorn⟩
  rcases heffects with heq | ⟨-, heq⟩ | ⟨-, heq⟩
  · exact ⟨_, heq⟩
  · exact ⟨[], by rw [heq, List.append_nil]⟩
  · exact ⟨_, heq⟩

/-- A transmission. -/
theorem xmitFrame_extends (s : OwnedRing) (c : Call) :
  Extends s (s.xmitFrame c)
  := by
  have hring (c : Call) : Extends s (s.xmitFrameRing c) := by
    unfold xmitFrameRing
    split
    · exact ⟨⟨_, rfl⟩, rfl, rfl⟩
    split
    · exact .refl s
    simp only
    split <;> exact ⟨⟨_, rfl⟩, rfl, rfl⟩
  unfold xmitFrame
  split
  · exact ⟨⟨_, rfl⟩, rfl, rfl⟩
  split
  · exact ⟨⟨_, rfl⟩, rfl, rfl⟩
  · exact hring c.padded

/-- A call of `ixgbevf_clean_tx_irq` goes through its loop. -/
theorem cleanLoop_extends (s : OwnedRing) (i budget head tail : ℕ) :
  Extends s (s.cleanLoop i budget head tail)
  := by
  unfold OwnedRing.cleanLoop
  split
  · exact s.cleanEnd_extends i head tail
  split
  · exact s.cleanEnd_extends i head tail
  simp only
  split
  · refine Extends.trans ?_ (cleanEnd_extends _ _ head tail)
    exact ⟨⟨_, rfl⟩, rfl, rfl⟩
  · exact ⟨⟨_, rfl⟩, rfl, rfl⟩

/-- What traffic leaves as it is. -/
theorem next_extends {s' : OwnedRing} {e : Event} (he : e.isTraffic = true)
    (h : s.next e = some s') :
  Extends s s'
  := by
  cases e with
  | xmit c =>
    obtain rfl := Option.some.inj h
    exact s.xmitFrame_extends c
  | xmitXdp xdp =>
    obtain rfl := Option.some.inj h
    unfold OwnedRing.xmitXdp
    split
    · exact .refl s
    · exact ⟨⟨_, rfl⟩, rfl, rfl⟩
  | cleanStep head tail =>
    rw [OwnedRing.next] at h
    split at h
    · obtain rfl := Option.some.inj h
      exact .refl s
    · obtain rfl := Option.some.inj h
      exact s.cleanLoop_extends _ _ head tail
  | writeBack i d =>
    obtain rfl := Option.some.inj h
    exact ⟨⟨_, rfl⟩, rfl, rfl⟩
  | clean | checkHang =>
    obtain rfl := Option.some.inj h
    exact ⟨⟨[], (List.append_nil _).symm⟩, rfl, rfl⟩
  | teardown => cases he
  | configure count => cases he

/-- In every run a ring has books. -/
theorem reachable_booked (h : system.Reachable TransSystem.always s) :
  ∃ ps rs, Kept s ps rs
  := by
  apply TransSystem.Reachable.invariant _ _ h
  · intro s hinit
    exact ⟨[], [], init_kept hinit⟩
  · rintro s e s' ⟨ps, rs, hkept⟩ - ⟨he, heq⟩
    obtain ⟨s₁, heq₁, hkept₁⟩ := step_kept hkept he
    rw [heq] at heq₁
    cases heq₁
    exact hkept₁

/-- In every run the effects have books: every packet is freed, and its mappings undone, when it
leaves the ring, which it does after the hardware has reported it or when the ring is torn down.  So
every packet that was taken was freed once or is on the ring, and every mapping that is not empty was
undone once, with its length, or is of a packet on the ring; a ring that is torn down is empty; and
no loop runs forever. -/
theorem reachable_books (h : system.Reachable TransSystem.always s) :
  ∃ ps rs, Books s.shared.isXdp s.effects ps rs
    ∧ (∀ id, s.effects.count (.take id)
      = s.effects.count (.free id) + (ps.map Packet.id).count id)
    ∧ (∀ m : Mapping, m.len ≠ 0 → s.effects.count (.map m)
      = s.effects.count (.unmap m) + (ps.flatMap Packet.maps).count m)
    ∧ (s.torn = true → ps = []) ∧ ∀ e, Enabled s e → s.next e ≠ none
  := by
  obtain ⟨ps, rs, hkept⟩ := reachable_booked h
  refine ⟨ps, rs, hkept.books, hkept.books.count_ids, fun m hm => hkept.books.count_maps hm,
    fun htorn => (hkept.torn htorn).1, fun e he => ?_⟩
  obtain ⟨s', heq, -⟩ := step_kept hkept he
  rw [heq]
  exact Option.some_ne_none s'

/-- A run goes on. -/
theorem reachable_next {s' : OwnedRing} (e : Event) (h : system.Reachable TransSystem.always s)
    (he : Enabled s e) (hnext : s.next e = some s') :
  system.Reachable TransSystem.always s'
  := .step h trivial ⟨he, hnext⟩

/-- A ring of 64 descriptors after `ixgbevf_configure_tx_ring`. -/
def freshRing : OwnedRing where
  shared :=
    { ring := (TxQueue.fresh TxQueue.smallRing).ring
      isXdp := false
      primed := false
      cleaning := none }
  totalBytes := 0
  totalPackets := 0
  packets := 0
  txDoneOld := 0#32
  detectHang := false
  hangCheckArmed := false
  torn := false
  effects := []

/-- It is a start of runs. -/
theorem freshRing_init :
  Init freshRing
  := ⟨⟨by decide, rfl, rfl, fun _ => rfl, rfl, rfl⟩, fun _ => rfl, rfl, rfl, rfl⟩

/-- A descriptor that the hardware has written back. -/
def doneDesc : TxDesc := ⟨0#64, 0#32, txdStatDd⟩

/-- A packet with a fragment, on a ring. -/
def sentRing : OwnedRing :=
  freshRing.xmitFrame (TxQueue.plainCall (TxQueue.plainSkb 1 60 [100] ethPIp) false)

/-- The packet is sent in a run. -/
theorem sentRing_reachable :
  system.Reachable TransSystem.always sentRing
  := reachable_next (.xmit (TxQueue.plainCall (TxQueue.plainSkb 1 60 [100] ethPIp) false))
    (.init freshRing_init) ⟨rfl, rfl, by decide, by decide⟩ rfl

/-- The ring after the hardware has reported the packet, with a call of `ixgbevf_clean_tx_irq` that
went through its loop twice. -/
def cleanedRing : OwnedRing :=
  (((sentRing.writeBack 2 doneDesc).cleanTxIrq.cleanLoop 0 32 3 3).cleanLoop 3 31 3 3)

/-- The packet and its two mappings are given back, and the queue hears of it. -/
theorem cleanedRing_books :
  cleanedRing.effects
      = [.take 1, .map ⟨true, 0#64, 60⟩, .map ⟨false, 1#64, 100⟩, .put 2 1 160, .done 2, .free 1,
        .unmap ⟨true, 0#64, 60⟩, .unmap ⟨false, 1#64, 100⟩, .completed 1 160]
    ∧ ∃ ps rs, Books cleanedRing.shared.isXdp cleanedRing.effects ps rs
      ∧ (∀ id, cleanedRing.effects.count (.take id)
        = cleanedRing.effects.count (.free id) + (ps.map Packet.id).count id)
      ∧ (∀ m : Mapping, m.len ≠ 0 → cleanedRing.effects.count (.map m)
        = cleanedRing.effects.count (.unmap m) + (ps.flatMap Packet.maps).count m)
      ∧ (cleanedRing.torn = true → ps = []) ∧ ∀ e, Enabled cleanedRing e → cleanedRing.next e ≠ none
  := by
  refine ⟨by decide +kernel, reachable_books ?_⟩
  have hdone := reachable_next (.writeBack 2 doneDesc) sentRing_reachable trivial rfl
  have hclean := reachable_next .clean hdone ⟨rfl, rfl⟩ rfl
  have hfreed := reachable_next (.cleanStep 3 3) hclean trivial rfl
  exact reachable_next (.cleanStep 3 3) hfreed trivial rfl

/-! ### Calls that detect a hang -/

/-- A packet of 1024 segments. -/
def segmentedSkb (id : ℕ) : Skb :=
  { TxQueue.plainSkb id 54 [16384, 16384, 16384] ethPIp with
    csumPartial := true
    gsoSize := 48
    gsoSegs := 1024 }

/-- A call for such a packet. -/
def segmentedCall (id : ℕ) : Call := TxQueue.plainCall (segmentedSkb id) false

/-- Where there is room, the packet is put behind the others. -/
theorem segmented_put (htracks : s.shared.Tracks ps) (hxdp : s.shared.isXdp = false) (id : ℕ)
    (hroom : (segmentedSkb id).size ≤ s.ring.descUnused) :
  ∃ r p, s.xmitFrame (segmentedCall id) = (s.setRing r).emit p.accepted
    ∧ (s.setRing r).shared.Tracks (ps ++ [p]) ∧ r.count = s.ring.count
    ∧ p.segs = 1024 ∧ p.descs ≤ 5 ∧ p.reported = false
  := by
  have hflawless : (segmentedCall id).Flawless := by
    refine ⟨?_, ?_, rfl, fun _ => Option.some_ne_none _⟩
    · exact (by decide : ethPIp ≠ ethPLldp)
    · exact (by decide : vlanFlags (segmentedSkb 0) ≠ none)
  obtain ⟨r, es, new, heq, ht, hput⟩ := xmitFrame_transmits (s := s) (c := segmentedCall id)
    htracks.holds.clean_lt htracks.holds.use_lt htracks.unmapped
    (by decide : ∀ frag ∈ [16384, 16384, 16384], 0 < frag)
    (by decide : txdUseCount 54 + ([16384, 16384, 16384].map txdUseCount).sum < 2 ^ 16)
  obtain ⟨p, rfl, hsegs, hdescs⟩ := hput hflawless (by decide : 17 ≤ (segmentedSkb 0).len) hroom
  have hkept : (s.setRing r).shared.Tracks (ps ++ [p]) :=
    htracks.transmits ht (fun _ h => h) fun h => by
      rw [hxdp] at h
      cases h
  cases ht with
  | accepted hsent hp hkept' hreported =>
    refine ⟨r, p, heq, hkept, hsent.within.count, hsegs, ?_, hreported⟩
    exact hdescs.trans (by decide : (segmentedSkb 0).descs + 1 ≤ 5)

/-- A ring of 64 descriptors that has given back `n` segments since it was configured, and whose
hang check has seen none of them. -/
structure Unseen (s : OwnedRing) (ps : List Packet) (n : ℕ) (armed : Bool) : Prop where
  /-- A run leads to it. -/
  reachable : system.Reachable TransSystem.always s
  /-- The packets on the ring. -/
  tracks : s.shared.Tracks ps
  /-- It is a ring of the stack. -/
  isXdp : s.shared.isXdp = false
  /-- `count`. -/
  count : s.ring.count = 64
  /-- The ring is configured. -/
  torn : s.torn = false
  /-- `stats.packets`. -/
  packets : s.packets = n
  /-- `tx_stats.tx_done_old`. -/
  txDoneOld : s.txDoneOld = 0#32
  /-- `__IXGBEVF_HANG_CHECK_ARMED`. -/
  armed : s.hangCheckArmed = armed

/-- No call of `ixgbevf_clean_tx_irq` is made, and no hang check was asked for. -/
def Idle (s : OwnedRing) : Prop := s.shared.cleaning = none ∧ s.detectHang = false

namespace Unseen

variable {p : Packet} {n i budget : ℕ} {armed : Bool}

/-- A packet is put on the ring. -/
theorem xmit (h : Unseen s ps n armed) (hroom : 12 ≤ s.ring.descUnused) (id : ℕ) :
  ∃ s' p, Unseen s' (ps ++ [p]) n armed ∧ p.segs = 1024 ∧ p.descs ≤ 5 ∧ p.reported = false
    ∧ s'.shared.cleaning = s.shared.cleaning ∧ s'.detectHang = s.detectHang
    ∧ s'.totalPackets = s.totalPackets ∧ s'.effects = s.effects ++ p.accepted
  := by
  obtain ⟨r, p, heq, htracks, hcount, hsegs, hdescs, hreported⟩ := segmented_put h.tracks
    h.isXdp id (Nat.le_trans (by decide : (segmentedSkb 0).size ≤ 12) hroom)
  refine ⟨s.xmitFrame (segmentedCall id), p, ?_, hsegs, hdescs, hreported, ?_⟩
  · have hreach := reachable_next (.xmit (segmentedCall id)) h.reachable
      ⟨h.torn, h.isXdp, (by decide : ∀ frag ∈ [16384, 16384, 16384], 0 < frag),
        (by decide : txdUseCount 54 + ([16384, 16384, 16384].map txdUseCount).sum < 2 ^ 16)⟩ rfl
    rw [heq] at hreach ⊢
    exact ⟨hreach, htracks, h.isXdp, hcount.trans h.count, h.torn, h.packets, h.txDoneOld, h.armed⟩
  · rw [heq]
    exact ⟨rfl, rfl, rfl, rfl⟩

/-- The room on a ring with one packet, or none, between two calls of `ixgbevf_clean_tx_irq`. -/
theorem room (h : Unseen s ps n armed) (hidle : Idle s) (hdescs : (ps.map Packet.descs).sum ≤ 5) :
  12 ≤ s.ring.descUnused
  := by
  have hunused := TxRing.descUnused_eq h.tracks.holds.clean_lt h.tracks.holds.use_lt
  have hgap := h.tracks.holds.gap_use
  have hfront : s.shared.front = s.shared.ring.nextToClean := by
    rw [SharedRing.front, hidle.1]
  have hcount : s.shared.ring.count = 64 := h.count
  rw [hfront, gap_self] at hgap
  change 12 ≤ s.shared.ring.descUnused
  omega

/-- The hardware reports the packet, and a call of `ixgbevf_clean_tx_irq` frees it. -/
theorem frees (h : Unseen s [p] n armed) (hidle : Idle s) (hdescs : p.descs ≤ 5) (detect : Bool) :
  ∃ s' i, Unseen s' [] n armed ∧ s'.shared.cleaning = some (i, 31) ∧ s'.detectHang = detect
    ∧ s'.totalPackets = p.segs % 2 ^ 32 ∧ 12 ≤ s'.ring.descUnused
    ∧ ∃ es, s'.effects = es ++ p.released
  := by
  have hroom := h.room hidle (by simpa using hdescs)
  have hreach₁ := reachable_next (.writeBack p.slot doneDesc) h.reachable trivial rfl
  set s₁ : OwnedRing := { s.writeBack p.slot doneDesc with detectHang := detect } with hs₁
  have hreach₁ : system.Reachable TransSystem.always s₁ := by
    cases detect with
    | true => exact reachable_next .checkHang hreach₁ trivial rfl
    | false =>
      have hsame : s₁ = s.writeBack p.slot doneDesc := by
        rw [hs₁, ← hidle.2]
        rfl
      rwa [hsame]
  set s₂ := s₁.cleanTxIrq with hs₂
  have hreach₂ : system.Reachable TransSystem.always s₂ :=
    reachable_next .clean hreach₁ ⟨h.torn, hidle.1⟩ rfl
  -- the call finds the packet reported
  have htracks := (h.tracks.writeBack p.slot doneDesc).start hidle.1 (s.ring.count / 2)
  have hmark : (if doneDesc.olinfoStatus &&& txdStatDd = 0#32 then [p]
      else [p].map (Packet.mark p.slot)) = [p.mark p.slot] := if_neg (by decide)
  obtain ⟨hid, hmaps, hslot, hdescs', hsegs, -⟩ := p.mark_same p.slot
  have htracks : s₂.shared.Tracks [p.mark p.slot] := by
    rw [← hmark]
    exact htracks
  have hdone : ¬ s₂.ring.Clear (p.mark p.slot).slot := by
    rw [hslot]
    have hdesc : s₂.ring.desc p.slot = doneDesc := if_pos rfl
    unfold TxRing.Clear
    rw [hdesc]
    decide
  obtain ⟨r, heq, hwithin, hkept⟩ := cleanLoop_frees htracks hdone (s.ring.count / 2) 0 0
  rw [h.count, if_neg (by decide)] at heq
  have hreach₃ : system.Reachable TransSystem.always
      (s₂.freed r (ahead s₂.ring.count s₂.shared.front (p.mark p.slot).descs) 31 (p.mark p.slot)) := by
    refine reachable_next (.cleanStep 0 0) hreach₂ trivial ?_
    have hc : s₂.shared.cleaning = some (s₂.shared.front, s.ring.count / 2) := rfl
    rw [h.count] at hc
    rw [OwnedRing.next, hc]
    exact congrArg some heq
  have hholds := (hkept 31).holds
  have hunused := TxRing.descUnused_eq hholds.clean_lt hholds.use_lt
  have hgap : gap r.count r.nextToClean r.nextToUse
      = gap r.count r.nextToClean (ahead s.ring.count s.ring.nextToClean p.descs) + 0 := by
    rw [← hdescs']
    exact hholds.gap_use
  have hcount : r.count = s.ring.count := hwithin.count
  have hclean : r.nextToClean = s.ring.nextToClean := hwithin.nextToClean
  have hcleanLt : s.ring.nextToClean < s.ring.count := h.tracks.holds.clean_lt
  have hcount64 := h.count
  rw [hcount, hclean, gap_ahead hcleanLt (by omega)] at hgap
  refine ⟨_, _, ⟨hreach₃, hkept 31, h.isXdp, hcount.trans h.count, h.torn, h.packets,
    h.txDoneOld, h.armed⟩, rfl, rfl, ?_, ?_, s₂.effects, ?_⟩
  · have htotal : (0 + (p.mark p.slot).segs) % 2 ^ 32 = p.segs % 2 ^ 32 := by
      rw [hsegs, Nat.zero_add]
    exact htotal
  · have hroom : 12 ≤ r.descUnused := by
      change r.descUnused + gap r.count r.nextToClean r.nextToUse + 1 = r.count at hunused
      rw [hcount, hclean, hgap] at hunused
      omega
    exact hroom
  · have hreleased : (p.mark p.slot).released = p.released := by
      rw [Packet.released, hid, hmaps]
      rfl
    rw [← hreleased]
    rfl

/-- The call ends on an empty ring. -/
theorem ends (h : Unseen s [] n armed) (hc : s.shared.cleaning = some (i, budget))
    (hdetect : s.detectHang = false) :
  ∃ s', Unseen s' [] (n + s.totalPackets) armed ∧ Idle s'
  := by
  have hi : s.shared.front = i := by
    rw [SharedRing.front, hc]
  have hends : ∀ eop, (s.ring.buffer i).nextToWatch = some eop → s.ring.Clear eop := by
    intro eop heop
    rw [← hi] at heop
    obtain ⟨n, ns, hns, -⟩ := h.tracks.holds.watched heop
    cases hns
  have hreach := reachable_next (.cleanStep 0 0) h.reachable trivial (by rw [OwnedRing.next, hc])
  rw [cleanLoop_ends hends] at hreach
  have hend : s.cleanEnd i 0 0 = ({ s with
      shared := s.shared.cleanEnd i
      packets := s.packets + s.totalPackets }.emit [.completed s.totalPackets s.totalBytes]) := by
    have hxdp : (s.shared.cleanEnd i).isXdp = false := h.isXdp
    simp only [OwnedRing.cleanEnd, hdetect, hxdp, Bool.false_eq_true, if_false]
  rw [hend] at hreach
  refine ⟨_, ⟨hreach, ?_, h.isXdp, h.count, h.torn, ?_, h.txDoneOld, h.armed⟩, rfl, hdetect⟩
  · have htracks := h.tracks.cleanEnd
    rwa [hi] at htracks
  · rw [← h.packets]
    rfl

/-- The call ends at a packet that was not reported, and the hang check that was asked for sees no
progress. -/
theorem checks (h : Unseen s [p] n armed) (hc : s.shared.cleaning = some (i, budget))
    (hdetect : s.detectHang = true) (hp : p.reported = false)
    (hzero : BitVec.ofNat 32 (n + s.totalPackets) = 0#32) :
  ∃ s', Unseen s' [p] (n + s.totalPackets) true ∧ Idle s'
    ∧ s'.effects = s.effects
      ++ [if armed then .hang else .completed s.totalPackets s.totalBytes]
  := by
  have hi : s.shared.front = i := by
    rw [SharedRing.front, hc]
  obtain ⟨hring, -⟩ := h.tracks.carried
  have hends : ∀ eop, (s.ring.buffer i).nextToWatch = some eop → s.ring.Clear eop := by
    intro eop heop
    have hwatch := hring.watch
    rw [hi] at hwatch
    obtain rfl : eop = p.slot := Option.some.inj (heop.symm.trans hwatch)
    by_contra hclear
    rw [hring.status hclear] at hp
    cases hp
  have hpending : TxQueue.getTxPending { s.ring with tail := s.ring.nextToUse } i ≠ 0 := by
    have hfront : s.shared.front < s.ring.count := h.tracks.holds.front_lt
    have hfit : ([p].map Packet.descs).sum < s.ring.count := h.tracks.holds.tiles.fit
    have huse : s.ring.nextToUse = ahead s.ring.count i p.descs := by
      have huse := h.tracks.holds.use
      rwa [hi, List.map_singleton, List.sum_singleton] at huse
    have hpos := hring.pos
    rw [hi] at hfront
    rw [List.map_singleton, List.sum_singleton] at hfit
    have hne : i ≠ s.ring.nextToUse := by
      rw [huse, Ne, ← gap_eq_zero hfront, gap_ahead hfront hfit]
      omega
    unfold TxQueue.getTxPending
    rw [if_pos hne]
    split_ifs with hle
    · exact Nat.sub_ne_zero_of_lt hle
    · exact Nat.sub_ne_zero_of_lt (Nat.lt_add_left _ hfront)
  have hreach := reachable_next (.cleanStep i s.ring.nextToUse) h.reachable trivial
    (by rw [OwnedRing.next, hc])
  rw [cleanLoop_ends hends] at hreach
  have hend : s.cleanEnd i i s.ring.nextToUse = ({ s with
      shared := s.shared.cleanEnd i
      packets := s.packets + s.totalPackets
      detectHang := false
      hangCheckArmed := true }.emit
        [if armed then .hang else .completed s.totalPackets s.totalBytes]) := by
    have hxdp : (s.shared.cleanEnd i).isXdp = false := h.isXdp
    have hsame : s.txDoneOld = BitVec.ofNat 32 (s.packets + s.totalPackets) := by
      rw [h.packets, h.txDoneOld, hzero]
    have hchecks : s.txDoneOld = BitVec.ofNat 32 (s.packets + s.totalPackets)
        ∧ TxQueue.getTxPending { (s.shared.cleanEnd i).ring with tail := s.ring.nextToUse } i ≠ 0 :=
      ⟨hsame, hpending⟩
    have hcheck : ({ s with
        shared := s.shared.cleanEnd i
        packets := s.packets + s.totalPackets } : OwnedRing).checkTxHang i s.ring.nextToUse
        = ({ s with
            shared := s.shared.cleanEnd i
            packets := s.packets + s.totalPackets
            detectHang := false
            hangCheckArmed := true }, s.hangCheckArmed) := if_pos hchecks
    simp only [hdetect, h.armed] at hcheck
    simp only [OwnedRing.cleanEnd, hdetect, if_true, h.armed, hcheck, hxdp]
    cases armed <;> rfl
  rw [hend] at hreach
  refine ⟨_, ⟨hreach, ?_, h.isXdp, h.count, h.torn, ?_, h.txDoneOld, rfl⟩, ⟨rfl, rfl⟩, rfl⟩
  · have htracks := h.tracks.cleanEnd
    rwa [hi] at htracks
  · rw [← h.packets]
    rfl

/-- Any number of packets are sent and given back, one after the other. -/
theorem rounds (h : Unseen s [] n armed) (hidle : Idle s) (k : ℕ) :
  ∃ s', Unseen s' [] (n + 1024 * k) armed ∧ Idle s'
  := by
  induction k with
  | zero => exact ⟨s, h, hidle⟩
  | succ k ih =>
    obtain ⟨s₁, h₁, hidle₁⟩ := ih
    obtain ⟨s₂, p, h₂, hsegs, hdescs, -, hc₂, hdetect₂, -⟩ :=
      h₁.xmit (h₁.room hidle₁ (Nat.zero_le 5)) 0
    have hidle₂ : Idle s₂ := ⟨hc₂.trans hidle₁.1, hdetect₂.trans hidle₁.2⟩
    obtain ⟨s₃, i, h₃, hc₃, hdetect₃, htotal, -⟩ := h₂.frees hidle₂ hdescs false
    obtain ⟨s₄, h₄, hidle₄⟩ := h₃.ends hc₃ hdetect₃
    have hsum : n + 1024 * k + s₃.totalPackets = n + 1024 * (k + 1) := by
      rw [htotal, hsegs]
      omega
    rw [hsum] at h₄
    exact ⟨s₄, h₄, hidle₄⟩

end Unseen

/-- After `2 ^ 32` segments that no hang check has seen a call of `ixgbevf_clean_tx_irq` frees a
packet and detects a hang, and the queue does not hear of the packet. -/
theorem freed_and_hung :
  ∃ (s : OwnedRing) (es : List TxEffect) (p q : Packet), system.Reachable TransSystem.always s
    ∧ s.shared.isXdp = false ∧ s.shared.cleaning = none
    ∧ s.effects = es ++ (p.released ++ q.accepted ++ [.hang])
  := by
  have hfresh : Unseen freshRing [] 0 false :=
    ⟨.init freshRing_init, .init freshRing_init.shared freshRing_init.len, rfl, rfl, rfl, rfl, rfl, rfl⟩
  -- the first packet arms the check
  obtain ⟨s₁, p₁, h₁, hsegs₁, hdescs₁, hreported₁, hc₁, hdetect₁, -⟩ := hfresh.xmit (by decide) 0
  have hchecked := reachable_next .checkHang h₁.reachable trivial rfl
  have hcalled := reachable_next .clean hchecked ⟨h₁.torn, hc₁⟩ rfl
  have h₂ : Unseen (cleanTxIrq { s₁ with detectHang := true }) [p₁] 0 false :=
    ⟨hcalled, h₁.tracks.start hc₁ _, h₁.isXdp, h₁.count, h₁.torn, h₁.packets, h₁.txDoneOld, h₁.armed⟩
  obtain ⟨s₃, h₃, hidle₃, -⟩ := h₂.checks rfl rfl hreported₁ rfl
  -- all packets but one are given back
  obtain ⟨s₄, i₄, h₄, hc₄, hdetect₄, htotal₄, -⟩ := h₃.frees hidle₃ hdescs₁ false
  obtain ⟨s₅, h₅, hidle₅⟩ := h₄.ends hc₄ hdetect₄
  obtain ⟨s₆, h₆, hidle₆⟩ := h₅.rounds hidle₅ (2 ^ 22 - 2)
  -- the last one is given back by the call that makes the check
  obtain ⟨s₇, p, h₇, hsegs, hdescs, -, hc₇, hdetect₇, -⟩ :=
    h₆.xmit (h₆.room hidle₆ (Nat.zero_le 5)) 0
  have hidle₇ : Idle s₇ := ⟨hc₇.trans hidle₆.1, hdetect₇.trans hidle₆.2⟩
  obtain ⟨s₈, i, h₈, hc₈, hdetect₈, htotal₈, hroom, es, heffects₈⟩ := h₇.frees hidle₇ hdescs true
  obtain ⟨s₉, q, h₉, -, -, hreported, hc₉, hdetect₉, htotal₉, heffects₉⟩ := h₈.xmit hroom 1
  have hzero : BitVec.ofNat 32
      (0 + (cleanTxIrq { s₁ with detectHang := true }).totalPackets + s₄.totalPackets
        + 1024 * (2 ^ 22 - 2) + s₉.totalPackets) = 0#32 := by
    have hstart : (cleanTxIrq { s₁ with detectHang := true }).totalPackets = 0 := rfl
    rw [hstart, htotal₉, htotal₈, hsegs, htotal₄, hsegs₁]
    decide
  obtain ⟨s₁₀, h₁₀, hidle₁₀, heffects₁₀⟩ := h₉.checks (hc₉.trans hc₈) (hdetect₉.trans hdetect₈)
    hreported hzero
  refine ⟨s₁₀, es, p, q, h₁₀.reachable, h₁₀.isXdp, hidle₁₀.1, ?_⟩
  rw [heffects₁₀, heffects₉, heffects₈]
  simp only [List.append_assoc, if_true]

/-- Not all packets that are freed are reported to the queue, and not all mappings are undone.  What
a ring holds when it is torn down is freed and not reported, nor is what a call that detects a hang
has freed; and an empty head is mapped, and not unmapped when the mapping after it fails. -/
theorem unreported :
  (∃ s, system.Reachable TransSystem.always s ∧ s.torn = true ∧ s.effects
      = [.take 1, .map ⟨true, 0#64, 60⟩, .map ⟨false, 1#64, 100⟩, .put 2 1 160, .free 1,
        .unmap ⟨true, 0#64, 60⟩, .unmap ⟨false, 1#64, 100⟩, .resetQueue])
    ∧ (∃ (s : OwnedRing) (es : List TxEffect) (p q : Packet),
      system.Reachable TransSystem.always s ∧ s.shared.isXdp = false ∧ s.shared.cleaning = none
        ∧ s.effects = es ++ (p.released ++ q.accepted ++ [.hang]))
    ∧ ∃ s, system.Reachable TransSystem.always s
      ∧ s.effects = [.take 1, .map ⟨true, 1#64, 0⟩, .free 1]
  := by
  refine ⟨⟨_, reachable_next .teardown sentRing_reachable rfl rfl, rfl, ?_⟩, freed_and_hung,
    freshRing.xmitFrame TxQueue.headless, ?_, ?_⟩
  · decide +kernel
  · exact reachable_next (.xmit TxQueue.headless) (.init freshRing_init)
      ⟨rfl, rfl, by decide, by decide⟩ rfl
  · decide +kernel

end OwnedRing

end Ixgbevf.Tx
