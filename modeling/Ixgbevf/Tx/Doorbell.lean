import Ixgbevf.Tx.InFlight

/-!
# The tail register

A packet that is put on the ring is known to the hardware only once the tail register is
past it, and the driver leaves the write of the register to the last packet of a burst.
`reachable_doorbell` says that the hardware knows of every packet after the last call of a
burst and after a call that leaves the queue stopped, in every run in which no such call
gives up its packet while others wait beyond the tail register.
-/

namespace Ixgbevf.Tx.TxQueue

open Cyclic

/-! ### Packets that are given up -/

/-- A packet is dropped before it is mapped: it does not reach to its VLAN header, or its
headers cannot be made writable. -/
def OffloadFails (c : Call) : Prop :=
  vlanFlags c.skb = none ∨ (c.skb.csumPartial ∧ c.skb.gsoSize ≠ 0 ∧ c.cowFails)

instance (c : Call) : Decidable (OffloadFails c) := by
  unfold OffloadFails
  infer_instance

/-- A mapping of the packet fails. -/
def MapFails (c : Call) : Prop := ∃ k < c.skb.frags.length + 1, c.map k = none

instance (c : Call) : Decidable (MapFails c) := by
  unfold MapFails
  infer_instance

/-- The call that gives up its packet with the event. -/
def givesUp (s : TxQueue) : Event → Option Call
  | .xmit c => if DropsAtOnce c then some c else none
  | .xmitStep =>
    match s.xmit with
    | .before .recheck c => if s.ring.descUnused < c.skb.size then some c else none
    | .offload c => if OffloadFails c then some c else none
    | .map c _ _ => if MapFails c then some c else none
    | _ => none
  | _ => none

/-- A packet that is dropped before it is mapped. -/
theorem xmitOffload_dropped {c : Call} {r r' : TxRing} {acts : List TxAct}
    (h : xmitOffload c.cowFails r c.skb = (.dropped r', acts)) :
  OffloadFails c
  := by
  unfold xmitOffload at h
  cases hvlan : vlanFlags c.skb with
  | none => exact .inl hvlan
  | some flags =>
    obtain ⟨txFlags, protocol⟩ := flags
    simp only [hvlan] at h
    refine .inr ?_
    by_contra hfine
    unfold tso at h
    grind

/-- A packet that comes to its context descriptor. -/
theorem xmitOffload_ready {c : Call} {r r' : TxRing} {hdrLen : BitVec 8} {acts : List TxAct}
    (h : xmitOffload c.cowFails r c.skb = (.ready r' hdrLen, acts)) :
  ¬ OffloadFails c
  := by
  unfold xmitOffload at h
  rintro (hvlan | ⟨hcsum, hgso, hcow⟩)
  · rw [hvlan] at h
    cases h
  · cases hvlan : vlanFlags c.skb with
    | none =>
      rw [hvlan] at h
      cases h
    | some flags =>
      rw [hvlan] at h
      simp [tso, hcsum, hgso, hcow, outDrop] at h

/-- A packet that is not put on the ring by `ixgbevf_tx_map`. -/
theorem txMap_failed {c : Call} {r r' : TxRing} {first : ℕ} {hdrLen : BitVec 8}
    {acts : List TxAct} (h : txMap c.map r first c.skb hdrLen = (false, r', acts)) :
  MapFails c
  := by
  obtain ⟨k, hk, hnone, -⟩ := txMap_failed_first h
  exact ⟨k, Nat.lt_succ_of_le hk, hnone⟩

/-! ### What the hardware knows -/

/-- The condition: a call that ends a burst, or that finds the queue stopped, gives up its
packet only while no packet waits beyond the tail register. -/
def DropsInformed (s : TxQueue) (e : Event) : Prop :=
  ∀ c, s.givesUp e = some c → (¬ c.more ∨ s.xmitStopped) → s.ring.tail = s.base

/-- After a call that ended a burst or that left the queue stopped, the tail register is at
`next_to_use`. -/
def Informed (s : TxQueue) : Prop :=
  s.xmit.isIdle → ∀ l, s.last = some l → (¬ l.more ∨ l.stopped) →
    s.ring.tail = s.ring.nextToUse

/-- A call that gives up its packet returns with the tail register where it has to be. -/
theorem gaveUp {s : TxQueue} {e : Event} {c : Call} {l : Returned} (hG : DropsInformed s e)
    (hgives : s.givesUp e = some c) (hmore : l.more = c.more) (hstopped : l.stopped = s.xmitStopped)
    (hlast : ¬ l.more ∨ l.stopped) :
  s.ring.tail = s.base
  := by
  apply hG c hgives
  rwa [hmore, hstopped] at hlast

/-- A step of the transmission that meets the condition leaves the hardware informed. -/
theorem xmitMove_informed {C : Config} {s s' : TxQueue} (h : Inv C s)
    (hG : DropsInformed s .xmitStep) (hmove : XmitMove C s s') :
  Informed s'
  := by
  intro hidle l hl hlast
  cases hmove with
  | @busy c hx hfull =>
    cases hl
    have hgives : s.givesUp .xmitStep = some c := by simp [givesUp, hx, hfull]
    have htail := gaveUp hG hgives rfl rfl hlast
    rwa [base_eq (by simp [hx])] at htail
  | @dropped c r acts hx hdrop =>
    cases hl
    have hgives : s.givesUp .xmitStep = some c := by
      simp [givesUp, hx, xmitOffload_dropped hdrop]
    have htail := gaveUp hG hgives rfl rfl hlast
    have hbase := base_eq (s := s) (by simp [hx])
    have hok := h.xmitOk
    rw [hx] at hok
    rcases xmitOffload_offloaded c.cowFails hok.1.segs (h.free hbase) with
      ⟨r', acts', heq, hsame, hnext⟩ | ⟨r', hdrLen, acts', heq, -⟩
    · rw [hdrop] at heq
      cases heq
      change r.tail = r.nextToUse
      rw [hsame.tail, hnext, htail, hbase]
    · rw [hdrop] at heq
      cases heq
  | @failed c first hdrLen r acts hx hfail =>
    cases hl
    have hgives : s.givesUp .xmitStep = some c := by simp [givesUp, hx, txMap_failed hfail]
    have htail := gaveUp hG hgives rfl rfl hlast
    obtain ⟨hsame, hback, -⟩ := (map_inv h hx).1 r acts hfail
    have hbase : s.base = first := by simp [base, hx]
    change r.tail = r.nextToUse
    rw [hsame.tail, hback, htail, hbase]
  | rung hx hring => rfl
  | quiet hx hmore hstopped =>
    cases hl
    rcases hlast with hlast | hlast
    · exact absurd hmore hlast
    · exact absurd hlast hstopped
  | _ => cases hidle

/-- An event that meets the condition leaves the hardware informed. -/
theorem step_informed {C : Config} {s s' : TxQueue} {e : Event} (h : Inv C s) (hs : Informed s)
    (hG : DropsInformed s e) (hstep : (system C).step s e s') :
  Informed s'
  := by
  obtain ⟨hen, rfl⟩ := hstep
  cases e with
  | xmit c =>
    have hidle : s.xmit = .idle := XmitPc.eq_idle hen.1
    change Informed (s.xmitFrame c)
    rcases s.xmitFrame_cases c with ⟨hdrop, heq⟩ | heq
    · rw [heq]
      intro _ l hl hlast
      cases hl
      have hgives : s.givesUp (.xmit c) = some c := by simp [givesUp, hdrop]
      have htail := gaveUp hG hgives rfl rfl hlast
      rwa [base_eq (by simp [hidle])] at htail
    · rw [heq]
      intro hbusy
      cases hbusy
  | xmitStep =>
    cases hidle : s.xmit.isIdle with
    | true =>
      have heq : s.xmitStep C = s := by rw [xmitStep, XmitPc.eq_idle hidle]
      change Informed (s.xmitStep C)
      rwa [heq]
    | false => exact xmitMove_informed h hG (xmitStep_move hidle)
  | clean =>
    change Informed s.cleanTxIrq
    unfold cleanTxIrq
    split <;> exact hs
  | cleanStep a =>
    by_cases hidle : s.clean = .idle
    · have heq : s.cleanStep C a = s := by rw [cleanStep, hidle]
      change Informed (s.cleanStep C a)
      rwa [heq]
    · obtain ⟨hxmit, hlast, -, -, huse, htail⟩ := cleanMove_frame h (cleanStep_move a hidle)
      intro hbusy l hl hends
      change (s.cleanStep C a).ring.tail = (s.cleanStep C a).ring.nextToUse
      rw [htail, huse]
      apply hs _ l _ hends
      · rwa [← hxmit]
      · rwa [← hlast]
  | writeBack i d => exact hs
  | carrier on => exact hs
  | checkHang =>
    simp only [next]
    split <;> exact hs

/-- In every run whose events all meet the condition, the hardware knows of every packet on
the ring after a call that ended a burst or left the queue stopped. -/
theorem reachable_doorbell {C : Config} {s : TxQueue}
    (h : (system C).Reachable DropsInformed s) :
  Informed s
  := by
  have hboth : Inv C s ∧ Informed s := by
    apply h.invariant
    · intro s hs
      refine ⟨init_inv hs, fun _ l hl _ => ?_⟩
      rw [hs.last] at hl
      cases hl
    · intro s e s' hs hG hstep
      exact ⟨step_inv hs.1 hstep, step_informed hs.1 hs.2 hG hstep⟩
  exact hboth.2

/-! ### Two bursts -/

instance (s : TxQueue) (e : Event) : Decidable (DropsInformed s e) :=
  decidable_of_iff (∀ c ∈ s.givesUp e, (¬ c.more ∨ s.xmitStopped) → s.ring.tail = s.base)
    Iff.rfl

/-- A packet whose tail write is left to the next one. -/
def firstOfBurst : List Event := sends (plainCall (plainSkb 1 60 [] ethPIp) true)

/-- A burst of two packets that are put on the ring. -/
def burst : TxQueue :=
  (firstOfBurst ++ sends (plainCall (plainSkb 2 60 [] ethPIp) false)).foldl
    (next smallRing) (fresh smallRing)

/-- A burst that ends with an LLDP frame, which the driver drops. -/
def droppedBurst : TxQueue :=
  (firstOfBurst ++ [Event.xmit (plainCall (plainSkb 2 60 [] ethPLldp) false)]).foldl
    (next smallRing) (fresh smallRing)

/-- At the end of the first burst the hardware knows of both packets. -/
theorem burst_doorbell :
  Informed burst
  := by
  apply reachable_doorbell (C := smallRing)
  apply TransSystem.Reachable.foldl
    (P := fun s e => DropsInformed s e ∧ Enabled smallRing s e)
  · intro s e h
    exact ⟨h.1, h.2, rfl⟩
  · apply TransSystem.Reachable.init
    apply fresh_init
  · decide +kernel

/-- At the end of the second burst its first packet waits beyond the tail register. -/
theorem droppedBurst_no_doorbell :
  ¬ ∀ C s, (system C).Reachable TransSystem.always s → Informed s
  := by
  intro h
  have hreach : (system smallRing).Reachable TransSystem.always droppedBurst := by
    apply TransSystem.Reachable.foldl (P := Enabled smallRing)
    · intro s e h
      exact ⟨trivial, h, rfl⟩
    · apply TransSystem.Reachable.init
      apply fresh_init
    · decide +kernel
  have hinformed := h smallRing droppedBurst hreach (by decide +kernel) ⟨false, false, false⟩
    (by decide +kernel) (.inl (by decide))
  have hwaits : droppedBurst.ring.tail ≠ droppedBurst.ring.nextToUse := by decide +kernel
  exact hwaits hinformed

end Ixgbevf.Tx.TxQueue
