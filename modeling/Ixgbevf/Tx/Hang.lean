import Ixgbevf.Lib.Watchdog
import Ixgbevf.Tx.Accounts

/-!
# Detecting hangs

`ixgbevf_check_hang_subtask` asks for a check of a ring, which the next call of
`ixgbevf_clean_tx_irq` makes: where no packet was counted since the last check and the registers
tell of descriptors that are left, the check is armed, and a check that is armed already reports a
hang.  So a hang is reported only of a ring that has come no further since an earlier check, or has
counted `2 ^ 32` packets in between; and of a ring that comes no further a hang is reported at the
third check.
-/

namespace Ixgbevf.Tx

open Watchdog

namespace OwnedRing

variable {s s' : OwnedRing}

/-- The watchdog of a ring. -/
def watchdog (s : OwnedRing) : Watchdog (BitVec 32) where
  old := s.txDoneOld
  asked := s.detectHang
  armed := s.hangCheckArmed
  alarms := s.effects.count .hang

/-- `ixgbevf_get_tx_completed`. -/
def getTxCompleted (s : OwnedRing) : BitVec 32 := BitVec.ofNat 32 s.packets

/-- `ixgbevf_get_tx_pending`, where `head` and `tail` are what the registers of the ring say. -/
def pending (s : OwnedRing) (head tail : ℕ) : ℕ :=
  TxQueue.getTxPending { s.ring with tail := tail } head

/-- What the registers say, where a call of `ixgbevf_clean_tx_irq` reads them: descriptors are
left. -/
def Pending (s : OwnedRing) : Event → Prop
  | .cleanStep head tail => s.pending head tail ≠ 0
  | _ => False

/-- `ixgbevf_configure_tx_ring` starts over. -/
def Restarts : Event → Prop
  | .configure _ => True
  | _ => False

/-- What a step does to the watchdog, with the packets it counts. -/
def Counts (busy reset : Prop) (s s' : OwnedRing) : Prop :=
  s.packets ≤ s'.packets ∧ Moves s'.getTxCompleted busy reset s.watchdog s'.watchdog

/-- Nothing is counted and no check is made. -/
theorem Counts.same {busy reset : Prop} (hpackets : s'.packets = s.packets)
    (hsame : s'.watchdog = s.watchdog) :
  Counts busy reset s s'
  := by
  refine ⟨hpackets.ge, ?_⟩
  rw [hsame]
  exact .rests id rfl rfl rfl

/-- More effects, none of which is a hang. -/
theorem watchdog_emit {es : List TxEffect} (h : TxEffect.hang ∉ es) :
  (s.emit es).watchdog = s.watchdog
  := by
  have hcount : (s.effects ++ es).count .hang = s.effects.count .hang := by
    rw [List.count_append, List.count_eq_zero.mpr h]
    rfl
  rw [watchdog, emit, hcount]
  rfl

/-- Acts on a packet report no hang. -/
theorem hang_not_mem_acts (acts : List TxAct) :
  TxEffect.hang ∉ acts.filterMap TxEffect.ofAct
  := by
  intro hmem
  obtain ⟨act, -, heq⟩ := List.mem_filterMap.mp hmem
  cases act <;> cases heq

/-- Making mappings reports no hang. -/
theorem hang_not_mem_map {f : Mapping → TxEffect} (h : ∀ m, f m ≠ .hang) (maps : List Mapping) :
  TxEffect.hang ∉ maps.map f
  := by
  intro hmem
  obtain ⟨m, -, heq⟩ := List.mem_map.mp hmem
  exact h m heq

/-- Putting a packet on the ring reports no hang. -/
theorem hang_not_mem_puts (r : TxRing) (first : ℕ) :
  TxEffect.hang ∉ puts r first
  := by
  intro hmem
  obtain ⟨slot, -, heq⟩ := List.mem_map.mp hmem
  cases heq

/-! ### Cleaning -/

/-- The end of a call counts its packets, and makes the check that was asked for. -/
theorem cleanEnd_counts (s : OwnedRing) (i head tail : ℕ) (reset : Prop) :
  Counts (s.pending head tail ≠ 0) reset s (s.cleanEnd i head tail)
  := by
  set s₁ : OwnedRing :=
    { s with shared := s.shared.cleanEnd i, packets := s.packets + s.totalPackets } with hs₁
  set p := if s₁.detectHang then s₁.checkTxHang head tail else (s₁, false) with hp
  set s' := s.cleanEnd i head tail with hs'
  have hend : s' = if p.2 then p.1.emit [.hang] else if s.shared.isXdp then p.1
      else p.1.emit [.completed s.totalPackets s.totalBytes] := rfl
  -- a hang or a report at the end touches nothing else
  have hwatch : s'.packets = p.1.packets ∧ s'.watchdog
      = { p.1.watchdog with alarms := p.1.watchdog.alarms + if p.2 then 1 else 0 } := by
    rw [hend]
    split
    · refine ⟨rfl, ?_⟩
      rw [watchdog, emit, List.count_append]
      rfl
    · split
      · exact ⟨rfl, rfl⟩
      · exact ⟨rfl, watchdog_emit (by simp)⟩
  obtain ⟨hpackets, hwatch⟩ := hwatch
  have hdone : s'.packets = s.packets + s.totalPackets := by
    rw [hpackets, hp]
    split
    · unfold checkTxHang
      simp only
      split <;> rfl
    · rfl
  refine ⟨by omega, ?_⟩
  have hcompleted : s'.getTxCompleted = BitVec.ofNat 32 s₁.packets := by
    rw [getTxCompleted, hdone]
  rw [hcompleted, hwatch]
  cases hdetect : s.detectHang with
  | false =>
    have heq : p = (s₁, false) := if_neg (by simp [hs₁, hdetect])
    rw [heq]
    exact .rests id rfl rfl rfl
  | true =>
    have hcheck : p = s₁.checkTxHang head tail := if_pos hdetect
    by_cases hstuck : s₁.txDoneOld = BitVec.ofNat 32 s₁.packets
        ∧ TxQueue.getTxPending { s₁.ring with tail := tail } head ≠ 0
    · have heq : p = ({ s₁ with detectHang := false, hangCheckArmed := true }, s.hangCheckArmed) := by
        rw [hcheck, checkTxHang]
        exact if_pos hstuck
      rw [heq]
      exact .suspects hdetect rfl hstuck.1 hstuck.2 rfl rfl rfl
    · have heq : p = ({ s₁ with
          detectHang := false
          hangCheckArmed := false
          txDoneOld := BitVec.ofNat 32 s₁.packets }, false) := by
        rw [hcheck, checkTxHang]
        exact if_neg hstuck
      rw [heq]
      exact .passes hdetect rfl hstuck rfl rfl rfl

/-- Cleaning a packet leaves the ring as long as it is. -/
theorem cleanPacket_count (r : TxRing) (i eop : ℕ) :
  (TxQueue.cleanPacket r i eop).1.count = r.count
  := by
  have hfrags (fuel : ℕ) (r : TxRing) (i : ℕ) :
      (TxQueue.unmapFrags eop fuel i r).1.count = r.count := by
    induction fuel generalizing r i with
    | zero => rfl
    | succ fuel ih =>
      unfold TxQueue.unmapFrags
      split
      · rfl
      · exact ih _ _
  exact hfrags _ _ _

/-- A call of `ixgbevf_clean_tx_irq` makes the check that was asked for where it ends. -/
theorem cleanLoop_counts (s : OwnedRing) (i budget head tail : ℕ) (reset : Prop) :
  Counts (s.pending head tail ≠ 0) reset s (s.cleanLoop i budget head tail)
  := by
  unfold cleanLoop
  split
  · exact s.cleanEnd_counts i head tail reset
  split
  · exact s.cleanEnd_counts i head tail reset
  rename_i eop _ _
  set p := TxQueue.cleanPacket s.ring i eop with hp
  set s₁ : OwnedRing := { s.setRing p.1 with
    totalBytes := (s.totalBytes + (s.ring.buffer i).bytecount) % 2 ^ 32
    totalPackets := (s.totalPackets + (s.ring.buffer i).gsoSegs) % 2 ^ 32 }.emit
      (p.2.2.filterMap TxEffect.ofAct) with hs₁
  have hsame : s₁.watchdog = s.watchdog := watchdog_emit (hang_not_mem_acts _)
  have hpending : s₁.pending head tail = s.pending head tail := by
    have hcount : s₁.ring.count = s.ring.count := cleanPacket_count s.ring i eop
    unfold pending TxQueue.getTxPending
    simp only
    rw [hcount]
  split
  · have hcounts := s₁.cleanEnd_counts p.2.1 head tail reset
    rw [hpending, Counts, hsame] at hcounts
    exact hcounts
  · exact .same rfl hsame

/-! ### Every run -/

/-- A transmission reports no hang. -/
theorem xmitFrame_counts (s : OwnedRing) (c : Call) (busy reset : Prop) :
  Counts busy reset s (s.xmitFrame c)
  := by
  have hdrops (c : Call) : Counts busy reset s (s.drops c) := .same rfl (watchdog_emit (by simp))
  have hring (c : Call) : Counts busy reset s (s.xmitFrameRing c) := by
    unfold xmitFrameRing
    split
    · exact hdrops c
    split
    · exact .same rfl rfl
    simp only
    split
    · rename_i r acts _
      refine .same rfl (watchdog_emit (s := s.setRing r) ?_)
      simpa using hang_not_mem_acts acts
    · rename_i r hdrLen acts _
      refine .same rfl (watchdog_emit (s := s.setRing _) ?_)
      have hmaps := hang_not_mem_map (f := TxEffect.map) (by simp) c.mappings
      have hacts := hang_not_mem_acts acts
      intro hmem
      rcases List.mem_append.mp hmem with hmem | hmem
      · rcases List.mem_append.mp hmem with hmem | hmem
        · rcases List.mem_cons.mp hmem with heq | hmem
          · cases heq
          · exact hacts hmem
        · exact hmaps hmem
      · split at hmem
        · exact hang_not_mem_puts _ _ hmem
        · exact hang_not_mem_acts _ hmem
  unfold xmitFrame
  split
  · exact hdrops c
  split
  · exact hdrops c
  · exact hring c.padded

/-- Every step counts packets and moves the watchdog. -/
theorem next_counts {e : Event} (h : s.next e = some s') :
  Counts (s.Pending e) (Restarts e) s s'
  := by
  cases e with
  | xmit c =>
    obtain rfl := Option.some.inj h
    exact s.xmitFrame_counts c _ _
  | xmitXdp xdp =>
    obtain rfl := Option.some.inj h
    unfold OwnedRing.xmitXdp
    split
    · exact .same rfl rfl
    · rename_i r _
      refine .same rfl (watchdog_emit
        (s := { s with shared := { s.shared with ring := r, primed := true } }) ?_)
      intro hmem
      rcases List.mem_append.mp hmem with hmem | hmem
      · rcases List.mem_cons.mp hmem with heq | hmem
        · cases heq
        · obtain ⟨m, -, heq⟩ := List.mem_map.mp hmem
          cases heq
      · exact hang_not_mem_puts _ _ hmem
  | cleanStep head tail =>
    rw [OwnedRing.next] at h
    split at h
    · obtain rfl := Option.some.inj h
      exact .same rfl rfl
    · obtain rfl := Option.some.inj h
      exact s.cleanLoop_counts _ _ head tail _
  | writeBack i d =>
    obtain rfl := Option.some.inj h
    refine .same rfl (watchdog_emit (s := s.setRing _) ?_)
    split <;> simp
  | clean =>
    obtain rfl := Option.some.inj h
    exact .same rfl rfl
  | checkHang =>
    obtain rfl := Option.some.inj h
    exact ⟨Nat.le_refl _, .rests (fun _ => rfl) rfl rfl rfl⟩
  | teardown =>
    obtain ⟨acts, -, rfl⟩ := Option.map_eq_some_iff.mp h
    refine .same rfl (watchdog_emit (s := { s.setRing _ with torn := true }) ?_)
    intro hmem
    rcases List.mem_append.mp hmem with hmem | hmem
    · exact hang_not_mem_acts _ hmem
    · split at hmem <;> simp at hmem
  | configure count =>
    obtain rfl := Option.some.inj h
    exact ⟨Nat.le_refl _, .resets trivial id rfl rfl rfl⟩

/-- The ring has a watchdog. -/
theorem system_watches :
  system.Watches watchdog getTxCompleted Pending Restarts
  := ⟨fun _ h => h.hangCheckArmed, fun _ _ _ h => (next_counts h.2).2⟩

/-- In every run, a step that reports a hang is the end of a call of `ixgbevf_clean_tx_irq` that was
asked for a check and finds descriptors left, and there was such a check before it since which the
ring has counted no packet, or `2 ^ 32` packets at least. -/
theorem reachable_hang {e : Event} (h : system.Reachable TransSystem.always s)
    (hstep : system.step s e s') (hhang : s.effects.count .hang < s'.effects.count .hang) :
  s.Pending e ∧ Checks s.watchdog s'.watchdog
    ∧ ∃ s₁ e₁ s₂ es, system.Reachable TransSystem.always s₁ ∧ system.step s₁ e₁ s₂ ∧ s₁.Pending e₁
      ∧ Checks s₁.watchdog s₂.watchdog ∧ system.Path TransSystem.always s₂ es s
      ∧ (s'.packets = s₂.packets ∨ s₂.packets + 2 ^ 32 ≤ s'.packets)
  := by
  obtain ⟨hbusy, hchecks, s₁, e₁, s₂, es, hs₁, -, hstep₁, hbusy₁, hchecks₁, hpath, hvalue⟩ :=
    system_watches.alarm_since h hstep hhang
  refine ⟨hbusy, hchecks, s₁, e₁, s₂, es, hs₁, hstep₁, hbusy₁, hchecks₁, hpath, ?_⟩
  have hle : s₂.packets ≤ s.packets := by
    refine hpath.invariant (I := fun t => s₂.packets ≤ t.packets) ?_ (Nat.le_refl _)
    intro t e t' hle _ hstep
    exact hle.trans (next_counts hstep.2).1
  have hle' := (next_counts hstep.2).1
  have hmod := congrArg BitVec.toNat hvalue
  rw [getTxCompleted, getTxCompleted, BitVec.toNat_ofNat, BitVec.toNat_ofNat] at hmod
  omega

/-- The sent packet is never reported: a check of its ring suspects a hang. -/
def suspectRing : OwnedRing := { sentRing with detectHang := true }.cleanTxIrq.cleanLoop 0 32 0 3

/-- The next check of the ring, up to its loop. -/
def recheckedRing : OwnedRing := { suspectRing with detectHang := true }.cleanTxIrq

/-- The checks are made in a run. -/
theorem recheckedRing_reachable :
  system.Reachable TransSystem.always recheckedRing
  := by
  have hasked := reachable_next .checkHang sentRing_reachable trivial rfl
  have hclean := reachable_next .clean hasked ⟨rfl, rfl⟩ rfl
  have hsuspect : system.Reachable TransSystem.always suspectRing :=
    reachable_next (.cleanStep 0 3) hclean trivial rfl
  have hasked' := reachable_next .checkHang hsuspect trivial rfl
  exact reachable_next .clean hasked' ⟨rfl, rfl⟩ rfl

/-- The second check reports the hang, which the first one suspected. -/
theorem recheckedRing_hang :
  recheckedRing.Pending (.cleanStep 0 3)
    ∧ Checks recheckedRing.watchdog (recheckedRing.cleanLoop 0 32 0 3).watchdog
    ∧ ∃ s₁ e₁ s₂ es, system.Reachable TransSystem.always s₁ ∧ system.step s₁ e₁ s₂ ∧ s₁.Pending e₁
      ∧ Checks s₁.watchdog s₂.watchdog ∧ system.Path TransSystem.always s₂ es recheckedRing
      ∧ ((recheckedRing.cleanLoop 0 32 0 3).packets = s₂.packets
        ∨ s₂.packets + 2 ^ 32 ≤ (recheckedRing.cleanLoop 0 32 0 3).packets)
  := reachable_hang (e := .cleanStep 0 3) recheckedRing_reachable ⟨trivial, rfl⟩
    (by decide +kernel)

/-- In every run in which a ring counts no packet and is not configured again, and in which all `k`
checks find descriptors left, every check reports a hang but for one or two at the start. -/
theorem stall_hangs {k : ℕ}
    (h : system.Stalls watchdog getTxCompleted Pending Restarts k s s') :
  s'.effects.count .hang
    = s.effects.count .hang + (k - s.watchdog.lead s.getTxCompleted)
    ∧ s.watchdog.lead s.getTxCompleted ≤ 2
  := ⟨(system_watches.stall_alarms h).2.2, lead_le _ _⟩

/-- Two checks of the ring whose packet is never reported: the first one suspects the hang and the
second one reports it. -/
theorem recheckedRing_stall :
  (recheckedRing.cleanLoop 0 32 0 3).effects.count .hang
    = sentRing.effects.count .hang + (2 - sentRing.watchdog.lead sentRing.getTxCompleted)
    ∧ sentRing.watchdog.lead sentRing.getTxCompleted ≤ 2
  := by
  apply stall_hangs
  have hstart : system.Stalls watchdog getTxCompleted Pending Restarts 0 sentRing sentRing := .start _
  have hask (t : OwnedRing) : system.step t .checkHang { t with detectHang := true }
      ∧ getTxCompleted { t with detectHang := true } = t.getTxCompleted := ⟨⟨trivial, rfl⟩, rfl⟩
  have hclean {t : OwnedRing} (h : t.torn = false) (h' : t.shared.cleaning = none) :
      system.step t .clean t.cleanTxIrq ∧ t.cleanTxIrq.getTxCompleted = t.getTxCompleted :=
    ⟨⟨⟨h, h'⟩, rfl⟩, rfl⟩
  have hscan {t : OwnedRing} (h : t.shared.cleaning = some (0, 32)) :
      system.step t (.cleanStep 0 3) (t.cleanLoop 0 32 0 3) := by
    refine ⟨trivial, ?_⟩
    rw [next, h]
  have hpending : { sentRing with detectHang := true }.cleanTxIrq.pending 0 3 ≠ 0 := by
    decide +kernel
  have hpending' : recheckedRing.pending 0 3 ≠ 0 := by decide +kernel
  have hasked := hstart.rests id (hask _).1 (hask _).2 fun h => Bool.noConfusion h.1
  have hcleaning := hasked.rests id (hclean rfl rfl).1 (hclean rfl rfl).2
    fun h => Bool.noConfusion h.2
  have hsuspect := hcleaning.checks id (hscan rfl) (by decide +kernel) ⟨rfl, by decide +kernel⟩
    hpending
  have hasked' := hsuspect.rests id (hask suspectRing).1 (hask suspectRing).2
    fun h => Bool.noConfusion h.2
  have hcleaning' := hasked'.rests id (hclean rfl rfl).1 (hclean rfl rfl).2
    fun h => Bool.noConfusion h.2
  have hlast : system.step recheckedRing (.cleanStep 0 3) (recheckedRing.cleanLoop 0 32 0 3) :=
    hscan rfl
  exact hcleaning'.checks id hlast (by decide +kernel) ⟨rfl, by decide +kernel⟩ hpending'

end OwnedRing

end Ixgbevf.Tx
