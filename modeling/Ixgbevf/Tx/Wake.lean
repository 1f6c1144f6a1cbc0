import Ixgbevf.Tx.Doorbell

/-!
# Waking a stopped queue

A queue that the driver has stopped is started again by the cleaning of a transmitted
packet, and by nothing else.  `reachable_wakeable` says that there is such a packet
whenever the queue is stopped, the carrier is on and no call is in progress, in every run
in which the queue is stopped only with enough of its ring known to the hardware and in
which the last packet is not cleaned while the carrier is off.
-/

namespace Ixgbevf.Tx.TxQueue

open Cyclic

/-! ### The condition -/

/-- With every transmitted packet cleaned there is room for a wake-up, also when the packets
beyond the tail register take `n` slots more. -/
def RoomBehind (C : Config) (s : TxQueue) (n : ℕ) : Prop :=
  gap s.ring.count s.ring.tail s.ring.nextToUse + n + C.txWakeThreshold < s.ring.count

instance (C : Config) (s : TxQueue) (n : ℕ) : Decidable (RoomBehind C s n) := by
  unfold RoomBehind
  infer_instance

/-- A step of `ixgbevf_xmit_frame` leaves the queue stopped, or gives a stopped queue a context
descriptor, only with room behind the tail register. -/
def XmitStopsSafely (C : Config) (s : TxQueue) : XmitPc → Prop
  | .before .recheck c => s.drvXoff → s.ring.descUnused < c.skb.size → RoomBehind C s 0
  | .offload c => s.drvXoff → ¬ OffloadFails c → RoomBehind C s 1
  | .doorbell _ => s.drvXoff → C.txWakeThreshold < s.ring.count
  | _ => True

/-- A step of `ixgbevf_clean_tx_irq` stops the queue only with room behind the tail register,
and does not find the carrier off after it has cleaned the last transmitted packet of a
stopped queue. -/
def CleanStopsSafely (C : Config) (s : TxQueue) : CleanPc → Prop
  | .hangStop => ¬ s.xmit.looksAgain → RoomBehind C s 0
  | .complete _ packets => packets ≠ 0 → ¬ s.carrier → s.drvXoff → ¬ s.xmit.looksAgain →
      s.ring.nextToClean ≠ s.ring.tail
  | _ => True

/-- The condition. -/
def StopsSafely (C : Config) (s : TxQueue) : Event → Prop
  | .xmitStep => XmitStopsSafely C s s.xmit
  | .cleanStep _ => CleanStopsSafely C s s.clean
  | _ => True

/-! ### What is kept -/

/-- While the queue is stopped, a call of `ixgbevf_xmit_frame` looks at the ring again, or
there is room behind the tail register and a wake-up is on its way or a transmitted packet is
left. -/
def WakePending (C : Config) (s : TxQueue) : Prop :=
  s.drvXoff → s.xmit.looksAgain
    ∨ (RoomBehind C s 0 ∧ (s.clean.mayWake ∨ s.ring.nextToClean ≠ s.ring.tail))

/-- A transmitted packet is on the ring, and its cleaning makes room for a wake-up. -/
def Wakeable (C : Config) (s : TxQueue) : Prop :=
  ∃ i eop, (s.ring.buffer i).nextToWatch = some eop ∧ Owned s.ring i ∧ Owned s.ring eop
    ∧ C.txWakeThreshold
      ≤ { s.ring with nextToClean := Cyclic.next s.ring.count eop }.descUnused

/-- When the queue is stopped, the carrier is on and no call is in progress, a transmitted
packet is left whose cleaning wakes the queue. -/
def NoLostWake (C : Config) (s : TxQueue) : Prop :=
  s.xmit.isIdle → s.clean = .idle → s.drvXoff → s.carrier → Wakeable C s

/-- `next_to_use` is on the ring. -/
theorem Inv.use_lt {C : Config} {s : TxQueue} (h : Inv C s) :
  s.ring.nextToUse < s.ring.count
  := by
  obtain ⟨sent, queued, hflight⟩ := h.flight
  have hlt := hflight.base_lt
  cases hx : s.xmit with
  | map c first hdrLen =>
    have hok := h.xmitOk
    rw [hx] at hok
    have hbase : s.base = first := by simp [base, hx]
    rw [hok.2.2.1, ← hbase]
    exact next_lt hlt
  | _ => rwa [base_eq (by simp [hx])] at hlt

/-- Without transmitted packets, room behind the tail register is room on the ring. -/
theorem Inv.room {C : Config} {s : TxQueue} (h : Inv C s) (hroom : RoomBehind C s 0)
    (hclean : s.ring.nextToClean = s.ring.tail) :
  C.txWakeThreshold ≤ s.ring.descUnused
  := by
  obtain ⟨sent, queued, hflight⟩ := h.flight
  have hunused := TxRing.descUnused_eq hflight.clean_lt h.use_lt
  unfold RoomBehind at hroom
  rw [hclean] at hunused
  omega

/-- A transmitted packet that is left is one whose cleaning wakes the queue, when there is
room behind the tail register. -/
theorem Inv.wakeable {C : Config} {s : TxQueue} (h : Inv C s) (hxmit : s.xmit.isIdle)
    (hclean : s.clean = .idle) (hroom : RoomBehind C s 0)
    (hleft : s.ring.nextToClean ≠ s.ring.tail) :
  Wakeable C s
  := by
  obtain ⟨sent, queued, hflight⟩ := h.flight
  have hfront : s.front = s.ring.nextToClean := by simp [front, hclean]
  rw [hfront] at hflight
  rcases List.eq_nil_or_concat sent with rfl | ⟨ps, n, rfl⟩
  · have htail := hflight.tail
    rw [List.sum_nil, ahead_zero hflight.clean_lt] at htail
    exact absurd htail.symm hleft
  · rw [List.concat_eq_append] at hflight
    have hn := hflight.tiles.pos n (by simp)
    have hfit := hflight.tiles.fit
    have htiles := hflight.tiles
    have htail := hflight.tail
    have hgap := hflight.gap_tail
    simp only [List.sum_append, List.sum_cons, List.sum_nil, gap_self, Nat.zero_add, Nat.add_zero]
      at hfit hgap htail
    rw [List.append_assoc] at htiles
    have hstart := htiles.start hflight.clean_lt
    have hlast : Cyclic.next s.ring.count
        (ahead s.ring.count s.ring.nextToClean (ps.sum + (n - 1))) = s.ring.tail := by
      rw [next_ahead hflight.clean_lt (by omega), htail]
      congr 1
      omega
    refine ⟨_, _, hstart, ?_, ?_, ?_⟩
    · refine ⟨ahead_lt hflight.clean_lt (by omega), ?_⟩
      rw [gap_ahead hflight.clean_lt (by omega), hgap]
      omega
    · refine ⟨ahead_lt hflight.clean_lt (by omega), ?_⟩
      rw [gap_ahead hflight.clean_lt (by omega), hgap]
      omega
    · rw [hlast]
      unfold RoomBehind at hroom
      exact TxRing.descUnused_cleaned hflight.tail_lt h.use_lt (by omega)

/-- The room behind the tail register depends on the two indices only. -/
theorem RoomBehind.congr {C : Config} {s s' : TxQueue} {n : ℕ} (h : RoomBehind C s n)
    (hcount : s'.ring.count = s.ring.count) (hnext : s'.ring.nextToUse = s.ring.nextToUse)
    (htail : s'.ring.tail = s.ring.tail) :
  RoomBehind C s' n
  := by
  unfold RoomBehind
  rw [hcount, hnext, htail]
  exact h

/-- A step of a call that leaves the ring alone. -/
theorem WakePending.xmit_same {C : Config} {s s' : TxQueue} (h : WakePending C s)
    (hring : s'.ring = s.ring) (hpc : s'.clean = s.clean) (hoff : s'.drvXoff → s.drvXoff)
    (hlooks : s.xmit.looksAgain = false) :
  WakePending C s'
  := by
  intro hstopped
  rcases h (hoff hstopped) with hlook | ⟨hroom, hwake⟩
  · rw [hlooks] at hlook
    cases hlook
  · refine .inr ⟨hroom.congr (by rw [hring]) (by rw [hring]) (by rw [hring]), ?_⟩
    rwa [hpc, hring]

/-- A step of the transmission that meets the condition. -/
theorem xmitMove_pending {C : Config} {s s' : TxQueue} (h : Inv C s) (hs : WakePending C s)
    (hG : StopsSafely C s .xmitStep) (hmove : XmitMove C s s') :
  WakePending C s'
  := by
  have hok := h.xmitOk
  cases hmove with
  | room hx _ => exact hs.xmit_same rfl rfl id (by simp [hx, XmitPc.looksAgain])
  | full hx => exact hs.xmit_same rfl rfl id (by simp [hx, XmitPc.looksAgain])
  | stop hx => exact fun _ => .inl rfl
  | @busy c hx hfull =>
    intro hstopped
    rw [hx] at hok
    have hroom : RoomBehind C s 0 := by
      simp only [StopsSafely, hx] at hG
      exact hG hstopped hfull
    refine .inr ⟨hroom, .inr fun hclean => ?_⟩
    -- with every transmitted packet cleaned there would be room for the packet
    have hthreshold := h.room hroom hclean
    have hsize := hok.1.size_le C.frags_le
    unfold Config.txWakeThreshold Config.descNeeded at hthreshold
    omega
  | reprieve hx _ => exact fun _ => .inl rfl
  | start hx =>
    intro hstopped
    cases hstopped
  | @dropped c r acts hx hdrop =>
    intro hstopped
    have hbase := base_eq (s := s) (by simp [hx])
    rw [hx] at hok
    rcases xmitOffload_offloaded c.cowFails hok.1.segs (h.free hbase) with
      ⟨r', acts', heq, hsame, hnext⟩ | ⟨r', hdrLen, acts', heq, -⟩
    · rw [hdrop] at heq
      cases heq
      rcases hs hstopped with hlook | ⟨hroom, hwake⟩
      · simp [hx, XmitPc.looksAgain] at hlook
      · refine .inr ⟨hroom.congr hsame.count hnext hsame.tail, ?_⟩
        change s.clean.mayWake ∨ r.nextToClean ≠ r.tail
        rwa [hsame.nextToClean, hsame.tail]
    · rw [hdrop] at heq
      cases heq
  | @ready c r hdrLen acts hx hready =>
    intro hstopped
    have hbase := base_eq (s := s) (by simp [hx])
    rw [hx] at hok
    rcases xmitOffload_offloaded c.cowFails hok.1.segs (h.free hbase) with
      ⟨r', acts', heq, -, -⟩ | ⟨r', hdrLen', acts', heq, hoff⟩
    · rw [hready] at heq
      cases heq
    · have hfine := xmitOffload_ready hready
      rw [hready] at heq
      cases heq
      have hroom : RoomBehind C s 1 := by
        simp only [StopsSafely, hx] at hG
        exact hG hstopped hfine
      rcases hs hstopped with hlook | ⟨-, hwake⟩
      · simp [hx, XmitPc.looksAgain] at hlook
      · refine .inr ⟨?_, ?_⟩
        · obtain ⟨sent, queued, hflight⟩ := h.flight
          unfold RoomBehind at hroom ⊢
          change gap r.count r.tail r.nextToUse + 0 + _ < r.count
          rw [hoff.same.count, hoff.same.tail, hoff.nextToUse, ← ahead_one h.use_lt,
            gap_ahead_right hflight.tail_lt h.use_lt (by omega)]
          exact hroom
        · change s.clean.mayWake ∨ r.nextToClean ≠ r.tail
          rwa [hoff.same.nextToClean, hoff.same.tail]
  | @failed c first hdrLen r acts hx hfail =>
    intro hstopped
    rw [hx] at hok
    obtain ⟨-, hfit, huse, -, -⟩ := hok
    obtain ⟨hsame, hback, -⟩ := (map_inv h hx).1 r acts hfail
    rcases hs hstopped with hlook | ⟨hroom, hwake⟩
    · simp [hx, XmitPc.looksAgain] at hlook
    · refine .inr ⟨?_, ?_⟩
      · obtain ⟨sent, queued, hflight⟩ := h.flight
        have hbase : s.base = first := by simp [base, hx]
        have hlt := hflight.base_lt
        have hgap := hflight.gap_base
        have hgap' := hflight.gap_tail_base
        unfold Fits at hfit
        rw [List.sum_append] at hgap
        rw [hbase] at hlt hgap hgap' hfit
        have hsize : 3 ≤ c.skb.size := Nat.le_add_left 3 _
        unfold RoomBehind at hroom ⊢
        change gap r.count r.tail r.nextToUse + 0 + _ < r.count
        rw [huse, ← ahead_one hlt, gap_ahead_right hflight.tail_lt hlt (by omega)] at hroom
        rw [hsame.count, hsame.tail, hback]
        omega
      · change s.clean.mayWake ∨ r.nextToClean ≠ r.tail
        rwa [hsame.nextToClean, hsame.tail]
  | queued hx _ => exact fun _ => .inl rfl
  | after off hx => exact fun _ => .inl rfl
  | placed off hx => exact fun _ => .inl rfl
  | rung hx _ =>
    intro hstopped
    rw [hx] at hok
    have hcount : C.txWakeThreshold < s.ring.count := by
      simp only [StopsSafely, hx] at hG
      exact hG hstopped
    obtain ⟨sent, queued, hflight⟩ := h.flight
    rw [base_eq (by simp [hx])] at hflight
    refine .inr ⟨?_, .inr (hflight.clean_ne_base hok)⟩
    unfold RoomBehind
    change gap s.ring.count s.ring.nextToUse s.ring.nextToUse + 0 + _ < _
    rwa [gap_self, Nat.zero_add]
  | quiet hx _ hrunning =>
    intro hstopped
    refine absurd ?_ hrunning
    unfold xmitStopped
    rw [show s.drvXoff = true from hstopped]
    rfl

/-- A step of the cleaning that meets the condition. -/
theorem cleanMove_pending {C : Config} {s s' : TxQueue} {a : CleanAnswer} (h : Inv C s)
    (h' : Inv C s') (hs : WakePending C s) (hG : StopsSafely C s (.cleanStep a))
    (hmove : CleanMove C s a s') :
  WakePending C s'
  := by
  obtain ⟨hxmit, -, -, hcount, huse, htail⟩ := cleanMove_frame h hmove
  have hok := h.cleanOk
  have hok' := h'.cleanOk
  intro hstopped
  cases hlook : s.xmit.looksAgain with
  | true =>
    left
    rwa [hxmit]
  | false =>
    right
    -- what is left to prove where the step leaves the queue as it was
    have hkeep (hoff : s.drvXoff) (hwake : s.clean.mayWake → s'.clean.mayWake
          ∨ s'.ring.nextToClean ≠ s'.ring.tail)
        (hclean : s.clean.mayWake = false → s'.ring.nextToClean = s.ring.nextToClean) :
        RoomBehind C s' 0 ∧ (s'.clean.mayWake ∨ s'.ring.nextToClean ≠ s'.ring.tail) := by
      rcases hs hoff with hlooks | ⟨hroom, hpending⟩
      · rw [hlook] at hlooks
        cases hlooks
      · refine ⟨hroom.congr hcount huse htail, ?_⟩
        cases hmay : s.clean.mayWake with
        | true => exact hwake hmay
        | false =>
          right
          rw [hclean hmay, htail]
          rcases hpending with hpending | hpending
          · rw [hmay] at hpending
            cases hpending
          · exact hpending
    cases hmove with
    | stopped hx => exact hkeep hstopped (by simp [hx, CleanPc.mayWake]) fun _ => rfl
    | packet pc hx hwatch hdone heq hpc =>
      refine hkeep hstopped (by simp [hx, CleanPc.mayWake]) fun _ => ?_
      obtain ⟨n, sent, queued, hflight, rfl⟩ := h.head hx hwatch hdone
      obtain ⟨r', acts', heq', -, -, hclean, -⟩ := hflight.cleaned
      rw [heq] at heq'
      cases heq'
      exact hclean
    | @finish i budget packets hx =>
      rw [hx] at hok
      by_cases hpackets : packets = 0
      · exact hkeep hstopped (by simp [hx, CleanPc.mayWake]) fun _ => hok hpackets
      · rcases hs hstopped with hlooks | ⟨hroom, -⟩
        · rw [hlook] at hlooks
          cases hlooks
        · refine ⟨hroom.congr hcount huse htail, .inl ?_⟩
          simpa [CleanPc.mayWake] using hpackets
    | checked armed detect done hx =>
      refine hkeep hstopped (fun hmay => .inl ?_) fun _ => rfl
      rwa [hx] at hmay
    | hung armed detect done hx _ => exact hkeep hstopped (fun _ => .inr hok') fun _ => rfl
    | hangStop reset hx =>
      rw [hx] at hok
      have hroom : RoomBehind C s 0 := by
        simp only [StopsSafely, hx] at hG
        exact hG (by simp [hlook])
      exact ⟨hroom.congr hcount huse htail, .inr hok⟩
    | carrier off hx _ _ => exact hkeep hstopped (fun _ => .inl rfl) fun _ => rfl
    | @noCarrier budget packets off hx hno =>
      refine hkeep hstopped (fun hmay => .inr ?_) fun _ => rfl
      have hpackets : packets ≠ 0 := by simpa [hx, CleanPc.mayWake] using hmay
      simp only [StopsSafely, hx] at hG
      exact hG hpackets (hno hpackets) hstopped (by simp [hlook])
    | room hx _ => exact hkeep hstopped (fun _ => .inl rfl) fun _ => rfl
    | noRoom hx hfull =>
      rcases hs hstopped with hlooks | ⟨hroom, -⟩
      · rw [hlook] at hlooks
        cases hlooks
      · refine ⟨hroom.congr hcount huse htail, .inr fun hclean => ?_⟩
        have hthreshold := h.room hroom hclean
        omega
    | woken hx => cases hstopped
    | running hx hno => exact absurd ⟨hstopped, by simp [h.up]⟩ hno

/-- An event that meets the condition. -/
theorem step_pending {C : Config} {s s' : TxQueue} {e : Event} (h : Inv C s)
    (hs : WakePending C s) (hG : StopsSafely C s e) (hstep : (system C).step s e s') :
  WakePending C s'
  := by
  have h' := step_inv h hstep
  obtain ⟨hen, rfl⟩ := hstep
  cases e with
  | xmit c =>
    have hidle : s.xmit = .idle := XmitPc.eq_idle hen.1
    change WakePending C (s.xmitFrame c)
    rcases s.xmitFrame_cases c with ⟨-, heq⟩ | heq
    · rw [heq]
      exact hs.xmit_same rfl rfl id (by simp [hidle, XmitPc.looksAgain])
    · rw [heq]
      exact hs.xmit_same rfl rfl id (by simp [hidle, XmitPc.looksAgain])
  | xmitStep =>
    cases hidle : s.xmit.isIdle with
    | true =>
      have heq : s.xmitStep C = s := by rw [xmitStep, XmitPc.eq_idle hidle]
      change WakePending C (s.xmitStep C)
      rwa [heq]
    | false => exact xmitMove_pending h hs hG (xmitStep_move hidle)
  | clean =>
    have hidle : s.clean = .idle := hen
    change WakePending C s.cleanTxIrq
    rw [cleanTxIrq, if_neg (by simp [h.up])]
    intro hstopped
    rcases hs hstopped with hlooks | ⟨hroom, hpending⟩
    · exact .inl hlooks
    · refine .inr ⟨hroom, .inr ?_⟩
      simpa [hidle, CleanPc.mayWake] using hpending
  | cleanStep a =>
    by_cases hidle : s.clean = .idle
    · have heq : s.cleanStep C a = s := by rw [cleanStep, hidle]
      change WakePending C (s.cleanStep C a)
      rwa [heq]
    · exact cleanMove_pending h h' hs hG (cleanStep_move a hidle)
  | writeBack i d => exact hs
  | carrier on => exact hs
  | checkHang =>
    simp only [next]
    split <;> exact hs

/-- In every run whose events all meet the condition, a stopped queue with the carrier on and
no call in progress holds a transmitted packet whose cleaning wakes it. -/
theorem reachable_wakeable {C : Config} {s : TxQueue}
    (h : (system C).Reachable (StopsSafely C) s) :
  NoLostWake C s
  := by
  have hboth : Inv C s ∧ WakePending C s := by
    apply h.invariant
    · intro s hs
      refine ⟨init_inv hs, fun hstopped => ?_⟩
      rw [hs.drvXoff] at hstopped
      cases hstopped
    · intro s e s' hs hG hstep
      exact ⟨step_inv hs.1 hstep, step_pending hs.1 hs.2 hG hstep⟩
  intro hxmit hclean hstopped _
  rcases hboth.2 hstopped with hlooks | ⟨hroom, hpending⟩
  · rw [XmitPc.eq_idle hxmit] at hlooks
    cases hlooks
  · apply hboth.1.wakeable hxmit hclean hroom
    simpa [hclean, CleanPc.mayWake] using hpending

/-! ### Two runs -/

instance (C : Config) (s : TxQueue) (p : XmitPc) : Decidable (XmitStopsSafely C s p) := by
  cases p with
  | before p c =>
    cases p with
    | recheck =>
      unfold XmitStopsSafely
      infer_instance
    | _ => exact isTrue trivial
  | offload c =>
    unfold XmitStopsSafely
    infer_instance
  | doorbell c =>
    unfold XmitStopsSafely
    infer_instance
  | _ => exact isTrue trivial

instance (C : Config) (s : TxQueue) (p : CleanPc) : Decidable (CleanStopsSafely C s p) := by
  cases p with
  | hangStop =>
    unfold CleanStopsSafely
    infer_instance
  | complete budget packets =>
    unfold CleanStopsSafely
    infer_instance
  | _ => exact isTrue trivial

instance (C : Config) (s : TxQueue) : (e : Event) → Decidable (StopsSafely C s e)
  | .xmitStep => inferInstanceAs (Decidable (XmitStopsSafely C s s.xmit))
  | .cleanStep _ => inferInstanceAs (Decidable (CleanStopsSafely C s s.clean))
  | .xmit _ => isTrue trivial
  | .clean => isTrue trivial
  | .writeBack _ _ => isTrue trivial
  | .carrier _ => isTrue trivial
  | .checkHang => isTrue trivial

/-- A call with a packet of 17 fragments, which takes 19 slots. -/
def longCall (id : ℕ) : Call := plainCall (plainSkb id 60 (List.replicate 17 100) ethPIp) false

/-- Three packets fill the smallest ring so far that the driver stops the queue. -/
def threePackets : List Event :=
  sends (longCall 1) ++ sends (longCall 2) ++ sends (longCall 3) ++ [.xmitStep, .xmitStep]

/-- The queue after the three packets. -/
def stoppedQueue : TxQueue := threePackets.foldl (next smallRing) (fresh smallRing)

/-- The hardware writes the packets back, and they are cleaned while the carrier is off. -/
def cleanedInTheDark : List Event :=
  [.writeBack 18 ⟨0#64, 0#32, txdStatDd⟩, .writeBack 37 ⟨0#64, 0#32, txdStatDd⟩,
    .writeBack 56 ⟨0#64, 0#32, txdStatDd⟩, .carrier false, .clean]
  ++ List.replicate 7 (.cleanStep ⟨57, true⟩) ++ [.carrier true]

/-- The queue after the packets are cleaned. -/
def stuckQueue : TxQueue :=
  (threePackets ++ cleanedInTheDark).foldl (next smallRing) (fresh smallRing)

/-- The queue after the three packets is stopped, and one of them wakes it. -/
theorem stoppedQueue_wakeable :
  stoppedQueue.drvXoff ∧ Wakeable smallRing stoppedQueue
  := by
  have hreach : (system smallRing).Reachable (StopsSafely smallRing) stoppedQueue := by
    apply TransSystem.Reachable.foldl
      (P := fun s e => StopsSafely smallRing s e ∧ Enabled smallRing s e)
    · intro s e h
      exact ⟨h.1, h.2, rfl⟩
    · apply TransSystem.Reachable.init
      apply fresh_init
    · decide +kernel
  have hstopped : stoppedQueue.drvXoff := by decide +kernel
  exact ⟨hstopped, reachable_wakeable hreach (by decide +kernel) (by decide +kernel) hstopped
    (by decide +kernel)⟩

/-- A queue that is cleaned while the carrier is off stays stopped with an empty ring. -/
theorem stuckQueue_not_wakeable :
  ¬ ∀ C s, (system C).Reachable TransSystem.always s → NoLostWake C s
  := by
  intro h
  have hreach : (system smallRing).Reachable TransSystem.always stuckQueue := by
    apply TransSystem.Reachable.foldl (P := Enabled smallRing)
    · intro s e h
      exact ⟨trivial, h, rfl⟩
    · apply TransSystem.Reachable.init
      apply fresh_init
    · decide +kernel
  obtain ⟨i, eop, -, howned, -⟩ := h smallRing stuckQueue hreach (by decide +kernel)
    (by decide +kernel) (by decide +kernel) (by decide +kernel)
  have hempty : gap stuckQueue.ring.count stuckQueue.ring.nextToClean stuckQueue.ring.tail = 0 := by
    decide +kernel
  have hlt := howned.2
  rw [hempty] at hlt
  cases hlt

end Ixgbevf.Tx.TxQueue
