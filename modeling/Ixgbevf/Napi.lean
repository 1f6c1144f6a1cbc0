import Ixgbevf.Lib.Polling
import Ixgbevf.Lib.Run
import Ixgbevf.Rx.Turn

/-!
# Interrupts and polling

Each `q_vector` has an interrupt line and a NAPI instance, which polls the rings of the vector.  An
interrupt masks its line, and `ixgbevf_poll` opens the line again when it has seen all rings empty.
`ixgbevf_down` masks all lines and disables NAPI; `ixgbevf_up` enables NAPI, forgets the interrupts
that are pending, and opens the lines.

No completed descriptor is left lying while the interface is up, unless a poll gives up on a ring
or the descriptor was completed before `ixgbevf_up_complete` forgets the pending interrupts; and
`ixgbevf_check_hang_subtask` calls up every vector, also for these.
-/

namespace Ixgbevf.Napi

open Polling

/-- A ring of a vector.  The XDP rings are among those that transmit. -/
inductive Ring where
  | tx (i : ℕ)
  | rx (i : ℕ)
  deriving DecidableEq, Repr

/-- Where the interface stands. -/
inductive Stage where
  /-- `ixgbevf_up_complete` has opened the lines. -/
  | running
  /-- `ixgbevf_down` has set `__IXGBEVF_DOWN`. -/
  | stopping
  /-- `ixgbevf_irq_disable` has closed the lines. -/
  | masked
  /-- `ixgbevf_napi_disable_all` is through with the first `n` vectors. -/
  | disabling (n : ℕ)
  /-- The device is reset, and the rings are clean. -/
  | quiet
  /-- `ixgbevf_configure` has started the rings. -/
  | configured
  /-- `__IXGBEVF_DOWN` is cleared, and `ixgbevf_napi_enable_all` is through with the first `n`
  vectors. -/
  | enabling (n : ℕ)
  /-- `VTEICR` has been read. -/
  | cleared
  deriving DecidableEq, Repr

/-- `__IXGBEVF_DOWN`. -/
def Stage.down : Stage → Bool
  | stopping | masked | disabling _ | quiet | configured => true
  | running | enabling _ | cleared => false

/-- NAPI of the vector `i` is disabled. -/
def Stage.off (i : ℕ) : Stage → Bool
  | running | stopping | masked | cleared => false
  | disabling n => decide (i < n)
  | quiet | configured => true
  | enabling n => decide (n ≤ i)

/-- An adapter with its vectors. -/
structure Adapter where
  /-- `num_q_vectors`. -/
  numQVectors : ℕ
  /-- `q_vector`, with the bits of the vector in `VTEICR` and `VTEIMS` and the state of its NAPI
  instance.  Its rings that transmit come first. -/
  qVector : ℕ → Server Ring
  /-- Where the interface stands. -/
  stage : Stage
  /-- `__IXGBEVF_REMOVING`. -/
  removing : Bool

/-- How a call of `ixgbevf_clean_rx_irq` ends with the turn `t`: it has used up its budget, or comes
to a descriptor that is not completed, or finds no memory for an skb. -/
inductive RxEnds (p : Rx.Poll) (s' : Rx.RxQueue) : Outcome → Prop where
  | more : p.budget ≤ p.totalRxPackets → RxEnds p s' .more
  | empty : (s'.ring.desc s'.ring.nextToClean).length = 0 → RxEnds p s' .empty
  | abandoned : p.skb = .null → s'.ring.skb = .null → RxEnds p s' .abandoned

/-- A turn that ends the call has one of these outcomes. -/
theorem cleanRxTurn_ends {K : KernelConfig} {t : Rx.Turn} {p : Rx.Poll} {s s' : Rx.RxQueue}
    (h : Rx.RxQueue.cleanRxTurn K t p s = some s') (hend : s'.poll = none) :
  ∃ outcome, RxEnds p s' outcome
  := by
  by_cases hbudget : p.totalRxPackets < p.budget
  · unfold Rx.RxQueue.cleanRxTurn at h
    rw [if_pos hbudget] at h
    generalize hp : (if Rx.rxBufferWrite ≤ p.cleanedCount then
      (Rx.RxQueue.allocRxBuffers K t.alloc p.cleanedCount s, { p with cleanedCount := 0 })
        else (s, p)) = x at h
    have hskb : x.2.skb = p.skb := by
      rw [← hp]
      split <;> rfl
    obtain ⟨s₁, p₁⟩ := x
    simp only at h hskb
    by_cases hlen : (s₁.ring.desc s₁.ring.nextToClean).length = 0
    · rw [if_pos hlen, Option.some.injEq] at h
      subst h
      exact ⟨.empty, .empty hlen⟩
    · rw [if_neg hlen] at h
      obtain ⟨page, -, rfl⟩ := Option.map_eq_some_iff.mp h
      have hreceived := Rx.RxQueue.receive_received t page p₁ s₁
      generalize Rx.RxQueue.receive t page p₁ s₁ = s₂ at hreceived hend ⊢
      cases hreceived with
      | failed hnull => exact ⟨.abandoned, .abandoned (hskb.symm.trans hnull) rfl⟩
      | retired u skb n total =>
        obtain ⟨p', f, heq, -⟩ := Rx.RxQueue.retireBuffer_eq t page
          { p₁ with skb := skb, totalRxPackets := total }
          { Rx.RxQueue.useBuffer u s₁.ring.nextToClean page s₁ with nextSkb := n }
        rw [heq] at hend
        cases hend
  · exact ⟨.more, .more (Nat.le_of_not_lt hbudget)⟩

/-- What happens to an adapter. -/
inductive Event where
  /-- Something happens to a vector: a descriptor is completed, the interrupt is sent or handled by
  `ixgbevf_msix_clean_rings`, `ixgbevf_netpoll` calls that, or `ixgbevf_poll` makes a step. -/
  | vector (i : ℕ) (m : Move Ring)
  /-- `ixgbevf_check_hang_subtask`. -/
  | checkHangSubtask
  /-- `ixgbevf_remove` sets `__IXGBEVF_REMOVING`. -/
  | remove
  /-- `ixgbevf_down` sets `__IXGBEVF_DOWN`. -/
  | down
  /-- `ixgbevf_irq_disable` closes the lines. -/
  | irqDisable
  /-- It waits for the handlers. -/
  | synchronizeIrq
  /-- `napi_disable` of the next vector, which waits until the vector is not scheduled. -/
  | napiDisable
  /-- The core drops a vector of which `ixgbevf_poll` wants to go on and that is being disabled. -/
  | drop (i : ℕ)
  /-- The device is reset, and the rings are cleaned. -/
  | clean
  /-- `ixgbevf_configure`. -/
  | configure
  /-- `ixgbevf_up_complete` clears `__IXGBEVF_DOWN`. -/
  | up
  /-- `napi_enable` of the next vector. -/
  | napiEnable
  /-- `VTEICR` is read. -/
  | readEicr
  /-- `ixgbevf_irq_enable`. -/
  | irqEnable

/-- The ring is one that receives. -/
def Ring.isRx : Ring → Bool
  | tx _ => false
  | rx _ => true

/-- How a call for a ring may end.  `ixgbevf_clean_tx_irq` goes through the descriptors or its
budget or reports a hang, but does not look at the ring at all when the interface is down;
`ixgbevf_clean_rx_irq` goes through the descriptors or its budget or finds no memory for an skb. -/
def Answers (A : Adapter) : Ring → Outcome → Prop
  | .tx _, outcome => A.stage.down = true → outcome = .abandoned
  | .rx _, _ => True

/-- When something can happen to a vector of the adapter. -/
def Happens (A : Adapter) (s : Server Ring) : Move Ring → Prop
  | .arrive _ => A.stage ≠ .quiet
  -- only `ixgbevf_check_hang_subtask` writes `VTEICS`
  | .raise => False
  | .schedule => A.stage.down = false
  | .look outcome => ∀ r ∈ s.round, ∀ x ∈ r.left.head?, Answers A x outcome
  -- busy polling has the vector, which `ixgbevf_poll` sees once the rings that transmit are done
  | .breakOff => ∀ r ∈ s.round, ∀ x ∈ r.left, x.isRx = true
  | .decide opens => opens = (!A.stage.down && !A.removing)
  | _ => True

/-- When an event can happen. -/
def Enabled (A : Adapter) : Event → Prop
  | .vector i m => i < A.numQVectors ∧ (A.qVector i).Enabled m ∧ Happens A (A.qVector i) m
  | .checkHangSubtask => A.stage.down = false
  | .remove => True
  | .down => A.stage = .running
  | .irqDisable => A.stage = .stopping
  | .synchronizeIrq => A.stage = .masked ∧ ∀ i < A.numQVectors, (A.qVector i).sent = false
  | .napiDisable =>
    ∃ n < A.numQVectors, A.stage = .disabling n ∧ (A.qVector n).scheduled = false
  | .drop i =>
    i < A.numQVectors ∧ A.stage = .disabling i ∧ (A.qVector i).round = none
  | .clean => A.stage = .disabling A.numQVectors
  | .configure => A.stage = .quiet
  | .up => A.stage = .configured
  | .napiEnable => ∃ n < A.numQVectors, A.stage = .enabling n
  | .readEicr => A.stage = .enabling A.numQVectors
  | .irqEnable => A.stage = .cleared

namespace Adapter

/-- A vector is changed. -/
def setVector (A : Adapter) (i : ℕ) (s : Server Ring) : Adapter :=
  { A with qVector := Function.update A.qVector i s }

/-- All vectors are changed. -/
def mapVectors (A : Adapter) (f : Server Ring → Server Ring) : Adapter :=
  { A with qVector := fun i => f (A.qVector i) }

/-- What an event does. -/
def apply (A : Adapter) : Event → Adapter
  | .vector i m => A.setVector i ((A.qVector i).apply m)
  | .checkHangSubtask =>
    A.mapVectors fun s => if s.sources.isEmpty then s else { s with latched := true }
  | .remove => { A with removing := true }
  | .down => { A with stage := .stopping }
  | .irqDisable => { A.mapVectors fun s => { s with isOpen := false } with stage := .masked }
  | .synchronizeIrq => { A with stage := .disabling 0 }
  | .napiDisable =>
    match A.stage with
    | .disabling n =>
      { A.setVector n { A.qVector n with scheduled := true, off := true } with
        stage := .disabling (n + 1) }
    | _ => A
  | .drop i => A.setVector i { A.qVector i with scheduled := false }
  | .clean =>
    { A.mapVectors fun s => { s with waiting := fun _ => false, latched := false, isOpen := false }
      with stage := .quiet }
  | .configure => { A with stage := .configured }
  | .up => { A with stage := .enabling 0 }
  | .napiEnable =>
    match A.stage with
    | .enabling n =>
      { A.setVector n { A.qVector n with scheduled := false, off := false } with
        stage := .enabling (n + 1) }
    | _ => A
  | .readEicr => { A.mapVectors fun s => { s with latched := false } with stage := .cleared }
  | .irqEnable => { A.mapVectors fun s => { s with isOpen := true } with stage := .running }

end Adapter

/-- A vector as `ixgbevf_alloc_q_vector` leaves it: `netif_napi_add` disables NAPI. -/
structure InitVector (s : Server Ring) : Prop where
  waiting : ∀ x, s.waiting x = false
  sent : s.sent = false
  scheduled : s.scheduled = true
  off : s.off = true
  round : s.round = none

/-- An adapter before it is opened. -/
structure Init (A : Adapter) : Prop where
  vectors : ∀ i < A.numQVectors, InitVector (A.qVector i)
  stage : A.stage = .quiet

/-- The runs of an adapter. -/
def system : TransSystem Adapter Event where
  init := Init
  step A e A' := Enabled A e ∧ A' = A.apply e

/-- No poll gives up on a ring, and no descriptor is completed before `VTEICR` is read. -/
def Careful (A : Adapter) : Event → Prop
  | .vector _ (.look outcome) => outcome ≠ .abandoned
  | .vector _ (.arrive _) => A.stage ≠ .configured ∧ ∀ n, A.stage ≠ .enabling n
  | _ => True

/-! ### The state of the vectors -/

variable {A A' A'' : Adapter}

/-- What holds of an adapter in every state. -/
structure Inv (A : Adapter) : Prop where
  /-- The vectors. -/
  sane : ∀ i < A.numQVectors, (A.qVector i).Sane
  /-- Which vectors are disabled. -/
  off : ∀ i < A.numQVectors, (A.qVector i).off = A.stage.off i
  /-- While the interface is up, the line of an idle vector is open. -/
  live : A.stage = .running → A.removing = false → ∀ i < A.numQVectors, (A.qVector i).Live

/-- A property of the vectors after one of them has changed. -/
theorem forall_setVector {P : ℕ → Server Ring → Prop} {n : ℕ} {s : Server Ring}
    (h : ∀ i < n, P i (A.qVector i)) {j : ℕ} (hs : j < n → P j s) :
  ∀ i < n, P i ((A.setVector j s).qVector i)
  := by
  intro i hi
  by_cases hij : i = j
  · subst hij
    simpa [Adapter.setVector] using hs hi
  · simpa [Adapter.setVector, hij] using h i hi

/-- A vector that is not scheduled is in no round. -/
theorem round_none {s : Server Ring} (h : s.Sane) (hno : s.scheduled = false ∨ s.off = true) :
  s.round = none
  := by
  cases hr : s.round with
  | none => rfl
  | some r =>
    obtain ⟨hsched, hoff⟩ := h.round (by rw [hr]; rfl)
    rcases hno with hno | hno
    · rw [hsched] at hno
      cases hno
    · rw [hoff] at hno
      cases hno

/-- A move leaves NAPI of a vector enabled or disabled. -/
theorem apply_off (s : Server Ring) (m : Move Ring) :
  (s.apply m).off = s.off
  := by
  cases m with
  | answer | schedule =>
    simp only [Server.apply]
    split
    · rfl
    · exact (Server.schedule_same _).2.2.1
  | look outcome =>
    simp only [Server.apply]
    split
    · cases outcome <;> rfl
    · rfl
  | finish =>
    simp only [Server.apply]
    split <;> rfl
  | _ => rfl

/-- All vectors are changed where the interface is not up. -/
theorem Inv.mapVectors {f : Server Ring → Server Ring} (h : Inv A) (stage : Stage)
    (hsane : ∀ s, Server.Sane s → (f s).Sane) (hoff : ∀ s, (f s).off = s.off)
    (hdown : stage ≠ .running) (hstage : ∀ i < A.numQVectors, A.stage.off i = stage.off i) :
  Inv { A.mapVectors f with stage := stage }
  := by
  refine ⟨fun i hi => hsane _ (h.sane i hi), fun i hi => ?_, fun hup => absurd hup hdown⟩
  exact (hoff _).trans ((h.off i hi).trans (hstage i hi))

/-- NAPI of the next vector is enabled or disabled. -/
theorem Inv.setVector {n : ℕ} {s : Server Ring} {stage : Stage} (h : Inv A) (hsane : s.Sane)
    (hdown : stage ≠ .running) (hoff : s.off = stage.off n)
    (hstage : ∀ i < A.numQVectors, i ≠ n → A.stage.off i = stage.off i) :
  Inv { A.setVector n s with stage := stage }
  := by
  refine ⟨forall_setVector h.sane fun _ => hsane, fun i hi => ?_, fun hup => absurd hup hdown⟩
  by_cases hin : i = n
  · subst hin
    simpa [Adapter.setVector] using hoff
  · simpa [Adapter.setVector, hin] using (h.off i hi).trans (hstage i hi hin)

/-- Every event keeps the invariant. -/
theorem step_inv {e : Event} (h : Inv A) (hstep : system.step A e A') :
  Inv A'
  := by
  obtain ⟨hen, rfl⟩ := hstep
  cases e with
  | vector j m =>
    obtain ⟨hj, hm, hhappens⟩ := hen
    refine ⟨forall_setVector h.sane fun _ => Server.apply_sane (h.sane j hj) hm,
      forall_setVector (P := fun i s => s.off = A.stage.off i) h.off fun _ => ?_,
      fun hup hremoving => forall_setVector (P := fun _ s => s.Live) (h.live hup hremoving)
        fun _ => Server.apply_live (h.live hup hremoving j hj) ?_⟩
    · rw [apply_off]
      exact h.off j hj
    · rintro rfl
      have hup : A.stage = .running := hup
      have hremoving : A.removing = false := hremoving
      simp [Happens, hup, hremoving, Stage.down] at hhappens
  | checkHangSubtask =>
    have hsame (s : Server Ring) : ∃ l, (if s.sources.isEmpty then s else { s with latched := true })
        = { s with latched := l } := by
      split
      · exact ⟨s.latched, rfl⟩
      · exact ⟨true, rfl⟩
    refine ⟨fun i hi => ?_, fun i hi => ?_, fun hup hremoving i hi => ?_⟩
    all_goals
      obtain ⟨l, hl⟩ := hsame (A.qVector i)
      simp only [Adapter.apply, Adapter.mapVectors, hl]
    · exact ⟨(h.sane i hi).round, (h.sane i hi).off⟩
    · exact h.off i hi
    · exact h.live hup hremoving i hi
  | remove => exact ⟨h.sane, h.off, fun _ hno => by cases hno⟩
  | down =>
    have hup : A.stage = .running := hen
    exact h.mapVectors (f := id) .stopping (fun _ hs => hs) (fun _ => rfl)
      Stage.noConfusion fun i _ => by rw [hup]; rfl
  | irqDisable =>
    have hstage : A.stage = .stopping := hen
    exact h.mapVectors .masked (fun _ hs => ⟨hs.round, hs.off⟩) (fun _ => rfl)
      Stage.noConfusion fun i _ => by rw [hstage]; rfl
  | synchronizeIrq =>
    obtain ⟨hstage, -⟩ := hen
    exact h.mapVectors (f := id) (.disabling 0) (fun _ hs => hs) (fun _ => rfl)
      Stage.noConfusion fun i _ => by rw [hstage]; simp [Stage.off]
  | napiDisable =>
    obtain ⟨n, hn, hstage, hsched⟩ := hen
    have hround := round_none (h.sane n hn) (.inl hsched)
    simp only [Adapter.apply, hstage]
    refine h.setVector ⟨fun hsome => ?_, fun _ => rfl⟩ Stage.noConfusion ?_ fun i _ hin => ?_
    · rw [hround] at hsome
      cases hsome
    · simp [Stage.off]
    · rw [hstage]
      simp only [Stage.off]
      congr 1
      apply propext
      omega
  | drop j =>
    obtain ⟨hj, hstage, hround⟩ := hen
    have hoff : (A.qVector j).off = false := by
      rw [h.off j hj, hstage]
      simp [Stage.off]
    have hinv : A.stage ≠ .running →
        Inv { A.setVector j { A.qVector j with scheduled := false } with stage := A.stage } :=
      fun hdown => h.setVector ⟨fun hsome => ?_, fun hno => ?_⟩ hdown (h.off j hj) fun _ _ _ => rfl
    · apply hinv
      rw [hstage]
      exact Stage.noConfusion
    · rw [hround] at hsome
      cases hsome
    · rw [hoff] at hno
      cases hno
  | clean =>
    have hstage : A.stage = .disabling A.numQVectors := hen
    exact h.mapVectors .quiet (fun _ hs => ⟨hs.round, hs.off⟩) (fun _ => rfl)
      Stage.noConfusion fun i hi => by rw [hstage]; simp [Stage.off, hi]
  | configure =>
    have hstage : A.stage = .quiet := hen
    exact h.mapVectors (f := id) .configured (fun _ hs => hs) (fun _ => rfl)
      Stage.noConfusion fun i _ => by rw [hstage]; rfl
  | up =>
    have hstage : A.stage = .configured := hen
    exact h.mapVectors (f := id) (.enabling 0) (fun _ hs => hs) (fun _ => rfl)
      Stage.noConfusion fun i _ => by rw [hstage]; simp [Stage.off]
  | napiEnable =>
    obtain ⟨n, hn, hstage⟩ := hen
    have hoff : (A.qVector n).off = true := by
      rw [h.off n hn, hstage]
      simp [Stage.off]
    have hround := round_none (h.sane n hn) (.inr hoff)
    simp only [Adapter.apply, hstage]
    refine h.setVector ⟨fun hsome => ?_, fun hno => ?_⟩ Stage.noConfusion ?_ fun i _ hin => ?_
    · rw [hround] at hsome
      cases hsome
    · cases hno
    · simp [Stage.off]
    · rw [hstage]
      simp only [Stage.off]
      congr 1
      apply propext
      omega
  | readEicr =>
    have hstage : A.stage = .enabling A.numQVectors := hen
    exact h.mapVectors .cleared (fun _ hs => ⟨hs.round, hs.off⟩) (fun _ => rfl)
      Stage.noConfusion fun i hi => by rw [hstage]; simp [Stage.off, Nat.not_le.mpr hi]
  | irqEnable =>
    have hstage : A.stage = .cleared := hen
    refine ⟨fun i hi => ⟨(h.sane i hi).round, (h.sane i hi).off⟩, fun i hi => ?_,
      fun _ _ _ _ _ _ _ _ _ => rfl⟩
    exact (h.off i hi).trans (by rw [hstage]; rfl)

/-! ### Completed descriptors -/

/-- The interface is being opened. -/
def Stage.opens : Stage → Bool
  | quiet | configured | enabling _ => true
  | _ => false

/-- Interrupts are not forgotten any more. -/
def Stage.listens : Stage → Bool
  | running | cleared => true
  | _ => false

/-- The completed descriptors are heard of. -/
structure Heard (A : Adapter) : Prop where
  /-- There are none while the interface is being opened. -/
  none : A.stage.opens = true → ∀ i < A.numQVectors, ∀ x, (A.qVector i).waiting x = false
  /-- The vectors hear of them from then on. -/
  covered : A.stage.listens = true → ∀ i < A.numQVectors, (A.qVector i).Covered

/-- Descriptors are completed when they are completed. -/
theorem apply_waiting {s : Server Ring} {m : Move Ring} (hm : ∀ x, m ≠ .arrive x) {x : Ring}
    (h : s.waiting x = false) :
  (s.apply m).waiting x = false
  := by
  cases m with
  | arrive y => exact absurd rfl (hm y)
  | answer | schedule =>
    simp only [Server.apply]
    split
    · exact h
    · rw [(Server.schedule_same _).2.2.2.2]
      exact h
  | look outcome =>
    simp only [Server.apply]
    split
    · cases outcome with
      | empty =>
        refine Bool.eq_false_iff.mpr fun hyes => ?_
        rw [(Server.update_false hyes).2] at h
        cases h
      | more => exact h
      | abandoned => exact h
    · exact h
  | finish =>
    simp only [Server.apply]
    split <;> exact h
  | aside y =>
    refine Bool.eq_false_iff.mpr fun hyes => ?_
    rw [(Server.update_false hyes).2] at h
    cases h
  | _ => exact h

/-- Nothing is to be heard of while the interface is down. -/
theorem heard_deaf (hopens : A.stage.opens = false) (hlistens : A.stage.listens = false) :
  Heard A
  := by
  refine ⟨fun hno => ?_, fun hno => ?_⟩
  · rw [hopens] at hno
    cases hno
  · rw [hlistens] at hno
    cases hno

/-- Every event of a careful run keeps the completed descriptors heard of. -/
theorem step_heard {e : Event} (h : Heard A) (hinv : Inv A) (he : Careful A e)
    (hstep : system.step A e A') :
  Heard A'
  := by
  obtain ⟨hen, rfl⟩ := hstep
  cases e with
  | vector j m =>
    obtain ⟨hj, hm, hhappens⟩ := hen
    refine ⟨fun hopens => ?_, fun hlistens => ?_⟩
    · change A.stage.opens = true at hopens
      refine forall_setVector (P := fun _ s => ∀ x, s.waiting x = false) (h.none hopens) fun _ x => ?_
      refine apply_waiting (fun y => ?_) (h.none hopens j hj x)
      intro harrive
      subst harrive
      obtain ⟨hconfigured, henabling⟩ := he
      cases hstage : A.stage with
      | quiet => exact hhappens hstage
      | configured => exact hconfigured hstage
      | enabling n => exact henabling n hstage
      | _ =>
        rw [hstage] at hopens
        cases hopens
    · refine forall_setVector (P := fun _ s => s.Covered) (h.covered hlistens) fun _ => ?_
      refine Server.apply_covered (h.covered hlistens j hj) (hinv.sane j hj) hm ?_
      rintro rfl
      exact he rfl
  | checkHangSubtask =>
    refine ⟨fun hopens i hi x => ?_, fun hlistens i hi => ?_⟩
    · simp only [Adapter.apply, Adapter.mapVectors]
      split <;> exact h.none hopens i hi x
    · simp only [Adapter.apply, Adapter.mapVectors]
      split
      · exact h.covered hlistens i hi
      · exact fun _ _ _ => .inl rfl
  | remove => exact ⟨h.none, h.covered⟩
  | down => exact heard_deaf rfl rfl
  | irqDisable => exact heard_deaf rfl rfl
  | synchronizeIrq => exact heard_deaf rfl rfl
  | napiDisable =>
    obtain ⟨n, hn, hstage, -⟩ := hen
    simp only [Adapter.apply, hstage]
    exact heard_deaf rfl rfl
  | drop j =>
    obtain ⟨-, hstage, -⟩ := hen
    have hsame : (A.apply (.drop j)).stage = .disabling j := hstage
    exact heard_deaf (by rw [hsame]; rfl) (by rw [hsame]; rfl)
  | clean => exact ⟨fun _ _ _ _ => rfl, fun hno => (by cases hno)⟩
  | configure =>
    have hstage : A.stage = .quiet := hen
    exact ⟨fun _ => h.none (by rw [hstage]; rfl), fun hno => (by cases hno)⟩
  | up =>
    have hstage : A.stage = .configured := hen
    exact ⟨fun _ => h.none (by rw [hstage]; rfl), fun hno => (by cases hno)⟩
  | napiEnable =>
    obtain ⟨n, hn, hstage⟩ := hen
    have hnone := h.none (by rw [hstage]; rfl)
    simp only [Adapter.apply, hstage]
    exact ⟨fun _ => forall_setVector (P := fun _ s => ∀ x, s.waiting x = false) hnone
      fun _ => hnone n hn, fun hno => (by cases hno)⟩
  | readEicr =>
    have hstage : A.stage = .enabling A.numQVectors := hen
    have hnone := h.none (by rw [hstage]; rfl)
    refine ⟨fun hno => (by cases hno), fun _ i hi x _ hwaiting => ?_⟩
    have hwaiting : (A.qVector i).waiting x = true := hwaiting
    rw [hnone i hi x] at hwaiting
    cases hwaiting
  | irqEnable =>
    have hstage : A.stage = .cleared := hen
    have hcovered := h.covered (by rw [hstage]; rfl)
    exact ⟨fun hno => (by cases hno), fun _ i hi => hcovered i hi⟩

/-- The invariant holds at the start. -/
theorem init_inv (h : Init A) :
  Inv A
  := by
  refine ⟨fun i hi => ?_, fun i hi => ?_, fun hup => ?_⟩
  · obtain ⟨-, -, hsched, -, hround⟩ := h.vectors i hi
    refine ⟨fun hsome => ?_, fun _ => hsched⟩
    rw [hround] at hsome
    cases hsome
  · rw [(h.vectors i hi).off, h.stage]
    rfl
  · rw [h.stage] at hup
    cases hup

/-- The invariant holds in every reachable state. -/
theorem reachable_inv {G : Adapter → Event → Prop} (h : system.Reachable G A) :
  Inv A
  := h.invariant (fun _ => init_inv) fun _ _ _ hinv _ hstep => step_inv hinv hstep

/-- The vectors have completed descriptors of which they hear. -/
theorem Heard.attended (h : Heard A) (hinv : Inv A) (hup : A.stage = .running)
    (hremoving : A.removing = false) :
  ∀ i < A.numQVectors, ∀ x ∈ (A.qVector i).sources, (A.qVector i).waiting x = true →
    (A.qVector i).Attended
  := fun i hi _ hx hwaiting =>
    (h.covered (by rw [hup]; rfl) i hi).attended (hinv.live hup hremoving i hi) hx hwaiting

/-! ### Runs -/

/-- An event of a run leads to a reachable state. -/
theorem reachable_after {G : Adapter → Event → Prop} (e : Event) (h : system.Reachable G A)
    (he : G A e) (hen : Enabled A e) :
  system.Reachable G (A.apply e)
  := h.step he ⟨hen, rfl⟩

/-- An adapter with one vector, before it is opened. -/
def quietAdapter : Adapter where
  numQVectors := 1
  qVector _ := {
    sources := [.tx 0, .rx 0]
    waiting := fun _ => false
    latched := false
    isOpen := false
    sent := false
    scheduled := true
    missed := false
    off := true
    round := none
    deciding := 0
    opening := 0 }
  stage := .quiet
  removing := false

/-- The adapter after events. -/
def Adapter.after (A : Adapter) (es : List Event) : Adapter := es.foldl Adapter.apply A

/-- The adapter is opened. -/
def openedAdapter : Adapter :=
  quietAdapter.after [.configure, .up, .napiEnable, .readEicr, .irqEnable]

/-- It is reachable. -/
theorem openedAdapter_reachable :
  system.Reachable Careful openedAdapter
  := by
  have hquiet : Init quietAdapter := ⟨fun _ _ => ⟨fun _ => rfl, rfl, rfl, rfl, rfl⟩, rfl⟩
  have h₁ := reachable_after (G := Careful) .configure (.init hquiet) trivial rfl
  have h₂ := reachable_after .up h₁ trivial rfl
  have h₃ := reachable_after .napiEnable h₂ trivial ⟨0, Nat.one_pos, rfl⟩
  have h₄ := reachable_after .readEicr h₃ trivial rfl
  exact reachable_after .irqEnable h₄ trivial rfl

/-- A frame arrives, and the interrupt calls `ixgbevf_poll`, which is through with the ring that
transmits. -/
def firstFrame : List Event :=
  [.vector 0 (.arrive (.rx 0)), .vector 0 .send, .vector 0 .answer, .vector 0 .start,
    .vector 0 (.look .empty)]

/-- It is reached in a careful run. -/
theorem firstFrame_reachable :
  system.Reachable Careful (openedAdapter.after firstFrame)
  := by
  have h₁ := reachable_after (.vector 0 (.arrive (.rx 0))) openedAdapter_reachable
    ⟨Stage.noConfusion, fun _ => Stage.noConfusion⟩
    ⟨Nat.one_pos, .tail _ (.head _), Stage.noConfusion⟩
  have h₂ := reachable_after (.vector 0 .send) h₁ trivial ⟨Nat.one_pos, ⟨rfl, rfl⟩, trivial⟩
  have h₃ := reachable_after (.vector 0 .answer) h₂ trivial ⟨Nat.one_pos, rfl, trivial⟩
  have h₄ := reachable_after (.vector 0 .start) h₃ trivial ⟨Nat.one_pos, ⟨rfl, rfl, rfl⟩, trivial⟩
  refine reachable_after (.vector 0 (.look .empty)) h₄ Outcome.noConfusion
    ⟨Nat.one_pos, ⟨_, rfl, List.cons_ne_nil _ _⟩, fun r hr x hx => ?_⟩
  cases hr
  cases hx
  intro hno
  cases hno

/-- A look at the ring that receives, as a run goes on. -/
theorem firstFrame_look {G : Adapter → Event → Prop} (outcome : Outcome)
    (h : system.Reachable G (openedAdapter.after firstFrame))
    (he : G (openedAdapter.after firstFrame) (.vector 0 (.look outcome))) :
  system.Reachable G ((openedAdapter.after firstFrame).apply (.vector 0 (.look outcome)))
  := by
  refine reachable_after (.vector 0 (.look outcome)) h he
    ⟨Nat.one_pos, ⟨_, rfl, List.cons_ne_nil _ _⟩, fun r hr x hx => ?_⟩
  cases hr
  cases hx
  trivial

/-- The poll finds no memory for an skb, and ends as if the ring were empty. -/
def strandedFrame : Adapter :=
  (openedAdapter.after firstFrame).after
    [.vector 0 (.look .abandoned), .vector 0 .finish, .vector 0 (.decide true), .vector 0 .reopen]

/-- It is reached in a run. -/
theorem strandedFrame_reachable :
  system.Reachable TransSystem.always strandedFrame
  := by
  have h₀ : system.Reachable TransSystem.always (openedAdapter.after firstFrame) :=
    firstFrame_reachable.mono fun _ _ _ => trivial
  have h₁ := firstFrame_look .abandoned h₀ trivial
  have h₂ := reachable_after (.vector 0 .finish) h₁ trivial ⟨Nat.one_pos, ⟨_, rfl, rfl⟩, trivial⟩
  have h₃ := reachable_after (.vector 0 (.decide true)) h₂ trivial ⟨Nat.one_pos, Nat.one_pos, rfl⟩
  exact reachable_after (.vector 0 .reopen) h₃ trivial ⟨Nat.one_pos, Nat.one_pos, trivial⟩

/-- `ixgbevf_check_hang_subtask` makes all vectors hear of all completed descriptors. -/
theorem checkHangSubtask_heard (hup : A.stage = .running) :
  Heard (A.apply .checkHangSubtask)
  := by
  have hstage : (A.apply .checkHangSubtask).stage = .running := hup
  refine ⟨fun hno => ?_, fun _ i hi => ?_⟩
  · rw [hstage] at hno
    cases hno
  · simp only [Adapter.apply, Adapter.mapVectors]
    split
    · rename_i hempty
      intro x hx
      rw [List.isEmpty_iff.mp hempty] at hx
      cases hx
    · exact fun _ _ _ => .inl rfl

/-- Whatever happened before, once `ixgbevf_check_hang_subtask` has run on an interface that is up,
all completed descriptors are attended to, and stay so until a poll gives up on a ring again or a
descriptor is completed before `VTEICR` is read. -/
theorem checkHangSubtask_attended {es : List Event} (h : system.Reachable TransSystem.always A)
    (hup : A.stage = .running) (hstep : system.step A .checkHangSubtask A')
    (hpath : system.Path Careful A' es A'') (hup'' : A''.stage = .running)
    (hremoving : A''.removing = false) :
  ∀ i < A''.numQVectors, ∀ x ∈ (A''.qVector i).sources, (A''.qVector i).waiting x = true →
    (A''.qVector i).Attended
  := by
  have hinv := step_inv (reachable_inv h) hstep
  obtain ⟨-, rfl⟩ := hstep
  have hboth := hpath.invariant (I := fun A => Inv A ∧ Heard A)
    (fun A e A' hA he hstep => ⟨step_inv hA.1 hstep, step_heard hA.2 hA.1 he hstep⟩)
    ⟨hinv, checkHangSubtask_heard hup⟩
  exact hboth.2.attended hboth.1 hup'' hremoving

/-- A frame for which there was no memory waits for `ixgbevf_check_hang_subtask`. -/
theorem strandedFrame_attended :
  ¬ (strandedFrame.qVector 0).Attended
    ∧ ((strandedFrame.apply .checkHangSubtask).qVector 0).Attended
  := by
  constructor
  · rintro (hno | hno | ⟨hno, -⟩) <;> cases hno
  · exact checkHangSubtask_attended strandedFrame_reachable rfl ⟨rfl, rfl⟩ (.nil _) rfl rfl 0
      Nat.one_pos (.rx 0) (.tail _ (.head _)) rfl

end Ixgbevf.Napi
