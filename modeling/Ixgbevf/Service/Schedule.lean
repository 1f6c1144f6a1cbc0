import Ixgbevf.Lib.Run
import Ixgbevf.Lib.SingleFlight

/-!
# Scheduling the service task

`ixgbevf_service_event_schedule` queues the service task, unless the interface is down, the adapter
is being removed, or `__IXGBEVF_SERVICE_SCHED` is set; the task clears that bit when it is done.  The
calls come from the timer, from interrupts and polls, from the task itself and from callbacks of the
stack, while the interface goes up and down and the adapter is removed.
-/

namespace Ixgbevf.Schedule

open SingleFlight

/-! ### The adapter -/

/-- Who calls `ixgbevf_service_event_schedule`. -/
inductive Caller where
  /-- `ixgbevf_service_timer`. -/
  | timer
  /-- An interrupt handler or a poll. -/
  | irq (k : ℕ)
  /-- The service task, where it reads a register and finds the device gone. -/
  | task
  /-- A callback of the stack. -/
  | user (k : ℕ)
  deriving DecidableEq, Repr

/-- How far the interface is up or down. -/
inductive Stage where
  /-- It carries traffic. -/
  | up
  /-- `ixgbevf_down` has set `__IXGBEVF_DOWN`. -/
  | stopping
  /-- It has disabled the interrupts and NAPI, and has waited for them. -/
  | stopped
  /-- It has deleted the timer. -/
  | down
  /-- `ixgbevf_up_complete` has cleared `__IXGBEVF_DOWN`. -/
  | starting
  /-- It has enabled NAPI and the interrupts. -/
  | started
  deriving DecidableEq, Repr

/-- `__IXGBEVF_DOWN`. -/
def Stage.isDown : Stage → Bool
  | .stopping | .stopped | .down => true
  | .up | .starting | .started => false

/-- No interrupt and no poll runs. -/
def Stage.Silent : Stage → Prop
  | .stopped | .down => True
  | _ => False

/-- The timer is armed. -/
def Stage.ticks : Stage → Bool
  | .up | .stopping | .stopped => true
  | .down | .starting | .started => false

/-- How far `ixgbevf_remove` is. -/
inductive Removal where
  /-- It is not called. -/
  | none
  /-- It has set `__IXGBEVF_REMOVING`. -/
  | marked
  /-- It has cancelled the service task. -/
  | cancelled
  /-- It has unregistered the network device, which closes it. -/
  | unregistered
  /-- It has freed the adapter. -/
  | freed
  deriving DecidableEq, Repr

/-- `__IXGBEVF_REMOVING`. -/
def Removal.removing : Removal → Bool
  | .none => false
  | _ => true

/-- The network device is registered. -/
def Removal.Registered : Removal → Prop
  | .unregistered | .freed => False
  | _ => True

/-- The service task may be waited for. -/
def Removal.Uncancelled : Removal → Prop
  | .none | .marked => True
  | _ => False

/-- The adapter. -/
structure Adapter where
  /-- `__IXGBEVF_SERVICE_SCHED`, the calls of `ixgbevf_service_event_schedule`, and the service task,
  queued and running. -/
  flight : Flight Caller
  /-- `service_timer` is armed. -/
  timer : Bool
  /-- The interface. -/
  stage : Stage
  /-- `ixgbevf_remove`. -/
  removal : Removal

/-- What happens. -/
inductive Event where
  /-- `ixgbevf_service_event_schedule` is called. -/
  | call (c : Caller)
  /-- `test_bit(__IXGBEVF_DOWN)`. -/
  | testDown (c : Caller)
  /-- `test_bit(__IXGBEVF_REMOVING)`. -/
  | testRemoving (c : Caller)
  /-- `test_and_set_bit(__IXGBEVF_SERVICE_SCHED)`. -/
  | testAndSet (c : Caller)
  /-- `schedule_work`. -/
  | scheduleWork (c : Caller)
  /-- The work queue calls `ixgbevf_service_task`. -/
  | serviceTask
  /-- `ixgbevf_service_event_complete`. -/
  | complete
  /-- `ixgbevf_service_task` returns. -/
  | taskReturns
  /-- `ixgbevf_down` sets `__IXGBEVF_DOWN`. -/
  | setDown
  /-- `ixgbevf_irq_disable` and `ixgbevf_napi_disable_all`. -/
  | irqDisable
  /-- `timer_delete_sync`. -/
  | deleteTimer
  /-- `ixgbevf_up_complete` clears `__IXGBEVF_DOWN`. -/
  | clearDown
  /-- `ixgbevf_napi_enable_all` and `ixgbevf_irq_enable`. -/
  | irqEnable
  /-- `mod_timer`. -/
  | modTimer
  /-- `ixgbevf_remove` sets `__IXGBEVF_REMOVING`. -/
  | setRemoving
  /-- `cancel_work_sync`. -/
  | cancelWork
  /-- `unregister_netdev`, once the interface is closed. -/
  | unregister
  /-- `free_netdev`. -/
  | free
  deriving DecidableEq, Repr

namespace Adapter

/-- What an event does to the calls and the service task. -/
def move (A : Adapter) : Event → Option (Move Caller)
  | .call c => some (.start c 2)
  | .testDown c => some (if A.stage.isDown then .giveUp c else .pass c)
  | .testRemoving c => some (if A.removal.removing then .giveUp c else .pass c)
  | .testAndSet c => some (.claim c)
  | .scheduleWork c => some (.enqueue c)
  | .serviceTask => some .dequeue
  | .complete => some .complete
  | .taskReturns => some .finish
  | .cancelWork => some .cancel
  | _ => none

/-- Who may call. -/
def MayCall (A : Adapter) : Caller → Prop
  | .timer => A.timer = true
  | .irq _ => ¬ A.stage.Silent
  | .task => A.flight.worker = .body
  | .user _ => A.removal.Registered

/-- When an event may happen, but for what the calls and the service task allow. -/
def May (A : Adapter) : Event → Prop
  | .call c => A.MayCall c
  | .testDown c => A.flight.calls c = some (.tests 2)
  | .testRemoving c => A.flight.calls c = some (.tests 1)
  | .complete => A.flight.calls .task = none
  | .setDown => A.stage = .up
  | .irqDisable => A.stage = .stopping ∧ ∀ k, A.flight.calls (.irq k) = none
  | .deleteTimer => A.stage = .stopped ∧ A.flight.calls .timer = none
  | .clearDown => A.stage = .down ∧ A.removal.Registered
  | .irqEnable => A.stage = .starting
  | .modTimer => A.stage = .started
  | .setRemoving => A.removal = .none
  | .cancelWork => A.removal = .marked
  | .unregister => A.removal = .cancelled ∧ A.stage = .down ∧ ∀ k, A.flight.calls (.user k) = none
  | .free => A.removal = .unregistered
  | .testAndSet _ | .scheduleWork _ | .serviceTask | .taskReturns => True

/-- The interface after an event. -/
def nextStage (A : Adapter) : Event → Stage
  | .setDown => .stopping
  | .irqDisable => .stopped
  | .deleteTimer => .down
  | .clearDown => .starting
  | .irqEnable => .started
  | .modTimer => .up
  | _ => A.stage

/-- The timer after an event. -/
def nextTimer (A : Adapter) : Event → Bool
  | .deleteTimer => false
  | .modTimer => true
  | _ => A.timer

/-- The removal after an event. -/
def nextRemoval (A : Adapter) : Event → Removal
  | .setRemoving => .marked
  | .cancelWork => .cancelled
  | .unregister => .unregistered
  | .free => .freed
  | _ => A.removal

/-- The adapter after an event. -/
def apply (A : Adapter) (e : Event) : Adapter where
  flight := (A.move e).elim A.flight A.flight.apply
  timer := A.nextTimer e
  stage := A.nextStage e
  removal := A.nextRemoval e

/-- When an event may happen. -/
def Enabled (A : Adapter) (e : Event) : Prop := (∀ m ∈ A.move e, A.flight.Enabled m) ∧ A.May e

end Adapter

/-- An adapter after `ixgbevf_probe`. -/
def probed : Adapter where
  flight := ⟨false, fun _ => none, false, .idle⟩
  timer := false
  stage := .down
  removal := .none

/-- The runs of an adapter. -/
def system : TransSystem Adapter Event where
  init A := A = probed
  step A e A' := A.Enabled e ∧ A' = A.apply e

/-! ### The token -/

/-- What holds in every run. -/
structure Inv (A : Adapter) : Prop where
  /-- There is one token. -/
  sane : A.flight.Sane
  /-- The bit is set for somebody, until the task is cancelled. -/
  held : A.removal.Uncancelled → A.flight.flag = true → ∃ h, A.flight.Holds h
  /-- The timer is armed while the interface is up. -/
  timer : A.timer = A.stage.ticks
  /-- A timer that is not armed does not call. -/
  noTimer : A.timer = false → A.flight.calls .timer = none
  /-- Disabled interrupts do not call. -/
  noIrq : A.stage.Silent → ∀ k, A.flight.calls (.irq k) = none
  /-- Only a running task calls. -/
  noTask : A.flight.worker ≠ .body → A.flight.calls .task = none
  /-- A device that is not registered is closed, and its callbacks are not called. -/
  gone : ¬ A.removal.Registered → A.stage = .down ∧ ∀ k, A.flight.calls (.user k) = none

variable {A A' : Adapter} {e : Event}

/-- Who does not call and does not start a call does not call after an event. -/
theorem apply_calls {c : Caller} (hen : A.Enabled e) (hnone : A.flight.calls c = none)
    (hcall : e ≠ .call c) :
  (A.apply e).flight.calls c = none
  := by
  unfold Adapter.apply
  cases hmove : A.move e with
  | none => exact hnone
  | some m =>
    refine Flight.apply_none hnone (hen.1 m hmove) fun n hstart => ?_
    rw [hstart] at hmove
    cases e with
    | call c' =>
      have hsame : Move.start c' 2 = Move.start c n := Option.some.inj hmove
      exact hcall (by rw [(Move.start.inj hsame).1])
    | testDown c' | testRemoving c' =>
      simp only [Adapter.move, Option.some.injEq] at hmove
      split at hmove <;> cases hmove
    | testAndSet | scheduleWork | serviceTask | complete | taskReturns | cancelWork =>
      cases Option.some.inj hmove
    | setDown | irqDisable | deleteTimer | clearDown | irqEnable | modTimer | setRemoving
    | unregister | free => cases hmove

/-- Where a run starts. -/
theorem probed_inv :
  Inv probed
  := by
  have hnobody (h : Flight.Holder Caller) : ¬ probed.flight.Holds h := by
    cases h <;> exact fun hh => by cases hh
  exact ⟨⟨fun h hh => absurd hh (hnobody h), fun h _ hh => absurd hh (hnobody h)⟩,
    fun _ hflag => Bool.noConfusion hflag, rfl, fun _ => rfl, fun _ _ => rfl, fun _ => rfl,
    fun hno => absurd trivial hno⟩

/-- Every event keeps the token for somebody, until the task is cancelled. -/
theorem step_held (h : Inv A) (hen : A.Enabled e) (hun : (A.apply e).removal.Uncancelled) :
  (A.apply e).flight.flag = true → ∃ h, (A.apply e).flight.Holds h
  := by
  have hbefore : A.removal.Uncancelled ∧ e ≠ .cancelWork := by
    cases e with
    | setRemoving =>
      have hnone : A.removal = .none := hen.2
      rw [hnone]
      exact ⟨trivial, Event.noConfusion⟩
    | cancelWork | unregister | free => cases hun
    | _ => exact ⟨hun, Event.noConfusion⟩
  intro hflag
  unfold Adapter.apply at hflag ⊢
  cases hmove : A.move e with
  | none =>
    rw [hmove] at hflag
    exact h.held hbefore.1 hflag
  | some m =>
    rw [hmove] at hflag
    refine Flight.apply_held (h.held hbefore.1) (hen.1 m hmove) ?_ hflag
    rintro rfl
    cases e with
    | cancelWork => exact hbefore.2 rfl
    | testDown c | testRemoving c =>
      simp only [Adapter.move, Option.some.injEq] at hmove
      split at hmove <;> cases hmove
    | _ => cases hmove

/-- Every event keeps the timer armed while the interface is up. -/
theorem step_timer (h : Inv A) (hen : A.Enabled e) :
  (A.apply e).timer = (A.apply e).stage.ticks
  := by
  have htimer := h.timer
  have hmay := hen.2
  cases e with
  | setDown =>
    have hstage : A.stage = .up := hmay
    rw [hstage] at htimer
    exact htimer
  | irqDisable =>
    have hstage : A.stage = .stopping := hmay.1
    rw [hstage] at htimer
    exact htimer
  | deleteTimer | modTimer => rfl
  | clearDown =>
    have hstage : A.stage = .down := hmay.1
    rw [hstage] at htimer
    exact htimer
  | irqEnable =>
    have hstage : A.stage = .starting := hmay
    rw [hstage] at htimer
    exact htimer
  | _ => exact htimer

/-- Every event keeps the invariant. -/
theorem step_inv (h : Inv A) (hstep : system.step A e A') :
  Inv A'
  := by
  obtain ⟨hen, rfl⟩ := hstep
  have hmay := hen.2
  refine ⟨?_, step_held h hen, step_timer h hen, fun htimer => ?_, fun hsilent k => ?_,
    fun hworker => ?_, fun hgone => ?_⟩
  · unfold Adapter.apply
    cases hmove : A.move e with
    | none => exact h.sane
    | some m => exact Flight.apply_sane h.sane (hen.1 m hmove)
  · cases e with
    | deleteTimer => exact hmay.2
    | modTimer => cases htimer
    | call c =>
      have htimer : A.timer = false := htimer
      refine apply_calls hen (h.noTimer htimer) ?_
      rintro ⟨⟩
      have hfires : A.timer = true := hmay
      cases hfires.symm.trans htimer
    | _ => exact apply_calls hen (h.noTimer htimer) Event.noConfusion
  · cases e with
    | irqDisable => exact hmay.2 k
    | deleteTimer =>
      refine apply_calls hen (h.noIrq ?_ k) Event.noConfusion
      rw [show A.stage = .stopped from hmay.1]
      trivial
    | setDown | clearDown | irqEnable | modTimer => cases hsilent
    | call c =>
      refine apply_calls hen (h.noIrq hsilent k) ?_
      rintro ⟨⟩
      exact hmay hsilent
    | _ => exact apply_calls hen (h.noIrq hsilent k) Event.noConfusion
  · have hquiet (hother : A.flight.worker ≠ .body) (hcall : e ≠ .call .task) :
        (A.apply e).flight.calls .task = none := apply_calls hen (h.noTask hother) hcall
    cases e with
    | serviceTask => exact absurd rfl hworker
    | complete => exact apply_calls hen hmay Event.noConfusion
    | taskReturns =>
      refine hquiet ?_ Event.noConfusion
      rw [show A.flight.worker = .done from hen.1 _ rfl]
      exact Phase.noConfusion
    | testAndSet c =>
      refine hquiet (fun hbody => hworker ?_) Event.noConfusion
      rw [← hbody]
      change (A.flight.apply (.claim c)).worker = A.flight.worker
      rw [Flight.apply]
      split <;> rfl
    | call c =>
      refine hquiet hworker ?_
      rintro ⟨⟩
      exact hworker hmay
    | testDown c | testRemoving c =>
      refine hquiet (fun hbody => hworker ?_) Event.noConfusion
      rw [← hbody]
      simp only [Adapter.apply, Adapter.move, Option.elim]
      split <;> rfl
    | _ => exact hquiet hworker Event.noConfusion
  · cases e with
    | unregister => exact ⟨hmay.2.1, hmay.2.2⟩
    | free =>
      have hbefore : ¬ A.removal.Registered := by
        rw [show A.removal = .unregistered from hmay]
        exact id
      exact h.gone hbefore
    | setRemoving | cancelWork => exact absurd trivial hgone
    | setDown =>
      have hdown := (h.gone hgone).1
      rw [show A.stage = .up from hmay] at hdown
      cases hdown
    | irqDisable =>
      have hdown := (h.gone hgone).1
      rw [show A.stage = .stopping from hmay.1] at hdown
      cases hdown
    | deleteTimer =>
      have hdown := (h.gone hgone).1
      rw [show A.stage = .stopped from hmay.1] at hdown
      cases hdown
    | clearDown => exact absurd hmay.2 hgone
    | irqEnable =>
      have hdown := (h.gone hgone).1
      rw [show A.stage = .starting from hmay] at hdown
      cases hdown
    | modTimer =>
      have hdown := (h.gone hgone).1
      rw [show A.stage = .started from hmay] at hdown
      cases hdown
    | call c =>
      refine ⟨(h.gone hgone).1, fun k => apply_calls hen ((h.gone hgone).2 k) ?_⟩
      rintro ⟨⟩
      exact hgone hmay
    | _ =>
      exact ⟨(h.gone hgone).1, fun k => apply_calls hen ((h.gone hgone).2 k) Event.noConfusion⟩

/-- It holds in every run. -/
theorem reachable_inv (h : system.Reachable TransSystem.always A) :
  Inv A
  := by
  refine TransSystem.Reachable.invariant ?_ (fun _ _ _ hinv _ => step_inv hinv) h
  rintro A rfl
  exact probed_inv

/-- In every run, until `ixgbevf_remove` cancels the service task, `__IXGBEVF_SERVICE_SCHED` is set
exactly while a call is about to queue the task, or the task is queued, or it runs and has not
cleared the bit; never is there more than one of these; so the `BUG_ON` of
`ixgbevf_service_event_complete` stays silent; and the timer calls again while the interface carries
traffic. -/
theorem reachable_scheduled (h : system.Reachable TransSystem.always A) :
  (A.removal.Uncancelled → (A.flight.flag = true ↔ ∃ h, A.flight.Holds h))
    ∧ (∀ h h', A.flight.Holds h → A.flight.Holds h' → h = h')
    ∧ (A.flight.worker = .body → A.flight.flag = true)
    ∧ (A.stage = .up → A.timer = true)
  := by
  have hinv := reachable_inv h
  refine ⟨fun hun => ⟨hinv.held hun, fun ⟨h, hh⟩ => hinv.sane.flag h hh⟩, hinv.sane.unique,
    hinv.sane.flag .worker, fun hup => ?_⟩
  rw [hinv.timer, hup]
  rfl

/-- A run goes on with an event. -/
theorem reachable_apply (h : system.Reachable TransSystem.always A) (e : Event)
    (hmoves : ∀ m, A.move e = some m → A.flight.Enabled m) (hmay : A.May e) :
  system.Reachable TransSystem.always (A.apply e)
  := .step h trivial ⟨⟨hmoves, hmay⟩, rfl⟩

/-- The interface is up, the timer has called, and its call has passed its tests. -/
def ticked : Adapter :=
  [.clearDown, .irqEnable, .modTimer, .call .timer, .testDown .timer, .testRemoving .timer].foldl
    Adapter.apply probed

/-- It is reached in a run. -/
theorem ticked_reachable :
  system.Reachable TransSystem.always ticked
  := by
  have h₀ : system.Reachable TransSystem.always probed := .init rfl
  have h₁ := reachable_apply h₀ .clearDown (fun m hm => by cases hm) ⟨rfl, trivial⟩
  have h₂ := reachable_apply h₁ .irqEnable (fun m hm => by cases hm) rfl
  have h₃ := reachable_apply h₂ .modTimer (fun m hm => by cases hm) rfl
  have h₄ := reachable_apply h₃ (.call .timer) (fun m hm => by cases hm; rfl) rfl
  have h₅ := reachable_apply h₄ (.testDown .timer) (fun m hm => by cases hm; exact ⟨1, rfl⟩) rfl
  exact reachable_apply h₅ (.testRemoving .timer) (fun m hm => by cases hm; exact ⟨0, rfl⟩) rfl

/-- The call queues the task, which the work queue calls. -/
def servedTick : Adapter :=
  [.testAndSet .timer, .scheduleWork .timer, .serviceTask].foldl Adapter.apply ticked

/-- The task runs, and has the token. -/
theorem servedTick_scheduled :
  (servedTick.removal.Uncancelled →
      (servedTick.flight.flag = true ↔ ∃ h, servedTick.flight.Holds h))
    ∧ (∀ h h', servedTick.flight.Holds h → servedTick.flight.Holds h' → h = h')
    ∧ (servedTick.flight.worker = .body → servedTick.flight.flag = true)
    ∧ (servedTick.stage = .up → servedTick.timer = true)
  := by
  have h₁ := reachable_apply ticked_reachable (.testAndSet .timer)
    (fun m hm => by cases hm; rfl) trivial
  have h₂ := reachable_apply h₁ (.scheduleWork .timer) (fun m hm => by cases hm; rfl) trivial
  have h₃ := reachable_apply h₂ .serviceTask (fun m hm => by cases hm; exact ⟨rfl, rfl⟩) trivial
  exact reachable_scheduled h₃

/-! ### Removal -/

/-- `ixgbevf_remove` is past the cancellation. -/
def Removal.Cancelled : Removal → Prop
  | .none | .marked => False
  | _ => True

/-- The service task is cancelled for good. -/
def Cancelled (A : Adapter) : Prop := A.flight.Quiet ∧ A.removal.Cancelled

/-- A cancelled service task stays cancelled. -/
theorem step_cancelled (h : Cancelled A) (hstep : system.step A e A') :
  Cancelled A'
  := by
  obtain ⟨hen, rfl⟩ := hstep
  obtain ⟨hquiet, hcancelled⟩ := h
  have hremoving : A.removal.removing = true := by
    cases hremoval : A.removal with
    | none =>
      rw [hremoval] at hcancelled
      cases hcancelled
    | _ => rfl
  constructor
  · unfold Adapter.apply
    cases hmove : A.move e with
    | none => exact hquiet
    | some m =>
      refine Flight.apply_quiet hquiet (hen.1 m hmove) fun harrives => ?_
      -- the test of the bit turns every call away
      cases e with
      | testRemoving c =>
        rw [Adapter.move, if_pos hremoving] at hmove
        cases hmove
        cases harrives
      | testDown c =>
        rw [Adapter.move] at hmove
        cases hmove
        split at harrives
        · cases harrives
        · have htwo : A.flight.calls c = some (.tests 2) := hen.2
          have hone : A.flight.calls c = some (.tests 1) := harrives
          rw [htwo] at hone
          cases hone
      | call c =>
        cases hmove
        cases harrives
      | testAndSet | scheduleWork | serviceTask | complete | taskReturns | cancelWork =>
        cases hmove
        cases harrives
      | setDown | irqDisable | deleteTimer | clearDown | irqEnable | modTimer | setRemoving
      | unregister | free => cases hmove
  · cases e with
    | setRemoving =>
      rw [show A.removal = .none from hen.2] at hcancelled
      cases hcancelled
    | cancelWork | unregister | free => trivial
    | _ => exact hcancelled

/-- Nothing of the driver runs. -/
structure Idle (A : Adapter) : Prop where
  /-- Nobody calls. -/
  calls : ∀ c, A.flight.calls c = none
  /-- The service task is not queued. -/
  queued : A.flight.queued = false
  /-- It does not run. -/
  worker : A.flight.worker = .idle
  /-- The timer is not armed. -/
  timer : A.timer = false

/-- An unregistered device whose service task is cancelled is idle. -/
theorem Inv.idle (h : Inv A) (hcancelled : Cancelled A) (hgone : ¬ A.removal.Registered) :
  Idle A
  := by
  obtain ⟨hdown, huser⟩ := h.gone hgone
  have htimer : A.timer = false := by
    rw [h.timer, hdown]
    rfl
  refine ⟨fun c => ?_, hcancelled.1.queued, hcancelled.1.worker, htimer⟩
  cases c with
  | timer => exact h.noTimer htimer
  | irq k =>
    refine h.noIrq ?_ k
    rw [hdown]
    trivial
  | task =>
    refine h.noTask ?_
    rw [hcancelled.1.worker]
    exact Phase.noConfusion
  | user k => exact huser k

/-- A call that has claimed the bit may queue the task. -/
theorem scheduleWork_step {c : Caller} (h : A.flight.calls c = some .enqueue) :
  system.step A (.scheduleWork c) (A.apply (.scheduleWork c))
    ∧ (A.apply (.scheduleWork c)).flight.queued = true
  := by
  refine ⟨⟨⟨fun m hm => ?_, trivial⟩, rfl⟩, rfl⟩
  cases hm
  exact h

/-- A call that is past its tests may claim the bit, where it is not set. -/
theorem testAndSet_step {c : Caller} (h : A.flight.calls c = some (.tests 0))
    (hflag : A.flight.flag = false) :
  system.step A (.testAndSet c) (A.apply (.testAndSet c))
    ∧ (A.apply (.testAndSet c)).flight.calls c = some .enqueue
  := by
  refine ⟨⟨⟨fun m hm => ?_, trivial⟩, rfl⟩, ?_⟩
  · cases hm
    exact h
  · have hclaim : (A.apply (.testAndSet c)).flight = A.flight.apply (.claim c) := rfl
    rw [hclaim, Flight.apply, if_neg (by rw [hflag]; exact Bool.false_ne_true)]
    exact Function.update_self c _ _

/-- After `ixgbevf_remove` has cancelled the service task, the task may be queued again exactly if a
call of `ixgbevf_service_event_schedule` has passed its tests before and is going to queue it; and
otherwise nothing of the driver runs any more when the adapter is freed. -/
theorem cancelWork_final (h : system.Reachable TransSystem.always A)
    (hstep : system.step A .cancelWork A') :
  ((∃ es A'', system.Path TransSystem.always A' es A'' ∧ A''.flight.queued = true)
      ↔ A.flight.Straddles)
    ∧ (¬ A.flight.Straddles →
      ∀ es A'', system.Path TransSystem.always A' es A'' → A''.removal = .freed → Idle A'')
  := by
  have hreach : system.Reachable TransSystem.always A' := .step h trivial hstep
  obtain ⟨hen, rfl⟩ := hstep
  have hcancel : A.flight.Enabled .cancel := hen.1 _ rfl
  have hkept (hno : ¬ A.flight.Straddles) {es : List Event} {A'' : Adapter}
      (hpath : system.Path TransSystem.always (A.apply .cancelWork) es A'') : Cancelled A'' := by
    have hcancelled : Cancelled (A.apply .cancelWork) :=
      ⟨(Flight.cancel_quiet hcancel).mpr hno, trivial⟩
    exact hpath.invariant (fun _ _ _ h _ => step_cancelled h) hcancelled
  refine ⟨⟨fun ⟨es, A'', hpath, hqueued⟩ => ?_, fun ⟨c, hc⟩ => ?_⟩,
    fun hno es A'' hpath hfreed => ?_⟩
  · by_contra hno
    rw [(hkept hno hpath).1.queued] at hqueued
    cases hqueued
  · rcases hc with hc | ⟨hc, hflag⟩
    · obtain ⟨hstep, hqueued⟩ := scheduleWork_step (A := A.apply .cancelWork) hc
      exact ⟨_, _, .cons trivial hstep (.nil _), hqueued⟩
    · obtain ⟨hclaim, hcall⟩ := testAndSet_step (A := A.apply .cancelWork) hc hflag
      obtain ⟨hstep, hqueued⟩ := scheduleWork_step hcall
      exact ⟨_, _, .cons trivial hclaim (.cons trivial hstep (.nil _)), hqueued⟩
  · have hinv := reachable_inv (hreach.path hpath)
    refine hinv.idle (hkept hno hpath) ?_
    rw [hfreed]
    exact id

/-- The timer has called, and its call has passed its tests, when the adapter is removed. -/
def markedTick : Adapter := ticked.apply .setRemoving

/-- The call queues the task after it was cancelled. -/
theorem markedTick_final :
  markedTick.flight.Straddles ∧ ((∃ es A'', system.Path TransSystem.always
        (markedTick.apply .cancelWork) es A'' ∧ A''.flight.queued = true)
      ↔ markedTick.flight.Straddles)
    ∧ (¬ markedTick.flight.Straddles → ∀ es A'',
      system.Path TransSystem.always (markedTick.apply .cancelWork) es A'' →
        A''.removal = .freed → Idle A'')
  := by
  have hmarked := reachable_apply ticked_reachable .setRemoving
    (fun m hm => by cases hm) rfl
  exact ⟨⟨.timer, .inr ⟨rfl, rfl⟩⟩,
    cancelWork_final hmarked ⟨⟨fun m hm => by cases hm; rfl, rfl⟩, rfl⟩⟩

end Ixgbevf.Schedule
