import Ixgbevf.Lib.Monitor
import Ixgbevf.Lib.Run

/-!
# The service task and the lock of the network stack

The service task tests and changes the state bits of the adapter while another context opens,
closes or reinitialises the interface.  What reconfigures the interface does so under RTNL;
`ixgbevf_queue_reset_subtask` takes a request for a reset of the queues away before it tests
whether it may serve it.
-/

namespace Ixgbevf.Service

open Prog

/-! ### The adapter -/

/-- The bits of `adapter->state` that only the holder of RTNL changes. -/
inductive Bit where
  | down
  | resetting
deriving DecidableEq, Repr

/-- What only the holder of RTNL changes. -/
structure Interface where
  /-- `__IXGBEVF_DOWN`. -/
  down : Bool
  /-- `__IXGBEVF_RESETTING`. -/
  resetting : Bool
  /-- `hw->mbx.timeout` is 0. -/
  mute : Bool
  /-- `netif_running`. -/
  running : Bool
  /-- `ixgbevf_configure_dcb` has requested a reset of the queues, and since then the interface
  has not been closed, configured again or been given other queues. -/
  requested : Bool
  /-- `ixgbevf_configure_dcb` has requested a reset of the queues, and since then the interface
  has not carried traffic and the device has not been reset. -/
  asked : Bool
deriving DecidableEq, Repr

namespace Interface

/-- The value of a bit. -/
def bit (p : Interface) : Bit → Bool
  | .down => p.down
  | .resetting => p.resetting

/-- The interface is neither down nor being reset. -/
def Carries (p : Interface) : Prop := p.down = false ∧ p.resetting = false

instance (p : Interface) : Decidable p.Carries := instDecidableAnd

/-- The interface after a bit was cleared, when it may carry traffic. -/
def settle (p : Interface) : Interface := if p.Carries then { p with asked := false } else p

end Interface

/-! ### What the contexts do -/

/-- The atomic actions. -/
inductive Act where
  /-- `test_bit` -/
  | testBit (b : Bit)
  /-- `test_bit` in `ixgbevf_queue_reset_subtask`, which gives the request up if the bit is set -/
  | giveUpIf (b : Bit)
  /-- `test_and_set_bit(__IXGBEVF_DOWN)` -/
  | testAndSetDown
  | setDown
  | clearDown
  /-- `while (test_and_set_bit(__IXGBEVF_RESETTING)) msleep(1)` -/
  | spinResetting
  | clearResetting
  /-- `test_and_clear_bit(__IXGBEVF_QUEUE_RESET_REQUESTED)` -/
  | takeQueueReset
  /-- `test_and_clear_bit(__IXGBEVF_RESET_REQUESTED)` -/
  | takeReset
  /-- `set_bit(__IXGBEVF_QUEUE_RESET_REQUESTED)` -/
  | requestQueueReset
  /-- `set_bit(__IXGBEVF_RESET_REQUESTED)` -/
  | requestReset
  /-- `ixgbevf_reset`, which does nothing when the device is gone or being removed, or is left
  out while the PCI channel is offline -/
  | reset
  /-- `ixgbevf_get_queues`: whether the queues differ from those in use -/
  | getQueues
  /-- `hw->mbx.timeout = 0` -/
  | forceTimeout
  /-- `netif_running` -/
  | netifRunning
  /-- the stack marks the interface as running, or as not -/
  | setRunning (on : Bool)
  /-- the interrupts and the resources of the rings are given back -/
  | released
  /-- `ixgbevf_clear_interrupt_scheme` and `ixgbevf_init_interrupt_scheme` -/
  | rebuild
  /-- what the rest of the system decides -/
  | branch
deriving DecidableEq, Repr

/-- Code of a context. -/
abbrev Code := Prog Act

/-- `ixgbevf_down`. -/
def ixgbevfDown (k : Code) : Code :=
  .act .testAndSetDown fun set => if set then k else .act .reset fun _ => k

/-- `ixgbevf_configure`, where `ixgbevf_configure_dcb` finds that the queues differ or not. -/
def configure (k : Code) : Code :=
  .act .getQueues fun differ =>
    if differ then .act .forceTimeout fun _ => .act .requestQueueReset fun _ => k else k

/-- `ixgbevf_up_complete`. -/
def upComplete (k : Code) : Code := .act .clearDown fun _ => k

/-- `ixgbevf_up`. -/
def up (k : Code) : Code := configure (upComplete k)

/-- `ixgbevf_reinit_locked`. -/
def reinitLocked (k : Code) : Code :=
  .act .spinResetting fun _ => ixgbevfDown (up (.act .clearResetting fun _ => k))

/-- `ixgbevf_open` once the device is found not to be stopped; `k` goes on with whether it
succeeded. -/
def openStarted (k : Bool → Code) : Code :=
  -- `__IXGBEVF_TESTING`
  .act .branch fun testing => if testing then k false else
  -- the resources of the Tx rings, and of the Rx rings
  .act .branch fun setup => if setup then .act .reset fun _ => k false else
  configure <|
  -- the interrupts, and the numbers of queues of the stack
  .act .branch fun irq => if irq then .act .reset fun _ => k false else
  upComplete (k true)

/-- `ixgbevf_open`. -/
def ixgbevfOpen (k : Bool → Code) : Code :=
  -- `num_q_vectors` is 0
  .act .branch fun vectors => if vectors then k false else
  -- `hw->adapter_stopped`, before a reset and after it
  .act .branch fun stopped =>
    if stopped then
      .act .reset fun _ => .act .branch fun still => if still then k false else openStarted k
    else
      openStarted k

/-- `ixgbevf_close`. -/
def ixgbevfClose (k : Code) : Code := ixgbevfDown (.act .released fun _ => k)

/-- `ixgbevf_clear_interrupt_scheme` and `ixgbevf_init_interrupt_scheme`, which marks the
adapter as down when it succeeds. -/
def reinitScheme (k : Code) : Code :=
  .act .rebuild fun _ => .act .branch fun failed => if failed then k else .act .setDown fun _ => k

/-- `ixgbevf_queue_reset_subtask` under RTNL. -/
def resetQueues (k : Code) : Code :=
  .act .netifRunning fun running =>
    (if running then ixgbevfClose else id) <|
    reinitScheme <|
    .act .netifRunning fun running => if running then ixgbevfOpen fun _ => k else k

/-- `ixgbevf_queue_reset_subtask`. -/
def queueResetSubtask (k : Code) : Code :=
  .act .takeQueueReset fun set => if set then
    .act (.giveUpIf .down) fun down => if down then k else
    .act (.giveUpIf .resetting) fun resetting => if resetting then k else
    .lock (resetQueues (.unlock k))
  else k

/-- `ixgbevf_reset_subtask`. -/
def resetSubtask (k : Code) : Code :=
  .act .takeReset fun set => if set then
    .lock <|
    .act (.testBit .down) fun down => if down then .unlock k else
    -- `__IXGBEVF_REMOVING`
    .act .branch fun removing => if removing then .unlock k else
    .act (.testBit .resetting) fun resetting => if resetting then .unlock k else
    reinitLocked (.unlock k)
  else k

/-- `ixgbevf_watchdog_subtask`. -/
def watchdogSubtask (k : Code) : Code :=
  .act (.testBit .down) fun down => if down then k else
  .act (.testBit .resetting) fun resetting => if resetting then k else
  -- `check_link` fails ten seconds after the last reset
  .act .branch fun failed => if failed then .act .requestReset fun _ => k else k

/-- `ixgbevf_check_hang_subtask`. -/
def checkHangSubtask (k : Code) : Code :=
  .act (.testBit .down) fun down => if down then k else
  .act (.testBit .resetting) fun _ => k

/-- `ixgbevf_service_task`. -/
def serviceTask : Code :=
  -- `IXGBE_REMOVED`
  .act .branch fun removed =>
    if removed then
      .act (.testBit .down) fun down => if down then .done else .lock (ixgbevfDown (.unlock .done))
    else
      queueResetSubtask (resetSubtask (watchdogSubtask (checkHangSubtask .done)))

/-- The stack opens the interface, unless it runs. -/
def devOpen : Code :=
  .lock <| .act .netifRunning fun running => if running then .unlock .done else
  .act (.setRunning true) fun _ =>
    ixgbevfOpen fun ok => if ok then .unlock .done else .act (.setRunning false) fun _ => .unlock .done

/-- The stack closes the interface, if it runs. -/
def devClose : Code :=
  .lock <| .act .netifRunning fun running => if running then
    .act (.setRunning false) fun _ => ixgbevfClose (.unlock .done)
  else .unlock .done

/-- A caller of `ixgbevf_reinit_locked`, which reinitialises the interface if it runs. -/
def devReinit : Code :=
  .lock <| .act .netifRunning fun running => if running then reinitLocked (.unlock .done) else
  .unlock .done

/-! ### Runs -/

/-- The service task, and the other context. -/
inductive Ctx where
  | service
  | other
deriving DecidableEq, Repr

/-- What a context starts. -/
inductive Entry where
  | serviceTask
  | devOpen
  | devClose
  | devReinit
deriving DecidableEq, Repr

/-- The context that it runs in. -/
def Entry.ctx : Entry → Ctx
  | .serviceTask => .service
  | _ => .other

/-- The code that is run. -/
def Entry.code : Entry → Code
  | .serviceTask => Service.serviceTask
  | .devOpen => Service.devOpen
  | .devClose => Service.devClose
  | .devReinit => Service.devReinit

/-- The contexts and what they share. -/
structure State where
  /-- The contexts, and the holder of RTNL. -/
  contexts : Contexts Ctx Act
  /-- What RTNL guards. -/
  interface : Interface
  /-- `__IXGBEVF_QUEUE_RESET_REQUESTED`. -/
  queueReset : Bool
  /-- `__IXGBEVF_RESET_REQUESTED`. -/
  resetRequested : Bool

/-- What happens: a context starts, or does its next step, with this result if it is an
action. -/
inductive Event where
  | enter (entry : Entry)
  | go (ctx : Ctx) (result : Bool)
deriving DecidableEq, Repr

/-- An action can have this result, as far as the interface goes. -/
def Act.Answers (p : Interface) : Act → Bool → Prop
  | .testBit b, r => r = p.bit b
  | .giveUpIf b, r => r = p.bit b
  | .testAndSetDown, r => r = p.down
  | .spinResetting, _ => p.resetting = false
  -- without a timeout nothing is asked
  | .getQueues, r => r = true → p.mute = false
  | .netifRunning, r => r = p.running
  | _, _ => True

instance (p : Interface) : (a : Act) → (r : Bool) → Decidable (a.Answers p r)
  | .testBit b, r => inferInstanceAs (Decidable (r = p.bit b))
  | .giveUpIf b, r => inferInstanceAs (Decidable (r = p.bit b))
  | .testAndSetDown, r => inferInstanceAs (Decidable (r = p.down))
  | .spinResetting, _ => inferInstanceAs (Decidable (p.resetting = false))
  | .getQueues, r => inferInstanceAs (Decidable (r = true → p.mute = false))
  | .netifRunning, r => inferInstanceAs (Decidable (r = p.running))
  | .setDown, _ | .clearDown, _ | .clearResetting, _ | .takeQueueReset, _ | .takeReset, _
  | .requestQueueReset, _ | .requestReset, _ | .reset, _ | .forceTimeout, _ | .setRunning _, _
  | .released, _ | .rebuild, _ | .branch, _ => isTrue trivial

/-- The interface after an action. -/
def Act.after (r : Bool) (p : Interface) : Act → Interface
  | .testAndSetDown | .setDown => { p with down := true }
  | .clearDown => { p with down := false }.settle
  | .spinResetting => { p with resetting := true }
  | .clearResetting => { p with resetting := false }.settle
  | .requestQueueReset => { p with requested := true, asked := true }
  | .reset => if r then { p with mute := false, asked := false } else p
  | .getQueues | .released | .rebuild => { p with requested := false }
  | .forceTimeout => { p with mute := true }
  | .setRunning on => { p with running := on }
  | _ => p

namespace State

/-- An action can have this result. -/
def Answers (s : State) (a : Act) (r : Bool) : Prop :=
  a.Answers s.interface r ∧ (a = .takeQueueReset → r = s.queueReset)
    ∧ (a = .takeReset → r = s.resetRequested)

instance (s : State) (a : Act) (r : Bool) : Decidable (s.Answers a r) := instDecidableAnd

/-- The state after an action of a context, which goes on with `k`. -/
def act (s : State) (ctx : Ctx) (a : Act) (r : Bool) (k : Code) : State where
  contexts := s.contexts.goOn ctx k
  interface := a.after r s.interface
  queueReset :=
    match a with
    | .takeQueueReset => false
    | .requestQueueReset => true
    | _ => s.queueReset
  resetRequested :=
    match a with
    | .takeReset => false
    | .requestReset => true
    | _ => s.resetRequested

/-- Code can go on, with this result if it starts with an action. -/
def CanGo (s : State) (r : Bool) : Code → Prop
  | .done => False
  | .lock _ => s.contexts.holder = none
  | .unlock _ => True
  | .act a _ => s.Answers a r

/-- The state after a context has gone on with its code. -/
def gone (s : State) (ctx : Ctx) (r : Bool) : Code → State
  | .done => s
  | .lock k => { s with contexts := s.contexts.take ctx k }
  | .unlock k => { s with contexts := s.contexts.give ctx k }
  | .act a k => s.act ctx a r (k r)

/-- When an event may happen. -/
def May (s : State) : Event → Prop
  | .enter entry => (s.contexts.prog entry.ctx).isDone
  | .go ctx r => s.CanGo r (s.contexts.prog ctx)

/-- The state after an event. -/
def next (s : State) : Event → State
  | .enter entry => { s with contexts := s.contexts.goOn entry.ctx entry.code }
  | .go ctx r => s.gone ctx r (s.contexts.prog ctx)

/-- The adapter after `ixgbevf_probe`. -/
def start : State where
  contexts := Contexts.idle
  interface :=
    { down := true, resetting := false, mute := false, running := false, requested := false,
      asked := false }
  queueReset := false
  resetRequested := false

/-- The runs of the contexts. -/
def system : TransSystem State Event where
  init s := s = start
  step s e s' := s.May e ∧ s' = s.next e

end State

/-! ### The claim's property, and the condition -/

/-- The code has taken a request for a reset of the queues away, and has neither given it up nor
served it yet. -/
def Serving : Code → Prop
  | .done => False
  | .lock k | .unlock k => Serving k
  | .act (.giveUpIf _) k => Serving (k false)
  | .act .rebuild _ => True
  | .act .takeQueueReset _ => False
  | .act _ k => Serving (k true) ∧ Serving (k false)

namespace State

/-- The request is still there, or the service task is going to serve it. -/
def Owed (s : State) : Prop := s.queueReset ∨ Serving (s.contexts.prog .service)

/-- No context runs, and the interface is up without a mailbox and without a request. -/
structure Stranded (s : State) : Prop where
  done (ctx : Ctx) : s.contexts.prog ctx = .done
  up : s.interface.down = false
  mute : s.interface.mute = true
  queueReset : s.queueReset = false
  resetRequested : s.resetRequested = false

/-- No request of the configuration that carries traffic is dropped, and the adapter is not
left without a mailbox. -/
structure Kept (s : State) : Prop where
  owed : s.interface.requested → s.interface.Carries → s.Owed
  not_stranded : ¬ s.Stranded

/-- `ixgbevf_queue_reset_subtask` gives no request up between the request and the traffic of
the same configuration, unless it has been made again; and `ixgbevf_reset` is not left out
while the mailbox has no timeout. -/
def InTime (s : State) (r : Bool) : Code → Prop
  | .act (.giveUpIf _) _ => r = true → s.interface.asked → s.interface.mute → s.queueReset
  | .act .reset _ => r = false → s.interface.mute = false
  | _ => True

/-- The condition on an event. -/
def Timely (s : State) : Event → Prop
  | .enter _ => True
  | .go ctx r => s.InTime r (s.contexts.prog ctx)

end State

/-! ### What RTNL guards -/

namespace Interface

/-- The mailbox has no timeout, and the interface carries traffic or is on the way to. -/
def Watched (p : Interface) : Prop := p.mute ∧ (p.asked ∨ p.Carries)

/-- A configuration that carries traffic and has requested a reset has no timeout. -/
def Marked (p : Interface) : Prop := p.requested → p.Carries → p.mute

/-- The interface while nobody holds RTNL. -/
structure AtRest (p : Interface) : Prop where
  resetting : p.resetting = false
  mute : p.down = true → p.mute = false
  down : p.running = false → p.down = true
  asked : p.asked = false

/-- The interface is down, and the device has been reset. -/
structure Stopped (p : Interface) : Prop where
  down : p.down = true
  mute : p.mute = false
  asked : p.asked = false

/-- The interface is down and configured. -/
structure Configured (p : Interface) : Prop where
  down : p.down = true
  asked : p.asked = p.mute
  requested : p.requested = p.mute

/-- A bit that is set keeps the interface from carrying traffic. -/
theorem not_carries {p : Interface} {b : Bit} (h : p.bit b = true) :
  ¬ p.Carries
  := by
  rintro ⟨hd, hr⟩
  cases b with
  | down => exact Bool.false_ne_true (hd.symm.trans h)
  | resetting => exact Bool.false_ne_true (hr.symm.trans h)

end Interface

open Interface

/-- What RTNL requires of the code of a context. -/
def rules (ctx : Ctx) : Rules Act Interface where
  order := AtRest
  effect a p r p' := a.Answers p r ∧ (a = .reset → r = false → p.mute = false) ∧ p' = a.after r p
  along a p p' := (a ≠ .takeQueueReset ∧ ∀ b, a ≠ .giveUpIf b) ∧ (p.Marked → p'.Marked)
    ∧ (p'.Watched → a ≠ .rebuild ∧ (a = .requestQueueReset ∨ p.Watched))
  outside a k := ctx = .service ∧ (∀ r p, a.after r p = p)
    ∧ (a = .takeQueueReset → Serving (k true))

/-- The code of a context keeps the rules. -/
abbrev Keeps (ctx : Ctx) (k : Code) (p : Option Interface) : Prop := Sound (rules ctx) k p

variable {ctx : Ctx} {p : Interface} {k : Code}

/-- An action while the interface is down or being reset. -/
theorem keeps_act {a : Act} {k : Bool → Code} (ha : a ≠ .takeQueueReset ∧ ∀ b, a ≠ .giveUpIf b)
    (hc : ∀ r, ¬ (a.after r p).Carries)
    (hw : ∀ r, (a.after r p).mute → (a.after r p).asked →
      a ≠ .rebuild ∧ (a = .requestQueueReset ∨ p.mute ∧ p.asked))
    (hk : ∀ r, a.Answers p r → (a = .reset → r = false → p.mute = false) →
      Keeps ctx (k r) (some (a.after r p))) :
  Keeps ctx (.act a k) (some p)
  := by
  rintro r _ ⟨hans, hskip, rfl⟩
  refine ⟨⟨ha, fun _ _ h => absurd h (hc r), ?_⟩, hk r hans hskip⟩
  rintro ⟨hm, hasked | hcarries⟩
  · obtain ⟨hne, hr | ⟨hm, hasked⟩⟩ := hw r hm hasked
    · exact ⟨hne, .inl hr⟩
    · exact ⟨hne, .inr ⟨hm, .inl hasked⟩⟩
  · exact absurd hcarries (hc r)

/-- An action that leaves the interface alone. -/
theorem keeps_act_same {a : Act} {k : Bool → Code}
    (ha : a ≠ .takeQueueReset ∧ (∀ b, a ≠ .giveUpIf b) ∧ a ≠ .rebuild)
    (hp : ∀ r, a.after r p = p)
    (hk : ∀ r, a.Answers p r → Keeps ctx (k r) (some p)) :
  Keeps ctx (.act a k) (some p)
  := by
  rintro r _ ⟨hans, -, rfl⟩
  rw [hp r]
  exact ⟨⟨⟨ha.1, ha.2.1⟩, id, fun h => ⟨ha.2.2, .inr h⟩⟩, hk r hans⟩

/-! ### What the functions of the driver keep -/

/-- A reset of a device that is down. -/
theorem keeps_reset {k : Bool → Code} (hd : p.down = true) (ha : p.mute = false → p.asked = false)
    (hk : ∀ r p', p'.Stopped → p'.resetting = p.resetting → p'.running = p.running →
      Keeps ctx (k r) (some p')) :
  Keeps ctx (.act .reset k) (some p)
  := by
  apply keeps_act (by simp)
  · rintro r ⟨h, -⟩
    cases r <;> simp [Act.after, hd] at h
  · intro r hm
    cases r with
    | false => exact fun hasked => ⟨by simp, .inr ⟨hm, hasked⟩⟩
    | true => simp [Act.after] at hm
  · intro r _ hskip
    cases r with
    | true => exact hk true _ ⟨hd, rfl, rfl⟩ rfl rfl
    | false =>
      have hm := hskip rfl rfl
      exact hk false p ⟨hd, hm, ha hm⟩ rfl rfl

/-- `ixgbevf_down`. -/
theorem keeps_down (hm : p.down = true → p.mute = false) (ha : p.asked = false)
    (hk : ∀ p', p'.Stopped → p'.resetting = p.resetting → p'.running = p.running →
      Keeps ctx k (some p')) :
  Keeps ctx (ixgbevfDown k) (some p)
  := by
  apply keeps_act (by simp)
  · rintro r ⟨h, -⟩
    simp [Act.after] at h
  · intro r _ hasked
    simp [Act.after, ha] at hasked
  · intro r hans _
    have hr : r = p.down := hans
    cases r with
    | true =>
      have hd : p.down = true := hr.symm
      exact hk _ ⟨rfl, hm hd, ha⟩ rfl rfl
    | false =>
      apply keeps_reset rfl
      · exact fun _ => ha
      · intro _ p' hp' hres hrun
        exact hk p' hp' hres hrun

/-- `ixgbevf_configure`. -/
theorem keeps_configure (hp : p.Stopped)
    (hk : ∀ p', p'.Configured → p'.resetting = p.resetting → p'.running = p.running →
      Keeps ctx k (some p')) :
  Keeps ctx (configure k) (some p)
  := by
  have hno (p' : Interface) (h : p'.down = p.down) : ¬ p'.Carries := by
    rintro ⟨h', -⟩
    rw [h, hp.down] at h'
    cases h'
  apply keeps_act (by simp)
  · exact fun r => hno _ rfl
  · intro r hm _
    exact absurd hm (hp.mute ▸ Bool.false_ne_true)
  · intro r _ _
    cases r with
    | false => exact hk _ ⟨hp.down, hp.asked.trans hp.mute.symm, hp.mute.symm⟩ rfl rfl
    | true =>
      apply keeps_act (by simp)
      · exact fun r => hno _ rfl
      · intro r _ hasked
        exact absurd hasked (hp.asked ▸ Bool.false_ne_true)
      · intro r _ _
        apply keeps_act (by simp)
        · exact fun r => hno _ rfl
        · exact fun r _ _ => ⟨by simp, .inl rfl⟩
        · intro r _ _
          exact hk _ ⟨hp.down, rfl, rfl⟩ rfl rfl

/-- The bit whose clearing lets a configured interface carry traffic. -/
theorem keeps_settle {a : Act} {k : Bool → Code} {q : Interface}
    (ha : a ≠ .takeQueueReset ∧ (∀ b, a ≠ .giveUpIf b) ∧ a ≠ .rebuild ∧ a ≠ .reset)
    (hq : ∀ r, a.after r p = q.settle) (hd : q.down = false) (hres : q.resetting = false)
    (hrun : q.running = true) (hmute : q.mute = p.mute) (hasked : p.asked = p.mute)
    (hreq : q.requested = p.mute) (hk : ∀ r p', p'.AtRest → Keeps ctx (k r) (some p')) :
  Keeps ctx (.act a k) (some p)
  := by
  have hc : q.Carries := ⟨hd, hres⟩
  have hs : q.settle = { q with asked := false } := if_pos hc
  rintro r _ ⟨-, -, rfl⟩
  rw [hq r, hs]
  refine ⟨⟨⟨ha.1, ha.2.1⟩, ?_, ?_⟩, ?_⟩
  · rintro - hr -
    exact hmute.trans (hreq.symm.trans hr)
  · rintro ⟨hm, -⟩
    have hm' : p.mute = true := hmute.symm.trans hm
    exact ⟨ha.2.2.1, .inr ⟨hm', .inl (hasked.trans hm')⟩⟩
  · apply hk r
    constructor
    · exact hres
    · exact fun h => absurd (hd.symm.trans h) Bool.false_ne_true
    · exact fun h => absurd (h.symm.trans hrun) Bool.false_ne_true
    · rfl

/-- `ixgbevf_reinit_locked`. -/
theorem keeps_reinit (hp : p.AtRest) (hrun : p.running = true)
    (hk : ∀ p', p'.AtRest → Keeps ctx k (some p')) :
  Keeps ctx (reinitLocked k) (some p)
  := by
  apply keeps_act (by simp)
  · rintro r ⟨-, h⟩
    cases h
  · exact fun r _ hasked => absurd hasked (hp.asked ▸ Bool.false_ne_true)
  · intro r _ _
    apply keeps_down (p := { p with resetting := true }) hp.mute hp.asked
    intro p₁ h₁ hres₁ hrun₁
    apply keeps_configure h₁
    intro p₂ h₂ hres₂ hrun₂
    have hres : p₂.resetting = true := hres₂.trans hres₁
    have hno (q : Interface) (h : q.resetting = true) : ¬ q.Carries := by
      rintro ⟨-, h'⟩
      exact absurd (h'.symm.trans h) Bool.false_ne_true
    have hs : Interface.settle { p₂ with down := false } = { p₂ with down := false } := by
      apply if_neg
      exact hno _ hres
    -- the interface is up again, and still being reset
    apply keeps_act (by simp)
    · intro r
      show ¬ (Interface.settle { p₂ with down := false }).Carries
      rw [hs]
      exact hno _ hres
    · intro r hm hasked
      have hm' : (Interface.settle { p₂ with down := false }).mute = true := hm
      have ha' : (Interface.settle { p₂ with down := false }).asked = true := hasked
      rw [hs] at hm' ha'
      exact ⟨by simp, .inr ⟨hm', ha'⟩⟩
    · intro r _ _
      show Keeps ctx _ (some (Interface.settle { p₂ with down := false }))
      rw [hs]
      apply keeps_settle (q := { p₂ with down := false, resetting := false }) (by simp)
      · exact fun _ => rfl
      · rfl
      · rfl
      · exact hrun₂.trans (hrun₁.trans hrun)
      · rfl
      · exact h₂.asked
      · exact h₂.requested
      · exact fun _ p' hp' => hk p' hp'

/-- A decision of the rest of the system. -/
theorem keeps_branch {k : Bool → Code} (hk : ∀ r, Keeps ctx (k r) (some p)) :
  Keeps ctx (.act .branch k) (some p)
  := by
  apply keeps_act_same (by simp)
  · exact fun _ => rfl
  · exact fun r _ => hk r

/-- `ixgbevf_open` of a device that is not stopped. -/
theorem keeps_openStarted {k : Bool → Code} (hp : p.Stopped) (hres : p.resetting = false)
    (hrun : p.running = true)
    (hfail : ∀ p', p'.Stopped → p'.resetting = false → p'.running = true →
      Keeps ctx (k false) (some p'))
    (hok : ∀ p', p'.AtRest → Keeps ctx (k true) (some p')) :
  Keeps ctx (openStarted k) (some p)
  := by
  apply keeps_branch
  rintro (_ | _)
  · apply keeps_branch
    rintro (_ | _)
    · apply keeps_configure hp
      intro p₁ h₁ hres₁ hrun₁
      apply keeps_branch
      rintro (_ | _)
      · apply keeps_settle (q := { p₁ with down := false }) (by simp)
        · exact fun _ => rfl
        · rfl
        · exact hres₁.trans hres
        · exact hrun₁.trans hrun
        · rfl
        · exact h₁.asked
        · exact h₁.requested
        · exact fun _ p' hp' => hok p' hp'
      · apply keeps_reset h₁.down
        · exact fun hm => h₁.asked.trans hm
        · intro _ p₂ h₂ hres₂ hrun₂
          exact hfail p₂ h₂ (hres₂.trans (hres₁.trans hres)) (hrun₂.trans (hrun₁.trans hrun))
    · apply keeps_reset hp.down
      · exact fun _ => hp.asked
      · intro _ p₁ h₁ hres₁ hrun₁
        exact hfail p₁ h₁ (hres₁.trans hres) (hrun₁.trans hrun)
  · exact hfail p hp hres hrun

/-- `ixgbevf_open`. -/
theorem keeps_open {k : Bool → Code} (hp : p.Stopped) (hres : p.resetting = false)
    (hrun : p.running = true)
    (hfail : ∀ p', p'.Stopped → p'.resetting = false → p'.running = true →
      Keeps ctx (k false) (some p'))
    (hok : ∀ p', p'.AtRest → Keeps ctx (k true) (some p')) :
  Keeps ctx (ixgbevfOpen k) (some p)
  := by
  apply keeps_branch
  rintro (_ | _)
  · apply keeps_branch
    rintro (_ | _)
    · exact keeps_openStarted hp hres hrun hfail hok
    · apply keeps_reset hp.down
      · exact fun _ => hp.asked
      · intro _ p₁ h₁ hres₁ hrun₁
        apply keeps_branch
        rintro (_ | _)
        · exact keeps_openStarted h₁ (hres₁.trans hres) (hrun₁.trans hrun) hfail hok
        · exact hfail p₁ h₁ (hres₁.trans hres) (hrun₁.trans hrun)
  · exact hfail p hp hres hrun

/-- An interface that is down is at rest. -/
theorem Interface.Stopped.atRest (hp : p.Stopped) (hres : p.resetting = false) :
  p.AtRest
  := ⟨hres, fun _ => hp.mute, fun _ => hp.down, hp.asked⟩

/-- An interface at rest that is down is stopped. -/
theorem Interface.AtRest.stopped (hp : p.AtRest) (hd : p.down = true) :
  p.Stopped
  := ⟨hd, hp.mute hd, hp.asked⟩

/-- An action that makes a request moot, on an interface that is down. -/
theorem keeps_forget {a : Act} {k : Bool → Code} (ha : a = .released ∨ a = .rebuild) (hp : p.Stopped)
    (hk : ∀ r p', p'.Stopped → p'.resetting = p.resetting → p'.running = p.running →
      Keeps ctx (k r) (some p')) :
  Keeps ctx (.act a k) (some p)
  := by
  have hafter (r : Bool) : a.after r p = { p with requested := false } := by
    obtain rfl | rfl := ha
    · rfl
    · rfl
  apply keeps_act
  · obtain rfl | rfl := ha <;> simp
  · rintro r ⟨h, -⟩
    rw [hafter r] at h
    exact absurd (h.symm.trans hp.down) Bool.false_ne_true
  · intro r hm
    rw [hafter r] at hm
    exact absurd (hp.mute.symm.trans hm) Bool.false_ne_true
  · intro r _ _
    rw [hafter r]
    exact hk r _ ⟨hp.down, hp.mute, hp.asked⟩ rfl rfl

/-- `ixgbevf_close`. -/
theorem keeps_close (hm : p.down = true → p.mute = false) (ha : p.asked = false)
    (hk : ∀ p', p'.Stopped → p'.resetting = p.resetting → p'.running = p.running →
      Keeps ctx k (some p')) :
  Keeps ctx (ixgbevfClose k) (some p)
  := by
  apply keeps_down hm ha
  intro p₁ h₁ hres₁ hrun₁
  apply keeps_forget (.inl rfl) h₁
  intro _ p₂ h₂ hres₂ hrun₂
  exact hk p₂ h₂ (hres₂.trans hres₁) (hrun₂.trans hrun₁)

/-- New queues and interrupts for an interface that is down. -/
theorem keeps_reinitScheme (hp : p.Stopped)
    (hk : ∀ p', p'.Stopped → p'.resetting = p.resetting → p'.running = p.running →
      Keeps ctx k (some p')) :
  Keeps ctx (reinitScheme k) (some p)
  := by
  apply keeps_forget (.inr rfl) hp
  intro _ p₁ h₁ hres₁ hrun₁
  apply keeps_branch
  rintro (_ | _)
  · have hsame : ({ p₁ with down := true } : Interface) = p₁ := by
      rw [← h₁.down]
    apply keeps_act_same (by simp)
    · exact fun _ => hsame
    · exact fun _ _ => hk p₁ h₁ hres₁ hrun₁
  · exact hk p₁ h₁ hres₁ hrun₁

/-- A test whether the interface runs. -/
theorem keeps_netifRunning {k : Bool → Code} (hk : Keeps ctx (k p.running) (some p)) :
  Keeps ctx (.act .netifRunning k) (some p)
  := by
  apply keeps_act_same (by simp)
  · exact fun _ => rfl
  · intro r hr
    have hr' : r = p.running := hr
    rw [hr']
    exact hk

/-- `ixgbevf_queue_reset_subtask` under RTNL. -/
theorem keeps_resetQueues (hp : p.AtRest) (hk : Keeps ctx k none) :
  Keeps ctx (resetQueues (.unlock k)) (some p)
  := by
  -- the second half, on an interface that is down
  have hhalf (q : Interface) (hq : q.Stopped) (hres : q.resetting = false) :
      Keeps ctx (reinitScheme (.act .netifRunning fun running =>
        if running then ixgbevfOpen fun _ => .unlock k else .unlock k)) (some q) := by
    apply keeps_reinitScheme hq
    intro q₁ h₁ hres₁ hrun₁
    have hend (q' : Interface) (h : q'.AtRest) : Keeps ctx (.unlock k) (some q') := ⟨h, hk⟩
    apply keeps_netifRunning
    cases hr : q₁.running with
    | false => exact hend q₁ (h₁.atRest (hres₁.trans hres))
    | true =>
      apply keeps_open h₁ (hres₁.trans hres) hr
      · exact fun q' h hres _ => hend q' (h.atRest hres)
      · exact fun q' h => hend q' h
  apply keeps_netifRunning
  cases hr : p.running with
  | false => exact hhalf p (hp.stopped (hp.down hr)) hp.resetting
  | true =>
    apply keeps_close hp.mute hp.asked
    intro p₁ h₁ hres₁ _
    exact hhalf p₁ h₁ (hres₁.trans hp.resetting)

/-- An action of the service task without RTNL. -/
theorem keeps_outside {a : Act} {k : Bool → Code} (ha : ∀ r p, a.after r p = p)
    (hs : a = .takeQueueReset → Serving (k true)) (hk : ∀ r, Keeps .service (k r) none) :
  Keeps .service (.act a k) none
  := ⟨⟨rfl, ha, hs⟩, hk⟩

/-- The code under RTNL goes on to serve the request. -/
theorem serving_resetQueues :
  Serving (resetQueues k)
  := by
  simp [resetQueues, ixgbevfClose, ixgbevfDown, reinitScheme, Serving]

/-- `ixgbevf_queue_reset_subtask`. -/
theorem keeps_queueResetSubtask (hk : Keeps .service k none) :
  Keeps .service (queueResetSubtask k) none
  := by
  apply keeps_outside
  · exact fun _ _ => rfl
  · exact fun _ => serving_resetQueues
  · rintro (_ | _)
    · exact hk
    · apply keeps_outside (fun _ _ => rfl) (by simp)
      rintro (_ | _)
      · apply keeps_outside (fun _ _ => rfl) (by simp)
        rintro (_ | _)
        · intro p hp
          exact keeps_resetQueues hp hk
        · exact hk
      · exact hk

/-- A test of a bit under RTNL. -/
theorem keeps_testBit {b : Bit} {k : Bool → Code} (hk : ∀ r, r = p.bit b → Keeps ctx (k r) (some p)) :
  Keeps ctx (.act (.testBit b) k) (some p)
  := by
  apply keeps_act_same (by simp)
  · exact fun _ => rfl
  · exact hk

/-- `ixgbevf_reset_subtask`. -/
theorem keeps_resetSubtask (hk : Keeps .service k none) :
  Keeps .service (resetSubtask k) none
  := by
  apply keeps_outside (fun _ _ => rfl) (by simp)
  rintro (_ | _)
  · exact hk
  · intro p hp
    have hend : Keeps .service (.unlock k) (some p) := ⟨hp, hk⟩
    apply keeps_testBit
    rintro (_ | _) hr
    · apply keeps_branch
      rintro (_ | _)
      · apply keeps_testBit
        rintro (_ | _) _
        · have hd : p.down = false := hr.symm
          have hrun : p.running = true := by
            by_contra hno
            exact absurd (hd.symm.trans (hp.down (Bool.not_eq_true _ ▸ hno))) Bool.false_ne_true
          apply keeps_reinit hp hrun
          exact fun p' hp' => ⟨hp', hk⟩
        · exact hend
      · exact hend
    · exact hend

/-- The stack marks the interface as running, or as not. -/
theorem keeps_setRunning {on : Bool} {k : Bool → Code}
    (hk : ∀ r, Keeps ctx (k r) (some { p with running := on })) :
  Keeps ctx (.act (.setRunning on) k) (some p)
  := by
  rintro r _ ⟨-, -, rfl⟩
  exact ⟨⟨by simp, id, fun h => ⟨by simp, .inr h⟩⟩, hk r⟩

/-- A test of a bit by the service task, without RTNL. -/
theorem keeps_test {b : Bit} {k : Bool → Code} (hk : ∀ r, Keeps .service (k r) none) :
  Keeps .service (.act (.testBit b) k) none
  := keeps_outside (fun _ _ => rfl) (by simp) hk

/-- `ixgbevf_check_hang_subtask`. -/
theorem keeps_checkHangSubtask (hk : Keeps .service k none) :
  Keeps .service (checkHangSubtask k) none
  := by
  apply keeps_test
  rintro (_ | _)
  · exact keeps_test fun _ => hk
  · exact hk

/-- `ixgbevf_watchdog_subtask`. -/
theorem keeps_watchdogSubtask (hk : Keeps .service k none) :
  Keeps .service (watchdogSubtask k) none
  := by
  apply keeps_test
  rintro (_ | _)
  · apply keeps_test
    rintro (_ | _)
    · apply keeps_outside (fun _ _ => rfl) (by simp)
      rintro (_ | _)
      · exact hk
      · exact keeps_outside (fun _ _ => rfl) (by simp) fun _ => hk
    · exact hk
  · exact hk

/-- `ixgbevf_service_task`. -/
theorem keeps_serviceTask :
  Keeps .service serviceTask none
  := by
  have hdone : Keeps .service .done none := trivial
  apply keeps_outside (fun _ _ => rfl) (by simp)
  rintro (_ | _)
  · apply keeps_queueResetSubtask
    apply keeps_resetSubtask
    apply keeps_watchdogSubtask
    apply keeps_checkHangSubtask
    exact hdone
  · apply keeps_test
    rintro (_ | _)
    · intro p hp
      apply keeps_down hp.mute hp.asked
      intro p₁ h₁ hres₁ _
      exact ⟨h₁.atRest (hres₁.trans hp.resetting), hdone⟩
    · exact hdone

/-- The end of an operation of the stack. -/
theorem keeps_end (hp : p.AtRest) :
  Keeps ctx (.unlock .done) (some p)
  := ⟨hp, trivial⟩

/-- The stack opens the interface. -/
theorem keeps_devOpen :
  Keeps ctx devOpen none
  := by
  intro p hp
  apply keeps_netifRunning
  cases hr : p.running with
  | true => exact keeps_end hp
  | false =>
    have hs : p.Stopped := hp.stopped (hp.down hr)
    apply keeps_setRunning
    intro _
    apply keeps_open (p := { p with running := true }) ⟨hs.down, hs.mute, hs.asked⟩ hp.resetting rfl
    · intro q hq hres _
      apply keeps_setRunning
      intro _
      exact keeps_end ⟨hres, fun _ => hq.mute, fun _ => hq.down, hq.asked⟩
    · exact fun q hq => keeps_end hq

/-- The stack closes the interface. -/
theorem keeps_devClose :
  Keeps ctx devClose none
  := by
  intro p hp
  apply keeps_netifRunning
  cases hr : p.running with
  | false => exact keeps_end hp
  | true =>
    apply keeps_setRunning
    intro _
    apply keeps_close (p := { p with running := false }) hp.mute hp.asked
    intro q hq hres _
    exact keeps_end (hq.atRest (hres.trans hp.resetting))

/-- The interface is reinitialised if it runs. -/
theorem keeps_devReinit :
  Keeps ctx devReinit none
  := by
  intro p hp
  apply keeps_netifRunning
  cases hr : p.running with
  | false => exact keeps_end hp
  | true => exact keeps_reinit hp hr fun _ h => keeps_end h

/-- The code of every entry keeps the rules. -/
theorem keeps_entry (entry : Entry) :
  Keeps entry.ctx entry.code none
  := by
  cases entry with
  | serviceTask => exact keeps_serviceTask
  | devOpen => exact keeps_devOpen
  | devClose => exact keeps_devClose
  | devReinit => exact keeps_devReinit

/-! ### Runs -/

namespace State

/-- The contexts keep the rules, and a request that matters is owed. -/
structure Lawful (s : State) : Prop where
  contexts : s.contexts.Lawful rules s.interface
  marked : s.interface.Marked
  owed : s.interface.Watched → s.Owed

/-- Nothing runs at the start. -/
theorem lawful_start :
  start.Lawful
  := by
  constructor
  · apply Contexts.lawful_idle
    intro _
    exact ⟨rfl, fun _ => rfl, fun _ => rfl, rfl⟩
  · rintro ⟨⟩
  · rintro ⟨⟨⟩, -⟩

variable {s : State} {ctx : Ctx} {r : Bool}

/-- A context that goes on with its code. -/
theorem serving_goOn {t : Contexts Ctx Act} {c : Ctx} {k : Code}
    (hk : c = .service → Serving (t.prog c) → Serving k) (h : Serving (t.prog .service)) :
  Serving ((t.goOn c k).prog .service)
  := by
  cases c with
  | service =>
    rw [Contexts.prog_goOn_self]
    exact hk rfl h
  | other =>
    rw [Contexts.prog_goOn_ne (by simp)]
    exact h

/-- Code that serves a request goes on to serve it after an action that is neither the end nor a
loss of it. -/
theorem serving_next {a : Act} {k : Bool → Code}
    (hg : ∀ b, a = .giveUpIf b → r = false) (hb : a ≠ .rebuild) (h : Serving (.act a k)) :
  Serving (k r)
  := by
  cases a with
  | giveUpIf b =>
    rw [hg b rfl]
    exact h
  | rebuild => exact absurd rfl hb
  | takeQueueReset => exact h.elim
  | _ =>
    cases r with
    | false => exact h.2
    | true => exact h.1

/-- Only `ixgbevf_queue_reset_subtask` clears the request. -/
theorem queueReset_act {a : Act} {k : Code} (ha : a ≠ .takeQueueReset) (h : s.queueReset = true) :
  (s.act ctx a r k).queueReset = true
  := by
  cases a with
  | takeQueueReset => exact absurd rfl ha
  | requestQueueReset => rfl
  | _ => exact h

/-- A context starts. -/
theorem Lawful.enter (h : s.Lawful) {entry : Entry} (hm : s.May (.enter entry)) :
  (s.next (.enter entry)).Lawful
  := by
  have hdone : s.contexts.prog entry.ctx = .done := isDone_iff.mp hm
  constructor
  · exact h.contexts.goOn (h.contexts.not_holder hdone) (keeps_entry entry)
  · exact h.marked
  · intro hw
    apply (h.owed hw).imp id
    apply serving_goOn
    intro _ hs
    rw [hdone] at hs
    exact hs.elim

/-- The holder of RTNL acts. -/
theorem Lawful.act_inside (h : s.Lawful) (hh : s.contexts.holder = some ctx) {a : Act}
    {k : Bool → Code} (hp : s.contexts.prog ctx = .act a k) (hans : s.Answers a r)
    (hskip : a = .reset → r = false → s.interface.mute = false) :
  (s.act ctx a r (k r)).Lawful
  := by
  have heffect : (rules ctx).effect a s.interface r (a.after r s.interface) :=
    ⟨hans.1, hskip, rfl⟩
  obtain ⟨⟨⟨htake, hgive⟩, hmarked, hwatched⟩, hlaw⟩ := h.contexts.along hh hp heffect
  constructor
  · exact hlaw
  · exact hmarked h.marked
  · intro hw
    obtain ⟨hne, rfl | hw⟩ := hwatched hw
    · exact .inl rfl
    · obtain hq | hs := h.owed hw
      · exact .inl (queueReset_act htake hq)
      · apply Or.inr
        apply serving_goOn _ hs
        rintro - hs
        rw [hp] at hs
        exact serving_next (fun b hb => absurd hb (hgive b)) hne hs

/-- The service task acts without RTNL. -/
theorem Lawful.act_outside (h : s.Lawful) (hh : s.contexts.holder ≠ some ctx) {a : Act}
    {k : Bool → Code} (hp : s.contexts.prog ctx = .act a k) (hans : s.Answers a r)
    (hgive : ∀ b, a = .giveUpIf b → r = true → s.interface.asked → s.interface.mute →
      s.queueReset) :
  (s.act ctx a r (k r)).Lawful
  := by
  obtain ⟨⟨rfl, hafter, htake⟩, hlaw⟩ := h.contexts.outside hh hp
  have hsame : (s.act .service a r (k r)).interface = s.interface := hafter r s.interface
  have hprog : (s.act .service a r (k r)).contexts.prog .service = k r := Contexts.prog_goOn_self
  have hne : a ≠ .rebuild := by
    rintro rfl
    have hreq := congrArg Interface.requested (hafter r ⟨false, false, false, false, true, false⟩)
    cases hreq
  constructor
  · rw [hsame]
    exact hlaw r
  · rw [hsame]
    exact h.marked
  · rw [hsame]
    intro hw
    by_cases hta : a = .takeQueueReset
    · subst hta
      -- either the request was there and is served from now on, or it was not owed
      cases r with
      | true => exact .inr (hprog ▸ htake rfl)
      | false =>
        obtain hq | hs := h.owed hw
        · have hq' : false = s.queueReset := hans.2.1 rfl
          exact absurd (hq'.trans hq) Bool.false_ne_true
        · rw [hp] at hs
          exact hs.elim
    · have hkeep (hq : s.queueReset = true) : (s.act .service a r (k r)).Owed :=
        .inl (queueReset_act hta hq)
      obtain hq | hs := h.owed hw
      · exact hkeep hq
      · rw [hp] at hs
        by_cases hgu : ∃ b, a = .giveUpIf b ∧ r = true
        · obtain ⟨b, rfl, rfl⟩ := hgu
          have hbit : true = s.interface.bit b := hans.1
          obtain ⟨hm, hasked | hc⟩ := hw
          · exact hkeep (hgive b rfl rfl hasked hm)
          · exact absurd hc (not_carries hbit.symm)
        · apply Or.inr
          rw [hprog]
          apply serving_next _ hne hs
          intro b hb
          by_contra hr
          exact hgu ⟨b, hb, Bool.not_eq_false _ ▸ hr⟩

/-- A step of a context. -/
theorem Lawful.go (h : s.Lawful) (ht : s.InTime r (s.contexts.prog ctx))
    (hm : s.CanGo r (s.contexts.prog ctx)) :
  (s.gone ctx r (s.contexts.prog ctx)).Lawful
  := by
  cases hp : s.contexts.prog ctx with
  | done => exact h
  | lock k =>
    rw [hp] at hm
    constructor
    · exact h.contexts.take hp hm
    · exact h.marked
    · intro hw
      apply (h.owed hw).imp id
      apply serving_goOn (t := s.contexts)
      rintro - hs
      rw [hp] at hs
      exact hs
  | unlock k =>
    constructor
    · exact h.contexts.give (fun _ _ => id) hp
    · exact h.marked
    · intro hw
      apply (h.owed hw).imp id
      apply serving_goOn (t := s.contexts)
      rintro - hs
      rw [hp] at hs
      exact hs
  | act a k =>
    rw [hp] at hm ht
    by_cases hh : s.contexts.holder = some ctx
    · apply h.act_inside hh hp hm
      rintro rfl
      exact ht
    · apply h.act_outside hh hp hm
      rintro b rfl
      exact ht

/-- In every run that keeps to the condition no request that matters is dropped. -/
theorem reachable_kept (h : system.Reachable Timely s) :
  s.Kept
  := by
  have hlaw : s.Lawful := by
    refine h.invariant (I := Lawful) ?_ ?_
    · rintro _ rfl
      exact lawful_start
    · rintro s e _ h ht ⟨hm, rfl⟩
      cases e with
      | enter entry => exact h.enter hm
      | go ctx r => exact h.go ht hm
  constructor
  · intro hr hc
    exact hlaw.owed ⟨hlaw.marked hr hc, .inr hc⟩
  · intro hs
    have hn : s.contexts.holder = none := by
      by_contra hne
      obtain ⟨ctx, hctx⟩ := Option.ne_none_iff_exists'.mp hne
      exact hlaw.contexts.not_holder (hs.done ctx) hctx
    have hrest : s.interface.AtRest := hlaw.contexts.order hn .service
    obtain hq | hq := hlaw.owed ⟨hs.mute, .inr ⟨hs.up, hrest.resetting⟩⟩
    · exact absurd (hs.queueReset.symm.trans hq) Bool.false_ne_true
    · rw [hs.done .service] at hq
      exact hq

/-! ### A request that is dropped -/

instance (s : State) (r : Bool) : (k : Code) → Decidable (s.CanGo r k)
  | .done => isFalse id
  | .lock _ => inferInstanceAs (Decidable (s.contexts.holder = none))
  | .unlock _ => isTrue trivial
  | .act a _ => inferInstanceAs (Decidable (s.Answers a r))

instance (s : State) : (e : Event) → Decidable (s.May e)
  | .enter entry => inferInstanceAs (Decidable ((s.contexts.prog entry.ctx).isDone = true))
  | .go ctx r => inferInstanceAs (Decidable (s.CanGo r (s.contexts.prog ctx)))

instance (s : State) (r : Bool) : (k : Code) → Decidable (s.InTime r k)
  | .done | .lock _ | .unlock _ => isTrue trivial
  | .act a _ =>
    match a with
    | .giveUpIf _ => inferInstanceAs (Decidable (r = true → s.interface.asked = true →
        s.interface.mute = true → s.queueReset = true))
    | .reset => inferInstanceAs (Decidable (r = false → s.interface.mute = false))
    | .testBit _ | .testAndSetDown | .setDown | .clearDown | .spinResetting | .clearResetting
    | .takeQueueReset | .takeReset | .requestQueueReset | .requestReset | .getQueues
    | .forceTimeout | .netifRunning | .setRunning _ | .released | .rebuild | .branch => isTrue trivial

instance (s : State) : (e : Event) → Decidable (s.Timely e)
  | .enter _ => isTrue trivial
  | .go ctx r => inferInstanceAs (Decidable (s.InTime r (s.contexts.prog ctx)))

/-- The interface is opened.  The service task has started when a reinitialisation finds other
queues; it takes the request away while the interface is down. -/
def dropping : List Event :=
  .enter .devOpen :: List.replicate 11 (.go .other false)
    ++ [.enter .serviceTask, .go .service false, .enter .devReinit, .go .other false,
      .go .other true, .go .other false, .go .other false, .go .other true, .go .other true,
      .go .other false, .go .other false, .go .service true, .go .service true,
      .go .service false, .go .service true, .go .service true, .go .other false,
      .go .other false, .go .other false]

/-- The adapter after that. -/
def dropped : State := dropping.foldl next start

/-- The adapter is left without a mailbox, and the request is not served. -/
theorem dropped_stranded :
  ∃ s, system.Reachable TransSystem.always s ∧ s.Stranded ∧ s.interface.requested
    ∧ s.interface.Carries ∧ ¬ s.Owed
  := by
  have hrun : TransSystem.AllAlong May next start dropping := by decide +kernel
  have hservice : dropped.contexts.prog .service = .done := isDone_iff.mp (by decide +kernel)
  have hother : dropped.contexts.prog .other = .done := isDone_iff.mp (by decide +kernel)
  have hbits : dropped.interface = ⟨false, false, true, true, true, false⟩ := by decide +kernel
  have hq : dropped.queueReset = false := by decide +kernel
  have hr : dropped.resetRequested = false := by decide +kernel
  refine ⟨dropped, ?_, ?_, ?_, ?_, ?_⟩
  · apply TransSystem.Reachable.foldl (P := May) _ (.init rfl) hrun
    exact fun _ _ h => ⟨trivial, h, rfl⟩
  · constructor
    · rintro (_ | _)
      · exact hservice
      · exact hother
    · rw [hbits]
    · rw [hbits]
    · exact hq
    · exact hr
  · rw [hbits]
  · rw [hbits]
    decide
  · rintro (h | h)
    · exact Bool.false_ne_true (hq.symm.trans h)
    · rw [hservice] at h
      exact h

/-- The interface is opened with the wrong queues, and the service task sets them up anew. -/
def serving : List Event :=
  .enter .devOpen :: List.replicate 7 (.go .other false) ++ .go .other true
    :: List.replicate 5 (.go .other false)
    ++ [.enter .serviceTask, .go .service false, .go .service true, .go .service false,
      .go .service false, .go .service false, .go .service true, .go .service false,
      .go .service true, .go .service false, .go .service false, .go .service false,
      .go .service false, .go .service true]
    ++ List.replicate 14 (.go .service false)

/-- A request that is served in time. -/
theorem serving_kept :
  State.Kept (serving.foldl next start)
  := by
  have hrun : TransSystem.AllAlong (fun s e => Timely s e ∧ May s e) next start serving := by
    decide +kernel
  apply reachable_kept
  apply TransSystem.Reachable.foldl _ (.init rfl) hrun
  exact fun _ _ h => ⟨h.1, h.2, rfl⟩

end State

end Ixgbevf.Service
