import Ixgbevf.Lib.Latch
import Ixgbevf.Lib.Run
import Ixgbevf.Link

/-!
# The watchdog, the link interrupt and the carrier

`ixgbevf_watchdog_subtask` tests that the interface is up, checks the link, and turns the carrier on
or off.  It holds no lock of the network stack: between any two of its steps the link may change, the
interrupt may set `mac->get_link_status`, and the interface may go down or come up.  A check that has
seen the link up clears `mac->get_link_status` a while later, and with it what an interrupt has said
in between.
-/

namespace Ixgbevf.Carrier

open StateProgram

/-! ### One call of the link check -/

/-- Where a call of `ixgbe_check_mac_link_vf` is. -/
inductive Check where
  /-- Before `check_for_rst`. -/
  | rst
  /-- Before the first test of `mac->get_link_status`. -/
  | test
  /-- Before the reply to `ixgbevf_get_pf_link_state`. -/
  | askPf
  /-- Before a read of the link register, and so many after it. -/
  | readLinks (n : ℕ)
  /-- Before the read of the link register whose outcome is not looked at. -/
  | fallBack
  /-- Before the read of the mailbox. -/
  | readMail
  /-- Before `mac->get_link_status` is cleared. -/
  | clear
  /-- At the label `out`. -/
  | out
  /-- It has returned with this `*link_up`. -/
  | returned (up : Bool)
  deriving DecidableEq, Repr

/-- How a step of a check turns out. -/
inductive Answer where
  | yes
  | no
  | error
  deriving DecidableEq, Repr

namespace Check

/-- The reads of the link register after the first one. -/
def rereads (type : MacType) : ℕ := if type = .mac82599Vf then 5 else 0

/-- Where a call is after a step. -/
def next (type : MacType) (api : ApiVersion) (flag : Bool) : Check → Answer → Check
  | .rst, _ => .test
  | .test, _ =>
    if ¬ flag then .out
    else if type ≠ .macE610Vf then .readLinks (rereads type)
    else if api.hasLinkState then .askPf
    else .fallBack
  | .askPf, .yes => .readMail
  | .askPf, .no => .out
  | .askPf, .error => .returned false
  | .readLinks (n + 1), .yes => .readLinks n
  | .readLinks 0, .yes => .readMail
  | .readLinks _, _ => .out
  | .fallBack, _ => .readMail
  | .readMail, .yes => .clear
  | .readMail, _ => .out
  | .clear, _ => .out
  | .out, _ => .returned !flag
  | .returned up, _ => .returned up

/-- `mac->get_link_status` after a step. -/
def mark (flag : Bool) : Check → Answer → Bool
  | .rst, .yes => true
  | .clear, _ => false
  | _, _ => flag

/-- The call has seen the link up, and may clear `mac->get_link_status`. -/
def seen : Check → Bool
  | .readMail | .clear => true
  | _ => false

/-- The link register and the PF tell the truth. -/
def Truthful (link : Bool) : Check → Answer → Prop
  | .askPf, a => a = .error ∨ a = if link then .yes else .no
  | .readLinks _, a | .fallBack, a => a = if link then .yes else .no
  | _, _ => True

instance (link : Bool) : (c : Check) → (a : Answer) → Decidable (Truthful link c a)
  | .askPf, a => inferInstanceAs (Decidable (a = .error ∨ a = if link then .yes else .no))
  | .readLinks _, a | .fallBack, a =>
    inferInstanceAs (Decidable (a = if link then Answer.yes else .no))
  | .rst, _ | .test, _ | .readMail, _ | .clear, _ | .out, _ | .returned _, _ => isTrue trivial

/-- The call takes a link for up that is down: it reads the link register where it cannot ask the
PF. -/
def Blind (c : Check) (a : Answer) : Prop := c = .fallBack ∧ a ≠ .yes

instance (c : Check) (a : Answer) : Decidable (Blind c a) := instDecidableAnd

variable {link flag : Bool} {c : Check} {a : Answer}

/-- A step sees the link up, or sets the flag, perhaps, or clears it having seen the link up. -/
theorem next_cases (type : MacType) (api : ApiVersion) (flag : Bool) (htrue : Truthful link c a)
    (hblind : ¬ Blind c a) :
  c.seen = true
    ∨ (flag = true → c.mark flag a = true)
      ∧ ((c.next type api flag a).seen = true → c.seen = true ∨ link = true)
  := by
  have hlook (h : a = if link then Answer.yes else .no) (hyes : a = .yes) : link = true := by
    cases link with
    | true => rfl
    | false => exact Answer.noConfusion (hyes.symm.trans h)
  cases c with
  | readMail | clear => exact .inl rfl
  | rst =>
    refine .inr ⟨fun hflag => ?_, fun hseen => by cases hseen⟩
    cases a with
    | yes => rfl
    | no | error => exact hflag
  | test =>
    refine .inr ⟨id, fun hseen => ?_⟩
    unfold next at hseen
    split_ifs at hseen <;> cases hseen
  | askPf =>
    refine .inr ⟨id, fun hseen => .inr ?_⟩
    cases a with
    | yes =>
      obtain hno | hlooked := htrue
      · cases hno
      · exact hlook hlooked rfl
    | no | error => cases hseen
  | readLinks n =>
    refine .inr ⟨id, fun hseen => .inr ?_⟩
    cases a with
    | yes => exact hlook htrue rfl
    | no | error => cases n <;> cases hseen
  | fallBack =>
    refine .inr ⟨id, fun _ => .inr ?_⟩
    exact hlook htrue (by_contra fun hno => hblind ⟨rfl, hno⟩)
  | out => exact .inr ⟨id, fun hseen => by cases hseen⟩
  | returned up => exact .inr ⟨id, fun hseen => by cases hseen⟩

/-- While the flag is set, a call that has not seen the link up does not report it up. -/
theorem next_fruitless {type : MacType} {api : ApiVersion} (hflag : flag = true)
    (hseen : c.seen = false) (hup : c ≠ .returned true) :
  c.next type api flag a ≠ .returned true
  := by
  subst hflag
  cases c with
  | test =>
    unfold next
    split_ifs <;> exact Check.noConfusion
  | readLinks n =>
    cases n with
    | zero => cases a <;> exact Check.noConfusion
    | succ n => cases a <;> exact Check.noConfusion
  | readMail | clear => cases hseen
  | returned up => exact hup
  | out =>
    intro h
    cases h
  | askPf =>
    cases a with
    | error =>
      intro h
      cases h
    | yes | no => exact Check.noConfusion
  | rst | fallBack => exact Check.noConfusion

end Check

/-! ### The watchdog and the interface -/

/-- Where `ixgbevf_watchdog_subtask` is. -/
inductive Pass where
  /-- Not called. -/
  | idle
  /-- Before the test of `__IXGBEVF_DOWN`. -/
  | testDown
  /-- Before the test of `__IXGBEVF_RESETTING`. -/
  | testResetting
  /-- In `ixgbevf_watchdog_update_link`. -/
  | check (c : Check)
  /-- Before `netif_carrier_on`. -/
  | turnOn
  /-- Before `netif_carrier_off`. -/
  | turnOff
  deriving DecidableEq, Repr

/-- Its call of `ixgbe_check_mac_link_vf`. -/
def Pass.inCheck : Pass → Option Check
  | .check c => some c
  | _ => none

/-- Where `ixgbevf_down` and `ixgbevf_up_complete` are. -/
inductive Stage where
  /-- The interface is up. -/
  | up
  /-- `__IXGBEVF_DOWN` is set, and the carrier is as it was. -/
  | stopping
  /-- `ixgbevf_down` has turned the carrier off. -/
  | down
  /-- `ixgbevf_up_complete` has cleared `__IXGBEVF_DOWN`. -/
  | starting
  /-- It has cleared the pending interrupts, and not set `mac->get_link_status`. -/
  | started
  deriving DecidableEq, Repr

/-- `__IXGBEVF_DOWN`. -/
def Stage.isDown : Stage → Bool
  | .stopping | .down => true
  | _ => false

/-- The link, its interrupt, and what the driver knows of them. -/
structure State where
  /-- The link is up. -/
  link : Bool
  /-- Its interrupt is on the way. -/
  irq : Bool
  /-- `mac->get_link_status`. -/
  flag : Bool
  /-- `hw->api_version`. -/
  api : ApiVersion
  /-- `netif_carrier_ok`. -/
  carrier : Bool
  /-- `adapter->link_state`. -/
  enabled : Bool
  /-- `__IXGBEVF_RESETTING`. -/
  resetting : Bool
  /-- The interface. -/
  stage : Stage
  /-- The watchdog. -/
  pass : Pass
  /-- The check of `ixgbevf_link_test`. -/
  linkTest : Option Check

/-- What happens. -/
inductive Event where
  /-- The link changes. -/
  | linkTo (up : Bool)
  /-- `ixgbevf_msix_other`. -/
  | interrupt
  /-- `ixgbevf_service_task` calls `ixgbevf_watchdog_subtask`. -/
  | watchdog
  /-- It does its next step. -/
  | go (a : Answer)
  /-- `ixgbevf_link_test` checks the link. -/
  | test
  /-- Its check does its next step. -/
  | goTest (a : Answer)
  /-- `ixgbevf_negotiate_api`. -/
  | negotiate (api : ApiVersion)
  /-- `ixgbevf_reinit_locked` sets `__IXGBEVF_RESETTING`, or clears it. -/
  | setResetting (on : Bool)
  /-- `ixgbevf_down` sets `__IXGBEVF_DOWN`. -/
  | setDown
  /-- `ixgbevf_down` turns the carrier off. -/
  | carrierOff
  /-- `ixgbevf_open` turns the carrier off. -/
  | openOff
  /-- `get_link_state` in `ixgbevf_up_complete`. -/
  | getLinkState (on : Bool)
  /-- `ixgbevf_up_complete` clears `__IXGBEVF_DOWN`. -/
  | clearDown
  /-- It reads `VTEICR`. -/
  | readEicr
  /-- It sets `mac->get_link_status`. -/
  | setFlag
  deriving DecidableEq, Repr

namespace State

/-- Where the watchdog is after its next step. -/
def nextPass (type : MacType) (s : State) (a : Answer) : Pass :=
  match s.pass with
  | .testDown => if s.stage.isDown then .idle else .testResetting
  | .testResetting => if s.resetting then .idle else .check .rst
  | .check (.returned up) =>
    -- an error of the check ten seconds after the last reset takes the link for down
    if up ∧ a ≠ .error ∧ s.enabled then
      if s.carrier then .idle else .turnOn
    else
      if s.carrier then .turnOff else .idle
  | .check c => .check (c.next type s.api s.flag a)
  | .idle | .turnOn | .turnOff => .idle

/-- The carrier after that. -/
def nextCarrier (s : State) : Bool :=
  match s.pass with
  | .turnOn => true
  | .turnOff => false
  | _ => s.carrier

/-- `mac->get_link_status` after a step of a check, if it is one. -/
def nextFlag (s : State) (check : Option Check) (a : Answer) : Bool :=
  check.elim s.flag fun c => c.mark s.flag a

/-- When an event may happen. -/
def May (s : State) : Event → Prop
  | .linkTo up => up ≠ s.link
  | .interrupt => s.irq = true
  | .watchdog => s.pass = .idle
  | .go a => s.pass ≠ .idle ∧ ∀ c ∈ s.pass.inCheck, c.Truthful s.link a
  | .test => s.linkTest = none
  | .goTest a => ∀ c ∈ s.linkTest, c.Truthful s.link a
  | .negotiate _ => True
  | .setResetting on => on = !s.resetting
  | .setDown => s.stage = .up
  | .carrierOff => s.stage = .stopping
  | .openOff | .getLinkState _ | .clearDown => s.stage = .down
  | .readEicr => s.stage = .starting
  | .setFlag => s.stage = .started

instance (s : State) : (e : Event) → Decidable (s.May e)
  | .linkTo up => inferInstanceAs (Decidable (up ≠ s.link))
  | .interrupt => inferInstanceAs (Decidable (s.irq = true))
  | .watchdog => inferInstanceAs (Decidable (s.pass = .idle))
  | .go a =>
    inferInstanceAs (Decidable (s.pass ≠ .idle ∧ ∀ c ∈ s.pass.inCheck, c.Truthful s.link a))
  | .test => inferInstanceAs (Decidable (s.linkTest = none))
  | .goTest a => inferInstanceAs (Decidable (∀ c ∈ s.linkTest, c.Truthful s.link a))
  | .negotiate _ => isTrue trivial
  | .setResetting on => inferInstanceAs (Decidable (on = !s.resetting))
  | .setDown => inferInstanceAs (Decidable (s.stage = .up))
  | .carrierOff => inferInstanceAs (Decidable (s.stage = .stopping))
  | .openOff | .getLinkState _ | .clearDown => inferInstanceAs (Decidable (s.stage = .down))
  | .readEicr => inferInstanceAs (Decidable (s.stage = .starting))
  | .setFlag => inferInstanceAs (Decidable (s.stage = .started))

/-- The check of `ixgbevf_link_test` after a step. -/
def nextTest (type : MacType) (s : State) (a : Answer) : Option Check :=
  match s.linkTest with
  | some (.returned _) | none => none
  | some c => some (c.next type s.api s.flag a)

/-- The state after an event. -/
def apply (type : MacType) (s : State) : Event → State
  | .linkTo up => { s with link := up, irq := true }
  | .interrupt => { s with irq := false, flag := true }
  | .watchdog => { s with pass := .testDown }
  | .go a =>
    { s with
      pass := s.nextPass type a
      carrier := s.nextCarrier
      flag := s.nextFlag s.pass.inCheck a }
  | .test => { s with linkTest := some .rst }
  | .goTest a =>
    { s with linkTest := s.nextTest type a, flag := s.nextFlag s.linkTest a }
  | .negotiate api => { s with api := api }
  | .setResetting on => { s with resetting := on }
  | .setDown => { s with stage := .stopping }
  | .carrierOff => { s with stage := .down, carrier := false }
  | .openOff => { s with carrier := false }
  | .getLinkState on => { s with enabled := on }
  | .clearDown => { s with stage := .starting }
  | .readEicr => { s with stage := .started, irq := false }
  | .setFlag => { s with stage := .up, flag := true }

end State

/-- The runs of the driver, from a state that `ixgbevf_probe` leaves. -/
def system (type : MacType) : TransSystem State Event where
  init s := s.stage = .down ∧ s.carrier = false ∧ s.resetting = false ∧ s.pass = .idle
    ∧ s.linkTest = none
  step s e s' := s.May e ∧ s' = s.apply type e

/-! ### The flag -/

/-- Who checks the link. -/
inductive Reader where
  | watchdog
  | linkTest
  deriving DecidableEq, Repr

namespace State

/-- What the flag stands for. -/
def latch (s : State) : Latch Reader where
  level := s.link
  pending := s.irq
  flag := s.flag
  seen
    | .watchdog => s.pass.inCheck.elim false Check.seen
    | .linkTest => s.linkTest.elim false Check.seen

/-- A check reads a link register that says that the link is down, where it does not look at that. -/
def Blind (s : State) : Event → Prop
  | .go a => ∃ c ∈ s.pass.inCheck, c.Blind a
  | .goTest a => ∃ c ∈ s.linkTest, c.Blind a
  | _ => False

/-- An interrupt for a link that is down is taken while a check that has seen it up is about to clear
the flag. -/
def Overlooked (s : State) : Event → Prop
  | .interrupt | .readEicr => ¬ s.latch.Heeded
  | _ => False

/-- The condition on an event. -/
def Heeds (s : State) (e : Event) : Prop := ¬ s.Blind e ∧ ¬ s.Overlooked e

instance (s : State) : Decidable s.latch.Heeded :=
  decidable_of_iff
    (s.link = true
      ∨ s.latch.seen .watchdog = false ∧ s.latch.seen .linkTest = false)
    ⟨fun h => h.imp_right fun h r => by
      cases r with
      | watchdog => exact h.1
      | linkTest => exact h.2,
    fun h => h.imp_right fun h => ⟨h _, h _⟩⟩

instance (s : State) : (e : Event) → Decidable (s.Blind e)
  | .go a => inferInstanceAs (Decidable (∃ c ∈ s.pass.inCheck, c.Blind a))
  | .goTest a => inferInstanceAs (Decidable (∃ c ∈ s.linkTest, c.Blind a))
  | .linkTo _ | .interrupt | .watchdog | .test | .negotiate _ | .setResetting _ | .setDown
  | .carrierOff | .openOff | .getLinkState _ | .clearDown | .readEicr | .setFlag => isFalse id

instance (s : State) : (e : Event) → Decidable (s.Overlooked e)
  | .interrupt | .readEicr => inferInstanceAs (Decidable (¬ s.latch.Heeded))
  | .go _ | .goTest _ | .linkTo _ | .watchdog | .test | .negotiate _ | .setResetting _ | .setDown
  | .carrierOff | .openOff | .getLinkState _ | .clearDown | .setFlag => isFalse id

instance (s : State) (e : Event) : Decidable (s.Heeds e) := instDecidableAnd

end State

variable {type : MacType} {s s' : State} {e : Event}

/-- The step of a check moves the latch, if it is one. -/
theorem Check.moves {api : ApiVersion} {check : Option Check} {a : Answer} {L L' : Latch Reader}
    {r : Reader} (htrue : ∀ c ∈ check, c.Truthful L.level a) (hblind : ¬ ∃ c ∈ check, c.Blind a)
    (hlevel : L'.level = L.level) (hpending : L'.pending = L.pending)
    (hflag : L'.flag = check.elim L.flag fun c => c.mark L.flag a)
    (hseen : L.seen r = check.elim false Check.seen)
    (hseen' : L'.seen r = true → ∃ c ∈ check, (c.next type api L.flag a).seen = true)
    (hother : ∀ r', r' ≠ r → L'.seen r' = L.seen r') :
  L.Moves L'
  := by
  cases check with
  | none =>
    refine .goes hlevel hpending (fun h => hflag.trans h) fun r' hr => .inl ?_
    by_cases hw : r' = r
    · subst hw
      obtain ⟨c, hc, -⟩ := hseen' hr
      cases hc
    · rwa [hother r' hw] at hr
  | some c =>
    have hblind' : ¬ c.Blind a := fun h => hblind ⟨c, rfl, h⟩
    obtain hc | ⟨hmark, hnew⟩ := Check.next_cases type api L.flag (htrue c rfl) hblind'
    · refine .clears r (hseen.trans hc) hlevel hpending fun r' hr => ?_
      by_cases hw : r' = r
      · rw [hw, hseen]
        exact hc
      · rwa [hother r' hw] at hr
    · refine .goes hlevel hpending (fun h => hflag.trans (hmark h)) fun r' hr => ?_
      by_cases hw : r' = r
      · subst hw
        obtain ⟨c', hc', hnext⟩ := hseen' hr
        cases hc'
        rw [hseen]
        exact hnew hnext
      · rw [hother r' hw] at hr
        exact .inl hr

/-- A pass that has seen the link up after a step was in a check before. -/
theorem nextPass_seen {a : Answer}
    (h : (s.nextPass type a).inCheck.elim false Check.seen = true) :
  ∃ c ∈ s.pass.inCheck, (c.next type s.api s.flag a).seen = true
  := by
  unfold State.nextPass at h
  cases hp : s.pass with
  | check c =>
    rw [hp] at h
    cases c with
    | returned up =>
      dsimp only at h
      split_ifs at h <;> cases h
    | _ => exact ⟨_, rfl, h⟩
  | _ =>
    rw [hp] at h
    dsimp only at h
    first
      | cases h
      | split at h <;> cases h

/-- So it is with the check of `ixgbevf_link_test`. -/
theorem nextTest_seen {a : Answer} (h : (s.nextTest type a).elim false Check.seen = true) :
  ∃ c ∈ s.linkTest, (c.next type s.api s.flag a).seen = true
  := by
  unfold State.nextTest at h
  cases hp : s.linkTest with
  | none =>
    rw [hp] at h
    cases h
  | some c =>
    rw [hp] at h
    cases c with
    | returned up => cases h
    | _ => exact ⟨_, rfl, h⟩

/-- An event moves the latch, except the read of `VTEICR`, which throws an interrupt away. -/
theorem step_moves (hG : s.Heeds e) (hstep : (system type).step s e s') (hread : e ≠ .readEicr) :
  s.latch.Moves s'.latch
  := by
  obtain ⟨hmay, rfl⟩ := hstep
  cases e with
  | readEicr => exact absurd rfl hread
  | go a =>
    refine Check.moves (r := .watchdog) hmay.2 hG.1 rfl rfl rfl rfl nextPass_seen fun r hr => ?_
    cases r with
    | watchdog => exact absurd rfl hr
    | linkTest => rfl
  | goTest a =>
    refine Check.moves (r := .linkTest) hmay hG.1 rfl rfl rfl rfl nextTest_seen fun r hr => ?_
    cases r with
    | watchdog => rfl
    | linkTest => exact absurd rfl hr
  | linkTo up => exact .changes hmay rfl rfl rfl
  | interrupt => exact .arrives (not_not.mp hG.2) rfl rfl rfl
  | setFlag => exact .goes rfl rfl (fun _ => rfl) fun _ hr => .inl hr
  | watchdog =>
    refine .goes rfl rfl id fun r hr => .inl ?_
    cases r with
    | watchdog => cases hr
    | linkTest => exact hr
  | test =>
    refine .goes rfl rfl id fun r hr => .inl ?_
    cases r with
    | watchdog => exact hr
    | linkTest => cases hr
  | negotiate | setResetting | setDown | carrierOff | openOff | getLinkState | clearDown =>
    exact .goes rfl rfl id fun _ hr => .inl hr

/-- The flag is not lost. -/
structure Inv (s : State) : Prop where
  /-- No check is caught out. -/
  sound : s.latch.Sound
  /-- While the interface is up, the flag is set again whenever it has to be. -/
  alert : s.stage = .up → s.latch.Alert

/-- Every event keeps that. -/
theorem step_inv (h : Inv s) (hG : s.Heeds e) (hstep : (system type).step s e s') :
  Inv s'
  := by
  by_cases hread : e = .readEicr
  · subst hread
    obtain ⟨hmay, rfl⟩ := hstep
    have hdrops : s.latch.Drops (s.apply type .readEicr).latch := ⟨not_not.mp hG.2, rfl, rfl⟩
    exact ⟨hdrops.sound, fun hup => by cases hup⟩
  · have hmoves := step_moves hG hstep hread
    refine ⟨hmoves.sound h.sound, fun hup => ?_⟩
    by_cases hflag : e = .setFlag
    · subst hflag
      obtain ⟨-, rfl⟩ := hstep
      exact .inr (.inr rfl)
    · have hwas : s.stage = .up := by
        obtain ⟨-, rfl⟩ := hstep
        cases e with
        | setFlag => exact absurd rfl hflag
        | readEicr => exact absurd rfl hread
        | setDown | carrierOff | clearDown => cases hup
        | _ => exact hup
      exact hmoves.alert h.sound (h.alert hwas)

/-- It holds in every run in which no interrupt is overlooked. -/
theorem reachable_inv (h : (system type).Reachable State.Heeds s) :
  Inv s
  := by
  refine TransSystem.Reachable.invariant ?_ (fun _ _ _ => step_inv) h
  rintro s ⟨hstage, -, -, hpass, htest⟩
  constructor
  · intro r hr
    cases r with
    | watchdog =>
      have hr : s.pass.inCheck.elim false Check.seen = true := hr
      rw [hpass] at hr
      cases hr
    | linkTest =>
      have hr : s.linkTest.elim false Check.seen = true := hr
      rw [htest] at hr
      cases hr
  · intro hup
    cases hstage.symm.trans hup

/-! ### A pass over a link that is down -/

/-- The pass is not about to turn the carrier on. -/
def Pass.Fruitless (p : Pass) : Prop := p ≠ .turnOn ∧ p ≠ .check (.returned true)

/-- Whoever looks finds the link down. -/
structure Lost (s : State) : Prop where
  /-- The link is down, and everybody knows. -/
  low : s.latch.Low
  /-- The interface is up. -/
  up : s.stage = .up
  /-- It is not being reset. -/
  resetting : s.resetting = false
  /-- The pass does not find the link up. -/
  fruitless : s.pass.Fruitless

/-- The link and the interface stay as they are. -/
def Steady : Event → Prop
  | .linkTo _ | .setResetting _ | .setDown => False
  | _ => True

instance : (e : Event) → Decidable (Steady e)
  | .linkTo _ | .setResetting _ | .setDown => isFalse id
  | .go _ | .goTest _ | .interrupt | .watchdog | .test | .negotiate _ | .carrierOff | .openOff
  | .getLinkState _ | .clearDown | .readEicr | .setFlag => isTrue trivial

/-- The carrier is off, or a pass is under way. -/
def Falling (s : State) : Prop := s.carrier = false ∨ s.pass ≠ .idle

/-- A pass that finds the link down ends with the carrier off. -/
theorem Lost.nextPass (h : Lost s) (hpass : s.pass ≠ .idle) (a : Answer) :
  (s.nextPass type a).Fruitless ∧ (s.nextPass type a = .idle → s.nextCarrier = false)
  := by
  cases hp : s.pass with
  | idle => exact absurd hp hpass
  | turnOn => exact absurd hp h.fruitless.1
  | turnOff =>
    unfold State.nextPass State.nextCarrier
    rw [hp]
    exact ⟨⟨Pass.noConfusion, Pass.noConfusion⟩, fun _ => rfl⟩
  | testDown =>
    have hdown : s.stage.isDown = false := by
      rw [h.up]
      rfl
    have hnext : s.nextPass type a = .testResetting := by
      unfold State.nextPass
      rw [hp, hdown]
      rfl
    rw [hnext]
    exact ⟨⟨Pass.noConfusion, Pass.noConfusion⟩, Pass.noConfusion⟩
  | testResetting =>
    have hnext : s.nextPass type a = .check .rst := by
      unfold State.nextPass
      rw [hp, h.resetting]
      rfl
    rw [hnext]
    exact ⟨⟨Pass.noConfusion, fun heq => by cases heq⟩, Pass.noConfusion⟩
  | check c =>
    by_cases hret : ∃ up, c = .returned up
    · obtain ⟨up, rfl⟩ := hret
      have hno : up = false := by
        cases up with
        | false => rfl
        | true => exact absurd hp h.fruitless.2
      have hnext : s.nextPass type a = if s.carrier then .turnOff else .idle := by
        unfold State.nextPass
        rw [hp, hno]
        exact if_neg fun hall => Bool.false_ne_true hall.1
      rw [hnext]
      cases hcarrier : s.carrier with
      | true => exact ⟨⟨Pass.noConfusion, Pass.noConfusion⟩, Pass.noConfusion⟩
      | false =>
        refine ⟨⟨Pass.noConfusion, Pass.noConfusion⟩, fun _ => ?_⟩
        unfold State.nextCarrier
        rw [hp]
        exact hcarrier
    · have hnext : s.nextPass type a = .check (c.next type s.api s.flag a) := by
        unfold State.nextPass
        rw [hp]
        cases c with
        | returned up => exact absurd ⟨up, rfl⟩ hret
        | _ => rfl
      have hseen : c.seen = false := by
        have hwatchdog : s.pass.inCheck.elim false Check.seen = false := h.low.seen .watchdog
        rwa [hp] at hwatchdog
      rw [hnext]
      refine ⟨⟨Pass.noConfusion, fun heq => ?_⟩, Pass.noConfusion⟩
      exact Check.next_fruitless h.low.flag hseen (fun heq => hret ⟨true, heq⟩)
        (Pass.check.inj heq)

/-- While the link stays down, whoever looks finds it down. -/
theorem Lost.step (h : Lost s) (hG : s.Heeds e ∧ Steady e) (hstep : (system type).step s e s') :
  Lost s'
  := by
  have hread : e ≠ .readEicr := by
    rintro rfl
    cases h.up.symm.trans hstep.1
  have hmoves := step_moves hG.1 hstep hread
  obtain ⟨hmay, rfl⟩ := hstep
  have hsteady := hG.2
  refine ⟨hmoves.low h.low ?_ ?_, ?_, ?_, ?_⟩
  · cases e with
    | linkTo => exact hsteady.elim
    | _ => rfl
  · cases e with
    | linkTo => exact hsteady.elim
    | interrupt | readEicr => exact fun hirq => by cases hirq
    | _ => exact id
  · cases e with
    | setDown => exact hsteady.elim
    | carrierOff | clearDown => cases h.up.symm.trans hmay
    | readEicr => exact absurd rfl hread
    | setFlag => rfl
    | _ => exact h.up
  · cases e with
    | setResetting => exact hsteady.elim
    | _ => exact h.resetting
  · cases e with
    | watchdog => exact ⟨Pass.noConfusion, Pass.noConfusion⟩
    | go a => exact (h.nextPass hmay.1 a).1
    | _ => exact h.fruitless

/-- The carrier stays off, or a pass is under way to turn it off. -/
theorem Falling.step (h : Falling s) (hlost : Lost s) (hstep : (system type).step s e s') :
  Falling s'
  := by
  obtain ⟨hmay, rfl⟩ := hstep
  cases e with
  | watchdog => exact .inr Pass.noConfusion
  | go a =>
    by_cases hidle : s.nextPass type a = .idle
    · exact .inl ((hlost.nextPass hmay.1 a).2 hidle)
    · exact .inr hidle
  | carrierOff | openOff => exact .inl rfl
  | _ => exact h

/-- A carrier that is off stays off. -/
theorem Lost.carrier (h : Lost s) (hoff : s.carrier = false) (hstep : (system type).step s e s') :
  s'.carrier = false
  := by
  obtain ⟨-, rfl⟩ := hstep
  cases e with
  | go a =>
    show s.nextCarrier = false
    unfold State.nextCarrier
    cases hp : s.pass with
    | turnOn => exact absurd hp h.fruitless.1
    | turnOff => rfl
    | _ => exact hoff
  | carrierOff | openOff => rfl
  | _ => exact hoff

/-- The runs over a link that stays down. -/
abbrev SteadyPath (type : MacType) (s : State) (es : List Event) (s' : State) : Prop :=
  (system type).Path (fun s e => s.Heeds e ∧ Steady e) s es s'

variable {es es' : List Event}

/-- A run over a link that stays down, once the carrier is off. -/
theorem SteadyPath.carrier (hp : SteadyPath type s es s') (h : Lost s) (hoff : s.carrier = false) :
  s'.carrier = false
  := by
  induction hp with
  | nil => exact hoff
  | cons hG hstep _ ih => exact ih (h.step hG hstep) (h.carrier hoff hstep)

/-- An event that may happen and meets the condition. -/
def Legal (s : State) (e : Event) : Prop := s.May e ∧ s.Heeds e

instance (s : State) (e : Event) : Decidable (Legal s e) := instDecidableAnd

/-- A VF after `ixgbevf_probe`, on a link that is up. -/
def probed : State where
  link := true
  irq := false
  flag := false
  api := .api15
  carrier := false
  enabled := true
  resetting := false
  stage := .down
  pass := .idle
  linkTest := none

/-- The interface comes up, the watchdog finds the link up, and the link goes down. -/
def linkLoss : List Event :=
  [.clearDown, .readEicr, .setFlag, .watchdog, .go .yes, .go .yes, .go .no, .go .yes, .go .yes,
    .go .yes, .go .yes, .go .yes, .go .yes, .go .yes, .linkTo false, .interrupt]

/-- `ixgbevf_down` does not turn the carrier off while a pass is past its first test. -/
def Alone (s : State) (e : Event) : Prop := e = .carrierOff → s.pass = .idle ∨ s.pass = .testDown

instance (s : State) (e : Event) : Decidable (Alone s e) := by
  unfold Alone
  infer_instance

/-- The carrier is off, and no pass turns it on. -/
structure Off (s : State) : Prop where
  /-- The carrier is off. -/
  carrier : s.carrier = false
  /-- No pass has found the interface up. -/
  pass : s.pass = .idle ∨ s.pass = .testDown

/-- Every event keeps that while the interface is down. -/
theorem step_off (h : s.stage = .down → Off s) (hG : Alone s e)
    (hstep : (system type).step s e s') (hdown : s'.stage = .down) :
  Off s'
  := by
  obtain ⟨hmay, rfl⟩ := hstep
  cases e with
  | setDown | clearDown | readEicr | setFlag => cases hdown
  | carrierOff => exact ⟨rfl, hG rfl⟩
  | openOff => exact ⟨rfl, (h hdown).pass⟩
  | watchdog => exact ⟨(h hdown).carrier, .inr rfl⟩
  | go a =>
    have hwas : s.stage = .down := hdown
    have htest : s.pass = .testDown := (h hwas).pass.resolve_left hmay.1
    have hnext : s.nextPass type a = .idle := by
      unfold State.nextPass
      rw [htest, hwas]
      rfl
    have hcarrier : s.nextCarrier = false := by
      unfold State.nextCarrier
      rw [htest]
      exact (h hwas).carrier
    exact ⟨hcarrier, .inl hnext⟩
  | _ => exact ⟨(h hdown).carrier, (h hdown).pass⟩

/-- Where no pass of the watchdog is past its test of `__IXGBEVF_DOWN` when `ixgbevf_down` turns the
carrier off, the carrier is off until `ixgbevf_up_complete` clears `__IXGBEVF_DOWN`. -/
theorem reachable_off (h : (system type).Reachable Alone s) (hdown : s.stage = .down) :
  s.carrier = false
  := by
  have hoff : s.stage = .down → Off s := by
    refine TransSystem.Reachable.invariant (I := fun s => s.stage = .down → Off s) ?_
      (fun _ _ _ => step_off) h
    rintro s ⟨-, hcarrier, -, hpass, -⟩ -
    exact ⟨hcarrier, .inl hpass⟩
  exact (hoff hdown).carrier

/-- The interface comes up, the watchdog turns the carrier on, and the interface goes down. -/
def upAndDown : List Event := linkLoss.take 14 ++ [.setDown, .carrierOff]

/-- The carrier was on, and is off. -/
theorem upAndDown_off :
  ((linkLoss.take 14).foldl (State.apply .macX550Vf) probed).carrier = true
    ∧ (upAndDown.foldl (State.apply .macX550Vf) probed).carrier = false
  := by
  have hinit : (system .macX550Vf).Reachable Alone probed := .init ⟨rfl, rfl, rfl, rfl, rfl⟩
  have hreach : (system .macX550Vf).Reachable Alone
      (upAndDown.foldl (State.apply .macX550Vf) probed) :=
    hinit.foldl (P := fun s e => s.May e ∧ Alone s e) (fun s e h => ⟨h.2, h.1, rfl⟩) (by decide)
  exact ⟨by decide, reachable_off hreach (by decide)⟩

/-! ### The steps of a check make up the call -/

section Call

variable {D : Type} (V : Device D)

/-- A call that takes some steps, with `mac->get_link_status`. -/
def Check.run (type : MacType) (api : ApiVersion) (x : Check × Bool) (answers : List Answer) :
    Check × Bool :=
  answers.foldl (fun x a => (x.1.next type api x.2 a, x.1.mark x.2 a)) x

/-- What a test says. -/
def Answer.ofBool (b : Bool) : Answer := if b then .yes else .no

/-- What up to so many reads of the link register say. -/
def linksAnswers : ℕ → Port D → List Answer
  | 0, _ => []
  | n + 1, p =>
    let r := (readReg V vfLinks).run p
    if hasBit r.1 linksUp then .yes :: linksAnswers n r.2 else [.no]

/-- What the mailbox says. -/
def mailAnswers (hw : Hw D) : List Answer := if ClearsFlag V hw then [.yes, .yes] else [.no]

/-- What the device says to the sources of a check. -/
def sourceAnswers (hw : Hw D) (speed : BitVec 32) : List Answer :=
  if ¬ hw.getLinkStatus then
    [.yes]
  else if hw.macType ≠ .macE610Vf then
    linksAnswers V (Check.rereads hw.macType + 1) hw.port
      ++ if vflinksUp V hw speed then mailAnswers V (afterVflinks V hw speed) ++ [.yes] else [.yes]
  else if hw.apiVersion.hasLinkState then
    if (pfReply V hw).1 ≠ 0 ∨ hasBit ((pfReply V hw).2.getD 0 0#32) msgtypeFailure then
      [.error]
    else if (pfReply V hw).2.getD 2 0#32 ≠ 0#32 then
      .yes :: (mailAnswers V (afterExchange V hw) ++ [.yes])
    else
      [.no, .yes]
  else
    .ofBool (vflinksUp V hw speed) :: (mailAnswers V (afterVflinks V hw speed) ++ [.yes])

/-- What the device says to a check. -/
def checkAnswers (hw : Hw D) (speed : BitVec 32) : List Answer :=
  let r := (checkForRstVf V).run hw.port
  .ofBool (r.1 = 0 ∨ r.2.mbx.timeout = 0) :: .yes :: sourceAnswers V (dropOnReset V hw) speed

/-- Steps, and others after them. -/
theorem Check.run_append {api : ApiVersion} {x : Check × Bool} {as as' : List Answer} :
  Check.run type api x (as ++ as') = Check.run type api (Check.run type api x as) as'
  := List.foldl_append

/-- A check past its test of a flag that is set. -/
theorem run_test {api : ApiVersion} {c : Check} {as : List Answer}
    (h : Check.next type api true .test .yes = c) :
  Check.run type api (.test, true) (.yes :: as) = Check.run type api (c, true) as
  := by
  rw [← h]
  rfl

/-- One read of the link register, and others. -/
theorem rereadVflinks_succ (n : ℕ) (links : BitVec 32) (p : Port D) :
  (rereadVflinks V (n + 1) links).run p
    = if hasBit ((readReg V vfLinks).run p).1 linksUp then
        (rereadVflinks V n ((readReg V vfLinks).run p).1).run ((readReg V vfLinks).run p).2
      else (none, ((readReg V vfLinks).run p).2)
  := by
  rw [rereadVflinks, run_bind]
  split <;> rfl

/-- The reads of the link register. -/
theorem run_linksAnswers {api : ApiVersion} {flag : Bool} (n : ℕ) (links : BitVec 32)
    (p : Port D) :
  Check.run type api (.readLinks n, flag) (linksAnswers V (n + 1) p)
    = (if ((rereadVflinks V (n + 1) links).run p).1.isSome then .readMail else .out, flag)
  := by
  induction n generalizing links p with
  | zero =>
    rw [rereadVflinks_succ, linksAnswers]
    by_cases hup : hasBit ((readReg V vfLinks).run p).1 linksUp
    · rw [if_pos hup, if_pos hup]
      rfl
    · rw [if_neg hup, if_neg hup]
      rfl
  | succ n ih =>
    rw [rereadVflinks_succ, linksAnswers]
    by_cases hup : hasBit ((readReg V vfLinks).run p).1 linksUp
    · rw [if_pos hup, if_pos hup]
      exact ih _ _
    · rw [if_neg hup, if_neg hup]
      rfl

/-- The link register is read up to so many times. -/
theorem vflinksUp_eq (hw : Hw D) (speed : BitVec 32) :
  vflinksUp V hw speed
    = ((rereadVflinks V (Check.rereads hw.macType + 1) 0#32).run hw.port).1.isSome
  := by
  rw [vflinksUp, readVflinks, rereadVflinks_succ, run_bind]
  by_cases hup : hasBit ((readReg V vfLinks).run hw.port).1 linksUp
  · rw [if_pos hup, if_pos hup, run_bind]
    show (vflinksOut hw.macType speed ((rereadVflinks V (Check.rereads hw.macType) _).run _).1).2 = _
    cases ((rereadVflinks V (Check.rereads hw.macType) _).run _).1 <;> rfl
  · rw [if_neg hup, if_neg hup]
    rfl

/-- The mailbox stage of a check. -/
theorem run_mailAnswers {api : ApiVersion} (hw : Hw D) :
  Check.run type api (.readMail, true) (mailAnswers V hw ++ [.yes])
    = (.returned (decide (ClearsFlag V hw)), !decide (ClearsFlag V hw))
  := by
  rw [mailAnswers]
  by_cases h : ClearsFlag V hw
  · rw [if_pos h, decide_eq_true h]
    rfl
  · rw [if_neg h, decide_eq_false h]
    rfl

/-- What a call says of the link, and `mac->get_link_status` after it. -/
def outcome (c : LinkCheck D) : Check × Bool :=
  (.returned (c.linkUp.getD false), c.hw.getLinkStatus)

/-- The mailbox stage of a call. -/
theorem outcome_linkCheckMailbox {hw : Hw D} (hflag : hw.getLinkStatus = true) (ret : ℤ)
    (speed : BitVec 32) :
  outcome (linkCheckMailbox V hw ret speed)
    = (.returned (decide (ClearsFlag V hw)), !decide (ClearsFlag V hw))
  := by
  have hiff := linkCheckMailbox_flag V hw ret speed
  have hout : (linkCheckMailbox V hw ret speed).linkUp
      = some !(linkCheckMailbox V hw ret speed).hw.getLinkStatus := by
    simp only [linkCheckMailbox]
    split_ifs <;> rfl
  have hmark : (linkCheckMailbox V hw ret speed).hw.getLinkStatus = !decide (ClearsFlag V hw) := by
    rw [Bool.eq_iff_iff, hiff]
    simp [hflag]
  rw [outcome, hout, hmark, Bool.not_not]
  rfl

/-- The sources of a check that asks the link register. -/
theorem run_vflinks {hw : Hw D} (hflag : hw.getLinkStatus = true) (htype : hw.macType ≠ .macE610Vf)
    (speed : BitVec 32) :
  Check.run hw.macType hw.apiVersion (.test, true) (.yes :: sourceAnswers V hw speed)
    = outcome (linkCheckVflinks V hw speed)
  := by
  have htest : Check.next hw.macType hw.apiVersion true .test .yes
      = .readLinks (Check.rereads hw.macType) := by
    rw [Check.next, if_neg (by decide), if_pos htype]
  obtain ⟨speed', hcall⟩ := linkCheckVflinks_eq V hw speed
  rw [run_test htest, sourceAnswers, hflag, if_neg (by decide), if_pos htype, Check.run_append,
    run_linksAnswers V _ 0#32, ← vflinksUp_eq V hw speed, hcall]
  by_cases hup : vflinksUp V hw speed = true
  · rw [if_pos hup, if_pos hup, if_pos hup, run_mailAnswers, outcome_linkCheckMailbox]
    exact hflag
  · rw [if_neg hup, if_neg hup, if_neg hup]
    show (_, _) = outcome (linkCheckOut (afterVflinks V hw speed) 0 speed')
    rw [outcome, linkCheckOut, afterVflinks, hflag]
    rfl

/-- The sources of a check that asks the PF. -/
theorem run_asksPf {hw : Hw D} (hflag : hw.getLinkStatus = true) (hasks : hw.asksPf)
    (speed : BitVec 32) (linkUp : Bool) :
  Check.run hw.macType hw.apiVersion (.test, true) (.yes :: sourceAnswers V hw speed)
    = outcome (linkCheckPf V hw speed linkUp)
  := by
  obtain ⟨htype, hapi⟩ := of_decide_eq_true hasks
  have htest : Check.next hw.macType hw.apiVersion true .test .yes = .askPf := by
    rw [Check.next, if_neg (by decide), if_neg (not_not.mpr htype), if_pos hapi]
  obtain ⟨speed', hcall⟩ := linkCheckPf_of_asksPf V hasks speed linkUp
  rw [run_test htest, sourceAnswers, hflag, if_neg (by decide), if_neg (not_not.mpr htype),
    if_pos hapi, hcall]
  have hafter : (afterExchange V hw).getLinkStatus = true := hflag
  by_cases herr : (pfReply V hw).1 ≠ 0
  · rw [if_pos (.inl herr), if_pos herr]
    show _ = (Check.returned false, (afterExchange V hw).getLinkStatus)
    rw [hafter]
    rfl
  · by_cases hfail : hasBit ((pfReply V hw).2.getD 0 0#32) msgtypeFailure
    · rw [if_pos (.inr hfail), if_neg herr, if_pos hfail]
      show _ = (Check.returned false, (afterExchange V hw).getLinkStatus)
      rw [hafter]
      rfl
    · rw [if_neg (not_or.mpr ⟨herr, hfail⟩), if_neg herr, if_neg hfail]
      by_cases hup : (pfReply V hw).2.getD 2 0#32 ≠ 0#32
      · rw [if_pos hup, if_pos hup, outcome_linkCheckMailbox V hafter, ← run_mailAnswers V]
        rfl
      · rw [if_neg hup, if_neg hup]
        show _ = (Check.returned !(afterExchange V hw).getLinkStatus,
          (afterExchange V hw).getLinkStatus)
        rw [hafter]
        rfl

/-- The sources of a check that falls back from the PF to the link register. -/
theorem run_fallsBack {hw : Hw D} (hflag : hw.getLinkStatus = true) (hfalls : hw.fallsBack)
    (speed : BitVec 32) (linkUp : Bool) :
  Check.run hw.macType hw.apiVersion (.test, true) (.yes :: sourceAnswers V hw speed)
    = outcome (linkCheckPf V hw speed linkUp)
  := by
  obtain ⟨htype, hapi⟩ := of_decide_eq_true hfalls
  have htest : Check.next hw.macType hw.apiVersion true .test .yes = .fallBack := by
    rw [Check.next, if_neg (by decide), if_neg (not_not.mpr htype), if_neg hapi]
  obtain ⟨speed', hcall⟩ := linkCheckPf_of_fallsBack V hfalls speed linkUp
  have hafter : (afterVflinks V hw speed).getLinkStatus = true := hflag
  rw [run_test htest, sourceAnswers, hflag, if_neg (by decide), if_neg (not_not.mpr htype),
    if_neg hapi, hcall, outcome_linkCheckMailbox V hafter, ← run_mailAnswers V]
  rfl

/-- The steps of a check, answered as the device answers them, make up a call of
`ixgbe_check_mac_link_vf`. -/
theorem check_run (hw : Hw D) (speed : BitVec 32) (linkUp : Bool) :
  Check.run hw.macType hw.apiVersion (.rst, hw.getLinkStatus) (checkAnswers V hw speed)
    = outcome (checkMacLinkVf V hw speed (some linkUp))
  := by
  let hw' := dropOnReset V hw
  have hrst : Check.run hw.macType hw.apiVersion (.rst, hw.getLinkStatus) (checkAnswers V hw speed)
      = Check.run hw'.macType hw'.apiVersion (.test, hw'.getLinkStatus)
        (.yes :: sourceAnswers V hw' speed) := by
    have hmark : Check.mark hw.getLinkStatus .rst (.ofBool
        (((checkForRstVf V).run hw.port).1 = 0
          ∨ ((checkForRstVf V).run hw.port).2.mbx.timeout = 0)) = hw'.getLinkStatus := by
      show _ = if ((checkForRstVf V).run hw.port).1 = 0
        ∨ ((checkForRstVf V).run hw.port).2.mbx.timeout = 0 then true else hw.getLinkStatus
      by_cases h : ((checkForRstVf V).run hw.port).1 = 0
          ∨ ((checkForRstVf V).run hw.port).2.mbx.timeout = 0
      · rw [if_pos h, decide_eq_true h]
        rfl
      · rw [if_neg h, decide_eq_false h]
        rfl
    rw [← hmark]
    rfl
  rw [hrst, checkMacLinkVf_some]
  show Check.run hw'.macType hw'.apiVersion (.test, hw'.getLinkStatus) _
    = outcome (if ¬ hw'.getLinkStatus then linkCheckOut hw' 0 speed
      else if hw'.macType ≠ .macE610Vf then linkCheckVflinks V hw' speed
      else linkCheckPf V hw' speed linkUp)
  cases hflag : hw'.getLinkStatus with
  | false =>
    have hshort : sourceAnswers V hw' speed = [.yes] := by
      rw [sourceAnswers, hflag]
      rfl
    rw [hshort, if_pos (by decide), outcome, linkCheckOut, hflag]
    rfl
  | true =>
    rw [if_neg (by decide)]
    by_cases htype : hw'.macType ≠ .macE610Vf
    · rw [if_pos htype]
      exact run_vflinks V hflag htype speed
    · rw [if_neg htype]
      have htype' := not_not.mp htype
      by_cases hapi : hw'.apiVersion.hasLinkState
      · exact run_asksPf V hflag (decide_eq_true ⟨htype', hapi⟩) speed linkUp
      · exact run_fallsBack V hflag (decide_eq_true ⟨htype', hapi⟩) speed linkUp

end Call

end Ixgbevf.Carrier
