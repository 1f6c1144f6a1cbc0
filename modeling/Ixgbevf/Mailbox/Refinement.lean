import Ixgbevf.Mailbox.Wire

/-!
# The registers carry out the exchange

Each access of a function to the registers is a step of the exchange of messages, or changes
nothing of it.  A function makes its accesses in an order that `Obeys` describes.
-/

namespace Ixgbevf.Mailbox

/-! ### The order of accesses -/

/-- An access may come next in a phase; `fresh` when the mailbox register has just been
read. -/
def Instr.Legal (g : MbxOps) (fresh : Bool) (p : Phase) : Instr → Prop
  | .readOwner | .takeOwner | .checkMsg | .pollMsg => p = .free ∨ p = .noticed
  | .checkOwner => p = .free ∨ g = .legacy ∧ p = .noticed
  | .peek | .readMailbox => True
  | .clearMsg => (∃ b, p = .locked b) ∨ p = .noticed
  | .clearAck => p = .flushedMsg ∨ p = .flushed ∨ p = .acknowledged
  | .clearAckIfSeen => p = .flushedMsg
  | .begin _ => p = .flushed
  | .store i w => ∃ msg, p = .copying msg i ∧ msg[i]? = some w
  | .load _ => (∃ b, p = .locked b) ∨ g = .upgraded ∧ p = .noticed
  | .send .msg => fresh ∧ ∃ msg, p = .copying msg msg.length
  | .send .ack => fresh ∧ g = .upgraded ∧ p = .noticed
  | .release => p = .sent
  | .sendRelease .msg => g = .legacy ∧ ∃ msg, p = .copying msg msg.length
  | .sendRelease .ack => g = .legacy ∧ ∃ b, p = .locked b
  | .pollAck | .leave => p = .awaiting
  | .confirm => p = .acknowledged

/-- The accesses with which a call returns. -/
@[simp] theorem Instr.nextPhase_sendAck {p : Phase} : (Instr.send .ack).nextPhase p = .free := by
  cases p <;> rfl

@[simp] theorem Instr.nextPhase_sendRelease {p : Phase} {signal : Signal} :
  (Instr.sendRelease signal).nextPhase p = .free
  := by
  cases p <;> rfl

@[simp] theorem Instr.nextPhase_confirm {p : Phase} : Instr.confirm.nextPhase p = .free := by
  cases p <;> rfl

@[simp] theorem Instr.nextPhase_leave {p : Phase} : Instr.leave.nextPhase p = .free := by
  cases p <;> rfl

/-- The access is a read of the mailbox register for the write that follows. -/
def Instr.isRead : Instr → Bool
  | .readMailbox => true
  | _ => false

/-- The accesses that are left may come one after another, and then the call is over. -/
def Obeys (g : MbxOps) : Bool → Phase → List Instr → Prop
  | _, p, [] => p = .free
  | fresh, p, i :: code => i.Legal g fresh p ∧ Obeys g i.isRead (i.nextPhase p) code

section Code

variable {g : MbxOps} {fresh : Bool}

/-- A side tries to get the buffer. -/
theorem obeys_obtainMbxLock {p : Phase} {code : List Instr}
    (hp : p = .free ∨ g = .legacy ∧ p = .noticed)
    (h : Obeys g false (Instr.checkOwner.nextPhase p) code) :
  Obeys g fresh p (obtainMbxLock ++ code)
  := by
  obtain rfl | ⟨hg, rfl⟩ := hp
  · exact ⟨.inl rfl, .inl rfl, .inl rfl, h⟩
  · exact ⟨.inr rfl, .inr rfl, .inr ⟨hg, rfl⟩, h⟩

/-- The notification is cleared. -/
theorem obeys_clearMsg {p : Phase} {X : Side} {code : List Instr}
    (hp : (∃ b, p = .locked b) ∨ p = .noticed)
    (h : Obeys g false (Instr.clearMsg.nextPhase p) code) :
  Obeys g fresh p (clearMsg X ++ code)
  := by
  cases X with
  | vf => exact ⟨hp, h⟩
  | pf => exact ⟨trivial, hp, h⟩

/-- The acknowledgement is cleared. -/
theorem obeys_clearAck {p : Phase} {X : Side} {code : List Instr}
    (hp : p = .flushedMsg ∨ p = .flushed ∨ p = .acknowledged)
    (h : Obeys g false (Instr.clearAck.nextPhase p) code) :
  Obeys g fresh p (clearAck X ++ code)
  := by
  cases X with
  | vf => exact ⟨hp, h⟩
  | pf => exact ⟨trivial, hp, h⟩

/-- A message is copied to the buffer, from the words that are stored already on. -/
theorem obeys_copyOut {msg rest : List (BitVec 32)} {i : ℕ} {code : List Instr}
    (hrest : msg.drop i = rest)
    (h : Obeys g false (.copying msg msg.length) code) :
  Obeys g false (.copying msg i) (copyOut i rest ++ code) ∨ msg.length < i
  := by
  induction rest generalizing i with
  | nil =>
    have hlen : msg.length ≤ i := by simpa using hrest
    obtain hlt | rfl := Nat.lt_or_eq_of_le hlen
    · exact .inr hlt
    · exact .inl h
  | cons w rest ih =>
    have hw : msg[i]? = some w := by
      rw [← List.head?_drop, hrest]
      rfl
    have hrest' : msg.drop (i + 1) = rest := by
      rw [← List.tail_drop, hrest]
      rfl
    have hi : i < msg.length := (List.getElem?_eq_some_iff.mp hw).1
    obtain hcode | hlt := ih hrest'
    · exact .inl ⟨⟨msg, rfl, hw⟩, hcode⟩
    · omega

/-- Words are copied from the buffer. -/
theorem obeys_copyIn {p : Phase} {i n : ℕ} {code : List Instr}
    (hp : (∃ b, p = .locked b) ∨ g = .upgraded ∧ p = .noticed) (h : Obeys g false p code) :
  Obeys g false p (copyIn i n ++ code)
  := by
  induction n generalizing i with
  | zero => exact h
  | succ n ih =>
    refine ⟨hp, ?_⟩
    have hnext : (Instr.load i).nextPhase p = p := by
      obtain ⟨b, rfl⟩ | ⟨-, rfl⟩ := hp <;> rfl
    rw [hnext]
    apply ih

/-- A whole message is copied to the buffer. -/
theorem obeys_message {msg : List (BitVec 32)} {code : List Instr}
    (h : Obeys g false (.copying msg msg.length) code) :
  Obeys g fresh .flushed ([.begin msg] ++ copyOut 0 msg ++ code)
  := by
  obtain hcopy | hlt := obeys_copyOut (i := 0) rfl h
  · exact ⟨rfl, hcopy⟩
  · omega

theorem obeys_writeMbxLegacy {X : Side} {msg : List (BitVec 32)} :
  Obeys .legacy fresh .free (writeMbxLegacy X msg)
  := by
  simp only [writeMbxLegacy, List.append_assoc]
  apply obeys_obtainMbxLock (.inl rfl)
  refine ⟨trivial, ?_⟩
  apply obeys_clearMsg (.inl ⟨_, rfl⟩)
  refine ⟨trivial, rfl, ?_⟩
  apply obeys_clearAck (.inl rfl)
  rw [← List.append_assoc]
  apply obeys_message
  exact ⟨⟨rfl, msg, rfl⟩, rfl⟩

theorem obeys_writeMbxUpgraded {X : Side} {msg : List (BitVec 32)} {polls : Bool} :
  Obeys .upgraded fresh .free (writeMbxUpgraded X msg polls)
  := by
  simp only [writeMbxUpgraded, List.append_assoc]
  apply obeys_obtainMbxLock (.inl rfl)
  apply obeys_clearMsg (.inl ⟨_, rfl⟩)
  apply obeys_clearAck (.inl rfl)
  rw [← List.append_assoc]
  apply obeys_message
  refine ⟨trivial, ⟨rfl, msg, rfl⟩, trivial, rfl, ?_⟩
  cases polls with
  | false => exact ⟨rfl, rfl⟩
  | true =>
    refine ⟨rfl, ?_⟩
    apply obeys_clearAck (.inr (.inr rfl))
    exact ⟨rfl, rfl⟩

/-- A read function may be called with a notification that was polled for or without. -/
theorem obeys_readMbxLegacy {p : Phase} {n : ℕ} (hp : p = .free ∨ p = .noticed) :
  Obeys .legacy fresh p (readMbxLegacy n)
  := by
  have hlocked : ∃ b, Instr.checkOwner.nextPhase p = .locked b := by
    obtain rfl | rfl := hp <;> exact ⟨_, rfl⟩
  simp only [readMbxLegacy, List.append_assoc]
  apply obeys_obtainMbxLock (hp.imp id fun hp => ⟨rfl, hp⟩)
  apply obeys_copyIn (.inl hlocked)
  exact ⟨⟨rfl, hlocked⟩, rfl⟩

theorem obeys_readMbxUpgraded {p : Phase} {X : Side} {n : ℕ} (hp : p = .free ∨ p = .noticed) :
  Obeys .upgraded fresh p (readMbxUpgraded X n)
  := by
  have hnoticed : Instr.checkMsg.nextPhase p = .noticed := by
    obtain rfl | rfl := hp <;> rfl
  simp only [readMbxUpgraded, List.append_assoc]
  refine ⟨hp, ?_⟩
  rw [hnoticed]
  apply obeys_clearMsg (.inr rfl)
  apply obeys_copyIn (.inr ⟨rfl, rfl⟩)
  exact ⟨trivial, ⟨rfl, rfl, rfl⟩, rfl⟩

/-- The write functions keep the order. -/
theorem obeys_writeCode {X : Side} {msg : List (BitVec 32)} :
  Obeys g fresh .free (writeCode g X msg)
  := by
  cases g <;> cases X
  · exact obeys_writeMbxLegacy
  · exact obeys_writeMbxLegacy
  · exact obeys_writeMbxUpgraded
  · exact obeys_writeMbxUpgraded

/-- The read functions keep the order. -/
theorem obeys_readCode {p : Phase} {X : Side} {n : ℕ} (hp : p = .free ∨ p = .noticed) :
  Obeys g fresh p (readCode g X n)
  := by
  cases g <;> cases X
  · exact obeys_readMbxLegacy hp
  · exact obeys_readMbxLegacy hp
  · exact obeys_readMbxUpgraded hp
  · exact obeys_readMbxUpgraded hp

end Code

/-! ### What an access does to the exchange -/

theorem Exchange.setPhase_self {s : Exchange} {X : Side} {p : Phase} (h : s.phase X = p) :
  s.setPhase X p = s
  := by
  simp [Exchange.setPhase, ← h]

theorem Exchange.setOwn_self {s : Exchange} {X : Side} {b : Bool} (h : s.own X = b) :
  s.setOwn X b = s
  := by
  simp [Exchange.setOwn, ← h]

namespace Wire

variable {s : Wire} {X : Side} {i : Instr} {rest : List Instr}

theorem inbox_readStatus : (s.readStatus X).inbox = s.inbox := by
  funext Z
  cases X <;> cases Z <;> simp [readStatus, inbox]

theorem acked_readStatus : (s.readStatus X).acked = s.acked := by
  funext Z
  cases X <;> cases Z <;> simp [readStatus, acked]

@[simp] theorem view_readStatus : (s.readStatus X).view = s.view := by
  unfold view
  rw [inbox_readStatus, acked_readStatus]
  cases X <;> rfl

@[simp] theorem view_lowerMsg : (s.lowerMsg X).view = s.view.setInbox X false := by
  have hinbox : (s.lowerMsg X).inbox = Function.update s.inbox X false := by
    funext Z
    cases X <;> cases Z <;> simp [lowerMsg, readStatus, inbox]
  have hacked : (s.lowerMsg X).acked = s.acked := by
    funext Z
    cases X <;> cases Z <;> simp [lowerMsg, readStatus, acked]
  unfold view Exchange.setInbox
  rw [hinbox, hacked]
  cases X <;> rfl

@[simp] theorem view_lowerAck : (s.lowerAck X).view = s.view.setAcked X false := by
  have hacked : (s.lowerAck X).acked = Function.update s.acked X false := by
    funext Z
    cases X <;> cases Z <;> simp [lowerAck, readStatus, acked]
  have hinbox : (s.lowerAck X).inbox = s.inbox := by
    funext Z
    cases X <;> cases Z <;> simp [lowerAck, readStatus, inbox]
  unfold view Exchange.setAcked
  rw [hinbox, hacked]
  cases X <;> rfl

@[simp] theorem view_raise_msg : (s.raise X .msg).view = s.view.setInbox X true := by
  have hinbox : (s.raise X .msg).inbox = Function.update s.inbox X true := by
    funext Z
    cases X <;> cases Z <;> simp [raise, inbox]
  have hacked : (s.raise X .msg).acked = s.acked := rfl
  unfold view Exchange.setInbox
  rw [hinbox, hacked]
  rfl

@[simp] theorem view_raise_ack : (s.raise X .ack).view = s.view.setAcked X true := by
  have hacked : (s.raise X .ack).acked = Function.update s.acked X true := by
    funext Z
    cases X <;> cases Z <;> simp [raise, acked]
  have hinbox : (s.raise X .ack).inbox = s.inbox := rfl
  unfold view Exchange.setAcked
  rw [hinbox, hacked]
  rfl

@[simp] theorem view_writeOwner {b : Bool} :
  (s.writeOwner X b).view = s.view.setOwn X (b && (s.own X || ! s.own X.other))
  := rfl

@[simp] theorem view_setCode {code : List Instr} : (s.setCode X code).view = s.view := rfl

@[simp] theorem view_goOn :
  (s.goOn X i rest).view = s.view.setPhase X (i.nextPhase (s.phase X))
  := rfl

@[simp] theorem view_leave : (s.leave X rest).view = s.view.leave X := rfl

@[simp] theorem view_giveBack :
  (s.giveBack X rest).view = s.view.giveBack X (s.phase X).sawNotice
  := rfl

@[simp] theorem view_seeAck : (s.seeAck X).view = s.view := by
  have h := view_readStatus (s := s) (X := X)
  exact h

@[simp] theorem view_seeOwner : (s.seeOwner X).view = s.view := by
  have h := view_readStatus (s := s) (X := X)
  exact h

@[simp] theorem phase_seeAck : (s.seeAck X).phase = s.phase := by cases X <;> rfl

@[simp] theorem phase_seeOwner : (s.seeOwner X).phase = s.phase := by cases X <;> rfl

/-- The status bits are not where a side is in its code. -/
@[simp] theorem phase_readStatus : (s.readStatus X).phase = s.phase := by cases X <;> rfl

@[simp] theorem code_readStatus : (s.readStatus X).code = s.code := by cases X <;> rfl

@[simp] theorem own_readStatus : (s.readStatus X).own = s.own := by cases X <;> rfl

@[simp] theorem ownRead_readStatus : (s.readStatus X).ownRead = s.ownRead := by cases X <;> rfl

@[simp] theorem phase_lowerMsg : (s.lowerMsg X).phase = s.phase := by cases X <;> rfl

@[simp] theorem code_lowerMsg : (s.lowerMsg X).code = s.code := by cases X <;> rfl

@[simp] theorem own_lowerMsg : (s.lowerMsg X).own = s.own := by cases X <;> rfl

@[simp] theorem ownRead_lowerMsg : (s.lowerMsg X).ownRead = s.ownRead := by cases X <;> rfl

@[simp] theorem phase_lowerAck : (s.lowerAck X).phase = s.phase := by cases X <;> rfl

@[simp] theorem code_lowerAck : (s.lowerAck X).code = s.code := by cases X <;> rfl

@[simp] theorem own_lowerAck : (s.lowerAck X).own = s.own := by cases X <;> rfl

@[simp] theorem ownRead_lowerAck : (s.lowerAck X).ownRead = s.ownRead := by cases X <;> rfl

@[simp] theorem phase_raise {signal : Signal} : (s.raise X signal).phase = s.phase := by
  cases signal <;> rfl

@[simp] theorem code_raise {signal : Signal} : (s.raise X signal).code = s.code := by
  cases signal <;> rfl

@[simp] theorem own_raise {signal : Signal} : (s.raise X signal).own = s.own := by
  cases signal <;> rfl

@[simp] theorem ownRead_raise {signal : Signal} : (s.raise X signal).ownRead = s.ownRead := by
  cases signal <;> rfl

/-- Writing back the ownership bit that was read changes nothing. -/
theorem view_writeOwner_read {b : Bool} (h : b = s.own X) : (s.writeOwner X b).view = s.view := by
  rw [view_writeOwner]
  apply Exchange.setOwn_self
  subst h
  cases hown : s.own X <;> simp [view, hown]

variable {g : MbxOps} {R : Side → Prop} {fresh : Bool}

/-- An access is a step of the exchange, or changes nothing of it. -/
theorem exec_step (rest : List Instr) (hlegal : i.Legal g fresh (s.phase X))
    (hread : fresh → s.ownRead X = s.own X)
    (hsettles : g = .upgraded → R X.other → i = .clearAck → s.phase X = .flushedMsg →
      s.view.Settled X) :
  (s.exec X i rest).view = s.view ∨ s.view.Step g R (s.exec X i rest).view
  := by
  have hsame : ∀ p, s.phase X = p → s.view.setPhase X p = s.view :=
    fun p h => Exchange.setPhase_self h
  cases i with
  | readOwner =>
    left
    simp only [exec]
    split <;> simp [Instr.nextPhase, hsame]
  | takeOwner =>
    right
    have hview : (s.exec X .takeOwner rest).view
        = s.view.setOwn X (s.view.own X || ! s.view.own X.other) := by
      simp only [exec, view_goOn, view_writeOwner, Bool.true_and]
      apply Exchange.setPhase_self
      rfl
    rw [hview]
    apply Exchange.Step.take
  | checkOwner =>
    simp only [exec]
    split
    case isTrue hown =>
      right
      obtain hp | ⟨hg, hp⟩ := hlegal
      · rw [view_goOn, view_readStatus, phase_readStatus, hp]
        apply Exchange.Step.enter X hp hown
      · rw [view_goOn, view_readStatus, phase_readStatus, hp]
        apply Exchange.Step.enterNoticed X hg hp hown
    case isFalse => simp
  | peek =>
    left
    simp only [exec, view_goOn, view_seeAck, phase_seeAck, Instr.nextPhase]
    apply hsame _ rfl
  | clearMsg =>
    right
    simp only [exec, view_goOn, view_lowerMsg, phase_lowerMsg]
    obtain ⟨b, hp⟩ | hp := hlegal
    · rw [hp]
      apply Exchange.Step.flushMsg X b hp
    · have hsame' : (s.view.setInbox X false).setPhase X .noticed = s.view.setInbox X false :=
        Exchange.setPhase_self hp
      simp only [hp, Instr.nextPhase, hsame']
      apply Exchange.Step.dropMsg X hp
  | clearAck =>
    right
    simp only [exec, view_goOn, view_lowerAck, phase_lowerAck]
    have hsame' : ∀ p, s.phase X = p → (s.view.setAcked X false).setPhase X p
        = s.view.setAcked X false := fun p h => Exchange.setPhase_self h
    obtain hp | hp | hp := hlegal
    · rw [hp]
      apply Exchange.Step.flushAck X hp
      exact fun hg hR => hsettles hg hR rfl hp
    · simp only [hp, Instr.nextPhase, hsame' _ hp]
      apply Exchange.Step.dropAck X (.inr (.inl hp))
    · simp only [hp, Instr.nextPhase, hsame' _ hp]
      apply Exchange.Step.dropAck X (.inr (.inr hp))
  | clearAckIfSeen =>
    have hp : s.phase X = .flushedMsg := hlegal
    simp only [exec]
    split
    · right
      have hsame' : (s.view.setAcked X false).setPhase X .flushedMsg = s.view.setAcked X false :=
        Exchange.setPhase_self hp
      simp only [view_goOn, view_lowerAck, phase_lowerAck, hp, Instr.nextPhase, hsame']
      apply Exchange.Step.dropAck X (.inl hp)
    · left
      simp only [view_goOn, hp, Instr.nextPhase, hsame _ hp]
  | begin msg =>
    right
    have hp : s.phase X = .flushed := hlegal
    have hview : (s.exec X (.begin msg) rest).view = s.view.begin X msg := by
      have hbegin : (s.begin X msg).phase X = .flushed := hp
      simp only [exec, view_goOn, hbegin, Instr.nextPhase]
      rfl
    rw [hview]
    apply Exchange.Step.begin X msg hp
  | store j w =>
    right
    obtain ⟨msg, hp, hw⟩ := hlegal
    have hview : (s.exec X (.store j w) rest).view = s.view.store X msg j w := by
      have hstore : (s.store X j w).phase X = .copying msg j := hp
      simp only [exec, view_goOn, hstore, Instr.nextPhase]
      rfl
    rw [hview]
    apply Exchange.Step.store X msg j w hp hw
  | load j =>
    right
    have hview : (s.exec X (.load j) rest).view = s.view.load X j := by
      simp only [exec, view_goOn]
      apply Exchange.setPhase_self
      obtain ⟨b, hp⟩ | ⟨-, hp⟩ := hlegal
      · have hload : (s.load X j).phase X = .locked b := hp
        rw [hload]
        exact hp
      · have hload : (s.load X j).phase X = .noticed := hp
        rw [hload]
        exact hp
    rw [hview]
    have hload : (∃ b, s.view.phase X = .locked b) ∨ g = .upgraded ∧ s.view.phase X = .noticed :=
      hlegal
    apply Exchange.Step.load X j hload
  | readMailbox =>
    left
    simp only [exec, view_goOn, view_seeOwner, phase_seeOwner, Instr.nextPhase]
    apply hsame _ rfl
  | send signal =>
    right
    cases signal with
    | msg =>
      obtain ⟨hfresh, msg, hp⟩ := hlegal
      have hphase : ((s.writeOwner X (s.ownRead X)).raise X.other .msg).phase X
          = .copying msg msg.length := by
        rw [phase_raise]
        exact hp
      simp only [exec, view_goOn, view_raise_msg, view_writeOwner_read (hread hfresh), hphase]
      apply Exchange.Step.send X msg hp
    | ack =>
      obtain ⟨hfresh, hg, hp⟩ := hlegal
      have hphase : ((s.writeOwner X (s.ownRead X)).raise X.other .ack).phase X = .noticed := by
        rw [phase_raise]
        exact hp
      simp only [exec, view_giveBack, view_raise_ack, view_writeOwner_read (hread hfresh), hphase]
      apply Exchange.Step.ack X hg hp
  | release =>
    right
    have hp : s.phase X = .sent := hlegal
    have hphase : (s.writeOwner X false).phase X = .sent := hp
    simp only [exec, view_goOn, view_writeOwner, hphase, Bool.false_and]
    apply Exchange.Step.release X hp
  | sendRelease signal =>
    right
    cases signal with
    | msg =>
      obtain ⟨hg, msg, hp⟩ := hlegal
      simp only [exec, view_leave, view_raise_msg, view_writeOwner, Bool.false_and]
      apply Exchange.Step.sendRelease X msg hg hp
    | ack =>
      obtain ⟨hg, b, hp⟩ := hlegal
      have hphase : ((s.writeOwner X false).raise X.other .ack).phase X = .locked b := by
        rw [phase_raise]
        exact hp
      have hflag : Phase.sawNotice (.locked b) = b := by cases b <;> rfl
      simp only [exec, view_giveBack, view_raise_ack, view_writeOwner, Bool.false_and, hphase,
        hflag]
      apply Exchange.Step.ackRelease X b hg hp
  | checkMsg =>
    simp only [exec]
    split
    case isTrue hinbox =>
      obtain hp | hp := hlegal
      · right
        simp only [view_goOn, view_readStatus, phase_readStatus, hp]
        apply Exchange.Step.notice X hp hinbox
      · left
        simp only [view_goOn, view_readStatus, phase_readStatus, hp, Instr.nextPhase, hsame _ hp]
    case isFalse =>
      right
      rw [view_leave, view_readStatus]
      have hleave : s.view.phase X = .free ∨ s.view.phase X = .noticed := hlegal
      apply Exchange.Step.leave X (hleave.imp id .inl)
  | pollMsg =>
    simp only [exec]
    split
    case isTrue hinbox =>
      obtain hp | hp := hlegal
      · right
        simp only [view_goOn, view_readStatus, phase_readStatus, hp]
        apply Exchange.Step.notice X hp hinbox
      · left
        simp only [view_goOn, view_readStatus, phase_readStatus, hp, Instr.nextPhase, hsame _ hp]
    case isFalse => simp
  | pollAck =>
    have hp : s.phase X = .awaiting := hlegal
    simp only [exec]
    split
    case isTrue hacked =>
      right
      simp only [view_goOn, view_readStatus, phase_readStatus, hp]
      apply Exchange.Step.seeAck X hp hacked
    case isFalse => simp
  | confirm =>
    right
    have hp : s.view.phase X = .acknowledged := hlegal
    apply Exchange.Step.confirm X hp
  | leave =>
    right
    have hp : s.view.phase X = .awaiting := hlegal
    apply Exchange.Step.leave X (.inr (.inr hp))

/-- The accesses left after an access keep the order. -/
theorem exec_obeys (h : Obeys g fresh (s.phase X) (i :: rest)) (hcode : s.code X = i :: rest) :
  ∃ fresh' : Bool, (fresh' → (s.exec X i rest).ownRead X = (s.exec X i rest).own X)
    ∧ Obeys g fresh' ((s.exec X i rest).phase X) ((s.exec X i rest).code X)
  := by
  obtain ⟨hlegal, hrest⟩ := h
  cases i with
  | readOwner =>
    refine ⟨false, by simp, ?_⟩
    simp only [exec]
    split
    · rw [phase_readStatus, code_readStatus, hcode]
      exact ⟨hlegal, hrest⟩
    · simpa [goOn, setCode, Instr.isRead] using hrest
  | checkOwner =>
    refine ⟨false, by simp, ?_⟩
    simp only [exec]
    split
    · simpa [goOn, setCode, Instr.isRead] using hrest
    · have hobtain : Obeys g false (s.phase X) (obtainMbxLock ++ rest) :=
        obeys_obtainMbxLock hlegal hrest
      simpa [setCode] using hobtain
  | checkMsg =>
    refine ⟨false, by simp, ?_⟩
    simp only [exec]
    split
    · simpa [goOn, setCode, Instr.isRead] using hrest
    · simp [leave, setCode, Obeys]
  | pollMsg =>
    refine ⟨false, by simp, ?_⟩
    simp only [exec]
    split
    · simpa [goOn, setCode, Instr.isRead] using hrest
    · rw [phase_readStatus, code_readStatus, hcode]
      exact ⟨hlegal, hrest⟩
  | pollAck =>
    refine ⟨false, by simp, ?_⟩
    simp only [exec]
    split
    · simpa [goOn, setCode, Instr.isRead] using hrest
    · rw [phase_readStatus, code_readStatus, hcode]
      exact ⟨hlegal, hrest⟩
  | clearAckIfSeen =>
    refine ⟨false, by simp, ?_⟩
    simp only [exec]
    split <;> simpa [goOn, setCode, Instr.isRead] using hrest
  | readMailbox =>
    refine ⟨true, ?_, ?_⟩
    · simp [exec, goOn, setCode, seeOwner]
    · simpa [exec, goOn, setCode, seeOwner, Instr.isRead] using hrest
  | send signal =>
    refine ⟨false, by simp, ?_⟩
    cases signal with
    | msg => simpa [exec, goOn, setCode, writeOwner, Instr.isRead] using hrest
    | ack => simpa [exec, giveBack, leave, setCode, writeOwner, Instr.isRead] using hrest
  | sendRelease signal =>
    refine ⟨false, by simp, ?_⟩
    cases signal with
    | msg => simpa [exec, leave, setCode, writeOwner, Instr.isRead] using hrest
    | ack => simpa [exec, giveBack, leave, setCode, writeOwner, Instr.isRead] using hrest
  | takeOwner | release =>
    refine ⟨false, by simp, ?_⟩
    simpa [exec, goOn, setCode, writeOwner, Instr.isRead] using hrest
  | peek | clearMsg | clearAck | begin _ | store _ _ | load _ =>
    refine ⟨false, by simp, ?_⟩
    simpa [exec, goOn, setCode, seeAck, begin, store, load, Instr.isRead] using hrest
  | confirm | leave =>
    refine ⟨false, by simp, ?_⟩
    simpa [exec, confirm, leave, setCode, Instr.isRead] using hrest

/-- An access does not move the other side. -/
theorem exec_other (s : Wire) (X : Side) (i : Instr) (rest : List Instr) :
  (s.exec X i rest).code X.other = s.code X.other
    ∧ (s.exec X i rest).phase X.other = s.phase X.other
    ∧ (s.exec X i rest).ownRead X.other = s.ownRead X.other
    ∧ (s.exec X i rest).own X.other = s.own X.other
  := by
  cases i with
  | send signal =>
    cases signal <;> simp [exec, goOn, giveBack, leave, setCode, writeOwner]
  | sendRelease signal =>
    cases signal <;> simp [exec, giveBack, leave, setCode, writeOwner]
  | _ =>
    simp only [exec]
    repeat' split
    all_goals simp [goOn, confirm, leave, setCode, writeOwner, seeAck, seeOwner, begin,
      store, load]

/-! ### Runs -/

/-- What holds in every state: each side keeps the order, and the exchange its invariant. -/
structure Inv (g : MbxOps) (R : Side → Prop) (s : Wire) : Prop where
  obeys : ∀ X, ∃ fresh : Bool, (fresh → s.ownRead X = s.own X)
    ∧ Obeys g fresh (s.phase X) (s.code X)
  exchange : s.view.Inv g R

theorem inv_start : Inv g R start where
  obeys X := ⟨false, by simp, rfl⟩
  exchange := by
    constructor <;>
      simp [view, start, Exchange.Local, Exchange.Stored, Exchange.Latest, inbox]
    rintro (_ | _) <;> simp

/-- A side that starts on a call keeps the invariant. -/
theorem Inv.start (h : Inv g R s) {code : List Instr} (hX : s.code X = [])
    (hcode : Obeys g false .free code) :
  Inv g R (s.setCode X code)
  where
  obeys Z := by
    obtain ⟨fresh, hread, hobeys⟩ := h.obeys Z
    by_cases hZ : Z = X
    · subst hZ
      rw [hX] at hobeys
      have hphase : s.phase Z = .free := hobeys
      refine ⟨false, by simp, ?_⟩
      simpa [setCode, hphase] using hcode
    · exact ⟨fresh, hread, by simpa [setCode, hZ] using hobeys⟩
  exchange := h.exchange

/-- A loop that ends without success keeps the invariant. -/
theorem Inv.giveUp (h : Inv g R s) (hX : ∃ i ∈ (s.code X).head?, Instr.loops i) :
  Inv g R (s.leave X [])
  where
  obeys Z := by
    obtain ⟨fresh, hread, hobeys⟩ := h.obeys Z
    by_cases hZ : Z = X
    · subst hZ
      exact ⟨false, by simp, by simp [Wire.leave, setCode, Obeys]⟩
    · exact ⟨fresh, hread, by simpa [Wire.leave, setCode, hZ] using hobeys⟩
  exchange := by
    obtain ⟨i, hi, hloops⟩ := hX
    obtain ⟨rest, hcode⟩ := List.head?_eq_some_iff.mp hi
    obtain ⟨fresh, -, hobeys⟩ := h.obeys X
    rw [hcode] at hobeys
    have hphase : s.phase X = .free ∨ s.phase X = .noticed ∨ s.phase X = .awaiting := by
      have hlegal := hobeys.1
      cases i with
      | readOwner | pollMsg => exact hlegal.imp id .inl
      | pollAck => exact .inr (.inr hlegal)
      | _ => simp [Instr.loops] at hloops
    apply h.exchange.step (Exchange.Step.leave X hphase)

/-- An access keeps the invariant. -/
theorem Inv.exec (h : Inv g R s) (hcode : s.code X = i :: rest)
    (hsettles : g = .upgraded → R X.other → i = .clearAck → s.phase X = .flushedMsg →
      s.view.Settled X) :
  Inv g R (s.exec X i rest)
  := by
  obtain ⟨fresh, hread, hobeys⟩ := h.obeys X
  rw [hcode] at hobeys
  constructor
  · intro Z
    obtain rfl | rfl := Side.eq_or_eq_other X Z
    · apply exec_obeys hobeys hcode
    · obtain ⟨hcode', hphase', hread', hown'⟩ := exec_other s X i rest
      rw [hcode', hphase', hread', hown']
      apply h.obeys
  · obtain hsame | hstep := exec_step rest hobeys.1 hread hsettles
    · rw [hsame]
      apply h.exchange
    · apply h.exchange.step hstep

/-- The invariant is kept by what happens under the condition. -/
theorem Inv.next {e : Event} (h : Inv g R s) (hsettles : Settles g R s e) (hmay : s.May e) :
  Inv g R (s.next g e)
  := by
  cases e with
  | write X msg => apply h.start hmay.1 obeys_writeCode
  | read X n => apply h.start hmay.1 (obeys_readCode (.inl rfl))
  | pollRead X n =>
    apply h.start hmay.1
    exact ⟨.inl rfl, obeys_readCode (.inr rfl)⟩
  | look X =>
    apply h.start hmay
    exact ⟨trivial, rfl⟩
  | step X =>
    cases hcode : s.code X with
    | nil => exact absurd hcode hmay
    | cons i rest =>
      simp only [Wire.next, hcode]
      apply h.exec hcode
      rintro hg hR rfl hphase
      exact hsettles hg hR (by simp [hcode]) hphase
  | giveUp X => apply h.giveUp hmay

/-- The invariant holds in every state of a run that meets the condition. -/
theorem reachable_inv (h : (system g).Reachable (Settles g R) s) : Inv g R s := by
  apply h.invariant
  · rintro s rfl
    apply inv_start
  · rintro s e s' hs hsettles ⟨hmay, rfl⟩
    apply hs.next hsettles hmay

end Wire

end Ixgbevf.Mailbox
