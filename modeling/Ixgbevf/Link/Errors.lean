import Ixgbevf.Link

/-!
# What the link check returns

`ErrorDiscipline` says that a link check returns an error only where the PF refused the
VF or a message arrived while no timeout is set, that an E610 VF on a version without the
link-state request returns what a VF of another type returns on the same registers, and
that the watchdog requests a reset for no other reason.  `errorDiscipline_iff` says when
a check keeps it.
-/

namespace Ixgbevf.Link

open StateProgram

variable {D : Type} (V : Device D)

/-! ### Ports that differ in their record of reads -/

/-- The ports are the same but for the record of reads. -/
structure Port.Alike (p p' : Port D) : Prop where
  /-- `hw->hw_addr`. -/
  removed : p.removed = p'.removed
  /-- `hw->mbx`. -/
  mbx : p.mbx = p'.mbx
  /-- The device. -/
  dev : p.dev = p'.dev

instance : IsPreorder (Port D) Port.Alike where
  refl _ := ⟨rfl, rfl, rfl⟩
  trans _ _ _ h h' :=
    ⟨h.removed.trans h'.removed, h.mbx.trans h'.mbx, h.dev.trans h'.dev⟩

/-- A read of the device cannot tell such ports apart. -/
theorem readl_alike {reg : ℕ} :
  Respects Port.Alike (readl V reg)
  := by
  apply respects_modifyGet
  intro p p' h
  rw [h.dev]
  exact ⟨rfl, h.removed, h.mbx, rfl⟩

/-- Giving up the adapter keeps ports alike. -/
theorem removeAdapter_alike :
  Respects Port.Alike (removeAdapter : PortM D Unit)
  := by
  apply respects_modify
  intro p p' h
  exact ⟨rfl, h.mbx, h.dev⟩

/-- Nor can the loop over a dead register. -/
theorem rereads_alike {reg n : ℕ} {value : BitVec 32} :
  Respects Port.Alike (rereads V reg n value)
  := by
  induction n generalizing value with
  | zero => apply respects_pure
  | succ n ih =>
    apply respects_bind
    · apply readl_alike
    · intro value
      apply respects_ite
      · apply respects_pure
      · apply ih

/-- Nor can the body of a register read. -/
theorem readRegWith_alike {check : PortM D Unit} {reg : ℕ} (h : Respects Port.Alike check) :
  Respects Port.Alike (readRegWith V check reg)
  := by
  refine respects_get (fun p p' h => by rw [h.removed]) fun p => ?_
  refine respects_ite (respects_pure _) ?_
  refine respects_bind (readl_alike V) fun value => ?_
  refine respects_bind (respects_ite h (respects_pure _)) fun _ => ?_
  refine respects_ite ?_ (respects_pure _)
  refine respects_get (fun p p' h => by rw [h.removed]) fun p => ?_
  exact respects_ite (respects_pure _) (rereads_alike V)

/-- Nor can a register read. -/
theorem readReg_alike {reg : ℕ} :
  Respects Port.Alike (readReg V reg)
  := by
  have hc : Respects Port.Alike (checkRemove V reg) := by
    apply respects_ite
    · apply removeAdapter_alike
    · apply respects_bind
      · apply readRegWith_alike V removeAdapter_alike
      · intro value
        apply respects_ite
        · apply removeAdapter_alike
        · apply respects_pure
  refine respects_bind (readRegWith_alike V hc) fun value => ?_
  refine respects_bind (respects_modify fun p p' h => ?_) fun _ => respects_pure _
  exact ⟨h.removed, h.mbx, h.dev⟩

/-- Nor can a register write. -/
theorem writeReg_alike {reg : ℕ} {value : BitVec 32} :
  Respects Port.Alike (writeReg V reg value)
  := by
  apply respects_modify
  intro p p' h
  rw [h.removed, h.dev]
  split
  · exact h
  · exact ⟨rfl, h.mbx, rfl⟩

/-- Nor can a read of the mailbox register. -/
theorem readMailboxVf_alike :
  Respects Port.Alike (readMailboxVf V)
  := by
  apply respects_bind
  · apply readReg_alike
  · intro value
    apply respects_modifyGet
    intro p p' h
    rw [h.mbx]
    exact ⟨rfl, h.removed, rfl, h.dev⟩

/-- Nor can the clearing of a cached bit. -/
theorem clearBitVf_alike {mask : BitVec 32} :
  Respects Port.Alike (clearBitVf V mask)
  := by
  apply respects_bind
  · apply readMailboxVf_alike
  · intro seen
    apply respects_modify
    intro p p' h
    rw [h.mbx]
    split
    · exact ⟨h.removed, rfl, h.dev⟩
    · exact h

/-- Nor can the test for a bit. -/
theorem checkForBitVf_alike {mask : BitVec 32} :
  Respects Port.Alike (checkForBitVf V mask)
  := by
  apply respects_bind
  · apply readMailboxVf_alike
  · intro seen
    apply respects_pure

/-- Nor can the rounds of the lock. -/
theorem lockRounds_alike {countdown : ℕ} :
  Respects Port.Alike (lockRounds V countdown)
  := by
  induction countdown with
  | zero => apply respects_pure
  | succ countdown ih =>
    refine respects_bind (readMailboxVf_alike V) fun seen => ?_
    refine respects_ite ih ?_
    refine respects_bind (writeReg_alike V) fun _ => ?_
    exact respects_bind (readMailboxVf_alike V) fun again => respects_ite (respects_pure _) ih

/-- Nor can the loop that copies a message from the mailbox memory. -/
theorem readMbmem_alike {i n : ℕ} :
  Respects Port.Alike (readMbmem V i n)
  := by
  induction n generalizing i with
  | zero => apply respects_pure
  | succ n ih =>
    refine respects_bind (readReg_alike V) fun word => ?_
    exact respects_bind ih fun words => respects_pure _

/-- Nor can a read of a message. -/
theorem readMbx_alike {msg : List (BitVec 32)} {size : ℕ} :
  Respects Port.Alike (readMbx V msg size)
  := by
  refine respects_get (fun p p' h => by rw [h.mbx]) fun p => ?_
  cases p.mbx.ops with
  | legacy =>
    refine respects_bind (respects_get (fun p p' h => by rw [h.mbx]) fun p => ?_) fun err => ?_
    · exact respects_ite (respects_pure _) (lockRounds_alike V)
    · refine respects_ite (respects_pure _) ?_
      refine respects_bind (readMbmem_alike V) fun words => ?_
      exact respects_bind (writeReg_alike V) fun _ => respects_pure _
  | upgraded =>
    refine respects_bind (checkForBitVf_alike V) fun err => ?_
    refine respects_ite (respects_pure _) ?_
    refine respects_bind (clearBitVf_alike V) fun _ => ?_
    refine respects_bind (readMbmem_alike V) fun words => ?_
    refine respects_bind (readMailboxVf_alike V) fun seen => ?_
    exact respects_bind (writeReg_alike V) fun _ => respects_pure _

/-! ### Reading a steady link register -/

/-- Reading the link register or the status register has no effect on the device, so that
a second read returns what the first did. -/
def SteadyLink : Prop :=
  ∀ d, (V.read d vfLinks).2 = d ∧ (V.read d vfStatus).2 = d

/-- The device is in the state it was in, and the adapter is not gone if it was not. -/
structure Port.Still (p p' : Port D) : Prop where
  /-- The state of the device. -/
  dev : p'.dev = p.dev
  /-- `hw->hw_addr`. -/
  removed : p'.removed = p.removed

instance : IsPreorder (Port D) Port.Still where
  refl _ := ⟨rfl, rfl⟩
  trans _ _ _ h h' := ⟨h'.dev.trans h.dev, h'.removed.trans h.removed⟩

/-- The adapter may be given up, but the device is in the state it was in. -/
def Port.SameDev (p p' : Port D) : Prop := p'.dev = p.dev

instance : IsPreorder (Port D) Port.SameDev where
  refl _ := rfl
  trans _ _ _ h h' := Eq.trans h' h

variable {V} {reg : ℕ}

/-- A read without effect on the device. -/
theorem readl_still (h : ∀ d, (V.read d reg).2 = d) :
  Keeps Port.Still (readl V reg)
  := by
  apply keeps_modifyGet
  intro p
  exact ⟨h p.dev, rfl⟩

/-- Reading a dead register again, where reads have no effect on the device. -/
theorem validateRegisterRead_still (h : ∀ d, (V.read d reg).2 = d) :
  Keeps Port.Still (validateRegisterRead V reg)
  := by
  have hr : ∀ n value, Keeps Port.Still (rereads V reg n value) := by
    intro n
    induction n with
    | zero =>
      intro value
      apply keeps_pure
    | succ n ih =>
      intro value
      apply keeps_bind
      · apply readl_still h
      · intro value
        apply keeps_ite
        · apply keeps_pure
        · apply ih
  apply keeps_bind
  · apply keeps_get
  · intro p
    apply keeps_ite
    · apply keeps_pure
    · apply hr

/-- The body of a register read leaves the device as it was. -/
theorem readRegWith_sameDev {check : PortM D Unit} (h : ∀ d, (V.read d reg).2 = d)
    (hc : Keeps Port.SameDev check) :
  Keeps Port.SameDev (readRegWith V check reg)
  := by
  refine keeps_bind keeps_get fun p => keeps_ite (keeps_pure _) ?_
  refine keeps_bind (fun p => (readl_still h p).dev) fun value => ?_
  refine keeps_bind (keeps_ite hc (keeps_pure _)) fun _ => ?_
  exact keeps_ite (fun p => (validateRegisterRead_still h p).dev) (keeps_pure _)

/-- The read failed, or the adapter is not gone if it was not. -/
def FailsOrStays (p : Port D) (r : BitVec 32 × Port D) : Prop :=
  r.1 = failedReadReg ∨ r.2.removed = p.removed

/-- A register read that gives up the adapter has failed. -/
theorem readRegWith_failsOrStays {check : PortM D Unit} (h : ∀ d, (V.read d reg).2 = d)
    (p : Port D) :
  FailsOrStays p ((readRegWith V check reg).run p)
  := by
  have hfd : failedReadReg ≠ deadReadReg := by decide
  refine run_bind_of (fun p' p'' => p' = p ∧ p'' = p) (FailsOrStays p) ⟨rfl, rfl⟩ ?_
  rintro _ p ⟨rfl, rfl⟩
  split
  · exact .inl rfl
  · refine run_bind_of (fun _ p' => Port.Still p p') (FailsOrStays p) (readl_still h p)
      fun value p₁ h₁ => ?_
    by_cases hv : value = failedReadReg
    · refine run_bind_of (fun _ _ => True) (FailsOrStays p) trivial fun _ p₂ _ => ?_
      rw [if_neg (hv ▸ hfd)]
      exact .inl hv
    · refine run_bind_of (fun _ p' => Port.Still p p') (FailsOrStays p) ?_ fun _ p₂ h₂ => ?_
      · rw [if_neg hv]
        exact h₁
      · split
        · exact .inr ((validateRegisterRead_still h p₂).removed.trans h₂.removed)
        · exact .inr h₂.removed

/-- Where the adapter is gone every register read fails. -/
theorem readReg_of_removed {p : Port D} (h : p.removed = true) :
  (readReg V reg).run p = (failedReadReg, { p with reads := p.reads ++ [(reg, failedReadReg)] })
  := by
  obtain ⟨removed, mbx, dev, reads⟩ := p
  obtain rfl : removed = true := h
  rfl

/-- A register that has no read effects is read twice: the second read returns what the
first returned, and changes nothing but the record of reads. -/
theorem readReg_twice (h : SteadyLink V) (p : Port D) :
  ((readReg V vfLinks).run ((readReg V vfLinks).run p).2).1 = ((readReg V vfLinks).run p).1
    ∧ Port.Alike ((readReg V vfLinks).run ((readReg V vfLinks).run p).2).2
      ((readReg V vfLinks).run p).2
  := by
  have hl : ∀ d, (V.read d vfLinks).2 = d := fun d => (h d).1
  have hs : ∀ d, (V.read d vfStatus).2 = d := fun d => (h d).2
  have hra : Keeps Port.SameDev (removeAdapter : PortM D Unit) := fun _ => rfl
  have hc : Keeps Port.SameDev (checkRemove V vfLinks) := by
    refine keeps_ite hra ?_
    refine keeps_bind (readRegWith_sameDev hs hra) fun value => ?_
    exact keeps_ite hra (keeps_pure _)
  have hmbx : ((readReg V vfLinks).run p).2.mbx = p.mbx := (readReg_run V p).1
  have hdev : ((readReg V vfLinks).run p).2.dev = p.dev := readRegWith_sameDev hl hc p
  have hf : FailsOrStays p ((readReg V vfLinks).run p) :=
    readRegWith_failsOrStays hl p
  by_cases hr : ((readReg V vfLinks).run p).2.removed = p.removed
  · -- the second read starts where the first did
    exact readReg_alike V _ p ⟨hr, hmbx, hdev⟩
  · -- the first read gave the adapter up
    have hp : p.removed = false := by
      rw [Bool.eq_false_iff]
      intro hp
      rw [readReg_of_removed hp] at hr
      exact hr rfl
    have hg : ((readReg V vfLinks).run p).2.removed = true := by
      rw [hp] at hr
      simpa using hr
    obtain hv | hst := hf
    · rw [readReg_of_removed hg, hv]
      exact ⟨rfl, rfl, rfl, rfl⟩
    · exact absurd hst hr

/-- A steady link register that is read again is up every time. -/
theorem rereadVflinks_steady (h : SteadyLink V) (n : ℕ) {p q : Port D}
    (hup : hasBit ((readReg V vfLinks).run p).1 linksUp)
    (hq : Port.Alike q ((readReg V vfLinks).run p).2) :
  ((rereadVflinks V n ((readReg V vfLinks).run p).1).run q).1 = some ((readReg V vfLinks).run p).1
    ∧ Port.Alike ((rereadVflinks V n ((readReg V vfLinks).run p).1).run q).2
      ((readReg V vfLinks).run p).2
  := by
  induction n generalizing q with
  | zero => exact ⟨rfl, hq⟩
  | succ n ih =>
    obtain ⟨hv, ha⟩ := readReg_alike V _ _ hq
    obtain ⟨hv', ha'⟩ := readReg_twice h p
    have hrun : (rereadVflinks V (n + 1) ((readReg V vfLinks).run p).1).run q
        = (if hasBit ((readReg V vfLinks).run q).1 linksUp then
            rereadVflinks V n ((readReg V vfLinks).run q).1 else pure none).run
          ((readReg V vfLinks).run q).2 := rfl
    rw [hrun, hv.trans hv', if_pos hup]
    exact ih (trans_of Port.Alike ha ha')

/-- What `ixgbe_read_vflinks` does after its first read, which found the link up. -/
theorem readVflinks_of_up {t : MacType} {speed : BitVec 32} {p : Port D}
    (hup : hasBit ((readReg V vfLinks).run p).1 linksUp) :
  let r := (rereadVflinks V (if t = MacType.mac82599Vf then 5 else 0)
    ((readReg V vfLinks).run p).1).run ((readReg V vfLinks).run p).2
  ((readVflinks V t speed).run p).1.2 = r.1.isSome ∧ ((readVflinks V t speed).run p).2 = r.2
  := by
  intro r
  have hrun : (readVflinks V t speed).run p
      = (if hasBit ((readReg V vfLinks).run p).1 linksUp then do
          let links ← rereadVflinks V (if t = MacType.mac82599Vf then 5 else 0)
            ((readReg V vfLinks).run p).1
          pure (vflinksOut t speed links)
        else pure (speed, false)).run ((readReg V vfLinks).run p).2 := rfl
  rw [hrun, if_pos hup]
  constructor
  · change (vflinksOut t speed r.1).2 = r.1.isSome
    cases r.1 with
    | none => rfl
    | some links => rfl
  · rfl

/-- The link register says what its first read says, to a VF of any type, where the types
that read it again find it steady. -/
theorem readVflinks_first {t : MacType} {speed : BitVec 32} {p : Port D}
    (ht : t = .mac82599Vf → SteadyLink V) :
  ((readVflinks V t speed).run p).1.2 = hasBit ((readReg V vfLinks).run p).1 linksUp
    ∧ Port.Alike ((readVflinks V t speed).run p).2 ((readReg V vfLinks).run p).2
  := by
  by_cases hup : hasBit ((readReg V vfLinks).run p).1 linksUp
  · have hrun : ((readVflinks V t speed).run p).1.2 = _ ∧ ((readVflinks V t speed).run p).2 = _ :=
      readVflinks_of_up hup
    obtain ⟨hv, hp⟩ := hrun
    rw [hv, hp, hup]
    split_ifs with h
    · obtain ⟨hr, ha⟩ := rereadVflinks_steady (ht h) 5 hup (refl_of Port.Alike _)
      rw [hr]
      exact ⟨rfl, ha⟩
    · exact ⟨rfl, refl_of Port.Alike _⟩
  · have hrun : (readVflinks V t speed).run p = ((speed, false), ((readReg V vfLinks).run p).2) := by
      rw [readVflinks, StateT.run_bind]
      change (if hasBit ((readReg V vfLinks).run p).1 linksUp then _ else _ : PortM D _).run _ = _
      rw [if_neg hup]
      rfl
    rw [hrun]
    exact ⟨by simpa using hup, refl_of Port.Alike _⟩

/-! ### The value of the mailbox stage -/

variable (V)

/-- What the mailbox stage of the check returns, where it is entered with `ret`. -/
def mailboxRet (p : Port D) (ret : ℤ) : ℤ :=
  let r := ((readMbx V [0#32] 1).run p).1
  if r.1 ≠ 0 then ret
  else if ¬ hasBit (r.2.getD 0 0#32) msgtypeCts then
    if hasBit (r.2.getD 0 0#32) msgtypeFailure then errMbx else ret
  else if p.mbx.timeout = 0 then errTimeout
  else ret

/-- The mailbox stage returns `mailboxRet`. -/
theorem linkCheckMailbox_ret (hw : Hw D) (ret : ℤ) (speed : BitVec 32) :
  (linkCheckMailbox V hw ret speed).ret = mailboxRet V hw.port ret
  := by
  have ht : ((readMbx V [0#32] 1).run hw.port).2.mbx.timeout = hw.port.mbx.timeout := by
    obtain ⟨-, h⟩ | ⟨-, h⟩ := readMbx_pending V hw.port
    · exact h.timeout
    · exact h.timeout
  simp only [linkCheckMailbox, mailboxRet, ht]
  split_ifs <;> rfl

/-- Ports that are alike give the same value. -/
theorem mailboxRet_alike {p p' : Port D} (h : Port.Alike p p') (ret : ℤ) :
  mailboxRet V p ret = mailboxRet V p' ret
  := by
  simp only [mailboxRet, (readMbx_alike V p p' h).1, h.mbx]

/-- A pending message was read that refuses the VF, or that came with the clear-to-send
bit while no timeout is set: these replace the value the stage was entered with. -/
def Overrides (p : Port D) : Prop :=
  ((readMbx V [0#32] 1).run p).1.1 = 0
    ∧ (¬ hasBit (((readMbx V [0#32] 1).run p).1.2.getD 0 0#32) msgtypeCts
        ∧ hasBit (((readMbx V [0#32] 1).run p).1.2.getD 0 0#32) msgtypeFailure
      ∨ hasBit (((readMbx V [0#32] 1).run p).1.2.getD 0 0#32) msgtypeCts ∧ p.mbx.timeout = 0)

/-- The value of the stage does not depend on the value it was entered with exactly where
the pending message overrides it. -/
theorem mailboxRet_eq_iff {p : Port D} {ret : ℤ} (h : ret ≠ 0) :
  mailboxRet V p ret = mailboxRet V p 0 ↔ Overrides V p
  := by
  simp only [mailboxRet, Overrides]
  split_ifs <;> simp_all

/-- Entered with no error the stage returns one only where the message overrides it. -/
theorem mailboxRet_zero {p : Port D} (h : mailboxRet V p 0 ≠ 0) :
  Overrides V p
  := by
  revert h
  simp only [mailboxRet, Overrides]
  split_ifs <;> simp_all

/-- Entered with `IXGBE_ERR_FEATURE_NOT_SUPPORTED` the stage always returns an error. -/
theorem mailboxRet_ne_zero {p : Port D} :
  mailboxRet V p errFeatureNotSupported ≠ 0
  := by
  simp only [mailboxRet]
  split_ifs <;> decide

/-! ### The discipline -/

/-- The words of the pending message among the words read, after the three words of the
reply of a PF that was asked. -/
def pendingMail (asks : Bool) (mail : List (BitVec 32)) : List (BitVec 32) :=
  if asks then mail.drop 3 else mail

/-- The PF refused the VF: its reply to the link-state request reports a failure, or the
pending message reports a failure and has no clear-to-send bit. -/
def Refused (asks : Bool) (mail : List (BitVec 32)) : Prop :=
  (asks ∧ ∃ w ∈ mail.head?, hasBit w msgtypeFailure)
    ∨ ∃ w ∈ (pendingMail asks mail).head?, ¬ hasBit w msgtypeCts ∧ hasBit w msgtypeFailure

/-- The reasons for which a check may return an error: the PF refused the VF, or a message
arrived while no timeout is set. -/
def MayFail (hw : Hw D) (mail : List (BitVec 32)) : Prop :=
  Refused hw.asksPf mail ∨ (hw.port.mbx.timeout = 0 ∧ pendingMail hw.asksPf mail ≠ [])

/-- The words of mail that a check reads. -/
def checkMail (hw : Hw D) (speed : BitVec 32) (linkUp : Bool) : List (BitVec 32) :=
  mailWords ((checkMacLinkVf V hw speed (some linkUp)).hw.port.reads.drop hw.port.reads.length)

/-- The error discipline of a check with a place for its result. -/
structure ErrorDiscipline (hw : Hw D) (speed : BitVec 32) (linkUp : Bool) : Prop where
  /-- An error has one of the two reasons. -/
  reason : (checkMacLinkVf V hw speed (some linkUp)).ret ≠ 0
    → MayFail hw (checkMail V hw speed linkUp)
  /-- An E610 VF on a version older than 1.6 returns what a VF of another type returns on
  the same registers and mailbox.  A type that reads the link register again has the same
  registers where reading them changes nothing. -/
  twin : hw.macType = .macE610Vf → hw.apiVersion.value < ApiVersion.api16.value
    → ∀ t ≠ MacType.macE610Vf, (t = .mac82599Vf → SteadyLink V)
      → (checkMacLinkVf V hw speed (some linkUp)).ret
        = (checkMacLinkVf V { hw with macType := t } speed (some linkUp)).ret
  /-- The watchdog requests a reset for one of the two reasons. -/
  watchdog : ∀ (jiffies hz lastReset : BitVec 64),
    (watchdogUpdateLink V jiffies hz ⟨hw, speed, linkUp, lastReset, false⟩).resetRequested
      → MayFail hw (checkMail V hw speed linkUp)

/-- The pending message was read, and refuses the VF or came while no timeout is set. -/
def Reported (p : Port D) : Prop :=
  ((readMbx V [0#32] 1).run p).1.1 = 0
    ∧ (¬ hasBit (((readMbx V [0#32] 1).run p).1.2.getD 0 0#32) msgtypeCts
        ∧ hasBit (((readMbx V [0#32] 1).run p).1.2.getD 0 0#32) msgtypeFailure
      ∨ p.mbx.timeout = 0)

/-- When a check keeps the discipline: a check that falls back from the PF to the link
register meets a pending message that refuses the VF or comes while no timeout is set;
and, on a version older than 1.6, the link register says that the link is up and the
message is one that replaces the error. -/
def KeepsDiscipline (hw : Hw D) (speed : BitVec 32) : Prop :=
  (dropOnReset V hw).getLinkStatus → hw.fallsBack
    → Reported V (afterVflinks V (dropOnReset V hw) speed).port
      ∧ (hw.apiVersion.value < ApiVersion.api16.value
        → vflinksUp V (dropOnReset V hw) speed
          ∧ Overrides V (afterVflinks V (dropOnReset V hw) speed).port)

/-- The mail that the mailbox stage reads after the words `pre`. -/
theorem mailbox_mail {hw hw' : Hw D} {pre links : List (BitVec 32)} {ret : ℤ} {speed : BitVec 32}
    (h : hw.port.Reads hw'.port pre links) :
  mailWords ((linkCheckMailbox V hw' ret speed).hw.port.reads.drop hw.port.reads.length)
    = pre ++ if ((readMbx V [0#32] 1).run hw'.port).1.1 = 0 then
        [((readMbx V [0#32] 1).run hw'.port).1.2.getD 0 0#32] else []
  := by
  rw [linkCheckMailbox_port]
  obtain ⟨he, hr⟩ | ⟨he, hq⟩ := readMbx_pending V hw'.port
  · rw [if_pos he]
    exact (h.trans hr).drop.1
  · rw [if_neg he]
    exact (h.trans hq).drop.1

/-- After words `pre` that are no refusal, the mail read is a reason to fail exactly where
the pending message is reported. -/
theorem mayFail_iff {hw hw' : Hw D} {pre links : List (BitVec 32)}
    (h : hw.port.Reads hw'.port pre links) (hlen : pre.length = if hw.asksPf then 3 else 0)
    (hpre : hw.asksPf → ¬ ∃ w ∈ pre.head?, hasBit w msgtypeFailure) :
  MayFail hw (pre ++ if ((readMbx V [0#32] 1).run hw'.port).1.1 = 0 then
      [((readMbx V [0#32] 1).run hw'.port).1.2.getD 0 0#32] else [])
    ↔ Reported V hw'.port
  := by
  have ht : hw'.port.mbx.timeout = hw.port.mbx.timeout := h.timeout
  generalize hm : (if ((readMbx V [0#32] 1).run hw'.port).1.1 = 0 then
      [((readMbx V [0#32] 1).run hw'.port).1.2.getD 0 0#32] else []) = m
  have hp : pendingMail hw.asksPf (pre ++ m) = m := by
    unfold pendingMail
    split_ifs at hlen ⊢ with ha
    · rw [← hlen, List.drop_left]
    · rw [List.length_eq_zero_iff.mp hlen, List.nil_append]
  have hr : ¬ (hw.asksPf ∧ ∃ w ∈ (pre ++ m).head?, hasBit w msgtypeFailure) := by
    rintro ⟨ha, w, hw, hf⟩
    rw [if_pos ha] at hlen
    obtain ⟨a, b, c, rfl⟩ := List.length_eq_three.mp hlen
    exact hpre ha ⟨w, hw, hf⟩
  unfold MayFail Refused Reported
  rw [or_iff_right hr, hp, ht, ← hm]
  generalize ((readMbx V [0#32] 1).run hw'.port).1.2.getD 0 0#32 = w
  split_ifs with he
  · simp [he]
  · simp [he]

/-- A message that replaces the value of the stage is reported. -/
theorem Overrides.reported {p : Port D} (h : Overrides V p) :
  Reported V p
  := by
  obtain ⟨he, h | h⟩ := h
  · exact ⟨he, .inl h⟩
  · exact ⟨he, .inr h.2⟩

/-- A check that asks the PF, and does not fall back, returns an error only for one of the
two reasons. -/
theorem reason_of_asksPf {hw : Hw D} {speed : BitVec 32} {linkUp : Bool}
    (hask : hw.asksPf) (hret : (linkCheckPf V (dropOnReset V hw) speed linkUp).ret ≠ 0) :
  MayFail hw (mailWords
    ((linkCheckPf V (dropOnReset V hw) speed linkUp).hw.port.reads.drop hw.port.reads.length))
  := by
  have hask' : (dropOnReset V hw).asksPf := hask
  have hq : hw.port.Quiet (dropOnReset V hw).port := checkForRstVf_quiet V hw.port
  obtain ⟨speed', hpf⟩ := linkCheckPf_of_asksPf V hask' speed linkUp
  by_cases he : (pfReply V (dropOnReset V hw)).1 = 0
  · obtain ⟨w, sp, up, hb, hr⟩ := linkStateExchange_reply V (dropOnReset V hw).port he
    have hb' : (pfReply V (dropOnReset V hw)).2 = [w, sp, up] := hb
    have hx : hw.port.Reads (afterExchange V (dropOnReset V hw)).port [w, sp, up] [] := hq.reads hr
    rw [hpf] at hret ⊢
    rw [if_neg (not_not.mpr he), hb'] at hret ⊢
    split_ifs at hret ⊢ with hf hup
    · -- the reply is a refusal
      left
      left
      refine ⟨hask, w, ?_, hf⟩
      rw [hx.drop.1]
      rfl
    · -- the link is up, and the mailbox is read
      rw [linkCheckMailbox_ret] at hret
      rw [mailbox_mail V hx, mayFail_iff V hx (by rw [if_pos hask]; rfl)]
      · exact (mailboxRet_zero V hret).reported
      · rintro - ⟨_, ⟨⟩, hw'⟩
        exact hf hw'
    · exact absurd rfl hret
  · rw [hpf, if_pos he] at hret
    exact absurd rfl hret

/-- An error of a check has one of the two reasons, unless the check falls back from the PF
to the link register and the pending message gives none. -/
theorem reason_iff {hw : Hw D} {speed : BitVec 32} {linkUp : Bool} :
  ((checkMacLinkVf V hw speed (some linkUp)).ret ≠ 0 → MayFail hw (checkMail V hw speed linkUp))
    ↔ ((dropOnReset V hw).getLinkStatus → hw.fallsBack
      → Reported V (afterVflinks V (dropOnReset V hw) speed).port)
  := by
  have hq : hw.port.Quiet (dropOnReset V hw).port := checkForRstVf_quiet V hw.port
  obtain ⟨ls, hr, -⟩ := readVflinks_reads V hw.macType speed (dropOnReset V hw).port
  have hv : hw.port.Reads (afterVflinks V (dropOnReset V hw) speed).port [] ls := hq.reads hr
  have hc := checkMacLinkVf_some V hw speed linkUp
  unfold checkMail
  by_cases hd : (dropOnReset V hw).getLinkStatus
  · rw [if_neg (not_not.mpr hd)] at hc
    by_cases ht : hw.macType = .macE610Vf
    · rw [if_neg (not_not.mpr ht)] at hc
      by_cases ha : hw.apiVersion.hasLinkState
      · -- the PF is asked
        have hf : ¬ hw.fallsBack := by simp [Hw.fallsBack, ha]
        rw [hc]
        exact ⟨fun _ _ h => absurd h hf, fun _ => reason_of_asksPf V (decide_eq_true ⟨ht, ha⟩)⟩
      · -- the check falls back
        have hf : hw.fallsBack := decide_eq_true ⟨ht, ha⟩
        have hask : ¬ hw.asksPf := by simp [Hw.asksPf, ha]
        have hf' : (dropOnReset V hw).fallsBack := hf
        obtain ⟨speed', hpf⟩ := linkCheckPf_of_fallsBack V hf' speed linkUp
        have hiff := mayFail_iff V hv (by rw [if_neg hask]; rfl) (fun h => absurd h hask)
        rw [hc, hpf, mailbox_mail V hv, hiff, linkCheckMailbox_ret]
        exact ⟨fun h _ _ => h (mailboxRet_ne_zero V), fun h _ => h hd hf⟩
    · -- the link register is asked
      have hf : ¬ hw.fallsBack := by simp [Hw.fallsBack, ht]
      have hask : ¬ hw.asksPf := by simp [Hw.asksPf, ht]
      obtain ⟨speed', he⟩ := linkCheckVflinks_eq V (dropOnReset V hw) speed
      have hiff := mayFail_iff V hv (by rw [if_neg hask]; rfl) (fun h => absurd h hask)
      rw [hc, if_pos ht, he]
      refine ⟨fun _ _ h => absurd h hf, fun _ => ?_⟩
      split_ifs
      · rw [linkCheckMailbox_ret, mailbox_mail V hv, hiff]
        exact fun h => (mailboxRet_zero V h).reported
      · exact fun h => absurd rfl h
  · rw [hc, if_pos hd]
    exact ⟨fun _ h => absurd h hd, fun _ h => absurd rfl h⟩

/-- A twin of another type returns the value of the mailbox stage, entered with no error,
where the link register says that the link is up, and no error otherwise. -/
theorem twin_ret {hw : Hw D} {t : MacType} {speed : BitVec 32} {linkUp : Bool}
    (hd : (dropOnReset V hw).getLinkStatus) (hE : hw.macType = .macE610Vf)
    (ht : t ≠ .macE610Vf) (hs : t = .mac82599Vf → SteadyLink V) :
  (checkMacLinkVf V { hw with macType := t } speed (some linkUp)).ret
    = if vflinksUp V (dropOnReset V hw) speed then
        mailboxRet V (afterVflinks V (dropOnReset V hw) speed).port 0
      else 0
  := by
  have hc := checkMacLinkVf_some V { hw with macType := t } speed linkUp
  have hd' : (dropOnReset V { hw with macType := t }).getLinkStatus := hd
  rw [if_neg (not_not.mpr hd'), if_pos ht] at hc
  obtain ⟨speed', he⟩ := linkCheckVflinks_eq V (dropOnReset V { hw with macType := t }) speed
  have hne : hw.macType = .mac82599Vf → SteadyLink V := by
    rw [hE]
    exact fun h => absurd h (by decide)
  obtain ⟨hup, ha⟩ := readVflinks_first (p := (dropOnReset V hw).port) hs
  obtain ⟨hup', ha'⟩ := readVflinks_first (p := (dropOnReset V hw).port) hne
  have hsee : vflinksUp V (dropOnReset V { hw with macType := t }) speed
      = vflinksUp V (dropOnReset V hw) speed := hup.trans hup'.symm
  have halike : Port.Alike (afterVflinks V (dropOnReset V { hw with macType := t }) speed).port
      (afterVflinks V (dropOnReset V hw) speed).port :=
    trans_of Port.Alike ha ⟨ha'.removed.symm, ha'.mbx.symm, ha'.dev.symm⟩
  rw [hc, he, hsee]
  split_ifs
  · rw [linkCheckMailbox_ret, mailboxRet_alike V halike]
  · rfl

/-- What a check that falls back returns. -/
theorem fallsBack_ret {hw : Hw D} {speed : BitVec 32} {linkUp : Bool}
    (hd : (dropOnReset V hw).getLinkStatus) (hf : hw.fallsBack) :
  (checkMacLinkVf V hw speed (some linkUp)).ret
    = mailboxRet V (afterVflinks V (dropOnReset V hw) speed).port errFeatureNotSupported
  := by
  have ht : hw.macType = .macE610Vf := (of_decide_eq_true hf).1
  have hc := checkMacLinkVf_some V hw speed linkUp
  rw [if_neg (not_not.mpr hd), if_neg (not_not.mpr ht)] at hc
  have hf' : (dropOnReset V hw).fallsBack := hf
  obtain ⟨speed', hpf⟩ := linkCheckPf_of_fallsBack V hf' speed linkUp
  rw [hc, hpf, linkCheckMailbox_ret]

/-- A check that falls back returns what its twins do exactly where the link register says
that the link is up and the pending message replaces the error. -/
theorem fallsBack_twin_iff {hw : Hw D} {t : MacType} {speed : BitVec 32} {linkUp : Bool}
    (hd : (dropOnReset V hw).getLinkStatus) (hf : hw.fallsBack)
    (ht : t ≠ .macE610Vf) (hs : t = .mac82599Vf → SteadyLink V) :
  (checkMacLinkVf V hw speed (some linkUp)).ret
      = (checkMacLinkVf V { hw with macType := t } speed (some linkUp)).ret
    ↔ vflinksUp V (dropOnReset V hw) speed
      ∧ Overrides V (afterVflinks V (dropOnReset V hw) speed).port
  := by
  have hne : errFeatureNotSupported ≠ 0 := by decide
  rw [fallsBack_ret V hd hf, twin_ret V hd (of_decide_eq_true hf).1 ht hs]
  split_ifs with hup
  · rw [mailboxRet_eq_iff V hne]
    exact ⟨fun h => ⟨hup, h⟩, fun h => h.2⟩
  · exact ⟨fun h => absurd h (mailboxRet_ne_zero V), fun h => absurd h.1 hup⟩

/-- A check keeps the error discipline exactly where `KeepsDiscipline` holds. -/
theorem errorDiscipline_iff {hw : Hw D} {speed : BitVec 32} {linkUp : Bool} :
  ErrorDiscipline V hw speed linkUp ↔ KeepsDiscipline V hw speed
  := by
  constructor
  · intro h hd hf
    have hE : hw.macType = .macE610Vf := (of_decide_eq_true hf).1
    have hne : MacType.macX550Vf ≠ .macE610Vf := by decide
    have hne' : MacType.macX550Vf ≠ .mac82599Vf := by decide
    refine ⟨(reason_iff V).mp h.reason hd hf, fun hold => ?_⟩
    rw [← fallsBack_twin_iff V hd hf hne fun h => absurd h hne']
    exact h.twin hE hold _ hne fun h => absurd h hne'
  · intro h
    have hreason : (checkMacLinkVf V hw speed (some linkUp)).ret ≠ 0
        → MayFail hw (checkMail V hw speed linkUp) :=
      (reason_iff V).mpr fun hd hf => (h hd hf).1
    constructor
    · exact hreason
    · intro hE hold t ht hs
      by_cases hd : (dropOnReset V hw).getLinkStatus
      · have ha : ¬ hw.apiVersion.hasLinkState := by
          revert hold
          cases hw.apiVersion <;> decide
        have hf : hw.fallsBack := decide_eq_true ⟨hE, ha⟩
        rw [fallsBack_twin_iff V hd hf ht hs]
        exact (h hd hf).2 hold
      · have hd' : ¬ (dropOnReset V { hw with macType := t }).getLinkStatus := hd
        have hc := checkMacLinkVf_some V hw speed linkUp
        have hc' := checkMacLinkVf_some V { hw with macType := t } speed linkUp
        rw [if_pos hd] at hc
        rw [if_pos hd'] at hc'
        rw [hc, hc']
        rfl
    · intro jiffies hz lastReset hreq
      apply hreason
      intro hret
      simp [watchdogUpdateLink, hret] at hreq

/-! ### A failing check -/

/-- A device that says that the link is up, and whose PF left a message with the
clear-to-send bit.  Its state says whether the VF holds the mailbox. -/
def healthyDevice : Device Bool where
  read held reg :=
    if reg = vfLinks then (linksUp, held)
    else if reg = vfMailbox then (if held then vfuBit else 0#32, held)
    else if reg = vfMbmem then (msgtypeSuccess ||| msgtypeCts, held)
    else (0#32, held)
  write held reg value := if reg = vfMailbox then hasBit value vfuBit else held

/-- An E610 VF on version 1.3 whose link is to be looked at. -/
def e610Old : Hw Bool where
  macType := .macE610Vf
  getLinkStatus := true
  apiVersion := .api13
  port :=
    { removed := false
      mbx := (mbxParamsVf .legacy 0).initParamsVf
      dev := false
      reads := [] }

/-- With a healthy link and PF, the check of an E610 VF on version 1.3 returns an error
where that of an X550 VF returns none, and the watchdog requests a reset. -/
theorem e610Old_not_disciplined :
  (checkMacLinkVf healthyDevice e610Old 0 (some true)).ret = errFeatureNotSupported
    ∧ (checkMacLinkVf healthyDevice { e610Old with macType := .macX550Vf } 0 (some true)).ret = 0
    ∧ (watchdogUpdateLink healthyDevice 10000 250 ⟨e610Old, 0, true, 0, false⟩).resetRequested
    ∧ ¬ ErrorDiscipline healthyDevice e610Old 0 true
  := by
  have hret : (checkMacLinkVf healthyDevice e610Old 0 (some true)).ret = errFeatureNotSupported := by
    decide +kernel
  have hne : errFeatureNotSupported ≠ 0 := by decide
  refine ⟨hret, ?_, ?_, fun h => ?_⟩
  · decide +kernel
  · decide +kernel
  · have hmail : checkMail healthyDevice e610Old 0 true = [msgtypeSuccess ||| msgtypeCts] := by
      decide +kernel
    obtain (⟨hask, -⟩ | ⟨w, hw, hcts, -⟩) | ⟨ht, -⟩ := h.reason (hret ▸ hne)
    · exact absurd hask (by decide)
    · rw [hmail] at hw
      cases hw
      exact hcts (by decide)
    · exact absurd ht (by decide)

end Ixgbevf.Link
