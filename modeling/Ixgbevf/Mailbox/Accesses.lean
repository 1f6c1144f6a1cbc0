import Ixgbevf.Reset

/-!
# What the mailbox functions leave alone

Apart from the copy of a message to the mailbox memory the mailbox functions access registers
outside it, and change nothing else that the driver keeps but the cached bits.  What these
accesses keep the functions keep, and so do the parts of a reset that access registers.
-/

namespace Ixgbevf

open StateProgram

variable {D : Type} (V : Device D) (R : Port D → Port D → Prop)

/-- A relation that a read of the device keeps, and that looks neither at the record of reads nor
at the flag of a removed adapter. -/
structure Reading : Prop where
  /-- A read of the device. -/
  device : ∀ reg, Keeps R (readl V reg)
  /-- The adapter is given up. -/
  remove : ∀ p, R p { p with removed := true }
  /-- A read is recorded. -/
  record : ∀ p t, R p { p with reads := t }

/-- A relation that register accesses keep, except writes to the mailbox memory, and that does
not look at the cached bits. -/
structure Accesses : Prop where
  /-- A register read. -/
  read : ∀ reg, Keeps R (readReg V reg)
  /-- A register write outside the mailbox memory. -/
  write : ∀ reg value, ¬ (vfMbmem ≤ reg ∧ reg < vfMailbox) → Keeps R (writeReg V reg value)
  /-- A change of the cached bits. -/
  cache : ∀ p bits, R p { p with mbx := { p.mbx with vfMailbox := bits } }

variable {V R} [IsPreorder (Port D) R]

namespace Reading

variable (h : Reading V R)

include h

/-- Giving up the adapter. -/
theorem removeAdapter :
  Keeps R (removeAdapter : PortM D Unit)
  := by
  apply keeps_modify
  apply h.remove

/-- Reading a dead register again. -/
theorem rereads (reg n : ℕ) (value : BitVec 32) :
  Keeps R (rereads V reg n value)
  := by
  induction n generalizing value with
  | zero => apply keeps_pure
  | succ n ih =>
    apply keeps_bind (h.device reg)
    intro value
    apply keeps_ite
    · apply keeps_pure
    · apply ih

/-- The body of a register read. -/
theorem readRegWith {check : PortM D Unit} (reg : ℕ) (hcheck : Keeps R check) :
  Keeps R (readRegWith V check reg)
  := by
  apply keeps_bind
  · apply keeps_get
  · intro p
    apply keeps_ite
    · apply keeps_pure
    · apply keeps_bind (h.device reg)
      intro value
      apply keeps_bind
      · apply keeps_ite
        · apply hcheck
        · apply keeps_pure
      · intro _
        apply keeps_ite
        · apply keeps_bind
          · apply keeps_get
          · intro p
            apply keeps_ite
            · apply keeps_pure
            · apply h.rereads
        · apply keeps_pure

/-- The check for a removed adapter. -/
theorem checkRemove (reg : ℕ) :
  Keeps R (checkRemove V reg)
  := by
  apply keeps_ite
  · apply h.removeAdapter
  · apply keeps_bind (h.readRegWith vfStatus h.removeAdapter)
    intro value
    apply keeps_ite
    · apply h.removeAdapter
    · apply keeps_pure

/-- A register read. -/
theorem readReg (reg : ℕ) :
  Keeps R (readReg V reg)
  := by
  apply keeps_bind (h.readRegWith reg (h.checkRemove reg))
  intro value
  apply keeps_bind
  · apply keeps_modify
    intro p
    apply h.record
  · intro _
    apply keeps_pure

end Reading

/-- The loops that wait. -/
theorem keeps_pollFor {check : PortM D ℤ} (hcheck : Keeps R check) :
  Keeps R (pollFor check)
  := by
  have hrounds : ∀ countdown, Keeps R (pollRounds check countdown) := by
    intro countdown
    induction countdown with
    | zero => apply keeps_pure
    | succ countdown ih =>
      apply keeps_bind hcheck
      intro err
      apply keeps_ite
      · apply keeps_pure
      · apply ih
  apply keeps_bind
  · apply keeps_get
  · intro p
    apply keeps_ite
    · apply keeps_pure
    · apply hrounds

/-- A loop over queues. -/
theorem keeps_eachQueue {f : ℕ → PortM D Unit} (h : ∀ i, Keeps R (f i)) (n : ℕ) :
  Keeps R (eachQueue f n)
  := by
  induction n with
  | zero => apply keeps_pure
  | succ n ih =>
    apply keeps_bind ih
    intro _
    apply h

/-- The registers of a queue are not in the mailbox memory. -/
theorem queueReg_outside (offset i : ℕ) :
  ¬ (vfMbmem ≤ rxQueueReg offset i ∧ rxQueueReg offset i < vfMailbox)
    ∧ ¬ (vfMbmem ≤ txQueueReg offset i ∧ txQueueReg offset i < vfMailbox)
  := by
  simp only [rxQueueReg, txQueueReg, vfMailbox]
  omega

namespace Accesses

variable (h : Accesses V R)

include h

/-- A read of the mailbox register. -/
theorem readMailboxVf :
  Keeps R (readMailboxVf V)
  := by
  apply keeps_bind (h.read _)
  intro value
  apply keeps_modifyGet
  intro p
  apply h.cache

/-- The clearing of a bit. -/
theorem clearBitVf (mask : BitVec 32) :
  Keeps R (clearBitVf V mask)
  := by
  apply keeps_bind h.readMailboxVf
  intro seen
  apply keeps_modify
  intro p
  split
  · apply h.cache
  · apply refl_of

/-- The test for a bit. -/
theorem checkForBitVf (mask : BitVec 32) :
  Keeps R (checkForBitVf V mask)
  := by
  apply keeps_bind h.readMailboxVf
  intro seen
  apply keeps_pure

/-- The test for an acknowledgement. -/
theorem checkForAckVf :
  Keeps R (checkForAckVf V)
  := by
  apply keeps_bind (h.checkForBitVf _)
  intro err
  apply keeps_ite
  · apply keeps_bind (h.clearBitVf _)
    intro _
    apply keeps_pure
  · apply keeps_pure

/-- The test for a reset. -/
theorem checkForRstVf :
  Keeps R (checkForRstVf V)
  := by
  apply keeps_bind (h.checkForBitVf _)
  intro err
  apply keeps_ite
  · apply keeps_bind (h.clearBitVf _)
    intro _
    apply keeps_pure
  · apply keeps_pure

/-- Taking the lock. -/
theorem obtainMbxLockVf :
  Keeps R (obtainMbxLockVf V)
  := by
  have hrounds : ∀ countdown, Keeps R (lockRounds V countdown) := by
    intro countdown
    induction countdown with
    | zero => apply keeps_pure
    | succ countdown ih =>
      apply keeps_bind h.readMailboxVf
      intro seen
      apply keeps_ite
      · apply ih
      · apply keeps_bind (h.write _ _ (by decide))
        intro _
        apply keeps_bind h.readMailboxVf
        intro again
        apply keeps_ite
        · apply keeps_pure
        · apply ih
  apply keeps_bind
  · apply keeps_get
  · intro p
    apply keeps_ite
    · apply keeps_pure
    · apply hrounds

/-- Releasing the lock. -/
theorem releaseMbxLockVf :
  Keeps R (releaseMbxLockVf V)
  := by
  apply keeps_bind h.readMailboxVf
  intro seen
  apply h.write _ _ (by decide)

/-- Waiting for a message. -/
theorem pollForMsg :
  Keeps R (pollForMsg V)
  := keeps_pollFor (h.checkForBitVf _)

/-- Waiting for an acknowledgement. -/
theorem pollForAck :
  Keeps R (pollForAck V)
  := keeps_pollFor h.checkForAckVf

/-- Copying a message out of the mailbox memory. -/
theorem readMbmem (i n : ℕ) :
  Keeps R (readMbmem V i n)
  := by
  induction n generalizing i with
  | zero => apply keeps_pure
  | succ n ih =>
    apply keeps_bind (h.read _)
    intro word
    apply keeps_bind (ih _)
    intro words
    apply keeps_pure

/-- Reading a message, with either set of functions. -/
theorem mbxRead (ops : MbxOps) (msg : List (BitVec 32)) (size : ℕ) :
  Keeps R (ops.read V msg size)
  := by
  cases ops with
  | legacy =>
    apply keeps_bind h.obtainMbxLockVf
    intro err
    apply keeps_ite
    · apply keeps_pure
    · apply keeps_bind (h.readMbmem _ _)
      intro words
      apply keeps_bind (h.write _ _ (by decide))
      intro _
      apply keeps_pure
  | upgraded =>
    apply keeps_bind (h.checkForBitVf _)
    intro err
    apply keeps_ite
    · apply keeps_pure
    · apply keeps_bind (h.clearBitVf _)
      intro _
      apply keeps_bind (h.readMbmem _ _)
      intro words
      apply keeps_bind h.readMailboxVf
      intro seen
      apply keeps_bind (h.write _ _ (by decide))
      intro _
      apply keeps_pure

/-- Waiting for a message and reading it. -/
theorem pollMbx (msg : List (BitVec 32)) (size : ℕ) :
  Keeps R (pollMbx V msg size)
  := by
  apply keeps_bind
  · apply keeps_get
  · intro p
    apply keeps_ite
    · apply keeps_pure
    · apply keeps_bind h.pollForMsg
      intro err
      apply keeps_ite
      · apply h.mbxRead
      · apply keeps_pure

/-! ### Resets -/

/-- A flush. -/
theorem writeFlush :
  Keeps R (writeFlush V)
  := by
  apply keeps_bind (h.read _)
  intro _
  apply keeps_pure

/-- `ixgbe_stop_adapter_vf`. -/
theorem stopAdapterVf (maxTxQueues maxRxQueues : ℕ) :
  Keeps R (stopAdapterVf V maxTxQueues maxRxQueues)
  := by
  apply keeps_bind (h.write _ _ (by decide))
  intro _
  apply keeps_bind (h.read _)
  intro _
  apply keeps_bind
  · apply keeps_eachQueue
    intro i
    exact h.write _ _ (queueReg_outside _ i).2
  · intro _
    apply keeps_bind
    · apply keeps_eachQueue
      intro i
      apply keeps_bind (h.read _)
      intro value
      exact h.write _ _ (queueReg_outside _ i).1
    · intro _
      apply keeps_bind (h.write _ _ (by decide))
      intro _
      apply h.writeFlush

/-- `ixgbe_virt_clr_reg`. -/
theorem virtClrReg :
  Keeps R (virtClrReg V)
  := by
  have hrx (offset i : ℕ) (value : BitVec 32) :
      Keeps R (writeReg V (rxQueueReg offset i) value) :=
    h.write _ _ (queueReg_outside offset i).1
  have htx (offset i : ℕ) (value : BitVec 32) :
      Keeps R (writeReg V (txQueueReg offset i) value) :=
    h.write _ _ (queueReg_outside offset i).2
  apply keeps_bind (h.write _ _ (by decide))
  intro _
  apply keeps_bind
  · apply keeps_eachQueue
    intro i
    iterate 4
      apply keeps_bind (hrx _ _ _)
      intro _
    iterate 5
      apply keeps_bind (htx _ _ _)
      intro _
    apply keeps_bind (hrx _ _ _)
    intro _
    apply htx
  · intro _
    apply h.writeFlush

/-- The wait for the reset. -/
theorem rstRounds (timeout : ℕ) :
  Keeps R (rstRounds V timeout)
  := by
  induction timeout with
  | zero =>
    apply keeps_bind h.checkForRstVf
    intro _
    apply keeps_pure
  | succ timeout ih =>
    apply keeps_bind h.checkForRstVf
    intro err
    apply keeps_ite
    · apply ih
    · apply keeps_pure

end Accesses

end Ixgbevf
