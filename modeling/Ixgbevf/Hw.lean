import Mathlib.Data.Nat.Notation
import Ixgbevf.Lib.Frame

/-!
# Register access

A device answers register reads and takes register writes as it likes: a `Device` says
what its states do, and nothing is assumed of them.  A `Port` is what the driver keeps
to reach the device, with the mailbox parameters of `hw->mbx`, and it records the values
that `IXGBE_READ_REG` returned, in order.
-/

namespace Ixgbevf

open StateProgram

/-! ### Registers -/

/-- `IXGBE_VFSTATUS`. -/
def vfStatus : ℕ := 0x8

/-- `IXGBE_VFLINKS`. -/
def vfLinks : ℕ := 0x10

/-- `IXGBE_VFMBMEM`, the first word of the mailbox memory. -/
def vfMbmem : ℕ := 0x200

/-- `IXGBE_VFMAILBOX`. -/
def vfMailbox : ℕ := 0x2FC

/-- `IXGBE_FAILED_READ_REG`. -/
def failedReadReg : BitVec 32 := 0xffffffff#32

/-- `IXGBE_DEAD_READ_REG`. -/
def deadReadReg : BitVec 32 := 0xdeadbeef#32

/-- `IXGBE_DEAD_READ_RETRIES`. -/
def deadReadRetries : ℕ := 10

/-! ### The device and the port to it -/

/-- A device over states `D`: what a read answers, and how reads and writes change it. -/
structure Device (D : Type) where
  /-- `readl` of a register. -/
  read : D → ℕ → BitVec 32 × D
  /-- `writel` to a register. -/
  write : D → ℕ → BitVec 32 → D

/-- The two sets of functions that `mbx->ops[0]` may hold. -/
inductive MbxOps where
  | legacy
  | upgraded
  deriving DecidableEq, Repr

/-- `struct ixgbe_mbx_info`. -/
structure Mbx where
  /-- `timeout`. -/
  timeout : ℕ
  /-- `size`. -/
  size : ℕ
  /-- `ops[0]`. -/
  ops : MbxOps
  /-- `vf_mailbox`, the read-to-clear bits seen and not yet consumed. -/
  vfMailbox : BitVec 32
  /-- The mailbox holds a word. -/
  size_pos : 0 < size
  deriving DecidableEq, Repr

/-- What the driver keeps to reach the device, and the record of the registers read. -/
structure Port (D : Type) where
  /-- `hw->hw_addr` is `NULL`: the adapter is gone. -/
  removed : Bool
  /-- `hw->mbx`. -/
  mbx : Mbx
  /-- The state of the device. -/
  dev : D
  /-- The registers that were read and the values that the reads returned. -/
  reads : List (ℕ × BitVec 32)

/-- Programs that act on the port. -/
abbrev PortM (D : Type) := StateM (Port D)

variable {D : Type} (V : Device D)

/-- `readl`. -/
def readl (reg : ℕ) : PortM D (BitVec 32) :=
  modifyGet fun p => ((V.read p.dev reg).1, { p with dev := (V.read p.dev reg).2 })

/-- `ixgbevf_remove_adapter`. -/
def removeAdapter : PortM D Unit :=
  modify fun p => { p with removed := true }

/-- The loop of `ixgbevf_validate_register_read`, with the value of the last read. -/
def rereads (reg : ℕ) : ℕ → BitVec 32 → PortM D (BitVec 32)
  | 0, value => pure value
  | n + 1, _ => do
    let value ← readl V reg
    if value ≠ deadReadReg then pure value else rereads reg n value

/-- `ixgbevf_validate_register_read`. -/
def validateRegisterRead (reg : ℕ) : PortM D (BitVec 32) := do
  let p ← get
  if p.removed then pure failedReadReg else rereads V reg deadReadRetries deadReadReg

/-- The body of `ixgbe_read_reg` over what it does when a read fails. -/
def readRegWith (checkRemove : PortM D Unit) (reg : ℕ) : PortM D (BitVec 32) := do
  let p ← get
  if p.removed then
    pure failedReadReg
  else do
    let value ← readl V reg
    (if value = failedReadReg then checkRemove else pure () : PortM D Unit)
    if value = deadReadReg then validateRegisterRead V reg else pure value

/-- `ixgbevf_check_remove`.  The status register it reads needs no further check: where
that read fails too, `ixgbevf_check_remove` on the status register removes the adapter. -/
def checkRemove (reg : ℕ) : PortM D Unit :=
  if reg = vfStatus then
    removeAdapter
  else do
    let value ← readRegWith V removeAdapter vfStatus
    if value = failedReadReg then removeAdapter else pure ()

/-- `IXGBE_READ_REG`. -/
def readReg (reg : ℕ) : PortM D (BitVec 32) := do
  let value ← readRegWith V (checkRemove V reg) reg
  modify fun p => { p with reads := p.reads ++ [(reg, value)] }
  pure value

/-- `IXGBE_WRITE_REG`. -/
def writeReg (reg : ℕ) (value : BitVec 32) : PortM D Unit :=
  modify fun p => if p.removed then p else { p with dev := V.write p.dev reg value }

/-! ### What register accesses leave alone -/

/-- The mailbox parameters and the record of reads are the same. -/
structure Port.Silent (p p' : Port D) : Prop where
  /-- The mailbox parameters and the cached bits. -/
  mbx : p'.mbx = p.mbx
  /-- The record of reads. -/
  reads : p'.reads = p.reads

instance : IsPreorder (Port D) Port.Silent where
  refl _ := ⟨rfl, rfl⟩
  trans _ _ _ h h' := ⟨h'.mbx.trans h.mbx, h'.reads.trans h.reads⟩

/-- A read of the device is silent. -/
theorem readl_silent {reg : ℕ} :
  Keeps Port.Silent (readl V reg)
  := by
  apply keeps_modifyGet
  intro p
  exact ⟨rfl, rfl⟩

/-- Giving up the adapter is silent. -/
theorem removeAdapter_silent :
  Keeps Port.Silent (removeAdapter : PortM D Unit)
  := by
  apply keeps_modify
  intro p
  exact ⟨rfl, rfl⟩

/-- Reading a dead register again is silent. -/
theorem rereads_silent {reg n : ℕ} {value : BitVec 32} :
  Keeps Port.Silent (rereads V reg n value)
  := by
  induction n generalizing value with
  | zero => apply keeps_pure
  | succ n ih =>
    apply keeps_bind
    · apply readl_silent
    · intro value
      apply keeps_ite
      · apply keeps_pure
      · apply ih

/-- The body of a register read is silent when what it does on failure is. -/
theorem readRegWith_silent {check : PortM D Unit} {reg : ℕ} (h : Keeps Port.Silent check) :
  Keeps Port.Silent (readRegWith V check reg)
  := by
  apply keeps_bind
  · apply keeps_get
  · intro p
    apply keeps_ite
    · apply keeps_pure
    · apply keeps_bind
      · apply readl_silent
      · intro value
        apply keeps_bind
        · apply keeps_ite
          · apply h
          · apply keeps_pure
        · intro _
          apply keeps_ite
          · apply keeps_bind
            · apply keeps_get
            · intro p
              apply keeps_ite
              · apply keeps_pure
              · apply rereads_silent
          · apply keeps_pure

/-- The check for a removed adapter is silent. -/
theorem checkRemove_silent {reg : ℕ} :
  Keeps Port.Silent (checkRemove V reg)
  := by
  apply keeps_ite
  · apply removeAdapter_silent
  · apply keeps_bind
    · apply readRegWith_silent
      apply removeAdapter_silent
    · intro value
      apply keeps_ite
      · apply removeAdapter_silent
      · apply keeps_pure

/-- A register read records itself, and leaves the mailbox parameters alone. -/
theorem readReg_run {reg : ℕ} (p : Port D) :
  ((readReg V reg).run p).2.mbx = p.mbx
    ∧ ((readReg V reg).run p).2.reads = p.reads ++ [(reg, ((readReg V reg).run p).1)]
  := by
  have h : Keeps Port.Silent (readRegWith V (checkRemove V reg) reg) :=
    readRegWith_silent V (checkRemove_silent V)
  obtain ⟨hm, hr⟩ := h p
  constructor
  · exact hm
  · exact congrArg (· ++ [(reg, ((readRegWith V (checkRemove V reg) reg).run p).1)]) hr

/-- A register write is silent. -/
theorem writeReg_silent {reg : ℕ} {value : BitVec 32} :
  Keeps Port.Silent (writeReg V reg value)
  := by
  apply keeps_modify
  intro p
  split
  · exact ⟨rfl, rfl⟩
  · exact ⟨rfl, rfl⟩

end Ixgbevf
