import Mathlib.Data.List.Basic
import Ixgbevf.Hw
import Ixgbevf.Types

/-!
# The mailbox between the VF and the PF

The functions that `mbx->ops[0]` may hold, legacy and upgraded, and the functions of the
mailbox interface over them.  Each either observes nothing but the mailbox register, or
reads the words of one message: `Port.Reads p p' mail links` says which words of the
mailbox memory and which values of the link register were read between `p` and `p'`.
-/

namespace Ixgbevf

open StateProgram

/-! ### Bits of the mailbox register -/

/-- `IXGBE_VFMAILBOX_REQ`. -/
def reqBit : BitVec 32 := 0x01#32

/-- `IXGBE_VFMAILBOX_ACK`. -/
def ackBit : BitVec 32 := 0x02#32

/-- `IXGBE_VFMAILBOX_VFU`. -/
def vfuBit : BitVec 32 := 0x04#32

/-- `IXGBE_VFMAILBOX_PFU`. -/
def pfuBit : BitVec 32 := 0x08#32

/-- `IXGBE_VFMAILBOX_PFSTS`. -/
def pfstsBit : BitVec 32 := 0x10#32

/-- `IXGBE_VFMAILBOX_PFACK`. -/
def pfackBit : BitVec 32 := 0x20#32

/-- `IXGBE_VFMAILBOX_RSTI`. -/
def rstiBit : BitVec 32 := 0x40#32

/-- `IXGBE_VFMAILBOX_RSTD`. -/
def rstdBit : BitVec 32 := 0x80#32

/-- `IXGBE_VFMAILBOX_R2C_BITS`. -/
def r2cBits : BitVec 32 := 0xB0#32

/-- The sets of flags `a` and `b` have a flag in common: `a & b` in a condition. -/
def hasBit (a b : BitVec 32) : Bool := a &&& b != 0#32

/-- A set of flags has a flag in common with two sets together. -/
theorem hasBit_or (a b m : BitVec 32) :
  hasBit (a ||| b) m = (hasBit a m || hasBit b m)
  := by
  rw [Bool.eq_iff_iff]
  simp only [hasBit, BitVec.and_or_distrib_right, bne_iff_ne, ne_eq, Bool.or_eq_true,
    BitVec.or_eq_zero_iff]
  tauto

variable {D : Type} (V : Device D)

/-! ### The functions of `mbx->ops[0]` -/

/-- `ixgbe_read_mailbox_vf`. -/
def readMailboxVf : PortM D (BitVec 32) := do
  let value ← readReg V vfMailbox
  modifyGet fun p =>
    let seen := value ||| p.mbx.vfMailbox
    (seen, { p with mbx := { p.mbx with vfMailbox := p.mbx.vfMailbox ||| (seen &&& r2cBits) } })

/-- The body of `ixgbe_clear_msg_vf`, `ixgbe_clear_ack_vf` and `ixgbe_clear_rst_vf`. -/
def clearBitVf (mask : BitVec 32) : PortM D Unit := do
  let seen ← readMailboxVf V
  modify fun p =>
    if hasBit seen mask then
      { p with mbx := { p.mbx with vfMailbox := p.mbx.vfMailbox &&& ~~~ mask } }
    else
      p

/-- `ixgbe_clear_msg_vf`. -/
def clearMsgVf : PortM D Unit := clearBitVf V pfstsBit

/-- `ixgbe_clear_ack_vf`. -/
def clearAckVf : PortM D Unit := clearBitVf V pfackBit

/-- `ixgbe_clear_rst_vf`. -/
def clearRstVf : PortM D Unit := clearBitVf V (rstiBit ||| rstdBit)

/-- `ixgbe_check_for_bit_vf`. -/
def checkForBitVf (mask : BitVec 32) : PortM D ℤ := do
  let seen ← readMailboxVf V
  pure (if hasBit seen mask then 0 else errMbx)

/-- `ixgbe_check_for_msg_vf`. -/
def checkForMsgVf : PortM D ℤ := checkForBitVf V pfstsBit

/-- `ixgbe_check_for_ack_vf`. -/
def checkForAckVf : PortM D ℤ := do
  let err ← checkForBitVf V pfackBit
  if err = 0 then do
    clearAckVf V
    pure 0
  else
    pure errMbx

/-- `ixgbe_check_for_rst_vf`. -/
def checkForRstVf : PortM D ℤ := do
  let err ← checkForBitVf V (rstiBit ||| rstdBit)
  if err = 0 then do
    clearRstVf V
    pure 0
  else
    pure errMbx

/-- The loop of `ixgbe_obtain_mbx_lock_vf`, with the rounds that are left. -/
def lockRounds : ℕ → PortM D ℤ
  | 0 => pure errTimeout
  | countdown + 1 => do
    let seen ← readMailboxVf V
    -- held by another thread of the VF or by the PF
    if hasBit seen (vfuBit ||| pfuBit) then
      lockRounds countdown
    else do
      writeReg V vfMailbox (seen ||| vfuBit)
      let again ← readMailboxVf V
      if hasBit again vfuBit then pure 0 else lockRounds countdown

/-- `ixgbe_obtain_mbx_lock_vf`. -/
def obtainMbxLockVf : PortM D ℤ := do
  let p ← get
  if p.mbx.timeout = 0 then pure errConfig else lockRounds V p.mbx.timeout

/-- `ixgbe_release_mbx_lock_vf`. -/
def releaseMbxLockVf : PortM D Unit := do
  let seen ← readMailboxVf V
  writeReg V vfMailbox (seen &&& ~~~ vfuBit)

/-- The loops of `ixgbe_poll_for_msg` and `ixgbe_poll_for_ack`, with the rounds that are
left. -/
def pollRounds (check : PortM D ℤ) : ℕ → PortM D ℤ
  | 0 => pure errTimeout
  | countdown + 1 => do
    let err ← check
    if err = 0 then pure 0 else pollRounds check countdown

/-- The body of `ixgbe_poll_for_msg` and `ixgbe_poll_for_ack`. -/
def pollFor (check : PortM D ℤ) : PortM D ℤ := do
  let p ← get
  if p.mbx.timeout = 0 then pure errConfig else pollRounds check p.mbx.timeout

/-- `ixgbe_poll_for_msg`. -/
def pollForMsg : PortM D ℤ := pollFor (checkForMsgVf V)

/-- `ixgbe_poll_for_ack`. -/
def pollForAck : PortM D ℤ := pollFor (checkForAckVf V)

/-- The loop that copies a message to the mailbox memory, from word `i` on. -/
def writeMbmem : ℕ → List (BitVec 32) → PortM D Unit
  | _, [] => pure ()
  | i, word :: msg => do
    writeReg V (vfMbmem + 4 * i) word
    writeMbmem (i + 1) msg

/-- The loop that copies `n` words from the mailbox memory, from word `i` on. -/
def readMbmem : ℕ → ℕ → PortM D (List (BitVec 32))
  | _, 0 => pure []
  | i, n + 1 => do
    let word ← readReg V (vfMbmem + 4 * i)
    let words ← readMbmem (i + 1) n
    pure (word :: words)

/-- `ixgbe_write_mbx_vf_legacy`. -/
def writeMbxVfLegacy (msg : List (BitVec 32)) (size : ℕ) : PortM D ℤ := do
  let err ← obtainMbxLockVf V
  if err ≠ 0 then
    pure err
  else do
    let _ ← checkForMsgVf V
    clearMsgVf V
    let _ ← checkForAckVf V
    clearAckVf V
    writeMbmem V 0 (msg.take size)
    writeReg V vfMailbox reqBit
    pure 0

/-- `ixgbe_write_mbx_vf`. -/
def writeMbxVf (msg : List (BitVec 32)) (size : ℕ) : PortM D ℤ := do
  let err ← obtainMbxLockVf V
  if err ≠ 0 then
    pure err
  else do
    clearMsgVf V
    clearAckVf V
    writeMbmem V 0 (msg.take size)
    let seen ← readMailboxVf V
    writeReg V vfMailbox (seen ||| reqBit)
    releaseMbxLockVf V
    pollForAck V

/-- `ixgbe_read_mbx_vf_legacy`: the error, and the buffer after the call. -/
def readMbxVfLegacy (msg : List (BitVec 32)) (size : ℕ) : PortM D (ℤ × List (BitVec 32)) := do
  let err ← obtainMbxLockVf V
  if err ≠ 0 then
    pure (err, msg)
  else do
    let words ← readMbmem V 0 size
    writeReg V vfMailbox ackBit
    pure (0, words ++ msg.drop size)

/-- `ixgbe_read_mbx_vf`: the error, and the buffer after the call. -/
def readMbxVf (msg : List (BitVec 32)) (size : ℕ) : PortM D (ℤ × List (BitVec 32)) := do
  let err ← checkForMsgVf V
  if err ≠ 0 then
    pure (errMbxNomsg, msg)
  else do
    clearMsgVf V
    let words ← readMbmem V 0 size
    let seen ← readMailboxVf V
    writeReg V vfMailbox (seen ||| ackBit)
    pure (0, words ++ msg.drop size)

/-- `mbx->ops[0].read`. -/
def MbxOps.read : MbxOps → List (BitVec 32) → ℕ → PortM D (ℤ × List (BitVec 32))
  | .legacy => readMbxVfLegacy V
  | .upgraded => readMbxVf V

/-- `mbx->ops[0].write`. -/
def MbxOps.write : MbxOps → List (BitVec 32) → ℕ → PortM D ℤ
  | .legacy => writeMbxVfLegacy V
  | .upgraded => writeMbxVf V

/-- The body of `ixgbe_init_mbx_params_vf` and `ixgbe_upgrade_mbx_params_vf`. -/
def mbxParamsVf (ops : MbxOps) (vfMailbox : BitVec 32) : Mbx where
  timeout := 2000
  size := 16
  ops := ops
  vfMailbox := vfMailbox
  size_pos := Nat.succ_pos 15

/-- `ixgbe_init_mbx_params_vf`. -/
def Mbx.initParamsVf (mbx : Mbx) : Mbx := mbxParamsVf .legacy mbx.vfMailbox

/-- `ixgbe_upgrade_mbx_params_vf`. -/
def Mbx.upgradeParamsVf (mbx : Mbx) : Mbx := mbxParamsVf .upgraded mbx.vfMailbox

/-! ### The mailbox interface -/

/-- `ixgbe_read_mbx`. -/
def readMbx (msg : List (BitVec 32)) (size : ℕ) : PortM D (ℤ × List (BitVec 32)) := do
  let p ← get
  p.mbx.ops.read V msg (min size p.mbx.size)

/-- `ixgbe_poll_mbx`. -/
def pollMbx (msg : List (BitVec 32)) (size : ℕ) : PortM D (ℤ × List (BitVec 32)) := do
  let p ← get
  if p.mbx.timeout = 0 then
    pure (errConfig, msg)
  else do
    let err ← pollForMsg V
    if err = 0 then p.mbx.ops.read V msg (min size p.mbx.size) else pure (err, msg)

/-- `ixgbe_write_mbx`. -/
def writeMbx (msg : List (BitVec 32)) (size : ℕ) : PortM D ℤ := do
  let p ← get
  if p.mbx.timeout = 0 then
    pure errConfig
  else if size > p.mbx.size then
    pure errParam
  else
    p.mbx.ops.write V msg size

/-- `ixgbevf_write_msg_read_ack` on one buffer for the request and the reply. -/
def writeMsgReadAck (msg : List (BitVec 32)) (size : ℕ) : PortM D (ℤ × List (BitVec 32)) := do
  let err ← writeMbx V msg size
  if err ≠ 0 then pure (err, msg) else pollMbx V msg size

/-! ### What the mailbox functions read -/

/-- The words of the mailbox memory among the registers read. -/
def mailWords (reads : List (ℕ × BitVec 32)) : List (BitVec 32) :=
  (reads.filter fun e => vfMbmem ≤ e.1 ∧ e.1 < vfMailbox).map (·.2)

/-- The values of the link register among the registers read. -/
def linkWords (reads : List (ℕ × BitVec 32)) : List (BitVec 32) :=
  (reads.filter fun e => e.1 = vfLinks).map (·.2)

/-- From `p` to `p'` the words `mail` of the mailbox memory and the values `links` of the
link register were read, and the parameters of the mailbox stayed as they were. -/
structure Port.Reads (p p' : Port D) (mail links : List (BitVec 32)) : Prop where
  /-- `timeout`. -/
  timeout : p'.mbx.timeout = p.mbx.timeout
  /-- `size`. -/
  size : p'.mbx.size = p.mbx.size
  /-- `ops[0]`. -/
  ops : p'.mbx.ops = p.mbx.ops
  /-- The registers read. -/
  reads : ∃ t, p'.reads = p.reads ++ t ∧ mailWords t = mail ∧ linkWords t = links

/-- Neither the mailbox memory nor the link register was read. -/
def Port.Quiet (p p' : Port D) : Prop := Port.Reads p p' [] []

variable {p p' p'' : Port D} {mail mail' links links' : List (BitVec 32)}

/-- The words read in two stretches, one after the other. -/
theorem Port.Reads.trans (h : p.Reads p' mail links) (h' : p'.Reads p'' mail' links') :
  p.Reads p'' (mail ++ mail') (links ++ links')
  := by
  obtain ⟨t, ht, hm, hl⟩ := h.reads
  obtain ⟨t', ht', hm', hl'⟩ := h'.reads
  constructor
  · rw [h'.timeout, h.timeout]
  · rw [h'.size, h.size]
  · rw [h'.ops, h.ops]
  · refine ⟨t ++ t', ?_, ?_, ?_⟩
    · rw [ht', ht, List.append_assoc]
    · rw [← hm, ← hm']
      simp [mailWords]
    · rw [← hl, ← hl']
      simp [linkWords]

/-- The words read, from the records before and after. -/
theorem Port.Reads.drop (h : p.Reads p' mail links) :
  mailWords (p'.reads.drop p.reads.length) = mail
    ∧ linkWords (p'.reads.drop p.reads.length) = links
  := by
  obtain ⟨t, ht, hm, hl⟩ := h.reads
  rw [ht, List.drop_left]
  exact ⟨hm, hl⟩

/-- Silent steps read nothing. -/
theorem Port.Silent.quiet (h : p.Silent p') :
  p.Quiet p'
  := by
  constructor
  · rw [h.mbx]
  · rw [h.mbx]
  · rw [h.mbx]
  · exact ⟨[], by rw [h.reads, List.append_nil], rfl, rfl⟩

instance : IsPreorder (Port D) Port.Quiet where
  refl p := (refl_of Port.Silent p).quiet
  trans _ _ _ h h' := h.trans h'

/-- A quiet stretch before one that reads. -/
theorem Port.Quiet.reads (h : p.Quiet p') (h' : p'.Reads p'' mail links) :
  p.Reads p'' mail links
  := h.trans h'

/-- A quiet stretch after one that reads. -/
theorem Port.Reads.quiet (h : p.Reads p' mail links) (h' : p'.Quiet p'') :
  p.Reads p'' mail links
  := by
  have h'' := h.trans h'
  rwa [List.append_nil, List.append_nil] at h''

/-- A register read adds the register and the value it returned. -/
theorem readReg_reads {reg : ℕ} (p : Port D) :
  p.Reads ((readReg V reg).run p).2 (mailWords [(reg, ((readReg V reg).run p).1)])
    (linkWords [(reg, ((readReg V reg).run p).1)])
  := by
  obtain ⟨hm, hr⟩ : ((readReg V reg).run p).2.mbx = _ ∧ _ := readReg_run V p
  constructor
  · rw [hm]
  · rw [hm]
  · rw [hm]
  · exact ⟨_, hr, rfl, rfl⟩

/-- A register write is quiet. -/
theorem writeReg_quiet {reg : ℕ} {value : BitVec 32} :
  Keeps Port.Quiet (writeReg V reg value)
  := fun p => (writeReg_silent V p).quiet

/-- A read of the mailbox register is quiet, and adds to the cached bits. -/
theorem readMailboxVf_quiet :
  Keeps Port.Quiet (readMailboxVf V)
  := by
  apply keeps_bind
  · apply readReg_reads
  · intro value
    apply keeps_modifyGet
    intro p
    exact ⟨rfl, rfl, rfl, [], by rw [List.append_nil], rfl, rfl⟩

/-- Clearing a cached bit is quiet. -/
theorem clearBitVf_quiet {mask : BitVec 32} :
  Keeps Port.Quiet (clearBitVf V mask)
  := by
  apply keeps_bind
  · apply readMailboxVf_quiet
  · intro seen
    apply keeps_modify
    intro p
    split
    · exact ⟨rfl, rfl, rfl, [], by rw [List.append_nil], rfl, rfl⟩
    · apply refl_of

/-- The test for a bit is quiet. -/
theorem checkForBitVf_quiet {mask : BitVec 32} :
  Keeps Port.Quiet (checkForBitVf V mask)
  := by
  apply keeps_bind
  · apply readMailboxVf_quiet
  · intro seen
    apply keeps_pure

/-- The test for an acknowledgement is quiet. -/
theorem checkForAckVf_quiet :
  Keeps Port.Quiet (checkForAckVf V)
  := by
  apply keeps_bind
  · apply checkForBitVf_quiet
  · intro err
    apply keeps_ite
    · apply keeps_bind
      · apply clearBitVf_quiet
      · intro _
        apply keeps_pure
    · apply keeps_pure

/-- The test for a reset is quiet. -/
theorem checkForRstVf_quiet :
  Keeps Port.Quiet (checkForRstVf V)
  := by
  apply keeps_bind
  · apply checkForBitVf_quiet
  · intro err
    apply keeps_ite
    · apply keeps_bind
      · apply clearBitVf_quiet
      · intro _
        apply keeps_pure
    · apply keeps_pure

/-- The rounds of the lock are quiet. -/
theorem lockRounds_quiet {countdown : ℕ} :
  Keeps Port.Quiet (lockRounds V countdown)
  := by
  induction countdown with
  | zero => apply keeps_pure
  | succ countdown ih =>
    apply keeps_bind
    · apply readMailboxVf_quiet
    · intro seen
      apply keeps_ite
      · apply ih
      · apply keeps_bind
        · apply writeReg_quiet
        · intro _
          apply keeps_bind
          · apply readMailboxVf_quiet
          · intro again
            apply keeps_ite
            · apply keeps_pure
            · apply ih

/-- Taking the lock is quiet. -/
theorem obtainMbxLockVf_quiet :
  Keeps Port.Quiet (obtainMbxLockVf V)
  := by
  apply keeps_bind
  · apply keeps_get
  · intro p
    apply keeps_ite
    · apply keeps_pure
    · apply lockRounds_quiet

/-- Polling with a quiet test is quiet. -/
theorem pollFor_quiet {check : PortM D ℤ} (h : Keeps Port.Quiet check) :
  Keeps Port.Quiet (pollFor check)
  := by
  have hr : ∀ countdown, Keeps Port.Quiet (pollRounds check countdown) := by
    intro countdown
    induction countdown with
    | zero => apply keeps_pure
    | succ countdown ih =>
      apply keeps_bind
      · apply h
      · intro err
        apply keeps_ite
        · apply keeps_pure
        · apply ih
  apply keeps_bind
  · apply keeps_get
  · intro p
    apply keeps_ite
    · apply keeps_pure
    · apply hr

/-- Copying a message to the mailbox memory is quiet. -/
theorem writeMbmem_quiet {i : ℕ} {msg : List (BitVec 32)} :
  Keeps Port.Quiet (writeMbmem V i msg)
  := by
  induction msg generalizing i with
  | nil => apply keeps_pure
  | cons word msg ih =>
    apply keeps_bind
    · apply writeReg_quiet
    · intro _
      apply ih

/-- Sending a message is quiet, with either set of functions. -/
theorem MbxOps.write_quiet {ops : MbxOps} {msg : List (BitVec 32)} {size : ℕ} :
  Keeps Port.Quiet (ops.write V msg size)
  := by
  cases ops with
  | legacy =>
    refine keeps_bind (obtainMbxLockVf_quiet V) fun err => keeps_ite (keeps_pure _) ?_
    refine keeps_bind (checkForBitVf_quiet V) fun _ => ?_
    refine keeps_bind (clearBitVf_quiet V) fun _ => ?_
    refine keeps_bind (checkForAckVf_quiet V) fun _ => ?_
    refine keeps_bind (clearBitVf_quiet V) fun _ => ?_
    refine keeps_bind (writeMbmem_quiet V) fun _ => ?_
    exact keeps_bind (writeReg_quiet V) fun _ => keeps_pure _
  | upgraded =>
    refine keeps_bind (obtainMbxLockVf_quiet V) fun err => keeps_ite (keeps_pure _) ?_
    refine keeps_bind (clearBitVf_quiet V) fun _ => ?_
    refine keeps_bind (clearBitVf_quiet V) fun _ => ?_
    refine keeps_bind (writeMbmem_quiet V) fun _ => ?_
    refine keeps_bind (readMailboxVf_quiet V) fun seen => ?_
    refine keeps_bind (writeReg_quiet V) fun _ => ?_
    refine keeps_bind ?_ fun _ => pollFor_quiet (checkForAckVf_quiet V)
    exact keeps_bind (readMailboxVf_quiet V) fun _ => writeReg_quiet V

/-- `ixgbe_write_mbx` is quiet. -/
theorem writeMbx_quiet {msg : List (BitVec 32)} {size : ℕ} :
  Keeps Port.Quiet (writeMbx V msg size)
  := by
  apply keeps_bind
  · apply keeps_get
  · intro p
    apply keeps_ite
    · apply keeps_pure
    · apply keeps_ite
      · apply keeps_pure
      · apply MbxOps.write_quiet

/-- Copying `n` words from the mailbox memory reads the words it returns. -/
theorem readMbmem_reads {i n : ℕ} (h : i + n ≤ 16) (p : Port D) :
  p.Reads ((readMbmem V i n).run p).2 ((readMbmem V i n).run p).1 []
    ∧ ((readMbmem V i n).run p).1.length = n
  := by
  induction n generalizing i p with
  | zero => exact ⟨refl_of Port.Quiet p, rfl⟩
  | succ n ih =>
    have hr : p.Reads ((readReg V (vfMbmem + 4 * i)).run p).2 _ _ := readReg_reads V p
    have hm (w : BitVec 32) : mailWords [(vfMbmem + 4 * i, w)] = [w] := by
      have hi : vfMbmem + 4 * i < vfMailbox := by
        unfold vfMbmem vfMailbox
        omega
      simp [mailWords, hi]
    have hl (w : BitVec 32) : linkWords [(vfMbmem + 4 * i, w)] = [] := by
      have hi : vfMbmem + 4 * i ≠ vfLinks := by
        unfold vfMbmem vfLinks
        omega
      simp [linkWords, hi]
    rw [hm, hl] at hr
    obtain ⟨hw, hn⟩ := ih (i := i + 1) (by omega) ((readReg V (vfMbmem + 4 * i)).run p).2
    exact ⟨hr.trans hw, congrArg (· + 1) hn⟩

/-- What a read of a message of `n` words into `msg` does: it reads the words and puts
them at the start of the buffer, or it fails and reads nothing. -/
def MessageRead (n : ℕ) (msg : List (BitVec 32)) (p : Port D)
    (r : (ℤ × List (BitVec 32)) × Port D) : Prop :=
  (r.1.1 = 0 ∧ ∃ words, words.length = n ∧ r.1.2 = words ++ msg.drop n ∧ p.Reads r.2 words [])
    ∨ (r.1.1 ≠ 0 ∧ r.1.2 = msg ∧ p.Quiet r.2)

/-- The read functions of both sets read one message, or fail. -/
theorem MbxOps.read_message {ops : MbxOps} {msg : List (BitVec 32)} {n : ℕ} (h : n ≤ 16)
    (p : Port D) :
  MessageRead n msg p ((ops.read V msg n).run p)
  := by
  have hn : 0 + n ≤ 16 := by omega
  cases ops with
  | legacy =>
    apply run_bind_of (fun _ p' => p.Quiet p') (MessageRead n msg p) (obtainMbxLockVf_quiet V p)
    intro err p₁ h₁
    split
    next he => exact .inr ⟨he, rfl, h₁⟩
    next he =>
      obtain ⟨hw, hl⟩ := readMbmem_reads V hn p₁
      have hq : Keeps Port.Quiet (writeReg V vfMailbox ackBit) := writeReg_quiet V
      exact .inl ⟨rfl, _, hl, rfl, (h₁.reads hw).quiet (hq _)⟩
  | upgraded =>
    apply run_bind_of (fun _ p' => p.Quiet p') (MessageRead n msg p) (checkForBitVf_quiet V p)
    intro err p₁ h₁
    split
    next he =>
      have hne : errMbxNomsg ≠ 0 := by decide
      exact .inr ⟨hne, rfl, h₁⟩
    next he =>
      apply run_bind_of (fun _ p' => p₁.Quiet p') _ (clearBitVf_quiet V p₁)
      intro _ p₂ h₂
      obtain ⟨hw, hl⟩ := readMbmem_reads V hn p₂
      have hq : Keeps Port.Quiet (do
          let seen ← readMailboxVf V
          writeReg V vfMailbox (seen ||| ackBit)) :=
        keeps_bind (readMailboxVf_quiet V) fun _ => writeReg_quiet V
      exact .inl ⟨rfl, _, hl, rfl, (h₁.reads (h₂.reads hw)).quiet (hq _)⟩

/-- A quiet stretch before a message read. -/
theorem MessageRead.of_quiet {n : ℕ} {msg : List (BitVec 32)} {r : (ℤ × List (BitVec 32)) × Port D}
    (h : p.Quiet p') (hr : MessageRead n msg p' r) :
  MessageRead n msg p r
  := by
  obtain ⟨he, words, hl, hb, hw⟩ | ⟨he, hb, hq⟩ := hr
  · exact .inl ⟨he, words, hl, hb, h.reads hw⟩
  · exact .inr ⟨he, hb, trans_of Port.Quiet h hq⟩

/-- `ixgbe_read_mbx` reads one message, limited to the size of the mailbox, or fails. -/
theorem readMbx_message {msg : List (BitVec 32)} {size : ℕ} (h : size ≤ 16) (p : Port D) :
  MessageRead (min size p.mbx.size) msg p ((readMbx V msg size).run p)
  := by
  apply MbxOps.read_message
  omega

/-- `ixgbe_poll_mbx` reads one message, limited to the size of the mailbox, or fails. -/
theorem pollMbx_message {msg : List (BitVec 32)} {size : ℕ} (h : size ≤ 16) (p : Port D) :
  MessageRead (min size p.mbx.size) msg p ((pollMbx V msg size).run p)
  := by
  have hn : min size p.mbx.size ≤ 16 := by omega
  have hc : errConfig ≠ 0 := by decide
  apply run_bind_of (fun p' p'' => p' = p ∧ p'' = p) _ ⟨rfl, rfl⟩
  rintro _ _ ⟨rfl, rfl⟩
  split
  · exact .inr ⟨hc, rfl, refl_of Port.Quiet _⟩
  · apply run_bind_of (fun _ p' => Port.Quiet _ p') _ (pollFor_quiet (checkForBitVf_quiet V) _)
    intro err p₁ h₁
    split
    · apply (MbxOps.read_message V hn p₁).of_quiet h₁
    next he => exact .inr ⟨he, rfl, h₁⟩

/-- `ixgbevf_write_msg_read_ack` reads one reply of the size of the request, or fails. -/
theorem writeMsgReadAck_message {msg : List (BitVec 32)} {size : ℕ} (h : size ≤ 16)
    (p : Port D) :
  MessageRead (min size p.mbx.size) msg p ((writeMsgReadAck V msg size).run p)
  := by
  apply run_bind_of (fun _ p' => p.Quiet p') _ (writeMbx_quiet V p)
  intro err p₁ h₁
  split
  next he => exact .inr ⟨he, rfl, h₁⟩
  next he =>
    have hr : MessageRead _ msg p₁ _ := pollMbx_message V h p₁
    rw [h₁.size] at hr
    apply hr.of_quiet h₁

/-- A message that is longer than the mailbox is not sent. -/
theorem writeMbx_size {msg : List (BitVec 32)} {size : ℕ} (p : Port D) (h : p.mbx.size < size) :
  ((writeMbx V msg size).run p).1 ≠ 0
  := by
  have hc : errConfig ≠ 0 := by decide
  have hp : errParam ≠ 0 := by decide
  apply run_bind_of (fun p' p'' => p' = p ∧ p'' = p) (fun r => r.1 ≠ 0) ⟨rfl, rfl⟩
  rintro _ _ ⟨rfl, rfl⟩
  rw [if_pos h]
  split
  · exact hc
  · exact hp

/-- An exchange whose message is longer than the mailbox fails. -/
theorem writeMsgReadAck_size {msg : List (BitVec 32)} {size : ℕ} (p : Port D)
    (h : p.mbx.size < size) :
  ((writeMsgReadAck V msg size).run p).1.1 ≠ 0
  := by
  refine run_bind_of (fun err _ => err ≠ 0)
    (fun r : (ℤ × List (BitVec 32)) × Port D => r.1.1 ≠ 0) ?_ ?_
  · apply writeMbx_size V p h
  · intro err p₁ he
    rw [if_pos he]
    exact he

/-! ### The errors that the mailbox functions return -/

/-- The errors of an exchange in which the PF said nothing. -/
def IsSilence (err : ℤ) : Prop :=
  err = 0 ∨ err = errConfig ∨ err = errParam ∨ err = errTimeout ∨ err = errMbxNomsg

/-- Taking the lock ends well, or with a configuration error or a timeout. -/
theorem obtainMbxLockVf_returns :
  Returns IsSilence (obtainMbxLockVf V)
  := by
  have hr : ∀ countdown, Returns IsSilence (lockRounds V countdown) := by
    intro countdown
    induction countdown with
    | zero =>
      apply returns_pure
      simp [IsSilence]
    | succ countdown ih =>
      apply returns_bind
      intro seen
      apply returns_ite
      · apply ih
      · apply returns_bind
        intro _
        apply returns_bind
        intro again
        apply returns_ite
        · apply returns_pure
          simp [IsSilence]
        · apply ih
  apply returns_bind
  intro p
  apply returns_ite
  · apply returns_pure
    simp [IsSilence]
  · apply hr

/-- Polling ends well, or with a configuration error or a timeout. -/
theorem pollFor_returns {check : PortM D ℤ} :
  Returns IsSilence (pollFor check)
  := by
  have hr : ∀ countdown, Returns IsSilence (pollRounds check countdown) := by
    intro countdown
    induction countdown with
    | zero =>
      apply returns_pure
      simp [IsSilence]
    | succ countdown ih =>
      apply returns_bind
      intro err
      apply returns_ite
      · apply returns_pure
        simp [IsSilence]
      · apply ih
  apply returns_bind
  intro p
  apply returns_ite
  · apply returns_pure
    simp [IsSilence]
  · apply hr

/-- Sending a message ends well, or without a word of the PF. -/
theorem MbxOps.write_returns {ops : MbxOps} {msg : List (BitVec 32)} {size : ℕ} :
  Returns IsSilence (ops.write V msg size)
  := by
  cases ops with
  | legacy =>
    refine returns_bind_of (obtainMbxLockVf_returns V) fun err he => ?_
    apply returns_ite
    · apply returns_pure he
    · iterate 6
        apply returns_bind
        intro _
      apply returns_pure
      simp [IsSilence]
  | upgraded =>
    refine returns_bind_of (obtainMbxLockVf_returns V) fun err he => ?_
    apply returns_ite
    · apply returns_pure he
    · iterate 6
        apply returns_bind
        intro _
      apply pollFor_returns

/-- Reading a message ends well, or without a word of the PF. -/
theorem MbxOps.read_returns {ops : MbxOps} {msg : List (BitVec 32)} {size : ℕ} :
  Returns (fun r => IsSilence r.1) (ops.read V msg size)
  := by
  cases ops with
  | legacy =>
    refine returns_bind_of (obtainMbxLockVf_returns V) fun err he => ?_
    apply returns_ite
    · apply returns_pure he
    · iterate 2
        apply returns_bind
        intro _
      apply returns_pure
      simp [IsSilence]
  | upgraded =>
    apply returns_bind
    intro err
    apply returns_ite
    · apply returns_pure
      simp [IsSilence]
    · iterate 4
        apply returns_bind
        intro _
      apply returns_pure
      simp [IsSilence]

/-- `ixgbe_write_mbx` ends well, or without a word of the PF. -/
theorem writeMbx_returns {msg : List (BitVec 32)} {size : ℕ} :
  Returns IsSilence (writeMbx V msg size)
  := by
  apply returns_bind
  intro p
  apply returns_ite
  · apply returns_pure
    simp [IsSilence]
  · apply returns_ite
    · apply returns_pure
      simp [IsSilence]
    · apply MbxOps.write_returns

/-- `ixgbe_poll_mbx` ends well, or without a word of the PF. -/
theorem pollMbx_returns {msg : List (BitVec 32)} {size : ℕ} :
  Returns (fun r => IsSilence r.1) (pollMbx V msg size)
  := by
  apply returns_bind
  intro p
  apply returns_ite
  · apply returns_pure
    simp [IsSilence]
  · refine returns_bind_of pollFor_returns fun err he => ?_
    apply returns_ite
    · apply MbxOps.read_returns
    · apply returns_pure he

/-- An exchange with the PF never ends in `IXGBE_ERR_MBX` or
`IXGBE_ERR_FEATURE_NOT_SUPPORTED`: these say what the PF answered. -/
theorem writeMsgReadAck_returns {msg : List (BitVec 32)} {size : ℕ} :
  Returns (fun r => IsSilence r.1) (writeMsgReadAck V msg size)
  := by
  refine returns_bind_of (writeMbx_returns V) fun err he => ?_
  apply returns_ite
  · apply returns_pure he
  · apply pollMbx_returns

end Ixgbevf
