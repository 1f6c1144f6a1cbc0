import Mathlib.Data.List.Induction
import Ixgbevf.Lib.Bits
import Ixgbevf.Lib.Calls
import Ixgbevf.Lib.Run
import Ixgbevf.Mbx

/-!
# The events of the mailbox register

`PFSTS`, `PFACK` and `RSTD` are events: the hardware sets them whenever it likes, and every
read of the register clears them.  The driver keeps those it has read and not yet consumed
in `vf_mailbox`.  An `Operation` is a function of the mailbox, and the trace of a sequence
of operations records what the hardware set and which events the driver checked for and
cleared, in the order in which it happened.
-/

namespace Ixgbevf.Mailbox.Events

open StateProgram TransSystem

/-! ### Hardware -/

/-- The bits of the mailbox register that are no events. -/
def level (rsti : Bool) (owners : BitVec 4) : BitVec 32 :=
  (if rsti then rstiBit else 0#32) ||| owners.setWidth 32

/-- What the hardware does before an access of the driver, and what the access finds. -/
structure Turn where
  /-- The events that the hardware sets. -/
  sets : BitVec 32
  /-- `RSTI`. -/
  rsti : Bool
  /-- `REQ`, `ACK`, `VFU` and `PFU`. -/
  owners : BitVec 4
  /-- A word of the mailbox memory. -/
  word : BitVec 32
  /-- The status register. -/
  status : BitVec 32
  /-- The hardware sets events only. -/
  sets_r2c : sets &&& r2cBits = sets
  /-- The adapter is there. -/
  status_ne : status ≠ failedReadReg

/-- The events that the next read of the mailbox register will show, all that were set
so far, and what the hardware does next. -/
structure Hardware where
  /-- The events that were set since the last read. -/
  pending : BitVec 32
  /-- The events that were set so far. -/
  arrived : List (BitVec 32)
  /-- The turns of the hardware, one before each access. -/
  turns : ℕ → Turn
  /-- Only events are pending. -/
  pending_r2c : pending &&& r2cBits = pending

namespace Hardware

/-- The hardware takes its turn. -/
def turn (d : Hardware) : Hardware where
  pending := d.pending ||| (d.turns 0).sets
  arrived := d.arrived ++ [(d.turns 0).sets]
  turns := fun n => d.turns (n + 1)
  pending_r2c := by rw [BitVec.and_or_distrib_right, d.pending_r2c, (d.turns 0).sets_r2c]

/-- A read of the mailbox register clears the events. -/
def clear (d : Hardware) : Hardware where
  pending := 0#32
  arrived := d.arrived
  turns := d.turns
  pending_r2c := by decide

/-- What the mailbox register shows after the next turn. -/
def mailbox (d : Hardware) : BitVec 32 :=
  d.turn.pending ||| level (d.turns 0).rsti (d.turns 0).owners

/-- The mailbox register has eight bits. -/
theorem mailbox_high (d : Hardware) :
  d.mailbox.getLsbD 31 = false
  := by
  have hl : ∀ rsti owners, (level rsti owners).getLsbD 31 = false := by decide
  have hp : d.turn.pending.getLsbD 31 = false := by
    rw [← d.turn.pending_r2c]
    simp [r2cBits]
  rw [mailbox, BitVec.getLsbD_or, hp, hl, Bool.or_false]

/-- The mailbox register never reads like a register of an adapter that is gone. -/
theorem mailbox_ne (d : Hardware) :
  d.mailbox ≠ failedReadReg ∧ d.mailbox ≠ deadReadReg
  := by
  have hf : failedReadReg.getLsbD 31 = true := by decide
  have hd : deadReadReg.getLsbD 31 = true := by decide
  constructor
  · intro h
    rw [← h, mailbox_high] at hf
    contradiction
  · intro h
    rw [← h, mailbox_high] at hd
    contradiction

end Hardware

/-- The registers. -/
def hardware : Device Hardware where
  read d reg :=
    if reg = vfMailbox then
      (d.mailbox, d.turn.clear)
    else if reg = vfStatus then
      ((d.turns 0).status, d.turn)
    else
      ((d.turns 0).word, d.turn)
  write d _ _ := d.turn

/-! ### Operations -/

/-- What the driver checks for and clears. -/
inductive Flag where
  | msg
  | ack
  | rst
deriving DecidableEq, Repr

/-- The mask of the functions that check for a flag and clear it. -/
def Flag.mask : Flag → BitVec 32
  | .msg => pfstsBit
  | .ack => pfackBit
  | .rst => rstiBit ||| rstdBit

/-- The event of a flag. -/
def Flag.bit : Flag → BitVec 32
  | .msg => pfstsBit
  | .ack => pfackBit
  | .rst => rstdBit

/-- The accesses of which the functions of the mailbox are made. -/
inductive Call : Type → Type where
  /-- `ixgbe_check_for_bit_vf` -/
  | check (flag : Flag) : Call ℤ
  /-- `ixgbe_clear_msg_vf`, `ixgbe_clear_ack_vf` and `ixgbe_clear_rst_vf` -/
  | clear (flag : Flag) : Call Unit
  /-- another `ixgbe_read_mailbox_vf` -/
  | read : Call (BitVec 32)
  | write (reg : ℕ) (value : BitVec 32) : Call Unit
  /-- read of a word of the mailbox memory -/
  | load (i : ℕ) (h : i < 16) : Call (BitVec 32)
  /-- other parameters of the mailbox -/
  | params (ops : MbxOps) : Call Unit
  | timeout (n : ℕ) : Call Unit

/-- What an access does. -/
def Call.run : {α : Type} → Call α → PortM Hardware α
  | _, .check flag => checkForBitVf hardware flag.mask
  | _, .clear flag => clearBitVf hardware flag.mask
  | _, .read => readMailboxVf hardware
  | _, .write reg value => writeReg hardware reg value
  | _, .load i _ => readReg hardware (vfMbmem + 4 * i)
  | _, .params ops => modify fun p => { p with mbx := mbxParamsVf ops p.mbx.vfMailbox }
  | _, .timeout n => modify fun p => { p with mbx := { p.mbx with timeout := n } }

/-- The mailbox has at most sixteen words. -/
def Sized (p : Port Hardware) : Prop := p.mbx.size ≤ 16

instance Sized.decide : DecidablePred Sized := fun p => Nat.decLe p.mbx.size 16

/-- The accesses of a function of the mailbox. -/
abbrev Accesses {α : Type} (m : PortM Hardware α) := Calls Sized Call.run m

/-- `ixgbe_check_for_bit_vf`. -/
def checkBit (flag : Flag) : Accesses (checkForBitVf hardware flag.mask) :=
  .call (Call.check flag)

/-- `ixgbe_clear_msg_vf`, `ixgbe_clear_ack_vf` and `ixgbe_clear_rst_vf`. -/
def clearBit (flag : Flag) : Accesses (clearBitVf hardware flag.mask) :=
  .call (Call.clear flag)

/-- `ixgbe_read_mailbox_vf`. -/
def readMailbox : Accesses (readMailboxVf hardware) := .call Call.read

/-- A write of a register. -/
def write (reg : ℕ) (value : BitVec 32) : Accesses (writeReg hardware reg value) :=
  .call (Call.write reg value)

/-- A read of a word of the mailbox memory. -/
def load (i : ℕ) (h : i < 16) : Accesses (readReg hardware (vfMbmem + 4 * i)) :=
  .call (Call.load i h)

/-- `ixgbe_check_for_ack_vf`. -/
def checkForAck : Accesses (checkForAckVf hardware) :=
  .bind (checkBit .ack) fun _ =>
    .ite (.bind (clearBit .ack) fun _ => .pure 0) (.pure errMbx)

/-- `ixgbe_check_for_rst_vf`. -/
def checkForRst : Accesses (checkForRstVf hardware) :=
  .bind (checkBit .rst) fun _ =>
    .ite (.bind (clearBit .rst) fun _ => .pure 0) (.pure errMbx)

/-- The loop of `ixgbe_obtain_mbx_lock_vf`. -/
def lockLoop : (countdown : ℕ) → Accesses (lockRounds hardware countdown)
  | 0 => .pure errTimeout
  | countdown + 1 =>
    .bind readMailbox fun seen =>
      .ite (lockLoop countdown)
        (.bind (write vfMailbox (seen ||| vfuBit)) fun _ =>
          .bind readMailbox fun _ => .ite (.pure 0) (lockLoop countdown))

/-- `ixgbe_obtain_mbx_lock_vf`. -/
def obtainMbxLock : Accesses (obtainMbxLockVf hardware) :=
  .get fun p _ => .ite (.pure errConfig) (lockLoop p.mbx.timeout)

/-- `ixgbe_release_mbx_lock_vf`. -/
def releaseMbxLock : Accesses (releaseMbxLockVf hardware) :=
  .bind readMailbox fun seen => write vfMailbox (seen &&& ~~~vfuBit)

/-- The loops of `ixgbe_poll_for_msg` and `ixgbe_poll_for_ack`. -/
def pollLoop {check : PortM Hardware ℤ} (c : Accesses check) :
    (countdown : ℕ) → Accesses (pollRounds check countdown)
  | 0 => .pure errTimeout
  | countdown + 1 => .bind c fun _ => .ite (.pure 0) (pollLoop c countdown)

/-- `ixgbe_poll_for_msg` and `ixgbe_poll_for_ack`. -/
def poll {check : PortM Hardware ℤ} (c : Accesses check) : Accesses (pollFor check) :=
  .get fun p _ => .ite (.pure errConfig) (pollLoop c p.mbx.timeout)

/-- The loop that copies a message to the mailbox memory. -/
def copyOut : (i : ℕ) → (msg : List (BitVec 32)) → Accesses (writeMbmem hardware i msg)
  | _, [] => .pure ()
  | i, word :: msg => .bind (write (vfMbmem + 4 * i) word) fun _ => copyOut (i + 1) msg

/-- The loop that copies a message from the mailbox memory. -/
def copyIn : (i n : ℕ) → i + n ≤ 16 → Accesses (readMbmem hardware i n)
  | _, 0, _ => .pure []
  | i, n + 1, h =>
    .bind (load i (by omega)) fun word =>
      .bind (copyIn (i + 1) n (by omega)) fun words => .pure (word :: words)

/-- `ixgbe_write_mbx_vf_legacy` and `ixgbe_write_mbx_vf`. -/
def writeMbxOps :
    (ops : MbxOps) → (msg : List (BitVec 32)) → (size : ℕ) → Accesses (ops.write hardware msg size)
  | .legacy, msg, size =>
    .bind obtainMbxLock fun err =>
      .ite (.pure err)
        (.bind (checkBit .msg) fun _ =>
          .bind (clearBit .msg) fun _ =>
          .bind checkForAck fun _ =>
          .bind (clearBit .ack) fun _ =>
          .bind (copyOut 0 (msg.take size)) fun _ =>
          .bind (write vfMailbox reqBit) fun _ => .pure 0)
  | .upgraded, msg, size =>
    .bind obtainMbxLock fun err =>
      .ite (.pure err)
        (.bind (clearBit .msg) fun _ =>
          .bind (clearBit .ack) fun _ =>
          .bind (copyOut 0 (msg.take size)) fun _ =>
          .bind readMailbox fun seen =>
          .bind (write vfMailbox (seen ||| reqBit)) fun _ =>
          .bind releaseMbxLock fun _ => poll checkForAck)

/-- `ixgbe_read_mbx_vf_legacy` and `ixgbe_read_mbx_vf`. -/
def readMbxOps :
    (ops : MbxOps) → (msg : List (BitVec 32)) → (n : ℕ) → n ≤ 16 →
      Accesses (ops.read hardware msg n)
  | .legacy, msg, n, h =>
    .bind obtainMbxLock fun err =>
      .ite (.pure (err, msg))
        (.bind (copyIn 0 n (by omega)) fun words =>
          .bind (write vfMailbox ackBit) fun _ => .pure (0, words ++ msg.drop n))
  | .upgraded, msg, n, h =>
    .bind (checkBit .msg) fun _ =>
      .ite (.pure (errMbxNomsg, msg))
        (.bind (clearBit .msg) fun _ =>
          .bind (copyIn 0 n (by omega)) fun words =>
          .bind readMailbox fun seen =>
          .bind (write vfMailbox (seen ||| ackBit)) fun _ =>
            .pure (0, words ++ msg.drop n))

/-- `ixgbe_read_mbx`. -/
def readAccesses (msg : List (BitVec 32)) (size : ℕ) : Accesses (readMbx hardware msg size) :=
  .get fun p h => readMbxOps p.mbx.ops msg _ ((Nat.min_le_right _ _).trans h)

/-- `ixgbe_poll_mbx`. -/
def pollAccesses (msg : List (BitVec 32)) (size : ℕ) : Accesses (pollMbx hardware msg size) :=
  .get fun p h =>
    .ite (.pure (errConfig, msg))
      (.bind (poll (checkBit .msg)) fun err =>
        .ite (readMbxOps p.mbx.ops msg _ ((Nat.min_le_right _ _).trans h)) (.pure (err, msg)))

/-- `ixgbe_write_mbx`. -/
def writeAccesses (msg : List (BitVec 32)) (size : ℕ) : Accesses (writeMbx hardware msg size) :=
  .get fun p _ =>
    .ite (.pure errConfig) (.ite (.pure errParam) (writeMbxOps p.mbx.ops msg size))

/-- The functions of the mailbox. -/
inductive Operation where
  /-- `ixgbe_check_for_msg_vf` -/
  | checkForMsg
  /-- `ixgbe_check_for_ack_vf` -/
  | checkForAck
  /-- `ixgbe_check_for_rst_vf` -/
  | checkForRst
  /-- `ixgbe_clear_msg_vf`, `ixgbe_clear_ack_vf` and `ixgbe_clear_rst_vf` -/
  | clear (flag : Flag)
  /-- `ixgbe_obtain_mbx_lock_vf` -/
  | obtainMbxLock
  /-- `ixgbe_release_mbx_lock_vf` -/
  | releaseMbxLock
  /-- `ixgbe_poll_for_msg` -/
  | pollForMsg
  /-- `ixgbe_poll_for_ack` -/
  | pollForAck
  /-- `ixgbe_read_mbx` -/
  | readMbx (msg : List (BitVec 32)) (size : ℕ)
  /-- `ixgbe_poll_mbx` -/
  | pollMbx (msg : List (BitVec 32)) (size : ℕ)
  /-- `ixgbe_write_mbx` -/
  | writeMbx (msg : List (BitVec 32)) (size : ℕ)
  /-- `ixgbe_init_mbx_params_vf` and `ixgbe_upgrade_mbx_params_vf` -/
  | params (ops : MbxOps)
  /-- another `timeout` -/
  | timeout (n : ℕ)
deriving Repr

namespace Operation

/-- The function of an operation; what it returns goes to its caller. -/
def run : Operation → PortM Hardware Unit
  | .checkForMsg => checkForMsgVf hardware >>= fun _ => pure ()
  | .checkForAck => checkForAckVf hardware >>= fun _ => pure ()
  | .checkForRst => checkForRstVf hardware >>= fun _ => pure ()
  | .clear .msg => clearMsgVf hardware
  | .clear .ack => clearAckVf hardware
  | .clear .rst => clearRstVf hardware
  | .obtainMbxLock => obtainMbxLockVf hardware >>= fun _ => pure ()
  | .releaseMbxLock => releaseMbxLockVf hardware
  | .pollForMsg => Ixgbevf.pollForMsg hardware >>= fun _ => pure ()
  | .pollForAck => Ixgbevf.pollForAck hardware >>= fun _ => pure ()
  | .readMbx msg size => Ixgbevf.readMbx hardware msg size >>= fun _ => pure ()
  | .pollMbx msg size => Ixgbevf.pollMbx hardware msg size >>= fun _ => pure ()
  | .writeMbx msg size => Ixgbevf.writeMbx hardware msg size >>= fun _ => pure ()
  | .params .legacy => modify fun p => { p with mbx := p.mbx.initParamsVf }
  | .params .upgraded => modify fun p => { p with mbx := p.mbx.upgradeParamsVf }
  | .timeout n => modify fun p => { p with mbx := { p.mbx with timeout := n } }

/-- The accesses of an operation. -/
def accesses : (op : Operation) → Accesses op.run
  | .checkForMsg => .bind (checkBit .msg) fun _ => .pure ()
  | .checkForAck => .bind Events.checkForAck fun _ => .pure ()
  | .checkForRst => .bind Events.checkForRst fun _ => .pure ()
  | .clear .msg => clearBit .msg
  | .clear .ack => clearBit .ack
  | .clear .rst => clearBit .rst
  | .obtainMbxLock => .bind Events.obtainMbxLock fun _ => .pure ()
  | .releaseMbxLock => Events.releaseMbxLock
  | .pollForMsg => .bind (poll (checkBit .msg)) fun _ => .pure ()
  | .pollForAck => .bind (poll Events.checkForAck) fun _ => .pure ()
  | .readMbx msg size => .bind (readAccesses msg size) fun _ => .pure ()
  | .pollMbx msg size => .bind (pollAccesses msg size) fun _ => .pure ()
  | .writeMbx msg size => .bind (writeAccesses msg size) fun _ => .pure ()
  | .params .legacy => .call (Call.params .legacy)
  | .params .upgraded => .call (Call.params .upgraded)
  | .timeout n => .call (Call.timeout n)

/-- The flags that an operation may clear. -/
def clears : Operation → List Flag
  | .checkForAck | .pollForAck => [.ack]
  | .checkForRst => [.rst]
  | .clear flag => [flag]
  | .readMbx .. | .pollMbx .. => [.msg]
  | .writeMbx .. => [.msg, .ack]
  | _ => []

/-- Operations one after the other. -/
def runAll : List Operation → PortM Hardware Unit
  | [] => pure ()
  | op :: ops => op.run >>= fun _ => runAll ops

/-- The accesses of a sequence of operations. -/
def accessesAll : (ops : List Operation) → Accesses (runAll ops)
  | [] => .pure ()
  | op :: ops => .bind op.accesses fun _ => accessesAll ops

end Operation

/-! ### Traces -/

/-- What is recorded of a run. -/
inductive Event where
  /-- the hardware set these events -/
  | set (bits : BitVec 32)
  /-- a check for a flag, while `RSTI` was as it says, ended with this error -/
  | check (flag : Flag) (rsti : Bool) (err : ℤ)
  /-- a flag was cleared -/
  | clear (flag : Flag)
deriving DecidableEq, Repr

/-- The events that the hardware set between two states. -/
def arrivals (p p' : Port Hardware) : List Event :=
  (p'.dev.arrived.drop p.dev.arrived.length).map .set

/-- The entry of an access itself. -/
def Call.mark : {α : Type} → Call α → Port Hardware → List Event
  | _, .check flag, p =>
    [.check flag (p.dev.turns 0).rsti ((checkForBitVf hardware flag.mask).run p).1]
  | _, .clear flag, _ => [.clear flag]
  | _, _, _ => []

/-- What is recorded of an access. -/
def Call.record {α : Type} (c : Call α) (p : Port Hardware) : List Event :=
  arrivals p (c.run.run p).2 ++ c.mark p

/-- What is recorded of an operation. -/
def Operation.trace (op : Operation) (p : Port Hardware) : List Event :=
  op.accesses.trace Call.record p

/-- What is recorded of a sequence of operations. -/
def traceAll (ops : List Operation) (p : Port Hardware) : List Event :=
  (Operation.accessesAll ops).trace Call.record p

/-- The events that the hardware set, one entry after the other. -/
def sets : List Event → List (BitVec 32)
  | [] => []
  | .set bits :: es => bits :: sets es
  | _ :: es => sets es

/-- The event of a flag was set, and no later entry cleared the flag. -/
def Outstanding (flag : Flag) (es : List Event) : Prop :=
  ∃ before bits after, es = before ++ .set bits :: after
    ∧ hasBit bits flag.bit ∧ .clear flag ∉ after

/-- The events outstanding after an entry. -/
def Event.next (bits : BitVec 32) : Event → BitVec 32
  | .set bits' => bits ||| bits'
  | .check .. => bits
  | .clear flag => bits &&& ~~~flag.mask

/-- The events outstanding after a trace. -/
def outstanding (es : List Event) : BitVec 32 := es.foldl Event.next 0#32

/-- A check says that its event is outstanding, or that `RSTI` is set. -/
def Event.Answered (bits : BitVec 32) : Event → Prop
  | .check flag rsti err => err = 0 ↔ hasBit bits flag.bit ∨ flag = .rst ∧ rsti
  | _ => True

/-! ### Bits -/

/-- The events of a flag are the bit of the flag. -/
theorem hasBit_mask {bits : BitVec 32} (h : bits &&& r2cBits = bits) (flag : Flag) :
  hasBit bits flag.mask = hasBit bits flag.bit
  := by
  have hm : r2cBits &&& flag.mask = r2cBits &&& flag.bit := by
    cases flag <;> decide
  rw [hasBit, hasBit, ← h, BitVec.and_assoc, BitVec.and_assoc, hm]

/-- Of the other bits of the register only `RSTI` counts as a flag. -/
theorem hasBit_level (rsti : Bool) (owners : BitVec 4) (flag : Flag) :
  hasBit (level rsti owners) flag.mask = (decide (flag = .rst) && rsti)
  := by
  revert owners
  cases rsti <;> cases flag <;> decide

/-- A flag is cleared alone. -/
theorem hasBit_clear (bits : BitVec 32) (flag flag' : Flag) :
  hasBit (bits &&& ~~~flag'.mask) flag.bit = (decide (flag ≠ flag') && hasBit bits flag.bit)
  := by
  have hm : ~~~flag'.mask &&& flag.bit = if flag = flag' then 0#32 else flag.bit := by
    cases flag <;> cases flag' <;> decide
  rw [hasBit, BitVec.and_assoc, hm]
  split
  next h => simp [h]
  next h => simp [h, hasBit]

/-- The other bits of the register are no events. -/
theorem level_r2c (rsti : Bool) (owners : BitVec 4) :
  level rsti owners &&& r2cBits = 0#32
  := by
  revert owners
  cases rsti <;> decide

/-! ### What an access does to the events -/

/-- The driver reaches the adapter, and what it keeps are events. -/
structure Good (p : Port Hardware) : Prop where
  present : p.removed = false
  sized : Sized p
  cached_r2c : p.mbx.vfMailbox &&& r2cBits = p.mbx.vfMailbox

/-- The events that are pending in the register or kept by the driver. -/
def held (p : Port Hardware) : BitVec 32 := p.dev.pending ||| p.mbx.vfMailbox

/-- From `p` to `p'` the hardware set some events, and nothing was lost. -/
structure Tracks (p p' : Port Hardware) : Prop where
  good : Good p'
  held : ∃ bits, p'.dev.arrived = p.dev.arrived ++ bits
    ∧ held p' = bits.foldl (· ||| ·) (held p)

/-- A good port tracks the events. -/
def Kept (p p' : Port Hardware) : Prop := Good p → Tracks p p'

instance : IsPreorder (Port Hardware) Kept where
  refl p h := ⟨h, [], by rw [List.append_nil], rfl⟩
  trans p p' p'' h h' hp := by
    obtain ⟨hg, bits, ha, hh⟩ := h hp
    obtain ⟨hg', bits', ha', hh'⟩ := h' hg
    refine ⟨hg', bits ++ bits', ?_, ?_⟩
    · rw [ha', ha, List.append_assoc]
    · rw [hh', hh, List.foldl_append]

/-- A turn of the hardware adds what it sets. -/
theorem turn_kept (p : Port Hardware) :
  Kept p { p with dev := p.dev.turn }
  := by
  intro h
  refine ⟨⟨h.present, h.sized, h.cached_r2c⟩, [(p.dev.turns 0).sets], rfl, ?_⟩
  show p.dev.pending ||| (p.dev.turns 0).sets ||| p.mbx.vfMailbox
    = p.dev.pending ||| p.mbx.vfMailbox ||| (p.dev.turns 0).sets
  ac_rfl

/-- A read of another register keeps the events. -/
theorem readl_kept {reg : ℕ} (h : reg ≠ vfMailbox) :
  Keeps Kept (readl hardware reg)
  := by
  apply keeps_modifyGet
  intro p
  have hd : (hardware.read p.dev reg).2 = p.dev.turn := by
    simp only [hardware, if_neg h]
    split <;> rfl
  rw [hd]
  apply turn_kept

/-- The status register is there. -/
theorem readl_status :
  Returns (· ≠ failedReadReg) (readl hardware vfStatus)
  := fun p => (p.dev.turns 0).status_ne

/-- Reading a dead register again keeps the events. -/
theorem rereads_kept {reg n : ℕ} {value : BitVec 32} (h : reg ≠ vfMailbox) :
  Keeps Kept (rereads hardware reg n value)
  := by
  induction n generalizing value with
  | zero => apply keeps_pure
  | succ n ih =>
    apply keeps_bind (readl_kept h)
    intro value
    apply keeps_ite
    · apply keeps_pure
    · apply ih

/-- The status register is still there when it is read again. -/
theorem rereads_status {n : ℕ} {value : BitVec 32} (h : value ≠ failedReadReg) :
  Returns (· ≠ failedReadReg) (rereads hardware vfStatus n value)
  := by
  induction n generalizing value with
  | zero => apply returns_pure h
  | succ n ih =>
    refine returns_bind_of readl_status fun value hv => ?_
    apply returns_ite
    · apply returns_pure hv
    · apply ih hv

/-- The validation of a dead register keeps the events. -/
theorem validateRegisterRead_kept {reg : ℕ} (h : reg ≠ vfMailbox) :
  Keeps Kept (validateRegisterRead hardware reg)
  := by
  apply keeps_bind
  · apply keeps_get
  · intro p
    apply keeps_ite
    · apply keeps_pure
    · apply rereads_kept h

/-- A register read keeps the events when what it does on failure keeps them. -/
theorem readRegWith_kept {check : PortM Hardware Unit} {reg : ℕ} (h : reg ≠ vfMailbox)
    (hc : Keeps Kept check) :
  Keeps Kept (readRegWith hardware check reg)
  := by
  apply keeps_bind
  · apply keeps_get
  · intro p
    apply keeps_ite
    · apply keeps_pure
    · apply keeps_bind (readl_kept h)
      intro value
      apply keeps_bind
      · apply keeps_ite
        · apply hc
        · apply keeps_pure
      · intro _
        apply keeps_ite
        · apply validateRegisterRead_kept h
        · apply keeps_pure

/-- The status register of a good port is still there when it is validated. -/
theorem validateRegisterRead_status {p : Port Hardware} (hp : Good p) :
  ((validateRegisterRead hardware vfStatus).run p).1 ≠ failedReadReg
  := by
  have hd : deadReadReg ≠ failedReadReg := by decide
  apply run_bind_of (fun q p' => q = p ∧ p' = p)
    (fun r : BitVec 32 × Port Hardware => r.1 ≠ failedReadReg) ⟨rfl, rfl⟩
  rintro _ _ ⟨rfl, rfl⟩
  rw [hp.present]
  apply rereads_status hd

/-- The status register of a good port reads well, and the port stays good. -/
theorem readStatus_good {p : Port Hardware} (hp : Good p) :
  ((readRegWith hardware removeAdapter vfStatus).run p).1 ≠ failedReadReg
    ∧ Tracks p ((readRegWith hardware removeAdapter vfStatus).run p).2
  := by
  have hs : vfStatus ≠ vfMailbox := by decide
  apply run_bind_of (fun q p' => q = p ∧ p' = p)
    (fun r : BitVec 32 × Port Hardware => r.1 ≠ failedReadReg ∧ Tracks p r.2) ⟨rfl, rfl⟩
  rintro _ _ ⟨rfl, rfl⟩
  rw [hp.present]
  apply run_bind_of (fun value p' => value ≠ failedReadReg ∧ Tracks _ p')
    (fun r : BitVec 32 × Port Hardware => r.1 ≠ failedReadReg ∧ Tracks _ r.2)
    ⟨readl_status _, readl_kept hs _ hp⟩
  rintro value p₁ ⟨hv, h₁⟩
  rw [if_neg hv]
  apply run_bind_of (fun _ p' => p' = p₁)
    (fun r : BitVec 32 × Port Hardware => r.1 ≠ failedReadReg ∧ Tracks _ r.2) rfl
  rintro _ _ rfl
  have h₂ : Kept _ _ := trans_of Kept (fun _ => h₁) (validateRegisterRead_kept hs _)
  split
  · exact ⟨validateRegisterRead_status h₁.good, h₂ hp⟩
  · exact ⟨hv, h₁⟩

/-- The check for a removed adapter keeps the events. -/
theorem checkRemove_kept {reg : ℕ} (h : reg ≠ vfStatus) :
  Keeps Kept (checkRemove hardware reg)
  := by
  intro p hp
  rw [checkRemove, if_neg h]
  apply run_bind_of (fun value p' => value ≠ failedReadReg ∧ Tracks p p')
    (fun r : PUnit × Port Hardware => Tracks p r.2) (readStatus_good hp)
  rintro value p₁ ⟨hv, h₁⟩
  rw [if_neg hv]
  exact h₁

/-- A read of a word of the mailbox memory keeps the events. -/
theorem readReg_kept {i : ℕ} (h : i < 16) :
  Keeps Kept (readReg hardware (vfMbmem + 4 * i))
  := by
  have hm : vfMbmem + 4 * i ≠ vfMailbox := by
    simp only [vfMbmem, vfMailbox]
    omega
  have hs : vfMbmem + 4 * i ≠ vfStatus := by
    simp only [vfMbmem, vfStatus]
    omega
  apply keeps_bind (readRegWith_kept hm (checkRemove_kept hs))
  intro value
  apply keeps_bind
  · apply keeps_modify
    intro p hp
    exact ⟨⟨hp.present, hp.sized, hp.cached_r2c⟩, [], by rw [List.append_nil], rfl⟩
  · intro _
    apply keeps_pure

/-- A register write keeps the events. -/
theorem writeReg_kept {reg : ℕ} {value : BitVec 32} :
  Keeps Kept (writeReg hardware reg value)
  := by
  apply keeps_modify
  intro p hp
  rw [if_neg (by rw [hp.present]; decide)]
  exact turn_kept p hp

/-- Other parameters of the mailbox leave the kept events alone. -/
theorem params_kept {f : Mbx → Mbx} (hsize : ∀ m, m.size ≤ 16 → (f m).size ≤ 16)
    (hcached : ∀ m, (f m).vfMailbox = m.vfMailbox) :
  Keeps Kept (modify fun p => { p with mbx := f p.mbx } : PortM Hardware PUnit)
  := by
  apply keeps_modify
  intro p hp
  refine ⟨⟨hp.present, hsize _ hp.sized, ?_⟩, [], ?_, ?_⟩
  · rw [hcached, hp.cached_r2c]
  · rw [List.append_nil]
  · rw [List.foldl_nil, held, held, hcached]

/-- A read of the mailbox register shows it. -/
theorem readReg_mailbox {p : Port Hardware} (hp : Good p) :
  ∃ reads, (readReg hardware vfMailbox).run p
    = (p.dev.mailbox, { p with dev := p.dev.turn.clear, reads := reads })
  := by
  obtain ⟨hf, hd⟩ := p.dev.mailbox_ne
  refine ⟨p.reads ++ [(vfMailbox, p.dev.mailbox)], ?_⟩
  simp [readReg, readRegWith, readl, hp.present, hardware, hf, hd]
  rfl

/-- What the driver sees when it reads the mailbox register: the events that it holds after
the turn of the hardware, and the other bits. -/
theorem readMailboxVf_good {p : Port Hardware} (hp : Good p) :
  ∃ p', (readMailboxVf hardware).run p
      = (held p' ||| level (p.dev.turns 0).rsti (p.dev.turns 0).owners, p')
    ∧ Tracks p p' ∧ p'.dev.pending = 0#32
  := by
  obtain ⟨reads, hr⟩ := readReg_mailbox hp
  have hl := level_r2c (p.dev.turns 0).rsti (p.dev.turns 0).owners
  have hseen : (p.dev.mailbox ||| p.mbx.vfMailbox) &&& r2cBits
      = p.dev.turn.pending ||| p.mbx.vfMailbox := by
    rw [Hardware.mailbox, BitVec.and_or_distrib_right, BitVec.and_or_distrib_right, hl,
      hp.cached_r2c, p.dev.turn.pending_r2c, BitVec.or_zero]
  have hcached : p.mbx.vfMailbox ||| (p.dev.mailbox ||| p.mbx.vfMailbox) &&& r2cBits
      = p.dev.turn.pending ||| p.mbx.vfMailbox := by
    rw [hseen, BitVec.or_comm, BitVec.or_assoc, BitVec.or_self]
  refine ⟨{ p with
      dev := p.dev.turn.clear
      reads := reads
      mbx := { p.mbx with vfMailbox := p.dev.turn.pending ||| p.mbx.vfMailbox } }, ?_, ?_, rfl⟩
  · have hheld : p.dev.mailbox ||| p.mbx.vfMailbox
        = 0#32 ||| (p.dev.turn.pending ||| p.mbx.vfMailbox)
          ||| level (p.dev.turns 0).rsti (p.dev.turns 0).owners := by
      rw [Hardware.mailbox, BitVec.zero_or]
      ac_rfl
    rw [readMailboxVf, StateT.run_bind, hr]
    show (p.dev.mailbox ||| p.mbx.vfMailbox, ({ p with
      dev := p.dev.turn.clear
      reads := reads
      mbx := { p.mbx with
        vfMailbox := p.mbx.vfMailbox ||| (p.dev.mailbox ||| p.mbx.vfMailbox) &&& r2cBits } } :
          Port Hardware)) = _
    rw [hcached, hheld]
    rfl
  · refine ⟨⟨hp.present, hp.sized, ?_⟩, [(p.dev.turns 0).sets], rfl, ?_⟩
    · show (p.dev.turn.pending ||| p.mbx.vfMailbox) &&& r2cBits = _
      rw [BitVec.and_or_distrib_right, hp.cached_r2c, p.dev.turn.pending_r2c]
    · show 0#32 ||| (p.dev.pending ||| (p.dev.turns 0).sets ||| p.mbx.vfMailbox)
        = p.dev.pending ||| p.mbx.vfMailbox ||| (p.dev.turns 0).sets
      rw [BitVec.zero_or]
      ac_rfl

/-! ### The ledger -/

/-- The trace so far accounts for the events that the port holds, and its checks were
answered. -/
structure Ledger (p : Port Hardware) (es : List Event) : Prop where
  good : Good p
  kept : outstanding es = held p
  arrived : sets es = p.dev.arrived
  answered : AllAlong Event.Answered Event.next 0#32 es

/-- The events outstanding after two traces. -/
theorem outstanding_append (es es' : List Event) :
  outstanding (es ++ es') = es'.foldl Event.next (outstanding es)
  := List.foldl_append

/-- What the hardware set in two traces. -/
theorem sets_append (es es' : List Event) :
  sets (es ++ es') = sets es ++ sets es'
  := by
  induction es with
  | nil => rfl
  | cons e es ih => cases e <;> simp [sets, ih]

/-- What the hardware set is recorded. -/
theorem sets_map (bits : List (BitVec 32)) :
  sets (bits.map .set) = bits
  := by
  induction bits with
  | nil => rfl
  | cons b bits ih => simp [sets, ih]

/-- What the hardware set is outstanding. -/
theorem foldl_map_set (bits : List (BitVec 32)) (b : BitVec 32) :
  (bits.map Event.set).foldl Event.next b = bits.foldl (· ||| ·) b
  := by
  rw [List.foldl_map]
  rfl

/-- The entries of the hardware need no answer. -/
theorem answered_map_set (bits : List (BitVec 32)) (b : BitVec 32) :
  AllAlong Event.Answered Event.next b (bits.map .set)
  := by
  induction bits generalizing b with
  | nil => trivial
  | cons b' bits ih => exact ⟨trivial, ih _⟩

variable {p p' : Port Hardware} {es : List Event}

/-- A stretch in which no event is lost is accounted for. -/
theorem Ledger.tracks (h : Ledger p es) (hp : Tracks p p') :
  Ledger p' (es ++ arrivals p p')
  := by
  obtain ⟨hg, bits, ha, hh⟩ := hp
  have hb : arrivals p p' = bits.map .set := by
    rw [arrivals, ha, List.drop_left]
  rw [hb]
  constructor
  · exact hg
  · rw [outstanding_append, foldl_map_set, h.kept, hh]
  · rw [sets_append, sets_map, h.arrived, ha]
  · exact allAlong_append.mpr ⟨h.answered, answered_map_set bits _⟩

/-- An entry that changes nothing but what is outstanding. -/
theorem Ledger.entry (h : Ledger p es) {e : Event} (hs : sets [e] = [])
    (hg : Good p') (ha : p'.dev.arrived = p.dev.arrived)
    (hh : e.next (held p) = held p') (he : e.Answered (held p)) :
  Ledger p' (es ++ [e])
  := by
  rw [← h.kept] at hh he
  constructor
  · exact hg
  · rw [outstanding_append]
    exact hh
  · rw [sets_append, hs, List.append_nil, h.arrived, ha]
  · exact allAlong_append.mpr ⟨h.answered, he, trivial⟩

/-- The events held are events. -/
theorem Good.held_r2c (h : Good p) :
  held p &&& r2cBits = held p
  := by
  rw [held, BitVec.and_or_distrib_right, p.dev.pending_r2c, h.cached_r2c]

/-- A check for a flag is accounted for, and answered. -/
theorem Ledger.check (h : Ledger p es) (flag : Flag) :
  Ledger ((Call.check flag).run.run p).2 (es ++ (Call.check flag).record p)
  := by
  obtain ⟨p', hr, ht, -⟩ := readMailboxVf_good h.good
  have hc : (Call.check flag).run.run p = (if hasBit (held p' ||| level (p.dev.turns 0).rsti
      (p.dev.turns 0).owners) flag.mask then 0 else errMbx, p') := by
    show (checkForBitVf hardware flag.mask).run p = _
    rw [checkForBitVf, StateT.run_bind, hr]
    rfl
  have hm : errMbx ≠ 0 := by decide
  have he : ((Call.check flag).run.run p).1 = 0
      ↔ hasBit (held p') flag.bit ∨ flag = .rst ∧ (p.dev.turns 0).rsti := by
    rw [hc, hasBit_or, hasBit_mask ht.good.held_r2c, hasBit_level]
    by_cases hb : hasBit (held p') flag.bit
    · simp [hb]
    · simp [hb, hm]
  rw [Call.record, ← List.append_assoc, hc]
  exact (h.tracks ht).entry rfl ht.good rfl rfl he

/-- Clearing a flag is accounted for. -/
theorem Ledger.clear (h : Ledger p es) (flag : Flag) :
  Ledger ((Call.clear flag).run.run p).2 (es ++ (Call.clear flag).record p)
  := by
  obtain ⟨p', hr, ht, h0⟩ := readMailboxVf_good h.good
  have hc : ((Call.clear flag).run.run p).2 = (if hasBit (held p' ||| level (p.dev.turns 0).rsti
      (p.dev.turns 0).owners) flag.mask then
        { p' with mbx := { p'.mbx with vfMailbox := p'.mbx.vfMailbox &&& ~~~flag.mask } }
      else p') := by
    show ((clearBitVf hardware flag.mask).run p).2 = _
    rw [clearBitVf, StateT.run_bind, hr]
    rfl
  have ha : arrivals p ((Call.clear flag).run.run p).2 = arrivals p p' := by
    rw [hc]
    split <;> rfl
  rw [Call.record, ← List.append_assoc, ha, hc]
  split
  · refine (h.tracks ht).entry (e := .clear flag) rfl ?_ rfl ?_ trivial
    · refine ⟨ht.good.present, ht.good.sized, ?_⟩
      have hr : p'.mbx.vfMailbox &&& ~~~flag.mask &&& r2cBits
          = p'.mbx.vfMailbox &&& r2cBits &&& ~~~flag.mask := by
        ac_rfl
      exact hr.trans (congrArg (· &&& ~~~flag.mask) ht.good.cached_r2c)
    · rw [Event.next, held, held, h0, BitVec.zero_or, BitVec.zero_or]
  next hn =>
    rw [hasBit_or, Bool.or_eq_true, not_or] at hn
    have hz : held p' &&& flag.mask = 0#32 := by simpa [hasBit] using hn.1
    exact (h.tracks ht).entry (e := .clear flag) rfl ht.good rfl (Bits.and_not_eq_self hz) trivial

/-- Every access is accounted for. -/
theorem Ledger.call {α : Type} (c : Call α) (p : Port Hardware) (es : List Event)
    (h : Ledger p es) :
  Ledger (c.run.run p).2 (es ++ c.record p)
  := by
  have hother (hk : Keeps Kept c.run) (hm : c.mark p = []) :
      Ledger (c.run.run p).2 (es ++ c.record p) := by
    rw [Call.record, hm, List.append_nil]
    apply h.tracks (hk p h.good)
  cases c with
  | check flag => apply h.check
  | clear flag => apply h.clear
  | read =>
    obtain ⟨p', hr, ht, -⟩ := readMailboxVf_good h.good
    show Ledger ((readMailboxVf hardware).run p).2
      (es ++ (arrivals p ((readMailboxVf hardware).run p).2 ++ []))
    rw [hr, List.append_nil]
    apply h.tracks ht
  | write reg value => apply hother writeReg_kept rfl
  | load i hi => apply hother (readReg_kept hi) rfl
  | params ops =>
    have hk := params_kept (f := fun m => mbxParamsVf ops m.vfMailbox)
      (fun _ _ => Nat.le_refl 16) fun _ => rfl
    apply hother hk rfl
  | timeout n =>
    have hk := params_kept (f := fun m => { m with timeout := n }) (fun _ h => h) fun _ => rfl
    apply hother hk rfl

/-- Every sequence of operations is accounted for. -/
theorem Ledger.traceAll (h : Ledger p es) (ops : List Operation) :
  Ledger ((Operation.runAll ops).run p).2 (es ++ traceAll ops p)
  := (Operation.accessesAll ops).trace_keeps (fun _ _ h => h.good.sized)
    (fun c s es h => Ledger.call c s es h) h

/-! ### What a trace clears -/

/-- An access clears no other flag than these. -/
def Call.Clears (flags : List Flag) : {α : Type} → Call α → Prop
  | _, .clear flag => flag ∈ flags
  | _, _ => True

/-- The entries of an access clear what the access clears. -/
theorem Call.record_clears {flags : List Flag} {α : Type} (c : Call α) (p : Port Hardware)
    (h : c.Clears flags) :
  ∀ e ∈ c.record p, ∀ flag, e = .clear flag → flag ∈ flags
  := by
  intro e he flag hf
  subst hf
  obtain ha | hm := List.mem_append.mp he
  · obtain ⟨bits, -, hb⟩ := List.mem_map.mp ha
    cases hb
  · cases c with
    | clear flag' =>
      cases List.mem_singleton.mp hm
      apply h
    | _ => simp [Call.mark] at hm

section Clears

variable {flags : List Flag}

/-- Taking the lock clears nothing. -/
theorem obtainMbxLock_clears :
  obtainMbxLock.All (Call.Clears flags)
  := by
  have hl : ∀ countdown, (lockLoop countdown).All (Call.Clears flags) := by
    intro countdown
    induction countdown with
    | zero => trivial
    | succ countdown ih =>
      exact ⟨trivial, fun _ => ⟨ih, trivial, fun _ => ⟨trivial, fun _ => ⟨trivial, ih⟩⟩⟩⟩
  exact fun p _ => ⟨trivial, hl _⟩

/-- A poll clears what its checks clear. -/
theorem poll_clears {check : PortM Hardware ℤ} {c : Accesses check}
    (h : c.All (Call.Clears flags)) :
  (poll c).All (Call.Clears flags)
  := by
  have hl : ∀ countdown, (pollLoop c countdown).All (Call.Clears flags) := by
    intro countdown
    induction countdown with
    | zero => trivial
    | succ countdown ih => exact ⟨h, fun _ => ⟨trivial, ih⟩⟩
  exact fun p _ => ⟨trivial, hl _⟩

/-- Copying a message to the mailbox clears nothing. -/
theorem copyOut_clears (i : ℕ) (msg : List (BitVec 32)) :
  (copyOut i msg).All (Call.Clears flags)
  := by
  induction msg generalizing i with
  | nil => trivial
  | cons word msg ih => exact ⟨trivial, fun _ => ih _⟩

/-- Copying a message from the mailbox clears nothing. -/
theorem copyIn_clears (i n : ℕ) (h : i + n ≤ 16) :
  (copyIn i n h).All (Call.Clears flags)
  := by
  induction n generalizing i with
  | zero => trivial
  | succ n ih => exact ⟨trivial, fun _ => ⟨ih _ _, fun _ => trivial⟩⟩

/-- The check for an acknowledgement clears it. -/
theorem checkForAck_clears (h : .ack ∈ flags) :
  checkForAck.All (Call.Clears flags)
  := ⟨trivial, fun _ => ⟨⟨h, fun _ => trivial⟩, trivial⟩⟩

/-- Sending a message clears the flags of the last one. -/
theorem writeMbxOps_clears (ops : MbxOps) (msg : List (BitVec 32)) (size : ℕ)
    (hm : .msg ∈ flags) (ha : .ack ∈ flags) :
  (writeMbxOps ops msg size).All (Call.Clears flags)
  := by
  have hc : checkForAck.All (Call.Clears flags) := checkForAck_clears ha
  have ho : (copyOut 0 (msg.take size)).All (Call.Clears flags) := copyOut_clears _ _
  cases ops with
  | legacy =>
    exact ⟨obtainMbxLock_clears, fun _ => ⟨trivial, trivial, fun _ => ⟨hm, fun _ => ⟨hc, fun _ =>
      ⟨ha, fun _ => ⟨ho, fun _ => ⟨trivial, fun _ => trivial⟩⟩⟩⟩⟩⟩⟩
  | upgraded =>
    exact ⟨obtainMbxLock_clears, fun _ => ⟨trivial, hm, fun _ => ⟨ha, fun _ => ⟨ho, fun _ =>
      ⟨trivial, fun _ => ⟨trivial, fun _ => ⟨⟨trivial, fun _ => trivial⟩, fun _ =>
        poll_clears hc⟩⟩⟩⟩⟩⟩⟩

/-- Reading a message clears its flag. -/
theorem readMbxOps_clears (ops : MbxOps) (msg : List (BitVec 32)) (n : ℕ) (h : n ≤ 16)
    (hm : .msg ∈ flags) :
  (readMbxOps ops msg n h).All (Call.Clears flags)
  := by
  cases ops with
  | legacy =>
    exact ⟨obtainMbxLock_clears, fun _ => ⟨trivial, copyIn_clears _ _ _, fun _ =>
      ⟨trivial, fun _ => trivial⟩⟩⟩
  | upgraded =>
    exact ⟨trivial, fun _ => ⟨trivial, hm, fun _ => ⟨copyIn_clears _ _ _, fun _ =>
      ⟨trivial, fun _ => ⟨trivial, fun _ => trivial⟩⟩⟩⟩⟩

end Clears

/-- An operation clears the flags it says. -/
theorem Operation.accesses_clears (op : Operation) :
  op.accesses.All (Call.Clears op.clears)
  := by
  have hp {flags : List Flag} : (poll (checkBit .msg)).All (Call.Clears flags) :=
    poll_clears trivial
  cases op with
  | checkForMsg => exact ⟨trivial, fun _ => trivial⟩
  | checkForAck => exact ⟨checkForAck_clears (.head _), fun _ => trivial⟩
  | checkForRst =>
    exact ⟨⟨trivial, fun _ => ⟨⟨List.Mem.head _, fun _ => trivial⟩, trivial⟩⟩, fun _ => trivial⟩
  | clear flag => cases flag <;> exact List.mem_singleton.mpr rfl
  | obtainMbxLock => exact ⟨obtainMbxLock_clears, fun _ => trivial⟩
  | releaseMbxLock => exact ⟨trivial, fun _ => trivial⟩
  | pollForMsg => exact ⟨hp, fun _ => trivial⟩
  | pollForAck => exact ⟨poll_clears (checkForAck_clears (.head _)), fun _ => trivial⟩
  | readMbx msg size =>
    exact ⟨fun _ _ => readMbxOps_clears _ _ _ _ (.head _), fun _ => trivial⟩
  | pollMbx msg size =>
    exact ⟨fun _ _ => ⟨trivial, hp, fun _ => ⟨readMbxOps_clears _ _ _ _ (.head _), trivial⟩⟩,
      fun _ => trivial⟩
  | writeMbx msg size =>
    exact ⟨fun _ _ => ⟨trivial, trivial, writeMbxOps_clears _ _ _ (.head _) (.tail _ (.head _))⟩,
      fun _ => trivial⟩
  | params ops => cases ops <;> trivial
  | timeout n => trivial

/-! ### Events are not lost -/

/-- What is outstanding after one more entry. -/
theorem outstanding_concat {flag : Flag} {es : List Event} {e : Event} :
  Outstanding flag (es ++ [e])
    ↔ (∃ bits, e = .set bits ∧ hasBit bits flag.bit) ∨ Outstanding flag es ∧ e ≠ .clear flag
  := by
  constructor
  · rintro ⟨before, bits, after, h, hb, hn⟩
    obtain rfl | ⟨after, e', rfl⟩ := List.eq_nil_or_concat after
    · obtain ⟨-, he⟩ := List.append_inj' h rfl
      exact .inl ⟨bits, List.singleton_inj.mp he, hb⟩
    · rw [List.concat_eq_append] at h hn
      rw [← List.cons_append, ← List.append_assoc] at h
      obtain ⟨hes, he⟩ := List.append_inj' h rfl
      rw [List.mem_append, not_or] at hn
      refine .inr ⟨⟨before, bits, after, hes, hb, hn.1⟩, ?_⟩
      rintro rfl
      exact hn.2 (he ▸ List.mem_singleton.mpr rfl)
  · rintro (⟨bits, rfl, hb⟩ | ⟨⟨before, bits, after, rfl, hb, hn⟩, he⟩)
    · exact ⟨es, bits, [], rfl, hb, List.not_mem_nil⟩
    · refine ⟨before, bits, after ++ [e], by simp, hb, ?_⟩
      simp [hn, he.symm]

/-- The bits outstanding are the events that were set and not cleared. -/
theorem hasBit_outstanding (flag : Flag) (es : List Event) :
  hasBit (outstanding es) flag.bit ↔ Outstanding flag es
  := by
  induction es using List.reverseRecOn with
  | nil =>
    have h0 : hasBit 0#32 flag.bit = false := by cases flag <;> decide
    simp [outstanding, h0, Outstanding]
  | append_singleton es e ih =>
    rw [outstanding_concat, outstanding_append]
    cases e with
    | set bits =>
      simp only [List.foldl_cons, List.foldl_nil, Event.next, hasBit_or, Bool.or_eq_true, ih]
      simp [or_comm (a := Outstanding flag es)]
    | check flag' rsti err => simp [Event.next, ih]
    | clear flag' =>
      simp only [List.foldl_cons, List.foldl_nil, Event.next, hasBit_clear, Bool.and_eq_true, ih]
      simp [and_comm (a := Outstanding flag es), eq_comm (a := flag)]

/-- A port as the probe leaves it: nothing has happened yet. -/
structure Fresh (p : Port Hardware) : Prop where
  present : p.removed = false
  sized : Sized p
  cached : p.mbx.vfMailbox = 0#32
  pending : p.dev.pending = 0#32
  arrived : p.dev.arrived = []

/-- Nothing has happened to a fresh port. -/
theorem Fresh.ledger (h : Fresh p) :
  Ledger p []
  := by
  constructor
  · refine ⟨h.present, h.sized, ?_⟩
    rw [h.cached, BitVec.zero_and]
  · rw [held, h.pending, h.cached]
    rfl
  · exact h.arrived.symm
  · trivial

/-- In every sequence of operations from a fresh port, whatever the hardware sets between
two accesses: a check for a flag reports exactly when the event of the flag was set and the
flag was not cleared since (or `RSTI` is set and the check is for a reset), all that the
hardware set is in the trace, and an operation clears no flag but its own. -/
theorem checks_report (ops : List Operation) (p : Port Hardware) (h : Fresh p) :
  (∀ before flag (rsti : Bool) err after,
      traceAll ops p = before ++ .check flag rsti err :: after →
      (err = 0 ↔ Outstanding flag before ∨ flag = .rst ∧ rsti))
    ∧ sets (traceAll ops p) = ((Operation.runAll ops).run p).2.dev.arrived
    ∧ ∀ op p flag, .clear flag ∈ Operation.trace op p → flag ∈ op.clears
  := by
  have hl : Ledger _ (traceAll ops p) := h.ledger.traceAll ops
  refine ⟨?_, hl.arrived, ?_⟩
  · intro before flag rsti err after ht
    have ha := hl.answered
    rw [ht] at ha
    obtain ⟨hc, -⟩ := (allAlong_append.mp ha).2
    exact hc.trans (or_congr_left (hasBit_outstanding flag before))
  · intro op p flag hf
    apply op.accesses.trace_forall (fun c p hc => c.record_clears p hc) op.accesses_clears p _ hf
    rfl

/-- A turn in which the hardware sets `PFSTS` with the first access and `PFACK` and `RSTD`
with the second one. -/
def earlyTurn : ℕ → Turn
  | 0 => ⟨pfstsBit, false, 0#4, 0#32, 0#32, by decide, by decide⟩
  | 1 => ⟨pfackBit ||| rstdBit, false, 4#4, 0#32, 0#32, by decide, by decide⟩
  | _ => ⟨0#32, false, 4#4, 0#32, 0#32, by decide, by decide⟩

/-- A fresh port to that hardware. -/
def earlyPort : Port Hardware where
  removed := false
  mbx := mbxParamsVf .legacy 0#32
  dev := ⟨0#32, [], earlyTurn, by decide⟩
  reads := []

/-- A check for an acknowledgement and the release of the lock come between `PFSTS` and the
check for a message, which reports it. -/
theorem checks_report_earlyPort :
  ∃ before after, traceAll [.checkForAck, .releaseMbxLock, .checkForMsg] earlyPort
      = before ++ .check .msg false 0 :: after
    ∧ Outstanding .msg before
  := by
  have ht : traceAll [.checkForAck, .releaseMbxLock, .checkForMsg] earlyPort
      = [.set pfstsBit, .check .ack false errMbx, .set (pfackBit ||| rstdBit), .set 0#32, .set 0#32]
        ++ .check .msg false 0 :: [] := by
    decide +kernel
  have hf : Fresh earlyPort := ⟨rfl, Nat.le_refl 16, rfl, rfl, rfl⟩
  obtain ⟨hr, -⟩ := checks_report [.checkForAck, .releaseMbxLock, .checkForMsg] earlyPort hf
  refine ⟨_, _, ht, ?_⟩
  obtain h | ⟨h, -⟩ := (hr _ _ _ _ _ ht).mp rfl
  · exact h
  · cases h

end Ixgbevf.Mailbox.Events
