import Ixgbevf.Lib.Run
import Ixgbevf.Link
import Ixgbevf.Mailbox.Exchange

/-!
# The mailbox registers

The functions by which the VF and the PF write and read messages, as lists of accesses to
the mailbox registers, and the runs in which the two sides take their accesses in any
order.  A side owns the buffer by a bit that the hardware sets only when the other side
does not own it; the notification and acknowledgement bits of the VF are cleared by a read
of its register and kept in `vf_mailbox`, those of the PF are cleared by a write.
`Wire.Inv.next` says that every access is a step of the exchange of messages.
-/

namespace Ixgbevf.Mailbox

/-! ### Code -/

/-- What a side tells the other one: `REQ` or `STS`, and `ACK`. -/
inductive Signal where
  | msg
  | ack
deriving DecidableEq, Repr

/-- An access of a side to the registers; `begin`, `confirm` and `leave` only mark the place. -/
inductive Instr where
  /-- first read of the loop of `obtain_mbx_lock` -/
  | readOwner
  /-- write of the ownership bit -/
  | takeOwner
  /-- second read of that loop -/
  | checkOwner
  /-- read of the status bits -/
  | peek
  | clearMsg
  | clearAck
  /-- the clearing in `check_for_ack`, when the bit was seen -/
  | clearAckIfSeen
  /-- the message is about to be copied -/
  | begin (msg : List (BitVec 32))
  | store (i : ℕ) (w : BitVec 32)
  | load (i : ℕ)
  /-- read of the mailbox register for the write that follows -/
  | readMailbox
  /-- the value read is written back with a signal -/
  | send (signal : Signal)
  /-- the value read is written back without the ownership bit -/
  | release
  /-- a signal is written alone, which gives up the buffer -/
  | sendRelease (signal : Signal)
  /-- `check_for_msg` of a read function -/
  | checkMsg
  /-- `poll_for_msg` -/
  | pollMsg
  /-- `poll_for_ack` -/
  | pollAck
  /-- a write function returns with its acknowledgement -/
  | confirm
  /-- a write function returns -/
  | leave
deriving DecidableEq, Repr

/-- `ixgbe_obtain_mbx_lock_vf` and `ixgbe_obtain_mbx_lock_pf`. -/
def obtainMbxLock : List Instr := [.readOwner, .takeOwner, .checkOwner]

/-- `ixgbe_clear_msg_vf`, one read, and `ixgbe_clear_msg_pf`, a read and a write. -/
def clearMsg : Side → List Instr
  | .vf => [.clearMsg]
  | .pf => [.peek, .clearMsg]

/-- `ixgbe_clear_ack_vf` and `ixgbe_clear_ack_pf`. -/
def clearAck : Side → List Instr
  | .vf => [.clearAck]
  | .pf => [.peek, .clearAck]

/-- `ixgbe_check_for_msg_vf` and `ixgbe_check_for_msg_pf`, whose result is not used. -/
def checkForMsg : List Instr := [.peek]

/-- `ixgbe_check_for_ack_vf` and `ixgbe_check_for_ack_pf`, whose result is not used. -/
def checkForAck : List Instr := [.peek, .clearAckIfSeen]

/-- The words of a message are copied to the buffer, from a position on. -/
def copyOut : ℕ → List (BitVec 32) → List Instr
  | _, [] => []
  | i, w :: msg => .store i w :: copyOut (i + 1) msg

/-- So many words are copied from the buffer, from a position on. -/
def copyIn : ℕ → ℕ → List Instr
  | _, 0 => []
  | i, n + 1 => .load i :: copyIn (i + 1) n

/-- A legacy write function. -/
def writeMbxLegacy (X : Side) (msg : List (BitVec 32)) : List Instr :=
  obtainMbxLock ++ checkForMsg ++ clearMsg X ++ checkForAck ++ clearAck X
    ++ [.begin msg] ++ copyOut 0 msg ++ [.sendRelease .msg]

/-- An upgraded write function, which polls for the acknowledgement or not. -/
def writeMbxUpgraded (X : Side) (msg : List (BitVec 32)) (polls : Bool) : List Instr :=
  obtainMbxLock ++ clearMsg X ++ clearAck X ++ [.begin msg] ++ copyOut 0 msg
    ++ [.readMailbox, .send .msg] ++ [.readMailbox, .release]
    ++ if polls then [.pollAck] ++ clearAck X ++ [.confirm] else [.leave]

/-- A legacy read function. -/
def readMbxLegacy (n : ℕ) : List Instr := obtainMbxLock ++ copyIn 0 n ++ [.sendRelease .ack]

/-- An upgraded read function. -/
def readMbxUpgraded (X : Side) (n : ℕ) : List Instr :=
  [.checkMsg] ++ clearMsg X ++ copyIn 0 n ++ [.readMailbox, .send .ack]

/-- `ixgbe_write_mbx_vf_legacy` and `ixgbe_write_mbx_vf`. -/
def writeMbxVf : MbxOps → List (BitVec 32) → List Instr
  | .legacy, msg => writeMbxLegacy .vf msg
  | .upgraded, msg => writeMbxUpgraded .vf msg true

/-- `ixgbe_read_mbx_vf_legacy` and `ixgbe_read_mbx_vf`. -/
def readMbxVf : MbxOps → ℕ → List Instr
  | .legacy, n => readMbxLegacy n
  | .upgraded, n => readMbxUpgraded .vf n

/-- `ixgbe_write_mbx_pf_legacy` and `ixgbe_write_mbx_pf`, which polls for an acknowledgement
of a message with `IXGBE_VT_MSGTYPE_CTS`. -/
def writeMbxPf : MbxOps → List (BitVec 32) → List Instr
  | .legacy, msg => writeMbxLegacy .pf msg
  | .upgraded, msg => writeMbxUpgraded .pf msg (hasBit (msg.getD 0 0#32) msgtypeCts)

/-- `ixgbe_read_mbx_pf_legacy` and `ixgbe_read_mbx_pf`. -/
def readMbxPf : MbxOps → ℕ → List Instr
  | .legacy, n => readMbxLegacy n
  | .upgraded, n => readMbxUpgraded .pf n

/-- The write function of a side. -/
def writeCode (g : MbxOps) : Side → List (BitVec 32) → List Instr
  | .vf => writeMbxVf g
  | .pf => writeMbxPf g

/-- The read function of a side. -/
def readCode (g : MbxOps) : Side → ℕ → List Instr
  | .vf => readMbxVf g
  | .pf => readMbxPf g

/-- The phase after an access. -/
def Instr.nextPhase : Instr → Phase → Phase
  | .checkOwner, .free => .locked false
  | .checkOwner, .noticed => .locked true
  | .checkMsg, .free | .pollMsg, .free => .noticed
  | .clearMsg, .locked _ => .flushedMsg
  | .clearAck, .flushedMsg => .flushed
  | .begin msg, .flushed => .copying msg 0
  | .store _ _, .copying msg i => .copying msg (i + 1)
  | .send .msg, .copying _ _ => .sent
  | .release, .sent => .awaiting
  | .pollAck, .awaiting => .acknowledged
  | .send .ack, _ | .sendRelease _, _ | .confirm, _ | .leave, _ => .free
  | _, p => p

/-- A read call in this phase has seen a notification. -/
def Phase.sawNotice : Phase → Bool
  | .noticed | .locked true => true
  | _ => false

/-! ### Registers -/

/-- The registers, and where the two sides are. -/
structure Wire where
  /-- `VFU` and `PFU`. -/
  own : Side → Bool
  /-- `PFSTS`, for the VF, and `VFREQ`. -/
  msg : Side → Bool
  /-- `PFACK`, for the VF, and `VFACK`. -/
  ack : Side → Bool
  /-- `PFSTS` in `vf_mailbox`. -/
  shadowMsg : Bool
  /-- `PFACK` in `vf_mailbox`. -/
  shadowAck : Bool
  /-- `VFMBMEM`. -/
  mem : ℕ → Cell
  /-- The accesses a side has left. -/
  code : Side → List Instr
  /-- The ownership bit in the value a side has read. -/
  ownRead : Side → Bool
  /-- The acknowledgement bit a side has read. -/
  ackSeen : Side → Bool
  phase : Side → Phase
  /-- The number of the last write call of a side. -/
  call : Side → ℕ
  /-- The words that a read call has copied. -/
  got : Side → List (ℕ × Cell)
  calls : List Call
  returned : List Reading
  /-- The write calls that have returned with an acknowledgement. -/
  confirmed : List (Side × ℕ)

namespace Wire

open Function (update)

variable (s : Wire)

/-- A side has a notification, in its register or in `vf_mailbox`. -/
def inbox : Side → Bool
  | .vf => s.msg .vf || s.shadowMsg
  | .pf => s.msg .pf

/-- A side has an acknowledgement, in its register or in `vf_mailbox`. -/
def acked : Side → Bool
  | .vf => s.ack .vf || s.shadowAck
  | .pf => s.ack .pf

/-- `ixgbe_read_mailbox_vf`: a read clears the bits, and they are kept in `vf_mailbox`.  A read
of the PF's registers clears nothing. -/
def readStatus : Side → Wire
  | .vf =>
    { s with
      msg := update s.msg .vf false
      ack := update s.ack .vf false
      shadowMsg := s.msg .vf || s.shadowMsg
      shadowAck := s.ack .vf || s.shadowAck }
  | .pf => s

/-- The notification of a side is cleared. -/
def lowerMsg : Side → Wire
  | .vf => { s.readStatus .vf with shadowMsg := false }
  | .pf => { s with msg := update s.msg .pf false }

/-- The acknowledgement of a side is cleared. -/
def lowerAck : Side → Wire
  | .vf => { s.readStatus .vf with shadowAck := false }
  | .pf => { s with ack := update s.ack .pf false }

/-- A write of a side's mailbox register with the ownership bit `b`. -/
def writeOwner (X : Side) (b : Bool) : Wire :=
  { s with own := update s.own X (b && (s.own X || ! s.own X.other)) }

/-- A signal for a side. -/
def raise (X : Side) : Signal → Wire
  | .msg => { s with msg := update s.msg X true }
  | .ack => { s with ack := update s.ack X true }

/-- The accesses a side has left. -/
def setCode (X : Side) (code : List Instr) : Wire := { s with code := update s.code X code }

/-- A side is past an access. -/
def goOn (X : Side) (i : Instr) (rest : List Instr) : Wire :=
  { s.setCode X rest with phase := update s.phase X (i.nextPhase (s.phase X)) }

/-- A call of a side returns. -/
def leave (X : Side) (rest : List Instr) : Wire :=
  { s.setCode X rest with phase := update s.phase X .free, got := update s.got X [] }

/-- A read call returns its words. -/
def giveBack (X : Side) (rest : List Instr) : Wire :=
  { s.leave X rest with
    returned := s.returned ++ [⟨X, (s.phase X).sawNotice, s.got X⟩] }

/-- The status bits are read, and a side remembers its acknowledgement bit. -/
def seeAck (X : Side) : Wire :=
  { s.readStatus X with ackSeen := update s.ackSeen X (s.acked X) }

/-- The mailbox register is read, and a side remembers its ownership bit. -/
def seeOwner (X : Side) : Wire :=
  { s.readStatus X with ownRead := update s.ownRead X (s.own X) }

/-- A write call begins to copy. -/
def begin (X : Side) (msg : List (BitVec 32)) : Wire :=
  { s with calls := s.calls ++ [⟨X, msg⟩], call := update s.call X s.calls.length }

/-- A write call stores a word. -/
def store (X : Side) (i : ℕ) (w : BitVec 32) : Wire :=
  { s with mem := update s.mem i ⟨w, some (s.call X)⟩ }

/-- A read call copies a word. -/
def load (X : Side) (i : ℕ) : Wire :=
  { s with got := update s.got X (s.got X ++ [(i, s.mem i)]) }

/-- A write call returns with its acknowledgement. -/
def confirm (X : Side) (rest : List Instr) : Wire :=
  { s.leave X rest with confirmed := s.confirmed ++ [(X, s.call X)] }

/-- An access of a side. -/
def exec (X : Side) (i : Instr) (rest : List Instr) : Wire :=
  match i with
  | .readOwner => if s.own X || s.own X.other then s.readStatus X else (s.readStatus X).goOn X i rest
  | .takeOwner => (s.writeOwner X true).goOn X i rest
  | .checkOwner =>
    if s.own X then (s.readStatus X).goOn X i rest
    else (s.readStatus X).setCode X (obtainMbxLock ++ rest)
  | .peek => (s.seeAck X).goOn X i rest
  | .clearMsg => (s.lowerMsg X).goOn X i rest
  | .clearAck => (s.lowerAck X).goOn X i rest
  | .clearAckIfSeen => (if s.ackSeen X then s.lowerAck X else s).goOn X i rest
  | .begin msg => (s.begin X msg).goOn X i rest
  | .store j w => (s.store X j w).goOn X i rest
  | .load j => (s.load X j).goOn X i rest
  | .readMailbox => (s.seeOwner X).goOn X i rest
  | .send .msg => ((s.writeOwner X (s.ownRead X)).raise X.other .msg).goOn X i rest
  | .send .ack => ((s.writeOwner X (s.ownRead X)).raise X.other .ack).giveBack X rest
  | .release => (s.writeOwner X false).goOn X i rest
  | .sendRelease .msg => ((s.writeOwner X false).raise X.other .msg).leave X rest
  | .sendRelease .ack => ((s.writeOwner X false).raise X.other .ack).giveBack X rest
  | .checkMsg => if s.inbox X then (s.readStatus X).goOn X i rest else (s.readStatus X).leave X []
  | .pollMsg => if s.inbox X then (s.readStatus X).goOn X i rest else s.readStatus X
  | .pollAck => if s.acked X then (s.readStatus X).goOn X i rest else s.readStatus X
  | .confirm => s.confirm X rest
  | .leave => s.leave X rest

/-! ### Runs -/

/-- What happens. -/
inductive Event where
  | write (X : Side) (msg : List (BitVec 32))
  | read (X : Side) (n : ℕ)
  /-- `ixgbe_poll_mbx` -/
  | pollRead (X : Side) (n : ℕ)
  /-- `check_for_msg` and the like, called on their own -/
  | look (X : Side)
  /-- the next access of a side -/
  | step (X : Side)
  /-- a loop ends without success -/
  | giveUp (X : Side)
deriving DecidableEq, Repr

/-- The loops, which end without success when their countdown is over. -/
def Instr.loops : Instr → Bool
  | .readOwner | .pollMsg | .pollAck => true
  | _ => false

/-- When an event may happen: a side makes one call after another, and a message has at most
16 words. -/
def May : Event → Prop
  | .write X msg => s.code X = [] ∧ msg.length ≤ 16
  | .read X n | .pollRead X n => s.code X = [] ∧ n ≤ 16
  | .look X => s.code X = []
  | .step X => s.code X ≠ []
  | .giveUp X => ∃ i ∈ (s.code X).head?, Instr.loops i

instance (e : Event) : Decidable (s.May e) := by
  cases e <;> unfold May <;> infer_instance

/-- The state after an event. -/
def next (g : MbxOps) (s : Wire) : Event → Wire
  | .write X msg => s.setCode X (writeCode g X msg)
  | .read X n => s.setCode X (readCode g X n)
  | .pollRead X n => s.setCode X ([.pollMsg] ++ readCode g X n)
  | .look X => s.setCode X checkForMsg
  | .step X =>
    match s.code X with
    | [] => s
    | i :: rest => s.exec X i rest
  | .giveUp X => s.leave X []

/-- Nothing has been written, and nobody owns the buffer. -/
def start : Wire where
  own _ := false
  msg _ := false
  ack _ := false
  shadowMsg := false
  shadowAck := false
  mem _ := ⟨0#32, none⟩
  code _ := []
  ownRead _ := false
  ackSeen _ := false
  phase _ := .free
  call _ := 0
  got _ := []
  calls := []
  returned := []
  confirmed := []

/-- The runs of a VF and a PF that use functions of one generation. -/
def system (g : MbxOps) : TransSystem Wire Event where
  init s := s = start
  step s e s' := s.May e ∧ s' = s.next g e

/-- The exchange of messages behind the registers. -/
def view : Exchange where
  own := s.own
  inbox := s.inbox
  acked := s.acked
  mem := s.mem
  phase := s.phase
  call := s.call
  got := s.got
  calls := s.calls
  returned := s.returned
  confirmed := s.confirmed

/-- A write call whose reader is in `R` gets past its flush only when the other side has no
notification left and is not in a read call. -/
def Settles (g : MbxOps) (R : Side → Prop) (s : Wire) : Event → Prop
  | .step X =>
    g = .upgraded → R X.other → (s.code X).head? = some .clearAck → s.phase X = .flushedMsg →
      s.view.Settled X
  | _ => True

end Wire

end Ixgbevf.Mailbox
