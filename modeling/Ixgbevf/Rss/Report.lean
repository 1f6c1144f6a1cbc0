import Ixgbevf.Lib.Packing
import Ixgbevf.Mailbox.Contents

/-!
# What the PF reports of RSS

Before X550 the redirection table and the key are those of the PF, and `ixgbevf_get_rxfh` asks it for
them.  The PF packs sixteen entries of the table into a word of its reply, and four bytes of the
key.
-/

namespace Ixgbevf.Rss.Report

open StateProgram

variable {D : Type} (V : Device D)

/-- `ixgbevf_get_rxfh` before X550, into those of the arrays that are there; `stack` and `stack'`
are the words that the buffers hold from before. -/
def getRxfh (numRxQueues : ℤ) (stack stack' : List (BitVec 32)) (indir key : Bool) : VfM D ℤ :=
  if ¬ indir ∧ ¬ key then
    pure 0
  else do
    let err ← if indir then getRetaLocked V numRxQueues stack else pure 0
    if err = 0 ∧ key then getRssKeyLocked V stack' else pure err

/-! ### The PF -/

/-- A query is answered by a reply that grants it and carries some words. -/
def Answers (op : BitVec 32) (words : List (BitVec 32)) (x : ℤ × List (BitVec 32)) : Prop :=
  x.1 = 0 ∧ replyWord x.2 = op ||| msgtypeSuccess ∧ x.2.drop 1 = words

instance (op : BitVec 32) (words : List (BitVec 32)) (x : ℤ × List (BitVec 32)) :
    Decidable (Answers op words x) := instDecidableAnd

/-! ### What is recorded -/

/-- A device whose PF answers every message at once, with the success bit at its first word and the
same word behind it.  Its state says whether the VF holds the mailbox, and is the first word. -/
def answeringDevice (word : BitVec 32) : Device (Bool × BitVec 32) where
  read d reg :=
    if reg = vfMailbox then (pfstsBit ||| pfackBit ||| (if d.1 then vfuBit else 0#32), d)
    else if reg = vfMbmem then (d.2 ||| msgtypeSuccess ||| msgtypeCts, d)
    else (word, d)
  write d reg value :=
    if reg = vfMailbox then (hasBit value vfuBit, d.2)
    else if reg = vfMbmem then (d.1, value)
    else d

end Ixgbevf.Rss.Report
