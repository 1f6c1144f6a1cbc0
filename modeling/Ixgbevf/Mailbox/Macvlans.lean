import Ixgbevf.Mailbox.Removal
import Ixgbevf.Lib.Bits
import Ixgbevf.Lib.Run

/-!
# The list of unicast addresses

`ixgbevf_write_uc_addr_list` hands the addresses of the interface to the PF, one in a message.
The info field of a message says where the PF is in the list: it clears its list at 0, starts a
new one at 1 and adds to it otherwise.
-/

namespace Ixgbevf.Macvlans

open StateProgram Contents

variable {D : Type} (V : Device D)

/-! ### The driver -/

/-- The loop of `ixgbevf_write_uc_addr_list`, from `count` on. -/
def writeUcAddrs : (count : BitVec 32) → List MacAddr → VfM D (BitVec 32)
  | count, [] => pure count
  | count, addr :: addrs => do
    let _ ← setUcAddrVf V (count + 1#32) (some addr)
    writeUcAddrs (count + 1#32) addrs

/-- `ixgbevf_write_uc_addr_list` for the addresses of the interface, in order. -/
def writeUcAddrList (addrs : List MacAddr) : VfM D (BitVec 32) :=
  if addrs ≠ [] then
    writeUcAddrs V 0#32 addrs
  else do
    let _ ← setUcAddrVf V 0#32 none
    pure 0#32

/-! ### The PF -/

/-- What a message asks the PF to do with its list. -/
inductive Update (α : Type) where
  | clear
  | start (a : α)
  | add (a : α)
  deriving DecidableEq, Repr

/-- The list after an update. -/
def Update.apply {α : Type} : List α → Update α → List α
  | _, clear => []
  | _, start a => [a]
  | held, add a => held ++ [a]

/-- The info field of the first word of a message. -/
def infoField (word : BitVec 32) : ℕ := ((word &&& msginfoMask) >>> msginfoShift).toNat

/-- The opcode in the first word of a message. -/
def opcodeField (word : BitVec 32) : BitVec 32 := word &&& 0xFFFF#32

/-- What a message means to the PF, if it is about the list. -/
def decode (msg : List (BitVec 32)) : Option (Update MacAddr) :=
  let word := msg.getD 0 0#32
  if opcodeField word = vfSetMacvlan then
    some <|
      if infoField word = 0 then .clear
      else if infoField word = 1 then .start (msgAddr msg)
      else .add (msgAddr msg)
  else
    none

/-- The list of the PF after messages, from what it held before. -/
def receive (held : List MacAddr) (msgs : List (List (BitVec 32))) : List MacAddr :=
  (msgs.filterMap decode).foldl Update.apply held

/-- Put a write to the mailbox memory before the messages that follow it: the words of the
first one and the whole ones. -/
def gather (e : ℕ × BitVec 32) (rest : List (BitVec 32) × List (List (BitVec 32))) :
    List (BitVec 32) × List (List (BitVec 32)) :=
  if e.1 = vfMbmem then ([], (e.2 :: rest.1) :: rest.2) else (e.2 :: rest.1, rest.2)

/-- The messages among the writes to the mailbox memory, each of which starts at its first
word. -/
def messages (log : List (ℕ × BitVec 32)) : List (List (BitVec 32)) :=
  (log.foldr gather ([], [])).2

/-- The messages hand the addresses to the PF. -/
structure Encodes (addrs : List MacAddr) (msgs : List (List (BitVec 32))) : Prop where
  /-- The PF is left with the addresses, whatever it held before. -/
  held : ∀ held, receive held msgs = addrs
  /-- The first message of a list starts a new one, and no other. -/
  starts : addrs ≠ [] → ∀ i msg, msgs[i]? = some msg →
    ((∃ addr, decode msg = some (.start addr)) ↔ i = 0)
  /-- No message of a list clears it. -/
  clears : addrs ≠ [] → ∀ msg ∈ msgs, decode msg ≠ some .clear
  /-- No message looks like a reply. -/
  bits : ∀ msg ∈ msgs,
    ¬ hasBit (msg.getD 0 0#32) (msgtypeSuccess ||| msgtypeFailure ||| msgtypeCts)
  /-- An empty list is one message that clears. -/
  empty : addrs = [] → msgs.map decode = [some .clear]

/-! ### The fields of a message -/

/-- The message for an address at a place in the list. -/
def ucMessage (index : BitVec 32) (addr : Option MacAddr) : List (BitVec 32) :=
  macvlanWord index :: (addr.map addrWords).getD [0#32, 0#32]

/-- The opcode survives every index. -/
theorem opcodeField_macvlanWord (index : BitVec 32) :
  opcodeField (macvlanWord index) = vfSetMacvlan
  := by
  have hshift : index <<< msginfoShift &&& 0xFFFF#32 = 0#32 := by
    have hlow := Bits.toNat_and_mask (k := 16) (index <<< msginfoShift) (by decide)
    apply BitVec.eq_of_toNat_eq
    apply hlow.trans
    rw [BitVec.toNat_shiftLeft, Nat.shiftLeft_eq, msginfoShift, BitVec.toNat_ofNat]
    omega
  unfold opcodeField macvlanWord
  rw [BitVec.and_or_distrib_right, hshift, BitVec.zero_or]
  decide

/-- The info field holds the low eight bits of the index. -/
theorem infoField_macvlanWord (index : BitVec 32) :
  infoField (macvlanWord index) = index.toNat % 256
  := by
  have hop : vfSetMacvlan &&& msginfoMask = 0#32 := by decide
  have hmask : msginfoMask = 0xFF#32 <<< msginfoShift := by decide
  unfold infoField macvlanWord
  rw [BitVec.and_or_distrib_right, hop, BitVec.or_zero, hmask, ← BitVec.shiftLeft_and_distrib,
    BitVec.toNat_ushiftRight, BitVec.toNat_shiftLeft]
  have hlow : (index &&& 0xFF#32).toNat = index.toNat % 256 :=
    Bits.toNat_and_mask (k := 8) index (by decide)
  rw [hlow, Nat.shiftLeft_eq, Nat.shiftRight_eq_div_pow, msginfoShift]
  omega

/-- The bytes of an address come back out of its words. -/
theorem msgAddr_addrWords (word : BitVec 32) (addr : MacAddr) :
  msgAddr (word :: addrWords addr) = addr
  := by
  apply Vector.ext
  intro i hi
  have hbyte : (msgAddr (word :: addrWords addr))[i] = wordByte (word :: addrWords addr) i := by
    simp [msgAddr]
  have hcases : i = 0 ∨ i = 1 ∨ i = 2 ∨ i = 3 ∨ i = 4 ∨ i = 5 := by omega
  rw [hbyte]
  obtain rfl | rfl | rfl | rfl | rfl | rfl := hcases
  all_goals
    ext j hj
    simp [wordByte, addrWords]
    try grind

/-- What a message means to the PF goes by the low eight bits of its place. -/
theorem decode_ucMessage (index : BitVec 32) (addr : MacAddr) :
  decode (ucMessage index (some addr))
    = some (if index.toNat % 256 = 0 then .clear
        else if index.toNat % 256 = 1 then .start addr
        else .add addr)
  := by
  have hword : (ucMessage index (some addr)).getD 0 0#32 = macvlanWord index := rfl
  have haddr : msgAddr (ucMessage index (some addr)) = addr := msgAddr_addrWords _ addr
  rw [decode, hword, if_pos (opcodeField_macvlanWord index), infoField_macvlanWord, haddr]

/-- An index of eight bits leaves the bits of a reply alone. -/
theorem macvlanWord_bits {index : BitVec 32} (h : index.toNat < 256) :
  ¬ hasBit (macvlanWord index) (msgtypeSuccess ||| msgtypeFailure ||| msgtypeCts)
  := by
  have hshift : (index <<< msginfoShift).toNat < 2 ^ 24 := by
    rw [BitVec.toNat_shiftLeft, Nat.shiftLeft_eq, msginfoShift]
    omega
  have hhigh := Bits.and_not_mask_eq_zero (by decide : 24 ≤ 32) hshift
  have hnone := Bits.and_eq_zero_of_mask (f := msgtypeSuccess ||| msgtypeFailure ||| msgtypeCts)
    hhigh (by decide)
  have hop : vfSetMacvlan &&& (msgtypeSuccess ||| msgtypeFailure ||| msgtypeCts) = 0#32 := by
    decide
  unfold macvlanWord hasBit
  rw [Bits.or_and_eq_zero hnone hop]
  decide

/-! ### The messages of a list -/

/-- The messages for addresses from the place `count` on. -/
def ucMessagesFrom : (count : BitVec 32) → List MacAddr → List (List (BitVec 32))
  | _, [] => []
  | count, addr :: addrs =>
    ucMessage (count + 1#32) (some addr) :: ucMessagesFrom (count + 1#32) addrs

/-- The messages of `ixgbevf_write_uc_addr_list`. -/
def ucMessages (addrs : List MacAddr) : List (List (BitVec 32)) :=
  if addrs ≠ [] then ucMessagesFrom 0#32 addrs else [ucMessage 0#32 none]

/-- The message for an address of the list. -/
theorem ucMessagesFrom_get {count : ℕ} {addrs : List MacAddr} {i : ℕ} {addr : MacAddr}
    (h : addrs[i]? = some addr) :
  (ucMessagesFrom (BitVec.ofNat 32 count) addrs)[i]?
    = some (ucMessage (BitVec.ofNat 32 (count + i + 1)) (some addr))
  := by
  induction addrs generalizing count i with
  | nil => cases h
  | cons a addrs ih =>
    have hnext : BitVec.ofNat 32 count + 1#32 = BitVec.ofNat 32 (count + 1) := by
      rw [BitVec.ofNat_add]
    cases i with
    | zero =>
      cases h
      rw [ucMessagesFrom, hnext]
      rfl
    | succ i =>
      rw [ucMessagesFrom, hnext, List.getElem?_cons_succ, ih h]
      congr 4
      omega

/-- There is one message for each address. -/
theorem ucMessagesFrom_length (count : BitVec 32) (addrs : List MacAddr) :
  (ucMessagesFrom count addrs).length = addrs.length
  := by
  induction addrs generalizing count with
  | nil => rfl
  | cons addr addrs ih => simp [ucMessagesFrom, ih]

/-- A message of a list and the address it is for. -/
theorem ucMessagesFrom_cases {count : ℕ} {addrs : List MacAddr} {i : ℕ} {msg : List (BitVec 32)}
    (h : (ucMessagesFrom (BitVec.ofNat 32 count) addrs)[i]? = some msg) :
  ∃ addr, addrs[i]? = some addr ∧ i < addrs.length
    ∧ msg = ucMessage (BitVec.ofNat 32 (count + i + 1)) (some addr)
  := by
  have hi : i < addrs.length := by
    obtain ⟨hi, -⟩ := List.getElem?_eq_some_iff.mp h
    rwa [ucMessagesFrom_length] at hi
  have haddr := List.getElem?_eq_getElem hi
  rw [ucMessagesFrom_get haddr] at h
  exact ⟨_, haddr, hi, (Option.some.inj h).symm⟩

/-- Addresses after the first one, up to the 255th, are added. -/
theorem receive_ucMessagesFrom
    {count : ℕ} {addrs : List MacAddr} (hpos : 0 < count) (h : count + addrs.length < 256)
    (held : List MacAddr) :
  receive held (ucMessagesFrom (BitVec.ofNat 32 count) addrs) = held ++ addrs
  := by
  induction addrs generalizing count held with
  | nil => simp [receive, ucMessagesFrom]
  | cons addr addrs ih =>
    rw [List.length_cons] at h
    have hnext : BitVec.ofNat 32 count + 1#32 = BitVec.ofNat 32 (count + 1) := by
      rw [BitVec.ofNat_add]
    have hindex : (BitVec.ofNat 32 (count + 1)).toNat % 256 = count + 1 := by
      rw [BitVec.toNat_ofNat]
      omega
    have hdecode : decode (ucMessage (BitVec.ofNat 32 (count + 1)) (some addr))
        = some (.add addr) := by
      rw [decode_ucMessage, hindex, if_neg (by omega), if_neg (by omega)]
    have hrest : receive (held ++ [addr]) (ucMessagesFrom (BitVec.ofNat 32 (count + 1)) addrs)
        = held ++ [addr] ++ addrs := ih (by omega) (by omega) (held ++ [addr])
    rw [ucMessagesFrom, hnext, receive, List.filterMap_cons_some hdecode, List.foldl_cons]
    rw [receive] at hrest
    rw [Update.apply, hrest, List.append_assoc]
    rfl

/-- An empty list is handed to the PF. -/
theorem encodes_nil :
  Encodes [] (ucMessages [])
  := by
  have hclear : decode (ucMessage 0#32 none) = some .clear := by decide
  have hmsgs : ucMessages [] = [ucMessage 0#32 none] := rfl
  constructor
  · intro held
    simp [hmsgs, receive, hclear, Update.apply]
  · intro h
    exact absurd rfl h
  · intro h
    exact absurd rfl h
  · intro msg hmsg
    rw [hmsgs, List.mem_singleton] at hmsg
    subst hmsg
    apply macvlanWord_bits (by decide)
  · intro _
    simp [hmsgs, hclear]

/-- A list of up to 255 addresses is handed to the PF. -/
theorem encodes_cons {addr : MacAddr} {addrs : List MacAddr} (h : (addr :: addrs).length ≤ 255) :
  Encodes (addr :: addrs) (ucMessages (addr :: addrs))
  := by
  have hlength : addrs.length + 1 ≤ 255 := h
  have hmsgs : ucMessages (addr :: addrs) = ucMessagesFrom (BitVec.ofNat 32 0) (addr :: addrs) :=
    rfl
  have hindex {i : ℕ} (hi : i < (addr :: addrs).length) :
      (BitVec.ofNat 32 (0 + i + 1)).toNat = i + 1 := by
    rw [List.length_cons] at hi
    rw [BitVec.toNat_ofNat]
    omega
  have hdecode {i : ℕ} {a : MacAddr} (hi : i < (addr :: addrs).length) :
      decode (ucMessage (BitVec.ofNat 32 (0 + i + 1)) (some a))
        = some (if i = 0 then .start a else .add a) := by
    have hlt : i < 255 := Nat.lt_of_lt_of_le hi h
    rw [decode_ucMessage, hindex hi, Nat.mod_eq_of_lt (by omega), if_neg (by omega)]
    simp
  constructor
  · intro held
    have hfirst : decode (ucMessage 1#32 (some addr)) = some (.start addr) := by
      rw [decode_ucMessage]
      rfl
    have hrest : receive [addr] (ucMessagesFrom (BitVec.ofNat 32 1) addrs) = [addr] ++ addrs :=
      receive_ucMessagesFrom (by decide) (by omega) [addr]
    have hcons : ucMessages (addr :: addrs)
        = ucMessage 1#32 (some addr) :: ucMessagesFrom (BitVec.ofNat 32 1) addrs := rfl
    rw [hcons, receive, List.filterMap_cons_some hfirst, List.foldl_cons, Update.apply]
    rw [receive] at hrest
    exact hrest
  · intro _ i msg hmsg
    rw [hmsgs] at hmsg
    obtain ⟨a, -, hi, rfl⟩ := ucMessagesFrom_cases hmsg
    rw [hdecode hi]
    split
    next h0 => simp [h0]
    next h0 => simp [h0]
  · intro _ msg hmsg hclear
    obtain ⟨i, hget⟩ := List.mem_iff_getElem?.mp hmsg
    rw [hmsgs] at hget
    obtain ⟨a, -, hi, rfl⟩ := ucMessagesFrom_cases hget
    rw [hdecode hi] at hclear
    split at hclear <;> simp at hclear
  · intro msg hmsg
    obtain ⟨i, hget⟩ := List.mem_iff_getElem?.mp hmsg
    rw [hmsgs] at hget
    obtain ⟨a, -, hi, rfl⟩ := ucMessagesFrom_cases hget
    have hlt : i < 255 := Nat.lt_of_lt_of_le hi h
    apply macvlanWord_bits
    rw [hindex hi]
    omega
  · intro hnil
    cases hnil

/-- The message for the 256th address clears the list. -/
theorem not_encodes {addrs : List MacAddr} (h : 256 ≤ addrs.length) :
  ¬ Encodes addrs (ucMessages addrs)
  := by
  intro hencodes
  have hne : addrs ≠ [] := by
    rintro rfl
    simp at h
  have hmsgs : ucMessages addrs = ucMessagesFrom (BitVec.ofNat 32 0) addrs := if_pos hne
  have hget : (ucMessagesFrom (BitVec.ofNat 32 0) addrs)[255]?
      = some (ucMessage (BitVec.ofNat 32 (0 + 255 + 1)) (some addrs[255])) :=
    ucMessagesFrom_get (List.getElem?_eq_getElem h)
  rw [← hmsgs] at hget
  apply hencodes.clears hne _ (List.mem_of_getElem? hget)
  rw [decode_ucMessage]
  rfl

/-- The messages hand the addresses to the PF exactly when there are at most 255. -/
theorem encodes_iff (addrs : List MacAddr) :
  Encodes addrs (ucMessages addrs) ↔ addrs.length ≤ 255
  := by
  constructor
  · intro hencodes
    by_contra hlong
    exact not_encodes (by omega) hencodes
  · intro hshort
    cases addrs with
    | nil => exact encodes_nil
    | cons addr addrs => exact encodes_cons hshort

/-! ### What the requests write to the mailbox memory -/

/-- The requests of `ixgbevf_write_uc_addr_list` from the place `count` on. -/
def ucRequestsFrom : (count : BitVec 32) → List MacAddr → List Request
  | _, [] => []
  | count, addr :: addrs =>
    .setUcAddr (count + 1#32) (some addr) :: ucRequestsFrom (count + 1#32) addrs

/-- The requests of `ixgbevf_write_uc_addr_list`. -/
def ucRequests (addrs : List MacAddr) : List Request :=
  if addrs ≠ [] then ucRequestsFrom 0#32 addrs else [.setUcAddr 0#32 none]

/-- The PF accepts a request: a reply comes that repeats the opcode, with the success bit. -/
def Accepts (r : Request) (v : Vf D) : Prop :=
  let x := ((r.exchange V v).run v.port).1
  x.1 = 0 ∧ hasBit (x.2.getD 0 0#32) msgtypeSuccess ∧ opcodeField (x.2.getD 0 0#32) = r.opcode

instance (r : Request) (v : Vf D) : Decidable (Accepts V r v) := instDecidableAnd

/-- The PF accepts each of the requests, one after the other. -/
def AcceptsAll (rs : List Request) (v : Vf D) : Prop :=
  TransSystem.AllAlong (fun v r => Accepts V r v) (fun v r => ((r.run V).run v).2) v rs

instance (rs : List Request) (v : Vf D) : Decidable (AcceptsAll V rs v) :=
  TransSystem.AllAlong.decide _ _ v rs

/-- `ixgbevf_write_uc_addr_list` makes its requests. -/
theorem writeUcAddrList_run (addrs : List MacAddr) (v : Vf D) :
  ((writeUcAddrList V addrs).run v).2
    = (ucRequests addrs).foldl (fun v r => ((r.run V).run v).2) v
  := by
  have hfrom : ∀ addrs count v, ((writeUcAddrs V count addrs).run v).2
      = (ucRequestsFrom count addrs).foldl (fun v r => ((r.run V).run v).2) v := by
    intro addrs
    induction addrs with
    | nil =>
      intro count v
      rfl
    | cons addr addrs ih =>
      intro count v
      exact ih (count + 1#32) _
  unfold writeUcAddrList ucRequests
  split
  · apply hfrom
  · rfl

/-- A message that is placed in the mailbox memory while the device is there. -/
def Places (msg : List (BitVec 32)) (p : Port (D × List (ℕ × BitVec 32)))
    (r : ℤ × Port (D × List (ℕ × BitVec 32))) : Prop :=
  r.1 = 0 → ¬ Removal.Gone (recording V) r.2 → mailLog r.2 = mailLog p ++ placed 0 msg

/-- Waiting for an acknowledgement does not bring a device back. -/
theorem pollForAck_gone :
  Within (Removal.Gone V) (fun _ => True) (pollForAck V)
  := by
  have hrounds : ∀ countdown,
      Within (Removal.Gone V) (fun _ => True) (pollRounds (checkForAckVf V) countdown) := by
    intro countdown
    induction countdown with
    | zero => apply within_pure trivial
    | succ countdown ih =>
      apply within_bind (Removal.checkForAckVf_gone V)
      intro err _
      apply within_ite
      · apply within_pure trivial
      · apply ih
  apply within_get
  intro p _
  apply within_ite
  · apply within_pure trivial
  · apply hrounds

/-- Copying a message to the mailbox memory does not bring a device back. -/
theorem writeMbmem_gone (i : ℕ) (msg : List (BitVec 32)) :
  Within (Removal.Gone V) (fun _ => True) (writeMbmem V i msg)
  := by
  induction msg generalizing i with
  | nil => apply within_pure trivial
  | cons word msg ih =>
    apply within_bind (Removal.writeReg_gone V _ _)
    intro _ _
    apply ih

/-- The message is placed by a copy after which only the mailbox register is accessed. -/
theorem writeMbmem_places
    {msg : List (BitVec 32)} {p p₁ : Port (D × List (ℕ × BitVec 32))}
    (rest : PortM (D × List (ℕ × BitVec 32)) ℤ) (hlength : msg.length ≤ 16) (hp : SameMail p p₁)
    (hmail : Keeps SameMail rest)
    (hgone : Within (Removal.Gone (recording V)) (fun _ => True) rest) :
  Places V msg p ((writeMbmem (recording V) 0 msg >>= fun _ => rest).run p₁)
  := by
  intro _ hleft
  have hthere : p₁.removed = false := by
    by_contra hremoved
    apply hleft
    have hgone₁ : Removal.Gone (recording V) p₁ := .inl (by simpa using hremoved)
    exact (within_bind (writeMbmem_gone (recording V) 0 msg) (fun _ _ => hgone) p₁ hgone₁).2
  have hcopy := writeMbmem_mailLog V msg (i := 0) hthere (by omega)
  have hrest : mailLog ((writeMbmem (recording V) 0 msg >>= fun _ => rest).run p₁).2 = _ :=
    hmail ((writeMbmem (recording V) 0 msg).run p₁).2
  rw [hrest, hcopy, hp]

/-- The functions of both sets place the message when they succeed. -/
theorem MbxOps.write_places
    (ops : MbxOps) (msg : List (BitVec 32)) {size : ℕ} (hsize : size ≤ 16)
    (p : Port (D × List (ℕ × BitVec 32))) :
  Places V (msg.take size) p ((ops.write (recording V) msg size).run p)
  := by
  have hlength : (msg.take size).length ≤ 16 := by
    rw [List.length_take]
    omega
  cases ops with
  | legacy =>
    apply run_bind_of (fun _ p' => SameMail p p') (Places V (msg.take size) p)
      ((recording_accesses V).obtainMbxLockVf p)
    intro err p₁ h₁
    split
    next herr =>
      intro hzero
      exact absurd hzero herr
    next herr =>
      have hclears : Keeps SameMail (do
          let _ ← checkForMsgVf (recording V)
          clearMsgVf (recording V)
          let _ ← checkForAckVf (recording V)
          clearAckVf (recording V)) :=
        keeps_bind ((recording_accesses V).checkForBitVf _) fun _ =>
          keeps_bind ((recording_accesses V).clearBitVf _) fun _ =>
            keeps_bind (recording_accesses V).checkForAckVf fun _ => (recording_accesses V).clearBitVf _
      refine writeMbmem_places V (do
        writeReg (recording V) vfMailbox reqBit
        pure 0) hlength (trans_of SameMail h₁ (hclears p₁)) ?_ ?_
      · apply keeps_bind (writeReg_sameMail V _ (by decide))
        intro _
        apply keeps_pure
      · apply within_bind (Removal.writeReg_gone _ _ _)
        intro _ _
        apply within_pure trivial
  | upgraded =>
    apply run_bind_of (fun _ p' => SameMail p p') (Places V (msg.take size) p)
      ((recording_accesses V).obtainMbxLockVf p)
    intro err p₁ h₁
    split
    next herr =>
      intro hzero
      exact absurd hzero herr
    next herr =>
      have hclears : Keeps SameMail (do
          clearMsgVf (recording V)
          clearAckVf (recording V)) :=
        keeps_bind ((recording_accesses V).clearBitVf _) fun _ => (recording_accesses V).clearBitVf _
      refine writeMbmem_places V (do
        let seen ← readMailboxVf (recording V)
        writeReg (recording V) vfMailbox (seen ||| reqBit)
        releaseMbxLockVf (recording V)
        pollForAck (recording V)) hlength (trans_of SameMail h₁ (hclears p₁)) ?_ ?_
      · apply keeps_bind (recording_accesses V).readMailboxVf
        intro seen
        apply keeps_bind (writeReg_sameMail V _ (by decide))
        intro _
        apply keeps_bind
        · apply keeps_bind (recording_accesses V).readMailboxVf
          intro seen
          apply writeReg_sameMail V _ (by decide)
        · intro _
          apply (recording_accesses V).pollForAck
      · apply within_bind (Removal.readMailboxVf_gone _)
        intro seen _
        apply within_bind (Removal.writeReg_gone _ _ _)
        intro _ _
        apply within_bind (P := fun _ => True)
        · apply within_bind (Removal.readMailboxVf_gone _)
          intro seen _
          apply Removal.writeReg_gone
        · intro _ _
          apply pollForAck_gone

/-- `ixgbe_write_mbx` places the message when it succeeds. -/
theorem writeMbx_places
    (msg : List (BitVec 32)) {size : ℕ} (hsize : size ≤ 16)
    (p : Port (D × List (ℕ × BitVec 32))) :
  Places V (msg.take size) p ((writeMbx (recording V) msg size).run p)
  := by
  have hconfig : errConfig ≠ 0 := by decide
  have hparam : errParam ≠ 0 := by decide
  rw [writeMbx, run_get_bind]
  split
  · intro hzero
    exact absurd hzero hconfig
  · split
    · intro hzero
      exact absurd hzero hparam
    · apply MbxOps.write_places V _ msg hsize

/-- An exchange whose reply is not all ones places its message. -/
theorem writeMsgReadAck_places
    (msg : List (BitVec 32)) {size : ℕ} (hpos : 0 < size) (hsize : size ≤ 16)
    {p : Port (D × List (ℕ × BitVec 32))}
    (hzero : ((writeMsgReadAck (recording V) msg size).run p).1.1 = 0)
    (hword : ((writeMsgReadAck (recording V) msg size).run p).1.2.getD 0 0#32 ≠ failedReadReg) :
  mailLog ((writeMsgReadAck (recording V) msg size).run p).2
    = mailLog p ++ placed 0 (msg.take size)
  := by
  revert hzero hword
  apply run_bind_of (fun err p₁ => Places V (msg.take size) p (err, p₁))
    (fun r : (ℤ × List (BitVec 32)) × Port (D × List (ℕ × BitVec 32)) =>
      r.1.1 = 0 → r.1.2.getD 0 0#32 ≠ failedReadReg →
        mailLog r.2 = mailLog p ++ placed 0 (msg.take size))
  · apply writeMbx_places V msg hsize
  · intro err p₁ h₁
    split
    next herr =>
      intro hzero
      exact absurd hzero herr
    next herr =>
      intro hzero hword
      have hleft : ¬ Removal.Gone (recording V) p₁ := by
        intro hgone
        obtain ⟨hfailed | hones, -⟩ := Removal.pollMbx_gone (recording V) msg hpos p₁ hgone
        · exact hfailed hzero
        · exact hword hones
      have hpoll := (recording_accesses V).pollMbx msg size p₁
      rw [SameMail] at hpoll
      rw [hpoll]
      exact h₁ (not_not.mp herr) hleft

/-- A request of the list that is accepted places its message. -/
theorem setUcAddr_places
    {index : BitVec 32} {addr : Option MacAddr} {v : Vf (D × List (ℕ × BitVec 32))}
    (h : Accepts (recording V) (.setUcAddr index addr) v) :
  mailLog (((Request.setUcAddr index addr).run (recording V)).run v).2.port
    = mailLog v.port ++ placed 0 (ucMessage index addr)
  := by
  obtain ⟨hzero, -, hop⟩ := h
  have hport := run_port (recording V) (.setUcAddr index addr) v
  have hsends : (Request.setUcAddr index addr).sends v = true := rfl
  have htake : (ucMessage index addr).take 3 = ucMessage index addr := by
    cases addr <;> rfl
  have hword : (((Request.setUcAddr index addr).exchange (recording V) v).run v.port).1.2.getD 0
      0#32 ≠ failedReadReg := by
    intro hones
    rw [hones] at hop
    revert hop
    simp only [Request.opcode]
    decide
  rw [if_pos hsends] at hport
  rw [hport]
  have hplaced := writeMsgReadAck_places V (ucMessage index addr) (by decide : 0 < 3) (by decide)
    (p := v.port) hzero hword
  rw [htake] at hplaced
  exact hplaced

/-- The whole messages that are placed one after the other come back out of the log. -/
theorem messages_placed (msgs : List (List (BitVec 32))) (h : ∀ msg ∈ msgs, msg ≠ []) :
  messages (msgs.map (placed 0)).flatten = msgs
  := by
  have htail : ∀ (words : List (BitVec 32)) (i : ℕ) rest, 0 < i →
      (placed i words).foldr gather rest = (words ++ rest.1, rest.2) := by
    intro words
    induction words with
    | nil =>
      intro i rest _
      rfl
    | cons word words ih =>
      intro i rest hi
      have hreg : vfMbmem + 4 * i ≠ vfMbmem := by omega
      rw [placed, List.foldr_cons, ih (i + 1) rest (by omega), gather, if_neg hreg]
      rfl
  have hgather : ((msgs.map (placed 0)).flatten).foldr gather ([], []) = ([], msgs) := by
    induction msgs with
    | nil => rfl
    | cons msg msgs ih =>
      have hmsgs := ih fun m hm => h m (List.mem_cons_of_mem _ hm)
      rw [List.map_cons, List.flatten_cons, List.foldr_append, hmsgs]
      cases msg with
      | nil => exact absurd rfl (h [] List.mem_cons_self)
      | cons word words =>
        rw [placed, List.foldr_cons, htail words 1 _ (by decide)]
        simp [gather]
  rw [messages, hgather]

/-- What the requests from a place on write to the mailbox memory when they are accepted. -/
theorem ucRequestsFrom_mailLog
    {count : BitVec 32} {addrs : List MacAddr} {v : Vf (D × List (ℕ × BitVec 32))}
    (h : AcceptsAll (recording V) (ucRequestsFrom count addrs) v) :
  mailLog ((ucRequestsFrom count addrs).foldl (fun v r => ((r.run (recording V)).run v).2) v).port
    = mailLog v.port ++ ((ucMessagesFrom count addrs).map (placed 0)).flatten
  := by
  induction addrs generalizing count v with
  | nil => simp [ucRequestsFrom, ucMessagesFrom]
  | cons addr addrs ih =>
    obtain ⟨hfirst, hrest⟩ := h
    rw [ucRequestsFrom, List.foldl_cons, ih hrest, setUcAddr_places V hfirst, List.append_assoc]
    rfl

/-- What the function writes to the mailbox memory when every request is accepted. -/
theorem writeUcAddrList_messages
    {addrs : List MacAddr} {v : Vf D} (h : AcceptsAll (recording V) (ucRequests addrs) (recorded v)) :
  messages (mailLog ((writeUcAddrList (recording V) addrs).run (recorded v)).2.port)
    = ucMessages addrs
  := by
  have hfrom : ∀ count addrs, ∀ msg ∈ ucMessagesFrom count addrs, msg ≠ [] := by
    intro count addrs
    induction addrs generalizing count with
    | nil => simp [ucMessagesFrom]
    | cons addr addrs ih =>
      intro msg hmsg
      obtain rfl | hmsg := List.mem_cons.mp hmsg
      · simp [ucMessage]
      · exact ih _ _ hmsg
  have hne : ∀ msg ∈ ucMessages addrs, msg ≠ [] := by
    unfold ucMessages
    split
    · apply hfrom
    · simp [ucMessage]
  have hlog : mailLog ((writeUcAddrList (recording V) addrs).run (recorded v)).2.port
      = ((ucMessages addrs).map (placed 0)).flatten := by
    rw [writeUcAddrList_run]
    revert h
    unfold ucRequests ucMessages
    split
    · intro h
      exact ucRequestsFrom_mailLog V h
    · intro h
      rw [List.foldl_cons, List.foldl_nil, setUcAddr_places V h.1]
      simp [mailLog, recorded]
  rw [hlog, messages_placed _ hne]

/-- Where the PF accepts every message, the messages of `ixgbevf_write_uc_addr_list` hand the
addresses to it exactly when there are at most 255: the info field has no room for the place of
the 256th. -/
theorem writeUcAddrList_encodes_iff
    {addrs : List MacAddr} {v : Vf D} (h : AcceptsAll (recording V) (ucRequests addrs) (recorded v)) :
  Encodes addrs
      (messages (mailLog ((writeUcAddrList (recording V) addrs).run (recorded v)).2.port))
    ↔ addrs.length ≤ 255
  := by
  rw [writeUcAddrList_messages V h, encodes_iff]

/-! ### A PF that accepts everything -/

/-- A device whose PF answers every message at once and accepts it.  Its state says whether the
VF holds the mailbox. -/
def acceptingDevice : Device Bool where
  read held reg :=
    if reg = vfMailbox then (pfstsBit ||| pfackBit ||| (if held then vfuBit else 0#32), held)
    else if reg = vfMbmem then (vfSetMacvlan ||| msgtypeSuccess ||| msgtypeCts, held)
    else (0#32, held)
  write held reg value := if reg = vfMailbox then hasBit value vfuBit else held

/-- Two addresses that the PF accepts. -/
theorem twoAddrs_encoded :
  Encodes [Vector.replicate 6 2#8, Vector.replicate 6 4#8]
    (messages (mailLog ((writeUcAddrList (recording acceptingDevice)
      [Vector.replicate 6 2#8, Vector.replicate 6 4#8]).run (recorded silentVf)).2.port))
  := (writeUcAddrList_encodes_iff acceptingDevice (by decide +kernel)).mpr (by decide)

/-- A VF with that device: `c` are the bits it has cached, and `held` says whether it holds the
mailbox. -/
def Serves (c : BitVec 32) (held : Bool) (p : Port (Bool × List (ℕ × BitVec 32))) : Prop :=
  p.removed = false ∧ p.mbx = mbxParamsVf .legacy c ∧ p.dev.1 = held

/-- From a VF with that device the program returns `a` and leaves the VF as said. -/
def Leads {α : Type} (c c' : BitVec 32) (held held' : Bool) (a : α)
    (m : PortM (Bool × List (ℕ × BitVec 32)) α) : Prop :=
  ∀ p, Serves c held p → (m.run p).1 = a ∧ Serves c' held' (m.run p).2

/-- Programs one after the other. -/
theorem leads_bind {α β : Type} {c c' c'' : BitVec 32} {held held' held'' : Bool} {a : α} {b : β}
    {m : PortM (Bool × List (ℕ × BitVec 32)) α} {f : α → PortM (Bool × List (ℕ × BitVec 32)) β}
    (hm : Leads c c' held held' a m) (hf : Leads c' c'' held' held'' b (f a)) :
  Leads c c'' held held'' b (m >>= f)
  := by
  intro p hp
  obtain ⟨ha, hp'⟩ := hm p hp
  have hrun : (m >>= f).run p = (f a).run (m.run p).2 := by
    rw [← ha]
    rfl
  rw [hrun]
  exact hf _ hp'

/-- A program that does nothing. -/
theorem leads_pure {α : Type} (c : BitVec 32) (held : Bool) (a : α) :
  Leads c c held held a (pure a)
  := fun _ hp => ⟨rfl, hp⟩

/-- A register read. -/
theorem readReg_leads (c : BitVec 32) (held : Bool) (reg : ℕ) :
  Leads c c held held (acceptingDevice.read held reg).1 (readReg (recording acceptingDevice) reg)
  := by
  have halive : (acceptingDevice.read held reg).1 ≠ failedReadReg
      ∧ (acceptingDevice.read held reg).1 ≠ deadReadReg := by
    simp only [acceptingDevice]
    cases held <;> split_ifs <;> decide
  have hstays : (acceptingDevice.read held reg).2 = held := by
    simp only [acceptingDevice]
    split_ifs <;> rfl
  rintro ⟨removed, mbx, ⟨held', log⟩, reads⟩ ⟨hthere, hmbx, hheld⟩
  obtain rfl : removed = false := hthere
  obtain rfl : held' = held := hheld
  have hread : (readRegWith (recording acceptingDevice)
      (checkRemove (recording acceptingDevice) reg) reg).run ⟨false, mbx, (held', log), reads⟩
      = ((acceptingDevice.read held' reg).1, ⟨false, mbx, (held', log), reads⟩) := by
    have hrun : (readRegWith (recording acceptingDevice)
        (checkRemove (recording acceptingDevice) reg) reg).run ⟨false, mbx, (held', log), reads⟩
        = ((do
          (if (acceptingDevice.read held' reg).1 = failedReadReg then
            checkRemove (recording acceptingDevice) reg else pure ())
          if (acceptingDevice.read held' reg).1 = deadReadReg then
            validateRegisterRead (recording acceptingDevice) reg
          else pure (acceptingDevice.read held' reg).1 :
            PortM (Bool × List (ℕ × BitVec 32)) (BitVec 32)).run
          ⟨false, mbx, ((acceptingDevice.read held' reg).2, log), reads⟩) := rfl
    rw [hrun, if_neg halive.1, if_neg halive.2, hstays]
    rfl
  have hport := congrArg Prod.snd hread
  refine ⟨congrArg Prod.fst hread, ?_⟩
  show Serves c held' { ((readRegWith (recording acceptingDevice)
    (checkRemove (recording acceptingDevice) reg) reg).run ⟨false, mbx, (held', log), reads⟩).2 with
      reads := _ }
  rw [hport]
  exact ⟨rfl, hmbx, rfl⟩

/-- A write to a register. -/
theorem writeReg_leads (c : BitVec 32) (held : Bool) (reg : ℕ) (value : BitVec 32) :
  Leads c c held (acceptingDevice.write held reg value) ()
    (writeReg (recording acceptingDevice) reg value)
  := by
  rintro ⟨removed, mbx, ⟨held', log⟩, reads⟩ ⟨hthere, hmbx, hheld⟩
  obtain rfl : removed = false := hthere
  obtain rfl : held' = held := hheld
  exact ⟨rfl, rfl, hmbx, rfl⟩

/-- The bits that the VF sees in the mailbox register. -/
def seenBits (held : Bool) : BitVec 32 :=
  pfstsBit ||| pfackBit ||| (if held then vfuBit else 0#32)

/-- A read of the mailbox register finds a message and an acknowledgement, and caches them. -/
theorem readMailboxVf_leads {c : BitVec 32} (hc : (pfstsBit ||| pfackBit) ||| c = pfstsBit ||| pfackBit)
    (held : Bool) :
  Leads c (pfstsBit ||| pfackBit) held held (seenBits held)
    (readMailboxVf (recording acceptingDevice))
  := by
  apply leads_bind (readReg_leads c held vfMailbox)
  rintro p ⟨hthere, hmbx, hheld⟩
  have hvalue : (acceptingDevice.read held vfMailbox).1 = seenBits held := rfl
  have hseen : seenBits held ||| c = seenBits held := by
    unfold seenBits
    rw [BitVec.or_assoc, BitVec.or_comm _ c, ← BitVec.or_assoc, hc]
  have hcached : c ||| (seenBits held &&& r2cBits) = pfstsBit ||| pfackBit := by
    have hr2c : seenBits held &&& r2cBits = pfstsBit ||| pfackBit := by
      cases held <;> decide
    rw [hr2c, BitVec.or_comm, hc]
  show seenBits held ||| p.mbx.vfMailbox = _ ∧ Serves _ _ { p with mbx := _ }
  rw [hmbx]
  refine ⟨hseen, hthere, ?_, hheld⟩
  simp only [mbxParamsVf, hvalue, hseen, hcached]

/-- Looking for a bit that the VF sees. -/
theorem checkForBitVf_leads {c mask : BitVec 32} {held : Bool}
    (hc : (pfstsBit ||| pfackBit) ||| c = pfstsBit ||| pfackBit)
    (hmask : hasBit (seenBits held) mask) :
  Leads c (pfstsBit ||| pfackBit) held held 0 (checkForBitVf (recording acceptingDevice) mask)
  := by
  apply leads_bind (readMailboxVf_leads hc held)
  rw [if_pos hmask]
  apply leads_pure

/-- Clearing a bit that the VF sees. -/
theorem clearBitVf_leads {c mask : BitVec 32} {held : Bool}
    (hc : (pfstsBit ||| pfackBit) ||| c = pfstsBit ||| pfackBit)
    (hmask : hasBit (seenBits held) mask) :
  Leads c ((pfstsBit ||| pfackBit) &&& ~~~mask) held held ()
    (clearBitVf (recording acceptingDevice) mask)
  := by
  apply leads_bind (readMailboxVf_leads hc held)
  rintro p ⟨hthere, hmbx, hheld⟩
  refine ⟨rfl, ?_⟩
  show Serves _ _ (if hasBit (seenBits held) mask then _ else _)
  rw [if_pos hmask]
  refine ⟨hthere, ?_, hheld⟩
  simp only [hmbx, mbxParamsVf]

/-- A program that looks at the timeout. -/
theorem leads_get {α : Type} {c c' : BitVec 32} {held held' : Bool} {a : α}
    {k : Port (Bool × List (ℕ × BitVec 32)) → PortM (Bool × List (ℕ × BitVec 32)) α}
    (h : ∀ p, Serves c held p → Leads c c' held held' a (k p)) :
  Leads c c' held held' a (get >>= k)
  := fun p hp => h p hp p hp

/-- The lock is free. -/
theorem obtainMbxLockVf_leads {c : BitVec 32}
    (hc : (pfstsBit ||| pfackBit) ||| c = pfstsBit ||| pfackBit) :
  Leads c (pfstsBit ||| pfackBit) false true 0 (obtainMbxLockVf (recording acceptingDevice))
  := by
  apply leads_get
  intro p hp
  rw [hp.2.1]
  apply leads_bind (readMailboxVf_leads hc false)
  apply leads_bind (writeReg_leads _ false vfMailbox (seenBits false ||| vfuBit))
  have hheld : acceptingDevice.write false vfMailbox (seenBits false ||| vfuBit) = true := by
    decide
  rw [hheld]
  apply leads_bind (readMailboxVf_leads (by decide) true)
  apply leads_pure

/-- The message goes to the mailbox memory. -/
theorem writeMbmem_leads (c : BitVec 32) (held : Bool) (msg : List (BitVec 32)) {i : ℕ}
    (hi : i + msg.length ≤ 16) :
  Leads c c held held () (writeMbmem (recording acceptingDevice) i msg)
  := by
  induction msg generalizing i with
  | nil => apply leads_pure
  | cons word msg ih =>
    rw [List.length_cons] at hi
    have hstays : acceptingDevice.write held (vfMbmem + 4 * i) word = held := by
      apply if_neg
      unfold vfMbmem vfMailbox
      omega
    have hwrite := writeReg_leads c held (vfMbmem + 4 * i) word
    rw [hstays] at hwrite
    apply leads_bind hwrite
    apply ih (by omega)

/-- The message is sent. -/
theorem writeMbx_leads {c : BitVec 32} (hc : (pfstsBit ||| pfackBit) ||| c = pfstsBit ||| pfackBit)
    {msg : List (BitVec 32)} (hmsg : msg.length = 3) :
  Leads c pfstsBit false false 0 (writeMbx (recording acceptingDevice) msg 3)
  := by
  apply leads_get
  intro p hp
  rw [hp.2.1]
  have hack : hasBit (seenBits true) pfackBit := by decide
  have hsts : hasBit (seenBits true) pfstsBit := by decide
  apply leads_bind (obtainMbxLockVf_leads hc)
  apply leads_bind (checkForBitVf_leads (by decide) hsts)
  apply leads_bind (clearBitVf_leads (by decide) hsts)
  apply leads_bind
  · apply leads_bind (checkForBitVf_leads (by decide) hack)
    apply leads_bind (clearBitVf_leads (by decide) hack)
    apply leads_pure
  · apply leads_bind (clearBitVf_leads (by decide) hack)
    apply leads_bind
    · apply writeMbmem_leads
      rw [List.length_take]
      omega
    · apply leads_bind (writeReg_leads _ true vfMailbox reqBit)
      apply leads_pure

/-- The reply is read. -/
theorem pollMbx_leads {msg : List (BitVec 32)} (hmsg : msg.length = 3) :
  Leads pfstsBit (pfstsBit ||| pfackBit) false false
    (0, [vfSetMacvlan ||| msgtypeSuccess ||| msgtypeCts, 0#32, 0#32])
    (pollMbx (recording acceptingDevice) msg 3)
  := by
  apply leads_get
  intro p hp
  rw [hp.2.1]
  have hsts : hasBit (seenBits false) pfstsBit := by decide
  apply leads_bind (a := 0)
  · apply leads_get
    intro p hp
    rw [hp.2.1]
    apply leads_bind (checkForBitVf_leads (by decide) hsts)
    apply leads_pure
  · apply leads_bind (obtainMbxLockVf_leads (by decide))
    apply leads_bind (a := [vfSetMacvlan ||| msgtypeSuccess ||| msgtypeCts, 0#32, 0#32])
    · apply leads_bind (readReg_leads _ true _)
      apply leads_bind
      · apply leads_bind (readReg_leads _ true _)
        apply leads_bind
        · apply leads_bind (readReg_leads _ true _)
          apply leads_bind
          · apply leads_pure
          · apply leads_pure
        · apply leads_pure
      · apply leads_pure
    · apply leads_bind (writeReg_leads _ true vfMailbox ackBit)
      have hdrop : msg.drop 3 = [] := List.drop_of_length_le (Nat.le_of_eq hmsg)
      show Leads _ _ _ _ _ (pure (0, _ ++ msg.drop 3))
      rw [hdrop, List.append_nil]
      apply leads_pure

/-- Every list is accepted. -/
theorem ucRequestsFrom_accepted {c : BitVec 32}
    (hc : (pfstsBit ||| pfackBit) ||| c = pfstsBit ||| pfackBit) (count : BitVec 32)
    (addrs : List MacAddr) {v : Vf (Bool × List (ℕ × BitVec 32))} (hv : Serves c false v.port) :
  AcceptsAll (recording acceptingDevice) (ucRequestsFrom count addrs) v
  := by
  induction addrs generalizing count c v with
  | nil => trivial
  | cons addr addrs ih =>
    have hexchange : Leads c (pfstsBit ||| pfackBit) false false
        (0, [vfSetMacvlan ||| msgtypeSuccess ||| msgtypeCts, 0#32, 0#32])
        ((Request.setUcAddr (count + 1#32) (some addr)).exchange (recording acceptingDevice) v) := by
      apply leads_bind (writeMbx_leads hc rfl)
      apply pollMbx_leads rfl
    obtain ⟨hreply, hserves⟩ := hexchange v.port hv
    have hport := run_port (recording acceptingDevice) (.setUcAddr (count + 1#32) (some addr)) v
    have hsends : (Request.setUcAddr (count + 1#32) (some addr)).sends v = true := rfl
    rw [if_pos hsends] at hport
    have haccepts : Accepts (recording acceptingDevice)
        (.setUcAddr (count + 1#32) (some addr)) v := by
      unfold Accepts
      rw [hreply]
      simp only [Request.opcode]
      decide
    exact ⟨haccepts, ih (by decide) _ (hport ▸ hserves)⟩

/-- The PF accepts 256 addresses, the last one of which clears its list. -/
theorem manyAddrs_not_encoded :
  AcceptsAll (recording acceptingDevice) (ucRequests (List.replicate 256 (Vector.replicate 6 2#8)))
      (recorded silentVf)
    ∧ ¬ Encodes (List.replicate 256 (Vector.replicate 6 2#8))
      (messages (mailLog ((writeUcAddrList (recording acceptingDevice)
        (List.replicate 256 (Vector.replicate 6 2#8))).run (recorded silentVf)).2.port))
  := by
  have haccepts : AcceptsAll (recording acceptingDevice)
      (ucRequests (List.replicate 256 (Vector.replicate 6 2#8))) (recorded silentVf) :=
    ucRequestsFrom_accepted (c := 0#32) (by decide) 0#32 _ ⟨rfl, rfl, rfl⟩
  refine ⟨haccepts, ?_⟩
  rw [writeUcAddrList_messages acceptingDevice haccepts]
  apply not_encodes
  rw [List.length_replicate]

end Ixgbevf.Macvlans
