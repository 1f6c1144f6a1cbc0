import Ixgbevf.Mailbox.Accesses
import Ixgbevf.Replies

/-!
# What a message contains

Every request is put together in an array on the stack, which holds whatever was there before
until it is assigned, and a number of its words is copied to the mailbox memory, where the PF
reads them.
-/

namespace Ixgbevf.Contents

open StateProgram

variable {D : Type} (V : Device D)

/-! ### The operations and their buffers -/

/-- The operations that send a request. -/
inductive Operation where
  | request (r : Request)
  | reset

/-- `IXGBE_VFMAILBOX_SIZE`. -/
def vfmailboxSize : ℕ := 16

/-- The length of the array that an operation puts its message in. -/
def Operation.bufferLength : Operation → ℕ
  | request (.setRar _) => 3
  | request (.setUcAddr _ _) => 3
  | request (.updateMcAddrList _ _) => vfmailboxSize
  | request (.updateXcastMode _) => 2
  | request .getLinkState => 2
  | request .getPfLinkState => 3
  | request .negotiateFeatures => 2
  | request (.setVfta _ _) => 2
  | request (.rlpmlSet _) => 2
  | request (.negotiateApiVersion _) => 3
  | request .getQueues => 5
  | request (.getReta _ _) => vfmailboxSize
  | request (.getRssKey _) => vfmailboxSize
  | reset => vfPermaddrMsgLen

/-- `memset` of the array, or an initialiser without members. -/
def zeroed (buf : List (BitVec 32)) : List (BitVec 32) := buf.map fun _ => 0#32

/-- `memcpy` of an address to the words after the first. -/
def copyAddr (addr : MacAddr) (buf : List (BitVec 32)) : List (BitVec 32) :=
  let byte i := (addr.toArray.getD i 0#8).setWidth 32
  let low := byte 0 ||| byte 1 <<< 8 ||| byte 2 <<< 16 ||| byte 3 <<< 24
  let high := byte 4 ||| byte 5 <<< 8
  (buf.set 1 low).modify 2 fun word => word &&& 0xFFFF0000#32 ||| high

/-- The assignments of an operation to its array. -/
def Operation.fill (v : Vf D) (buf : List (BitVec 32)) : Operation → List (BitVec 32)
  | request (.setRar addr) => copyAddr addr ((zeroed buf).set 0 vfSetMacAddr)
  | request (.setUcAddr index addr) =>
    let buf := ((zeroed buf).modify 0 (· ||| index <<< msginfoShift)).modify 0 (· ||| vfSetMacvlan)
    match addr with
    | none => buf
    | some addr => copyAddr addr buf
  | request (.updateMcAddrList addrs _) =>
    let cnt := min addrs.length 30
    let buf := (buf.set 0 vfSetMulticast).modify 0 (· ||| BitVec.ofNat 32 cnt <<< msginfoShift)
    buf.take 1 ++ fillVectors v.mcFilterType 0 (addrs.take cnt) (buf.drop 1)
  | request (.updateXcastMode mode) =>
    (buf.set 0 vfUpdateXcastMode).set 1 (BitVec.ofNat 32 mode.value)
  | request .getLinkState => (buf.set 0 vfGetLinkState).set 1 0#32
  | request .getPfLinkState => (zeroed buf).set 0 vfGetPfLinkState
  | request .negotiateFeatures =>
    ((zeroed buf).set 0 vfFeaturesNegotiate).set 1 supportedFeatures
  | request (.setVfta vlan vlanOn) =>
    ((buf.set 0 vfSetVlan).set 1 vlan).modify 0
      (· ||| (if vlanOn then 1#32 else 0#32) <<< msginfoShift)
  | request (.rlpmlSet maxSize) => (buf.set 0 vfSetLpe).set 1 (maxSize.setWidth 32)
  | request (.negotiateApiVersion api) =>
    ((buf.set 0 vfApiNegotiate).set 1 (BitVec.ofNat 32 api.value)).set 2 0#32
  | request .getQueues =>
    ((((buf.set 0 vfGetQueues).set 4 0#32).set 3 0#32).set 2 0#32).set 1 0#32
  | request (.getReta _ _) => buf.set 0 vfGetReta
  | request (.getRssKey _) => buf.set 0 vfGetRssKey
  | reset => buf.set 0 vfReset

/-- The message of an operation whose array held `buf`. -/
def Operation.message (v : Vf D) (buf : List (BitVec 32)) : Operation → List (BitVec 32)
  | request (.setRar addr) => vfSetMacAddr :: addrWords addr
  | request (.setUcAddr index addr) =>
    macvlanWord index :: (addr.map addrWords).getD [0#32, 0#32]
  | request (.updateMcAddrList addrs _) => multicastWords v.mcFilterType addrs buf.tail
  | request (.updateXcastMode mode) => [vfUpdateXcastMode, BitVec.ofNat 32 mode.value]
  | request .getLinkState => [vfGetLinkState, 0#32]
  | request .getPfLinkState => [vfGetPfLinkState, 0#32, 0#32]
  | request .negotiateFeatures => [vfFeaturesNegotiate, supportedFeatures]
  | request (.setVfta vlan vlanOn) => [vlanWord vlanOn, vlan]
  | request (.rlpmlSet maxSize) => [vfSetLpe, maxSize.setWidth 32]
  | request (.negotiateApiVersion api) => [vfApiNegotiate, BitVec.ofNat 32 api.value, 0#32]
  | request .getQueues => [vfGetQueues, 0#32, 0#32, 0#32, 0#32]
  | request (.getReta _ _) => vfGetReta :: buf.tail
  | request (.getRssKey _) => vfGetRssKey :: buf.tail
  | reset => vfReset :: buf.tail

/-- The number of words that an operation sends. -/
def Operation.sentLength : Operation → ℕ
  | request (.setRar _) => 3
  | request (.setUcAddr _ _) => 3
  | request (.updateMcAddrList _ _) => vfmailboxSize
  | request (.updateXcastMode _) => 2
  | request .getLinkState => 2
  | request .getPfLinkState => 3
  | request .negotiateFeatures => 2
  | request (.setVfta _ _) => 2
  | request (.rlpmlSet _) => 2
  | request (.negotiateApiVersion _) => 3
  | request .getQueues => 5
  | request (.getReta _ _) => 1
  | request (.getRssKey _) => 1
  | reset => 1

/-- A request whose array holds `buf`. -/
def withBuffer (buf : List (BitVec 32)) : Request → Request
  | .updateMcAddrList addrs _ => .updateMcAddrList addrs buf.tail
  | .getReta numRxQueues _ => .getReta numRxQueues buf.tail
  | .getRssKey _ => .getRssKey buf.tail
  | r => r

/-- The exchange of `ixgbe_reset_hw_vf`, whose array holds `buf`. -/
def resetExchangeFrom (buf : List (BitVec 32)) : PortM D (ℤ × List (BitVec 32)) := do
  let _ ← writeMbx V (vfReset :: buf.tail) 1
  pollMbx V (vfReset :: buf.tail) vfPermaddrMsgLen

/-- An operation whose array holds `buf`; of a reset, its request. -/
def Operation.run (buf : List (BitVec 32)) : Operation → VfM D ℤ
  | request r => (withBuffer buf r).run V
  | reset => do
    let (err, _) ← talk (resetExchangeFrom V buf)
    pure err

/-- An address that is copied to cleared words fills them. -/
theorem copyAddr_zeroed (addr : MacAddr) (word : BitVec 32) :
  copyAddr addr [word, 0#32, 0#32] = word :: addrWords addr
  := by
  have hbyte {i : ℕ} (hi : i < 6) : addr.toArray.getD i 0#8 = addr[i] := by
    simp [hi, Array.getD]
  simp only [copyAddr, addrWords, List.set_cons_succ, List.set_cons_zero, List.modify_succ_cons,
    List.modify_zero_cons, BitVec.zero_and, BitVec.zero_or, hbyte, Nat.reduceLT]

/-- The message of an operation is what its assignments leave in the array. -/
theorem message_eq_fill
    (op : Operation) (v : Vf D) {buf : List (BitVec 32)} (h : buf.length = op.bufferLength) :
  op.message v buf = op.fill v buf
  := by
  cases op with
  | reset =>
    match buf, h with
    | _ :: _, _ => rfl
  | request r =>
    cases r with
    | setRar addr =>
      match buf, h with
      | [_, _, _], _ => simp [Operation.message, Operation.fill, copyAddr_zeroed, zeroed]
    | setUcAddr index addr =>
      match buf, h with
      | [_, _, _], _ =>
        cases addr <;>
          simp [Operation.message, Operation.fill, copyAddr_zeroed, zeroed, macvlanWord]
    | updateMcAddrList addrs stack =>
      match buf, h with
      | _ :: _, _ => rfl
    | updateXcastMode mode =>
      match buf, h with
      | [_, _], _ => rfl
    | getLinkState =>
      match buf, h with
      | [_, _], _ => rfl
    | getPfLinkState =>
      match buf, h with
      | [_, _, _], _ => rfl
    | negotiateFeatures =>
      match buf, h with
      | [_, _], _ => rfl
    | setVfta vlan vlanOn =>
      match buf, h with
      | [_, _], _ => rfl
    | rlpmlSet maxSize =>
      match buf, h with
      | [_, _], _ => rfl
    | negotiateApiVersion api =>
      match buf, h with
      | [_, _, _], _ => rfl
    | getQueues =>
      match buf, h with
      | [_, _, _, _, _], _ => rfl
    | getReta numRxQueues stack =>
      match buf, h with
      | _ :: _, _ => rfl
    | getRssKey stack =>
      match buf, h with
      | _ :: _, _ => rfl

/-! ### What is written to the mailbox memory -/

/-- A device that keeps a record of the registers written and the values. -/
def recording : Device (D × List (ℕ × BitVec 32)) where
  read d reg := ((V.read d.1 reg).1, (V.read d.1 reg).2, d.2)
  write d reg value := (V.write d.1 reg value, d.2 ++ [(reg, value)])

/-- A VF whose device has recorded nothing yet. -/
def recorded (v : Vf D) : Vf (D × List (ℕ × BitVec 32)) where
  port := {
    removed := v.port.removed
    mbx := v.port.mbx
    dev := (v.port.dev, [])
    reads := v.port.reads }
  macType := v.macType
  apiVersion := v.apiVersion
  addr := v.addr
  permAddr := v.permAddr
  mcFilterType := v.mcFilterType
  maxTxQueues := v.maxTxQueues
  maxRxQueues := v.maxRxQueues
  linkState := v.linkState
  speed := v.speed
  linkUp := v.linkUp
  pfFeatures := v.pfFeatures
  numTcs := v.numTcs
  defaultTc := v.defaultTc
  reta := v.reta
  rssKey := v.rssKey

/-- The writes to the mailbox memory among those that a device has recorded. -/
def mailLog (p : Port (D × List (ℕ × BitVec 32))) : List (ℕ × BitVec 32) :=
  p.dev.2.filter fun e => vfMbmem ≤ e.1 ∧ e.1 < vfMailbox

/-- What an operation writes to the mailbox memory when its array held `buf`. -/
def sent (op : Operation) (v : Vf D) (buf : List (BitVec 32)) : List (ℕ × BitVec 32) :=
  mailLog ((op.run (recording V) buf).run (recorded v)).2.port

/-- What an operation writes to the mailbox memory does not depend on what its array held. -/
def Sealed (op : Operation) : Prop :=
  ∀ (D : Type) (V : Device D) (v : Vf D) (buf buf' : List (BitVec 32)),
    buf.length = op.bufferLength → buf'.length = op.bufferLength → sent V op v buf = sent V op v buf'

/-! ### Messages that are sent alike -/

/-- Messages that agree as far as they are sent are sent alike. -/
theorem writeMbx_congr {msg msg' : List (BitVec 32)} {size : ℕ} (h : msg.take size = msg'.take size) :
  writeMbx V msg size = writeMbx V msg' size
  := by
  have hlegacy : writeMbxVfLegacy V msg size = writeMbxVfLegacy V msg' size := by
    unfold writeMbxVfLegacy
    rw [h]
  have hupgraded : writeMbxVf V msg size = writeMbxVf V msg' size := by
    unfold writeMbxVf
    rw [h]
  have hops (ops : MbxOps) : ops.write V msg size = ops.write V msg' size := by
    cases ops with
    | legacy => exact hlegacy
    | upgraded => exact hupgraded
  unfold writeMbx
  simp only [hops]

/-- A read leaves the device as it does whatever the buffer held. -/
theorem pollMbx_alike (msg msg' : List (BitVec 32)) (size : ℕ) :
  Alike Prod.fst (pollMbx V msg size) (pollMbx V msg' size)
  := by
  apply alike_bind
  intro p
  apply alike_ite
  · apply alike_pure rfl
  · apply alike_bind
    intro err
    apply alike_ite
    · cases p.mbx.ops with
      | legacy =>
        apply alike_bind
        intro err
        apply alike_ite
        · apply alike_pure rfl
        · apply alike_bind
          intro words
          apply alike_bind
          intro _
          apply alike_pure rfl
      | upgraded =>
        apply alike_bind
        intro err
        apply alike_ite
        · apply alike_pure rfl
        · iterate 4
            apply alike_bind
            intro _
          apply alike_pure rfl
    · apply alike_pure rfl

/-- A request and its reply, where `size` words are sent and `reply` are read. -/
def exchangeOf (msg : List (BitVec 32)) (size reply : ℕ) : PortM D (ℤ × List (BitVec 32)) := do
  let err ← writeMbx V msg size
  if err ≠ 0 then pure (err, msg) else pollMbx V msg reply

/-- Exchanges of messages that agree as far as they are sent. -/
theorem exchangeOf_alike
    {msg msg' : List (BitVec 32)} {size : ℕ} (reply : ℕ) (h : msg.take size = msg'.take size) :
  Alike Prod.fst (exchangeOf V msg size reply) (exchangeOf V msg' size reply)
  := by
  unfold exchangeOf
  rw [writeMbx_congr V h]
  apply alike_bind
  intro err
  apply alike_ite
  · apply alike_pure rfl
  · apply pollMbx_alike

/-- The number of words that a request reads of its reply. -/
def replyLength : Request → ℕ
  | .getReta _ _ => retaSize / 16 + 1
  | .getRssKey _ => 11
  | r => (Operation.request r).sentLength

/-- The exchange of a request with its message. -/
theorem exchange_eq (r : Request) (v : Vf D) (buf : List (BitVec 32)) :
  (withBuffer buf r).exchange V v
    = exchangeOf V ((Operation.request r).message v buf) (Operation.request r).sentLength
        (replyLength r)
  := by
  cases r <;> rfl

/-- The port is the same. -/
def SamePort (v v' : Vf D) : Prop := v'.port = v.port

instance : IsPreorder (Vf D) SamePort where
  refl _ := rfl
  trans _ _ _ h h' := Eq.trans h' h

/-- What follows an exchange and leaves the port alone. -/
theorem talk_port
    {α : Type} {m : PortM D α} {k : α → VfM D ℤ} (h : ∀ a, Keeps SamePort (k a)) (v : Vf D) :
  ((talk m >>= k).run v).2.port = (m.run v.port).2
  := by
  apply run_bind_of (fun _ v' => v'.port = (m.run v.port).2)
    (fun r : ℤ × Vf D => r.2.port = (m.run v.port).2) rfl
  intro a v' h'
  rw [← h']
  apply h a v'

/-- A result that is returned leaves the port alone. -/
theorem pure_samePort (err : ℤ) :
  Keeps SamePort (pure err : VfM D ℤ)
  := by
  apply keeps_pure

/-- A result that is recorded outside the port leaves it alone. -/
theorem record_samePort {f : Vf D → Vf D} (h : ∀ v, (f v).port = v.port) (err : ℤ) :
  Keeps SamePort (do
    modify f
    pure err : VfM D ℤ)
  := by
  apply keeps_bind
  · apply keeps_modify
    apply h
  · intro _
    apply keeps_pure

/-- What follows the exchange of a query for the RSS configuration leaves the port alone. -/
theorem rssQuery_port
    (op : BitVec 32) (size : ℕ) (stack : List (BitVec 32)) {record : List (BitVec 32) → Vf D → Vf D}
    (hrecord : ∀ msg v, (record msg v).port = v.port) (v : Vf D) :
  ((rssQuery V op size stack record).run v).2.port
    = if v.hasRssQuery then ((rssExchange V (op :: stack) size).run v.port).2 else v.port
  := by
  rw [rssQuery, run_get_bind]
  split
  · apply talk_port
    intro x
    apply keeps_ite
    · apply pure_samePort
    · apply keeps_ite
      · apply pure_samePort
      · apply keeps_ite
        · apply pure_samePort
        · apply record_samePort
          apply hrecord
  · rfl

/-- An operation does to the port what its exchange does, if it gets that far. -/
theorem run_port (r : Request) (v : Vf D) :
  ((r.run V).run v).2.port
    = if r.sends v then ((r.exchange V v).run v.port).2 else v.port
  := by
  cases r with
  | setRar addr =>
    apply talk_port
    intro x
    apply keeps_ite
    · apply record_samePort
      intro v
      rfl
    · apply pure_samePort
  | setUcAddr index addr =>
    apply talk_port
    intro x
    apply keeps_ite <;> apply pure_samePort
  | updateMcAddrList addrs stack =>
    rw [Request.run, updateMcAddrListVf, run_get_bind]
    apply talk_port
    intro x
    apply pure_samePort
  | updateXcastMode mode =>
    rw [Request.run, updateXcastMode, run_get_bind]
    split
    · rename_i hallowed
      rw [Request.sends, if_pos hallowed]
      apply talk_port
      intro x
      apply keeps_ite
      · apply pure_samePort
      · apply keeps_ite <;> apply pure_samePort
    · rename_i hno
      rw [Request.sends, if_neg hno]
      rfl
  | getLinkState =>
    apply talk_port
    intro x
    apply keeps_ite
    · apply pure_samePort
    · apply record_samePort
      intro v
      rfl
  | getPfLinkState =>
    rw [Request.run, getPfLinkStateVf, run_get_bind]
    have hport : ((getPfLinkState V v.apiVersion v.speed v.linkUp).run v.port).2
        = if v.apiVersion.hasLinkState then ((linkStateExchange V).run v.port).2 else v.port := by
      unfold getPfLinkState
      split
      · apply run_bind_of (fun _ p => p = ((linkStateExchange V).run v.port).2)
          (fun r : (ℤ × BitVec 32 × Bool) × Port D => r.2 = ((linkStateExchange V).run v.port).2) rfl
        rintro ⟨err, msg⟩ p rfl
        simp only
        split
        · rfl
        · split <;> rfl
      · rfl
    rw [talk_port]
    · apply hport
    · intro x
      apply record_samePort
      intro v
      rfl
  | negotiateFeatures =>
    rw [Request.run, negotiateFeaturesVf, run_get_bind]
    split
    · rename_i h17
      rw [Request.sends, if_pos (decide_eq_true h17)]
      apply talk_port
      intro x
      apply keeps_ite <;>
        · apply record_samePort
          intro v
          rfl
    · rename_i hno
      rw [Request.sends, if_neg (by simpa using hno)]
      rfl
  | setVfta vlan vlanOn =>
    apply talk_port
    intro x
    apply keeps_ite <;> apply pure_samePort
  | rlpmlSet maxSize =>
    apply talk_port
    intro x
    apply keeps_ite
    · apply pure_samePort
    · apply keeps_ite <;> apply pure_samePort
  | negotiateApiVersion api =>
    apply talk_port
    intro x
    apply keeps_ite
    · apply pure_samePort
    · apply keeps_ite
      · apply record_samePort
        intro v
        rfl
      · apply pure_samePort
  | getQueues =>
    rw [Request.run, getQueues, run_get_bind]
    split
    · rename_i hqueues
      rw [Request.sends, if_pos hqueues]
      apply talk_port
      intro x
      apply keeps_ite
      · apply pure_samePort
      · apply keeps_ite
        · apply pure_samePort
        · apply record_samePort
          intro v
          rfl
    · rename_i hno
      rw [Request.sends, if_neg hno]
      rfl
  | getReta numRxQueues stack =>
    apply rssQuery_port
    intro msg v
    rfl
  | getRssKey stack =>
    apply rssQuery_port
    intro msg v
    rfl

/-- The array of a request does not decide whether it is sent. -/
theorem withBuffer_sends (buf : List (BitVec 32)) (r : Request) (v : Vf D) :
  (withBuffer buf r).sends v = r.sends v
  := by
  cases r <;> rfl

/-- An operation whose messages agree as far as they are sent does the same to the port. -/
theorem run_port_congr
    (op : Operation) (v : Vf D) {buf buf' : List (BitVec 32)}
    (h : (op.message v buf).take op.sentLength = (op.message v buf').take op.sentLength) :
  ((op.run V buf).run v).2.port = ((op.run V buf').run v).2.port
  := by
  cases op with
  | request r =>
    have halike := exchangeOf_alike V (replyLength r) h
    show (((withBuffer buf r).run V).run v).2.port = (((withBuffer buf' r).run V).run v).2.port
    rw [run_port, run_port, withBuffer_sends, withBuffer_sends, exchange_eq, exchange_eq,
      (halike v.port).2]
  | reset =>
    have hwrite : writeMbx V (vfReset :: buf.tail) 1 = writeMbx V (vfReset :: buf'.tail) 1 :=
      writeMbx_congr V h
    have halike : Alike Prod.fst (resetExchangeFrom V buf) (resetExchangeFrom V buf') := by
      unfold resetExchangeFrom
      rw [hwrite]
      apply alike_bind
      intro _
      apply pollMbx_alike
    apply (halike v.port).2

/-! ### The list of multicast addresses -/

/-- The entries below `i` of the vector lists in two arrays agree. -/
structure Agree (i : ℕ) (words words' : List (BitVec 32)) : Prop where
  length : words'.length = words.length
  word : ∀ k < i / 2, words'[k]? = words[k]?
  half : i % 2 = 1 → ∀ w w', words[i / 2]? = some w → words'[i / 2]? = some w' →
    w' &&& 0xFFFF#32 = w &&& 0xFFFF#32

/-- Writing the next entry makes it agree. -/
theorem Agree.setVector
    {i : ℕ} {words words' : List (BitVec 32)} (h : Agree i words words') (vector : BitVec 32) :
  Agree (i + 1) (setVector words i vector) (setVector words' i vector)
  := by
  unfold Ixgbevf.setVector
  constructor
  · simp only [List.length_modify, h.length]
  · intro k hk
    simp only [List.getElem?_modify]
    by_cases hik : i / 2 = k
    · -- the entry completes a word
      have hodd : i % 2 = 1 := by omega
      have hne : i % 2 ≠ 0 := by omega
      subst hik
      simp only [if_neg hne, if_true]
      have hlen := h.length
      rcases hw : words[i / 2]? with _ | w
      · rw [List.getElem?_eq_none_iff] at hw
        rw [List.getElem?_eq_none_iff.mpr (by omega)]
      · have hlt := (List.getElem?_eq_some_iff.mp hw).1
        rw [List.getElem?_eq_getElem (by omega)]
        have hlow := h.half hodd w _ hw (List.getElem?_eq_getElem (by omega))
        simp only [Option.map_eq_map, Option.map_some, hlow]
    · simp only [if_neg hik, Option.map_eq_map]
      rw [h.word k (by omega)]
  · intro hodd w w' hw hw'
    have heven : i % 2 = 0 := by omega
    have hhalf : (i + 1) / 2 = i / 2 := by omega
    have hzero : 0xFFFF0000#32 &&& 0xFFFF#32 = 0#32 := by decide
    rw [hhalf] at hw hw'
    simp only [List.getElem?_modify, if_true, heven, Option.map_eq_map] at hw hw'
    obtain ⟨u, -, rfl⟩ := Option.map_eq_some_iff.mp hw
    obtain ⟨u', -, rfl⟩ := Option.map_eq_some_iff.mp hw'
    rw [BitVec.and_or_distrib_right, BitVec.and_or_distrib_right, BitVec.and_assoc u',
      BitVec.and_assoc u, hzero, BitVec.and_zero, BitVec.and_zero]

/-- Filling in the vectors of more addresses makes their entries agree. -/
theorem Agree.fillVectors
    {i : ℕ} {words words' : List (BitVec 32)} (mcFilterType : BitVec 32) (addrs : List MacAddr)
    (h : Agree i words words') :
  Agree (i + addrs.length) (fillVectors mcFilterType i addrs words)
    (fillVectors mcFilterType i addrs words')
  := by
  induction addrs generalizing i words words' with
  | nil => apply h
  | cons addr addrs ih =>
    have hnext := ih (h.setVector (mtaVector mcFilterType addr))
    rw [List.length_cons, Nat.add_comm addrs.length 1, ← Nat.add_assoc]
    exact hnext

/-- Filling in keeps the length of the array. -/
theorem fillVectors_length
    (mcFilterType : BitVec 32) (addrs : List MacAddr) (i : ℕ) (words : List (BitVec 32)) :
  (fillVectors mcFilterType i addrs words).length = words.length
  := by
  induction addrs generalizing i words with
  | nil => rfl
  | cons addr addrs ih =>
    rw [fillVectors, ih, setVector, List.length_modify]

/-- With thirty addresses or more the message says nothing of what the array held. -/
theorem multicastWords_full
    {mcFilterType : BitVec 32} {addrs : List MacAddr} {words words' : List (BitVec 32)}
    (h : 30 ≤ addrs.length) (hwords : words.length = 15) (hwords' : words'.length = 15) :
  multicastWords mcFilterType addrs words = multicastWords mcFilterType addrs words'
  := by
  have hstart : Agree 0 words words' := by
    refine ⟨by rw [hwords, hwords'], ?_, ?_⟩
    · intro k hk
      omega
    · intro hodd
      omega
  have hcnt : (addrs.take (min addrs.length 30)).length = 30 := by
    rw [List.length_take]
    omega
  have hend := hstart.fillVectors mcFilterType (addrs.take (min addrs.length 30))
  rw [hcnt] at hend
  have hlen := fillVectors_length mcFilterType (addrs.take (min addrs.length 30)) 0
  have hsame : fillVectors mcFilterType 0 (addrs.take (min addrs.length 30)) words
      = fillVectors mcFilterType 0 (addrs.take (min addrs.length 30)) words' := by
    apply List.ext_getElem?
    intro k
    rcases Nat.lt_or_ge k 15 with hk | hk
    · rw [hend.word k (by omega)]
    · rw [List.getElem?_eq_none_iff.mpr (by rw [hlen, hwords]; exact hk),
        List.getElem?_eq_none_iff.mpr (by rw [hlen, hwords']; exact hk)]
  simp only [multicastWords, hsame]

/-- The vectors of fewer than thirty addresses leave the last bit of the array. -/
theorem fillVectors_lastBit
    (mcFilterType : BitVec 32) {addrs : List MacAddr} {i : ℕ} (words : List (BitVec 32))
    (h : i + addrs.length ≤ 29) :
  (fillVectors mcFilterType i addrs words)[14]?.map (·.getLsbD 31)
    = words[14]?.map (·.getLsbD 31)
  := by
  induction addrs generalizing i words with
  | nil => rfl
  | cons addr addrs ih =>
    rw [List.length_cons] at h
    rw [fillVectors, ih _ (by omega), setVector, List.getElem?_modify]
    split
    · have heven : i % 2 = 0 := by omega
      rcases words[14]? with _ | w
      · rfl
      · simp [heven]
    · simp

/-- The operations that put the whole of what they send together. -/
theorem message_sealed
    {op : Operation} (v : Vf D) {buf buf' : List (BitVec 32)}
    (h : ∀ addrs stack, op = .request (.updateMcAddrList addrs stack) → 30 ≤ addrs.length)
    (hbuf : buf.length = op.bufferLength) (hbuf' : buf'.length = op.bufferLength) :
  (op.message v buf).take op.sentLength = (op.message v buf').take op.sentLength
  := by
  cases op with
  | reset => rfl
  | request r =>
    cases r with
    | updateMcAddrList addrs stack =>
      have hlen : buf.tail.length = 15 := by
        rw [List.length_tail, hbuf]
        rfl
      have hlen' : buf'.tail.length = 15 := by
        rw [List.length_tail, hbuf']
        rfl
      rw [Operation.message, multicastWords_full (h addrs stack rfl) hlen hlen']
      rfl
    | _ => rfl

/-! ### A device that lets the message through -/

/-- Two ports whose devices have recorded the same writes to the mailbox memory. -/
def SameMail (p p' : Port (D × List (ℕ × BitVec 32))) : Prop := mailLog p' = mailLog p

instance : IsPreorder (Port (D × List (ℕ × BitVec 32))) SameMail where
  refl _ := rfl
  trans _ _ _ h h' := Eq.trans h' h

/-- Register reads are not recorded. -/
theorem recording_reading :
  Reading (recording V) SameMail
  := by
  constructor
  · intro reg
    apply keeps_modifyGet
    intro p
    rfl
  · intro p
    rfl
  · intro p t
    rfl

/-- A write outside the mailbox memory adds nothing to it. -/
theorem writeReg_sameMail {reg : ℕ} (value : BitVec 32)
    (hreg : ¬ (vfMbmem ≤ reg ∧ reg < vfMailbox)) :
  Keeps SameMail (writeReg (recording V) reg value)
  := by
  apply keeps_modify
  intro p
  split
  · rfl
  · show List.filter _ (p.dev.2 ++ [(reg, value)]) = List.filter _ p.dev.2
    rw [List.filter_append, List.filter_cons_of_neg (by simpa using hreg)]
    simp

/-- But for the copy of a message the mailbox functions write nothing to the mailbox memory. -/
theorem recording_accesses :
  Accesses (recording V) SameMail
  := by
  constructor
  · apply (recording_reading V).readReg
  · intro reg value hreg
    apply writeReg_sameMail V value hreg
  · intro p bits
    rfl

/-- A message in the mailbox memory, from word `i` on. -/
def placed : ℕ → List (BitVec 32) → List (ℕ × BitVec 32)
  | _, [] => []
  | i, word :: msg => (vfMbmem + 4 * i, word) :: placed (i + 1) msg

/-- Different messages are different in the mailbox memory. -/
theorem placed_injective {i : ℕ} {msg msg' : List (BitVec 32)} (h : placed i msg = placed i msg') :
  msg = msg'
  := by
  induction msg generalizing i msg' with
  | nil =>
    cases msg' with
    | nil => rfl
    | cons word' msg' => cases h
  | cons word msg ih =>
    cases msg' with
    | nil => cases h
    | cons word' msg' =>
      simp only [placed, List.cons.injEq, Prod.mk.injEq, true_and] at h
      rw [h.1, ih h.2]

/-- Copying a message to the mailbox memory of a device that is there writes its words. -/
theorem writeMbmem_mailLog
    (msg : List (BitVec 32)) {i : ℕ} {p : Port (D × List (ℕ × BitVec 32))}
    (hthere : p.removed = false) (h : i + msg.length ≤ 16) :
  mailLog ((writeMbmem (recording V) i msg).run p).2 = mailLog p ++ placed i msg
  := by
  induction msg generalizing i p with
  | nil =>
    show mailLog p = mailLog p ++ []
    rw [List.append_nil]
  | cons word msg ih =>
    rw [List.length_cons] at h
    have hwrite : ((writeReg (recording V) (vfMbmem + 4 * i) word).run p).2
        = { p with dev := (recording V).write p.dev (vfMbmem + 4 * i) word } := by
      show (if p.removed then p else _) = _
      rw [hthere]
      rfl
    have hlog : mailLog { p with dev := (recording V).write p.dev (vfMbmem + 4 * i) word }
        = mailLog p ++ [(vfMbmem + 4 * i, word)] := by
      have hin : vfMbmem ≤ vfMbmem + 4 * i ∧ vfMbmem + 4 * i < vfMailbox := by
        unfold vfMbmem vfMailbox
        omega
      show List.filter _ (p.dev.2 ++ [(vfMbmem + 4 * i, word)]) = _
      rw [List.filter_append, List.filter_cons_of_pos (by simpa using hin)]
      rfl
    show mailLog ((writeMbmem (recording V) (i + 1) msg).run
      ((writeReg (recording V) (vfMbmem + 4 * i) word).run p).2).2 = _
    have hnext := ih (i := i + 1)
      (p := { p with dev := (recording V).write p.dev (vfMbmem + 4 * i) word }) hthere (by omega)
    rw [hwrite, hnext, hlog, List.append_assoc]
    rfl

/-- A device whose mailbox is free for the VF and whose PF never answers. -/
def silentDevice : Device Bool where
  read vfu reg := (if reg = vfMailbox ∧ vfu then vfuBit else 0#32, vfu)
  write vfu reg value := if reg = vfMailbox then hasBit value vfuBit else vfu

/-- A VF on that device. -/
def silentVf : Vf Bool where
  port := ⟨false, mbxParamsVf .legacy 0#32, false, []⟩
  macType := .mac82599Vf
  apiVersion := .api10
  addr := Vector.replicate 6 0
  permAddr := Vector.replicate 6 0
  mcFilterType := 0
  maxTxQueues := 2
  maxRxQueues := 2
  linkState := false
  speed := 0
  linkUp := false
  pfFeatures := 0
  numTcs := 0
  defaultTc := 0
  reta := []
  rssKey := []

/-- On that device a message of sixteen words is written to the mailbox memory. -/
theorem writeMbx_silent {msg : List (BitVec 32)} (h : msg.length = 16) :
  mailLog ((writeMbx (recording silentDevice) msg 16).run (recorded silentVf).port).2
    = placed 0 msg
  := by
  let V := recording silentDevice
  let p₁ := ((obtainMbxLockVf V).run (recorded silentVf).port).2
  let p₂ := ((checkForMsgVf V).run p₁).2
  let p₃ := ((clearMsgVf V).run p₂).2
  let p₄ := ((checkForAckVf V).run p₃).2
  let p₅ := ((clearAckVf V).run p₄).2
  have hlock : ((obtainMbxLockVf V).run (recorded silentVf).port).1 = 0 := by decide +kernel
  have hthere : p₅.removed = false := by decide +kernel
  have hempty : mailLog p₅ = [] := by decide +kernel
  have hcopy := writeMbmem_mailLog silentDevice (msg.take 16) (i := 0) hthere (by simp [h])
  rw [hempty, List.nil_append, List.take_of_length_le (Nat.le_of_eq h)] at hcopy
  have hreq : Keeps SameMail (writeReg V vfMailbox reqBit) :=
    writeReg_sameMail silentDevice _ (by decide)
  have hwrite : (writeMbx V msg 16).run (recorded silentVf).port
      = (writeMbxVfLegacy V msg 16).run (recorded silentVf).port := by
    rw [writeMbx, run_get_bind, if_neg (by decide), if_neg (by decide)]
    rfl
  rw [hwrite]
  apply run_bind_of (fun err p => err = 0 ∧ p = p₁)
    (fun r : ℤ × Port (Bool × List (ℕ × BitVec 32)) => mailLog r.2 = placed 0 msg) ⟨hlock, rfl⟩
  rintro err p ⟨rfl, rfl⟩
  show mailLog ((writeReg V vfMailbox reqBit).run ((writeMbmem V 0 (msg.take 16)).run p₅).2).2 = _
  rw [hreq, List.take_of_length_le (Nat.le_of_eq h)]
  exact hcopy

/-! ### Which operations are sealed -/

/-- `ixgbe_update_mc_addr_list_vf` does to the port what its exchange does. -/
theorem multicast_port
    (addrs : List MacAddr) (stack buf : List (BitVec 32)) (v : Vf D) :
  (((Operation.request (.updateMcAddrList addrs stack)).run V buf).run v).2.port
    = ((exchangeOf V (multicastWords v.mcFilterType addrs buf.tail) 16 16).run v.port).2
  := by
  have hport := run_port V (.updateMcAddrList addrs buf.tail) v
  have hsends : (Request.updateMcAddrList addrs buf.tail).sends v = true := rfl
  rw [if_pos hsends] at hport
  exact hport

/-- On that device the message of `ixgbe_update_mc_addr_list_vf` is written to the mailbox
memory. -/
theorem sent_multicast
    (addrs : List MacAddr) (stack : List (BitVec 32)) {buf : List (BitVec 32)}
    (h : buf.length = 16) :
  sent silentDevice (.request (.updateMcAddrList addrs stack)) silentVf buf
    = placed 0 (multicastWords 0#32 addrs buf.tail)
  := by
  have hlen : (multicastWords 0#32 addrs buf.tail).length = 16 := by
    simp [multicastWords, fillVectors_length, h]
  have hfilter : (recorded silentVf).mcFilterType = 0#32 := rfl
  rw [sent, multicast_port, hfilter]
  apply run_bind_of (fun _ p => mailLog p = placed 0 (multicastWords 0#32 addrs buf.tail))
    (fun r : (ℤ × List (BitVec 32)) × Port (Bool × List (ℕ × BitVec 32)) =>
      mailLog r.2 = placed 0 (multicastWords 0#32 addrs buf.tail)) (writeMbx_silent hlen)
  intro err p hp
  split
  · exact hp
  · have hpoll : mailLog ((pollMbx (recording silentDevice) _ 16).run p).2 = mailLog p :=
      (recording_accesses silentDevice).pollMbx (multicastWords 0#32 addrs buf.tail) 16 p
    rw [← hp]
    exact hpoll

/-- With fewer than thirty addresses the last bit of the message is what the array held. -/
theorem not_sealed_of_short
    {addrs : List MacAddr} (h : addrs.length < 30) (stack : List (BitVec 32)) :
  ¬ Sealed (.request (.updateMcAddrList addrs stack))
  := by
  intro hsealed
  have hlen (x : BitVec 32) : (List.replicate 16 x).length = 16 := List.length_replicate
  have hsent := hsealed Bool silentDevice silentVf (List.replicate 16 0#32)
    (List.replicate 16 0xFFFFFFFF#32) (hlen _) (hlen _)
  rw [sent_multicast addrs stack (hlen _), sent_multicast addrs stack (hlen _)] at hsent
  have hfill := (List.cons.inj (placed_injective hsent)).2
  have hshort : 0 + (addrs.take (min addrs.length 30)).length ≤ 29 := by
    rw [List.length_take]
    omega
  have hbit := congrArg (fun words => words[14]?.map (·.getLsbD 31)) hfill
  simp only [fillVectors_lastBit 0#32 _ hshort] at hbit
  revert hbit
  decide

/-- What an operation writes to the mailbox memory is independent of what its array held exactly
unless it is `ixgbe_update_mc_addr_list_vf` with fewer than thirty addresses. -/
theorem sealed_iff (op : Operation) :
  Sealed op ↔ ∀ addrs stack, op = .request (.updateMcAddrList addrs stack) → 30 ≤ addrs.length
  := by
  constructor
  · rintro hsealed addrs stack rfl
    by_contra hshort
    exact not_sealed_of_short (Nat.not_le.mp hshort) stack hsealed
  · intro h D V v buf buf' hbuf hbuf'
    have hmsg := message_sealed (recorded v) h hbuf hbuf'
    rw [sent, sent, run_port_congr (recording V) op (recorded v) hmsg]

/-- The request that clears the list of multicast addresses sends fifteen words that it has not
assigned. -/
theorem clear_multicast_not_sealed :
  ¬ ∀ op, Sealed op
  := by
  intro h
  have hshort : ([] : List MacAddr).length < 30 := by decide
  exact not_sealed_of_short hshort [] (h _)

end Ixgbevf.Contents
