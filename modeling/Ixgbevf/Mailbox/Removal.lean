import Ixgbevf.Mailbox.Contents

/-!
# A device that is pulled out

Once the device is gone every register read answers with all ones, which looks like every
status bit being set: the mailbox is taken, a message waits, the last one is acknowledged, a
reset is under way and the link is up.
-/

namespace Ixgbevf.Removal

open StateProgram

variable {D : Type} (V : Device D)

/-- From here on every register read fails, whatever is read and written. -/
def Lost (d : D) : Prop :=
  ∃ S : D → Prop, S d ∧ ∀ d', S d' → ∀ reg,
    (V.read d' reg).1 = failedReadReg ∧ S (V.read d' reg).2 ∧ ∀ value, S (V.write d' reg value)

/-- The adapter is given up, or its device is lost. -/
def Gone (p : Port D) : Prop := p.removed = true ∨ Lost V p.dev

/-! ### Register accesses -/

/-- A read of a lost device fails, and the device stays lost. -/
theorem readl_lost (reg : ℕ) :
  Within (fun p => Lost V p.dev) (· = failedReadReg) (readl V reg)
  := by
  apply within_modifyGet
  rintro p ⟨S, hS, hclosed⟩
  obtain ⟨hvalue, hnext, -⟩ := hclosed _ hS reg
  exact ⟨hvalue, S, hnext, hclosed⟩

/-- A register read of a lost device fails. -/
theorem readRegWith_lost {check : PortM D Unit} (reg : ℕ)
    (hcheck : Within (fun p => Lost V p.dev) (fun _ => True) check) :
  Within (fun p => Lost V p.dev) (· = failedReadReg) (readRegWith V check reg)
  := by
  apply within_get
  intro p _
  apply within_ite
  · apply within_pure rfl
  · apply within_bind (readl_lost V reg)
    intro value hvalue
    apply within_bind (P := fun _ => True)
    · apply within_ite
      · apply hcheck
      · apply within_pure trivial
    · intro _ _
      have halive : value ≠ deadReadReg := by
        rw [hvalue]
        decide
      rw [if_neg halive]
      apply within_pure hvalue

/-- Where the adapter is gone every register read fails. -/
theorem readReg_gone (reg : ℕ) :
  Within (Gone V) (· = failedReadReg) (readReg V reg)
  := by
  apply within_or
  · rintro ⟨removed, mbx, dev, reads⟩ hp
    obtain rfl : removed = true := hp
    exact ⟨rfl, rfl⟩
  · have hremove : Within (fun p => Lost V p.dev) (fun _ => True) removeAdapter := by
      apply within_modify
      intro p hp
      exact hp
    apply within_bind (P := (· = failedReadReg))
    · apply readRegWith_lost
      apply within_ite
      · apply hremove
      · apply within_bind (readRegWith_lost V vfStatus hremove)
        intro value _
        apply within_ite
        · apply hremove
        · apply within_pure trivial
    · intro value hvalue
      apply within_bind (P := fun _ => True)
      · apply within_modify
        intro p hp
        exact hp
      · intro _ _
        apply within_pure hvalue

/-- A register write does not bring the device back. -/
theorem writeReg_gone (reg : ℕ) (value : BitVec 32) :
  Within (Gone V) (fun _ => True) (writeReg V reg value)
  := by
  apply within_modify
  intro p hp
  split
  · exact hp
  next hthere =>
    obtain hgone | ⟨S, hS, hclosed⟩ := hp
    · exact absurd hgone hthere
    · obtain ⟨-, -, hwrite⟩ := hclosed _ hS reg
      exact .inr ⟨S, hwrite value, hclosed⟩

/-! ### The mailbox functions -/

/-- Every bit of the mailbox register seems to be set. -/
theorem readMailboxVf_gone :
  Within (Gone V) (· = failedReadReg) (readMailboxVf V)
  := by
  apply within_bind (readReg_gone V _)
  rintro _ rfl
  apply within_modifyGet
  intro p hp
  have hones : failedReadReg = BitVec.allOnes 32 := by decide
  exact ⟨by rw [hones, BitVec.allOnes_or], hp⟩

/-- A bit of the mailbox register is cleared only in what the driver keeps. -/
theorem clearBitVf_gone (mask : BitVec 32) :
  Within (Gone V) (fun _ => True) (clearBitVf V mask)
  := by
  apply within_bind (readMailboxVf_gone V)
  intro seen _
  apply within_modify
  intro p hp
  split
  · exact hp
  · exact hp

/-- Every bit is there that is looked for. -/
theorem checkForBitVf_gone {mask : BitVec 32} (h : hasBit failedReadReg mask) :
  Within (Gone V) (· = 0) (checkForBitVf V mask)
  := by
  apply within_bind (readMailboxVf_gone V)
  rintro _ rfl
  apply within_pure
  rw [if_pos h]

/-- The last message is acknowledged. -/
theorem checkForAckVf_gone :
  Within (Gone V) (· = 0) (checkForAckVf V)
  := by
  have hack : hasBit failedReadReg pfackBit := by decide
  apply within_bind (checkForBitVf_gone V hack)
  rintro _ rfl
  apply within_bind (clearBitVf_gone V _)
  intro _ _
  apply within_pure rfl

/-- A reset is under way. -/
theorem checkForRstVf_gone :
  Within (Gone V) (· = 0) (checkForRstVf V)
  := by
  have hrst : hasBit failedReadReg (rstiBit ||| rstdBit) := by decide
  apply within_bind (checkForBitVf_gone V hrst)
  rintro _ rfl
  apply within_bind (clearBitVf_gone V _)
  intro _ _
  apply within_pure rfl

/-- The mailbox is always taken. -/
theorem obtainMbxLockVf_gone :
  Within (Gone V) (· ≠ 0) (obtainMbxLockVf V)
  := by
  have hrounds : ∀ countdown, Within (Gone V) (· ≠ 0) (lockRounds V countdown) := by
    intro countdown
    induction countdown with
    | zero => apply within_pure (by decide)
    | succ countdown ih =>
      apply within_bind (readMailboxVf_gone V)
      rintro _ rfl
      rw [if_pos (by decide)]
      apply ih
  apply within_get
  intro p _
  apply within_ite
  · apply within_pure (by decide)
  · apply hrounds

/-- No message is sent, with either set of functions. -/
theorem MbxOps.write_gone (ops : MbxOps) (msg : List (BitVec 32)) (size : ℕ) :
  Within (Gone V) (· ≠ 0) (ops.write V msg size)
  := by
  cases ops with
  | legacy =>
    apply within_bind (obtainMbxLockVf_gone V)
    intro err herr
    rw [if_pos herr]
    apply within_pure herr
  | upgraded =>
    apply within_bind (obtainMbxLockVf_gone V)
    intro err herr
    rw [if_pos herr]
    apply within_pure herr

/-- `ixgbe_write_mbx` fails. -/
theorem writeMbx_gone (msg : List (BitVec 32)) (size : ℕ) :
  Within (Gone V) (· ≠ 0) (writeMbx V msg size)
  := by
  apply within_get
  intro p _
  apply within_ite
  · apply within_pure (by decide)
  · apply within_ite
    · apply within_pure (by decide)
    · apply MbxOps.write_gone

/-- An exchange fails. -/
theorem exchangeOf_gone (msg : List (BitVec 32)) (size reply : ℕ) :
  Within (Gone V) (fun x => x.1 ≠ 0) (Contents.exchangeOf V msg size reply)
  := by
  apply within_bind (writeMbx_gone V msg size)
  intro err herr
  rw [if_pos herr]
  apply within_pure herr

/-- Every word of the mailbox memory is all ones. -/
theorem readMbmem_gone (i n : ℕ) :
  Within (Gone V) (· = List.replicate n failedReadReg) (readMbmem V i n)
  := by
  induction n generalizing i with
  | zero => apply within_pure rfl
  | succ n ih =>
    apply within_bind (readReg_gone V _)
    rintro _ rfl
    apply within_bind (ih _)
    rintro _ rfl
    apply within_pure rfl

/-- The legacy function reads no message, the other one reads one of all ones. -/
theorem MbxOps.read_gone (ops : MbxOps) (msg : List (BitVec 32)) (size : ℕ) :
  Within (Gone V) (fun x : ℤ × List (BitVec 32) =>
      match ops with
      | .legacy => x.1 ≠ 0
      | .upgraded => x = (0, List.replicate size failedReadReg ++ msg.drop size))
    (ops.read V msg size)
  := by
  cases ops with
  | legacy =>
    apply within_bind (obtainMbxLockVf_gone V)
    intro err herr
    rw [if_pos herr]
    apply within_pure herr
  | upgraded =>
    have hmsg : hasBit failedReadReg pfstsBit := by decide
    apply within_bind (checkForBitVf_gone V hmsg)
    rintro _ rfl
    apply within_bind (clearBitVf_gone V _)
    intro _ _
    apply within_bind (readMbmem_gone V _ _)
    rintro _ rfl
    apply within_bind (readMailboxVf_gone V)
    intro seen _
    apply within_bind (writeReg_gone V _ _)
    intro _ _
    apply within_pure rfl

/-- A message that is waited for and read is one of all ones, if there is one. -/
theorem pollMbx_gone (msg : List (BitVec 32)) {size : ℕ} (hpos : 0 < size) :
  Within (Gone V) (fun x => x.1 ≠ 0 ∨ x.2.getD 0 0#32 = failedReadReg) (pollMbx V msg size)
  := by
  have hrounds : ∀ countdown,
      Within (Gone V) (fun _ => True) (pollRounds (checkForMsgVf V) countdown) := by
    intro countdown
    induction countdown with
    | zero => apply within_pure trivial
    | succ countdown ih =>
      have hmsg : hasBit failedReadReg pfstsBit := by decide
      apply within_bind (checkForBitVf_gone V hmsg)
      intro err _
      apply within_ite
      · apply within_pure trivial
      · apply ih
  have hpoll : Within (Gone V) (fun _ => True) (pollForMsg V) := by
    apply within_get
    intro p _
    apply within_ite
    · apply within_pure trivial
    · apply hrounds
  apply within_get
  intro p _
  split
  · have hconfig : errConfig ≠ 0 := by decide
    apply within_pure (.inl hconfig)
  · apply within_bind hpoll
    intro err _
    split
    · apply (MbxOps.read_gone V p.mbx.ops msg (min size p.mbx.size)).mono
      intro x hx
      cases hops : p.mbx.ops with
      | legacy =>
        rw [hops] at hx
        exact .inl hx
      | upgraded =>
        rw [hops] at hx
        have hx' : x = (0, List.replicate (min size p.mbx.size) failedReadReg
            ++ msg.drop (min size p.mbx.size)) := hx
        have hmin : 0 < min size p.mbx.size := Nat.lt_min.mpr ⟨hpos, p.mbx.size_pos⟩
        obtain ⟨n, hn⟩ := Nat.exists_eq_succ_of_ne_zero (Nat.ne_of_gt hmin)
        right
        rw [hx', hn]
        rfl
    next herr => apply within_pure (.inl herr)

/-! ### The operations -/

/-- The exchange of every request fails. -/
theorem exchange_gone (r : Request) {v : Vf D} (h : Gone V v.port) :
  ((r.exchange V v).run v.port).1.1 ≠ 0
  := by
  cases r with
  | setRar => exact (exchangeOf_gone V _ _ _ v.port h).1
  | setUcAddr => exact (exchangeOf_gone V _ _ _ v.port h).1
  | updateMcAddrList => exact (exchangeOf_gone V _ _ _ v.port h).1
  | updateXcastMode => exact (exchangeOf_gone V _ _ _ v.port h).1
  | getLinkState => exact (exchangeOf_gone V _ _ _ v.port h).1
  | getPfLinkState => exact (exchangeOf_gone V _ _ _ v.port h).1
  | negotiateFeatures => exact (exchangeOf_gone V _ _ _ v.port h).1
  | setVfta => exact (exchangeOf_gone V _ _ _ v.port h).1
  | rlpmlSet => exact (exchangeOf_gone V _ _ _ v.port h).1
  | negotiateApiVersion => exact (exchangeOf_gone V _ _ _ v.port h).1
  | getQueues => exact (exchangeOf_gone V _ _ _ v.port h).1
  | getReta => exact (exchangeOf_gone V _ _ _ v.port h).1
  | getRssKey => exact (exchangeOf_gone V _ _ _ v.port h).1

/-- A request that the version does not have is refused by the driver itself, except
`ixgbevf_get_queues`, which then does nothing. -/
theorem run_unsent {r : Request} {v : Vf D} (h : ¬ r.sends v) :
  ((r.run V).run v).1 = 0 ↔ r = .getQueues
  := by
  cases r with
  | updateXcastMode mode =>
    have hver : ¬ xcastAllowed v.apiVersion mode := h
    have hrun : ((updateXcastMode V mode).run v).1 = errFeatureNotSupported := by
      rw [updateXcastMode, run_get_bind, if_neg hver]
      rfl
    simp [Request.run, hrun, errFeatureNotSupported]
  | getPfLinkState =>
    have hver : ¬ v.apiVersion.hasLinkState := h
    have hrun : ((getPfLinkStateVf V).run v).1 = errFeatureNotSupported := by
      have hport := getPfLinkState_run_of_not V hver v.speed v.linkUp v.port
      rw [getPfLinkStateVf, run_get_bind]
      exact congrArg (fun x => x.1.1) hport
    simp [Request.run, hrun, errFeatureNotSupported]
  | negotiateFeatures =>
    have hver : v.apiVersion ≠ .api17 := fun hv => h (decide_eq_true hv)
    have hrun : ((negotiateFeaturesVf V).run v).1 = errFeatureNotSupported := by
      rw [negotiateFeaturesVf, run_get_bind, if_neg hver]
      rfl
    simp [Request.run, hrun, errFeatureNotSupported]
  | getQueues =>
    have hver : ¬ v.apiVersion.hasQueues := h
    have hrun : ((getQueues V).run v).1 = 0 := by
      rw [getQueues, run_get_bind, if_neg hver]
      rfl
    simp [Request.run, hrun]
  | getReta numRxQueues stack =>
    have hver : ¬ v.hasRssQuery := h
    have hrun : ((getRetaLocked V numRxQueues stack).run v).1 = errOpnotsupp := by
      rw [getRetaLocked, rssQuery, run_get_bind, if_neg hver]
      rfl
    simp [Request.run, hrun, errOpnotsupp]
  | getRssKey stack =>
    have hver : ¬ v.hasRssQuery := h
    have hrun : ((getRssKeyLocked V stack).run v).1 = errOpnotsupp := by
      rw [getRssKeyLocked, rssQuery, run_get_bind, if_neg hver]
      rfl
    simp [Request.run, hrun, errOpnotsupp]
  | _ => exact absurd rfl h

/-- Every request fails, as far as the version has it. -/
theorem run_gone (r : Request) {v : Vf D} (h : Gone V v.port) :
  ((r.run V).run v).1 ≠ 0 ↔ r.sends v ∨ r ≠ .getQueues
  := by
  by_cases hsends : r.sends v
  · obtain ⟨f, hrun, hdecides⟩ := r.decides V v hsends
    have herr := exchange_gone V r h
    have hfailed := hdecides.error _ ((r.exchange V v).run v.port).1.2
      ((r.exchange V v).run v.port).2 (r.exchange_silence V v) herr
    rw [hrun]
    exact ⟨fun _ => .inl hsends, fun _ => hfailed.1⟩
  · rw [Ne, run_unsent V hsends]
    simp [hsends]

/-- A program of the mailbox layer, from the VF. -/
theorem talk_gone {α : Type} {Q : α → Prop} {m : PortM D α} (h : Within (Gone V) Q m) :
  Within (fun v : Vf D => Gone V v.port) Q (talk m)
  := fun v hv => h v.port hv

/-- A loop over queues does not bring the device back. -/
theorem eachQueue_gone {f : ℕ → PortM D Unit} (h : ∀ i, Within (Gone V) (fun _ => True) (f i))
    (n : ℕ) :
  Within (Gone V) (fun _ => True) (eachQueue f n)
  := by
  induction n with
  | zero => apply within_pure trivial
  | succ n ih =>
    apply within_bind ih
    intro _ _
    apply h

/-- `ixgbe_stop_adapter_vf` does not bring the device back. -/
theorem stopAdapterVf_gone (maxTxQueues maxRxQueues : ℕ) :
  Within (Gone V) (fun _ => True) (stopAdapterVf V maxTxQueues maxRxQueues)
  := by
  apply within_bind (writeReg_gone V _ _)
  intro _ _
  apply within_bind (readReg_gone V _)
  intro _ _
  apply within_bind
  · apply eachQueue_gone
    intro i
    apply writeReg_gone
  · intro _ _
    apply within_bind
    · apply eachQueue_gone
      intro i
      apply within_bind (readReg_gone V _)
      intro value _
      apply writeReg_gone
    · intro _ _
      apply within_bind (writeReg_gone V _ _)
      intro _ _
      apply within_bind (readReg_gone V _)
      intro _ _
      apply within_pure trivial

/-- The reset never ends. -/
theorem rstRounds_gone (timeout : ℕ) :
  Within (Gone V) (· = true) (rstRounds V timeout)
  := by
  induction timeout with
  | zero =>
    apply within_bind (checkForRstVf_gone V)
    intro _ _
    apply within_pure rfl
  | succ timeout ih =>
    apply within_bind (checkForRstVf_gone V)
    rintro _ rfl
    apply ih

/-- `ixgbe_reset_hw_vf` gives up waiting for the reset. -/
theorem resetHwVf_gone {v : Vf D} (h : Gone V v.port) :
  ((resetHwVf V).run v).1 = errResetFailed
  := by
  have hreset : Within (fun v : Vf D => Gone V v.port) (· = errResetFailed) (resetHwVf V) := by
    apply within_get
    intro v _
    apply within_bind (talk_gone V (stopAdapterVf_gone V _ _))
    intro _ _
    apply within_bind (P := fun _ => True)
    · apply within_modify
      intro v hv
      exact hv
    · intro _ _
      apply within_bind (talk_gone V (writeReg_gone V _ _))
      intro _ _
      apply within_bind (P := fun _ => True)
      · apply talk_gone
        apply within_bind (readReg_gone V _)
        intro _ _
        apply within_pure trivial
      · intro _ _
        apply within_bind (talk_gone V (rstRounds_gone V _))
        rintro _ rfl
        apply within_pure rfl
  exact (hreset v h).1

/-! ### The link check -/

/-- A link check that goes on to the mailbox and finds the flag set. -/
theorem linkCheckMailbox_gone {hw : Hw D} (h : Gone V hw.port) (hflag : hw.getLinkStatus = true)
    (ret : ℤ) (speed : BitVec 32) :
  (linkCheckMailbox V hw ret speed).linkUp = some false
    ↔ match hw.port.mbx.ops with
      | .legacy => hw.apiVersion.value < ApiVersion.api15.value
      | .upgraded => hw.port.mbx.timeout = 0
  := by
  have hout : (linkCheckMailbox V hw ret speed).linkUp
      = some !(linkCheckMailbox V hw ret speed).hw.getLinkStatus := by
    simp only [linkCheckMailbox]
    split_ifs <;> rfl
  have hsize : min 1 hw.port.mbx.size = 1 := Nat.min_eq_left hw.port.mbx.size_pos
  have hread := (MbxOps.read_gone V hw.port.mbx.ops [0#32] (min 1 hw.port.mbx.size) hw.port h).1
  have hrun : (readMbx V [0#32] 1).run hw.port
      = (hw.port.mbx.ops.read V [0#32] (min 1 hw.port.mbx.size)).run hw.port := rfl
  rw [hout, Option.some.injEq, Bool.not_eq_false', linkCheckMailbox_flag, ClearsFlag, hrun]
  revert hread
  cases hw.port.mbx.ops with
  | legacy =>
    intro herr
    rw [if_pos herr]
    simp [hflag]
  | upgraded =>
    intro hread
    have hreply : ((MbxOps.upgraded.read V [0#32] (min 1 hw.port.mbx.size)).run hw.port).1
        = (0, [failedReadReg]) := by
      simpa [hsize] using hread
    have hcts : hasBit failedReadReg msgtypeCts := by decide
    rw [hreply]
    simp [hflag, hcts]

/-- The link register says that the link is up. -/
theorem readVflinks_gone (type : MacType) (speed : BitVec 32) :
  Within (Gone V) (fun x => x.2 = true) (readVflinks V type speed)
  := by
  have hup : hasBit failedReadReg linksUp := by decide
  have hreread : ∀ n links, Within (Gone V) (fun o => o.isSome) (rereadVflinks V n links) := by
    intro n
    induction n with
    | zero =>
      intro links
      apply within_pure rfl
    | succ n ih =>
      intro links
      apply within_bind (readReg_gone V _)
      rintro _ rfl
      rw [if_pos hup]
      apply ih
  apply within_bind (readReg_gone V _)
  rintro _ rfl
  rw [if_pos hup]
  apply within_bind (hreread _ _)
  rintro (_ | links) hlinks
  · cases hlinks
  · apply within_pure rfl

/-- What keeps the link check from reporting the link of a device that is gone: the PF is asked
for it, or the mailbox that is asked last reads nothing and its failure counts. -/
def ReportsDown (hw : Hw D) : Prop :=
  hw.asksPf ∨
    match hw.port.mbx.ops with
    | .legacy => hw.apiVersion.value < ApiVersion.api15.value
    | .upgraded => hw.port.mbx.timeout = 0

/-- The link check on a device that is gone. -/
theorem checkMacLinkVf_gone {hw : Hw D} (h : Gone V hw.port) (speed : BitVec 32) (linkUp : Bool) :
  (checkMacLinkVf V hw speed (some linkUp)).linkUp = some false ↔ ReportsDown hw
  := by
  obtain ⟨hrst, hgone⟩ := checkForRstVf_gone V hw.port h
  obtain ⟨htype, hapi, hquiet⟩ := dropOnReset_fields V hw
  have hflag : (dropOnReset V hw).getLinkStatus = true := by
    have hset : ((checkForRstVf V).run hw.port).1 = 0
        ∨ ((checkForRstVf V).run hw.port).2.mbx.timeout = 0 := .inl hrst
    exact if_pos hset
  have hgone' : Gone V (dropOnReset V hw).port := hgone
  have hasks : (dropOnReset V hw).asksPf = hw.asksPf := by
    unfold Hw.asksPf
    rw [htype, hapi]
  obtain ⟨hlink, hafter⟩ := readVflinks_gone V (dropOnReset V hw).macType speed _ hgone'
  have hup : vflinksUp V (dropOnReset V hw) speed = true := hlink
  have hmailbox (ret : ℤ) (speed' : BitVec 32) (hno : ¬ hw.asksPf) :
      (linkCheckMailbox V (afterVflinks V (dropOnReset V hw) speed) ret speed').linkUp
        = some false ↔ ReportsDown hw := by
    obtain ⟨ls, hreads, -⟩ :=
      readVflinks_reads V (dropOnReset V hw).macType speed (dropOnReset V hw).port
    have hops : (afterVflinks V (dropOnReset V hw) speed).port.mbx.ops = hw.port.mbx.ops :=
      hreads.ops.trans hquiet.ops
    have htimeout : (afterVflinks V (dropOnReset V hw) speed).port.mbx.timeout
        = hw.port.mbx.timeout := hreads.timeout.trans hquiet.timeout
    have hset : (afterVflinks V (dropOnReset V hw) speed).getLinkStatus = true := hflag
    rw [linkCheckMailbox_gone V hafter hset, ReportsDown, hops, htimeout]
    simp only [hno, Bool.false_eq_true, false_or]
    rfl
  rw [checkMacLinkVf_some, if_neg (by simp [hflag])]
  by_cases htyped : hw.macType = .macE610Vf
  · rw [if_neg (by simp [htyped])]
    by_cases hpf : hw.asksPf
    · obtain ⟨speed', hcheck⟩ := linkCheckPf_of_asksPf V (hasks.trans hpf) speed linkUp
      have herr : (pfReply V (dropOnReset V hw)).1 ≠ 0 :=
        (exchangeOf_gone V _ _ _ (dropOnReset V hw).port hgone').1
      rw [hcheck, if_pos herr]
      exact ⟨fun _ => .inl hpf, fun _ => rfl⟩
    · have hfalls : (dropOnReset V hw).fallsBack := by
        simp only [Hw.asksPf, htyped, true_and, decide_eq_true_eq] at hpf
        simp only [Hw.fallsBack, htype, hapi, htyped, true_and, decide_eq_true_eq]
        exact hpf
      obtain ⟨speed', hcheck⟩ := linkCheckPf_of_fallsBack V hfalls speed linkUp
      rw [hcheck]
      apply hmailbox _ _ hpf
  · rw [if_pos htyped]
    obtain ⟨speed', hcheck⟩ := linkCheckVflinks_eq V (dropOnReset V hw) speed
    have hno : ¬ hw.asksPf := by
      simp [Hw.asksPf, htyped]
    rw [hcheck, if_pos hup]
    apply hmailbox _ _ hno

/-! ### Which calls are safe -/

/-- The operations of the mailbox; of a reset, the whole function. -/
def perform : Contents.Operation → VfM D ℤ
  | .request r => r.run V
  | .reset => resetHwVf V

/-- The part of the VF that the link check uses, with `mac.get_link_status`. -/
def linkPart (v : Vf D) (getLinkStatus : Bool) : Hw D :=
  ⟨v.macType, getLinkStatus, v.apiVersion, v.port⟩

/-- Once the device is gone an operation fails and the link check reports the link down, exactly
unless the operation is `ixgbevf_get_queues` in a version without the request, or the check
relies on the mailbox and takes what that answers for a good sign. -/
theorem removal_iff
    {v : Vf D} (h : Gone V v.port) (op : Contents.Operation) (getLinkStatus linkUp : Bool)
    (speed : BitVec 32) :
  (((perform V op).run v).1 ≠ 0
      ∧ (checkMacLinkVf V (linkPart v getLinkStatus) speed (some linkUp)).linkUp = some false)
    ↔ (op ≠ .request .getQueues ∨ v.apiVersion.hasQueues) ∧ ReportsDown (linkPart v getLinkStatus)
  := by
  have hgone : Gone V (linkPart v getLinkStatus).port := h
  have hperform : ((perform V op).run v).1 ≠ 0
      ↔ op ≠ .request .getQueues ∨ v.apiVersion.hasQueues := by
    cases op with
    | reset =>
      have hreset : ((perform V .reset).run v).1 = errResetFailed := resetHwVf_gone V h
      simp [hreset, errResetFailed]
    | request r =>
      have hrun := run_gone V r h
      have hne : Contents.Operation.request r ≠ .request .getQueues ↔ r ≠ .getQueues := by
        simp
      rw [hne]
      refine hrun.trans ⟨?_, ?_⟩
      · rintro (hsends | hr)
        · by_cases hr : r = .getQueues
          · subst hr
            exact .inr hsends
          · exact .inl hr
        · exact .inl hr
      · rintro (hr | hver)
        · exact .inr hr
        · by_cases hr : r = .getQueues
          · subst hr
            exact .inl hver
          · exact .inr hr
  rw [hperform, checkMacLinkVf_gone V hgone]

/-! ### Two VFs without a device -/

/-- A device that is gone. -/
def goneDevice : Device Unit where
  read d _ := (failedReadReg, d)
  write d _ _ := d

/-- A VF that has come up on version `api` with the functions `ops`. -/
def unplugged (api : ApiVersion) (ops : MbxOps) : Vf Unit where
  port := ⟨false, mbxParamsVf ops 0#32, (), []⟩
  macType := .macX550Vf
  apiVersion := api
  addr := Vector.replicate 6 0
  permAddr := Vector.replicate 6 0
  mcFilterType := 0
  maxTxQueues := 2
  maxRxQueues := 2
  linkState := false
  speed := 0
  linkUp := true
  pfFeatures := 0
  numTcs := 0
  defaultTc := 0
  reta := []
  rssKey := []

/-- The device is gone for every such VF. -/
theorem unplugged_gone (api : ApiVersion) (ops : MbxOps) :
  Gone goneDevice (unplugged api ops).port
  := .inr ⟨fun _ => True, trivial, fun _ _ _ => ⟨rfl, trivial, fun _ => trivial⟩⟩

/-- On version 1.3 the operations fail and the link is down. -/
theorem unplugged_safe :
  ((perform goneDevice (.request .getQueues)).run (unplugged .api13 .legacy)).1 ≠ 0
    ∧ (checkMacLinkVf goneDevice (linkPart (unplugged .api13 .legacy) false) 0 (some true)).linkUp
      = some false
  := (removal_iff goneDevice (unplugged_gone _ _) (.request .getQueues) false true 0).mpr
    ⟨.inr rfl, .inr (show ApiVersion.api13.value < ApiVersion.api15.value by decide)⟩

/-- On version 1.7 with the upgraded mailbox the link is reported up although the device is
gone. -/
theorem unplugged_reports_up :
  Gone goneDevice (unplugged .api17 .upgraded).port
    ∧ (checkMacLinkVf goneDevice (linkPart (unplugged .api17 .upgraded) false) 0 (some true)).linkUp
      = some true
  := by
  refine ⟨unplugged_gone _ _, ?_⟩
  decide +kernel

end Ixgbevf.Removal
