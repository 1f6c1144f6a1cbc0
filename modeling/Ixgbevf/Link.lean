import Ixgbevf.Mbx

/-!
# The link check of a VF

`ixgbe_check_mac_link_vf` with the two sources it asks, the link register and the PF, and
`ixgbevf_watchdog_update_link`, its caller.  The link is reported up while the flag
`mac->get_link_status`, which says that the link has to be looked at again, is clear.
-/

namespace Ixgbevf

open StateProgram

/-! ### Constants -/

/-- `IXGBE_LINKS_UP`. -/
def linksUp : BitVec 32 := 0x40000000#32

/-- `IXGBE_LINKS_SPEED_NON_STD`. -/
def linksSpeedNonStd : BitVec 32 := 0x08000000#32

/-- `IXGBE_LINKS_SPEED_82599`. -/
def linksSpeed82599 : BitVec 32 := 0x30000000#32

/-- `IXGBE_LINKS_SPEED_10G_82599`. -/
def linksSpeed10g82599 : BitVec 32 := 0x30000000#32

/-- `IXGBE_LINKS_SPEED_1G_82599`. -/
def linksSpeed1g82599 : BitVec 32 := 0x20000000#32

/-- `IXGBE_LINKS_SPEED_100_82599`. -/
def linksSpeed100x82599 : BitVec 32 := 0x10000000#32

/-- `IXGBE_LINK_SPEED_UNKNOWN`. -/
def linkSpeedUnknown : BitVec 32 := 0#32

/-- `IXGBE_LINK_SPEED_10_FULL`. -/
def linkSpeed10Full : BitVec 32 := 0x0002#32

/-- `IXGBE_LINK_SPEED_100_FULL`. -/
def linkSpeed100Full : BitVec 32 := 0x0008#32

/-- `IXGBE_LINK_SPEED_1GB_FULL`. -/
def linkSpeed1gbFull : BitVec 32 := 0x0020#32

/-- `IXGBE_LINK_SPEED_10GB_FULL`. -/
def linkSpeed10gbFull : BitVec 32 := 0x0080#32

/-- `IXGBE_LINK_SPEED_2_5GB_FULL`. -/
def linkSpeed2x5gbFull : BitVec 32 := 0x0400#32

/-- `IXGBE_LINK_SPEED_5GB_FULL`. -/
def linkSpeed5gbFull : BitVec 32 := 0x0800#32

/-- `IXGBE_VT_MSGTYPE_SUCCESS`. -/
def msgtypeSuccess : BitVec 32 := 0x80000000#32

/-- `IXGBE_VT_MSGTYPE_FAILURE`. -/
def msgtypeFailure : BitVec 32 := 0x40000000#32

/-- `IXGBE_VT_MSGTYPE_CTS`. -/
def msgtypeCts : BitVec 32 := 0x20000000#32

/-- `IXGBE_VF_GET_PF_LINK_STATE`. -/
def vfGetPfLinkState : BitVec 32 := 0x11#32

/-! ### The sources -/

variable {D : Type} (V : Device D)

/-- The switch over the speed field at the end of `ixgbe_read_vflinks`. -/
def vflinksSpeed (type : MacType) (links : BitVec 32) : BitVec 32 :=
  let speed := links &&& linksSpeed82599
  let nonStd := hasBit links linksSpeedNonStd
  if speed = linksSpeed10g82599 then
    if MacType.macX550Vf.value ≤ type.value ∧ nonStd then linkSpeed2x5gbFull
    else linkSpeed10gbFull
  else if speed = linksSpeed1g82599 then
    linkSpeed1gbFull
  else if speed = linksSpeed100x82599 then
    if type = .macX550Vf ∧ nonStd then linkSpeed5gbFull else linkSpeed100Full
  else
    -- the field has two bits: this is `IXGBE_LINKS_SPEED_10_X550EM_A`
    if MacType.macX550Vf.value ≤ type.value then linkSpeed10Full else linkSpeedUnknown

/-- The loop that reads the link register again, up to `n` times: the last value, or
`none` as soon as the link is down. -/
def rereadVflinks : ℕ → BitVec 32 → PortM D (Option (BitVec 32))
  | 0, links => pure (some links)
  | n + 1, _ => do
    let links ← readReg V vfLinks
    if hasBit links linksUp then rereadVflinks n links else pure none

/-- The speed and `link_up` after the reads of the link register. -/
def vflinksOut (type : MacType) (speed : BitVec 32) : Option (BitVec 32) → BitVec 32 × Bool
  | some links => (vflinksSpeed type links, true)
  | none => (speed, false)

/-- `ixgbe_read_vflinks`: the speed, as it was where the link is down, and `link_up`. -/
def readVflinks (type : MacType) (speed : BitVec 32) : PortM D (BitVec 32 × Bool) := do
  let links ← readReg V vfLinks
  if hasBit links linksUp then do
    let links ← rereadVflinks V (if type = .mac82599Vf then 5 else 0) links
    pure (vflinksOut type speed links)
  else
    pure (speed, false)

/-- The API versions in which the PF answers the link-state request. -/
def ApiVersion.hasLinkState (api : ApiVersion) : Bool :=
  api = .api16 ∨ api = .api17

/-- The request of `ixgbevf_get_pf_link_state` and its reply. -/
def linkStateExchange : PortM D (ℤ × List (BitVec 32)) :=
  writeMsgReadAck V [vfGetPfLinkState, 0#32, 0#32] 3

/-- `ixgbevf_get_pf_link_state`: the error, the speed and `link_up`. -/
def getPfLinkState (api : ApiVersion) (speed : BitVec 32) (linkUp : Bool) :
    PortM D (ℤ × BitVec 32 × Bool) :=
  if api.hasLinkState then do
    let (err, msg) ← linkStateExchange V
    if err ≠ 0 then
      pure (err, linkSpeedUnknown, linkUp)
    else if hasBit (msg.getD 0 0#32) msgtypeFailure then
      -- the PF refused
      pure (errMbx, linkSpeedUnknown, linkUp)
    else
      pure (0, msg.getD 1 0#32, msg.getD 2 0#32 != 0#32)
  else
    pure (errFeatureNotSupported, speed, linkUp)

/-! ### The check -/

/-- The part of `struct ixgbe_hw` that the link check uses. -/
structure Hw (D : Type) where
  /-- `mac.type`. -/
  macType : MacType
  /-- `mac.get_link_status`: the link has to be looked at. -/
  getLinkStatus : Bool
  /-- `api_version`. -/
  apiVersion : ApiVersion
  /-- The way to the device. -/
  port : Port D

/-- What a link check returns: its value, `*speed`, `*link_up` unless `link_up` is `NULL`,
and the state it leaves. -/
structure LinkCheck (D : Type) where
  /-- The value of the function. -/
  ret : ℤ
  /-- `*speed`. -/
  speed : BitVec 32
  /-- `*link_up`. -/
  linkUp : Option Bool
  /-- The state after the call. -/
  hw : Hw D

/-- The label `out` of `ixgbe_check_mac_link_vf`. -/
def linkCheckOut (hw : Hw D) (ret : ℤ) (speed : BitVec 32) : LinkCheck D :=
  ⟨ret, speed, some !hw.getLinkStatus, hw⟩

/-- `ixgbe_check_mac_link_vf` from its read of the mailbox on. -/
def linkCheckMailbox (hw : Hw D) (ret : ℤ) (speed : BitVec 32) : LinkCheck D :=
  let r := (readMbx V [0#32] 1).run hw.port
  let hw := { hw with port := r.2 }
  let inMsg := r.1.2.getD 0 0#32
  if r.1.1 ≠ 0 then
    if ApiVersion.api15.value ≤ hw.apiVersion.value then
      linkCheckOut { hw with getLinkStatus := false } ret speed
    else
      linkCheckOut hw ret speed
  else if ¬ hasBit inMsg msgtypeCts then
    linkCheckOut hw (if hasBit inMsg msgtypeFailure then errMbx else ret) speed
  else if hw.port.mbx.timeout = 0 then
    linkCheckOut hw errTimeout speed
  else
    linkCheckOut { hw with getLinkStatus := false } ret speed

/-- The first test of `ixgbe_check_mac_link_vf`: a reset by the PF drops the link. -/
def dropOnReset (hw : Hw D) : Hw D :=
  let r := (checkForRstVf V).run hw.port
  { hw with
    port := r.2
    getLinkStatus := if r.1 = 0 ∨ r.2.mbx.timeout = 0 then true else hw.getLinkStatus }

/-- The branch of `ixgbe_check_mac_link_vf` that asks the link register. -/
def linkCheckVflinks (hw : Hw D) (speed : BitVec 32) : LinkCheck D :=
  let r := (readVflinks V hw.macType speed).run hw.port
  let hw := { hw with port := r.2 }
  if r.1.2 then linkCheckMailbox V hw 0 r.1.1 else linkCheckOut hw 0 r.1.1

/-- The branch of `ixgbe_check_mac_link_vf` for E610, which asks the PF. -/
def linkCheckPf (hw : Hw D) (speed : BitVec 32) (linkUp : Bool) : LinkCheck D :=
  let r := (getPfLinkState V hw.apiVersion speed linkUp).run hw.port
  let hw := { hw with port := r.2 }
  if r.1.1 = errFeatureNotSupported then
    -- whether the link register says that the link is up is not looked at
    let r' := (readVflinks V hw.macType r.1.2.1).run hw.port
    linkCheckMailbox V { hw with port := r'.2 } r.1.1 r'.1.1
  else if r.1.1 = errMbx then
    ⟨r.1.1, r.1.2.1, some false, hw⟩
  else if r.1.1 ≠ 0 then
    ⟨0, r.1.2.1, some false, hw⟩
  else if r.1.2.2 then
    linkCheckMailbox V hw r.1.1 r.1.2.1
  else
    linkCheckOut hw r.1.1 r.1.2.1

/-- `ixgbe_check_mac_link_vf`. -/
def checkMacLinkVf (hw : Hw D) (speed : BitVec 32) (linkUp : Option Bool) : LinkCheck D :=
  match linkUp with
  | none => ⟨errParam, speed, none, hw⟩
  | some linkUp =>
    let hw := dropOnReset V hw
    if ¬ hw.getLinkStatus then
      linkCheckOut hw 0 speed
    else if hw.macType ≠ .macE610Vf then
      linkCheckVflinks V hw speed
    else
      linkCheckPf V hw speed linkUp

/-! ### The watchdog -/

/-- The part of `struct ixgbevf_adapter` that the link watchdog uses. -/
structure LinkAdapter (D : Type) where
  /-- `hw`. -/
  hw : Hw D
  /-- `link_speed`. -/
  linkSpeed : BitVec 32
  /-- `link_up`. -/
  linkUp : Bool
  /-- `last_reset`, in jiffies. -/
  lastReset : BitVec 64
  /-- `__IXGBEVF_RESET_REQUESTED` in `state`. -/
  resetRequested : Bool

/-- `time_after(a, b)`. -/
def timeAfter (a b : BitVec 64) : Bool := (b - a).slt 0

/-- `ixgbevf_watchdog_update_link` at the time `jiffies`, where a second takes `hz`. -/
def watchdogUpdateLink (jiffies hz : BitVec 64) (a : LinkAdapter D) : LinkAdapter D :=
  let c := checkMacLinkVf V a.hw a.linkSpeed (some a.linkUp)
  let linkUp := c.linkUp.getD a.linkUp
  if c.ret ≠ 0 ∧ timeAfter jiffies (a.lastReset + 10 * hz) then
    { a with hw := c.hw, linkSpeed := c.speed, linkUp := false, resetRequested := true }
  else
    { a with hw := c.hw, linkSpeed := c.speed, linkUp := linkUp }

/-! ### What the stages of the check read and decide -/

/-- The number of times a MAC type has to see the link up in the link register. -/
def requiredReads (type : MacType) : ℕ := if type = .mac82599Vf then 6 else 1

/-- Every value of the link register says that the link is up. -/
def AllUp (links : List (BitVec 32)) : Prop := ∀ v ∈ links, hasBit v linksUp

/-- A read of the link register adds the value it returned. -/
theorem readReg_vfLinks (p : Port D) :
  p.Reads ((readReg V vfLinks).run p).2 [] [((readReg V vfLinks).run p).1]
  := readReg_reads V p

/-- From `p` to `p'` only the link register was read, and if the link was found up then
all of `n` reads saw it up. -/
def SeesLink (n : ℕ) (p : Port D) (up : Bool) (p' : Port D) : Prop :=
  ∃ ls, p.Reads p' [] ls ∧ (up → ls.length = n ∧ AllUp ls)

/-- A read that sees the link up, before others. -/
theorem SeesLink.cons {n : ℕ} {p p₁ p₂ : Port D} {up : Bool} {v : BitVec 32}
    (h : p.Reads p₁ [] [v]) (hv : hasBit v linksUp) (hs : SeesLink n p₁ up p₂) :
  SeesLink (n + 1) p up p₂
  := by
  obtain ⟨ls, hr, hl⟩ := hs
  refine ⟨v :: ls, h.trans hr, fun hup => ?_⟩
  obtain ⟨hn, hu⟩ := hl hup
  exact ⟨congrArg (· + 1) hn, List.forall_mem_cons.mpr ⟨hv, hu⟩⟩

/-- A stretch that finds the link down. -/
theorem SeesLink.down {n : ℕ} {p p' : Port D} {ls : List (BitVec 32)} (h : p.Reads p' [] ls) :
  SeesLink n p false p'
  := ⟨ls, h, fun hup => absurd hup Bool.false_ne_true⟩

/-- Where reading the link register again ends with the link up, every read saw it up. -/
theorem rereadVflinks_reads (n : ℕ) (links : BitVec 32) (p : Port D) :
  SeesLink n p ((rereadVflinks V n links).run p).1.isSome ((rereadVflinks V n links).run p).2
  := by
  induction n generalizing links p with
  | zero => exact ⟨[], refl_of Port.Quiet p, fun _ => ⟨rfl, by simp [AllUp]⟩⟩
  | succ n ih =>
    refine run_bind_of (fun v p' => p.Reads p' [] [v])
      (fun r : Option (BitVec 32) × Port D => SeesLink (n + 1) p r.1.isSome r.2)
      (readReg_vfLinks V p) fun v p₁ h₁ => ?_
    split
    next hv => exact SeesLink.cons h₁ hv (ih v p₁)
    next hv => exact SeesLink.down h₁

/-- Where `ixgbe_read_vflinks` finds the link up, every required read saw it up. -/
theorem readVflinks_reads (type : MacType) (speed : BitVec 32) (p : Port D) :
  SeesLink (requiredReads type) p ((readVflinks V type speed).run p).1.2
    ((readVflinks V type speed).run p).2
  := by
  have hn : requiredReads type = (if type = .mac82599Vf then 5 else 0) + 1 := by
    unfold requiredReads
    split
    · rfl
    · rfl
  rw [hn]
  refine run_bind_of (fun v p' => p.Reads p' [] [v])
    (fun r : (BitVec 32 × Bool) × Port D => SeesLink _ p r.1.2 r.2)
    (readReg_vfLinks V p) fun v p₁ h₁ => ?_
  by_cases hv : hasBit v linksUp
  · rw [if_pos hv]
    refine run_bind_of (fun (o : Option (BitVec 32)) p' => SeesLink _ p₁ o.isSome p')
      (fun r : (BitVec 32 × Bool) × Port D => SeesLink _ p r.1.2 r.2)
      (rereadVflinks_reads V _ v p₁) fun o p₂ h₂ => ?_
    cases o with
    | none => exact SeesLink.cons h₁ hv h₂
    | some w => exact SeesLink.cons h₁ hv h₂
  · rw [if_neg hv]
    exact SeesLink.down h₁

/-- The reset test changes the port and may drop the link, and nothing else. -/
theorem dropOnReset_fields (hw : Hw D) :
  (dropOnReset V hw).macType = hw.macType ∧ (dropOnReset V hw).apiVersion = hw.apiVersion
    ∧ hw.port.Quiet (dropOnReset V hw).port
  := ⟨rfl, rfl, checkForRstVf_quiet V hw.port⟩

/-- The answer of the mailbox clears the flag: the mailbox could not be read and the
version is 1.5 or later, or the PF sent a message with the clear-to-send bit and no
timeout has been hit. -/
def ClearsFlag (hw : Hw D) : Prop :=
  let r := (readMbx V [0#32] 1).run hw.port
  if r.1.1 ≠ 0 then
    ApiVersion.api15.value ≤ hw.apiVersion.value
  else
    hasBit (r.1.2.getD 0 0#32) msgtypeCts ∧ hw.port.mbx.timeout ≠ 0

instance (hw : Hw D) : Decidable (ClearsFlag V hw) := by
  unfold ClearsFlag
  infer_instance

/-- Reading the pending message reads one word, the message, or fails. -/
theorem readMbx_pending (p : Port D) :
  (((readMbx V [0#32] 1).run p).1.1 = 0
      ∧ p.Reads ((readMbx V [0#32] 1).run p).2 [((readMbx V [0#32] 1).run p).1.2.getD 0 0#32] [])
    ∨ (((readMbx V [0#32] 1).run p).1.1 ≠ 0 ∧ p.Quiet ((readMbx V [0#32] 1).run p).2)
  := by
  have hs : min 1 p.mbx.size = 1 := Nat.min_eq_left p.mbx.size_pos
  have h : MessageRead _ [0#32] p _ := readMbx_message V (by decide : 1 ≤ 16) p
  rw [hs] at h
  obtain ⟨he, words, hl, hb, hr⟩ | ⟨he, -, hq⟩ := h
  · obtain ⟨w, rfl⟩ := List.length_eq_one_iff.mp hl
    left
    rw [hb]
    exact ⟨he, hr⟩
  · exact .inr ⟨he, hq⟩

/-- The mailbox stage clears the flag exactly when the answer of the mailbox says so. -/
theorem linkCheckMailbox_flag (hw : Hw D) (ret : ℤ) (speed : BitVec 32) :
  (linkCheckMailbox V hw ret speed).hw.getLinkStatus = true
    ↔ hw.getLinkStatus = true ∧ ¬ ClearsFlag V hw
  := by
  have ht : ((readMbx V [0#32] 1).run hw.port).2.mbx.timeout = hw.port.mbx.timeout := by
    obtain ⟨-, h⟩ | ⟨-, h⟩ := readMbx_pending V hw.port
    · exact h.timeout
    · exact h.timeout
  simp only [linkCheckMailbox, ClearsFlag, ht]
  split_ifs with h₁ h₂ h₃ h₄ h₅ <;> simp_all [linkCheckOut]

/-- The mailbox stage reads the pending message and nothing else. -/
theorem linkCheckMailbox_port (hw : Hw D) (ret : ℤ) (speed : BitVec 32) :
  (linkCheckMailbox V hw ret speed).hw.port = ((readMbx V [0#32] 1).run hw.port).2
  := by
  simp only [linkCheckMailbox]
  split_ifs <;> rfl

/-- The link-state request in a version that has it, by the exchange it makes. -/
theorem getPfLinkState_run {api : ApiVersion} (h : api.hasLinkState) (speed : BitVec 32)
    (linkUp : Bool) (p : Port D) :
  (getPfLinkState V api speed linkUp).run p
    = (if ((linkStateExchange V).run p).1.1 ≠ 0 then
        (((linkStateExchange V).run p).1.1, linkSpeedUnknown, linkUp)
      else if hasBit (((linkStateExchange V).run p).1.2.getD 0 0#32) msgtypeFailure then
        (errMbx, linkSpeedUnknown, linkUp)
      else
        (0, ((linkStateExchange V).run p).1.2.getD 1 0#32,
          ((linkStateExchange V).run p).1.2.getD 2 0#32 != 0#32),
      ((linkStateExchange V).run p).2)
  := by
  rw [getPfLinkState, if_pos h, StateT.run_bind]
  obtain ⟨⟨err, msg⟩, p'⟩ := (linkStateExchange V).run p
  change StateT.run (if err ≠ 0 then _ else _) p' = _
  split_ifs
  · rfl
  · rfl
  · rfl

/-- The link-state request in a version that lacks it. -/
theorem getPfLinkState_run_of_not {api : ApiVersion} (h : ¬ api.hasLinkState)
    (speed : BitVec 32) (linkUp : Bool) (p : Port D) :
  (getPfLinkState V api speed linkUp).run p = ((errFeatureNotSupported, speed, linkUp), p)
  := by
  rw [getPfLinkState, if_neg h]
  rfl

/-- A successful exchange read the three words of the reply, and nothing before them. -/
theorem linkStateExchange_reply (p : Port D) (h : ((linkStateExchange V).run p).1.1 = 0) :
  ∃ w speed up, ((linkStateExchange V).run p).1.2 = [w, speed, up]
    ∧ p.Reads ((linkStateExchange V).run p).2 [w, speed, up] []
  := by
  have hs : 3 ≤ p.mbx.size := by
    by_contra hs
    exact writeMsgReadAck_size V p (Nat.lt_of_not_le hs) h
  have hm : MessageRead _ [vfGetPfLinkState, 0#32, 0#32] p ((linkStateExchange V).run p) :=
    writeMsgReadAck_message V (by decide : 3 ≤ 16) p
  rw [Nat.min_eq_left hs] at hm
  obtain ⟨-, words, hl, hb, hr⟩ | ⟨he, -, -⟩ := hm
  · obtain ⟨w, speed, up, rfl⟩ := List.length_eq_three.mp hl
    exact ⟨w, speed, up, hb, hr⟩
  · exact absurd h he

/-- An exchange ends in neither of the two errors that the check treats specially. -/
theorem linkStateExchange_error (p : Port D) :
  ((linkStateExchange V).run p).1.1 ≠ errMbx
    ∧ ((linkStateExchange V).run p).1.1 ≠ errFeatureNotSupported
  := by
  have hr : IsSilence ((linkStateExchange V).run p).1.1 := writeMsgReadAck_returns V p
  obtain h | h | h | h | h := hr
  · rw [h]
    decide
  · rw [h]
    decide
  · rw [h]
    decide
  · rw [h]
    decide
  · rw [h]
    decide

/-! ### The paths through the check -/

/-- The state in which the check reads the mailbox after it has asked the link register. -/
def afterVflinks (hw : Hw D) (speed : BitVec 32) : Hw D :=
  { hw with port := ((readVflinks V hw.macType speed).run hw.port).2 }

/-- The state in which the check reads the mailbox after it has asked the PF. -/
def afterExchange (hw : Hw D) : Hw D :=
  { hw with port := ((linkStateExchange V).run hw.port).2 }

/-- The link register says that the link is up, at every required read. -/
def vflinksUp (hw : Hw D) (speed : BitVec 32) : Bool :=
  ((readVflinks V hw.macType speed).run hw.port).1.2

/-- The error of the exchange with the PF, and the reply. -/
def pfReply (hw : Hw D) : ℤ × List (BitVec 32) :=
  ((linkStateExchange V).run hw.port).1

/-- The check asks the PF, not the link register. -/
def Hw.asksPf (hw : Hw D) : Bool :=
  hw.macType = .macE610Vf ∧ hw.apiVersion.hasLinkState

/-- The check falls back from the PF to the link register. -/
def Hw.fallsBack (hw : Hw D) : Bool :=
  hw.macType = .macE610Vf ∧ ¬ hw.apiVersion.hasLinkState

/-- A check with a place for its result, by its branches. -/
theorem checkMacLinkVf_some (hw : Hw D) (speed : BitVec 32) (linkUp : Bool) :
  checkMacLinkVf V hw speed (some linkUp)
    = if ¬ (dropOnReset V hw).getLinkStatus then linkCheckOut (dropOnReset V hw) 0 speed
      else if hw.macType ≠ .macE610Vf then linkCheckVflinks V (dropOnReset V hw) speed
      else linkCheckPf V (dropOnReset V hw) speed linkUp
  := rfl

/-- The branch that asks the link register goes on to the mailbox where the link is up. -/
theorem linkCheckVflinks_eq (hw : Hw D) (speed : BitVec 32) :
  ∃ speed', linkCheckVflinks V hw speed
    = if vflinksUp V hw speed then linkCheckMailbox V (afterVflinks V hw speed) 0 speed'
      else linkCheckOut (afterVflinks V hw speed) 0 speed'
  := ⟨_, rfl⟩

/-- The fall-back from the PF to the link register goes on whatever that says. -/
theorem linkCheckPf_of_fallsBack {hw : Hw D} (hf : hw.fallsBack) (speed : BitVec 32)
    (linkUp : Bool) :
  ∃ speed', linkCheckPf V hw speed linkUp
    = linkCheckMailbox V (afterVflinks V hw speed) errFeatureNotSupported speed'
  := by
  have ha : ¬ hw.apiVersion.hasLinkState := (of_decide_eq_true hf).2
  refine ⟨((readVflinks V hw.macType speed).run hw.port).1.1, ?_⟩
  simp only [linkCheckPf, getPfLinkState_run_of_not V ha, if_true]
  rfl

/-- The branch that asks the PF, by the reply. -/
theorem linkCheckPf_of_asksPf {hw : Hw D} (hf : hw.asksPf) (speed : BitVec 32)
    (linkUp : Bool) :
  ∃ speed', linkCheckPf V hw speed linkUp
    = if (pfReply V hw).1 ≠ 0 then
        ⟨0, linkSpeedUnknown, some false, afterExchange V hw⟩
      else if hasBit ((pfReply V hw).2.getD 0 0#32) msgtypeFailure then
        ⟨errMbx, linkSpeedUnknown, some false, afterExchange V hw⟩
      else if (pfReply V hw).2.getD 2 0#32 ≠ 0#32 then
        linkCheckMailbox V (afterExchange V hw) 0 speed'
      else
        linkCheckOut (afterExchange V hw) 0 speed'
  := by
  have ha : hw.apiVersion.hasLinkState := (of_decide_eq_true hf).2
  obtain ⟨hm, hn⟩ := linkStateExchange_error V hw.port
  refine ⟨(pfReply V hw).2.getD 1 0#32, ?_⟩
  have hfn : errMbx ≠ errFeatureNotSupported := by decide
  have hzn : (0 : ℤ) ≠ errFeatureNotSupported := by decide
  have hzm : (0 : ℤ) ≠ errMbx := by decide
  simp only [linkCheckPf, getPfLinkState_run V ha, pfReply, afterExchange]
  by_cases h₁ : ((linkStateExchange V).run hw.port).1.1 = 0
  · by_cases h₂ : hasBit (((linkStateExchange V).run hw.port).1.2.getD 0 0#32) msgtypeFailure
    · simp only [h₁, h₂, hfn, ne_eq, not_true_eq_false, if_true, if_false]
    · by_cases h₃ : ((linkStateExchange V).run hw.port).1.2.getD 2 0#32 = 0#32
      · simp only [h₁, h₂, h₃, hzn, hzm, ne_eq, not_true_eq_false, Bool.false_eq_true, if_false,
          bne_self_eq_false]
      · simp only [h₁, h₂, h₃, hzn, hzm, ne_eq, not_true_eq_false, Bool.false_eq_true, if_false,
          bne_iff_ne, not_false_eq_true, if_true]
  · simp only [h₁, hn, hm, ne_eq, not_false_eq_true, if_true, if_false]

end Ixgbevf
