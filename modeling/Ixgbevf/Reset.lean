import Ixgbevf.Requests

/-!
# Reset

The reset of the VF, which returns the mailbox to the legacy functions and asks the PF for
its addresses, and the negotiation of the API version and of the features that follows it.
-/

namespace Ixgbevf

open StateProgram

/-! ### Constants -/

/-- `IXGBE_VFCTRL`. -/
def vfCtrl : ℕ := 0x0

/-- `IXGBE_VTEICR`. -/
def vtEicr : ℕ := 0x100

/-- `IXGBE_VTEIMC`. -/
def vtEimc : ℕ := 0x10C

/-- `IXGBE_VFPSRTYPE`. -/
def vfPsrtype : ℕ := 0x300

/-- The receive registers of queue `i`, from `IXGBE_VFRDBAL(i)` on. -/
def rxQueueReg (offset i : ℕ) : ℕ := 0x1000 + offset + 0x40 * i

/-- The transmit registers of queue `i`, from `IXGBE_VFTDBAL(i)` on. -/
def txQueueReg (offset i : ℕ) : ℕ := 0x2000 + offset + 0x40 * i

/-- `IXGBE_VFRXDCTL(i)`. -/
def vfRxdctl (i : ℕ) : ℕ := rxQueueReg 0x28 i

/-- `IXGBE_VFTXDCTL(i)`. -/
def vfTxdctl (i : ℕ) : ℕ := txQueueReg 0x28 i

/-- `IXGBE_VF_IRQ_CLEAR_MASK`. -/
def vfIrqClearMask : BitVec 32 := 7#32

/-- `IXGBE_TXDCTL_SWFLSH`. -/
def txdctlSwflsh : BitVec 32 := 0x04000000#32

/-- `IXGBE_RXDCTL_ENABLE`. -/
def rxdctlEnable : BitVec 32 := 0x02000000#32

/-- `IXGBE_CTRL_RST`. -/
def ctrlRst : BitVec 32 := 0x04000000#32

/-- `IXGBE_VF_INIT_TIMEOUT`. -/
def vfInitTimeout : ℕ := 200

/-- `IXGBE_VF_MBX_INIT_TIMEOUT`. -/
def vfMbxInitTimeout : ℕ := 2000

/-- `IXGBE_VF_RESET`. -/
def vfReset : BitVec 32 := 0x01#32

/-- `IXGBE_VF_PERMADDR_MSG_LEN`. -/
def vfPermaddrMsgLen : ℕ := 4

/-- `IXGBE_VF_MC_TYPE_WORD`. -/
def vfMcTypeWord : ℕ := 3

/-- `IXGBEVF_PF_SUP_IPSEC`. -/
def pfSupIpsec : BitVec 32 := 0x1#32

/-- `IXGBEVF_PF_SUP_ESX_MBX`. -/
def pfSupEsxMbx : BitVec 32 := 0x2#32

/-- `IXGBE_ERR_INVALID_MAC_ADDR`. -/
def errInvalidMacAddr : ℤ := -10

/-- `IXGBE_ERR_RESET_FAILED`. -/
def errResetFailed : ℤ := -15

variable {D : Type} (V : Device D)

/-! ### Registers -/

/-- `IXGBE_WRITE_FLUSH`. -/
def writeFlush : PortM D Unit := do
  let _ ← readReg V vfStatus
  pure ()

/-- A loop over the first `n` queues. -/
def eachQueue (f : ℕ → PortM D Unit) : ℕ → PortM D Unit
  | 0 => pure ()
  | n + 1 => do
    eachQueue f n
    f n

/-- `ixgbe_virt_clr_reg`. -/
def virtClrReg : PortM D Unit := do
  writeReg V vfPsrtype 0#32
  eachQueue (fun i => do
    writeReg V (rxQueueReg 0x10 i) 0#32
    writeReg V (rxQueueReg 0x18 i) 0#32
    writeReg V (vfRxdctl i) 0#32
    writeReg V (rxQueueReg 0x14 i) (0x100#32 <<< 2 ||| 0x800#32 >>> 10)
    writeReg V (txQueueReg 0x10 i) 0#32
    writeReg V (txQueueReg 0x18 i) 0#32
    writeReg V (vfTxdctl i) 0#32
    writeReg V (txQueueReg 0x3C i) 0#32
    writeReg V (txQueueReg 0x38 i) 0#32
    writeReg V (rxQueueReg 0xC i) (1#32 <<< 9 ||| 1#32 <<< 13 ||| 1#32 <<< 15)
    writeReg V (txQueueReg 0xC i) (1#32 <<< 9 ||| 1#32 <<< 11 ||| 1#32 <<< 13)) 7
  writeFlush V

/-- `ixgbe_stop_adapter_vf`. -/
def stopAdapterVf (maxTxQueues maxRxQueues : ℕ) : PortM D Unit := do
  writeReg V vtEimc vfIrqClearMask
  let _ ← readReg V vtEicr
  eachQueue (fun i => writeReg V (vfTxdctl i) txdctlSwflsh) maxTxQueues
  eachQueue (fun i => do
    let value ← readReg V (vfRxdctl i)
    writeReg V (vfRxdctl i) (value &&& ~~~rxdctlEnable)) maxRxQueues
  writeReg V vfPsrtype 0#32
  writeFlush V

/-- The loop that waits for the reset, with the rounds that are left: whether it timed out. -/
def rstRounds : ℕ → PortM D Bool
  | 0 => do
    let _ ← checkForRstVf V
    pure true
  | timeout + 1 => do
    let err ← checkForRstVf V
    if err = 0 then rstRounds timeout else pure false

/-- Bytes `i` of the six bytes that two words of a message hold. -/
def wordByte (msg : List (BitVec 32)) (i : ℕ) : BitVec 8 :=
  ((msg.getD (1 + i / 4) 0#32) >>> (8 * (i % 4))).setWidth 8

/-- The address in the words of a message after the first one. -/
def msgAddr (msg : List (BitVec 32)) : MacAddr := Vector.ofFn fun i : Fin 6 => wordByte msg i

/-! ### Reset -/

/-- The request of `ixgbe_reset_hw_vf` and its reply. -/
def resetExchange : PortM D (ℤ × List (BitVec 32)) := do
  let _ ← writeMbx V [vfReset] 1
  pollMbx V [vfReset, 0#32, 0#32, 0#32] vfPermaddrMsgLen

/-- `ixgbe_reset_hw_vf` from the reset of the device on. -/
def resetDeviceVf : VfM D ℤ := do
  talk (writeReg V vfCtrl ctrlRst)
  talk (writeFlush V)
  let timedOut ← talk (rstRounds V vfInitTimeout)
  if timedOut then
    pure errResetFailed
  else do
    talk (virtClrReg V)
    talk (modify fun p => { p with mbx := { p.mbx with timeout := vfMbxInitTimeout } })
    let (err, msg) ← talk (resetExchange V)
    let word := msg.getD 0 0#32
    if err ≠ 0 then
      pure err
    else if word ≠ vfReset ||| msgtypeSuccess ∧ word ≠ vfReset ||| msgtypeFailure then
      pure errInvalidMacAddr
    else do
      modify fun v => { v with
        permAddr := if word = vfReset ||| msgtypeSuccess then msgAddr msg else v.permAddr
        mcFilterType := msg.getD vfMcTypeWord 0#32 }
      pure 0

/-- `ixgbe_reset_hw_vf`. -/
def resetHwVf : VfM D ℤ := do
  let v ← get
  talk (stopAdapterVf V v.maxTxQueues.toNat v.maxRxQueues.toNat)
  modify fun v => { v with
    apiVersion := .api10
    port := { v.port with mbx := v.port.mbx.initParamsVf } }
  resetDeviceVf V

/-- `ixgbe_init_hw_vf`. -/
def initHwVf : VfM D Unit := modify fun v => { v with addr := v.permAddr }

/-! ### Negotiation -/

/-- `api[]` of `ixgbevf_negotiate_api`. -/
def apiVersions : List ApiVersion := [.api17, .api16, .api15, .api13, .api12, .api11, .api10]

/-- The loop of `ixgbevf_negotiate_api`. -/
def negotiateVersions : List ApiVersion → VfM D Unit
  | [] => pure ()
  | api :: apis => do
    let err ← negotiateApiVersion V api
    if err = 0 then pure () else negotiateVersions apis

/-- `ixgbevf_set_features`. -/
def setFeatures : VfM D Unit := do
  let _ ← negotiateFeaturesVf V
  modify fun v =>
    if v.apiVersion = .api14 then { v with pfFeatures := v.pfFeatures ||| pfSupIpsec }
    else if v.apiVersion = .api15 then { v with pfFeatures := v.pfFeatures ||| pfSupEsxMbx }
    else v

/-- `ixgbevf_negotiate_api`. -/
def negotiateApi : VfM D Unit := do
  negotiateVersions V apiVersions
  setFeatures V
  modify fun v =>
    if hasBit v.pfFeatures pfSupEsxMbx then
      { v with port := { v.port with mbx := v.port.mbx.upgradeParamsVf } }
    else v

/-- `ixgbevf_reset` up to the negotiation, which it leads to or not. -/
def resetToNegotiation (removing : Bool) : VfM D Bool := do
  let v ← get
  if v.port.removed ∨ removing then
    pure false
  else do
    let err ← resetHwVf V
    if err ≠ 0 then
      pure false
    else do
      initHwVf
      pure true

/-- `ixgbevf_reset`, while `__IXGBEVF_REMOVING` is as it says. -/
def ixgbevfReset (removing : Bool) : VfM D Unit := do
  let negotiates ← resetToNegotiation V removing
  if negotiates then negotiateApi V else pure ()

end Ixgbevf
