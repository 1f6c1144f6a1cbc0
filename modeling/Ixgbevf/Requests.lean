import Ixgbevf.Link

/-!
# The requests of the VF

The operations by which the VF asks the PF for something over the mailbox: each sends a
message, waits for a reply and decides by its first word whether the request was granted.
-/

namespace Ixgbevf

open StateProgram

/-! ### Constants -/

/-- `IXGBE_VF_SET_MAC_ADDR`. -/
def vfSetMacAddr : BitVec 32 := 0x02#32

/-- `IXGBE_VF_SET_MULTICAST`. -/
def vfSetMulticast : BitVec 32 := 0x03#32

/-- `IXGBE_VF_SET_VLAN`. -/
def vfSetVlan : BitVec 32 := 0x04#32

/-- `IXGBE_VF_SET_LPE`. -/
def vfSetLpe : BitVec 32 := 0x05#32

/-- `IXGBE_VF_SET_MACVLAN`. -/
def vfSetMacvlan : BitVec 32 := 0x06#32

/-- `IXGBE_VF_API_NEGOTIATE`. -/
def vfApiNegotiate : BitVec 32 := 0x08#32

/-- `IXGBE_VF_GET_QUEUES`. -/
def vfGetQueues : BitVec 32 := 0x09#32

/-- `IXGBE_VF_GET_RETA`. -/
def vfGetReta : BitVec 32 := 0x0a#32

/-- `IXGBE_VF_GET_RSS_KEY`. -/
def vfGetRssKey : BitVec 32 := 0x0b#32

/-- `IXGBE_VF_UPDATE_XCAST_MODE`. -/
def vfUpdateXcastMode : BitVec 32 := 0x0c#32

/-- `IXGBE_VF_GET_LINK_STATE`. -/
def vfGetLinkState : BitVec 32 := 0x10#32

/-- `IXGBE_VF_FEATURES_NEGOTIATE`. -/
def vfFeaturesNegotiate : BitVec 32 := 0x12#32

/-- `IXGBE_VT_MSGINFO_SHIFT`. -/
def msginfoShift : ℕ := 16

/-- `IXGBE_VT_MSGINFO_MASK`. -/
def msginfoMask : BitVec 32 := 0x00FF0000#32

/-- `IXGBEVF_SUPPORTED_FEATURES`. -/
def supportedFeatures : BitVec 32 := 0x2#32

/-- `IXGBE_VF_MAX_TX_QUEUES` and `IXGBE_VF_MAX_RX_QUEUES`. -/
def vfMaxQueues : BitVec 32 := 8#32

/-- `IXGBEVF_82599_RETA_SIZE`. -/
def retaSize : ℕ := 128

/-- `IXGBEVF_RSS_HASH_KEY_SIZE`. -/
def rssHashKeySize : ℕ := 40

/-- `IXGBE_ERR_INVALID_ARGUMENT`. -/
def errInvalidArgument : ℤ := -32

/-- `IXGBE_ERR_OUT_OF_MEM`. -/
def errOutOfMem : ℤ := -34

/-- `-EPERM`. -/
def errPerm : ℤ := -1

/-- `-EOPNOTSUPP`. -/
def errOpnotsupp : ℤ := -95

/-! ### State -/

/-- An Ethernet address. -/
abbrev MacAddr := Vector (BitVec 8) 6

/-- `enum ixgbevf_xcast_modes`. -/
inductive XcastMode where
  | none
  | multi
  | allmulti
  | promisc
  deriving DecidableEq, Repr

/-- The numeric value of a mode. -/
def XcastMode.value : XcastMode → ℕ
  | none => 0
  | multi => 1
  | allmulti => 2
  | promisc => 3

/-- The part of `struct ixgbe_hw` that the requests use, and the variables of their callers
that they write. -/
structure Vf (D : Type) where
  /-- The way to the device. -/
  port : Port D
  /-- `mac.type`. -/
  macType : MacType
  /-- `api_version`. -/
  apiVersion : ApiVersion
  /-- `mac.addr`. -/
  addr : MacAddr
  /-- `mac.perm_addr`. -/
  permAddr : MacAddr
  /-- `mac.mc_filter_type`. -/
  mcFilterType : BitVec 32
  /-- `mac.max_tx_queues`. -/
  maxTxQueues : BitVec 32
  /-- `mac.max_rx_queues`. -/
  maxRxQueues : BitVec 32
  /-- `*link_state`. -/
  linkState : Bool
  /-- `*speed`. -/
  speed : BitVec 32
  /-- `*link_up`. -/
  linkUp : Bool
  /-- `*pf_features`. -/
  pfFeatures : BitVec 32
  /-- `*num_tcs`. -/
  numTcs : BitVec 32
  /-- `*default_tc`. -/
  defaultTc : BitVec 32
  /-- `reta`. -/
  reta : List (BitVec 32)
  /-- `rss_key`. -/
  rssKey : List (BitVec 8)

/-- Programs that act on the VF. -/
abbrev VfM (D : Type) := StateM (Vf D)

variable {D : Type} (V : Device D)

/-- A program of the mailbox layer, from the VF. -/
def talk {α : Type} (m : PortM D α) : VfM D α :=
  modifyGet fun v => ((m.run v.port).1, { v with port := (m.run v.port).2 })

/-- The first word of a message without the bit for clear to send. -/
def replyWord (msg : List (BitVec 32)) : BitVec 32 := msg.getD 0 0#32 &&& ~~~ msgtypeCts

/-! ### Filters -/

/-- The two words into which an address is copied. -/
def addrWords (addr : MacAddr) : List (BitVec 32) :=
  [addr[0].setWidth 32 ||| addr[1].setWidth 32 <<< 8 ||| addr[2].setWidth 32 <<< 16
      ||| addr[3].setWidth 32 <<< 24,
    addr[4].setWidth 32 ||| addr[5].setWidth 32 <<< 8]

/-- `ixgbe_set_rar_vf`, which returns to `perm_addr` through `ixgbe_get_mac_addr_vf`. -/
def setRarVf (addr : MacAddr) : VfM D ℤ := do
  let (err, msg) ← talk (writeMsgReadAck V (vfSetMacAddr :: addrWords addr) 3)
  if err = 0 ∧ replyWord msg = vfSetMacAddr ||| msgtypeFailure then do
    modify fun v => { v with addr := v.permAddr }
    pure errMbx
  else
    pure err

/-- The first word of the request of `ixgbevf_set_uc_addr_vf`. -/
def macvlanWord (index : BitVec 32) : BitVec 32 := index <<< msginfoShift ||| vfSetMacvlan

/-- `ixgbevf_set_uc_addr_vf`. -/
def setUcAddrVf (index : BitVec 32) (addr : Option MacAddr) : VfM D ℤ := do
  let words := (addr.map addrWords).getD [0#32, 0#32]
  let (err, msg) ← talk (writeMsgReadAck V (macvlanWord index :: words) 3)
  if err = 0 ∧ replyWord msg = macvlanWord index ||| msgtypeFailure then
    pure errOutOfMem
  else
    pure err

/-- `ixgbe_mta_vector`. -/
def mtaVector (mcFilterType : BitVec 32) (addr : MacAddr) : BitVec 32 :=
  let low := addr[4].setWidth 32
  let high := addr[5].setWidth 32
  let vector :=
    if mcFilterType = 0#32 then low >>> 4 ||| high <<< 4
    else if mcFilterType = 1#32 then low >>> 3 ||| high <<< 5
    else if mcFilterType = 2#32 then low >>> 2 ||| high <<< 6
    else if mcFilterType = 3#32 then low ||| high <<< 8
    else 0#32
  vector &&& 0xFFF#32

/-- Write entry `i` of `vector_list`, which takes half of a word. -/
def setVector (msg : List (BitVec 32)) (i : ℕ) (vector : BitVec 32) : List (BitVec 32) :=
  msg.modify (i / 2) fun word =>
    if i % 2 = 0 then word &&& 0xFFFF0000#32 ||| vector &&& 0xFFFF#32
    else word &&& 0xFFFF#32 ||| vector <<< 16

/-- The loop of `ixgbe_update_mc_addr_list_vf` over `vector_list`, from entry `i` on. -/
def fillVectors (mcFilterType : BitVec 32) :
    (i : ℕ) → List MacAddr → List (BitVec 32) → List (BitVec 32)
  | _, [], words => words
  | i, addr :: addrs, words =>
    fillVectors mcFilterType (i + 1) addrs (setVector words i (mtaVector mcFilterType addr))

/-- The message of `ixgbe_update_mc_addr_list_vf`, where `stack` are the words that the buffer
holds from before. -/
def multicastWords (mcFilterType : BitVec 32) (addrs : List MacAddr) (stack : List (BitVec 32)) :
    List (BitVec 32) :=
  let cnt := min addrs.length 30
  (vfSetMulticast ||| BitVec.ofNat 32 cnt <<< msginfoShift) ::
    fillVectors mcFilterType 0 (addrs.take cnt) stack

/-- `ixgbe_update_mc_addr_list_vf` for the addresses in the order of `next`. -/
def updateMcAddrListVf (addrs : List MacAddr) (stack : List (BitVec 32)) : VfM D ℤ := do
  let v ← get
  let (err, _) ← talk (writeMsgReadAck V (multicastWords v.mcFilterType addrs stack) 16)
  pure err

/-- The switch of `ixgbevf_update_xcast_mode`. -/
def xcastAllowed (api : ApiVersion) (mode : XcastMode) : Bool :=
  match api with
  | .api12 => mode.value ≤ XcastMode.allmulti.value
  | .api13 | .api15 | .api16 | .api17 => true
  | _ => false

/-- `ixgbevf_update_xcast_mode`. -/
def updateXcastMode (mode : XcastMode) : VfM D ℤ := do
  let v ← get
  if xcastAllowed v.apiVersion mode then do
    let (err, msg) ← talk
      (writeMsgReadAck V [vfUpdateXcastMode, BitVec.ofNat 32 mode.value] 2)
    if err ≠ 0 then
      pure err
    else if replyWord msg = vfUpdateXcastMode ||| msgtypeFailure then
      pure errFeatureNotSupported
    else
      pure 0
  else
    pure errFeatureNotSupported

/-- The first word of the request of `ixgbe_set_vfta_vf`. -/
def vlanWord (vlanOn : Bool) : BitVec 32 :=
  vfSetVlan ||| (if vlanOn then 1#32 else 0#32) <<< msginfoShift

/-- `ixgbe_set_vfta_vf`. -/
def setVftaVf (vlan : BitVec 32) (vlanOn : Bool) : VfM D ℤ := do
  let (err, msg) ← talk (writeMsgReadAck V [vlanWord vlanOn, vlan] 2)
  let word := msg.getD 0 0#32
  if err = 0 ∧ hasBit word msgtypeSuccess then
    pure 0
  else
    pure (BitVec.ofInt 32 err ||| word &&& msgtypeFailure).toInt

/-- `ixgbevf_rlpml_set_vf`. -/
def rlpmlSetVf (maxSize : BitVec 16) : VfM D ℤ := do
  let (err, msg) ← talk (writeMsgReadAck V [vfSetLpe, maxSize.setWidth 32] 2)
  let word := msg.getD 0 0#32
  if err ≠ 0 then
    pure err
  else if hasBit word vfSetLpe ∧ hasBit word msgtypeFailure then
    pure errMbx
  else
    pure 0

/-! ### Queries -/

/-- `ixgbe_get_link_state_vf`. -/
def getLinkStateVf : VfM D ℤ := do
  let (err, msg) ← talk (writeMsgReadAck V [vfGetLinkState, 0#32] 2)
  if err ≠ 0 ∨ hasBit (msg.getD 0 0#32) msgtypeFailure then
    pure errMbx
  else do
    modify fun v => { v with linkState := msg.getD 1 0#32 != 0#32 }
    pure 0

/-- `ixgbevf_get_pf_link_state`, into `*speed` and `*link_up`. -/
def getPfLinkStateVf : VfM D ℤ := do
  let v ← get
  let (err, speed, linkUp) ← talk (getPfLinkState V v.apiVersion v.speed v.linkUp)
  modify fun v => { v with speed := speed, linkUp := linkUp }
  pure err

/-- `ixgbevf_negotiate_features_vf`. -/
def negotiateFeaturesVf : VfM D ℤ := do
  let v ← get
  if v.apiVersion = .api17 then do
    let (err, msg) ← talk (writeMsgReadAck V [vfFeaturesNegotiate, supportedFeatures] 2)
    if err ≠ 0 ∨ hasBit (msg.getD 0 0#32) msgtypeFailure then do
      modify fun v => { v with pfFeatures := 0#32 }
      pure errMbx
    else do
      modify fun v => { v with pfFeatures := msg.getD 1 0#32 }
      pure 0
  else
    pure errFeatureNotSupported

/-- `ixgbevf_negotiate_api_version`. -/
def negotiateApiVersion (api : ApiVersion) : VfM D ℤ := do
  let (err, msg) ← talk
    (writeMsgReadAck V [vfApiNegotiate, BitVec.ofNat 32 api.value, 0#32] 3)
  if err ≠ 0 then
    pure err
  else if replyWord msg = vfApiNegotiate ||| msgtypeSuccess then do
    modify fun v => { v with apiVersion := api }
    pure 0
  else
    pure errInvalidArgument

/-- A number of queues from the PF, which is replaced where it makes no sense. -/
def validQueues (n : BitVec 32) : BitVec 32 :=
  if n = 0#32 ∨ vfMaxQueues < n then vfMaxQueues else n

/-- The values that `ixgbevf_get_queues` records from a reply. -/
def recordQueues (msg : List (BitVec 32)) (v : Vf D) : Vf D :=
  let tx := validQueues (msg.getD 1 0#32)
  let rx := validQueues (msg.getD 2 0#32)
  let tcs := msg.getD 3 0#32
  let tc := msg.getD 4 0#32
  { v with
    maxTxQueues := tx
    maxRxQueues := rx
    numTcs := if rx < tcs then 1#32 else tcs
    defaultTc := if tx ≤ tc then 0#32 else tc }

/-- The API versions of the switch in `ixgbevf_get_queues`. -/
def ApiVersion.hasQueues (api : ApiVersion) : Bool :=
  match api with
  | .api11 | .api12 | .api13 | .api15 | .api16 | .api17 => true
  | _ => false

/-- `ixgbevf_get_queues`. -/
def getQueues : VfM D ℤ := do
  let v ← get
  if v.apiVersion.hasQueues then do
    let (err, msg) ← talk (writeMsgReadAck V [vfGetQueues, 0#32, 0#32, 0#32, 0#32] 5)
    if err ≠ 0 then
      pure err
    else if replyWord msg ≠ vfGetQueues ||| msgtypeSuccess then
      pure errMbx
    else do
      modify (recordQueues msg)
      pure 0
  else
    pure 0

/-- The switches of `ixgbevf_get_reta_locked` and `ixgbevf_get_rss_key_locked`. -/
def Vf.hasRssQuery (v : Vf D) : Bool :=
  match v.apiVersion with
  | .api17 | .api16 | .api15 | .api13 | .api12 => v.macType.value < MacType.macX550Vf.value
  | _ => false

/-- The request of a query for the RSS configuration, of one word, and its reply of `size`
words. -/
def rssExchange (msg : List (BitVec 32)) (size : ℕ) : PortM D (ℤ × List (BitVec 32)) := do
  let err ← writeMbx V msg 1
  if err ≠ 0 then pure (err, msg) else pollMbx V msg size

/-- The body of `ixgbevf_get_reta_locked` and `ixgbevf_get_rss_key_locked`: a request `op`
whose reply has `size` words and is recorded by `record`. -/
def rssQuery (op : BitVec 32) (size : ℕ) (stack : List (BitVec 32))
    (record : List (BitVec 32) → Vf D → Vf D) : VfM D ℤ := do
  let v ← get
  if v.hasRssQuery then do
    let (err, msg) ← talk (rssExchange V (op :: stack) size)
    if err ≠ 0 then
      pure err
    else if replyWord msg = op ||| msgtypeFailure then
      pure errPerm
    else if replyWord msg ≠ op ||| msgtypeSuccess then
      pure errMbx
    else do
      modify (record msg)
      pure 0
  else
    pure errOpnotsupp

/-- The loops of `ixgbevf_get_reta_locked` over a reply. -/
def recordReta (numRxQueues : ℤ) (msg : List (BitVec 32)) (v : Vf D) : Vf D :=
  let mask := if numRxQueues > 1 then 1#32 else 0#32
  { v with
    reta := (List.range retaSize).map fun k =>
      (msg.getD (1 + k / 16) 0#32 >>> (2 * (k % 16))) &&& mask }

/-- `ixgbevf_get_reta_locked`, where `stack` are the words that the buffer holds from before. -/
def getRetaLocked (numRxQueues : ℤ) (stack : List (BitVec 32)) : VfM D ℤ :=
  rssQuery V vfGetReta (retaSize / 16 + 1) stack (recordReta numRxQueues)

/-- The copy of the key at the end of `ixgbevf_get_rss_key_locked`. -/
def recordRssKey (msg : List (BitVec 32)) (v : Vf D) : Vf D :=
  { v with
    rssKey := (List.range rssHashKeySize).map fun k =>
      (msg.getD (1 + k / 4) 0#32 >>> (8 * (k % 4))).setWidth 8 }

/-- `ixgbevf_get_rss_key_locked`, where `stack` are the words that the buffer holds from
before. -/
def getRssKeyLocked (stack : List (BitVec 32)) : VfM D ℤ :=
  rssQuery V vfGetRssKey 11 stack recordRssKey

end Ixgbevf
