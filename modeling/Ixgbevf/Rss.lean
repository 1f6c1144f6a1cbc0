import Ixgbevf.Interface.Teardown
import Ixgbevf.Lib.Bits

/-!
# The fields that are hashed

Which fields of a UDP packet the hardware hashes is kept in `adapter->flags` and in the register
`VFMRQC`.  `ixgbevf_set_rss_hash_opt` writes both, and `ixgbevf_setup_vfmrqc` the register alone.
-/

namespace Ixgbevf.Rss

open Interface (Call Effect Adapter Enabled)

/-! ### Requests -/

/-- `RXH_IP_SRC`. -/
def rxhIpSrc : BitVec 64 := 0x10

/-- `RXH_IP_DST`. -/
def rxhIpDst : BitVec 64 := 0x20

/-- `RXH_L4_B_0_1`. -/
def rxhL4B01 : BitVec 64 := 0x40

/-- `RXH_L4_B_2_3`. -/
def rxhL4B23 : BitVec 64 := 0x80

/-- `flow_type` of a `struct ethtool_rxnfc`. -/
inductive FlowType where
  | tcpV4
  | udpV4
  | sctpV4
  | ahEspV4
  | ahV4
  | espV4
  | ipV4
  | tcpV6
  | udpV6
  | sctpV6
  | ahEspV6
  | ahV6
  | espV6
  | ipV6
  | other
  deriving DecidableEq, Repr

/-- The part of a `struct ethtool_rxnfc` that the driver reads. -/
structure Rxnfc where
  /-- `flow_type`. -/
  flowType : FlowType
  /-- `data`. -/
  data : BitVec 64

/-- The errors of the driver. -/
inductive Errno where
  /-- `EOPNOTSUPP` -/
  | opnotsupp
  /-- `EINVAL` -/
  | inval
  deriving DecidableEq, Repr

/-! ### The flags and the register -/

/-- `IXGBEVF_FLAG_RSS_FIELD_IPV4_UDP`. -/
def flagRssFieldIpv4Udp : BitVec 32 := 0x10

/-- `IXGBEVF_FLAG_RSS_FIELD_IPV6_UDP`. -/
def flagRssFieldIpv6Udp : BitVec 32 := 0x20

/-- `UDP_RSS_FLAGS`. -/
def udpRssFlags : BitVec 32 := flagRssFieldIpv4Udp ||| flagRssFieldIpv6Udp

/-- `IXGBE_MRQC_RSSEN`. -/
def mrqcRssen : BitVec 32 := 0x00000001

/-- `IXGBE_MRQC_RSS_FIELD_IPV4_TCP`. -/
def mrqcRssFieldIpv4Tcp : BitVec 32 := 0x00010000

/-- `IXGBE_MRQC_RSS_FIELD_IPV4`. -/
def mrqcRssFieldIpv4 : BitVec 32 := 0x00020000

/-- `IXGBE_MRQC_RSS_FIELD_IPV6`. -/
def mrqcRssFieldIpv6 : BitVec 32 := 0x00100000

/-- `IXGBE_MRQC_RSS_FIELD_IPV6_TCP`. -/
def mrqcRssFieldIpv6Tcp : BitVec 32 := 0x00200000

/-- `IXGBE_MRQC_RSS_FIELD_IPV4_UDP`. -/
def mrqcRssFieldIpv4Udp : BitVec 32 := 0x00400000

/-- `IXGBE_MRQC_RSS_FIELD_IPV6_UDP`. -/
def mrqcRssFieldIpv6Udp : BitVec 32 := 0x00800000

/-- The packet types that are always hashed. -/
def hashTypes : BitVec 32 :=
  mrqcRssFieldIpv4 ||| mrqcRssFieldIpv4Tcp ||| mrqcRssFieldIpv6 ||| mrqcRssFieldIpv6Tcp

/-- The interface with all its effects, the flags and the register. -/
structure State where
  /-- The interface. -/
  interface : Call
  /-- `adapter->flags`. -/
  flags : BitVec 32
  /-- The register `VFMRQC`. -/
  vfmrqc : BitVec 32

/-- The value that `ixgbevf_setup_vfmrqc` writes. -/
def setupVfmrqc : BitVec 32 := (0 ||| hashTypes) ||| mrqcRssen

/-- A flow of UDP in `ixgbevf_set_rss_hash_opt`, where `flag` is the flag of its ports. -/
def udpFlags (flag : BitVec 32) (data : BitVec 64) (flags : BitVec 32) :
    Except Errno (BitVec 32) :=
  if data &&& rxhIpSrc = 0 ∨ data &&& rxhIpDst = 0 then
    .error .inval
  else if data &&& (rxhL4B01 ||| rxhL4B23) = 0 then
    .ok (flags &&& ~~~flag)
  else if data &&& (rxhL4B01 ||| rxhL4B23) = rxhL4B01 ||| rxhL4B23 then
    .ok (flags ||| flag)
  else
    .error .inval

/-- A flow in `ixgbevf_set_rss_hash_opt` that is always hashed over addresses and ports. -/
def portFlags (data : BitVec 64) (flags : BitVec 32) : Except Errno (BitVec 32) :=
  if data &&& rxhIpSrc = 0 ∨ data &&& rxhIpDst = 0 ∨ data &&& rxhL4B01 = 0
      ∨ data &&& rxhL4B23 = 0 then
    .error .inval
  else
    .ok flags

/-- A flow in `ixgbevf_set_rss_hash_opt` that is always hashed over addresses. -/
def addressFlags (data : BitVec 64) (flags : BitVec 32) : Except Errno (BitVec 32) :=
  if data &&& rxhIpSrc = 0 ∨ data &&& rxhIpDst = 0 ∨ data &&& rxhL4B01 ≠ 0
      ∨ data &&& rxhL4B23 ≠ 0 then
    .error .inval
  else
    .ok flags

/-- The `switch` of `ixgbevf_set_rss_hash_opt`. -/
def newFlags (nfc : Rxnfc) (flags : BitVec 32) : Except Errno (BitVec 32) :=
  match nfc.flowType with
  | .tcpV4 | .tcpV6 => portFlags nfc.data flags
  | .udpV4 => udpFlags flagRssFieldIpv4Udp nfc.data flags
  | .udpV6 => udpFlags flagRssFieldIpv6Udp nfc.data flags
  | .ahEspV4 | .ahV4 | .espV4 | .sctpV4 | .ahEspV6 | .ahV6 | .espV6 | .sctpV6 =>
    addressFlags nfc.data flags
  | .ipV4 | .ipV6 | .other => .error .inval

/-- The value that `ixgbevf_set_rss_hash_opt` writes for new flags. -/
def hashOptVfmrqc (flags vfmrqc : BitVec 32) : BitVec 32 :=
  let vfmrqc := vfmrqc ||| hashTypes
  let vfmrqc := vfmrqc &&& ~~~(mrqcRssFieldIpv4Udp ||| mrqcRssFieldIpv6Udp)
  let vfmrqc :=
    if flags &&& flagRssFieldIpv4Udp ≠ 0 then vfmrqc ||| mrqcRssFieldIpv4Udp else vfmrqc
  if flags &&& flagRssFieldIpv6Udp ≠ 0 then vfmrqc ||| mrqcRssFieldIpv6Udp else vfmrqc

/-- `ixgbevf_set_rss_hash_opt`. -/
def setRssHashOpt (mac : MacType) (nfc : Rxnfc) (s : State) : Except Errno State :=
  if mac.value < MacType.macX550.value then
    .error .opnotsupp
  else if nfc.data &&& ~~~(rxhIpSrc ||| rxhIpDst ||| rxhL4B01 ||| rxhL4B23) ≠ 0 then
    .error .inval
  else
    match newFlags nfc s.flags with
    | .error e => .error e
    | .ok flags =>
      if flags = s.flags then
        .ok s
      else
        match s.interface.readReg with
        | (interface, true) => .ok {
            interface := interface
            flags := flags
            vfmrqc := hashOptVfmrqc flags s.vfmrqc }
        | (interface, false) => .ok { s with interface := interface, flags := flags }

/-- `ixgbevf_get_rss_hash_opts`. -/
def getRssHashOpts (flags : BitVec 32) : FlowType → Except Errno (BitVec 64)
  | .tcpV4 => .ok (rxhL4B01 ||| rxhL4B23
      ||| (if flags &&& flagRssFieldIpv4Udp ≠ 0 then rxhL4B01 ||| rxhL4B23 else 0)
      ||| (rxhIpSrc ||| rxhIpDst))
  | .udpV4 => .ok ((if flags &&& flagRssFieldIpv4Udp ≠ 0 then rxhL4B01 ||| rxhL4B23 else 0)
      ||| (rxhIpSrc ||| rxhIpDst))
  | .sctpV4 | .ahEspV4 | .ahV4 | .espV4 | .ipV4 => .ok (rxhIpSrc ||| rxhIpDst)
  | .tcpV6 => .ok (rxhL4B01 ||| rxhL4B23
      ||| (if flags &&& flagRssFieldIpv6Udp ≠ 0 then rxhL4B01 ||| rxhL4B23 else 0)
      ||| (rxhIpSrc ||| rxhIpDst))
  | .udpV6 => .ok ((if flags &&& flagRssFieldIpv6Udp ≠ 0 then rxhL4B01 ||| rxhL4B23 else 0)
      ||| (rxhIpSrc ||| rxhIpDst))
  | .sctpV6 | .ahEspV6 | .ahV6 | .espV6 | .ipV6 => .ok (rxhIpSrc ||| rxhIpDst)
  | .other => .error .inval

/-! ### The hardware -/

/-- The fields that are hashed when `ip` enables the addresses and `ports` also the ports. -/
def hashFieldsOf (ports ip vfmrqc : BitVec 32) : BitVec 64 :=
  if vfmrqc &&& ports ≠ 0 then
    rxhIpSrc ||| rxhIpDst ||| rxhL4B01 ||| rxhL4B23
  else if vfmrqc &&& ip ≠ 0 then
    rxhIpSrc ||| rxhIpDst
  else
    0

/-- The fields of a flow that the hardware hashes. -/
def hashFields (vfmrqc : BitVec 32) : FlowType → BitVec 64
  | .tcpV4 => hashFieldsOf mrqcRssFieldIpv4Tcp mrqcRssFieldIpv4 vfmrqc
  | .udpV4 => hashFieldsOf mrqcRssFieldIpv4Udp mrqcRssFieldIpv4 vfmrqc
  | .sctpV4 | .ahEspV4 | .ahV4 | .espV4 | .ipV4 => hashFieldsOf 0 mrqcRssFieldIpv4 vfmrqc
  | .tcpV6 => hashFieldsOf mrqcRssFieldIpv6Tcp mrqcRssFieldIpv6 vfmrqc
  | .udpV6 => hashFieldsOf mrqcRssFieldIpv6Udp mrqcRssFieldIpv6 vfmrqc
  | .sctpV6 | .ahEspV6 | .ahV6 | .espV6 | .ipV6 => hashFieldsOf 0 mrqcRssFieldIpv6 vfmrqc
  | .other => 0

/-- The register after an effect of the interface, where a reset leaves `cleared` in it. -/
def vfmrqcNext (mac : MacType) (cleared vfmrqc : BitVec 32) : Effect → BitVec 32
  | .reset => cleared
  | .hash => if MacType.macX550Vf.value ≤ mac.value then setupVfmrqc else vfmrqc
  | _ => vfmrqc

/-! ### Runs -/

/-- What happens. -/
inductive Event where
  /-- an event of the interface -/
  | interface (e : Interface.Event)
  /-- `ixgbevf_set_rss_hash_opt` -/
  | setHashOpt (nfc : Rxnfc)
  /-- another flag changes -/
  | setFlags (flags : BitVec 32)

/-- The interface and its hash from the successful end of `ixgbevf_probe` on. -/
def system (K : KernelConfig) (mac : MacType) (cleared : BitVec 32) : TransSystem State Event where
  init s := (Interface.system K).init s.interface ∧ s.flags &&& udpRssFlags = 0
  step s e s' :=
    match e with
    | .interface e => Enabled s.interface.adapter e
      ∧ ∃ c, Interface.apply K { adapter := s.interface.adapter, effects := [] } e = some c
        ∧ s' = {
          interface := { adapter := c.adapter, effects := s.interface.effects ++ c.effects }
          flags := s.flags
          vfmrqc := c.effects.foldl (vfmrqcNext mac cleared) s.vfmrqc }
    | .setHashOpt nfc => setRssHashOpt mac nfc s = .ok s'
      ∨ ∃ e, setRssHashOpt mac nfc s = .error e ∧ s' = s
    | .setFlags flags => flags &&& udpRssFlags = s.flags &&& udpRssFlags
      ∧ s' = { s with flags := flags }

/-- The interface is up, and its device has not been found removed. -/
structure State.Running (s : State) : Prop where
  /-- It is up. -/
  up : s.interface.adapter.down = false
  /-- The registers are mapped. -/
  hwAddr : s.interface.adapter.hwAddr = true

/-! ### The register and the flags agree -/

/-- The register is programmed as the flags say. -/
structure Programmed (flags vfmrqc : BitVec 32) : Prop where
  /-- UDP over IPv4. -/
  ipv4Udp : vfmrqc &&& mrqcRssFieldIpv4Udp ≠ 0 ↔ flags &&& flagRssFieldIpv4Udp ≠ 0
  /-- UDP over IPv6. -/
  ipv6Udp : vfmrqc &&& mrqcRssFieldIpv6Udp ≠ 0 ↔ flags &&& flagRssFieldIpv6Udp ≠ 0
  /-- The other packet types. -/
  types : vfmrqc &&& hashTypes = hashTypes

/-- What `ixgbevf_setup_vfmrqc` writes suits flags that are clear. -/
theorem setupVfmrqc_programmed {flags : BitVec 32} (h : flags &&& udpRssFlags = 0) :
  Programmed flags setupVfmrqc
  := by
  have h₄ : flags &&& flagRssFieldIpv4Udp = 0 := Bits.and_eq_zero_of_mask h (by decide)
  have h₆ : flags &&& flagRssFieldIpv6Udp = 0 := Bits.and_eq_zero_of_mask h (by decide)
  constructor
  · rw [h₄]
    decide
  · rw [h₆]
    decide
  · decide

/-- What `ixgbevf_set_rss_hash_opt` writes suits the new flags. -/
theorem hashOptVfmrqc_programmed (flags vfmrqc : BitVec 32) :
  Programmed flags (hashOptVfmrqc flags vfmrqc)
  := by
  obtain ⟨x, hx⟩ : ∃ x, x = vfmrqc ||| hashTypes := ⟨_, rfl⟩
  obtain ⟨v, hv⟩ : ∃ v, v = if flags &&& flagRssFieldIpv4Udp ≠ 0 then mrqcRssFieldIpv4Udp
    else 0#32 := ⟨_, rfl⟩
  obtain ⟨w, hw⟩ : ∃ w, w = if flags &&& flagRssFieldIpv6Udp ≠ 0 then mrqcRssFieldIpv6Udp
    else 0#32 := ⟨_, rfl⟩
  have hvalue : hashOptVfmrqc flags vfmrqc
      = ((x &&& ~~~(mrqcRssFieldIpv4Udp ||| mrqcRssFieldIpv6Udp)) ||| v) ||| w := by
    rw [hx, hv, hw, hashOptVfmrqc]
    split <;> split <;> simp
  have hvw : v &&& mrqcRssFieldIpv6Udp = 0 ∧ w &&& mrqcRssFieldIpv4Udp = 0
      ∧ v &&& hashTypes = 0 ∧ w &&& hashTypes = 0 := by
    rw [hv, hw]
    split <;> split <;> decide
  obtain ⟨hv₆, hw₄, hvt, hwt⟩ := hvw
  constructor
  · rw [hvalue, Bits.field_update x v (by decide) hw₄, hv]
    split
    next h => exact ⟨fun _ => h, fun _ => by decide⟩
    next h => exact ⟨fun hno => absurd (by decide) hno, fun hyes => absurd hyes h⟩
  · rw [hvalue, BitVec.or_assoc, BitVec.or_comm v w, ← BitVec.or_assoc,
      Bits.field_update x w (by decide) hv₆, hw]
    split
    next h => exact ⟨fun _ => h, fun _ => by decide⟩
    next h => exact ⟨fun hno => absurd (by decide) hno, fun hyes => absurd hyes h⟩
  · rw [hvalue]
    apply Bits.or_keeps
    apply Bits.or_keeps
    have hcleared : ~~~(mrqcRssFieldIpv4Udp ||| mrqcRssFieldIpv6Udp) &&& hashTypes = hashTypes := by
      decide
    rw [BitVec.and_assoc, hcleared, hx, BitVec.or_comm]
    apply Bits.or_keeps
    exact BitVec.and_self

section Requests

variable {flags vfmrqc : BitVec 32} {flow : FlowType}

/-- A packet type that is always hashed. -/
theorem Programmed.type (h : Programmed flags vfmrqc) {f : BitVec 32} (hf : hashTypes &&& f = f) :
  vfmrqc &&& f = f
  := Bits.and_eq_of_mask h.types hf

/-- A flow of TCP is hashed over addresses and ports. -/
theorem hashFieldsOf_ports {ports ip : BitVec 32} (hports : vfmrqc &&& ports ≠ 0) :
  hashFieldsOf ports ip vfmrqc = rxhIpSrc ||| rxhIpDst ||| rxhL4B01 ||| rxhL4B23
  := if_pos hports

/-- Without the ports a flow is hashed over addresses. -/
theorem hashFieldsOf_ip {ports ip : BitVec 32} (hports : vfmrqc &&& ports = 0)
    (hip : vfmrqc &&& ip ≠ 0) :
  hashFieldsOf ports ip vfmrqc = rxhIpSrc ||| rxhIpDst
  := by rw [hashFieldsOf, hports, if_neg (by simp), if_pos hip]

/-- A flow that is hashed over addresses and ports where `flag` is set, and over addresses
elsewhere. -/
theorem hashFieldsOf_flag {ports ip flag : BitVec 32}
    (h : vfmrqc &&& ports ≠ 0 ↔ flags &&& flag ≠ 0) (hip : vfmrqc &&& ip ≠ 0) :
  hashFieldsOf ports ip vfmrqc = (if flags &&& flag ≠ 0 then rxhL4B01 ||| rxhL4B23 else 0)
    ||| (rxhIpSrc ||| rxhIpDst)
  := by
  by_cases hflag : flags &&& flag ≠ 0
  · rw [hashFieldsOf_ports (h.mpr hflag), if_pos hflag]
    rfl
  · have hports : vfmrqc &&& ports = 0 := not_not.mp (h.not.mpr hflag)
    rw [hashFieldsOf_ip hports hip, if_neg hflag]
    rfl

/-- What is reported is what the hardware hashes. -/
theorem getRssHashOpts_hashFields (h : Programmed flags vfmrqc) {data : BitVec 64}
    (hget : getRssHashOpts flags flow = .ok data) :
  hashFields vfmrqc flow = data
  := by
  have hip₄ : vfmrqc &&& mrqcRssFieldIpv4 ≠ 0 := by
    rw [h.type (by decide)]
    decide
  have hip₆ : vfmrqc &&& mrqcRssFieldIpv6 ≠ 0 := by
    rw [h.type (by decide)]
    decide
  have htcp₄ : vfmrqc &&& mrqcRssFieldIpv4Tcp ≠ 0 := by
    rw [h.type (by decide)]
    decide
  have htcp₆ : vfmrqc &&& mrqcRssFieldIpv6Tcp ≠ 0 := by
    rw [h.type (by decide)]
    decide
  have hnone : vfmrqc &&& 0 = 0 := BitVec.and_zero
  cases flow with
  | tcpV4 =>
    cases hget
    rw [hashFields, hashFieldsOf_ports htcp₄]
    split <;> rfl
  | tcpV6 =>
    cases hget
    rw [hashFields, hashFieldsOf_ports htcp₆]
    split <;> rfl
  | udpV4 =>
    cases hget
    exact hashFieldsOf_flag h.ipv4Udp hip₄
  | udpV6 =>
    cases hget
    exact hashFieldsOf_flag h.ipv6Udp hip₆
  | sctpV4 | ahEspV4 | ahV4 | espV4 | ipV4 =>
    cases hget
    exact hashFieldsOf_ip hnone hip₄
  | sctpV6 | ahEspV6 | ahV6 | espV6 | ipV6 =>
    cases hget
    exact hashFieldsOf_ip hnone hip₆
  | other => cases hget

/-- The data of a request, from its bits. -/
theorem data_eq {data : BitVec 64}
    (hmask : data &&& ~~~(rxhIpSrc ||| rxhIpDst ||| rxhL4B01 ||| rxhL4B23) = 0)
    (hsrc : data &&& rxhIpSrc ≠ 0) (hdst : data &&& rxhIpDst ≠ 0) :
  data = (data &&& (rxhL4B01 ||| rxhL4B23)) ||| (rxhIpSrc ||| rxhIpDst)
  := by
  have hsrc' : data &&& rxhIpSrc = rxhIpSrc := Bits.and_bit (i := 4) hsrc
  have hdst' : data &&& rxhIpDst = rxhIpDst := Bits.and_bit (i := 5) hdst
  have hall := Bits.and_not_eq_self hmask
  rw [BitVec.not_not, BitVec.and_or_distrib_left, BitVec.and_or_distrib_left,
    BitVec.and_or_distrib_left, hsrc', hdst', BitVec.or_assoc, BitVec.or_comm,
    ← BitVec.and_or_distrib_left] at hall
  exact hall.symm

/-- The flags that a request for UDP sets, and the ports that it asks for. -/
theorem udpFlags_ok {flag flags' : BitVec 32} {data : BitVec 64} (hflag : flag ≠ 0)
    (h : udpFlags flag data flags = .ok flags') :
  data &&& rxhIpSrc ≠ 0 ∧ data &&& rxhIpDst ≠ 0
    ∧ data &&& (rxhL4B01 ||| rxhL4B23)
      = (if flags' &&& flag ≠ 0 then rxhL4B01 ||| rxhL4B23 else 0)
  := by
  rw [udpFlags] at h
  split at h
  · cases h
  next haddresses =>
    obtain ⟨hsrc, hdst⟩ := not_or.mp haddresses
    refine ⟨hsrc, hdst, ?_⟩
    split at h
    next hports =>
      cases h
      have hclear : flags &&& ~~~flag &&& flag = 0 := by
        rw [BitVec.and_assoc, BitVec.not_and_self]
        exact BitVec.and_zero
      rw [hports, hclear, if_neg (by simp)]
    next =>
      split at h
      next hports =>
        cases h
        have hset : (flags ||| flag) &&& flag = flag := by
          rw [BitVec.or_comm]
          exact Bits.or_keeps flags BitVec.and_self
        rw [hports, hset, if_pos hflag]
      · cases h

/-- A request that is accepted asks for what is reported of the new flags. -/
theorem newFlags_ok {nfc : Rxnfc} {flags' : BitVec 32}
    (hmask : nfc.data &&& ~~~(rxhIpSrc ||| rxhIpDst ||| rxhL4B01 ||| rxhL4B23) = 0)
    (h : newFlags nfc flags = .ok flags') :
  getRssHashOpts flags' nfc.flowType = .ok nfc.data
  := by
  have hports {data : BitVec 64} (h₁ : data &&& rxhL4B01 = rxhL4B01)
      (h₂ : data &&& rxhL4B23 = rxhL4B23) :
      data &&& (rxhL4B01 ||| rxhL4B23) = rxhL4B01 ||| rxhL4B23 := by
    rw [BitVec.and_or_distrib_left, h₁, h₂]
  have hport (h : portFlags nfc.data flags = .ok flags') :
      nfc.data = rxhL4B01 ||| rxhL4B23 ||| (rxhIpSrc ||| rxhIpDst) := by
    rw [portFlags] at h
    split at h
    · cases h
    next hall =>
      simp only [not_or] at hall
      obtain ⟨hsrc, hdst, h₁, h₂⟩ := hall
      have hdata := data_eq hmask hsrc hdst
      rw [hports (Bits.and_bit (i := 6) h₁) (Bits.and_bit (i := 7) h₂)] at hdata
      exact hdata
  have haddress (h : addressFlags nfc.data flags = .ok flags') :
      nfc.data = rxhIpSrc ||| rxhIpDst := by
    rw [addressFlags] at h
    split at h
    · cases h
    next hall =>
      simp only [not_or, not_not] at hall
      obtain ⟨hsrc, hdst, h₁, h₂⟩ := hall
      have hdata := data_eq hmask hsrc hdst
      rw [BitVec.and_or_distrib_left, h₁, h₂] at hdata
      exact hdata
  have hudp {flag : BitVec 32} (hflag : flag ≠ 0) (h : udpFlags flag nfc.data flags = .ok flags') :
      nfc.data = (if flags' &&& flag ≠ 0 then rxhL4B01 ||| rxhL4B23 else 0)
        ||| (rxhIpSrc ||| rxhIpDst) := by
    obtain ⟨hsrc, hdst, hl4⟩ := udpFlags_ok hflag h
    rw [← hl4]
    exact data_eq hmask hsrc hdst
  rw [newFlags] at h
  cases hflow : nfc.flowType with
  | tcpV4 | tcpV6 =>
    rw [hflow] at h
    rw [hport h, getRssHashOpts]
    split <;> rfl
  | udpV4 =>
    rw [hflow] at h
    exact congrArg Except.ok (hudp (by decide) h).symm
  | udpV6 =>
    rw [hflow] at h
    exact congrArg Except.ok (hudp (by decide) h).symm
  | sctpV4 | ahEspV4 | ahV4 | espV4 | sctpV6 | ahEspV6 | ahV6 | espV6 =>
    rw [hflow] at h
    exact congrArg Except.ok (haddress h).symm
  | ipV4 | ipV6 | other =>
    rw [hflow] at h
    cases h

end Requests

/-! ### The interface comes up -/

/-- Whether a reset or the set-up of the hash comes last among the effects, and the latter does. -/
def setupNext (last : Option Bool) : Effect → Option Bool
  | .reset => some false
  | .hash => some true
  | _ => last

/-- Whether a reset or the set-up of the hash comes last. -/
def lastSetup (es : List Effect) : Option Bool := es.foldl setupNext none

/-- The register after effects. -/
theorem foldl_vfmrqcNext {mac : MacType} (cleared vfmrqc : BitVec 32) (es : List Effect)
    (hmac : MacType.macX550Vf.value ≤ mac.value) :
  es.foldl (vfmrqcNext mac cleared) vfmrqc = match lastSetup es with
    | none => vfmrqc
    | some true => setupVfmrqc
    | some false => cleared
  := by
  have hfold (es : List Effect) (last : Option Bool) (v : BitVec 32)
      (hv : v = match last with
        | none => vfmrqc
        | some true => setupVfmrqc
        | some false => cleared) :
      es.foldl (vfmrqcNext mac cleared) v = match es.foldl setupNext last with
        | none => vfmrqc
        | some true => setupVfmrqc
        | some false => cleared := by
    induction es generalizing last v with
    | nil => exact hv
    | cons e es ih =>
      apply ih
      cases e with
      | reset => rfl
      | hash => exact if_pos hmac
      | use u => exact hv
      | clean q => exact hv
      | enable q => exact hv
      | disable q => exact hv
      | removed => exact hv
  exact hfold es none vfmrqc rfl

/-- The effects of a call end with the set-up of the hash, unless the device has been found
removed. -/
def Hashed (c : Call) : Prop := c.adapter.hwAddr = true → lastSetup c.effects = some true

namespace Hashed

variable {c c' : Call}

/-- Effects of other kinds. -/
theorem emit {es : List Effect} (h : Hashed c) (hes : ∀ e ∈ es, ∀ last, setupNext last e = last) :
  Hashed (c.emit es)
  := by
  intro hhw
  have hlast := h hhw
  have hsame (es : List Effect) (hes : ∀ e ∈ es, ∀ last, setupNext last e = last)
      (last : Option Bool) : es.foldl setupNext last = last := by
    induction es generalizing last with
    | nil => rfl
    | cons e es ih =>
      rw [List.foldl_cons, hes e (List.mem_cons_self ..)]
      exact ih (fun e' he' => hes e' (List.mem_cons_of_mem e he')) last
  rw [lastSetup, Call.emit, List.foldl_append, hsame es hes]
  exact hlast

/-- The hash is set up. -/
theorem hash (c : Call) :
  Hashed (c.writeReg .hash)
  := by
  rw [Call.writeReg, Call.readReg]
  cases hhw : c.adapter.hwAddr with
  | false =>
    intro hno
    exact absurd (hhw.symm.trans hno) Bool.false_ne_true
  | true =>
    cases c.adapter.answers with
    | false =>
      intro hno
      cases hno
    | true =>
      intro _
      show lastSetup (c.effects ++ [.hash]) = some true
      exact List.foldl_append

/-- A queue is enabled or disabled. -/
theorem writeReg {e : Effect} (h : Hashed c) (he : ∀ last, setupNext last e = last) :
  Hashed (c.writeReg e)
  := by
  rw [Call.writeReg, Call.readReg]
  cases c.adapter.hwAddr with
  | false => exact h
  | true =>
    cases c.adapter.answers with
    | false =>
      intro hno
      cases hno
    | true =>
      apply h.emit
      intro e' he'
      rw [List.mem_singleton.mp he']
      exact he

/-- `ixgbevf_configure` sets up the hash. -/
theorem configure {K : KernelConfig} {env : Interface.ConfigEnv}
    (hc : c.configure K env = some c') :
  Hashed c'
  := by
  obtain ⟨c₁, -, hc⟩ := Option.bind_eq_some_iff.mp hc
  obtain ⟨c₂, -, h₃⟩ := Option.bind_eq_some_iff.mp hc
  apply Loops.upFrom_keeps (I := Hashed) h₃ (hash c₂)
  intro j _ c c' hbody hs
  rw [Call.configureRxRing] at hbody
  split at hbody
  · cases hbody
    have hdisable : Hashed (c.disableRxQueue j) := hs.writeReg fun _ => rfl
    have henable : Hashed ((c.disableRxQueue j).writeReg (.enable j)) :=
      hdisable.writeReg fun _ => rfl
    exact henable
  · cases hbody

/-- `ixgbevf_request_irq` where it succeeds. -/
theorem requestIrq {fails : ℕ → Bool} (h : Hashed c) (hc : c.requestIrq fails = some (c', true)) :
  Hashed c'
  := by
  have hvector (v : ℕ) (c : Call) (hs : Hashed c) : Hashed (c.requestVector fails v).1 := by
    rw [Call.requestVector]
    split
    · exact hs
    · apply hs.emit
      simp [setupNext]
  have hqueues : Hashed (c.requestQueueIrqs fails).1 := by
    apply Loops.tryFrom_keeps (I := Hashed) h
    intro v _ c hs
    split
    · exact hvector v c hs
    · exact hs
  rw [Call.requestIrq] at hc
  split at hc
  · cases hc
  split at hc
  next c₁ v heq =>
    obtain ⟨c₂, -, hno⟩ := Option.map_eq_some_iff.mp hc
    cases hno
  next c₁ heq =>
    rw [heq] at hqueues
    have hlast := hvector c₁.adapter.numQVectors c₁ hqueues
    split at hc
    next c₂ heq₂ =>
      obtain ⟨c₃, -, hno⟩ := Option.map_eq_some_iff.mp hc
      cases hno
    next c₂ heq₂ =>
      rw [heq₂] at hlast
      cases hc
      exact hlast

/-- `ixgbevf_open` where it succeeds. -/
theorem ixgbevfOpen {K : KernelConfig} {env : Interface.OpenEnv}
    (hc : c.ixgbevfOpen K env = some (c', true)) :
  Hashed c'
  := by
  rw [Call.ixgbevfOpen] at hc
  split at hc
  · cases hc
  obtain ⟨c₀, hc₀⟩ : ∃ c₀, c₀ = (if c.adapter.adapterStopped then c.reset env.restarts else c) :=
    ⟨_, rfl⟩
  simp only [← hc₀] at hc
  split at hc
  · cases hc
  obtain ⟨⟨c₁, ok₁⟩, -, hc⟩ := Option.bind_eq_some_iff.mp hc
  cases ok₁ with
  | false => cases hc
  | true =>
    obtain ⟨⟨c₂, ok₂⟩, -, hc⟩ := Option.bind_eq_some_iff.mp hc
    cases ok₂ with
    | false =>
      obtain ⟨c₃, -, hno⟩ := Option.bind_eq_some_iff.mp hc
      cases hno
    | true =>
      obtain ⟨c₃, h₃, hc⟩ := Option.bind_eq_some_iff.mp hc
      obtain ⟨⟨c₄, ok₄⟩, h₄, hc⟩ := Option.bind_eq_some_iff.mp hc
      cases ok₄ with
      | false =>
        obtain ⟨c₅, -, hno⟩ := Option.map_eq_some_iff.mp hc
        cases hno
      | true =>
        simp only [Bool.not_true, Bool.false_eq_true, if_false] at hc
        split at hc
        · obtain ⟨c₅, -, hfail⟩ := Option.bind_eq_some_iff.mp hc
          obtain ⟨c₆, -, hno⟩ := Option.map_eq_some_iff.mp hfail
          cases hno
        · cases hc
          have hlast : Hashed c₄ := (configure h₃).requestIrq h₄
          exact hlast

end Hashed

/-- An event that leaves a running interface has set up the hash, or the interface was running
before and nothing has reset it. -/
theorem apply_lastSetup {K : KernelConfig} {a : Adapter} {e : Interface.Event} {c : Call}
    (hs : Interface.Sound a) (hen : Enabled a e)
    (hc : Interface.apply K { adapter := a, effects := [] } e = some c)
    (hup : c.adapter.down = false) (hhw : c.adapter.hwAddr = true) :
  lastSetup c.effects = some true
    ∨ lastSetup c.effects = none ∧ a.down = false ∧ a.hwAddr = true
  := by
  have hdown {P : Prop} (h : c.adapter.down = true) : P :=
    absurd (hup.symm.trans h) Bool.false_ne_true
  cases e with
  | devOpen env =>
    obtain ⟨⟨c', ok⟩, hopen, rfl⟩ := Option.map_eq_some_iff.mp hc
    obtain ⟨c₁, heq, -⟩ | ⟨c₁, heq, -, hframe, -⟩ :=
      Interface.ixgbevfOpen_cases K env (hs.shut hen).toClosed
    · rw [heq] at hopen
      cases hopen
      exact Or.inl (Hashed.ixgbevfOpen heq hhw)
    · have hsame : c₁.adapter.down = a.down := congrArg (·.2.2.2.2.1) hframe
      rw [heq] at hopen
      cases hopen
      exact hdown (hsame.trans hen)
  | close resets =>
    obtain ⟨c₁, h₁, hc⟩ := Option.bind_eq_some_iff.mp hc
    obtain ⟨c₂, h₂, hc⟩ := Option.bind_eq_some_iff.mp hc
    obtain ⟨c₃, h₃, h₄⟩ := Option.bind_eq_some_iff.mp hc
    have hshut := hs.ixgbevfDown (c := ⟨a, []⟩) hen h₁
    exact hdown (((hshut.freeIrq h₂).freeAllTx h₃).freeAllRx h₄).down
  | reinit resets env =>
    obtain ⟨c₁, -, hc⟩ := Option.bind_eq_some_iff.mp hc
    obtain ⟨c₂, h₂, rfl⟩ := Option.map_eq_some_iff.mp hc
    have hlast : Hashed c₂ := Hashed.configure h₂
    exact Or.inl (hlast hhw)
  | setRingparam tx rx count resets env =>
    obtain ⟨c₁, -, hc⟩ := Option.bind_eq_some_iff.mp hc
    obtain ⟨c₂, -, hc⟩ := Option.bind_eq_some_iff.mp hc
    obtain ⟨c₃, -, hc⟩ := Option.bind_eq_some_iff.mp hc
    obtain ⟨c₄, -, hc⟩ := Option.bind_eq_some_iff.mp hc
    obtain ⟨c₅, h₅, rfl⟩ := Option.map_eq_some_iff.mp hc
    have hlast : Hashed c₅ := Hashed.configure h₅
    exact Or.inl (hlast hhw)
  | scheme q count =>
    cases hc
    exact hdown hen.1
  | removed resets => exact hdown (hs.ixgbevfDown (c := ⟨a, []⟩) hen.1 hc).down
  | reset resets =>
    cases hc
    obtain ⟨_, _, hsame⟩ := Interface.reset_adapter resets ⟨a, []⟩
    rw [hsame] at hdown
    exact hdown hen
  | read =>
    cases hc
    obtain ⟨_, hsame⟩ := Interface.readReg_adapter ⟨a, []⟩
    rw [hsame] at hup
    rw [Call.readReg] at hhw ⊢
    cases ha : a.hwAddr with
    | false =>
      rw [ha] at hhw
      exact absurd (ha.symm.trans hhw) Bool.false_ne_true
    | true =>
      rw [ha] at hhw
      cases hans : a.answers with
      | false =>
        rw [hans] at hhw
        cases hhw
      | true => exact Or.inr ⟨rfl, hup, rfl⟩
  | answer answers =>
    cases hc
    exact Or.inr ⟨rfl, hup, hhw⟩
  | channel offline =>
    cases hc
    exact Or.inr ⟨rfl, hup, hhw⟩
  | remap =>
    cases hc
    exact hdown hen
  | remove =>
    cases hc
    exact Or.inr ⟨rfl, hup, hhw⟩
  | test testing =>
    cases hc
    exact Or.inr ⟨rfl, hup, hhw⟩
  | receive i e =>
    obtain ⟨queue, -, rfl⟩ := Option.map_eq_some_iff.mp hc
    exact Or.inr ⟨rfl, hup, hhw⟩
  | transmit kind i nextToUse nextToClean =>
    cases hc
    exact Or.inr ⟨rfl, hup, hhw⟩

/-! ### Every run -/

/-- An event of the interface brings it up, with the hash set up. -/
def BringsUp (K : KernelConfig) (a : Adapter) (e : Interface.Event) : Prop :=
  ∃ c, Interface.apply K { adapter := a, effects := [] } e = some c
    ∧ lastSetup c.effects = some true ∧ c.adapter.down = false

/-- The interface is brought up while the flags for UDP are clear. -/
def UpWithoutUdp (K : KernelConfig) (s : State) : Event → Prop
  | .interface e => BringsUp K s.interface.adapter e → s.flags &&& udpRssFlags = 0
  | _ => True

section Runs

variable {K : KernelConfig} {mac : MacType} {cleared : BitVec 32}

/-- A read is an event of the interface. -/
theorem readReg_step (c : Call) :
  (Interface.system K).step c .read c.readReg.1
  := by
  refine ⟨trivial, _, rfl, ?_⟩
  rw [Call.readReg, Call.readReg]
  cases c.adapter.hwAddr with
  | false => simp
  | true =>
    cases c.adapter.answers with
    | false => rfl
    | true => simp

/-- A read that the device answers is one that does not find it removed. -/
theorem readReg_answered (c : Call) :
  c.readReg.2 = c.readReg.1.adapter.hwAddr
  := by
  rw [Call.readReg]
  cases hhw : c.adapter.hwAddr with
  | false => exact hhw.symm
  | true =>
    cases c.adapter.answers with
    | false => rfl
    | true => exact hhw.symm

/-- What a request that is accepted does: it writes the register unless the flags stay the same. -/
theorem setRssHashOpt_ok {nfc : Rxnfc} {s s' : State} (h : setRssHashOpt mac nfc s = .ok s') :
  getRssHashOpts s'.flags nfc.flowType = .ok nfc.data
    ∧ (s' = s ∨ s'.interface = s.interface.readReg.1
      ∧ (s'.interface.adapter.hwAddr = true → s'.vfmrqc = hashOptVfmrqc s'.flags s.vfmrqc))
  := by
  rw [setRssHashOpt] at h
  split at h
  · cases h
  split at h
  · cases h
  next hmask =>
    have hmask := not_not.mp hmask
    split at h
    · cases h
    next flags hflags =>
      have hget := newFlags_ok hmask hflags
      split at h
      next hsame =>
        cases h
        rw [hsame] at hget
        exact ⟨hget, Or.inl rfl⟩
      · have hanswered := readReg_answered s.interface
        split at h
        next c heq =>
          cases h
          exact ⟨hget, Or.inr ⟨by rw [heq], fun _ => rfl⟩⟩
        next c heq =>
          cases h
          rw [heq] at hanswered
          refine ⟨hget, Or.inr ⟨by rw [heq], fun hhw => ?_⟩⟩
          exact absurd (hanswered.trans hhw) Bool.false_ne_true

/-- A run of the interface and its hash is a run of the interface. -/
theorem reachable_interface {G : State → Event → Prop} {s : State}
    (h : (system K mac cleared).Reachable G s) :
  (Interface.system K).Reachable TransSystem.always s.interface
  := by
  induction h with
  | init hinit => exact .init hinit.1
  | @step s e s' _ _ hstep ih =>
    cases e with
    | interface e =>
      obtain ⟨hen, c, hc, rfl⟩ := hstep
      exact ih.step trivial ⟨hen, c, hc, rfl⟩
    | setHashOpt nfc =>
      obtain hok | ⟨_, -, rfl⟩ := hstep
      · obtain ⟨-, rfl | ⟨hread, -⟩⟩ := setRssHashOpt_ok hok
        · exact ih
        · rw [hread]
          exact ih.step trivial (readReg_step s.interface)
      · exact ih
    | setFlags flags =>
      obtain ⟨-, rfl⟩ := hstep
      exact ih

/-- A running interface is programmed as its flags say after an accepted request. -/
theorem setRssHashOpt_programmed {nfc : Rxnfc} {s s' : State}
    (h : s.Running → Programmed s.flags s.vfmrqc) (hok : setRssHashOpt mac nfc s = .ok s')
    (hrun : s'.Running) :
  Programmed s'.flags s'.vfmrqc
  := by
  obtain ⟨-, rfl | ⟨-, hwritten⟩⟩ := setRssHashOpt_ok hok
  · exact h hrun
  · rw [hwritten hrun.hwAddr]
    exact hashOptVfmrqc_programmed s'.flags s.vfmrqc

/-- A running interface is programmed as its flags say, provided it was brought up while they were
clear. -/
theorem reachable_programmed {s : State} (hmac : MacType.macX550Vf.value ≤ mac.value)
    (h : (system K mac cleared).Reachable (UpWithoutUdp K) s) (hrun : s.Running) :
  Programmed s.flags s.vfmrqc
  := by
  induction h with
  | @init s hinit =>
    obtain ⟨⟨env, A, q, count, -, -, heq⟩, -⟩ := hinit
    have hup := hrun.up
    rw [heq] at hup
    cases hup
  | @step s e s' hreach hG hstep ih =>
    cases e with
    | interface e =>
      obtain ⟨hen, c, hc, rfl⟩ := hstep
      have hsound := Interface.reachable_sound (reachable_interface hreach)
      have hfold := foldl_vfmrqcNext cleared s.vfmrqc c.effects hmac
      show Programmed s.flags (c.effects.foldl (vfmrqcNext mac cleared) s.vfmrqc)
      obtain hlast | ⟨hlast, hup, hhw⟩ := apply_lastSetup hsound hen hc hrun.up hrun.hwAddr
      · rw [hfold, hlast]
        exact setupVfmrqc_programmed (hG ⟨c, hc, hlast, hrun.up⟩)
      · rw [hfold, hlast]
        exact ih ⟨hup, hhw⟩
    | setHashOpt nfc =>
      obtain hok | ⟨_, -, rfl⟩ := hstep
      · exact setRssHashOpt_programmed ih hok hrun
      · exact ih hrun
    | setFlags flags =>
      obtain ⟨hflags, rfl⟩ := hstep
      obtain ⟨h₄, h₆, htypes⟩ := ih ⟨hrun.up, hrun.hwAddr⟩
      have hsame (f : BitVec 32) (hf : udpRssFlags &&& f = f) : flags &&& f = s.flags &&& f := by
        rw [← hf, ← BitVec.and_assoc, hflags, BitVec.and_assoc]
      refine ⟨?_, ?_, htypes⟩
      · show s.vfmrqc &&& mrqcRssFieldIpv4Udp ≠ 0 ↔ flags &&& flagRssFieldIpv4Udp ≠ 0
        rw [hsame flagRssFieldIpv4Udp (by decide)]
        exact h₄
      · show s.vfmrqc &&& mrqcRssFieldIpv6Udp ≠ 0 ↔ flags &&& flagRssFieldIpv6Udp ≠ 0
        rw [hsame flagRssFieldIpv6Udp (by decide)]
        exact h₆

/-- The register has the bits for UDP that the flags have, what `ixgbevf_get_rss_hash_opts` reports
is what the hardware hashes, and a request that is accepted leaves the hardware as requested. -/
structure Coherent (mac : MacType) (s : State) : Prop where
  /-- UDP over IPv4. -/
  ipv4Udp : s.vfmrqc &&& mrqcRssFieldIpv4Udp ≠ 0 ↔ s.flags &&& flagRssFieldIpv4Udp ≠ 0
  /-- UDP over IPv6. -/
  ipv6Udp : s.vfmrqc &&& mrqcRssFieldIpv6Udp ≠ 0 ↔ s.flags &&& flagRssFieldIpv6Udp ≠ 0
  /-- The report. -/
  reported : ∀ flow data, getRssHashOpts s.flags flow = .ok data → hashFields s.vfmrqc flow = data
  /-- A request. -/
  requested : ∀ nfc s', setRssHashOpt mac nfc s = .ok s' → s'.Running →
    hashFields s'.vfmrqc nfc.flowType = nfc.data

/-- In every run in which the interface is brought up only while the flags for UDP are clear, the
hash of a running interface is coherent. -/
theorem reachable_coherent {s : State} (hmac : MacType.macX550Vf.value ≤ mac.value)
    (h : (system K mac cleared).Reachable (UpWithoutUdp K) s) (hrun : s.Running) :
  Coherent mac s
  := by
  have hprog := reachable_programmed hmac h hrun
  refine ⟨hprog.ipv4Udp, hprog.ipv6Udp, fun flow data hget => ?_, fun nfc s' hok hrun' => ?_⟩
  · exact getRssHashOpts_hashFields hprog hget
  · have hprog' := setRssHashOpt_programmed (fun _ => hprog) hok hrun'
    exact getRssHashOpts_hashFields hprog' (setRssHashOpt_ok hok).1

end Runs

/-! ### Runs that are computed -/

/-- The state after an event. -/
def after (K : KernelConfig) (mac : MacType) (s : State) : Event → State
  | .interface e =>
    match Interface.apply K { adapter := s.interface.adapter, effects := [] } e with
    | some c => {
        interface := { adapter := c.adapter, effects := s.interface.effects ++ c.effects }
        flags := s.flags
        vfmrqc := c.effects.foldl (vfmrqcNext mac 0) s.vfmrqc }
    | none => s
  | .setHashOpt nfc =>
    match setRssHashOpt mac nfc s with
    | .ok s' => s'
    | .error _ => s
  | .setFlags flags => { s with flags := flags }

/-- An event of the interface that can happen and has a result. -/
theorem interface_after {K : KernelConfig} {mac : MacType} {s : State} {e : Interface.Event}
    (hen : Enabled s.interface.adapter e)
    (hsome : (Interface.apply K { adapter := s.interface.adapter, effects := [] } e).isSome = true) :
  (system K mac 0).step s (.interface e) (after K mac s (.interface e))
  := by
  obtain ⟨c, hc⟩ := Option.isSome_iff_exists.mp hsome
  refine ⟨hen, c, hc, ?_⟩
  rw [after, hc]

/-- A request. -/
theorem setHashOpt_after {K : KernelConfig} {mac : MacType} {s : State} {nfc : Rxnfc} :
  (system K mac 0).step s (.setHashOpt nfc) (after K mac s (.setHashOpt nfc))
  := by
  rw [after]
  cases h : setRssHashOpt mac nfc s with
  | ok s' => exact Or.inl h
  | error e => exact Or.inr ⟨e, h, rfl⟩

/-- The interface after the probe, with its hash. -/
def probed : State where
  interface := Interface.probed
  flags := 0
  vfmrqc := 0

/-- The interface is opened. -/
def opened : State :=
  after Rx.cacheLine64 .macX550Vf probed (.interface (.devOpen (Interface.answering fun _ => .ok)))

/-- A request to hash UDP over IPv4 with its ports. -/
def udpPorts : Rxnfc where
  flowType := .udpV4
  data := rxhIpSrc ||| rxhIpDst ||| rxhL4B01 ||| rxhL4B23

/-- The interface is opened, and the request is made. -/
def requested : State := after Rx.cacheLine64 .macX550Vf opened (.setHashOpt udpPorts)

/-- After the request the interface is reinitialised. -/
def reinitialised : State :=
  after Rx.cacheLine64 .macX550Vf requested
    (.interface (.reinit true (Interface.answering fun _ => .ok).toConfigEnv))

/-- The request can be made on an interface that is opened. -/
theorem requested_reachable {G : State → Event → Prop}
    (hopen : G probed (.interface (.devOpen (Interface.answering fun _ => .ok))))
    (hrequest : G opened (.setHashOpt udpPorts)) :
  (system Rx.cacheLine64 .macX550Vf 0).Reachable G requested
  := by
  have hprobed : (system Rx.cacheLine64 .macX550Vf 0).Reachable G probed :=
    .init ⟨⟨_, _, _, _, Queues.probed_init .api13, by decide, rfl⟩, rfl⟩
  exact (hprobed.step hopen (interface_after rfl (by decide +kernel))).step hrequest
    setHashOpt_after

/-- After the request the hash is coherent. -/
theorem requested_coherent :
  Coherent .macX550Vf requested
  := by
  have hopen : UpWithoutUdp Rx.cacheLine64 probed
      (.interface (.devOpen (Interface.answering fun _ => .ok))) := fun _ => rfl
  apply reachable_coherent (by decide) (requested_reachable hopen trivial)
  constructor
  · decide +kernel
  · decide +kernel

/-- After the reinitialisation the register does not have the bit that the flags have, and making
the request again does not help. -/
theorem reinitialised_not_coherent :
  ∃ s, (system Rx.cacheLine64 .macX550Vf 0).Reachable TransSystem.always s ∧ s.Running
    ∧ ¬ (s.vfmrqc &&& mrqcRssFieldIpv4Udp ≠ 0 ↔ s.flags &&& flagRssFieldIpv4Udp ≠ 0)
    ∧ ∃ s', setRssHashOpt .macX550Vf udpPorts s = .ok s' ∧ s'.Running
      ∧ hashFields s'.vfmrqc udpPorts.flowType ≠ udpPorts.data
  := by
  have hrunning : reinitialised.Running := by
    constructor
    · decide +kernel
    · decide +kernel
  have hreach : (system Rx.cacheLine64 .macX550Vf 0).Reachable TransSystem.always reinitialised := by
    apply (requested_reachable trivial trivial).step trivial
    apply interface_after
    · unfold Enabled Interface.PollsDone
      decide +kernel
    · decide +kernel
  refine ⟨reinitialised, hreach, hrunning, by decide +kernel, reinitialised, ?_, hrunning, ?_⟩
  · have hflags : newFlags udpPorts reinitialised.flags = .ok reinitialised.flags := by
      have hvalue : reinitialised.flags = flagRssFieldIpv4Udp := by decide +kernel
      rw [hvalue]
      rfl
    have hmask : ¬ udpPorts.data &&& ~~~(rxhIpSrc ||| rxhIpDst ||| rxhL4B01 ||| rxhL4B23) ≠ 0 := by
      decide
    rw [setRssHashOpt, if_neg (by decide), if_neg hmask, hflags]
    exact if_pos rfl
  · decide +kernel

end Ixgbevf.Rss
