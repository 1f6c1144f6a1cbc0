import Ixgbevf.Mac
import Ixgbevf.Replies
import Ixgbevf.Lib.Bits

/-!
# What the networking core hears of a failure

Three callbacks of the network device make a request and return what became of it:
`ixgbevf_vlan_rx_add_vid` as it is, `ixgbevf_set_mac` and `ixgbevf_change_mtu` as an error of
their own.  The core takes a negative value for an error.
-/

namespace Ixgbevf.Callbacks

open StateProgram

/-! ### The callbacks -/

/-- `-EINVAL`. -/
def errInval : ℤ := -22

/-- `VLAN_N_VID`. -/
def vlanNVid : ℕ := 4096

/-- `ETH_HLEN + ETH_FCS_LEN`. -/
def frameOverhead : ℤ := 14 + 4

/-- The network device, with what its callbacks use of the adapter. -/
structure Netdev (D : Type) where
  /-- `hw` and the addresses. -/
  adapter : Mac.Adapter D
  /-- `active_vlans`. -/
  activeVlans : ℕ → Bool
  /-- `netdev->mtu`. -/
  mtu : ℤ
  /-- `xdp_prog` is not `NULL`. -/
  hasXdp : Bool
  /-- `netif_running`. -/
  running : Bool

/-- Programs that act on the network device. -/
abbrev NetdevM (D : Type) := StateM (Netdev D)

variable {D : Type} (V : Device D)

/-- A program of the adapter, from the network device. -/
def onAdapter {α : Type} (m : Mac.AdapterM D α) : NetdevM D α :=
  modifyGet fun s => ((m.run s.adapter).1, { s with adapter := (m.run s.adapter).2 })

/-- `set_bit` of a VLAN in `active_vlans`. -/
def setVlan (vid : ℕ) (s : Netdev D) : Netdev D :=
  { s with activeVlans := fun i => i == vid || s.activeVlans i }

/-- `ixgbevf_vlan_rx_add_vid`. -/
def vlanRxAddVid (vid : BitVec 16) : NetdevM D ℤ := do
  let ret ← onAdapter (Mac.onVf (setVftaVf V (vid.setWidth 32) true))
  (if ret ≠ 0 then
    pure ()
  else
    modify fun s => if vid.toNat < vlanNVid then setVlan vid.toNat s else s : NetdevM D Unit)
  pure ret

/-- `ixgbevf_change_mtu`, where `reinit` is `ixgbevf_reinit_locked`. -/
def changeMtu (reinit : NetdevM D Unit) (newMtu : ℤ) : NetdevM D ℤ := do
  let s ← get
  if s.hasXdp then
    pure errPerm
  else do
    let ret ← onAdapter (Mac.onVf (rlpmlSetVf V (BitVec.ofInt 16 (newMtu + frameOverhead))))
    if ret ≠ 0 then
      pure errInval
    else do
      modify fun s => { s with mtu := newMtu }
      (if s.running then reinit else pure () : NetdevM D Unit)
      pure 0

/-- The callbacks that make a request. -/
inductive Callback where
  | vlanRxAddVid (vid : BitVec 16)
  | setMac (addr : MacAddr)
  | changeMtu (newMtu : ℤ)

/-- A callback. -/
def Callback.run (reinit : NetdevM D Unit) : Callback → NetdevM D ℤ
  | vlanRxAddVid vid => Callbacks.vlanRxAddVid V vid
  | setMac addr => onAdapter (Mac.setMac V addr)
  | changeMtu newMtu => Callbacks.changeMtu V reinit newMtu

/-- The request of a callback. -/
def Callback.request : Callback → Request
  | vlanRxAddVid vid => .setVfta (vid.setWidth 32) true
  | setMac addr => .setRar addr
  | changeMtu newMtu => .rlpmlSet (BitVec.ofInt 16 (newMtu + frameOverhead))

/-! ### Failures -/

/-- The error of the exchange of a request and the reply in its buffer. -/
def outcome (r : Request) (v : Vf D) : ℤ × List (BitVec 32) := ((r.exchange V v).run v.port).1

/-- The request of a callback fails: its exchange ends in an error, or the operation takes the
reply for a refusal. -/
def Fails (c : Callback) (s : Netdev D) : Prop :=
  let x := outcome V c.request s.adapter.vf
  x.1 ≠ 0 ∨ c.request.Refused (x.2.getD 0 0#32)

/-- A failure of the request is a negative value of the callback. -/
def Reports (reinit : NetdevM D Unit) (c : Callback) (s : Netdev D) : Prop :=
  Fails V c s → ((c.run V reinit).run s).1 < 0

/-- The first word of the message of a request. -/
def firstWord : Request → BitVec 32
  | .setUcAddr index _ => macvlanWord index
  | .updateMcAddrList addrs _ =>
    vfSetMulticast ||| BitVec.ofNat 32 (min addrs.length 30) <<< msginfoShift
  | .setVfta _ vlanOn => vlanWord vlanOn
  | r => r.opcode

/-- The PF says no: the reply is the opcode, or the first word of the message, with the failure
bit, and with the bit for clear to send or without it. -/
def Nack (r : Request) (word : BitVec 32) : Prop :=
  word &&& ~~~ msgtypeCts = r.opcode ||| msgtypeFailure
    ∨ word &&& ~~~ msgtypeCts = firstWord r ||| msgtypeFailure

/-- An operation to which the PF says no does not return 0. -/
def Heeds (r : Request) (v : Vf D) : Prop :=
  ∀ reply, r.sends v → outcome V r v = (0, reply) → Nack r (reply.getD 0 0#32) →
    ((r.run V).run v).1 ≠ 0

/-- The operation looks for such a reply: the update of the multicast list for none, the request
for a unicast address for the first word of its message only. -/
def Notices (r : Request) (word : BitVec 32) : Prop :=
  match r with
  | .updateMcAddrList _ _ => False
  | .setUcAddr index _ => word &&& ~~~ msgtypeCts = macvlanWord index ||| msgtypeFailure
  | _ => True

/-! ### The operations -/

/-- An operation that sends its request returns 0 exactly when a reply comes that it does not
take for a refusal. -/
theorem run_eq_zero {r : Request} {v : Vf D} (h : r.sends v) :
  ((r.run V).run v).1 = 0
    ↔ (outcome V r v).1 = 0 ∧ ¬ r.Refused ((outcome V r v).2.getD 0 0#32)
  := by
  obtain ⟨f, hrun, hdecides⟩ := r.decides V v h
  have htalk : (talk (r.exchange V v) >>= f).run v
      = (f (outcome V r v)).run { v with port := ((r.exchange V v).run v.port).2 } := rfl
  have hsilence : IsSilence (outcome V r v).1 := r.exchange_silence V v
  rw [hrun, htalk]
  revert hsilence
  obtain ⟨err, msg⟩ := outcome V r v
  intro hsilence
  by_cases herr : err = 0
  · subst herr
    by_cases hrefused : r.Refused (msg.getD 0 0#32)
    · have hfailed := hdecides.refused msg ((r.exchange V v).run v.port).2 hrefused
      exact iff_of_false hfailed.1 fun h => h.2 hrefused
    · have haccepted := hdecides.accepted msg ((r.exchange V v).run v.port).2 hrefused
      exact iff_of_true haccepted ⟨rfl, hrefused⟩
  · have hfailed := hdecides.error err msg ((r.exchange V v).run v.port).2 hsilence herr
    exact iff_of_false hfailed.1 fun h => herr h.1

/-- The bit for clear to send does not touch the others. -/
theorem and_of_cts {word w m : BitVec 32} (h : word &&& ~~~ msgtypeCts = w)
    (hm : ~~~ msgtypeCts &&& m = m) :
  word &&& m = w &&& m
  := by
  rw [← h, BitVec.and_assoc, hm]

/-- A reply of an opcode with the failure bit fails, and does not succeed. -/
theorem nack_bits {word op : BitVec 32} (h : word &&& ~~~ msgtypeCts = op ||| msgtypeFailure)
    (hop : op &&& (msgtypeSuccess ||| msgtypeFailure) = 0#32) :
  hasBit word msgtypeFailure = true ∧ hasBit word msgtypeSuccess = false
  := by
  have hfailure : op &&& msgtypeFailure = 0#32 := Bits.and_eq_zero_of_mask hop (by decide)
  have hsuccess : op &&& msgtypeSuccess = 0#32 := Bits.and_eq_zero_of_mask hop (by decide)
  unfold hasBit
  rw [and_of_cts h (by decide), and_of_cts h (by decide), BitVec.and_or_distrib_right,
    BitVec.and_or_distrib_right, hfailure, hsuccess]
  decide

/-- A reply by which the PF says no is taken for a refusal exactly when the operation looks for
it. -/
theorem refused_iff_notices {r : Request} {word : BitVec 32} (h : Nack r word) :
  r.Refused word ↔ Notices r word
  := by
  have hsame (hfirst : firstWord r = r.opcode) :
      word &&& ~~~ msgtypeCts = r.opcode ||| msgtypeFailure := by
    obtain h | h := h
    · exact h
    · rw [h, hfirst]
  cases r with
  | setUcAddr index addr => rfl
  | updateMcAddrList addrs stack => rfl
  | setRar addr => exact iff_of_true (hsame rfl) trivial
  | updateXcastMode mode => exact iff_of_true (hsame rfl) trivial
  | getLinkState => exact iff_of_true (nack_bits (hsame rfl) (by decide)).1 trivial
  | getPfLinkState => exact iff_of_true (nack_bits (hsame rfl) (by decide)).1 trivial
  | negotiateFeatures => exact iff_of_true (nack_bits (hsame rfl) (by decide)).1 trivial
  | setVfta vlan vlanOn =>
    have hop : vfSetVlan &&& (msgtypeSuccess ||| msgtypeFailure) = 0#32 := by decide
    have hfirst : vlanWord vlanOn &&& (msgtypeSuccess ||| msgtypeFailure) = 0#32 := by
      cases vlanOn <;> decide
    have hbits : hasBit word msgtypeFailure = true ∧ hasBit word msgtypeSuccess = false := by
      obtain h | h := h
      · exact nack_bits h hop
      · exact nack_bits h hfirst
    refine iff_of_true ⟨?_, hbits.1⟩ trivial
    rw [hbits.2]
    decide
  | rlpmlSet maxSize =>
    have hop : vfSetLpe &&& (msgtypeSuccess ||| msgtypeFailure) = 0#32 := by decide
    have hbit : hasBit (vfSetLpe ||| msgtypeFailure) vfSetLpe = true := by decide
    have hword : hasBit word vfSetLpe = hasBit (vfSetLpe ||| msgtypeFailure) vfSetLpe := by
      unfold hasBit
      rw [and_of_cts (hsame rfl) (by decide)]
      rfl
    exact iff_of_true ⟨hword.trans hbit, (nack_bits (hsame rfl) hop).1⟩ trivial
  | negotiateApiVersion api =>
    have hop : vfApiNegotiate ||| msgtypeFailure ≠ vfApiNegotiate ||| msgtypeSuccess := by decide
    exact iff_of_true (fun hgranted => hop ((hsame rfl).symm.trans hgranted)) trivial
  | getQueues =>
    have hop : vfGetQueues ||| msgtypeFailure ≠ vfGetQueues ||| msgtypeSuccess := by decide
    exact iff_of_true (fun hgranted => hop ((hsame rfl).symm.trans hgranted)) trivial
  | getReta numRxQueues stack =>
    have hop : vfGetReta ||| msgtypeFailure ≠ vfGetReta ||| msgtypeSuccess := by decide
    exact iff_of_true (fun hgranted => hop ((hsame rfl).symm.trans hgranted)) trivial
  | getRssKey stack =>
    have hop : vfGetRssKey ||| msgtypeFailure ≠ vfGetRssKey ||| msgtypeSuccess := by decide
    exact iff_of_true (fun hgranted => hop ((hsame rfl).symm.trans hgranted)) trivial

/-- An operation heeds the PF exactly when it looks for the reply that comes. -/
theorem heeds_iff (r : Request) (v : Vf D) :
  Heeds V r v ↔ ∀ reply, r.sends v → outcome V r v = (0, reply) →
    Nack r (reply.getD 0 0#32) → Notices r (reply.getD 0 0#32)
  := by
  apply forall_congr'
  intro reply
  apply imp_congr_right
  intro hsends
  apply imp_congr_right
  intro hreply
  apply imp_congr_right
  intro hnack
  rw [Ne, run_eq_zero V hsends, hreply, ← refused_iff_notices hnack]
  simp

/-! ### The values of the callbacks -/

/-- A negative number stays negative when bits are set in its 32-bit word. -/
theorem toInt_or_neg {w w' : BitVec 32} (h : w.toInt < 0) :
  (w ||| w').toInt < 0
  := by
  have hmsb : w.msb = true := by
    rw [BitVec.msb_eq_toInt]
    exact decide_eq_true h
  have hor : (w ||| w').msb = true := by
    rw [BitVec.msb_or, hmsb, Bool.true_or]
  rw [BitVec.msb_eq_toInt] at hor
  exact of_decide_eq_true hor

/-- What `ixgbe_set_vfta_vf` returns. -/
theorem setVftaVf_value (vlan : BitVec 32) (vlanOn : Bool) (v : Vf D) :
  let x := outcome V (.setVfta vlan vlanOn) v
  ((setVftaVf V vlan vlanOn).run v).1
    = if x.1 = 0 ∧ hasBit (x.2.getD 0 0#32) msgtypeSuccess then 0
      else (BitVec.ofInt 32 x.1 ||| x.2.getD 0 0#32 &&& msgtypeFailure).toInt
  := by
  let f : ℤ × List (BitVec 32) → VfM D ℤ := fun x =>
    if x.1 = 0 ∧ hasBit (x.2.getD 0 0#32) msgtypeSuccess then pure 0
    else pure (BitVec.ofInt 32 x.1 ||| x.2.getD 0 0#32 &&& msgtypeFailure).toInt
  have hrun : ((setVftaVf V vlan vlanOn).run v).1
      = ((f (outcome V (.setVfta vlan vlanOn) v)).run
        { v with port := (((Request.setVfta vlan vlanOn).exchange V v).run v.port).2 }).1 := rfl
  intro x
  rw [hrun]
  simp only [f]
  split
  · rfl
  · rfl

/-- An error of the exchange is a negative number in 32 bits. -/
theorem ofInt_neg {err : ℤ} (h : IsSilence err) (hne : err ≠ 0) :
  (BitVec.ofInt 32 err).toInt < 0
  := by
  rcases h with rfl | rfl | rfl | rfl | rfl
  · exact absurd rfl hne
  all_goals decide

/-- What a callback that adds a VLAN returns. -/
theorem vlanRxAddVid_value (vid : BitVec 16) (s : Netdev D) :
  ((vlanRxAddVid V vid).run s).1 = ((setVftaVf V (vid.setWidth 32) true).run s.adapter.vf).1
  := rfl

/-- `ixgbevf_vlan_rx_add_vid` reports an error of the exchange, and no refusal. -/
theorem vlanRxAddVid_reports_iff (reinit : NetdevM D Unit) (vid : BitVec 16) (s : Netdev D) :
  Reports V reinit (.vlanRxAddVid vid) s
    ↔ ¬ ((outcome V (Callback.vlanRxAddVid vid).request s.adapter.vf).1 = 0
      ∧ (Callback.vlanRxAddVid vid).request.Refused
        ((outcome V (Callback.vlanRxAddVid vid).request s.adapter.vf).2.getD 0 0#32))
  := by
  have hvalue := setVftaVf_value V (vid.setWidth 32) true s.adapter.vf
  have hsilence : IsSilence (outcome V (.setVfta (vid.setWidth 32) true) s.adapter.vf).1 :=
    Request.exchange_silence V _ s.adapter.vf
  unfold Reports Fails
  simp only [Callback.run, Callback.request, vlanRxAddVid_value]
  revert hvalue hsilence
  generalize outcome V (.setVfta (vid.setWidth 32) true) s.adapter.vf = x
  obtain ⟨err, msg⟩ := x
  intro hvalue hsilence
  simp only at hvalue
  by_cases herr : err = 0
  · subst herr
    by_cases hrefused : (Request.setVfta (vid.setWidth 32) true).Refused (msg.getD 0 0#32)
    · obtain ⟨hsuccess, hfailure⟩ := hrefused
      have hbit : (BitVec.ofInt 32 0 ||| msg.getD 0 0#32 &&& msgtypeFailure).toInt
          = msgtypeFailure.toInt := by
        have htwo : msgtypeFailure = BitVec.twoPow 32 30 := by decide
        have hword : msg.getD 0 0#32 &&& msgtypeFailure = msgtypeFailure := by
          rw [htwo] at hfailure ⊢
          exact Bits.and_bit (bne_iff_ne.mp hfailure)
        rw [hword]
        rfl
      have hpositive : ¬ msgtypeFailure.toInt < 0 := by decide
      rw [if_neg (fun h => hsuccess h.2), hbit] at hvalue
      rw [hvalue]
      refine iff_of_false (fun h => hpositive (h (.inr ⟨hsuccess, hfailure⟩))) ?_
      exact not_not.mpr ⟨rfl, hsuccess, hfailure⟩
    · refine iff_of_true (fun h => ?_) fun h => hrefused h.2
      obtain h | h := h
      · exact absurd rfl h
      · exact absurd h hrefused
  · refine iff_of_true (fun _ => ?_) fun h => herr h.1
    rw [hvalue, if_neg fun h => herr h.1]
    exact toInt_or_neg (ofInt_neg hsilence herr)

/-- `ixgbevf_set_mac` and `ixgbevf_change_mtu` report every failure. -/
theorem reports_of_other (reinit : NetdevM D Unit) {c : Callback} (h : ∀ vid, c ≠ .vlanRxAddVid vid)
    (s : Netdev D) :
  Reports V reinit c s
  := by
  intro hfails
  have hperm : errPerm < 0 := by decide
  have haddr : Mac.errAddrnotavail < 0 := by decide
  have hinval : errInval < 0 := by decide
  have hret {r : Request} (hr : r = c.request) (hsends : r.sends s.adapter.vf) :
      ((r.run V).run s.adapter.vf).1 ≠ 0 := by
    subst hr
    intro hzero
    obtain ⟨herr, hno⟩ := (run_eq_zero V hsends).mp hzero
    exact hfails.elim (fun h => h herr) hno
  cases c with
  | vlanRxAddVid vid => exact absurd rfl (h vid)
  | setMac addr =>
    have hfailed : ((setRarVf V addr).run s.adapter.vf).1 ≠ 0 := hret rfl rfl
    show ((Mac.setMac V addr).run s.adapter).1 < 0
    unfold Mac.setMac
    split
    · apply run_bind_of (fun err _ => err ≠ 0) (fun r : ℤ × Mac.Adapter D => r.1 < 0) hfailed
      intro err a herr
      rw [if_pos herr]
      exact hperm
    · exact haddr
  | changeMtu newMtu =>
    have hfailed : ((rlpmlSetVf V (BitVec.ofInt 16 (newMtu + frameOverhead))).run
        s.adapter.vf).1 ≠ 0 := hret rfl rfl
    show ((changeMtu V reinit newMtu).run s).1 < 0
    rw [changeMtu, run_get_bind]
    split
    · exact hperm
    · apply run_bind_of (fun err _ => err ≠ 0) (fun r : ℤ × Netdev D => r.1 < 0) hfailed
      intro err s' herr
      rw [if_pos herr]
      exact hinval

/-! ### When failures are reported -/

/-- The PF refuses to add a VLAN. -/
def RefusesVlan (c : Callback) (s : Netdev D) : Prop :=
  (∃ vid, c = .vlanRxAddVid vid)
    ∧ (outcome V c.request s.adapter.vf).1 = 0
    ∧ c.request.Refused ((outcome V c.request s.adapter.vf).2.getD 0 0#32)

/-- Failures reach the networking core as negative errors and no operation returns 0 when the PF
says no, exactly unless the PF refuses to add a VLAN, which becomes a positive number, or says no
to an operation that does not look for it. -/
theorem reports_iff
    (reinit : NetdevM D Unit) (c : Callback) (s : Netdev D) (r : Request) (v : Vf D) :
  Reports V reinit c s ∧ Heeds V r v
    ↔ ¬ RefusesVlan V c s
      ∧ ∀ reply, r.sends v → outcome V r v = (0, reply) → Nack r (reply.getD 0 0#32) →
        Notices r (reply.getD 0 0#32)
  := by
  apply and_congr
  · by_cases hvlan : ∃ vid, c = .vlanRxAddVid vid
    · obtain ⟨vid, rfl⟩ := hvlan
      rw [vlanRxAddVid_reports_iff, RefusesVlan]
      simp
    · have hother : ∀ vid, c ≠ .vlanRxAddVid vid := fun vid hc => hvlan ⟨vid, hc⟩
      exact iff_of_true (reports_of_other V reinit hother s) fun h => hvlan h.1
  · apply heeds_iff

/-! ### A PF that says no -/

/-- A device whose PF answers every message at once with `word`.  Its state says whether the VF
holds the mailbox. -/
def answeringDevice (word : BitVec 32) : Device Bool where
  read held reg :=
    if reg = vfMailbox then (pfstsBit ||| pfackBit ||| (if held then vfuBit else 0#32), held)
    else if reg = vfMbmem then (word, held)
    else (0#32, held)
  write held reg value := if reg = vfMailbox then hasBit value vfuBit else held

/-- A network device that has come up. -/
def upNetdev : Netdev Bool where
  adapter := ⟨Request.freshVf, Vector.replicate 6 2#8, Vector.replicate 6 2#8⟩
  activeVlans _ := false
  mtu := 1500
  hasXdp := false
  running := true

/-- A PF that says no to a VLAN. -/
def noVlan : Device Bool := answeringDevice (vfSetVlan ||| msgtypeFailure ||| msgtypeCts)

/-- A PF that says no to a list of multicast addresses. -/
def noMulticast : Device Bool := answeringDevice (vfSetMulticast ||| msgtypeFailure)

/-- The networking core gets a positive number when the PF says no to a VLAN, and the update of
the multicast list returns 0 when the PF says no to it. -/
theorem refusals_not_reported :
  ¬ Reports noVlan (pure ()) (.vlanRxAddVid 5#16) upNetdev
    ∧ ¬ Heeds noMulticast (.updateMcAddrList [] (List.replicate 15 0#32)) Request.freshVf
  := by
  constructor
  · intro hreports
    have hreply : outcome noVlan (.setVfta 5#32 true) Request.freshVf
        = (0, [vfSetVlan ||| msgtypeFailure ||| msgtypeCts, 0#32]) := by decide +kernel
    have hvalue : ((vlanRxAddVid noVlan 5#16).run upNetdev).1 = 0x40000000 := by
      decide +kernel
    have hrefused : (Request.setVfta 5#32 true).Refused
        (vfSetVlan ||| msgtypeFailure ||| msgtypeCts) := by
      constructor
      · decide
      · decide
    have hfails : Fails noVlan (.vlanRxAddVid 5#16) upNetdev := by
      right
      show (Request.setVfta 5#32 true).Refused
        ((outcome noVlan (.setVfta 5#32 true) Request.freshVf).2.getD 0 0#32)
      rw [hreply]
      exact hrefused
    have hneg := hreports hfails
    simp only [Callback.run] at hneg
    rw [hvalue] at hneg
    exact absurd hneg (by decide)
  · intro hheeds
    have hreply : outcome noMulticast (.updateMcAddrList [] (List.replicate 15 0#32))
        Request.freshVf
        = (0, (vfSetMulticast ||| msgtypeFailure) :: List.replicate 15 0#32) := by decide +kernel
    have hnack : Nack (.updateMcAddrList [] (List.replicate 15 0#32))
        (vfSetMulticast ||| msgtypeFailure) := .inl (by decide)
    have hvalue : (((Request.updateMcAddrList [] (List.replicate 15 0#32)).run noMulticast).run
        Request.freshVf).1 = 0 := by decide +kernel
    have hne := hheeds _ rfl hreply hnack
    exact hne hvalue

end Ixgbevf.Callbacks
