import Ixgbevf.Requests

/-!
# Which replies a request takes for its own

The PF leaves messages of its own in the mailbox, and replies to requests that the VF has
given up on.  A request is granted by a reply that repeats its opcode with the success bit; the
bits for clear to send and the extra information do not count.
-/

namespace Ixgbevf

open StateProgram

/-- The requests of the VF, with what they are called with. -/
inductive Request where
  | setRar (addr : MacAddr)
  | setUcAddr (index : BitVec 32) (addr : Option MacAddr)
  | updateMcAddrList (addrs : List MacAddr) (stack : List (BitVec 32))
  | updateXcastMode (mode : XcastMode)
  | getLinkState
  | getPfLinkState
  | negotiateFeatures
  | setVfta (vlan : BitVec 32) (vlanOn : Bool)
  | rlpmlSet (maxSize : BitVec 16)
  | negotiateApiVersion (api : ApiVersion)
  | getQueues
  | getReta (numRxQueues : ℤ) (stack : List (BitVec 32))
  | getRssKey (stack : List (BitVec 32))

variable {D : Type} (V : Device D)

namespace Request

/-- The operation of a request. -/
def run : Request → VfM D ℤ
  | setRar addr => setRarVf V addr
  | setUcAddr index addr => setUcAddrVf V index addr
  | updateMcAddrList addrs stack => updateMcAddrListVf V addrs stack
  | updateXcastMode mode => Ixgbevf.updateXcastMode V mode
  | getLinkState => getLinkStateVf V
  | getPfLinkState => getPfLinkStateVf V
  | negotiateFeatures => negotiateFeaturesVf V
  | setVfta vlan vlanOn => setVftaVf V vlan vlanOn
  | rlpmlSet maxSize => rlpmlSetVf V maxSize
  | negotiateApiVersion api => Ixgbevf.negotiateApiVersion V api
  | getQueues => Ixgbevf.getQueues V
  | getReta numRxQueues stack => getRetaLocked V numRxQueues stack
  | getRssKey stack => getRssKeyLocked V stack

/-- The opcode of a request. -/
def opcode : Request → BitVec 32
  | setRar _ => vfSetMacAddr
  | setUcAddr _ _ => vfSetMacvlan
  | updateMcAddrList _ _ => vfSetMulticast
  | updateXcastMode _ => vfUpdateXcastMode
  | getLinkState => vfGetLinkState
  | getPfLinkState => vfGetPfLinkState
  | negotiateFeatures => vfFeaturesNegotiate
  | setVfta _ _ => vfSetVlan
  | rlpmlSet _ => vfSetLpe
  | negotiateApiVersion _ => vfApiNegotiate
  | getQueues => vfGetQueues
  | getReta _ _ => vfGetReta
  | getRssKey _ => vfGetRssKey

/-- Whether the operation gets as far as to send its request. -/
def sends (v : Vf D) : Request → Bool
  | updateXcastMode mode => xcastAllowed v.apiVersion mode
  | getPfLinkState => v.apiVersion.hasLinkState
  | negotiateFeatures => v.apiVersion = .api17
  | getQueues => v.apiVersion.hasQueues
  | getReta _ _ | getRssKey _ => v.hasRssQuery
  | _ => true

/-- The request on its way to the PF and the reply, as far as there is one. -/
def exchange (v : Vf D) : Request → PortM D (ℤ × List (BitVec 32))
  | setRar addr => writeMsgReadAck V (vfSetMacAddr :: addrWords addr) 3
  | setUcAddr index addr =>
    writeMsgReadAck V (macvlanWord index :: (addr.map addrWords).getD [0#32, 0#32]) 3
  | updateMcAddrList addrs stack =>
    writeMsgReadAck V (multicastWords v.mcFilterType addrs stack) 16
  | updateXcastMode mode =>
    writeMsgReadAck V [vfUpdateXcastMode, BitVec.ofNat 32 mode.value] 2
  | getLinkState => writeMsgReadAck V [vfGetLinkState, 0#32] 2
  | getPfLinkState => linkStateExchange V
  | negotiateFeatures => writeMsgReadAck V [vfFeaturesNegotiate, supportedFeatures] 2
  | setVfta vlan vlanOn => writeMsgReadAck V [vlanWord vlanOn, vlan] 2
  | rlpmlSet maxSize => writeMsgReadAck V [vfSetLpe, maxSize.setWidth 32] 2
  | negotiateApiVersion api =>
    writeMsgReadAck V [vfApiNegotiate, BitVec.ofNat 32 api.value, 0#32] 3
  | getQueues => writeMsgReadAck V [vfGetQueues, 0#32, 0#32, 0#32, 0#32] 5
  | getReta _ stack => rssExchange V (vfGetReta :: stack) (retaSize / 16 + 1)
  | getRssKey stack => rssExchange V (vfGetRssKey :: stack) 11

/-- A reply that starts with `word` grants the request. -/
def Granted (r : Request) (word : BitVec 32) : Prop :=
  word &&& ~~~ (msgtypeCts ||| msginfoMask) = r.opcode ||| msgtypeSuccess

/-- The operation takes a reply that starts with `word` for a refusal. -/
def Refused (r : Request) (word : BitVec 32) : Prop :=
  match r with
  | setRar _ => word &&& ~~~ msgtypeCts = vfSetMacAddr ||| msgtypeFailure
  | setUcAddr index _ => word &&& ~~~ msgtypeCts = macvlanWord index ||| msgtypeFailure
  | updateMcAddrList _ _ => False
  | updateXcastMode _ => word &&& ~~~ msgtypeCts = vfUpdateXcastMode ||| msgtypeFailure
  | getLinkState | getPfLinkState | negotiateFeatures => hasBit word msgtypeFailure
  | setVfta _ _ => ¬ hasBit word msgtypeSuccess ∧ hasBit word msgtypeFailure
  | rlpmlSet _ => hasBit word vfSetLpe ∧ hasBit word msgtypeFailure
  | negotiateApiVersion _ | getQueues | getReta _ _ | getRssKey _ =>
    word &&& ~~~ msgtypeCts ≠ r.opcode ||| msgtypeSuccess

/-- The operation compares the reply with the one that grants the request. -/
def compares : Request → Bool
  | negotiateApiVersion _ | getQueues | getReta _ _ | getRssKey _ => true
  | _ => false

/-- What the operation falls back to where its request is not granted. -/
def fallback (v : Vf D) : Request → Vf D
  | setRar _ => { v with addr := v.permAddr }
  | getPfLinkState => { v with speed := linkSpeedUnknown }
  | negotiateFeatures => { v with pfFeatures := 0#32 }
  | _ => v

/-- The operation failed and took nothing from the reply. -/
def Failed (r : Request) (v : Vf D) (x : ℤ × Vf D) : Prop :=
  x.1 ≠ 0 ∧ (x.2 = { v with port := x.2.port } ∨ x.2 = { r.fallback v with port := x.2.port })

/-- Once it has sent its request, the operation fails unless a reply grants the request. -/
def Checked (r : Request) (v : Vf D) : Prop :=
  r.sends v → (∃ reply, ((r.exchange V v).run v.port).1 = (0, reply) ∧
    r.Granted (reply.getD 0 0#32)) ∨ r.Failed v ((r.run V).run v)

/-- A reply to the request, where there is one, grants it or is taken for a refusal. -/
def Discerned (r : Request) (v : Vf D) : Prop :=
  r.sends v → ∀ reply, ((r.exchange V v).run v.port).1 = (0, reply) →
    r.Granted (reply.getD 0 0#32) ∨ r.Refused (reply.getD 0 0#32)

/-! ### What the operations make of a reply -/

/-- What an operation does that has exchanged messages: it fails without a reply and on a
refusal, and succeeds on any other reply. -/
structure Decides (r : Request) (v : Vf D) (f : ℤ × List (BitVec 32) → VfM D ℤ) : Prop where
  error : ∀ err msg (p : Port D), IsSilence err → err ≠ 0 →
    r.Failed v ((f (err, msg)).run { v with port := p })
  refused : ∀ msg (p : Port D), r.Refused (msg.getD 0 0#32) →
    r.Failed v ((f (0, msg)).run { v with port := p })
  accepted : ∀ msg (p : Port D), ¬ r.Refused (msg.getD 0 0#32) →
    ((f (0, msg)).run { v with port := p }).1 = 0

/-- A failure that leaves everything as it is. -/
theorem failed_pure {r : Request} {v : Vf D} {err : ℤ} (h : err ≠ 0) (p : Port D) :
  r.Failed v ((pure err : VfM D ℤ).run { v with port := p })
  := ⟨h, .inl rfl⟩

/-- A failure that falls back. -/
theorem failed_fallback {r : Request} {v v' : Vf D} {err : ℤ} (h : err ≠ 0)
    (hv : v' = { r.fallback v with port := v'.port }) :
  r.Failed v ((pure err : VfM D ℤ).run v')
  := ⟨h, .inr hv⟩

/-- The errors of an exchange are not lost in 32 bits. -/
theorem ofInt_ne_zero {err : ℤ} (h : IsSilence err) (hne : err ≠ 0) :
  BitVec.ofInt 32 err ≠ 0#32
  := by
  rcases h with rfl | rfl | rfl | rfl | rfl
  · exact absurd rfl hne
  all_goals decide

/-- Bits that are added do not clear a word. -/
theorem toInt_or_ne_zero {w w' : BitVec 32} (h : w ≠ 0#32 ∨ w' ≠ 0#32) :
  (w ||| w').toInt ≠ 0
  := by
  intro hzero
  have hor : w ||| w' = 0#32 := by
    apply BitVec.eq_of_toInt_eq
    rw [hzero]
    rfl
  rw [BitVec.or_eq_zero_iff] at hor
  rcases h with h | h
  · exact h hor.1
  · exact h hor.2

/-- `ixgbe_set_rar_vf` refuses the address that the PF refuses. -/
theorem setRar_decides (addr : MacAddr) (v : Vf D) :
  ∃ f, (setRarVf V addr).run v = (talk ((setRar addr).exchange V v) >>= f).run v ∧
    (setRar addr).Decides v f
  := by
  refine ⟨_, rfl, ?_, ?_, ?_⟩
  · intro err msg p _ hne
    simp only [hne, false_and, if_false]
    apply failed_pure hne
  · intro msg p hrefused
    have hword : replyWord msg = vfSetMacAddr ||| msgtypeFailure := hrefused
    simp only [hword, and_self, if_true]
    apply failed_fallback
    · decide
    · rfl
  · intro msg p hno
    have hword : replyWord msg ≠ vfSetMacAddr ||| msgtypeFailure := hno
    simp only [hword, and_false, if_false]
    rfl

/-- `ixgbevf_set_uc_addr_vf` fails where the PF repeats its first word with the failure bit. -/
theorem setUcAddr_decides (index : BitVec 32) (addr : Option MacAddr) (v : Vf D) :
  ∃ f, (setUcAddrVf V index addr).run v
      = (talk ((setUcAddr index addr).exchange V v) >>= f).run v ∧
    (setUcAddr index addr).Decides v f
  := by
  refine ⟨_, rfl, ?_, ?_, ?_⟩
  · intro err msg p _ hne
    simp only [hne, false_and, if_false]
    apply failed_pure hne
  · intro msg p hrefused
    have hword : replyWord msg = macvlanWord index ||| msgtypeFailure := hrefused
    simp only [hword, and_self, if_true]
    apply failed_pure (by decide)
  · intro msg p hno
    have hword : replyWord msg ≠ macvlanWord index ||| msgtypeFailure := hno
    simp only [hword, and_false, if_false]
    rfl

/-- `ixgbe_update_mc_addr_list_vf` does not look at the reply. -/
theorem updateMcAddrList_decides (addrs : List MacAddr) (stack : List (BitVec 32)) (v : Vf D) :
  ∃ f, (updateMcAddrListVf V addrs stack).run v
      = (talk ((updateMcAddrList addrs stack).exchange V v) >>= f).run v ∧
    (updateMcAddrList addrs stack).Decides v f
  := by
  refine ⟨?_, ?_, ?_⟩
  rotate_left
  · rw [updateMcAddrListVf, run_get_bind]
    rfl
  · constructor
    · intro err msg p _ hne
      apply failed_pure hne
    · intro msg p hrefused
      cases hrefused
    · intro msg p _
      rfl

/-- `ixgbevf_update_xcast_mode` refuses the mode that the PF refuses. -/
theorem updateXcastMode_decides (mode : XcastMode) (v : Vf D)
    (h : xcastAllowed v.apiVersion mode) :
  ∃ f, (Ixgbevf.updateXcastMode V mode).run v
      = (talk ((updateXcastMode mode).exchange V v) >>= f).run v ∧
    (updateXcastMode mode).Decides v f
  := by
  refine ⟨?_, ?_, ?_⟩
  rotate_left
  · rw [Ixgbevf.updateXcastMode, run_get_bind, if_pos h]
    rfl
  · constructor
    · intro err msg p _ hne
      simp only [ne_eq, hne, not_false_eq_true, if_true]
      apply failed_pure hne
    · intro msg p hrefused
      have hword : replyWord msg = vfUpdateXcastMode ||| msgtypeFailure := hrefused
      simp only [ne_eq, not_true_eq_false, if_false, hword, if_true]
      apply failed_pure (by decide)
    · intro msg p hno
      have hword : replyWord msg ≠ vfUpdateXcastMode ||| msgtypeFailure := hno
      simp only [ne_eq, not_true_eq_false, if_false, hword]
      rfl

/-- `ixgbe_get_link_state_vf` tests the failure bit. -/
theorem getLinkState_decides (v : Vf D) :
  ∃ f, (getLinkStateVf V).run v = (talk (getLinkState.exchange V v) >>= f).run v ∧
    getLinkState.Decides v f
  := by
  refine ⟨_, rfl, ?_, ?_, ?_⟩
  · intro err msg p _ hne
    simp only [ne_eq, hne, not_false_eq_true, true_or, if_true]
    apply failed_pure (by decide)
  · intro msg p hrefused
    have hword : hasBit (msg.getD 0 0#32) msgtypeFailure = true := hrefused
    simp only [hword, or_true, if_true]
    apply failed_pure (by decide)
  · intro msg p hno
    have hword : ¬ hasBit (msg.getD 0 0#32) msgtypeFailure = true := hno
    simp only [ne_eq, not_true_eq_false, hword]
    rfl

/-- What `ixgbevf_get_pf_link_state` returns and writes after an exchange. -/
def pfLinkReply (linkUp : Bool) (x : ℤ × List (BitVec 32)) : ℤ × BitVec 32 × Bool :=
  if x.1 ≠ 0 then
    (x.1, linkSpeedUnknown, linkUp)
  else if hasBit (x.2.getD 0 0#32) msgtypeFailure then
    (errMbx, linkSpeedUnknown, linkUp)
  else
    (0, x.2.getD 1 0#32, x.2.getD 2 0#32 != 0#32)

/-- `ixgbevf_get_pf_link_state` tests the failure bit. -/
theorem getPfLinkState_decides (v : Vf D) (h : v.apiVersion.hasLinkState) :
  ∃ f, (getPfLinkStateVf V).run v = (talk (getPfLinkState.exchange V v) >>= f).run v ∧
    getPfLinkState.Decides v f
  := by
  use fun x => do
    modify fun v' => { v' with
      speed := (pfLinkReply v.linkUp x).2.1
      linkUp := (pfLinkReply v.linkUp x).2.2 }
    pure (pfLinkReply v.linkUp x).1
  constructor
  · have hrun := getPfLinkState_run V h v.speed v.linkUp v.port
    rw [getPfLinkStateVf, run_get_bind]
    simp only [talk, StateT.run_bind, StateT.run_modifyGet, hrun, exchange]
    rfl
  · constructor
    · intro err msg p _ hne
      simp only [pfLinkReply, ne_eq, hne, not_false_eq_true, if_true]
      apply failed_fallback hne
      rfl
    · intro msg p hrefused
      have hword : hasBit (msg.getD 0 0#32) msgtypeFailure = true := hrefused
      simp only [pfLinkReply, ne_eq, not_true_eq_false, if_false, hword, if_true]
      apply failed_fallback
      · decide
      · rfl
    · intro msg p hno
      have hword : ¬ hasBit (msg.getD 0 0#32) msgtypeFailure = true := hno
      simp only [pfLinkReply, ne_eq, not_true_eq_false, if_false, hword]
      rfl

/-- `ixgbevf_negotiate_features_vf` tests the failure bit. -/
theorem negotiateFeatures_decides (v : Vf D) (h : v.apiVersion = .api17) :
  ∃ f, (negotiateFeaturesVf V).run v = (talk (negotiateFeatures.exchange V v) >>= f).run v ∧
    negotiateFeatures.Decides v f
  := by
  refine ⟨?_, ?_, ?_⟩
  rotate_left
  · rw [negotiateFeaturesVf, run_get_bind, if_pos h]
    rfl
  · constructor
    · intro err msg p _ hne
      simp only [ne_eq, hne, not_false_eq_true, true_or, if_true]
      apply failed_fallback
      · decide
      · rfl
    · intro msg p hrefused
      have hword : hasBit (msg.getD 0 0#32) msgtypeFailure = true := hrefused
      simp only [hword, or_true, if_true]
      apply failed_fallback
      · decide
      · rfl
    · intro msg p hno
      have hword : ¬ hasBit (msg.getD 0 0#32) msgtypeFailure = true := hno
      simp only [ne_eq, not_true_eq_false, hword]
      rfl

/-- `ixgbe_set_vfta_vf` fails on the failure bit without the success bit. -/
theorem setVfta_decides (vlan : BitVec 32) (vlanOn : Bool) (v : Vf D) :
  ∃ f, (setVftaVf V vlan vlanOn).run v
      = (talk ((setVfta vlan vlanOn).exchange V v) >>= f).run v ∧
    (setVfta vlan vlanOn).Decides v f
  := by
  refine ⟨_, rfl, ?_, ?_, ?_⟩
  · intro err msg p hsilence hne
    simp only [hne, false_and, if_false]
    apply failed_pure
    apply toInt_or_ne_zero
    apply Or.inl (ofInt_ne_zero hsilence hne)
  · intro msg p hrefused
    obtain ⟨hsuccess, hfailure⟩ : ¬ hasBit (msg.getD 0 0#32) msgtypeSuccess = true ∧
      hasBit (msg.getD 0 0#32) msgtypeFailure = true := hrefused
    simp only [hsuccess]
    apply failed_pure
    apply toInt_or_ne_zero
    simp only [hasBit, bne_iff_ne] at hfailure
    apply Or.inr hfailure
  · intro msg p hno
    by_cases hsuccess : hasBit (msg.getD 0 0#32) msgtypeSuccess = true
    · simp only [hsuccess, and_self, if_true]
      rfl
    · have hfailure : ¬ hasBit (msg.getD 0 0#32) msgtypeFailure = true := by
        intro hfailure
        exact hno ⟨hsuccess, hfailure⟩
      simp only [hasBit, bne_iff_ne, ne_eq, not_not] at hfailure
      simp only [hsuccess, hfailure]
      rfl

/-- `ixgbevf_rlpml_set_vf` fails on the failure bit with a bit of the opcode. -/
theorem rlpmlSet_decides (maxSize : BitVec 16) (v : Vf D) :
  ∃ f, (rlpmlSetVf V maxSize).run v
      = (talk ((rlpmlSet maxSize).exchange V v) >>= f).run v ∧
    (rlpmlSet maxSize).Decides v f
  := by
  refine ⟨_, rfl, ?_, ?_, ?_⟩
  · intro err msg p _ hne
    simp only [ne_eq, hne, not_false_eq_true, if_true]
    apply failed_pure hne
  · intro msg p hrefused
    obtain ⟨hop, hfailure⟩ : hasBit (msg.getD 0 0#32) vfSetLpe = true ∧
      hasBit (msg.getD 0 0#32) msgtypeFailure = true := hrefused
    simp only [ne_eq, not_true_eq_false, if_false, hop, hfailure, and_self, if_true]
    apply failed_pure (by decide)
  · intro msg p hno
    have hword : ¬ (hasBit (msg.getD 0 0#32) vfSetLpe = true ∧
      hasBit (msg.getD 0 0#32) msgtypeFailure = true) := hno
    simp only [ne_eq, not_true_eq_false, if_false, hword]
    rfl

/-- `ixgbevf_negotiate_api_version` takes any other reply for a refusal. -/
theorem negotiateApiVersion_decides (api : ApiVersion) (v : Vf D) :
  ∃ f, (Ixgbevf.negotiateApiVersion V api).run v
      = (talk ((negotiateApiVersion api).exchange V v) >>= f).run v ∧
    (negotiateApiVersion api).Decides v f
  := by
  refine ⟨_, rfl, ?_, ?_, ?_⟩
  · intro err msg p _ hne
    simp only [ne_eq, hne, not_false_eq_true, if_true]
    apply failed_pure hne
  · intro msg p hrefused
    have hword : replyWord msg ≠ vfApiNegotiate ||| msgtypeSuccess := hrefused
    simp only [ne_eq, not_true_eq_false, if_false, hword]
    apply failed_pure (by decide)
  · intro msg p hno
    have hword : replyWord msg = vfApiNegotiate ||| msgtypeSuccess := not_not.mp hno
    simp only [ne_eq, not_true_eq_false, if_false, hword, if_true]
    rfl

/-- `ixgbevf_get_queues` takes any other reply for a refusal. -/
theorem getQueues_decides (v : Vf D) (h : v.apiVersion.hasQueues) :
  ∃ f, (Ixgbevf.getQueues V).run v = (talk (getQueues.exchange V v) >>= f).run v ∧
    getQueues.Decides v f
  := by
  refine ⟨?_, ?_, ?_⟩
  rotate_left
  · rw [Ixgbevf.getQueues, run_get_bind, if_pos h]
    rfl
  · constructor
    · intro err msg p _ hne
      simp only [ne_eq, hne, not_false_eq_true, if_true]
      apply failed_pure hne
    · intro msg p hrefused
      have hword : replyWord msg ≠ vfGetQueues ||| msgtypeSuccess := hrefused
      simp only [ne_eq, not_true_eq_false, if_false, hword, not_false_eq_true, if_true]
      apply failed_pure (by decide)
    · intro msg p hno
      have hword : replyWord msg = vfGetQueues ||| msgtypeSuccess := not_not.mp hno
      simp only [ne_eq, not_true_eq_false, if_false, hword]
      rfl

/-- Success is not failure. -/
theorem success_ne_failure (op : BitVec 32) (h : op &&& msgtypeFailure = 0#32) :
  op ||| msgtypeSuccess ≠ op ||| msgtypeFailure
  := by
  intro heq
  have hbit := congrArg (· &&& msgtypeFailure) heq
  simp only [BitVec.and_or_distrib_right, h] at hbit
  revert hbit
  decide

/-- The queries for the RSS configuration take any other reply for a refusal. -/
theorem rssQuery_decides
    (r : Request) (op : BitVec 32) (size : ℕ) (stack : List (BitVec 32))
    (record : List (BitVec 32) → Vf D → Vf D) (v : Vf D) (h : v.hasRssQuery)
    (hx : r.exchange V v = rssExchange V (op :: stack) size) (hop : op &&& msgtypeFailure = 0#32)
    (hr : ∀ word, r.Refused word ↔ word &&& ~~~ msgtypeCts ≠ op ||| msgtypeSuccess) :
  ∃ f, (rssQuery V op size stack record).run v = (talk (r.exchange V v) >>= f).run v ∧
    r.Decides v f
  := by
  refine ⟨?_, ?_, ?_⟩
  rotate_left
  · rw [rssQuery, run_get_bind, if_pos h, hx]
  · constructor
    · intro err msg p _ hne
      simp only [ne_eq, hne, not_false_eq_true, if_true]
      apply failed_pure hne
    · intro msg p hrefused
      have hword : replyWord msg ≠ op ||| msgtypeSuccess := (hr _).mp hrefused
      by_cases hfailure : replyWord msg = op ||| msgtypeFailure
      · simp only [ne_eq, not_true_eq_false, if_false, hfailure, if_true]
        apply failed_pure (by decide)
      · simp only [ne_eq, not_true_eq_false, if_false, hfailure, hword, not_false_eq_true, if_true]
        apply failed_pure (by decide)
    · intro msg p hno
      have hword : replyWord msg = op ||| msgtypeSuccess := by
        have hno' := (hr _).not.mp hno
        exact not_not.mp hno'
      have hne := success_ne_failure op hop
      simp only [ne_eq, not_true_eq_false, if_false, hword, hne]
      rfl

/-! ### Which replies are discerned -/

/-- Every operation that sends its request decides by the first word of the reply. -/
theorem decides (r : Request) (v : Vf D) (h : r.sends v) :
  ∃ f, (r.run V).run v = (talk (r.exchange V v) >>= f).run v ∧ r.Decides v f
  := by
  cases r with
  | setRar addr => apply setRar_decides
  | setUcAddr index addr => apply setUcAddr_decides
  | updateMcAddrList addrs stack => apply updateMcAddrList_decides
  | updateXcastMode mode => apply updateXcastMode_decides V mode v h
  | getLinkState => apply getLinkState_decides
  | getPfLinkState => apply getPfLinkState_decides V v h
  | negotiateFeatures => apply negotiateFeatures_decides V v (of_decide_eq_true h)
  | setVfta vlan vlanOn => apply setVfta_decides
  | rlpmlSet maxSize => apply rlpmlSet_decides
  | negotiateApiVersion api => apply negotiateApiVersion_decides
  | getQueues => apply getQueues_decides V v h
  | getReta numRxQueues stack =>
    apply rssQuery_decides V (getReta numRxQueues stack) vfGetReta _ stack _ v h rfl (by decide)
    intro word
    rfl
  | getRssKey stack =>
    apply rssQuery_decides V (getRssKey stack) vfGetRssKey _ stack _ v h rfl (by decide)
    intro word
    rfl

/-- An exchange fails only with an error of the mailbox layer. -/
theorem exchange_silence (r : Request) (v : Vf D) :
  IsSilence ((r.exchange V v).run v.port).1.1
  := by
  have hrss (msg : List (BitVec 32)) (size : ℕ) :
      Returns (fun x => IsSilence x.1) (rssExchange V msg size) := by
    refine returns_bind_of (writeMbx_returns V) fun err he => ?_
    apply returns_ite
    · apply returns_pure he
    · apply pollMbx_returns
  cases r with
  | getReta numRxQueues stack => apply hrss
  | getRssKey stack => apply hrss
  | getPfLinkState => apply writeMsgReadAck_returns V v.port
  | setRar addr => apply writeMsgReadAck_returns V v.port
  | setUcAddr index addr => apply writeMsgReadAck_returns V v.port
  | updateMcAddrList addrs stack => apply writeMsgReadAck_returns V v.port
  | updateXcastMode mode => apply writeMsgReadAck_returns V v.port
  | getLinkState => apply writeMsgReadAck_returns V v.port
  | negotiateFeatures => apply writeMsgReadAck_returns V v.port
  | setVfta vlan vlanOn => apply writeMsgReadAck_returns V v.port
  | rlpmlSet maxSize => apply writeMsgReadAck_returns V v.port
  | negotiateApiVersion api => apply writeMsgReadAck_returns V v.port
  | getQueues => apply writeMsgReadAck_returns V v.port

/-- An operation that compares its reply takes any other for a refusal. -/
theorem granted_or_refused {r : Request} (h : r.compares) (word : BitVec 32) :
  r.Granted word ∨ r.Refused word
  := by
  by_cases hword : word &&& ~~~ msgtypeCts = r.opcode ||| msgtypeSuccess
  · left
    have hmask : (~~~ (msgtypeCts ||| msginfoMask) : BitVec 32)
        = ~~~ msgtypeCts &&& ~~~ msginfoMask := by decide
    unfold Granted
    rw [hmask, ← BitVec.and_assoc, hword]
    cases r with
    | negotiateApiVersion => simp only [opcode]; decide
    | getQueues => decide
    | getReta => simp only [opcode]; decide
    | getRssKey => simp only [opcode]; decide
    | _ => cases h
  · right
    cases r with
    | negotiateApiVersion => exact hword
    | getQueues => exact hword
    | getReta => exact hword
    | getRssKey => exact hword
    | _ => cases h

/-- An operation takes only the reply to its request for a success exactly when the reply it
gets grants the request or is one that the operation takes for a refusal; where it compares
the reply, that is always so. -/
theorem checked_iff (r : Request) (v : Vf D) :
  (r.Checked V v ↔ r.Discerned V v) ∧ (r.compares → r.Checked V v)
  := by
  have hiff : r.Checked V v ↔ r.Discerned V v := by
    unfold Checked Discerned
    apply imp_congr_right
    intro hsends
    obtain ⟨f, hrun, hdecides⟩ := r.decides V v hsends
    have hsilence := r.exchange_silence V v
    have htalk : (talk (r.exchange V v) >>= f).run v
        = (f ((r.exchange V v).run v.port).1).run
          { v with port := ((r.exchange V v).run v.port).2 } := rfl
    rw [hrun, htalk]
    revert hsilence
    rcases (r.exchange V v).run v.port with ⟨⟨err, msg⟩, p⟩
    intro hsilence
    constructor
    · rintro (⟨reply, heq, hgranted⟩ | hfailed) reply' heq'
      · rw [heq, Prod.mk.injEq] at heq'
        left
        rw [← heq'.2]
        exact hgranted
      · right
        cases heq'
        by_contra hno
        exact hfailed.1 (hdecides.accepted _ p hno)
    · intro hdiscerned
      by_cases herr : err = 0
      · subst herr
        rcases hdiscerned msg rfl with hgranted | hrefused
        · left
          exact ⟨msg, rfl, hgranted⟩
        · right
          apply hdecides.refused _ _ hrefused
      · right
        apply hdecides.error _ _ _ hsilence herr
  refine ⟨hiff, ?_⟩
  intro hcompares
  rw [hiff]
  intro _ reply _
  apply granted_or_refused hcompares

/-! ### A control message in place of a reply -/

/-- `IXGBE_PF_CONTROL_MSG`. -/
def pfControlMsg : BitVec 32 := 0x0100#32

/-- A device whose PF keeps a control message in the mailbox.  Its state says whether the VF
holds the mailbox. -/
def controllingDevice : Device Bool where
  read held reg :=
    if reg = vfMailbox then (pfstsBit ||| pfackBit ||| (if held then vfuBit else 0), held)
    else if reg = vfMbmem then (pfControlMsg ||| msgtypeCts, held)
    else (0, held)
  write held reg value := if reg = vfMailbox then hasBit value vfuBit else held

/-- A VF on version 1.3 that has come up. -/
def freshVf : Vf Bool where
  port := {
    removed := false
    mbx := mbxParamsVf .legacy 0
    dev := false
    reads := [] }
  macType := .mac82599Vf
  apiVersion := .api13
  addr := .replicate 6 0
  permAddr := .replicate 6 0
  mcFilterType := 0
  maxTxQueues := 1
  maxRxQueues := 1
  linkState := false
  speed := 0
  linkUp := false
  pfFeatures := 0
  numTcs := 0
  defaultTc := 0
  reta := []
  rssKey := []

/-- An address counts as set although the PF has only sent a control message. -/
theorem controlMessage_not_checked :
  ¬ (setRar (.replicate 6 1)).Checked controllingDevice freshVf
  := by
  intro h
  rcases h rfl with ⟨reply, heq, hgranted⟩ | ⟨hret, -⟩
  · have hreply : reply = [pfControlMsg ||| msgtypeCts, 0#32, 0#32] := by
      have hmsg : (((setRar (.replicate 6 1)).exchange controllingDevice freshVf).run
          freshVf.port).1.2 = [pfControlMsg ||| msgtypeCts, 0#32, 0#32] := by
        decide +kernel
      rw [heq] at hmsg
      exact hmsg
    subst hreply
    revert hgranted
    unfold Granted
    decide
  · apply hret
    decide +kernel

end Request

end Ixgbevf
