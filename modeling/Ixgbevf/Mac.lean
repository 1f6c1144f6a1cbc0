import Ixgbevf.Lib.Run
import Ixgbevf.Session

/-!
# The MAC address

The driver keeps its address in three places: `hw->mac.addr`, `hw->mac.perm_addr` and
`netdev->dev_addr`.  A reset takes it from the PF, `ixgbevf_set_mac` asks the PF for another
one, and where the PF refuses an address `ixgbe_set_rar_vf` goes back to `perm_addr`.
-/

namespace Ixgbevf.Mac

open StateProgram

/-! ### The operations -/

/-- `-EADDRNOTAVAIL`. -/
def errAddrnotavail : ℤ := -99

/-- `-ENOMEM`. -/
def errNomem : ℤ := -12

/-- `is_valid_ether_addr`: neither a multicast address nor zero. -/
def isValidEtherAddr (addr : MacAddr) : Bool :=
  addr.get 0 &&& 1#8 == 0#8 && addr != Vector.replicate 6 0#8

/-- The VF and the addresses of its network device. -/
structure Adapter (D : Type) where
  /-- `hw`. -/
  vf : Vf D
  /-- `netdev->dev_addr`. -/
  devAddr : MacAddr
  /-- `netdev->perm_addr`. -/
  netPermAddr : MacAddr

/-- Programs that act on the adapter. -/
abbrev AdapterM (D : Type) := StateM (Adapter D)

variable {D : Type} (V : Device D)

/-- A program of the VF, from the adapter. -/
def onVf {α : Type} (m : VfM D α) : AdapterM D α :=
  modifyGet fun a => ((m.run a.vf).1, { a with vf := (m.run a.vf).2 })

/-- `ixgbevf_set_mac`. -/
def setMac (addr : MacAddr) : AdapterM D ℤ :=
  if isValidEtherAddr addr then do
    let err ← onVf (setRarVf V addr)
    if err ≠ 0 then
      pure errPerm
    else do
      modify fun a => { a with vf := { a.vf with addr := addr, permAddr := addr }, devAddr := addr }
      pure 0
  else
    pure errAddrnotavail

/-- The end of `ixgbevf_reset`: the network device takes the address. -/
def publishAddr (a : Adapter D) : Adapter D :=
  if isValidEtherAddr a.vf.addr then
    { a with devAddr := a.vf.addr, netPermAddr := a.vf.addr }
  else
    a

/-- `ixgbevf_reset`, while `__IXGBEVF_REMOVING` is as it says. -/
def reset (removing : Bool) : AdapterM D Unit := do
  let a ← get
  if a.vf.port.removed ∨ removing then
    pure ()
  else do
    onVf (ixgbevfReset V removing)
    modify publishAddr

/-- The requests of `ixgbevf_up_complete`. -/
def upComplete : AdapterM D Unit := do
  let a ← get
  let addr := if isValidEtherAddr a.vf.addr then a.vf.addr else a.vf.permAddr
  let _ ← onVf (setRarVf V addr)
  let _ ← onVf (getLinkStateVf V)

/-- The first reset of `ixgbevf_sw_init`, and the address that it takes from it. -/
def firstReset : AdapterM D Unit := do
  let err ← onVf (resetHwVf V)
  if err ≠ 0 then
    pure ()
  else do
    onVf initHwVf
    onVf (negotiateApi V)
    modify fun a => { a with vf := { a.vf with addr := a.vf.permAddr } }
    modify fun a => { a with devAddr := a.vf.addr }

/-- The end of `ixgbevf_sw_init`: without a valid address the device takes the address `random`
of `eth_hw_addr_random`. -/
def assignAddr (random : MacAddr) (a : Adapter D) : Adapter D :=
  if isValidEtherAddr a.devAddr then
    a
  else
    { a with vf := { a.vf with addr := random, permAddr := random }, devAddr := random }

/-- `ixgbevf_sw_init`, where `random` is the address of `eth_hw_addr_random`. -/
def swInit (rssKeyFails : Bool) (random : MacAddr) : AdapterM D ℤ := do
  modify fun a => { a with vf := { a.vf with
    port := { a.vf.port with mbx := a.vf.port.mbx.initParamsVf } } }
  let a ← get
  if MacType.macX550Vf.value ≤ a.vf.macType.value ∧ rssKeyFails then
    pure errNomem
  else do
    modify fun a => { a with vf := { a.vf with maxTxQueues := 2, maxRxQueues := 2 } }
    firstReset V
    modify (assignAddr random)
    pure 0

/-! ### Runs -/

/-- What happens to the addresses. -/
inductive Event (D : Type) where
  | setMac (addr : MacAddr)
  | reset (removing : Bool)
  | upComplete
  /-- Whatever the driver, the device and the PF do in between. -/
  | other (vf : Vf D)

/-- The addresses from the successful end of `ixgbevf_sw_init` on.  The network device is
allocated without an address, and a random address is valid. -/
def addresses : TransSystem (Adapter D) (Event D) where
  init a := ∃ a₀ rssKeyFails random, a₀.devAddr = Vector.replicate 6 0#8 ∧
    isValidEtherAddr random ∧ (swInit V rssKeyFails random).run a₀ = (0, a)
  step a e a' :=
    match e with
    | .setMac addr => a' = ((setMac V addr).run a).2
    | .reset removing => a' = ((reset V removing).run a).2
    | .upComplete => a' = ((upComplete V).run a).2
    | .other vf => vf.addr = a.vf.addr ∧ vf.permAddr = a.vf.permAddr ∧ a' = { a with vf := vf }

/-- The words that the VF reads from the mailbox memory in a reset of the hardware. -/
def resetReply (v : Vf D) : List (BitVec 32) :=
  mailWords (((resetHwVf V).run v).2.port.reads.drop v.port.reads.length)

/-- What is asked of the PF: a reply that grants a reset carries a valid address. -/
def Grants (a : Adapter D) : Event D → Prop
  | .reset _ => (resetReply V a.vf).getD 0 0#32 = vfReset ||| msgtypeSuccess →
      isValidEtherAddr (msgAddr (resetReply V a.vf))
  | _ => True

/-- The three addresses are one. -/
structure Coherent (a : Adapter D) : Prop where
  permAddr : a.vf.permAddr = a.vf.addr
  devAddr : a.devAddr = a.vf.addr

/-- Two states of the adapter have the same addresses. -/
structure SameAddrs (a a' : Adapter D) : Prop where
  addr : a'.vf.addr = a.vf.addr
  permAddr : a'.vf.permAddr = a.vf.permAddr
  devAddr : a'.devAddr = a.devAddr

/-! ### What keeps the addresses -/

/-- The addresses of the VF are the same. -/
structure SameMacs (v v' : Vf D) : Prop where
  addr : v'.addr = v.addr
  permAddr : v'.permAddr = v.permAddr

instance : IsPreorder (Vf D) SameMacs where
  refl _ := ⟨rfl, rfl⟩
  trans _ _ _ h h' := ⟨h'.addr.trans h.addr, h'.permAddr.trans h.permAddr⟩

/-- A program of the mailbox layer keeps the addresses. -/
theorem talk_sameMacs {α : Type} (m : PortM D α) :
  Keeps SameMacs (talk m)
  := by
  apply keeps_modifyGet
  intro v
  exact ⟨rfl, rfl⟩

/-- The negotiation of a version keeps the addresses. -/
theorem negotiateApiVersion_sameMacs (api : ApiVersion) :
  Keeps SameMacs (negotiateApiVersion V api)
  := by
  apply keeps_bind (talk_sameMacs _)
  intro x
  apply keeps_ite
  · apply keeps_pure
  · apply keeps_ite
    · apply keeps_bind
      · apply keeps_modify
        intro v
        exact ⟨rfl, rfl⟩
      · intro _
        apply keeps_pure
    · apply keeps_pure

/-- The loop over the versions keeps the addresses. -/
theorem negotiateVersions_sameMacs (apis : List ApiVersion) :
  Keeps SameMacs (negotiateVersions V apis)
  := by
  induction apis with
  | nil => apply keeps_pure
  | cons api apis ih =>
    apply keeps_bind (negotiateApiVersion_sameMacs V api)
    intro err
    apply keeps_ite
    · apply keeps_pure
    · apply ih

/-- The negotiation of the features keeps the addresses. -/
theorem negotiateFeaturesVf_sameMacs :
  Keeps SameMacs (negotiateFeaturesVf V)
  := by
  apply keeps_bind
  · apply keeps_get
  · intro v
    apply keeps_ite
    · apply keeps_bind (talk_sameMacs _)
      intro x
      apply keeps_ite
      all_goals
        apply keeps_bind
        · apply keeps_modify
          intro v
          exact ⟨rfl, rfl⟩
        · intro _
          apply keeps_pure
    · apply keeps_pure

/-- The negotiation after a reset keeps the addresses. -/
theorem negotiateApi_sameMacs :
  Keeps SameMacs (negotiateApi V)
  := by
  apply keeps_bind (negotiateVersions_sameMacs V _)
  intro _
  apply keeps_bind
  · apply keeps_bind (negotiateFeaturesVf_sameMacs V)
    intro _
    apply keeps_modify
    intro v
    split
    · exact ⟨rfl, rfl⟩
    · split
      · exact ⟨rfl, rfl⟩
      · apply refl_of
  · intro _
    apply keeps_modify
    intro v
    split
    · exact ⟨rfl, rfl⟩
    · apply refl_of

/-- The query for the link state keeps the addresses. -/
theorem getLinkStateVf_sameMacs :
  Keeps SameMacs (getLinkStateVf V)
  := by
  apply keeps_bind (talk_sameMacs _)
  intro x
  apply keeps_ite
  · apply keeps_pure
  · apply keeps_bind
    · apply keeps_modify
      intro v
      exact ⟨rfl, rfl⟩
    · intro _
      apply keeps_pure

/-- `ixgbe_set_rar_vf` keeps the addresses where the one it goes back to is the one there is. -/
theorem setRarVf_sameMacs {v : Vf D} (h : v.permAddr = v.addr) (addr : MacAddr) :
  SameMacs v ((setRarVf V addr).run v).2
  := by
  apply run_bind_of (fun _ v' => SameMacs v v') (fun r : ℤ × Vf D => SameMacs v r.2)
    (talk_sameMacs _ v)
  rintro ⟨err, msg⟩ v' hv'
  by_cases hrefused : err = 0 ∧ replyWord msg = vfSetMacAddr ||| msgtypeFailure
  · -- the refused address is replaced by the one there is
    simp only [if_pos hrefused]
    show SameMacs v { v' with addr := v'.permAddr }
    constructor
    · show v'.permAddr = v.addr
      rw [hv'.permAddr, h]
    · apply hv'.permAddr
  · simp only [if_neg hrefused]
    apply hv'

/-! ### What a reset reads -/

/-- The addresses of the VF and the size of its mailbox are the same, and no word of the mailbox
memory was read. -/
structure Untouched (v v' : Vf D) : Prop where
  macs : SameMacs v v'
  size : v'.port.mbx.size = v.port.mbx.size
  mail : ∃ t, v'.port.reads = v.port.reads ++ t ∧ mailWords t = []

/-- The words of the mailbox memory in two records, one after the other. -/
theorem mailWords_append (t t' : List (ℕ × BitVec 32)) :
  mailWords (t ++ t') = mailWords t ++ mailWords t'
  := by
  simp [mailWords]

instance : IsPreorder (Vf D) Untouched where
  refl v := ⟨refl_of SameMacs v, rfl, [], by rw [List.append_nil], rfl⟩
  trans _ _ _ h h' := by
    obtain ⟨t, ht, hm⟩ := h.mail
    obtain ⟨t', ht', hm'⟩ := h'.mail
    refine ⟨trans_of SameMacs h.macs h'.macs, h'.size.trans h.size, t ++ t', ?_, ?_⟩
    · rw [ht', ht, List.append_assoc]
    · rw [mailWords_append, hm, hm', List.append_nil]

/-- A quiet program of the mailbox layer touches nothing. -/
theorem talk_untouched {α : Type} {m : PortM D α} (h : Keeps Port.Quiet m) :
  Keeps Untouched (talk m)
  := by
  apply keeps_modifyGet
  intro v
  have hq : Port.Reads v.port (m.run v.port).2 [] [] := h v.port
  obtain ⟨t, ht, hm, -⟩ := hq.reads
  exact ⟨⟨rfl, rfl⟩, hq.size, t, ht, hm⟩

/-- A register outside the mailbox memory that is not the link register is read quietly. -/
theorem readReg_quiet {reg : ℕ} (hmail : ¬ (vfMbmem ≤ reg ∧ reg < vfMailbox))
    (hlinks : reg ≠ vfLinks) :
  Keeps Port.Quiet (readReg V reg)
  := by
  intro p
  have h := @readReg_reads D V reg p
  have hm : mailWords [(reg, ((readReg V reg).run p).1)] = [] := by
    rw [mailWords, List.filter_cons_of_neg (by simpa using hmail)]
    rfl
  have hl : linkWords [(reg, ((readReg V reg).run p).1)] = [] := by
    rw [linkWords, List.filter_cons_of_neg (by simpa using hlinks)]
    rfl
  rwa [hm, hl] at h

/-- A flush is quiet. -/
theorem writeFlush_quiet :
  Keeps Port.Quiet (writeFlush V)
  := by
  apply keeps_bind (readReg_quiet V (by decide) (by decide))
  intro _
  apply keeps_pure

/-- `ixgbe_stop_adapter_vf` is quiet. -/
theorem stopAdapterVf_quiet (maxTxQueues maxRxQueues : ℕ) :
  Keeps Port.Quiet (stopAdapterVf V maxTxQueues maxRxQueues)
  := by
  apply keeps_bind (writeReg_quiet V)
  intro _
  apply keeps_bind (readReg_quiet V (by decide) (by decide))
  intro _
  apply keeps_bind (keeps_eachQueue (fun i => writeReg_quiet V) _)
  intro _
  apply keeps_bind
  · apply keeps_eachQueue
    intro i
    apply keeps_bind
    · apply readReg_quiet
      · simp only [vfRxdctl, rxQueueReg, vfMailbox]
        omega
      · simp only [vfRxdctl, rxQueueReg, vfLinks]
        omega
    · intro _
      apply writeReg_quiet
  · intro _
    apply keeps_bind (writeReg_quiet V)
    intro _
    apply writeFlush_quiet

/-- `ixgbe_virt_clr_reg` is quiet. -/
theorem virtClrReg_quiet :
  Keeps Port.Quiet (virtClrReg V)
  := by
  apply keeps_bind (writeReg_quiet V)
  intro _
  apply keeps_bind
  · apply keeps_eachQueue
    intro i
    iterate 10
      apply keeps_bind (writeReg_quiet V)
      intro _
    apply writeReg_quiet
  · intro _
    apply writeFlush_quiet

/-- The wait for the reset is quiet. -/
theorem rstRounds_quiet (timeout : ℕ) :
  Keeps Port.Quiet (rstRounds V timeout)
  := by
  induction timeout with
  | zero =>
    apply keeps_bind (checkForRstVf_quiet V)
    intro _
    apply keeps_pure
  | succ timeout ih =>
    apply keeps_bind (checkForRstVf_quiet V)
    intro err
    apply keeps_ite
    · apply ih
    · apply keeps_pure

/-- The exchange of a reset reads one reply of four words, or fails. -/
theorem resetExchange_message {p : Port D} (hsize : p.mbx.size = 16) :
  MessageRead 4 [vfReset, 0#32, 0#32, 0#32] p ((resetExchange V).run p)
  := by
  apply run_bind_of (fun _ p' => p.Quiet p') (MessageRead 4 _ p) (writeMbx_quiet V p)
  intro _ p₁ h₁
  have hr : MessageRead _ [vfReset, 0#32, 0#32, 0#32] p₁ ((pollMbx V _ vfPermaddrMsgLen).run p₁) :=
    pollMbx_message V (by decide) p₁
  rw [h₁.size, hsize] at hr
  apply hr.of_quiet h₁

/-- What a reset of the hardware does to the addresses: the one of `perm_addr` stays, or the reset
succeeds and it comes from a reply that grants it. -/
structure TakesAddr (v : Vf D) (r : ℤ × Vf D) : Prop where
  addr : r.2.addr = v.addr
  reads : ∃ t, r.2.port.reads = v.port.reads ++ t ∧
    (r.2.permAddr = v.permAddr ∨ r.1 = 0 ∧
      (mailWords t).getD 0 0#32 = vfReset ||| msgtypeSuccess ∧
      r.2.permAddr = msgAddr (mailWords t))

/-- A stretch that touches nothing before a reset. -/
theorem TakesAddr.of_untouched {v v' : Vf D} {r : ℤ × Vf D} (h : Untouched v v')
    (hr : TakesAddr v' r) :
  TakesAddr v r
  := by
  obtain ⟨t, ht, hm⟩ := h.mail
  obtain ⟨t', ht', hcases⟩ := hr.reads
  have happ : mailWords (t ++ t') = mailWords t' := by
    rw [mailWords_append, hm, List.nil_append]
  refine ⟨hr.addr.trans h.macs.addr, t ++ t', ?_, ?_⟩
  · rw [ht', ht, List.append_assoc]
  · rw [happ, ← h.macs.permAddr]
    apply hcases

/-- A reset that gives up without a reply. -/
theorem TakesAddr.of_keeps {v v' : Vf D} (h : Untouched v v') (err : ℤ) :
  TakesAddr v ((pure err : VfM D ℤ).run v')
  := by
  obtain ⟨t, ht, -⟩ := h.mail
  exact ⟨h.macs.addr, t, ht, Or.inl h.macs.permAddr⟩

/-- What `ixgbe_reset_hw_vf` makes of the exchange with the PF. -/
theorem recordAddr_takes {v : Vf D} (hsize : v.port.mbx.size = 16) :
  TakesAddr v ((do
    let (err, msg) ← talk (resetExchange V)
    let word := msg.getD 0 0#32
    if err ≠ 0 then
      pure err
    else if word ≠ vfReset ||| msgtypeSuccess ∧ word ≠ vfReset ||| msgtypeFailure then
      pure errInvalidMacAddr
    else do
      modify fun v => { v with
        permAddr := if word = vfReset ||| msgtypeSuccess then msgAddr msg else v.permAddr
        mcFilterType := msg.getD vfMcTypeWord 0#32 }
      pure 0 : VfM D ℤ).run v)
  := by
  have hmsg := resetExchange_message V hsize
  apply run_bind_of (fun x v' => v'.addr = v.addr ∧ v'.permAddr = v.permAddr ∧
    ∃ t, v'.port.reads = v.port.reads ++ t ∧ (x.1 = 0 → x.2 = mailWords t)) (TakesAddr v)
  · refine ⟨rfl, rfl, ?_⟩
    obtain ⟨-, words, -, hwords, hread⟩ | ⟨hne, -, hquiet⟩ := hmsg
    · obtain ⟨t, ht, hm, -⟩ := hread.reads
      refine ⟨t, ht, fun _ => ?_⟩
      show ((resetExchange V).run v.port).1.2 = mailWords t
      rw [hwords, hm]
      exact List.append_nil _
    · have hreads : Port.Reads v.port ((resetExchange V).run v.port).2 [] [] := hquiet
      obtain ⟨t, ht, -, -⟩ := hreads.reads
      exact ⟨t, ht, fun h => absurd h hne⟩
  · rintro ⟨err, msg⟩ v' ⟨haddr, hperm, t, ht, hwords⟩
    by_cases herr : err = 0
    · have hmail : msg = mailWords t := hwords herr
      simp only [herr, ne_eq, not_true_eq_false, if_false]
      split
      · exact ⟨haddr, t, ht, Or.inl hperm⟩
      · refine ⟨haddr, t, ht, ?_⟩
        by_cases hgrant : msg.getD 0 0#32 = vfReset ||| msgtypeSuccess
        · refine Or.inr ⟨rfl, by rw [← hmail]; exact hgrant, ?_⟩
          show (if msg.getD 0 0#32 = vfReset ||| msgtypeSuccess then msgAddr msg else v'.permAddr)
            = msgAddr (mailWords t)
          rw [if_pos hgrant, hmail]
        · refine Or.inl ?_
          show (if msg.getD 0 0#32 = vfReset ||| msgtypeSuccess then msgAddr msg else v'.permAddr)
            = v.permAddr
          rw [if_neg hgrant, hperm]
    · simp only [herr, ne_eq, not_false_eq_true, if_true]
      exact ⟨haddr, t, ht, Or.inl hperm⟩

/-- The reset of the device takes an address as a reply grants it. -/
theorem resetDeviceVf_takes {v : Vf D} (hsize : v.port.mbx.size = 16) :
  TakesAddr v ((resetDeviceVf V).run v)
  := by
  apply run_bind_of (fun _ v' => Untouched v v') (TakesAddr v)
    (talk_untouched (writeReg_quiet V) v)
  intro _ v₁ h₁
  apply run_bind_of (fun _ v' => Untouched v v') (TakesAddr v)
    (trans_of Untouched h₁ (talk_untouched (writeFlush_quiet V) v₁))
  intro _ v₂ h₂
  apply run_bind_of (fun _ v' => Untouched v v') (TakesAddr v)
    (trans_of Untouched h₂ (talk_untouched (rstRounds_quiet V _) v₂))
  intro timedOut v₃ h₃
  split
  · apply TakesAddr.of_keeps h₃
  apply run_bind_of (fun _ v' => Untouched v v') (TakesAddr v)
    (trans_of Untouched h₃ (talk_untouched (virtClrReg_quiet V) v₃))
  intro _ v₄ h₄
  apply run_bind_of (fun _ v' => Untouched v v') (TakesAddr v)
  · have htimeout : Untouched v₄ { v₄ with port := { v₄.port with
        mbx := { v₄.port.mbx with timeout := vfMbxInitTimeout } } } :=
      ⟨⟨rfl, rfl⟩, rfl, [], by rw [List.append_nil], rfl⟩
    exact trans_of Untouched h₄ htimeout
  · intro _ v₅ h₅
    apply (recordAddr_takes V _).of_untouched h₅
    rw [h₅.size, hsize]

/-- `ixgbe_reset_hw_vf` takes an address as a reply grants it. -/
theorem resetHwVf_takes (v : Vf D) :
  TakesAddr v ((resetHwVf V).run v)
  := by
  rw [resetHwVf, run_get_bind]
  apply run_bind_of (fun _ v' => Untouched v v') (TakesAddr v)
    (talk_untouched (stopAdapterVf_quiet V _ _) v)
  intro _ v₁ h₁
  have hr : TakesAddr { v₁ with
      apiVersion := .api10
      port := { v₁.port with mbx := v₁.port.mbx.initParamsVf } } _ :=
    resetDeviceVf_takes V rfl
  obtain ⟨t, ht, hm⟩ := h₁.mail
  obtain ⟨t', ht', hcases⟩ := hr.reads
  have happ : mailWords (t ++ t') = mailWords t' := by
    rw [mailWords_append, hm, List.nil_append]
  refine ⟨hr.addr.trans h₁.macs.addr, t ++ t', ?_, ?_⟩
  · rw [← List.append_assoc, ← ht]
    exact ht'
  · rw [happ, ← h₁.macs.permAddr]
    exact hcases

/-! ### The invariant of a run -/

/-- What holds of the addresses of the VF: they are one, and it is valid. -/
structure Sound (v : Vf D) : Prop where
  permAddr : v.permAddr = v.addr
  valid : isValidEtherAddr v.addr

/-- Addresses that are kept stay sound. -/
theorem Sound.of_same {v v' : Vf D} (h : Sound v) (hs : SameMacs v v') :
  Sound v'
  := by
  constructor
  · rw [hs.permAddr, hs.addr, h.permAddr]
  · rw [hs.addr]
    apply h.valid

/-- The words that a reset of the hardware reads are the record of its reads. -/
theorem resetReply_eq
    {v : Vf D} {t : List (ℕ × BitVec 32)}
    (h : ((resetHwVf V).run v).2.port.reads = v.port.reads ++ t) :
  resetReply V v = mailWords t
  := by
  rw [resetReply, h, List.drop_left]

/-- A reset keeps the addresses of the VF sound. -/
theorem ixgbevfReset_sound
    {v : Vf D} (removing : Bool) (h : Sound v)
    (hG : (resetReply V v).getD 0 0#32 = vfReset ||| msgtypeSuccess →
      isValidEtherAddr (msgAddr (resetReply V v))) :
  Sound ((ixgbevfReset V removing).run v).2
  := by
  have htakes := resetHwVf_takes V v
  obtain ⟨t, ht, hcases⟩ := htakes.reads
  rw [resetReply_eq V ht] at hG
  apply run_bind_of (fun _ v' => Sound v') (fun r : Unit × Vf D => Sound r.2)
  · rw [resetToNegotiation, run_get_bind]
    split
    · apply h
    · apply run_bind_of
        (fun err v' => err = ((resetHwVf V).run v).1 ∧ v' = ((resetHwVf V).run v).2)
        (fun r : Bool × Vf D => Sound r.2) ⟨rfl, rfl⟩
      rintro err v' ⟨rfl, rfl⟩
      split
      · rename_i herr
        rcases hcases with hkept | ⟨hok, -⟩
        · apply h.of_same ⟨htakes.addr, hkept⟩
        · exact absurd hok herr
      · -- `ixgbe_init_hw_vf` copies what the reset has left in `perm_addr`
        refine ⟨rfl, ?_⟩
        show isValidEtherAddr ((resetHwVf V).run v).2.permAddr
        rcases hcases with hkept | ⟨-, hgrant, htaken⟩
        · rw [hkept, h.permAddr]
          apply h.valid
        · rw [htaken]
          apply hG hgrant
  · intro negotiates v' h'
    split
    · apply h'.of_same (negotiateApi_sameMacs V v')
    · apply h'

/-- What holds in every state of a run: the addresses of the VF are sound, and the network device
has the same. -/
structure Inv (a : Adapter D) : Prop where
  sound : Sound a.vf
  devAddr : a.devAddr = a.vf.addr

/-- The end of a reset tells the network device the address. -/
theorem publishAddr_inv {a : Adapter D} (h : Sound a.vf) :
  Inv (publishAddr a)
  := by
  unfold publishAddr
  rw [if_pos h.valid]
  exact ⟨h, rfl⟩

/-- `ixgbevf_reset` keeps the invariant. -/
theorem reset_inv
    {a : Adapter D} {removing : Bool} (h : Inv a) (hG : Grants V a (.reset removing)) :
  Inv ((reset V removing).run a).2
  := by
  rw [reset, run_get_bind]
  split
  · apply h
  · apply run_bind_of (fun _ a' => Sound a'.vf) (fun r : Unit × Adapter D => Inv r.2)
      (ixgbevfReset_sound V removing h.sound hG)
    intro _ a' h'
    apply publishAddr_inv h'

/-- `ixgbevf_set_mac` keeps the invariant, and the addresses where it fails. -/
theorem setMac_inv {a : Adapter D} (h : Inv a) (addr : MacAddr) :
  Inv ((setMac V addr).run a).2 ∧
    (((setMac V addr).run a).1 ≠ 0 → SameAddrs a ((setMac V addr).run a).2)
  := by
  unfold setMac
  split
  · rename_i hvalid
    apply run_bind_of (fun _ a' => SameMacs a.vf a'.vf ∧ a'.devAddr = a.devAddr)
      (fun r : ℤ × Adapter D => Inv r.2 ∧ (r.1 ≠ 0 → SameAddrs a r.2))
      ⟨setRarVf_sameMacs V h.sound.permAddr addr, rfl⟩
    rintro err a' ⟨hmacs, hdev⟩
    split
    · refine ⟨⟨h.sound.of_same hmacs, ?_⟩, fun _ => ⟨hmacs.addr, hmacs.permAddr, hdev⟩⟩
      show a'.devAddr = a'.vf.addr
      rw [hdev, hmacs.addr, h.devAddr]
    · exact ⟨⟨⟨rfl, hvalid⟩, rfl⟩, fun hne => absurd rfl hne⟩
  · exact ⟨h, fun _ => ⟨rfl, rfl, rfl⟩⟩

/-- The requests of `ixgbevf_up_complete` keep the invariant. -/
theorem upComplete_inv {a : Adapter D} (h : Inv a) :
  Inv ((upComplete V).run a).2
  := by
  rw [upComplete, run_get_bind]
  apply run_bind_of (fun _ a' => SameMacs a.vf a'.vf ∧ a'.devAddr = a.devAddr)
    (fun r : Unit × Adapter D => Inv r.2) ⟨setRarVf_sameMacs V h.sound.permAddr _, rfl⟩
  rintro _ a₁ ⟨hmacs, hdev⟩
  have hlink : SameMacs a₁.vf ((getLinkStateVf V).run a₁.vf).2 := getLinkStateVf_sameMacs V a₁.vf
  have hall := trans_of SameMacs hmacs hlink
  refine ⟨h.sound.of_same hall, ?_⟩
  show a₁.devAddr = ((getLinkStateVf V).run a₁.vf).2.addr
  rw [hdev, hall.addr, h.devAddr]

/-- After the first reset the network device has no valid address, or it has that of the VF. -/
theorem firstReset_inv {a : Adapter D} (h : ¬ isValidEtherAddr a.devAddr) :
  isValidEtherAddr ((firstReset V).run a).2.devAddr → Inv ((firstReset V).run a).2
  := by
  apply run_bind_of (fun _ a' => a'.devAddr = a.devAddr)
    (fun r : Unit × Adapter D => isValidEtherAddr r.2.devAddr → Inv r.2) rfl
  intro err a' hdev
  split
  · intro hvalid
    exact absurd (hdev ▸ hvalid) h
  · intro hvalid
    exact ⟨⟨rfl, hvalid⟩, rfl⟩

/-- Where the device has no valid address it takes a random one for all three. -/
theorem assignAddr_inv
    {a : Adapter D} {random : MacAddr} (h : isValidEtherAddr a.devAddr → Inv a)
    (hrandom : isValidEtherAddr random) :
  Inv (assignAddr random a)
  := by
  unfold assignAddr
  split
  · rename_i hvalid
    apply h hvalid
  · exact ⟨⟨rfl, hrandom⟩, rfl⟩

/-- A successful `ixgbevf_sw_init` leaves the invariant. -/
theorem swInit_inv
    {a₀ a : Adapter D} {rssKeyFails : Bool} {random : MacAddr}
    (hdev : a₀.devAddr = Vector.replicate 6 0#8) (hrandom : isValidEtherAddr random)
    (h : (swInit V rssKeyFails random).run a₀ = (0, a)) :
  Inv a
  := by
  have hblank {a' : Adapter D} (h' : a'.devAddr = a₀.devAddr) :
      ¬ isValidEtherAddr a'.devAddr := by
    rw [h', hdev]
    decide
  have hnomem : errNomem ≠ 0 := by decide
  have hinv : ((swInit V rssKeyFails random).run a₀).1 = 0 →
      Inv ((swInit V rssKeyFails random).run a₀).2 := by
    apply run_bind_of (fun _ a' => a'.devAddr = a₀.devAddr)
      (fun r : ℤ × Adapter D => r.1 = 0 → Inv r.2) rfl
    intro _ a₁ h₁
    rw [run_get_bind]
    split
    · exact fun hzero => absurd hzero hnomem
    · apply run_bind_of (fun _ a' => a'.devAddr = a₀.devAddr)
        (fun r : ℤ × Adapter D => r.1 = 0 → Inv r.2) h₁
      intro _ a₂ h₂
      have hfirst := firstReset_inv V (hblank h₂)
      apply run_bind_of (m := firstReset V) (s := a₂)
        (fun _ a' => isValidEtherAddr a'.devAddr → Inv a')
        (fun r : ℤ × Adapter D => r.1 = 0 → Inv r.2) hfirst
      intro _ a₃ h₃ _
      apply assignAddr_inv h₃ hrandom
  rw [h] at hinv
  apply hinv rfl

/-- Every operation keeps the invariant. -/
theorem step_inv
    {a a' : Adapter D} {e : Event D} (h : Inv a) (hG : Grants V a e)
    (hstep : (addresses V).step a e a') :
  Inv a'
  := by
  cases e with
  | setMac addr =>
    cases hstep
    apply (setMac_inv V h addr).1
  | reset removing =>
    cases hstep
    apply reset_inv V h hG
  | upComplete =>
    cases hstep
    apply upComplete_inv V h
  | other vf =>
    obtain ⟨haddr, hperm, rfl⟩ := hstep
    refine ⟨h.sound.of_same ⟨haddr, hperm⟩, ?_⟩
    show a.devAddr = vf.addr
    rw [haddr, h.devAddr]

/-- In every run under a PF that grants resets with valid addresses, the three addresses are one
after every operation, and an `ixgbevf_set_mac` that fails changes none of them. -/
theorem reachable_addresses_agree {a : Adapter D} (h : (addresses V).Reachable (Grants V) a) :
  Coherent a ∧ ∀ addr, ((setMac V addr).run a).1 ≠ 0 →
    SameAddrs a ((setMac V addr).run a).2
  := by
  have hinv : Inv a := by
    refine h.invariant ?_ fun _ _ _ hi hG hst => step_inv V hi hG hst
    rintro b ⟨a₀, rssKeyFails, random, hdev, hrandom, hrun⟩
    apply swInit_inv V hdev hrandom hrun
  exact ⟨⟨hinv.sound.permAddr, hinv.devAddr⟩, fun addr => (setMac_inv V hinv addr).2⟩

/-! ### A run -/

/-- A network device without an address, whose VF has a PF that grants a reset with an address
and accepts API 1.3. -/
def allocatedDevice : Adapter Sessions.Pf where
  vf := Sessions.Pf.vf ⟨.api13, [0x33221102#32, 0x5544#32, 0#32], [], false, 0⟩
  devAddr := Vector.replicate 6 0#8
  netPermAddr := Vector.replicate 6 0#8

/-- A locally administered address. -/
def localAddr : MacAddr := #v[0x02#8, 0#8, 0#8, 0#8, 0#8, 0x01#8]

/-- The adapter after `ixgbevf_sw_init`. -/
def initialised : Adapter Sessions.Pf :=
  ((swInit Sessions.pfDevice false localAddr).run allocatedDevice).2

/-- The addresses start where a successful `ixgbevf_sw_init` ends. -/
theorem swInit_init
    {a₀ : Adapter D} {random : MacAddr} (hdev : a₀.devAddr = Vector.replicate 6 0#8)
    (hrandom : isValidEtherAddr random) (h : ((swInit V false random).run a₀).1 = 0) :
  (addresses V).init ((swInit V false random).run a₀).2
  := by
  refine ⟨a₀, false, random, hdev, hrandom, Prod.ext ?_ ?_⟩
  · apply h
  · apply Eq.refl

/-- A change of the address is a step. -/
theorem step_setMac (a : Adapter D) (addr : MacAddr) :
  (addresses V).step a (.setMac addr) ((setMac V addr).run a).2
  := rfl

/-- A reset is a step. -/
theorem step_reset (a : Adapter D) (removing : Bool) :
  (addresses V).step a (.reset removing) ((reset V removing).run a).2
  := rfl

/-- After `ixgbevf_sw_init`, a change of the address and a reset, the three addresses are the one
that the PF assigns. -/
theorem reset_coherent :
  ∃ a : Adapter Sessions.Pf,
    a.vf.addr = #v[0x02#8, 0x11#8, 0x22#8, 0x33#8, 0x44#8, 0x55#8] ∧ Coherent a
  := by
  have hinit : (addresses Sessions.pfDevice).Reachable (Grants Sessions.pfDevice) initialised :=
    .init (swInit_init _ rfl (by decide) (by decide +kernel))
  have hset := hinit.step (show Grants _ _ (.setMac localAddr) from trivial) (step_setMac _ _ _)
  have hgrants : Grants Sessions.pfDevice ((setMac Sessions.pfDevice localAddr).run initialised).2
      (.reset false) := by
    unfold Grants
    decide +kernel
  have hreset := hset.step hgrants (step_reset _ _ _)
  refine ⟨_, ?_, (reachable_addresses_agree Sessions.pfDevice hreset).1⟩
  decide +kernel

end Ixgbevf.Mac
