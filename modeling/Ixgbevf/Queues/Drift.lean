import Ixgbevf.Queues.Grant

/-!
# Drift of the queue configuration

`ixgbevf_configure_dcb` asks the PF again for the queues it grants, and requests a reset of
the queues when their numbers do not fit.  It computes them anew for several traffic classes
only, so that it does not notice every reply under which `ixgbevf_set_num_queues` would choose
other numbers.
-/

namespace Ixgbevf.Queues

open StateProgram

variable {D : Type} (V : Device D)

/-- What `ixgbevf_configure_dcb` works on. -/
structure Dcb (D : Type) where
  /-- The VF. -/
  vf : Vf D
  /-- The adapter. -/
  adapter : Adapter
  /-- `__IXGBEVF_QUEUE_RESET_REQUESTED`. -/
  queueReset : Bool

/-- The assignment to `tx_ring[0]->reg_idx`. -/
def Adapter.setRegIdx (s : Adapter) (regIdx : ℕ) : Adapter :=
  { s with rings := { s.rings with
      tx := Function.update s.rings.tx 0 ((s.rings.tx 0).map fun r => { r with regIdx := regIdx }) } }

/-- The request for a reset of the queues, which stops the mailbox. -/
def Dcb.requestReset (s : Dcb D) : Dcb D where
  vf := { s.vf with port := { s.vf.port with mbx := { s.vf.port.mbx with timeout := 0 } } }
  adapter := s.adapter
  queueReset := true

/-- `ixgbevf_configure_dcb`, once the PF has answered. -/
def applyDcb (s : Dcb D) : Dcb D :=
  let adapter :=
    if 1 < s.vf.numTcs.toNat then s.adapter.setRegIdx s.vf.defaultTc.toNat else s.adapter
  let numTxQueues := if 1 < s.vf.numTcs.toNat then 1 else s.adapter.numTxQueues
  let numRxQueues := if 1 < s.vf.numTcs.toNat then s.vf.numTcs.toNat else s.adapter.numRxQueues
  if s.adapter.numRxQueues ≠ numRxQueues ∨ s.adapter.numTxQueues ≠ numTxQueues then
    { s with adapter := adapter }.requestReset
  else
    { s with adapter := adapter }

/-- `ixgbevf_configure_dcb`. -/
def configureDcb (s : Dcb D) : ℤ × Dcb D :=
  let x := (getQueues V).run { s.vf with numTcs := 0#32, defaultTc := 0#32 }
  if x.1 ≠ 0 then (x.1, { s with vf := x.2 }) else (0, applyDcb { s with vf := x.2 })

/-- The default queue in a reply. -/
def defaultQueue (reply : List (BitVec 32)) : ℕ :=
  if maxTx reply ≤ (reply.getD 4 0#32).toNat then 0 else (reply.getD 4 0#32).toNat

/-- The register index that a reply calls for in the first Tx ring. -/
def firstQueue (reply : List (BitVec 32)) : ℕ := if 1 < numTcs reply then defaultQueue reply else 0

/-- A reset of the queues is requested, or the adapter is as `ixgbevf_set_num_queues` would
choose it for the reply. -/
def Detected (chosen : Adapter) (reply : List (BitVec 32)) (s : Dcb D) : Prop :=
  s.queueReset ∧ s.vf.port.mbx.timeout = 0
    ∨ s.adapter.numRxQueues = chosen.numRxQueues ∧ s.adapter.numTxQueues = chosen.numTxQueues
      ∧ (s.adapter.rings.tx 0).map (·.regIdx) = some (firstQueue reply)

/-- `min(num_online_cpus(), IXGBEVF_MAX_RSS_QUEUES)`. -/
def rssQueues (cpus : ℕ) : ℕ := min (cpus % 2 ^ 16) maxRssQueues

/-- Under replies with at most one traffic class, `ixgbevf_set_num_queues` makes the same
choice about the queues of an XDP program. -/
def SameShare (cpus : ℕ) (xdp : Bool) (old new : List (BitVec 32)) : Prop :=
  xdp = true → 1 < rssQueues cpus → (maxTx old = rssQueues cpus ↔ maxTx new = rssQueues cpus)

/-! ### What the reply does -/

/-- The default queue that is recorded. -/
theorem recordQueues_defaultTc {v : Vf D} {reply : List (BitVec 32)} :
  (recordQueues reply v).defaultTc.toNat = defaultQueue reply
  := by
  have h : (recordQueues reply v).defaultTc = if validQueues (reply.getD 1 0#32) ≤ reply.getD 4 0#32
      then 0#32 else reply.getD 4 0#32 := rfl
  rw [h, defaultQueue, maxTx, apply_ite BitVec.toNat]
  rfl

/-- `ixgbevf_configure_dcb` under a reply. -/
theorem configureDcb_replied {s : Dcb D} {reply : List (BitVec 32)} (h : s.vf.apiVersion.hasQueues)
    (hr : Replied V s.vf reply) :
  ∃ v : Vf D, v.port.mbx.timeout ≠ 0 ∧ v.numTcs.toNat = numTcs reply
    ∧ v.defaultTc.toNat = defaultQueue reply
    ∧ configureDcb V s = (0, applyDcb { s with vf := v })
  := by
  have hr' : Replied V { s.vf with numTcs := 0#32, defaultTc := 0#32 } reply :=
    ⟨hr.exchange, hr.success⟩
  obtain ⟨port, ht, hx⟩ := getQueues_replied V (by exact h) hr'
  refine ⟨recordQueues reply { s.vf with numTcs := 0#32, defaultTc := 0#32, port := port }, ?_,
    recordQueues_tcs, recordQueues_defaultTc, ?_⟩
  · exact ht ▸ hr.timeout
  · rw [configureDcb, hx]
    rfl

/-- Under several traffic classes the drift is noticed. -/
theorem applyDcb_multiple {s : Dcb D} {r : Ring} (h : 1 < s.vf.numTcs.toNat)
    (hr : s.adapter.rings.tx 0 = some r) :
  ((applyDcb s).queueReset ∧ (applyDcb s).vf.port.mbx.timeout = 0)
    ∨ (applyDcb s).adapter.numRxQueues = s.vf.numTcs.toNat
      ∧ (applyDcb s).adapter.numTxQueues = 1
      ∧ ((applyDcb s).adapter.rings.tx 0).map (·.regIdx) = some s.vf.defaultTc.toNat
  := by
  simp only [applyDcb, h, if_true]
  split
  · exact .inl ⟨rfl, rfl⟩
  next heq =>
    obtain ⟨hrx, htx⟩ := not_or.mp heq
    refine .inr ⟨not_not.mp hrx, not_not.mp htx, ?_⟩
    simp [Adapter.setRegIdx, hr]

/-- Under a single traffic class nothing is compared. -/
theorem applyDcb_single {s : Dcb D} (h : ¬ 1 < s.vf.numTcs.toNat) :
  applyDcb s = s
  := by
  simp [applyDcb, h]

/-! ### What `ixgbevf_set_num_queues` would choose -/

/-- The number of queues of each kind that the CPUs get under a single traffic class. -/
def sharedQueues (cpus : ℕ) (xdp : Bool) (reply : List (BitVec 32)) : ℕ :=
  if xdp && maxTx reply == rssQueues cpus then 1 else rssQueues cpus

/-- Several traffic classes get an Rx queue each. -/
theorem requestNumQueues_multiple {env : InitEnv} {v : Vf D} {s : Adapter}
    {reply : List (BitVec 32)} (h : v.apiVersion.hasQueues) (hr : Replied V v reply)
    (htcs : 1 < numTcs reply) :
  (requestNumQueues V env v s).2.numRxQueues = numTcs reply
    ∧ (requestNumQueues V env v s).2.numTxQueues = 1
  := by
  obtain ⟨-, -, hs⟩ : _ ∧ _ ∧ (requestNumQueues V env v s).2 = _ := requestNumQueues_replied V h hr
  rw [hs]
  simp [setNumQueues, htcs]

/-- Under a single traffic class the CPUs count. -/
theorem requestNumQueues_single {env : InitEnv} {v : Vf D} {s : Adapter}
    {reply : List (BitVec 32)} (h : v.apiVersion.hasQueues) (hr : Replied V v reply)
    (htcs : ¬ 1 < numTcs reply) :
  (requestNumQueues V env v s).2.numRxQueues
      = sharedQueues env.onlineCpus s.xdpProg.isSome reply
    ∧ (requestNumQueues V env v s).2.numTxQueues
      = sharedQueues env.onlineCpus s.xdpProg.isSome reply
  := by
  obtain ⟨-, -, hs⟩ : _ ∧ _ ∧ (requestNumQueues V env v s).2 = _ := requestNumQueues_replied V h hr
  have hapi : supportsQueues v.apiVersion = true := h
  rw [hs]
  simp [setNumQueues, htcs, hapi, sharedQueues, rssQueues]

/-- The CPUs get the same number of queues exactly when the replies leave XDP the same share. -/
theorem sharedQueues_eq_iff {cpus : ℕ} {xdp : Bool} {old new : List (BitVec 32)} :
  sharedQueues cpus xdp old = sharedQueues cpus xdp new ↔ SameShare cpus xdp old new
  := by
  have hpos (reply : List (BitVec 32)) : 0 < maxTx reply := validQueues_pos _
  have hold := hpos old
  have hnew := hpos new
  cases xdp with
  | false => simp [sharedQueues, SameShare]
  | true =>
    simp only [sharedQueues, SameShare, Bool.true_and, beq_iff_eq, forall_const]
    by_cases ho : maxTx old = rssQueues cpus
    · by_cases hn : maxTx new = rssQueues cpus
      · simp [ho, hn]
      · simp [ho, hn]
        omega
    · by_cases hn : maxTx new = rssQueues cpus
      · simp [ho, hn]
        omega
      · simp [ho, hn]

/-- The drift is noticed exactly when the PF grants several traffic classes, or has granted a
single one before, the queues come out the same and the first Tx ring has its register index. -/
theorem detected_iff {env₀ env : InitEnv} {v₀ : Vf D} {s₀ : Adapter} {s : Dcb D}
    {old new : List (BitVec 32)} {r : Ring} (hold : Replied V v₀ old) (hnew : Replied V s.vf new)
    (hapi : s.vf.apiVersion.hasQueues) (hapi₀ : v₀.apiVersion = s.vf.apiVersion)
    (hcpus : env₀.onlineCpus = env.onlineCpus)
    (hxdp : s₀.xdpProg.isSome = s.adapter.xdpProg.isSome)
    (hrx : s.adapter.numRxQueues = (requestNumQueues V env₀ v₀ s₀).2.numRxQueues)
    (htx : s.adapter.numTxQueues = (requestNumQueues V env₀ v₀ s₀).2.numTxQueues)
    (hring : s.adapter.rings.tx 0 = some r) :
  Detected (requestNumQueues V env s.vf s.adapter).2 new (configureDcb V s).2
    ↔ 1 < numTcs new
      ∨ numTcs old ≤ 1 ∧ SameShare env.onlineCpus s.adapter.xdpProg.isSome old new ∧ r.regIdx = 0
  := by
  have hold' : v₀.apiVersion.hasQueues := hapi₀ ▸ hapi
  obtain ⟨v, ht, htcs, hq, hc⟩ := configureDcb_replied V hapi hnew
  rw [hc]
  by_cases hn : 1 < numTcs new
  · obtain ⟨hcr, hct⟩ : (requestNumQueues V env s.vf s.adapter).2.numRxQueues = _ ∧ _ :=
      requestNumQueues_multiple V hapi hnew hn
    refine iff_of_true ?_ (.inl hn)
    obtain ⟨hreset, hzero⟩ | ⟨har, hat, hreg⟩ :=
      applyDcb_multiple (s := { s with vf := v }) (htcs ▸ hn) hring
    · exact .inl ⟨hreset, hzero⟩
    · refine .inr ⟨?_, ?_, ?_⟩
      · rw [har, hcr]
        exact htcs
      · rw [hat, hct]
      · rw [hreg, firstQueue, if_pos hn, ← hq]
  · obtain ⟨hcr, hct⟩ : (requestNumQueues V env s.vf s.adapter).2.numRxQueues = _ ∧ _ :=
      requestNumQueues_single V hapi hnew hn
    have hd : Detected (requestNumQueues V env s.vf s.adapter).2 new { s with vf := v }
        ↔ (s.adapter.numRxQueues = sharedQueues env.onlineCpus s.adapter.xdpProg.isSome new
            ∧ s.adapter.numTxQueues = sharedQueues env.onlineCpus s.adapter.xdpProg.isSome new)
          ∧ r.regIdx = 0 := by
      simp [Detected, ht, hcr, hct, hring, firstQueue, hn, and_assoc]
    have hs : applyDcb { s with vf := v } = { s with vf := v } := by
      apply applyDcb_single
      exact fun h => hn (htcs ▸ h)
    have hsame : numTcs old ≤ 1 → s.adapter.numRxQueues
          = sharedQueues env.onlineCpus s.adapter.xdpProg.isSome old
        ∧ s.adapter.numTxQueues
          = sharedQueues env.onlineCpus s.adapter.xdpProg.isSome old := by
      intro ho
      rw [hrx, htx, ← hcpus, ← hxdp]
      exact requestNumQueues_single V hold' hold (Nat.not_lt.mpr ho)
    rw [hs, hd]
    simp only [hn, false_or]
    by_cases ho : numTcs old ≤ 1
    · obtain ⟨har, hat⟩ := hsame ho
      rw [har, hat, and_self, sharedQueues_eq_iff]
      simp [ho]
    · obtain ⟨har, hat⟩ : (requestNumQueues V env₀ v₀ s₀).2.numRxQueues = _ ∧ _ :=
        requestNumQueues_multiple V hold' hold (Nat.not_le.mp ho)
      simp only [ho, false_and, iff_false]
      rintro ⟨⟨hr', ht'⟩, -⟩
      omega

/-! ### From four traffic classes to one -/

/-- A VF with API 1.3 under a PF that grants this. -/
def granting (words : List (BitVec 32)) : Vf Sessions.Pf :=
  { Sessions.Pf.vf ⟨.api13, words, [], false, 0⟩ with apiVersion := .api13 }

/-- The adapter with the queues for four traffic classes, and its first Tx ring. -/
def fromFourTcs : Adapter :=
  { (requestNumQueues Sessions.pfDevice (plenty .api13) (granting [4#32, 4#32, 4#32, 0#32])
      (blank Rx.default82599Vf)).2 with
    rings := { tx := fun _ => some (freshRing 0 0 0), xdp := fun _ => none, rx := fun _ => none } }

/-- The adapter when the PF has gone over to a single traffic class. -/
def toOneTc : Dcb Sessions.Pf where
  vf := granting [2#32, 2#32, 1#32, 0#32]
  adapter := fromFourTcs
  queueReset := false

/-- Four traffic classes are granted. -/
theorem granting_fourTcs :
  Replied Sessions.pfDevice (granting [4#32, 4#32, 4#32, 0#32])
    [vfGetQueues ||| msgtypeSuccess, 4#32, 4#32, 4#32, 0#32]
  := by
  constructor
  · decide +kernel
  · decide

/-- One traffic class is granted. -/
theorem granting_oneTc :
  Replied Sessions.pfDevice toOneTc.vf [vfGetQueues ||| msgtypeSuccess, 2#32, 2#32, 1#32, 0#32]
  := by
  constructor
  · decide +kernel
  · decide

/-- The drift from four Rx queues and one Tx queue to two of each is not noticed. -/
theorem toOneTc_not_detected :
  (Replied Sessions.pfDevice (granting [4#32, 4#32, 4#32, 0#32])
      [vfGetQueues ||| msgtypeSuccess, 4#32, 4#32, 4#32, 0#32]
    ∧ Replied Sessions.pfDevice toOneTc.vf
      [vfGetQueues ||| msgtypeSuccess, 2#32, 2#32, 1#32, 0#32])
    ∧ ¬ Detected (requestNumQueues Sessions.pfDevice (plenty .api13) toOneTc.vf toOneTc.adapter).2
      [vfGetQueues ||| msgtypeSuccess, 2#32, 2#32, 1#32, 0#32]
      (configureDcb Sessions.pfDevice toOneTc).2
  := by
  refine ⟨⟨granting_fourTcs, granting_oneTc⟩, ?_⟩
  have hreset : (configureDcb Sessions.pfDevice toOneTc).2.queueReset = false := by decide +kernel
  have hrx : (configureDcb Sessions.pfDevice toOneTc).2.adapter.numRxQueues
      ≠ (requestNumQueues Sessions.pfDevice (plenty .api13) toOneTc.vf
        toOneTc.adapter).2.numRxQueues := by
    decide +kernel
  rintro (⟨h, -⟩ | ⟨h, -⟩)
  · exact absurd h (hreset ▸ Bool.false_ne_true)
  · exact hrx h

/-- Neither side holds there. -/
theorem detected_iff_toOneTc :
  Detected (requestNumQueues Sessions.pfDevice (plenty .api13) toOneTc.vf toOneTc.adapter).2
      [vfGetQueues ||| msgtypeSuccess, 2#32, 2#32, 1#32, 0#32]
      (configureDcb Sessions.pfDevice toOneTc).2
    ↔ 1 < numTcs [vfGetQueues ||| msgtypeSuccess, 2#32, 2#32, 1#32, 0#32]
      ∨ numTcs [vfGetQueues ||| msgtypeSuccess, 4#32, 4#32, 4#32, 0#32] ≤ 1
        ∧ SameShare (plenty .api13).onlineCpus toOneTc.adapter.xdpProg.isSome
          [vfGetQueues ||| msgtypeSuccess, 4#32, 4#32, 4#32, 0#32]
          [vfGetQueues ||| msgtypeSuccess, 2#32, 2#32, 1#32, 0#32]
        ∧ (freshRing 0 0 0).regIdx = 0
  := by
  have hxdp : (blank Rx.default82599Vf).xdpProg.isSome = toOneTc.adapter.xdpProg.isSome := by
    decide +kernel
  have hrx : toOneTc.adapter.numRxQueues = (requestNumQueues Sessions.pfDevice (plenty .api13)
      (granting [4#32, 4#32, 4#32, 0#32]) (blank Rx.default82599Vf)).2.numRxQueues := by
    simp only [toOneTc, fromFourTcs]
  have htx : toOneTc.adapter.numTxQueues = (requestNumQueues Sessions.pfDevice (plenty .api13)
      (granting [4#32, 4#32, 4#32, 0#32]) (blank Rx.default82599Vf)).2.numTxQueues := by
    simp only [toOneTc, fromFourTcs]
  have hring : toOneTc.adapter.rings.tx 0 = some (freshRing 0 0 0) := by
    simp only [toOneTc, fromFourTcs]
  exact detected_iff Sessions.pfDevice granting_fourTcs granting_oneTc (by decide) rfl rfl hxdp
    hrx htx hring

end Ixgbevf.Queues
