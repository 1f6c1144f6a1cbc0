import Ixgbevf.Queues.Dealing
import Ixgbevf.Session

/-!
# The queues that the PF grants

`ixgbevf_get_queues` records how many queues the PF grants, and `ixgbevf_set_num_queues`
chooses how many the driver uses: one Rx queue for each traffic class, or as many queues of
each kind as the number of CPUs calls for.
-/

namespace Ixgbevf.Queues

open StateProgram

variable {D : Type} (V : Device D)

/-- `ixgbevf_set_num_queues`: the request to the PF, and the numbers of queues. -/
def requestNumQueues (env : InitEnv) (v : Vf D) (s : Adapter) : Vf D × Adapter :=
  let x := (getQueues V).run { v with numTcs := 0#32, defaultTc := 0#32 }
  (x.2, setNumQueues { env with
    apiVersion := x.2.apiVersion
    getQueuesErr := x.1 ≠ 0
    numTcs := x.2.numTcs.toNat
    maxTxQueues := x.2.maxTxQueues.toNat } s)

/-- The PF answers the request with this reply. -/
structure Replied (v : Vf D) (reply : List (BitVec 32)) : Prop where
  /-- The request arrives, and so does the reply. -/
  exchange : ((writeMsgReadAck V [vfGetQueues, 0#32, 0#32, 0#32, 0#32] 5).run v.port).1 = (0, reply)
  /-- The reply grants the request. -/
  success : replyWord reply = vfGetQueues ||| msgtypeSuccess

/-- `max_tx_queues` after the reply. -/
def maxTx (reply : List (BitVec 32)) : ℕ := (validQueues (reply.getD 1 0#32)).toNat

/-- `max_rx_queues` after the reply. -/
def maxRx (reply : List (BitVec 32)) : ℕ := (validQueues (reply.getD 2 0#32)).toNat

/-- `num_tcs` after the reply. -/
def numTcs (reply : List (BitVec 32)) : ℕ :=
  if maxRx reply < (reply.getD 3 0#32).toNat then 1 else (reply.getD 3 0#32).toNat

/-- The driver uses no more queues than the PF grants. -/
structure WithinGrant (v : Vf D) (s : Adapter) : Prop where
  rx : s.numRxQueues ≤ v.maxRxQueues.toNat
  tx : s.numTxQueues + s.numXdpQueues ≤ v.maxTxQueues.toNat

/-- So many CPUs get their queues out of `tx` and `rx`, with an XDP program or without. -/
def Suffices (cpus tx rx : ℕ) (xdp : Bool) : Prop :=
  match min (cpus % 2 ^ 16) maxRssQueues, xdp with
  | 0, _ => True
  | 1, false => True
  | 1, true => 2 ≤ tx
  | _, false => 2 ≤ tx ∧ 2 ≤ rx
  | _, true => tx = 2 ∨ 4 ≤ tx ∧ 2 ≤ rx

/-- A number of queues that was checked is positive. -/
theorem validQueues_pos (n : BitVec 32) :
  0 < (validQueues n).toNat
  := by
  have h8 : vfMaxQueues.toNat = 8 := rfl
  rw [validQueues]
  split
  · omega
  next h =>
    obtain ⟨hz, -⟩ := not_or.mp h
    have hn : n.toNat ≠ 0 := fun h0 => hz (BitVec.eq_of_toNat_eq h0)
    omega

/-- An answered request has not been suppressed by the mailbox timeout. -/
theorem Replied.timeout {v : Vf D} {reply : List (BitVec 32)} (h : Replied V v reply) :
  v.port.mbx.timeout ≠ 0
  := by
  intro h0
  have hw : ((writeMbx V [vfGetQueues, 0#32, 0#32, 0#32, 0#32] 5).run v.port).1 = errConfig := by
    rw [writeMbx, run_get_bind, if_pos h0]
    rfl
  have hx : ((writeMsgReadAck V [vfGetQueues, 0#32, 0#32, 0#32, 0#32] 5).run v.port).1.1
      = errConfig := by
    apply run_bind_of (fun err _ => err = errConfig)
      (fun x : (ℤ × List (BitVec 32)) × Port D => x.1.1 = errConfig) hw
    rintro err p rfl
    rfl
  rw [h.exchange] at hx
  have hne : (0 : ℤ) ≠ errConfig := by decide
  exact hne hx

/-- What `ixgbevf_get_queues` does with a reply. -/
theorem getQueues_replied {v : Vf D} {reply : List (BitVec 32)} (h : v.apiVersion.hasQueues)
    (hr : Replied V v reply) :
  ∃ port : Port D, port.mbx.timeout = v.port.mbx.timeout
    ∧ (getQueues V).run v = (0, recordQueues reply { v with port := port })
  := by
  have hx : (talk (writeMsgReadAck V [vfGetQueues, 0#32, 0#32, 0#32, 0#32] 5)).run v
      = ((0, reply), { v with
        port := ((writeMsgReadAck V [vfGetQueues, 0#32, 0#32, 0#32, 0#32] 5).run v.port).2 }) :=
    congrArg (fun x => (x, _)) hr.exchange
  have hm : MessageRead _ [vfGetQueues, 0#32, 0#32, 0#32, 0#32] v.port
      ((writeMsgReadAck V [vfGetQueues, 0#32, 0#32, 0#32, 0#32] 5).run v.port) :=
    writeMsgReadAck_message V (by decide) v.port
  use ((writeMsgReadAck V [vfGetQueues, 0#32, 0#32, 0#32, 0#32] 5).run v.port).2
  constructor
  · obtain ⟨-, _, -, -, hw⟩ | ⟨-, -, hq⟩ := hm
    · exact hw.timeout
    · exact hq.timeout
  · rw [getQueues, run_get_bind, if_pos h, StateT.run_bind, hx]
    show (if (0 : ℤ) ≠ 0 then _ else if replyWord reply ≠ _ then _ else _ : VfM D ℤ).run _ = _
    rw [if_neg (by decide), if_neg (by simp [hr.success])]
    rfl

/-- The number of traffic classes that is recorded. -/
theorem recordQueues_tcs {v : Vf D} {reply : List (BitVec 32)} :
  (recordQueues reply v).numTcs.toNat = numTcs reply
  := by
  have h : (recordQueues reply v).numTcs = if validQueues (reply.getD 2 0#32) < reply.getD 3 0#32
      then 1#32 else reply.getD 3 0#32 := rfl
  rw [h, numTcs, maxRx, apply_ite BitVec.toNat]
  rfl

/-- The numbers of queues under a reply that was recorded. -/
theorem requestNumQueues_replied {env : InitEnv} {v : Vf D} {s : Adapter}
    {reply : List (BitVec 32)} (h : v.apiVersion.hasQueues) (hr : Replied V v reply) :
  (requestNumQueues V env v s).1.maxTxQueues.toNat = maxTx reply
    ∧ (requestNumQueues V env v s).1.maxRxQueues.toNat = maxRx reply
    ∧ (requestNumQueues V env v s).2 = setNumQueues { env with
      apiVersion := v.apiVersion
      getQueuesErr := false
      numTcs := numTcs reply
      maxTxQueues := maxTx reply } s
  := by
  have hr' : Replied V { v with numTcs := 0#32, defaultTc := 0#32 } reply :=
    ⟨hr.exchange, hr.success⟩
  obtain ⟨port, -, hx⟩ := getQueues_replied V (by exact h) hr'
  rw [requestNumQueues, hx, ← recordQueues_tcs]
  exact ⟨rfl, rfl, rfl⟩

/-- The driver keeps to the grant exactly when the PF grants more than one traffic class, or
enough queues for the CPUs. -/
theorem withinGrant_iff {env : InitEnv} {v : Vf D} {s : Adapter} {reply : List (BitVec 32)}
    (h : v.apiVersion.hasQueues) (hr : Replied V v reply) :
  WithinGrant (requestNumQueues V env v s).1 (requestNumQueues V env v s).2
    ↔ 1 < numTcs reply ∨ Suffices env.onlineCpus (maxTx reply) (maxRx reply) s.xdpProg.isSome
  := by
  obtain ⟨htx, hrx, hs⟩ : (requestNumQueues V env v s).1.maxTxQueues.toNat = _ ∧ _ ∧ _ :=
    requestNumQueues_replied V h hr
  have hptx : 0 < maxTx reply := validQueues_pos _
  have hprx : 0 < maxRx reply := validQueues_pos _
  have hapi : supportsQueues v.apiVersion = true := h
  have hg : WithinGrant (requestNumQueues V env v s).1 (requestNumQueues V env v s).2
      ↔ (requestNumQueues V env v s).2.numRxQueues ≤ maxRx reply
        ∧ (requestNumQueues V env v s).2.numTxQueues + (requestNumQueues V env v s).2.numXdpQueues
          ≤ maxTx reply :=
    ⟨fun h => ⟨hrx ▸ h.rx, htx ▸ h.tx⟩, fun h => ⟨hrx.symm ▸ h.1, htx.symm ▸ h.2⟩⟩
  have hle : numTcs reply ≤ maxRx reply ∨ numTcs reply = 1 := by
    rw [numTcs]
    split
    · exact .inr rfl
    next hn => exact .inl (Nat.not_lt.mp hn)
  rw [hg, hs]
  by_cases htcs : 1 < numTcs reply
  · simp only [setNumQueues, Bool.false_eq_true, if_false, htcs, if_true, true_or, iff_true]
    omega
  · have hrss : min (env.onlineCpus % 2 ^ 16) maxRssQueues ≤ 2 := Nat.min_le_right _ _
    simp only [setNumQueues, Bool.false_eq_true, if_false, htcs, hapi, if_true, false_or, Suffices]
    generalize min (env.onlineCpus % 2 ^ 16) maxRssQueues = rss at hrss ⊢
    obtain rfl | rfl | rfl : rss = 0 ∨ rss = 1 ∨ rss = 2 := by omega
    · have h0 : maxTx reply ≠ 0 := by omega
      cases s.xdpProg <;> simp [h0]
    · cases s.xdpProg with
      | none => simp [Nat.succ_le_iff, hptx, hprx]
      | some prog => simp [Nat.succ_le_iff, hprx]
    · cases s.xdpProg with
      | none => simp [and_comm]
      | some prog =>
        simp only [Option.isSome_some, Bool.true_and, beq_iff_eq, if_true]
        split <;> omega

/-! ### A grant that is not kept -/

/-- A VF with API 1.3 under a PF that grants one queue of each kind. -/
def oneQueue : Vf Sessions.Pf :=
  { Sessions.Pf.vf ⟨.api13, [1#32, 1#32, 1#32, 0#32], [], false, 0⟩ with apiVersion := .api13 }

/-- The reply of that PF. -/
def oneQueueReply : List (BitVec 32) :=
  [vfGetQueues ||| msgtypeSuccess, 1#32, 1#32, 1#32, 0#32]

/-- The PF grants the request. -/
theorem oneQueue_replied :
  Replied Sessions.pfDevice oneQueue oneQueueReply
  := by
  constructor
  · decide +kernel
  · decide

/-- With two CPUs the driver uses two queues where the PF grants one. -/
theorem oneQueue_not_withinGrant :
  Replied Sessions.pfDevice oneQueue oneQueueReply
    ∧ ¬ WithinGrant
      (requestNumQueues Sessions.pfDevice (plenty .api13) oneQueue (blank Rx.default82599Vf)).1
      (requestNumQueues Sessions.pfDevice (plenty .api13) oneQueue (blank Rx.default82599Vf)).2
  := by
  refine ⟨oneQueue_replied, fun h => ?_⟩
  have hrx : ¬ (requestNumQueues Sessions.pfDevice (plenty .api13) oneQueue
      (blank Rx.default82599Vf)).2.numRxQueues
    ≤ (requestNumQueues Sessions.pfDevice (plenty .api13) oneQueue
      (blank Rx.default82599Vf)).1.maxRxQueues.toNat := by
    decide +kernel
  exact hrx h.rx

/-- One queue does not suffice for two CPUs. -/
theorem withinGrant_iff_oneQueue :
  WithinGrant
      (requestNumQueues Sessions.pfDevice (plenty .api13) oneQueue (blank Rx.default82599Vf)).1
      (requestNumQueues Sessions.pfDevice (plenty .api13) oneQueue (blank Rx.default82599Vf)).2
    ↔ 1 < numTcs oneQueueReply
      ∨ Suffices 2 (maxTx oneQueueReply) (maxRx oneQueueReply) false
  := withinGrant_iff Sessions.pfDevice (by decide) oneQueue_replied

end Ixgbevf.Queues
