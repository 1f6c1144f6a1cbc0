import Ixgbevf.Queues.Grant

/-!
# The arrays of the adapter

The accesses to the arrays of the adapter that the set-up of the interrupt scheme and the
loops over the interrupts make, as lists of indices.  The rings stay within their arrays
whatever the PF answers; the vectors do so as long as there are at most two of them.
-/

namespace Ixgbevf.Queues

open StateProgram

/-! ### Accesses -/

/-- An access to an array of the adapter. -/
inductive Access where
  | qVector (i : ℕ)
  | txRing (i : ℕ)
  | xdpRing (i : ℕ)
  | rxRing (i : ℕ)
  | msixEntry (i : ℕ)
deriving DecidableEq, Repr

/-- The index is below the length of the array, where `msix_entries` has `entries` entries;
the arrays of rings have `MAX_TX_QUEUES`, `MAX_XDP_QUEUES` and `MAX_RX_QUEUES` entries. -/
def Access.InBounds (entries : ℕ) : Access → Prop
  | .qVector i => i < maxQVectors
  | .txRing i | .xdpRing i | .rxRing i => i < vfMaxQueues.toNat
  | .msixEntry i => i < entries

/-- The accesses of `ixgbevf_alloc_q_vector`, once its allocation has succeeded. -/
def allocQVectorAccesses (vIdx txrCount txrIdx xdpCount xdpIdx rxrCount rxrIdx : ℕ) :
    List Access :=
  .qVector vIdx :: (List.range' txrIdx txrCount).map .txRing
    ++ (List.range' xdpIdx xdpCount).map .xdpRing ++ (List.range' rxrIdx rxrCount).map .rxRing

/-- The vectors that the loop `while (v_idx--)` frees. -/
def freeAccesses : ℕ → List Access
  | 0 => []
  | vIdx + 1 => .qVector vIdx :: freeAccesses vIdx

/-- The first loop of `ixgbevf_alloc_q_vectors`; `fuel` bounds the iterations. -/
def dealRxAccesses (fails : ℕ → Bool) : (fuel : ℕ) → Dealing → List Access × Dealing × Bool
  | 0, d => ([], d, false)
  | fuel + 1, d =>
    if d.rxrRemaining = 0 then
      ([], d, false)
    else if fails d.vIdx then
      (freeAccesses d.vIdx, d, true)
    else
      let rqpv := divRoundUp d.rxrRemaining d.qVectors
      let x := dealRxAccesses fails fuel { d with
        qVectors := d.qVectors - 1
        vIdx := d.vIdx + 1
        rxrRemaining := d.rxrRemaining - rqpv
        rxrIdx := d.rxrIdx + rqpv }
      (allocQVectorAccesses d.vIdx 0 0 0 0 rqpv d.rxrIdx ++ x.1, x.2)

/-- The second loop of `ixgbevf_alloc_q_vectors`, with `q_vectors` vectors left. -/
def dealAllAccesses (fails : ℕ → Bool) : (qVectors : ℕ) → Dealing → List Access
  | 0, _ => []
  | qVectors + 1, d =>
    if fails d.vIdx then
      freeAccesses d.vIdx
    else
      let rqpv := divRoundUp d.rxrRemaining (qVectors + 1)
      let tqpv := divRoundUp d.txrRemaining (qVectors + 1)
      let xqpv := divRoundUp d.xdpRemaining (qVectors + 1)
      allocQVectorAccesses d.vIdx tqpv d.txrIdx xqpv d.xdpIdx rqpv d.rxrIdx
        ++ dealAllAccesses fails qVectors {
          qVectors := qVectors
          vIdx := d.vIdx + 1
          rxrRemaining := d.rxrRemaining - rqpv
          rxrIdx := d.rxrIdx + rqpv
          txrRemaining := d.txrRemaining - tqpv
          txrIdx := d.txrIdx + tqpv
          xdpRemaining := d.xdpRemaining - xqpv
          xdpIdx := d.xdpIdx + xqpv }

/-- The accesses of `ixgbevf_alloc_q_vectors`. -/
def allocQVectorsAccesses (fails : ℕ → Bool) (s : Adapter) : List Access :=
  let d : Dealing := {
    qVectors := s.numQVectors
    vIdx := 0
    rxrRemaining := s.numRxQueues
    txrRemaining := s.numTxQueues
    xdpRemaining := s.numXdpQueues
    rxrIdx := 0
    txrIdx := 0
    xdpIdx := 0 }
  let first :=
    if d.rxrRemaining + d.txrRemaining + d.xdpRemaining ≤ d.qVectors then
      dealRxAccesses fails d.rxrRemaining d
    else
      ([], d, false)
  if first.2.2 then
    first.1
  else
    first.1 ++ dealAllAccesses fails first.2.1.qVectors first.2.1

/-- The loop of `ixgbevf_request_msix_irqs` after `free_queue_irqs`. -/
def unwindIrqs : ℕ → List Access
  | 0 => []
  | vector + 1 => .msixEntry vector :: unwindIrqs vector

/-- `ixgbevf_request_msix_irqs` from a vector on, with so many vectors left before the last
one, where the requests of some vectors fail. -/
def requestIrqs (fails : ℕ → Bool) : (left vector : ℕ) → List Access
  | 0, vector => .msixEntry vector :: if fails vector then unwindIrqs vector else []
  | left + 1, vector =>
    .msixEntry vector ::
      if fails vector then unwindIrqs vector else requestIrqs fails left (vector + 1)

/-- `ixgbevf_free_irq` and `ixgbevf_irq_disable`: a loop over the vectors, and the last one. -/
def eachIrq (numQVectors : ℕ) : List Access :=
  (List.range numQVectors).map .msixEntry ++ [.msixEntry numQVectors]

/-- What the set-up of an interrupt scheme accesses, and the loops over the interrupts while
`num_q_vectors` is what the set-up chose or less. -/
inductive Used (env : InitEnv) (s : Adapter) : Access → Prop where
  | alloc {a : Access} : a ∈ allocQVectorsAccesses env.qVectorFails s → Used env s a
  | request {a : Access} (fails : ℕ → Bool) (n : ℕ) :
      n ≤ s.numQVectors → a ∈ requestIrqs fails n 0 → Used env s a
  | each {a : Access} (n : ℕ) : n ≤ s.numQVectors → a ∈ eachIrq n → Used env s a

/-- `v_budget`, the number of entries of `msix_entries`. -/
def vBudget (env : InitEnv) (s : Adapter) : ℕ :=
  min (max s.numRxQueues s.numTxQueues) env.onlineCpus + nonQVectors

/-! ### Rings and interrupts -/

/-- A vector takes no more rings than there are. -/
theorem divRoundUp_le (r n : ℕ) :
  divRoundUp r (n + 1) ≤ r
  := by
  have hn : 0 < n + 1 := by omega
  have h : r ≤ (n + 1) * r := Nat.le_mul_of_pos_left r hn
  rw [divRoundUp, Nat.div_le_iff_le_mul_add_pred hn]
  omega

/-- A vector, or a ring with an index below the number of rings. -/
def Access.RingBelow (tx xdp rx : ℕ) : Access → Prop
  | .qVector _ => True
  | .txRing i => i < tx
  | .xdpRing i => i < xdp
  | .rxRing i => i < rx
  | .msixEntry _ => False

/-- The rings of one vector. -/
theorem allocQVectorAccesses_ringBelow {vIdx txrCount txrIdx xdpCount xdpIdx rxrCount rxrIdx : ℕ}
    {tx xdp rx : ℕ} (htx : txrIdx + txrCount ≤ tx) (hxdp : xdpIdx + xdpCount ≤ xdp)
    (hrx : rxrIdx + rxrCount ≤ rx) :
  ∀ a ∈ allocQVectorAccesses vIdx txrCount txrIdx xdpCount xdpIdx rxrCount rxrIdx,
    a.RingBelow tx xdp rx
  := by
  intro a ha
  simp only [allocQVectorAccesses, List.cons_append, List.mem_cons, List.mem_append, List.mem_map,
    List.mem_range'_1] at ha
  obtain rfl | (⟨i, hi, rfl⟩ | ⟨i, hi, rfl⟩) | ⟨i, hi, rfl⟩ := ha
  · trivial
  · exact Nat.lt_of_lt_of_le hi.2 htx
  · exact Nat.lt_of_lt_of_le hi.2 hxdp
  · exact Nat.lt_of_lt_of_le hi.2 hrx

/-- Freeing vectors accesses no ring array here. -/
theorem freeAccesses_qVector {n : ℕ} {a : Access} (h : a ∈ freeAccesses n) :
  ∃ i < n, a = .qVector i
  := by
  induction n with
  | zero => cases h
  | succ n ih =>
    obtain rfl | h := List.mem_cons.mp h
    · exact ⟨n, Nat.lt_succ_self n, rfl⟩
    · obtain ⟨i, hi, rfl⟩ := ih h
      exact ⟨i, Nat.lt_succ_of_lt hi, rfl⟩

/-- The rings that the second loop deals out. -/
theorem dealAllAccesses_ringBelow (fails : ℕ → Bool) {qVectors : ℕ} {d : Dealing} {tx xdp rx : ℕ}
    (htx : d.txrIdx + d.txrRemaining ≤ tx) (hxdp : d.xdpIdx + d.xdpRemaining ≤ xdp)
    (hrx : d.rxrIdx + d.rxrRemaining ≤ rx) :
  ∀ a ∈ dealAllAccesses fails qVectors d, a.RingBelow tx xdp rx
  := by
  induction qVectors generalizing d with
  | zero => simp [dealAllAccesses]
  | succ qVectors ih =>
    have ht := divRoundUp_le d.txrRemaining qVectors
    have hx := divRoundUp_le d.xdpRemaining qVectors
    have hr := divRoundUp_le d.rxrRemaining qVectors
    intro a ha
    rw [dealAllAccesses] at ha
    split at ha
    · obtain ⟨i, -, rfl⟩ := freeAccesses_qVector ha
      trivial
    · obtain ha | ha := List.mem_append.mp ha
      · apply allocQVectorAccesses_ringBelow _ _ _ a ha
        all_goals omega
      · apply ih _ _ _ a ha
        all_goals simp only
        all_goals omega

/-- The vectors that the second loop allocates come one after the other, up to the first
failure. -/
theorem qVector_mem_dealAllAccesses (fails : ℕ → Bool) {qVectors : ℕ} {d : Dealing} {i : ℕ}
    (h : d.vIdx ≤ i) :
  .qVector i ∈ dealAllAccesses fails qVectors d
    ↔ i < d.vIdx + qVectors ∧ ∀ j, d.vIdx ≤ j → j ≤ i → fails j = false
  := by
  induction qVectors generalizing d with
  | zero =>
    simp only [dealAllAccesses, List.not_mem_nil, false_iff]
    omega
  | succ qVectors ih =>
    rw [dealAllAccesses]
    split
    next hf =>
      have hno : Access.qVector i ∉ freeAccesses d.vIdx := by
        intro hm
        obtain ⟨k, hk, he⟩ := freeAccesses_qVector hm
        cases he
        omega
      simp only [hno, false_iff, not_and]
      intro _ hall
      exact absurd (hall d.vIdx (Nat.le_refl _) h) (by simp [hf])
    next hf =>
      have hhead : Access.qVector i ∈ allocQVectorAccesses d.vIdx (divRoundUp d.txrRemaining
          (qVectors + 1)) d.txrIdx (divRoundUp d.xdpRemaining (qVectors + 1)) d.xdpIdx
          (divRoundUp d.rxrRemaining (qVectors + 1)) d.rxrIdx ↔ i = d.vIdx := by
        simp [allocQVectorAccesses]
      rw [List.mem_append, hhead]
      obtain rfl | hlt := Nat.eq_or_lt_of_le h
      · refine iff_of_true (.inl rfl) ⟨by omega, fun j hj hj' => ?_⟩
        obtain rfl : j = d.vIdx := by omega
        exact Bool.not_eq_true _ ▸ hf
      · rw [ih (by exact hlt)]
        have hne : i ≠ d.vIdx := by omega
        simp only [hne, false_or]
        constructor
        · rintro ⟨hi, hall⟩
          refine ⟨by omega, fun j hj hj' => ?_⟩
          obtain rfl | hj := Nat.eq_or_lt_of_le hj
          · simpa using hf
          · exact hall j hj hj'
        · rintro ⟨hi, hall⟩
          exact ⟨by omega, fun j hj hj' => hall j (by omega) hj'⟩

/-- The loop that gives the interrupts back when a request fails. -/
theorem unwindIrqs_lt {n : ℕ} {a : Access} (h : a ∈ unwindIrqs n) :
  ∃ i < n, a = .msixEntry i
  := by
  induction n with
  | zero => cases h
  | succ n ih =>
    obtain rfl | h := List.mem_cons.mp h
    · exact ⟨n, Nat.lt_succ_self n, rfl⟩
    · obtain ⟨i, hi, rfl⟩ := ih h
      exact ⟨i, Nat.lt_succ_of_lt hi, rfl⟩

/-- The entries that the requests for interrupts access. -/
theorem requestIrqs_le (fails : ℕ → Bool) {left vector : ℕ} {a : Access}
    (h : a ∈ requestIrqs fails left vector) :
  ∃ i ≤ vector + left, a = .msixEntry i
  := by
  induction left generalizing vector with
  | zero =>
    obtain rfl | h := List.mem_cons.mp h
    · exact ⟨vector, Nat.le_refl _, rfl⟩
    · split at h
      · obtain ⟨i, hi, rfl⟩ := unwindIrqs_lt h
        exact ⟨i, by omega, rfl⟩
      · cases h
  | succ left ih =>
    obtain rfl | h := List.mem_cons.mp h
    · exact ⟨vector, by omega, rfl⟩
    · split at h
      · obtain ⟨i, hi, rfl⟩ := unwindIrqs_lt h
        exact ⟨i, by omega, rfl⟩
      · obtain ⟨i, hi, rfl⟩ := ih h
        exact ⟨i, by omega, rfl⟩

/-- The entries that the loops over the interrupts access. -/
theorem eachIrq_le {n : ℕ} {a : Access} (h : a ∈ eachIrq n) :
  ∃ i ≤ n, a = .msixEntry i
  := by
  obtain h | h := List.mem_append.mp h
  · obtain ⟨i, hi, rfl⟩ := List.mem_map.mp h
    exact ⟨i, Nat.le_of_lt (List.mem_range.mp hi), rfl⟩
  · exact ⟨n, Nat.le_refl n, List.mem_singleton.mp h⟩

/-! ### The number of queues -/

variable {D : Type} (V : Device D)

/-- The number of traffic classes that `ixgbevf_get_queues` reports, none where it fails. -/
def reportedTcs (v : Vf D) : ℕ :=
  let x := (getQueues V).run { v with numTcs := 0#32, defaultTc := 0#32 }
  if x.1 ≠ 0 then 0 else x.2.numTcs.toNat

/-- A number of traffic classes within the array of Rx rings stays there. -/
def TcsKept (v v' : Vf D) : Prop := v.numTcs.toNat ≤ 8 → v'.numTcs.toNat ≤ 8

instance : IsPreorder (Vf D) TcsKept where
  refl _ := id
  trans _ _ _ h h' := h' ∘ h

/-- A number of queues that was checked is at most eight. -/
theorem validQueues_le (n : BitVec 32) :
  (validQueues n).toNat ≤ 8
  := by
  have h8 : vfMaxQueues.toNat = 8 := rfl
  rw [validQueues]
  split
  · omega
  next h =>
    obtain ⟨-, hlt⟩ := not_or.mp h
    have hle : n.toNat ≤ vfMaxQueues.toNat := BitVec.not_lt.mp hlt
    omega

/-- The number of traffic classes that is recorded is at most the number of Rx queues. -/
theorem recordQueues_numTcs (msg : List (BitVec 32)) (v : Vf D) :
  (recordQueues msg v).numTcs.toNat ≤ 8
  := by
  have hrx := validQueues_le (msg.getD 2 0#32)
  show (if validQueues (msg.getD 2 0#32) < msg.getD 3 0#32 then 1#32
    else msg.getD 3 0#32).toNat ≤ 8
  split
  · decide
  next h =>
    have hle : (msg.getD 3 0#32).toNat ≤ (validQueues (msg.getD 2 0#32)).toNat :=
      BitVec.not_lt.mp h
    omega

/-- `ixgbevf_get_queues` keeps the number of traffic classes within the array of Rx rings. -/
theorem getQueues_tcsKept :
  Keeps TcsKept (getQueues V)
  := by
  apply keeps_bind
  · apply keeps_get
  · intro v
    apply keeps_ite
    · apply keeps_bind
      · apply keeps_modifyGet
        exact fun _ => id
      · intro x
        apply keeps_ite
        · apply keeps_pure
        · apply keeps_ite
          · apply keeps_pure
          · apply keeps_bind
            · apply keeps_modify
              exact fun v _ => recordQueues_numTcs _ v
            · intro _
              apply keeps_pure
    · apply keeps_pure

/-- The numbers of queues that are chosen. -/
theorem requestNumQueues_counts (env : InitEnv) (v : Vf D) (s : Adapter) :
  (requestNumQueues V env v s).2.numTxQueues ≤ 2
    ∧ (requestNumQueues V env v s).2.numXdpQueues ≤ 2
    ∧ (requestNumQueues V env v s).2.numRxQueues ≤ 8
    ∧ ((requestNumQueues V env v s).2.numRxQueues ≤ 2 ↔ reportedTcs V v ≤ 2)
  := by
  have htcs := getQueues_tcsKept V { v with numTcs := 0#32, defaultTc := 0#32 }
    (show (0#32).toNat ≤ 8 by decide)
  have hmax : maxRssQueues = 2 := rfl
  simp only [requestNumQueues, reportedTcs, setNumQueues]
  generalize (getQueues V).run { v with numTcs := 0#32, defaultTc := 0#32 } = x at htcs ⊢
  obtain ⟨err, v'⟩ := x
  by_cases herr : err = 0
  · by_cases hn : 1 < v'.numTcs.toNat
    · simp [herr, hn]
      omega
    · by_cases hapi : supportsQueues v'.apiVersion
      · simp only [herr, hn, hapi, hmax, ne_eq, not_true_eq_false, decide_false, Bool.false_eq_true,
          if_false, if_true]
        split <;> split <;> omega
      · simp [herr, hn, hapi]
        omega
  · simp [herr]

/-- The number of vectors that the set-up of the interrupts chooses. -/
theorem setInterruptCapability_numQVectors {env : InitEnv} {s s' : Adapter}
    (h : setInterruptCapability env s = (s', true)) :
  2 ≤ min (vBudget env s) env.msixVectors
    ∧ s'.numQVectors + 1 = min (vBudget env s) env.msixVectors
  := by
  unfold setInterruptCapability at h
  simp only at h
  split at h
  · cases h
  split at h
  · cases h
  next hv =>
    cases h
    have h2 : 2 ≤ min (vBudget env s) env.msixVectors := Nat.not_lt.mp hv
    exact ⟨h2, Nat.sub_add_cancel (Nat.le_of_succ_le h2)⟩

/-- Every index stays within its array exactly when the PF grants at most two traffic
classes, there are at most two CPUs, at most three interrupts are enabled or the allocation of
one of the first three vectors fails. -/
theorem used_inBounds_iff {env : InitEnv} {v : Vf D} {s s' : Adapter}
    (h : setInterruptCapability env (requestNumQueues V env v s).2 = (s', true)) :
  (∀ a, Used env s' a → a.InBounds (vBudget env (requestNumQueues V env v s).2))
    ↔ reportedTcs V v ≤ 2 ∨ env.onlineCpus ≤ 2 ∨ env.msixVectors ≤ 3
      ∨ ∃ i < 3, env.qVectorFails i = true
  := by
  obtain ⟨htx, hxdp, hrx, htcs⟩ := requestNumQueues_counts V env v s
  obtain ⟨h2, hnum⟩ := setInterruptCapability_numQVectors h
  obtain ⟨hs, -, -⟩ := setInterruptCapability_some h
  have hpos : 0 < (requestNumQueues V env v s).2.numRxQueues
      ↔ 0 < (requestNumQueues V env v s).2.numTxQueues := setNumQueues_pos _ s
  generalize (requestNumQueues V env v s).2 = s₁ at *
  have ht : s'.numTxQueues = s₁.numTxQueues := by rw [hs]
  have hx : s'.numXdpQueues = s₁.numXdpQueues := by rw [hs]
  have hr : s'.numRxQueues = s₁.numRxQueues := by rw [hs]
  have hb : vBudget env s₁ = min (max s₁.numRxQueues s₁.numTxQueues) env.onlineCpus + 1 := rfl
  have hlt : ¬ s'.numRxQueues + s'.numTxQueues + s'.numXdpQueues ≤ s'.numQVectors := by omega
  have halloc : allocQVectorsAccesses env.qVectorFails s' = dealAllAccesses env.qVectorFails
      s'.numQVectors ⟨s'.numQVectors, 0, s'.numRxQueues, s'.numTxQueues, s'.numXdpQueues, 0, 0, 0⟩ := by
    simp only [allocQVectorsAccesses, if_neg hlt]
    rfl
  have hvec (i : ℕ) : .qVector i ∈ allocQVectorsAccesses env.qVectorFails s'
      ↔ i < s'.numQVectors ∧ ∀ j ≤ i, env.qVectorFails j = false := by
    rw [halloc, qVector_mem_dealAllAccesses _ (Nat.zero_le i)]
    simp
  constructor
  · intro hall
    by_contra hno
    obtain ⟨hno1, hno2, hno3, hno4⟩ : ¬ reportedTcs V v ≤ 2 ∧ ¬ env.onlineCpus ≤ 2
        ∧ ¬ env.msixVectors ≤ 3 ∧ ¬ ∃ i < 3, env.qVectorFails i = true := by
      simpa only [not_or] using hno
    have hmem : .qVector 2 ∈ allocQVectorsAccesses env.qVectorFails s' := by
      refine (hvec 2).mpr ⟨by omega, fun j hj => ?_⟩
      by_contra hf
      exact hno4 ⟨j, by omega, by simpa using hf⟩
    exact absurd (hall _ (.alloc hmem)) (Nat.lt_irrefl 2)
  · rintro hcond a (ha | ⟨fails, n, hn, ha⟩ | ⟨n, hn, ha⟩)
    · have hring : a.RingBelow s'.numTxQueues s'.numXdpQueues s'.numRxQueues := by
        rw [halloc] at ha
        apply dealAllAccesses_ringBelow env.qVectorFails _ _ _ a ha
        all_goals simp
      cases a with
      | qVector i =>
        obtain ⟨hi, hall⟩ := (hvec i).mp ha
        show i < 2
        obtain h1 | h1 | h1 | ⟨k, hk, hf⟩ := hcond
        · omega
        · omega
        · omega
        · by_contra hge
          exact absurd (hall k (by omega)) (by simp [hf])
      | txRing i => exact Nat.lt_of_lt_of_le hring (show s'.numTxQueues ≤ 8 by omega)
      | xdpRing i => exact Nat.lt_of_lt_of_le hring (show s'.numXdpQueues ≤ 8 by omega)
      | rxRing i => exact Nat.lt_of_lt_of_le hring (show s'.numRxQueues ≤ 8 by omega)
      | msixEntry i => exact hring.elim
    · obtain ⟨i, hi, rfl⟩ := requestIrqs_le fails ha
      show i < vBudget env s₁
      omega
    · obtain ⟨i, hi, rfl⟩ := eachIrq_le ha
      show i < vBudget env s₁
      omega

/-! ### Four traffic classes -/

/-- A VF with API 1.3 under a PF that grants four queues and four traffic classes. -/
def fourTcs : Vf Sessions.Pf :=
  { Sessions.Pf.vf ⟨.api13, [4#32, 4#32, 4#32, 0#32], [], false, 0⟩ with apiVersion := .api13 }

/-- Four CPUs, and all the interrupts that are asked for. -/
def fourCpus : InitEnv := { plenty .api13 with onlineCpus := 4, msixVectors := 5 }

/-- The adapter with the queues for four traffic classes. -/
def fourQueues : Adapter :=
  (requestNumQueues Sessions.pfDevice fourCpus fourTcs (blank Rx.default82599Vf)).2

/-- The interrupts for four traffic classes are set up. -/
theorem fourTcs_capability :
  setInterruptCapability fourCpus fourQueues
    = ((setInterruptCapability fourCpus fourQueues).1, true)
  := by
  have h : (setInterruptCapability fourCpus fourQueues).2 = true := by decide +kernel
  rw [← h]

/-- The third of four vectors is written behind the end of `q_vector`. -/
theorem fourTcs_not_inBounds :
  Used fourCpus (setInterruptCapability fourCpus fourQueues).1 (.qVector 2)
    ∧ ¬ Access.InBounds (vBudget fourCpus fourQueues) (.qVector 2)
  := by
  have h : .qVector 2 ∈ allocQVectorsAccesses fourCpus.qVectorFails
      (setInterruptCapability fourCpus fourQueues).1 := by
    decide +kernel
  exact ⟨.alloc h, Nat.lt_irrefl 2⟩

/-- None of the conditions holds there. -/
theorem used_inBounds_iff_fourTcs :
  (∀ a, Used fourCpus (setInterruptCapability fourCpus fourQueues).1 a →
      a.InBounds (vBudget fourCpus fourQueues))
    ↔ reportedTcs Sessions.pfDevice fourTcs ≤ 2 ∨ 4 ≤ 2 ∨ 5 ≤ 3
      ∨ ∃ i < 3, fourCpus.qVectorFails i = true
  := used_inBounds_iff Sessions.pfDevice fourTcs_capability

end Ixgbevf.Queues
