import Ixgbevf.Queues

/-!
# Dealing the rings out to the vectors

`ixgbevf_alloc_q_vectors` divides the rings that are left evenly among the vectors that are
left.  All Rx rings are dealt out, every vector gets at least one of them, and Rx ring `i` and
XDP ring `i` go to the same vector when there are as many of the one kind as of the other.
-/

namespace Ixgbevf.Queues

/-! ### One vector -/

/-- The rings dealt out are the ones of the index range, the others stay. -/
theorem addRings_apply
    (mk : ℕ → ℕ → Ring) (count idx reg : ℕ) (rings : ℕ → Option Ring) (i : ℕ) :
  addRings mk count idx reg rings i
    = if idx ≤ i ∧ i < idx + count then some (mk i (reg + (i - idx))) else rings i
  := by
  induction count generalizing idx reg rings with
  | zero =>
    rw [addRings, if_neg (by omega)]
  | succ count ih =>
    rw [addRings, ih]
    by_cases hi : i = idx
    · subst hi
      rw [if_neg (by omega), if_pos (by omega), Function.update_self]
      simp
    · rw [Function.update_of_ne hi]
      by_cases hr : idx ≤ i ∧ i < idx + (count + 1)
      · rw [if_pos hr, if_pos (by omega)]
        congr 2
        omega
      · rw [if_neg hr, if_neg (by omega)]

/-- Dividing among one leaves everything. -/
theorem divRoundUp_one (n : ℕ) :
  divRoundUp n 1 = n
  := by
  simp [divRoundUp]

/-- The Rx rings below `k` are fresh: none has a program yet. -/
def FreshBelow (k : ℕ) (rings : Rings) : Prop :=
  ∀ i < k, ∃ r, rings.rx i = some r ∧ r.xdpProg = none

/-- Rx ring `i` and XDP ring `i` are there and belong to the same vector. -/
def Partnered (rings : Rings) (i : ℕ) : Prop :=
  ∃ r x, rings.rx i = some r ∧ rings.xdp i = some x ∧ r.queueIndex = i ∧ x.qVector = r.qVector

/-- What the set-up of the interrupt scheme is told and leaves alone. -/
def Adapter.control (s : Adapter) : Option ℕ × Bool × Presence × Bool :=
  (s.xdpProg, s.running, s.presence, s.down)

/-- The counts of the interrupt scheme, and whether it is set up. -/
def Adapter.counts (s : Adapter) : ℕ × ℕ × Bool := (s.numRxQueues, s.numXdpQueues, s.msixEntries)

/-- What a vector's allocation does to the ring pointers, and what it leaves alone. -/
theorem allocQVector_some
    {vIdx txrCount txrIdx xdpCount xdpIdx rxrCount rxrIdx : ℕ} {s s' : Adapter}
    (h : allocQVector vIdx txrCount txrIdx xdpCount xdpIdx rxrCount rxrIdx s = some s') :
  s'.rings.rx
      = addRings (fun idx _ => freshRing s.nextId idx idx) rxrCount rxrIdx rxrIdx s.rings.rx ∧
    s'.rings.xdp
      = addRings (freshRing s.nextId) xdpCount xdpIdx (txrIdx + xdpIdx + txrCount) s.rings.xdp ∧
    s'.control = s.control ∧ s'.counts = s.counts
  := by
  unfold allocQVector at h
  split at h
  · cases h
    simp [Adapter.control, Adapter.counts]
  · cases h

/-- A vector's allocation extends the fresh Rx rings by the ones it deals out. -/
theorem allocQVector_freshBelow
    {vIdx txrCount txrIdx xdpCount xdpIdx rxrCount rxrIdx : ℕ} {s s' : Adapter}
    (h : allocQVector vIdx txrCount txrIdx xdpCount xdpIdx rxrCount rxrIdx s = some s')
    (hfresh : FreshBelow rxrIdx s.rings) :
  FreshBelow (rxrIdx + rxrCount) s'.rings
  := by
  intro i hi
  rw [(allocQVector_some h).1, addRings_apply]
  by_cases hlt : i < rxrIdx
  · rw [if_neg (by omega)]
    apply hfresh i hlt
  · rw [if_pos (by omega)]
    use freshRing s.nextId i i
    constructor <;> rfl

/-- A vector that takes as many Rx rings as XDP rings, from the same index on, makes them
partners. -/
theorem allocQVector_partnered
    {vIdx txrCount txrIdx count idx : ℕ} {s s' : Adapter}
    (h : allocQVector vIdx txrCount txrIdx count idx count idx s = some s')
    (hpartnered : ∀ i < idx, Partnered s.rings i) :
  ∀ i < idx + count, Partnered s'.rings i
  := by
  obtain ⟨hrx, hxdp, -⟩ := allocQVector_some h
  intro i hi
  unfold Partnered
  rw [hrx, hxdp, addRings_apply, addRings_apply]
  by_cases hlt : i < idx
  · rw [if_neg (by omega), if_neg (by omega)]
    apply hpartnered i hlt
  · rw [if_pos (by omega), if_pos (by omega)]
    refine ⟨_, _, rfl, rfl, rfl, rfl⟩

/-! ### The second loop -/

/-- The second loop deals all Rx rings out, all of them fresh. -/
theorem dealAll_freshBelow
    (env : InitEnv) {n : ℕ} {d d' : Dealing} {s s' : Adapter}
    (h : dealAll env n d s = some (d', s', false)) (hn : 0 < n)
    (hfresh : FreshBelow d.rxrIdx s.rings) :
  FreshBelow (d.rxrIdx + d.rxrRemaining) s'.rings
  := by
  induction n generalizing d s with
  | zero => omega
  | succ n ih =>
    rw [dealAll] at h
    split at h
    · cases h
    obtain ⟨s₁, h₁, h₂⟩ := Option.bind_eq_some_iff.mp h
    have hfresh₁ := allocQVector_freshBelow h₁ hfresh
    cases n with
    | zero =>
      cases h₂
      rwa [Nat.zero_add, divRoundUp_one] at hfresh₁
    | succ n =>
      have hrest := ih h₂ (by omega) hfresh₁
      intro i hi
      apply hrest
      simp only
      omega

/-- When there are as many Rx as XDP rings, the second loop makes all of them partners. -/
theorem dealAll_partnered
    (env : InitEnv) {n : ℕ} {d d' : Dealing} {s s' : Adapter}
    (h : dealAll env n d s = some (d', s', false)) (hn : 0 < n)
    (hremaining : d.xdpRemaining = d.rxrRemaining) (hidx : d.xdpIdx = d.rxrIdx)
    (hpartnered : ∀ i < d.rxrIdx, Partnered s.rings i) :
  ∀ i < d.rxrIdx + d.rxrRemaining, Partnered s'.rings i
  := by
  -- the two partitions stay aligned because both divide the same remainder at every vector
  induction n generalizing d s with
  | zero => omega
  | succ n ih =>
    rw [dealAll, hremaining, hidx] at h
    split at h
    · cases h
    obtain ⟨s₁, h₁, h₂⟩ := Option.bind_eq_some_iff.mp h
    have hpartnered₁ := allocQVector_partnered h₁ hpartnered
    cases n with
    | zero =>
      cases h₂
      rwa [Nat.zero_add, divRoundUp_one] at hpartnered₁
    | succ n =>
      have hrest := ih h₂ (by omega) rfl rfl hpartnered₁
      intro i hi
      apply hrest
      simp only
      omega

/-- Dealing leaves the control state and the counts alone. -/
theorem dealAll_control
    (env : InitEnv) {n : ℕ} {d d' : Dealing} {s s' : Adapter} {failed : Bool}
    (h : dealAll env n d s = some (d', s', failed)) :
  s'.control = s.control ∧ s'.counts = s.counts
  := by
  induction n generalizing d s with
  | zero =>
    cases h
    simp
  | succ n ih =>
    rw [dealAll] at h
    split at h
    · cases h
      simp
    obtain ⟨s₁, h₁, h₂⟩ := Option.bind_eq_some_iff.mp h
    obtain ⟨-, -, hcontrol, hcounts⟩ := allocQVector_some h₁
    rw [← hcontrol, ← hcounts]
    apply ih h₂

/-- Dealing leaves the number of vectors alone. -/
theorem dealAll_numQVectors
    (env : InitEnv) {n : ℕ} {d d' : Dealing} {s s' : Adapter} {failed : Bool}
    (h : dealAll env n d s = some (d', s', failed)) :
  s'.numQVectors = s.numQVectors
  := by
  induction n generalizing d s with
  | zero =>
    cases h
    rfl
  | succ n ih =>
    rw [dealAll] at h
    split at h
    · cases h
      rfl
    obtain ⟨s₁, h₁, h₂⟩ := Option.bind_eq_some_iff.mp h
    have hone : s₁.numQVectors = s.numQVectors := by
      unfold allocQVector at h₁
      split at h₁ <;> cases h₁
      rfl
    rw [← hone]
    apply ih h₂

/-- Freeing vectors leaves the control state and the counts alone. -/
theorem freeQVectorsBelow_control
    {n : ℕ} {s s' : Adapter} (h : freeQVectorsBelow n s = some s') :
  s'.control = s.control ∧ s'.counts = s.counts
  := by
  induction n generalizing s with
  | zero =>
    cases h
    simp
  | succ n ih =>
    obtain ⟨s₁, h₁, h₂⟩ := Option.bind_eq_some_iff.mp h
    have hone : s₁.control = s.control ∧ s₁.counts = s.counts := by
      unfold freeQVector at h₁
      split at h₁
      · cases h₁
      · cases h₁
        constructor <;> rfl
    rw [← hone.1, ← hone.2]
    apply ih h₂

/-- Freeing vectors leaves the number of vectors alone. -/
theorem freeQVectorsBelow_numQVectors
    {n : ℕ} {s s' : Adapter} (h : freeQVectorsBelow n s = some s') :
  s'.numQVectors = s.numQVectors
  := by
  induction n generalizing s with
  | zero =>
    cases h
    rfl
  | succ n ih =>
    obtain ⟨s₁, h₁, h₂⟩ := Option.bind_eq_some_iff.mp h
    have hone : s₁.numQVectors = s.numQVectors := by
      unfold freeQVector at h₁
      split at h₁
      · cases h₁
      · cases h₁
        rfl
    rw [← hone]
    apply ih h₂

/-- A vector that takes rings leaves at least one for each vector after it. -/
theorem divRoundUp_le_sub
    {r n : ℕ} (h : n + 1 ≤ r) :
  0 < divRoundUp r (n + 1) ∧ divRoundUp r (n + 1) ≤ r - n
  := by
  obtain ⟨m, rfl⟩ := Nat.exists_eq_add_of_le h
  have hdiv : divRoundUp (n + 1 + m) (n + 1) = 1 + (m + n) / (n + 1) := by
    unfold divRoundUp
    rw [show n + 1 + m + (n + 1) - 1 = (m + n) + (n + 1) by omega,
      Nat.add_div_right _ (by omega)]
    omega
  have hle : (m + n) / (n + 1) ≤ m := by
    rw [Nat.div_le_iff_le_mul_add_pred (by omega)]
    have : m ≤ (n + 1) * m := Nat.le_mul_of_pos_left m (by omega)
    omega
  rw [hdiv]
  generalize (m + n) / (n + 1) = x at hle
  omega

/-- The vectors from the index `lo` up to the index `hi` are there and each serves an Rx
ring. -/
def ServesRx (lo hi : ℕ) (s : Adapter) : Prop :=
  ∀ v, lo ≤ v → v < hi → ∃ q, s.qVector v = some q ∧ q.rx ≠ []

/-- When there are at least as many Rx rings as vectors, the second loop gives every vector
one. -/
theorem dealAll_servesRx
    (env : InitEnv) {n : ℕ} {d d' : Dealing} {s s' : Adapter}
    (h : dealAll env n d s = some (d', s', false)) (hle : n ≤ d.rxrRemaining) {lo : ℕ}
    (hserves : ServesRx lo d.vIdx s) :
  ServesRx lo (d.vIdx + n) s'
  := by
  induction n generalizing d s with
  | zero =>
    cases h
    apply hserves
  | succ n ih =>
    rw [dealAll] at h
    split at h
    · cases h
    obtain ⟨s₁, h₁, h₂⟩ := Option.bind_eq_some_iff.mp h
    obtain ⟨hpos, hrest⟩ := divRoundUp_le_sub hle
    have hserves₁ : ServesRx lo (d.vIdx + 1) s₁ := by
      unfold allocQVector at h₁
      split at h₁
      · cases h₁
        intro v hlo hv
        by_cases hlast : v = d.vIdx
        · subst hlast
          simp only [Function.update_self, Option.some.injEq, exists_eq_left']
          intro hnil
          have hlen := congrArg List.length hnil
          simp only [List.length_range', List.length_nil] at hlen
          omega
        · simp only [Function.update_of_ne hlast]
          apply hserves v hlo
          omega
      · cases h₁
    have hrec := ih h₂ (by simp only; omega) hserves₁
    rwa [show d.vIdx + (n + 1) = d.vIdx + 1 + n by omega]

/-! ### Setting up the interrupt scheme -/

/-- The PF's answer lets `ixgbevf_set_num_queues` give every Rx ring an XDP ring. -/
def InitEnv.GrantsXdp (env : InitEnv) : Prop :=
  env.getQueuesErr = false ∧ env.numTcs ≤ 1 ∧ supportsQueues env.apiVersion = true

/-- With a program attached and a PF that grants XDP queues there are as many XDP rings as Rx
rings. -/
theorem setNumQueues_numXdpQueues
    {env : InitEnv} {s : Adapter} (hprog : s.xdpProg.isSome) (henv : env.GrantsXdp) :
  (setNumQueues env s).numXdpQueues = (setNumQueues env s).numRxQueues
  := by
  obtain ⟨herr, htcs, hapi⟩ := henv
  have htcs' : ¬ 1 < env.numTcs := by omega
  simp [setNumQueues, herr, htcs', hapi, hprog]

/-- There are Rx rings exactly when there are Tx rings. -/
theorem setNumQueues_pos (env : InitEnv) (s : Adapter) :
  0 < (setNumQueues env s).numRxQueues ↔ 0 < (setNumQueues env s).numTxQueues
  := by
  unfold setNumQueues
  split
  · simp
  split
  · simp only [Nat.lt_one_iff, iff_true]
    omega
  split <;> simp

/-- There are at least as many Rx as Tx rings. -/
theorem setNumQueues_le (env : InitEnv) (s : Adapter) :
  (setNumQueues env s).numTxQueues ≤ (setNumQueues env s).numRxQueues
  := by
  unfold setNumQueues
  split
  · simp
  split
  · simp only
    omega
  split <;> simp

/-- Choosing the counts leaves the control state alone. -/
theorem setNumQueues_control (env : InitEnv) (s : Adapter) :
  (setNumQueues env s).control = s.control
  := by
  unfold setNumQueues
  split <;> [rfl; split <;> [rfl; split <;> rfl]]

/-- What a successful set-up of the interrupts grants: at least one vector, and no more than
there are queues of the more numerous kind. -/
theorem setInterruptCapability_some
    {env : InitEnv} {s s' : Adapter} (h : setInterruptCapability env s = (s', true)) :
  s' = { s with msixEntries := true, numQVectors := s'.numQVectors } ∧ 0 < s'.numQVectors ∧
    s'.numQVectors ≤ max s.numRxQueues s.numTxQueues
  := by
  unfold setInterruptCapability at h
  simp only at h
  split at h
  · cases h
  split at h
  · cases h
  · cases h
    unfold minMsixCount nonQVectors at *
    refine ⟨rfl, ?_, ?_⟩ <;> simp only <;> omega

/-- A failed set-up of the interrupts. -/
theorem setInterruptCapability_fail
    {env : InitEnv} {s s' : Adapter} (h : setInterruptCapability env s = (s', false)) :
  s' = { s with msixEntries := false }
  := by
  unfold setInterruptCapability at h
  simp only at h
  split at h
  · cases h
    rfl
  split at h
  · cases h
    rfl
  · cases h

/-- The pairing of the rings that holds while the interrupt scheme is set up: with a program
attached every Rx ring has its XDP ring on the same vector, and a ring has a program only if
the adapter has one. -/
structure Paired (s : Adapter) : Prop where
  numXdpQueues : s.xdpProg.isSome → s.numXdpQueues = s.numRxQueues
  partnered : s.xdpProg.isSome → ∀ i < s.numRxQueues, Partnered s.rings i
  prog : ∀ i < s.numRxQueues, ∀ r, s.rings.rx i = some r → r.xdpProg.isSome → s.xdpProg.isSome

/-- A successful set-up of the interrupts leaves the first loop of `ixgbevf_alloc_q_vectors`
nothing to do: there are fewer vectors than rings. -/
theorem numQVectors_lt
    {env : InitEnv} {s s' : Adapter}
    (h : setInterruptCapability env (setNumQueues env s) = (s', true)) :
  s'.numQVectors < s'.numRxQueues + s'.numTxQueues + s'.numXdpQueues
  := by
  obtain ⟨heq, hpos, hle⟩ := setInterruptCapability_some h
  have hcounts := setNumQueues_pos env s
  have hrx : s'.numRxQueues = (setNumQueues env s).numRxQueues := by rw [heq]
  have htx : s'.numTxQueues = (setNumQueues env s).numTxQueues := by rw [heq]
  omega

/-- Setting up the interrupt scheme pairs the rings, provided the PF grants XDP queues when a
program is attached. -/
theorem initInterruptScheme_paired
    {env : InitEnv} {s s' : Adapter} {ok : Bool} (h : initInterruptScheme env s = some (s', ok))
    (hdown : s.down = true) (hgrants : s.xdpProg.isSome → env.GrantsXdp) :
  s'.control = s.control ∧ (s'.msixEntries = true → Paired s')
  := by
  unfold initInterruptScheme at h
  have hcontrol := setNumQueues_control env s
  split at h
  · rename_i s₁ h₁
    cases h
    rw [setInterruptCapability_fail h₁]
    constructor
    · apply hcontrol
    · intro hmsix
      cases hmsix
  rename_i s₁ h₁
  have hlt := numQVectors_lt h₁
  obtain ⟨heq, hpos, -⟩ := setInterruptCapability_some h₁
  have hcontrol₁ : s₁.control = s.control := by
    rw [← hcontrol, heq]
    rfl
  obtain ⟨⟨s₂, ok₂⟩, h₂, hs'⟩ := Option.map_eq_some_iff.mp h
  simp only [allocQVectors, if_neg (Nat.not_le.mpr hlt), Option.bind_some] at h₂
  obtain ⟨⟨d, s₃, failed⟩, h₃, h₄⟩ := Option.bind_eq_some_iff.mp h₂
  obtain ⟨hcontrol₃, hcounts₃⟩ := dealAll_control env h₃
  cases failed with
  | true =>
    obtain ⟨s₄, hfree, hs₂⟩ := Option.map_eq_some_iff.mp h₄
    obtain ⟨hcontrol₄, -⟩ := freeQVectorsBelow_control hfree
    cases hs₂
    cases hs'
    constructor
    · apply hcontrol₄.trans (hcontrol₃.trans hcontrol₁)
    · intro hmsix
      cases hmsix
  | false =>
    cases h₄
    cases hs'
    have hprog : s₃.xdpProg = s.xdpProg := congrArg (·.1) (hcontrol₃.trans hcontrol₁)
    have hrx : s₃.numRxQueues = s₁.numRxQueues := congrArg (·.1) hcounts₃
    have hxdp : s₃.numXdpQueues = s₁.numXdpQueues := congrArg (·.2.1) hcounts₃
    have hfresh := dealAll_freshBelow env h₃ hpos (by intro i hi; cases hi)
    have hcount : s.xdpProg.isSome → s₁.numXdpQueues = s₁.numRxQueues := by
      intro hp
      rw [heq]
      apply setNumQueues_numXdpQueues hp (hgrants hp)
    rw [Nat.zero_add] at hfresh
    constructor
    · have hc := hcontrol₃.trans hcontrol₁
      simp only [Adapter.control, Prod.mk.injEq] at hc ⊢
      exact ⟨hc.1, hc.2.1, hc.2.2.1, hdown.symm⟩
    · intro _
      constructor
      · intro hp
        simp only [hprog, hxdp, hrx] at hp ⊢
        apply hcount hp
      · intro hp i hi
        simp only [hprog, hrx] at hp hi
        have hpartnered := dealAll_partnered env h₃ hpos (hcount hp) rfl
          (by intro i hi; cases hi)
        rw [Nat.zero_add] at hpartnered
        apply hpartnered i hi
      · intro i hi r hr hsome
        simp only [hrx] at hi
        obtain ⟨r', hr', hnone⟩ := hfresh i hi
        simp only [hr', Option.some.injEq] at hr
        rw [← hr, hnone] at hsome
        cases hsome

/-- Once the interrupt scheme is set up, every vector in use serves an Rx ring. -/
theorem initInterruptScheme_servesRx
    {env : InitEnv} {s s' : Adapter} (h : initInterruptScheme env s = some (s', true)) :
  ServesRx 0 s'.numQVectors s' ∧ 0 < s'.numQVectors
  := by
  unfold initInterruptScheme at h
  split at h
  · cases h
  rename_i s₁ h₁
  have hlt := numQVectors_lt h₁
  obtain ⟨heq, hpos, hmax⟩ := setInterruptCapability_some h₁
  have hle := setNumQueues_le env s
  have hrx : s₁.numRxQueues = (setNumQueues env s).numRxQueues := by rw [heq]
  obtain ⟨⟨s₂, ok₂⟩, h₂, hs'⟩ := Option.map_eq_some_iff.mp h
  simp only [allocQVectors, if_neg (Nat.not_le.mpr hlt), Option.bind_some] at h₂
  obtain ⟨⟨d, s₃, failed⟩, h₃, h₄⟩ := Option.bind_eq_some_iff.mp h₂
  cases failed with
  | true =>
    obtain ⟨s₄, -, hs₂⟩ := Option.map_eq_some_iff.mp h₄
    cases hs₂
    cases hs'
  | false =>
    cases h₄
    cases hs'
    have hserves : ServesRx 0 (0 + _) s₃ :=
      dealAll_servesRx env h₃ (by simp only; omega) (by intro v hlo hv; simp only at hv; omega)
    rw [Nat.zero_add] at hserves
    have hnum := dealAll_numQVectors env h₃
    simp only [hnum]
    exact ⟨hserves, hpos⟩

/-- A set-up of the interrupt scheme has vectors only if it succeeds, and then has interrupts for
them. -/
theorem initInterruptScheme_counts
    {env : InitEnv} {s s' : Adapter} {ok : Bool} (h : initInterruptScheme env s = some (s', ok))
    (hzero : s.numQVectors = 0) :
  s'.msixEntries = ok ∧ (ok = false → s'.numQVectors = 0)
  := by
  unfold initInterruptScheme at h
  split at h
  · rename_i s₁ h₁
    cases h
    rw [setInterruptCapability_fail h₁]
    refine ⟨rfl, fun _ => ?_⟩
    rw [← hzero]
    show (setNumQueues env s).numQVectors = s.numQVectors
    unfold setNumQueues
    split <;> [rfl; split <;> [rfl; split <;> rfl]]
  rename_i s₁ h₁
  have hlt := numQVectors_lt h₁
  obtain ⟨heq, hpos, -⟩ := setInterruptCapability_some h₁
  obtain ⟨⟨s₂, ok₂⟩, h₂, hs'⟩ := Option.map_eq_some_iff.mp h
  simp only [allocQVectors, if_neg (Nat.not_le.mpr hlt), Option.bind_some] at h₂
  obtain ⟨⟨d, s₃, failed⟩, h₃, h₄⟩ := Option.bind_eq_some_iff.mp h₂
  cases failed with
  | true =>
    obtain ⟨s₄, hfree, hs₂⟩ := Option.map_eq_some_iff.mp h₄
    cases hs₂
    cases hs'
    exact ⟨rfl, fun _ => freeQVectorsBelow_numQVectors hfree⟩
  | false =>
    cases h₄
    cases hs'
    obtain ⟨-, hcounts⟩ := dealAll_control env h₃
    have hmsix : s₃.msixEntries = s₁.msixEntries := congrArg (·.2.2) hcounts
    refine ⟨?_, fun hok => nomatch hok⟩
    show s₃.msixEntries = true
    rw [hmsix, heq]

/-! ### A set-up -/

/-- The answers of a system with two processors, enough interrupts and memory. -/
def plenty (apiVersion : ApiVersion) : InitEnv where
  apiVersion := apiVersion
  getQueuesErr := false
  numTcs := 1
  maxTxQueues := 4
  onlineCpus := 2
  msixEntriesFails := false
  msixVectors := 3
  qVectorFails _ := false

/-- The device after its probe, with a PF of the given API version. -/
def probed (apiVersion : ApiVersion) : Adapter :=
  let A := blank Rx.default82599Vf
  ((initInterruptScheme (plenty apiVersion) A).getD (A, false)).1

/-- The probe sets up the interrupt scheme. -/
theorem probed_init (apiVersion : ApiVersion) :
  initInterruptScheme (plenty apiVersion) (blank Rx.default82599Vf)
    = some (probed apiVersion, true)
  := by
  have hok : (initInterruptScheme (plenty apiVersion) (blank Rx.default82599Vf)).any (·.2) := by
    cases apiVersion <;> rfl
  obtain ⟨⟨s, ok⟩, hs, hsome⟩ := (Option.any_eq_true _ _).mp hok
  simp only at hsome
  unfold probed
  simp [hs, hsome]

end Ixgbevf.Queues
