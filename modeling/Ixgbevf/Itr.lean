import Ixgbevf.Lib.Run
import Ixgbevf.Lib.Mean
import Ixgbevf.Queues.Dealing

/-!
# Adaptive interrupt throttling

With `rx_itr_setting` 1 the throttle rate of a vector follows its traffic: at the end of a
poll `ixgbevf_set_itr` classifies the traffic seen since the last one and moves `itr`
towards the rate of the class.  `ixgbevf_set_coalesce` switches the mode by writing the
setting first and the vectors one after the other, with polls in between.
-/

namespace Ixgbevf.Itr

/-! ### Vectors -/

/-- `IXGBE_100K_ITR`. -/
def itr100K : ℕ := 40

/-- `IXGBE_20K_ITR`. -/
def itr20K : ℕ := 200

/-- `IXGBE_12K_ITR`. -/
def itr12K : ℕ := 336

/-- `IXGBE_MAX_EITR`. -/
def maxEitr : ℕ := 0xFF8

/-- `IXGBE_EITR_CNT_WDIS`. -/
def eitrCntWdis : ℕ := 0x80000000

/-- `enum latency_range`, without the invalid value that nothing stores. -/
inductive LatencyRange where
  | lowest
  | low
  | bulk
  deriving DecidableEq, Repr

/-- The value of a latency range, by which the source takes the maximum. -/
def LatencyRange.value : LatencyRange → ℕ
  | lowest => 0
  | low => 1
  | bulk => 2

/-- `struct ixgbevf_ring_container`: the work of the rings of one kind since the last
classification. -/
structure RingContainer where
  /-- `total_bytes`. -/
  totalBytes : ℕ
  /-- `total_packets`. -/
  totalPackets : ℕ
  /-- `count`, the number of rings. -/
  count : ℕ
  /-- `itr`, the class of the traffic. -/
  itr : LatencyRange
  deriving DecidableEq, Repr

/-- The part of `struct ixgbevf_q_vector` that the throttling reads and writes. -/
structure QVector where
  /-- `itr`. -/
  itr : ℕ
  /-- `rx`. -/
  rx : RingContainer
  /-- `tx`. -/
  tx : RingContainer
  /-- The vector's `VTEITR` register. -/
  eitr : ℕ
  deriving DecidableEq, Repr

/-- What makes an operation fail to return. -/
inductive Fault where
  | nullPointer
  | divisionByZero
  deriving DecidableEq, Repr

/-- `ixgbevf_write_eitr`. -/
def writeEitr (v : QVector) : QVector := { v with eitr := (v.itr &&& maxEitr) ||| eitrCntWdis }

/-- The class that `ixgbevf_update_itr` moves to at a rate of bytes per microsecond. -/
def reclassify (itrSetting : LatencyRange) (bytesPerint : ℕ) : LatencyRange :=
  match itrSetting with
  | .lowest => if 10 < bytesPerint then .low else .lowest
  | .low => if 20 < bytesPerint then .bulk else if bytesPerint ≤ 10 then .lowest else .low
  | .bulk => if bytesPerint ≤ 20 then .low else .bulk

/-- `ixgbevf_update_itr` of a container of a vector whose throttle rate is `itr`. -/
def updateItr (itr : ℕ) (c : RingContainer) : Except Fault RingContainer :=
  if c.totalPackets = 0 then
    .ok c
  else
    let timepassedUs := itr >>> 2
    if timepassedUs = 0 then
      .error .divisionByZero
    else
      let bytesPerint := c.totalBytes / timepassedUs
      .ok { c with totalBytes := 0, totalPackets := 0, itr := reclassify c.itr bytesPerint }

/-- The throttle rate of a class. -/
def classItr : LatencyRange → ℕ
  | .lowest => itr100K
  | .low => itr20K
  | .bulk => itr12K

/-- `max` on classes. -/
def maxClass (a b : LatencyRange) : LatencyRange := if a.value < b.value then b else a

/-- `ixgbevf_set_itr`, in the 32-bit arithmetic of the source and with the 16-bit field that
takes the result. -/
def setItr (v : QVector) : Except Fault QVector := do
  let tx ← updateItr v.itr v.tx
  let rx ← updateItr v.itr v.rx
  let newItr := classItr (maxClass rx.itr tx.itr)
  if newItr ≠ v.itr then
    let smoothed := (10 * newItr * v.itr % 2 ^ 32) / ((9 * newItr + v.itr) % 2 ^ 32)
    return writeEitr { v with tx := tx, rx := rx, itr := smoothed % 2 ^ 16 }
  else
    return { v with tx := tx, rx := rx }

/-! ### The adapter -/

/-- A `ixgbevf_set_coalesce` between its first and its last write: what it was asked for, the
setting it found, and how far it has come. -/
structure Coalesce where
  /-- The throttle rate for vectors with Rx rings. -/
  rxItrParam : ℕ
  /-- `ec->tx_coalesce_usecs`. -/
  txUsecs : ℕ
  /-- The `rx_itr_setting` before the call. -/
  oldSetting : ℕ
  /-- The number of vectors rewritten so far, once `tx_itr_setting` is written. -/
  written : Option ℕ
  deriving DecidableEq, Repr

/-- The part of the adapter that the throttling reads and writes. -/
structure Adapter where
  /-- `rx_itr_setting`. -/
  rxItrSetting : ℕ
  /-- `tx_itr_setting`. -/
  txItrSetting : ℕ
  /-- The vectors in use. -/
  vectors : List QVector
  /-- Whether the interface is up and its vectors are polled. -/
  up : Bool
  /-- The `ixgbevf_set_coalesce` in progress. -/
  coalesce : Option Coalesce
  deriving DecidableEq, Repr

/-- The setting for a number of microseconds. -/
def usecsSetting (usecs : ℕ) : ℕ := if 1 < usecs then usecs <<< 2 else usecs

/-- The throttle rate that a setting starts a vector with; 1 stands for the adaptive mode,
which starts at `adaptive`. -/
def settingItr (adaptive setting : ℕ) : ℕ := if setting = 1 then adaptive else setting

/-- The write of a vector's throttle rate that `ixgbevf_set_coalesce` and
`ixgbevf_configure_msix` share: a vector that serves only Tx rings takes the Tx rate. -/
def throttle (rxItr txItr : ℕ) (v : QVector) : QVector :=
  writeEitr { v with itr := if v.tx.count ≠ 0 ∧ v.rx.count = 0 then txItr else rxItr }

/-- The checks of `ixgbevf_set_coalesce` and its first write, `rx_itr_setting`. -/
def coalesceBegin (rxUsecs txUsecs : ℕ) (s : Adapter) : Except Fault Adapter :=
  match s.vectors with
  | [] => .error .nullPointer
  | v :: _ =>
    if v.tx.count ≠ 0 ∧ v.rx.count ≠ 0 ∧ txUsecs ≠ 0 then
      .ok s
    else if maxEitr >>> 2 < rxUsecs ∨ maxEitr >>> 2 < txUsecs then
      .ok s
    else
      let rxItrSetting := usecsSetting rxUsecs
      .ok { s with
        rxItrSetting := rxItrSetting
        coalesce := some {
          rxItrParam := settingItr itr20K rxItrSetting
          txUsecs := txUsecs
          oldSetting := s.rxItrSetting
          written := none } }

/-- The next write of a `ixgbevf_set_coalesce` in progress: `tx_itr_setting`, then a vector
after the other. -/
def coalesceNext (s : Adapter) : Adapter :=
  match s.coalesce with
  | none => s
  | some c =>
    match c.written with
    | none =>
      { s with
        txItrSetting := usecsSetting c.txUsecs
        coalesce := some { c with written := some 0 } }
    | some i =>
      if i < s.vectors.length then
        { s with
          vectors :=
            s.vectors.modify i (throttle c.rxItrParam (settingItr itr12K s.txItrSetting))
          coalesce := some { c with written := some (i + 1) } }
      else
        { s with coalesce := none }

/-- The throttling part of `ixgbevf_configure_msix`. -/
def configureMsix (s : Adapter) : Adapter :=
  let rxItr := settingItr itr20K s.rxItrSetting
  let txItr := settingItr itr12K s.txItrSetting
  { s with vectors := s.vectors.map (throttle rxItr txItr) }

/-- What a poll of a vector finds: the work of its rings, and whether they are done. -/
structure PollWork where
  /-- The bytes of the Tx rings. -/
  txBytes : ℕ
  /-- The packets of the Tx rings. -/
  txPackets : ℕ
  /-- The bytes of the Rx rings. -/
  rxBytes : ℕ
  /-- The packets of the Rx rings. -/
  rxPackets : ℕ
  /-- `clean_complete`. -/
  cleanComplete : Bool
  deriving DecidableEq, Repr

/-- The totals of a container after more work, in the unsigned arithmetic of the source. -/
def RingContainer.addWork (c : RingContainer) (bytes packets : ℕ) : RingContainer :=
  { c with
    totalBytes := (c.totalBytes + bytes) % 2 ^ 32
    totalPackets := (c.totalPackets + packets) % 2 ^ 32 }

/-- A vector with the work of a poll added. -/
def QVector.addWork (v : QVector) (w : PollWork) : QVector :=
  { v with tx := v.tx.addWork w.txBytes w.txPackets, rx := v.rx.addWork w.rxBytes w.rxPackets }

/-- The throttling part of `ixgbevf_poll`. -/
def pollVector (rxItrSetting : ℕ) (w : PollWork) (v : QVector) : Except Fault QVector :=
  let v := v.addWork w
  if w.cleanComplete ∧ rxItrSetting = 1 then setItr v else .ok v

/-- A poll of the vector of an index. -/
def poll (i : ℕ) (w : PollWork) (s : Adapter) : Except Fault Adapter :=
  match s.vectors[i]? with
  | none => .error .nullPointer
  | some v => do
    let v ← pollVector s.rxItrSetting w v
    return { s with vectors := s.vectors.set i v }

/-- A vector as it is allocated. -/
def freshVector (q : Queues.QVector) : QVector where
  itr := 0
  rx := { totalBytes := 0, totalPackets := 0, count := q.rx.length, itr := .lowest }
  tx := { totalBytes := 0, totalPackets := 0, count := q.tx.length, itr := .lowest }
  eitr := 0

/-- The vectors that a set-up of the interrupt scheme has allocated. -/
def allocated (a : Queues.Adapter) : List QVector :=
  (List.range a.numQVectors).filterMap fun v => (a.qVector v).map freshVector

/-! ### Runs -/

/-- What happens to the throttling.  Everything but a poll is under the lock of the network
stack. -/
inductive Event where
  | coalesceBegin (rxUsecs txUsecs : ℕ)
  | coalesceNext
  | poll (i : ℕ) (w : PollWork)
  | up
  | down
  | clear
  | realloc (a : Queues.Adapter)

/-- When an event can happen: the lock of the network stack keeps the other operations out of
a `ixgbevf_set_coalesce` in progress, and vectors are polled while the interface is up. -/
def Enabled (s : Adapter) : Event → Prop
  | .coalesceBegin _ _ => s.coalesce = none
  | .coalesceNext => s.coalesce.isSome
  | .poll i _ => s.up = true ∧ i < s.vectors.length
  | .up => s.coalesce = none ∧ s.up = false
  | .down => s.coalesce = none
  | .clear => s.coalesce = none ∧ s.up = false
  | .realloc a => s.coalesce = none ∧ s.up = false ∧
      ∃ env a₀, Queues.initInterruptScheme env a₀ = some (a, true)

/-- What an event does. -/
def apply (s : Adapter) : Event → Except Fault Adapter
  | .coalesceBegin rxUsecs txUsecs => Itr.coalesceBegin rxUsecs txUsecs s
  | .coalesceNext => .ok (Itr.coalesceNext s)
  | .poll i w => Itr.poll i w s
  | .up => .ok { configureMsix s with up := true }
  | .down => .ok { s with up := false }
  | .clear => .ok { s with vectors := [] }
  | .realloc a => .ok { s with vectors := allocated a }

/-- The throttling of a device from the successful end of its probe on. -/
def throttling : TransSystem Adapter Event where
  init s := ∃ env a₀ a, Queues.initInterruptScheme env a₀ = some (a, true) ∧
    s = { rxItrSetting := 1, txItrSetting := 1, vectors := allocated a, up := false,
          coalesce := none }
  step s e s' := Enabled s e ∧ apply s e = .ok s'

/-! ### One vector -/

/-- Classifying the work of a container succeeds unless it has packets and the throttle rate
is below four. -/
theorem updateItr_ok
    {itr : ℕ} {c : RingContainer} (h : c.totalPackets ≠ 0 → 4 ≤ itr) :
  ∃ c', updateItr itr c = .ok c' ∧ c'.count = c.count
  := by
  unfold updateItr
  by_cases hpackets : c.totalPackets = 0
  · use c
    simp [hpackets]
  · have hshift : itr >>> 2 ≠ 0 := by
      have := h hpackets
      rw [Nat.shiftRight_eq_div_pow]
      omega
    simp only [if_neg hpackets, if_neg hshift]
    exact ⟨_, rfl, rfl⟩

/-- The throttle rates of the classes. -/
theorem classItr_bounds (c : LatencyRange) :
  itr100K ≤ classItr c ∧ classItr c ≤ itr12K
  := by
  cases c <;> decide

/-- The source's arithmetic does not overflow, and computes the mean of the old rate and the
rate of the class. -/
theorem smoothed_eq
    {t itr : ℕ} (ht : itr100K ≤ t ∧ t ≤ itr12K) (hitr : itr ≤ maxEitr) :
  (10 * t * itr % 2 ^ 32) / ((9 * t + itr) % 2 ^ 32) % 2 ^ 16 = Mean.harmonic 9 t itr
  := by
  unfold itr100K itr12K maxEitr at *
  have hprod : 10 * t * itr ≤ 10 * 336 * 0xFF8 := Nat.mul_le_mul (by omega) hitr
  have hprod' : 10 * t * itr < 2 ^ 32 := by omega
  have hsum : 9 * t + itr < 2 ^ 32 := by omega
  have hle : Mean.harmonic 9 t itr ≤ 0xFF8 := Mean.harmonic_le (by omega) hitr
  have hharm : 10 * t * itr / (9 * t + itr) = Mean.harmonic 9 t itr := rfl
  rw [Nat.mod_eq_of_lt hprod', Nat.mod_eq_of_lt hsum, hharm]
  apply Nat.mod_eq_of_lt
  omega

/-- What `ixgbevf_set_itr` does when it returns: it moves the throttle rate to its mean with
the rate of a class. -/
theorem setItr_ok
    {v : QVector} (h : v.tx.totalPackets ≠ 0 ∨ v.rx.totalPackets ≠ 0 → 4 ≤ v.itr)
    (hitr : v.itr ≤ maxEitr) :
  ∃ v' t, setItr v = .ok v' ∧ itr100K ≤ t ∧ t ≤ itr12K ∧ v'.itr = Mean.harmonic 9 t v.itr ∧
    v'.rx.count = v.rx.count
  := by
  obtain ⟨tx, htx, -⟩ := updateItr_ok (c := v.tx) fun hp => h (Or.inl hp)
  obtain ⟨rx, hrx, hcount⟩ := updateItr_ok (c := v.rx) fun hp => h (Or.inr hp)
  have hclass := classItr_bounds (maxClass rx.itr tx.itr)
  have hpos : 0 < classItr (maxClass rx.itr tx.itr) := Nat.lt_of_lt_of_le (by decide) hclass.1
  unfold setItr
  rw [htx, hrx]
  simp only [bind, Except.bind]
  by_cases hsame : classItr (maxClass rx.itr tx.itr) = v.itr
  · refine ⟨_, v.itr, by simp only [if_neg (not_not.mpr hsame)]; rfl, ?_, ?_, ?_, hcount⟩
    · rw [← hsame]
      apply hclass.1
    · rw [← hsame]
      apply hclass.2
    · -- the mean of equal rates is the rate
      apply Nat.le_antisymm
      · apply Mean.le_harmonic (Nat.le_refl _) (Nat.le_refl _)
        rw [← hsame]
        omega
      · apply Mean.harmonic_le (Nat.le_refl _) (Nat.le_refl _)
  · refine ⟨_, classItr (maxClass rx.itr tx.itr), by simp only [if_pos hsame]; rfl, hclass.1,
      hclass.2, ?_, hcount⟩
    apply smoothed_eq hclass hitr

/-! ### The invariant of a run -/

/-- A throttle rate that fits a setting: in the adaptive mode between the rates of the classes,
and positive unless the setting is zero. -/
structure Fits (setting itr : ℕ) : Prop where
  adaptive : setting = 1 → itr100K ≤ itr ∧ itr ≤ itr12K
  positive : setting ≠ 0 → 8 ≤ itr
  le : itr ≤ maxEitr

/-- The settings that `ixgbevf_set_coalesce` writes. -/
def ValidSetting (setting : ℕ) : Prop := setting ≤ 1 ∨ 8 ≤ setting ∧ setting ≤ maxEitr

/-- The number of microseconds that the checks let through make a valid setting. -/
theorem usecsSetting_valid {usecs : ℕ} (h : ¬ maxEitr >>> 2 < usecs) :
  ValidSetting (usecsSetting usecs)
  := by
  have hle : usecs ≤ 1022 := Nat.not_lt.mp h
  unfold ValidSetting usecsSetting maxEitr
  split
  · rw [Nat.shiftLeft_eq]
    omega
  · omega

/-- A valid setting starts a vector with a throttle rate that fits it. -/
theorem settingItr_fits {setting : ℕ} (h : ValidSetting setting) :
  Fits setting (settingItr itr20K setting)
  := by
  unfold ValidSetting settingItr itr20K maxEitr at *
  constructor
  · intro hone
    rw [if_pos hone]
    decide
  · intro hne
    split <;> omega
  · unfold maxEitr
    split <;> omega

/-- The mean of a rate that fits with the rate of a class fits. -/
theorem Fits.harmonic
    {setting t itr : ℕ} (h : Fits setting itr) (ht : itr100K ≤ t) (ht' : t ≤ itr12K) :
  Fits setting (Mean.harmonic 9 t itr)
  := by
  have hpos : 0 < 9 * t + itr := by
    unfold itr100K at ht
    omega
  constructor
  · intro hone
    obtain ⟨hlo, hhi⟩ := h.adaptive hone
    constructor
    · apply Mean.le_harmonic ht hlo hpos
    · apply Mean.harmonic_le ht' hhi
  · intro hne
    apply Mean.le_harmonic _ (h.positive hne) hpos
    unfold itr100K at ht
    omega
  · apply Mean.harmonic_le _ h.le
    unfold itr12K at ht'
    unfold maxEitr
    omega

/-- Whether a call in progress has rewritten the vector of an index. -/
def Coalesce.Rewritten (c : Coalesce) (i : ℕ) : Prop := ∃ n, c.written = some n ∧ i < n

/-- The vector of an index has the throttle rate of the current setting: no call in progress
is still to rewrite it. -/
def Settled (s : Adapter) (i : ℕ) : Prop := ∀ c, s.coalesce = some c → c.Rewritten i

/-- What holds of the vector of an index: it serves an Rx ring, and while it is polled its rate
fits the current setting, or, where a call in progress is still to rewrite it, is positive if
the setting before the call was. -/
structure VectorInv (s : Adapter) (i : ℕ) (v : QVector) : Prop where
  servesRx : v.rx.count ≠ 0
  le : v.itr ≤ maxEitr
  settled : s.up = true → Settled s i → Fits s.rxItrSetting v.itr
  unsettled : s.up = true → ∀ c, s.coalesce = some c → ¬ c.Rewritten i → c.oldSetting ≠ 0 →
    8 ≤ v.itr

/-- What holds of the throttling in every state of a run. -/
structure Inv (s : Adapter) : Prop where
  vector : ∀ i v, s.vectors[i]? = some v → VectorInv s i v
  valid : ValidSetting s.rxItrSetting
  param : ∀ c, s.coalesce = some c → c.rxItrParam = settingItr itr20K s.rxItrSetting

/-- The vectors of a set-up of the interrupt scheme serve Rx rings and are unthrottled. -/
theorem allocated_mem
    {env : Queues.InitEnv} {a₀ a : Queues.Adapter}
    (h : Queues.initInterruptScheme env a₀ = some (a, true)) {v : QVector} (hv : v ∈ allocated a) :
  v.rx.count ≠ 0 ∧ v.itr = 0
  := by
  obtain ⟨hserves, -⟩ := Queues.initInterruptScheme_servesRx h
  obtain ⟨i, hi, hiv⟩ := List.mem_filterMap.mp hv
  obtain ⟨q, hq, hrx⟩ := hserves i (by omega) (List.mem_range.mp hi)
  rw [hq] at hiv
  cases hiv
  simp [freshVector, hrx]

/-- A vector that serves Rx rings takes the Rx rate. -/
theorem throttle_itr {v : QVector} (h : v.rx.count ≠ 0) (rxItr txItr : ℕ) :
  (throttle rxItr txItr v).itr = rxItr ∧ (throttle rxItr txItr v).rx.count ≠ 0
  := by
  constructor
  · simp only [throttle, writeEitr]
    rw [if_neg]
    exact fun hand => h hand.2
  · apply h

/-- A vector allocated by a set-up of the interrupt scheme is ready for an interface that is
down. -/
theorem vectorInv_of_allocated
    {env : Queues.InitEnv} {a₀ a : Queues.Adapter}
    (h : Queues.initInterruptScheme env a₀ = some (a, true)) {s : Adapter} (hdown : s.up = false)
    {i : ℕ} {v : QVector} (hv : (allocated a)[i]? = some v) :
  VectorInv s i v
  := by
  obtain ⟨hserves, hitr⟩ := allocated_mem h (List.mem_of_getElem? hv)
  refine ⟨hserves, by rw [hitr]; omega, ?_, ?_⟩ <;> intro hup <;> rw [hdown] at hup <;> cases hup

/-- The beginning of a call keeps the invariant: every vector is still to be rewritten. -/
theorem coalesceBegin_inv
    {rxUsecs txUsecs : ℕ} {s s' : Adapter} (hs : Inv s) (hidle : s.coalesce = none)
    (h : coalesceBegin rxUsecs txUsecs s = .ok s') :
  Inv s'
  := by
  unfold coalesceBegin at h
  split at h
  · cases h
  split at h
  · cases h
    apply hs
  split at h
  · cases h
    apply hs
  rename_i hchecks
  rw [not_or] at hchecks
  cases h
  constructor
  · intro i v hv
    have hold := hs.vector i v hv
    have hsettled : Settled s i := by
      intro c hc
      rw [hidle] at hc
      cases hc
    refine ⟨hold.servesRx, hold.le, ?_, ?_⟩
    · intro _ hset
      obtain ⟨n, hn, -⟩ := hset _ rfl
      cases hn
    · intro hup c hc _ hne
      cases hc
      apply (hold.settled hup hsettled).positive hne
  · apply usecsSetting_valid hchecks.1
  · intro c hc
    cases hc
    rfl

/-- The rewriting of a vector settles it and leaves the other vectors as they were. -/
theorem rewrite_vectorInv
    {s : Adapter} {c : Coalesce} {i j : ℕ} {v : QVector} (txItr : ℕ) (hs : Inv s)
    (hc : s.coalesce = some c) (hwritten : c.written = some i)
    (hv : (s.vectors.modify i (throttle c.rxItrParam txItr))[j]? = some v) :
  VectorInv { s with
    vectors := s.vectors.modify i (throttle c.rxItrParam txItr)
    coalesce := some { c with written := some (i + 1) } } j v
  := by
  rw [List.getElem?_modify, Option.map_eq_map] at hv
  obtain ⟨w, hw, rfl⟩ := Option.map_eq_some_iff.mp hv
  have hold := hs.vector j w hw
  have hfits : Fits s.rxItrSetting c.rxItrParam := by
    rw [hs.param c hc]
    apply settingItr_fits hs.valid
  by_cases hij : i = j
  · simp only [if_pos hij]
    obtain ⟨hitr, hserves⟩ := throttle_itr hold.servesRx c.rxItrParam txItr
    refine ⟨hserves, by rw [hitr]; exact hfits.le, ?_, ?_⟩
    · intro _ _
      rw [hitr]
      apply hfits
    · intro _ c' hc' hnot
      cases hc'
      exact absurd ⟨i + 1, rfl, by omega⟩ hnot
  · simp only [if_neg hij]
    have hiff (n : ℕ) : { c with written := some n }.Rewritten j ↔ j < n := by
      simp [Coalesce.Rewritten]
    have hbefore : c.Rewritten j ↔ j < i := by
      simp [Coalesce.Rewritten, hwritten]
    refine ⟨hold.servesRx, hold.le, ?_, ?_⟩
    · intro hup hset
      apply hold.settled hup
      intro c' hc'
      rw [hc, Option.some.injEq] at hc'
      subst hc'
      have hj := (hiff (i + 1)).mp (hset _ rfl)
      rw [hbefore]
      omega
    · intro hup c' hc' hnot hne
      cases hc'
      rw [hiff] at hnot
      apply hold.unsettled hup c hc _ hne
      rw [hbefore]
      omega

/-- The next write of a call in progress keeps the invariant. -/
theorem coalesceNext_inv {s : Adapter} (hs : Inv s) :
  Inv (coalesceNext s)
  := by
  unfold coalesceNext
  split
  · apply hs
  rename_i c hc
  split
  · rename_i hwritten
    have hiff (i : ℕ) : ¬ c.Rewritten i := by
      simp [Coalesce.Rewritten, hwritten]
    constructor
    · intro i v hv
      have hold := hs.vector i v hv
      refine ⟨hold.servesRx, hold.le, ?_, ?_⟩
      · intro _ hset
        obtain ⟨n, hn, hlt⟩ := hset _ rfl
        cases hn
        omega
      · intro hup c' hc' _ hne
        cases hc'
        apply hold.unsettled hup c hc (hiff i) hne
    · apply hs.valid
    · intro c' hc'
      cases hc'
      apply hs.param c hc
  · rename_i i hwritten
    split
    · constructor
      · intro j v hv
        apply rewrite_vectorInv _ hs hc hwritten hv
      · apply hs.valid
      · intro c' hc'
        cases hc'
        apply hs.param c hc
    · -- the call returns with every vector rewritten
      rename_i hlength
      constructor
      · intro j v hv
        have hold := hs.vector j v hv
        refine ⟨hold.servesRx, hold.le, ?_, ?_⟩
        · intro hup _
          apply hold.settled hup
          intro c' hc'
          rw [hc, Option.some.injEq] at hc'
          subst hc'
          have hj : j < s.vectors.length := (List.getElem?_eq_some_iff.mp hv).1
          exact ⟨i, hwritten, by omega⟩
        · intro _ c' hc'
          cases hc'
      · apply hs.valid
      · intro c' hc'
        cases hc'

/-- Bringing the interface up throttles every vector by the settings. -/
theorem configureMsix_inv {s : Adapter} (hs : Inv s) (hidle : s.coalesce = none) :
  Inv { configureMsix s with up := true }
  := by
  have hfits := settingItr_fits hs.valid
  constructor
  · intro i v hv
    simp only [configureMsix, List.getElem?_map] at hv
    obtain ⟨w, hw, rfl⟩ := Option.map_eq_some_iff.mp hv
    obtain ⟨hitr, hserves⟩ := throttle_itr (hs.vector i w hw).servesRx
      (settingItr itr20K s.rxItrSetting) (settingItr itr12K s.txItrSetting)
    refine ⟨hserves, by rw [hitr]; exact hfits.le, ?_, ?_⟩
    · intro _ _
      rw [hitr]
      apply hfits
    · intro _ c hc
      simp only [configureMsix, hidle] at hc
      cases hc
  · apply hs.valid
  · intro c hc
    simp only [configureMsix, hidle] at hc
    cases hc

/-- Without polls nothing is asked of the throttle rates, so the interface may go down and
its vectors may be replaced. -/
theorem Inv.of_down
    {s s' : Adapter} (hs : Inv s) (hdown : s'.up = false)
    (hsetting : s'.rxItrSetting = s.rxItrSetting) (hidle : s'.coalesce = none)
    (hvectors : ∀ (i : ℕ) (v : QVector), s'.vectors[i]? = some v → v.rx.count ≠ 0 ∧ v.itr ≤ maxEitr) :
  Inv s'
  := by
  constructor
  · intro i v hv
    obtain ⟨hserves, hle⟩ := hvectors i v hv
    refine ⟨hserves, hle, ?_, ?_⟩ <;> intro hup <;> rw [hdown] at hup <;> cases hup
  · rw [hsetting]
    apply hs.valid
  · intro c hc
    rw [hidle] at hc
    cases hc

/-! ### Polls -/

/-- The condition on an event: a poll that has packets to classify does not complete on a
vector that a call in progress, switching from no throttling to the adaptive mode, is still to
rewrite. -/
def Guarded (s : Adapter) : Event → Prop
  | .poll i w => ∀ c v, s.coalesce = some c → s.vectors[i]? = some v → ¬ c.Rewritten i →
      c.oldSetting = 0 → s.rxItrSetting = 1 → w.cleanComplete = true →
        (v.addWork w).tx.totalPackets = 0 ∧ (v.addWork w).rx.totalPackets = 0
  | _ => True

/-- The end of a poll finds a throttle rate it can divide by, where there are packets. -/
theorem Inv.divisible
    {s : Adapter} {i : ℕ} {w : PollWork} {v : QVector} (hs : Inv s) (hup : s.up = true)
    (hv : s.vectors[i]? = some v) (hG : Guarded s (.poll i w)) (hdone : w.cleanComplete = true)
    (hsetting : s.rxItrSetting = 1)
    (hpackets : (v.addWork w).tx.totalPackets ≠ 0 ∨ (v.addWork w).rx.totalPackets ≠ 0) :
  4 ≤ v.itr
  := by
  have hvec := hs.vector i v hv
  by_cases hset : Settled s i
  · have hpos := (hvec.settled hup hset).positive (by rw [hsetting]; decide)
    omega
  · unfold Settled at hset
    push Not at hset
    obtain ⟨c, hc, hnot⟩ := hset
    by_cases hold : c.oldSetting = 0
    · obtain ⟨htx, hrx⟩ := hG c v hc hv hnot hold hsetting hdone
      rcases hpackets with h | h
      · exact absurd htx h
      · exact absurd hrx h
    · have hpos := hvec.unsettled hup c hc hnot hold
      omega

/-- A poll leaves a vector as it was, up to its statistics, or moves its throttle rate to the
mean with the rate of a class. -/
theorem poll_ok
    {s : Adapter} {i : ℕ} {w : PollWork} (hs : Inv s) (hup : s.up = true)
    (hi : i < s.vectors.length) (hG : Guarded s (.poll i w)) :
  ∃ v v' t, s.vectors[i]? = some v ∧ poll i w s = .ok { s with vectors := s.vectors.set i v' } ∧
    itr100K ≤ t ∧ t ≤ itr12K ∧ v'.rx.count = v.rx.count ∧
    (v'.itr = v.itr ∨ s.rxItrSetting = 1 ∧ v'.itr = Mean.harmonic 9 t v.itr)
  := by
  have hv : s.vectors[i]? = some s.vectors[i] := List.getElem?_eq_getElem hi
  generalize s.vectors[i] = v at hv
  have hle := (hs.vector i v hv).le
  unfold poll
  rw [hv]
  simp only [pollVector]
  by_cases hset : w.cleanComplete ∧ s.rxItrSetting = 1
  · rw [if_pos hset]
    obtain ⟨v', t, hv', ht, ht', hitr, hcount⟩ := setItr_ok (v := v.addWork w)
      (hs.divisible hup hv hG hset.1 hset.2) hle
    refine ⟨v, v', t, rfl, ?_, ht, ht', hcount, Or.inr ⟨hset.2, hitr⟩⟩
    rw [hv']
    rfl
  · rw [if_neg hset]
    exact ⟨v, v.addWork w, itr20K, rfl, rfl, by decide, by decide, rfl, Or.inl rfl⟩

/-- A poll keeps the invariant. -/
theorem poll_inv
    {s s' : Adapter} {i : ℕ} {w : PollWork} (hs : Inv s) (hup : s.up = true)
    (hi : i < s.vectors.length) (hG : Guarded s (.poll i w)) (h : poll i w s = .ok s') :
  Inv s'
  := by
  obtain ⟨v, v', t, hv, hpoll, ht, ht', hcount, hitr⟩ := poll_ok hs hup hi hG
  rw [hpoll] at h
  cases h
  constructor
  · intro j u hu
    rw [List.getElem?_set] at hu
    split at hu
    · rename_i hij
      subst hij
      cases hu
      have hold := hs.vector i v hv
      have hpos : 0 < 9 * t + v.itr := by
        unfold itr100K at ht
        omega
      refine ⟨by rw [hcount]; exact hold.servesRx, ?_, ?_, ?_⟩
      · rcases hitr with hitr | ⟨-, hitr⟩ <;> rw [hitr]
        · apply hold.le
        · apply Mean.harmonic_le _ hold.le
          unfold itr12K at ht'
          unfold maxEitr
          omega
      · intro _ hset
        have hfits := hold.settled hup hset
        rcases hitr with hitr | ⟨-, hitr⟩ <;> rw [hitr]
        · apply hfits
        · apply hfits.harmonic ht ht'
      · intro _ c hc hnot hne
        have hge := hold.unsettled hup c hc hnot hne
        rcases hitr with hitr | ⟨-, hitr⟩ <;> rw [hitr]
        · apply hge
        · apply Mean.le_harmonic _ hge hpos
          unfold itr100K at ht
          omega
    · have hold := hs.vector j u hu
      exact ⟨hold.servesRx, hold.le, hold.settled, hold.unsettled⟩
  · apply hs.valid
  · apply hs.param

/-- Every event that meets the condition keeps the invariant. -/
theorem step_inv
    {s s' : Adapter} {e : Event} (hs : Inv s) (hG : Guarded s e)
    (h : throttling.step s e s') :
  Inv s'
  := by
  obtain ⟨hen, h⟩ := h
  cases e with
  | coalesceBegin rxUsecs txUsecs => apply coalesceBegin_inv hs hen h
  | coalesceNext =>
    cases h
    apply coalesceNext_inv hs
  | poll i w => apply poll_inv hs hen.1 hen.2 hG h
  | up =>
    cases h
    apply configureMsix_inv hs hen.1
  | down =>
    cases h
    refine Inv.of_down hs rfl rfl hen ?_
    intro i v hv
    have hold := hs.vector i v hv
    exact ⟨hold.servesRx, hold.le⟩
  | clear =>
    cases h
    refine Inv.of_down hs hen.2 rfl hen.1 ?_
    intro i v hv
    cases hv
  | realloc a =>
    cases h
    obtain ⟨hidle, hdown, env, a₀, hinit⟩ := hen
    refine Inv.of_down hs hdown rfl hidle ?_
    intro i v hv
    obtain ⟨hserves, hitr⟩ := allocated_mem hinit (List.mem_of_getElem? hv)
    exact ⟨hserves, by rw [hitr]; omega⟩

/-- The throttling starts with the invariant. -/
theorem init_inv {s : Adapter} (h : throttling.init s) :
  Inv s
  := by
  obtain ⟨env, a₀, a, hinit, rfl⟩ := h
  constructor
  · intro i v hv
    apply vectorInv_of_allocated hinit rfl hv
  · apply Or.inl
    simp
  · intro c hc
    cases hc

/-- In every run whose events all meet the condition, no poll divides by zero, and while the
adaptive mode is in force for a vector its throttle rate stays between the rates of the
classes. -/
theorem reachable_itr
    {s : Adapter} (h : throttling.Reachable Guarded s) :
  (∀ i w, Enabled s (.poll i w) → Guarded s (.poll i w) →
      apply s (.poll i w) ≠ .error .divisionByZero) ∧
    (s.up = true → s.rxItrSetting = 1 → ∀ i v, s.vectors[i]? = some v → Settled s i →
      itr100K ≤ v.itr ∧ v.itr ≤ itr12K)
  := by
  have hs : Inv s := h.invariant (fun _ hi => init_inv hi) fun _ _ _ hi hG hst => step_inv hi hG hst
  constructor
  · intro i w hen hG
    obtain ⟨v, v', t, -, hpoll, -⟩ := poll_ok hs hen.1 hen.2 hG
    simp only [apply, hpoll]
    intro herr
    cases herr
  · intro hup hone i v hv hset
    apply ((hs.vector i v hv).settled hup hset).adaptive hone

/-! ### Two runs -/

/-- The throttling of a device after its probe, with two vectors. -/
def probed : Adapter where
  rxItrSetting := 1
  txItrSetting := 1
  vectors := allocated (Queues.probed .api13)
  up := false
  coalesce := none

/-- A poll that completes with one packet received. -/
def onePacket : PollWork where
  txBytes := 0
  txPackets := 0
  rxBytes := 60
  rxPackets := 1
  cleanComplete := true

/-- A probed device is a start of a run. -/
theorem probed_reachable (G : Adapter → Event → Prop) :
  throttling.Reachable G probed
  := by
  apply TransSystem.Reachable.init
  use Queues.plenty .api13, Queues.blank Rx.default82599Vf, Queues.probed .api13
  exact ⟨Queues.probed_init .api13, rfl⟩

/-- An event that happens leads to the next state of a run. -/
theorem reachable_next
    {G : Adapter → Event → Prop} {s s' : Adapter} (h : throttling.Reachable G s) (e : Event)
    (hG : G s e) (hen : Enabled s e) (happly : apply s e = .ok s') :
  throttling.Reachable G s'
  := by
  apply TransSystem.Reachable.step h hG ⟨hen, happly⟩

/-- Once the device is up and has been polled, its vectors keep to the rates of the classes. -/
theorem polled_itr :
  ∃ s, s.up = true ∧ s.rxItrSetting = 1 ∧ 0 < s.vectors.length ∧
    ∀ i v, s.vectors[i]? = some v → Settled s i → itr100K ≤ v.itr ∧ v.itr ≤ itr12K
  := by
  have hup := reachable_next (probed_reachable Guarded) .up trivial ⟨rfl, rfl⟩ rfl
  have hpoll := reachable_next hup (.poll 0 onePacket) (by intro c v hc; cases hc)
    ⟨rfl, by decide⟩ rfl
  exact ⟨_, rfl, rfl, by decide, (reachable_itr hpoll).2 rfl rfl⟩

/-- Switching from no throttling to the adaptive mode, `ixgbevf_set_coalesce` writes the
setting before it rewrites the vectors, and a poll in between divides by zero. -/
theorem coalesce_divides_by_zero :
  ¬ ∀ s, throttling.Reachable TransSystem.always s → ∀ i w, Enabled s (.poll i w) →
    apply s (.poll i w) ≠ .error .divisionByZero
  := by
  intro h
  have hup := reachable_next (probed_reachable TransSystem.always) .up trivial ⟨rfl, rfl⟩ rfl
  have hbegin := reachable_next hup (.coalesceBegin 0 0) trivial rfl rfl
  have htx := reachable_next hbegin .coalesceNext trivial rfl rfl
  have hzero := reachable_next htx .coalesceNext trivial rfl rfl
  have hone := reachable_next hzero .coalesceNext trivial rfl rfl
  have hend := reachable_next hone .coalesceNext trivial rfl rfl
  have hagain := reachable_next hend (.coalesceBegin 1 0) trivial rfl rfl
  apply h _ hagain 0 onePacket ⟨rfl, by decide⟩
  rfl

end Ixgbevf.Itr
