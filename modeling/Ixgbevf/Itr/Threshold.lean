import Ixgbevf.Itr

/-!
# The write-back threshold

`ixgbevf_configure_tx_ring` chooses the write-back threshold of a Tx ring by the throttle
rate that the ring's vector has at that moment.  The rate changes afterwards: where the
interface comes up `ixgbevf_configure_msix` sets it only after the rings are configured, and
`ixgbevf_set_coalesce` and the polls change it while the rings keep what they were
programmed with.
-/

namespace Ixgbevf.Itr

/-! ### Tx rings -/

/-- `IXGBE_TXDCTL_ENABLE`. -/
def txdctlEnable : ℕ := 0x02000000

/-- `IXGBE_TXDCTL_SWFLSH`. -/
def txdctlSwflsh : ℕ := 0x04000000

/-- The field `IXGBE_TXDCTL_WTHRESH` of a `VFTXDCTL` register. -/
def wthresh (txdctl : ℕ) : ℕ := (txdctl >>> 16) &&& 0x7F

/-- A Tx or XDP ring: the vector it points to and what its register was programmed with. -/
structure TxRing where
  /-- The index of the vector of `q_vector`, unless it is null. -/
  qVector : Option ℕ
  /-- The ring's `VFTXDCTL` register. -/
  txdctl : ℕ
  deriving DecidableEq, Repr

/-- The choice of `txdctl` in `ixgbevf_configure_tx_ring`. -/
def configureTxRing (vectors : List QVector) (r : TxRing) : TxRing :=
  let low := (r.qVector.bind fun i => vectors[i]?).all (·.itr < 8)
  let txdctl := txdctlEnable ||| (if low then 1 <<< 16 else 8 <<< 16)
  { r with txdctl := txdctl ||| (1 <<< 8 ||| 32) }

/-- The write of `ixgbevf_down` that stops a ring. -/
def disableTxRing (r : TxRing) : TxRing := { r with txdctl := txdctlSwflsh }

/-- The index of the vector that a ring belongs to. -/
def vectorOf (a : Queues.Adapter) (r : Queues.Ring) : Option ℕ :=
  (List.range a.numQVectors).find? fun v => (a.qVector v).any (·.id == r.qVector)

/-- The Tx and XDP rings in use after a set-up of the interrupt scheme. -/
def allocatedRings (a : Queues.Adapter) : List TxRing :=
  ((List.range a.numTxQueues).filterMap a.rings.tx
    ++ (List.range a.numXdpQueues).filterMap a.rings.xdp).map
      fun r => { qVector := vectorOf a r, txdctl := 0 }

/-- The throttling together with the Tx rings. -/
@[ext]
structure Device where
  /-- The throttling. -/
  throttle : Adapter
  /-- The Tx and XDP rings in use. -/
  txRings : List TxRing

/-- What an event does to the Tx rings. -/
def ringsAfter (s : Device) : Event → List TxRing
  | .up => s.txRings.map (configureTxRing s.throttle.vectors)
  | .down => if s.throttle.up then s.txRings.map disableTxRing else s.txRings
  | .clear => []
  | .realloc a => allocatedRings a
  | .coalesceBegin _ _ | .coalesceNext | .poll _ _ => s.txRings

/-- The throttling and the Tx rings of a device from the successful end of its probe on. -/
def moderation : TransSystem Device Event where
  init s := ∃ env a₀ a, Queues.initInterruptScheme env a₀ = some (a, true) ∧
    s.throttle = { rxItrSetting := 1, txItrSetting := 1, vectors := allocated a, up := false,
                   coalesce := none } ∧
    s.txRings = allocatedRings a
  step s e s' := throttling.step s.throttle e s'.throttle ∧ s'.txRings = ringsAfter s e

/-- A ring has been programmed as its comment asks: where the vector has a throttle rate below
eight, with a write-back threshold of one. -/
def Moderated (s : Device) : Prop :=
  ∀ r ∈ s.txRings, ∀ i v, r.qVector = some i → s.throttle.vectors[i]? = some v → v.itr < 8 →
    wthresh r.txdctl = 1

/-- The vectors in use have Tx rings with a write-back threshold of one alone. -/
def Gentle (s : Device) : Prop :=
  ∀ r ∈ s.txRings, ∀ i, r.qVector = some i → i < s.throttle.vectors.length →
    wthresh r.txdctl = 1

/-- Whether `ixgbevf_set_coalesce` accepts its parameters. -/
def Accepts (s : Adapter) (rxUsecs txUsecs : ℕ) : Prop :=
  ∃ v, s.vectors.head? = some v ∧ ¬ (v.tx.count ≠ 0 ∧ v.rx.count ≠ 0 ∧ txUsecs ≠ 0) ∧
    rxUsecs ≤ maxEitr >>> 2 ∧ txUsecs ≤ maxEitr >>> 2

/-- The condition on an event: a `ixgbevf_set_coalesce` that is accepted and turns the
throttling off finds no ring of a running interface with a higher write-back threshold. -/
def KeepsThreshold (s : Device) : Event → Prop
  | .coalesceBegin rxUsecs txUsecs =>
    s.throttle.up = true → Accepts s.throttle rxUsecs txUsecs → rxUsecs = 0 → Gentle s
  | _ => True

/-! ### One ring -/

/-- Configuring a ring leaves it with its vector. -/
@[simp]
theorem configureTxRing_qVector (vectors : List QVector) (r : TxRing) :
  (configureTxRing vectors r).qVector = r.qVector
  := rfl

/-- A ring of a vector with a throttle rate below eight is configured with a threshold of
one. -/
theorem configureTxRing_low
    {vectors : List QVector} {r : TxRing} {i : ℕ} {v : QVector} (hr : r.qVector = some i)
    (hv : vectors[i]? = some v) (hlow : v.itr < 8) :
  wthresh (configureTxRing vectors r).txdctl = 1
  := by
  have hall : (r.qVector.bind fun i => vectors[i]?).all (·.itr < 8) = true := by
    rw [hr, Option.bind_some, hv, Option.all_some]
    apply decide_eq_true hlow
  unfold configureTxRing
  rw [hall]
  show wthresh (txdctlEnable ||| 1 <<< 16 ||| (1 <<< 8 ||| 32)) = 1
  decide

/-! ### One vector -/

/-- Packets on a vector that is not throttled cannot be classified. -/
theorem updateItr_zero {c : RingContainer} (h : c.totalPackets ≠ 0) :
  updateItr 0 c = .error .divisionByZero
  := by
  unfold updateItr
  rw [if_neg h]
  rfl

/-- The throttle rates that occur: zero, or at least eight. -/
structure Coarse (itr : ℕ) : Prop where
  le : itr ≤ maxEitr
  zero_or : itr = 0 ∨ 8 ≤ itr

/-- The rate that a valid setting starts a vector with is zero only for the setting zero. -/
theorem settingItr_coarse {setting : ℕ} (h : ValidSetting setting) :
  Coarse (settingItr itr20K setting) ∧ (settingItr itr20K setting < 8 → setting = 0)
  := by
  have hfits := settingItr_fits h
  have hzero : setting = 0 → settingItr itr20K setting = 0 := by
    rintro rfl
    rfl
  refine ⟨⟨hfits.le, ?_⟩, ?_⟩
  · rcases eq_or_ne setting 0 with hs | hs
    · apply Or.inl (hzero hs)
    · apply Or.inr (hfits.positive hs)
  · intro hlow
    by_contra hs
    have := hfits.positive hs
    omega

/-- Classifying the work of a vector moves its throttle rate neither below eight nor away from
zero. -/
theorem setItr_coarse
    {v v' : QVector} (h : setItr v = .ok v') (hv : Coarse v.itr) :
  Coarse v'.itr ∧ (v'.itr < 8 → v.itr < 8) ∧ v'.rx.count = v.rx.count
  := by
  have hdivisible : v.tx.totalPackets ≠ 0 ∨ v.rx.totalPackets ≠ 0 → 4 ≤ v.itr := by
    intro hpackets
    rcases hv.zero_or with hzero | hge
    · -- the call would not have returned
      unfold setItr at h
      rw [hzero] at h
      by_cases htx : v.tx.totalPackets = 0
      · have hrx : v.rx.totalPackets ≠ 0 := hpackets.resolve_left (not_not.mpr htx)
        rw [updateItr_zero hrx] at h
        unfold updateItr at h
        rw [if_pos htx] at h
        cases h
      · rw [updateItr_zero htx] at h
        cases h
    · omega
  obtain ⟨w, t, hw, ht, ht', hitr, hcount⟩ := setItr_ok hdivisible hv.le
  rw [h, Except.ok.injEq] at hw
  subst hw
  have hpos : 0 < 9 * t + v.itr := by
    unfold itr100K at ht
    omega
  have hle : v'.itr ≤ maxEitr := by
    rw [hitr]
    apply Mean.harmonic_le _ hv.le
    unfold itr12K at ht'
    unfold maxEitr
    omega
  rcases hv.zero_or with hzero | hge
  · have hstays : v'.itr = 0 := by
      rw [hitr, hzero]
      simp [Mean.harmonic]
    exact ⟨⟨hle, Or.inl hstays⟩, fun _ => by omega, hcount⟩
  · have hstays : 8 ≤ v'.itr := by
      rw [hitr]
      apply Mean.le_harmonic _ hge hpos
      unfold itr100K at ht
      omega
    exact ⟨⟨hle, Or.inr hstays⟩, fun _ => by omega, hcount⟩

/-! ### The invariant of a run -/

/-- What holds of the throttling and the Tx rings in every state of a run. -/
structure DeviceInv (s : Device) : Prop where
  valid : ValidSetting s.throttle.rxItrSetting
  param : ∀ c, s.throttle.coalesce = some c →
    c.rxItrParam = settingItr itr20K s.throttle.rxItrSetting
  vector : ∀ v ∈ s.throttle.vectors, v.rx.count ≠ 0 ∧ Coarse v.itr
  off : s.throttle.rxItrSetting = 0 → ∀ (i : ℕ) (v : QVector),
    s.throttle.vectors[i]? = some v → Settled s.throttle i → v.itr = 0
  gentle : s.throttle.up = true → s.throttle.rxItrSetting = 0 → Gentle s
  moderated : s.throttle.up = true → Moderated s

/-- Nothing is asked of the rings of an interface that is down, so its vectors may be
replaced. -/
theorem DeviceInv.of_down
    {s s' : Device} (hs : DeviceInv s) (hdown : s'.throttle.up = false)
    (hsetting : s'.throttle.rxItrSetting = s.throttle.rxItrSetting)
    (hidle : s'.throttle.coalesce = none)
    (hvectors : ∀ v ∈ s'.throttle.vectors, v.rx.count ≠ 0 ∧ Coarse v.itr ∧
      (s.throttle.rxItrSetting = 0 → v.itr = 0)) :
  DeviceInv s'
  := by
  constructor
  · rw [hsetting]
    apply hs.valid
  · intro c hc
    rw [hidle] at hc
    cases hc
  · intro v hv
    obtain ⟨hserves, hcoarse, -⟩ := hvectors v hv
    exact ⟨hserves, hcoarse⟩
  · intro hzero i v hv _
    rw [hsetting] at hzero
    apply (hvectors v (List.mem_of_getElem? hv)).2.2 hzero
  · intro hup
    rw [hdown] at hup
    cases hup
  · intro hup
    rw [hdown] at hup
    cases hup

/-- Without a call in progress every vector is settled. -/
theorem settled_of_idle {s : Adapter} (h : s.coalesce = none) (i : ℕ) :
  Settled s i
  := by
  intro c hc
  rw [h] at hc
  cases hc

/-- A vector of an idle interface whose throttling is off is not throttled. -/
theorem DeviceInv.off_of_idle
    {s : Device} (hs : DeviceInv s) (hidle : s.throttle.coalesce = none)
    (hzero : s.throttle.rxItrSetting = 0) {v : QVector} (hv : v ∈ s.throttle.vectors) :
  v.itr = 0
  := by
  obtain ⟨i, hi⟩ := List.mem_iff_getElem?.mp hv
  apply hs.off hzero i v hi (settled_of_idle hidle i)

/-- Bringing the interface up keeps the invariant: where the throttling is off it was off when
the rings were configured. -/
theorem up_deviceInv
    {s s' : Device} (hs : DeviceInv s) (hidle : s.throttle.coalesce = none)
    (hthrottle : s'.throttle = { configureMsix s.throttle with up := true })
    (hrings : s'.txRings = s.txRings.map (configureTxRing s.throttle.vectors)) :
  DeviceInv s'
  := by
  obtain ⟨hcoarse, hlow⟩ := settingItr_coarse hs.valid
  have hrewritten {i : ℕ} {v : QVector} (hv : s'.throttle.vectors[i]? = some v) :
      ∃ w, s.throttle.vectors[i]? = some w ∧ v.rx.count ≠ 0 ∧
        v.itr = settingItr itr20K s.throttle.rxItrSetting := by
    rw [hthrottle] at hv
    simp only [configureMsix, List.getElem?_map] at hv
    obtain ⟨w, hw, rfl⟩ := Option.map_eq_some_iff.mp hv
    obtain ⟨hitr, hserves⟩ := throttle_itr (hs.vector w (List.mem_of_getElem? hw)).1
      (settingItr itr20K s.throttle.rxItrSetting) (settingItr itr12K s.throttle.txItrSetting)
    exact ⟨w, hw, hserves, hitr⟩
  have hone (hzero : s.throttle.rxItrSetting = 0) {r : TxRing} (hr : r ∈ s'.txRings) {i : ℕ}
      {w : QVector} (hri : r.qVector = some i) (hw : s.throttle.vectors[i]? = some w) :
      wthresh r.txdctl = 1 := by
    rw [hrings] at hr
    obtain ⟨r₀, -, rfl⟩ := List.mem_map.mp hr
    apply configureTxRing_low hri hw
    rw [hs.off_of_idle hidle hzero (List.mem_of_getElem? hw)]
    decide
  have hsetting : s'.throttle.rxItrSetting = s.throttle.rxItrSetting := by
    rw [hthrottle]
    rfl
  have hidle' : s'.throttle.coalesce = none := by
    rw [hthrottle]
    apply hidle
  constructor
  · rw [hsetting]
    apply hs.valid
  · intro c hc
    rw [hidle'] at hc
    cases hc
  · intro v hv
    obtain ⟨i, hi⟩ := List.mem_iff_getElem?.mp hv
    obtain ⟨w, -, hserves, hitr⟩ := hrewritten hi
    refine ⟨hserves, ?_⟩
    rw [hitr]
    apply hcoarse
  · intro hzero i v hv _
    obtain ⟨w, -, -, hitr⟩ := hrewritten hv
    rw [hsetting] at hzero
    rw [hitr, hzero]
    rfl
  · intro _ hzero r hr i hri hi
    rw [hsetting] at hzero
    obtain ⟨w, hw, -⟩ := hrewritten (List.getElem?_eq_getElem hi)
    apply hone hzero hr hri hw
  · intro _ r hr i v hri hv hitr
    obtain ⟨w, hw, -, hrate⟩ := hrewritten hv
    rw [hrate] at hitr
    apply hone (hlow hitr) hr hri hw

/-- The beginning of a call keeps the invariant: where it turns the throttling off the rings
were programmed for that. -/
theorem coalesceBegin_deviceInv
    {rxUsecs txUsecs : ℕ} {s s' : Device} (hs : DeviceInv s)
    (hG : KeepsThreshold s (.coalesceBegin rxUsecs txUsecs))
    (h : coalesceBegin rxUsecs txUsecs s.throttle = .ok s'.throttle)
    (hrings : s'.txRings = s.txRings) :
  DeviceInv s'
  := by
  unfold coalesceBegin at h
  split at h
  · cases h
  rename_i head tail hvectors
  split at h
  · simp only [Except.ok.injEq] at h
    rwa [show s' = s from Device.ext h.symm hrings]
  split at h
  · simp only [Except.ok.injEq] at h
    rwa [show s' = s from Device.ext h.symm hrings]
  rename_i hmixed hchecks
  rw [not_or] at hchecks
  simp only [Except.ok.injEq] at h
  have hvec : s'.throttle.vectors = s.throttle.vectors := by rw [← h]
  have hup : s'.throttle.up = s.throttle.up := by rw [← h]
  have hsetting : s'.throttle.rxItrSetting = usecsSetting rxUsecs := by rw [← h]
  constructor
  · rw [hsetting]
    apply usecsSetting_valid hchecks.1
  · intro c hc
    rw [← h] at hc
    cases hc
    rw [hsetting]
  · rw [hvec]
    apply hs.vector
  · intro _ i v _ hset
    obtain ⟨n, hn, -⟩ := hset _ (by rw [← h])
    cases hn
  · intro hrun hzero
    have husecs : rxUsecs = 0 := by
      rw [hsetting] at hzero
      unfold usecsSetting at hzero
      split at hzero
      · rw [Nat.shiftLeft_eq] at hzero
        omega
      · apply hzero
    rw [hup] at hrun
    have haccepts : Accepts s.throttle rxUsecs txUsecs := by
      use head
      rw [hvectors]
      exact ⟨rfl, hmixed, Nat.not_lt.mp hchecks.1, Nat.not_lt.mp hchecks.2⟩
    unfold Gentle
    rw [hrings, hvec]
    apply hG hrun haccepts husecs
  · intro hrun
    rw [hup] at hrun
    unfold Moderated
    rw [hrings, hvec]
    apply hs.moderated hrun

/-- What the next write of a call in progress leaves: the settings as they were, and a vector
either as it was or, if settled from now on, with the rate of the call. -/
theorem coalesceNext_vector
    {s : Adapter} (hparam : ∀ c, s.coalesce = some c → c.rxItrParam = settingItr itr20K s.rxItrSetting)
    (hserves : ∀ v ∈ s.vectors, v.rx.count ≠ 0) {i : ℕ} {v : QVector}
    (hv : (coalesceNext s).vectors[i]? = some v) :
  ∃ w, s.vectors[i]? = some w ∧ v.rx.count ≠ 0 ∧
    (v.itr = settingItr itr20K s.rxItrSetting ∨
      v.itr = w.itr ∧ (Settled (coalesceNext s) i → Settled s i))
  := by
  unfold coalesceNext at hv ⊢
  split at hv
  · exact ⟨v, hv, hserves v (List.mem_of_getElem? hv), Or.inr ⟨rfl, fun h => h⟩⟩
  rename_i c hc
  split at hv
  · refine ⟨v, hv, hserves v (List.mem_of_getElem? hv), Or.inr ⟨rfl, fun hset => ?_⟩⟩
    obtain ⟨n, hn, hlt⟩ := hset _ rfl
    cases hn
    omega
  rename_i k hwritten
  split at hv
  · rename_i hk
    rw [if_pos hk]
    simp only [List.getElem?_modify, Option.map_eq_map] at hv
    obtain ⟨w, hw, rfl⟩ := Option.map_eq_some_iff.mp hv
    have hw' := hserves w (List.mem_of_getElem? hw)
    use w, hw
    by_cases hki : k = i
    · obtain ⟨hitr, hcount⟩ := throttle_itr hw' c.rxItrParam (settingItr itr12K s.txItrSetting)
      rw [if_pos hki]
      refine ⟨hcount, Or.inl ?_⟩
      rw [hitr, hparam c hc]
    · rw [if_neg hki]
      refine ⟨hw', Or.inr ⟨rfl, fun hset c' hc' => ?_⟩⟩
      rw [hc, Option.some.injEq] at hc'
      subst hc'
      obtain ⟨n, hn, hlt⟩ := hset _ rfl
      cases hn
      exact ⟨k, hwritten, by omega⟩
  · rename_i hend
    refine ⟨v, hv, hserves v (List.mem_of_getElem? hv), Or.inr ⟨rfl, fun _ c' hc' => ?_⟩⟩
    rw [hc, Option.some.injEq] at hc'
    subst hc'
    have hlt : i < s.vectors.length := (List.getElem?_eq_some_iff.mp hv).1
    exact ⟨k, hwritten, by omega⟩

/-- A write of a call in progress changes neither the Rx setting nor the number of vectors. -/
theorem coalesceNext_frame (s : Adapter) :
  (coalesceNext s).rxItrSetting = s.rxItrSetting ∧ (coalesceNext s).up = s.up ∧
    (coalesceNext s).vectors.length = s.vectors.length ∧
    ∀ c, (coalesceNext s).coalesce = some c → ∃ c₀, s.coalesce = some c₀ ∧
      c.rxItrParam = c₀.rxItrParam
  := by
  unfold coalesceNext
  split
  · exact ⟨rfl, rfl, rfl, fun c hc => ⟨c, hc, rfl⟩⟩
  rename_i c hc
  split
  · refine ⟨rfl, rfl, rfl, fun c' hc' => ⟨c, hc, ?_⟩⟩
    cases hc'
    rfl
  split
  · refine ⟨rfl, rfl, List.length_modify _ _ _, fun c' hc' => ⟨c, hc, ?_⟩⟩
    cases hc'
    rfl
  · exact ⟨rfl, rfl, rfl, fun c' hc' => nomatch hc'⟩

/-- The next write of a call in progress keeps the invariant. -/
theorem coalesceNext_deviceInv
    {s s' : Device} (hs : DeviceInv s) (h : s'.throttle = coalesceNext s.throttle)
    (hrings : s'.txRings = s.txRings) :
  DeviceInv s'
  := by
  obtain ⟨hsetting, hup, hlength, hcall⟩ := coalesceNext_frame s.throttle
  rw [← h] at hsetting hup hlength hcall
  obtain ⟨hcoarse, hlow⟩ := settingItr_coarse hs.valid
  have hvec {i : ℕ} {v : QVector} (hv : s'.throttle.vectors[i]? = some v) :
      ∃ w, s.throttle.vectors[i]? = some w ∧ v.rx.count ≠ 0 ∧
        (v.itr = settingItr itr20K s.throttle.rxItrSetting ∨
          v.itr = w.itr ∧ (Settled s'.throttle i → Settled s.throttle i)) := by
    rw [h] at hv ⊢
    apply coalesceNext_vector hs.param (fun w hw => (hs.vector w hw).1) hv
  constructor
  · rw [hsetting]
    apply hs.valid
  · intro c hc
    obtain ⟨c₀, hc₀, heq⟩ := hcall c hc
    rw [heq, hsetting]
    apply hs.param c₀ hc₀
  · intro v hv
    obtain ⟨i, hi⟩ := List.mem_iff_getElem?.mp hv
    obtain ⟨w, hw, hserves, hrate | ⟨hrate, -⟩⟩ := hvec hi
    · rw [hrate]
      exact ⟨hserves, hcoarse⟩
    · rw [hrate]
      exact ⟨hserves, (hs.vector w (List.mem_of_getElem? hw)).2⟩
  · intro hzero i v hv hset
    rw [hsetting] at hzero
    obtain ⟨w, hw, -, hrate | ⟨hrate, hback⟩⟩ := hvec hv
    · rw [hrate, hzero]
      rfl
    · rw [hrate]
      apply hs.off hzero i w hw (hback hset)
  · intro hrun hzero
    rw [hup] at hrun
    rw [hsetting] at hzero
    unfold Gentle
    rw [hrings, hlength]
    apply hs.gentle hrun hzero
  · intro hrun r hr i v hri hv hitr
    rw [hup] at hrun
    rw [hrings] at hr
    obtain ⟨w, hw, -, hrate | ⟨hrate, -⟩⟩ := hvec hv
    · rw [hrate] at hitr
      apply hs.gentle hrun (hlow hitr) r hr i hri (List.getElem?_eq_some_iff.mp hw).1
    · rw [hrate] at hitr
      apply hs.moderated hrun r hr i w hri hw hitr

/-- What a poll that returns leaves: the vectors it does not serve as they were, and the one it
serves with a rate that is below eight only if it was. -/
theorem poll_vector
    {s s' : Adapter} {i : ℕ} {w : PollWork} (h : poll i w s = .ok s')
    (hvectors : ∀ v ∈ s.vectors, v.rx.count ≠ 0 ∧ Coarse v.itr) :
  ∃ v v', s.vectors[i]? = some v ∧ s' = { s with vectors := s.vectors.set i v' } ∧
    v'.rx.count ≠ 0 ∧ Coarse v'.itr ∧ (v'.itr < 8 → v.itr < 8) ∧
    (s.rxItrSetting ≠ 1 → v'.itr = v.itr)
  := by
  unfold poll at h
  split at h
  · cases h
  rename_i v hv
  obtain ⟨hserves, hcoarse⟩ := hvectors v (List.mem_of_getElem? hv)
  simp only [pollVector] at h
  by_cases hset : w.cleanComplete ∧ s.rxItrSetting = 1
  · rw [if_pos hset] at h
    cases hv' : setItr (v.addWork w) with
    | error e =>
      rw [hv'] at h
      cases h
    | ok v' =>
      rw [hv'] at h
      cases h
      obtain ⟨hcoarse', hlow, hcount⟩ := setItr_coarse hv' hcoarse
      refine ⟨v, v', hv, rfl, ?_, hcoarse', hlow, fun hne => absurd hset.2 hne⟩
      rw [hcount]
      apply hserves
  · rw [if_neg hset] at h
    cases h
    exact ⟨v, v.addWork w, hv, rfl, hserves, hcoarse, fun hlow => hlow, fun _ => rfl⟩

/-- A poll keeps the invariant. -/
theorem poll_deviceInv
    {s s' : Device} {i : ℕ} {w : PollWork} (hs : DeviceInv s)
    (h : poll i w s.throttle = .ok s'.throttle) (hrings : s'.txRings = s.txRings) :
  DeviceInv s'
  := by
  obtain ⟨v, v', hv, h', hserves, hcoarse, hlow, hsame⟩ := poll_vector h hs.vector
  have hvec {j : ℕ} {u : QVector} (hu : s'.throttle.vectors[j]? = some u) :
      u = v' ∧ i = j ∨ s.throttle.vectors[j]? = some u := by
    rw [h', List.getElem?_set] at hu
    split at hu
    · rename_i hij
      subst hij
      split at hu <;> cases hu
      exact Or.inl ⟨rfl, rfl⟩
    · apply Or.inr hu
  have hsetting : s'.throttle.rxItrSetting = s.throttle.rxItrSetting := by rw [h']
  have hup : s'.throttle.up = s.throttle.up := by rw [h']
  have hcall : s'.throttle.coalesce = s.throttle.coalesce := by rw [h']
  constructor
  · rw [hsetting]
    apply hs.valid
  · rw [hsetting, hcall]
    apply hs.param
  · intro u hu
    obtain ⟨j, hj⟩ := List.mem_iff_getElem?.mp hu
    rcases hvec hj with ⟨rfl, -⟩ | hold
    · exact ⟨hserves, hcoarse⟩
    · apply hs.vector u (List.mem_of_getElem? hold)
  · intro hzero j u hu hset
    rw [hsetting] at hzero
    unfold Settled at hset
    rw [hcall] at hset
    rcases hvec hu with ⟨rfl, rfl⟩ | hold
    · rw [hsame (by rw [hzero]; decide)]
      apply hs.off hzero i v hv hset
    · apply hs.off hzero j u hold hset
  · intro hrun hzero
    rw [hup] at hrun
    rw [hsetting] at hzero
    have hlength : s'.throttle.vectors.length = s.throttle.vectors.length := by
      rw [h']
      apply List.length_set
    unfold Gentle
    rw [hrings, hlength]
    apply hs.gentle hrun hzero
  · intro hrun r hr j u hrj hu hitr
    rw [hup] at hrun
    rw [hrings] at hr
    rcases hvec hu with ⟨rfl, rfl⟩ | hold
    · apply hs.moderated hrun r hr i v hrj hv (hlow hitr)
    · apply hs.moderated hrun r hr j u hrj hold hitr

/-- Every event that meets the condition keeps the invariant. -/
theorem step_deviceInv
    {s s' : Device} {e : Event} (hs : DeviceInv s) (hG : KeepsThreshold s e)
    (h : moderation.step s e s') :
  DeviceInv s'
  := by
  obtain ⟨⟨hen, h⟩, hrings⟩ := h
  cases e with
  | coalesceBegin rxUsecs txUsecs => apply coalesceBegin_deviceInv hs hG h hrings
  | coalesceNext =>
    simp only [apply, Except.ok.injEq] at h
    apply coalesceNext_deviceInv hs h.symm hrings
  | poll i w => apply poll_deviceInv hs h hrings
  | up =>
    simp only [apply, Except.ok.injEq] at h
    apply up_deviceInv hs hen.1 h.symm hrings
  | down =>
    simp only [apply, Except.ok.injEq] at h
    refine hs.of_down (by rw [← h]) (by rw [← h]) (by rw [← h]; exact hen) ?_
    intro v hv
    rw [← h] at hv
    obtain ⟨hserves, hcoarse⟩ := hs.vector v hv
    exact ⟨hserves, hcoarse, fun hzero => hs.off_of_idle hen hzero hv⟩
  | clear =>
    simp only [apply, Except.ok.injEq] at h
    refine hs.of_down (by rw [← h]; exact hen.2) (by rw [← h]) (by rw [← h]; exact hen.1) ?_
    intro v hv
    rw [← h] at hv
    cases hv
  | realloc a =>
    obtain ⟨hidle, hdown, env, a₀, hinit⟩ := hen
    simp only [apply, Except.ok.injEq] at h
    refine hs.of_down (by rw [← h]; exact hdown) (by rw [← h]) (by rw [← h]; exact hidle) ?_
    intro v hv
    rw [← h] at hv
    obtain ⟨hserves, hitr⟩ := allocated_mem hinit hv
    refine ⟨hserves, ?_, fun _ => hitr⟩
    rw [hitr]
    exact ⟨by decide, Or.inl rfl⟩

/-- The throttling and the Tx rings start with the invariant. -/
theorem init_deviceInv {s : Device} (h : moderation.init s) :
  DeviceInv s
  := by
  obtain ⟨env, a₀, a, hinit, hthrottle, -⟩ := h
  constructor
  · rw [hthrottle]
    apply Or.inl
    simp
  · intro c hc
    rw [hthrottle] at hc
    cases hc
  · intro v hv
    rw [hthrottle] at hv
    obtain ⟨hserves, hitr⟩ := allocated_mem hinit hv
    rw [hitr]
    exact ⟨hserves, by decide, Or.inl rfl⟩
  · intro hzero
    rw [hthrottle] at hzero
    cases hzero
  · intro hup
    rw [hthrottle] at hup
    cases hup
  · intro hup
    rw [hthrottle] at hup
    cases hup

/-- In every run whose calls of `ixgbevf_set_coalesce` all meet the condition, the Tx rings of a
running interface have a write-back threshold of one where their vectors have throttle rates
below eight. -/
theorem reachable_moderated
    {s : Device} (h : moderation.Reachable KeepsThreshold s) (hup : s.throttle.up = true) :
  Moderated s
  := by
  have hs : DeviceInv s :=
    h.invariant (fun _ hi => init_deviceInv hi) fun _ _ _ hi hG hst => step_deviceInv hi hG hst
  apply hs.moderated hup

/-! ### Two runs -/

/-- The throttling and the Tx rings of a device after its probe. -/
def probedDevice : Device where
  throttle := probed
  txRings := allocatedRings (Queues.probed .api13)

/-- An event that happens leads to the next state of a run. -/
theorem moderation_next
    {G : Device → Event → Prop} {s : Device} (h : moderation.Reachable G s) (e : Event)
    {t : Adapter} (hG : G s e) (hen : Enabled s.throttle e) (happly : apply s.throttle e = .ok t) :
  moderation.Reachable G { throttle := t, txRings := ringsAfter s e }
  := by
  apply TransSystem.Reachable.step h hG
  exact ⟨⟨hen, happly⟩, rfl⟩

/-- A probed device is a start of a run. -/
theorem probedDevice_reachable (G : Device → Event → Prop) :
  moderation.Reachable G probedDevice
  := by
  apply TransSystem.Reachable.init
  use Queues.plenty .api13, Queues.blank Rx.default82599Vf, Queues.probed .api13
  exact ⟨Queues.probed_init .api13, rfl, rfl⟩

/-- Once the device is up for the first time, turning the throttling off leaves vectors with
rings that were programmed for it. -/
theorem off_moderated :
  ∃ s, s.throttle.up = true ∧ (∃ r ∈ s.txRings, ∃ i v, r.qVector = some i ∧
    s.throttle.vectors[i]? = some v ∧ v.itr < 8) ∧ Moderated s
  := by
  have hup := moderation_next (probedDevice_reachable KeepsThreshold) .up trivial ⟨rfl, rfl⟩ rfl
  have hbegin := moderation_next hup (.coalesceBegin 0 0)
    (by intro _ _ _; unfold Gentle; decide +kernel) rfl rfl
  have htx := moderation_next hbegin .coalesceNext trivial rfl rfl
  have hzero := moderation_next htx .coalesceNext trivial rfl rfl
  have hone := moderation_next hzero .coalesceNext trivial rfl rfl
  refine ⟨_, rfl, ?_, reachable_moderated hone rfl⟩
  refine ⟨{ qVector := some 0, txdctl := 0x2010120 }, ?_, 0, _, rfl, rfl, ?_⟩ <;> decide +kernel

/-- Once the device has been down and up again, its rings are programmed for throttled vectors,
and `ixgbevf_set_coalesce` turns the throttling off without programming them anew. -/
theorem off_not_moderated :
  ¬ ∀ s, moderation.Reachable TransSystem.always s → s.throttle.up = true → Moderated s
  := by
  intro h
  have hup := moderation_next (probedDevice_reachable TransSystem.always) .up trivial ⟨rfl, rfl⟩ rfl
  have hdown := moderation_next hup .down trivial rfl rfl
  have hagain := moderation_next hdown .up trivial ⟨rfl, rfl⟩ rfl
  have hbegin := moderation_next hagain (.coalesceBegin 0 0) trivial rfl rfl
  have htx := moderation_next hbegin .coalesceNext trivial rfl rfl
  have hzero := moderation_next htx .coalesceNext trivial rfl rfl
  have hbad := h _ hzero rfl { qVector := some 0, txdctl := 0x2080120 } (by decide +kernel) 0 _
    rfl rfl (by decide +kernel)
  revert hbad
  decide

end Ixgbevf.Itr
