import Ixgbevf.Lib.Run
import Ixgbevf.Lib.Bits

/-!
# Hardware statistics

The hardware counts frames and octets in counters of 32 and 36 bits, which a reset may or may
not clear.  `ixgbevf_update_stats` extends each to 64 bits by the value last read, and
`ixgbevf_up_complete` saves what was counted before a reset and takes the counters anew.
-/

namespace Ixgbevf.Stats

/-! ### Counters -/

/-- The hardware counters that the driver reads. -/
inductive Counter where
  | vfgprc
  | vfgptc
  | vfgorc
  | vfgotc
  | vfmprc
  deriving DecidableEq, Repr

/-- The width of a counter in bits. -/
def Counter.width : Counter → ℕ
  | vfgprc | vfgptc | vfmprc => 32
  | vfgorc | vfgotc => 36

/-- The fields of `struct ixgbevf_hw_stats` that belong to a counter. -/
structure CounterStats where
  /-- The counter extended to 64 bits. -/
  value : BitVec 64
  /-- `last_`, the value last read. -/
  last : BitVec 64
  /-- `base_`, the value read when the interface came up. -/
  base : BitVec 64
  /-- `saved_reset_`. -/
  savedReset : BitVec 64
  deriving DecidableEq, Repr

/-- What the driver has counted in all. -/
def CounterStats.total (k : CounterStats) : BitVec 64 := k.savedReset + (k.value - k.base)

/-- The low register of a counter that stands at `h`. -/
def lsb (h : ℕ) : BitVec 32 := BitVec.ofNat 32 h

/-- The high register of a counter that stands at `h`. -/
def msb (h : ℕ) : BitVec 32 := BitVec.ofNat 32 (h >>> 32)

/-- The common part of the macros that update a counter: `period` is what a wrap adds and
`keep` the mask of the bits above the counter. -/
def updateVfCounter (period keep current : BitVec 64) (k : CounterStats) : CounterStats :=
  let value := if current < k.last then k.value + period else k.value
  { k with last := current, value := (value &&& keep) ||| current }

/-- `UPDATE_VF_COUNTER_32bit`. -/
def updateVfCounter32bit (reg : BitVec 32) (k : CounterStats) : CounterStats :=
  updateVfCounter 0x100000000#64 0xFFFFFFFF00000000#64 (reg.setWidth 64) k

/-- `UPDATE_VF_COUNTER_36bit`. -/
def updateVfCounter36bit (regLsb regMsb : BitVec 32) (k : CounterStats) : CounterStats :=
  updateVfCounter 0x1000000000#64 0xFFFFFFF000000000#64
    (regMsb.setWidth 64 <<< 32 ||| regLsb.setWidth 64) k

/-- The macro that `ixgbevf_update_stats` uses for a counter that stands at `h`. -/
def updateCounter (c : Counter) (h : ℕ) (k : CounterStats) : CounterStats :=
  match c with
  | .vfgprc | .vfgptc | .vfmprc => updateVfCounter32bit (lsb h) k
  | .vfgorc | .vfgotc => updateVfCounter36bit (lsb h) (msb h) k

/-- What `ixgbevf_init_last_counter_stats` reads of a counter that stands at `h`. -/
def readCounter (c : Counter) (h : ℕ) : BitVec 64 :=
  match c with
  | .vfgprc | .vfgptc | .vfmprc => (lsb h).setWidth 64
  | .vfgorc | .vfgotc => (lsb h).setWidth 64 ||| (msb h).setWidth 64 <<< 32

/-- `adapter->stats`, as far as it comes from the hardware. -/
abbrev HwStats := Counter → CounterStats

/-- Whether `ixgbevf_save_reset_stats` finds something to save. -/
def HwStats.saveable (stats : HwStats) : Bool :=
  (stats .vfgprc).value ≠ 0 || (stats .vfgptc).value ≠ 0

/-- `ixgbevf_save_reset_stats`. -/
def saveResetStats (stats : HwStats) : HwStats :=
  if stats.saveable then
    fun c => { stats c with
      savedReset := (stats c).savedReset + ((stats c).value - (stats c).base) }
  else
    stats

/-- `ixgbevf_init_last_counter_stats`. -/
def initLastCounterStats (hw : Counter → ℕ) (stats : HwStats) : HwStats :=
  fun c => { stats c with last := readCounter c (hw c), base := readCounter c (hw c) }

/-! ### Runs -/

/-- The statistics of the driver and the counters of the hardware, with what has happened to
the latter. -/
structure Device where
  /-- `adapter->stats`. -/
  stats : HwStats
  /-- `__IXGBEVF_DOWN`. -/
  down : Bool
  /-- `__IXGBEVF_RESETTING`. -/
  resetting : Bool
  /-- Where the counters stand. -/
  hw : Counter → ℕ
  /-- The events counted while the interface was up. -/
  counted : Counter → ℕ
  /-- Those of them that were counted after the counter was last read. -/
  unread : Counter → ℕ

/-- `ixgbevf_update_stats`. -/
def updateStats (s : Device) : Device :=
  if s.down || s.resetting then
    s
  else
    { s with stats := fun c => updateCounter c (s.hw c) (s.stats c), unread := fun _ => 0 }

/-- The statistics part of `ixgbevf_up_complete`. -/
def upComplete (s : Device) : Device :=
  { s with
    stats := initLastCounterStats s.hw (saveResetStats s.stats)
    down := false
    unread := fun _ => 0 }

/-- `ixgbevf_update_stats` returns without reading the counters. -/
def Skipped (s : Device) : Prop := s.down = true ∨ s.resetting = true

instance (s : Device) : Decidable (Skipped s) :=
  inferInstanceAs (Decidable (s.down = true ∨ s.resetting = true))

/-- An update that is skipped does nothing. -/
theorem updateStats_skipped {s : Device} (h : Skipped s) :
  updateStats s = s
  := by
  unfold updateStats Skipped at *
  rw [if_pos (by simpa using h)]

/-- What happens to the counters and to the driver. -/
inductive Event where
  | count (c : Counter) (n : ℕ)
  | updateStats
  | upComplete
  | down
  | reset (zeroed : Counter → Bool)
  | resetting (b : Bool)

/-- When an event can happen: the interface is reset while it is down and then brought up, and
a counter wraps at most once before it is read. -/
def Enabled (s : Device) : Event → Prop
  | .count c n => s.down = false →
      (s.stats c).last.toNat + s.unread c + n < 2 * 2 ^ c.width
  | .upComplete => s.down = true
  | .reset _ => s.down = true
  | .updateStats | .down | .resetting _ => True

/-- What an event does. -/
def apply (s : Device) : Event → Device
  | .count c n =>
    let s := { s with hw := Function.update s.hw c ((s.hw c + n) % 2 ^ c.width) }
    if s.down then
      s
    else
      { s with
        counted := Function.update s.counted c (s.counted c + n)
        unread := Function.update s.unread c (s.unread c + n) }
  | .updateStats => Stats.updateStats s
  | .upComplete => Stats.upComplete s
  | .down => { s with down := true }
  | .reset zeroed => { s with hw := fun c => if zeroed c then 0 else s.hw c }
  | .resetting b => { s with resetting := b }

/-- The counters from the probe on, with what the hardware has counted before. -/
def statistics : TransSystem Device Event where
  init s := (∀ c, s.stats c = { value := 0, last := 0, base := 0, savedReset := 0 }) ∧
    s.down = true ∧ s.resetting = false ∧ (∀ c, s.hw c < 2 ^ c.width) ∧
    (∀ c, s.counted c = 0) ∧ ∀ c, s.unread c = 0
  step s e s' := Enabled s e ∧ s' = apply s e

/-- The driver has counted every event of the hardware once. -/
def Accounted (s : Device) : Prop := ∀ c, (s.stats c).total = BitVec.ofNat 64 (s.counted c)

/-- The part of the extended counter above the width of the hardware's. -/
def high (c : Counter) (k : CounterStats) : BitVec 64 :=
  k.value &&& ~~~BitVec.ofNat 64 (2 ^ c.width - 1)

/-- The condition on an event.  A counter that is read has advanced by less than its whole
period, an update that does nothing finds the extended counter up to date, and
`ixgbevf_up_complete` finds what it saves up to date, or has nothing to save. -/
def Intact (s : Device) : Event → Prop
  | .updateStats => ∀ c,
      if s.down || s.resetting then
        (s.stats c).value - high c (s.stats c) = (s.stats c).last + BitVec.ofNat 64 (s.unread c)
      else
        s.unread c < 2 ^ c.width
  | .upComplete => ∀ c,
      (if s.stats.saveable then (s.stats c).value else (s.stats c).base)
        = (s.stats c).last + BitVec.ofNat 64 (s.unread c)
  | _ => True

/-! ### One counter -/

/-- Reading the registers of a counter reads the counter. -/
theorem readCounter_eq {c : Counter} {h : ℕ} (hh : h < 2 ^ c.width) :
  readCounter c h = BitVec.ofNat 64 h
  := by
  apply BitVec.eq_of_toNat_eq
  have hlsb : (lsb h).toNat = h % 2 ^ 32 := BitVec.toNat_ofNat _ _
  cases c with
  | vfgprc | vfgptc | vfmprc =>
    simp only [Counter.width] at hh
    simp only [readCounter, BitVec.toNat_setWidth, BitVec.toNat_ofNat, hlsb]
    rw [Nat.mod_eq_of_lt hh]
  | vfgorc | vfgotc =>
    simp only [Counter.width] at hh
    have hmsb : (msb h).toNat = h / 2 ^ 32 := by
      unfold msb
      rw [BitVec.toNat_ofNat, Nat.shiftRight_eq_div_pow]
      omega
    simp only [readCounter]
    rw [Bits.toNat_or_shiftLeft]
    · rw [BitVec.toNat_setWidth, BitVec.toNat_setWidth, BitVec.toNat_ofNat, hlsb, hmsb]
      omega
    · rw [BitVec.toNat_setWidth, hlsb]
      omega
    · rw [BitVec.toNat_setWidth, hmsb]
      omega

/-- What a wrap adds to the extended counter. -/
def period (c : Counter) : BitVec 64 := BitVec.ofNat 64 (2 ^ c.width)

/-- The macros are one, at the period and the mask of the counter. -/
theorem updateCounter_eq (c : Counter) (h : ℕ) (k : CounterStats) :
  updateCounter c h k
    = updateVfCounter (period c) (~~~BitVec.ofNat 64 (2 ^ c.width - 1)) (readCounter c h) k
  := by
  cases c with
  | vfgprc | vfgptc | vfmprc => rfl
  | vfgorc | vfgotc =>
    simp only [updateCounter, updateVfCounter36bit, readCounter]
    rw [BitVec.or_comm]
    rfl

/-- An update replaces the low bits of the extended counter by the value read, and adds the
period to the high bits where the counter seems to have wrapped. -/
theorem updateCounter_spec
    {c : Counter} {h : ℕ} (k : CounterStats) (hh : h < 2 ^ c.width) :
  let k' := updateCounter c h k
  k'.last = BitVec.ofNat 64 h ∧ k'.base = k.base ∧ k'.savedReset = k.savedReset ∧
    k'.value = high c k' + BitVec.ofNat 64 h ∧
    k'.value = high c k + (if h < k.last.toNat then period c else 0) + BitVec.ofNat 64 h
  := by
  have hw : c.width ≤ 64 := by cases c <;> decide
  have hlt : h < 2 ^ 64 := Nat.lt_of_lt_of_le hh (Nat.pow_le_pow_right (by decide) hw)
  have hnat : (BitVec.ofNat 64 h).toNat = h := by
    rw [BitVec.toNat_ofNat, Nat.mod_eq_of_lt hlt]
  have hread : (BitVec.ofNat 64 h).toNat < 2 ^ c.width := by rwa [hnat]
  intro k'
  have hk' : k' = updateCounter c h k := rfl
  rw [updateCounter_eq, readCounter_eq hh] at hk'
  unfold updateVfCounter at hk'
  have hvalue : k'.value = ((if BitVec.ofNat 64 h < k.last then k.value + period c else k.value)
      &&& ~~~BitVec.ofNat 64 (2 ^ c.width - 1)) ||| BitVec.ofNat 64 h := by
    rw [hk']
  obtain ⟨hhigh, hsum⟩ := Bits.replace_low
    (if BitVec.ofNat 64 h < k.last then k.value + period c else k.value) hw hread
  refine ⟨by rw [hk'], by rw [hk'], by rw [hk'], ?_, ?_⟩
  · unfold high
    rw [hvalue, hhigh, ← hsum]
  · rw [hvalue, hsum]
    congr 1
    have hiff : BitVec.ofNat 64 h < k.last ↔ h < k.last.toNat := by
      rw [BitVec.lt_def, hnat]
    by_cases hwrap : h < k.last.toNat
    · rw [if_pos (hiff.mpr hwrap), if_pos hwrap]
      apply Bits.add_two_pow_and_not _ hw
    · rw [if_neg (fun hlt => hwrap (hiff.mp hlt)), if_neg hwrap, add_zero]
      rfl

/-- A counter that has advanced by less than its period stands above the value last read, up to
a wrap that shows. -/
theorem advance_eq
    {w last d : ℕ} (hlast : last < 2 ^ w) (hd : d < 2 ^ w) :
  (last + d) % 2 ^ w + (if (last + d) % 2 ^ w < last then 2 ^ w else 0) = last + d
  := by
  rcases Nat.lt_or_ge (last + d) (2 ^ w) with hlt | hge
  · rw [Nat.mod_eq_of_lt hlt, if_neg (by omega)]
    omega
  · have hmod : (last + d) % 2 ^ w = last + d - 2 ^ w := by
      rw [Nat.mod_eq_sub_mod hge, Nat.mod_eq_of_lt (by omega)]
    rw [hmod, if_pos (by omega)]
    omega

/-! ### The invariant of a run -/

/-- What holds of a counter in every state of a run: the next update will count every event
once. -/
structure CounterInv (s : Device) (c : Counter) : Prop where
  hw_lt : s.hw c < 2 ^ c.width
  last_lt : (s.stats c).last.toNat < 2 ^ c.width
  hw_eq : s.down = false → s.hw c = ((s.stats c).last.toNat + s.unread c) % 2 ^ c.width
  owed : (s.stats c).savedReset + (high c (s.stats c) + (s.stats c).last - (s.stats c).base)
    + BitVec.ofNat 64 (s.unread c) = BitVec.ofNat 64 (s.counted c)

/-- Where the low bits of the extended counter are up to date, every event has been counted
once. -/
theorem CounterInv.accounted
    {s : Device} {c : Counter} (hs : CounterInv s c)
    (h : (s.stats c).value - high c (s.stats c)
      = (s.stats c).last + BitVec.ofNat 64 (s.unread c)) :
  (s.stats c).total = BitVec.ofNat 64 (s.counted c)
  := by
  have howed := hs.owed
  unfold CounterStats.total
  linear_combination howed + h

/-- An update keeps the invariant and counts every event once. -/
theorem updateStats_inv
    {s : Device} (hs : ∀ c, CounterInv s c) (hG : Intact s .updateStats) :
  (∀ c, CounterInv (updateStats s) c) ∧ Accounted (updateStats s)
  := by
  unfold updateStats
  by_cases hidle : s.down || s.resetting
  · rw [if_pos hidle]
    refine ⟨hs, fun c => ?_⟩
    have hfound := hG c
    rw [if_pos hidle] at hfound
    apply (hs c).accounted hfound
  · rw [if_neg hidle]
    have hup : s.down = false := by
      rw [Bool.or_eq_true, not_or] at hidle
      exact Bool.eq_false_iff.mpr hidle.1
    have hcounter (c : Counter) : CounterInv { s with
        stats := fun c => updateCounter c (s.hw c) (s.stats c), unread := fun _ => 0 } c ∧
        (updateCounter c (s.hw c) (s.stats c)).total = BitVec.ofNat 64 (s.counted c) := by
      have hc := hs c
      have hd := hG c
      rw [if_neg hidle] at hd
      obtain ⟨hlast, hbase, hsaved, hself, hvalue⟩ := updateCounter_spec (s.stats c) hc.hw_lt
      have hadvance := advance_eq hc.last_lt hd
      rw [← hc.hw_eq hup] at hadvance
      -- the value read and the period of a wrap together are what was last read and the events
      have hread : (if s.hw c < (s.stats c).last.toNat then period c else 0)
          + BitVec.ofNat 64 (s.hw c)
          = (s.stats c).last + BitVec.ofNat 64 (s.unread c) := by
        have hcast := congrArg (BitVec.ofNat 64) hadvance
        rw [BitVec.ofNat_add, BitVec.ofNat_add, BitVec.ofNat_toNat, BitVec.setWidth_eq] at hcast
        rw [← hcast, add_comm]
        congr 1
        split <;> rfl
      have htotal : (updateCounter c (s.hw c) (s.stats c)).total = BitVec.ofNat 64 (s.counted c) := by
        have howed := hc.owed
        unfold CounterStats.total
        rw [hvalue, hbase, hsaved]
        linear_combination howed + hread
      refine ⟨⟨hc.hw_lt, ?_, ?_, ?_⟩, htotal⟩
      · simp only [hlast, BitVec.toNat_ofNat]
        apply Nat.lt_of_le_of_lt (Nat.mod_le _ _) hc.hw_lt
      · intro _
        simp only [hlast, BitVec.toNat_ofNat, Nat.add_zero]
        have h64 : s.hw c < 2 ^ 64 :=
          Nat.lt_of_lt_of_le hc.hw_lt (Nat.pow_le_pow_right (by decide) (by cases c <;> decide))
        rw [Nat.mod_eq_of_lt h64, Nat.mod_eq_of_lt hc.hw_lt]
      · simp only [hlast]
        unfold CounterStats.total at htotal
        have hzero : BitVec.ofNat 64 0 = 0 := rfl
        rw [hzero]
        linear_combination htotal - hself
    exact ⟨fun c => (hcounter c).1, fun c => (hcounter c).2⟩

/-- What `ixgbevf_save_reset_stats` adds to what it has saved. -/
theorem saveResetStats_apply (stats : HwStats) (c : Counter) :
  saveResetStats stats c = { stats c with
    savedReset := (stats c).savedReset
      + ((if stats.saveable then (stats c).value else (stats c).base) - (stats c).base) }
  := by
  unfold saveResetStats
  by_cases hsave : stats.saveable
  · simp only [if_pos hsave]
  · simp only [if_neg hsave, sub_self, add_zero]

/-- Bringing the interface up keeps the invariant exactly where what it saves is up to date. -/
theorem upComplete_inv_iff {s : Device} (hs : ∀ c, CounterInv s c) :
  (∀ c, CounterInv (upComplete s) c) ↔ Intact s .upComplete
  := by
  have hstats (c : Counter) : (upComplete s).stats c = { saveResetStats s.stats c with
      last := BitVec.ofNat 64 (s.hw c), base := BitVec.ofNat 64 (s.hw c) } := by
    simp only [upComplete, initLastCounterStats, readCounter_eq (hs c).hw_lt]
  have howed (c : Counter) :
      ((upComplete s).stats c).savedReset + (high c ((upComplete s).stats c)
          + ((upComplete s).stats c).last - ((upComplete s).stats c).base)
        + BitVec.ofNat 64 ((upComplete s).unread c) = BitVec.ofNat 64 ((upComplete s).counted c)
      ↔ (if s.stats.saveable then (s.stats c).value else (s.stats c).base)
        = (s.stats c).last + BitVec.ofNat 64 (s.unread c) := by
    have hold := (hs c).owed
    have hzero : BitVec.ofNat 64 ((upComplete s).unread c) = 0 := rfl
    have hcounted : (upComplete s).counted c = s.counted c := rfl
    have hhigh : high c ((upComplete s).stats c) = high c (s.stats c) := by
      unfold high
      rw [hstats, saveResetStats_apply]
    rw [hhigh, hzero, hcounted, hstats, saveResetStats_apply, ← hold]
    generalize (if s.stats.saveable then (s.stats c).value else (s.stats c).base) = saved
    constructor
    · intro h
      linear_combination h
    · intro h
      linear_combination h
  constructor
  · intro h c
    apply (howed c).mp (h c).owed
  · intro h c
    have h64 : s.hw c < 2 ^ 64 :=
      Nat.lt_of_lt_of_le (hs c).hw_lt (Nat.pow_le_pow_right (by decide) (by cases c <;> decide))
    have hlast : ((upComplete s).stats c).last.toNat = s.hw c := by
      rw [hstats]
      simp only [BitVec.toNat_ofNat]
      rw [Nat.mod_eq_of_lt h64]
    refine ⟨(hs c).hw_lt, ?_, ?_, (howed c).mpr (h c)⟩
    · rw [hlast]
      apply (hs c).hw_lt
    · intro _
      rw [hlast]
      show s.hw c = (s.hw c + 0) % 2 ^ c.width
      rw [Nat.add_zero, Nat.mod_eq_of_lt (hs c).hw_lt]

/-- An event that the hardware counts keeps the invariant. -/
theorem count_inv
    {s : Device} {c : Counter} {n : ℕ} (hs : ∀ c, CounterInv s c) (c' : Counter) :
  CounterInv (apply s (.count c n)) c'
  := by
  have hc := hs c'
  simp only [apply]
  by_cases hcc : c' = c
  · subst hcc
    by_cases hdown : s.down = true
    · rw [if_pos hdown]
      refine ⟨?_, hc.last_lt, fun hup => ?_, hc.owed⟩
      · simp only [Function.update_self]
        apply Nat.mod_lt _ (Nat.two_pow_pos _)
      · rw [hdown] at hup
        cases hup
    · rw [if_neg hdown]
      refine ⟨?_, hc.last_lt, fun hup => ?_, ?_⟩
      · simp only [Function.update_self]
        apply Nat.mod_lt _ (Nat.two_pow_pos _)
      · simp only [Function.update_self]
        rw [hc.hw_eq hup, Nat.mod_add_mod, Nat.add_assoc]
      · have howed := hc.owed
        simp only [Function.update_self, BitVec.ofNat_add]
        linear_combination howed
  · have hframe : CounterInv { s with
        hw := Function.update s.hw c ((s.hw c + n) % 2 ^ c.width) } c' := by
      refine ⟨?_, hc.last_lt, ?_, hc.owed⟩
      · simp only [Function.update_of_ne hcc]
        apply hc.hw_lt
      · simp only [Function.update_of_ne hcc]
        apply hc.hw_eq
    split
    · apply hframe
    · refine ⟨hframe.hw_lt, hc.last_lt, ?_, ?_⟩
      · simp only [Function.update_of_ne hcc]
        apply hc.hw_eq
      · simp only [Function.update_of_ne hcc]
        apply hc.owed

/-- Every event that meets the condition keeps the invariant. -/
theorem step_inv
    {s s' : Device} {e : Event} (hs : ∀ c, CounterInv s c) (hG : Intact s e)
    (h : statistics.step s e s') :
  ∀ c, CounterInv s' c
  := by
  obtain ⟨hen, rfl⟩ := h
  cases e with
  | count c n => apply count_inv hs
  | updateStats => apply (updateStats_inv hs hG).1
  | upComplete => apply (upComplete_inv_iff hs).mpr hG
  | down =>
    intro c
    refine ⟨(hs c).hw_lt, (hs c).last_lt, fun hup => ?_, (hs c).owed⟩
    cases hup
  | reset zeroed =>
    intro c
    refine ⟨?_, (hs c).last_lt, fun hup => ?_, (hs c).owed⟩
    · show (if zeroed c then 0 else s.hw c) < 2 ^ c.width
      split
      · apply Nat.two_pow_pos
      · apply (hs c).hw_lt
    · have hdown : s.down = true := hen
      rw [show (apply s (.reset zeroed)).down = s.down from rfl, hdown] at hup
      cases hup
  | resetting b =>
    intro c
    exact ⟨(hs c).hw_lt, (hs c).last_lt, (hs c).hw_eq, (hs c).owed⟩

/-- The counters start with the invariant. -/
theorem init_inv {s : Device} (h : statistics.init s) (c : Counter) :
  CounterInv s c
  := by
  obtain ⟨hstats, hdown, -, hlt, hcounted, hunread⟩ := h
  refine ⟨hlt c, ?_, fun hup => ?_, ?_⟩
  · rw [hstats]
    apply Nat.two_pow_pos
  · rw [hdown] at hup
    cases hup
  · rw [hstats, hcounted, hunread]
    cases c <;> decide

/-- In every run whose events all meet the condition, `ixgbevf_update_stats` leaves every event
of the hardware counted once. -/
theorem reachable_accounted
    {s s' : Device} (h : statistics.Reachable Intact s) (hG : Intact s .updateStats)
    (hstep : statistics.step s .updateStats s') :
  Accounted s'
  := by
  have hs : ∀ c, CounterInv s c :=
    h.invariant (fun _ hi => init_inv hi) fun _ _ _ hi hG hst => step_inv hi hG hst
  obtain ⟨-, rfl⟩ := hstep
  apply (updateStats_inv hs hG).2

/-! ### Two runs -/

/-- The counters of a hardware that has not counted anything yet. -/
def blank : Device where
  stats _ := { value := 0, last := 0, base := 0, savedReset := 0 }
  down := true
  resetting := false
  hw _ := 0
  counted _ := 0
  unread _ := 0

/-- A hardware that has not counted anything is a start of a run. -/
theorem blank_reachable (G : Device → Event → Prop) :
  statistics.Reachable G blank
  := by
  apply TransSystem.Reachable.init
  exact ⟨fun _ => rfl, rfl, rfl, fun _ => Nat.two_pow_pos _, fun _ => rfl, fun _ => rfl⟩

/-- An event that can happen leads to the next state of a run. -/
theorem reachable_next
    {G : Device → Event → Prop} {s : Device} (h : statistics.Reachable G s) (e : Event)
    (hG : G s e) (hen : Enabled s e) :
  statistics.Reachable G (apply s e)
  := by
  apply TransSystem.Reachable.step h hG ⟨hen, rfl⟩

/-- After five frames, an update, a reset that clears the counters and three more frames, the
driver has counted eight. -/
theorem reset_accounted :
  ∃ s, s.counted .vfgprc = 8 ∧ Accounted s
  := by
  have hup := reachable_next (blank_reachable Intact) .upComplete
    (by intro c; cases c <;> decide) rfl
  have hfive := reachable_next hup (.count .vfgprc 5) trivial (fun _ => by decide)
  have hread := reachable_next hfive .updateStats (by intro c; cases c <;> decide) trivial
  have hdown := reachable_next hread .down trivial trivial
  have hreset := reachable_next hdown (.reset fun _ => true) trivial rfl
  have hagain := reachable_next hreset .upComplete (by intro c; cases c <;> decide) rfl
  have hthree := reachable_next hagain (.count .vfgprc 3) trivial (fun _ => by decide)
  refine ⟨_, rfl, reachable_accounted hthree ?_ ⟨trivial, rfl⟩⟩
  intro c
  cases c <;> decide

/-- Where the interface is reset twice with no update in between, what was counted before is
saved twice. -/
theorem reset_twice_not_accounted :
  ¬ ∀ s s', statistics.Reachable TransSystem.always s → statistics.step s .updateStats s' →
    Accounted s'
  := by
  intro h
  have hup := reachable_next (blank_reachable TransSystem.always) .upComplete trivial rfl
  have hfive := reachable_next hup (.count .vfgprc 5) trivial (fun _ => by decide)
  have hread := reachable_next hfive .updateStats trivial trivial
  have hdown := reachable_next hread .down trivial trivial
  have hreset := reachable_next hdown (.reset fun _ => true) trivial rfl
  have honce := reachable_next hreset .upComplete trivial rfl
  have hdown' := reachable_next honce .down trivial trivial
  have hreset' := reachable_next hdown' (.reset fun _ => true) trivial rfl
  have htwice := reachable_next hreset' .upComplete trivial rfl
  have hbad := h _ _ htwice ⟨trivial, rfl⟩ .vfgprc
  revert hbad
  decide

end Ixgbevf.Stats
