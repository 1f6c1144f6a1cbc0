import Ixgbevf.Stats

/-!
# The extended counters between two resets

From `ixgbevf_init_last_counter_stats` on, every `ixgbevf_update_stats` that reads the hardware
leaves each 64-bit counter at its base and the events counted since, and so the difference grows
until there are 2^64 of them.
-/

namespace Ixgbevf.Stats

open TransSystem

/-- The 64-bit value of a counter minus its base. -/
def CounterStats.extended (k : CounterStats) : BitVec 64 := k.value - k.base

/-- What happens between two resets: no counter advances by its whole period from one reading to
the next. -/
def Uninterrupted (s : Device) : Event → Prop
  | .count c n => s.unread c + n < 2 ^ c.width
  | .updateStats | .resetting _ | .down => True
  | .upComplete | .reset _ => False

/-- The counters from `ixgbevf_init_last_counter_stats` on, with zeroed statistics. -/
def extension : TransSystem Device Event where
  init s := s.stats = initLastCounterStats s.hw
      (fun _ => { value := 0, last := 0, base := 0, savedReset := 0 }) ∧
    s.down = false ∧ (∀ c, s.hw c < 2 ^ c.width) ∧ (∀ c, s.counted c = 0) ∧ ∀ c, s.unread c = 0
  step s e s' := Uninterrupted s e ∧ s' = apply s e

/-- What holds between two resets: the next reading will count every event once. -/
structure Extending (s : Device) : Prop where
  counters : ∀ c, CounterInv s c
  unread_lt : ∀ c, s.unread c < 2 ^ c.width
  saved : ∀ c, (s.stats c).savedReset = 0

variable {s s' : Device}

/-- The condition of an update that reads the counters. -/
theorem Extending.intact (hs : Extending s) (h : ¬ Skipped s) :
  Intact s .updateStats
  := by
  intro c
  unfold Skipped at h
  rw [if_neg (by simpa using h)]
  apply hs.unread_lt

/-- An update leaves what was saved alone. -/
theorem updateStats_saved (hs : ∀ c, CounterInv s c) (c : Counter) :
  ((updateStats s).stats c).savedReset = (s.stats c).savedReset
  := by
  unfold updateStats
  split
  · rfl
  · exact (updateCounter_spec (s.stats c) (hs c).hw_lt).2.2.1

/-- After an update that reads the counters, each has its base and the events since. -/
theorem Extending.updateStats_counted (hs : Extending s) (h : ¬ Skipped s) (c : Counter) :
  ((updateStats s).stats c).extended = BitVec.ofNat 64 ((updateStats s).counted c)
  := by
  have htotal := (updateStats_inv hs.counters (hs.intact h)).2 c
  unfold CounterStats.total at htotal
  rw [updateStats_saved hs.counters, hs.saved, zero_add] at htotal
  exact htotal

/-- The counters start so. -/
theorem init_extending (h : extension.init s) :
  Extending s
  := by
  obtain ⟨hstats, -, hlt, hcounted, hunread⟩ := h
  have hread (c : Counter) : (s.stats c).last = BitVec.ofNat 64 (s.hw c) ∧
      (s.stats c).base = BitVec.ofNat 64 (s.hw c) ∧ (s.stats c).value = 0 ∧
      (s.stats c).savedReset = 0 := by
    rw [hstats]
    simp only [initLastCounterStats, readCounter_eq (hlt c), and_self]
  have hlast (c : Counter) : (s.stats c).last.toNat = s.hw c := by
    rw [(hread c).1, BitVec.toNat_ofNat, Nat.mod_eq_of_lt]
    exact Nat.lt_of_lt_of_le (hlt c) (Nat.pow_le_pow_right (by decide) (by cases c <;> decide))
  refine ⟨fun c => ⟨hlt c, ?_, fun _ => ?_, ?_⟩, fun c => ?_, fun c => (hread c).2.2.2⟩
  · rw [hlast]
    exact hlt c
  · rw [hlast, hunread, Nat.add_zero, Nat.mod_eq_of_lt (hlt c)]
  · unfold high
    rw [(hread c).1, (hread c).2.1, (hread c).2.2.1, (hread c).2.2.2, hcounted, hunread]
    simp
  · rw [hunread]
    apply Nat.two_pow_pos

/-- What happens between two resets keeps the invariant. -/
theorem Extending.step
    {e : Event} (hs : Extending s) (hstep : extension.step s e s') :
  Extending s'
  := by
  obtain ⟨hun, rfl⟩ := hstep
  cases e with
  | count c n =>
    refine ⟨count_inv hs.counters, fun c' => ?_, fun c' => ?_⟩
    · simp only [apply]
      split
      · apply hs.unread_lt
      · by_cases hc : c' = c
        · subst hc
          simp only [Function.update_self]
          exact hun
        · simp only [Function.update_of_ne hc]
          apply hs.unread_lt
    · simp only [apply]
      split
      · apply hs.saved
      · apply hs.saved
  | updateStats =>
    by_cases hskip : Skipped s
    · simpa only [apply, updateStats_skipped hskip] using hs
    · refine ⟨(updateStats_inv hs.counters (hs.intact hskip)).1, fun c => ?_, fun c => ?_⟩
      · have hread : (updateStats s).unread = fun _ => 0 := by
          unfold updateStats Skipped at *
          rw [if_neg (by simpa using hskip)]
        simp only [apply, hread]
        apply Nat.two_pow_pos
      · simp only [apply, updateStats_saved hs.counters, hs.saved]
  | resetting b =>
    exact ⟨step_inv (e := .resetting b) hs.counters trivial ⟨trivial, rfl⟩, hs.unread_lt, hs.saved⟩
  | down =>
    exact ⟨step_inv (e := .down) hs.counters trivial ⟨trivial, rfl⟩, hs.unread_lt, hs.saved⟩
  | upComplete => exact hun.elim
  | reset => exact hun.elim

/-- The number of events does not fall. -/
theorem counted_le {e : Event} (hstep : extension.step s e s') (c : Counter) :
  s.counted c ≤ s'.counted c
  := by
  obtain ⟨hun, rfl⟩ := hstep
  cases e with
  | count c' n =>
    simp only [apply]
    split
    · exact Nat.le_refl _
    · by_cases hc : c = c'
      · subst hc
        simp only [Function.update_self]
        exact Nat.le_add_right _ _
      · simp only [Function.update_of_ne hc]
        exact Nat.le_refl _
  | updateStats =>
    simp only [apply, updateStats]
    split <;> exact Nat.le_refl _
  | resetting b => exact Nat.le_refl _
  | down => exact Nat.le_refl _
  | upComplete => exact hun.elim
  | reset => exact hun.elim

/-- Between two multiples of 2^64 the order of numbers is that of their residues. -/
theorem ofNat_le_of_div_eq {m n : ℕ} (hle : m ≤ n) (hdiv : m / 2 ^ 64 = n / 2 ^ 64) :
  BitVec.ofNat 64 m ≤ BitVec.ofNat 64 n
  := by
  rw [BitVec.le_def, BitVec.toNat_ofNat, BitVec.toNat_ofNat]
  omega

/-- In every reachable state the next reading will count every event once. -/
theorem reachable_extending (h : extension.Reachable always s) :
  Extending s
  := h.invariant (fun _ hi => init_extending hi) fun _ _ _ hi _ hst => hi.step hst

/-- After an update of a run that reads the counters, each has its base and the events since. -/
theorem reachable_counted
    (h : extension.Reachable always s) (hread : ¬ Skipped s)
    (hstep : extension.step s .updateStats s') (c : Counter) :
  (s'.stats c).extended = BitVec.ofNat 64 (s'.counted c)
  := by
  obtain ⟨-, rfl⟩ := hstep
  exact (reachable_extending h).updateStats_counted hread c

/-- After every `ixgbevf_update_stats` that reads the counters, the 64-bit value minus its base is
the number of events modulo 2^64, and after a later one it is not lower, unless that number has
passed a multiple of 2^64. -/
theorem reachable_extended
    (h : extension.Reachable always s) (hread : ¬ Skipped s)
    (hstep : extension.step s .updateStats s') (c : Counter) :
  (s'.stats c).extended = BitVec.ofNat 64 (s'.counted c) ∧
    ∀ es t t', extension.Path always s' es t → ¬ Skipped t → extension.step t .updateStats t' →
      s'.counted c / 2 ^ 64 = t'.counted c / 2 ^ 64 → (s'.stats c).extended ≤ (t'.stats c).extended
  := by
  refine ⟨reachable_counted h hread hstep c, ?_⟩
  intro es t t' hpath hread' hstep' hdiv
  have hle : s'.counted c ≤ t.counted c :=
    hpath.invariant (I := fun t => s'.counted c ≤ t.counted c)
      (fun _ _ _ hi _ hst => hi.trans (counted_le hst c)) (Nat.le_refl _)
  rw [reachable_counted h hread hstep,
    reachable_counted ((h.step trivial hstep).path hpath) hread' hstep']
  exact ofNat_le_of_div_eq (hle.trans (counted_le hstep' c)) hdiv

/-! ### 2^64 events -/

/-- The counters of a hardware that has not counted anything, right after
`ixgbevf_init_last_counter_stats`. -/
def started : Device := { blank with down := false }

/-- The hardware has counted 2^35 octets more. -/
def filling (s : Device) : Device := apply s (.count .vfgorc (2 ^ 35))

/-- `n` times 2^35 octets, each read. -/
def filled : ℕ → Device
  | 0 => started
  | n + 1 => apply (filling (filled n)) .updateStats

/-- Octets that are counted and read are part of a run. -/
theorem filled_reachable (n : ℕ) :
  extension.Reachable always (filled n) ∧ extension.step (filled n) (.count .vfgorc (2 ^ 35))
      (filling (filled n)) ∧
    ¬ Skipped (filling (filled n)) ∧ (filled n).counted .vfgorc = n * 2 ^ 35
  := by
  have hnext {s : Device} (hunread : s.unread .vfgorc = 0) :
      extension.step s (.count .vfgorc (2 ^ 35)) (filling s) := by
    refine ⟨?_, rfl⟩
    show s.unread .vfgorc + 2 ^ 35 < 2 ^ 36
    rw [hunread]
    decide
  have hall : extension.Reachable always (filled n) ∧ (filled n).unread .vfgorc = 0 ∧
      (filled n).down = false ∧ (filled n).resetting = false ∧
      (filled n).counted .vfgorc = n * 2 ^ 35 := by
    induction n with
    | zero =>
      refine ⟨Reachable.init ⟨?_, rfl, fun _ => Nat.two_pow_pos _, fun _ => rfl, fun _ => rfl⟩,
        rfl, rfl, rfl, rfl⟩
      funext c
      cases c <;> rfl
    | succ n ih =>
      obtain ⟨hreach, hunread, hdown, hresetting, hcounted⟩ := ih
      have hread : extension.step (filling (filled n)) .updateStats (filled (n + 1)) :=
        ⟨trivial, rfl⟩
      refine ⟨(hreach.step trivial (hnext hunread)).step trivial hread, ?_⟩
      simp only [filled, filling, apply, updateStats, hdown, hresetting, Bool.or_self,
        Bool.false_eq_true, if_false, Function.update_self, hcounted, true_and]
      omega
  obtain ⟨hreach, hunread, hdown, hresetting, hcounted⟩ := hall
  refine ⟨hreach, hnext hunread, ?_, hcounted⟩
  simp [Skipped, filling, apply, hdown, hresetting]

/-- Octets are counted and read twice, and the second reading is no lower. -/
theorem filled_extended :
  ((filled 1).stats .vfgorc).extended = BitVec.ofNat 64 ((filled 1).counted .vfgorc) ∧
    ((filled 1).stats .vfgorc).extended ≤ ((filled 2).stats .vfgorc).extended
  := by
  obtain ⟨hreach, hfill, hread, -⟩ := filled_reachable 0
  obtain ⟨-, hfill', hread', -⟩ := filled_reachable 1
  have hstep : extension.step (filling (filled 0)) .updateStats (filled 1) := ⟨trivial, rfl⟩
  obtain ⟨hcounted, hlater⟩ := reachable_extended (hreach.step trivial hfill) hread hstep .vfgorc
  have hstep' : extension.step (filling (filled 1)) .updateStats (filled 2) := ⟨trivial, rfl⟩
  exact ⟨hcounted, hlater _ _ _ (Path.cons trivial hfill' (Path.nil _)) hread' hstep' (by decide)⟩

/-- An update that is skipped leaves events out, and after 2^64 octets the counter is lower than
before. -/
theorem filled_not_monotone :
  ¬ (∀ s s', extension.Reachable always s → extension.step s .updateStats s' →
      ∀ c, (s'.stats c).extended = BitVec.ofNat 64 (s'.counted c)) ∧
  ¬ (∀ s s' es t t', extension.Reachable always s → ¬ Skipped s →
      extension.step s .updateStats s' → extension.Path always s' es t → ¬ Skipped t →
      extension.step t .updateStats t' → ∀ c, (s'.stats c).extended ≤ (t'.stats c).extended)
  := by
  constructor
  · intro h
    obtain ⟨hreach, hfill, -, -⟩ := filled_reachable 0
    have hbusy : extension.step (filling (filled 0)) (.resetting true)
        (apply (filling (filled 0)) (.resetting true)) := ⟨trivial, rfl⟩
    have hbad := h _ _ ((hreach.step trivial hfill).step trivial hbusy) ⟨trivial, rfl⟩ .vfgorc
    revert hbad
    decide
  · intro h
    -- the last readings before and after the counter wraps
    obtain ⟨n, hn⟩ : ∃ n, n + 2 = 2 ^ 29 := ⟨2 ^ 29 - 2, by decide⟩
    obtain ⟨hreach, hfill, hread, -⟩ := filled_reachable n
    obtain ⟨hreach₁, hfill₁, hread₁, hcounted₁⟩ := filled_reachable (n + 1)
    obtain ⟨-, hfill₂, hread₂, hcounted₂⟩ := filled_reachable (n + 2)
    have hstep : extension.step (filling (filled n)) .updateStats (filled (n + 1)) := ⟨trivial, rfl⟩
    have hstep₁ : extension.step (filling (filled (n + 1))) .updateStats (filled (n + 2)) :=
      ⟨trivial, rfl⟩
    have hle := h _ _ _ _ _ (hreach.step trivial hfill) hread hstep
      (Path.cons trivial hfill₁ (Path.nil _)) hread₁ hstep₁ .vfgorc
    rw [reachable_counted (hreach.step trivial hfill) hread hstep,
      reachable_counted (hreach₁.step trivial hfill₁) hread₁ hstep₁,
      hcounted₁, hcounted₂, BitVec.le_def, BitVec.toNat_ofNat, BitVec.toNat_ofNat] at hle
    omega

end Ixgbevf.Stats
