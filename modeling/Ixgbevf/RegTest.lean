import Mathlib.Logic.Function.Basic
import Ixgbevf.Lib.Cell
import Ixgbevf.Reset

/-!
# The register test

`ixgbevf_reg_test` goes through a table of registers.  It writes patterns to them, compares what it
reads back, and writes back what was there before, until a comparison fails.
-/

namespace Ixgbevf.RegTest

open StateProgram

variable {D : Type} (V : Device D)

/-! ### The driver -/

/-- The types of the entries of the table. -/
inductive TestType where
  | patternTest
  | setReadTest
  | writeNoTest
  | table32Test
  | table64TestLo
  | table64TestHi
deriving DecidableEq, Repr

/-- `struct ixgbevf_reg_test`. -/
structure Entry where
  /-- `reg`. -/
  reg : ℕ
  /-- `array_len`. -/
  arrayLen : ℕ
  /-- `test_type`. -/
  testType : TestType
  /-- `mask`. -/
  mask : BitVec 32
  /-- `write`. -/
  write : BitVec 32

/-- `reg_test_vf` up to the null entry. -/
def regTestVf : List Entry :=
  [⟨rxQueueReg 0x00 0, 2, .patternTest, 0xFFFFFF80#32, 0xFFFFFF80#32⟩,
    ⟨rxQueueReg 0x04 0, 2, .patternTest, 0xFFFFFFFF#32, 0xFFFFFFFF#32⟩,
    ⟨rxQueueReg 0x08 0, 2, .patternTest, 0x000FFF80#32, 0x000FFFFF#32⟩,
    ⟨vfRxdctl 0, 2, .writeNoTest, 0#32, rxdctlEnable⟩,
    ⟨rxQueueReg 0x18 0, 2, .patternTest, 0x0000FFFF#32, 0x0000FFFF#32⟩,
    ⟨vfRxdctl 0, 2, .writeNoTest, 0#32, 0#32⟩,
    ⟨txQueueReg 0x00 0, 2, .patternTest, 0xFFFFFF80#32, 0xFFFFFFFF#32⟩,
    ⟨txQueueReg 0x04 0, 2, .patternTest, 0xFFFFFFFF#32, 0xFFFFFFFF#32⟩,
    ⟨txQueueReg 0x08 0, 2, .patternTest, 0x000FFF80#32, 0x000FFF80#32⟩]

/-- `_test`. -/
def patterns : List (BitVec 32) := [0x5A5A5A5A#32, 0xA5A5A5A5#32, 0x00000000#32, 0xFFFFFFFF#32]

/-- The loop of `reg_pattern_test`, which leaves `*data` where a comparison fails. -/
def patternRounds (r : ℕ) (m w : BitVec 32) : List (BitVec 32) → PortM D (Option ℕ)
  | [] => pure none
  | pat :: pats => do
    let before ← readReg V r
    writeReg V r (pat &&& w)
    let val ← readReg V r
    if val ≠ pat &&& w &&& m then do
      writeReg V r before
      pure (some r)
    else do
      writeReg V r before
      patternRounds r m w pats

/-- `reg_pattern_test`. -/
def regPatternTest (r : ℕ) (m w : BitVec 32) : PortM D (Option ℕ) := do
  let p ← get
  if p.removed then pure (some 1) else patternRounds V r m w patterns

/-- `reg_set_and_check`. -/
def regSetAndCheck (r : ℕ) (m w : BitVec 32) : PortM D (Option ℕ) := do
  let p ← get
  if p.removed then
    pure (some 1)
  else do
    let before ← readReg V r
    writeReg V r (w &&& m)
    let val ← readReg V r
    if w &&& m ≠ val &&& m then do
      writeReg V r before
      pure (some r)
    else do
      writeReg V r before
      pure none

/-- The switch of `ixgbevf_reg_test`. -/
def Entry.run (t : Entry) (i : ℕ) : PortM D (Option ℕ) :=
  match t.testType with
  | .patternTest => regPatternTest V (t.reg + i * 0x40) t.mask t.write
  | .setReadTest => regSetAndCheck V (t.reg + i * 0x40) t.mask t.write
  | .writeNoTest => do
    writeReg V (t.reg + i * 0x40) t.write
    pure none
  | .table32Test => regPatternTest V (t.reg + i * 4) t.mask t.write
  | .table64TestLo => regPatternTest V (t.reg + i * 8) t.mask t.write
  | .table64TestHi => regPatternTest V (t.reg + 4 + i * 8) t.mask t.write

/-- The loops of `ixgbevf_reg_test` over the places of an entry and over the entries. -/
def runs : List (Entry × ℕ) → PortM D (Option ℕ)
  | [] => pure none
  | (t, i) :: rest => do
    match ← t.run V i with
    | some data => pure (some data)
    | none => runs rest

/-- The places of the entries of a table, in order. -/
def places (table : List Entry) : List (Entry × ℕ) :=
  table.flatMap fun t => (List.range t.arrayLen).map (t, ·)

/-- `ixgbevf_reg_test`, which returns 0 and leaves 0 in `*data`, or returns 1 and leaves the result
in `*data`. -/
def regTest : PortM D (Option ℕ) := do
  let p ← get
  if p.removed then pure (some 1) else runs V (places regTestVf)

/-! ### The hardware -/

/-- A bank of registers, each of which is read bit by bit. -/
def bank : Device (ℕ → Cell 32) where
  read d reg := ((d reg).value, d)
  write d reg value := Function.update d reg ((d reg).write value)

/-- The device is there: the status register does not read all ones. -/
structure Present (p : Port (ℕ → Cell 32)) : Prop where
  /-- `hw_addr` is there. -/
  there : p.removed = false
  /-- The status register answers. -/
  status : (p.dev vfStatus).value ≠ failedReadReg

variable {p : Port (ℕ → Cell 32)}

/-- A register that reads as a dead one does so every time. -/
theorem rereads_bank {reg : ℕ} (hdead : (p.dev reg).value = deadReadReg) (n : ℕ) :
  (rereads bank reg n deadReadReg).run p = (deadReadReg, p)
  := by
  induction n with
  | zero => rfl
  | succ n ih =>
    have hread : (readl bank reg).run p = (deadReadReg, p) :=
      congrArg (·, p) hdead
    rw [rereads, run_bind, hread, if_neg (not_not.mpr rfl)]
    exact ih

/-- The body of a read, where a failed read is no sign of a removal. -/
theorem readRegWith_bank {check : PortM (ℕ → Cell 32) Unit} {reg : ℕ} (hthere : p.removed = false)
    (hcheck : (p.dev reg).value = failedReadReg → check.run p = ((), p)) :
  (readRegWith bank check reg).run p = ((p.dev reg).value, p)
  := by
  have hchecked : (if (p.dev reg).value = failedReadReg then check else pure () :
      PortM (ℕ → Cell 32) Unit).run p = ((), p) := by
    split
    next hfailed => exact hcheck hfailed
    next => rfl
  have hread : (readl bank reg).run p = ((p.dev reg).value, p) := rfl
  rw [readRegWith, run_get_bind, hthere, if_neg Bool.false_ne_true, run_bind, hread, run_bind,
    hchecked]
  split
  next hdead =>
    rw [validateRegisterRead, run_get_bind, hthere, if_neg Bool.false_ne_true, rereads_bank hdead]
    exact congrArg (·, p) hdead.symm
  next => rfl

/-- What is read from a register of the bank. -/
theorem readReg_bank (h : Present p) (reg : ℕ) :
  ∃ reads, (readReg bank reg).run p = ((p.dev reg).value, { p with reads := reads })
  := by
  have hcheck : (p.dev reg).value = failedReadReg → (checkRemove bank reg).run p = ((), p) := by
    intro hfailed
    have hne : reg ≠ vfStatus := by
      rintro rfl
      exact h.status hfailed
    have hstatus : (readRegWith bank removeAdapter vfStatus).run p
        = ((p.dev vfStatus).value, p) :=
      readRegWith_bank h.there fun hfailed => absurd hfailed h.status
    rw [checkRemove, if_neg hne, run_bind, hstatus, if_neg h.status]
    rfl
  have hread := readRegWith_bank h.there hcheck
  rw [readReg, run_bind, hread]
  exact ⟨_, rfl⟩

/-- What is written to a register of the bank. -/
theorem writeReg_bank (hthere : p.removed = false) (reg : ℕ) (value : BitVec 32) :
  (writeReg bank reg value).run p
    = ((), { p with dev := Function.update p.dev reg ((p.dev reg).write value) })
  := by
  show ((), if p.removed then p else _) = _
  rw [hthere, if_neg Bool.false_ne_true]
  rfl

/-- A device is there while the status register is not written to. -/
theorem Present.update (h : Present p) {reg : ℕ} (hreg : reg ≠ vfStatus) (c : Cell 32)
    (reads : List (ℕ × BitVec 32)) :
  Present { p with dev := Function.update p.dev reg c, reads := reads }
  := by
  constructor
  · exact h.there
  · show (Function.update p.dev reg c vfStatus).value ≠ failedReadReg
    rw [Function.update_of_ne hreg.symm]
    exact h.status

/-! ### The test of a register -/

/-- The pattern reads back from a register. -/
def Matches (m w : BitVec 32) (c : Cell 32) (pat : BitVec 32) : Prop :=
  (c.write (pat &&& w)).value = pat &&& w &&& m

instance (m w : BitVec 32) (c : Cell 32) (pat : BitVec 32) : Decidable (Matches m w c pat) :=
  instDecidableEqBitVec _ _

/-- One pattern, after which the register is written back. -/
theorem patternRounds_bank (h : Present p) {r : ℕ} (hr : r ≠ vfStatus) (m w : BitVec 32)
    (pats : List (BitVec 32)) :
  ∃ c reads, (patternRounds bank r m w pats).run p
      = (if ∀ pat ∈ pats, Matches m w (p.dev r) pat then none else some r,
        { p with dev := Function.update p.dev r c, reads := reads })
    ∧ (p.dev r).Kept c
  := by
  induction pats generalizing p with
  | nil =>
    have hrun : (patternRounds bank r m w []).run p = (none, p) := rfl
    refine ⟨p.dev r, p.reads, ?_, .refl _⟩
    rw [hrun, if_pos (by simp), Function.update_eq_self]
  | cons pat pats ih =>
    obtain ⟨reads₁, hread₁⟩ := readReg_bank h r
    let c₁ := (p.dev r).write (pat &&& w)
    let p₁ : Port (ℕ → Cell 32) := { p with dev := Function.update p.dev r c₁, reads := reads₁ }
    have h₁ : Present p₁ := h.update hr c₁ reads₁
    obtain ⟨reads₂, hread₂⟩ := readReg_bank h₁ r
    have hval : (p₁.dev r).value = c₁.value := by
      rw [show p₁.dev = Function.update p.dev r c₁ from rfl, Function.update_self]
    let c₂ := c₁.write (p.dev r).value
    let p₂ : Port (ℕ → Cell 32) := { p with dev := Function.update p.dev r c₂, reads := reads₂ }
    have h₂ : Present p₂ := h.update hr c₂ reads₂
    have hkept : (p.dev r).Kept c₂ := Cell.kept_write _ _
    have hwrite : (writeReg bank r (pat &&& w)).run { p with reads := reads₁ } = ((), p₁) :=
      writeReg_bank (p := { p with reads := reads₁ }) h.there r _
    have hback : (writeReg bank r (p.dev r).value).run { p₁ with reads := reads₂ } = ((), p₂) := by
      refine (writeReg_bank (p := { p₁ with reads := reads₂ }) h.there r _).trans ?_
      simp only [p₁, p₂, c₂, Function.update_idem, Function.update_self]
    have hfirst : (patternRounds bank r m w (pat :: pats)).run p
        = if Matches m w (p.dev r) pat then (patternRounds bank r m w pats).run p₂
          else (some r, p₂) := by
      rw [patternRounds, run_bind, hread₁, run_bind, hwrite, run_bind, hread₂, hval]
      by_cases hmatch : Matches m w (p.dev r) pat
      · have heq : c₁.value = pat &&& w &&& m := hmatch
        dsimp only
        rw [if_pos hmatch, if_neg (not_not.mpr heq), run_bind, hback]
      · have hne : c₁.value ≠ pat &&& w &&& m := hmatch
        dsimp only
        rw [if_neg hmatch, if_pos hne, run_bind, hback]
        rfl
    rw [hfirst]
    split
    next hmatch =>
      obtain ⟨c, reads, hrest, hc⟩ := ih h₂
      have hcell : p₂.dev r = c₂ := Function.update_self ..
      have hsame : ∀ pat, Matches m w (p₂.dev r) pat ↔ Matches m w (p.dev r) pat := by
        intro pat
        rw [hcell]
        exact Iff.rfl
      refine ⟨c, reads, ?_, hkept.trans (hcell ▸ hc)⟩
      simp only [hrest, hsame, List.forall_mem_cons, hmatch, true_and, p₂, Function.update_idem]
    next hmatch =>
      refine ⟨c₂, reads₂, ?_, hkept⟩
      rw [if_neg fun hall => hmatch (hall pat List.mem_cons_self)]

/-- The patterns put a 0 and a 1 at every place. -/
theorem patterns_cover :
  Cell.Covers patterns
  := by
  intro i hi
  have hones : 0xFFFFFFFF#32 = BitVec.allOnes 32 := by decide
  refine ⟨⟨0xFFFFFFFF#32, by simp [patterns], ?_⟩, 0#32, by simp [patterns], BitVec.getLsbD_zero⟩
  rw [hones, BitVec.getLsbD_allOnes, decide_eq_true hi]

/-- The test of a register finds out whether it is sound, and changes nothing but what is stored
there. -/
theorem regPatternTest_bank (h : Present p) {r : ℕ} (hr : r ≠ vfStatus) (m w : BitVec 32) :
  ∃ c reads, (regPatternTest bank r m w).run p
      = (if (p.dev r).Sound m w then none else some r,
        { p with dev := Function.update p.dev r c, reads := reads })
    ∧ (p.dev r).Kept c
  := by
  obtain ⟨c, reads, hrun, hkept⟩ := patternRounds_bank h hr m w patterns
  have hsound : (∀ pat ∈ patterns, Matches m w (p.dev r) pat) ↔ (p.dev r).Sound m w :=
    (Cell.sound_iff patterns_cover).symm
  have hrounds : (regPatternTest bank r m w).run p = (patternRounds bank r m w patterns).run p := by
    rw [regPatternTest, run_get_bind, h.there, if_neg Bool.false_ne_true]
  refine ⟨c, reads, ?_, hkept⟩
  rw [hrounds, hrun]
  simp only [hsound]

/-! ### The test of the table -/

/-- The register at a place of an entry. -/
def address (place : Entry × ℕ) : ℕ := place.1.reg + place.2 * 0x40

/-- The register at a place is tested. -/
def IsTest (place : Entry × ℕ) : Prop := place.1.testType = .patternTest

instance (place : Entry × ℕ) : Decidable (IsTest place) :=
  inferInstanceAs (Decidable (place.1.testType = .patternTest))

/-- The register at a place is tested and is not sound. -/
def Faulty (d : ℕ → Cell 32) (place : Entry × ℕ) : Prop :=
  IsTest place ∧ ¬ (d (address place)).Sound place.1.mask place.1.write

instance (d : ℕ → Cell 32) (place : Entry × ℕ) : Decidable (Faulty d place) := instDecidableAnd

/-- A place of the table: the status register is left alone, and what is written without a test is
not tested. -/
def Plain (place : Entry × ℕ) : Prop :=
  address place ≠ vfStatus
    ∧ (IsTest place
      ∨ place.1.testType = .writeNoTest ∧ (address place = vfRxdctl 0 ∨ address place = vfRxdctl 1))

instance (place : Entry × ℕ) : Decidable (Plain place) := instDecidableAnd

/-- What the test leaves of the registers. -/
structure Restored (d d' : ℕ → Cell 32) : Prop where
  /-- The registers are wired as before. -/
  zero : ∀ reg, (d' reg).zero = (d reg).zero
  one : ∀ reg, (d' reg).one = (d reg).one
  /-- They read as before unless they are written without a test. -/
  value : ∀ reg, reg ≠ vfRxdctl 0 → reg ≠ vfRxdctl 1 → (d reg).zero = 0#32 →
    (d' reg).value = (d reg).value

/-- One after the other. -/
theorem Restored.trans {d d' d'' : ℕ → Cell 32} (h : Restored d d') (h' : Restored d' d'') :
  Restored d d''
  := by
  constructor
  · exact fun reg => (h'.zero reg).trans (h.zero reg)
  · exact fun reg => (h'.one reg).trans (h.one reg)
  · intro reg h₀ h₁ hzero
    exact (h'.value reg h₀ h₁ ((h.zero reg).trans hzero)).trans (h.value reg h₀ h₁ hzero)

/-- A register that is tested. -/
theorem restored_update {d : ℕ → Cell 32} {r : ℕ} {c : Cell 32} (h : (d r).Kept c) :
  Restored d (Function.update d r c)
  := by
  have hcell : ∀ reg, (d reg).Kept (Function.update d r c reg) := by
    intro reg
    by_cases hreg : reg = r
    · subst hreg
      rwa [Function.update_self]
    · rw [Function.update_of_ne hreg]
      exact .refl _
  exact ⟨fun reg => (hcell reg).zero, fun reg => (hcell reg).one,
    fun reg _ _ => (hcell reg).value⟩

/-- A register that is written without a test. -/
theorem restored_write {d : ℕ → Cell 32} {r : ℕ} (hr : r = vfRxdctl 0 ∨ r = vfRxdctl 1)
    (v : BitVec 32) :
  Restored d (Function.update d r ((d r).write v))
  := by
  constructor
  · intro reg
    by_cases hreg : reg = r
    · subst hreg
      rw [Function.update_self]
      rfl
    · rw [Function.update_of_ne hreg]
  · intro reg
    by_cases hreg : reg = r
    · subst hreg
      rw [Function.update_self]
      rfl
    · rw [Function.update_of_ne hreg]
  · intro reg h₀ h₁ _
    have hreg : reg ≠ r := by
      rintro rfl
      exact hr.elim h₀ h₁
    rw [Function.update_of_ne hreg]

/-- The test does not make registers sound or faulty. -/
theorem Restored.faulty_iff {d d' : ℕ → Cell 32} (h : Restored d d') (place : Entry × ℕ) :
  Faulty d' place ↔ Faulty d place
  := by
  have hsound : (d' (address place)).Sound place.1.mask place.1.write
      ↔ (d (address place)).Sound place.1.mask place.1.write := by
    constructor
    · exact fun hs => ⟨(h.zero _).symm.trans hs.zero, h.one _ ▸ hs.one⟩
    · exact fun hs => ⟨(h.zero _).trans hs.zero, h.one _ ▸ hs.one⟩
  unfold Faulty
  rw [hsound]

/-- The test of a place. -/
theorem run_bank (h : Present p) {place : Entry × ℕ} (hplace : Plain place) :
  ((place.1.run bank place.2).run p).1
      = (if Faulty p.dev place then some (address place) else none)
    ∧ Present ((place.1.run bank place.2).run p).2
    ∧ Restored p.dev ((place.1.run bank place.2).run p).2.dev
  := by
  obtain ⟨hstatus, htest | ⟨hwrite, hreg⟩⟩ := hplace
  · obtain ⟨c, reads, hrun, hkept⟩ :=
      regPatternTest_bank h hstatus place.1.mask place.1.write
    have hplaceRun : (place.1.run bank place.2).run p
        = (regPatternTest bank (address place) place.1.mask place.1.write).run p := by
      unfold Entry.run
      rw [show place.1.testType = .patternTest from htest]
      rfl
    rw [hplaceRun, hrun]
    refine ⟨?_, h.update hstatus c reads, restored_update hkept⟩
    by_cases hsound : (p.dev (address place)).Sound place.1.mask place.1.write
    · rw [if_pos hsound, if_neg fun hfaulty => hfaulty.2 hsound]
    · rw [if_neg hsound, if_pos ⟨htest, hsound⟩]
  · have hplaceRun : (place.1.run bank place.2).run p
        = (none, { p with
          dev := Function.update p.dev (address place)
            ((p.dev (address place)).write place.1.write) }) := by
      unfold Entry.run
      rw [hwrite, run_bind, writeReg_bank h.there]
      rfl
    rw [hplaceRun]
    refine ⟨?_, h.update hstatus _ p.reads, restored_write hreg _⟩
    rw [if_neg]
    rintro ⟨htest, -⟩
    cases htest.symm.trans hwrite

/-- The test goes through the places up to the first register that is not sound. -/
theorem runs_bank (h : Present p) {ps : List (Entry × ℕ)} (hps : ∀ place ∈ ps, Plain place) :
  ((runs bank ps).run p).1 = (ps.find? fun place => Faulty p.dev place).map address
    ∧ Restored p.dev ((runs bank ps).run p).2.dev
  := by
  induction ps generalizing p with
  | nil => exact ⟨rfl, fun _ => rfl, fun _ => rfl, fun _ _ _ _ => rfl⟩
  | cons place ps ih =>
    obtain ⟨hresult, hpresent, hrestored⟩ := run_bank h (hps place List.mem_cons_self)
    obtain ⟨t, i⟩ := place
    have hrun : (runs bank ((t, i) :: ps)).run p
        = match ((t.run bank i).run p).1 with
          | some data => (some data, ((t.run bank i).run p).2)
          | none => (runs bank ps).run ((t.run bank i).run p).2 := by
      rw [runs, run_bind]
      cases ((t.run bank i).run p).1 <;> rfl
    rw [hrun, hresult]
    by_cases hfaulty : Faulty p.dev (t, i)
    · simp only [if_pos hfaulty]
      rw [List.find?_cons_of_pos (by simpa using hfaulty)]
      exact ⟨rfl, hrestored⟩
    · simp only [if_neg hfaulty]
      obtain ⟨hrest, hrestored'⟩ := ih hpresent fun place hplace =>
        hps place (List.mem_cons_of_mem _ hplace)
      rw [List.find?_cons_of_neg (by simpa using hfaulty)]
      refine ⟨?_, hrestored.trans hrestored'⟩
      rw [hrest]
      simp only [hrestored.faulty_iff]

/-- On hardware whose registers are read bit by bit the register test fails exactly if one of the
registers of the table does not give back what may be written to it, and then it reports the first
one.  The registers that are tested, and read back a 0, read as before. -/
theorem regTest_bank (h : Present p) :
  ((regTest bank).run p).1
      = ((places regTestVf).find? fun place => Faulty p.dev place).map address
    ∧ Restored p.dev ((regTest bank).run p).2.dev
  := by
  have hplain : ∀ place ∈ places regTestVf, Plain place := by
    decide
  have hrun : (regTest bank).run p = (runs bank (places regTestVf)).run p := by
    rw [regTest, run_get_bind, h.there, if_neg Bool.false_ne_true]
  rw [hrun]
  exact runs_bank h hplain

/-- A bank with a broken `VFTDLEN(1)`. -/
def broken (reg : ℕ) : Cell 32 :=
  let mask := ((places regTestVf).find? fun place => IsTest place ∧ address place = reg).elim 0#32
    fun place => place.1.mask
  if reg = txQueueReg 0x08 1 then ⟨0#32, 0#32, 0#32⟩ else ⟨0#32, 0#32, mask⟩

/-- It is found out. -/
theorem broken_reported :
  ((regTest bank).run ⟨false, ⟨0, 16, .legacy, 0#32, by decide⟩, broken, []⟩).1
    = some (txQueueReg 0x08 1)
  := (regTest_bank ⟨rfl, by decide⟩).1.trans (by decide)

end Ixgbevf.RegTest
