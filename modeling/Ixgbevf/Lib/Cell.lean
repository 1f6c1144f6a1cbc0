import Mathlib.Data.Nat.Notation

/-!
# Registers whose bits are read one by one

What is read from a bit of a register depends on what is stored there.  Patterns that put a 0 and a
1 at every place tell apart the registers that give back what is written to them.
-/

/-- A register: what is stored, and what is read where a 0 and where a 1 is stored. -/
structure Cell (n : ℕ) where
  /-- What is stored. -/
  stored : BitVec n
  /-- What is read where a 0 is stored. -/
  zero : BitVec n
  /-- What is read where a 1 is stored. -/
  one : BitVec n

namespace Cell

variable {n : ℕ} {c c' c'' : Cell n} {m w : BitVec n}

/-- What is read. -/
def value (c : Cell n) : BitVec n := c.stored &&& c.one ||| ~~~c.stored &&& c.zero

/-- A register after a write. -/
def write (c : Cell n) (v : BitVec n) : Cell n := { c with stored := v }

/-- Where `w` may be written and `m` is read, the register gives back what is written, and 0
elsewhere. -/
structure Sound (m w : BitVec n) (c : Cell n) : Prop where
  /-- A 0 is read back. -/
  zero : c.zero = 0#n
  /-- A 1 is read back where `m` says so. -/
  one : c.one &&& w = m &&& w

instance (m w : BitVec n) (c : Cell n) : Decidable (c.Sound m w) :=
  decidable_of_iff (c.zero = 0#n ∧ c.one &&& w = m &&& w)
    ⟨fun h => ⟨h.1, h.2⟩, fun h => ⟨h.zero, h.one⟩⟩

/-- The patterns put a 0 and a 1 at every place. -/
def Covers (ps : List (BitVec n)) : Prop :=
  ∀ i < n, (∃ p ∈ ps, p.getLsbD i = true) ∧ ∃ p ∈ ps, p.getLsbD i = false

/-- What is read from a bit. -/
theorem getLsbD_value (c : Cell n) {i : ℕ} (hi : i < n) :
  c.value.getLsbD i = if c.stored.getLsbD i then c.one.getLsbD i else c.zero.getLsbD i
  := by
  unfold value
  rw [BitVec.getLsbD_or, BitVec.getLsbD_and, BitVec.getLsbD_and, BitVec.getLsbD_not]
  cases c.stored.getLsbD i <;> simp [hi]

/-- The patterns read back if the register is sound. -/
theorem Sound.value_write (h : c.Sound m w) (p : BitVec n) :
  (c.write (p &&& w)).value = p &&& w &&& m
  := by
  unfold value write
  rw [h.zero, BitVec.and_zero, BitVec.or_zero, BitVec.and_assoc, BitVec.and_comm w, h.one,
    BitVec.and_assoc, BitVec.and_comm m]

/-- The patterns read back only if the register is sound. -/
theorem sound_iff {ps : List (BitVec n)} (hps : Covers ps) :
  c.Sound m w ↔ ∀ p ∈ ps, (c.write (p &&& w)).value = p &&& w &&& m
  := by
  constructor
  · exact fun h p _ => h.value_write p
  · intro h
    have hbit : ∀ p ∈ ps, ∀ i < n,
        (if (p &&& w).getLsbD i then c.one.getLsbD i else c.zero.getLsbD i)
          = (p &&& w &&& m).getLsbD i := by
      intro p hp i hi
      rw [← h p hp, getLsbD_value _ hi]
      rfl
    constructor
    · apply BitVec.eq_of_getLsbD_eq
      intro i hi
      obtain ⟨p, hp, hzero⟩ := (hps i hi).2
      have := hbit p hp i hi
      simpa [hzero] using this
    · apply BitVec.eq_of_getLsbD_eq
      intro i hi
      obtain ⟨p, hp, hone⟩ := (hps i hi).1
      have := hbit p hp i hi
      cases hw : w.getLsbD i <;> simp_all

/-- A register that is wired as before, and reads as before where a 0 is read back. -/
structure Kept (c c' : Cell n) : Prop where
  /-- What is read where a 0 is stored. -/
  zero : c'.zero = c.zero
  /-- What is read where a 1 is stored. -/
  one : c'.one = c.one
  /-- What is read. -/
  value : c.zero = 0#n → c'.value = c.value

/-- Nothing has happened. -/
theorem Kept.refl (c : Cell n) :
  Kept c c
  := ⟨rfl, rfl, fun _ => rfl⟩

/-- One after the other. -/
theorem Kept.trans (h : Kept c c') (h' : Kept c' c'') :
  Kept c c''
  := ⟨h'.zero.trans h.zero, h'.one.trans h.one,
    fun hzero => (h'.value (h.zero.trans hzero)).trans (h.value hzero)⟩

/-- What was read is written back after any other write. -/
theorem kept_write (c : Cell n) (v : BitVec n) :
  Kept c ((c.write v).write c.value)
  := by
  refine ⟨rfl, rfl, fun hzero => ?_⟩
  unfold value write
  rw [hzero]
  simp only [BitVec.and_zero, BitVec.or_zero]
  rw [BitVec.and_assoc, BitVec.and_self]

/-- A register that is wired as before is as sound as before. -/
theorem Kept.sound_iff (h : Kept c c') :
  c'.Sound m w ↔ c.Sound m w
  := by
  constructor
  · exact fun hs => ⟨h.zero.symm.trans hs.zero, h.one ▸ hs.one⟩
  · exact fun hs => ⟨h.zero.trans hs.zero, h.one ▸ hs.one⟩

end Cell
