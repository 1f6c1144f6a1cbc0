import Mathlib.Data.Nat.Bitwise
import Mathlib.Logic.Function.Iterate
import Mathlib.Algebra.Ring.Parity
import Mathlib.Data.BitVec
import Mathlib.Tactic.LinearCombination

/-!
# Bits and register fields

Flipping a bit of a number, and reading a field of a register after an update under a
mask.
-/

namespace Bits

/-- Flipping a bit above a number adds the bit. -/
theorem xor_two_pow_of_lt
    {a k : ℕ} (h : a < 2 ^ k) :
  a ^^^ 2 ^ k = a + 2 ^ k
  := by
  have hor := Nat.two_pow_add_eq_or_of_lt h 1
  rw [Nat.mul_one, Nat.add_comm] at hor
  rw [hor]
  apply Nat.eq_of_testBit_eq
  intro i
  rw [Nat.testBit_xor, Nat.testBit_or, Nat.testBit_two_pow]
  by_cases hi : k = i
  · subst hi
    simp [Nat.testBit_lt_two_pow h]
  · simp [hi]

/-- Flipping the bits of `t` twice changes nothing. -/
theorem xor_involutive (t : ℕ) :
  Function.Involutive (· ^^^ t)
  := by
  intro a
  apply Nat.xor_xor_cancel_right

/-- Flipping a bit above a number `n` times adds the bit when `n` is odd. -/
theorem iterate_xor_two_pow
    {a k : ℕ} (h : a < 2 ^ k) (n : ℕ) :
  (· ^^^ 2 ^ k)^[n] a = a + n % 2 * 2 ^ k
  := by
  rcases Nat.even_or_odd n with hn | hn
  · rw [(xor_involutive _).iterate_even hn, Nat.even_iff.mp hn]
    simp
  · rw [(xor_involutive _).iterate_odd hn, Nat.odd_iff.mp hn]
    simp [xor_two_pow_of_lt h]

/-- A field `f` inside the mask `m` reads back the value `v` that an update under the mask
wrote there, whatever bits `s` outside the field are set with it. -/
theorem field_update
    {w : ℕ} (x v : BitVec w) {m s f : BitVec w} (hf : f &&& m = f) (hs : s &&& f = 0#w) :
  (((x &&& ~~~m) ||| v) ||| s) &&& f = v &&& f
  := by
  have hcleared : (x &&& ~~~m) &&& f = 0#w := by
    rw [← hf, BitVec.and_comm f m, BitVec.and_assoc, ← BitVec.and_assoc _ m,
      BitVec.not_and_self]
    simp
  rw [BitVec.and_or_distrib_right, BitVec.and_or_distrib_right, hcleared, hs, BitVec.or_zero,
    BitVec.zero_or]

/-- Words with the bits of the mask `m` clear, put together. -/
theorem or_and_eq_zero
    {w : ℕ} {x y m : BitVec w} (hx : x &&& m = 0#w) (hy : y &&& m = 0#w) :
  (x ||| y) &&& m = 0#w
  := by
  rw [BitVec.and_or_distrib_right, hx, hy, BitVec.or_zero]

/-- Two words put together have a bit of a mask when one of them has. -/
theorem or_and_ne_zero {w : ℕ} (x y m : BitVec w) :
  (x ||| y) &&& m ≠ 0#w ↔ x &&& m ≠ 0#w ∨ y &&& m ≠ 0#w
  := by
  rw [BitVec.and_or_distrib_right, Ne, BitVec.or_eq_zero_iff, not_and_or]

/-- A word has a bit of two masks put together when it has one of either. -/
theorem and_or_ne_zero {w : ℕ} (x m n : BitVec w) :
  x &&& (m ||| n) ≠ 0#w ↔ x &&& m ≠ 0#w ∨ x &&& n ≠ 0#w
  := by
  rw [BitVec.and_or_distrib_left, Ne, BitVec.or_eq_zero_iff, not_and_or]

/-- Clearing bits that a word does not have changes nothing. -/
theorem and_not_eq_self
    {w : ℕ} {x m : BitVec w} (h : x &&& m = 0#w) :
  x &&& ~~~m = x
  := by
  have hm : x &&& (m ||| ~~~m) = x &&& ~~~m := by
    rw [BitVec.and_or_distrib_left, h, BitVec.zero_or]
  rw [← hm, BitVec.or_not_self, BitVec.and_allOnes]

/-- A single bit that is in a word. -/
theorem and_bit
    {w i : ℕ} {x : BitVec w} (h : x &&& BitVec.twoPow w i ≠ 0#w) :
  x &&& BitVec.twoPow w i = BitVec.twoPow w i
  := by
  rw [BitVec.and_twoPow] at h ⊢
  split
  · rfl
  next hno =>
    rw [if_neg hno] at h
    exact absurd rfl h

/-- A word keeps the bits of the mask `m` when more bits are set in it. -/
theorem or_keeps
    {w : ℕ} {x m : BitVec w} (y : BitVec w) (h : x &&& m = m) :
  (x ||| y) &&& m = m
  := by
  rw [BitVec.and_or_distrib_right, h]
  ext i hi
  simp

/-- A word that has the bits of the mask `m` has those of a smaller one. -/
theorem and_eq_of_mask
    {w : ℕ} {x m f : BitVec w} (h : x &&& m = m) (hf : m &&& f = f) :
  x &&& f = f
  := by
  rw [← hf, ← BitVec.and_assoc, h]

/-- A word without the bits of the mask `m` has none of those of a smaller one. -/
theorem and_eq_zero_of_mask
    {w : ℕ} {x m f : BitVec w} (h : x &&& m = 0#w) (hf : m &&& f = f) :
  x &&& f = 0#w
  := by
  rw [← hf, ← BitVec.and_assoc, h, BitVec.zero_and]

/-- A shift to the left leaves the lowest bit clear. -/
theorem shiftLeft_and_one
    {w n : ℕ} (x : BitVec w) (hn : 0 < n) :
  (x <<< n) &&& 1#w = 0#w
  := by
  ext i hi
  simp
  grind

/-- A number below `2 ^ k` is its own low `k` bits. -/
theorem ofNat_and_mask
    {w k n : ℕ} (hk : k ≤ w) (hn : n < 2 ^ k) :
  (BitVec.ofNat w n &&& BitVec.ofNat w (2 ^ k - 1)).toNat = n
  := by
  have hw : 2 ^ k ≤ 2 ^ w := Nat.pow_le_pow_right (by omega) hk
  rw [BitVec.toNat_and, BitVec.toNat_ofNat, BitVec.toNat_ofNat,
    Nat.mod_eq_of_lt (by omega), Nat.mod_eq_of_lt (by omega), Nat.and_two_pow_sub_one_eq_mod,
    Nat.mod_eq_of_lt hn]

/-- A word put above the low `n` bits of another one adds its multiple. -/
theorem toNat_or_shiftLeft
    {w n : ℕ} {x y : BitVec w} (hx : x.toNat < 2 ^ n) (hy : y.toNat * 2 ^ n < 2 ^ w) :
  (x ||| y <<< n).toNat = x.toNat + y.toNat * 2 ^ n
  := by
  rw [BitVec.toNat_or, BitVec.toNat_shiftLeft, Nat.shiftLeft_eq, Nat.mod_eq_of_lt hy, Nat.or_comm,
    Nat.mul_comm, ← Nat.two_pow_add_eq_or_of_lt hx, Nat.add_comm]

/-- The low `k` bits of a word. -/
theorem toNat_and_mask
    {w k : ℕ} (x : BitVec w) (hk : k ≤ w) :
  (x &&& BitVec.ofNat w (2 ^ k - 1)).toNat = x.toNat % 2 ^ k
  := by
  have hw : 2 ^ k ≤ 2 ^ w := Nat.pow_le_pow_right (by omega) hk
  have hpos : 0 < 2 ^ k := Nat.two_pow_pos k
  rw [BitVec.toNat_and, BitVec.toNat_ofNat, Nat.mod_eq_of_lt (by omega),
    Nat.and_two_pow_sub_one_eq_mod]

/-- The bits outside a mask and those inside it add up to the word. -/
theorem and_not_add_and {w : ℕ} (x m : BitVec w) :
  (x &&& ~~~m) + (x &&& m) = x
  := by
  have hdisjoint : (x &&& ~~~m) &&& (x &&& m) = 0#w := by
    ext i hi
    simp
    grind
  rw [BitVec.add_eq_or_of_and_eq_zero _ _ hdisjoint]
  ext i hi
  simp
  grind

/-- A word below `2 ^ k` has no bits from the bit `k` on. -/
theorem and_not_mask_eq_zero
    {w k : ℕ} {x : BitVec w} (hk : k ≤ w) (hx : x.toNat < 2 ^ k) :
  x &&& ~~~BitVec.ofNat w (2 ^ k - 1) = 0#w
  := by
  have hlow : x &&& BitVec.ofNat w (2 ^ k - 1) = x := by
    apply BitVec.eq_of_toNat_eq
    rw [toNat_and_mask x hk, Nat.mod_eq_of_lt hx]
  have h := and_not_add_and x (BitVec.ofNat w (2 ^ k - 1))
  rw [hlow] at h
  simpa using h

/-- Adding a multiple of `2 ^ k` leaves the low `k` bits as they were. -/
theorem add_two_pow_and_not
    {w k : ℕ} (x : BitVec w) (hk : k ≤ w) :
  (x + BitVec.ofNat w (2 ^ k)) &&& ~~~BitVec.ofNat w (2 ^ k - 1)
    = (x &&& ~~~BitVec.ofNat w (2 ^ k - 1)) + BitVec.ofNat w (2 ^ k)
  := by
  have hlow : (x + BitVec.ofNat w (2 ^ k)) &&& BitVec.ofNat w (2 ^ k - 1)
      = x &&& BitVec.ofNat w (2 ^ k - 1) := by
    apply BitVec.eq_of_toNat_eq
    rw [toNat_and_mask _ hk, toNat_and_mask _ hk, BitVec.toNat_add, BitVec.toNat_ofNat]
    have hdvd : 2 ^ k ∣ 2 ^ w := Nat.pow_dvd_pow 2 hk
    rw [Nat.mod_mod_of_dvd _ hdvd, Nat.add_mod, Nat.mod_mod_of_dvd _ hdvd, Nat.mod_self,
      Nat.add_zero, Nat.mod_mod]
  have hsum := and_not_add_and (x + BitVec.ofNat w (2 ^ k)) (BitVec.ofNat w (2 ^ k - 1))
  have hold := and_not_add_and x (BitVec.ofNat w (2 ^ k - 1))
  rw [hlow] at hsum
  linear_combination hsum - hold

/-- The high bits of a word stay when its low `k` bits are replaced, and the new word is the
sum of both. -/
theorem replace_low
    {w k : ℕ} (x : BitVec w) {y : BitVec w} (hk : k ≤ w) (hy : y.toNat < 2 ^ k) :
  let z := (x &&& ~~~BitVec.ofNat w (2 ^ k - 1)) ||| y
  z &&& ~~~BitVec.ofNat w (2 ^ k - 1) = x &&& ~~~BitVec.ofNat w (2 ^ k - 1) ∧
    z = (x &&& ~~~BitVec.ofNat w (2 ^ k - 1)) + y
  := by
  intro z
  have hzero := and_not_mask_eq_zero hk hy
  have hdisjoint : (x &&& ~~~BitVec.ofNat w (2 ^ k - 1)) &&& y = 0#w := by
    rw [BitVec.and_assoc, BitVec.and_comm _ y, hzero, BitVec.and_zero]
  constructor
  · simp only [z]
    rw [BitVec.and_or_distrib_right, hzero, BitVec.or_zero, BitVec.and_assoc, BitVec.and_self]
  · rw [BitVec.add_eq_or_of_and_eq_zero _ _ hdisjoint]

/-- One byte of a word is replaced, the others stay. -/
theorem replace_byte (word : BitVec 32) (byte : BitVec 8) {k k' : ℕ} (hk : k < 4) (hk' : k' < 4) :
  ((word &&& ~~~(0xFF#32 <<< (8 * k)) ||| byte.setWidth 32 <<< (8 * k)) >>> (8 * k')).setWidth 8
    = if k' = k then byte else (word >>> (8 * k')).setWidth 8
  := by
  have hmask (i : ℕ) : (0xFF#32).getLsbD i = decide (i < 8) := by
    have hones : 0xFF#32 = (BitVec.allOnes 8).setWidth 32 := by decide
    rw [hones, BitVec.getLsbD_setWidth, BitVec.getLsbD_allOnes]
    by_cases h : i < 8
    · simp [h]
      omega
    · simp [h]
  apply BitVec.eq_of_getLsbD_eq
  intro i hi
  have h32 : 8 * k' + i < 32 := by omega
  simp only [BitVec.getLsbD_setWidth, BitVec.getLsbD_ushiftRight, BitVec.getLsbD_or,
    BitVec.getLsbD_and, BitVec.getLsbD_not, BitVec.getLsbD_shiftLeft, hmask, hi, h32, decide_true,
    Bool.true_and]
  split
  next heq =>
    subst heq
    have hge : ¬ 8 * k' + i < 8 * k' := by omega
    have hback : 8 * k' + i - 8 * k' = i := by omega
    have hi32 : i < 32 := by omega
    simp [hge, hback, hi, hi32]
  next hne =>
    simp only [BitVec.getLsbD_setWidth, BitVec.getLsbD_ushiftRight, hi, decide_true, Bool.true_and]
    by_cases hlt : 8 * k' + i < 8 * k
    · simp [hlt]
    · have hge : ¬ 8 * k' + i - 8 * k < 8 := by omega
      have hzero : byte.getLsbD (8 * k' + i - 8 * k) = false := by
        apply BitVec.getLsbD_of_ge
        omega
      simp [hlt, hge, hzero]

end Bits
