import Mathlib.Data.Nat.Digits.Defs
import Ixgbevf.Lib.Bits

/-!
# Fields packed into a word

Fields of `w` bits in one word, the first of them in the lowest bits, are the digits of the word to
the base `2 ^ w`.  Code packs them by shifts to the left that are put together, and reads them by a
shift to the right under a mask.
-/

namespace Packing

/-- The field `k` of a word with fields of `w` bits. -/
def field (w k x : ℕ) : ℕ := x / 2 ^ (w * k) % 2 ^ w

/-- The fields of a packed word are what has been packed. -/
theorem field_ofDigits {w : ℕ} {xs : List ℕ} (h : ∀ x ∈ xs, x < 2 ^ w) (k : ℕ) :
  field w k (Nat.ofDigits (2 ^ w) xs) = xs.getD k 0
  := by
  induction xs generalizing k with
  | nil => simp [field]
  | cons x xs ih =>
    have hx : x < 2 ^ w := h x List.mem_cons_self
    rw [Nat.ofDigits_cons]
    cases k with
    | zero => simp [field, Nat.add_mul_mod_self_left, Nat.mod_eq_of_lt hx]
    | succ k =>
      have hrest : (x + 2 ^ w * Nat.ofDigits (2 ^ w) xs) / 2 ^ (w * (k + 1))
          = Nat.ofDigits (2 ^ w) xs / 2 ^ (w * k) := by
        rw [Nat.mul_succ, Nat.add_comm (w * k), Nat.pow_add, ← Nat.div_div_eq_div_mul,
          Nat.add_mul_div_left _ _ (Nat.two_pow_pos w), Nat.div_eq_of_lt hx, Nat.zero_add]
      rw [field, hrest, List.getD_cons_succ]
      exact ih (fun y hy => h y (List.mem_cons_of_mem x hy)) k

/-- One more field, put above the others. -/
theorem toNat_or_shiftLeft
    {n w : ℕ} {x y : BitVec n} {xs : List ℕ} (hw : 0 < w)
    (hx : x.toNat = Nat.ofDigits (2 ^ w) xs) (hxs : ∀ x ∈ xs, x < 2 ^ w) (hy : y.toNat < 2 ^ w)
    (hfits : w * (xs.length + 1) ≤ n) :
  (x ||| y <<< (w * xs.length)).toNat = Nat.ofDigits (2 ^ w) (xs ++ [y.toNat])
  := by
  have hlt : Nat.ofDigits (2 ^ w) xs < 2 ^ (w * xs.length) := by
    rw [Nat.pow_mul]
    exact Nat.ofDigits_lt_base_pow_length (Nat.one_lt_two_pow (by omega)) hxs
  have hroom : y.toNat * 2 ^ (w * xs.length) < 2 ^ n := by
    calc y.toNat * 2 ^ (w * xs.length)
        < 2 ^ w * 2 ^ (w * xs.length) := Nat.mul_lt_mul_of_pos_right hy (Nat.two_pow_pos _)
      _ = 2 ^ (w * (xs.length + 1)) := by rw [← Nat.pow_add, Nat.mul_succ, Nat.add_comm]
      _ ≤ 2 ^ n := Nat.pow_le_pow_right (by decide) hfits
  rw [Bits.toNat_or_shiftLeft (by rw [hx]; exact hlt) hroom, hx, Nat.ofDigits_append,
    Nat.ofDigits_singleton, Nat.pow_mul, Nat.mul_comm]

/-- Words that hold `per` fields each. -/
def words (w per count : ℕ) (xs : List ℕ) : List ℕ :=
  (List.range count).map fun j => Nat.ofDigits (2 ^ w) ((xs.drop (per * j)).take per)

end Packing
