import Mathlib.Data.Nat.Notation
import Mathlib.Tactic.Ring

/-!
# The weighted harmonic mean of two numbers

The mean `(a + 1) * t * c / (a * t + c)` moves `c` towards `t`, the further the smaller the
weight `a`.  Rounded down it stays between any bounds that both numbers obey.
-/

namespace Mean

/-- The harmonic mean of `t` and `c` with the weights `1` and `a`, rounded down. -/
def harmonic (a t c : ℕ) : ℕ := (a + 1) * t * c / (a * t + c)

/-- The mean is no less than a lower bound of the numbers. -/
theorem le_harmonic
    {a t c lo : ℕ} (ht : lo ≤ t) (hc : lo ≤ c) (hpos : 0 < a * t + c) :
  lo ≤ harmonic a t c
  := by
  unfold harmonic
  rw [Nat.le_div_iff_mul_le hpos]
  have h₁ : lo * (a * t) ≤ c * (a * t) := Nat.mul_le_mul_right _ hc
  have h₂ : lo * c ≤ t * c := Nat.mul_le_mul_right _ ht
  calc lo * (a * t + c) = lo * (a * t) + lo * c := by ring
    _ ≤ c * (a * t) + t * c := Nat.add_le_add h₁ h₂
    _ = (a + 1) * t * c := by ring

/-- The mean is no more than an upper bound of the numbers. -/
theorem harmonic_le
    {a t c hi : ℕ} (ht : t ≤ hi) (hc : c ≤ hi) :
  harmonic a t c ≤ hi
  := by
  unfold harmonic
  apply Nat.div_le_of_le_mul
  have h₁ : a * t * c ≤ a * t * hi := Nat.mul_le_mul_left _ hc
  have h₂ : c * t ≤ c * hi := Nat.mul_le_mul_left _ ht
  calc (a + 1) * t * c = a * t * c + c * t := by ring
    _ ≤ a * t * hi + c * hi := Nat.add_le_add h₁ h₂
    _ = (a * t + c) * hi := by ring

end Mean
