import Mathlib.Data.Nat.Notation
import Mathlib.Tactic.SplitIfs

/-!
# Positions on a ring

The positions of a ring of `c` slots are the numbers below `c`.  `next` and `prev` are the
neighbours of a position, `ahead c a n` is the position `n` steps after `a`, and
`gap c a b` is the number of steps from `a` to `b`.  All are written with comparisons, as
code that wraps an index does, so that linear arithmetic decides facts about them.
-/

namespace Cyclic

/-- The position after `i`. -/
def next (c i : ℕ) : ℕ := if i + 1 = c then 0 else i + 1

/-- The position before `i`. -/
def prev (c i : ℕ) : ℕ := if i = 0 then c - 1 else i - 1

/-- The position `n` steps after `a`, where `n ≤ c`. -/
def ahead (c a n : ℕ) : ℕ := if a + n < c then a + n else a + n - c

/-- The number of steps from `a` to `b`. -/
def gap (c a b : ℕ) : ℕ := if a ≤ b then b - a else b + c - a

variable {c a b i n m : ℕ}

/-- The next position is on the ring. -/
theorem next_lt (h : i < c) :
  next c i < c
  := by
  unfold next
  split <;> omega

/-- The previous position is on the ring. -/
theorem prev_lt (h : i < c) :
  prev c i < c
  := by
  unfold prev
  split <;> omega

/-- A position ahead is on the ring. -/
theorem ahead_lt (h : a < c) (hn : n ≤ c) :
  ahead c a n < c
  := by
  unfold ahead
  split <;> omega

/-- A gap is less than a turn. -/
theorem gap_lt (h : a < c) (h' : b < c) :
  gap c a b < c
  := by
  unfold gap
  split <;> omega

@[simp] theorem gap_self :
  gap c a a = 0
  := by simp [gap]

/-- No steps ahead. -/
theorem ahead_zero (h : a < c) :
  ahead c a 0 = a
  := by simp [ahead, h]

/-- One step ahead. -/
theorem ahead_one (h : a < c) :
  ahead c a 1 = next c a
  := by
  unfold ahead next
  split <;> split <;> omega

/-- Steps ahead of steps ahead. -/
theorem ahead_ahead (h : a < c) (hn : n + m ≤ c) :
  ahead c (ahead c a n) m = ahead c a (n + m)
  := by
  unfold ahead
  split_ifs <;> omega

/-- One more step ahead. -/
theorem next_ahead (h : a < c) (hn : n + 1 ≤ c) :
  next c (ahead c a n) = ahead c a (n + 1)
  := by
  unfold ahead next
  split_ifs <;> omega

/-- One step less ahead. -/
theorem prev_ahead :
  prev c (ahead c a (n + 1)) = ahead c a n
  := by
  unfold ahead prev
  grind

/-- The gap to a position ahead. -/
theorem gap_ahead (h : a < c) (hn : n < c) :
  gap c a (ahead c a n) = n
  := by
  unfold gap ahead
  split_ifs <;> omega

/-- The position a gap ahead. -/
theorem ahead_gap (h : a < c) (h' : b < c) :
  ahead c a (gap c a b) = b
  := by
  unfold gap ahead
  split_ifs <;> omega

/-- A gap is zero only between a position and itself. -/
theorem gap_eq_zero (h : a < c) :
  gap c a b = 0 ↔ a = b
  := by
  unfold gap
  split <;> omega

/-- Positions less than a turn ahead are different. -/
theorem ahead_inj (hn : n < c) (hm : m < c) :
  ahead c a n = ahead c a m ↔ n = m
  := by
  unfold ahead
  split_ifs <;> omega

/-- The gap from a position ahead. -/
theorem gap_ahead_left (h : a < c) (h' : b < c) (hn : n ≤ gap c a b) :
  gap c (ahead c a n) b = gap c a b - n
  := by
  unfold gap ahead at *
  split_ifs at * <;> omega

/-- The gap from a position ahead of the other one. -/
theorem gap_ahead_behind (h : a < c) (h' : b < c) (hn : gap c a b < n) (hc : n < c) :
  gap c (ahead c a n) b + n = gap c a b + c
  := by
  unfold gap ahead at *
  split_ifs at * <;> omega

/-- The gap to steps ahead of a position. -/
theorem gap_ahead_right (h : a < c) (h' : b < c) (hn : gap c a b + n < c) :
  gap c a (ahead c b n) = gap c a b + n
  := by
  unfold gap ahead at *
  split_ifs at * <;> omega

/-- The gap to the next position. -/
theorem gap_next (h : a < c) (h' : b < c) (hn : gap c a b + 1 < c) :
  gap c a (next c b) = gap c a b + 1
  := by
  rw [← ahead_one h', gap_ahead_right h h' hn]

/-- The gap from the next position. -/
theorem gap_next_left (h : a < c) (h' : b < c) (hne : a ≠ b) :
  gap c (next c a) b + 1 = gap c a b
  := by
  unfold gap next
  split_ifs <;> omega

/-- From the next position it is a full turn but one step back. -/
theorem gap_next_self (h : a < c) :
  gap c (next c a) a + 1 = c
  := by
  unfold gap next
  split_ifs <;> omega

/-- The gap from a position determines the other. -/
theorem gap_inj (h : a < c) (hb : b < c) (hi : i < c) :
  gap c a b = gap c a i ↔ b = i
  := by
  unfold gap
  split_ifs <;> omega

/-- Gaps add up along the ring. -/
theorem gap_add_gap (h : a < c) (hb : b < c) (hi : i < c) (hle : gap c a b ≤ gap c a i) :
  gap c a b + gap c b i = gap c a i
  := by
  unfold gap at *
  split_ifs at * <;> omega

end Cyclic
