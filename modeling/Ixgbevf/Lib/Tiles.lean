import Mathlib.Algebra.BigOperators.Group.List.Basic
import Mathlib.Data.Finset.Card
import Mathlib.Data.Finset.Range
import Mathlib.Algebra.Ring.Nat
import Mathlib.Logic.Function.Basic
import Ixgbevf.Lib.Cyclic

/-!
# Segments on a ring

A queue of segments kept on a ring: each segment takes a few slots in a row, and the first
of them holds the position of the last.  `Tiles c f a ps` says that the segments of the
lengths `ps` follow each other from the slot `a` on, and that no other slot holds a
position.  Segments are put at the end (`Tiles.push`) and taken from the front
(`Tiles.pop`).  The slots that the segments cover are those from `a` on, as many as their
lengths add up to (`Tiles.covered_iff`).
-/

namespace Cyclic

/-- What the slots hold: the position of its last slot where a segment starts. -/
def entries (c : ℕ) : ℕ → List ℕ → ℕ → Option ℕ
  | _, [] => fun _ => none
  | a, n :: ps => Function.update (entries c (ahead c a n) ps) a (some (ahead c a (n - 1)))

/-- The segments of the lengths `ps` are what the slots `f` hold from `a` on. -/
structure Tiles (c : ℕ) (f : ℕ → Option ℕ) (a : ℕ) (ps : List ℕ) : Prop where
  /-- Segments are not empty. -/
  pos : ∀ n ∈ ps, 0 < n
  /-- The segments leave a slot free. -/
  fit : ps.sum < c
  /-- What the slots hold. -/
  entry : ∀ j < c, f j = entries c a ps j

/-- The slot `j` lies in a segment: between its first slot and the one whose position that
holds. -/
def Covered (c : ℕ) (f : ℕ → Option ℕ) (j : ℕ) : Prop :=
  ∃ i < c, ∃ e ∈ f i, gap c i j ≤ gap c i e

instance (c : ℕ) (f : ℕ → Option ℕ) : DecidablePred (Covered c f) := fun j =>
  inferInstanceAs (Decidable (∃ i < c, ∃ e ∈ f i, gap c i j ≤ gap c i e))

variable {c a n : ℕ} {f : ℕ → Option ℕ} {ps : List ℕ}

/-- There are `n` slots less than `n` steps ahead. -/
theorem card_gap_lt (ha : a < c) (hn : n ≤ c) :
  ((Finset.range c).filter fun j => gap c a j < n).card = n
  := by
  have himage : (Finset.range c).filter (fun j => gap c a j < n)
      = (Finset.range n).image (ahead c a) := by
    ext j
    rw [Finset.mem_filter, Finset.mem_range, Finset.mem_image]
    constructor
    · rintro ⟨hj, hgap⟩
      exact ⟨gap c a j, Finset.mem_range.mpr hgap, ahead_gap ha hj⟩
    · rintro ⟨m, hm, rfl⟩
      rw [Finset.mem_range] at hm
      refine ⟨ahead_lt ha (by omega), ?_⟩
      rwa [gap_ahead ha (by omega)]
  rw [himage, Finset.card_image_of_injOn, Finset.card_range]
  intro m hm k hk heq
  simp only [Finset.coe_range, Set.mem_Iio] at hm hk
  exact (ahead_inj (by omega) (by omega)).mp heq

/-- A slot past the segments holds nothing. -/
theorem entries_past
    {m : ℕ} (ha : a < c) (hpos : ∀ n ∈ ps, 0 < n) (hm : ps.sum ≤ m) (hc : m < c) :
  entries c a ps (ahead c a m) = none
  := by
  induction ps generalizing a m with
  | nil => rfl
  | cons n ps ih =>
    obtain ⟨hn, hpos⟩ := List.forall_mem_cons.mp hpos
    rw [List.sum_cons] at hm
    have hne : ahead c a m ≠ a := by
      rw [← ahead_zero ha, ahead_ahead ha (by omega), Ne, ahead_inj (by omega) (by omega)]
      omega
    have hsplit : ahead c a m = ahead c (ahead c a n) (m - n) := by
      rw [ahead_ahead ha (by omega), Nat.add_sub_cancel' (by omega)]
    rw [entries, Function.update_of_ne hne, hsplit]
    exact ih (ahead_lt ha (by omega)) hpos (by omega) (by omega)

/-- A segment at the end. -/
theorem entries_append (ha : a < c) (hpos : ∀ n ∈ ps, 0 < n) (hfit : ps.sum < c) :
  entries c a (ps ++ [n])
    = Function.update (entries c a ps) (ahead c a ps.sum)
        (some (ahead c (ahead c a ps.sum) (n - 1)))
  := by
  induction ps generalizing a with
  | nil => simp [entries, ahead_zero ha]
  | cons m ps ih =>
    obtain ⟨hm, hpos⟩ := List.forall_mem_cons.mp hpos
    rw [List.sum_cons] at hfit ⊢
    have hne : a ≠ ahead c a (m + ps.sum) := by
      intro h
      rw [← gap_eq_zero ha, gap_ahead ha hfit] at h
      omega
    rw [List.cons_append, entries, ih (ahead_lt ha (by omega)) hpos (by omega),
      ahead_ahead ha (by omega), Function.update_comm hne.symm]
    rfl

namespace Tiles

/-- No segments where no slot holds a position. -/
theorem empty (hc : 0 < c) (hf : ∀ j < c, f j = none) :
  Tiles c f a []
  := by
  refine ⟨by simp, by simpa using hc, hf⟩

/-- Only what the slots of the ring hold matters. -/
theorem congr {g : ℕ → Option ℕ} (h : Tiles c f a ps) (hg : ∀ j < c, g j = f j) :
  Tiles c g a ps
  := ⟨h.pos, h.fit, fun j hj => (hg j hj).trans (h.entry j hj)⟩

/-- Without segments the first slot holds nothing. -/
theorem front_none (h : Tiles c f a []) (ha : a < c) :
  f a = none
  := h.entry a ha

/-- The first slot holds the last one of the first segment. -/
theorem front (h : Tiles c f a (n :: ps)) (ha : a < c) :
  f a = some (ahead c a (n - 1))
  := by
  rw [h.entry a ha, entries, Function.update_self]

/-- The slot past the segments holds nothing. -/
theorem past (h : Tiles c f a ps) (ha : a < c) :
  f (ahead c a ps.sum) = none
  := by
  have hfit := h.fit
  rw [h.entry _ (ahead_lt ha (by omega))]
  exact entries_past ha h.pos (Nat.le_refl _) h.fit

/-- The first segment is taken away. -/
theorem pop (h : Tiles c f a (n :: ps)) (ha : a < c) :
  Tiles c (Function.update f a none) (ahead c a n) ps
  := by
  obtain ⟨hn, hpos⟩ := List.forall_mem_cons.mp h.pos
  have hfit := h.fit
  rw [List.sum_cons] at hfit
  refine ⟨hpos, by omega, fun j hj => ?_⟩
  by_cases hja : j = a
  · subst hja
    -- a turn after the segment comes its first slot
    have hturn : ahead c (ahead c j n) (c - n) = j := by
      unfold ahead
      split_ifs <;> omega
    have hpast : entries c (ahead c j n) ps (ahead c (ahead c j n) (c - n)) = none :=
      entries_past (ahead_lt ha (by omega)) hpos (by omega) (by omega)
    rw [Function.update_self, ← hpast, hturn]
  · rw [Function.update_of_ne hja, h.entry j hj, entries, Function.update_of_ne hja]

/-- The first slot of any segment holds its last one. -/
theorem start {qs : List ℕ} (h : Tiles c f a (ps ++ n :: qs)) (ha : a < c) :
  f (ahead c a ps.sum) = some (ahead c a (ps.sum + (n - 1)))
  := by
  induction ps generalizing f a with
  | nil =>
    rw [List.sum_nil, ahead_zero ha, Nat.zero_add]
    exact h.front ha
  | cons m ps ih =>
    have hm := h.pos m List.mem_cons_self
    have hn := h.pos n (by simp)
    have hfit := h.fit
    rw [List.cons_append, List.sum_cons, List.sum_append, List.sum_cons] at hfit
    have hrest := ih (h.pop ha) (ahead_lt ha (by omega))
    rw [ahead_ahead ha (by omega), ahead_ahead ha (by omega), ← Nat.add_assoc] at hrest
    have hne : ahead c a (m + ps.sum) ≠ a := by
      intro h
      rw [eq_comm, ← gap_eq_zero ha, gap_ahead ha (by omega)] at h
      omega
    rwa [Function.update_of_ne hne] at hrest

/-- A segment is put at the end. -/
theorem push (h : Tiles c f a ps) (ha : a < c) (hn : 0 < n) (hfit : ps.sum + n < c) :
  Tiles c
    (Function.update f (ahead c a ps.sum) (some (ahead c (ahead c a ps.sum) (n - 1))))
    a (ps ++ [n])
  := by
  refine ⟨?_, by simpa using hfit, fun j hj => ?_⟩
  · intro m hm
    rcases List.mem_append.mp hm with hm | hm
    · exact h.pos m hm
    · obtain rfl := List.mem_singleton.mp hm
      exact hn
  · rw [entries_append ha h.pos h.fit, Function.update_apply, Function.update_apply, h.entry j hj]

/-- A slot lies in a segment when it is as near to the start of the segment as the last slot. -/
theorem covered_iff {j : ℕ} (h : Tiles c f a ps) (ha : a < c) (hj : j < c) :
  Covered c f j ↔ gap c a j < ps.sum
  := by
  induction ps generalizing f a with
  | nil =>
    constructor
    · rintro ⟨i, hi, e, he, -⟩
      rw [h.entry i hi] at he
      cases he
    · intro hgap
      exact absurd hgap (Nat.not_lt_zero _)
  | cons n ps ih =>
    have hn := h.pos n List.mem_cons_self
    have hfit := h.fit
    rw [List.sum_cons] at hfit ⊢
    have hlast : gap c a (ahead c a (n - 1)) = n - 1 := gap_ahead ha (by omega)
    have hsplit : Covered c f j ↔ gap c a j < n ∨ Covered c (Function.update f a none) j := by
      constructor
      · rintro ⟨i, hi, e, he, hgap⟩
        by_cases hia : i = a
        · rw [hia, h.front ha, Option.mem_some_iff] at he
          rw [hia, ← he, hlast] at hgap
          exact .inl (by omega)
        · refine .inr ⟨i, hi, e, ?_, hgap⟩
          rwa [Function.update_of_ne hia]
      · rintro (hgap | ⟨i, hi, e, he, hgap⟩)
        · exact ⟨a, ha, _, h.front ha, by omega⟩
        · have hia : i ≠ a := by
            rintro rfl
            rw [Function.update_self] at he
            cases he
          rw [Function.update_of_ne hia] at he
          exact ⟨i, hi, e, he, hgap⟩
    rw [hsplit, ih (h.pop ha) (ahead_lt ha (by omega))]
    unfold gap ahead
    split_ifs <;> omega

end Tiles

end Cyclic
