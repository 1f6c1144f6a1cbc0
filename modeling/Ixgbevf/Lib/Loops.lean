import Mathlib.Data.Nat.Notation
import Mathlib.Logic.Function.Basic

/-!
# Loops over an index

Loops whose body may have no result, or may say that it failed.  The invariant of a loop speaks
of the index at which the loop has arrived.
-/

namespace Loops

variable {σ : Type}

/-- The loop `for (i = start; i < start + n; i++)`. -/
def upFrom (f : ℕ → σ → Option σ) : (n i : ℕ) → σ → Option σ
  | 0, _, s => some s
  | n + 1, i, s => (f i s).bind (upFrom f n (i + 1))

/-- The loop `while (i--)`. -/
def downFrom (f : ℕ → σ → Option σ) : (i : ℕ) → σ → Option σ
  | 0, s => some s
  | i + 1, s => (f i s).bind (downFrom f i)

/-- The loop `for (i = start; i < start + n; i++)` that stops where its body fails; the result
has the index at which it failed. -/
def tryFrom (f : ℕ → σ → σ × Bool) : (n i : ℕ) → σ → σ × Option ℕ
  | 0, _, s => (s, none)
  | n + 1, i, s =>
    match f i s with
    | (s, true) => tryFrom f n (i + 1) s
    | (s, false) => (s, some i)

/-- A loop that counts up has a result when its body keeps the invariant. -/
theorem upFrom_some {f : ℕ → σ → Option σ} {I : ℕ → σ → Prop} {n i : ℕ} {s : σ} (h : I i s)
    (hstep : ∀ j < i + n, ∀ s, i ≤ j → I j s → ∃ s', f j s = some s' ∧ I (j + 1) s') :
  ∃ s', upFrom f n i s = some s' ∧ I (i + n) s'
  := by
  induction n generalizing i s with
  | zero => exact ⟨s, rfl, h⟩
  | succ n ih =>
    obtain ⟨s₁, h₁, hI₁⟩ := hstep i (by omega) s (Nat.le_refl _) h
    obtain ⟨s₂, h₂, hI₂⟩ := ih hI₁ fun j hj s hle => hstep j (by omega) s (by omega)
    refine ⟨s₂, ?_, ?_⟩
    · rw [upFrom, h₁, Option.bind_some, h₂]
    · rw [← Nat.add_right_comm, Nat.add_assoc] at hI₂
      exact hI₂

/-- Where a loop that counts up has a result, the invariant holds of it. -/
theorem upFrom_result {f : ℕ → σ → Option σ} {I : ℕ → σ → Prop} {n i : ℕ} {s s' : σ}
    (h : upFrom f n i s = some s') (hs : I i s)
    (hstep : ∀ j < i + n, ∀ s s', f j s = some s' → I j s → I (j + 1) s') :
  I (i + n) s'
  := by
  induction n generalizing i s with
  | zero =>
    cases h
    exact hs
  | succ n ih =>
    obtain ⟨s₁, h₁, h₂⟩ := Option.bind_eq_some_iff.mp h
    have hI := ih h₂ (hstep i (by omega) s s₁ h₁ hs) fun j hj => hstep j (by omega)
    rw [← Nat.add_right_comm, Nat.add_assoc] at hI
    exact hI

/-- What a loop that counts up keeps. -/
theorem upFrom_keeps {f : ℕ → σ → Option σ} {I : σ → Prop} {n i : ℕ} {s s' : σ}
    (h : upFrom f n i s = some s') (hs : I s)
    (hstep : ∀ j < i + n, ∀ s s', f j s = some s' → I s → I s') :
  I s'
  := upFrom_result (I := fun _ => I) h hs hstep

/-- A loop that counts down has a result when its body keeps the invariant. -/
theorem downFrom_some {f : ℕ → σ → Option σ} {I : ℕ → σ → Prop} {i : ℕ} {s : σ} (h : I i s)
    (hstep : ∀ j < i, ∀ s, I (j + 1) s → ∃ s', f j s = some s' ∧ I j s') :
  ∃ s', downFrom f i s = some s' ∧ I 0 s'
  := by
  induction i generalizing s with
  | zero => exact ⟨s, rfl, h⟩
  | succ i ih =>
    obtain ⟨s₁, h₁, hI₁⟩ := hstep i (by omega) s h
    obtain ⟨s₂, h₂, hI₂⟩ := ih hI₁ fun j hj => hstep j (by omega)
    refine ⟨s₂, ?_, hI₂⟩
    rw [downFrom, h₁, Option.bind_some, h₂]

/-- Where a loop that counts down has a result, the invariant holds of it. -/
theorem downFrom_result {f : ℕ → σ → Option σ} {I : ℕ → σ → Prop} {i : ℕ} {s s' : σ}
    (h : downFrom f i s = some s') (hs : I i s)
    (hstep : ∀ j < i, ∀ s s', f j s = some s' → I (j + 1) s → I j s') :
  I 0 s'
  := by
  induction i generalizing s with
  | zero =>
    cases h
    exact hs
  | succ i ih =>
    obtain ⟨s₁, h₁, h₂⟩ := Option.bind_eq_some_iff.mp h
    apply ih h₂
    · exact hstep i (by omega) s s₁ h₁ hs
    · exact fun j hj => hstep j (by omega)

/-- What a loop that counts down keeps. -/
theorem downFrom_keeps {f : ℕ → σ → Option σ} {I : σ → Prop} {i : ℕ} {s s' : σ}
    (h : downFrom f i s = some s') (hs : I s)
    (hstep : ∀ j < i, ∀ s s', f j s = some s' → I s → I s') :
  I s'
  := downFrom_result (I := fun _ => I) h hs hstep

/-- A loop that stops where its body fails keeps its invariant up to there. -/
theorem tryFrom_cases {f : ℕ → σ → σ × Bool} {I : ℕ → σ → Prop} {n i : ℕ} {s : σ} (h : I i s)
    (hstep : ∀ j < i + n, ∀ s, i ≤ j → I j s → (f j s).2 = true → I (j + 1) (f j s).1) :
  (∃ s', tryFrom f n i s = (s', none) ∧ I (i + n) s')
    ∨ ∃ j s', i ≤ j ∧ j < i + n ∧ I j s' ∧ (f j s').2 = false
      ∧ tryFrom f n i s = ((f j s').1, some j)
  := by
  induction n generalizing i s with
  | zero => exact Or.inl ⟨s, rfl, h⟩
  | succ n ih =>
    rw [tryFrom]
    cases hf : f i s with
    | mk s₁ ok =>
      cases ok with
      | false => exact Or.inr ⟨i, s, (Nat.le_refl _), by omega, h, by rw [hf], by rw [hf]⟩
      | true =>
        have hI₁ : I (i + 1) s₁ := by
          have hI := hstep i (by omega) s (Nat.le_refl _) h
          rw [hf] at hI
          exact hI rfl
        obtain ⟨s₂, h₂, hI₂⟩ | ⟨j, s₂, hle, hlt, hI₂, hno, h₂⟩ :=
          ih hI₁ fun j hj s hle => hstep j (by omega) s (by omega)
        · refine Or.inl ⟨s₂, h₂, ?_⟩
          rw [← Nat.add_right_comm, Nat.add_assoc] at hI₂
          exact hI₂
        · exact Or.inr ⟨j, s₂, by omega, by omega, hI₂, hno, h₂⟩

/-- What a loop that stops where its body fails keeps. -/
theorem tryFrom_keeps {f : ℕ → σ → σ × Bool} {I : σ → Prop} {n i : ℕ} {s : σ} (h : I s)
    (hstep : ∀ j < i + n, ∀ s, I s → I (f j s).1) :
  I (tryFrom f n i s).1
  := by
  induction n generalizing i s with
  | zero => exact h
  | succ n ih =>
    have hI := hstep i (by omega) s h
    rw [tryFrom]
    cases hf : f i s with
    | mk s₁ ok =>
      rw [hf] at hI
      cases ok with
      | false => exact hI
      | true => exact ih hI fun j hj => hstep j (by omega)

/-! ### Loops over an array -/

variable {α : Type}

/-- The loop over the first `n` entries of an array. -/
def forEach (f : ℕ → α → Option α) (n : ℕ) (a : ℕ → α) : Option (ℕ → α) :=
  upFrom (fun i a => (f i (a i)).map (Function.update a i)) n 0 a

/-- The loop changes its entries one by one, and no other. -/
theorem forEach_some {f : ℕ → α → Option α} {n : ℕ} {a a' : ℕ → α} (h : forEach f n a = some a') :
  (∀ i < n, f i (a i) = some (a' i)) ∧ ∀ i, n ≤ i → a' i = a i
  := by
  have hloop := upFrom_result (I := fun i b => (∀ j < i, f j (a j) = some (b j)) ∧
    ∀ j, i ≤ j → b j = a j) h ⟨fun j hj => absurd hj (Nat.not_lt_zero j), fun _ _ => rfl⟩ (by
      rintro i - b b' hb ⟨hdone, hrest⟩
      obtain ⟨x, hx, rfl⟩ := Option.map_eq_some_iff.mp hb
      rw [hrest i (Nat.le_refl i)] at hx
      constructor
      · intro j hj
        rcases Nat.lt_succ_iff_lt_or_eq.mp hj with hlt | rfl
        · rw [Function.update_of_ne (Nat.ne_of_lt hlt)]
          exact hdone j hlt
        · rw [Function.update_self]
          exact hx
      · intro j hj
        rw [Function.update_of_ne (Nat.ne_of_gt hj)]
        exact hrest j (Nat.le_of_succ_le hj))
  rw [Nat.zero_add] at hloop
  exact hloop

end Loops
