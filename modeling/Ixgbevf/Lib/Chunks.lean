import Mathlib.Data.List.Basic
import Mathlib.Tactic.Use

/-!
# Streams that are cut into chunks

Some items of a stream end a chunk.  `chunks ends xs` are the chunks that have ended in `xs`, and
the items after the last end.
-/

namespace Chunks

variable {α : Type} (ends : α → Bool)

/-- The chunks so far, after one more item. -/
def push (c : List (List α) × List α) (x : α) : List (List α) × List α :=
  if ends x then (c.1 ++ [c.2 ++ [x]], []) else (c.1, c.2 ++ [x])

/-- The chunks that have ended, and the items after the last of them. -/
def chunks (xs : List α) : List (List α) × List α := xs.foldl (push ends) ([], [])

@[simp] theorem chunks_nil :
  chunks ends [] = ([], [])
  := rfl

/-- One more item. -/
theorem chunks_concat (xs : List α) (x : α) :
  chunks ends (xs ++ [x]) = push ends (chunks ends xs) x
  := by
  simp [chunks]

/-- One more item makes the chunk that has not ended longer by one at most. -/
theorem length_chunks_concat_le (xs : List α) (x : α) :
  (chunks ends (xs ++ [x])).2.length ≤ (chunks ends xs).2.length + 1
  := by
  rw [chunks_concat, push]
  split <;> simp

/-! ### Chunks that are kept -/

variable {β γ : Type}

/-- The images of the items whose mark is kept. -/
def kept (keep : γ → Bool) (f : β → α) (xs : List β) (marks : List γ) : List α :=
  ((xs.zip marks).filter fun x => keep x.2).map fun x => f x.1

/-- One more item with its mark. -/
theorem kept_concat (keep : γ → Bool) (f : β → α) {xs : List β} {marks : List γ}
    (h : xs.length = marks.length) (x : β) (mark : γ) :
  kept keep f (xs ++ [x]) (marks ++ [mark])
    = kept keep f xs marks ++ if keep mark then [f x] else []
  := by
  unfold kept
  rw [List.zip_append h, List.filter_append, List.map_append]
  cases hk : keep mark <;> simp [hk]

end Chunks
