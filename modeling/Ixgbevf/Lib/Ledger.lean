import Mathlib.Data.Finset.Basic

/-!
# Resources that are taken and given back

A list of uses records in which order resources are taken and given back.  It is `Lawful` when
nothing is taken that is held, nothing is given back that is not held, and nothing is held
where the list says so: every resource that is taken is given back once before it is taken
again, and before such a place.
-/

/-- A use of a resource. -/
inductive Use (R : Type) where
  /-- the resource is taken -/
  | take (r : R)
  /-- the resource is given back -/
  | give (r : R)
  /-- no resource may be held -/
  | settle
deriving DecidableEq, Repr

namespace Use

variable {R : Type} [DecidableEq R]

/-- The resources held after some uses. -/
def heldAfter (held : Finset R) : List (Use R) → Finset R
  | [] => held
  | .take r :: us => heldAfter (insert r held) us
  | .give r :: us => heldAfter (held.erase r) us
  | .settle :: us => heldAfter held us

/-- The uses are in order when these resources are held before. -/
def Lawful (held : Finset R) : List (Use R) → Prop
  | [] => True
  | .take r :: us => r ∉ held ∧ Lawful (insert r held) us
  | .give r :: us => r ∈ held ∧ Lawful (held.erase r) us
  | .settle :: us => held = ∅ ∧ Lawful held us

instance Lawful.decide (held : Finset R) : (us : List (Use R)) → Decidable (Lawful held us)
  | [] => isTrue trivial
  | .take r :: us => @instDecidableAnd _ _ _ (Lawful.decide (insert r held) us)
  | .give r :: us => @instDecidableAnd _ _ _ (Lawful.decide (held.erase r) us)
  | .settle :: us => @instDecidableAnd _ _ _ (Lawful.decide held us)

variable {held : Finset R} {us vs : List (Use R)}

/-- What is held after uses one after the other. -/
theorem heldAfter_append :
  heldAfter held (us ++ vs) = heldAfter (heldAfter held us) vs
  := by
  induction us generalizing held with
  | nil => rfl
  | cons u us ih =>
    cases u with
    | take r => exact ih
    | give r => exact ih
    | settle => exact ih

/-- Uses one after the other are in order. -/
theorem lawful_append :
  Lawful held (us ++ vs) ↔ Lawful held us ∧ Lawful (heldAfter held us) vs
  := by
  induction us generalizing held with
  | nil => simp [Lawful, heldAfter]
  | cons u us ih =>
    cases u with
    | take r => simp [Lawful, heldAfter, ih, and_assoc]
    | give r => simp [Lawful, heldAfter, ih, and_assoc]
    | settle => simp [Lawful, heldAfter, ih, and_assoc]

/-- The uses are in order, and the resources that they leave held are the ones with a property. -/
structure Owns (us : List (Use R)) (P : R → Prop) : Prop where
  /-- The uses are in order. -/
  lawful : Lawful ∅ us
  /-- What they leave held. -/
  held (r : R) : r ∈ heldAfter ∅ us ↔ P r

variable {P Q : R → Prop}

/-- Nothing has been taken yet. -/
theorem Owns.nil :
  Owns ([] : List (Use R)) fun _ => False
  := by
  constructor
  · trivial
  · simp [heldAfter]

/-- The property may be said in another way. -/
theorem Owns.congr (h : Owns us P) (heq : ∀ r, P r ↔ Q r) :
  Owns us Q
  := by
  constructor
  · exact h.lawful
  · exact fun r => (h.held r).trans (heq r)

/-- A resource that is not held is taken. -/
theorem Owns.take {r : R} (h : Owns us P) (hr : ¬ P r) :
  Owns (us ++ [.take r]) fun x => P x ∨ x = r
  := by
  constructor
  · rw [lawful_append]
    exact ⟨h.lawful, (h.held r).not.mpr hr, trivial⟩
  · intro x
    rw [heldAfter_append, heldAfter, heldAfter, Finset.mem_insert, h.held x, or_comm]

/-- A resource that is held is given back. -/
theorem Owns.give {r : R} (h : Owns us P) (hr : P r) :
  Owns (us ++ [.give r]) fun x => P x ∧ x ≠ r
  := by
  constructor
  · rw [lawful_append]
    exact ⟨h.lawful, (h.held r).mpr hr, trivial⟩
  · intro x
    rw [heldAfter_append, heldAfter, heldAfter, Finset.mem_erase, h.held x, and_comm]

/-- More uses are in order from what is held. -/
theorem Owns.moves {held held' : Finset R} (h : Owns us (· ∈ held)) (hvs : Lawful held vs)
    (hheld : heldAfter held vs = held') :
  Owns (us ++ vs) (· ∈ held')
  := by
  have hafter : heldAfter ∅ us = held := Finset.ext h.held
  constructor
  · rw [lawful_append, hafter]
    exact ⟨h.lawful, hvs⟩
  · intro r
    rw [heldAfter_append, hafter, hheld]

/-- What is held besides a resource that was not held before. -/
theorem or_eq_and_ne_iff {S : Type} {P : S → Prop} {r : S} (hr : ¬ P r) (x : S) :
  (P x ∨ x = r) ∧ x ≠ r ↔ P x
  := by
  constructor
  · exact fun h => h.1.resolve_right h.2
  · intro h
    refine ⟨Or.inl h, ?_⟩
    rintro rfl
    exact hr h

/-- Everything has been given back where nothing has the property. -/
theorem Owns.heldAfter_eq_empty (h : Owns us P) :
  heldAfter ∅ us = ∅ ↔ ∀ r, ¬ P r
  := by
  rw [Finset.eq_empty_iff_forall_notMem]
  exact forall_congr' fun r => (h.held r).not

end Use
