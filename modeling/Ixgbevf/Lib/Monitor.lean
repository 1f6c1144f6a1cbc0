import Mathlib.Logic.Function.Basic

/-!
# Programs under a lock that guards some data

Programs consist of atomic actions whose results decide how they go on.  Contexts run such
programs side by side, and one lock guards some data: only its holder acts on them.  A program
is `Sound` when it takes the lock with an invariant of the data and gives it back with it;
`Contexts.Lawful` says that every context has a sound program left, from the data as they are
when it holds the lock.  Every step of every context keeps this.
-/

/-- A program of atomic actions. -/
inductive Prog (A : Type) where
  | done
  /-- the lock is taken -/
  | lock (k : Prog A)
  /-- the lock is given back -/
  | unlock (k : Prog A)
  /-- an action, and what follows its result -/
  | act (a : A) (k : Bool → Prog A)

namespace Prog

variable {A P : Type}

/-- Nothing is left of the program. -/
def isDone : Prog A → Bool
  | done => true
  | _ => false

/-- A program of which nothing is left. -/
theorem isDone_iff {k : Prog A} :
  k.isDone = true ↔ k = done
  := by
  cases k <;> simp [isDone]

/-- What is required of a program. -/
structure Rules (A P : Type) where
  /-- The data are in order while nobody holds the lock. -/
  order : P → Prop
  /-- An action of the holder of the lock, with its result, on the data. -/
  effect : A → P → Bool → P → Prop
  /-- What every such action has to meet. -/
  along : A → P → P → Prop
  /-- The actions that may happen without the lock, before what follows them. -/
  outside : A → (Bool → Prog A) → Prop

/-- The program keeps the rules from some data when it holds the lock, and from no data when it
does not. -/
def Sound (R : Rules A P) : Prog A → Option P → Prop
  | done, none => True
  | done, some _ => False
  | lock k, none => ∀ p, R.order p → Sound R k (some p)
  | lock _, some _ => False
  | unlock _, none => False
  | unlock k, some p => R.order p ∧ Sound R k none
  | act a k, none => R.outside a k ∧ ∀ r, Sound R (k r) none
  | act a k, some p => ∀ r p', R.effect a p r p' → R.along a p p' ∧ Sound R (k r) (some p')

end Prog

/-- Contexts `C` with what is left of their programs, and the holder of the lock. -/
structure Contexts (C A : Type) where
  /-- What a context has left to do. -/
  prog : C → Prog A
  /-- The holder of the lock. -/
  holder : Option C

namespace Contexts

open Prog

variable {C A P : Type} [DecidableEq C]

/-- No context runs. -/
def idle : Contexts C A := { prog := fun _ => .done, holder := none }

/-- A context goes on with this program. -/
def goOn (s : Contexts C A) (c : C) (k : Prog A) : Contexts C A :=
  { s with prog := Function.update s.prog c k }

/-- A context takes the lock, and goes on. -/
def take (s : Contexts C A) (c : C) (k : Prog A) : Contexts C A :=
  { s.goOn c k with holder := some c }

/-- A context gives the lock back, and goes on. -/
def give (s : Contexts C A) (c : C) (k : Prog A) : Contexts C A :=
  { s.goOn c k with holder := none }

@[simp] theorem prog_goOn_self {s : Contexts C A} {c : C} {k : Prog A} :
  (s.goOn c k).prog c = k
  := by
  simp [goOn]

theorem prog_goOn_ne {s : Contexts C A} {c c' : C} {k : Prog A} (h : c' ≠ c) :
  (s.goOn c k).prog c' = s.prog c'
  := by
  simp [goOn, h]

@[simp] theorem holder_goOn {s : Contexts C A} {c : C} {k : Prog A} :
  (s.goOn c k).holder = s.holder
  := rfl

@[simp] theorem prog_take {s : Contexts C A} {c : C} {k : Prog A} :
  (s.take c k).prog = (s.goOn c k).prog
  := rfl

@[simp] theorem prog_give {s : Contexts C A} {c : C} {k : Prog A} :
  (s.give c k).prog = (s.goOn c k).prog
  := rfl

/-- Every context has a sound program left. -/
structure Lawful (R : C → Rules A P) (s : Contexts C A) (p : P) : Prop where
  /-- The data are in order while nobody holds the lock. -/
  order : s.holder = none → ∀ c, (R c).order p
  /-- The holder of the lock goes on from the data, the others from none. -/
  sound : ∀ c, Sound (R c) (s.prog c) (if s.holder = some c then some p else none)

variable {R : C → Rules A P} {s : Contexts C A} {p p' : P} {c : C}

/-- Contexts that do not run. -/
theorem lawful_idle (h : ∀ c, (R c).order p) :
  (idle : Contexts C A).Lawful R p
  := by
  constructor
  · intro _ c
    apply h
  · intro c
    trivial

/-- A context that has nothing left does not hold the lock. -/
theorem Lawful.not_holder (h : s.Lawful R p) (hc : s.prog c = .done) :
  s.holder ≠ some c
  := by
  intro hh
  have hs := h.sound c
  rw [hc, if_pos hh] at hs
  exact hs

/-- A context without the lock goes on. -/
theorem Lawful.goOn (h : s.Lawful R p) {k : Prog A} (hc : s.holder ≠ some c)
    (hk : Sound (R c) k none) :
  (s.goOn c k).Lawful R p
  := by
  constructor
  · exact h.order
  · intro c'
    by_cases he : c' = c
    · subst he
      rw [prog_goOn_self, holder_goOn, if_neg hc]
      exact hk
    · rw [prog_goOn_ne he]
      exact h.sound c'

/-- The holder of the lock acts. -/
theorem Lawful.act (h : s.Lawful R p) (hc : s.holder = some c) {k : Prog A}
    (hk : Sound (R c) k (some p')) :
  (s.goOn c k).Lawful R p'
  := by
  constructor
  · intro hn
    rw [holder_goOn, hc] at hn
    cases hn
  · intro c'
    by_cases he : c' = c
    · subst he
      rw [prog_goOn_self, holder_goOn, if_pos hc]
      exact hk
    · have hne : s.holder ≠ some c' := by
        rw [hc]
        exact fun h => he (Option.some.inj h).symm
      have hs := h.sound c'
      rw [if_neg hne] at hs
      rw [prog_goOn_ne he, holder_goOn, if_neg hne]
      exact hs

/-- A context takes the lock. -/
theorem Lawful.take (h : s.Lawful R p) {k : Prog A} (hc : s.prog c = .lock k)
    (hn : s.holder = none) :
  (s.take c k).Lawful R p
  := by
  have hs := h.sound c
  rw [hc, hn, if_neg (Option.some_ne_none c).symm] at hs
  constructor
  · intro he
    cases he
  · intro c'
    by_cases he : c' = c
    · subst he
      rw [prog_take, prog_goOn_self, Contexts.take, if_pos rfl]
      exact hs p (h.order hn c')
    · have hs' := h.sound c'
      rw [hn, if_neg (Option.some_ne_none c').symm] at hs'
      rw [prog_take, prog_goOn_ne he, Contexts.take, if_neg fun h => he (Option.some.inj h).symm]
      exact hs'

/-- A context whose program gives the lock back holds it. -/
theorem Lawful.holds_unlock (h : s.Lawful R p) {k : Prog A} (hc : s.prog c = .unlock k) :
  s.holder = some c
  := by
  have hs := h.sound c
  rw [hc] at hs
  by_contra hn
  rw [if_neg hn] at hs
  exact hs

/-- A context gives the lock back. -/
theorem Lawful.give (h : s.Lawful R p) (hR : ∀ c c', (R c).order p → (R c').order p) {k : Prog A}
    (hc : s.prog c = .unlock k) :
  (s.give c k).Lawful R p
  := by
  have hh := h.holds_unlock hc
  have hs := h.sound c
  rw [hc, if_pos hh] at hs
  constructor
  · intro _ c'
    apply hR c c' hs.1
  · intro c'
    by_cases he : c' = c
    · subst he
      rw [prog_give, prog_goOn_self, Contexts.give, if_neg (Option.some_ne_none c').symm]
      exact hs.2
    · have hne : s.holder ≠ some c' := by
        rw [hh]
        exact fun h => he (Option.some.inj h).symm
      have hs' := h.sound c'
      rw [if_neg hne] at hs'
      rw [prog_give, prog_goOn_ne he, Contexts.give, if_neg (Option.some_ne_none c').symm]
      exact hs'

/-- What the rules say of an action of the holder. -/
theorem Lawful.along (h : s.Lawful R p) (hh : s.holder = some c) {a : A} {k : Bool → Prog A}
    (hc : s.prog c = .act a k) {r : Bool} (he : (R c).effect a p r p') :
  (R c).along a p p' ∧ (s.goOn c (k r)).Lawful R p'
  := by
  have hs := h.sound c
  rw [hc, if_pos hh] at hs
  obtain ⟨ha, hk⟩ := hs r p' he
  exact ⟨ha, h.act hh hk⟩

/-- What the rules say of an action without the lock. -/
theorem Lawful.outside (h : s.Lawful R p) (hh : s.holder ≠ some c) {a : A} {k : Bool → Prog A}
    (hc : s.prog c = .act a k) :
  (R c).outside a k ∧ ∀ r, (s.goOn c (k r)).Lawful R p
  := by
  have hs := h.sound c
  rw [hc, if_neg hh] at hs
  exact ⟨hs.1, fun r => h.goOn hh (hs.2 r)⟩

end Contexts
