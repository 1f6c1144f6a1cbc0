import Mathlib.Logic.Function.Basic
import Mathlib.Data.List.Basic

/-!
# Code that takes locks

Code of some actions takes locks in a bracketed way.  Threads run such code side by side,
and a lock has at most one holder.  `Code.Guarded` says of code that every action is under
the lock it needs; `Threads.Lawful.holds` says that then, in every state of the threads, a
thread whose next operation is such an action is the holder of the lock.
-/

/-- What a thread does next: it takes a lock, gives one back, or acts. -/
inductive Op (L A : Type) where
  | acquire (l : L)
  | release (l : L)
  | act (a : A)
deriving DecidableEq, Repr

/-- Code that takes locks. -/
inductive Code (L A : Type) where
  | skip
  | act (a : A)
  | seq (c d : Code L A)
  | either (c d : Code L A)
  | many (c : Code L A)
  | locked (l : L) (c : Code L A)

namespace Code

variable {L A : Type}

/-- Code that may be left out. -/
def opt (c : Code L A) : Code L A := either skip c

/-- At most `n` runs of some code. -/
def upTo : ℕ → Code L A → Code L A
  | 0, _ => skip
  | n + 1, c => opt (seq c (upTo n c))

/-- Code that calls one function after another. -/
def all : List (Code L A) → Code L A
  | [] => skip
  | c :: cs => seq c (all cs)

/-- `n` runs of some code, with what is left of the choices. -/
def repeated (run : List ℕ → List (Op L A) × List ℕ) : ℕ → List ℕ → List (Op L A) × List ℕ
  | 0, choices => ([], choices)
  | n + 1, choices =>
    let r := run choices
    let rs := repeated run n r.2
    (r.1 ++ rs.1, rs.2)

/-- The operations of one run of the code, with what is left of the choices.  A choice says
which branch is taken (`0` the first) or how often a loop runs. -/
def run : Code L A → List ℕ → List (Op L A) × List ℕ
  | skip, choices => ([], choices)
  | act a, choices => ([.act a], choices)
  | seq c d, choices =>
    let r := run c choices
    let r' := run d r.2
    (r.1 ++ r'.1, r'.2)
  | either c d, choices =>
    if choices.headD 0 = 0 then run c choices.tail else run d choices.tail
  | many c, choices => repeated (run c) (choices.headD 0) choices.tail
  | locked l c, choices =>
    let r := run c choices
    (.acquire l :: (r.1 ++ [.release l]), r.2)

section Guarded

variable (needs : A → Option L)

/-- Every action of the code is under the lock it needs, and no lock is taken twice, when
the code starts with the locks `held`. -/
def Guarded : List L → Code L A → Prop
  | _, skip => True
  | held, act a => ∀ l, needs a = some l → l ∈ held
  | held, seq c d => Guarded held c ∧ Guarded held d
  | held, either c d => Guarded held c ∧ Guarded held d
  | held, many c => Guarded held c
  | held, locked l c => l ∉ held ∧ Guarded (l :: held) c

@[simp] theorem guarded_skip {held : List L} : Guarded needs held skip := trivial

@[simp] theorem guarded_act {held : List L} {a : A} :
  Guarded needs held (act a) ↔ ∀ l, needs a = some l → l ∈ held
  := Iff.rfl

@[simp] theorem guarded_seq {held : List L} {c d : Code L A} :
  Guarded needs held (seq c d) ↔ Guarded needs held c ∧ Guarded needs held d
  := Iff.rfl

@[simp] theorem guarded_either {held : List L} {c d : Code L A} :
  Guarded needs held (either c d) ↔ Guarded needs held c ∧ Guarded needs held d
  := Iff.rfl

@[simp] theorem guarded_many {held : List L} {c : Code L A} :
  Guarded needs held (many c) ↔ Guarded needs held c
  := Iff.rfl

@[simp] theorem guarded_locked {held : List L} {l : L} {c : Code L A} :
  Guarded needs held (locked l c) ↔ l ∉ held ∧ Guarded needs (l :: held) c
  := Iff.rfl

@[simp] theorem guarded_opt {held : List L} {c : Code L A} :
  Guarded needs held (opt c) ↔ Guarded needs held c
  := by
  simp [opt]

/-- Running guarded code a few times is guarded. -/
theorem guarded_upTo {held : List L} {c : Code L A} (h : Guarded needs held c) (n : ℕ) :
  Guarded needs held (upTo n c)
  := by
  induction n with
  | zero => simp [upTo]
  | succ n ih => simp [upTo, h, ih]

@[simp] theorem guarded_all {held : List L} {cs : List (Code L A)} :
  Guarded needs held (all cs) ↔ ∀ c ∈ cs, Guarded needs held c
  := by
  induction cs with
  | nil => simp [all]
  | cons c cs ih => simp [all, ih]

/-- The operations left of a thread keep the rules when it holds the locks `held`, the last
one taken first: an action is under the lock it needs, a lock is not taken twice, the lock
taken last is given back first, and none is held at the end. -/
def Obeys : List L → List (Op L A) → Prop
  | held, [] => held = []
  | held, .acquire l :: ops => l ∉ held ∧ Obeys (l :: held) ops
  | held, .release l :: ops => ∃ rest, held = l :: rest ∧ Obeys rest ops
  | held, .act a :: ops => (∀ l, needs a = some l → l ∈ held) ∧ Obeys held ops

variable {needs}

/-- Runs that keep the rules before some operations do so when they are repeated. -/
theorem obeys_repeated {held : List L} {run : List ℕ → List (Op L A) × List ℕ}
    (hrun : ∀ choices ops, Obeys needs held ops → Obeys needs held ((run choices).1 ++ ops))
    (n : ℕ) {choices : List ℕ} {ops : List (Op L A)} (hops : Obeys needs held ops) :
  Obeys needs held ((repeated run n choices).1 ++ ops)
  := by
  induction n generalizing choices with
  | zero => apply hops
  | succ n ih =>
    simp only [repeated, List.append_assoc]
    apply hrun
    apply ih

/-- A run of guarded code, before operations that keep the rules, keeps them. -/
theorem Guarded.obeys {held : List L} {c : Code L A} (h : Guarded needs held c)
    {choices : List ℕ} {ops : List (Op L A)} (hops : Obeys needs held ops) :
  Obeys needs held ((run c choices).1 ++ ops)
  := by
  induction c generalizing held choices ops with
  | skip => apply hops
  | act a => exact ⟨h, hops⟩
  | seq c d ihc ihd =>
    simp only [run, List.append_assoc]
    apply ihc h.1
    apply ihd h.2 hops
  | either c d ihc ihd =>
    simp only [run]
    split
    · apply ihc h.1 hops
    · apply ihd h.2 hops
  | many c ih =>
    simp only [run]
    apply obeys_repeated (fun choices ops hops => ih h hops) _ hops
  | locked l c ih =>
    simp only [run, List.cons_append, List.append_assoc]
    refine ⟨h.1, ih h.2 ?_⟩
    exact ⟨held, rfl, hops⟩

/-- A run of guarded code keeps the rules. -/
theorem Guarded.obeys_run {c : Code L A} (h : Guarded needs [] c) (choices : List ℕ) :
  Obeys needs [] (run c choices).1
  := by
  have hops : Obeys needs [] ([] : List (Op L A)) := rfl
  simpa using h.obeys hops

end Guarded

end Code

/-- Threads `C` that run side by side: what each of them has left to do, and who holds each
lock. -/
structure Threads (C L A : Type) where
  /-- The operations a thread has left. -/
  left : C → List (Op L A)
  /-- The holder of a lock. -/
  holder : L → Option C

namespace Threads

open Code

variable {C L A : Type}

/-- No thread runs and no lock is held. -/
def idle : Threads C L A := { left := fun _ => [], holder := fun _ => none }

/-- Every thread keeps the rules with the locks it is the holder of. -/
def Lawful (needs : A → Option L) (t : Threads C L A) : Prop :=
  ∀ c, ∃ held : List L, held.Nodup ∧ Obeys needs held (t.left c)
    ∧ ∀ l, l ∈ held ↔ t.holder l = some c

variable {needs : A → Option L} {t : Threads C L A}

/-- Threads that do not run keep the rules. -/
theorem lawful_idle : Lawful needs (idle : Threads C L A) := by
  intro c
  exact ⟨[], List.nodup_nil, rfl, by simp [idle]⟩

/-- A thread whose next operation is an action holds the lock the action needs. -/
theorem Lawful.holds (h : Lawful needs t) {c : C} {a : A} {l : L}
    (hc : (t.left c).head? = some (.act a)) (ha : needs a = some l) :
  t.holder l = some c
  := by
  obtain ⟨held, -, hobeys, hheld⟩ := h c
  obtain ⟨ops, hops⟩ := List.head?_eq_some_iff.mp hc
  rw [hops] at hobeys
  rw [← hheld]
  apply hobeys.1 _ ha

/-- Two threads are not both about to act under one lock. -/
theorem Lawful.exclusive (h : Lawful needs t) {c c' : C} {a a' : A} {l : L}
    (hc : (t.left c).head? = some (.act a)) (ha : needs a = some l)
    (hc' : (t.left c').head? = some (.act a')) (ha' : needs a' = some l) :
  c = c'
  := by
  have hl := h.holds hc ha
  have hl' := h.holds hc' ha'
  rw [hl] at hl'
  exact Option.some.inj hl'

variable [DecidableEq C]

/-- A thread starts on some operations. -/
def start (t : Threads C L A) (c : C) (ops : List (Op L A)) : Threads C L A :=
  { t with left := Function.update t.left c ops }

/-- A thread is past its next operation. -/
def advance (t : Threads C L A) (c : C) : Threads C L A := t.start c (t.left c).tail

@[simp] theorem left_start {t : Threads C L A} {c c' : C} {ops : List (Op L A)} :
  (t.start c ops).left c' = if c' = c then ops else t.left c'
  := by
  simp [start, Function.update_apply]

@[simp] theorem holder_start {t : Threads C L A} {c : C} {ops : List (Op L A)} :
  (t.start c ops).holder = t.holder
  := rfl

@[simp] theorem left_advance {t : Threads C L A} {c c' : C} :
  (t.advance c).left c' = if c' = c then (t.left c).tail else t.left c'
  := by
  simp [advance]

@[simp] theorem holder_advance {t : Threads C L A} {c : C} :
  (t.advance c).holder = t.holder
  := rfl

/-- A thread that has nothing left holds no lock, and may start on operations that keep the
rules. -/
theorem Lawful.start (h : Lawful needs t) {c : C} {ops : List (Op L A)} (hc : t.left c = [])
    (hops : Obeys needs [] ops) :
  Lawful needs (t.start c ops)
  := by
  intro c'
  obtain ⟨held, hnodup, hobeys, hheld⟩ := h c'
  by_cases hcc : c' = c
  · subst hcc
    rw [hc] at hobeys
    obtain rfl : held = [] := hobeys
    exact ⟨[], hnodup, by simpa using hops, by simpa using hheld⟩
  · exact ⟨held, hnodup, by simpa [hcc] using hobeys, by simpa using hheld⟩

/-- A thread that acts keeps the rules. -/
theorem Lawful.advance (h : Lawful needs t) {c : C} {a : A}
    (hc : (t.left c).head? = some (.act a)) :
  Lawful needs (t.advance c)
  := by
  intro c'
  obtain ⟨held, hnodup, hobeys, hheld⟩ := h c'
  refine ⟨held, hnodup, ?_, by simpa using hheld⟩
  by_cases hcc : c' = c
  · subst hcc
    obtain ⟨ops, hops⟩ := List.head?_eq_some_iff.mp hc
    rw [hops] at hobeys
    simpa [hops] using hobeys.2
  · simpa [hcc] using hobeys

variable [DecidableEq L]

/-- A thread takes a lock. -/
def acquire (t : Threads C L A) (c : C) (l : L) : Threads C L A :=
  { t.advance c with holder := Function.update t.holder l (some c) }

/-- A thread gives a lock back. -/
def release (t : Threads C L A) (c : C) (l : L) : Threads C L A :=
  { t.advance c with holder := Function.update t.holder l none }

@[simp] theorem left_acquire {t : Threads C L A} {c c' : C} {l : L} :
  (t.acquire c l).left c' = if c' = c then (t.left c).tail else t.left c'
  := left_advance

@[simp] theorem holder_acquire {t : Threads C L A} {c : C} {l l' : L} :
  (t.acquire c l).holder l' = if l' = l then some c else t.holder l'
  := by
  simp [acquire, Function.update_apply]

@[simp] theorem left_release {t : Threads C L A} {c c' : C} {l : L} :
  (t.release c l).left c' = if c' = c then (t.left c).tail else t.left c'
  := left_advance

@[simp] theorem holder_release {t : Threads C L A} {c : C} {l l' : L} :
  (t.release c l).holder l' = if l' = l then none else t.holder l'
  := by
  simp [release, Function.update_apply]

/-- A thread that takes a free lock keeps the rules. -/
theorem Lawful.acquire (h : Lawful needs t) {c : C} {l : L}
    (hc : (t.left c).head? = some (.acquire l)) (hfree : t.holder l = none) :
  Lawful needs (t.acquire c l)
  := by
  intro c'
  obtain ⟨held, hnodup, hobeys, hheld⟩ := h c'
  by_cases hcc : c' = c
  · subst hcc
    obtain ⟨ops, hops⟩ := List.head?_eq_some_iff.mp hc
    rw [hops] at hobeys
    refine ⟨l :: held, List.nodup_cons.mpr ⟨hobeys.1, hnodup⟩, by simpa [hops] using hobeys.2, ?_⟩
    intro l'
    by_cases hll : l' = l
    · simp [hll]
    · simp [hll, hheld]
  · refine ⟨held, hnodup, by simpa [hcc] using hobeys, ?_⟩
    intro l'
    by_cases hll : l' = l
    · subst hll
      have hnot : l' ∉ held := by simp [hheld, hfree]
      simp [hnot, Ne.symm hcc]
    · simp [hll, hheld]

/-- A thread that gives back the lock it is to give back keeps the rules. -/
theorem Lawful.release (h : Lawful needs t) {c : C} {l : L}
    (hc : (t.left c).head? = some (.release l)) :
  Lawful needs (t.release c l)
  := by
  have hholder : t.holder l = some c := by
    obtain ⟨held, -, hobeys, hheld⟩ := h c
    obtain ⟨ops, hops⟩ := List.head?_eq_some_iff.mp hc
    rw [hops] at hobeys
    obtain ⟨rest, rfl, -⟩ := hobeys
    simpa using (hheld l).mp
  intro c'
  obtain ⟨held, hnodup, hobeys, hheld⟩ := h c'
  by_cases hcc : c' = c
  · subst hcc
    obtain ⟨ops, hops⟩ := List.head?_eq_some_iff.mp hc
    rw [hops] at hobeys
    obtain ⟨rest, rfl, hrest⟩ := hobeys
    obtain ⟨hl, hnodup'⟩ := List.nodup_cons.mp hnodup
    refine ⟨rest, hnodup', by simpa [hops] using hrest, ?_⟩
    intro l'
    by_cases hll : l' = l
    · simp [hll, hl]
    · simp [hll, ← hheld]
  · refine ⟨held, hnodup, by simpa [hcc] using hobeys, ?_⟩
    intro l'
    by_cases hll : l' = l
    · subst hll
      have hnot : l' ∉ held := by simp [hheld, hholder, Ne.symm hcc]
      simp [hnot]
    · simp [hll, hheld]

end Threads
