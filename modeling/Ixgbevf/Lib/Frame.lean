import Mathlib.Order.Defs.Unbundled

/-!
# Frames of stateful programs

`Keeps R m` says that the program `m` takes every state to a state that `R` relates to
it, and `Returns P m` that every value `m` returns satisfies `P`.  A preorder is kept by
sequential composition, so a frame condition is proved once for each basic step and is
carried through a program by its shape.  `Respects R m` says that `m` cannot tell states
apart that `R` relates, and `Alike f m m'` that `m` and `m'` do the same and return values on
which `f` agrees.  `Within I Q m` says that from the states of `I` the program returns a value
with `Q` and does not leave `I`, and `Ensures P m Q` that from the states of `P` it returns a
value and leaves a state that `Q` relates.
-/

namespace StateProgram

variable {σ α β : Type}

/-- The program takes every state to a state that `R` relates to it. -/
def Keeps (R : σ → σ → Prop) (m : StateM σ α) : Prop :=
  ∀ s, R s (m.run s).2

/-- Every value the program returns satisfies `P`. -/
def Returns (P : α → Prop) (m : StateM σ α) : Prop :=
  ∀ s, P (m.run s).1

/-- What a sequence does from a state, by what its first program does from there. -/
theorem run_bind_of
    {m : StateM σ α} {f : α → StateM σ β} {s : σ} (Q : α → σ → Prop) (P : β × σ → Prop)
    (hm : Q (m.run s).1 (m.run s).2) (hf : ∀ a s', Q a s' → P ((f a).run s')) :
  P ((m >>= f).run s)
  := hf _ _ hm

/-- A sequence runs its first program and goes on from there. -/
theorem run_bind {m : StateM σ α} {f : α → StateM σ β} {s : σ} :
  (m >>= f).run s = (f (m.run s).1).run (m.run s).2
  := rfl

/-- A program that starts by looking at the state. -/
theorem run_get_bind {k : σ → StateM σ α} {s : σ} :
  (get >>= k).run s = (k s).run s
  := rfl

section Keeps

variable {R : σ → σ → Prop}

/-- A change of the state that `R` allows keeps `R`. -/
theorem keeps_modify {f : σ → σ} (h : ∀ s, R s (f s)) :
  Keeps R (modify f : StateM σ PUnit)
  := h

/-- A read that changes the state as `R` allows keeps `R`. -/
theorem keeps_modifyGet {f : σ → α × σ} (h : ∀ s, R s (f s).2) :
  Keeps R (modifyGet f : StateM σ α)
  := h

/-- A branch of programs that keep `R` keeps it. -/
theorem keeps_ite {p : Prop} [Decidable p] {m m' : StateM σ α}
    (hm : Keeps R m) (hm' : Keeps R m') :
  Keeps R (if p then m else m')
  := by
  split
  · apply hm
  · apply hm'

variable [IsPreorder σ R]

/-- A program that leaves the state alone keeps `R`. -/
theorem keeps_pure (a : α) :
  Keeps R (pure a : StateM σ α)
  := fun s => refl_of R s

/-- Reading the state keeps `R`. -/
theorem keeps_get :
  Keeps R (get : StateM σ σ)
  := fun s => refl_of R s

/-- Programs that keep `R` keep it one after the other. -/
theorem keeps_bind {m : StateM σ α} {f : α → StateM σ β}
    (hm : Keeps R m) (hf : ∀ a, Keeps R (f a)) :
  Keeps R (m >>= f)
  := by
  intro s
  apply trans_of R (hm s)
  apply hf

end Keeps

section Returns

variable {P : α → Prop}

/-- A program that returns a value with `P` and does nothing else. -/
theorem returns_pure {a : α} (h : P a) :
  Returns P (pure a : StateM σ α)
  := fun _ => h

/-- What a sequence returns is what its last program returns. -/
theorem returns_bind {m : StateM σ β} {f : β → StateM σ α} (hf : ∀ b, Returns P (f b)) :
  Returns P (m >>= f)
  := by
  intro s
  apply hf

/-- A sequence whose last program uses the value of the first. -/
theorem returns_bind_of {Q : β → Prop} {m : StateM σ β} {f : β → StateM σ α}
    (hm : Returns Q m) (hf : ∀ b, Q b → Returns P (f b)) :
  Returns P (m >>= f)
  := by
  intro s
  apply hf _ (hm s)

/-- A branch returns what one of its sides returns. -/
theorem returns_ite {p : Prop} [Decidable p] {m m' : StateM σ α}
    (hm : Returns P m) (hm' : Returns P m') :
  Returns P (if p then m else m')
  := by
  split
  · apply hm
  · apply hm'

/-- A weaker condition holds of what a program returns. -/
theorem Returns.mono {P' : α → Prop} {m : StateM σ α} (h : Returns P m) (hP : ∀ a, P a → P' a) :
  Returns P' m
  := fun s => hP _ (h s)

end Returns

section Within

variable {I J : σ → Prop} {P : β → Prop} {Q : α → Prop}

/-- From the states of `I` the program returns a value with `Q` and stays within `I`. -/
def Within (I : σ → Prop) (Q : α → Prop) (m : StateM σ α) : Prop :=
  ∀ s, I s → Q (m.run s).1 ∧ I (m.run s).2

/-- A program that returns a value with `Q` and does nothing else. -/
theorem within_pure {a : α} (h : Q a) :
  Within I Q (pure a : StateM σ α)
  := fun _ hs => ⟨h, hs⟩

/-- A change of the state that does not leave `I`. -/
theorem within_modify {f : σ → σ} (h : ∀ s, I s → I (f s)) :
  Within I (fun _ => True) (modify f : StateM σ PUnit)
  := fun s hs => ⟨trivial, h s hs⟩

/-- A read of a value with `Q` that does not leave `I`. -/
theorem within_modifyGet {f : σ → α × σ} (h : ∀ s, I s → Q (f s).1 ∧ I (f s).2) :
  Within I Q (modifyGet f : StateM σ α)
  := h

/-- A program that starts by looking at the state. -/
theorem within_get {k : σ → StateM σ α} (h : ∀ s, I s → Within I Q (k s)) :
  Within I Q (get >>= k)
  := fun s hs => h s hs s hs

/-- A sequence whose second program goes on from the value of the first. -/
theorem within_bind {m : StateM σ β} {f : β → StateM σ α}
    (hm : Within I P m) (hf : ∀ b, P b → Within I Q (f b)) :
  Within I Q (m >>= f)
  := by
  intro s hs
  obtain ⟨hP, hI⟩ := hm s hs
  apply hf _ hP _ hI

/-- A branch of programs that stay within `I`. -/
theorem within_ite {p : Prop} [Decidable p] {m m' : StateM σ α}
    (hm : Within I Q m) (hm' : Within I Q m') :
  Within I Q (if p then m else m')
  := by
  split
  · apply hm
  · apply hm'

/-- A weaker condition holds of what the program returns. -/
theorem Within.mono {Q' : α → Prop} {m : StateM σ α} (h : Within I Q m) (hQ : ∀ a, Q a → Q' a) :
  Within I Q' m
  := by
  intro s hs
  obtain ⟨hq, hI⟩ := h s hs
  exact ⟨hQ _ hq, hI⟩

/-- A program that stays within either of two sets of states stays within both together. -/
theorem within_or {m : StateM σ α} (h : Within I Q m) (h' : Within J Q m) :
  Within (fun s => I s ∨ J s) Q m
  := by
  rintro s (hs | hs)
  · obtain ⟨hQ, hI⟩ := h s hs
    exact ⟨hQ, .inl hI⟩
  · obtain ⟨hQ, hJ⟩ := h' s hs
    exact ⟨hQ, .inr hJ⟩

end Within

section Ensures

variable {P P' : σ → Prop} {Q Q' : α → σ → Prop} {T : β → σ → Prop}

/-- From the states of `P` the program returns a value and leaves a state with `Q`. -/
structure Ensures (P : σ → Prop) (m : StateM σ α) (Q : α → σ → Prop) : Prop where
  /-- What it does from one of them. -/
  run : ∀ s, P s → Q (m.run s).1 (m.run s).2

/-- A program that leaves the state alone. -/
theorem ensures_pure {a : α} (h : ∀ s, P s → Q a s) :
  Ensures P (pure a : StateM σ α) Q
  := ⟨h⟩

/-- A change of the state. -/
theorem ensures_modify {Q : PUnit → σ → Prop} {f : σ → σ} (h : ∀ s, P s → Q ⟨⟩ (f s)) :
  Ensures P (modify f : StateM σ PUnit) Q
  := ⟨h⟩

/-- A read that changes the state. -/
theorem ensures_modifyGet {f : σ → α × σ} (h : ∀ s, P s → Q (f s).1 (f s).2) :
  Ensures P (modifyGet f : StateM σ α) Q
  := ⟨h⟩

/-- A sequence whose second program starts where the first one ends. -/
theorem ensures_bind {m : StateM σ β} {f : β → StateM σ α}
    (hm : Ensures P m T) (hf : ∀ b, Ensures (T b) (f b) Q) :
  Ensures P (m >>= f) Q
  := ⟨fun s hs => (hf _).run _ (hm.run s hs)⟩

/-- A program that starts by looking at the state. -/
theorem ensures_get {k : σ → StateM σ α} (h : ∀ s, P s → Ensures (· = s) (k s) Q) :
  Ensures P (get >>= k) Q
  := ⟨fun s hs => (h s hs).run s rfl⟩

/-- A branch, whose sides start from the states in which they are taken. -/
theorem ensures_ite {p : Prop} [Decidable p] {m m' : StateM σ α}
    (hm : p → Ensures P m Q) (hm' : ¬ p → Ensures P m' Q) :
  Ensures P (if p then m else m') Q
  := by
  split
  · next h => apply hm h
  · next h => apply hm' h

/-- A program that keeps `R` stays in the states that `R` does not leave. -/
theorem Keeps.ensures {R : σ → σ → Prop} {m : StateM σ α} (h : Keeps R m)
    (hP : ∀ s s', R s s' → P s → P s') :
  Ensures P m (fun _ => P)
  := ⟨fun s hs => hP _ _ (h s) hs⟩

/-- What a program ensures twice it ensures together. -/
theorem Ensures.and {m : StateM σ α} (h : Ensures P m Q) (h' : Ensures P' m Q') :
  Ensures (fun s => P s ∧ P' s) m (fun a s => Q a s ∧ Q' a s)
  := ⟨fun s hs => ⟨h.run s hs.1, h'.run s hs.2⟩⟩

/-- Fewer states to start from, and more to end in. -/
theorem Ensures.mono {m : StateM σ α} (h : Ensures P m Q) (hP : ∀ s, P' s → P s)
    (hQ : ∀ a s, Q a s → Q' a s) :
  Ensures P' m Q'
  := ⟨fun s hs => hQ _ _ (h.run s (hP s hs))⟩

/-- Fewer states to start from. -/
theorem Ensures.of {m : StateM σ α} (h : Ensures P m Q) (hP : ∀ s, P' s → P s) :
  Ensures P' m Q
  := h.mono hP fun _ _ hQ => hQ

end Ensures

section Respects

variable (R : σ → σ → Prop)

/-- From related states the program returns the same value and ends in related states. -/
def Respects (m : StateM σ α) : Prop :=
  ∀ s s', R s s' → (m.run s).1 = (m.run s').1 ∧ R (m.run s).2 (m.run s').2

variable {R}

/-- A program that leaves the state alone respects `R`. -/
theorem respects_pure (a : α) :
  Respects R (pure a : StateM σ α)
  := fun _ _ h => ⟨rfl, h⟩

/-- A change of the state that takes related states to related states. -/
theorem respects_modify {f : σ → σ} (h : ∀ s s', R s s' → R (f s) (f s')) :
  Respects R (modify f : StateM σ PUnit)
  := fun s s' hs => ⟨rfl, h s s' hs⟩

/-- A read of a value on which related states agree. -/
theorem respects_modifyGet {f : σ → α × σ}
    (h : ∀ s s', R s s' → (f s).1 = (f s').1 ∧ R (f s).2 (f s').2) :
  Respects R (modifyGet f : StateM σ α)
  := h

/-- Programs that respect `R` respect it one after the other. -/
theorem respects_bind {m : StateM σ α} {f : α → StateM σ β}
    (hm : Respects R m) (hf : ∀ a, Respects R (f a)) :
  Respects R (m >>= f)
  := by
  intro s s' h
  obtain ⟨ha, hs⟩ := hm s s' h
  have hr := hf (m.run s).1 _ _ hs
  constructor
  · exact hr.1.trans (congrArg (fun a => ((f a).run (m.run s').2).1) ha)
  · have he : ((f (m.run s).1).run (m.run s').2).2 = ((f (m.run s').1).run (m.run s').2).2 :=
      congrArg (fun a => ((f a).run (m.run s').2).2) ha
    exact he ▸ hr.2

/-- A program that depends on the state only through what related states agree on. -/
theorem respects_get {k : σ → StateM σ α} (hk : ∀ s s', R s s' → k s = k s')
    (hf : ∀ s, Respects R (k s)) :
  Respects R (get >>= k)
  := by
  intro s s' h
  have hr := hf s s s' h
  have he : (k s).run s' = (k s').run s' :=
    congrArg (fun m : StateM σ α => m.run s') (hk s s' h)
  rw [he] at hr
  exact hr

/-- A branch of programs that respect `R` respects it. -/
theorem respects_ite {p : Prop} [Decidable p] {m m' : StateM σ α}
    (hm : Respects R m) (hm' : Respects R m') :
  Respects R (if p then m else m')
  := by
  split
  · apply hm
  · apply hm'

end Respects

section Alike

variable {γ : Type} {f : α → γ}

/-- The programs leave the same state and return values on which `f` agrees. -/
def Alike (f : α → γ) (m m' : StateM σ α) : Prop :=
  ∀ s, f (m.run s).1 = f (m'.run s).1 ∧ (m.run s).2 = (m'.run s).2

/-- A program is alike itself. -/
theorem alike_refl (m : StateM σ α) :
  Alike f m m
  := fun _ => ⟨rfl, rfl⟩

/-- Programs that leave the state alone. -/
theorem alike_pure {a a' : α} (h : f a = f a') :
  Alike f (pure a : StateM σ α) (pure a')
  := fun _ => ⟨h, rfl⟩

/-- Programs that go on alike after the same beginning. -/
theorem alike_bind {m : StateM σ β} {k k' : β → StateM σ α} (h : ∀ b, Alike f (k b) (k' b)) :
  Alike f (m >>= k) (m >>= k')
  := by
  intro s
  apply h

/-- Branches that are alike. -/
theorem alike_ite {p : Prop} [Decidable p] {m₁ m₂ m₁' m₂' : StateM σ α}
    (h₁ : Alike f m₁ m₁') (h₂ : Alike f m₂ m₂') :
  Alike f (if p then m₁ else m₂) (if p then m₁' else m₂')
  := by
  split
  · apply h₁
  · apply h₂

end Alike

end StateProgram
