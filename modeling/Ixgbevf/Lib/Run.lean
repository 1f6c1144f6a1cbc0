import Mathlib.Logic.Relation

/-!
# Runs of a transition system

A transition system has initial states and steps labelled by events.  A guard is a
condition on a state and the event taken from it.  `Reachable G` are the states reached
from an initial state by events that all meet `G`, and `Path G s es s'` is a run from `s`
to `s'` that takes the events `es`, all meeting `G`.

A system simulates another one when its steps are steps of the other one between related
states; a simulation carries over to runs.
-/

/-- A transition system: `step s e s'` holds when the event `e` takes `s` to `s'`. -/
structure TransSystem (σ ε : Type) where
  /-- The states a run may start in. -/
  init : σ → Prop
  /-- The steps of the system. -/
  step : σ → ε → σ → Prop

namespace TransSystem

variable {σ ε : Type} (T : TransSystem σ ε)

/-- The states reached from an initial state by events that all meet the guard `G`. -/
inductive Reachable (G : σ → ε → Prop) : σ → Prop where
  | init {s : σ} : T.init s → Reachable G s
  | step {s : σ} {e : ε} {s' : σ} : Reachable G s → G s e → T.step s e s' → Reachable G s'

/-- The runs from `s` to `s'` whose events all meet the guard `G`. -/
inductive Path (G : σ → ε → Prop) : σ → List ε → σ → Prop where
  | nil (s : σ) : Path G s [] s
  | cons {s s' s'' : σ} {e : ε} {es : List ε} :
      G s e → T.step s e s' → Path G s' es s'' → Path G s (e :: es) s''

/-- The guard every event meets. -/
def always : σ → ε → Prop := fun _ _ => True

instance (s : σ) (e : ε) : Decidable (always s e) := isTrue trivial

variable {T} {G G' : σ → ε → Prop}

/-- A property of the initial states that the guarded steps preserve holds in every state
the guard allows to reach. -/
theorem Reachable.invariant {I : σ → Prop}
    (hinit : ∀ s, T.init s → I s)
    (hstep : ∀ s e s', I s → G s e → T.step s e s' → I s')
    {s : σ} (h : T.Reachable G s) :
  I s
  := by
  induction h with
  | init h => apply hinit _ h
  | step _ hG hs ih => apply hstep _ _ _ ih hG hs

/-- A weaker guard reaches more states. -/
theorem Reachable.mono (hG : ∀ s e, G s e → G' s e) {s : σ} (h : T.Reachable G s) :
  T.Reachable G' s
  := by
  induction h with
  | init h => apply Reachable.init h
  | step _ he hs ih => apply Reachable.step ih (hG _ _ he) hs

/-- A run from a reachable state ends in a reachable state. -/
theorem Reachable.path {s s' : σ} {es : List ε} (h : T.Reachable G s) (hp : T.Path G s es s') :
  T.Reachable G s'
  := by
  induction hp with
  | nil => apply h
  | cons he hs _ ih => apply ih (Reachable.step h he hs)

/-- A property that the guarded steps preserve survives a run. -/
theorem Path.invariant {I : σ → Prop}
    (hstep : ∀ s e s', I s → G s e → T.step s e s' → I s')
    {s s' : σ} {es : List ε} (hp : T.Path G s es s') (h : I s) :
  I s'
  := by
  induction hp with
  | nil => apply h
  | cons he hs _ ih => apply ih (hstep _ _ _ h he hs)

/-- One more event of a run. -/
theorem Path.concat {s s' s'' : σ} {es : List ε} {e : ε} (h : T.Path G s es s') (hG : G s' e)
    (hstep : T.step s' e s'') :
  T.Path G s (es ++ [e]) s''
  := by
  induction h with
  | nil => exact .cons hG hstep (.nil _)
  | cons hG' hstep' _ ih => exact .cons hG' hstep' (ih hG hstep)

/-! ### Runs of a program -/

/-- Every event of a list may be taken where it comes up, when `next` is the state after an
event. -/
def AllAlong (P : σ → ε → Prop) (next : σ → ε → σ) : σ → List ε → Prop
  | _, [] => True
  | s, e :: es => P s e ∧ AllAlong P next (next s e) es

instance AllAlong.decide (P : σ → ε → Prop) [∀ s e, Decidable (P s e)] (next : σ → ε → σ) :
    (s : σ) → (es : List ε) → Decidable (AllAlong P next s es)
  | _, [] => isTrue trivial
  | s, e :: es => @instDecidableAnd _ _ _ (AllAlong.decide P next (next s e) es)

/-- Two lists of events, one after the other. -/
theorem allAlong_append {P : σ → ε → Prop} {next : σ → ε → σ} {s : σ} {es es' : List ε} :
  AllAlong P next s (es ++ es')
    ↔ AllAlong P next s es ∧ AllAlong P next (es.foldl next s) es'
  := by
  induction es generalizing s with
  | nil => simp [AllAlong]
  | cons e es ih => simp [AllAlong, ih, and_assoc]

/-- A state that is computed by steps that may be taken is reachable. -/
theorem Reachable.foldl {P : σ → ε → Prop} {next : σ → ε → σ} {s : σ} {es : List ε}
    (hP : ∀ s e, P s e → G s e ∧ T.step s e (next s e)) (h : T.Reachable G s)
    (hes : AllAlong P next s es) :
  T.Reachable G (es.foldl next s)
  := by
  induction es generalizing s with
  | nil => apply h
  | cons e es ih =>
    obtain ⟨hG, hstep⟩ := hP s e hes.1
    apply ih (Reachable.step h hG hstep) hes.2

/-- The steps that may be taken make up a run. -/
theorem AllAlong.path {P : σ → ε → Prop} {next : σ → ε → σ} {s : σ} {es : List ε}
    (hP : ∀ s e, P s e → G s e ∧ T.step s e (next s e)) (hes : AllAlong P next s es) :
  T.Path G s es (es.foldl next s)
  := by
  induction es generalizing s with
  | nil => exact .nil s
  | cons e es ih =>
    obtain ⟨hG, hstep⟩ := hP s e hes.1
    exact .cons hG hstep (ih hes.2)

/-! ### Simulations -/

variable {τ δ : Type} {S : TransSystem τ δ}

/-- The steps of `T` under a guard are steps of `S` with the events `f`, between states that
`R` relates. -/
structure Simulates (T : TransSystem σ ε) (S : TransSystem τ δ) (G : σ → ε → Prop)
    (R : σ → τ → Prop) (f : ε → δ) : Prop where
  /-- Every initial state is related to an initial state. -/
  init : ∀ s, T.init s → ∃ t, S.init t ∧ R s t
  /-- Every step is matched. -/
  step : ∀ s e s' t, R s t → G s e → T.step s e s' → ∃ t', S.step t (f e) t' ∧ R s' t'

variable {R : σ → τ → Prop} {f : ε → δ}

/-- A reachable state is related to a reachable state. -/
theorem Simulates.reachable (h : T.Simulates S G R f) {s : σ} (hs : T.Reachable G s) :
  ∃ t, S.Reachable always t ∧ R s t
  := by
  induction hs with
  | init hs =>
    obtain ⟨t, ht, hR⟩ := h.init _ hs
    exact ⟨t, Reachable.init ht, hR⟩
  | step _ hG hstep ih =>
    obtain ⟨t, ht, hR⟩ := ih
    obtain ⟨t', ht', hR'⟩ := h.step _ _ _ t hR hG hstep
    exact ⟨t', Reachable.step ht trivial ht', hR'⟩

/-- A run is matched by a run. -/
theorem Simulates.path (h : T.Simulates S G R f) {s s' : σ} {es : List ε}
    (hp : T.Path G s es s') {t : τ} (hR : R s t) :
  ∃ t', S.Path always t (es.map f) t' ∧ R s' t'
  := by
  induction hp generalizing t with
  | nil => exact ⟨t, Path.nil t, hR⟩
  | cons hG hstep _ ih =>
    obtain ⟨t₁, ht₁, hR₁⟩ := h.step _ _ _ t hR hG hstep
    obtain ⟨t', hp', hR'⟩ := ih hR₁
    exact ⟨t', Path.cons trivial ht₁ hp', hR'⟩

end TransSystem
