import Ixgbevf.Lib.Run

/-!
# Since

A property of the states of a transition system that some steps bring about and others end holds at
the end of a run exactly if a step of the run has brought it about and none has ended it since.
-/

namespace TransSystem

variable {σ ε : Type}

/-- A step of a run from `s₀` opens, and no step after it closes. -/
inductive Since (T : TransSystem σ ε) (G : σ → ε → Prop) (opens closes : σ → ε → Prop) (s₀ : σ) :
    List ε → σ → Prop where
  /-- The last step opens. -/
  | opened {es : List ε} {s s' : σ} {e : ε} : T.Path G s₀ es s → G s e → T.step s e s' →
      opens s e → Since T G opens closes s₀ (es ++ [e]) s'
  /-- The last step does not close. -/
  | kept {es : List ε} {s s' : σ} {e : ε} : Since T G opens closes s₀ es s → G s e → T.step s e s' →
      ¬ closes s e → Since T G opens closes s₀ (es ++ [e]) s'

variable {T : TransSystem σ ε} {G opens closes : σ → ε → Prop} {P : σ → Prop} {s₀ s s' : σ}
  {es es' : List ε}

/-- What steps that open bring about, and steps that do not close keep, holds since then. -/
theorem Since.holds (h : T.Since G opens closes s₀ es s)
    (hopens : ∀ s e s', T.step s e s' → opens s e → P s')
    (hcloses : ∀ s e s', T.step s e s' → P s → ¬ closes s e → P s') :
  P s
  := by
  induction h with
  | opened _ _ hstep hyes => exact hopens _ _ _ hstep hyes
  | kept _ _ hstep hno ih => exact hcloses _ _ _ hstep ih hno

/-- A run goes on, where the property is explained so far. -/
theorem Path.since (h : T.Path G s es' s') (h₀ : T.Path G s₀ es s)
    (hsince : P s → T.Since G opens closes s₀ es s)
    (hstep : ∀ s e s', T.step s e s' → P s' → opens s e ∨ P s ∧ ¬ closes s e) :
  P s' → T.Since G opens closes s₀ (es ++ es') s'
  := by
  induction h generalizing es with
  | nil =>
    rw [List.append_nil]
    exact hsince
  | @cons s s₁ s' e es' hG hnext _ ih =>
    have happend : es ++ e :: es' = es ++ [e] ++ es' := by simp
    rw [happend]
    refine ih (h₀.concat hG hnext) fun hP => ?_
    obtain hopens | ⟨hP, hcloses⟩ := hstep _ _ _ hnext hP
    · exact .opened h₀ hG hnext hopens
    · exact .kept (hsince hP) hG hnext hcloses

/-- A property that every step brings about exactly if it opens, or keeps exactly if it does not
close, holds exactly since a step that opens. -/
theorem Path.since_iff (h : T.Path G s₀ es s) (hinit : ¬ P s₀)
    (hstep : ∀ s e s', T.step s e s' → (P s' ↔ opens s e ∨ P s ∧ ¬ closes s e)) :
  P s ↔ T.Since G opens closes s₀ es s
  := by
  constructor
  · exact h.since (.nil s₀) (fun hP => absurd hP hinit) fun s e s' hs => (hstep s e s' hs).mp
  · intro hsince
    exact hsince.holds (fun s e s' hs hyes => (hstep s e s' hs).mpr (.inl hyes))
      fun s e s' hs hP hno => (hstep s e s' hs).mpr (.inr ⟨hP, hno⟩)

end TransSystem
