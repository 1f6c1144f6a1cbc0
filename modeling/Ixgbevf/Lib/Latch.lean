/-!
# A flag that says that a level has to be looked at

A level changes, and every change is on its way as a notification until that arrives and sets a flag.
Readers that find the flag set look at the level, and where it is high clear the flag some time after.
A notification that arrives in between is lost with the flag.  Where none of a level that is low
arrives while a reader that has seen it high is about to clear the flag, the flag stays set for as long
as the level is low.
-/

/-- The level, the notification, the flag, and the readers. -/
structure Latch (R : Type) where
  /-- The level is high. -/
  level : Bool
  /-- A notification is on its way. -/
  pending : Bool
  /-- The level has to be looked at. -/
  flag : Bool
  /-- A reader has seen the level high, and is about to clear the flag. -/
  seen : R → Bool

namespace Latch

variable {R : Type} {L L' : Latch R}

/-- No reader that has seen the level high is caught out. -/
def Heeded (L : Latch R) : Prop := L.level = true ∨ ∀ r, L.seen r = false

/-- What may happen. -/
inductive Moves (L L' : Latch R) : Prop where
  /-- Readers see the level high, or go away, and the flag is set, perhaps. -/
  | goes : L'.level = L.level → L'.pending = L.pending → (L.flag = true → L'.flag = true) →
      (∀ r, L'.seen r = true → L.seen r = true ∨ L.level = true) → Moves L L'
  /-- A reader clears the flag. -/
  | clears (r : R) : L.seen r = true → L'.level = L.level → L'.pending = L.pending →
      (∀ r, L'.seen r = true → L.seen r = true) → Moves L L'
  /-- The level changes. -/
  | changes : L'.level ≠ L.level → L'.pending = true → L'.flag = L.flag → L'.seen = L.seen →
      Moves L L'
  /-- A notification arrives. -/
  | arrives : L.Heeded → L'.level = L.level → L'.flag = true → L'.seen = L.seen → Moves L L'

/-- The notification is thrown away. -/
structure Drops (L L' : Latch R) : Prop where
  /-- No reader is caught out. -/
  heeded : L.Heeded
  /-- The level stays. -/
  level : L'.level = L.level
  /-- The readers stay. -/
  seen : L'.seen = L.seen

/-- Where a reader is about to clear the flag, the level is high, or a notification is on its way. -/
def Sound (L : Latch R) : Prop := ∀ r, L.seen r = true → L.level = true ∨ L.pending = true

/-- While the level is low, the flag is set, or a notification is on its way. -/
def Alert (L : Latch R) : Prop := L.level = true ∨ L.pending = true ∨ L.flag = true

/-- The level is low, as everybody knows. -/
structure Low (L : Latch R) : Prop where
  /-- The level is low. -/
  level : L.level = false
  /-- The notification has arrived. -/
  pending : L.pending = false
  /-- The flag is set. -/
  flag : L.flag = true
  /-- No reader is about to clear it. -/
  seen : ∀ r, L.seen r = false

/-- What is kept where the readers stay and none is caught out. -/
theorem Heeded.sound (h : L.Heeded) (hlevel : L'.level = L.level) (hseen : L'.seen = L.seen) :
  L'.Sound
  := by
  intro r hr
  rw [hseen] at hr
  obtain hhigh | hnone := h
  · exact .inl (hlevel.trans hhigh)
  · rw [hnone r] at hr
    cases hr

/-- Soundness is kept. -/
theorem Moves.sound (h : Moves L L') (hsound : L.Sound) :
  L'.Sound
  := by
  cases h with
  | goes hlevel hpending hflag hseen =>
    intro r hr
    rw [hlevel, hpending]
    obtain hr | hhigh := hseen r hr
    · exact hsound r hr
    · exact .inl hhigh
  | clears r hr hlevel hpending hseen =>
    intro r' hr'
    rw [hlevel, hpending]
    exact hsound r' (hseen r' hr')
  | changes hlevel hpending hflag hseen => exact fun r hr => .inr hpending
  | arrives hheeded hlevel hflag hseen => exact hheeded.sound hlevel hseen

/-- It is kept where a notification is thrown away. -/
theorem Drops.sound (h : Drops L L') :
  L'.Sound
  := h.heeded.sound h.level h.seen

/-- No reader has seen a low level high once the notification has arrived. -/
theorem Sound.unseen (hsound : L.Sound) (hlevel : L.level = false) (hpending : L.pending = false)
    (r : R) :
  L.seen r = false
  := by
  rw [← Bool.not_eq_true]
  intro hr
  obtain h | h := hsound r hr
  · exact Bool.false_ne_true (hlevel.symm.trans h)
  · exact Bool.false_ne_true (hpending.symm.trans h)

/-- The flag is set again whenever it has to be. -/
theorem Moves.alert (h : Moves L L') (hsound : L.Sound) (halert : L.Alert) :
  L'.Alert
  := by
  cases h with
  | goes hlevel hpending hflag hseen =>
    unfold Alert
    rw [hlevel, hpending]
    exact halert.imp_right fun h => h.imp_right hflag
  | clears r hr hlevel hpending hseen =>
    unfold Alert
    rw [hlevel, hpending]
    exact (hsound r hr).imp_right .inl
  | changes hlevel hpending hflag hseen => exact .inr (.inl hpending)
  | arrives hheeded hlevel hflag hseen => exact .inr (.inr hflag)

/-- Once the notification has arrived, everybody knows that the level is low. -/
theorem Sound.low (hsound : L.Sound) (halert : L.Alert) (hlevel : L.level = false)
    (hpending : L.pending = false) :
  L.Low
  := by
  have hflag : L.flag = true := by
    obtain h | h | h := halert
    · exact absurd (hlevel.symm.trans h) Bool.false_ne_true
    · exact absurd (hpending.symm.trans h) Bool.false_ne_true
    · exact h
  exact ⟨hlevel, hpending, hflag, hsound.unseen hlevel hpending⟩

/-- Everybody goes on knowing it, until the level changes. -/
theorem Moves.low (h : Moves L L') (hlow : L.Low) (hstill : L'.level = L.level)
    (hnone : L'.pending = true → L.pending = true) :
  L'.Low
  := by
  have hpending' : L'.pending = false := by
    cases hp : L'.pending with
    | false => rfl
    | true => exact absurd (hlow.pending.symm.trans (hnone hp)) Bool.false_ne_true
  have hsound : L.Sound := fun r hr => absurd ((hlow.seen r).symm.trans hr) Bool.false_ne_true
  have hlevel' := hstill.trans hlow.level
  refine ⟨hlevel', hpending', ?_, (h.sound hsound).unseen hlevel' hpending'⟩
  cases h with
  | goes hlevel hpending hflag hseen => exact hflag hlow.flag
  | clears r hr hlevel hpending hseen =>
    exact absurd ((hlow.seen r).symm.trans hr) Bool.false_ne_true
  | changes hlevel hpending hflag hseen => exact absurd hstill hlevel
  | arrives hheeded hlevel hflag hseen => exact hflag

end Latch
