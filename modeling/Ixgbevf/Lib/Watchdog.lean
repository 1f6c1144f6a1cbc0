import Mathlib.Data.Nat.Basic
import Ixgbevf.Lib.Run

/-!
# Watchdogs

A watchdog is asked to check that something goes on: where the value that it reads is the one it has
read at the last check and there is work to be done, it suspects a stall, and where it did so at the
last check too it raises an alarm.  In the runs of a transition system that has a watchdog, an alarm
tells of a value that is the same as at an earlier check, and of a stall an alarm is raised at the
third check, at the latest.
-/

/-- A watchdog. -/
structure Watchdog (α : Type) where
  /-- The value it has read. -/
  old : α
  /-- It was asked for a check. -/
  asked : Bool
  /-- It suspects a stall. -/
  armed : Bool
  /-- The alarms so far. -/
  alarms : ℕ

namespace Watchdog

variable {α : Type}

/-- What a step does to a watchdog, where `value` is what there is to read, `busy` tells of work to be
done, and `reset` of a step that starts over. -/
inductive Moves (value : α) (busy reset : Prop) (w w' : Watchdog α) : Prop where
  /-- No check is made. -/
  | rests : (w.asked = true → w'.asked = true) → w'.old = w.old → w'.armed = w.armed →
      w'.alarms = w.alarms → Moves value busy reset w w'
  /-- The suspicion is dropped. -/
  | resets : reset → (w.asked = true → w'.asked = true) → w'.old = w.old → w'.armed = false →
      w'.alarms = w.alarms → Moves value busy reset w w'
  /-- A check sees another value, or no work. -/
  | passes : w.asked = true → w'.asked = false → ¬ (w.old = value ∧ busy) → w'.old = value →
      w'.armed = false → w'.alarms = w.alarms → Moves value busy reset w w'
  /-- A check sees the same value. -/
  | suspects : w.asked = true → w'.asked = false → w.old = value → busy → w'.old = w.old →
      w'.armed = true → w'.alarms = w.alarms + (if w.armed then 1 else 0) →
      Moves value busy reset w w'

/-- A check was made. -/
def Checks (w w' : Watchdog α) : Prop := w.asked = true ∧ w'.asked = false

/-- How many checks of a value it takes to come to the last one before an alarm. -/
def lead [DecidableEq α] (w : Watchdog α) (value : α) : ℕ :=
  if w.old = value then if w.armed then 0 else 1 else 2

/-- Two checks at most. -/
theorem lead_le [DecidableEq α] (w : Watchdog α) (value : α) :
  w.lead value ≤ 2
  := by
  unfold lead
  split
  · split <;> omega
  · exact Nat.le_refl _

variable {value : α} {busy reset : Prop} {w w' : Watchdog α}

/-- An alarm is raised by a check that sees the same value as the last one. -/
theorem Moves.alarms_le (h : Moves value busy reset w w') :
  w.alarms ≤ w'.alarms
    ∧ (w.alarms < w'.alarms → w.armed = true ∧ w.old = value ∧ busy ∧ Checks w w')
  := by
  cases h with
  | rests _ _ _ halarms | resets _ _ _ _ halarms | passes _ _ _ _ _ halarms =>
    exact ⟨Nat.le_of_eq halarms.symm, fun hlt => by omega⟩
  | suspects hasked hasked' hold hbusy _ _ halarms =>
    refine ⟨by omega, fun hlt => ⟨?_, hold, hbusy, hasked, hasked'⟩⟩
    by_contra harmed
    rw [if_neg harmed] at halarms
    omega

/-- What a check that finds work does. -/
theorem Moves.checks [DecidableEq α] (h : Moves value busy reset w w') (hbusy : busy)
    (hchecks : Checks w w') :
  w'.lead value = w.lead value - 1 ∧ w'.alarms = w.alarms + (1 - w.lead value)
  := by
  cases h with
  | rests hkeeps _ _ _ | resets _ hkeeps _ _ _ =>
    have hasked := hkeeps hchecks.1
    rw [hchecks.2] at hasked
    cases hasked
  | passes _ _ hother hold harmed halarms =>
    have hne : w.old ≠ value := fun heq => hother ⟨heq, hbusy⟩
    have hlead : w.lead value = 2 := if_neg hne
    have hlead' : w'.lead value = 1 := by
      rw [lead, if_pos hold, harmed]
      rfl
    rw [hlead, hlead']
    exact ⟨rfl, halarms⟩
  | suspects _ _ hsame _ hold harmed halarms =>
    have hlead' : w'.lead value = 0 := by
      rw [lead, if_pos (hold.trans hsame), if_pos harmed]
    rw [hlead', lead, if_pos hsame, halarms]
    cases w.armed <;> exact ⟨rfl, rfl⟩

end Watchdog

namespace TransSystem

open Watchdog

variable {σ ε α : Type}

/-- Every step of a transition system moves the watchdog `dog`, which reads `value` after the step;
`busy` tells of a step that finds work to be done and `reset` of one that starts over.  Where a run
starts nothing is suspected. -/
structure Watches (T : TransSystem σ ε) (dog : σ → Watchdog α) (value : σ → α)
    (busy : σ → ε → Prop) (reset : ε → Prop) : Prop where
  /-- Nothing is suspected. -/
  init : ∀ s, T.init s → (dog s).armed = false
  /-- Every step. -/
  step : ∀ s e s', T.step s e s' → Moves (value s') (busy s e) (reset e) (dog s) (dog s')

/-- A run in which the value stays the same and in which `k` checks are made, all of which find work
to be done. -/
inductive Stalls (T : TransSystem σ ε) (dog : σ → Watchdog α) (value : σ → α)
    (busy : σ → ε → Prop) (reset : ε → Prop) : ℕ → σ → σ → Prop where
  /-- Nothing happens. -/
  | start (s : σ) : Stalls T dog value busy reset 0 s s
  /-- No check is made. -/
  | rests {k : ℕ} {s s' s'' : σ} {e : ε} : Stalls T dog value busy reset k s s' → ¬ reset e →
      T.step s' e s'' → value s'' = value s' → ¬ Checks (dog s') (dog s'') →
      Stalls T dog value busy reset k s s''
  /-- A check finds work to be done. -/
  | checks {k : ℕ} {s s' s'' : σ} {e : ε} : Stalls T dog value busy reset k s s' → ¬ reset e →
      T.step s' e s'' → value s'' = value s' → Checks (dog s') (dog s'') → busy s' e →
      Stalls T dog value busy reset (k + 1) s s''

namespace Watches

variable {T : TransSystem σ ε} {dog : σ → Watchdog α} {value : σ → α} {busy : σ → ε → Prop}
  {reset : ε → Prop} {G : σ → ε → Prop}

/-- A stall is suspected since a check that found work, and the value that was read then is the one
that the watchdog has. -/
theorem armed_since (h : T.Watches dog value busy reset) {s : σ} (hs : T.Reachable G s)
    (harmed : (dog s).armed = true) :
  ∃ s₁ e₁ s₂ es, T.Reachable G s₁ ∧ G s₁ e₁ ∧ T.step s₁ e₁ s₂ ∧ busy s₁ e₁
    ∧ Checks (dog s₁) (dog s₂) ∧ T.Path G s₂ es s ∧ (dog s).old = value s₂
  := by
  induction hs with
  | init hinit =>
    rw [h.init _ hinit] at harmed
    cases harmed
  | @step s e s' hs hG hstep ih =>
    -- an earlier check, or this one
    have hlater (hold : (dog s').old = (dog s).old) (harmed : (dog s).armed = true) :
        ∃ s₁ e₁ s₂ es, T.Reachable G s₁ ∧ G s₁ e₁ ∧ T.step s₁ e₁ s₂ ∧ busy s₁ e₁
          ∧ Checks (dog s₁) (dog s₂) ∧ T.Path G s₂ es s' ∧ (dog s').old = value s₂ := by
      obtain ⟨s₁, e₁, s₂, es, hs₁, hG₁, hstep₁, hbusy, hchecks, hpath, hvalue⟩ := ih harmed
      exact ⟨s₁, e₁, s₂, es ++ [e], hs₁, hG₁, hstep₁, hbusy, hchecks,
        hpath.concat hG hstep, hold.trans hvalue⟩
    cases h.step _ _ _ hstep with
    | rests _ hold hsame _ => exact hlater hold (hsame.symm.trans harmed)
    | resets _ _ _ hno _ | passes _ _ _ _ hno _ =>
      rw [hno] at harmed
      cases harmed
    | suspects hasked hasked' hsame hbusy hold _ _ =>
      exact ⟨s, e, s', [], hs, hG, hstep, hbusy, ⟨hasked, hasked'⟩, .nil _, hold.trans hsame⟩

/-- An alarm tells of a value that is the same as at an earlier check. -/
theorem alarm_since (h : T.Watches dog value busy reset) {s s' : σ} {e : ε}
    (hs : T.Reachable G s) (hstep : T.step s e s')
    (halarm : (dog s).alarms < (dog s').alarms) :
  busy s e ∧ Checks (dog s) (dog s')
    ∧ ∃ s₁ e₁ s₂ es, T.Reachable G s₁ ∧ G s₁ e₁ ∧ T.step s₁ e₁ s₂ ∧ busy s₁ e₁
      ∧ Checks (dog s₁) (dog s₂) ∧ T.Path G s₂ es s ∧ value s' = value s₂
  := by
  obtain ⟨harmed, hsame, hbusy, hchecks⟩ := (h.step _ _ _ hstep).alarms_le.2 halarm
  obtain ⟨s₁, e₁, s₂, es, hs₁, hG₁, hstep₁, hbusy₁, hchecks₁, hpath, hvalue⟩ :=
    h.armed_since hs harmed
  exact ⟨hbusy, hchecks, s₁, e₁, s₂, es, hs₁, hG₁, hstep₁, hbusy₁, hchecks₁, hpath,
    hsame.symm.trans hvalue⟩

/-- In a stall, every check raises an alarm but for the first ones that the watchdog needs. -/
theorem stall_alarms [DecidableEq α] (h : T.Watches dog value busy reset) {k : ℕ} {s s' : σ}
    (hstall : T.Stalls dog value busy reset k s s') :
  value s' = value s ∧ (dog s').lead (value s) = (dog s).lead (value s) - k
    ∧ (dog s').alarms = (dog s).alarms + (k - (dog s).lead (value s))
  := by
  induction hstall with
  | start s => exact ⟨rfl, rfl, by omega⟩
  | @rests k s s' s'' e _ hreset hstep hvalue hno ih =>
    obtain ⟨hvalue', hlead, halarms⟩ := ih
    cases h.step _ _ _ hstep with
    | rests _ hold harmed hsame =>
      refine ⟨hvalue.trans hvalue', ?_, hsame.trans halarms⟩
      rw [← hlead, lead, lead, hold, harmed]
    | resets hyes => exact absurd hyes hreset
    | passes hasked hasked' | suspects hasked hasked' => exact absurd ⟨hasked, hasked'⟩ hno
  | @checks k s s' s'' e _ hreset hstep hvalue hchecks hbusy ih =>
    obtain ⟨hvalue', hlead, halarms⟩ := ih
    have hmoves := h.step _ _ _ hstep
    rw [hvalue, hvalue'] at hmoves
    refine ⟨hvalue.trans hvalue', ?_⟩
    obtain ⟨hlead', halarms'⟩ := hmoves.checks hbusy hchecks
    omega

end Watches

end TransSystem
