import Mathlib.Data.Nat.Notation
import Mathlib.Logic.Function.Basic

/-!
# Work that is queued once

Callers ask for work to be done: a call makes some tests, claims a flag unless it is set, and where it
has claimed it puts the work on a queue.  A worker takes the work from the queue, does it, and clears
the flag.  The flag is a token: it is set exactly while one of the callers is about to queue the work,
or the work is queued, or it is being done.  Somebody else may take the work from the queue for good;
the flag stays set then, unless it is free.
-/

namespace SingleFlight

variable {C : Type}

/-- Where a call is. -/
inductive Pc where
  /-- So many tests are left before it claims the flag. -/
  | tests (n : ℕ)
  /-- It has claimed the flag. -/
  | enqueue
  deriving DecidableEq, Repr

/-- What the worker does. -/
inductive Phase where
  /-- Nothing. -/
  | idle
  /-- The work. -/
  | body
  /-- It has cleared the flag. -/
  | done
  deriving DecidableEq, Repr

/-- The flag, the callers, the queue and the worker. -/
structure Flight (C : Type) where
  /-- The flag is set. -/
  flag : Bool
  /-- The calls. -/
  calls : C → Option Pc
  /-- The work is queued. -/
  queued : Bool
  /-- The worker. -/
  worker : Phase

/-- What happens. -/
inductive Move (C : Type) where
  /-- A call starts, with so many tests. -/
  | start (c : C) (n : ℕ)
  /-- It passes a test. -/
  | pass (c : C)
  /-- It fails a test, and returns. -/
  | giveUp (c : C)
  /-- It claims the flag, or finds it set and returns. -/
  | claim (c : C)
  /-- It queues the work, and returns. -/
  | enqueue (c : C)
  /-- The worker takes the work from the queue. -/
  | dequeue
  /-- It clears the flag. -/
  | complete
  /-- It is done. -/
  | finish
  /-- Somebody waits for the worker, and takes the work from the queue. -/
  | cancel

namespace Flight

/-- When a move can happen. -/
def Enabled (s : Flight C) : Move C → Prop
  | .start c _ => s.calls c = none
  | .pass c => ∃ n, s.calls c = some (.tests (n + 1))
  | .giveUp c => ∃ n, s.calls c = some (.tests (n + 1))
  | .claim c => s.calls c = some (.tests 0)
  | .enqueue c => s.calls c = some .enqueue
  | .dequeue => s.queued = true ∧ s.worker = .idle
  | .complete => s.worker = .body
  | .finish => s.worker = .done
  | .cancel => s.worker = .idle

/-- A call goes on, or returns. -/
def setCall [DecidableEq C] (s : Flight C) (c : C) (pc : Option Pc) : Flight C :=
  { s with calls := Function.update s.calls c pc }

/-- A call after a test that it passes. -/
def passed : Option Pc → Option Pc
  | some (.tests (n + 1)) => some (.tests n)
  | pc => pc

/-- After a move. -/
def apply [DecidableEq C] (s : Flight C) : Move C → Flight C
  | .start c n => s.setCall c (some (.tests n))
  | .pass c => s.setCall c (passed (s.calls c))
  | .giveUp c => s.setCall c none
  | .claim c => if s.flag then s.setCall c none else { s.setCall c (some .enqueue) with flag := true }
  | .enqueue c => { s.setCall c none with queued := true }
  | .dequeue => { s with queued := false, worker := .body }
  | .complete => { s with flag := false, worker := .done }
  | .finish => { s with worker := .idle }
  | .cancel => { s with queued := false }

/-- Who may have the token. -/
inductive Holder (C : Type) where
  | call (c : C)
  | queue
  | worker

/-- Who has the token. -/
def Holds (s : Flight C) : Holder C → Prop
  | .call c => s.calls c = some .enqueue
  | .queue => s.queued = true
  | .worker => s.worker = .body

/-- There is one token, and who has it has set the flag. -/
structure Sane (s : Flight C) : Prop where
  /-- The flag is set. -/
  flag : ∀ h, s.Holds h → s.flag = true
  /-- Nobody else has the token. -/
  unique : ∀ h h', s.Holds h → s.Holds h' → h = h'

/-- Nothing is queued or done, and no call that is past its tests can queue anything. -/
structure Quiet (s : Flight C) : Prop where
  /-- Nothing is queued. -/
  queued : s.queued = false
  /-- Nothing is done. -/
  worker : s.worker = .idle
  /-- No call queues anything. -/
  enqueue : ∀ c, s.calls c ≠ some .enqueue
  /-- No call claims the flag. -/
  claim : ∀ c, s.calls c = some (.tests 0) → s.flag = true

/-- A call is past its tests and is going to queue the work. -/
def Straddles (s : Flight C) : Prop :=
  ∃ c, s.calls c = some .enqueue ∨ s.calls c = some (.tests 0) ∧ s.flag = false

/-- The move brings a call past its tests. -/
def Arrives (s : Flight C) : Move C → Prop
  | .start _ n => n = 0
  | .pass c => s.calls c = some (.tests 1)
  | _ => False

variable {s : Flight C} {m : Move C}

/-- Where nobody gets the token and the flag stays set, all is as it was. -/
theorem Sane.mono {s' : Flight C} (hs : s.Sane) (hholds : ∀ h, s'.Holds h → s.Holds h)
    (hflag : s.flag = true → s'.flag = true) :
  s'.Sane
  := ⟨fun h hh => hflag (hs.flag h (hholds h hh)),
    fun h h' hh hh' => hs.unique h h' (hholds h hh) (hholds h' hh')⟩

/-- Where somebody gets the token that nobody else has, there is one token. -/
theorem Sane.gets {s' : Flight C} (h₀ : Holder C) (hflag : s'.flag = true)
    (hholds : ∀ h, s'.Holds h → h = h₀) :
  s'.Sane
  := ⟨fun _ _ => hflag, fun h h' hh hh' => (hholds h hh).trans (hholds h' hh').symm⟩

/-- A passed test is none that claims the flag. -/
theorem passed_ne (pc : Option Pc) (h : pc ≠ some .enqueue) :
  passed pc ≠ some .enqueue
  := by
  unfold passed
  split
  · exact fun heq => Pc.noConfusion (Option.some.inj heq)
  · exact h

variable [DecidableEq C]

/-- A call of which only the tests change does not get or lose the token. -/
theorem holds_setCall {c : C} {pc : Option Pc} (hold : s.calls c ≠ some .enqueue)
    (hnew : pc ≠ some .enqueue) (h : Holder C) :
  (s.setCall c pc).Holds h ↔ s.Holds h
  := by
  cases h with
  | queue | worker => exact Iff.rfl
  | call c' =>
    change Function.update s.calls c pc c' = some .enqueue ↔ s.calls c' = some .enqueue
    by_cases hc : c' = c
    · subst hc
      rw [Function.update_self]
      exact iff_of_false hnew hold
    · rw [Function.update_of_ne hc]

/-- Every move keeps one token. -/
theorem apply_sane (hs : s.Sane) (hm : s.Enabled m) :
  (s.apply m).Sane
  := by
  have hfree (hno : s.flag ≠ true) (h : Holder C) : ¬ s.Holds h := fun hh => hno (hs.flag h hh)
  cases m with
  | start c n =>
    have hcall : s.calls c = none := hm
    have hold : s.calls c ≠ some .enqueue := by simp [hcall]
    exact hs.mono (fun h => (holds_setCall hold (by simp) h).mp) id
  | pass c =>
    obtain ⟨n, hcall⟩ := hm
    have hold : s.calls c ≠ some .enqueue := by simp [hcall]
    exact hs.mono (fun h => (holds_setCall hold (passed_ne _ hold) h).mp) id
  | giveUp c =>
    obtain ⟨n, hcall⟩ := hm
    have hold : s.calls c ≠ some .enqueue := by simp [hcall]
    exact hs.mono (fun h => (holds_setCall hold (by simp) h).mp) id
  | claim c =>
    have hcall : s.calls c = some (.tests 0) := hm
    have hold : s.calls c ≠ some .enqueue := by simp [hcall]
    by_cases hset : s.flag = true
    · rw [apply, if_pos hset]
      exact hs.mono (fun h => (holds_setCall hold (by simp) h).mp) id
    · rw [apply, if_neg hset]
      refine .gets (.call c) rfl fun h hh => ?_
      cases h with
      | queue => exact absurd hh (hfree hset .queue)
      | worker => exact absurd hh (hfree hset .worker)
      | call c' =>
        by_cases hc : c' = c
        · rw [hc]
        · have hother : s.calls c' = some .enqueue := by
            rw [← hh]
            exact (Function.update_of_ne hc _ _).symm
          exact absurd hother (hfree hset (.call c'))
  | enqueue c =>
    have hcall : s.Holds (.call c) := hm
    refine .gets .queue (hs.flag _ hcall) fun h hh => ?_
    cases h with
    | queue => rfl
    | worker => cases hs.unique _ .worker hcall hh
    | call c' =>
      by_cases hc : c' = c
      · subst hc
        have hnone : Function.update s.calls c' none c' = some .enqueue := hh
        rw [Function.update_self] at hnone
        cases hnone
      · have hother : s.calls c' = some .enqueue := by
          rw [← hh]
          exact (Function.update_of_ne hc _ _).symm
        cases hs.unique _ (.call c') hcall hother
        exact absurd rfl hc
  | dequeue =>
    have hqueue : s.Holds .queue := hm.1
    refine .gets .worker (hs.flag _ hqueue) fun h hh => ?_
    cases h with
    | worker => rfl
    | queue => cases hh
    | call c' => cases hs.unique _ (.call c') hqueue hh
  | complete =>
    have hworker : s.Holds .worker := hm
    have hnobody (h : Holder C) : ¬ (s.apply .complete).Holds h := by
      intro hh
      cases h with
      | worker => cases hh
      | queue => cases hs.unique _ .queue hworker hh
      | call c' => cases hs.unique _ (.call c') hworker hh
    exact ⟨fun h hh => absurd hh (hnobody h), fun h _ hh => absurd hh (hnobody h)⟩
  | finish =>
    refine hs.mono (fun h hh => ?_) id
    cases h with
    | worker => cases hh
    | queue | call => exact hh
  | cancel =>
    refine hs.mono (fun h hh => ?_) id
    cases h with
    | queue => cases hh
    | worker | call => exact hh

/-- A flag that is set is set for somebody, unless the work is taken away. -/
theorem apply_held (hheld : s.flag = true → ∃ h, s.Holds h) (hm : s.Enabled m)
    (hcancel : m ≠ .cancel) :
  (s.apply m).flag = true → ∃ h, (s.apply m).Holds h
  := by
  intro hflag
  cases m with
  | start c n =>
    have hcall : s.calls c = none := hm
    obtain ⟨h, hh⟩ := hheld hflag
    exact ⟨h, (holds_setCall (by simp [hcall]) (by simp) h).mpr hh⟩
  | pass c =>
    obtain ⟨n, hcall⟩ := hm
    have hold : s.calls c ≠ some .enqueue := by simp [hcall]
    obtain ⟨h, hh⟩ := hheld hflag
    exact ⟨h, (holds_setCall hold (passed_ne _ hold) h).mpr hh⟩
  | giveUp c =>
    obtain ⟨n, hcall⟩ := hm
    obtain ⟨h, hh⟩ := hheld hflag
    exact ⟨h, (holds_setCall (by simp [hcall]) (by simp) h).mpr hh⟩
  | claim c =>
    have hcall : s.calls c = some (.tests 0) := hm
    by_cases hset : s.flag = true
    · obtain ⟨h, hh⟩ := hheld hset
      refine ⟨h, ?_⟩
      rw [apply, if_pos hset]
      exact (holds_setCall (by simp [hcall]) (by simp) h).mpr hh
    · refine ⟨.call c, ?_⟩
      rw [apply, if_neg hset]
      exact Function.update_self c _ _
  | enqueue c => exact ⟨.queue, rfl⟩
  | dequeue => exact ⟨.worker, rfl⟩
  | complete => cases hflag
  | finish =>
    obtain ⟨h, hh⟩ := hheld hflag
    refine ⟨h, ?_⟩
    cases h with
    | worker =>
      have hbody : s.worker = .body := hh
      have hdone : s.worker = .done := hm
      rw [hdone] at hbody
      cases hbody
    | queue | call => exact hh
  | cancel => exact absurd rfl hcancel

/-- Who does not call is not made to call. -/
theorem apply_none {c : C} (hnone : s.calls c = none) (hm : s.Enabled m)
    (hstart : ∀ n, m ≠ .start c n) :
  (s.apply m).calls c = none
  := by
  have hset {c' : C} {pc : Option Pc} (hne : c ≠ c') : (s.setCall c' pc).calls c = none := by
    rw [← hnone]
    exact Function.update_of_ne hne _ _
  have hother {c' : C} {pc : Pc} (hcall : s.calls c' = some pc) : c ≠ c' := by
    rintro rfl
    rw [hnone] at hcall
    cases hcall
  cases m with
  | start c' n => exact hset fun heq => hstart n (by rw [heq])
  | pass c' | giveUp c' => exact hset (hother hm.choose_spec)
  | claim c' =>
    by_cases hflag : s.flag = true
    · rw [apply, if_pos hflag]
      exact hset (hother hm)
    · rw [apply, if_neg hflag]
      exact hset (hother hm)
  | enqueue c' => exact hset (hother hm)
  | dequeue | complete | finish | cancel => exact hnone

/-- What is quiet stays quiet, unless a call passes its tests. -/
theorem apply_quiet (hs : s.Quiet) (hm : s.Enabled m) (harrives : ¬ s.Arrives m) :
  (s.apply m).Quiet
  := by
  have hset {c : C} {pc : Option Pc} (hnew : pc ≠ some .enqueue) (hzero : pc ≠ some (.tests 0)) :
      (s.setCall c pc).Quiet := by
    refine ⟨hs.queued, hs.worker, fun c' => ?_, fun c' hclaim => ?_⟩
    · change Function.update s.calls c pc c' ≠ _
      by_cases hc : c' = c
      · subst hc
        rwa [Function.update_self]
      · rw [Function.update_of_ne hc]
        exact hs.enqueue c'
    · have hclaim : Function.update s.calls c pc c' = _ := hclaim
      by_cases hc : c' = c
      · subst hc
        rw [Function.update_self] at hclaim
        exact absurd hclaim hzero
      · rw [Function.update_of_ne hc] at hclaim
        exact hs.claim c' hclaim
  cases m with
  | start c n =>
    refine hset (by simp) fun hzero => harrives ?_
    exact Pc.tests.inj (Option.some.inj hzero)
  | pass c =>
    obtain ⟨n, hcall⟩ := hm
    cases n with
    | zero => exact absurd hcall harrives
    | succ n =>
      have hpassed : passed (s.calls c) = some (.tests (n + 1)) := by rw [hcall, passed]
      change (s.setCall c (passed (s.calls c))).Quiet
      rw [hpassed]
      exact hset (by simp) (by simp)
  | giveUp c => exact hset (by simp) (by simp)
  | claim c =>
    rw [apply, if_pos (hs.claim c hm)]
    exact hset (by simp) (by simp)
  | enqueue c => exact absurd hm (hs.enqueue c)
  | dequeue =>
    have hqueued := hm.1
    rw [hs.queued] at hqueued
    cases hqueued
  | complete =>
    have hbody : s.worker = .body := hm
    rw [hs.worker] at hbody
    cases hbody
  | finish =>
    have hdone : s.worker = .done := hm
    rw [hs.worker] at hdone
    cases hdone
  | cancel => exact ⟨rfl, hs.worker, hs.enqueue, hs.claim⟩

/-- Taking the work away leaves everything quiet, unless a call is past its tests. -/
theorem cancel_quiet (hm : s.Enabled .cancel) :
  (s.apply .cancel).Quiet ↔ ¬ s.Straddles
  := by
  constructor
  · rintro hquiet ⟨c, hcall | ⟨hcall, hflag⟩⟩
    · exact hquiet.enqueue c hcall
    · have hset : s.flag = true := hquiet.claim c hcall
      rw [hflag] at hset
      cases hset
  · intro hno
    refine ⟨rfl, hm, fun c hcall => hno ⟨c, .inl hcall⟩, fun c hcall => ?_⟩
    rw [← Bool.not_eq_false]
    exact fun hflag => hno ⟨c, .inr ⟨hcall, hflag⟩⟩

end Flight

end SingleFlight
