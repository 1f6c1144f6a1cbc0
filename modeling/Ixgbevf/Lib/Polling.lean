import Mathlib.Data.Nat.Notation
import Mathlib.Logic.Function.Basic

/-!
# A server that polls its sources

A line calls a server when something arrives at one of its sources.  What arrives is latched; where
the line is open it is sent, which clears the latch and closes the line.  The server goes through
its sources in rounds, while the line is closed, and opens the line again after a round in which it
found no source with too much work.

The server hears of everything: a source with work that the current round does not come to is
behind a latch, or a call on its way, or a round to come.
-/

namespace Polling

variable {σ : Type}

/-- A round of a server. -/
structure Round (σ : Type) where
  /-- The sources that it has still to look at. -/
  left : List σ
  /-- Another round follows. -/
  again : Bool

/-- A server, with its line. -/
structure Server (σ : Type) where
  /-- Its sources. -/
  sources : List σ
  /-- A source has work. -/
  waiting : σ → Bool
  /-- Something has arrived. -/
  latched : Bool
  /-- The line is open. -/
  isOpen : Bool
  /-- A call is on its way. -/
  sent : Bool
  /-- The server is to run, or runs, or somebody keeps it from running. -/
  scheduled : Bool
  /-- It was called again in the meantime. -/
  missed : Bool
  /-- Somebody keeps it from running. -/
  off : Bool
  /-- The round that it is in. -/
  round : Option (Round σ)
  /-- How many of its rounds have ended and are to decide whether to open the line. -/
  deciding : ℕ
  /-- How many of them have decided to open it. -/
  opening : ℕ

/-- How a look at a source ends. -/
inductive Outcome where
  /-- The source has no more work. -/
  | empty
  /-- There may be more. -/
  | more
  /-- There may be more, and the round does not care. -/
  | abandoned
  deriving DecidableEq, Repr

/-- What happens to a server. -/
inductive Move (σ : Type) where
  /-- Something arrives at a source. -/
  | arrive (x : σ)
  /-- Something is latched for no source. -/
  | raise
  /-- The line sends a call. -/
  | send
  /-- The server is called. -/
  | answer
  /-- Somebody else calls it. -/
  | schedule
  /-- A round begins. -/
  | start
  /-- The round looks at its next source. -/
  | look (outcome : Outcome)
  /-- The round breaks off, and another one follows. -/
  | breakOff
  /-- The round ends. -/
  | finish
  /-- An ended round decides whether to open the line. -/
  | decide (opens : Bool)
  /-- It opens the line. -/
  | reopen
  /-- Somebody else takes the work of a source. -/
  | aside (x : σ)

namespace Server

/-- The server is called. -/
def schedule (s : Server σ) : Server σ :=
  if s.scheduled then { s with missed := true } else { s with scheduled := true }

/-- A look at the source `x`. -/
def look [DecidableEq σ] (x : σ) (r : Round σ) (s : Server σ) : Outcome → Server σ
  | .empty => { s with waiting := Function.update s.waiting x false, round := some r }
  | .more => { s with round := some { r with again := true } }
  | .abandoned => { s with round := some r }

/-- The end of a round after which the server is done, unless it was called in the meantime. -/
def complete (s : Server σ) : Server σ :=
  { s with
    round := none
    scheduled := s.missed
    missed := false
    deciding := s.deciding + 1 }

/-- When a move can happen. -/
def Enabled (s : Server σ) : Move σ → Prop
  | .arrive x => x ∈ s.sources
  | .raise => True
  | .send => s.latched = true ∧ s.isOpen = true
  | .answer => s.sent = true
  | .schedule => True
  | .start => s.scheduled = true ∧ s.off = false ∧ s.round = none
  | .look _ => ∃ r, s.round = some r ∧ r.left ≠ []
  | .breakOff => s.round.isSome
  | .finish => ∃ r, s.round = some r ∧ r.left = []
  | .decide _ => 0 < s.deciding
  | .reopen => 0 < s.opening
  | .aside _ => True

/-- What a move does.  A server without sources is not called. -/
def apply [DecidableEq σ] (s : Server σ) : Move σ → Server σ
  | .arrive x => { s with waiting := Function.update s.waiting x true, latched := true }
  | .raise => { s with latched := true }
  | .send => { s with latched := false, isOpen := false, sent := true }
  | .answer =>
    let s := { s with sent := false }
    if s.sources.isEmpty then s else s.schedule
  | .schedule => if s.sources.isEmpty then s else s.schedule
  | .start => { s with round := some { left := s.sources, again := false } }
  | .look outcome =>
    match s.round with
    | some { left := x :: left, again := again } => s.look x ⟨left, again⟩ outcome
    | _ => s
  | .breakOff => { s with round := none }
  | .finish =>
    match s.round with
    | some { left := _, again := true } => { s with round := none }
    | _ => s.complete
  | .decide opens =>
    { s with deciding := s.deciding - 1, opening := s.opening + if opens then 1 else 0 }
  | .reopen => { s with opening := s.opening - 1, isOpen := true }
  | .aside x => { s with waiting := Function.update s.waiting x false }

/-! ### Invariants -/

/-- A round belongs to a server that is scheduled and free to run. -/
structure Sane (s : Server σ) : Prop where
  round : s.round.isSome → s.scheduled = true ∧ s.off = false
  off : s.off = true → s.scheduled = true

/-- The line of an idle server is open, unless the server has no sources. -/
def Live (s : Server σ) : Prop :=
  s.sources.isEmpty = false → s.scheduled = false → s.sent = false → s.deciding = 0 →
    s.opening = 0 → s.isOpen = true

/-- The round comes to the source, or another round follows. -/
def Round.Sees (r : Round σ) (x : σ) : Prop := x ∈ r.left ∨ r.again = true

/-- The server hears of the work of its sources. -/
def Covered (s : Server σ) : Prop :=
  ∀ x ∈ s.sources, s.waiting x = true → s.latched = true ∨ s.sent = true
    ∨ s.scheduled = true ∧ (s.missed = true ∨ ∀ r ∈ s.round, Round.Sees r x)

/-- The server is going to run: it is scheduled, or it is called, or the line is open or about to be
opened. -/
def Attended (s : Server σ) : Prop :=
  s.scheduled = true ∨ s.sent = true
    ∨ s.latched = true ∧ (s.isOpen = true ∨ 0 < s.deciding ∨ 0 < s.opening)

variable {s : Server σ}

/-- A server that is called is scheduled, and keeps to its round. -/
theorem schedule_same (s : Server σ) :
  s.schedule.scheduled = true ∧ s.schedule.round = s.round ∧ s.schedule.off = s.off
    ∧ s.schedule.sources = s.sources ∧ s.schedule.waiting = s.waiting
  := by
  unfold schedule
  split
  · rename_i hsched
    exact ⟨hsched, rfl, rfl, rfl, rfl⟩
  · exact ⟨rfl, rfl, rfl, rfl, rfl⟩

/-- A server that is called is sane. -/
theorem Sane.schedule (h : s.Sane) :
  s.schedule.Sane
  := by
  obtain ⟨hsched, hround, hoff, -⟩ := s.schedule_same
  constructor
  · intro hsome
    rw [hround] at hsome
    exact ⟨hsched, hoff.trans (h.round hsome).2⟩
  · exact fun _ => hsched

/-- A server that is called hears of all work. -/
theorem Sane.schedule_covered (h : s.Sane) :
  s.schedule.Covered
  := by
  intro x _ _
  refine .inr (.inr ?_)
  unfold Server.schedule
  split
  · rename_i hsched
    exact ⟨hsched, .inl rfl⟩
  · rename_i hsched
    refine ⟨rfl, .inr fun r hr => ?_⟩
    exact absurd (h.round (Option.isSome_of_mem hr)).1 hsched

/-- A server that hears of all work still does when a source has less. -/
theorem Covered.less {waiting : σ → Bool} (h : s.Covered)
    (hless : ∀ x, waiting x = true → s.waiting x = true) :
  Covered { s with waiting := waiting }
  := fun x hx hwaiting => h x hx (hless x hwaiting)

/-- The server is done: what the round has not seen is behind the latch, or on its way, or the
server was called again. -/
theorem Covered.complete {r : Round σ} (h : s.Covered) (hr : s.round = some r) (hleft : r.left = [])
    (hagain : r.again = false) :
  s.complete.Covered
  := by
  intro y hy hwaiting
  rcases h y hy hwaiting with hlatched | hsent | ⟨-, hmissed | hsees⟩
  · exact .inl hlatched
  · exact .inr (.inl hsent)
  · refine .inr (.inr ⟨hmissed, .inr fun r hr' => ?_⟩)
    cases hr'
  · rcases hsees r hr with hmem | hmore
    · rw [hleft] at hmem
      cases hmem
    · rw [hagain] at hmore
      cases hmore

/-- Work that is heard of is attended to. -/
theorem Covered.attended {x : σ} (h : s.Covered) (hlive : s.Live) (hx : x ∈ s.sources)
    (hwaiting : s.waiting x = true) :
  s.Attended
  := by
  by_cases hsched : s.scheduled = true
  · exact .inl hsched
  by_cases hsent : s.sent = true
  · exact .inr (.inl hsent)
  rcases h x hx hwaiting with hlatched | hcall | ⟨hrun, -⟩
  · refine .inr (.inr ⟨hlatched, ?_⟩)
    by_contra hclosed
    rw [not_or, not_or, Nat.not_lt, Nat.not_lt] at hclosed
    obtain ⟨hnot, hdeciding, hopening⟩ := hclosed
    have hsources : s.sources.isEmpty = false := by
      cases hsources : s.sources with
      | nil =>
        rw [hsources] at hx
        cases hx
      | cons y ys => rfl
    exact hnot (hlive hsources (Bool.eq_false_iff.mpr hsched) (Bool.eq_false_iff.mpr hsent)
      (Nat.le_zero.mp hdeciding) (Nat.le_zero.mp hopening))
  · exact absurd hcall hsent
  · exact absurd hrun hsched

variable [DecidableEq σ]

/-- The sources of a server stay. -/
theorem apply_sources (s : Server σ) (m : Move σ) :
  (s.apply m).sources = s.sources
  := by
  cases m with
  | answer =>
    simp only [apply]
    split
    · rfl
    · exact (schedule_same _).2.2.2.1
  | schedule =>
    simp only [apply]
    split
    · rfl
    · exact (schedule_same _).2.2.2.1
  | look outcome =>
    simp only [apply]
    split
    · cases outcome <;> rfl
    · rfl
  | finish =>
    simp only [apply]
    split <;> rfl
  | _ => rfl

/-- Every move keeps a server sane. -/
theorem apply_sane {m : Move σ} (h : s.Sane) (hm : s.Enabled m) :
  (s.apply m).Sane
  := by
  cases m with
  | answer =>
    have hs : Sane { s with sent := false } := ⟨h.round, h.off⟩
    simp only [apply]
    split
    · exact hs
    · exact hs.schedule
  | schedule =>
    simp only [apply]
    split
    · exact h
    · exact h.schedule
  | start =>
    obtain ⟨hsched, hoff, -⟩ := hm
    exact ⟨fun _ => ⟨hsched, hoff⟩, h.off⟩
  | look outcome =>
    obtain ⟨r, hr, -⟩ := hm
    have hrun := h.round (Option.isSome_of_mem hr)
    simp only [apply]
    split
    · cases outcome <;> exact ⟨fun _ => hrun, h.off⟩
    · exact h
  | breakOff => exact ⟨fun hno => (by cases hno), h.off⟩
  | finish =>
    obtain ⟨r, hr, -⟩ := hm
    have hrun := h.round (Option.isSome_of_mem hr)
    simp only [apply]
    split
    · exact ⟨fun hno => (by cases hno), h.off⟩
    · refine ⟨fun hno => (by cases hno), fun hoff => ?_⟩
      rw [show s.complete.off = s.off from rfl, hrun.2] at hoff
      cases hoff
  | _ => exact ⟨h.round, h.off⟩

/-- Every move keeps the line of an idle server open, unless an ended round decides against it. -/
theorem apply_live {m : Move σ} (h : s.Live) (hdecide : m ≠ .decide false) :
  (s.apply m).Live
  := by
  cases m with
  | send => exact fun _ _ hsent => by cases hsent
  | answer =>
    simp only [apply]
    split
    · rename_i hempty
      exact fun hsources => by simp [hempty] at hsources
    · exact fun _ hno => by simp [(schedule_same _).1] at hno
  | schedule =>
    simp only [apply]
    split
    · exact h
    · exact fun _ hno => by simp [(schedule_same _).1] at hno
  | look outcome =>
    simp only [apply]
    split
    · cases outcome <;> exact h
    · exact h
  | finish =>
    simp only [apply]
    split
    · exact h
    · exact fun _ _ _ hzero => absurd hzero (Nat.succ_ne_zero _)
  | decide opens =>
    cases opens with
    | false => exact absurd rfl hdecide
    | true => exact fun _ _ _ _ hzero => absurd hzero (Nat.succ_ne_zero _)
  | reopen => exact fun _ _ _ _ _ => rfl
  | _ => exact h

/-- A source that is emptied has less. -/
theorem update_false {f : σ → Bool} {x y : σ} (h : Function.update f x false y = true) :
  y ≠ x ∧ f y = true
  := by
  by_cases hxy : y = x
  · rw [hxy, Function.update_self] at h
    cases h
  · rw [Function.update_of_ne hxy] at h
    exact ⟨hxy, h⟩

/-- A look at a source, unless the round abandons it. -/
theorem Covered.look {x : σ} {left : List σ} {again : Bool} {outcome : Outcome} (h : s.Covered)
    (hr : s.round = some ⟨x :: left, again⟩) (houtcome : outcome ≠ .abandoned) :
  (s.look x ⟨left, again⟩ outcome).Covered
  := by
  cases outcome with
  | empty =>
    intro y hy hwaiting
    obtain ⟨hne, hwaiting⟩ := update_false hwaiting
    rcases h y hy hwaiting with hlatched | hsent | ⟨hsched, hmissed | hsees⟩
    · exact .inl hlatched
    · exact .inr (.inl hsent)
    · exact .inr (.inr ⟨hsched, .inl hmissed⟩)
    · refine .inr (.inr ⟨hsched, .inr fun r hr' => ?_⟩)
      cases hr'
      rcases hsees _ hr with hleft | hagain
      · exact .inl ((List.mem_cons.mp hleft).resolve_left hne)
      · exact .inr hagain
  | more =>
    intro y hy hwaiting
    rcases h y hy hwaiting with hlatched | hsent | ⟨hsched, -⟩
    · exact .inl hlatched
    · exact .inr (.inl hsent)
    · refine .inr (.inr ⟨hsched, .inr fun r hr' => ?_⟩)
      cases hr'
      exact .inr rfl
  | abandoned => exact absurd rfl houtcome

/-- Every move keeps the work of the sources heard of, unless a round abandons a source. -/
theorem apply_covered {m : Move σ} (h : s.Covered) (hs : s.Sane) (hm : s.Enabled m)
    (hlook : m ≠ .look .abandoned) :
  (s.apply m).Covered
  := by
  cases m with
  | arrive x => exact fun _ _ _ => .inl rfl
  | raise => exact fun _ _ _ => .inl rfl
  | send => exact fun _ _ _ => .inr (.inl rfl)
  | answer =>
    have hs : Sane { s with sent := false } := ⟨hs.round, hs.off⟩
    simp only [apply]
    split
    · rename_i hempty
      intro x hx
      rw [List.isEmpty_iff.mp hempty] at hx
      cases hx
    · exact hs.schedule_covered
  | schedule =>
    simp only [apply]
    split
    · exact h
    · exact hs.schedule_covered
  | start =>
    intro x hx hwaiting
    refine .inr (.inr ⟨hm.1, .inr fun r hr => ?_⟩)
    cases hr
    exact .inl hx
  | look outcome =>
    have houtcome : outcome ≠ .abandoned := fun hout => hlook (by rw [hout])
    simp only [apply]
    split
    · rename_i x left again hr
      exact h.look hr houtcome
    · exact h
  | breakOff =>
    intro x hx hwaiting
    have hsched := (hs.round hm).1
    refine .inr (.inr ⟨hsched, .inr fun r hr => ?_⟩)
    cases hr
  | finish =>
    obtain ⟨⟨left, again⟩, hr, hleft⟩ := hm
    have hsched := (hs.round (Option.isSome_of_mem hr)).1
    simp only [apply, hr]
    cases again with
    | true =>
      intro x hx hwaiting
      refine .inr (.inr ⟨hsched, .inr fun r hr => ?_⟩)
      cases hr
    | false => exact h.complete hr hleft rfl
  | decide opens => exact h
  | reopen => exact h
  | aside x => exact h.less fun y hy => (update_false hy).2

end Server

end Polling
