import Ixgbevf.Lib.Run

/-!
# A try-lock that can be closed

Contexts try to take a lock and are refused while another one owns it or while it is closed.
Closing it does not take it away from its owner, but tells whether it had one.  A lock that was
closed without an owner stays without one until it is opened again.
-/

/-- The owner of a lock, and whether it is closed. -/
structure TryLock (C : Type) where
  /-- The context that owns the lock. -/
  owner : Option C
  /-- The lock is closed. -/
  closed : Bool

namespace TryLock

variable {C : Type}

/-- What happens to a lock, with the answer given. -/
inductive Event (C : Type) where
  /-- a context tries to take the lock -/
  | acquire (c : C) (ok : Bool)
  /-- the owner gives the lock back -/
  | release (c : C)
  /-- the lock is closed; the answer says that it has no owner -/
  | close (ok : Bool)
  /-- the lock is opened again -/
  | reopen

/-- A lock that nobody owns and that is open. -/
def open_ : TryLock C := { owner := none, closed := false }

/-- The lock can be taken. -/
def free (l : TryLock C) : Bool := l.owner.isNone && !l.closed

/-- What an event finds and leaves. -/
def Step (l : TryLock C) : Event C → TryLock C → Prop
  | .acquire c ok, l' => ok = l.free ∧ l' = if ok then { l with owner := some c } else l
  | .release c, l' => l.owner = some c ∧ l' = { l with owner := none }
  | .close ok, l' => ok = l.owner.isNone ∧ l' = { l with closed := true }
  | .reopen, l' => l.owner = none ∧ l' = open_

/-- The lock from the moment on when it is open for the first time. -/
def system (C : Type) : TransSystem (TryLock C) (Event C) where
  init l := l = open_
  step := Step

/-- Nobody owns the lock, and nobody can take it. -/
structure Shut (l : TryLock C) : Prop where
  /-- Nobody owns the lock. -/
  owner : l.owner = none
  /-- The lock is closed. -/
  closed : l.closed = true

/-- The event does not open the lock. -/
def Event.Stays : Event C → Prop
  | .reopen => False
  | _ => True

variable {l l' : TryLock C} {e : Event C}

/-- A lock that is shut is not taken. -/
theorem Shut.not_free (h : l.Shut) :
  l.free = false
  := by
  simp [free, h.closed]

/-- A lock that is closed without an owner is shut. -/
theorem Step.shut_of_close (h : l.Step (.close true) l') :
  l'.Shut
  := by
  obtain ⟨hok, rfl⟩ := h
  exact ⟨Option.isNone_iff_eq_none.mp hok.symm, rfl⟩

/-- A lock that is shut stays so until it is opened. -/
theorem Shut.step (h : l.Shut) (hs : l.Step e l') (he : e.Stays) :
  l'.Shut
  := by
  cases e with
  | acquire c ok =>
    obtain ⟨rfl, rfl⟩ := hs
    rw [h.not_free]
    exact h
  | release c =>
    obtain ⟨ho, -⟩ := hs
    rw [h.owner] at ho
    cases ho
  | close ok =>
    obtain ⟨-, rfl⟩ := hs
    exact ⟨h.owner, rfl⟩
  | reopen => cases he

/-- A lock that is shut stays so along every run that does not open it. -/
theorem Shut.path {es : List (Event C)} {G : TryLock C → Event C → Prop} (h : l.Shut)
    (hp : (system C).Path G l es l') (hes : ∀ e ∈ es, e.Stays) :
  l'.Shut
  := by
  induction hp with
  | nil => exact h
  | cons _ hs _ ih =>
    simp only [List.forall_mem_cons] at hes
    apply ih (h.step hs hes.1) hes.2

end TryLock
