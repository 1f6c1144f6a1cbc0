import Ixgbevf.Lib.Bits
import Ixgbevf.Lib.TryLock
import Mathlib.Logic.Function.Basic

/-!
# Who owns a vector

With busy polling a vector is polled by its NAPI context and by any number of sockets, and
`ixgbevf_napi_disable_all` waits until none of them owns it.  The owner, the marks of those who
were refused and the mark that the vector is disabled share one word, which every operation
reads and writes under a spinlock: the operations are atomic.
-/

namespace Ixgbevf.BusyPoll

/-! ### The word -/

/-- `IXGBEVF_QV_STATE_IDLE`. -/
def stateIdle : BitVec 32 := 0

/-- `IXGBEVF_QV_STATE_NAPI`. -/
def stateNapi : BitVec 32 := 1

/-- `IXGBEVF_QV_STATE_POLL`. -/
def statePoll : BitVec 32 := 2

/-- `IXGBEVF_QV_STATE_DISABLED`. -/
def stateDisabled : BitVec 32 := 4

/-- `IXGBEVF_QV_OWNED`. -/
def owned : BitVec 32 := stateNapi ||| statePoll

/-- `IXGBEVF_QV_LOCKED`. -/
def locked : BitVec 32 := owned ||| stateDisabled

/-- `IXGBEVF_QV_STATE_NAPI_YIELD`. -/
def stateNapiYield : BitVec 32 := 8

/-- `IXGBEVF_QV_STATE_POLL_YIELD`. -/
def statePollYield : BitVec 32 := 16

/-- `IXGBEVF_QV_USER_PEND`. -/
def userPend : BitVec 32 := statePoll ||| statePollYield

/-- What an operation returns, whether one of its `WARN_ON`s fires, and the word after it. -/
structure Outcome where
  /-- The value returned. -/
  rc : Bool
  /-- A `WARN_ON` fires. -/
  warn : Bool
  /-- The word after the operation. -/
  state : BitVec 32
  deriving DecidableEq, Repr

/-- `ixgbevf_qv_init_lock`. -/
def qvInitLock : Outcome := { rc := true, warn := false, state := stateIdle }

/-- `ixgbevf_qv_lock_napi`. -/
def qvLockNapi (state : BitVec 32) : Outcome :=
  if state &&& locked ≠ 0#32 then
    { rc := false, warn := state &&& stateNapi ≠ 0#32, state := state ||| stateNapiYield }
  else
    -- we don't care if someone yielded
    { rc := true, warn := false, state := stateNapi }

/-- `ixgbevf_qv_unlock_napi`. -/
def qvUnlockNapi (state : BitVec 32) : Outcome :=
  { rc := state &&& statePollYield ≠ 0#32,
    warn := state &&& (statePoll ||| stateNapiYield) ≠ 0#32,
    state := state &&& stateDisabled }

/-- `ixgbevf_qv_lock_poll`. -/
def qvLockPoll (state : BitVec 32) : Outcome :=
  if state &&& locked ≠ 0#32 then
    { rc := false, warn := false, state := state ||| statePollYield }
  else
    -- preserve yield marks
    { rc := true, warn := false, state := state ||| statePoll }

/-- `ixgbevf_qv_unlock_poll`. -/
def qvUnlockPoll (state : BitVec 32) : Outcome :=
  { rc := state &&& statePollYield ≠ 0#32,
    warn := state &&& stateNapi ≠ 0#32,
    state := state &&& stateDisabled }

/-- `ixgbevf_qv_disable`. -/
def qvDisable (state : BitVec 32) : Outcome :=
  { rc := state &&& owned = 0#32, warn := false, state := state ||| stateDisabled }

/-- `ixgbevf_qv_busy_polling`, which `ixgbevf_rx_skb` asks while it owns the vector. -/
def qvBusyPolling (state : BitVec 32) : Outcome :=
  { rc := state &&& userPend ≠ 0#32, warn := state &&& owned = 0#32, state := state }

/-! ### The contexts -/

/-- The contexts that poll a vector: its NAPI context, and busy-polling sockets. -/
inductive Context (P : Type) where
  | napi
  | poll (p : P)
  deriving DecidableEq, Repr

variable {P : Type} [DecidableEq P]

/-- A vector, with the contexts that own it. -/
structure QVector (P : Type) where
  /-- The word of the vector. -/
  state : BitVec 32
  /-- The context was told that it has the vector, and has not given it back. -/
  owns : Context P → Bool

/-- The operations on the lock of a vector. -/
inductive Op (P : Type) where
  | initLock
  | lockNapi
  | unlockNapi
  | lockPoll (p : P)
  | unlockPoll (p : P)
  | disable
  deriving DecidableEq, Repr

/-- What an operation does with the word of the vector. -/
def Op.run : Op P → BitVec 32 → Outcome
  | .initLock, _ => qvInitLock
  | .lockNapi, state => qvLockNapi state
  | .unlockNapi, state => qvUnlockNapi state
  | .lockPoll _, state => qvLockPoll state
  | .unlockPoll _, state => qvUnlockPoll state
  | .disable, state => qvDisable state

/-- Locking and unlocking are paired in every context, as in `ixgbevf_poll` and
`ixgbevf_busy_poll_recv`: a context locks a vector that it does not own, and unlocks it where
locking it had succeeded.  A vector is initialised when no context owns it. -/
def QVector.May (v : QVector P) : Op P → Prop
  | .initLock => ∀ c, v.owns c = false
  | .lockNapi => v.owns .napi = false
  | .unlockNapi => v.owns .napi = true
  | .lockPoll p => v.owns (.poll p) = false
  | .unlockPoll p => v.owns (.poll p) = true
  | .disable => True

/-- The contexts that own the vector after an operation that returned `rc`. -/
def Op.owners (owns : Context P → Bool) (rc : Bool) : Op P → Context P → Bool
  | .lockNapi => if rc then Function.update owns .napi true else owns
  | .unlockNapi => Function.update owns .napi false
  | .lockPoll p => if rc then Function.update owns (.poll p) true else owns
  | .unlockPoll p => Function.update owns (.poll p) false
  | .initLock | .disable => owns

/-- The vector after an operation. -/
def QVector.next (v : QVector P) (op : Op P) : QVector P :=
  { state := (op.run v.state).state, owns := op.owners v.owns (op.run v.state).rc }

/-- A vector from its initialisation on, with the operations of all contexts in any order. -/
def qVector (P : Type) [DecidableEq P] : TransSystem (QVector P) (Op P × Outcome) where
  init v := v = { state := qvInitLock.state, owns := fun _ => false }
  step v e v' := v.May e.1 ∧ e.2 = e.1.run v.state ∧ v' = v.next e.1

/-! ### The word as a lock that can be closed -/

/-- What an operation is for the lock. -/
def event : Op P × Outcome → TryLock.Event (Context P)
  | (.initLock, _) => .reopen
  | (.lockNapi, r) => .acquire .napi r.rc
  | (.unlockNapi, _) => .release .napi
  | (.lockPoll p, r) => .acquire (.poll p) r.rc
  | (.unlockPoll p, _) => .release (.poll p)
  | (.disable, r) => .close r.rc

/-- The word of a vector tells who owns the lock, and whether it is closed. -/
structure Tracks (v : QVector P) (l : TryLock (Context P)) : Prop where
  /-- The contexts know who owns the lock. -/
  owns : ∀ c, v.owns c = true ↔ l.owner = some c
  /-- The mark of the NAPI context. -/
  napi : v.state &&& stateNapi ≠ 0#32 ↔ l.owner = some .napi
  /-- The mark of the sockets. -/
  poll : v.state &&& statePoll ≠ 0#32 ↔ ∃ p, l.owner = some (.poll p)
  /-- The mark of a closed lock. -/
  disabled : v.state &&& stateDisabled ≠ 0#32 ↔ l.closed = true
  /-- The NAPI context has not been refused while it owns the lock. -/
  napiYield : l.owner = some .napi → v.state &&& stateNapiYield = 0#32

variable {v : QVector P} {l : TryLock (Context P)}

/-- The owner of a lock is its NAPI context or a socket. -/
theorem owner_cases (o : Option (Context P)) :
  o = none ∨ o = some .napi ∨ ∃ p, o = some (.poll p)
  := by
  match o with
  | none => exact Or.inl rfl
  | some .napi => exact Or.inr (Or.inl rfl)
  | some (.poll p) => exact Or.inr (Or.inr ⟨p, rfl⟩)

/-- The word has a mark of an owner when the lock has one. -/
theorem Tracks.owned_iff (h : Tracks v l) :
  v.state &&& owned ≠ 0#32 ↔ l.owner ≠ none
  := by
  rw [owned, Bits.and_or_ne_zero, h.napi, h.poll]
  obtain ho | ho | ⟨p, ho⟩ := owner_cases l.owner <;> simp [ho]

/-- The test of the word before it is locked. -/
theorem Tracks.locked_iff (h : Tracks v l) :
  v.state &&& locked ≠ 0#32 ↔ l.free = false
  := by
  rw [locked, Bits.and_or_ne_zero, h.owned_iff, h.disabled]
  cases ho : l.owner <;> simp [TryLock.free, ho]

/-- A mark of somebody who was refused changes nothing for the lock. -/
theorem Tracks.mark (h : Tracks v l) {m : BitVec 32} (hm : m &&& locked = 0#32)
    (hy : l.owner = some .napi → m &&& stateNapiYield = 0#32) :
  Tracks { v with state := v.state ||| m } l
  := by
  have hkeep : ∀ {b : BitVec 32}, locked &&& b = b →
      ((v.state ||| m) &&& b ≠ 0#32 ↔ v.state &&& b ≠ 0#32) := by
    intro b hb
    rw [Bits.or_and_ne_zero, Bits.and_eq_zero_of_mask hm hb]
    simp
  constructor
  · exact h.owns
  · exact (hkeep (by decide)).trans h.napi
  · exact (hkeep (by decide)).trans h.poll
  · exact (hkeep (by decide)).trans h.disabled
  · intro ho
    exact Bits.or_and_eq_zero (h.napiYield ho) (hy ho)

/-- The contexts know who owns a lock after one of them took it. -/
theorem Tracks.owns_take (h : Tracks v l) (hn : l.owner = none) (c c' : Context P) :
  Function.update v.owns c true c' = true ↔ some c = some c'
  := by
  have hc' := h.owns c'
  rw [hn] at hc'
  by_cases he : c' = c
  · simp [he]
  · simp [Function.update_of_ne he, hc', Ne.symm he]

/-- A free lock has neither an owner nor been closed. -/
theorem owner_of_free (hf : l.free = true) :
  l.owner = none ∧ l.closed = false
  := by
  simpa [TryLock.free] using hf

/-- The NAPI context takes the vector. -/
theorem Tracks.takeNapi (h : Tracks v l) (hf : l.free = true) :
  Tracks { state := stateNapi, owns := Function.update v.owns .napi true }
    { l with owner := some .napi }
  := by
  obtain ⟨hn, hc⟩ := owner_of_free hf
  constructor
  · apply h.owns_take hn
  · simp [stateNapi]
  · simp [stateNapi, statePoll]
  · simp [stateNapi, stateDisabled, hc]
  · simp [stateNapi, stateNapiYield]

/-- A socket takes the vector. -/
theorem Tracks.takePoll (h : Tracks v l) (hf : l.free = true) (p : P) :
  Tracks { state := v.state ||| statePoll, owns := Function.update v.owns (.poll p) true }
    { l with owner := some (.poll p) }
  := by
  obtain ⟨hn, hc⟩ := owner_of_free hf
  have hnapi := h.napi
  have hdisabled := h.disabled
  rw [hn] at hnapi
  constructor
  · apply h.owns_take hn
  · rw [Bits.or_and_ne_zero, hnapi]
    simp [stateNapi, statePoll]
  · rw [Bits.or_and_ne_zero]
    simp [statePoll]
  · rw [Bits.or_and_ne_zero, hdisabled]
    simp [stateDisabled, statePoll]
  · simp

/-- The owner gives the vector back. -/
theorem Tracks.release (h : Tracks v l) {c : Context P} (ho : l.owner = some c) :
  Tracks { state := v.state &&& stateDisabled, owns := Function.update v.owns c false }
    { l with owner := none }
  := by
  constructor
  · intro c'
    have hc' := h.owns c'
    rw [ho] at hc'
    by_cases he : c' = c
    · simp [he]
    · simp [Function.update_of_ne he]
      grind
  · simp [BitVec.and_assoc, stateDisabled, stateNapi]
  · simp [BitVec.and_assoc, stateDisabled, statePoll]
  · rw [BitVec.and_assoc, BitVec.and_self]
    exact h.disabled
  · simp

/-- The vector is disabled. -/
theorem Tracks.close (h : Tracks v l) :
  Tracks { v with state := v.state ||| stateDisabled } { l with closed := true }
  := by
  constructor
  · exact h.owns
  · rw [Bits.or_and_ne_zero, h.napi]
    simp [stateDisabled, stateNapi]
  · rw [Bits.or_and_ne_zero, h.poll]
    simp [stateDisabled, statePoll]
  · rw [Bits.or_and_ne_zero]
    simp [stateDisabled]
  · intro ho
    exact Bits.or_and_eq_zero (h.napiYield ho) (by decide)

/-- What locking finds out is whether the lock is free. -/
theorem Tracks.lockNapi_rc (h : Tracks v l) :
  (qvLockNapi v.state).rc = l.free
  := by
  have hl := h.locked_iff
  by_cases hf : l.free = true
  · simp [qvLockNapi, hl, hf]
  · rw [Bool.not_eq_true] at hf
    simp [qvLockNapi, hl, hf]

/-- What locking finds out is whether the lock is free. -/
theorem Tracks.lockPoll_rc (h : Tracks v l) :
  (qvLockPoll v.state).rc = l.free
  := by
  have hl := h.locked_iff
  by_cases hf : l.free = true
  · simp [qvLockPoll, hl, hf]
  · rw [Bool.not_eq_true] at hf
    simp [qvLockPoll, hl, hf]

/-- The NAPI context locks a vector that it does not own. -/
theorem Tracks.lockNapi (h : Tracks v l) (hm : v.May .lockNapi) :
  ∃ l', l.Step (.acquire .napi (qvLockNapi v.state).rc) l' ∧ Tracks (v.next .lockNapi) l'
  := by
  use if l.free then { l with owner := some .napi } else l
  rw [h.lockNapi_rc]
  use ⟨rfl, rfl⟩
  have hl := h.locked_iff
  by_cases hf : l.free = true
  · have hn : ¬ v.state &&& locked ≠ 0#32 := by simp [hl, hf]
    simpa [QVector.next, Op.run, Op.owners, qvLockNapi, if_neg hn, hf] using h.takeNapi hf
  · rw [Bool.not_eq_true] at hf
    have hn : v.state &&& locked ≠ 0#32 := hl.mpr hf
    have hfree : l.owner ≠ some .napi := by
      rw [Ne, ← h.owns, Bool.not_eq_true]
      exact hm
    simpa [QVector.next, Op.run, Op.owners, qvLockNapi, if_pos hn, hf] using
      h.mark (m := stateNapiYield) (by decide) (fun ho => absurd ho hfree)

/-- A socket locks a vector. -/
theorem Tracks.lockPoll (h : Tracks v l) (p : P) :
  ∃ l', l.Step (.acquire (.poll p) (qvLockPoll v.state).rc) l' ∧ Tracks (v.next (.lockPoll p)) l'
  := by
  use if l.free then { l with owner := some (.poll p) } else l
  rw [h.lockPoll_rc]
  use ⟨rfl, rfl⟩
  have hl := h.locked_iff
  by_cases hf : l.free = true
  · have hn : ¬ v.state &&& locked ≠ 0#32 := by simp [hl, hf]
    simpa [QVector.next, Op.run, Op.owners, qvLockPoll, if_neg hn, hf] using h.takePoll hf p
  · rw [Bool.not_eq_true] at hf
    have hn : v.state &&& locked ≠ 0#32 := hl.mpr hf
    simpa [QVector.next, Op.run, Op.owners, qvLockPoll, if_pos hn, hf] using
      h.mark (m := statePollYield) (by decide) (fun _ => by decide)

/-- Disabling a vector tells whether somebody owns it. -/
theorem Tracks.disable_rc (h : Tracks v l) :
  (qvDisable v.state).rc = l.owner.isNone
  := by
  have ho := h.owned_iff
  simp only [qvDisable]
  cases hn : l.owner with
  | none => simpa [hn] using ho
  | some c => simpa [hn] using ho

/-- Every operation does with the word what its event does with the lock. -/
theorem simulates :
  (qVector P).Simulates (TryLock.system (Context P)) TransSystem.always Tracks event
  := by
  constructor
  · rintro v rfl
    use TryLock.open_, rfl
    constructor <;> simp [TryLock.open_, qvInitLock, stateIdle]
  · rintro v ⟨op, r⟩ v' l h - ⟨hm, hr, rfl⟩
    dsimp only at hm hr
    subst hr
    cases op with
    | initLock =>
      have hn : l.owner = none := by
        rw [Option.eq_none_iff_forall_ne_some]
        intro c ho
        have hc := hm c
        rw [(h.owns c).mpr ho] at hc
        cases hc
      use TryLock.open_, ⟨hn, rfl⟩
      have hno : ∀ c, v.owns c = false := hm
      constructor <;> simp [TryLock.open_, QVector.next, Op.run, Op.owners, qvInitLock, stateIdle, hno]
    | lockNapi => exact h.lockNapi hm
    | unlockNapi =>
      have ho := (h.owns _).mp hm
      exact ⟨_, ⟨ho, rfl⟩, h.release ho⟩
    | lockPoll p => exact h.lockPoll p
    | unlockPoll p =>
      have ho := (h.owns _).mp hm
      exact ⟨_, ⟨ho, rfl⟩, h.release ho⟩
    | disable => exact ⟨_, ⟨h.disable_rc, rfl⟩, h.close⟩

/-- No operation that the contexts may call warns. -/
theorem Tracks.not_warn (h : Tracks v l) {op : Op P} (hm : v.May op) :
  (op.run v.state).warn = false
  := by
  cases op with
  | initLock => rfl
  | lockNapi =>
    have hn : ¬ v.state &&& stateNapi ≠ 0#32 := by
      rw [h.napi, ← h.owns, Bool.not_eq_true]
      exact hm
    by_cases hl : v.state &&& locked ≠ 0#32
    · simpa [Op.run, qvLockNapi, if_pos hl] using hn
    · simp [Op.run, qvLockNapi, if_neg hl]
  | unlockNapi =>
    have ho := (h.owns _).mp hm
    have hp : ¬ v.state &&& statePoll ≠ 0#32 := by
      rw [h.poll, ho]
      simp
    have hy := h.napiYield ho
    have hboth : ¬ v.state &&& (statePoll ||| stateNapiYield) ≠ 0#32 := by
      rw [Bits.and_or_ne_zero]
      simp_all
    simpa [Op.run, qvUnlockNapi] using hboth
  | lockPoll p =>
    simp only [Op.run, qvLockPoll]
    split <;> rfl
  | unlockPoll p =>
    have ho := (h.owns _).mp hm
    have hn : ¬ v.state &&& stateNapi ≠ 0#32 := by
      rw [h.napi, ho]
      simp
    simpa [Op.run, qvUnlockPoll] using hn
  | disable => rfl

/-- The owner of a vector may ask who polls it. -/
theorem Tracks.busyPolling_not_warn (h : Tracks v l) {c : Context P} (hc : v.owns c = true) :
  (qvBusyPolling v.state).warn = false
  := by
  have ho := h.owned_iff
  rw [(h.owns c).mp hc] at ho
  simpa [qvBusyPolling] using ho

/-! ### Every run -/

/-- An operation that may be called goes on with a run. -/
theorem reachable_next (h : (qVector P).Reachable TransSystem.always v) (op : Op P)
    (hm : v.May op) :
  (qVector P).Reachable TransSystem.always (v.next op)
  := TransSystem.Reachable.step (e := (op, op.run v.state)) h trivial ⟨hm, rfl, rfl⟩

/-- A vector that was disabled while nobody owned it is owned by nobody, and refused to
everybody, until it is initialised again. -/
theorem Tracks.shut (h : Tracks v l) (hr : (qvDisable v.state).rc = true) {v' : QVector P}
    {es : List (Op P × Outcome)}
    (hp : (qVector P).Path TransSystem.always (v.next .disable) es v')
    (hes : ∀ e ∈ es, e.1 ≠ .initLock) :
  (∀ c, v'.owns c = false) ∧ (qvLockNapi v'.state).rc = false ∧ (qvLockPoll v'.state).rc = false
  := by
  have hd : (qVector P).step v (.disable, qvDisable v.state) (v.next .disable) := ⟨trivial, rfl, rfl⟩
  obtain ⟨l₁, hclose, h₁⟩ := simulates.step _ _ _ _ h trivial hd
  obtain ⟨l', hpath, h'⟩ := simulates.path hp h₁
  have hstays : ∀ e ∈ es.map event, TryLock.Event.Stays e := by
    simp only [List.forall_mem_map]
    rintro ⟨op, r⟩ he
    have hne := hes _ he
    cases op with
    | initLock => exact absurd rfl hne
    | _ => trivial
  have hshut : l₁.Shut := by
    apply TryLock.Step.shut_of_close (l := l)
    rw [← hr]
    exact hclose
  have hshut' := hshut.path hpath hstays
  refine ⟨?_, ?_, ?_⟩
  · intro c
    rw [Bool.eq_false_iff, Ne, h'.owns, hshut'.owner]
    simp
  · rw [h'.lockNapi_rc, hshut'.not_free]
  · rw [h'.lockPoll_rc, hshut'.not_free]

/-- Of any number of contexts that lock, unlock and disable a vector in any order at most one
owns it, no `WARN_ON` fires, and after a disabling that returned true nobody owns the vector or
can lock it until it is initialised again. -/
theorem exclusive_ownership (h : (qVector P).Reachable TransSystem.always v) :
  (∀ c c', v.owns c = true → v.owns c' = true → c = c') ∧
  (∀ op, v.May op → (op.run v.state).warn = false) ∧
  ((qvDisable v.state).rc = true → ∀ es v',
    (qVector P).Path TransSystem.always (v.next .disable) es v' →
    (∀ e ∈ es, e.1 ≠ .initLock) →
    (∀ c, v'.owns c = false) ∧
      (qvLockNapi v'.state).rc = false ∧ (qvLockPoll v'.state).rc = false)
  := by
  obtain ⟨l, -, hl⟩ := simulates.reachable h
  refine ⟨?_, ?_, ?_⟩
  · intro c c' hc hc'
    rw [hl.owns] at hc hc'
    exact Option.some.inj (hc.symm.trans hc')
  · intro op hm
    exact hl.not_warn hm
  · intro hr es v' hp hes
    exact hl.shut hr hp hes

/-- A socket has the vector, the NAPI context and another socket are refused and the vector is
disabled; the socket gives it back. -/
theorem exclusive_ownership_refused :
  ∃ v : QVector ℕ, v.state = stateDisabled ∧
    (∀ c c', v.owns c = true → v.owns c' = true → c = c') ∧
    (∀ op, v.May op → (op.run v.state).warn = false) ∧
    ((qvDisable v.state).rc = true → ∀ es v',
      (qVector ℕ).Path TransSystem.always (v.next .disable) es v' →
      (∀ e ∈ es, e.1 ≠ .initLock) →
      (∀ c, v'.owns c = false) ∧
        (qvLockNapi v'.state).rc = false ∧ (qvLockPoll v'.state).rc = false)
  := by
  have h₀ := reachable_next (P := ℕ) (TransSystem.Reachable.init rfl) (.lockPoll 0) rfl
  have h₁ := reachable_next h₀ .lockNapi rfl
  have h₂ := reachable_next h₁ (.lockPoll 1) rfl
  have h₃ := reachable_next h₂ .disable trivial
  have h₄ := reachable_next h₃ (.unlockPoll 0) rfl
  exact ⟨_, by decide, exclusive_ownership h₄⟩

end Ixgbevf.BusyPoll
