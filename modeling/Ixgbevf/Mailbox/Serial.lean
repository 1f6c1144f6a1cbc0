import Ixgbevf.Lib.Run
import Ixgbevf.Mailbox.Entries

/-!
# The mailbox among the contexts of the driver

Contexts of the kernel run entry points side by side and share one mailbox.  Requests are
numbered in the order they are written, and a reply has the number of the request it
answers.  `reachable_serialised` says that transactions do not overlap and every reply goes
to its own request in every run in which the three call sites without `mbx_lock` keep apart
from the other transactions.
-/

namespace Ixgbevf.Mailbox

/-! ### The system -/

/-- A transaction: the context that wrote the request, the call site, and the number of the
request. -/
structure Txn where
  ctx : ℕ
  site : Site
  tag : ℕ
deriving DecidableEq, Repr

/-- What the mailbox holds that its reader has not taken. -/
inductive Slot where
  | empty
  | request (tag : ℕ)
  | reply (tag : ℕ)
  /-- a message of the PF that answers no request -/
  | control
deriving DecidableEq, Repr

/-- The contexts and the mailbox. -/
structure Sys where
  /-- The contexts, and the holders of the locks. -/
  threads : Threads ℕ Lock Act
  /-- The requests that have been written and whose reply is waited for. -/
  pending : List Txn
  /-- The mailbox. -/
  slot : Slot
  /-- The request the PF works on. -/
  pf : Option ℕ
  /-- The number of requests written so far. -/
  sent : ℕ
  /-- The replies that were read: the number of the reader's request, and of the request that
  is answered. -/
  answered : List (ℕ × ℕ)

namespace Sys

/-- What happens. -/
inductive Event where
  /-- a context enters the driver, and the branches it is going to take -/
  | enter (ctx : ℕ) (entry : Entry) (choices : List ℕ)
  | acquire (ctx : ℕ) (lock : Lock)
  | release (ctx : ℕ) (lock : Lock)
  /-- the request is written -/
  | write (ctx : ℕ) (site : Site)
  /-- the request cannot be written, and there is no poll -/
  | fail (ctx : ℕ) (site : Site)
  /-- the poll finds a message and reads it -/
  | poll (txn : Txn)
  /-- the poll times out -/
  | giveUp (txn : Txn)
  /-- a lone read, that takes a message away or not -/
  | read (ctx : ℕ) (taken : Bool)
  /-- the PF takes a request -/
  | pfTake (tag : ℕ)
  /-- the PF replies to the request it works on -/
  | pfReply (tag : ℕ)
  /-- the PF sends a message of its own accord -/
  | pfControl
deriving DecidableEq, Repr

/-- The next operation of a context. -/
def nextOp (s : Sys) (ctx : ℕ) : Option (Op Lock Act) := (s.threads.left ctx).head?

/-- A message of the PF is in the mailbox. -/
def Slot.isMessage : Slot → Bool
  | .reply _ | .control => true
  | _ => false

/-- When an event may happen.  A context that waits for a reply does nothing else. -/
def May (s : Sys) : Event → Prop
  | .enter ctx _ _ => s.threads.left ctx = []
  | .acquire ctx l => s.nextOp ctx = some (.acquire l) ∧ s.threads.holder l = none
  | .release ctx l => s.nextOp ctx = some (.release l)
  | .write ctx site | .fail ctx site =>
    s.nextOp ctx = some (.act (.transact site)) ∧ ∀ x ∈ s.pending, x.ctx ≠ ctx
  | .poll txn => txn ∈ s.pending ∧ Slot.isMessage s.slot
  | .giveUp txn => txn ∈ s.pending
  | .read ctx _ => s.nextOp ctx = some (.act .read)
  | .pfTake tag => s.slot = .request tag ∧ s.pf = none
  | .pfReply tag => s.pf = some tag
  | .pfControl => True

instance (s : Sys) (e : Event) : Decidable (s.May e) := by
  cases e <;> unfold May <;> infer_instance

/-- The replies read, with one more when the mailbox holds a reply. -/
def record (txn : Txn) : Slot → List (ℕ × ℕ) → List (ℕ × ℕ)
  | .reply tag, answered => answered ++ [(txn.tag, tag)]
  | _, answered => answered

/-- A transaction is over: its context goes on. -/
def finish (s : Sys) (txn : Txn) : Sys :=
  { s with pending := s.pending.erase txn, threads := s.threads.advance txn.ctx }

/-- The state after an event. -/
def next (s : Sys) : Event → Sys
  | .enter ctx entry choices => { s with threads := s.threads.start ctx (entry.code.run choices).1 }
  | .acquire ctx l => { s with threads := s.threads.acquire ctx l }
  | .release ctx l => { s with threads := s.threads.release ctx l }
  | .write ctx site =>
    { s with
      pending := ⟨ctx, site, s.sent⟩ :: s.pending
      slot := .request s.sent
      sent := s.sent + 1 }
  | .fail ctx _ => { s with threads := s.threads.advance ctx }
  | .poll txn => { s.finish txn with slot := .empty, answered := record txn s.slot s.answered }
  | .giveUp txn => s.finish txn
  | .read ctx taken =>
    { s with
      threads := s.threads.advance ctx
      slot := if taken ∧ Slot.isMessage s.slot then .empty else s.slot }
  | .pfTake tag => { s with slot := .empty, pf := some tag }
  | .pfReply tag => { s with slot := .reply tag, pf := none }
  | .pfControl => { s with slot := .control }

/-- Nothing runs, and nothing has been sent. -/
def start : Sys where
  threads := Threads.idle
  pending := []
  slot := .empty
  pf := none
  sent := 0
  answered := []

/-- The runs of the contexts and of the PF. -/
def system : TransSystem Sys Event where
  init s := s = start
  step s e s' := s.May e ∧ s' = s.next e

/-! ### The claim's property, and the condition -/

/-- No transaction has started before the one before it was over, and every reply that was
read answers its reader's request. -/
def Serialised (s : Sys) : Prop :=
  s.pending.length ≤ 1 ∧ ∀ r ∈ s.answered, r.2 = r.1

instance (s : Sys) : Decidable s.Serialised := by
  unfold Serialised
  infer_instance

/-- A request is written only when the PF has replied to those it took, and, at a call site
without `mbx_lock` or while a transaction of such a call site is pending, only when nothing
is pending. -/
def Apart (s : Sys) : Event → Prop
  | .write _ site => s.pf = none ∧ ∀ x ∈ s.pending, ¬ site.unlocked ∧ ¬ x.site.unlocked
  | _ => True

instance (s : Sys) (e : Event) : Decidable (s.Apart e) := by
  cases e <;> unfold Apart <;> infer_instance

/-! ### What is kept -/

/-- The request `tag` is in the mailbox or with the PF, or its reply is in the mailbox. -/
def Concerns (s : Sys) (tag : ℕ) : Prop :=
  s.slot = .request tag ∨ s.slot = .reply tag ∨ s.pf = some tag

/-- What holds in every state that is reached under the condition. -/
structure Inv (s : Sys) : Prop where
  lawful : s.threads.Lawful Act.needs
  /-- A context waits for a reply at the call site it has written at. -/
  waits : ∀ x ∈ s.pending, s.nextOp x.ctx = some (.act (.transact x.site))
  serialised : s.Serialised
  /-- The mailbox and the PF have to do with the pending request only. -/
  own : ∀ x ∈ s.pending, ∀ tag, s.Concerns tag → tag = x.tag

theorem inv_start : Inv start where
  lawful := Threads.lawful_idle
  waits := by simp [start]
  serialised := by simp [Serialised, start]
  own := by simp [start]

/-- A list of at most one element loses its only one. -/
theorem erase_eq_nil {α : Type} [DecidableEq α] {xs : List α} {x : α} (h : xs.length ≤ 1)
    (hx : x ∈ xs) :
  xs.erase x = []
  := by
  have hlen := List.length_erase_of_mem hx
  apply List.eq_nil_of_length_eq_zero
  omega

/-- A context at work on something else than a transaction goes on, and the waiting contexts
stay where they are. -/
theorem Inv.threads {s : Sys} (h : Inv s) {threads : Threads ℕ Lock Act}
    (hlawful : threads.Lawful Act.needs)
    (hleft : ∀ x ∈ s.pending, threads.left x.ctx = s.threads.left x.ctx) :
  Inv { s with threads := threads }
  where
  lawful := hlawful
  waits x hx := by
    have hwaits := h.waits x hx
    rw [nextOp] at hwaits ⊢
    rw [hleft x hx]
    exact hwaits
  serialised := h.serialised
  own := h.own

/-- The context that does something else than a transaction is not waiting. -/
theorem Inv.ctx_ne {s : Sys} (h : Inv s) {ctx : ℕ} {op : Option (Op Lock Act)}
    (hctx : s.nextOp ctx = op) (hop : ∀ site, op ≠ some (.act (.transact site)))
    {x : Txn} (hx : x ∈ s.pending) :
  x.ctx ≠ ctx
  := by
  intro heq
  have hwaits := h.waits x hx
  rw [heq, hctx] at hwaits
  exact hop _ hwaits

/-- The mailbox changes, and still has to do with the pending request only. -/
theorem Inv.mailbox {s : Sys} (h : Inv s) {slot : Slot} {pf : Option ℕ}
    (hmail : ∀ tag, slot = .request tag ∨ slot = .reply tag ∨ pf = some tag → s.Concerns tag) :
  Inv { s with slot := slot, pf := pf }
  where
  lawful := h.lawful
  waits := h.waits
  serialised := h.serialised
  own x hx tag htag := h.own x hx tag (hmail tag htag)

/-- Under the condition nothing is pending when a request is written. -/
theorem Inv.nothing_pending {s : Sys} (h : Inv s) {ctx : ℕ} {site : Site}
    (hctx : s.nextOp ctx = some (.act (.transact site))) (hother : ∀ x ∈ s.pending, x.ctx ≠ ctx)
    (hapart : ∀ x ∈ s.pending, ¬ site.unlocked ∧ ¬ x.site.unlocked) :
  s.pending = []
  := by
  rw [List.eq_nil_iff_forall_not_mem]
  intro x hx
  -- both sites are under `mbx_lock`, which has one holder
  obtain ⟨hsite, hxsite⟩ := hapart x hx
  have hneeds : (Act.transact site).needs = some .mbx := by simp [Act.needs, hsite]
  have hxneeds : (Act.transact x.site).needs = some .mbx := by simp [Act.needs, hxsite]
  apply hother x hx
  apply h.lawful.exclusive (h.waits x hx) hxneeds hctx hneeds

/-- A write keeps the invariant when nothing is pending and the PF has replied to what it
took. -/
theorem Inv.write {s : Sys} (h : Inv s) {ctx : ℕ} {site : Site}
    (hctx : s.nextOp ctx = some (.act (.transact site))) (hnone : s.pending = [])
    (hpf : s.pf = none) :
  Inv (s.next (.write ctx site))
  where
  lawful := h.lawful
  waits x hx := by
    simp only [next, hnone, List.mem_singleton] at hx
    subst hx
    exact hctx
  serialised := ⟨by simp [next, hnone], h.serialised.2⟩
  own x hx tag htag := by
    simp only [next, hnone, List.mem_singleton] at hx
    subst hx
    simpa [Concerns, next, hpf, eq_comm] using htag

/-- The end of the pending transaction keeps the invariant. -/
theorem Inv.finish {s : Sys} (h : Inv s) {txn : Txn} (htxn : txn ∈ s.pending) {slot : Slot}
    {answered : List (ℕ × ℕ)} (hanswered : ∀ r ∈ answered, r.2 = r.1) :
  Inv { s.finish txn with slot := slot, answered := answered }
  where
  lawful := h.lawful.advance (h.waits txn htxn)
  waits := by simp [Sys.finish, erase_eq_nil h.serialised.1 htxn]
  serialised := by simpa [Serialised, Sys.finish, erase_eq_nil h.serialised.1 htxn] using hanswered
  own := by simp [Sys.finish, erase_eq_nil h.serialised.1 htxn]

/-- The reply that is read answers the reader's request. -/
theorem Inv.record {s : Sys} (h : Inv s) {txn : Txn} (htxn : txn ∈ s.pending) :
  ∀ r ∈ record txn s.slot s.answered, r.2 = r.1
  := by
  intro r hr
  cases hslot : s.slot with
  | reply tag =>
    rw [hslot, Sys.record, List.mem_append, List.mem_singleton] at hr
    obtain hr | rfl := hr
    · exact h.serialised.2 r hr
    · exact h.own txn htxn tag (.inr (.inl hslot))
  | empty | request _ | control =>
    rw [hslot] at hr
    exact h.serialised.2 r hr

/-- The invariant is kept by what happens under the condition. -/
theorem Inv.next {s : Sys} (h : Inv s) {e : Event} (hapart : s.Apart e) (hmay : s.May e) :
  Inv (s.next e)
  := by
  cases e with
  | enter ctx entry choices =>
    have hctx : s.nextOp ctx = none := by simpa [nextOp, May] using hmay
    have hne : ∀ x ∈ s.pending, x.ctx ≠ ctx := fun x hx => h.ctx_ne hctx (by simp) hx
    apply h.threads
    · apply h.lawful.start hmay (entry.guarded.obeys_run choices)
    · intro x hx
      simp [hne x hx]
  | acquire ctx l =>
    have hne : ∀ x ∈ s.pending, x.ctx ≠ ctx := fun x hx => h.ctx_ne hmay.1 (by simp) hx
    apply h.threads
    · apply h.lawful.acquire hmay.1 hmay.2
    · intro x hx
      simp [hne x hx]
  | release ctx l =>
    have hne : ∀ x ∈ s.pending, x.ctx ≠ ctx := fun x hx => h.ctx_ne hmay (by simp) hx
    apply h.threads
    · apply h.lawful.release hmay
    · intro x hx
      simp [hne x hx]
  | write ctx site =>
    have hnone := h.nothing_pending hmay.1 hmay.2 hapart.2
    apply h.write hmay.1 hnone hapart.1
  | fail ctx site =>
    apply h.threads
    · apply h.lawful.advance hmay.1
    · intro x hx
      simp [hmay.2 x hx]
  | poll txn => apply h.finish hmay.1 (h.record hmay.1)
  | giveUp txn => apply h.finish hmay h.serialised.2
  | read ctx taken =>
    have hne : ∀ x ∈ s.pending, x.ctx ≠ ctx := fun x hx => h.ctx_ne hmay (by simp) hx
    have hthreads := h.threads (h.lawful.advance hmay) (fun x hx => by simp [hne x hx])
    apply hthreads.mailbox
    intro tag htag
    split at htag
    · exact .inr (.inr (by simpa using htag))
    · exact htag
  | pfTake tag =>
    apply h.mailbox
    intro tag' htag
    obtain rfl : tag = tag' := by simpa using htag
    exact .inl hmay.1
  | pfReply tag =>
    apply h.mailbox
    intro tag' htag
    obtain rfl : tag = tag' := by simpa using htag
    exact .inr (.inr hmay)
  | pfControl =>
    apply h.mailbox
    intro tag htag
    exact .inr (.inr (by simpa using htag))

/-! ### Runs -/

/-- An event that may happen under a condition is a step. -/
theorem step_next {G : Sys → Event → Prop} {s : Sys} {e : Event} (h : G s e ∧ s.May e) :
  G s e ∧ system.step s e (s.next e)
  := ⟨h.1, h.2, rfl⟩

/-- A run of events that may happen one after another under a condition. -/
theorem reachable_run {G : Sys → Event → Prop} {es : List Event}
    (h : TransSystem.AllAlong (fun s e => G s e ∧ s.May e) next start es) :
  system.Reachable G (es.foldl next start)
  := by
  apply TransSystem.Reachable.foldl (fun _ _ => step_next) _ h
  apply TransSystem.Reachable.init rfl

/-- In every run that meets the condition, the mailbox transactions are serialised. -/
theorem reachable_serialised {s : Sys} (h : system.Reachable Apart s) : Serialised s := by
  have hinv : Inv s := by
    apply h.invariant
    · rintro s rfl
      apply inv_start
    · rintro s e s' hs hapart ⟨hmay, rfl⟩
      apply hs.next hapart hmay
  exact hinv.serialised

/-- `ixgbevf_nway_reset` resets the device while no other context is in the driver, and then
the watchdog asks for the link state. -/
def oneByOne : List Event :=
  [.enter 0 .nwayReset [1, 1, 1, 1, 1], .acquire 0 .rtnl, .acquire 0 .resetting,
    .write 0 .resetHw, .pfTake 0, .pfReply 0, .poll ⟨0, .resetHw, 0⟩,
    .enter 1 .serviceTask [1, 0, 0, 1, 1, 1], .acquire 1 .service, .acquire 1 .mbx,
    .write 1 .watchdogLink, .pfTake 1, .pfReply 1, .poll ⟨1, .watchdogLink, 1⟩]

/-- The condition is met by a reset and a link check that come one after the other. -/
theorem oneByOne_serialised :
  system.Reachable Apart (oneByOne.foldl next start) ∧ Serialised (oneByOne.foldl next start)
  := by
  have hreach : system.Reachable Apart (oneByOne.foldl next start) := by
    apply reachable_run
    decide +kernel
  exact ⟨hreach, reachable_serialised hreach⟩

/-- The watchdog of an E610 asks the PF for the link state under `mbx_lock`.  Before the PF
has taken the request, `ixgbevf_nway_reset` writes `IXGBE_VF_RESET` without the lock, and
the watchdog reads the reply to the reset. -/
def swapped : List Event :=
  [.enter 0 .serviceTask [1, 0, 0, 1, 1, 1], .acquire 0 .service, .acquire 0 .mbx,
    .write 0 .watchdogLink,
    .enter 1 .nwayReset [1, 1, 1, 1, 1], .acquire 1 .rtnl, .acquire 1 .resetting,
    .write 1 .resetHw, .pfTake 1, .pfReply 1, .poll ⟨0, .watchdogLink, 0⟩]

/-- The transactions are not serialised in every run: a reset starts while the watchdog waits
for its reply, and the watchdog gets the reply to the reset. -/
theorem swapped_not_serialised :
  ∃ s s', system.Reachable TransSystem.always s ∧ system.Reachable TransSystem.always s'
    ∧ s.pending = [⟨1, .resetHw, 1⟩, ⟨0, .watchdogLink, 0⟩] ∧ ¬ Serialised s
    ∧ s'.answered = [(0, 1)] ∧ ¬ Serialised s'
  := by
  refine ⟨(swapped.take 8).foldl next start, swapped.foldl next start, ?_, ?_, ?_⟩
  · apply reachable_run
    decide +kernel
  · apply reachable_run
    decide +kernel
  · decide +kernel

end Sys

end Ixgbevf.Mailbox
