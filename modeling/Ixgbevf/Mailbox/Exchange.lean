import Ixgbevf.Hw
import Mathlib.Logic.Function.Basic

/-!
# The exchange of messages through a shared buffer

What the two sides of the mailbox do, seen from the protocol: a write call takes the buffer,
flushes its notifications, copies its words, notifies the other side, and, with the upgraded
functions, gives the buffer back and waits for an acknowledgement; a read call copies the
words and acknowledges.  The legacy functions read with the buffer taken, the upgraded ones
read after they have seen a notification.  `Inv.step` says that every step keeps the
invariant by which the words that are read are those of the last call.
-/

namespace Ixgbevf.Mailbox

/-! ### Sides, calls and cells -/

/-- The two sides of the mailbox. -/
inductive Side where
  | vf
  | pf
deriving DecidableEq, Repr

/-- The side at the other end. -/
def Side.other : Side → Side
  | vf => pf
  | pf => vf

@[simp] theorem Side.other_other (X : Side) : X.other.other = X := by cases X <;> rfl

@[simp] theorem Side.other_ne (X : Side) : X.other ≠ X := by cases X <;> decide

@[simp] theorem Side.ne_other (X : Side) : X ≠ X.other := by cases X <;> decide

/-- There are two sides. -/
theorem Side.eq_or_eq_other (X Z : Side) : Z = X ∨ Z = X.other := by
  cases X <;> cases Z <;> simp [Side.other]

/-- A call of a write function that has begun to copy its message. -/
structure Call where
  side : Side
  words : List (BitVec 32)
deriving DecidableEq, Repr

/-- A word of the buffer, and the number of the call that stored it. -/
structure Cell where
  value : BitVec 32
  call : Option ℕ
deriving DecidableEq, Repr

/-- A message that a read function has returned: the reader, whether it had seen a
notification, and the words with their positions. -/
structure Reading where
  side : Side
  noticed : Bool
  words : List (ℕ × Cell)
deriving DecidableEq, Repr

/-- Where a side is in a call. -/
inductive Phase where
  | free
  /-- has seen the notification of the other side -/
  | noticed
  /-- has the buffer, and had seen a notification or not -/
  | locked (noticed : Bool)
  /-- a write call that has flushed the notification -/
  | flushedMsg
  /-- a write call that has flushed the notification and the acknowledgement -/
  | flushed
  /-- a write call that has stored so many words of its message -/
  | copying (msg : List (BitVec 32)) (stored : ℕ)
  /-- a write call that has notified the other side and still has the buffer -/
  | sent
  /-- a write call that waits for its acknowledgement -/
  | awaiting
  /-- a write call that has seen its acknowledgement -/
  | acknowledged
deriving DecidableEq, Repr

/-- The exchange. -/
structure Exchange where
  /-- A side has the buffer. -/
  own : Side → Bool
  /-- A side has a notification. -/
  inbox : Side → Bool
  /-- A side has an acknowledgement. -/
  acked : Side → Bool
  mem : ℕ → Cell
  phase : Side → Phase
  /-- The number of the last write call of a side. -/
  call : Side → ℕ
  /-- The words that a read call has copied. -/
  got : Side → List (ℕ × Cell)
  calls : List Call
  returned : List Reading
  /-- The write calls that have returned with an acknowledgement. -/
  confirmed : List (Side × ℕ)

namespace Exchange

open Function (update)

variable (s : Exchange)

/-- A side comes to a phase. -/
def setPhase (X : Side) (p : Phase) : Exchange := { s with phase := update s.phase X p }

/-- A call of a side returns. -/
def leave (X : Side) : Exchange := { s.setPhase X .free with got := update s.got X [] }

/-- The bit by which a side has the buffer. -/
def setOwn (X : Side) (b : Bool) : Exchange := { s with own := update s.own X b }

/-- The notification of a side. -/
def setInbox (X : Side) (b : Bool) : Exchange := { s with inbox := update s.inbox X b }

/-- The acknowledgement of a side. -/
def setAcked (X : Side) (b : Bool) : Exchange := { s with acked := update s.acked X b }

/-- A write call begins to copy. -/
def begin (X : Side) (msg : List (BitVec 32)) : Exchange :=
  { s.setPhase X (.copying msg 0) with
    calls := s.calls ++ [⟨X, msg⟩]
    call := update s.call X s.calls.length }

/-- A write call stores a word. -/
def store (X : Side) (msg : List (BitVec 32)) (i : ℕ) (w : BitVec 32) : Exchange :=
  { s.setPhase X (.copying msg (i + 1)) with mem := update s.mem i ⟨w, some (s.call X)⟩ }

/-- A read call copies a word. -/
def load (X : Side) (i : ℕ) : Exchange :=
  { s with got := update s.got X (s.got X ++ [(i, s.mem i)]) }

/-- A read call returns its words. -/
def giveBack (X : Side) (noticed : Bool) : Exchange :=
  { s.leave X with returned := s.returned ++ [⟨X, noticed, s.got X⟩] }

/-- A write call returns with its acknowledgement. -/
def confirm (X : Side) : Exchange :=
  { s.leave X with confirmed := s.confirmed ++ [(X, s.call X)] }

/-- The other side has nothing left of an earlier message: no notification, and no read call
under way. -/
def Settled (X : Side) : Prop := s.inbox X.other = false ∧ s.phase X.other ≠ .noticed

instance (X : Side) : Decidable (s.Settled X) := by
  unfold Settled
  infer_instance

/-- What happens in an exchange by functions of a generation.  With the upgraded functions a
write call whose reader is in `R` gets past its flush only when the other side has nothing
left of an earlier message. -/
inductive Step (g : MbxOps) (R : Side → Prop) : Exchange → Prop where
  | take (X : Side) : Step g R (s.setOwn X (s.own X || ! s.own X.other))
  | enter (X : Side) (h : s.phase X = .free) (hown : s.own X) :
      Step g R (s.setPhase X (.locked false))
  | enterNoticed (X : Side) (hg : g = .legacy) (h : s.phase X = .noticed) (hown : s.own X) :
      Step g R (s.setPhase X (.locked true))
  | notice (X : Side) (h : s.phase X = .free) (hinbox : s.inbox X) :
      Step g R (s.setPhase X .noticed)
  | flushMsg (X : Side) (b : Bool) (h : s.phase X = .locked b) :
      Step g R ((s.setInbox X false).setPhase X .flushedMsg)
  | dropMsg (X : Side) (h : s.phase X = .noticed) : Step g R (s.setInbox X false)
  | flushAck (X : Side) (h : s.phase X = .flushedMsg)
      (hsettled : g = .upgraded → R X.other → s.Settled X) :
      Step g R ((s.setAcked X false).setPhase X .flushed)
  | dropAck (X : Side) (h : s.phase X = .flushedMsg ∨ s.phase X = .flushed ∨
      s.phase X = .acknowledged) : Step g R (s.setAcked X false)
  | begin (X : Side) (msg : List (BitVec 32)) (h : s.phase X = .flushed) :
      Step g R (s.begin X msg)
  | store (X : Side) (msg : List (BitVec 32)) (i : ℕ) (w : BitVec 32)
      (h : s.phase X = .copying msg i) (hw : msg[i]? = some w) : Step g R (s.store X msg i w)
  | send (X : Side) (msg : List (BitVec 32)) (h : s.phase X = .copying msg msg.length) :
      Step g R ((s.setInbox X.other true).setPhase X .sent)
  | release (X : Side) (h : s.phase X = .sent) :
      Step g R ((s.setOwn X false).setPhase X .awaiting)
  | sendRelease (X : Side) (msg : List (BitVec 32)) (hg : g = .legacy)
      (h : s.phase X = .copying msg msg.length) :
      Step g R (((s.setInbox X.other true).setOwn X false).leave X)
  | load (X : Side) (i : ℕ)
      (h : (∃ b, s.phase X = .locked b) ∨ g = .upgraded ∧ s.phase X = .noticed) :
      Step g R (s.load X i)
  | ack (X : Side) (hg : g = .upgraded) (h : s.phase X = .noticed) :
      Step g R ((s.setAcked X.other true).giveBack X true)
  | ackRelease (X : Side) (b : Bool) (hg : g = .legacy) (h : s.phase X = .locked b) :
      Step g R (((s.setAcked X.other true).setOwn X false).giveBack X b)
  | seeAck (X : Side) (h : s.phase X = .awaiting) (hacked : s.acked X) :
      Step g R (s.setPhase X .acknowledged)
  | confirm (X : Side) (h : s.phase X = .acknowledged) : Step g R (s.confirm X)
  | leave (X : Side) (h : s.phase X = .free ∨ s.phase X = .noticed ∨ s.phase X = .awaiting) :
      Step g R (s.leave X)

/-! ### What a read call returns -/

/-- The call `k` is the last one, and it is `c`. -/
def Latest (k : ℕ) (c : Call) : Prop := s.calls.length = k + 1 ∧ s.calls[k]? = some c

/-- The last call is one of a side. -/
def LastBy (X : Side) : Prop := ∃ k c, s.Latest k c ∧ c.side = X

/-- The words agree with the message of the call `k` where it reaches, and are older beyond. -/
def Agrees (words : List (ℕ × Cell)) (k : ℕ) (c : Call) : Prop :=
  ∀ p ∈ words, (∀ w, c.words[p.1]? = some w → p.2 = ⟨w, some k⟩)
    ∧ (c.words.length ≤ p.1 → ∀ k', p.2.call = some k' → k' < k)

/-- A reading agrees with the message of one call, of the other side if the reader had seen a
notification; or nothing was ever written. -/
def Whole (r : Reading) : Prop :=
  (¬ r.noticed ∧ ∀ p ∈ r.words, p.2.call = none)
    ∨ ∃ k c, s.calls[k]? = some c ∧ (r.noticed → c.side = r.side.other) ∧ Agrees r.words k c

/-- The other side has read the message of a call of a side and acknowledged it. -/
def ReadBy (X : Side) (k : ℕ) : Prop :=
  ∃ c r, s.calls[k]? = some c ∧ c.side = X ∧ r ∈ s.returned ∧ r.side = X.other
    ∧ Agrees r.words k c

/-! ### The invariant -/

/-- The words a read call has copied are those of the buffer. -/
def Fresh (X : Side) : Prop := ∀ p ∈ s.got X, p.2 = s.mem p.1

/-- A write call that has flushed and not yet notified: nothing can be taken for an
acknowledgement, and nothing is left to read. -/
def Quiet (X : Side) : Prop := s.acked X = false ∧ s.Settled X

/-- A write call that has notified: an acknowledgement is for its message, and what is left to
read is its message. -/
def Watched (X : Side) : Prop :=
  (s.acked X → s.ReadBy X (s.call X))
    ∧ (s.inbox X.other ∨ s.phase X.other = .noticed → s.calls.length = s.call X + 1)

/-- What a write call has stored. -/
def Stored (msg : List (BitVec 32)) (stored : ℕ) (k : ℕ) : Prop :=
  ∀ i w, i < stored → msg[i]? = some w → s.mem i = ⟨w, some k⟩

/-- The call a side has made. -/
def Made (X : Side) : Prop := ∃ c, s.calls[s.call X]? = some c ∧ c.side = X

/-- What holds of a side in each phase. -/
def Local (g : MbxOps) (R : Side → Prop) (X : Side) : Prop :=
  match s.phase X with
  | .free => s.got X = []
  | .noticed => s.LastBy X.other ∧ (g = .legacy → s.got X = []) ∧ (R X → s.Fresh X)
  | .locked b => s.own X ∧ (b → s.LastBy X.other) ∧ s.Fresh X
  | .flushedMsg => s.own X ∧ s.inbox X = false
  | .flushed => s.own X ∧ s.inbox X = false ∧ (g = .upgraded → R X.other → s.Quiet X)
  | .copying msg stored =>
    s.own X ∧ s.inbox X = false ∧ (g = .upgraded → R X.other → s.Quiet X)
      ∧ s.Latest (s.call X) ⟨X, msg⟩ ∧ s.Stored msg stored (s.call X)
  | .sent =>
    s.own X ∧ s.inbox X = false ∧ (g = .upgraded → R X.other → s.Made X ∧ s.Watched X)
  | .awaiting => g = .upgraded → R X.other → s.Made X ∧ s.Watched X
  | .acknowledged => g = .upgraded → R X.other → s.ReadBy X (s.call X)

/-- What holds of an exchange in which the readers in `R` are looked after. -/
structure Inv (g : MbxOps) (R : Side → Prop) : Prop where
  /-- One side at most has the buffer. -/
  excl : ∀ X, s.own X → s.own X.other = false
  /-- A notification is for the last call. -/
  inboxed : ∀ X, s.inbox X → s.LastBy X.other
  /-- While nobody copies, the buffer has the whole message of the last call. -/
  complete : (∀ X msg i, s.phase X ≠ .copying msg i) →
    ∀ k c, s.Latest k c → s.Stored c.words c.words.length k
  /-- A word of the buffer is a word of the call that stored it. -/
  stored : ∀ i k, (s.mem i).call = some k → ∃ c, s.calls[k]? = some c ∧ i < c.words.length
  sides : ∀ X, s.Local g R X
  /-- The upgraded functions read after a notification. -/
  noticed : g = .upgraded → ∀ r ∈ s.returned, r.noticed
  whole : ∀ r ∈ s.returned, (g = .upgraded → R r.side) → s.Whole r
  confirm : ∀ x ∈ s.confirmed, g = .upgraded → R x.1.other → s.ReadBy x.1 x.2

variable {s} {s' : Exchange} {g : MbxOps} {R : Side → Prop}

/-! ### Steps of one side that leave the other side alone -/

/-- What a step of the side `X` may change when it neither writes to the buffer nor tells the
other side anything. -/
structure Moves (X : Side) (s s' : Exchange) : Prop where
  mem : s'.mem = s.mem
  calls : s'.calls = s.calls
  returned : s'.returned = s.returned
  confirmed : s'.confirmed = s.confirmed
  phaseOther : s'.phase X.other = s.phase X.other
  callOther : s'.call X.other = s.call X.other
  gotOther : s'.got X.other = s.got X.other
  ownOther : s'.own X.other = s.own X.other
  inboxOther : s'.inbox X.other = s.inbox X.other
  ackedOther : s'.acked X.other = s.acked X.other
  /-- The buffer is taken only when the other side does not have it. -/
  own : s'.own X → s.own X ∨ s.own X.other = false
  inbox : s'.inbox X → s.inbox X
  /-- A read call starts with a notification. -/
  noticed : s'.phase X = .noticed → s.phase X = .noticed ∨ s.inbox X
  copying : ∀ msg i, s.phase X = .copying msg i → s'.phase X = .copying msg i

/-- What a write call knows of its reader is kept when the reader moves. -/
theorem Watched.moves {X : Side} (m : Moves X s s') (h : s.Watched X.other) :
  s'.Watched X.other
  := by
  obtain ⟨hacked, hleft⟩ := h
  constructor
  · simpa [ReadBy, m.ackedOther, m.callOther, m.calls, m.returned] using hacked
  · rw [Side.other_other] at hleft ⊢
    rw [m.calls, m.callOther]
    rintro (hinbox | hphase)
    · apply hleft (.inl (m.inbox hinbox))
    · apply hleft (m.noticed hphase).symm

/-- The quiet before a write call notifies is kept when the reader moves. -/
theorem Quiet.moves {X : Side} (m : Moves X s s') (h : s.Quiet X.other) : s'.Quiet X.other := by
  obtain ⟨hacked, hinbox, hphase⟩ := h
  rw [Side.other_other] at hinbox hphase
  refine ⟨m.ackedOther.trans hacked, ?_, ?_⟩
  · rw [Side.other_other, Bool.eq_false_iff]
    intro hinbox'
    simp [m.inbox hinbox'] at hinbox
  · rw [Side.other_other]
    intro hnoticed
    obtain hnoticed' | hinbox' := m.noticed hnoticed
    · exact hphase hnoticed'
    · simp [hinbox'] at hinbox

/-- What holds of the other side is kept. -/
theorem Local.moves {X : Side} (m : Moves X s s') (h : s.Local g R X.other) :
  s'.Local g R X.other
  := by
  unfold Local at h ⊢
  rw [m.phaseOther]
  cases hphase : s.phase X.other with
  | free => simpa [hphase, m.gotOther] using h
  | noticed =>
    simpa [hphase, m.gotOther, LastBy, Latest, Fresh, m.mem, m.calls] using h
  | locked b =>
    simpa [hphase, m.gotOther, m.ownOther, LastBy, Latest, Fresh, m.mem, m.calls] using h
  | flushedMsg => simpa [hphase, m.ownOther, m.inboxOther] using h
  | flushed =>
    simp only [hphase] at h ⊢
    rw [m.ownOther, m.inboxOther]
    exact ⟨h.1, h.2.1, fun hg hR => (h.2.2 hg hR).moves m⟩
  | copying msg i =>
    simp only [hphase] at h ⊢
    obtain ⟨hown, hinbox, hquiet, hlatest, hstored⟩ := h
    rw [m.ownOther, m.inboxOther, m.callOther]
    refine ⟨hown, hinbox, fun hg hR => (hquiet hg hR).moves m, ?_, ?_⟩
    · simpa [Latest, m.calls] using hlatest
    · simpa [Stored, m.mem] using hstored
  | sent =>
    simp only [hphase] at h ⊢
    obtain ⟨hown, hinbox, hwatch⟩ := h
    rw [m.ownOther, m.inboxOther]
    refine ⟨hown, hinbox, fun hg hR => ⟨?_, (hwatch hg hR).2.moves m⟩⟩
    simpa [Made, m.calls, m.callOther] using (hwatch hg hR).1
  | awaiting =>
    simp only [hphase] at h ⊢
    refine fun hg hR => ⟨?_, (h hg hR).2.moves m⟩
    simpa [Made, m.calls, m.callOther] using (h hg hR).1
  | acknowledged =>
    simp only [hphase] at h ⊢
    rw [m.callOther]
    simpa [ReadBy, m.calls, m.returned] using h

/-- A step of one side that leaves the other side alone keeps the invariant when it keeps what
holds of that one side. -/
theorem Inv.moves {X : Side} (h : Inv s g R) (m : Moves X s s') (hX : s'.Local g R X) :
  Inv s' g R
  where
  excl Z hZ := by
    obtain rfl | rfl := Side.eq_or_eq_other X Z
    · rw [m.ownOther]
      obtain hown | hother := m.own hZ
      · apply h.excl _ hown
      · exact hother
    · rw [m.ownOther] at hZ
      have hexcl := h.excl _ hZ
      rw [Side.other_other] at hexcl ⊢
      rw [Bool.eq_false_iff]
      intro hX'
      obtain hown | hother := m.own hX'
      · simp [hown] at hexcl
      · simp [hother] at hZ
  inboxed Z hZ := by
    have hlast : s.LastBy Z.other := by
      obtain rfl | rfl := Side.eq_or_eq_other X Z
      · apply h.inboxed _ (m.inbox hZ)
      · apply h.inboxed _ (m.inboxOther ▸ hZ)
    simpa [LastBy, Latest, m.calls] using hlast
  complete hnone := by
    have hnone' : ∀ Z msg i, s.phase Z ≠ .copying msg i := by
      intro Z msg i hZ
      obtain rfl | rfl := Side.eq_or_eq_other X Z
      · exact hnone _ _ _ (m.copying _ _ hZ)
      · exact hnone _ _ _ (m.phaseOther.trans hZ)
    simpa [Latest, Stored, m.calls, m.mem] using h.complete hnone'
  stored := by simpa [m.mem, m.calls] using h.stored
  sides Z := by
    obtain rfl | rfl := Side.eq_or_eq_other X Z
    · exact hX
    · apply (h.sides X.other).moves m
  noticed := by simpa [m.returned] using h.noticed
  whole := by simpa [m.returned, m.calls, Whole] using h.whole
  confirm := by simpa [m.confirmed, m.calls, m.returned, ReadBy] using h.confirm

/-- One such step after another. -/
theorem Moves.trans {X : Side} {s'' : Exchange} (m : Moves X s s') (m' : Moves X s' s'') :
  Moves X s s''
  where
  mem := m'.mem.trans m.mem
  calls := m'.calls.trans m.calls
  returned := m'.returned.trans m.returned
  confirmed := m'.confirmed.trans m.confirmed
  phaseOther := m'.phaseOther.trans m.phaseOther
  callOther := m'.callOther.trans m.callOther
  gotOther := m'.gotOther.trans m.gotOther
  ownOther := m'.ownOther.trans m.ownOther
  inboxOther := m'.inboxOther.trans m.inboxOther
  ackedOther := m'.ackedOther.trans m.ackedOther
  own hown := by
    obtain hown | hother := m'.own hown
    · apply m.own hown
    · exact .inr (m.ownOther ▸ hother)
  inbox hinbox := m.inbox (m'.inbox hinbox)
  noticed hphase := by
    obtain hphase | hinbox := m'.noticed hphase
    · apply m.noticed hphase
    · exact .inr (m.inbox hinbox)
  copying msg i hphase := m'.copying _ _ (m.copying _ _ hphase)

theorem moves_setPhase {X : Side} {p : Phase}
    (hnoticed : p = .noticed → s.phase X = .noticed ∨ s.inbox X)
    (hcopying : ∀ msg i, s.phase X ≠ .copying msg i) :
  Moves X s (s.setPhase X p)
  := by
  constructor <;> simp_all [setPhase]

theorem moves_leave {X : Side} (hcopying : ∀ msg i, s.phase X ≠ .copying msg i) :
  Moves X s (s.leave X)
  := by
  constructor <;> simp_all [leave, setPhase]

theorem moves_setOwn {X : Side} {b : Bool} (h : b → s.own X ∨ s.own X.other = false) :
  Moves X s (s.setOwn X b)
  := by
  constructor <;> simp_all [setOwn]

theorem moves_setInbox {X : Side} : Moves X s (s.setInbox X false) := by
  constructor <;> simp_all [setInbox]

theorem moves_setAcked {X : Side} {b : Bool} : Moves X s (s.setAcked X b) := by
  constructor <;> simp_all [setAcked]

theorem moves_load {X : Side} {i : ℕ} : Moves X s (s.load X i) := by
  constructor <;> simp_all [load]

/-- What holds of a side is kept when it takes the buffer. -/
theorem Local.take {X : Side} {b : Bool} (h : s.Local g R X) (hb : s.own X → b) :
  (s.setOwn X b).Local g R X
  := by
  unfold Local at h ⊢
  have hphase : (s.setOwn X b).phase X = s.phase X := rfl
  rw [hphase]
  have hown : s.own X → (s.setOwn X b).own X := by simpa [setOwn] using hb
  cases hp : s.phase X with
  | free | noticed | awaiting | acknowledged =>
    simp only [hp] at h ⊢
    exact h
  | locked | flushedMsg | flushed | copying | sent =>
    simp only [hp] at h ⊢
    exact ⟨hown h.1, h.2⟩

/-- A call that does not have the buffer, or has notified, may return. -/
theorem Inv.leave {X : Side} (h : Inv s g R) (hcopying : ∀ msg i, s.phase X ≠ .copying msg i) :
  Inv (s.leave X) g R
  := by
  apply h.moves (moves_leave hcopying)
  simp [Local, Exchange.leave, setPhase]

/-! ### The log grows -/

/-- More calls and more readings. -/
structure Grows (s s' : Exchange) : Prop where
  calls : ∀ (k : ℕ) (c : Call), s.calls[k]? = some c → s'.calls[k]? = some c
  returned : ∀ r ∈ s.returned, r ∈ s'.returned

/-- A message that was read stays so. -/
theorem ReadBy.mono {X : Side} {k : ℕ} (h : s.ReadBy X k) (hs : Grows s s') : s'.ReadBy X k := by
  obtain ⟨c, r, hc, hside, hr, hrest⟩ := h
  exact ⟨c, r, hs.calls k c hc, hside, hs.returned r hr, hrest⟩

/-- A reading that agrees with a call stays so. -/
theorem Whole.mono {r : Reading} (h : s.Whole r) (hs : Grows s s') : s'.Whole r := by
  obtain hnone | ⟨k, c, hc, hrest⟩ := h
  · exact .inl hnone
  · exact .inr ⟨k, c, hs.calls k c hc, hrest⟩

/-- The log grows when a call begins to copy. -/
theorem grows_begin {X : Side} {msg : List (BitVec 32)} : Grows s (s.begin X msg) where
  calls k c h := by
    simp only [begin]
    rw [List.getElem?_append_left (List.getElem?_eq_some_iff.mp h).1]
    exact h
  returned r hr := hr

/-! ### Steps that the other side sees -/

/-- A side that has the buffer is alone with it. -/
theorem Inv.not_own {X : Side} (h : Inv s g R) (hX : s.own X) : ¬ s.own X.other := by
  simp [h.excl X hX]

/-- A write call that begins to copy keeps the invariant. -/
theorem Inv.begin {X : Side} {msg : List (BitVec 32)} (h : Inv s g R)
    (hphase : s.phase X = .flushed) :
  Inv (s.begin X msg) g R
  := by
  have hX := h.sides X
  simp only [Local, hphase] at hX
  obtain ⟨hown, hinbox, hquiet⟩ := hX
  have hgrows : Grows s (s.begin X msg) := grows_begin
  have hlatest : (s.begin X msg).Latest s.calls.length ⟨X, msg⟩ := by
    simp [Latest, Exchange.begin]
  have hlast : (s.begin X msg).LastBy X := ⟨_, _, hlatest, rfl⟩
  have hother : (s.begin X msg).phase X.other = s.phase X.other := by
    simp [Exchange.begin, setPhase]
  have hcall : (s.begin X msg).call X.other = s.call X.other := by simp [Exchange.begin]
  have hself : (s.begin X msg).phase X = .copying msg 0 := by simp [Exchange.begin, setPhase]
  constructor
  case excl => exact h.excl
  case inboxed =>
    intro Z hZ
    obtain rfl | rfl := Side.eq_or_eq_other X Z
    · exact absurd hZ (by simp [Exchange.begin, setPhase, hinbox])
    · rw [Side.other_other]
      exact hlast
  case complete =>
    intro hnone
    exact absurd hself (hnone X msg 0)
  case stored =>
    intro i k hk
    obtain ⟨c, hc, hi⟩ := h.stored i k hk
    exact ⟨c, hgrows.calls k c hc, hi⟩
  case sides =>
    intro Z
    obtain rfl | rfl := Side.eq_or_eq_other X Z
    · simp only [Local, hself]
      refine ⟨hown, hinbox, fun hg hR => ?_, ?_, ?_⟩
      · obtain ⟨hacked, hinbox', hnoticed⟩ := hquiet hg hR
        exact ⟨hacked, hinbox', hother ▸ hnoticed⟩
      · simpa [Exchange.begin] using hlatest
      · intro i w hi
        omega
    · have hY := h.sides X.other
      have hnot := h.not_own hown
      simp only [Local, hother] at hY ⊢
      cases hp : s.phase X.other with
      | free =>
        simp only [hp] at hY ⊢
        exact hY
      | noticed =>
        simp only [hp, Side.other_other] at hY ⊢
        exact ⟨hlast, hY.2⟩
      | locked | flushedMsg | flushed | copying | sent =>
        simp only [hp] at hY
        exact absurd hY.1 hnot
      | awaiting =>
        simp only [hp] at hY ⊢
        intro hg hR
        obtain ⟨⟨c, hc, hside⟩, hread, -⟩ := hY hg hR
        refine ⟨⟨c, ?_, hside⟩, ?_, ?_⟩
        · rw [hcall]
          exact hgrows.calls _ _ hc
        · rw [hcall]
          exact fun hacked => ReadBy.mono (hread hacked) hgrows
        · rw [Side.other_other, hself]
          simp [Exchange.begin, setPhase, hinbox]
      | acknowledged =>
        simp only [hp] at hY ⊢
        rw [hcall]
        exact fun hg hR => ReadBy.mono (hY hg hR) hgrows
  case noticed => exact h.noticed
  case whole => exact fun r hr hR => Whole.mono (h.whole r hr hR) hgrows
  case confirm => exact fun x hx hg hR => ReadBy.mono (h.confirm x hx hg hR) hgrows

/-- While a side copies, its reader with the upgraded functions is not at work; with the
legacy functions it has copied nothing. -/
theorem Inv.not_reading {X : Side} {msg : List (BitVec 32)} {i : ℕ} (h : Inv s g R)
    (hphase : s.phase X = .copying msg i) (hnoticed : s.phase X.other = .noticed)
    (hR : R X.other) :
  s.got X.other = []
  := by
  have hX := h.sides X
  have hY := h.sides X.other
  simp only [Local, hphase] at hX
  simp only [Local, hnoticed] at hY
  cases g with
  | legacy => exact hY.2.1 rfl
  | upgraded => exact absurd hnoticed (hX.2.2.1 rfl hR).2.2

/-- A write call that stores a word keeps the invariant. -/
theorem Inv.store {X : Side} {msg : List (BitVec 32)} {i : ℕ} {w : BitVec 32} (h : Inv s g R)
    (hphase : s.phase X = .copying msg i) (hw : msg[i]? = some w) :
  Inv (s.store X msg i w) g R
  := by
  have hX := h.sides X
  simp only [Local, hphase] at hX
  obtain ⟨hown, hinbox, hquiet, hlatest, hstored⟩ := hX
  have hi : i < msg.length := (List.getElem?_eq_some_iff.mp hw).1
  have hother : (s.store X msg i w).phase X.other = s.phase X.other := by
    simp [Exchange.store, setPhase]
  have hself : (s.store X msg i w).phase X = .copying msg (i + 1) := by
    simp [Exchange.store, setPhase]
  constructor
  case excl => exact h.excl
  case inboxed => exact h.inboxed
  case complete =>
    intro hnone
    exact absurd hself (hnone X msg (i + 1))
  case stored =>
    intro j k hk
    by_cases hj : j = i
    · subst hj
      obtain rfl : s.call X = k := by simpa [Exchange.store] using hk
      exact ⟨⟨X, msg⟩, hlatest.2, hi⟩
    · apply h.stored j k
      simpa [Exchange.store, hj] using hk
  case sides =>
    intro Z
    obtain rfl | rfl := Side.eq_or_eq_other X Z
    · simp only [Local, hself]
      refine ⟨hown, hinbox, fun hg hR => ?_, hlatest, ?_⟩
      · obtain ⟨hacked, hinbox', hnoticed⟩ := hquiet hg hR
        exact ⟨hacked, hinbox', hother ▸ hnoticed⟩
      · intro j w' hj hw'
        by_cases hji : j = i
        · subst hji
          obtain rfl : w = w' := by simpa [hw] using hw'
          simp [Exchange.store, setPhase]
        · have hmem : (s.store Z msg i w).mem j = s.mem j := by simp [Exchange.store, hji]
          have hj' : j < i := by omega
          exact hmem.trans (hstored j w' hj' hw')
    · have hY := h.sides X.other
      have hnot := h.not_own hown
      simp only [Local, hother] at hY ⊢
      cases hp : s.phase X.other with
      | free =>
        simp only [hp] at hY ⊢
        exact hY
      | noticed =>
        simp only [hp] at hY ⊢
        refine ⟨hY.1, hY.2.1, fun hR => ?_⟩
        have hgot : (s.store X msg i w).got X.other = [] := h.not_reading hphase hp hR
        simp [Fresh, hgot]
      | locked | flushedMsg | flushed | copying | sent =>
        simp only [hp] at hY
        exact absurd hY.1 hnot
      | awaiting =>
        simp only [hp] at hY ⊢
        intro hg hR
        obtain ⟨hmade, hread, -⟩ := hY hg hR
        refine ⟨hmade, hread, ?_⟩
        rw [Side.other_other, hself]
        simp [Exchange.store, setPhase, hinbox]
      | acknowledged =>
        simp only [hp] at hY ⊢
        exact hY
  case noticed => exact h.noticed
  case whole => exact h.whole
  case confirm => exact h.confirm

/-- A write call that notifies the other side keeps the invariant. -/
theorem Inv.send {X : Side} {msg : List (BitVec 32)} (h : Inv s g R)
    (hphase : s.phase X = .copying msg msg.length) :
  Inv ((s.setInbox X.other true).setPhase X .sent) g R
  := by
  have hX := h.sides X
  simp only [Local, hphase] at hX
  obtain ⟨hown, hinbox, hquiet, hlatest, hstored⟩ := hX
  have hnot := h.not_own hown
  have hlast : s.LastBy X := ⟨_, _, hlatest, rfl⟩
  constructor
  case excl => exact h.excl
  case inboxed =>
    intro Z hZ
    obtain rfl | rfl := Side.eq_or_eq_other X Z
    · exact absurd hZ (by simp [setInbox, setPhase, hinbox])
    · rw [Side.other_other]
      exact hlast
  case complete =>
    rintro - k c ⟨hlen, hc⟩
    obtain rfl : s.call X = k := by
      have hlen' := hlatest.1
      have hlen'' : s.calls.length = k + 1 := hlen
      omega
    obtain rfl : ⟨X, msg⟩ = c := Option.some.inj (hlatest.2.symm.trans hc)
    exact hstored
  case stored => exact h.stored
  case sides =>
    intro Z
    obtain rfl | rfl := Side.eq_or_eq_other X Z
    · simp only [Local, setPhase, setInbox, Function.update_self]
      refine ⟨hown, by simpa using hinbox, fun hg hR => ⟨⟨_, hlatest.2, rfl⟩, ?_, ?_⟩⟩
      · have hacked := (hquiet hg hR).1
        simp [hacked]
      · intro _
        exact hlatest.1
    · have hY := h.sides X.other
      have hother : ((s.setInbox X.other true).setPhase X .sent).phase X.other
          = s.phase X.other := by simp [setInbox, setPhase]
      simp only [Local, hother] at hY ⊢
      cases hp : s.phase X.other with
      | free | noticed | acknowledged =>
        simp only [hp] at hY ⊢
        exact hY
      | locked | flushedMsg | flushed | copying | sent =>
        simp only [hp] at hY
        exact absurd hY.1 hnot
      | awaiting =>
        simp only [hp] at hY ⊢
        intro hg hR
        obtain ⟨hmade, hread, -⟩ := hY hg hR
        refine ⟨hmade, hread, ?_⟩
        rw [Side.other_other]
        simp [setInbox, setPhase, hinbox]
  case noticed => exact h.noticed
  case whole => exact h.whole
  case confirm => exact h.confirm

/-- The words a read call has copied agree with the last call when nobody copies. -/
theorem Inv.agrees {X : Side} (h : Inv s g R) (hfresh : s.Fresh X)
    (hnone : ∀ Z msg i, s.phase Z ≠ .copying msg i) {k : ℕ} {c : Call} (hlatest : s.Latest k c) :
  Agrees (s.got X) k c
  := by
  intro p hp
  rw [hfresh p hp]
  constructor
  · intro w hw
    apply h.complete hnone k c hlatest _ _ _ hw
    exact (List.getElem?_eq_some_iff.mp hw).1
  · intro hlen k' hk'
    obtain ⟨c', hc', hlt⟩ := h.stored _ _ hk'
    have hk : k' < s.calls.length := (List.getElem?_eq_some_iff.mp hc').1
    have hne : k' ≠ k := by
      rintro rfl
      obtain rfl : c = c' := Option.some.inj (hlatest.2.symm.trans hc')
      omega
    have := hlatest.1
    omega

/-- What a read call returns is whole, when nobody copies. -/
theorem Inv.whole_got {X : Side} {b : Bool} (h : Inv s g R) (hfresh : s.Fresh X)
    (hnone : ∀ Z msg i, s.phase Z ≠ .copying msg i) (hlast : b → s.LastBy X.other) :
  s.Whole ⟨X, b, s.got X⟩
  := by
  rcases List.eq_nil_or_concat s.calls with hnil | ⟨calls, c, hcalls⟩
  · left
    constructor
    · intro hb
      obtain ⟨k, c, ⟨hlen, -⟩, -⟩ := hlast hb
      simp [hnil] at hlen
    · intro p hp
      rw [hfresh p hp, Option.eq_none_iff_forall_ne_some]
      intro k hk
      obtain ⟨c, hc, -⟩ := h.stored _ _ hk
      simp [hnil] at hc
  · right
    have hlatest : s.Latest calls.length c := by simp [Latest, hcalls]
    refine ⟨calls.length, c, hlatest.2, fun hb => ?_, h.agrees hfresh hnone hlatest⟩
    obtain ⟨k, c', ⟨hlen, hc'⟩, hside⟩ := hlast hb
    obtain rfl : k = calls.length := by
      have := hlatest.1
      omega
    obtain rfl : c = c' := Option.some.inj (hlatest.2.symm.trans hc')
    exact hside

/-- A read call that returns whole words keeps the invariant. -/
theorem Inv.giveBack {X : Side} {b : Bool} (h : Inv s g R)
    (hnoticed : g = .upgraded → b) (hwhole : (g = .upgraded → R X) → s.Whole ⟨X, b, s.got X⟩)
    (hcopying : ∀ msg i, s.phase X ≠ .copying msg i) :
  Inv (s.giveBack X b) g R
  := by
  have hleave := h.leave hcopying
  have hgrows : Grows s (s.giveBack X b) :=
    ⟨fun k c hc => hc, fun r hr => List.mem_append_left _ hr⟩
  have hgrows' : Grows (s.leave X) (s.giveBack X b) :=
    ⟨fun k c hc => hc, fun r hr => List.mem_append_left _ hr⟩
  constructor
  case excl => exact hleave.excl
  case inboxed => exact hleave.inboxed
  case complete => exact hleave.complete
  case stored => exact hleave.stored
  case sides =>
    intro Z
    have hZ := hleave.sides Z
    have hphase : (s.giveBack X b).phase Z = (s.leave X).phase Z := rfl
    simp only [Local, hphase] at hZ ⊢
    cases hp : (s.leave X).phase Z with
    | free | noticed | locked | flushedMsg | flushed | copying =>
      simp only [hp] at hZ ⊢
      exact hZ
    | sent =>
      simp only [hp] at hZ ⊢
      refine ⟨hZ.1, hZ.2.1, fun hg hR => ⟨(hZ.2.2 hg hR).1, ?_, (hZ.2.2 hg hR).2.2⟩⟩
      exact fun hacked => ReadBy.mono ((hZ.2.2 hg hR).2.1 hacked) hgrows'
    | awaiting =>
      simp only [hp] at hZ ⊢
      refine fun hg hR => ⟨(hZ hg hR).1, ?_, (hZ hg hR).2.2⟩
      exact fun hacked => ReadBy.mono ((hZ hg hR).2.1 hacked) hgrows'
    | acknowledged =>
      simp only [hp] at hZ ⊢
      exact fun hg hR => ReadBy.mono (hZ hg hR) hgrows'
  case noticed =>
    intro hg r hr
    rw [Exchange.giveBack, List.mem_append, List.mem_singleton] at hr
    obtain hr | rfl := hr
    · exact h.noticed hg r hr
    · exact hnoticed hg
  case whole =>
    intro r hr hR
    rw [Exchange.giveBack, List.mem_append, List.mem_singleton] at hr
    obtain hr | rfl := hr
    · exact Whole.mono (h.whole r hr hR) hgrows
    · exact Whole.mono (hwhole hR) hgrows
  case confirm => exact fun x hx hg hR => ReadBy.mono (h.confirm x hx hg hR) hgrows

/-- An acknowledgement keeps the invariant when it comes for the message that is waited for. -/
theorem Inv.setAcked {Y : Side} (h : Inv s g R)
    (hflushed : g = .upgraded → R Y.other → s.phase Y ≠ .flushed)
    (hcopying : g = .upgraded → R Y.other → ∀ msg i, s.phase Y ≠ .copying msg i)
    (hread : g = .upgraded → R Y.other → s.phase Y = .sent ∨ s.phase Y = .awaiting →
      s.ReadBy Y (s.call Y)) :
  Inv (s.setAcked Y true) g R
  := by
  constructor
  case excl => exact h.excl
  case inboxed => exact h.inboxed
  case complete => exact h.complete
  case stored => exact h.stored
  case sides =>
    intro Z
    have hZ := h.sides Z
    have hphase : (s.setAcked Y true).phase Z = s.phase Z := rfl
    obtain rfl | rfl := Side.eq_or_eq_other Y Z
    · simp only [Local, hphase] at hZ ⊢
      cases hp : s.phase Z with
      | free | noticed | locked | flushedMsg | acknowledged =>
        simp only [hp] at hZ ⊢
        exact hZ
      | flushed =>
        simp only [hp] at hZ ⊢
        exact ⟨hZ.1, hZ.2.1, fun hg hR => absurd hp (hflushed hg hR)⟩
      | copying =>
        simp only [hp] at hZ ⊢
        exact ⟨hZ.1, hZ.2.1, fun hg hR => absurd hp (hcopying hg hR _ _), hZ.2.2.2⟩
      | sent =>
        simp only [hp] at hZ ⊢
        refine ⟨hZ.1, hZ.2.1, fun hg hR => ⟨(hZ.2.2 hg hR).1, ?_, (hZ.2.2 hg hR).2.2⟩⟩
        exact fun _ => hread hg hR (.inl hp)
      | awaiting =>
        simp only [hp] at hZ ⊢
        refine fun hg hR => ⟨(hZ hg hR).1, ?_, (hZ hg hR).2.2⟩
        exact fun _ => hread hg hR (.inr hp)
    · have hacked : (s.setAcked Y true).acked Y.other = s.acked Y.other := by
        simp [Exchange.setAcked]
      simp only [Local, hphase, Quiet, Watched, hacked] at hZ ⊢
      exact hZ
  case noticed => exact h.noticed
  case whole => exact h.whole
  case confirm => exact h.confirm

/-- A side at work on something else than copying. -/
theorem not_copying {X : Side} {p : Phase} (h : s.phase X = p) (hp : ∀ msg i, p ≠ .copying msg i) :
  ∀ msg i, s.phase X ≠ .copying msg i
  := by
  rw [h]
  exact hp

/-- With the upgraded functions, nobody copies while a reader that is looked after reads. -/
theorem Inv.nobody_copies {X : Side} (h : Inv s g R) (hg : g = .upgraded)
    (hphase : s.phase X = .noticed) (hR : R X) (Z : Side) (msg : List (BitVec 32)) (i : ℕ) :
  s.phase Z ≠ .copying msg i
  := by
  intro hZ
  obtain rfl | rfl := Side.eq_or_eq_other X Z
  · simp [hphase] at hZ
  · have hY := h.sides X.other
    simp only [Local, hZ, Side.other_other] at hY
    have hnoticed := (hY.2.2.1 hg hR).2.2
    rw [Side.other_other] at hnoticed
    exact hnoticed hphase

/-- With the buffer taken for reading, nobody copies. -/
theorem Inv.nobody_copies_locked {X : Side} {b : Bool} (h : Inv s g R)
    (hphase : s.phase X = .locked b) (Z : Side) (msg : List (BitVec 32)) (i : ℕ) :
  s.phase Z ≠ .copying msg i
  := by
  intro hZ
  obtain rfl | rfl := Side.eq_or_eq_other X Z
  · simp [hphase] at hZ
  · have hX := h.sides X
    have hY := h.sides X.other
    simp only [Local, hphase] at hX
    simp only [Local, hZ] at hY
    exact h.not_own hX.1 hY.1

/-- The message that a writer waits for is the one its reader is reading. -/
theorem Inv.readBy {X : Side} (h : Inv s g R) (hg : g = .upgraded) (hphase : s.phase X = .noticed)
    (hR : R X) (hY : s.phase X.other = .sent ∨ s.phase X.other = .awaiting) :
  (s.giveBack X true).ReadBy X.other (s.call X.other)
  := by
  have hX := h.sides X
  simp only [Local, hphase] at hX
  have hR' : R X.other.other := by simpa using hR
  obtain ⟨⟨c, hc, hside⟩, -, hleft⟩ : s.Made X.other ∧ s.Watched X.other := by
    have hlocal := h.sides X.other
    obtain hY | hY := hY
    · simp only [Local, hY] at hlocal
      exact hlocal.2.2 hg hR'
    · simp only [Local, hY] at hlocal
      exact hlocal hg hR'
  have hlen : s.calls.length = s.call X.other + 1 := by
    apply hleft
    simp [hphase]
  refine ⟨c, ⟨X, true, s.got X⟩, hc, hside, ?_, by simp, ?_⟩
  · simp [Exchange.giveBack]
  · apply h.agrees (hX.2.2 hR) (h.nobody_copies hg hphase hR) ⟨hlen, hc⟩

/-- An upgraded read call that acknowledges keeps the invariant. -/
theorem Inv.ack {X : Side} (h : Inv s g R) (hg : g = .upgraded) (hphase : s.phase X = .noticed) :
  Inv ((s.setAcked X.other true).giveBack X true) g R
  := by
  have hX := h.sides X
  simp only [Local, hphase] at hX
  obtain ⟨hlast, -, hfresh⟩ := hX
  have hback : Inv (s.giveBack X true) g R := by
    apply h.giveBack (fun _ => rfl) _ (not_copying hphase (by simp))
    intro hR
    apply h.whole_got (hfresh (hR hg)) (h.nobody_copies hg hphase (hR hg)) fun _ => hlast
  have hother : (s.giveBack X true).phase X.other = s.phase X.other := by
    simp [Exchange.giveBack, Exchange.leave, setPhase]
  have hset : Inv ((s.giveBack X true).setAcked X.other true) g R := by
    apply hback.setAcked
    · intro _ hR hflushed
      rw [hother] at hflushed
      rw [Side.other_other] at hR
      have hY := h.sides X.other
      simp only [Local, hflushed, Side.other_other] at hY
      have hnoticed := (hY.2.2 hg hR).2.2
      rw [Side.other_other] at hnoticed
      exact hnoticed hphase
    · intro _ hR msg i hcopying
      rw [hother] at hcopying
      rw [Side.other_other] at hR
      exact h.nobody_copies hg hphase hR _ _ _ hcopying
    · intro _ hR hY
      rw [hother] at hY
      rw [Side.other_other] at hR
      exact h.readBy hg hphase hR hY
  exact hset

/-- A legacy read call that acknowledges and gives the buffer back keeps the invariant. -/
theorem Inv.ackRelease {X : Side} {b : Bool} (h : Inv s g R) (hg : g = .legacy)
    (hphase : s.phase X = .locked b) :
  Inv (((s.setAcked X.other true).setOwn X false).giveBack X b) g R
  := by
  have hX := h.sides X
  simp only [Local, hphase] at hX
  obtain ⟨hown, hlast, hfresh⟩ := hX
  have hback : Inv (s.giveBack X b) g R := by
    apply h.giveBack (by simp [hg]) _ (not_copying hphase (by simp))
    intro _
    apply h.whole_got hfresh (h.nobody_copies_locked hphase) hlast
  have hset : Inv ((s.giveBack X b).setAcked X.other true) g R := by
    apply hback.setAcked <;> simp [hg]
  have hfree : ((s.giveBack X b).setAcked X.other true).phase X = .free := by
    simp [Exchange.giveBack, Exchange.leave, Exchange.setAcked, setPhase]
  have hrelease := hset.moves (moves_setOwn (X := X) (b := false) (by simp))
  apply hrelease
  have hlocal := hset.sides X
  simp only [Local, hfree] at hlocal
  have hfree' : (((s.giveBack X b).setAcked X.other true).setOwn X false).phase X = .free := hfree
  simp only [Local, hfree']
  exact hlocal

/-- Every step keeps the invariant. -/
theorem Inv.step (h : Inv s g R) (hs : Step s g R s') : Inv s' g R := by
  cases hs with
  | take X =>
    apply h.moves (moves_setOwn _) ((h.sides X).take _)
    · cases s.own X <;> simp
    · intro hown
      simp [hown]
  | enter X hphase hown =>
    have hX := h.sides X
    simp only [Local, hphase] at hX
    apply h.moves (moves_setPhase (by simp) (not_copying hphase (by simp)))
    simp [Local, setPhase, hown, Fresh, hX]
  | enterNoticed X hg hphase hown =>
    have hX := h.sides X
    simp only [Local, hphase] at hX
    apply h.moves (moves_setPhase (by simp) (not_copying hphase (by simp)))
    simp only [Local, setPhase, Function.update_self]
    refine ⟨hown, fun _ => hX.1, ?_⟩
    simp [Fresh, hX.2.1 hg]
  | notice X hphase hinbox =>
    have hX := h.sides X
    simp only [Local, hphase] at hX
    apply h.moves (moves_setPhase (fun _ => .inr hinbox) (not_copying hphase (by simp)))
    simp only [Local, setPhase, Function.update_self]
    refine ⟨h.inboxed X hinbox, fun _ => hX, fun _ => ?_⟩
    simp [Fresh, hX]
  | flushMsg X b hphase =>
    have hX := h.sides X
    simp only [Local, hphase] at hX
    have hphase' : (s.setInbox X false).phase X = .locked b := hphase
    apply h.moves (moves_setInbox.trans (moves_setPhase (by simp) (not_copying hphase' (by simp))))
    simp [Local, setPhase, setInbox, hX.1]
  | dropMsg X hphase =>
    have hX := h.sides X
    apply h.moves moves_setInbox
    have hphase' : (s.setInbox X false).phase X = .noticed := hphase
    simp only [Local, hphase, hphase'] at hX ⊢
    exact hX
  | flushAck X hphase hsettled =>
    have hX := h.sides X
    simp only [Local, hphase] at hX
    have hphase' : (s.setAcked X false).phase X = .flushedMsg := hphase
    apply h.moves (moves_setAcked.trans (moves_setPhase (by simp) (not_copying hphase' (by simp))))
    simp only [Local, setPhase, Function.update_self]
    refine ⟨hX.1, hX.2, fun hg hR => ⟨by simp [Exchange.setAcked], ?_⟩⟩
    simpa [Settled, Exchange.setAcked] using hsettled hg hR
  | dropAck X hphase =>
    have hX := h.sides X
    apply h.moves moves_setAcked
    have hphase' : (s.setAcked X false).phase X = s.phase X := rfl
    simp only [Local, hphase'] at hX ⊢
    obtain hp | hp | hp := hphase
    · simp only [hp] at hX ⊢
      exact hX
    · simp only [hp] at hX ⊢
      refine ⟨hX.1, hX.2.1, fun hg hR => ⟨by simp [Exchange.setAcked], (hX.2.2 hg hR).2⟩⟩
    · simp only [hp] at hX ⊢
      exact hX
  | begin X msg hphase => exact h.begin hphase
  | store X msg i w hphase hw => exact h.store hphase hw
  | send X msg hphase => exact h.send hphase
  | release X hphase =>
    have hX := h.sides X
    simp only [Local, hphase] at hX
    have hphase' : (s.setOwn X false).phase X = .sent := hphase
    apply h.moves ((moves_setOwn (by simp)).trans
      (moves_setPhase (by simp) (not_copying hphase' (by simp))))
    simp only [Local, setPhase, Function.update_self]
    intro hg hR
    simpa [Made, Watched, ReadBy, setOwn] using hX.2.2 hg hR
  | sendRelease X msg hg hphase =>
    -- the same as a notification, after which the call returns without the buffer
    have hsend := h.send hphase
    have hphase' : (((s.setInbox X.other true).setPhase X .sent).setOwn X false).phase X
        = .sent := by simp [setOwn, setPhase]
    have hsame : (((s.setInbox X.other true).setPhase X .sent).setOwn X false).leave X
        = ((s.setInbox X.other true).setOwn X false).leave X := by
      simp [Exchange.leave, setPhase, setOwn]
    rw [← hsame]
    apply hsend.moves ((moves_setOwn (by simp)).trans
      (moves_leave (not_copying hphase' (by simp))))
    simp [Local, Exchange.leave, setPhase]
  | load X i hphase =>
    have hX := h.sides X
    apply h.moves moves_load
    have hgot : (s.load X i).got X = s.got X ++ [(i, s.mem i)] := by simp [Exchange.load]
    have hfresh : s.Fresh X → (s.load X i).Fresh X := by
      intro hfresh p hp
      rw [hgot, List.mem_append, List.mem_singleton] at hp
      obtain hp | rfl := hp
      · exact hfresh p hp
      · rfl
    have hphase' : (s.load X i).phase X = s.phase X := rfl
    obtain ⟨b, hp⟩ | ⟨hg, hp⟩ := hphase
    · simp only [Local, hphase', hp] at hX ⊢
      exact ⟨hX.1, hX.2.1, hfresh hX.2.2⟩
    · simp only [Local, hphase', hp] at hX ⊢
      exact ⟨hX.1, by simp [hg], fun hR => hfresh (hX.2.2 hR)⟩
  | ack X hg hphase => exact h.ack hg hphase
  | ackRelease X b hg hphase => exact h.ackRelease hg hphase
  | seeAck X hphase hacked =>
    have hX := h.sides X
    simp only [Local, hphase] at hX
    apply h.moves (moves_setPhase (by simp) (not_copying hphase (by simp)))
    simp only [Local, setPhase, Function.update_self]
    exact fun hg hR => (hX hg hR).2.1 hacked
  | confirm X hphase =>
    have hX := h.sides X
    simp only [Local, hphase] at hX
    have hleave := h.leave (not_copying hphase (by simp))
    constructor
    case excl => exact hleave.excl
    case inboxed => exact hleave.inboxed
    case complete => exact hleave.complete
    case stored => exact hleave.stored
    case sides => exact hleave.sides
    case noticed => exact hleave.noticed
    case whole => exact hleave.whole
    case confirm =>
      intro x hx
      rw [Exchange.confirm, List.mem_append, List.mem_singleton] at hx
      obtain hx | rfl := hx
      · exact h.confirm x hx
      · exact hX
  | leave X hphase =>
    apply h.leave
    obtain hp | hp | hp := hphase <;> exact not_copying hp (by simp)

end Exchange

end Ixgbevf.Mailbox
