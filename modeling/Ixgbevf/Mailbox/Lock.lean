import Ixgbevf.Mailbox.Accesses

/-!
# The lock of the mailbox buffer

The VF owns the mailbox buffer while the bit `VFU` of its mailbox register is set.  It takes the
buffer by setting the bit, and looks whether it is set; it gives the buffer back by any write to
the register without the bit.  Whatever the device and the PF do, no call of a mailbox function
leaves the bit set, unless the device has stopped answering.
-/

namespace Ixgbevf.Lock

open StateProgram

variable {D : Type} {V : Device D}

/-! ### The hardware -/

/-- What is assumed of a device.  Once it is gone nothing is.  Before, `VFU` in the mailbox register
shows whether the VF owns the buffer, and only a write to that register changes the owner: one
without `VFU` gives the buffer back, and one with it may take it or not. -/
structure Arbiter (V : Device D) where
  /-- The VF owns the buffer. -/
  owns : D → Bool
  /-- The device does not answer any more. -/
  gone : D → Bool
  read_gone : ∀ d reg, gone d = true → gone (V.read d reg).2 = true
  write_gone : ∀ d reg value, gone d = true → gone (V.write d reg value) = true
  read_owns : ∀ d reg, gone (V.read d reg).2 = true ∨ owns (V.read d reg).2 = owns d
  shows : ∀ d, gone (V.read d vfMailbox).2 = true ∨ hasBit (V.read d vfMailbox).1 vfuBit = owns d
  drops : ∀ d value, hasBit value vfuBit = false →
    gone (V.write d vfMailbox value) = true ∨ owns (V.write d vfMailbox value) = false
  write_owns : ∀ d reg value, reg ≠ vfMailbox →
    gone (V.write d reg value) = true ∨ owns (V.write d reg value) = owns d

/-- The register is a word of the mailbox memory. -/
def isMbmem (reg : ℕ) : Bool := decide (vfMbmem ≤ reg ∧ reg < vfMailbox)

/-- The device with a witness of the writes to the mailbox memory: it stays `true` while the VF
owns the buffer at each of them. -/
def watched (A : Arbiter V) : Device (D × Bool) where
  read d reg := ((V.read d.1 reg).1, ((V.read d.1 reg).2, d.2))
  write d reg value :=
    (V.write d.1 reg value, d.2 && (A.gone d.1 || A.owns d.1 || !isMbmem reg))

/-! ### Calls -/

/-- A call of a mailbox function, or a change of the parameters of the mailbox. -/
inductive Call where
  /-- `ixgbe_init_mbx_params_vf` or `ixgbe_upgrade_mbx_params_vf`, or a change of `timeout`. -/
  | params (ops : MbxOps) (timeout : ℕ)
  | read (msg : List (BitVec 32)) (size : ℕ)
  | poll (msg : List (BitVec 32)) (size : ℕ)
  | write (msg : List (BitVec 32)) (size : ℕ)

/-- What a call does. -/
def Call.run (V : Device D) : Call → PortM D Unit
  | .params ops timeout =>
    modify fun p => { p with mbx := { mbxParamsVf ops p.mbx.vfMailbox with timeout := timeout } }
  | .read msg size => do
    let _ ← readMbx V msg size
  | .poll msg size => do
    let _ ← pollMbx V msg size
  | .write msg size => do
    let _ ← writeMbx V msg size

/-- Calls one after the other. -/
def runAll (V : Device D) : List Call → PortM D Unit
  | [] => pure ()
  | call :: calls => do
    call.run V
    runAll V calls

/-! ### What a port knows of the owner -/

section

variable (A : Arbiter V)

/-- The adapter has been given up, or the device does not answer. -/
def Lost (p : Port (D × Bool)) : Prop := p.removed = true ∨ A.gone p.dev.1 = true

/-- The VF does not own the buffer, as far as there is a device. -/
def Free (p : Port (D × Bool)) : Prop := Lost A p ∨ A.owns p.dev.1 = false

/-- The VF owns the buffer, as far as there is a device. -/
def Held (p : Port (D × Bool)) : Prop := Lost A p ∨ A.owns p.dev.1 = true

/-- What the driver keeps of the register does not hold `VFU`, a message is not longer than the
mailbox memory, and every write to that has been one by the owner. -/
structure Sane (p : Port (D × Bool)) : Prop where
  cache : hasBit p.mbx.vfMailbox vfuBit = false
  size : p.mbx.size ≤ 16
  watch : p.dev.2 = true

/-- What reads leave as it was. -/
structure Follows (p p' : Port (D × Bool)) : Prop where
  sane : Sane p → Sane p'
  lost : Lost A p → Lost A p'
  owner : Lost A p' ∨ A.owns p'.dev.1 = A.owns p.dev.1

/-- The owner that a value of the register shows is the owner. -/
def Shows (value : BitVec 32) (p : Port (D × Bool)) : Prop :=
  Lost A p ∨ hasBit value vfuBit = A.owns p.dev.1

variable {A} {p p' : Port (D × Bool)}

/-- A buffer that nobody else has taken stays free. -/
theorem Follows.free (h : Follows A p p') (hp : Free A p) :
  Free A p'
  := by
  rcases hp with hlost | hfree
  · exact Or.inl (h.lost hlost)
  · rcases h.owner with hlost | howner
    · exact Or.inl hlost
    · exact Or.inr (howner.trans hfree)

/-- A buffer that the VF owns stays its own. -/
theorem Follows.held (h : Follows A p p') (hp : Held A p) :
  Held A p'
  := by
  rcases hp with hlost | hheld
  · exact Or.inl (h.lost hlost)
  · rcases h.owner with hlost | howner
    · exact Or.inl hlost
    · exact Or.inr (howner.trans hheld)

/-- A value goes on showing the owner. -/
theorem Follows.shows {value : BitVec 32} (h : Follows A p p') (hp : Shows A value p) :
  Shows A value p'
  := by
  rcases hp with hlost | hshows
  · exact Or.inl (h.lost hlost)
  · rcases h.owner with hlost | howner
    · exact Or.inl hlost
    · exact Or.inr (hshows.trans howner.symm)

instance : IsPreorder (Port (D × Bool)) (Follows A) where
  refl _ := ⟨id, id, Or.inr rfl⟩
  trans _ p' _ h h' := by
    refine ⟨fun hp => h'.sane (h.sane hp), fun hp => h'.lost (h.lost hp), ?_⟩
    rcases h'.owner with hlost | howner'
    · exact Or.inl hlost
    · rcases h.owner with hlost | howner
      · exact Or.inl (h'.lost hlost)
      · exact Or.inr (howner'.trans howner)

/-- A value without `VFU` shows that the buffer is free. -/
theorem Shows.free {value : BitVec 32} (h : Shows A value p) (hbit : hasBit value vfuBit = false) :
  Free A p
  := h.imp_right fun hshows => hshows.symm.trans hbit

/-- A value with `VFU` shows that the VF owns the buffer. -/
theorem Shows.held {value : BitVec 32} (h : Shows A value p) (hbit : hasBit value vfuBit = true) :
  Held A p
  := h.imp_right fun hshows => hshows.symm.trans hbit

/-- A buffer is not both. -/
theorem lost_of_free_held (hfree : Free A p) (hheld : Held A p) :
  Lost A p
  := by
  rcases hfree with hlost | hfree
  · exact hlost
  · rcases hheld with hlost | hheld
    · exact hlost
    · rw [hfree] at hheld
      cases hheld

/-- The mailbox can be used, and the VF does not own the buffer. -/
def Idle (A : Arbiter V) (p : Port (D × Bool)) : Prop := Sane p ∧ Free A p

/-- The mailbox can be used, and the VF owns the buffer. -/
def Busy (A : Arbiter V) (p : Port (D × Bool)) : Prop := Sane p ∧ Held A p

/-- A free mailbox stays one. -/
theorem Follows.idle (h : Follows A p p') (hp : Idle A p) :
  Idle A p'
  := ⟨h.sane hp.1, h.free hp.2⟩

/-- A mailbox that the VF has taken stays its own. -/
theorem Follows.busy (h : Follows A p p') (hp : Busy A p) :
  Busy A p'
  := ⟨h.sane hp.1, h.held hp.2⟩

/-! ### Reads -/

/-- Reads of the device leave the owner alone. -/
theorem reading_follows (A : Arbiter V) :
  Reading (watched A) (Follows A)
  where
    device reg := by
      apply keeps_modifyGet
      intro p
      refine ⟨fun hp => ⟨hp.cache, hp.size, hp.watch⟩, ?_, ?_⟩
      · exact Or.imp_right (A.read_gone p.dev.1 reg)
      · exact (A.read_owns p.dev.1 reg).imp_left Or.inr
    remove p := ⟨fun hp => ⟨hp.cache, hp.size, hp.watch⟩, fun _ => Or.inl rfl, Or.inl (Or.inl rfl)⟩
    record p t := ⟨fun hp => ⟨hp.cache, hp.size, hp.watch⟩, id, Or.inr rfl⟩

/-- A read of the mailbox register shows the owner. -/
theorem readl_shows :
  Ensures (fun _ => True) (readl (watched A) vfMailbox) (Shows A)
  := by
  apply ensures_modifyGet
  intro p _
  rcases A.shows p.dev.1 with hgone | hshows
  · exact Or.inl (Or.inr hgone)
  · rcases A.read_owns p.dev.1 vfMailbox with hgone | howns
    · exact Or.inl (Or.inr hgone)
    · exact Or.inr (hshows.trans howns.symm)

/-- So does the last one of several. -/
theorem rereads_shows (n : ℕ) (value : BitVec 32) :
  Ensures (Shows A value) (rereads (watched A) vfMailbox n value) (Shows A)
  := by
  induction n generalizing value with
  | zero =>
    apply ensures_pure
    intro p hp
    exact hp
  | succ n ih =>
    apply ensures_bind (readl_shows.of fun _ _ => trivial)
    intro value
    apply ensures_ite
    · intro _
      apply ensures_pure
      intro p hp
      exact hp
    · intro _
      apply ih

/-- A register read of the mailbox register shows the owner, also where it is made again, and
where it fails. -/
theorem readReg_shows :
  Ensures (fun _ => True) (readReg (watched A) vfMailbox) (Shows A)
  := by
  have hread := reading_follows A
  apply ensures_bind (T := Shows A)
  · apply ensures_get
    intro p _
    apply ensures_ite
    · intro hremoved
      apply ensures_pure
      rintro _ rfl
      exact Or.inl (Or.inl hremoved)
    · intro _
      apply ensures_bind (readl_shows.of fun _ _ => trivial)
      intro value
      have hcheck : Keeps (Follows A)
          (if value = failedReadReg then checkRemove (watched A) vfMailbox else pure ()) := by
        apply keeps_ite
        · apply hread.checkRemove
        · apply keeps_pure
      apply ensures_bind (hcheck.ensures (P := Shows A value) fun _ _ h => h.shows)
      intro _
      apply ensures_ite
      · rintro rfl
        apply ensures_get
        intro p hp
        apply ensures_ite
        · intro hremoved
          apply ensures_pure
          rintro _ rfl
          exact Or.inl (Or.inl hremoved)
        · intro _
          apply (rereads_shows _ _).of
          rintro _ rfl
          exact hp
      · intro _
        apply ensures_pure
        intro p hp
        exact hp
  · intro value
    apply ensures_bind (T := fun _ => Shows A value)
    · apply ensures_modify
      intro p hp
      exact hp
    · intro _
      apply ensures_pure
      intro p hp
      exact hp

/-- The bits that the driver keeps do not hold `VFU`. -/
theorem hasBit_kept (seen : BitVec 32) :
  hasBit (seen &&& r2cBits) vfuBit = false
  := by
  have hnone : r2cBits &&& vfuBit = 0#32 := by decide
  rw [hasBit, BitVec.and_assoc, hnone, BitVec.and_zero]
  rfl

/-- Clearing bits does not set others. -/
theorem hasBit_cleared {bits : BitVec 32} (mask : BitVec 32) (h : hasBit bits vfuBit = false) :
  hasBit (bits &&& ~~~ mask) vfuBit = false
  := by
  have hzero : bits &&& vfuBit = 0#32 := by simpa [hasBit] using h
  rw [hasBit, BitVec.and_assoc, BitVec.and_comm (~~~ mask), ← BitVec.and_assoc, hzero,
    BitVec.zero_and]
  rfl

/-- A change of the bits that the driver keeps. -/
theorem follows_cache (p : Port (D × Bool)) {bits : BitVec 32}
    (h : hasBit p.mbx.vfMailbox vfuBit = false → hasBit bits vfuBit = false) :
  Follows A p { p with mbx := { p.mbx with vfMailbox := bits } }
  := ⟨fun hp => ⟨h hp.cache, hp.size, hp.watch⟩, id, Or.inr rfl⟩

/-- `ixgbe_read_mailbox_vf` leaves the owner alone. -/
theorem readMailboxVf_follows :
  Keeps (Follows A) (readMailboxVf (watched A))
  := by
  apply keeps_bind ((reading_follows A).readReg _)
  intro value
  apply keeps_modifyGet
  intro p
  apply follows_cache
  intro hcache
  rw [hasBit_or, hcache, hasBit_kept]
  rfl

/-- `ixgbe_read_mailbox_vf` returns what shows the owner. -/
theorem readMailboxVf_shows :
  Ensures Sane (readMailboxVf (watched A)) (fun seen p => Sane p ∧ Shows A seen p)
  := by
  have hsane : Ensures Sane (readReg (watched A) vfMailbox) (fun _ => Sane) :=
    Keeps.ensures ((reading_follows A).readReg _) fun _ _ h => h.sane
  apply ensures_bind ((readReg_shows.and hsane).of fun _ hp => ⟨trivial, hp⟩)
  intro value
  apply ensures_modifyGet
  rintro p ⟨hshows, hsane⟩
  constructor
  · refine ⟨?_, hsane.size, hsane.watch⟩
    show hasBit (p.mbx.vfMailbox ||| _) vfuBit = false
    rw [hasBit_or, hsane.cache, hasBit_kept]
    rfl
  · have hseen : hasBit (value ||| p.mbx.vfMailbox) vfuBit = hasBit value vfuBit := by
      rw [hasBit_or, hsane.cache, Bool.or_false]
    exact hshows.imp_right hseen.trans

/-- The clearing of a bit leaves the owner alone. -/
theorem clearBitVf_follows (mask : BitVec 32) :
  Keeps (Follows A) (clearBitVf (watched A) mask)
  := by
  apply keeps_bind readMailboxVf_follows
  intro seen
  apply keeps_modify
  intro p
  split
  · apply follows_cache
    apply hasBit_cleared
  · apply refl_of

/-- So does the test for a bit. -/
theorem checkForBitVf_follows (mask : BitVec 32) :
  Keeps (Follows A) (checkForBitVf (watched A) mask)
  := by
  apply keeps_bind readMailboxVf_follows
  intro seen
  apply keeps_pure

/-- So does the test for an acknowledgement. -/
theorem checkForAckVf_follows :
  Keeps (Follows A) (checkForAckVf (watched A))
  := by
  apply keeps_bind (checkForBitVf_follows _)
  intro err
  apply keeps_ite
  · apply keeps_bind (clearBitVf_follows _)
    intro _
    apply keeps_pure
  · apply keeps_pure

/-- And so does the copy of a message out of the mailbox memory. -/
theorem readMbmem_follows (i n : ℕ) :
  Keeps (Follows A) (readMbmem (watched A) i n)
  := by
  induction n generalizing i with
  | zero => apply keeps_pure
  | succ n ih =>
    apply keeps_bind ((reading_follows A).readReg _)
    intro word
    apply keeps_bind (ih _)
    intro words
    apply keeps_pure

/-! ### Writes -/

/-- A write to the mailbox register is none to the mailbox memory. -/
theorem writeReg_sane (value : BitVec 32) :
  Ensures Sane (writeReg (watched A) vfMailbox value) (fun _ => Sane)
  := by
  apply ensures_modify
  intro p hp
  split
  · exact hp
  · refine ⟨hp.cache, hp.size, ?_⟩
    have hother : isMbmem vfMailbox = false := by decide
    simp [watched, hother, hp.watch]

/-- A write without `VFU` gives the buffer back. -/
theorem writeReg_drops {value : BitVec 32} (h : hasBit value vfuBit = false) :
  Ensures Sane (writeReg (watched A) vfMailbox value) (fun _ => Idle A)
  := by
  constructor
  intro p hp
  refine ⟨(writeReg_sane value).run p hp, ?_⟩
  show Free A (if p.removed then p else _)
  split
  · next hremoved => exact Or.inl (Or.inl hremoved)
  · rcases A.drops p.dev.1 value h with hgone | hfree
    · exact Or.inl (Or.inr hgone)
    · exact Or.inr hfree

/-- Whatever is written, a lost adapter stays lost. -/
theorem writeReg_lost (value : BitVec 32) :
  Ensures (fun p => Sane p ∧ Lost A p) (writeReg (watched A) vfMailbox value) (fun _ => Idle A)
  := by
  constructor
  intro p hp
  refine ⟨(writeReg_sane value).run p hp.1, Or.inl ?_⟩
  show Lost A (if p.removed then p else _)
  split
  · next hremoved => exact Or.inl hremoved
  · next hthere =>
    rcases hp.2 with hremoved | hgone
    · exact absurd hremoved hthere
    · exact Or.inr (A.write_gone _ _ _ hgone)

/-- A word of a message is written by the owner, and who is the owner still. -/
theorem writeReg_mbmem {i : ℕ} (word : BitVec 32) (hi : i < 16) :
  Ensures (Busy A) (writeReg (watched A) (vfMbmem + 4 * i) word) (fun _ => Busy A)
  := by
  apply ensures_modify
  intro p hp
  obtain ⟨hsane, hheld⟩ := hp
  split
  · exact ⟨hsane, hheld⟩
  · next hthere =>
    have howner : A.gone p.dev.1 = true ∨ A.owns p.dev.1 = true := by
      rcases hheld with (hremoved | hgone) | howns
      · exact absurd hremoved hthere
      · exact Or.inl hgone
      · exact Or.inr howns
    have hother : vfMbmem + 4 * i ≠ vfMailbox := by
      unfold vfMbmem vfMailbox
      omega
    refine ⟨⟨hsane.cache, hsane.size, ?_⟩, ?_⟩
    · rcases howner with hgone | howns
      · simp [watched, hsane.watch, hgone]
      · simp [watched, hsane.watch, howns]
    · rcases A.write_owns p.dev.1 _ word hother with hgone | hsame
      · exact Or.inl (Or.inr hgone)
      · rcases howner with hgone | howns
        · exact Or.inl (Or.inr (A.write_gone _ _ _ hgone))
        · exact Or.inr (hsame.trans howns)

/-- The copy of a message to the mailbox memory is one by the owner. -/
theorem writeMbmem_busy (i : ℕ) (msg : List (BitVec 32)) (h : i + msg.length ≤ 16) :
  Ensures (Busy A) (writeMbmem (watched A) i msg) (fun _ => Busy A)
  := by
  induction msg generalizing i with
  | nil =>
    apply ensures_pure
    intro p hp
    exact hp
  | cons word msg ih =>
    rw [List.length_cons] at h
    have hi : i < 16 := by omega
    apply ensures_bind (writeReg_mbmem word hi)
    intro _
    apply ih
    omega

/-! ### Taking the buffer and giving it back -/

/-- The outcome of `ixgbe_obtain_mbx_lock_vf`: without an error the VF owns the buffer, and with
one it does not. -/
def Obtained (A : Arbiter V) (err : ℤ) (p : Port (D × Bool)) : Prop :=
  if err = 0 then Busy A p else Idle A p

/-- The rounds of the lock end with the buffer or without it, as they say. -/
theorem lockRounds_obtained (countdown : ℕ) :
  Ensures (Idle A) (lockRounds (watched A) countdown) (Obtained A)
  := by
  induction countdown with
  | zero =>
    apply ensures_pure
    intro p hp
    exact hp
  | succ countdown ih =>
    apply ensures_bind (readMailboxVf_follows.ensures (P := Idle A) fun _ _ h => h.idle)
    intro seen
    apply ensures_ite
    · intro _
      apply ih
    · intro _
      -- whether the buffer is taken is only known by the read that follows
      apply ensures_bind ((writeReg_sane _).of fun _ hp => hp.1)
      intro _
      apply ensures_bind readMailboxVf_shows
      intro again
      apply ensures_ite
      · intro hbit
        apply ensures_pure
        rintro p ⟨hsane, hshows⟩
        exact ⟨hsane, hshows.held hbit⟩
      · intro hbit
        apply ih.of
        rintro p ⟨hsane, hshows⟩
        exact ⟨hsane, hshows.free (Bool.eq_false_iff.mpr hbit)⟩

/-- `ixgbe_obtain_mbx_lock_vf`. -/
theorem obtainMbxLockVf_obtained :
  Ensures (Idle A) (obtainMbxLockVf (watched A)) (Obtained A)
  := by
  apply ensures_get
  intro p hp
  apply ensures_ite
  · intro _
    apply ensures_pure
    rintro _ rfl
    exact hp
  · intro _
    apply (lockRounds_obtained _).of
    rintro _ rfl
    exact hp

/-- A function that takes the buffer goes on with it, or ends without it. -/
theorem ensures_obtain {β : Type} {Q : β → Port (D × Bool) → Prop} {fail : ℤ → β}
    {rest : ℤ → PortM (D × Bool) β} (hfail : ∀ err p, Idle A p → Q (fail err) p)
    (hrest : ∀ err, Ensures (Busy A) (rest err) Q) :
  Ensures (Idle A) (do
    let err ← obtainMbxLockVf (watched A)
    if err ≠ 0 then pure (fail err) else rest err) Q
  := by
  apply ensures_bind obtainMbxLockVf_obtained
  intro err
  apply ensures_ite
  · intro herr
    apply ensures_pure
    intro p hp
    rw [Obtained, if_neg herr] at hp
    exact hfail err p hp
  · intro herr
    rw [not_not] at herr
    apply (hrest err).of
    intro p hp
    rwa [Obtained, if_pos herr] at hp

/-- `ixgbe_release_mbx_lock_vf`. -/
theorem releaseMbxLockVf_idle :
  Ensures Sane (releaseMbxLockVf (watched A)) (fun _ => Idle A)
  := by
  apply ensures_bind readMailboxVf_shows
  intro seen
  have hcleared : hasBit (seen &&& ~~~ vfuBit) vfuBit = false := by
    have hnone : ~~~ vfuBit &&& vfuBit = 0#32 := by decide
    rw [hasBit, BitVec.and_assoc, hnone, BitVec.and_zero]
    rfl
  apply (writeReg_drops hcleared).of
  rintro p ⟨hsane, -⟩
  exact hsane

/-! ### The functions of the mailbox -/

/-- A program that leaves the owner alone leaves a free buffer free. -/
theorem Keeps.idle {α : Type} {m : PortM (D × Bool) α} (h : Keeps (Follows A) m) :
  Ensures (Idle A) m (fun _ => Idle A)
  := h.ensures fun _ _ h => h.idle

/-- A program that leaves the owner alone leaves the buffer to the VF. -/
theorem Keeps.busy {α : Type} {m : PortM (D × Bool) α} (h : Keeps (Follows A) m) :
  Ensures (Busy A) m (fun _ => Busy A)
  := h.ensures fun _ _ h => h.busy

/-- The write functions return without the buffer. -/
theorem write_idle (ops : MbxOps) (msg : List (BitVec 32)) {size : ℕ} (h : size ≤ 16) :
  Ensures (Idle A) (ops.write (watched A) msg size) (fun _ => Idle A)
  := by
  have hcopy : Ensures (Busy A) (writeMbmem (watched A) 0 (msg.take size)) (fun _ => Busy A) := by
    apply writeMbmem_busy
    rw [List.length_take]
    omega
  cases ops with
  | legacy =>
    apply ensures_obtain
    · intro err p hp
      exact hp
    · intro _
      apply ensures_bind (Keeps.busy (checkForBitVf_follows _))
      intro _
      apply ensures_bind (Keeps.busy (clearBitVf_follows _))
      intro _
      apply ensures_bind (Keeps.busy checkForAckVf_follows)
      intro _
      apply ensures_bind (Keeps.busy (clearBitVf_follows _))
      intro _
      apply ensures_bind hcopy
      intro _
      -- the request alone gives the buffer back
      have hreq : hasBit reqBit vfuBit = false := by decide
      apply ensures_bind ((writeReg_drops hreq).of fun _ hp => hp.1)
      intro _
      apply ensures_pure
      intro p hp
      exact hp
  | upgraded =>
    apply ensures_obtain
    · intro err p hp
      exact hp
    · intro _
      apply ensures_bind (Keeps.busy (clearBitVf_follows _))
      intro _
      apply ensures_bind (Keeps.busy (clearBitVf_follows _))
      intro _
      apply ensures_bind hcopy
      intro _
      apply ensures_bind (readMailboxVf_shows.of fun _ hp => hp.1)
      intro seen
      apply ensures_bind ((writeReg_sane _).of fun _ hp => hp.1)
      intro _
      apply ensures_bind releaseMbxLockVf_idle
      intro _
      exact Keeps.idle (keeps_pollFor checkForAckVf_follows)

/-- The read functions return without the buffer: the upgraded one does not take it, and what it
writes has `VFU` only if the VF owned it before. -/
theorem read_idle (ops : MbxOps) (msg : List (BitVec 32)) (size : ℕ) :
  Ensures (Idle A) (ops.read (watched A) msg size) (fun _ => Idle A)
  := by
  cases ops with
  | legacy =>
    apply ensures_obtain
    · intro err p hp
      exact hp
    · intro _
      apply ensures_bind (Keeps.busy (readMbmem_follows _ _))
      intro words
      have hack : hasBit ackBit vfuBit = false := by decide
      apply ensures_bind ((writeReg_drops hack).of fun _ hp => hp.1)
      intro _
      apply ensures_pure
      intro p hp
      exact hp
  | upgraded =>
    apply ensures_bind (Keeps.idle (checkForBitVf_follows _))
    intro err
    apply ensures_ite
    · intro _
      apply ensures_pure
      intro p hp
      exact hp
    · intro _
      apply ensures_bind (Keeps.idle (clearBitVf_follows _))
      intro _
      apply ensures_bind (Keeps.idle (readMbmem_follows _ _))
      intro words
      apply ensures_bind (((Keeps.idle readMailboxVf_follows).and readMailboxVf_shows).of
        fun _ hp => ⟨hp, hp.1⟩)
      intro seen
      apply ensures_bind (T := fun _ => Idle A)
      · cases hbit : hasBit seen vfuBit with
        | true =>
          apply (writeReg_lost _).of
          rintro p ⟨⟨hsane, hfree⟩, -, hshows⟩
          exact ⟨hsane, lost_of_free_held hfree (hshows.held hbit)⟩
        | false =>
          have hack : hasBit (seen ||| ackBit) vfuBit = false := by
            rw [hasBit_or, hbit]
            decide
          exact (writeReg_drops hack).of fun _ hp => hp.1.1
      · intro _
        apply ensures_pure
        intro p hp
        exact hp

/-- A call ends without the buffer. -/
theorem call_idle (call : Call) :
  Ensures (Idle A) (call.run (watched A)) (fun _ => Idle A)
  := by
  cases call with
  | params ops timeout =>
    apply ensures_modify
    rintro p ⟨hsane, hfree⟩
    exact ⟨⟨hsane.cache, Nat.le_refl 16, hsane.watch⟩, hfree⟩
  | read msg size =>
    apply ensures_bind (T := fun _ => Idle A)
    · apply ensures_get
      intro p hp
      apply (read_idle _ _ _).of
      rintro _ rfl
      exact hp
    · intro _
      apply ensures_pure
      intro p hp
      exact hp
  | poll msg size =>
    apply ensures_bind (T := fun _ => Idle A)
    · apply ensures_get
      intro p hp
      apply ensures_ite
      · intro _
        apply ensures_pure
        rintro _ rfl
        exact hp
      · intro _
        apply ensures_bind ((Keeps.idle (keeps_pollFor (checkForBitVf_follows _))).of _)
        · intro err
          apply ensures_ite
          · intro _
            apply read_idle
          · intro _
            apply ensures_pure
            intro p hp
            exact hp
        · rintro _ rfl
          exact hp
    · intro _
      apply ensures_pure
      intro p hp
      exact hp
  | write msg size =>
    apply ensures_bind (T := fun _ => Idle A)
    · apply ensures_get
      intro p hp
      apply ensures_ite
      · intro _
        apply ensures_pure
        rintro _ rfl
        exact hp
      · intro _
        apply ensures_ite
        · intro _
          apply ensures_pure
          rintro _ rfl
          exact hp
        · intro hsize
          have hlimit : size ≤ 16 := Nat.le_trans (Nat.le_of_not_lt hsize) hp.1.size
          apply (write_idle _ _ hlimit).of
          rintro _ rfl
          exact hp
    · intro _
      apply ensures_pure
      intro p hp
      exact hp

/-- Calls one after the other end without the buffer. -/
theorem runAll_idle (calls : List Call) :
  Ensures (Idle A) (runAll (watched A) calls) (fun _ => Idle A)
  := by
  induction calls with
  | nil =>
    apply ensures_pure
    intro p hp
    exact hp
  | cons call calls ih =>
    apply ensures_bind (call_idle call)
    intro _
    exact ih

end

/-- A port, with a witness of the writes to come. -/
def watching (p : Port D) : Port (D × Bool) :=
  { removed := p.removed
    mbx := p.mbx
    dev := (p.dev, true)
    reads := p.reads }

/-- Whatever the device and the PF do and whatever the timeout is, after any calls of mailbox
functions the VF does not own the buffer, or the adapter has been given up or the device does not
answer; and the VF owned the buffer at every write to the mailbox memory. -/
theorem calls_released
    (A : Arbiter V) {p : Port D} (hcache : hasBit p.mbx.vfMailbox vfuBit = false)
    (hsize : p.mbx.size ≤ 16) (hfree : A.owns p.dev = false) (calls : List Call) :
  let p' := ((runAll (watched A) calls).run (watching p)).2
  (p'.removed = true ∨ A.gone p'.dev.1 = true ∨ A.owns p'.dev.1 = false) ∧ p'.dev.2 = true
  := by
  have hidle : Idle A (watching p) := ⟨⟨hcache, hsize, rfl⟩, Or.inr hfree⟩
  obtain ⟨hsane, hreleased⟩ := (runAll_idle calls).run _ hidle
  exact ⟨or_assoc.mp hreleased, hsane.watch⟩

/-! ### A device that stops answering -/

/-- A mailbox register with `VFU` and `PFU`; every other register reads as `answer`. -/
def mailboxOnly (answer : BitVec 32) : Device (Bool × Bool) where
  read d reg :=
    (if reg = vfMailbox then
      (if d.1 then vfuBit else 0#32) ||| (if d.2 then pfuBit else 0#32)
    else
      answer, d)
  write d reg value := if reg = vfMailbox then (hasBit value vfuBit && !d.2, d.2) else d

/-- It shows who owns the buffer, and gives it to the VF while the PF does not have it. -/
def mailboxArbiter (answer : BitVec 32) : Arbiter (mailboxOnly answer) where
  owns d := d.1
  gone _ := false
  read_gone _ _ h := h
  write_gone _ _ _ h := h
  read_owns _ _ := Or.inr rfl
  shows := by
    rintro ⟨vfu, pfu⟩
    cases vfu <;> cases pfu <;> simp [mailboxOnly, hasBit, vfuBit, pfuBit]
  drops := by
    intro d value h
    simp [mailboxOnly, h]
  write_owns := by
    intro d reg value h
    simp [mailboxOnly, h]

/-- A port to it with the legacy functions, before the first call. -/
def firstPort : Port (Bool × Bool) :=
  { removed := false
    mbx := { mbxParamsVf .legacy 0#32 with timeout := 1 }
    dev := (false, false)
    reads := [] }

/-- A message is written and one is read. -/
theorem mailboxOnly_released :
  let A := mailboxArbiter 0#32
  let p' := ((runAll (watched A) [.write [0#32] 1, .read [0#32] 1]).run (watching firstPort)).2
  (p'.removed = true ∨ A.gone p'.dev.1 = true ∨ A.owns p'.dev.1 = false) ∧ p'.dev.2 = true
  := calls_released (mailboxArbiter 0#32) (p := firstPort) (by decide) (Nat.le_refl 16) (by decide) _

/-- The mailbox memory and the status register stop answering while a message is read: the driver
gives the adapter up with the buffer in its hands. -/
theorem mailboxOnly_not_released :
  ¬ ∀ (D : Type) (V : Device D) (A : Arbiter V) (p : Port D) (calls : List Call),
    (∀ d, A.gone d = false) → hasBit p.mbx.vfMailbox vfuBit = false → p.mbx.size ≤ 16 →
    A.owns p.dev = false → A.owns ((runAll (watched A) calls).run (watching p)).2.dev.1 = false
  := by
  intro h
  have hbad := h _ _ (mailboxArbiter failedReadReg) firstPort [.read [0#32] 1] (fun _ => rfl) rfl
    (Nat.le_refl 16) rfl
  revert hbad
  decide +kernel

end Ixgbevf.Lock
