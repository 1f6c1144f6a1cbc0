import Ixgbevf.Mac
import Ixgbevf.Mailbox.Accesses
import Ixgbevf.Mailbox.Removal

/-!
# Whose reply a reset takes

`ixgbe_reset_hw_vf` sends its request without looking at whether it could be sent, waits for a
message and takes it for the reply if its first word is one.  The VF and the PF write to one
mailbox memory, which holds what was written to it last, also from sessions before.
-/

namespace Ixgbevf.Freshness

open StateProgram

/-! ### A memory that is shared -/

/-- What the PF and the rest of the hardware do, over states `P`. -/
structure Pf (P : Type) where
  /-- What the PF writes to the mailbox memory before an access of the VF. -/
  act : P → P × List (ℕ × BitVec 32)
  /-- A read of another register. -/
  read : P → ℕ → BitVec 32 × P
  /-- A write to another register. -/
  write : P → ℕ → BitVec 32 → P
  /-- A read of the mailbox memory gets through. -/
  reaches : P → Bool

/-- A write to the mailbox memory, by one side. -/
inductive Write where
  | vf (reg : ℕ) (value : BitVec 32)
  | pf (reg : ℕ) (value : BitVec 32)
  deriving DecidableEq

/-- The hardware with the mailbox memory and a record of the writes to it. -/
structure Shared (P : Type) where
  /-- The state of the PF and of the rest of the hardware. -/
  pf : P
  /-- The mailbox memory. -/
  mem : ℕ → BitVec 32
  /-- The writes so far. -/
  log : List Write

variable {P : Type} (F : Pf P)

/-- A write by the PF. -/
def Shared.put (d : Shared P) (w : ℕ × BitVec 32) : Shared P :=
  { d with
    mem := fun reg => if reg = w.1 then w.2 else d.mem reg
    log := d.log ++ [.pf w.1 w.2] }

/-- The PF acts. -/
def Shared.turn (d : Shared P) : Shared P :=
  (F.act d.pf).2.foldl Shared.put { d with pf := (F.act d.pf).1 }

/-- The device with a shared mailbox memory. -/
def sharedDevice : Device (Shared P) where
  read d reg :=
    let d := d.turn F
    if vfMbmem ≤ reg ∧ reg < vfMailbox then
      (if F.reaches d.pf then d.mem reg else failedReadReg, d)
    else
      ((F.read d.pf reg).1, { d with pf := (F.read d.pf reg).2 })
  write d reg value :=
    let d := d.turn F
    if vfMbmem ≤ reg ∧ reg < vfMailbox then
      { d with
        mem := fun r => if r = reg then value else d.mem r
        log := d.log ++ [.vf reg value] }
    else
      { d with pf := F.write d.pf reg value }

/-! ### While only the PF writes -/

/-- From `p` to `p'` only the PF wrote to the mailbox memory, the writes `t`, and the first word
is what it was or what the PF wrote. -/
structure FollowsBy (t : List Write) (p p' : Port (Shared P)) : Prop where
  /-- The writes. -/
  log : p'.dev.log = p.dev.log ++ t
  /-- They are writes by the PF. -/
  pf : ∀ e ∈ t, ∃ reg value, e = .pf reg value
  /-- The first word. -/
  mem : p'.dev.mem vfMbmem = p.dev.mem vfMbmem ∨ .pf vfMbmem (p'.dev.mem vfMbmem) ∈ t

/-- From `p` to `p'` only the PF wrote to the mailbox memory. -/
def Follows (p p' : Port (Shared P)) : Prop := ∃ t, FollowsBy t p p'

/-- One stretch after the other. -/
theorem FollowsBy.trans {t t' : List Write} {p p' p'' : Port (Shared P)} (h : FollowsBy t p p')
    (h' : FollowsBy t' p' p'') :
  FollowsBy (t ++ t') p p''
  := by
  refine ⟨?_, ?_, ?_⟩
  · rw [h'.log, h.log, List.append_assoc]
  · intro e he
    obtain he | he := List.mem_append.mp he
    · exact h.pf e he
    · exact h'.pf e he
  · obtain hmem' | hmem' := h'.mem
    · rw [hmem']
      exact h.mem.imp_right fun hmem => List.mem_append_left t' hmem
    · exact .inr (List.mem_append_right _ hmem')

/-- Where nothing happens. -/
theorem FollowsBy.refl (p : Port (Shared P)) :
  FollowsBy [] p p
  := ⟨(List.append_nil _).symm, by simp, .inl rfl⟩

instance : IsPreorder (Port (Shared P)) Follows where
  refl p := ⟨[], .refl p⟩
  trans _ _ _ := fun ⟨_, h⟩ ⟨_, h'⟩ => ⟨_, h.trans h'⟩

/-- A port that differs in nothing that matters here. -/
theorem Follows.of_same {p p' : Port (Shared P)} (hmem : p'.dev.mem = p.dev.mem)
    (hlog : p'.dev.log = p.dev.log) :
  Follows p p'
  := ⟨[], by rw [hlog, List.append_nil], by simp, .inl (by rw [hmem])⟩

/-- Writes by the PF. -/
theorem follows_puts (ws : List (ℕ × BitVec 32)) (p : Port (Shared P)) :
  Follows p { p with dev := ws.foldl Shared.put p.dev }
  := by
  induction ws generalizing p with
  | nil => exact refl_of Follows p
  | cons w ws ih =>
    have hput : Follows p { p with dev := p.dev.put w } := by
      refine ⟨[.pf w.1 w.2], rfl, by simp, ?_⟩
      by_cases hreg : vfMbmem = w.1
      · right
        simp [Shared.put, ← hreg]
      · left
        simp [Shared.put, hreg]
    exact trans_of Follows hput (ih { p with dev := p.dev.put w })

/-- The PF acts. -/
theorem follows_turn (p : Port (Shared P)) :
  Follows p { p with dev := p.dev.turn F }
  := by
  have hsame : Follows p { p with dev := { p.dev with pf := (F.act p.dev.pf).1 } } :=
    .of_same rfl rfl
  exact trans_of Follows hsame
    (follows_puts (F.act p.dev.pf).2 { p with dev := { p.dev with pf := (F.act p.dev.pf).1 } })

/-- A read of the device. -/
theorem readl_follows (reg : ℕ) :
  Keeps Follows (readl (sharedDevice F) reg)
  := by
  apply keeps_modifyGet
  intro p
  apply trans_of Follows (follows_turn F p)
  simp only [sharedDevice]
  split
  · exact refl_of Follows _
  · exact .of_same rfl rfl

/-- Reads leave the mailbox memory to the PF. -/
theorem follows_reading :
  Reading (sharedDevice F) Follows
  := by
  constructor
  · apply readl_follows
  · intro p
    exact .of_same rfl rfl
  · intro p t
    exact .of_same rfl rfl

/-- Register accesses outside the mailbox memory leave it to the PF. -/
theorem follows_accesses :
  Accesses (sharedDevice F) Follows
  := by
  constructor
  · apply (follows_reading F).readReg
  · intro reg value hreg
    apply keeps_modify
    intro p
    split
    · exact refl_of Follows p
    · apply trans_of Follows (follows_turn F p)
      simp only [sharedDevice, if_neg hreg]
      exact .of_same rfl rfl
  · intro p bits
    exact .of_same rfl rfl

/-! ### What is read at the first word -/

/-- A value that is read at the first word is there at the beginning or written by the PF since,
unless the read failed. -/
def Observes (p : Port (Shared P)) (value : BitVec 32) (p' : Port (Shared P)) : Prop :=
  ∃ t, FollowsBy t p p'
    ∧ (value = failedReadReg ∨ value = p.dev.mem vfMbmem ∨ .pf vfMbmem value ∈ t)

/-- Before a value is read only the PF wrote. -/
theorem Observes.of_follows {p p₁ p' : Port (Shared P)} {value : BitVec 32} (h : Follows p p₁)
    (h' : Observes p₁ value p') :
  Observes p value p'
  := by
  obtain ⟨t, ht⟩ := h
  obtain ⟨t', ht', hvalue⟩ := h'
  refine ⟨t ++ t', ht.trans ht', ?_⟩
  obtain hvalue | hvalue | hvalue := hvalue
  · exact .inl hvalue
  · rw [hvalue]
    exact .inr (ht.mem.imp_right fun hmem => List.mem_append_left t' hmem)
  · exact .inr (.inr (List.mem_append_right t hvalue))

/-- After a value is read only the PF writes. -/
theorem Observes.follows {p p₁ p' : Port (Shared P)} {value : BitVec 32} (h : Observes p value p₁)
    (h' : Follows p₁ p') :
  Observes p value p'
  := by
  obtain ⟨t, ht, hvalue⟩ := h
  obtain ⟨t', ht'⟩ := h'
  exact ⟨t ++ t', ht.trans ht',
    hvalue.imp_right (Or.imp_right fun hmem => List.mem_append_left t' hmem)⟩

/-- A value that was observed before. -/
theorem Observes.failed {p p' : Port (Shared P)} (h : Follows p p') :
  Observes p failedReadReg p'
  := by
  obtain ⟨t, ht⟩ := h
  exact ⟨t, ht, .inl rfl⟩

/-- A read of the first word from the device. -/
theorem readl_observes (p : Port (Shared P)) :
  Observes p ((readl (sharedDevice F) vfMbmem).run p).1 ((readl (sharedDevice F) vfMbmem).run p).2
  := by
  have hin : vfMbmem ≤ vfMbmem ∧ vfMbmem < vfMailbox := by decide
  have hrun : (readl (sharedDevice F) vfMbmem).run p
      = (if F.reaches (p.dev.turn F).pf then (p.dev.turn F).mem vfMbmem else failedReadReg,
        { p with dev := p.dev.turn F }) := by
    show ((((sharedDevice F).read p.dev vfMbmem).1),
      { p with dev := ((sharedDevice F).read p.dev vfMbmem).2 }) = _
    simp only [sharedDevice, if_pos hin]
  have hturn := follows_turn F p
  rw [hrun]
  split
  · apply Observes.of_follows hturn
    exact ⟨[], .refl _, .inr (.inl rfl)⟩
  · exact .failed hturn

/-- Reading the first word again. -/
theorem rereads_observes {p₀ p : Port (Shared P)} {value : BitVec 32} (n : ℕ)
    (h : Observes p₀ value p) :
  Observes p₀ ((rereads (sharedDevice F) vfMbmem n value).run p).1
    ((rereads (sharedDevice F) vfMbmem n value).run p).2
  := by
  induction n generalizing value p with
  | zero => exact h
  | succ n ih =>
    apply run_bind_of (fun value p' => Observes p₀ value p')
      (fun r : BitVec 32 × Port (Shared P) => Observes p₀ r.1 r.2)
    · obtain ⟨t, ht, -⟩ := h
      exact (readl_observes F p).of_follows ⟨t, ht⟩
    · intro value p₁ h₁
      split
      · exact h₁
      · exact ih h₁

/-- A read of the first word. -/
theorem readReg_observes (p : Port (Shared P)) :
  Observes p ((readReg (sharedDevice F) vfMbmem).run p).1
    ((readReg (sharedDevice F) vfMbmem).run p).2
  := by
  have hwith : Observes p
      ((readRegWith (sharedDevice F) (checkRemove (sharedDevice F) vfMbmem) vfMbmem).run p).1
      ((readRegWith (sharedDevice F) (checkRemove (sharedDevice F) vfMbmem) vfMbmem).run p).2 := by
    rw [readRegWith, run_get_bind]
    split
    · exact .failed (refl_of Follows p)
    · apply run_bind_of (fun value p' => Observes p value p')
        (fun r : BitVec 32 × Port (Shared P) => Observes p r.1 r.2) (readl_observes F p)
      intro value p₁ h₁
      apply run_bind_of (fun _ p' => Observes p value p')
        (fun r : BitVec 32 × Port (Shared P) => Observes p r.1 r.2)
      · have hcheck : Keeps Follows
            (if value = failedReadReg then checkRemove (sharedDevice F) vfMbmem else pure ()) :=
          keeps_ite ((follows_reading F).checkRemove vfMbmem) (keeps_pure _)
        exact h₁.follows (hcheck p₁)
      · intro _ p₂ h₂
        split
        next hdead =>
          subst hdead
          rw [validateRegisterRead, run_get_bind]
          split
          · obtain ⟨t, ht, -⟩ := h₂
            exact .failed ⟨t, ht⟩
          · exact rereads_observes F _ h₂
        · exact h₂
  obtain ⟨t, ht, hvalue⟩ := hwith
  exact ⟨t, ⟨ht.log, ht.pf, ht.mem⟩, hvalue⟩

/-- The words of a reply, by the first one. -/
theorem readMbmem_observes (n : ℕ) (p : Port (Shared P)) :
  ∃ word words, ((readMbmem (sharedDevice F) 0 (n + 1)).run p).1 = word :: words
    ∧ Observes p word ((readMbmem (sharedDevice F) 0 (n + 1)).run p).2
  := by
  apply run_bind_of (fun value p' => Observes p value p')
    (fun r : List (BitVec 32) × Port (Shared P) =>
      ∃ word words, r.1 = word :: words ∧ Observes p word r.2)
    (readReg_observes F p)
  intro value p₁ h₁
  exact ⟨value, _, rfl, h₁.follows ((follows_accesses F).readMbmem 1 n p₁)⟩

/-- The words of a message that is read, when only the signal is sent after that. -/
theorem copies_observes {p p₁ : Port (Shared P)} {signal : PortM (Shared P) Unit} (n : ℕ)
    (msg : List (BitVec 32)) (h : Follows p p₁) (hsignal : Keeps Follows signal) :
  let r := (do
    let words ← readMbmem (sharedDevice F) 0 (n + 1)
    signal
    pure ((0 : ℤ), words ++ msg) : PortM (Shared P) (ℤ × List (BitVec 32))).run p₁
  Observes p (r.1.2.getD 0 0#32) r.2
  := by
  apply run_bind_of (fun words p' => ∃ word rest, words = word :: rest ∧ Observes p word p')
    (fun r : (ℤ × List (BitVec 32)) × Port (Shared P) => Observes p (r.1.2.getD 0 0#32) r.2)
  · obtain ⟨word, rest, hwords, hobserves⟩ := readMbmem_observes F n p₁
    exact ⟨word, rest, hwords, hobserves.of_follows h⟩
  · rintro _ p₂ ⟨word, rest, rfl, h₂⟩
    exact h₂.follows (hsignal p₂)

/-- A message that is read. -/
theorem MbxOps.read_observes (ops : MbxOps) (msg : List (BitVec 32)) {size : ℕ} (hpos : 0 < size)
    (p : Port (Shared P)) :
  ((ops.read (sharedDevice F) msg size).run p).1.1 = 0 →
    Observes p (((ops.read (sharedDevice F) msg size).run p).1.2.getD 0 0#32)
      ((ops.read (sharedDevice F) msg size).run p).2
  := by
  obtain ⟨n, rfl⟩ := Nat.exists_eq_succ_of_ne_zero (Nat.ne_of_gt hpos)
  have haccesses := follows_accesses F
  cases ops with
  | legacy =>
    apply run_bind_of (fun _ p' => Follows p p')
      (fun r : (ℤ × List (BitVec 32)) × Port (Shared P) =>
        r.1.1 = 0 → Observes p (r.1.2.getD 0 0#32) r.2) (haccesses.obtainMbxLockVf p)
    intro err p₁ h₁
    split
    next herr =>
      intro hzero
      exact absurd hzero herr
    · intro _
      exact copies_observes F n _ h₁ (haccesses.write _ _ (by decide))
  | upgraded =>
    have hnomsg : errMbxNomsg ≠ 0 := by decide
    apply run_bind_of (fun _ p' => Follows p p')
      (fun r : (ℤ × List (BitVec 32)) × Port (Shared P) =>
        r.1.1 = 0 → Observes p (r.1.2.getD 0 0#32) r.2) (haccesses.checkForBitVf _ p)
    intro err p₁ h₁
    split
    · intro hzero
      exact absurd hzero hnomsg
    · intro _
      apply run_bind_of (fun _ p' => Follows p p')
        (fun r : (ℤ × List (BitVec 32)) × Port (Shared P) => Observes p (r.1.2.getD 0 0#32) r.2)
        (trans_of Follows h₁ (haccesses.clearBitVf _ p₁))
      intro _ p₂ h₂
      have hsignal : Keeps Follows (do
          let seen ← readMailboxVf (sharedDevice F)
          writeReg (sharedDevice F) vfMailbox (seen ||| ackBit)) := by
        apply keeps_bind haccesses.readMailboxVf
        intro seen
        exact haccesses.write _ _ (by decide)
      exact copies_observes F n _ h₂ hsignal

/-- The reply that is waited for and read. -/
theorem pollMbx_observes (msg : List (BitVec 32)) {size : ℕ} (hpos : 0 < size)
    (p : Port (Shared P)) :
  ((pollMbx (sharedDevice F) msg size).run p).1.1 = 0 →
    Observes p (((pollMbx (sharedDevice F) msg size).run p).1.2.getD 0 0#32)
      ((pollMbx (sharedDevice F) msg size).run p).2
  := by
  have hconfig : errConfig ≠ 0 := by decide
  rw [pollMbx, run_get_bind]
  split
  · intro hzero
    exact absurd hzero hconfig
  · apply run_bind_of (fun _ p' => Follows p p')
      (fun r : (ℤ × List (BitVec 32)) × Port (Shared P) =>
        r.1.1 = 0 → Observes p (r.1.2.getD 0 0#32) r.2) ((follows_accesses F).pollForMsg p)
    intro err p₁ h₁
    split
    · intro hzero
      have hsize : 0 < min size p.mbx.size := Nat.lt_min.mpr ⟨hpos, p.mbx.size_pos⟩
      exact (MbxOps.read_observes F p.mbx.ops msg hsize p₁ hzero).of_follows h₁
    next herr =>
      intro hzero
      exact absurd hzero herr

/-! ### The request -/

/-- The request is put into the mailbox memory. -/
structure Puts (p p' : Port (Shared P)) : Prop where
  /-- The write. -/
  log : p'.dev.log = p.dev.log ++ [.vf vfMbmem vfReset]
  /-- The first word. -/
  mem : p'.dev.mem vfMbmem = vfReset

/-- From `p` to `p'` the request is put into the mailbox memory, unless the adapter is given up. -/
def Requests (p p' : Port (Shared P)) : Prop :=
  Removal.Gone (sharedDevice F) p' ∨ ∃ p₁ p₂, Follows p p₁ ∧ Puts p₁ p₂ ∧ Follows p₂ p'

/-- The write of the request. -/
theorem writeReg_requests {p p₁ : Port (Shared P)} (h : Follows p p₁) :
  Requests F p ((writeReg (sharedDevice F) vfMbmem vfReset).run p₁).2
  := by
  have hin : vfMbmem ≤ vfMbmem ∧ vfMbmem < vfMailbox := by decide
  show Requests F p (if p₁.removed then p₁
    else { p₁ with dev := (sharedDevice F).write p₁.dev vfMbmem vfReset })
  split
  next hremoved => exact .inl (.inl hremoved)
  · right
    refine ⟨{ p₁ with dev := p₁.dev.turn F }, _, trans_of Follows h (follows_turn F p₁), ?_,
      refl_of Follows _⟩
    simp only [sharedDevice, if_pos hin]
    constructor
    · rfl
    · simp

/-- What comes after the request. -/
theorem Requests.follows {p p₁ p' : Port (Shared P)} {m : PortM (Shared P) Unit}
    (h : Requests F p p₁) (hfollows : Keeps Follows m)
    (hgone : Within (Removal.Gone (sharedDevice F)) (fun _ => True) m) (hrun : (m.run p₁).2 = p') :
  Requests F p p'
  := by
  subst hrun
  obtain hgone₁ | ⟨p₂, p₃, h₂, hputs, h₃⟩ := h
  · exact .inl (hgone _ hgone₁).2
  · exact .inr ⟨p₂, p₃, h₂, hputs, trans_of Follows h₃ (hfollows p₁)⟩

/-- Where the lock is taken the request is written. -/
theorem writeMbxVfLegacy_requests {p : Port (Shared P)}
    (h : ((obtainMbxLockVf (sharedDevice F)).run p).1 = 0) :
  Requests F p ((writeMbxVfLegacy (sharedDevice F) [vfReset] 1).run p).2
  := by
  have haccesses := follows_accesses F
  apply run_bind_of (fun err p' => err = 0 ∧ Follows p p')
    (fun r : ℤ × Port (Shared P) => Requests F p r.2) ⟨h, haccesses.obtainMbxLockVf p⟩
  rintro _ p₁ ⟨rfl, h₁⟩
  rw [if_neg (by decide)]
  apply run_bind_of (fun _ p' => Follows p p')
    (fun r : ℤ × Port (Shared P) => Requests F p r.2)
    (trans_of Follows h₁ (haccesses.checkForBitVf _ p₁))
  intro _ p₂ h₂
  apply run_bind_of (fun _ p' => Follows p p')
    (fun r : ℤ × Port (Shared P) => Requests F p r.2)
    (trans_of Follows h₂ (haccesses.clearBitVf _ p₂))
  intro _ p₃ h₃
  apply run_bind_of (fun _ p' => Follows p p')
    (fun r : ℤ × Port (Shared P) => Requests F p r.2)
    (trans_of Follows h₃ (haccesses.checkForAckVf p₃))
  intro _ p₄ h₄
  apply run_bind_of (fun _ p' => Follows p p')
    (fun r : ℤ × Port (Shared P) => Requests F p r.2)
    (trans_of Follows h₄ (haccesses.clearBitVf _ p₄))
  intro _ p₅ h₅
  apply run_bind_of (fun _ p' => Requests F p p')
    (fun r : ℤ × Port (Shared P) => Requests F p r.2) (writeReg_requests F h₅)
  intro _ p₆ h₆
  exact h₆.follows F (haccesses.write vfMailbox reqBit (by decide))
    (Removal.writeReg_gone (sharedDevice F) vfMailbox reqBit) rfl

/-- Where the lock is not taken nothing is written. -/
theorem writeMbxVfLegacy_follows {p : Port (Shared P)}
    (h : ((obtainMbxLockVf (sharedDevice F)).run p).1 ≠ 0) :
  Follows p ((writeMbxVfLegacy (sharedDevice F) [vfReset] 1).run p).2
  := by
  apply run_bind_of (fun err p' => err ≠ 0 ∧ Follows p p')
    (fun r : ℤ × Port (Shared P) => Follows p r.2) ⟨h, (follows_accesses F).obtainMbxLockVf p⟩
  rintro err p₁ ⟨herr, h₁⟩
  rw [if_pos herr]
  exact h₁

/-! ### The reset -/

variable {D : Type} (V : Device D)

/-- `ixgbe_reset_hw_vf` up to the end of its wait for the reset: whether that timed out. -/
def resetStart : VfM D Bool := do
  let v ← get
  talk (stopAdapterVf V v.maxTxQueues.toNat v.maxRxQueues.toNat)
  modify fun v => { v with
    apiVersion := .api10
    port := { v.port with mbx := v.port.mbx.initParamsVf } }
  talk (writeReg V vfCtrl ctrlRst)
  talk (writeFlush V)
  talk (rstRounds V vfInitTimeout)

/-- What `ixgbe_reset_hw_vf` does before its request. -/
def prepareRequest : VfM D Unit := do
  talk (virtClrReg V)
  talk (modify fun p => { p with mbx := { p.mbx with timeout := vfMbxInitTimeout } })

/-- The wait for the reset times out. -/
def TimesOut (v : Vf D) : Prop := ((resetStart V).run v).1 = true

/-- The port at the request. -/
def atRequest (v : Vf D) : Port D := ((prepareRequest V).run ((resetStart V).run v).2).2.port

/-- The lock for the request is obtained. -/
def Locks (v : Vf D) : Prop := ((obtainMbxLockVf V).run (atRequest V v)).1 = 0

/-- A word is the first one of a reply to the request of a reset. -/
def IsResetReply (word : BitVec 32) : Prop :=
  word = vfReset ||| msgtypeSuccess ∨ word = vfReset ||| msgtypeFailure

instance (word : BitVec 32) : Decidable (IsResetReply word) :=
  inferInstanceAs (Decidable (_ ∨ _))

/-- After the request a message is found that looks like a reply. -/
def FindsReply (v : Vf D) : Prop :=
  ((resetExchange V).run (atRequest V v)).1.1 = 0
    ∧ IsResetReply (((resetExchange V).run (atRequest V v)).1.2.getD 0 0#32)

/-- `ixgbe_reset_hw_vf` when the message is there. -/
def takeReply (x : ℤ × List (BitVec 32)) : VfM D ℤ := do
  let word := x.2.getD 0 0#32
  if x.1 ≠ 0 then
    pure x.1
  else if word ≠ vfReset ||| msgtypeSuccess ∧ word ≠ vfReset ||| msgtypeFailure then
    pure errInvalidMacAddr
  else do
    modify fun v => { v with
      permAddr := if word = vfReset ||| msgtypeSuccess then msgAddr x.2 else v.permAddr
      mcFilterType := x.2.getD vfMcTypeWord 0#32 }
    pure 0

/-- `ixgbe_reset_hw_vf` in its parts. -/
theorem resetHwVf_eq :
  resetHwVf V = (do
    let timedOut ← resetStart V
    if timedOut then
      pure errResetFailed
    else do
      prepareRequest V
      let x ← talk (resetExchange V)
      takeReply x)
  := by
  simp only [resetHwVf, resetDeviceVf, resetStart, prepareRequest, bind_assoc]
  rfl

/-- A reset that times out. -/
theorem resetHwVf_run_of_timesOut {v : Vf D} (h : TimesOut V v) :
  (resetHwVf V).run v = (errResetFailed, ((resetStart V).run v).2)
  := by
  rw [resetHwVf_eq]
  apply run_bind_of (fun timedOut v' => timedOut = true ∧ v' = ((resetStart V).run v).2)
    (fun r : ℤ × Vf D => r = (errResetFailed, ((resetStart V).run v).2)) ⟨h, rfl⟩
  rintro _ _ ⟨rfl, rfl⟩
  rfl

/-- A reset that does not time out. -/
theorem resetHwVf_run_of_not {v : Vf D} (h : ¬ TimesOut V v) :
  (resetHwVf V).run v = (takeReply ((resetExchange V).run (atRequest V v)).1).run
    { ((prepareRequest V).run ((resetStart V).run v).2).2 with
      port := ((resetExchange V).run (atRequest V v)).2 }
  := by
  have hnot : ((resetStart V).run v).1 = false := Bool.eq_false_iff.mpr h
  have htalk (v : Vf D) : (talk (resetExchange V)).run v
      = (((resetExchange V).run v.port).1, { v with port := ((resetExchange V).run v.port).2 }) :=
    rfl
  rw [resetHwVf_eq, run_bind, hnot, if_neg Bool.false_ne_true, run_bind, run_bind, htalk, atRequest]

/-- What the end of `ixgbe_reset_hw_vf` returns and records. -/
theorem takeReply_run (x : ℤ × List (BitVec 32)) (v : Vf D) :
  ((takeReply x).run v).2.port = v.port
    ∧ (((takeReply x).run v).1 = 0 ↔ x.1 = 0 ∧ IsResetReply (x.2.getD 0 0#32))
    ∧ (((takeReply x).run v).1 ≠ 0 → ((takeReply x).run v).2 = v)
  := by
  have hinvalid : errInvalidMacAddr ≠ 0 := by decide
  rw [takeReply]
  split
  next herr => exact ⟨rfl, iff_of_false herr fun h => herr h.1, fun _ => rfl⟩
  next herr =>
    rw [not_not] at herr
    split
    next hword =>
      refine ⟨rfl, iff_of_false hinvalid ?_, fun _ => rfl⟩
      rintro ⟨-, hreply | hreply⟩
      · exact hword.1 hreply
      · exact hword.2 hreply
    next hword =>
      refine ⟨rfl, iff_of_true rfl ⟨herr, ?_⟩, fun hne => absurd rfl hne⟩
      rw [IsResetReply]
      tauto

/-- `ixgbe_reset_hw_vf` succeeds exactly when it does not time out and finds a reply. -/
theorem resetHwVf_ret (v : Vf D) :
  ((resetHwVf V).run v).1 = 0 ↔ ¬ TimesOut V v ∧ FindsReply V v
  := by
  have hfailed : errResetFailed ≠ 0 := by decide
  by_cases htime : TimesOut V v
  · rw [resetHwVf_run_of_timesOut V htime]
    simp [htime, hfailed]
  · obtain ⟨-, hret, -⟩ := takeReply_run ((resetExchange V).run (atRequest V v)).1
      { ((prepareRequest V).run ((resetStart V).run v).2).2 with
        port := ((resetExchange V).run (atRequest V v)).2 }
    rw [resetHwVf_run_of_not V htime, hret]
    simp [htime, FindsReply]

/-- The address and the filter type are the same. -/
structure SameGrant (v v' : Vf D) : Prop where
  /-- `mac.perm_addr`. -/
  permAddr : v'.permAddr = v.permAddr
  /-- `mac.mc_filter_type`. -/
  mcFilterType : v'.mcFilterType = v.mcFilterType

instance : IsPreorder (Vf D) SameGrant where
  refl _ := ⟨rfl, rfl⟩
  trans _ _ _ h h' := ⟨h'.permAddr.trans h.permAddr, h'.mcFilterType.trans h.mcFilterType⟩

/-- A program of the mailbox layer records no address. -/
theorem talk_sameGrant {α : Type} (m : PortM D α) :
  Keeps SameGrant (talk m)
  := fun _ => ⟨rfl, rfl⟩

/-- Before the wait ends no address is recorded. -/
theorem resetStart_sameGrant :
  Keeps SameGrant (resetStart V)
  := by
  apply keeps_bind
  · apply keeps_get
  intro v
  apply keeps_bind (talk_sameGrant _)
  intro _
  apply keeps_bind
  · apply keeps_modify
    intro v
    exact ⟨rfl, rfl⟩
  · intro _
    apply keeps_bind (talk_sameGrant _)
    intro _
    apply keeps_bind (talk_sameGrant _)
    intro _
    apply talk_sameGrant

/-- A reset that fails leaves the address and the filter type alone. -/
theorem resetHwVf_failed {v : Vf D} (h : ((resetHwVf V).run v).1 ≠ 0) :
  SameGrant v ((resetHwVf V).run v).2
  := by
  have hstart := resetStart_sameGrant V v
  by_cases htime : TimesOut V v
  · rw [resetHwVf_run_of_timesOut V htime]
    exact hstart
  · rw [resetHwVf_run_of_not V htime] at h ⊢
    obtain ⟨-, -, hsame⟩ := takeReply_run ((resetExchange V).run (atRequest V v)).1
      { ((prepareRequest V).run ((resetStart V).run v).2).2 with
        port := ((resetExchange V).run (atRequest V v)).2 }
    rw [hsame h]
    exact ⟨hstart.permAddr, hstart.mcFilterType⟩

/-! ### The memory up to the request -/

/-- A program of the mailbox layer, by what it does to the mailbox memory. -/
theorem talk_follows {α : Type} {m : PortM (Shared P) α} (h : Keeps Follows m) :
  Keeps (fun v v' : Vf (Shared P) => Follows v.port v'.port) (talk m)
  := fun v => h v.port

instance : IsPreorder (Vf (Shared P)) (fun v v' => Follows v.port v'.port) where
  refl v := refl_of Follows v.port
  trans _ _ _ h h' := trans_of Follows h h'

/-- Up to the end of the wait. -/
theorem resetStart_follows (v : Vf (Shared P)) :
  Follows v.port ((resetStart (sharedDevice F)).run v).2.port
  := by
  have hstart : Keeps (fun v v' : Vf (Shared P) => Follows v.port v'.port)
      (resetStart (sharedDevice F)) := by
    apply keeps_bind
    · apply keeps_get
    · intro v
      apply keeps_bind (talk_follows ((follows_accesses F).stopAdapterVf _ _))
      intro _
      apply keeps_bind
      · apply keeps_modify
        intro v
        exact .of_same rfl rfl
      · intro _
        apply keeps_bind (talk_follows ((follows_accesses F).write _ _ (by decide)))
        intro _
        apply keeps_bind (talk_follows (follows_accesses F).writeFlush)
        intro _
        exact talk_follows ((follows_accesses F).rstRounds _)
  exact hstart v

/-- Up to the request. -/
theorem atRequest_follows (v : Vf (Shared P)) :
  Follows v.port (atRequest (sharedDevice F) v)
  := by
  have hprepare : Keeps (fun v v' : Vf (Shared P) => Follows v.port v'.port)
      (prepareRequest (sharedDevice F)) := by
    apply keeps_bind (talk_follows (follows_accesses F).virtClrReg)
    intro _
    apply talk_follows
    apply keeps_modify
    intro p
    exact .of_same rfl rfl
  exact trans_of Follows (resetStart_follows F v) (hprepare _)

/-- The mailbox has the functions and the size of a session that begins. -/
def Begins (p : Port D) : Prop := p.mbx.ops = .legacy ∧ p.mbx.size = 16

/-- Quiet programs keep the parameters of a session that begins. -/
theorem Begins.talk {α : Type} {m : PortM D α} (hm : Keeps Port.Quiet m) {v : Vf D}
    (h : Begins v.port) :
  Begins ((talk m).run v).2.port
  := by
  have hquiet : Port.Quiet v.port ((Ixgbevf.talk m).run v).2.port := hm v.port
  exact ⟨hquiet.ops.trans h.1, hquiet.size.trans h.2⟩

/-- After the wait the mailbox has the parameters of a session that begins. -/
theorem resetStart_begins (v : Vf D) :
  Begins ((resetStart V).run v).2.port
  := by
  rw [resetStart, run_get_bind]
  apply run_bind_of (fun _ _ => True) (fun r : Bool × Vf D => Begins r.2.port) trivial
  intro _ v₁ _
  apply run_bind_of (fun _ v' => Begins v'.port) (fun r : Bool × Vf D => Begins r.2.port)
  · exact ⟨rfl, rfl⟩
  · intro _ v₂ h₂
    apply run_bind_of (fun _ v' => Begins v'.port) (fun r : Bool × Vf D => Begins r.2.port)
      (h₂.talk (writeReg_quiet V))
    intro _ v₃ h₃
    apply run_bind_of (fun _ v' => Begins v'.port) (fun r : Bool × Vf D => Begins r.2.port)
      (h₃.talk (Mac.writeFlush_quiet V))
    intro _ v₄ h₄
    exact h₄.talk (Mac.rstRounds_quiet V _)

/-- At the request the mailbox has the parameters of a session that begins, and may be used. -/
theorem atRequest_mbx (v : Vf D) :
  Begins (atRequest V v) ∧ (atRequest V v).mbx.timeout = vfMbxInitTimeout
  := by
  have hstart := resetStart_begins V v
  rw [atRequest, prepareRequest, run_bind]
  generalize ((resetStart V).run v).2 = v₁ at hstart ⊢
  have hclear := hstart.talk (Mac.virtClrReg_quiet V)
  generalize ((talk (virtClrReg V)).run v₁).2 = v₂ at hclear ⊢
  exact ⟨hclear, rfl⟩

/-- At the request the mailbox writes with the legacy function. -/
theorem writeMbx_atRequest (v : Vf D) :
  (writeMbx V [vfReset] 1).run (atRequest V v)
    = (writeMbxVfLegacy V [vfReset] 1).run (atRequest V v)
  := by
  obtain ⟨⟨hops, hsize⟩, htimeout⟩ := atRequest_mbx V v
  rw [writeMbx, run_get_bind, hops, hsize, htimeout, if_neg (by decide), if_neg (by decide)]
  rfl

/-- The exchange at the request. -/
theorem resetExchange_run (v : Vf D) :
  (resetExchange V).run (atRequest V v)
    = (pollMbx V [vfReset, 0#32, 0#32, 0#32] vfPermaddrMsgLen).run
      ((writeMbxVfLegacy V [vfReset] 1).run (atRequest V v)).2
  := by
  rw [resetExchange, run_bind, writeMbx_atRequest]

/-! ### Whose reply it is -/

/-- The request is in the mailbox memory, and the PF writes a reply after it. -/
def Replied (t : List Write) : Prop :=
  ∃ t₁ t₂ word, t = t₁ ++ .vf vfMbmem vfReset :: t₂ ∧ IsResetReply word ∧ .pf vfMbmem word ∈ t₂

/-- After the request a reply that is found is one the PF writes after it. -/
theorem Requests.replied {p p₁ : Port (Shared P)} {msg : List (BitVec 32)} {size : ℕ}
    (h : Requests F p p₁) (hpos : 0 < size)
    (hzero : ((pollMbx (sharedDevice F) msg size).run p₁).1.1 = 0)
    (hreply : IsResetReply (((pollMbx (sharedDevice F) msg size).run p₁).1.2.getD 0 0#32)) :
  ∃ t, ((pollMbx (sharedDevice F) msg size).run p₁).2.dev.log = p.dev.log ++ t ∧ Replied t
  := by
  have hfailed : ¬ IsResetReply failedReadReg := by decide
  have hrequest : ¬ IsResetReply vfReset := by decide
  obtain hgone | ⟨p₂, p₃, ⟨t, ht⟩, hputs, ⟨t', ht'⟩⟩ := h
  · obtain ⟨herr | hword, -⟩ := Removal.pollMbx_gone (sharedDevice F) msg hpos p₁ hgone
    · exact absurd hzero herr
    · rw [hword] at hreply
      exact absurd hreply hfailed
  · obtain ⟨t'', ht'', hvalue⟩ := pollMbx_observes F msg hpos p₁ hzero
    have hlog : ((pollMbx (sharedDevice F) msg size).run p₁).2.dev.log
        = p.dev.log ++ (t ++ .vf vfMbmem vfReset :: (t' ++ t'')) := by
      rw [ht''.log, ht'.log, hputs.log, ht.log]
      simp
    refine ⟨_, hlog, t, t' ++ t'', _, rfl, hreply, ?_⟩
    obtain hvalue | hvalue | hvalue := hvalue
    · rw [hvalue] at hreply
      exact absurd hreply hfailed
    · obtain hmem | hmem := ht'.mem
      · rw [hvalue, hmem, hputs.mem] at hreply
        exact absurd hreply hrequest
      · rw [hvalue]
        exact List.mem_append_left t'' hmem
    · exact List.mem_append_right t' hvalue

/-- Where only the PF writes there is no request. -/
theorem Follows.not_replied {p p' : Port (Shared P)} (h : Follows p p') :
  ¬ ∃ t, p'.dev.log = p.dev.log ++ t ∧ Replied t
  := by
  rintro ⟨t, hlog, t₁, t₂, word, rfl, -⟩
  obtain ⟨s, hs⟩ := h
  have hst := List.append_cancel_left (hlog.symm.trans hs.log)
  have hmem : Write.vf vfMbmem vfReset ∈ s := by
    rw [← hst]
    simp
  obtain ⟨reg, value, hpf⟩ := hs.pf _ hmem
  cases hpf

/-- With more before it. -/
theorem Replied.append {t : List Write} (h : Replied t) (s : List Write) :
  Replied (s ++ t)
  := by
  obtain ⟨t₁, t₂, word, rfl, hreply⟩ := h
  exact ⟨s ++ t₁, t₂, word, (List.append_assoc _ _ _).symm, hreply⟩

/-- After a wait that does not time out the exchange has the last word. -/
theorem resetHwVf_run_port {v : Vf (Shared P)} (h : ¬ TimesOut (sharedDevice F) v) :
  ((resetHwVf (sharedDevice F)).run v).2.port
    = ((resetExchange (sharedDevice F)).run (atRequest (sharedDevice F) v)).2
  := by
  rw [resetHwVf_run_of_not (sharedDevice F) h, (takeReply_run _ _).1]

/-- Without the lock only the PF writes. -/
theorem resetExchange_follows {v : Vf (Shared P)} (h : ¬ Locks (sharedDevice F) v) :
  Follows (atRequest (sharedDevice F) v)
    ((resetExchange (sharedDevice F)).run (atRequest (sharedDevice F) v)).2
  := by
  have hwrite := writeMbxVfLegacy_follows F h
  rw [resetExchange_run]
  exact trans_of Follows hwrite ((follows_accesses F).pollMbx _ _ _)

/-- With the lock the request is sent, and a reply that is found is one to it. -/
theorem resetExchange_replied {v : Vf (Shared P)} (h : Locks (sharedDevice F) v)
    (hfinds : FindsReply (sharedDevice F) v) :
  ∃ t, ((resetExchange (sharedDevice F)).run (atRequest (sharedDevice F) v)).2.dev.log
      = (atRequest (sharedDevice F) v).dev.log ++ t ∧ Replied t
  := by
  have hpos : 0 < vfPermaddrMsgLen := by decide
  have hrequests := writeMbxVfLegacy_requests F h
  rw [FindsReply, resetExchange_run] at hfinds
  rw [resetExchange_run]
  exact hrequests.replied F hpos hfinds.1 hfinds.2

/-- `ixgbe_reset_hw_vf` succeeds only with a reply that the PF wrote after the request, and leaves
the address and the filter type alone when it fails, exactly unless it finds a reply although the
lock for the request could not be obtained. -/
theorem fresh_iff (v : Vf (Shared P)) :
  (((resetHwVf (sharedDevice F)).run v).1 = 0 →
      ∃ t, ((resetHwVf (sharedDevice F)).run v).2.port.dev.log = v.port.dev.log ++ t ∧ Replied t)
    ∧ (((resetHwVf (sharedDevice F)).run v).1 ≠ 0 →
      ((resetHwVf (sharedDevice F)).run v).2.permAddr = v.permAddr
        ∧ ((resetHwVf (sharedDevice F)).run v).2.mcFilterType = v.mcFilterType)
    ↔ TimesOut (sharedDevice F) v ∨ Locks (sharedDevice F) v ∨ ¬ FindsReply (sharedDevice F) v
  := by
  have hfailed (hne : ((resetHwVf (sharedDevice F)).run v).1 ≠ 0) :=
    resetHwVf_failed (sharedDevice F) hne
  have hret := resetHwVf_ret (sharedDevice F) v
  have hstart := atRequest_follows F v
  constructor
  · rintro ⟨hfresh, -⟩
    by_contra hnone
    rw [not_or, not_or, not_not] at hnone
    obtain ⟨htime, hlock, hfinds⟩ := hnone
    have hreplied := hfresh (hret.mpr ⟨htime, hfinds⟩)
    rw [resetHwVf_run_port F htime] at hreplied
    have hexchange := resetExchange_follows F hlock
    exact (trans_of Follows hstart hexchange).not_replied hreplied
  · intro hcases
    refine ⟨?_, fun hne => ⟨(hfailed hne).permAddr, (hfailed hne).mcFilterType⟩⟩
    intro hzero
    obtain ⟨htime, hfinds⟩ := hret.mp hzero
    have hlock : Locks (sharedDevice F) v :=
      (hcases.resolve_left htime).resolve_right (not_not_intro hfinds)
    rw [resetHwVf_run_port F htime]
    obtain ⟨t, hlog, hreplied⟩ := resetExchange_replied F hlock hfinds
    obtain ⟨s, hs⟩ := hstart
    refine ⟨s ++ t, ?_, hreplied.append s⟩
    rw [hlog, hs.log, List.append_assoc]

/-! ### A reply from before -/

/-- A PF that holds the mailbox for some reads, and the lock of the VF. -/
structure Holding where
  /-- The reads for which the PF still holds the mailbox. -/
  busy : ℕ
  /-- The VF has the mailbox. -/
  vfu : Bool

/-- A PF that writes nothing, and has a message announced when it gives the mailbox up. -/
def holdingPf : Pf Holding where
  act h := (h, [])
  read h reg :=
    if reg = vfMailbox then
      match h.busy with
      | 0 => (if h.vfu then pfstsBit ||| vfuBit else pfstsBit, h)
      | busy + 1 => (pfuBit, { h with busy := busy })
    else
      (0#32, h)
  write h reg value := if reg = vfMailbox then { h with vfu := hasBit value vfuBit } else h
  reaches _ := true

/-- A VF before a reset, with the reply of the one before in the mailbox memory. -/
def staleVf (busy : ℕ) : Vf (Shared Holding) where
  port := ⟨false, mbxParamsVf .legacy 0#32,
    ⟨⟨busy, false⟩, fun reg => if reg = vfMbmem then vfReset ||| msgtypeSuccess else 0#32, []⟩, []⟩
  macType := .macX550Vf
  apiVersion := .api10
  addr := Vector.replicate 6 0
  permAddr := Vector.replicate 6 0
  mcFilterType := 0
  maxTxQueues := 1
  maxRxQueues := 1
  linkState := false
  speed := 0
  linkUp := false
  pfFeatures := 0
  numTcs := 0
  defaultTc := 0
  reta := []
  rssKey := []

/-- The PF holds the mailbox until the driver has given up sending its request: the reset succeeds
with the reply of the one before. -/
theorem stale_reply_taken :
  ((resetHwVf (sharedDevice holdingPf)).run (staleVf 2001)).1 = 0
    ∧ ¬ ∃ t, ((resetHwVf (sharedDevice holdingPf)).run (staleVf 2001)).2.port.dev.log
        = (staleVf 2001).port.dev.log ++ t ∧ Replied t
  := by
  have hrun : ((resetHwVf (sharedDevice holdingPf)).run (staleVf 2001)).1 = 0
      ∧ ((resetHwVf (sharedDevice holdingPf)).run (staleVf 2001)).2.port.dev.log = [] := by
    decide +kernel
  refine ⟨hrun.1, ?_⟩
  rintro ⟨t, ht, t₁, t₂, word, rfl, -⟩
  rw [hrun.2] at ht
  simp at ht

end Ixgbevf.Freshness
