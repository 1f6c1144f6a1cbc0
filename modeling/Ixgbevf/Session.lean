import Ixgbevf.Lib.Run
import Ixgbevf.Mailbox.Accesses

/-!
# Sessions with the PF

Every reset that succeeds starts a session: the VF negotiates an API version and, with the
latest version, the features of the PF, and takes the upgraded mailbox functions or keeps
the legacy ones.  The decision is made by `pf_features`, which a session does not always
write: `Left` says what the sessions so far have left there.
-/

namespace Ixgbevf

open StateProgram TransSystem

/-- What a session negotiated. -/
structure Session where
  /-- `api_version`. -/
  version : ApiVersion
  /-- The features in the reply of the PF, where they were asked for and the PF did not
  refuse. -/
  reply : Option (BitVec 32)
deriving DecidableEq, Repr

namespace Session

/-- The PF of the session uses the upgraded mailbox. -/
def Upgrades (o : Session) : Prop :=
  o.version = .api15 ∨ o.version = .api17 ∧ ∃ word, o.reply = some word ∧ hasBit word pfSupEsxMbx

/-- The features after the session, from those before. -/
def features (o : Session) (pfFeatures : BitVec 32) : BitVec 32 :=
  match o.version with
  | .api17 => o.reply.getD 0#32
  | .api14 => pfFeatures ||| pfSupIpsec
  | .api15 => pfFeatures ||| pfSupEsxMbx
  | _ => pfFeatures

/-- The sessions, the last one first, have left `IXGBEVF_PF_SUP_ESX_MBX` in `pf_features`: the
last one with API 1.5 or 1.7 upgrades. -/
def Left : List Session → Prop
  | [] => False
  | o :: os => if o.version = .api15 ∨ o.version = .api17 then o.Upgrades else Left os

/-- A session leaves the upgrade behind as it should, or as it found it. -/
theorem hasBit_features (o : Session) (pfFeatures : BitVec 32) :
  hasBit (o.features pfFeatures) pfSupEsxMbx
    ↔ if o.version = .api15 ∨ o.version = .api17 then o.Upgrades else hasBit pfFeatures pfSupEsxMbx
  := by
  have h0 : hasBit 0#32 pfSupEsxMbx = false := by decide
  have hipsec : hasBit pfSupIpsec pfSupEsxMbx = false := by decide
  have hesx : hasBit pfSupEsxMbx pfSupEsxMbx = true := by decide
  obtain ⟨version, reply⟩ := o
  cases version with
  | api17 => cases reply <;> simp [features, Upgrades, h0]
  | api15 => simp [features, Upgrades, hasBit_or, hesx]
  | api14 => simp [features, hasBit_or, hipsec]
  | _ => simp [features]

end Session

variable {D : Type} (V : Device D)

/-- The features in the reply of the PF to `ixgbevf_negotiate_features_vf`. -/
def featureReply (v : Vf D) : Option (BitVec 32) :=
  if v.apiVersion = .api17 then
    let x := ((writeMsgReadAck V [vfFeaturesNegotiate, supportedFeatures] 2).run v.port).1
    if x.1 ≠ 0 ∨ hasBit (x.2.getD 0 0#32) msgtypeFailure then none else some (x.2.getD 1 0#32)
  else
    none

/-- What `ixgbevf_negotiate_api` negotiates. -/
def session (v : Vf D) : Session :=
  let v' := ((negotiateVersions V apiVersions).run v).2
  ⟨v'.apiVersion, featureReply V v'⟩

/-! ### What a session does -/

/-- The features and the functions of the mailbox are the same. -/
structure Vf.SameMode (v v' : Vf D) : Prop where
  /-- `pf_features`. -/
  pfFeatures : v'.pfFeatures = v.pfFeatures
  /-- `ops[0]`. -/
  ops : v'.port.mbx.ops = v.port.mbx.ops

instance : IsPreorder (Vf D) Vf.SameMode where
  refl _ := ⟨rfl, rfl⟩
  trans _ _ _ h h' := ⟨h'.pfFeatures.trans h.pfFeatures, h'.ops.trans h.ops⟩

/-- The functions of the mailbox are the same. -/
def Port.SameOps (p p' : Port D) : Prop := p'.mbx.ops = p.mbx.ops

instance : IsPreorder (Port D) Port.SameOps where
  refl _ := rfl
  trans _ _ _ h h' := Eq.trans h' h

/-- An exchange of at most sixteen words keeps the functions of the mailbox. -/
theorem writeMsgReadAck_ops {msg : List (BitVec 32)} {size : ℕ} (h : size ≤ 16) :
  Keeps Port.SameOps (writeMsgReadAck V msg size)
  := by
  intro p
  have hm : MessageRead _ msg p _ := writeMsgReadAck_message V h p
  obtain ⟨-, _, -, -, hr⟩ | ⟨-, -, hq⟩ := hm
  · exact hr.ops
  · exact hq.ops

/-- A program of the mailbox layer keeps the mode when it keeps the functions. -/
theorem talk_sameMode {α : Type} {m : PortM D α} (h : Keeps Port.SameOps m) :
  Keeps Vf.SameMode (talk m)
  := by
  apply keeps_modifyGet
  intro v
  exact ⟨rfl, h v.port⟩

/-- The negotiation of a version keeps the mode. -/
theorem negotiateApiVersion_sameMode (api : ApiVersion) :
  Keeps Vf.SameMode (negotiateApiVersion V api)
  := by
  apply keeps_bind (talk_sameMode (writeMsgReadAck_ops V (by decide)))
  intro x
  apply keeps_ite
  · apply keeps_pure
  · apply keeps_ite
    · apply keeps_bind
      · apply keeps_modify
        intro v
        exact ⟨rfl, rfl⟩
      · intro _
        apply keeps_pure
    · apply keeps_pure

/-- The loop over the versions keeps the mode. -/
theorem negotiateVersions_sameMode (apis : List ApiVersion) :
  Keeps Vf.SameMode (negotiateVersions V apis)
  := by
  induction apis with
  | nil => apply keeps_pure
  | cons api apis ih =>
    apply keeps_bind (negotiateApiVersion_sameMode V api)
    intro err
    apply keeps_ite
    · apply keeps_pure
    · apply ih

/-- The negotiation of the features writes them with API 1.7 only. -/
theorem negotiateFeaturesVf_run (v : Vf D) :
  ∃ v', ((negotiateFeaturesVf V).run v).2 = v' ∧ v'.apiVersion = v.apiVersion
    ∧ v'.port.mbx.ops = v.port.mbx.ops
    ∧ v'.pfFeatures
      = if v.apiVersion = .api17 then (featureReply V v).getD 0#32 else v.pfFeatures
  := by
  have hops : Keeps Port.SameOps (writeMsgReadAck V [vfFeaturesNegotiate, supportedFeatures] 2) :=
    writeMsgReadAck_ops V (by decide)
  have ho : ((writeMsgReadAck V [vfFeaturesNegotiate, supportedFeatures] 2).run v.port).2.mbx.ops
      = v.port.mbx.ops := hops v.port
  refine ⟨_, rfl, ?_⟩
  rw [negotiateFeaturesVf, run_get_bind, featureReply]
  split
  · apply run_bind_of
      (fun x v' => x = ((writeMsgReadAck V [vfFeaturesNegotiate, supportedFeatures] 2).run v.port).1
        ∧ v'.apiVersion = v.apiVersion ∧ v'.port.mbx.ops = v.port.mbx.ops) (fun r : ℤ × Vf D =>
          r.2.apiVersion = v.apiVersion ∧ r.2.port.mbx.ops = v.port.mbx.ops ∧ r.2.pfFeatures = _)
      ⟨rfl, rfl, ho⟩
    rintro x v' ⟨rfl, ha, ho⟩
    simp only []
    split
    · exact ⟨ha, ho, rfl⟩
    · exact ⟨ha, ho, rfl⟩
  · exact ⟨rfl, rfl, rfl⟩

/-- `ixgbevf_set_features` writes the features of the session. -/
theorem setFeatures_run (v : Vf D) :
  ∃ v', ((setFeatures V).run v).2 = v' ∧ v'.port.mbx.ops = v.port.mbx.ops
    ∧ v'.pfFeatures = (⟨v.apiVersion, featureReply V v⟩ : Session).features v.pfFeatures
  := by
  obtain ⟨v₁, hr, ha, ho, hf⟩ := negotiateFeaturesVf_run V v
  refine ⟨_, rfl, ?_⟩
  apply run_bind_of (fun _ v' => v' = v₁) (fun r : PUnit × Vf D => r.2.port.mbx.ops = _
    ∧ r.2.pfFeatures = (⟨v.apiVersion, featureReply V v⟩ : Session).features v.pfFeatures) hr
  rintro _ v' rfl
  show (if v'.apiVersion = .api14 then _ else if v'.apiVersion = .api15 then _ else v').port.mbx.ops
      = _ ∧ (if v'.apiVersion = .api14 then _ else if v'.apiVersion = .api15 then _ else v').pfFeatures
      = _
  rw [ha]
  cases hv : v.apiVersion with
  | api17 => exact ⟨ho, by simp [hf, hv, Session.features]⟩
  | api15 => exact ⟨ho, by simp [hf, hv, Session.features]⟩
  | api14 => exact ⟨ho, by simp [hf, hv, Session.features]⟩
  | _ => exact ⟨ho, by simp [hf, hv, Session.features]⟩

/-- The session wrote its features, and they decide about the functions of the mailbox. -/
structure Vf.Negotiated (o : Session) (v v' : Vf D) : Prop where
  /-- `pf_features`. -/
  pfFeatures : v'.pfFeatures = o.features v.pfFeatures
  /-- `ops[0]`. -/
  ops : v'.port.mbx.ops = .upgraded ↔ hasBit v'.pfFeatures pfSupEsxMbx

/-- `ixgbevf_negotiate_api` from the legacy functions. -/
theorem negotiateApi_run {v : Vf D} (h : v.port.mbx.ops = .legacy) :
  Vf.Negotiated (session V v) v ((negotiateApi V).run v).2
  := by
  have hloop : Vf.SameMode v _ := negotiateVersions_sameMode V apiVersions v
  apply run_bind_of (fun _ v' => v' = ((negotiateVersions V apiVersions).run v).2)
    (fun r : PUnit × Vf D => Vf.Negotiated (session V v) v r.2) rfl
  rintro _ v₁ rfl
  obtain ⟨v₂, hr, ho, hf⟩ := setFeatures_run V ((negotiateVersions V apiVersions).run v).2
  apply run_bind_of (fun _ v' => v' = v₂)
    (fun r : PUnit × Vf D => Vf.Negotiated (session V v) v r.2) hr
  rintro _ v₃ rfl
  rw [hloop.ops, h] at ho
  rw [hloop.pfFeatures] at hf
  show Vf.Negotiated (session V v) v (if hasBit v₃.pfFeatures pfSupEsxMbx then _ else v₃)
  split
  next hb => exact ⟨hf, iff_of_true rfl hb⟩
  next hb => exact ⟨hf, by simp [hb, ho]⟩

/-- Register accesses keep the functions of the mailbox. -/
theorem sameOps_accesses :
  Accesses V Port.SameOps
  := by
  constructor
  · intro reg p
    exact congrArg Mbx.ops (readReg_run V p).1
  · intro reg value _ p
    exact congrArg Mbx.ops (writeReg_silent V p).mbx
  · intro p bits
    rfl

/-- The exchange after the reset keeps the functions of the mailbox. -/
theorem resetExchange_ops :
  Keeps Port.SameOps (resetExchange V)
  := by
  apply keeps_bind
  · exact fun p => (writeMbx_quiet V p).ops
  · intro _ p
    have h4 : vfPermaddrMsgLen ≤ 16 := by decide
    have hm : MessageRead _ [vfReset, 0#32, 0#32, 0#32] p _ := pollMbx_message V h4 p
    obtain ⟨-, _, -, -, hr⟩ | ⟨-, -, hq⟩ := hm
    · exact hr.ops
    · exact hq.ops

/-- The reset of the device keeps the mode. -/
theorem resetDeviceVf_sameMode :
  Keeps Vf.SameMode (resetDeviceVf V)
  := by
  apply keeps_bind (talk_sameMode ((sameOps_accesses V).write _ _ (by decide)))
  intro _
  apply keeps_bind (talk_sameMode (sameOps_accesses V).writeFlush)
  intro _
  apply keeps_bind (talk_sameMode ((sameOps_accesses V).rstRounds _))
  intro timedOut
  apply keeps_ite
  · apply keeps_pure
  · apply keeps_bind (talk_sameMode (sameOps_accesses V).virtClrReg)
    intro _
    apply keeps_bind
    · apply talk_sameMode
      apply keeps_modify
      intro p
      rfl
    · intro _
      apply keeps_bind (talk_sameMode (resetExchange_ops V))
      intro x
      apply keeps_ite
      · apply keeps_pure
      · apply keeps_ite
        · apply keeps_pure
        · apply keeps_bind
          · apply keeps_modify
            intro v
            exact ⟨rfl, rfl⟩
          · intro _
            apply keeps_pure

/-- `ixgbe_reset_hw_vf` goes back to the legacy functions, and leaves the features alone. -/
theorem resetHwVf_run (v : Vf D) :
  ((resetHwVf V).run v).2.pfFeatures = v.pfFeatures
    ∧ ((resetHwVf V).run v).2.port.mbx.ops = .legacy
  := by
  obtain ⟨hf, ho⟩ := resetDeviceVf_sameMode V { v with
    apiVersion := .api10
    port := { ((stopAdapterVf V v.maxTxQueues.toNat v.maxRxQueues.toNat).run v.port).2 with
      mbx := ((stopAdapterVf V v.maxTxQueues.toNat v.maxRxQueues.toNat).run
        v.port).2.mbx.initParamsVf } }
  exact ⟨hf, ho⟩

/-- A reset that leads to a negotiation leads to it with the legacy functions. -/
theorem resetToNegotiation_run (removing : Bool) (v : Vf D) :
  ((resetToNegotiation V removing).run v).2.pfFeatures = v.pfFeatures
    ∧ (((resetToNegotiation V removing).run v).1 = true →
      ((resetToNegotiation V removing).run v).2.port.mbx.ops = .legacy)
  := by
  rw [resetToNegotiation, run_get_bind]
  split
  · exact ⟨rfl, fun h => nomatch h⟩
  · apply run_bind_of
      (fun _ v' => v'.pfFeatures = v.pfFeatures ∧ v'.port.mbx.ops = .legacy)
      (fun r : Bool × Vf D => r.2.pfFeatures = v.pfFeatures
        ∧ (r.1 = true → r.2.port.mbx.ops = .legacy)) (resetHwVf_run V v)
    rintro err v' ⟨hf, ho⟩
    split
    · exact ⟨hf, fun h => nomatch h⟩
    · exact ⟨hf, fun _ => ho⟩

/-! ### Runs -/

/-- The VF, and the sessions so far, the last one first. -/
structure Sessions (D : Type) where
  /-- The VF. -/
  vf : Vf D
  /-- The sessions. -/
  past : List Session

namespace Sessions

/-- What happens to the VF. -/
inductive Event (D : Type) where
  /-- `ixgbevf_reset`, while `__IXGBEVF_REMOVING` is as it says. -/
  | reset (removing : Bool)
  /-- Whatever the driver and the PF do between two resets. -/
  | other (vf : Vf D)

/-- A reset, and the session that it starts. -/
def reset (removing : Bool) (s : Sessions D) : Sessions D where
  vf := ((ixgbevfReset V removing).run s.vf).2
  past :=
    let x := (resetToNegotiation V removing).run s.vf
    if x.1 then session V x.2 :: s.past else s.past

/-- The features are empty when the adapter is probed, and nothing but a reset writes them. -/
def system : TransSystem (Sessions D) (Event D) where
  init s := s.vf.pfFeatures = 0#32 ∧ s.past = []
  step s e s' :=
    match e with
    | .reset removing => s' = s.reset V removing
    | .other vf => vf.pfFeatures = s.vf.pfFeatures ∧ s' = { s with vf := vf }

/-- Whatever leaves the features alone may happen between two resets. -/
theorem step_other {s : Sessions D} {vf : Vf D} (h : vf.pfFeatures = s.vf.pfFeatures) :
  (system V).step s (.other vf) { s with vf := vf }
  := ⟨h, rfl⟩

/-- A reset starts a session, or it leaves the sessions and the features as they are. -/
theorem reset_cases (removing : Bool) (s : Sessions D) :
  (∃ o, (s.reset V removing).past = o :: s.past
      ∧ s.vf.Negotiated o (s.reset V removing).vf)
    ∨ (s.reset V removing).past = s.past
      ∧ (s.reset V removing).vf.pfFeatures = s.vf.pfFeatures
  := by
  obtain ⟨hf, ho⟩ := resetToNegotiation_run V removing s.vf
  have hvf : (s.reset V removing).vf
      = ((if ((resetToNegotiation V removing).run s.vf).1 then negotiateApi V else pure ()).run
        ((resetToNegotiation V removing).run s.vf).2).2 := rfl
  have hpast : (s.reset V removing).past
      = if ((resetToNegotiation V removing).run s.vf).1 then
          session V ((resetToNegotiation V removing).run s.vf).2 :: s.past else s.past := rfl
  rw [hvf, hpast]
  split
  next hb =>
    obtain ⟨hf', ho'⟩ := negotiateApi_run V (ho hb)
    rw [hf] at hf'
    exact .inl ⟨_, rfl, hf', ho'⟩
  · exact .inr ⟨rfl, hf⟩

/-- The features say what the sessions have left. -/
theorem reachable_left {s : Sessions D} (h : (system V).Reachable always s) :
  hasBit s.vf.pfFeatures pfSupEsxMbx ↔ Session.Left s.past
  := by
  refine h.invariant (I := fun s => hasBit s.vf.pfFeatures pfSupEsxMbx ↔ Session.Left s.past) ?_ ?_
  · rintro s ⟨hf, hp⟩
    have h0 : ¬ hasBit 0#32 pfSupEsxMbx := by decide
    rw [hf, hp]
    exact iff_of_false h0 id
  · rintro s e s' hs - hstep
    cases e with
    | reset removing =>
      cases hstep
      obtain ⟨o, hp, hn⟩ | ⟨hp, hf⟩ := reset_cases V removing s
      · rw [hp, hn.pfFeatures, o.hasBit_features, Session.Left, hs]
      · rw [hp, hf, hs]
    | other vf =>
      obtain ⟨hf, rfl⟩ := hstep
      rw [hf, hs]

/-- In every run, the functions of the mailbox after a session are those that the session
negotiated exactly when it negotiated API 1.5 or 1.7, or when no session before it has left
`IXGBEVF_PF_SUP_ESX_MBX` behind. -/
theorem installed_iff {s s' : Sessions D} {removing : Bool} {o : Session}
    (h : (system V).Reachable always s) (hstep : (system V).step s (.reset removing) s')
    (ho : s'.past = o :: s.past) :
  (s'.vf.port.mbx.ops = .upgraded ↔ o.Upgrades)
    ↔ o.version = .api15 ∨ o.version = .api17 ∨ ¬ Session.Left s.past
  := by
  cases hstep
  have hl := reachable_left V h
  obtain ⟨o', hp, hn⟩ | ⟨hp, -⟩ := reset_cases V removing s
  · obtain rfl : o' = o := (List.cons.inj (hp.symm.trans ho)).1
    rw [hn.ops, hn.pfFeatures, o'.hasBit_features]
    by_cases hv : o'.version = .api15 ∨ o'.version = .api17
    · rw [if_pos hv]
      exact iff_of_true Iff.rfl (hv.imp_right .inl)
    · have hno : ¬ o'.Upgrades := fun hu => hv (hu.imp_right And.left)
      obtain ⟨h15, h17⟩ := not_or.mp hv
      rw [if_neg hv, hl]
      simp [hno, h15, h17]
  · exact absurd (congrArg List.length (hp.symm.trans ho)) (by simp)

/-- A PF that answers the requests of a reset at once. -/
structure Pf where
  /-- The latest version it accepts. -/
  version : ApiVersion
  /-- The words after the first one of its other replies. -/
  answer : List (BitVec 32)
  /-- The mailbox memory. -/
  mem : List (BitVec 32)
  /-- The VF owns the mailbox. -/
  vfu : Bool
  /-- `PFSTS` and `PFACK`. -/
  events : BitVec 32

/-- The reply of the PF to the message in its memory. -/
def Pf.reply (d : Pf) : List (BitVec 32) :=
  let word := d.mem.getD 0 0#32
  if word = vfApiNegotiate then
    [word ||| if (d.mem.getD 1 0#32).toNat ≤ d.version.value then msgtypeSuccess
      else msgtypeFailure]
  else
    (word ||| msgtypeSuccess) :: d.answer

/-- The registers of the PF. -/
def pfDevice : Device Pf where
  read d reg :=
    if reg = vfMailbox then
      (d.events ||| (if d.vfu then vfuBit else 0#32), { d with events := 0#32 })
    else if vfMbmem ≤ reg ∧ reg < vfMbmem + 64 then
      (d.mem.getD ((reg - vfMbmem) / 4) 0#32, d)
    else
      (0#32, d)
  write d reg value :=
    if reg = vfMailbox then
      if hasBit value reqBit then
        { d with mem := d.reply, vfu := false, events := pfstsBit ||| pfackBit }
      else
        { d with vfu := hasBit value vfuBit }
    else if vfMbmem ≤ reg ∧ reg < vfMbmem + 64 then
      { d with mem := d.mem.take ((reg - vfMbmem) / 4) ++ [value] }
    else
      d

/-- A VF that is probed under a PF. -/
def Pf.vf (d : Pf) : Vf Pf where
  port := ⟨false, mbxParamsVf .legacy 0#32, d, []⟩
  macType := .mac82599Vf
  apiVersion := .api10
  addr := Vector.replicate 6 0
  permAddr := Vector.replicate 6 0
  mcFilterType := 0
  maxTxQueues := 2
  maxRxQueues := 2
  linkState := false
  speed := 0
  linkUp := false
  pfFeatures := 0
  numTcs := 0
  defaultTc := 0
  reta := []
  rssKey := []

/-- The VF that is probed under a PF with API 1.7 and the upgraded mailbox. -/
def probed : Sessions Pf := ⟨Pf.vf ⟨.api17, [pfSupEsxMbx], [], false, 0⟩, []⟩

/-- The VF under a PF that accepts API 1.3 at the latest. -/
def downgraded (vf : Vf Pf) : Vf Pf :=
  { vf with port := { vf.port with dev := { vf.port.dev with version := .api13 } } }

/-- Another PF does not touch the features that the VF keeps. -/
theorem downgraded_pfFeatures (vf : Vf Pf) :
  (downgraded vf).pfFeatures = vf.pfFeatures
  := rfl

/-- The VF after a session with the upgraded mailbox, moved to that PF. -/
def moved : Sessions Pf :=
  { probed.reset pfDevice false with vf := downgraded (probed.reset pfDevice false).vf }

/-- The move is a run. -/
theorem moved_reachable :
  (system pfDevice).Reachable always moved
  := by
  have hinit : (system pfDevice).Reachable always probed := .init ⟨rfl, rfl⟩
  have hreset : (system pfDevice).step probed (.reset false) (probed.reset pfDevice false) := rfl
  exact (hinit.step trivial hreset).step trivial (step_other pfDevice (downgraded_pfFeatures _))

/-- The session after the move negotiates API 1.3. -/
theorem moved_session :
  (moved.reset pfDevice false).past = ⟨.api13, none⟩ :: moved.past
  := by decide +kernel

/-- After the move the VF keeps the upgraded mailbox that it negotiated with the PF before. -/
theorem moved_upgraded :
  (system pfDevice).Reachable always moved
    ∧ (moved.reset pfDevice false).past = ⟨.api13, none⟩ :: moved.past
    ∧ ¬ ((moved.reset pfDevice false).vf.port.mbx.ops = .upgraded
      ↔ Session.Upgrades ⟨.api13, none⟩)
  := by
  have ho : (moved.reset pfDevice false).vf.port.mbx.ops = .upgraded := by decide +kernel
  refine ⟨moved_reachable, moved_session, ?_⟩
  rw [ho]
  simp [Session.Upgrades]

/-- The move as a case of `installed_iff`: the session before it has left the upgrade. -/
theorem installed_iff_moved :
  ((moved.reset pfDevice false).vf.port.mbx.ops = .upgraded ↔ Session.Upgrades ⟨.api13, none⟩)
    ↔ ApiVersion.api13 = .api15 ∨ ApiVersion.api13 = .api17 ∨ ¬ Session.Left moved.past
  := by
  have hstep : (system pfDevice).step moved (.reset false) (moved.reset pfDevice false) := rfl
  exact installed_iff pfDevice moved_reachable hstep moved_session

end Sessions

end Ixgbevf
