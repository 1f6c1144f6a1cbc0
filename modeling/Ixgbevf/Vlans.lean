import Ixgbevf.Callbacks
import Ixgbevf.Lib.Since

/-!
# VLAN filters

The PF lets the frames of some VLANs through, and the driver remembers which VLANs it has asked for
in `active_vlans`.  A tagged frame that the hardware has stripped is given its tag back exactly if its
VLAN is in `active_vlans`, so that a VLAN which the PF lets through and the driver does not remember
delivers its frames as if they were untagged.  The PF forgets the VLANs with every reset of the
function, and `ixgbevf_restore_vlan` asks for them again.
-/

namespace Ixgbevf.Vlans

open Callbacks (vlanNVid)

/-! ### The filters -/

/-- What comes back for a request of `ixgbe_set_vfta_vf`. -/
structure Reply where
  /-- The error of the exchange. -/
  err : ℤ
  /-- The first word of the reply. -/
  word : BitVec 32
  /-- The PF has done what the request asks for. -/
  applied : Bool
  deriving DecidableEq, Repr

/-- What `ixgbe_set_vfta_vf` returns. -/
def Reply.value (a : Reply) : ℤ :=
  if a.err = 0 ∧ hasBit a.word msgtypeSuccess then 0
  else (BitVec.ofInt 32 a.err ||| a.word &&& msgtypeFailure).toInt

/-- The VLANs of the adapter. -/
structure Filters where
  /-- `active_vlans`. -/
  activeVlans : ℕ → Bool
  /-- The VLANs whose frames the PF lets through. -/
  table : ℕ → Bool

namespace Filters

/-- The PF adds a VLAN or takes it away. -/
def setVfta (s : Filters) (vid : ℕ) (vlanOn : Bool) (a : Reply) : Filters :=
  if a.applied then { s with table := Function.update s.table vid vlanOn } else s

/-- `ixgbevf_vlan_rx_add_vid`. -/
def vlanRxAddVid (s : Filters) (vid : ℕ) (a : Reply) : ℤ × Filters :=
  let s := s.setVfta vid true a
  if a.value ≠ 0 then (a.value, s)
  else
    (a.value,
      if vid < vlanNVid then { s with activeVlans := fun i => i == vid || s.activeVlans i } else s)

/-- `ixgbevf_vlan_rx_kill_vid`, which does not look at what the PF says. -/
def vlanRxKillVid (s : Filters) (vid : ℕ) (a : Reply) : ℤ × Filters :=
  let s := s.setVfta vid false a
  (0, { s with activeVlans := Function.update s.activeVlans vid false })

/-- The loop of `ixgbevf_restore_vlan` over `n` VLANs. -/
def restoreLoop (answers : ℕ → Reply) : ℕ → Filters → Filters
  | 0, s => s
  | vid + 1, s =>
    let s := restoreLoop answers vid s
    if s.activeVlans vid then (s.vlanRxAddVid vid (answers vid)).2 else s

/-- `ixgbevf_restore_vlan`. -/
def restoreVlan (s : Filters) (answers : ℕ → Reply) : Filters := restoreLoop answers vlanNVid s

/-- The VLAN of a tag, `vid & VLAN_VID_MASK`. -/
def vlanId (tci : BitVec 16) : ℕ := (tci &&& 0xFFF#16).toNat

/-- The tag that `ixgbevf_process_skb_fields` gives a frame whose descriptor has `IXGBE_RXD_STAT_VP`,
or not, and the tag `tci`. -/
def tag (s : Filters) (vp : Bool) (tci : BitVec 16) : Option (BitVec 16) :=
  if vp then if s.activeVlans (vlanId tci) then some tci else none else none

/-! ### Runs -/

/-- What happens. -/
inductive Event where
  /-- `ixgbevf_vlan_rx_add_vid`. -/
  | addVid (vid : ℕ) (a : Reply)
  /-- `ixgbevf_vlan_rx_kill_vid`. -/
  | killVid (vid : ℕ) (a : Reply)
  /-- The PF forgets all VLANs but those that it keeps. -/
  | forget (keeps : ℕ → Bool)
  /-- `ixgbevf_restore_vlan`. -/
  | restore (answers : ℕ → Reply)

/-- The filters after an event. -/
def apply (s : Filters) : Event → Filters
  | .addVid vid a => (s.vlanRxAddVid vid a).2
  | .killVid vid a => (s.vlanRxKillVid vid a).2
  | .forget keeps => { s with table := fun vid => s.table vid && keeps vid }
  | .restore answers => s.restoreVlan answers

/-- When an event may happen.  The stack takes away VLANs only that there are. -/
def Enabled : Event → Prop
  | .killVid vid _ => vid < vlanNVid
  | _ => True

/-- No VLAN. -/
def empty : Filters := ⟨fun _ => false, fun _ => false⟩

/-- The runs of the filters. -/
def system : TransSystem Filters Event where
  init s := s = empty
  step s e s' := Enabled e ∧ s' = s.apply e

variable {s s' : Filters} {vid : ℕ} {a : Reply} {answers : ℕ → Reply} {e : Event}

/-! ### The operations -/

/-- What a request does to the table. -/
@[simp] theorem setVfta_table (s : Filters) (vid' : ℕ) (vlanOn : Bool) (a : Reply) (vid : ℕ) :
  (s.setVfta vid' vlanOn a).table vid
    = if vid = vid' ∧ a.applied = true then vlanOn else s.table vid
  := by
  unfold setVfta
  by_cases happlied : a.applied = true
  · simp [happlied, Function.update_apply]
  · simp [happlied]

/-- A request leaves `active_vlans` alone. -/
@[simp] theorem setVfta_activeVlans (s : Filters) (vid : ℕ) (vlanOn : Bool) (a : Reply) :
  (s.setVfta vid vlanOn a).activeVlans = s.activeVlans
  := by
  unfold setVfta
  split <;> rfl

/-- What adding a VLAN does to the table. -/
@[simp] theorem vlanRxAddVid_table (s : Filters) (vid' : ℕ) (a : Reply) (vid : ℕ) :
  (s.vlanRxAddVid vid' a).2.table vid = ((vid == vid' && a.applied) || s.table vid)
  := by
  have hsame : (s.vlanRxAddVid vid' a).2.table = (s.setVfta vid' true a).table := by
    unfold vlanRxAddVid
    simp only
    split
    · rfl
    · simp only
      split <;> rfl
  rw [hsame, setVfta_table]
  by_cases hvid : vid = vid'
  · cases a.applied <;> simp [hvid]
  · simp [hvid]

/-- What adding a VLAN does to `active_vlans`. -/
@[simp] theorem vlanRxAddVid_activeVlans (s : Filters) (vid' : ℕ) (a : Reply) (vid : ℕ)
    (hvid : vid < vlanNVid) :
  (s.vlanRxAddVid vid' a).2.activeVlans vid
    = ((vid == vid' && decide (a.value = 0)) || s.activeVlans vid)
  := by
  unfold vlanRxAddVid
  simp only
  by_cases hvalue : a.value = 0
  · rw [if_neg (not_not.mpr hvalue)]
    split
    · simp [hvalue]
    · rename_i hlarge
      have hne : vid ≠ vid' := by
        rintro rfl
        exact hlarge hvid
      simp [hne]
  · simp [hvalue]

/-- What taking a VLAN away does. -/
@[simp] theorem vlanRxKillVid_table (s : Filters) (vid' : ℕ) (a : Reply) (vid : ℕ) :
  (s.vlanRxKillVid vid' a).2.table vid = (s.table vid && !(vid == vid' && a.applied))
  := by
  change (s.setVfta vid' false a).table vid = _
  rw [setVfta_table]
  by_cases hvid : vid = vid'
  · cases a.applied <;> simp [hvid]
  · simp [hvid]

/-- What taking a VLAN away does to `active_vlans`. -/
@[simp] theorem vlanRxKillVid_activeVlans (s : Filters) (vid' : ℕ) (a : Reply) (vid : ℕ) :
  (s.vlanRxKillVid vid' a).2.activeVlans vid = (s.activeVlans vid && !(vid == vid'))
  := by
  change Function.update (s.setVfta vid' false a).activeVlans vid' false vid = _
  rw [setVfta_activeVlans, Function.update_apply]
  by_cases hvid : vid = vid'
  · simp [hvid]
  · simp [hvid]

/-- What the loop of `ixgbevf_restore_vlan` does: it asks for the VLANs that are active, and leaves
`active_vlans` alone. -/
theorem restoreLoop_eq (answers : ℕ → Reply) (s : Filters) {n : ℕ} (hn : n ≤ vlanNVid) :
  (∀ vid, (restoreLoop answers n s).table vid
      = ((decide (vid < n) && s.activeVlans vid && (answers vid).applied) || s.table vid))
    ∧ ∀ vid < vlanNVid, (restoreLoop answers n s).activeVlans vid = s.activeVlans vid
  := by
  induction n with
  | zero => exact ⟨fun vid => by simp [restoreLoop], fun vid _ => rfl⟩
  | succ n ih =>
    obtain ⟨htable, hactive⟩ := ih (by omega)
    have hlast := hactive n (by omega)
    unfold restoreLoop
    simp only [hlast]
    by_cases hyes : s.activeVlans n = true
    · rw [if_pos hyes]
      refine ⟨fun vid => ?_, fun vid hvid => ?_⟩
      · rw [vlanRxAddVid_table, htable]
        by_cases hvid : vid = n
        · subst hvid
          simp [hyes]
        · have hlt : vid < n + 1 ↔ vid < n := by omega
          simp [hvid, hlt]
      · rw [vlanRxAddVid_activeVlans _ _ _ _ hvid, hactive vid hvid]
        by_cases hvid' : vid = n
        · subst hvid'
          simp [hyes]
        · simp [hvid']
    · rw [if_neg hyes]
      refine ⟨fun vid => ?_, hactive⟩
      rw [htable]
      by_cases hvid : vid = n
      · subst hvid
        simp [hyes]
      · have hlt : vid < n + 1 ↔ vid < n := by omega
        simp [hlt]

/-- `ixgbevf_restore_vlan` goes through all VLANs. -/
theorem restoreVlan_def (s : Filters) (answers : ℕ → Reply) :
  s.restoreVlan answers = restoreLoop answers vlanNVid s
  := rfl

/-- What `ixgbevf_restore_vlan` does. -/
theorem restoreVlan_eq (s : Filters) (answers : ℕ → Reply) {vid : ℕ} (hvid : vid < vlanNVid) :
  (s.restoreVlan answers).table vid
      = ((s.activeVlans vid && (answers vid).applied) || s.table vid)
    ∧ (s.restoreVlan answers).activeVlans vid = s.activeVlans vid
  := by
  obtain ⟨htable, hactive⟩ := restoreLoop_eq answers s (Nat.le_refl vlanNVid)
  rw [restoreVlan_def]
  refine ⟨?_, hactive vid hvid⟩
  have hvlan := htable vid
  rw [decide_eq_true hvid, Bool.true_and] at hvlan
  exact hvlan

/-- The event that restores the VLANs. -/
theorem apply_restore (s : Filters) (answers : ℕ → Reply) :
  s.apply (.restore answers) = s.restoreVlan answers
  := rfl

/-! ### Frames that lose their tag -/

/-- The PF takes the VLAN away or forgets it, or the driver adds it. -/
def Settles (vid : ℕ) (_ : Filters) : Event → Prop
  | .killVid vid' a => vid' = vid ∧ a.applied = true
  | .addVid vid' a => vid' = vid ∧ a.value = 0
  | .forget keeps => keeps vid = false
  | .restore _ => False

/-- The driver remembers a VLAN that the PF does not let through. -/
def Missing (vid : ℕ) (s : Filters) : Prop := s.activeVlans vid = true ∧ s.table vid = false

/-- The PF forgets a VLAN that the driver remembers, or says that it has added one and has not. -/
def Loses (vid : ℕ) (s : Filters) : Event → Prop
  | .forget keeps => keeps vid = false ∧ s.activeVlans vid = true
  | .addVid vid' a => vid' = vid ∧ a.value = 0 ∧ a.applied = false ∧ s.table vid = false
  | _ => False

/-- The PF adds the VLAN, or the stack takes it away, or the driver restores it and the PF adds
it. -/
def Recovers (vid : ℕ) (_ : Filters) : Event → Prop
  | .killVid vid' _ => vid' = vid
  | .addVid vid' a => vid' = vid ∧ a.applied = true
  | .restore answers => (answers vid).applied = true
  | .forget _ => False

/-- A VLAN is missing after a step exactly if the step makes it so, or it was and the step does not
recover it. -/
theorem missing_step (hvid : vid < vlanNVid) (hstep : system.step s e s') :
  Missing vid s' ↔ Loses vid s e ∨ Missing vid s ∧ ¬ Recovers vid s e
  := by
  obtain ⟨-, rfl⟩ := hstep
  cases e with
  | addVid vid' a =>
    change (s.vlanRxAddVid vid' a).2.activeVlans vid = true
      ∧ (s.vlanRxAddVid vid' a).2.table vid = false ↔ _
    rw [vlanRxAddVid_table, vlanRxAddVid_activeVlans _ _ _ _ hvid]
    simp only [Loses, Missing, Recovers]
    grind
  | killVid vid' a =>
    change (s.vlanRxKillVid vid' a).2.activeVlans vid = true
      ∧ (s.vlanRxKillVid vid' a).2.table vid = false ↔ _
    rw [vlanRxKillVid_table, vlanRxKillVid_activeVlans]
    simp only [Loses, Missing, Recovers]
    grind
  | forget keeps =>
    change s.activeVlans vid = true ∧ (s.table vid && keeps vid) = false ↔ _
    simp only [Loses, Missing, Recovers]
    grind
  | restore answers =>
    obtain ⟨htable, hactive⟩ := s.restoreVlan_eq answers hvid
    rw [apply_restore, Missing, htable, hactive]
    simp only [Loses, Missing, Recovers]
    grind

/-- The frames of a VLAN that the driver remembers do not come exactly since the PF has forgotten the
VLAN, or has not added it and has said so, and unless the PF has added it since, for the stack or for
`ixgbevf_restore_vlan`, or the stack has taken it away. -/
theorem missing_iff {es : List Event} (h : system.Path TransSystem.always empty es s)
    (hvid : vid < vlanNVid) :
  Missing vid s ↔ system.Since TransSystem.always (Loses vid) (Recovers vid) empty es s
  := h.since_iff (fun h => Bool.noConfusion h.1) fun _ _ _ hstep => missing_step hvid hstep

/-- The PF adds a VLAN and forgets it with a reset. -/
def forgetfulPf : List Event :=
  [.addVid 100 ⟨0, msgtypeSuccess, true⟩, .forget fun _ => false]

/-- Its frames do not come since then. -/
theorem forgetfulPf_missing :
  Missing 100 (forgetfulPf.foldl apply empty)
    ∧ (Missing 100 (forgetfulPf.foldl apply empty)
      ↔ system.Since TransSystem.always (Loses 100) (Recovers 100) empty forgetfulPf
        (forgetfulPf.foldl apply empty))
  := by
  have hpath : system.Path TransSystem.always empty forgetfulPf (forgetfulPf.foldl apply empty) :=
    .cons trivial ⟨trivial, rfl⟩ (.cons trivial ⟨trivial, rfl⟩ (.nil _))
  exact ⟨⟨by decide, by decide⟩, missing_iff hpath (by decide)⟩

/-- After a reset and `ixgbevf_restore_vlan` the PF lets through exactly the VLANs that the driver
remembers, where it adds all of them. -/
theorem restore_table (hforgotten : ∀ vid, s.table vid = false)
    (happlied : ∀ vid, (answers vid).applied = true) (hvid : vid < vlanNVid) :
  (s.restoreVlan answers).table vid = (s.restoreVlan answers).activeVlans vid
  := by
  obtain ⟨htable, hactive⟩ := s.restoreVlan_eq answers hvid
  rw [htable, hactive, hforgotten, happlied, Bool.and_true, Bool.or_false]

end Filters

/-! ### The callback of the network device -/

/-- What `ixgbevf_vlan_rx_add_vid` does to `active_vlans`. -/
theorem vlanRxAddVid_active {D : Type} (V : Device D) (vid : BitVec 16) (s : Callbacks.Netdev D) :
  ((Callbacks.vlanRxAddVid V vid).run s).2.activeVlans
    = if ((Callbacks.vlanRxAddVid V vid).run s).1 ≠ 0 then s.activeVlans
      else if vid.toNat < vlanNVid then fun i => i == vid.toNat || s.activeVlans i
      else s.activeVlans
  := by
  rw [Callbacks.vlanRxAddVid_value]
  set ret := ((setVftaVf V (vid.setWidth 32) true).run s.adapter.vf).1 with hret
  -- the request changes the mailbox only
  have hrun : (Callbacks.vlanRxAddVid V vid).run s = (do
      (if ret ≠ 0 then
        pure ()
      else
        modify fun s => if vid.toNat < vlanNVid then Callbacks.setVlan vid.toNat s else s :
          Callbacks.NetdevM D Unit)
      pure ret : Callbacks.NetdevM D ℤ).run ((Callbacks.onAdapter
        (Mac.onVf (setVftaVf V (vid.setWidth 32) true))).run s).2 := rfl
  rw [hrun]
  by_cases hret : ret ≠ 0
  · rw [if_pos hret, if_pos hret]
    rfl
  · rw [if_neg hret, if_neg hret]
    by_cases hvid : vid.toNat < vlanNVid
    · rw [if_pos hvid]
      simp only [hvid]
      rfl
    · rw [if_neg hvid]
      simp only [hvid]
      rfl

/-- `ixgbevf_vlan_rx_add_vid` on the mailbox does what it does on the filters. -/
theorem vlanRxAddVid_refines {D : Type} (V : Device D) (vid : BitVec 16) (s : Callbacks.Netdev D)
    (table : ℕ → Bool) (applied : Bool) :
  let x := Callbacks.outcome V (.setVfta (vid.setWidth 32) true) s.adapter.vf
  let a : Reply := ⟨x.1, x.2.getD 0 0#32, applied⟩
  let r := (Callbacks.vlanRxAddVid V vid).run s
  r.1 = (Filters.vlanRxAddVid ⟨s.activeVlans, table⟩ vid.toNat a).1
    ∧ r.2.activeVlans = (Filters.vlanRxAddVid ⟨s.activeVlans, table⟩ vid.toNat a).2.activeVlans
  := by
  intro x a r
  have hvalue : a.value = r.1 := by
    rw [Callbacks.vlanRxAddVid_value]
    exact (Callbacks.setVftaVf_value V (vid.setWidth 32) true s.adapter.vf).symm
  have hactive := vlanRxAddVid_active V vid s
  rw [show ((Callbacks.vlanRxAddVid V vid).run s).1 = a.value from hvalue.symm] at hactive
  rw [hactive, ← hvalue]
  unfold Filters.vlanRxAddVid
  simp only
  split
  · refine ⟨rfl, ?_⟩
    simp
  · refine ⟨rfl, ?_⟩
    split <;> simp

end Ixgbevf.Vlans
