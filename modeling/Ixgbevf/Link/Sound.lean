import Ixgbevf.Lib.Run
import Ixgbevf.Link

/-!
# When the link check reports the link up

Runs of link checks, interleaved with resets, link interrupts and whatever the device
does in between.  A check that clears `mac->get_link_status` starts to report the link as
up.  `reachable_linkSound` says of every run whose checks do not fall back to a link
register that is down that the source consulted by such a check said that the link is up.
-/

namespace Ixgbevf.Link

open StateProgram

variable {D : Type} (V : Device D)

/-! ### Runs of link checks -/

/-- A finished link check, as seen from outside. -/
structure Call where
  /-- The MAC type. -/
  macType : MacType
  /-- The API version at the time of the call. -/
  apiVersion : ApiVersion
  /-- `mac->get_link_status` was set, or was set by the reset test. -/
  wasDown : Bool
  /-- `mac->get_link_status` is set after the call. -/
  isDown : Bool
  /-- The registers read by the call, with the values that the reads returned. -/
  reads : List (ℕ × BitVec 32)
  deriving DecidableEq, Repr

/-- The state of a run: the hardware state of the driver and the last finished check. -/
structure State (D : Type) where
  /-- The hardware state of the driver. -/
  hw : Hw D
  /-- The last check. -/
  last : Option Call

/-- What may happen in a run. -/
inductive Event (D : Type) where
  /-- A call of `ixgbe_check_mac_link_vf` with `*speed` and `*link_up`. -/
  | check (speed : BitVec 32) (linkUp : Bool)
  /-- A reset: a version and mailbox parameters are negotiated anew, and coming up sets
  `mac->get_link_status`. -/
  | reset (api : ApiVersion) (port : Port D) (up : Bool)
  /-- `ixgbevf_msix_other`: the link interrupt sets `mac->get_link_status`. -/
  | interrupt
  /-- The device or other users of the mailbox do something. -/
  | other (port : Port D)

/-- The record of a check that takes `hw` to the state of `c`. -/
def record (hw : Hw D) (c : LinkCheck D) : Call where
  macType := hw.macType
  apiVersion := hw.apiVersion
  wasDown := (dropOnReset V hw).getLinkStatus
  isDown := c.hw.getLinkStatus
  reads := c.hw.port.reads.drop hw.port.reads.length

/-- The state after an event. -/
def next (s : State D) : Event D → State D
  | .check speed linkUp =>
    let c := checkMacLinkVf V s.hw speed (some linkUp)
    ⟨c.hw, some (record V s.hw c)⟩
  | .reset api port up =>
    { s with hw := { s.hw with
        apiVersion := api, port := port, getLinkStatus := up || s.hw.getLinkStatus } }
  | .interrupt => { s with hw := { s.hw with getLinkStatus := true } }
  | .other port => { s with hw := { s.hw with port := port } }

/-- Runs of link checks on the device `V`, from any state of the hardware. -/
def system : TransSystem (State D) (Event D) where
  init s := s.last = none
  step s e s' := s' = next V s e

/-! ### What the source of a check said -/

/-- The message `w` is a successful reply to the link-state request, by the comparison
that the other requests make. -/
def IsLinkStateReply (w : BitVec 32) : Prop :=
  w &&& ~~~ msgtypeCts = vfGetPfLinkState ||| msgtypeSuccess

instance (w : BitVec 32) : Decidable (IsLinkStateReply w) := by
  unfold IsLinkStateReply
  infer_instance

/-- The first message among the words `mail` reports in its third word a link that is up,
does not report a failure, and has a first word that satisfies `P`. -/
def ReplyUp (P : BitVec 32 → Prop) (mail : List (BitVec 32)) : Prop :=
  ∃ w speed up rest, mail = w :: speed :: up :: rest ∧ ¬ hasBit w msgtypeFailure ∧ up ≠ 0 ∧ P w

/-- The source consulted by the call said that the link is up: every required read of the
link register, or a reply of the PF whose first word satisfies `P`. -/
def Call.SourceUp (P : BitVec 32 → Prop) (c : Call) : Prop :=
  if c.macType = .macE610Vf ∧ c.apiVersion.hasLinkState then
    ReplyUp P (mailWords c.reads)
  else
    (linkWords c.reads).length = requiredReads c.macType ∧ AllUp (linkWords c.reads)

/-- A call that changes `mac->get_link_status` from true to false has a source that said
that the link is up. -/
def Call.Sound (P : BitVec 32 → Prop) (c : Call) : Prop :=
  c.wasDown → ¬ c.isDown → c.SourceUp P

/-! ### The checks that go wrong -/

/-- From a state past the reset test: the check falls back from the PF to a link register
that says that the link is down, and the answer of the mailbox clears the flag. -/
def BlindFallback (hw : Hw D) (speed : BitVec 32) : Prop :=
  hw.getLinkStatus ∧ hw.fallsBack ∧ ¬ vflinksUp V hw speed
    ∧ ClearsFlag V (afterVflinks V hw speed)

/-- From a state past the reset test: the check takes a message that is no reply to its
request for a report that the link is up, and the answer of the mailbox clears the flag. -/
def StrayReply (hw : Hw D) : Prop :=
  hw.getLinkStatus ∧ hw.asksPf ∧ (pfReply V hw).1 = 0
    ∧ ¬ hasBit ((pfReply V hw).2.getD 0 0#32) msgtypeFailure ∧ (pfReply V hw).2.getD 2 0#32 ≠ 0#32
    ∧ ¬ IsLinkStateReply ((pfReply V hw).2.getD 0 0#32) ∧ ClearsFlag V (afterExchange V hw)

/-- No check falls back to a link register that is down. -/
def NoBlindFallback (s : State D) : Event D → Prop
  | .check speed _ => ¬ BlindFallback V (dropOnReset V s.hw) speed
  | _ => True

/-- No check takes a stray message for the reply to its request. -/
def NoStrayReply (s : State D) : Event D → Prop
  | .check _ _ => ¬ StrayReply V (dropOnReset V s.hw)
  | _ => True

/-! ### One check -/

/-- The mailbox stage reads at most one word of mail. -/
theorem linkCheckMailbox_reads (hw : Hw D) (ret : ℤ) (speed : BitVec 32) :
  ∃ mail, hw.port.Reads (linkCheckMailbox V hw ret speed).hw.port mail []
  := by
  rw [linkCheckMailbox_port]
  obtain ⟨-, h⟩ | ⟨-, h⟩ := readMbx_pending V hw.port
  · exact ⟨_, h⟩
  · exact ⟨[], h⟩

/-- A check that asks the link register and clears the flag found the link up, unless it
fell back to a link register that said otherwise. -/
theorem sound_of_vflinks
    {P : BitVec 32 → Prop} {hw : Hw D} {speed speed' : BitVec 32} {ret : ℤ} {c : LinkCheck D}
    (hask : ¬ hw.asksPf) (hup : vflinksUp V (dropOnReset V hw) speed)
    (hc : c = linkCheckMailbox V (afterVflinks V (dropOnReset V hw) speed) ret speed') :
  (record V hw c).SourceUp P
  := by
  obtain ⟨ls, hr, hl⟩ := readVflinks_reads V hw.macType speed (dropOnReset V hw).port
  obtain ⟨mail, hm⟩ := linkCheckMailbox_reads V (afterVflinks V (dropOnReset V hw) speed) ret speed'
  rw [← hc] at hm
  have hq : hw.port.Quiet (dropOnReset V hw).port := checkForRstVf_quiet V hw.port
  obtain ⟨-, hlinks⟩ := (hq.reads (hr.trans hm)).drop
  obtain ⟨hn, hu⟩ := hl hup
  have hask' : ¬ (hw.macType = .macE610Vf ∧ hw.apiVersion.hasLinkState) := by
    intro h
    exact hask (decide_eq_true h)
  rw [List.append_nil] at hlinks
  change if hw.macType = .macE610Vf ∧ hw.apiVersion.hasLinkState then _ else
    (linkWords (c.hw.port.reads.drop hw.port.reads.length)).length = _
      ∧ AllUp (linkWords (c.hw.port.reads.drop hw.port.reads.length))
  rw [if_neg hask', hlinks]
  exact ⟨hn, hu⟩

/-- A check that asks the PF and goes on to the mailbox had a reply that said that the
link is up. -/
theorem sound_of_asksPf
    {P : BitVec 32 → Prop} {hw : Hw D} {speed' : BitVec 32} {ret : ℤ} {c : LinkCheck D}
    (hask : hw.asksPf) (he : (pfReply V (dropOnReset V hw)).1 = 0)
    (hf : ¬ hasBit ((pfReply V (dropOnReset V hw)).2.getD 0 0#32) msgtypeFailure)
    (hup : (pfReply V (dropOnReset V hw)).2.getD 2 0#32 ≠ 0#32)
    (hP : P ((pfReply V (dropOnReset V hw)).2.getD 0 0#32))
    (hc : c = linkCheckMailbox V (afterExchange V (dropOnReset V hw)) ret speed') :
  (record V hw c).SourceUp P
  := by
  obtain ⟨w, sp, up, hb, hr⟩ := linkStateExchange_reply V (dropOnReset V hw).port he
  obtain ⟨mail, hm⟩ := linkCheckMailbox_reads V (afterExchange V (dropOnReset V hw)) ret speed'
  rw [← hc] at hm
  have hq : hw.port.Quiet (dropOnReset V hw).port := checkForRstVf_quiet V hw.port
  obtain ⟨hmail, -⟩ := (hq.reads (hr.trans hm)).drop
  have hb' : (pfReply V (dropOnReset V hw)).2 = [w, sp, up] := hb
  rw [hb'] at hf hup hP
  change if hw.macType = .macE610Vf ∧ hw.apiVersion.hasLinkState then
    ReplyUp P (mailWords (c.hw.port.reads.drop hw.port.reads.length)) else _
  rw [if_pos (of_decide_eq_true hask), hmail]
  exact ⟨w, sp, up, mail, rfl, hf, hup, hP⟩

/-- A check that clears the flag is sound, unless it falls back blindly or takes a stray
message for a report that the link is up. -/
theorem check_sound
    {P : BitVec 32 → Prop} {hw : Hw D} {speed : BitVec 32} {linkUp : Bool}
    (hblind : ¬ BlindFallback V (dropOnReset V hw) speed)
    (hstray : ¬ StrayReply V (dropOnReset V hw) ∨ ∀ w, P w)
    (hP : ∀ w, IsLinkStateReply w → P w) :
  (record V hw (checkMacLinkVf V hw speed (some linkUp))).Sound P
  := by
  intro hdown hup
  have hd : (dropOnReset V hw).getLinkStatus = true := hdown
  have hu : ¬ (checkMacLinkVf V hw speed (some linkUp)).hw.getLinkStatus = true := hup
  have hc := checkMacLinkVf_some V hw speed linkUp
  rw [if_neg (not_not.mpr hd)] at hc
  by_cases ht : hw.macType = .macE610Vf
  · rw [if_neg (not_not.mpr ht)] at hc
    by_cases ha : hw.apiVersion.hasLinkState
    · -- the PF is asked
      have hask : (dropOnReset V hw).asksPf := decide_eq_true ⟨ht, ha⟩
      obtain ⟨speed', hpf⟩ := linkCheckPf_of_asksPf V hask speed linkUp
      rw [hpf] at hc
      split_ifs at hc with h₁ h₂ h₃
      · rw [hc] at hu
        exact absurd hd hu
      · rw [hc] at hu
        exact absurd hd hu
      · have hclear : ClearsFlag V (afterExchange V (dropOnReset V hw)) := by
          rw [hc, linkCheckMailbox_flag] at hu
          by_contra hn
          exact hu ⟨hd, hn⟩
        have hw' : P ((pfReply V (dropOnReset V hw)).2.getD 0 0#32) := by
          rcases hstray with hstray | hstray
          · apply hP
            by_contra hn
            exact hstray ⟨hd, hask, not_not.mp h₁, h₂, h₃, hn, hclear⟩
          · apply hstray
        exact sound_of_asksPf V hask (not_not.mp h₁) h₂ h₃ hw' hc
      · rw [hc] at hu
        exact absurd hd hu
    · -- the check falls back to the link register
      have hf : (dropOnReset V hw).fallsBack := decide_eq_true ⟨ht, ha⟩
      obtain ⟨speed', hpf⟩ := linkCheckPf_of_fallsBack V hf speed linkUp
      rw [hpf] at hc
      have hask : ¬ hw.asksPf := by simp [Hw.asksPf, ha]
      have hclear : ClearsFlag V (afterVflinks V (dropOnReset V hw) speed) := by
        rw [hc, linkCheckMailbox_flag] at hu
        by_contra hn
        exact hu ⟨hd, hn⟩
      have hsaw : vflinksUp V (dropOnReset V hw) speed := by
        by_contra hn
        exact hblind ⟨hd, hf, hn, hclear⟩
      exact sound_of_vflinks V hask hsaw hc
  · -- the link register is asked
    rw [if_pos ht] at hc
    obtain ⟨speed', hv⟩ := linkCheckVflinks_eq V (dropOnReset V hw) speed
    rw [hv] at hc
    have hask : ¬ hw.asksPf := by simp [Hw.asksPf, ht]
    split_ifs at hc with hsaw
    · exact sound_of_vflinks V hask hsaw hc
    · rw [hc] at hu
      exact absurd hd hu

/-! ### Runs -/

/-- The last check of a run is sound, where no check of the run falls back blindly and, if
`P` is asked of the replies, none takes a stray message. -/
theorem reachable_sound
    {P : BitVec 32 → Prop} {G : State D → Event D → Prop}
    (hblind : ∀ s e, G s e → NoBlindFallback V s e)
    (hstray : (∀ s e, G s e → NoStrayReply V s e) ∨ ∀ w, P w)
    (hP : ∀ w, IsLinkStateReply w → P w) {s : State D} (h : (system V).Reachable G s) :
  ∀ c ∈ s.last, c.Sound P
  := by
  apply TransSystem.Reachable.invariant (I := fun s => ∀ c ∈ s.last, c.Sound P) ?_ ?_ h
  · intro s hs c hc
    rw [show s.last = none from hs] at hc
    cases hc
  · rintro s e _ hs hG rfl
    cases e with
    | check speed linkUp =>
      rintro _ ⟨⟩
      have hstray' : ¬ StrayReply V (dropOnReset V s.hw) ∨ ∀ w, P w :=
        hstray.imp (fun h => h _ _ hG) id
      exact check_sound V (hblind _ _ hG) hstray' hP
    | reset api port up => exact hs
    | interrupt => exact hs
    | other port => exact hs

/-- In every run whose checks do not fall back blindly, a check that changes
`mac->get_link_status` from true to false consulted a source that said that the link is
up; where moreover no check takes a stray message for the reply of the PF, a reply that
said so was a successful reply to the link-state request. -/
theorem reachable_linkSound {s : State D} :
  ((system V).Reachable (NoBlindFallback V) s → ∀ c ∈ s.last, c.Sound fun _ => True)
    ∧ ((system V).Reachable (fun s e => NoBlindFallback V s e ∧ NoStrayReply V s e) s
      → ∀ c ∈ s.last, c.Sound IsLinkStateReply)
  := by
  constructor
  · intro h
    exact reachable_sound V (fun _ _ h => h) (.inr fun _ => trivial) (fun _ _ => trivial) h
  · intro h
    exact reachable_sound V (fun _ _ h => h.1) (.inl fun _ _ h => h.2) (fun _ h => h) h

/-- A device whose PF acknowledges every message and answers that the link is up at 10
Gbit/s.  Its state says whether the VF holds the mailbox. -/
def answeringDevice : Device Bool where
  read held reg :=
    if reg = vfMailbox then (pfstsBit ||| pfackBit ||| (if held then vfuBit else 0), held)
    else if reg = vfMbmem then (vfGetPfLinkState ||| msgtypeSuccess ||| msgtypeCts, held)
    else if reg = vfMbmem + 4 then (linkSpeed10gbFull, held)
    else if reg = vfMbmem + 8 then (1, held)
    else (0, held)
  write held reg value := if reg = vfMailbox then hasBit value vfuBit else held

/-- An E610 VF on version 1.6 that has just come up. -/
def e610Asks : State Bool where
  hw :=
    { macType := .macE610Vf
      getLinkStatus := true
      apiVersion := .api16
      port :=
        { removed := false
          mbx := (mbxParamsVf .legacy 0).upgradeParamsVf
          dev := false
          reads := [] } }
  last := none

/-- The check of a VF that asks the PF and hears that the link is up. -/
theorem answered_linkSound :
  ∃ c ∈ (next answeringDevice e610Asks (.check 0 false)).last,
    c.wasDown ∧ ¬ c.isDown ∧ c.SourceUp IsLinkStateReply
  := by
  have hblind : NoBlindFallback answeringDevice e610Asks (.check 0 false) :=
    fun h => absurd h.2.1 (by decide +kernel)
  have hstray : NoStrayReply answeringDevice e610Asks (.check 0 false) :=
    fun h => h.2.2.2.2.2.1 (by decide +kernel)
  have hr : (system answeringDevice).Reachable
      (fun s e => NoBlindFallback answeringDevice s e ∧ NoStrayReply answeringDevice s e)
      (next answeringDevice e610Asks (.check 0 false)) :=
    TransSystem.Reachable.step (s := e610Asks) (.init (rfl : e610Asks.last = none))
      ⟨hblind, hstray⟩ rfl
  have hdown : (record answeringDevice e610Asks.hw
      (checkMacLinkVf answeringDevice e610Asks.hw 0 (some false))).wasDown := by decide +kernel
  have hup : ¬ (record answeringDevice e610Asks.hw
      (checkMacLinkVf answeringDevice e610Asks.hw 0 (some false))).isDown := by decide +kernel
  exact ⟨_, rfl, hdown, hup, (reachable_linkSound answeringDevice).2 hr _ rfl hdown hup⟩

/-! ### The failing run -/

/-- A device whose registers all read as zero. -/
def silentDevice : Device Unit where
  read _ _ := (0, ())
  write _ _ _ := ()

/-- An E610 VF on version 1.5 that has just come up. -/
def e610Up : State Unit where
  hw :=
    { macType := .macE610Vf
      getLinkStatus := true
      apiVersion := .api15
      port :=
        { removed := false
          mbx := (mbxParamsVf .legacy 0).upgradeParamsVf
          dev := ()
          reads := [] } }
  last := none

/-- On E610 with version 1.5, a check reports the link up although the link register says
that it is down. -/
theorem fallback_not_sound :
  ∃ s, (system silentDevice).Reachable TransSystem.always s
    ∧ ∃ c ∈ s.last, c.wasDown ∧ ¬ c.isDown ∧ linkWords c.reads = [0] ∧ ¬ c.Sound fun _ => True
  := by
  refine ⟨next silentDevice e610Up (.check 0 false), ?_, ?_⟩
  · exact TransSystem.Reachable.step (s := e610Up) (.init (rfl : e610Up.last = none)) trivial rfl
  · have hdown : (record silentDevice e610Up.hw
        (checkMacLinkVf silentDevice e610Up.hw 0 (some false))).wasDown := by decide
    have hup : ¬ (record silentDevice e610Up.hw
        (checkMacLinkVf silentDevice e610Up.hw 0 (some false))).isDown := by decide
    have hlinks : linkWords (record silentDevice e610Up.hw
        (checkMacLinkVf silentDevice e610Up.hw 0 (some false))).reads = [0] := by decide
    refine ⟨_, rfl, hdown, hup, hlinks, fun h => ?_⟩
    obtain ⟨-, hall⟩ : _ ∧ AllUp _ := h hdown hup
    have h0 : hasBit 0 linksUp := hall 0 (by rw [hlinks]; exact List.mem_singleton.mpr rfl)
    exact absurd h0 (by decide)

end Ixgbevf.Link
