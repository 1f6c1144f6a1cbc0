import Ixgbevf.Rx.Geometry

/-!
# The receive length limit on Hyper-V

On Hyper-V there is no PF to ask for a frame size: `ixgbevf_hv_set_rlpml_vf` puts it into
`VFRXDCTL(0)` of the VF.  It only sets bits there, and on an 82599 `ixgbevf_configure_rx_ring`
leaves the field alone, so that the field collects the bits of all sizes.
-/

namespace Ixgbevf.HyperV

open Rx

/-! ### The register -/

/-- The field `RLPML` of `VFRXDCTL`. -/
def rlpmlField (rxdctl : BitVec 32) : BitVec 32 := rxdctl &&& rxdctlRlpmlmask

/-- The bits of `VFRXDCTL` outside `RLPML` and `RLPML_EN`. -/
def otherBits (rxdctl : BitVec 32) : BitVec 32 := rxdctl &&& ~~~(rxdctlRlpmlmask ||| rxdctlRlpmlEn)

/-- `ixgbevf_hv_set_rlpml_vf`: the value written to `VFRXDCTL(0)`, from the value read there. -/
def hvSetRlpmlVf (maxSize : BitVec 16) (reg : BitVec 32) : BitVec 32 :=
  -- the checksum has four bytes
  reg ||| (BitVec.ofNat 32 (maxSize.toNat + 4) ||| rxdctlRlpmlEn)

/-- The field that a frame size asks for. -/
def wanted (maxSize : BitVec 16) : BitVec 32 := rlpmlField (BitVec.ofNat 32 (maxSize.toNat + 4))

/-- A call of `ixgbevf_hv_set_rlpml_vf`. -/
structure RlpmlCall where
  /-- `VFRXDCTL(0)` before the call. -/
  before : BitVec 32
  /-- `max_size`. -/
  maxSize : BitVec 16
  /-- `VFRXDCTL(0)` after the call. -/
  after : BitVec 32

/-- The field is what the size of the call alone asks for, and no other bit has changed. -/
structure LastWriteWins (c : RlpmlCall) : Prop where
  /-- `RLPML`. -/
  field : rlpmlField c.after = wanted c.maxSize
  /-- The bits outside `RLPML` and `RLPML_EN`. -/
  rest : otherBits c.after = otherBits c.before

/-! ### The driver -/

/-- The part of a VF on Hyper-V, an 82599, that belongs to the limit. -/
structure HvVf where
  /-- `VFRXDCTL(0)`. -/
  rxdctl : BitVec 32
  /-- `netdev->mtu`. -/
  mtu : Mtu
  /-- `IXGBEVF_FLAGS_LEGACY_RX`. -/
  legacyRx : Bool
  /-- `netif_running`. -/
  running : Bool
  /-- `adapter->xdp_prog` is set. -/
  hasXdp : Bool
  /-- The calls of `ixgbevf_hv_set_rlpml_vf`. -/
  calls : List RlpmlCall

namespace HvVf

variable (K : KernelConfig)

/-- The configuration of the Rx rings. -/
def config (s : HvVf) : RxConfig :=
  { macType := .mac82599Vf
    mtu := s.mtu
    legacyRx := s.legacyRx }

/-- `hw->mac.ops.set_rlpml`. -/
def setRlpml (maxSize : BitVec 16) (s : HvVf) : HvVf :=
  { s with
    rxdctl := hvSetRlpmlVf maxSize s.rxdctl
    calls := s.calls ++ [{ before := s.rxdctl
                           maxSize := maxSize
                           after := hvSetRlpmlVf maxSize s.rxdctl }] }

/-- `ixgbevf_disable_rx_queue`, for the first ring. -/
def disableRxQueue (s : HvVf) : HvVf := { s with rxdctl := s.rxdctl &&& ~~~Rx.rxdctlEnable }

/-- `ixgbevf_configure_rx_ring`, for the first ring: it writes the value back that it has read
before it disables the queue. -/
def configureRxRing (s : HvVf) : HvVf :=
  { s with rxdctl := configureRxdctl K s.config (setRxBufferLen K s.config) s.rxdctl }

/-- `ixgbevf_configure_rx`: the registers of the other rings are others. -/
def configureRx (s : HvVf) : HvVf :=
  configureRxRing K (setRlpml (BitVec.ofNat 16 (maxFrame s.config)) s)

/-- `ixgbevf_reinit_locked`: the reset on Hyper-V only reads the address of the VF. -/
def reinitLocked (s : HvVf) : HvVf := configureRx K (disableRxQueue s)

/-- `ixgbevf_change_mtu`. -/
def changeMtu (newMtu : Mtu) (s : HvVf) : HvVf :=
  if s.hasXdp then
    s
  else
    let s := setRlpml (BitVec.ofNat 16 (newMtu.val + ethHlen + ethFcsLen)) s
    let s := { s with mtu := newMtu }
    if s.running then reinitLocked K s else s

/-- What happens to the interface. -/
inductive Event where
  | changeMtu (newMtu : Mtu)
  | opened
  | reinit
  | stopped
  | setLegacyRx (b : Bool)
  | setXdp (b : Bool)
  /-- `ENABLE` and `VME` change. -/
  | bits (value : BitVec 32)

/-- What an event does. -/
def apply (s : HvVf) : Event → HvVf
  | .changeMtu newMtu => changeMtu K newMtu s
  | .opened => configureRx K { s with running := true }
  | .reinit => reinitLocked K s
  | .stopped => { disableRxQueue s with running := false }
  | .setLegacyRx b => { s with legacyRx := b }
  | .setXdp b => { s with hasXdp := b }
  | .bits value =>
    let m := Rx.rxdctlEnable ||| rxdctlVme
    { s with rxdctl := (s.rxdctl &&& ~~~m) ||| (value &&& m) }

/-- Events one after the other. -/
def run (s : HvVf) (events : List Event) : HvVf := events.foldl (apply K) s

/-- The frame size that is requested for an MTU. -/
def frameSize (mtu : Mtu) : BitVec 16 := BitVec.ofNat 16 (mtu.val + ethHlen + ethFcsLen)

/-- The frame sizes that an event requests, on a VF with the given MTU. -/
def Event.requests (mtu : Mtu) (running hasXdp : Bool) : Event → List (BitVec 16)
  | .changeMtu newMtu =>
    if hasXdp then []
    else frameSize newMtu :: if running then [frameSize newMtu] else []
  | .opened => [frameSize mtu]
  | .reinit => [frameSize mtu]
  | _ => []

/-- The frame sizes that are requested one after the other, from the MTU and the state of the
interface alone. -/
def requests (mtu : Mtu) (running hasXdp : Bool) : List Event → List (BitVec 16)
  | [] => []
  | e :: events =>
    e.requests mtu running hasXdp ++
      match e with
      | .changeMtu newMtu => requests (if hasXdp then mtu else newMtu) running hasXdp events
      | .opened => requests mtu true hasXdp events
      | .stopped => requests mtu false hasXdp events
      | .setXdp b => requests mtu running b events
      | _ => requests mtu running hasXdp events

end HvVf

/-! ### One call -/

/-- The bits of a field that is not cleared have to be among those of the new one. -/
def Covered (old new : BitVec 32) : Prop := old &&& ~~~new = 0#32

instance (old new : BitVec 32) : Decidable (Covered old new) :=
  inferInstanceAs (Decidable (old &&& ~~~new = 0#32))

/-- Setting bits gives a value exactly when no others were set. -/
theorem or_eq_iff_covered (old new : BitVec 32) :
  old ||| new = new ↔ Covered old new
  := by
  unfold Covered
  constructor
  · intro h
    have hself : new &&& ~~~new = 0#32 := BitVec.and_not_self new
    have hsplit : (old ||| new) &&& ~~~new = old &&& ~~~new := by
      rw [BitVec.and_or_distrib_right, hself, BitVec.or_zero]
    rw [← hsplit, h, hself]
  · intro h
    have hsplit : (old &&& ~~~new) ||| new = old ||| new := by
      ext i hi
      simp
      grind
    rw [← hsplit, h, BitVec.zero_or]

/-- The frame sizes of valid MTUs fit the field. -/
theorem ofNat_and_rlpmlmask {n : ℕ} (h : n < 2 ^ 14) :
  BitVec.ofNat 32 n &&& rxdctlRlpmlmask = BitVec.ofNat 32 n
  := by
  apply BitVec.eq_of_toNat_eq
  have hmask : rxdctlRlpmlmask = BitVec.ofNat 32 (2 ^ 14 - 1) := rfl
  rw [hmask, Bits.ofNat_and_mask (by decide) h, BitVec.toNat_ofNat, Nat.mod_eq_of_lt (by omega)]

/-- After a call the field has the bits of the size, and those that it had before. -/
theorem rlpmlField_hvSetRlpmlVf (maxSize : BitVec 16) (reg : BitVec 32) :
  rlpmlField (hvSetRlpmlVf maxSize reg) = rlpmlField reg ||| wanted maxSize
  := by
  have hen : rxdctlRlpmlEn &&& rxdctlRlpmlmask = 0#32 := by decide
  unfold rlpmlField hvSetRlpmlVf wanted rlpmlField
  rw [BitVec.and_or_distrib_right, BitVec.and_or_distrib_right, hen, BitVec.or_zero]

/-- A call with a size that fits the field leaves the other bits alone. -/
theorem otherBits_hvSetRlpmlVf {maxSize : BitVec 16} (reg : BitVec 32)
    (h : maxSize.toNat + 4 < 2 ^ 14) :
  otherBits (hvSetRlpmlVf maxSize reg) = otherBits reg
  := by
  have hinside : (BitVec.ofNat 32 (maxSize.toNat + 4) ||| rxdctlRlpmlEn)
      &&& ~~~(rxdctlRlpmlmask ||| rxdctlRlpmlEn) = 0#32 := by
    rw [← ofNat_and_rlpmlmask h]
    ext i hi
    simp
    grind
  unfold otherBits hvSetRlpmlVf
  rw [BitVec.and_or_distrib_right, hinside, BitVec.or_zero]

/-! ### Runs -/

/-- The calls of a run that starts with the field `first` and ends with `last`: each finds the
field that the call before it has left, and its size fits the field. -/
inductive Linked : BitVec 32 → List RlpmlCall → BitVec 32 → Prop where
  | nil (field : BitVec 32) : Linked field [] field
  | cons {c : RlpmlCall} {calls : List RlpmlCall} {last : BitVec 32} :
      c.after = hvSetRlpmlVf c.maxSize c.before → c.maxSize.toNat + 4 < 2 ^ 14 →
      Linked (rlpmlField c.after) calls last → Linked (rlpmlField c.before) (c :: calls) last

/-- One more call. -/
theorem Linked.concat {first : BitVec 32} {calls : List RlpmlCall} {reg : BitVec 32}
    {maxSize : BitVec 16} (h : Linked first calls (rlpmlField reg))
    (hsize : maxSize.toNat + 4 < 2 ^ 14) :
  Linked first
    (calls ++ [{ before := reg, maxSize := maxSize, after := hvSetRlpmlVf maxSize reg }])
    (rlpmlField (hvSetRlpmlVf maxSize reg))
  := by
  generalize hlast : rlpmlField reg = last at h
  induction h with
  | nil =>
    subst hlast
    exact Linked.cons (c := ⟨reg, maxSize, hvSetRlpmlVf maxSize reg⟩) rfl hsize (Linked.nil _)
  | cons hafter hfits _ ih => exact Linked.cons hafter hfits (ih hlast)

/-- The last write wins in each of the calls exactly when each asks for all bits that the field
has before it. -/
theorem Linked.forall_lastWriteWins {first last : BitVec 32} {calls : List RlpmlCall}
    (h : Linked first calls last) :
  (∀ c ∈ calls, LastWriteWins c)
    ↔ (first :: calls.map (wanted ∘ RlpmlCall.maxSize)).IsChain Covered
  := by
  induction h with
  | nil => simp
  | @cons c calls last hafter hfits _ ih =>
    rw [List.forall_mem_cons, List.map_cons, List.isChain_cons_cons]
    have hfield : rlpmlField c.after = rlpmlField c.before ||| wanted c.maxSize := by
      rw [hafter, rlpmlField_hvSetRlpmlVf]
    have hone : LastWriteWins c ↔ Covered (rlpmlField c.before) (wanted c.maxSize) := by
      rw [← or_eq_iff_covered, ← hfield]
      constructor
      · intro hc
        exact hc.field
      · intro hc
        refine ⟨hc, ?_⟩
        rw [hafter, otherBits_hvSetRlpmlVf _ hfits]
    constructor
    · rintro ⟨hc, hcalls⟩
      have hchain := ih.mp hcalls
      rw [hc.field] at hchain
      exact ⟨hone.mp hc, hchain⟩
    · rintro ⟨hcovered, hchain⟩
      have hc := hone.mpr hcovered
      rw [Function.comp_apply, ← hc.field] at hchain
      exact ⟨hc, ih.mpr hchain⟩

namespace HvVf

variable {K : KernelConfig} {s : HvVf} {first : BitVec 32}

/-- The calls so far lead to the field of the register. -/
def Consistent (first : BitVec 32) (s : HvVf) : Prop := Linked first s.calls (rlpmlField s.rxdctl)

/-- A change of other bits of the register. -/
theorem Consistent.congr {s' : HvVf} (h : Consistent first s) (hcalls : s'.calls = s.calls)
    (hfield : rlpmlField s'.rxdctl = rlpmlField s.rxdctl) :
  Consistent first s'
  := by
  unfold Consistent
  rw [hcalls, hfield]
  exact h

/-- The frame size of an MTU fits the field. -/
theorem frameSize_lt (mtu : Mtu) :
  (frameSize mtu).toNat + 4 < 2 ^ 14
  := by
  have := mtu.le_max
  unfold frameSize
  rw [BitVec.toNat_ofNat]
  unfold ethHlen ethFcsLen at *
  omega

/-- A call of `ixgbevf_hv_set_rlpml_vf`. -/
theorem Consistent.setRlpml (h : Consistent first s) (mtu : Mtu) :
  Consistent first (setRlpml (frameSize mtu) s)
  := h.concat (frameSize_lt mtu)

/-- Bits outside the field do not change it. -/
theorem rlpmlField_update {m : BitVec 32} (hm : m &&& rxdctlRlpmlmask = 0#32)
    (reg value : BitVec 32) :
  rlpmlField ((reg &&& ~~~m) ||| (value &&& m)) = rlpmlField reg
  := by
  unfold rlpmlField
  ext i hi
  have hbit := congrArg (fun x : BitVec 32 => x.getLsbD i) hm
  simp at hbit ⊢
  grind

/-- Disabling the queue leaves the field alone. -/
theorem Consistent.disableRxQueue (h : Consistent first s) :
  Consistent first (disableRxQueue s)
  := by
  have hupdate := rlpmlField_update (m := Rx.rxdctlEnable) (by decide) s.rxdctl 0#32
  rw [BitVec.zero_and, BitVec.or_zero] at hupdate
  exact Consistent.congr h rfl hupdate

/-- On an 82599 `ixgbevf_configure_rx_ring` leaves the field alone. -/
theorem rlpmlField_configureRxdctl {A : RxConfig} (h : A.macType = .mac82599Vf)
    (ring : BufferFlags) (rxdctl : BitVec 32) :
  rlpmlField (configureRxdctl K A ring rxdctl) = rlpmlField rxdctl
  := by
  have hset : (Rx.rxdctlEnable ||| rxdctlVme) &&& rxdctlRlpmlmask = 0#32 := by decide
  unfold configureRxdctl rlpmlField
  rw [if_neg (not_not.mpr h), BitVec.and_or_distrib_right, hset, BitVec.or_zero]

/-- Configuring the Rx rings makes one call. -/
theorem Consistent.configureRx (h : Consistent first s) :
  Consistent first (configureRx K s)
  := by
  have hcall := h.setRlpml s.mtu
  exact Consistent.congr hcall rfl (rlpmlField_configureRxdctl rfl _ _)

/-- Every event keeps the calls and the field together. -/
theorem Consistent.apply (h : Consistent first s) (e : Event) :
  Consistent first (apply K s e)
  := by
  cases e with
  | changeMtu newMtu =>
    change Consistent first (changeMtu K newMtu s)
    have hset : Consistent first { HvVf.setRlpml (frameSize newMtu) s with mtu := newMtu } :=
      h.setRlpml newMtu
    unfold HvVf.changeMtu
    split
    · exact h
    · dsimp only
      split
      · exact hset.disableRxQueue.configureRx
      · exact hset
  | opened =>
    have hrunning : Consistent first { s with running := true } := h
    exact hrunning.configureRx
  | reinit => exact h.disableRxQueue.configureRx
  | stopped => exact h.disableRxQueue
  | setLegacyRx b => exact h
  | setXdp b => exact h
  | bits value => exact h.congr rfl (rlpmlField_update (by decide) _ _)

/-- An event calls `ixgbevf_hv_set_rlpml_vf` with the sizes that it requests. -/
theorem apply_calls (s : HvVf) (e : Event) :
  (apply K s e).calls.map RlpmlCall.maxSize
    = s.calls.map RlpmlCall.maxSize ++ e.requests s.mtu s.running s.hasXdp
  := by
  cases e with
  | changeMtu newMtu =>
    simp only [apply, changeMtu, Event.requests]
    split
    · rw [List.append_nil]
    · cases hrunning : s.running <;>
        simp [setRlpml, hrunning, reinitLocked, configureRx, configureRxRing, disableRxQueue,
          frameSize, maxFrame, config]
  | opened => simp [apply, configureRx, configureRxRing, setRlpml, Event.requests, frameSize,
      maxFrame, config]
  | reinit => simp [apply, reinitLocked, disableRxQueue, configureRx, configureRxRing, setRlpml,
      Event.requests, frameSize, maxFrame, config]
  | _ => simp [apply, disableRxQueue, Event.requests]

/-- The calls of a run are those that its events request. -/
theorem run_calls (s : HvVf) (events : List Event) :
  (run K s events).calls.map RlpmlCall.maxSize
    = s.calls.map RlpmlCall.maxSize ++ requests s.mtu s.running s.hasXdp events
  := by
  induction events generalizing s with
  | nil => simp [run, requests]
  | cons e events ih =>
    have hstep : run K s (e :: events) = run K (apply K s e) events := rfl
    rw [hstep, ih, apply_calls, List.append_assoc]
    congr 2
    cases e with
    | changeMtu newMtu =>
      simp only [apply, changeMtu]
      split
      · rfl
      · split <;> rfl
    | _ => rfl

/-- A run keeps the calls and the field together. -/
theorem Consistent.run (h : Consistent first s) (events : List Event) :
  Consistent first (run K s events)
  := by
  unfold HvVf.run
  induction events generalizing s with
  | nil => exact h
  | cons e events ih => exact ih (h.apply e)

/-- For every value that the register has at first and every sequence of events, the last write
wins in every call exactly when the first size asks for all bits that are set in the field, and
every later size for all bits of the size before it. -/
theorem lastWriteWins_iff (hnew : s.calls = []) (events : List Event) :
  (∀ c ∈ (run K s events).calls, LastWriteWins c)
    ↔ (rlpmlField s.rxdctl
      :: (requests s.mtu s.running s.hasXdp events).map wanted).IsChain Covered
  := by
  have hstart : Consistent (rlpmlField s.rxdctl) s := by
    unfold Consistent
    rw [hnew]
    exact Linked.nil _
  have hsizes := run_calls (K := K) s events
  rw [hnew, List.map_nil, List.nil_append] at hsizes
  rw [Linked.forall_lastWriteWins (hstart.run events), ← hsizes, List.map_map]

/-! ### Larger and smaller frames -/

/-- An MTU of 1500 is not too small. -/
theorem min_le_1500 :
  68 ≤ 1500
  := by decide

/-- An MTU of 1500 is not too large. -/
theorem le_max_1500 :
  1500 ≤ 16128 - (ethHlen + ethFcsLen)
  := by decide

/-- An MTU of 1500. -/
def mtu1500 : Mtu := ⟨1500, min_le_1500, le_max_1500⟩

/-- An MTU of 9000. -/
def mtu9000 : Mtu := ⟨9000, by decide, by decide⟩

/-- An interface that is not up. -/
def stoppedVf : HvVf :=
  { rxdctl := 0#32
    mtu := mtu1500
    legacyRx := false
    running := false
    hasXdp := false
    calls := [] }

/-- The same MTU again: the last write wins. -/
theorem stoppedVf_lastWriteWins_iff :
  (∀ c ∈ (run cacheLine64 stoppedVf [.changeMtu mtu1500, .opened]).calls, LastWriteWins c)
    ↔ (rlpmlField 0#32 :: (requests stoppedVf.mtu false false
      [.changeMtu mtu1500, .opened]).map wanted).IsChain Covered
  := lastWriteWins_iff rfl _

/-- After an MTU of 9000 the field of an MTU of 1500 is not the one that it is without. -/
theorem stoppedVf_not_lastWriteWins :
  (¬ ∀ c ∈ (run cacheLine64 stoppedVf [.changeMtu mtu9000, .changeMtu mtu1500]).calls,
    LastWriteWins c) ∧
  rlpmlField (run cacheLine64 stoppedVf [.changeMtu mtu1500]).rxdctl = 1522#32 ∧
  rlpmlField (run cacheLine64 stoppedVf [.changeMtu mtu9000, .changeMtu mtu1500]).rxdctl
    = 10238#32
  := by
  refine ⟨?_, by decide, by decide⟩
  intro h
  have hlast := (h { before := 0xA33E#32, maxSize := 1518#16, after := 0xA7FE#32 } ?_).field
  · revert hlast
    decide
  · have hcalls : (run cacheLine64 stoppedVf [.changeMtu mtu9000, .changeMtu mtu1500]).calls
        = [{ before := 0#32, maxSize := 9018#16, after := 0xA33E#32 },
          { before := 0xA33E#32, maxSize := 1518#16, after := 0xA7FE#32 }] := by rfl
    rw [hcalls]
    simp

end HvVf

end Ixgbevf.HyperV
