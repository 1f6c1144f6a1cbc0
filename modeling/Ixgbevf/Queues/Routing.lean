import Ixgbevf.Itr
import Ixgbevf.Lib.Bits
import Ixgbevf.Lib.Loops
import Ixgbevf.Queues.Bounds

/-!
# Which interrupt a ring raises

`ixgbevf_alloc_q_vectors` gives every ring to a vector and the Tx and XDP rings their registers,
and `ixgbevf_configure_msix` writes the vector of every ring into a byte of the `VTIVAR`
registers, four of them in a register.
-/

namespace Ixgbevf.Queues

open StateProgram

/-! ### The interrupt registers -/

/-- `IXGBE_VTIVAR`. -/
def vtIvar (i : ℕ) : ℕ := 0x120 + 4 * i

/-- `IXGBE_VTIVAR_MISC`. -/
def vtIvarMisc : ℕ := 0x140

/-- `IXGBE_VTEITR`. -/
def vtEitr (i : ℕ) : ℕ := 0x820 + 4 * i

/-- `IXGBE_IVAR_ALLOC_VAL`. -/
def ivarAllocVal : BitVec 8 := 0x80#8

section Device

variable {D : Type} (V : Device D)

/-- `ixgbevf_set_ivar`. -/
def setIvar (direction : ℤ) (queue msixVector : BitVec 8) : PortM D Unit := do
  let msixVector := msixVector ||| ivarAllocVal
  if direction = -1 then do
    let ivar ← readReg V vtIvarMisc
    writeReg V vtIvarMisc (ivar &&& ~~~0xFF#32 ||| msixVector.setWidth 32)
  else do
    let index := 16 * (queue.toNat % 2) + 8 * direction.toNat
    let ivar ← readReg V (vtIvar (queue.toNat / 2))
    writeReg V (vtIvar (queue.toNat / 2))
      (ivar &&& ~~~(0xFF#32 <<< index) ||| msixVector.setWidth 32 <<< index)

/-- A loop over the rings of a vector, by their `reg_idx`. -/
def eachRing (f : ℕ → PortM D Unit) : List ℕ → PortM D Unit
  | [] => pure ()
  | regIdx :: regs => do
    f regIdx
    eachRing f regs

/-- The `reg_idx` of the rings of a container, the last one that was added first. -/
def regsOf {α : Type} (ring : α → Option Ring) : List α → Option (List ℕ)
  | [] => some []
  | x :: xs =>
    match regsOf ring xs, ring x with
    | some regs, some r => some (regs ++ [r.regIdx])
    | _, _ => none

/-- The ring of `q_vector->tx` that is marked by whether it is an XDP ring. -/
def Rings.ofTx (rings : Rings) (x : Bool × ℕ) : Option Ring :=
  if x.1 then rings.xdp x.2 else rings.tx x.2

/-- The settings of `struct ixgbevf_adapter` for the interrupt throttling. -/
structure ItrSettings where
  /-- `rx_itr_setting`. -/
  rx : ℕ
  /-- `tx_itr_setting`. -/
  tx : ℕ

/-- The value that `ixgbevf_write_eitr` writes in `ixgbevf_configure_msix`. -/
def ItrSettings.eitr (c : ItrSettings) (rx tx : List ℕ) : BitVec 32 :=
  let itr :=
    if tx ≠ [] ∧ rx = [] then Itr.settingItr Itr.itr12K c.tx else Itr.settingItr Itr.itr20K c.rx
  BitVec.ofNat 32 ((itr &&& Itr.maxEitr) ||| Itr.eitrCntWdis)

/-- The body of the loop of `ixgbevf_configure_msix`, with `eims_enable_mask`. -/
def configureVector (c : ItrSettings) (s : Adapter) (vIdx : ℕ) (x : BitVec 32 × Port D) :
    Option (BitVec 32 × Port D) :=
  (s.qVector vIdx).bind fun q =>
    match regsOf s.rings.rx q.rx, regsOf s.rings.ofTx q.tx with
    | some rx, some tx =>
      let program : PortM D Unit := do
        eachRing (fun regIdx => setIvar V 0 (BitVec.ofNat 8 regIdx) (BitVec.ofNat 8 vIdx)) rx
        eachRing (fun regIdx => setIvar V 1 (BitVec.ofNat 8 regIdx) (BitVec.ofNat 8 vIdx)) tx
        writeReg V (vtEitr vIdx) (c.eitr rx tx)
      some (x.1 ||| 1#32 <<< vIdx, (program.run x.2).2)
    | _, _ => none

/-- The interrupt masks of the adapter. -/
structure Eims where
  /-- `eims_enable_mask`. -/
  enableMask : BitVec 32
  /-- `eims_other`. -/
  other : BitVec 32

/-- `ixgbevf_configure_msix`. -/
def configureMsix (c : ItrSettings) (s : Adapter) (p : Port D) : Option (Eims × Port D) :=
  (Loops.upFrom (configureVector V c s) s.numQVectors 0 (0#32, p)).map fun x =>
    let other := 1#32 <<< s.numQVectors
    (⟨x.1 ||| other, other⟩,
      ((setIvar V (-1) 1#8 (BitVec.ofNat 8 s.numQVectors)).run x.2).2)

end Device

/-! ### The bytes of the interrupt registers -/

/-- A device that holds what was written to its registers. -/
def registers : Device (ℕ → BitVec 32) where
  read d reg := (d reg, d)
  write d reg value := Function.update d reg value

/-- The device is there: its status register does not read as all ones. -/
structure Present (p : Port (ℕ → BitVec 32)) : Prop where
  /-- The adapter has not been given up. -/
  there : p.removed = false
  /-- The status register. -/
  status : p.dev vfStatus ≠ failedReadReg

/-- The byte of the `VTIVAR` registers for a ring: whether it is of the Tx direction, and its
`reg_idx`. -/
def ivarByte (d : ℕ → BitVec 32) (ring : Bool × ℕ) : BitVec 8 :=
  (d (vtIvar (ring.2 / 2)) >>> (16 * (ring.2 % 2) + 8 * ring.1.toNat)).setWidth 8

variable {p : Port (ℕ → BitVec 32)}

/-- Reading a register again finds what it held. -/
theorem rereads_registers (reg n : ℕ) (hreg : p.dev reg = deadReadReg) :
  (rereads registers reg n deadReadReg).run p = (deadReadReg, p)
  := by
  induction n with
  | zero => rfl
  | succ n ih =>
    have hread : (readl registers reg).run p = (deadReadReg, p) := by
      rw [← hreg]
      rfl
    rw [rereads, run_bind, hread, if_neg (by simp)]
    exact ih

/-- The read of a register of a device that is there, whatever its check for a removal does. -/
theorem readRegWith_registers {check : PortM (ℕ → BitVec 32) Unit} (h : Present p) (reg : ℕ)
    (hcheck : p.dev reg = failedReadReg → check.run p = ((), p)) :
  (readRegWith registers check reg).run p = (p.dev reg, p)
  := by
  have hread : (readl registers reg).run p = (p.dev reg, p) := rfl
  have hif : (if p.dev reg = failedReadReg then check else pure () : PortM _ Unit).run p
      = ((), p) := by
    split
    next hfailed => exact hcheck hfailed
    · rfl
  rw [readRegWith, run_get_bind, if_neg (by simp [h.there]), run_bind, hread, run_bind, hif]
  split
  next hdead =>
    have hvalue : p.dev reg = deadReadReg := hdead
    rw [validateRegisterRead, run_get_bind, if_neg (by simp [h.there]), rereads_registers _ _ hvalue,
      hvalue]
  · rfl

/-- The read of a register of a device that is there. -/
theorem readReg_registers (h : Present p) {reg : ℕ} (hreg : reg ≠ vfStatus) :
  (readReg registers reg).run p = (p.dev reg, { p with reads := p.reads ++ [(reg, p.dev reg)] })
  := by
  have hcheck : (checkRemove registers reg).run p = ((), p) := by
    have hstatus : (readRegWith registers removeAdapter vfStatus).run p = (p.dev vfStatus, p) :=
      readRegWith_registers h vfStatus fun hfailed => absurd hfailed h.status
    rw [checkRemove, if_neg hreg, run_bind, hstatus, if_neg h.status]
    rfl
  rw [readReg, run_bind, readRegWith_registers h reg fun _ => hcheck]
  rfl

/-- The write of a register of a device that is there. -/
theorem writeReg_registers (h : Present p) (reg : ℕ) (value : BitVec 32) :
  (writeReg registers reg value).run p = ((), { p with dev := Function.update p.dev reg value })
  := by
  show ((), if p.removed then p else _) = _
  rw [if_neg (by simp [h.there])]
  rfl

/-- A register of a device that is there is read, changed and written back. -/
theorem changeReg_registers (h : Present p) {reg : ℕ} (hreg : reg ≠ vfStatus)
    (f : BitVec 32 → BitVec 32) :
  let p' := ((do
    let value ← readReg registers reg
    writeReg registers reg (f value) : PortM (ℕ → BitVec 32) Unit).run p).2
  Present p' ∧ p'.dev = Function.update p.dev reg (f (p.dev reg))
  := by
  have hread : Present { p with reads := p.reads ++ [(reg, p.dev reg)] } := ⟨h.there, h.status⟩
  rw [run_bind, readReg_registers h hreg]
  dsimp only
  rw [writeReg_registers hread]
  refine ⟨⟨h.there, ?_⟩, rfl⟩
  show Function.update p.dev reg _ vfStatus ≠ failedReadReg
  rw [Function.update_of_ne hreg.symm]
  exact h.status

/-- The registers of different pairs of queues are different, and none of them is one of the others
that are written. -/
theorem vtIvar_ne {i j v : ℕ} (hi : i < 8) (hv : v < maxQVectors) :
  (vtIvar i = vtIvar j ↔ i = j) ∧ vtIvar i ≠ vtIvarMisc ∧ vtIvar i ≠ vtEitr v
    ∧ vtIvar j ≠ vfStatus ∧ vtIvarMisc ≠ vfStatus ∧ vtEitr v ≠ vfStatus
  := by
  simp only [vtIvar, vtIvarMisc, vtEitr, vfStatus]
  unfold maxQVectors at hv
  omega

/-- The bytes of the `VTIVAR` registers of a device, of which 32 do not overlap with anything, stay
as they are. -/
def SameIvars (except : Bool × ℕ → Prop) (d d' : ℕ → BitVec 32) : Prop :=
  ∀ ring : Bool × ℕ, ring.2 < 16 → ¬ except ring → ivarByte d' ring = ivarByte d ring

/-- `ixgbevf_set_ivar` for a ring sets the byte of the ring and no other one. -/
theorem setIvar_registers (h : Present p) {tx : Bool} {regIdx : ℕ} (hreg : regIdx < 16)
    (v : BitVec 8) :
  let p' := ((setIvar registers tx.toNat (BitVec.ofNat 8 regIdx) v).run p).2
  Present p' ∧ ivarByte p'.dev (tx, regIdx) = v ||| ivarAllocVal
    ∧ SameIvars (· = (tx, regIdx)) p.dev p'.dev
  := by
  have hqueue : (BitVec.ofNat 8 regIdx).toNat = regIdx := by
    rw [BitVec.toNat_ofNat, Nat.mod_eq_of_lt (by omega)]
  have hdirection : ¬ (tx.toNat : ℤ) = -1 := by omega
  have hstatus : vtIvar (regIdx / 2) ≠ vfStatus := by
    simp only [vtIvar, vfStatus]
    omega
  have hindex (b : Bool) (n : ℕ) : 16 * (n % 2) + 8 * b.toNat = 8 * (2 * (n % 2) + b.toNat) := by
    omega
  have hsmall (b : Bool) (n : ℕ) : 2 * (n % 2) + b.toNat < 4 := by
    have := b.toNat_le
    omega
  have hchange := changeReg_registers h hstatus fun ivar =>
    ivar &&& ~~~(0xFF#32 <<< (16 * (regIdx % 2) + 8 * tx.toNat))
      ||| (v ||| ivarAllocVal).setWidth 32 <<< (16 * (regIdx % 2) + 8 * tx.toNat)
  simp only [setIvar, hqueue, if_neg hdirection, Int.toNat_natCast]
  obtain ⟨hpresent, hdev⟩ := hchange
  refine ⟨hpresent, ?_, ?_⟩
  · rw [hdev]
    simp only [ivarByte, Function.update_self, hindex]
    rw [Bits.replace_byte _ _ (hsmall _ _) (hsmall _ _), if_pos rfl]
  · rintro ⟨tx', regIdx'⟩ hreg' hne
    rw [hdev]
    simp only [ivarByte]
    by_cases hsame : vtIvar (regIdx' / 2) = vtIvar (regIdx / 2)
    · rw [hsame, Function.update_self, hindex, hindex,
        Bits.replace_byte _ _ (hsmall _ _) (hsmall _ _), if_neg]
      intro hbyte
      have hpair : regIdx' / 2 = regIdx / 2 := by
        simp only [vtIvar] at hsame
        omega
      have htx := tx.toNat_le
      have htx' := tx'.toNat_le
      have hregIdx : regIdx' = regIdx := by omega
      have hdir : tx' = tx := by
        rw [← Bool.ofNat_toNat tx', ← Bool.ofNat_toNat tx]
        congr 1
        omega
      exact hne (Prod.ext hdir hregIdx)
    · rw [Function.update_of_ne hsame]

/-- A loop over rings sets the bytes of the rings. -/
theorem eachRing_registers (h : Present p) (tx : Bool) {regs : List ℕ}
    (hregs : ∀ regIdx ∈ regs, regIdx < 16) (v : BitVec 8) :
  let p' := ((eachRing (fun regIdx => setIvar registers tx.toNat (BitVec.ofNat 8 regIdx) v)
    regs).run p).2
  Present p' ∧ (∀ regIdx ∈ regs, ivarByte p'.dev (tx, regIdx) = v ||| ivarAllocVal)
    ∧ SameIvars (fun ring => ring.1 = tx ∧ ring.2 ∈ regs) p.dev p'.dev
  := by
  induction regs generalizing p with
  | nil => exact ⟨h, by simp, fun ring _ _ => rfl⟩
  | cons regIdx regs ih =>
    obtain ⟨hlt, hregs⟩ := List.forall_mem_cons.mp hregs
    obtain ⟨h₁, hset, hsame⟩ := setIvar_registers h hlt v
    obtain ⟨h₂, hset₂, hsame₂⟩ := ih h₁ hregs
    rw [eachRing, run_bind]
    refine ⟨h₂, ?_, ?_⟩
    · intro regIdx' hmem
      by_cases hrest : regIdx' ∈ regs
      · exact hset₂ regIdx' hrest
      · obtain rfl : regIdx' = regIdx := (List.mem_cons.mp hmem).resolve_right hrest
        rw [hsame₂ _ hlt fun hring => hrest hring.2]
        exact hset
    · intro ring hring hno
      rw [hsame₂ ring hring fun hring' => hno ⟨hring'.1, List.mem_cons_of_mem _ hring'.2⟩]
      apply hsame ring hring
      rintro rfl
      exact hno ⟨rfl, List.mem_cons_self⟩

/-- The bytes of rings stay when another register is written. -/
theorem writeReg_ivars (h : Present p) {reg : ℕ} (hstatus : reg ≠ vfStatus)
    (hreg : ∀ i < 8, vtIvar i ≠ reg) (value : BitVec 32) :
  Present ((writeReg registers reg value).run p).2
    ∧ SameIvars (fun _ => False) p.dev ((writeReg registers reg value).run p).2.dev
  := by
  rw [writeReg_registers h]
  refine ⟨⟨h.there, ?_⟩, ?_⟩
  · show Function.update p.dev reg value vfStatus ≠ failedReadReg
    rw [Function.update_of_ne hstatus.symm]
    exact h.status
  · intro ring hring _
    have hne := hreg (ring.2 / 2) (by omega)
    simp only [ivarByte, Function.update_of_ne hne]

/-- The bytes that belong to vectors hold the vectors: those that the rings of the vectors below
`n` have, in both directions. -/
def Routed (regs : ℕ → Bool → List ℕ) (n : ℕ) (d : ℕ → BitVec 32) : Prop :=
  ∀ v < n, ∀ tx, ∀ regIdx ∈ regs v tx, ivarByte d (tx, regIdx) = BitVec.ofNat 8 v ||| ivarAllocVal

/-- One vector more is routed. -/
theorem configureVector_routed {c : ItrSettings} {s : Adapter} {regs : ℕ → Bool → List ℕ} {v : ℕ}
    {mask : BitVec 32} {q : QVector} (h : Present p) (hrouted : Routed regs v p.dev)
    (hv : v < maxQVectors) (hq : s.qVector v = some q)
    (hrx : regsOf s.rings.rx q.rx = some (regs v false))
    (htx : regsOf s.rings.ofTx q.tx = some (regs v true))
    (hlt : ∀ w tx, ∀ regIdx ∈ regs w tx, regIdx < 16)
    (hapart : ∀ w ≠ v, ∀ tx, ∀ regIdx ∈ regs w tx, regIdx ∉ regs v tx) :
  ∃ x, configureVector registers c s v (mask, p) = some x ∧ Present x.2
    ∧ Routed regs (v + 1) x.2.dev
  := by
  obtain ⟨h₁, hset₁, hsame₁⟩ := eachRing_registers h false (hlt v false) (BitVec.ofNat 8 v)
  obtain ⟨h₂, hset₂, hsame₂⟩ := eachRing_registers h₁ true (hlt v true) (BitVec.ofNat 8 v)
  obtain ⟨h₃, hsame₃⟩ := writeReg_ivars h₂
    (vtIvar_ne (i := 0) (j := 0) (by omega) hv).2.2.2.2.2
    (fun i hi => (vtIvar_ne (j := 0) hi hv).2.2.1) (c.eitr (regs v false) (regs v true))
  refine ⟨(mask ||| 1#32 <<< v, _), ?_, h₃, ?_⟩
  · simp only [configureVector, hq, Option.bind_some, hrx, htx]
    rfl
  · intro w hw tx regIdx hmem
    have hreg := hlt w tx regIdx hmem
    rw [hsame₃ _ hreg not_false]
    by_cases hvw : w = v
    · subst hvw
      cases tx with
      | true => exact hset₂ regIdx hmem
      | false =>
        rw [hsame₂ _ hreg (by simp)]
        exact hset₁ regIdx hmem
    · have hno := hapart w hvw tx regIdx hmem
      have hkeeps : ivarByte p.dev (tx, regIdx) = BitVec.ofNat 8 w ||| ivarAllocVal :=
        hrouted w (by omega) tx regIdx hmem
      rw [hsame₂ _ hreg (by rintro ⟨rfl, hin⟩; exact hno hin),
        hsame₁ _ hreg (by rintro ⟨rfl, hin⟩; exact hno hin), hkeeps]

/-- `ixgbevf_configure_msix` routes every ring to its vector, when no two vectors have rings with
the same register. -/
theorem configureMsix_routed {c : ItrSettings} {s : Adapter} {regs : ℕ → Bool → List ℕ}
    (h : Present p) (hn : s.numQVectors ≤ maxQVectors)
    (hq : ∀ v < s.numQVectors, ∃ q, s.qVector v = some q
      ∧ regsOf s.rings.rx q.rx = some (regs v false)
      ∧ regsOf s.rings.ofTx q.tx = some (regs v true))
    (hlt : ∀ v tx, ∀ regIdx ∈ regs v tx, regIdx < 16)
    (hapart : ∀ v w, w ≠ v → ∀ tx, ∀ regIdx ∈ regs w tx, regIdx ∉ regs v tx) :
  ∃ x, configureMsix registers c s p = some x ∧ Routed regs s.numQVectors x.2.dev
  := by
  obtain ⟨⟨mask, p₁⟩, hloop, h₁, hrouted⟩ := Loops.upFrom_some (f := configureVector registers c s)
    (I := fun j (x : BitVec 32 × Port _) => Present x.2 ∧ Routed regs j x.2.dev)
    (n := s.numQVectors) (i := 0) (s := (0#32, p)) ⟨h, fun v hv => by omega⟩ (by
      rintro v hv ⟨mask, p⟩ - ⟨hpresent, hrouted⟩
      obtain ⟨q, hsome, hrx, htx⟩ := hq v (by omega)
      exact configureVector_routed hpresent hrouted (by omega) hsome hrx htx hlt (hapart v))
  rw [Nat.zero_add] at hrouted
  have hmisc : vtIvarMisc ≠ vfStatus := by decide
  obtain ⟨-, hdev⟩ := changeReg_registers h₁ hmisc fun ivar => ivar &&& ~~~0xFF#32
    ||| (BitVec.ofNat 8 s.numQVectors ||| ivarAllocVal).setWidth 32
  refine ⟨_, by rw [configureMsix, hloop]; rfl, ?_⟩
  intro v hv tx regIdx hmem
  have hreg := hlt v tx regIdx hmem
  have hne : vtIvar (regIdx / 2) ≠ vtIvarMisc := by
    simp only [vtIvar, vtIvarMisc]
    omega
  rw [← hrouted v hv tx regIdx hmem]
  simp only [setIvar, if_true, ivarByte]
  rw [hdev, Function.update_of_ne hne]

/-! ### What the vectors have -/

/-- The rings of `q_vector->rx`. -/
def Adapter.servedRx (s : Adapter) (v : ℕ) : List ℕ := ((s.qVector v).map (·.rx)).getD []

/-- The rings of `q_vector->tx`. -/
def Adapter.servedTx (s : Adapter) (v : ℕ) : List (Bool × ℕ) :=
  ((s.qVector v).map (·.tx)).getD []

/-- The bound of the index of a ring of `q_vector->tx`, when there are `tx` Tx rings and `xdp` XDP
rings. -/
def txBound (tx xdp : ℕ) (isXdp : Bool) : ℕ := if isXdp then xdp else tx

/-- The vectors from 0 to `vIdx`, allocated from the identity `base` on, have the Rx, Tx and XDP
rings below `rx`, `tx` and `xdp`. -/
structure DealtTo (base vIdx rx tx xdp : ℕ) (s : Adapter) : Prop where
  /-- There is room for the vectors. -/
  bound : vIdx ≤ maxQVectors
  /-- The identity that comes next. -/
  nextId : s.nextId = base + vIdx
  /-- The vectors. -/
  vector : ∀ v < vIdx, ∃ q, s.qVector v = some q ∧ q.id = base + v ∧ (q.rx ≠ [] ∨ q.tx ≠ [])
  /-- The Rx rings of the vectors, one vector after the other. -/
  servedRx : (List.range vIdx).flatMap s.servedRx = List.range rx
  /-- The Tx and XDP rings of the vectors. -/
  servedTx : ∀ x, x ∈ (List.range vIdx).flatMap s.servedTx ↔ x.2 < txBound tx xdp x.1
  /-- Their registers, one vector after the other. -/
  regs : ((List.range vIdx).flatMap s.servedTx).map (fun x => (s.rings.ofTx x).map (·.regIdx))
    = (List.range (tx + xdp)).map some
  /-- The Rx rings belong to their vectors. -/
  rxRing : ∀ v < vIdx, ∀ i ∈ s.servedRx v, s.rings.rx i = some (freshRing (base + v) i i)
  /-- The Tx and XDP rings belong to their vectors. -/
  txRing : ∀ v < vIdx, ∀ x ∈ s.servedTx v, ∃ regIdx,
    s.rings.ofTx x = some (freshRing (base + v) x.2 regIdx)

/-- Before the first vector. -/
theorem DealtTo.start (s : Adapter) :
  DealtTo s.nextId 0 0 0 0 s
  := by
  constructor
  · exact Nat.zero_le _
  · rfl
  · intro v hv
    cases hv
  · rfl
  · intro x
    cases hx : x.1 with
    | false => simp [txBound]
    | true => simp [txBound]
  · rfl
  · intro v hv
    cases hv
  · intro v hv
    cases hv

/-- The indices of a vector come after those of the vectors before. -/
theorem range_append_range' (n m : ℕ) :
  List.range n ++ List.range' n m = List.range (n + m)
  := by
  have h := List.range'_append_1 (s := 0) (m := n) (n := m)
  rwa [Nat.zero_add, ← List.range_eq_range', ← List.range_eq_range'] at h

/-- A range that is moved. -/
theorem map_range' (a b n : ℕ) :
  (List.range' a n).map (fun i => b + (i - a)) = List.range' b n
  := by
  rw [List.range'_eq_map_range, List.range'_eq_map_range, List.map_map]
  apply List.map_congr_left
  intro i _
  simp

/-- What the vectors have when another one is added. -/
theorem flatMap_range_succ {α : Type} {f g : ℕ → List α} {n : ℕ} (h : ∀ v < n, g v = f v) :
  (List.range (n + 1)).flatMap g = (List.range n).flatMap f ++ g n
  := by
  rw [List.range_succ, List.flatMap_append, List.flatMap_singleton]
  congr 1
  apply List.flatMap_congr
  intro v hv
  exact h v (List.mem_range.mp hv)

/-- What the allocation of a vector does, in all. -/
theorem allocQVector_inv {vIdx txrCount txrIdx xdpCount xdpIdx rxrCount rxrIdx : ℕ}
    {s s' : Adapter}
    (h : allocQVector vIdx txrCount txrIdx xdpCount xdpIdx rxrCount rxrIdx s = some s') :
  vIdx < maxQVectors ∧ s'.nextId = s.nextId + 1
    ∧ s'.qVector = Function.update s.qVector vIdx (some {
      id := s.nextId
      tx := (List.range' txrIdx txrCount).map (false, ·)
        ++ (List.range' xdpIdx xdpCount).map (true, ·)
      rx := List.range' rxrIdx rxrCount })
    ∧ (∀ i, s'.rings.rx i = if rxrIdx ≤ i ∧ i < rxrIdx + rxrCount
      then some (freshRing s.nextId i i) else s.rings.rx i)
    ∧ (∀ i, s'.rings.tx i = if txrIdx ≤ i ∧ i < txrIdx + txrCount
      then some (freshRing s.nextId i (txrIdx + xdpIdx + (i - txrIdx))) else s.rings.tx i)
    ∧ (∀ i, s'.rings.xdp i = if xdpIdx ≤ i ∧ i < xdpIdx + xdpCount
      then some (freshRing s.nextId i (txrIdx + xdpIdx + txrCount + (i - xdpIdx)))
      else s.rings.xdp i)
  := by
  unfold allocQVector at h
  split at h
  next hbound =>
    cases h
    refine ⟨hbound, rfl, rfl, ?_, ?_, ?_⟩
    · intro i
      simp only [addRings_apply]
    · intro i
      simp only [addRings_apply]
    · intro i
      simp only [addRings_apply]
  · cases h

/-- One more vector gets the rings that come next. -/
theorem DealtTo.alloc {base vIdx txrCount txrIdx xdpCount xdpIdx rxrCount rxrIdx : ℕ}
    {s s' : Adapter} (h : DealtTo base vIdx rxrIdx txrIdx xdpIdx s)
    (halloc : allocQVector vIdx txrCount txrIdx xdpCount xdpIdx rxrCount rxrIdx s = some s')
    (hcount : 0 < rxrCount ∨ 0 < txrCount) :
  DealtTo base (vIdx + 1) (rxrIdx + rxrCount) (txrIdx + txrCount) (xdpIdx + xdpCount) s'
  := by
  obtain ⟨hbound, hnext, hvec, hrx, htx, hxdp⟩ := allocQVector_inv halloc
  rw [h.nextId] at hvec hrx htx hxdp
  have hservedRx : ∀ v < vIdx, s'.servedRx v = s.servedRx v := by
    intro v hv
    simp only [Adapter.servedRx, hvec, Function.update_of_ne (Nat.ne_of_lt hv)]
  have hservedTx : ∀ v < vIdx, s'.servedTx v = s.servedTx v := by
    intro v hv
    simp only [Adapter.servedTx, hvec, Function.update_of_ne (Nat.ne_of_lt hv)]
  have hnewRx : s'.servedRx vIdx = List.range' rxrIdx rxrCount := by
    simp [Adapter.servedRx, hvec]
  have hnewTx : s'.servedTx vIdx = (List.range' txrIdx txrCount).map (false, ·)
      ++ (List.range' xdpIdx xdpCount).map (true, ·) := by
    simp [Adapter.servedTx, hvec]
  have holdTx {x : Bool × ℕ} (hx : x ∈ (List.range vIdx).flatMap s.servedTx) :
      s'.rings.ofTx x = s.rings.ofTx x := by
    obtain ⟨isXdp, i⟩ := x
    have hlt := (h.servedTx _).mp hx
    cases isXdp with
    | false =>
      have hold : ¬ (txrIdx ≤ i ∧ i < txrIdx + txrCount) := fun hi => Nat.not_lt.mpr hi.1 hlt
      exact (htx i).trans (if_neg hold)
    | true =>
      have hold : ¬ (xdpIdx ≤ i ∧ i < xdpIdx + xdpCount) := fun hi => Nat.not_lt.mpr hi.1 hlt
      exact (hxdp i).trans (if_neg hold)
  have hregsTx : ((List.range' txrIdx txrCount).map (false, ·)).map
      (fun x => (s'.rings.ofTx x).map (·.regIdx))
      = (List.range' (txrIdx + xdpIdx) txrCount).map some := by
    rw [← map_range' txrIdx (txrIdx + xdpIdx), List.map_map, List.map_map]
    apply List.map_congr_left
    intro i hi
    have hring := (htx i).trans (if_pos (List.mem_range'_1.mp hi))
    exact congrArg (Option.map (·.regIdx)) hring
  have hregsXdp : ((List.range' xdpIdx xdpCount).map (true, ·)).map
      (fun x => (s'.rings.ofTx x).map (·.regIdx))
      = (List.range' (txrIdx + xdpIdx + txrCount) xdpCount).map some := by
    rw [← map_range' xdpIdx (txrIdx + xdpIdx + txrCount), List.map_map, List.map_map]
    apply List.map_congr_left
    intro i hi
    have hring := (hxdp i).trans (if_pos (List.mem_range'_1.mp hi))
    exact congrArg (Option.map (·.regIdx)) hring
  constructor
  · exact hbound
  · rw [hnext, h.nextId]
    rfl
  · intro v hv
    obtain rfl | hlt := Nat.eq_or_lt_of_le (Nat.le_of_lt_succ hv)
    · refine ⟨_, by rw [hvec, Function.update_self], rfl, ?_⟩
      simp only [ne_eq, List.range'_eq_nil_iff, List.append_eq_nil_iff, List.map_eq_nil_iff]
      omega
    · rw [hvec, Function.update_of_ne (Nat.ne_of_lt hlt)]
      exact h.vector v hlt
  · rw [flatMap_range_succ hservedRx, hnewRx, h.servedRx, range_append_range']
  · rintro ⟨isXdp, i⟩
    rw [flatMap_range_succ hservedTx, hnewTx, List.mem_append, h.servedTx]
    cases isXdp with
    | false =>
      simp [txBound]
      omega
    | true =>
      simp [txBound]
      omega
  · have holdRegs := List.map_congr_left (l := (List.range vIdx).flatMap s.servedTx)
      fun x hx => congrArg (Option.map (·.regIdx)) (holdTx hx)
    rw [flatMap_range_succ hservedTx, hnewTx, List.map_append, List.map_append, holdRegs, h.regs,
      hregsTx, hregsXdp, ← List.map_append, ← List.map_append, ← List.append_assoc,
      range_append_range', range_append_range']
    congr 2
    omega
  · intro v hv i hi
    obtain rfl | hlt := Nat.eq_or_lt_of_le (Nat.le_of_lt_succ hv)
    · rw [hnewRx, List.mem_range'_1] at hi
      rw [hrx, if_pos hi]
    · rw [hservedRx v hlt] at hi
      have hmem : i ∈ (List.range vIdx).flatMap s.servedRx :=
        List.mem_flatMap.mpr ⟨v, List.mem_range.mpr hlt, hi⟩
      rw [h.servedRx, List.mem_range] at hmem
      rw [hrx, if_neg (by omega)]
      exact h.rxRing v hlt i hi
  · intro v hv x hx
    obtain rfl | hlt := Nat.eq_or_lt_of_le (Nat.le_of_lt_succ hv)
    · rw [hnewTx, List.mem_append, List.mem_map, List.mem_map] at hx
      obtain ⟨i, hi, rfl⟩ | ⟨i, hi, rfl⟩ := hx
      · exact ⟨_, (htx i).trans (if_pos (List.mem_range'_1.mp hi))⟩
      · exact ⟨_, (hxdp i).trans (if_pos (List.mem_range'_1.mp hi))⟩
    · rw [hservedTx v hlt] at hx
      rw [holdTx (List.mem_flatMap.mpr ⟨v, List.mem_range.mpr hlt, hx⟩)]
      exact h.txRing v hlt x hx

/-! ### The loops that deal the rings out -/

/-- The allocation of a vector for which there is room. -/
theorem allocQVector_isSome {vIdx : ℕ} (h : vIdx < maxQVectors)
    (txrCount txrIdx xdpCount xdpIdx rxrCount rxrIdx : ℕ) (s : Adapter) :
  ∃ s', allocQVector vIdx txrCount txrIdx xdpCount xdpIdx rxrCount rxrIdx s = some s'
  := by
  rw [allocQVector, if_pos h]
  exact ⟨_, rfl⟩

/-- The second loop ends while there is room and memory for its vectors. -/
theorem dealAll_isSome {env : InitEnv} {n : ℕ} {d : Dealing} {s : Adapter}
    (hroom : d.vIdx + n ≤ maxQVectors) (hmem : ∀ v < d.vIdx + n, env.qVectorFails v = false) :
  ∃ d' s', dealAll env n d s = some (d', s', false)
  := by
  induction n generalizing d s with
  | zero => exact ⟨d, s, rfl⟩
  | succ n ih =>
    obtain ⟨s₁, h₁⟩ := allocQVector_isSome (show d.vIdx < maxQVectors by omega)
      (divRoundUp d.txrRemaining (n + 1)) d.txrIdx (divRoundUp d.xdpRemaining (n + 1)) d.xdpIdx
      (divRoundUp d.rxrRemaining (n + 1)) d.rxrIdx s
    rw [dealAll, hmem d.vIdx (by omega), if_neg Bool.false_ne_true]
    dsimp only
    rw [h₁, Option.bind_some]
    apply ih
    · simp only
      omega
    · intro v hv
      simp only at hv
      exact hmem v (by omega)

/-- The second loop deals all the rings out, and gives every vector one. -/
theorem DealtTo.dealAll {env : InitEnv} {n base : ℕ} {d d' : Dealing} {s s' : Adapter}
    (h : DealtTo base d.vIdx d.rxrIdx d.txrIdx d.xdpIdx s)
    (hdeal : Queues.dealAll env n d s = some (d', s', false))
    (hle : n ≤ max d.rxrRemaining d.txrRemaining)
    (hnone : n = 0 → d.rxrRemaining = 0 ∧ d.txrRemaining = 0 ∧ d.xdpRemaining = 0) :
  DealtTo base (d.vIdx + n) (d.rxrIdx + d.rxrRemaining) (d.txrIdx + d.txrRemaining)
    (d.xdpIdx + d.xdpRemaining) s'
  := by
  induction n generalizing d s with
  | zero =>
    obtain ⟨hrx, htx, hxdp⟩ := hnone rfl
    cases hdeal
    rw [hrx, htx, hxdp]
    exact h
  | succ n ih =>
    rw [Queues.dealAll] at hdeal
    split at hdeal
    · cases hdeal
    obtain ⟨s₁, h₁, h₂⟩ := Option.bind_eq_some_iff.mp hdeal
    have hrx := divRoundUp_le d.rxrRemaining n
    have htx := divRoundUp_le d.txrRemaining n
    have hxdp := divRoundUp_le d.xdpRemaining n
    have hrxEach := divRoundUp_le_sub (r := d.rxrRemaining) (n := n)
    have htxEach := divRoundUp_le_sub (r := d.txrRemaining) (n := n)
    have hrest := ih (h.alloc h₁ (by omega)) h₂ (by simp only; omega) (by
      rintro rfl
      simp only [Nat.zero_add, divRoundUp_one, Nat.sub_self, true_and])
    have hsum (i : ℕ) {c r : ℕ} (hc : c ≤ r) : i + c + (r - c) = i + r := by omega
    simp only [hsum _ hrx, hsum _ htx, hsum _ hxdp, Nat.add_assoc, Nat.add_comm 1 n] at hrest
    exact hrest

/-- When there are as many Rx rings as vectors and no others, the first loop does what the second
one would do. -/
theorem dealRx_eq_dealAll {env : InitEnv} {n : ℕ} {d : Dealing} {s : Adapter}
    (hrx : d.rxrRemaining = n) (hq : d.qVectors = n) (htx : d.txrRemaining = 0)
    (hxdp : d.xdpRemaining = 0) (htxIdx : d.txrIdx = 0) (hxdpIdx : d.xdpIdx = 0) :
  dealRx env n d s = dealAll env n d s
  := by
  induction n generalizing d s with
  | zero => rfl
  | succ n ih =>
    have hone : divRoundUp (n + 1) (n + 1) = 1 := by
      rw [divRoundUp, show n + 1 + (n + 1) - 1 = n + (n + 1) by omega,
        Nat.add_div_right _ (by omega), Nat.div_eq_of_lt (by omega)]
    have hzero : divRoundUp 0 (n + 1) = 0 := by
      rw [divRoundUp, Nat.zero_add, Nat.add_sub_cancel, Nat.div_eq_of_lt (by omega)]
    obtain ⟨qVectors, vIdx, rxrRemaining, txrRemaining, xdpRemaining, rxrIdx, txrIdx, xdpIdx⟩ := d
    simp only at hrx hq htx hxdp htxIdx hxdpIdx
    subst hrx hq htx hxdp htxIdx hxdpIdx
    rw [dealRx, dealAll, if_neg (Nat.succ_ne_zero n)]
    split
    · rfl
    · simp only [hone, hzero, Nat.add_sub_cancel, Nat.sub_zero, Nat.add_zero]
      congr 1
      funext s₁
      exact ih rfl rfl rfl rfl rfl rfl

/-- The second loop has no vector left when it ends. -/
theorem dealAll_qVectors {env : InitEnv} {n : ℕ} {d d' : Dealing} {s s' : Adapter}
    (h : dealAll env n d s = some (d', s', false)) (hq : d.qVectors = n) :
  d'.qVectors = 0
  := by
  induction n generalizing d s with
  | zero =>
    cases h
    exact hq
  | succ n ih =>
    rw [dealAll] at h
    split at h
    · cases h
    obtain ⟨s₁, h₁, h₂⟩ := Option.bind_eq_some_iff.mp h
    exact ih h₂ rfl

/-- The counters with which `ixgbevf_alloc_q_vectors` starts. -/
def firstDealing (s : Adapter) : Dealing where
  qVectors := s.numQVectors
  vIdx := 0
  rxrRemaining := s.numRxQueues
  txrRemaining := s.numTxQueues
  xdpRemaining := s.numXdpQueues
  rxrIdx := 0
  txrIdx := 0
  xdpIdx := 0

/-- With no more vectors than there are Rx or Tx rings, the second loop alone would do. -/
theorem allocQVectors_eq {env : InitEnv} {s : Adapter}
    (hle : s.numQVectors ≤ max s.numRxQueues s.numTxQueues) :
  allocQVectors env s = (dealAll env s.numQVectors (firstDealing s) s).bind
    fun x => finishDealing x.1 x.2.1 x.2.2
  := by
  have hunfold : allocQVectors env s = (if s.numRxQueues + s.numTxQueues + s.numXdpQueues
      ≤ s.numQVectors then dealRx env s.numRxQueues (firstDealing s) s
      else some (firstDealing s, s, false)).bind fun x =>
        if x.2.2 then
          finishDealing x.1 x.2.1 true
        else
          (dealAll env x.1.qVectors x.1 x.2.1).bind fun x => finishDealing x.1 x.2.1 x.2.2 := rfl
  rw [hunfold]
  split
  next hmany =>
    obtain hrx | ⟨hrx, htx, hxdp⟩ : s.numRxQueues = 0
        ∨ s.numRxQueues = s.numQVectors ∧ s.numTxQueues = 0 ∧ s.numXdpQueues = 0 := by omega
    · rw [hrx]
      rfl
    · have hsame : dealRx env s.numQVectors (firstDealing s) s
          = dealAll env s.numQVectors (firstDealing s) s :=
        dealRx_eq_dealAll hrx rfl htx hxdp rfl rfl
      rw [hrx, hsame]
      cases hdeal : dealAll env s.numQVectors (firstDealing s) s with
      | none => rfl
      | some x =>
        obtain ⟨d, s', failed⟩ := x
        cases failed with
        | true => rfl
        | false =>
          have hq : d.qVectors = 0 := dealAll_qVectors hdeal rfl
          simp only [Option.bind_some, Bool.false_eq_true, if_false, hq]
          rfl
  · rfl

/-- A success of `ixgbevf_alloc_q_vectors` deals all the rings out. -/
theorem allocQVectors_dealt {env : InitEnv} {s s' : Adapter} (hpos : 0 < s.numQVectors)
    (hle : s.numQVectors ≤ max s.numRxQueues s.numTxQueues)
    (h : allocQVectors env s = some (s', true)) :
  DealtTo s.nextId s.numQVectors s.numRxQueues s.numTxQueues s.numXdpQueues s'
    ∧ s'.numQVectors = s.numQVectors
  := by
  rw [allocQVectors_eq hle] at h
  obtain ⟨⟨d, s₁, failed⟩, hdeal, hfinish⟩ := Option.bind_eq_some_iff.mp h
  cases failed with
  | true =>
    obtain ⟨s₂, -, hs₂⟩ := Option.map_eq_some_iff.mp hfinish
    cases hs₂
  | false =>
    cases hfinish
    have hdealt := (DealtTo.start s).dealAll (d := firstDealing s) hdeal hle
      fun hzero => absurd hzero (Nat.ne_of_gt hpos)
    simp only [firstDealing, Nat.zero_add] at hdealt
    exact ⟨hdealt, dealAll_numQVectors env hdeal⟩

/-- `ixgbevf_alloc_q_vectors` succeeds while there is room and memory for the vectors. -/
theorem allocQVectors_isSome {env : InitEnv} {s : Adapter}
    (hle : s.numQVectors ≤ max s.numRxQueues s.numTxQueues) (hroom : s.numQVectors ≤ maxQVectors)
    (hmem : ∀ v < s.numQVectors, env.qVectorFails v = false) :
  ∃ s', allocQVectors env s = some (s', true)
  := by
  obtain ⟨d', s', hdeal⟩ : ∃ d' s', dealAll env s.numQVectors (firstDealing s) s
      = some (d', s', false) := by
    apply dealAll_isSome
    · simpa [firstDealing] using hroom
    · simpa [firstDealing] using hmem
  rw [allocQVectors_eq hle, hdeal]
  exact ⟨s', rfl⟩

/-! ### The divisions -/

/-- The first loop of `ixgbevf_alloc_q_vectors`: what it divides by, and how it ends. -/
def dealRxDivisors (fails : ℕ → Bool) : (fuel : ℕ) → Dealing → List ℕ × Dealing × Bool
  | 0, d => ([], d, false)
  | fuel + 1, d =>
    if d.rxrRemaining = 0 then
      ([], d, false)
    else
      let rqpv := divRoundUp d.rxrRemaining d.qVectors
      let x :=
        if fails d.vIdx then
          ([], d, true)
        else
          dealRxDivisors fails fuel { d with
            qVectors := d.qVectors - 1
            vIdx := d.vIdx + 1
            rxrRemaining := d.rxrRemaining - rqpv
            rxrIdx := d.rxrIdx + rqpv }
      (d.qVectors :: x.1, x.2)

/-- The second loop of `ixgbevf_alloc_q_vectors`, from the vector `vIdx` on. -/
def dealAllDivisors (fails : ℕ → Bool) : (qVectors vIdx : ℕ) → List ℕ
  | 0, _ => []
  | qVectors + 1, vIdx =>
    (qVectors + 1) :: if fails vIdx then [] else dealAllDivisors fails qVectors (vIdx + 1)

/-- What `ixgbevf_alloc_q_vectors` divides by. -/
def allocQVectorsDivisors (fails : ℕ → Bool) (s : Adapter) : List ℕ :=
  let d := firstDealing s
  let first :=
    if d.rxrRemaining + d.txrRemaining + d.xdpRemaining ≤ d.qVectors then
      dealRxDivisors fails d.rxrRemaining d
    else
      ([], d, false)
  if first.2.2 then first.1 else first.1 ++ dealAllDivisors fails first.2.1.qVectors first.2.1.vIdx

/-- The first loop has a vector left while it has a ring left. -/
theorem dealRxDivisors_pos (fails : ℕ → Bool) {fuel : ℕ} {d : Dealing}
    (h : d.rxrRemaining ≤ d.qVectors) :
  ∀ q ∈ (dealRxDivisors fails fuel d).1, 0 < q
  := by
  induction fuel generalizing d with
  | zero => simp [dealRxDivisors]
  | succ fuel ih =>
    rw [dealRxDivisors]
    split
    · simp
    next hrest =>
      have hq : 0 < d.qVectors := by omega
      have hshare : 0 < divRoundUp d.rxrRemaining d.qVectors :=
        Nat.div_pos (by omega) hq
      refine (List.forall_mem_cons (p := (0 < ·))).mpr ⟨hq, ?_⟩
      split
      · simp
      · apply ih
        simp only
        omega

/-- The second loop divides by the number of vectors that are left. -/
theorem dealAllDivisors_pos (fails : ℕ → Bool) (qVectors vIdx : ℕ) :
  ∀ q ∈ dealAllDivisors fails qVectors vIdx, 0 < q
  := by
  induction qVectors generalizing vIdx with
  | zero => simp [dealAllDivisors]
  | succ qVectors ih =>
    rw [dealAllDivisors]
    refine (List.forall_mem_cons (p := (0 < ·))).mpr ⟨Nat.succ_pos qVectors, ?_⟩
    split
    · simp
    · apply ih

/-- `ixgbevf_alloc_q_vectors` does not divide by zero. -/
theorem allocQVectorsDivisors_pos (fails : ℕ → Bool) (s : Adapter) :
  ∀ q ∈ allocQVectorsDivisors fails s, 0 < q
  := by
  simp only [allocQVectorsDivisors]
  by_cases hmany : (firstDealing s).rxrRemaining + (firstDealing s).txrRemaining
      + (firstDealing s).xdpRemaining ≤ (firstDealing s).qVectors
  · rw [if_pos hmany]
    have hfirst : ∀ q ∈ (dealRxDivisors fails (firstDealing s).rxrRemaining (firstDealing s)).1,
        0 < q := dealRxDivisors_pos fails (by omega)
    split
    · exact hfirst
    · intro q hq
      obtain hq | hq := List.mem_append.mp hq
      · exact hfirst q hq
      · exact dealAllDivisors_pos fails _ _ q hq
  · rw [if_neg hmany, if_neg Bool.false_ne_true]
    exact dealAllDivisors_pos fails _ _

/-! ### The partition -/

/-- An entry of the array `rx_ring`. -/
def Adapter.rxRing (s : Adapter) (i : ℕ) : Option Ring :=
  if i < vfMaxQueues.toNat then s.rings.rx i else none

/-- An entry of the array `tx_ring` or `xdp_ring`. -/
def Adapter.txRing (s : Adapter) (x : Bool × ℕ) : Option Ring :=
  if x.2 < vfMaxQueues.toNat then s.rings.ofTx x else none

/-- Among `n` vectors `v` alone has the ring `x`, and has it once; it is in its array and belongs
to the vector. -/
def OwnedBy {α : Type} [DecidableEq α] (s : Adapter) (n : ℕ) (served : QVector → List α)
    (ring : α → Option Ring) (index : α → ℕ) (x : α) (v : ℕ) : Prop :=
  (∃ q r, s.qVector v = some q ∧ (served q).count x = 1 ∧ ring x = some r ∧ r.qVector = q.id
    ∧ r.queueIndex = index x)
    ∧ ∀ w < n, w ≠ v → ∀ q, s.qVector w = some q → x ∉ served q

/-- In `s'` the rings that are in use in `s` are dealt out to its vectors. -/
structure Partitioned (s s' : Adapter) : Prop where
  /-- The Rx rings. -/
  rx : ∀ i < s.numRxQueues, ∃ v < s.numQVectors, OwnedBy s' s.numQVectors QVector.rx s'.rxRing id i v
  /-- The Tx and XDP rings. -/
  tx : ∀ x : Bool × ℕ, x.2 < txBound s.numTxQueues s.numXdpQueues x.1 →
    ∃ v < s.numQVectors, OwnedBy s' s.numQVectors QVector.tx s'.txRing Prod.snd x v
  /-- The vectors have no other rings, and each has one. -/
  vector : ∀ v < s.numQVectors, ∃ q, s'.qVector v = some q ∧ (q.rx ≠ [] ∨ q.tx ≠ [])
    ∧ (∀ i ∈ q.rx, i < s.numRxQueues)
    ∧ ∀ x ∈ q.tx, x.2 < txBound s.numTxQueues s.numXdpQueues x.1
  /-- The vectors are different ones. -/
  distinct : ∀ v < s.numQVectors, ∀ w < s.numQVectors, ∀ q q', s'.qVector v = some q →
    s'.qVector w = some q' → q.id = q'.id → v = w

/-- The `reg_idx` of a Tx or XDP ring. -/
def Adapter.txReg (s : Adapter) (x : Bool × ℕ) : Option ℕ := (s.txRing x).map (·.regIdx)

/-- The Tx and XDP rings in use have the registers below their number, each a different one. -/
structure RegsCover (s s' : Adapter) : Prop where
  /-- The registers are different. -/
  distinct : ∀ x y : Bool × ℕ, x.2 < txBound s.numTxQueues s.numXdpQueues x.1 →
    y.2 < txBound s.numTxQueues s.numXdpQueues y.1 → s'.txReg x = s'.txReg y → x = y
  /-- They are the ones below the number of rings. -/
  cover : ∀ k, k < s.numTxQueues + s.numXdpQueues
    ↔ ∃ x : Bool × ℕ, x.2 < txBound s.numTxQueues s.numXdpQueues x.1 ∧ s'.txReg x = some k

/-- `ixgbevf_configure_msix` writes the vector of every ring into the byte of the ring, and it
is there at the end. -/
def RoutedAll (s s' : Adapter) : Prop :=
  ∀ (c : ItrSettings) (p : Port (ℕ → BitVec 32)), Present p →
    ∃ x, configureMsix registers c s' p = some x
      ∧ ∀ v < s.numQVectors, ∀ q, s'.qVector v = some q →
        (∀ i ∈ q.rx, ∀ r ∈ s'.rxRing i,
          ivarByte x.2.dev (false, r.regIdx) = BitVec.ofNat 8 v ||| ivarAllocVal)
        ∧ ∀ y ∈ q.tx, ∀ r ∈ s'.txRing y,
          ivarByte x.2.dev (true, r.regIdx) = BitVec.ofNat 8 v ||| ivarAllocVal

/-- The counts are within the arrays `q_vector`, `rx_ring`, `tx_ring` and `xdp_ring`. -/
structure Fits (s : Adapter) : Prop where
  /-- `MAX_Q_VECTORS`. -/
  qVectors : s.numQVectors ≤ maxQVectors
  /-- `MAX_RX_QUEUES`. -/
  rx : s.numRxQueues ≤ vfMaxQueues.toNat
  /-- `MAX_TX_QUEUES`. -/
  tx : s.numTxQueues ≤ vfMaxQueues.toNat
  /-- `MAX_XDP_QUEUES`. -/
  xdp : s.numXdpQueues ≤ vfMaxQueues.toNat

/-- A Tx or XDP ring in use is within its array. -/
theorem Fits.txRing_lt {s : Adapter} (h : Fits s) {x : Bool × ℕ}
    (hx : x.2 < txBound s.numTxQueues s.numXdpQueues x.1) :
  x.2 < vfMaxQueues.toNat
  := by
  obtain ⟨isXdp, i⟩ := x
  cases isXdp with
  | false => exact Nat.lt_of_lt_of_le hx h.tx
  | true => exact Nat.lt_of_lt_of_le hx h.xdp

/-! ### What the dealing gives -/

/-- What one of several lists has, and no list twice, it has once, and the others do not have it. -/
theorem owner_of_nodup {α : Type} [DecidableEq α] {n : ℕ} {f : ℕ → List α} {x : α}
    (hnodup : ((List.range n).flatMap f).Nodup) (hx : x ∈ (List.range n).flatMap f) :
  ∃ v < n, x ∈ f v ∧ (f v).count x = 1 ∧ ∀ w < n, w ≠ v → x ∉ f w
  := by
  obtain ⟨v, hv, hmem⟩ := List.mem_flatMap.mp hx
  obtain ⟨hself, hpair⟩ := List.nodup_flatMap.mp hnodup
  rw [List.mem_range] at hv
  refine ⟨v, hv, hmem, List.count_eq_one_of_mem (hself v (List.mem_range.mpr hv)) hmem, ?_⟩
  intro w hw hne hin
  rw [List.pairwise_iff_getElem] at hpair
  obtain hlt | hlt := Nat.lt_or_gt_of_ne hne
  · have hdisjoint := hpair w v (by simpa using hw) (by simpa using hv) hlt
    simp only [List.getElem_range] at hdisjoint
    exact hdisjoint hin hmem
  · have hdisjoint := hpair v w (by simpa using hv) (by simpa using hw) hlt
    simp only [List.getElem_range] at hdisjoint
    exact hdisjoint hmem hin

section Dealt

variable {base n rx tx xdp : ℕ} {s : Adapter} (h : DealtTo base n rx tx xdp s)

include h

/-- No ring of `q_vector->tx` is dealt out twice. -/
theorem DealtTo.nodupTx :
  ((List.range n).flatMap s.servedTx).Nodup
  := by
  apply List.Nodup.of_map (fun x => (s.rings.ofTx x).map (·.regIdx))
  rw [h.regs]
  exact List.nodup_range.map (Option.some_injective ℕ)

/-- No Rx ring is dealt out twice. -/
theorem DealtTo.nodupRx :
  ((List.range n).flatMap s.servedRx).Nodup
  := by
  rw [h.servedRx]
  exact List.nodup_range

/-- A Tx or XDP ring that is dealt out has a register. -/
theorem DealtTo.ofTx_mem {x : Bool × ℕ} (hx : x.2 < txBound tx xdp x.1) :
  ∃ r, s.rings.ofTx x = some r ∧ r.regIdx < tx + xdp
  := by
  have hmem : (s.rings.ofTx x).map (·.regIdx)
      ∈ ((List.range n).flatMap s.servedTx).map (fun x => (s.rings.ofTx x).map (·.regIdx)) :=
    List.mem_map_of_mem ((h.servedTx x).mpr hx)
  rw [h.regs, List.mem_map] at hmem
  obtain ⟨k, hk, heq⟩ := hmem
  obtain ⟨r, hr, rfl⟩ := Option.map_eq_some_iff.mp heq.symm
  exact ⟨r, hr, List.mem_range.mp hk⟩

end Dealt

/-- What a vector has, from the adapter. -/
theorem served_eq {s : Adapter} {v : ℕ} {q : QVector} (hq : s.qVector v = some q) :
  s.servedRx v = q.rx ∧ s.servedTx v = q.tx
  := by
  simp [Adapter.servedRx, Adapter.servedTx, hq]

/-- The rings that are dealt out are partitioned, when the arrays have room for them. -/
theorem DealtTo.partitioned {base : ℕ} {s s' : Adapter} (hfits : Fits s)
    (h : DealtTo base s.numQVectors s.numRxQueues s.numTxQueues s.numXdpQueues s') :
  Partitioned s s'
  := by
  have hbelow (v : ℕ) (hv : v < s.numQVectors) {q : QVector} (hq : s'.qVector v = some q) :
      (∀ i ∈ q.rx, i ∈ (List.range s.numQVectors).flatMap s'.servedRx)
        ∧ ∀ x ∈ q.tx, x ∈ (List.range s.numQVectors).flatMap s'.servedTx := by
    obtain ⟨hrx, htx⟩ := served_eq hq
    rw [← hrx, ← htx]
    exact ⟨fun i hi => List.mem_flatMap.mpr ⟨v, List.mem_range.mpr hv, hi⟩,
      fun x hx => List.mem_flatMap.mpr ⟨v, List.mem_range.mpr hv, hx⟩⟩
  constructor
  · intro i hi
    have hmem : i ∈ (List.range s.numQVectors).flatMap s'.servedRx := by
      rw [h.servedRx]
      exact List.mem_range.mpr hi
    obtain ⟨v, hv, hin, hcount, hothers⟩ := owner_of_nodup h.nodupRx hmem
    obtain ⟨q, hq, hid, -⟩ := h.vector v hv
    have hring := h.rxRing v hv i hin
    have hlt : i < vfMaxQueues.toNat := Nat.lt_of_lt_of_le hi hfits.rx
    refine ⟨v, hv, ⟨q, _, hq, ?_, (if_pos hlt).trans hring, hid.symm, rfl⟩, ?_⟩
    · rw [← (served_eq hq).1]
      exact hcount
    · intro w hw hne q' hq'
      rw [← (served_eq hq').1]
      exact hothers w hw hne
  · intro x hx
    obtain ⟨v, hv, hin, hcount, hothers⟩ := owner_of_nodup h.nodupTx ((h.servedTx x).mpr hx)
    obtain ⟨q, hq, hid, -⟩ := h.vector v hv
    obtain ⟨regIdx, hring⟩ := h.txRing v hv x hin
    have hlt := hfits.txRing_lt hx
    refine ⟨v, hv, ⟨q, _, hq, ?_, (if_pos hlt).trans hring, hid.symm, rfl⟩, ?_⟩
    · rw [← (served_eq hq).2]
      exact hcount
    · intro w hw hne q' hq'
      rw [← (served_eq hq').2]
      exact hothers w hw hne
  · intro v hv
    obtain ⟨q, hq, -, hbusy⟩ := h.vector v hv
    obtain ⟨hrx, htx⟩ := hbelow v hv hq
    refine ⟨q, hq, hbusy, ?_, ?_⟩
    · intro i hi
      have hmem := hrx i hi
      rw [h.servedRx] at hmem
      exact List.mem_range.mp hmem
    · intro x hx
      exact (h.servedTx x).mp (htx x hx)
  · intro v hv w hw q q' hq hq' hid
    obtain ⟨q₁, hq₁, hid₁, -⟩ := h.vector v hv
    obtain ⟨q₂, hq₂, hid₂, -⟩ := h.vector w hw
    obtain rfl : q = q₁ := Option.some.inj (hq.symm.trans hq₁)
    obtain rfl : q' = q₂ := Option.some.inj (hq'.symm.trans hq₂)
    omega

/-- The register of a ring that is dealt out. -/
theorem Fits.txReg_eq {s s' : Adapter} (hfits : Fits s) {x : Bool × ℕ}
    (hx : x.2 < txBound s.numTxQueues s.numXdpQueues x.1) :
  s'.txReg x = (s'.rings.ofTx x).map (·.regIdx)
  := by
  rw [Adapter.txReg, Adapter.txRing, if_pos (hfits.txRing_lt hx)]

/-- The registers of the Tx and XDP rings that are dealt out. -/
theorem DealtTo.regsCover {base : ℕ} {s s' : Adapter} (hfits : Fits s)
    (h : DealtTo base s.numQVectors s.numRxQueues s.numTxQueues s.numXdpQueues s') :
  RegsCover s s'
  := by
  have hnodup : (((List.range s.numQVectors).flatMap s'.servedTx).map
      (fun x => (s'.rings.ofTx x).map (·.regIdx))).Nodup := by
    rw [h.regs]
    exact List.nodup_range.map (Option.some_injective ℕ)
  constructor
  · intro x y hx hy heq
    rw [hfits.txReg_eq hx, hfits.txReg_eq hy] at heq
    exact List.inj_on_of_nodup_map hnodup ((h.servedTx x).mpr hx) ((h.servedTx y).mpr hy) heq
  · intro k
    have hmem : k < s.numTxQueues + s.numXdpQueues
        ↔ some k ∈ ((List.range s.numQVectors).flatMap s'.servedTx).map
          (fun x => (s'.rings.ofTx x).map (·.regIdx)) := by
      rw [h.regs]
      simp
    rw [hmem, List.mem_map]
    constructor
    · rintro ⟨x, hx, hreg⟩
      have hlt := (h.servedTx x).mp hx
      exact ⟨x, hlt, (hfits.txReg_eq hlt).trans hreg⟩
    · rintro ⟨x, hx, hreg⟩
      exact ⟨x, (h.servedTx x).mpr hx, (hfits.txReg_eq hx).symm.trans hreg⟩

/-- The registers of the rings of a container, when all of them are there. -/
theorem regsOf_eq {α : Type} {ring : α → Option Ring} {f : α → ℕ} {xs : List α}
    (h : ∀ x ∈ xs, ∃ r, ring x = some r ∧ r.regIdx = f x) :
  regsOf ring xs = some (xs.map f).reverse
  := by
  induction xs with
  | nil => rfl
  | cons x xs ih =>
    obtain ⟨⟨r, hr, hreg⟩, hrest⟩ := List.forall_mem_cons.mp h
    simp only [regsOf, ih hrest, hr, List.map_cons, List.reverse_cons, hreg]

/-- The register of a Tx or XDP ring, 0 where there is none. -/
def txRegOf (s : Adapter) (x : Bool × ℕ) : ℕ := ((s.rings.ofTx x).map (·.regIdx)).getD 0

/-- The registers of the rings that a vector below `n` has in a direction. -/
def vectorRegs (s : Adapter) (n v : ℕ) (tx : Bool) : List ℕ :=
  if v < n then
    if tx then ((s.servedTx v).map (txRegOf s)).reverse else (s.servedRx v).reverse
  else
    []

/-- What lists have that have nothing in common. -/
theorem apart_of_nodup {α : Type} [DecidableEq α] {n : ℕ} {f : ℕ → List α}
    (hnodup : ((List.range n).flatMap f).Nodup) {v w : ℕ} (hv : v < n) (hw : w < n) (hne : w ≠ v)
    {x : α} (hx : x ∈ f w) :
  x ∉ f v
  := by
  obtain ⟨u, -, -, -, hothers⟩ :=
    owner_of_nodup hnodup (List.mem_flatMap.mpr ⟨w, List.mem_range.mpr hw, hx⟩)
  by_cases hu : w = u
  · subst hu
    exact hothers v hv hne.symm
  · exact absurd hx (hothers w hw hu)

/-- The registers of the vectors' Tx and XDP rings are all different, and there are as many as
rings. -/
theorem DealtTo.txRegs {base n rx tx xdp : ℕ} {s : Adapter} (h : DealtTo base n rx tx xdp s) :
  (List.range n).flatMap (fun v => (s.servedTx v).map (txRegOf s)) = List.range (tx + xdp)
  := by
  have hget := congrArg (List.map fun o : Option ℕ => o.getD 0) h.regs
  rw [List.map_map, List.map_map] at hget
  rw [← List.map_flatMap]
  exact hget.trans (List.map_id _)

section Dealt

variable {base n rx tx xdp : ℕ} {s : Adapter} (h : DealtTo base n rx tx xdp s)

include h

/-- The registers of a vector's Tx and XDP rings. -/
theorem DealtTo.txRegOf_eq {v : ℕ} (hv : v < n) {x : Bool × ℕ} (hx : x ∈ s.servedTx v) :
  ∃ r, s.rings.ofTx x = some r ∧ r.regIdx = txRegOf s x
  := by
  obtain ⟨regIdx, hring⟩ := h.txRing v hv x hx
  exact ⟨_, hring, by rw [txRegOf, hring]; rfl⟩

/-- The registers of a vector's rings, the last ring first. -/
theorem DealtTo.regsOf_vectorRegs {v : ℕ} (hv : v < n) :
  ∃ q, s.qVector v = some q ∧ regsOf s.rings.rx q.rx = some (vectorRegs s n v false)
    ∧ regsOf s.rings.ofTx q.tx = some (vectorRegs s n v true)
  := by
  obtain ⟨q, hq, -⟩ := h.vector v hv
  obtain ⟨hrx, htx⟩ := served_eq hq
  refine ⟨q, hq, ?_, ?_⟩
  · have hregs : regsOf s.rings.rx q.rx = some (q.rx.map id).reverse :=
      regsOf_eq fun i hi => ⟨_, h.rxRing v hv i (hrx ▸ hi), rfl⟩
    rw [hregs, vectorRegs, if_pos hv, if_neg Bool.false_ne_true, hrx, List.map_id]
  · have hregs : regsOf s.rings.ofTx q.tx = some (q.tx.map (txRegOf s)).reverse :=
      regsOf_eq fun x hx => h.txRegOf_eq hv (htx ▸ hx)
    rw [hregs, vectorRegs, if_pos hv, if_pos rfl, htx]

/-- The registers of a vector's rings are below the number of rings. -/
theorem DealtTo.vectorRegs_lt {v : ℕ} {isTx : Bool} {regIdx : ℕ}
    (hreg : regIdx ∈ vectorRegs s n v isTx) :
  regIdx < max rx (tx + xdp)
  := by
  rw [vectorRegs] at hreg
  split at hreg
  next hv =>
    split at hreg
    · have hmem : regIdx ∈ (List.range n).flatMap fun v => (s.servedTx v).map (txRegOf s) :=
        List.mem_flatMap.mpr ⟨v, List.mem_range.mpr hv, List.mem_reverse.mp hreg⟩
      rw [h.txRegs, List.mem_range] at hmem
      omega
    · have hmem := List.mem_flatMap.mpr ⟨v, List.mem_range.mpr hv, List.mem_reverse.mp hreg⟩
      rw [h.servedRx, List.mem_range] at hmem
      omega
  · cases hreg

/-- Different vectors have rings with different registers. -/
theorem DealtTo.vectorRegs_apart {v w : ℕ} (hne : w ≠ v) {isTx : Bool} {regIdx : ℕ}
    (hreg : regIdx ∈ vectorRegs s n w isTx) :
  regIdx ∉ vectorRegs s n v isTx
  := by
  have htxRegs := h.txRegs ▸ List.nodup_range (n := tx + xdp)
  rw [vectorRegs] at hreg ⊢
  split at hreg
  next hw =>
    split
    next hv =>
      cases isTx with
      | true =>
        rw [if_pos rfl, List.mem_reverse] at hreg ⊢
        exact apart_of_nodup htxRegs hv hw hne hreg
      | false =>
        rw [if_neg Bool.false_ne_true, List.mem_reverse] at hreg ⊢
        exact apart_of_nodup h.nodupRx hv hw hne hreg
    · exact List.not_mem_nil
  · cases hreg

end Dealt

/-- The rings that are dealt out are routed to their vectors. -/
theorem DealtTo.routedAll {base : ℕ} {s s' : Adapter} (hfits : Fits s)
    (h : DealtTo base s.numQVectors s.numRxQueues s.numTxQueues s.numXdpQueues s')
    (hnum : s'.numQVectors = s.numQVectors) :
  RoutedAll s s'
  := by
  have hroom : s.numRxQueues ≤ 8 ∧ s.numTxQueues ≤ 8 ∧ s.numXdpQueues ≤ 8 :=
    ⟨hfits.rx, hfits.tx, hfits.xdp⟩
  have hlt (v : ℕ) (isTx : Bool) (regIdx : ℕ)
      (hreg : regIdx ∈ vectorRegs s' s.numQVectors v isTx) : regIdx < 16 := by
    have := h.vectorRegs_lt hreg
    omega
  intro c p hp
  obtain ⟨x, hx, hrouted⟩ : ∃ x, configureMsix registers c s' p = some x
      ∧ Routed (vectorRegs s' s.numQVectors) s'.numQVectors x.2.dev :=
    configureMsix_routed hp (hnum ▸ hfits.qVectors)
      (fun v hv => h.regsOf_vectorRegs (hnum ▸ hv)) hlt
      (fun v w hne isTx regIdx hreg => h.vectorRegs_apart hne hreg)
  rw [hnum] at hrouted
  refine ⟨x, hx, ?_⟩
  intro v hv q hq
  obtain ⟨hrx, htx⟩ := served_eq hq
  constructor
  · intro i hi r hr
    have hmem : i ∈ s'.servedRx v := hrx ▸ hi
    have hring : r = freshRing (base + v) i i := by
      rw [Adapter.rxRing] at hr
      split at hr
      · exact Option.some.inj (hr.symm.trans (h.rxRing v hv i hmem))
      · cases hr
    rw [hring]
    apply hrouted v hv false
    rw [vectorRegs, if_pos hv, if_neg Bool.false_ne_true, List.mem_reverse]
    exact hmem
  · intro y hy r hr
    have hmem : y ∈ s'.servedTx v := htx ▸ hy
    obtain ⟨r', hr', hreg⟩ := h.txRegOf_eq hv hmem
    have hring : r = r' := by
      rw [Adapter.txRing] at hr
      split at hr
      · exact Option.some.inj (hr.symm.trans hr')
      · cases hr
    rw [hring, hreg]
    apply hrouted v hv true
    rw [vectorRegs, if_pos hv, if_pos rfl, List.mem_reverse]
    exact List.mem_map_of_mem hmem

/-- For every number of queues and vectors, with a vector at least and no more than there are Rx or
Tx rings: `ixgbevf_alloc_q_vectors` never divides by zero, and while there is memory it succeeds and
deals the rings out, each to one vector, the Tx and XDP rings with different registers, so that
`ixgbevf_configure_msix` routes every ring to its vector, exactly when the numbers are within the
arrays of the adapter. -/
theorem partition_iff {s : Adapter} (hpos : 0 < s.numQVectors)
    (hle : s.numQVectors ≤ max s.numRxQueues s.numTxQueues) :
  ((∀ env : InitEnv, ∀ q ∈ allocQVectorsDivisors env.qVectorFails s, q ≠ 0)
      ∧ ∀ env : InitEnv, (∀ v < s.numQVectors, env.qVectorFails v = false) →
        ∃ s', allocQVectors env s = some (s', true) ∧ Partitioned s s' ∧ RegsCover s s'
          ∧ RoutedAll s s')
    ↔ Fits s
  := by
  constructor
  · rintro ⟨-, hall⟩
    obtain ⟨s', halloc, hpart, -, -⟩ := hall (plenty .api13) fun _ _ => rfl
    obtain ⟨hdealt, -⟩ := allocQVectors_dealt hpos hle halloc
    constructor
    · exact hdealt.bound
    · by_contra hlt
      obtain ⟨v, hv, ⟨q, r, -, -, hring, -⟩, -⟩ := hpart.rx vfMaxQueues.toNat (by omega)
      simp [Adapter.rxRing] at hring
    · by_contra hlt
      obtain ⟨v, hv, ⟨q, r, -, -, hring, -⟩, -⟩ :=
        hpart.tx (false, vfMaxQueues.toNat) (show vfMaxQueues.toNat < s.numTxQueues by omega)
      simp [Adapter.txRing] at hring
    · by_contra hlt
      obtain ⟨v, hv, ⟨q, r, -, -, hring, -⟩, -⟩ :=
        hpart.tx (true, vfMaxQueues.toNat) (show vfMaxQueues.toNat < s.numXdpQueues by omega)
      simp [Adapter.txRing] at hring
  · intro hfits
    refine ⟨fun env q hq => Nat.ne_of_gt (allocQVectorsDivisors_pos _ s q hq), ?_⟩
    intro env hmem
    obtain ⟨s', halloc⟩ := allocQVectors_isSome hle hfits.qVectors hmem
    obtain ⟨hdealt, hnum⟩ := allocQVectors_dealt hpos hle halloc
    exact ⟨s', halloc, hdealt.partitioned hfits, hdealt.regsCover hfits, hdealt.routedAll hfits hnum⟩

/-- Two Rx, Tx and XDP rings each for two vectors. -/
def twoQueues : Adapter :=
  { blank Rx.default82599Vf with
    numRxQueues := 2, numTxQueues := 2, numXdpQueues := 2, numQVectors := 2 }

/-- They are dealt out and routed. -/
theorem twoQueues_partition :
  (∀ env : InitEnv, ∀ q ∈ allocQVectorsDivisors env.qVectorFails twoQueues, q ≠ 0)
    ∧ ∀ env : InitEnv, (∀ v < twoQueues.numQVectors, env.qVectorFails v = false) →
      ∃ s', allocQVectors env twoQueues = some (s', true) ∧ Partitioned twoQueues s'
        ∧ RegsCover twoQueues s' ∧ RoutedAll twoQueues s'
  := (partition_iff (s := twoQueues) (by decide) (by decide)).mpr
    ⟨by decide, by decide, by decide, by decide⟩

/-- Under four traffic classes there are four vectors, and no array for them. -/
theorem fourTcs_not_partitioned :
  let s := (setInterruptCapability fourCpus fourQueues).1
  0 < s.numQVectors ∧ s.numQVectors ≤ max s.numRxQueues s.numTxQueues
    ∧ (∀ v < s.numQVectors, fourCpus.qVectorFails v = false)
    ∧ ¬ ∃ s', allocQVectors fourCpus s = some (s', true) ∧ Partitioned s s'
  := by
  have hcounts : 0 < (setInterruptCapability fourCpus fourQueues).1.numQVectors
      ∧ (setInterruptCapability fourCpus fourQueues).1.numQVectors
        ≤ max (setInterruptCapability fourCpus fourQueues).1.numRxQueues
          (setInterruptCapability fourCpus fourQueues).1.numTxQueues := by
    decide +kernel
  have hnone : (allocQVectors fourCpus (setInterruptCapability fourCpus fourQueues).1).isNone := by
    decide +kernel
  refine ⟨hcounts.1, hcounts.2, fun _ _ => rfl, ?_⟩
  rintro ⟨s', halloc, -⟩
  rw [halloc] at hnone
  cases hnone

end Ixgbevf.Queues
