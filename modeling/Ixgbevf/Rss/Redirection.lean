import Mathlib.Data.Int.CardIntervalMod
import Ixgbevf.Lib.Packing
import Ixgbevf.Rss

/-!
# The redirection table

From X550 on a function has a hash key and a redirection table of its own, of 64 entries of a byte.
`ixgbevf_setup_vfmrqc` deals the Rx queues out over the table, keeps the table in `rss_indir_tbl`,
and packs four entries into each register.  `ixgbevf_get_rxfh` reports `rss_indir_tbl` and
`rss_key`, and asks no register.
-/

namespace Ixgbevf.Rss

open Interface (Call Effect Adapter Enabled)

/-! ### Filling the table -/

/-- `IXGBEVF_X550_VFRETA_SIZE`. -/
def x550VfretaSize : ℕ := 64

/-- `IXGBEVF_VFRSSRK_REGS`. -/
def vfrssrkRegs : ℕ := 10

/-- The registers of the hash key and of the redirection table. -/
structure Regs where
  /-- `VFRSSRK`. -/
  vfrssrk : ℕ → BitVec 32
  /-- `VFRETA`. -/
  vfreta : ℕ → BitVec 32

/-- The table and its registers in the loop of `ixgbevf_setup_vfmrqc`.  The variables `i` and `j` of
the loop have 8 bits and stay below 65. -/
structure Filling where
  /-- `rss_indir_tbl`. -/
  rssIndirTbl : ℕ → ℕ
  /-- The registers `VFRETA`. -/
  regs : ℕ → BitVec 32
  /-- `vfreta`. -/
  vfreta : BitVec 32
  /-- `j`. -/
  j : ℕ

/-- A turn of the loop. -/
def Filling.turn (rssI i : ℕ) (f : Filling) : Filling :=
  let j := if f.j = rssI then 0 else f.j
  let vfreta := f.vfreta ||| BitVec.ofNat 32 j <<< ((i &&& 3) * 8)
  let f := { f with rssIndirTbl := Function.update f.rssIndirTbl i j, j := j + 1 }
  if i &&& 3 = 3 then
    { f with regs := Function.update f.regs (i >>> 2) vfreta, vfreta := 0 }
  else
    { f with vfreta := vfreta }

/-- The loop for `n` turns from the entry `i` on. -/
def Filling.loop (rssI : ℕ) : (n i : ℕ) → Filling → Filling
  | 0, _, f => f
  | n + 1, i, f => loop rssI n (i + 1) (f.turn rssI i)

/-- The loop of `ixgbevf_setup_vfmrqc` over the table. -/
def fillTable (rssI : ℕ) (rssIndirTbl : ℕ → ℕ) (regs : ℕ → BitVec 32) : Filling :=
  Filling.loop rssI x550VfretaSize 0
    { rssIndirTbl := rssIndirTbl, regs := regs, vfreta := 0, j := 0 }

/-- The entry of the table that the hardware finds in the registers. -/
def retaEntry (regs : ℕ → BitVec 32) (k : ℕ) : ℕ := Packing.field 8 (k % 4) (regs (k / 4)).toNat

/-- What the loop has done before the entry `i`: the queues have been dealt out in turn, four entries
to a register. -/
structure Filled (rssI i : ℕ) (f : Filling) : Prop where
  /-- The next queue. -/
  queue : (if f.j = rssI then 0 else f.j) = i % rssI
  /-- The table. -/
  table : ∀ k < i, f.rssIndirTbl k = k % rssI
  /-- The entries that are not in a register yet. -/
  rest : f.vfreta.toNat = Nat.ofDigits (2 ^ 8) ((List.range' (i - i % 4) (i % 4)).map (· % rssI))
  /-- The registers. -/
  regs : ∀ r < i / 4, (f.regs r).toNat
    = Nat.ofDigits (2 ^ 8) ((List.range' (4 * r) 4).map (· % rssI))

/-- The queue after the one that an entry names. -/
theorem next_queue (rssI i : ℕ) :
  (if i % rssI + 1 = rssI then 0 else i % rssI + 1) = (i + 1) % rssI
  := by
  rw [← Nat.mod_add_mod]
  split
  next h => rw [h, Nat.mod_self]
  next h =>
    rcases Nat.eq_zero_or_pos rssI with rfl | hpos
    · simp
    · have hlt := Nat.mod_lt i hpos
      exact (Nat.mod_eq_of_lt (by omega)).symm

/-- A turn fills in an entry. -/
theorem Filled.turn {rssI i : ℕ} {f : Filling} (h : Filled rssI i f) (hi : i < x550VfretaSize) :
  Filled rssI (i + 1) (f.turn rssI i)
  := by
  obtain ⟨hqueue, htable, hrest, hregs⟩ := h
  have hsmall {k : ℕ} (hk : k < x550VfretaSize) : k % rssI < 2 ^ 8 := by
    have := Nat.mod_le k rssI
    unfold x550VfretaSize at hk
    omega
  have hand : i &&& 3 = i % 4 := Nat.and_two_pow_sub_one_eq_mod i 2
  have hpart : (f.vfreta ||| BitVec.ofNat 32 (i % rssI) <<< (i % 4 * 8)).toNat
      = Nat.ofDigits (2 ^ 8) ((List.range' (i - i % 4) (i % 4 + 1)).map (· % rssI)) := by
    have hj : (BitVec.ofNat 32 (i % rssI)).toNat = i % rssI := by
      rw [BitVec.toNat_ofNat, Nat.mod_eq_of_lt]
      have := hsmall hi
      omega
    have hpacked := Packing.toNat_or_shiftLeft (by decide) hrest (y := BitVec.ofNat 32 (i % rssI))
      (fun x hx => by
        obtain ⟨k, hk, rfl⟩ := List.mem_map.mp hx
        have := List.mem_range'_1.mp hk
        exact hsmall (by omega))
      (by rw [hj]; exact hsmall hi)
      (by rw [List.length_map, List.length_range']; omega)
    rw [List.length_map, List.length_range', hj, Nat.mul_comm] at hpacked
    rw [hpacked, List.range'_1_concat, List.map_append, Nat.sub_add_cancel (Nat.mod_le i 4)]
    rfl
  have htable' (k : ℕ) (hk : k < i + 1) :
      Function.update f.rssIndirTbl i (i % rssI) k = k % rssI := by
    rcases Nat.lt_succ_iff_lt_or_eq.mp hk with hlt | rfl
    · rw [Function.update_of_ne (by omega)]
      exact htable k hlt
    · rw [Function.update_self]
  unfold Filling.turn
  simp only [hqueue, hand]
  split
  next hlast =>
    rw [hlast] at hpart
    constructor
    · exact next_queue rssI i
    · exact htable'
    · have hzero : (i + 1) % 4 = 0 := by omega
      rw [hzero]
      rfl
    · intro r hr
      have hshift : i >>> 2 = i / 4 := Nat.shiftRight_eq_div_pow i 2
      simp only [hshift, hlast]
      by_cases hri : r = i / 4
      · subst hri
        rw [Function.update_self, hpart, show i - 3 = 4 * (i / 4) by omega]
      · rw [Function.update_of_ne hri]
        exact hregs r (by omega)
  next hnot =>
    constructor
    · exact next_queue rssI i
    · exact htable'
    · rw [show i + 1 - (i + 1) % 4 = i - i % 4 by omega, show (i + 1) % 4 = i % 4 + 1 by omega]
      exact hpart
    · intro r hr
      exact hregs r (by omega)

/-- The loop fills in the entries in turn. -/
theorem Filled.loop {rssI n i : ℕ} {f : Filling} (h : Filled rssI i f)
    (hn : i + n ≤ x550VfretaSize) :
  Filled rssI (i + n) (f.loop rssI n i)
  := by
  induction n generalizing i f with
  | zero => exact h
  | succ n ih =>
    have hrest := ih (h.turn (by omega)) (by omega)
    rw [Nat.add_assoc, Nat.add_comm 1 n] at hrest
    exact hrest

/-- The loop over the whole table. -/
theorem fillTable_filled (rssI : ℕ) (rssIndirTbl : ℕ → ℕ) (regs : ℕ → BitVec 32) :
  Filled rssI x550VfretaSize (fillTable rssI rssIndirTbl regs)
  := by
  have hstart : Filled rssI 0 { rssIndirTbl := rssIndirTbl, regs := regs, vfreta := 0, j := 0 } := by
    refine ⟨?_, fun k hk => absurd hk (Nat.not_lt_zero k), rfl,
      fun r hr => absurd hr (Nat.not_lt_zero r)⟩
    rw [Nat.zero_mod, ite_self]
  have hloop := hstart.loop (n := x550VfretaSize) (by omega)
  rw [Nat.zero_add] at hloop
  exact hloop

/-- The hardware finds the table in the registers. -/
theorem Filled.entry {rssI k : ℕ} {f : Filling} (h : Filled rssI x550VfretaSize f)
    (hk : k < x550VfretaSize) :
  retaEntry f.regs k = k % rssI
  := by
  unfold x550VfretaSize at h hk
  rw [retaEntry, h.regs (k / 4) (by omega), Packing.field_ofDigits]
  · rw [List.getD_eq_getElem _ _ (by simp; omega), List.getElem_map, List.getElem_range', Nat.one_mul,
      Nat.div_add_mod]
  · intro x hx
    obtain ⟨m, hm, rfl⟩ := List.mem_map.mp hx
    have := List.mem_range'_1.mp hm
    have := Nat.mod_le m rssI
    omega

/-- How often a queue is in a table. -/
theorem count_table (table : ℕ → ℕ) (q n : ℕ) :
  ((List.range n).map table).count q = Nat.count (fun k => table k = q) n
  := by
  induction n with
  | zero => simp
  | succ n ih =>
    rw [List.range_succ, List.map_append, List.count_append, ih, Nat.count_succ]
    simp [List.count_singleton]

/-- A table that is dealt out in turn gives every queue the same share, but for one entry. -/
theorem count_share {n q : ℕ} (hq : q < n) {table : ℕ → ℕ}
    (htable : ∀ k < x550VfretaSize, table k = k % n) :
  x550VfretaSize / n ≤ ((List.range x550VfretaSize).map table).count q ∧
    ((List.range x550VfretaSize).map table).count q ≤ x550VfretaSize / n + 1
  := by
  have hsame : Nat.count (fun k => table k = q) x550VfretaSize
      = Nat.count (· ≡ q [MOD n]) x550VfretaSize := by
    rw [Nat.count_eq_card_filter_range, Nat.count_eq_card_filter_range]
    congr 1
    apply Finset.filter_congr
    intro k hk
    rw [htable k (Finset.mem_range.mp hk), Nat.ModEq, Nat.mod_eq_of_lt hq]
  rw [count_table, hsame, Nat.count_modEq_card _ (Nat.zero_lt_of_lt hq)]
  split <;> omega

/-! ### Runs -/

/-- The interface, what it keeps of its hash, and the registers. -/
structure Steering where
  /-- The interface. -/
  interface : Call
  /-- `rss_key`, which `ixgbevf_init_rss_key` fills once. -/
  rssKey : ℕ → BitVec 32
  /-- `rss_indir_tbl`. -/
  rssIndirTbl : ℕ → ℕ
  /-- The registers. -/
  regs : Regs

namespace Steering

/-- `ixgbevf_setup_vfmrqc`, for `rssI` Rx queues. -/
def setupVfmrqc (rssI : ℕ) (s : Steering) : Steering :=
  let f := fillTable rssI s.rssIndirTbl s.regs.vfreta
  { s with
    rssIndirTbl := f.rssIndirTbl
    regs := {
      vfrssrk := fun i => if i < vfrssrkRegs then s.rssKey i else s.regs.vfrssrk i
      vfreta := f.regs } }

/-- The effects of the interface, where a reset leaves `cleared` in the registers. -/
def next (mac : MacType) (cleared : Regs) (rssI : ℕ) (s : Steering) : Effect → Steering
  | .reset => { s with regs := cleared }
  | .hash => if MacType.macX550Vf.value ≤ mac.value then s.setupVfmrqc rssI else s
  | .use _ | .clean _ | .enable _ | .disable _ | .removed => s

/-- The interface and its table from the successful end of `ixgbevf_probe` on.  A device that has been
found removed takes no register, but `ixgbevf_setup_vfmrqc` may still have filled the table. -/
def system (K : KernelConfig) (mac : MacType) (cleared : Regs) :
    TransSystem Steering Interface.Event where
  init s := (Interface.system K).init s.interface
  step s e s' := Enabled s.interface.adapter e
    ∧ ∃ c, Interface.apply K { adapter := s.interface.adapter, effects := [] } e = some c
      ∧ ∃ table, (table = (c.effects.foldl (next mac cleared s.interface.adapter.numRxQueues) s).rssIndirTbl
          ∨ c.adapter.hwAddr = false
            ∧ table = (s.setupVfmrqc s.interface.adapter.numRxQueues).rssIndirTbl)
        ∧ s' = { c.effects.foldl (next mac cleared s.interface.adapter.numRxQueues) s with
          interface := { adapter := c.adapter, effects := s.interface.effects ++ c.effects }
          rssIndirTbl := table }

/-- The table that `ixgbevf_get_rxfh` reports. -/
def getRxfhIndir (s : Steering) : List ℕ := (List.range x550VfretaSize).map s.rssIndirTbl

/-- The words of the key that `ixgbevf_get_rxfh` reports. -/
def getRxfhKey (s : Steering) : List (BitVec 32) := (List.range vfrssrkRegs).map s.rssKey

/-- The registers and the table are as `ixgbevf_setup_vfmrqc` leaves them for `n` Rx queues. -/
structure SetUp (n : ℕ) (s : Steering) : Prop where
  /-- The key. -/
  key : ∀ i < vfrssrkRegs, s.regs.vfrssrk i = s.rssKey i
  /-- The table. -/
  table : ∀ k < x550VfretaSize, s.rssIndirTbl k = k % n
  /-- The registers of the table. -/
  regs : ∀ k < x550VfretaSize, retaEntry s.regs.vfreta k = k % n

/-- What `ixgbevf_setup_vfmrqc` leaves. -/
theorem setupVfmrqc_setUp (n : ℕ) (s : Steering) :
  SetUp n (s.setupVfmrqc n)
  := by
  have hfilled := fillTable_filled n s.rssIndirTbl s.regs.vfreta
  constructor
  · intro i hi
    exact if_pos hi
  · exact hfilled.table
  · exact fun k hk => hfilled.entry hk

/-- The hash is set up after effects among which it comes last, or which leave it alone. -/
theorem foldl_setUp {mac : MacType} (cleared : Regs) {n : ℕ} {s : Steering} {es : List Effect}
    (last : Option Bool) (hmac : MacType.macX550Vf.value ≤ mac.value)
    (h : last = some true → SetUp n s) (hlast : es.foldl setupNext last = some true) :
  SetUp n (es.foldl (next mac cleared n) s)
  := by
  induction es generalizing s last with
  | nil => exact h hlast
  | cons e es ih =>
    apply ih _ _ hlast
    cases e with
    | reset =>
      intro hno
      cases hno
    | hash =>
      intro _
      rw [next, if_pos hmac]
      exact setupVfmrqc_setUp n s
    | use _ | clean _ | enable _ | disable _ | removed => exact h

/-- Where effects do not end with a reset or the set-up of the hash, what was last remains last. -/
theorem foldl_setupNext (es : List Effect) (last : Option Bool) :
  es.foldl setupNext last = (lastSetup es).or last
  := by
  induction es using List.reverseRecOn with
  | nil => rfl
  | append_singleton es e ih =>
    rw [lastSetup, List.foldl_append, List.foldl_append, ← lastSetup, ih]
    cases e <;> rfl

end Steering

/-! ### The queues of a running interface -/

section Queues

variable {K : KernelConfig} {c c' : Call}

/-- A write leaves the number of Rx queues alone. -/
theorem writeReg_numRxQueues (e : Effect) (c : Call) :
  (c.writeReg e).adapter.numRxQueues = c.adapter.numRxQueues
  := by
  obtain ⟨_, hsame⟩ := Interface.writeReg_adapter e c
  rw [hsame]

/-- `ixgbevf_reset` leaves the number of Rx queues alone. -/
theorem reset_numRxQueues (resets : Bool) (c : Call) :
  (c.reset resets).adapter.numRxQueues = c.adapter.numRxQueues
  := by
  obtain ⟨_, _, hsame⟩ := Interface.reset_adapter resets c
  rw [hsame]

/-- A loop over the rings leaves the number of Rx queues alone when its body does. -/
theorem upFrom_numRxQueues {f : ℕ → Call → Option Call} {n : ℕ} (hc : Loops.upFrom f n 0 c = some c')
    (hf : ∀ i c c', f i c = some c' → c'.adapter.numRxQueues = c.adapter.numRxQueues) :
  c'.adapter.numRxQueues = c.adapter.numRxQueues
  := by
  apply Loops.upFrom_keeps (I := fun c₁ => c₁.adapter.numRxQueues = c.adapter.numRxQueues) hc rfl
  intro i _ c₁ c₂ hbody h
  rw [hf i c₁ c₂ hbody, h]

/-- `ixgbevf_clean_tx_ring` leaves the number of Rx queues alone. -/
theorem cleanTxRing_numRxQueues {kind : Interface.TxKind} {i : ℕ} (hc : c.cleanTxRing kind i = some c') :
  c'.adapter.numRxQueues = c.adapter.numRxQueues
  := by
  rw [Call.cleanTxRing] at hc
  split at hc
  · cases hc
    rfl
  · cases hc

/-- `ixgbevf_clean_rx_ring` leaves the number of Rx queues alone. -/
theorem cleanRxRing_numRxQueues {i : ℕ} (hc : c.cleanRxRing i = some c') :
  c'.adapter.numRxQueues = c.adapter.numRxQueues
  := by
  obtain ⟨_, -, rfl⟩ := Option.map_eq_some_iff.mp hc
  rfl

/-- `ixgbevf_free_tx_resources` leaves the number of Rx queues alone. -/
theorem freeTxResources_numRxQueues {kind : Interface.TxKind} {i : ℕ}
    (hc : c.freeTxResources kind i = some c') :
  c'.adapter.numRxQueues = c.adapter.numRxQueues
  := by
  obtain ⟨c₁, h₁, rfl⟩ := Option.map_eq_some_iff.mp hc
  have hsame := cleanTxRing_numRxQueues h₁
  exact hsame

/-- `ixgbevf_free_rx_resources` leaves the number of Rx queues alone. -/
theorem freeRxResources_numRxQueues {i : ℕ} (hc : c.freeRxResources i = some c') :
  c'.adapter.numRxQueues = c.adapter.numRxQueues
  := by
  obtain ⟨c₁, h₁, rfl⟩ := Option.map_eq_some_iff.mp hc
  have hsame := cleanRxRing_numRxQueues h₁
  exact hsame

/-- `ixgbevf_down` leaves the number of Rx queues alone. -/
theorem ixgbevfDown_numRxQueues {resets : Bool} (hc : c.ixgbevfDown resets = some c') :
  c'.adapter.numRxQueues = c.adapter.numRxQueues
  := by
  rw [Call.ixgbevfDown] at hc
  split at hc
  · cases hc
    rfl
  · obtain ⟨c₁, h₁, hc⟩ := Option.bind_eq_some_iff.mp hc
    have hdisabled : c₁.adapter.numRxQueues = c.adapter.numRxQueues := by
      refine (upFrom_numRxQueues h₁ fun i c c' hbody => ?_).trans rfl
      cases hbody
      exact writeReg_numRxQueues (.disable i) c
    split at hc
    · cases hc
    · obtain ⟨c₂, h₂, hc⟩ := Option.bind_eq_some_iff.mp hc
      obtain ⟨c₃, h₃, h₄⟩ := Option.bind_eq_some_iff.mp hc
      rw [upFrom_numRxQueues h₄ fun _ _ _ => cleanRxRing_numRxQueues,
        upFrom_numRxQueues h₃ fun _ _ _ => cleanTxRing_numRxQueues,
        upFrom_numRxQueues h₂ fun _ _ _ => cleanTxRing_numRxQueues, ← hdisabled]
      split
      · rfl
      · exact reset_numRxQueues resets c₁

/-- `ixgbevf_configure` leaves the number of Rx queues alone. -/
theorem configure_numRxQueues {env : Interface.ConfigEnv} (hc : c.configure K env = some c') :
  c'.adapter.numRxQueues = c.adapter.numRxQueues
  := by
  have htx {kind : Interface.TxKind} {n : ℕ} {c c' : Call}
      (h : Loops.upFrom (Call.configureTxRing kind) n 0 c = some c') :
      c'.adapter.numRxQueues = c.adapter.numRxQueues := by
    apply upFrom_numRxQueues h
    intro i c c' hbody
    rw [Call.configureTxRing] at hbody
    split at hbody
    · cases hbody
      rfl
    · cases hbody
  have hrx (i : ℕ) (c c' : Call) (h : c.configureRxRing K env i = some c') :
      c'.adapter.numRxQueues = c.adapter.numRxQueues := by
    rw [Call.configureRxRing] at h
    split at h
    · cases h
      exact (writeReg_numRxQueues (.enable i) (c.disableRxQueue i)).trans (writeReg_numRxQueues (.disable i) c)
    · cases h
  obtain ⟨c₁, h₁, hc⟩ := Option.bind_eq_some_iff.mp hc
  obtain ⟨c₂, h₂, h₃⟩ := Option.bind_eq_some_iff.mp hc
  rw [upFrom_numRxQueues h₃ hrx, writeReg_numRxQueues .hash c₂, htx h₂, htx h₁]

/-- `ixgbevf_up` leaves the number of Rx queues alone. -/
theorem up_numRxQueues {env : Interface.ConfigEnv} (hc : c.up K env = some c') :
  c'.adapter.numRxQueues = c.adapter.numRxQueues
  := by
  obtain ⟨c₁, h₁, rfl⟩ := Option.map_eq_some_iff.mp hc
  have hsame := configure_numRxQueues h₁
  exact hsame

/-- The swap of the rings leaves the number of Rx queues alone. -/
theorem setRingparam_numRxQueues {tx rx resets : Bool} {count : ℕ} {env : Interface.ConfigEnv}
    (hc : c.setRingparam K tx rx count resets env = some c') :
  c'.adapter.numRxQueues = c.adapter.numRxQueues
  := by
  have htx {kind : Interface.TxKind} {clone : Interface.TxKind → ℕ → Interface.TxRing} {c c' : Call}
      (h : c.swapTxRings tx clone kind = some c') : c'.adapter.numRxQueues = c.adapter.numRxQueues := by
    rw [Call.swapTxRings] at h
    split at h
    · apply upFrom_numRxQueues h
      intro i c c' hbody
      obtain ⟨c₁, h₁, rfl⟩ := Option.map_eq_some_iff.mp hbody
      have hsame := freeTxResources_numRxQueues h₁
      exact hsame
    · cases h
      rfl
  have hrx {clone : ℕ → Interface.RxRing} {c c' : Call}
      (h : c.swapRxRings rx clone count = some c') : c'.adapter.numRxQueues = c.adapter.numRxQueues := by
    rw [Call.swapRxRings] at h
    split at h
    · apply upFrom_numRxQueues h
      intro i c c' hbody
      obtain ⟨c₁, h₁, rfl⟩ := Option.map_eq_some_iff.mp hbody
      have hsame := freeRxResources_numRxQueues h₁
      exact hsame
    · cases h
      rfl
  obtain ⟨c₁, h₁, hc⟩ := Option.bind_eq_some_iff.mp hc
  obtain ⟨c₂, h₂, hc⟩ := Option.bind_eq_some_iff.mp hc
  obtain ⟨c₃, h₃, hc⟩ := Option.bind_eq_some_iff.mp hc
  obtain ⟨c₄, h₄, h₅⟩ := Option.bind_eq_some_iff.mp hc
  rw [up_numRxQueues h₅, hrx h₄, htx h₃, htx h₂, ixgbevfDown_numRxQueues h₁]

end Queues

/-- An event that leaves a running interface leaves the number of its Rx queues alone. -/
theorem apply_numRxQueues {K : KernelConfig} {a : Adapter} {e : Interface.Event} {c : Call}
    (hs : Interface.Sound a) (hen : Enabled a e)
    (hc : Interface.apply K { adapter := a, effects := [] } e = some c)
    (hup : c.adapter.down = false) :
  c.adapter.numRxQueues = a.numRxQueues
  := by
  have hdown {P : Prop} (h : c.adapter.down = true) : P :=
    absurd (hup.symm.trans h) Bool.false_ne_true
  cases e with
  | devOpen env =>
    obtain ⟨⟨c', ok⟩, hopen, rfl⟩ := Option.map_eq_some_iff.mp hc
    obtain ⟨c₁, heq, hholds⟩ | ⟨c₁, heq, -, hframe, -⟩ :=
      Interface.ixgbevfOpen_cases K env (hs.shut hen).toClosed
    · rw [heq] at hopen
      cases hopen
      exact congrArg (·.2.1) hholds.frame
    · rw [heq] at hopen
      cases hopen
      exact congrArg (·.2.1) hframe
  | close resets =>
    obtain ⟨c₁, h₁, hc⟩ := Option.bind_eq_some_iff.mp hc
    obtain ⟨c₂, h₂, hc⟩ := Option.bind_eq_some_iff.mp hc
    obtain ⟨c₃, h₃, h₄⟩ := Option.bind_eq_some_iff.mp hc
    have hshut := hs.ixgbevfDown (c := ⟨a, []⟩) hen h₁
    exact hdown (((hshut.freeIrq h₂).freeAllTx h₃).freeAllRx h₄).down
  | reinit resets env =>
    obtain ⟨c₁, h₁, h₂⟩ := Option.bind_eq_some_iff.mp hc
    rw [up_numRxQueues h₂, ixgbevfDown_numRxQueues h₁]
  | setRingparam tx rx count resets env => exact setRingparam_numRxQueues hc
  | scheme q count =>
    cases hc
    exact hdown hen.1
  | removed resets => exact ixgbevfDown_numRxQueues hc
  | reset resets =>
    cases hc
    exact reset_numRxQueues resets ⟨a, []⟩
  | read =>
    cases hc
    obtain ⟨_, hsame⟩ := Interface.readReg_adapter ⟨a, []⟩
    rw [hsame]
  | receive i e =>
    obtain ⟨queue, -, rfl⟩ := Option.map_eq_some_iff.mp hc
    rfl
  | answer _ | channel _ | remap | remove | test _ | transmit _ _ _ _ =>
    cases hc
    rfl

/-! ### Every run -/

namespace Steering

variable {K : KernelConfig} {mac : MacType} {cleared : Regs} {G : Steering → Interface.Event → Prop}
  {s : Steering}

/-- The interface is up, and its device has not been found removed. -/
structure Running (s : Steering) : Prop where
  /-- It is up. -/
  up : s.interface.adapter.down = false
  /-- The registers are mapped. -/
  hwAddr : s.interface.adapter.hwAddr = true

/-- A run of the interface and its table is a run of the interface. -/
theorem reachable_interface (h : (system K mac cleared).Reachable G s) :
  (Interface.system K).Reachable TransSystem.always s.interface
  := by
  induction h with
  | init hinit => exact .init hinit
  | step _ _ hstep ih =>
    obtain ⟨hen, c, hc, table, -, rfl⟩ := hstep
    exact ih.step trivial ⟨hen, c, hc, rfl⟩

/-- The table of a running interface has been set up for the Rx queues that it has. -/
theorem reachable_setUp (hmac : MacType.macX550Vf.value ≤ mac.value)
    (h : (system K mac cleared).Reachable G s) (hrun : s.Running) :
  SetUp s.interface.adapter.numRxQueues s
  := by
  induction h with
  | @init s hinit =>
    obtain ⟨env, A, q, count, -, -, heq⟩ := hinit
    have hup := hrun.up
    rw [heq] at hup
    cases hup
  | @step s e s' hreach _ hstep ih =>
    obtain ⟨hen, c, hc, table, htable, rfl⟩ := hstep
    have hsound := Interface.reachable_sound (reachable_interface hreach)
    have hnum := apply_numRxQueues hsound hen hc hrun.up
    rcases htable with rfl | ⟨hgone, -⟩
    · suffices hset : SetUp s.interface.adapter.numRxQueues
          (c.effects.foldl (next mac cleared s.interface.adapter.numRxQueues) s) by
        simp only [hnum]
        exact ⟨hset.key, hset.table, hset.regs⟩
      obtain hlast | ⟨hlast, hup, hhw⟩ := apply_lastSetup hsound hen hc hrun.up hrun.hwAddr
      · apply foldl_setUp cleared none hmac _ hlast
        intro hno
        cases hno
      · apply foldl_setUp cleared (some true) hmac fun _ => ih ⟨hup, hhw⟩
        rw [foldl_setupNext, hlast]
        rfl
    · exact absurd (hgone.symm.trans hrun.hwAddr) Bool.false_ne_true

/-- What `ixgbevf_get_rxfh` reports is what the hardware does, and frames are dealt out to the Rx queues
in equal shares. -/
structure Fair (s : Steering) : Prop where
  /-- The key. -/
  key : s.getRxfhKey = (List.range vfrssrkRegs).map s.regs.vfrssrk
  /-- The table. -/
  indir : s.getRxfhIndir = (List.range x550VfretaSize).map (retaEntry s.regs.vfreta)
  /-- Every entry names an Rx queue. -/
  named : 0 < s.interface.adapter.numRxQueues →
    ∀ q ∈ s.getRxfhIndir, q < s.interface.adapter.numRxQueues
  /-- The shares. -/
  shares : ∀ q < s.interface.adapter.numRxQueues,
    x550VfretaSize / s.interface.adapter.numRxQueues ≤ s.getRxfhIndir.count q ∧
      s.getRxfhIndir.count q ≤ x550VfretaSize / s.interface.adapter.numRxQueues + 1

/-- In every run, while the interface is up and its device there, the redirection table is that of the
Rx queues it has. -/
theorem reachable_fair (hmac : MacType.macX550Vf.value ≤ mac.value)
    (h : (system K mac cleared).Reachable G s) (hrun : s.Running) :
  s.Fair
  := by
  obtain ⟨hkey, htable, hregs⟩ := reachable_setUp hmac h hrun
  constructor
  · apply List.map_congr_left
    intro i hi
    exact (hkey i (List.mem_range.mp hi)).symm
  · apply List.map_congr_left
    intro k hk
    have hlt := List.mem_range.mp hk
    rw [htable k hlt, hregs k hlt]
  · intro hpos q hq
    obtain ⟨k, hk, rfl⟩ := List.mem_map.mp hq
    rw [htable k (List.mem_range.mp hk)]
    exact Nat.mod_lt k hpos
  · intro q hq
    exact count_share hq htable

/-! ### A run that is computed -/

/-- The interface after the probe, with a key. -/
def probed : Steering where
  interface := Interface.probed
  rssKey i := BitVec.ofNat 32 i
  rssIndirTbl _ := 0
  regs := { vfrssrk := fun _ => 0, vfreta := fun _ => 0 }

/-- The interface is opened. -/
def opened : Steering :=
  ((Interface.apply Rx.cacheLine64 { adapter := probed.interface.adapter, effects := [] }
    (.devOpen (Interface.answering fun _ => .ok))).map fun c =>
      { c.effects.foldl (next .macX550Vf probed.regs probed.interface.adapter.numRxQueues) probed with
        interface := { adapter := c.adapter, effects := probed.interface.effects ++ c.effects } }).getD
    probed

/-- The interface can be opened. -/
theorem opened_reachable :
  (system Rx.cacheLine64 .macX550Vf probed.regs).Reachable TransSystem.always opened
  := by
  have hprobed : (system Rx.cacheLine64 .macX550Vf probed.regs).Reachable TransSystem.always probed :=
    .init ⟨_, _, _, _, Queues.probed_init .api13, by decide, rfl⟩
  obtain ⟨c, hc⟩ := Option.isSome_iff_exists.mp (show (Interface.apply Rx.cacheLine64
    { adapter := probed.interface.adapter, effects := [] }
    (.devOpen (Interface.answering fun _ => .ok))).isSome = true by decide +kernel)
  apply hprobed.step (e := .devOpen (Interface.answering fun _ => .ok)) trivial
  refine ⟨rfl, c, hc, _, Or.inl rfl, ?_⟩
  rw [opened, hc]
  rfl

/-- An opened interface with two Rx queues deals out frames fairly. -/
theorem opened_fair :
  opened.interface.adapter.numRxQueues = 2 ∧ opened.Fair
  := by
  refine ⟨by decide +kernel, ?_⟩
  apply reachable_fair (by decide) opened_reachable
  constructor
  · decide +kernel
  · decide +kernel

end Steering

end Ixgbevf.Rss
