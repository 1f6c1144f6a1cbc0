import Mathlib.Data.List.Range
import Ixgbevf.Tx.InFlight

/-!
# The descriptors of a packet

What the data descriptors of a packet tell the hardware.  While `ixgbevf_tx_map` runs, the
descriptors behind its position and the one that it fills describe the bytes of the buffers
so far (`Spread`); the last descriptor closes the chain (`txMap_chain`).
-/

namespace Ixgbevf.Tx

open Cyclic

/-! ### What descriptors describe -/

/-- `IXGBE_ADVTXD_DTALEN_MASK`. -/
def advtxdDtalenMask : BitVec 32 := 0x0000FFFF#32

/-- The length that a data descriptor gives. -/
def TxDesc.len (d : TxDesc) : ℕ := (d.cmdTypeLen &&& advtxdDtalenMask).toNat

/-- The addresses of the `n` bytes from `addr` on. -/
def bytesFrom (addr : BitVec 64) (n : ℕ) : List (BitVec 64) :=
  (List.range n).map fun j => addr + BitVec.ofNat 64 j

/-- The bytes that a data descriptor describes. -/
def TxDesc.bytes (d : TxDesc) : List (BitVec 64) := bytesFrom d.bufferAddr d.len

/-- The bytes of buffers, of which the one at the position `k` is mapped at `addr k`. -/
def buffersAt (addr : ℕ → BitVec 64) (k : ℕ) (sizes : List ℕ) : List (BitVec 64) :=
  (sizes.zipIdx k).flatMap fun b => bytesFrom (addr b.2) b.1

/-- The bytes of a packet whose head and fragments are mapped at the addresses `addr`. -/
def Skb.bytes (skb : Skb) (addr : ℕ → BitVec 64) : List (BitVec 64) :=
  buffersAt addr 0 (skb.headlen :: skb.frags)

/-- The descriptors of the `n` slots from `a` on, in the order of the ring. -/
def TxRing.chain (r : TxRing) (a n : ℕ) : List TxDesc :=
  (List.range n).map fun m => r.desc (ahead r.count a m)

/-- Data descriptors tell the hardware to send the bytes `data` as one packet. -/
structure Describes (cmdType olinfoStatus : BitVec 32) (data : List (BitVec 64))
    (ds : List TxDesc) : Prop where
  /-- They describe the bytes in their order. -/
  bytes : ds.flatMap TxDesc.bytes = data
  /-- Each describes some bytes, and no more than a descriptor may. -/
  len : ∀ d ∈ ds, 1 ≤ d.len ∧ d.len ≤ maxDataPerTxd
  /-- The last one, and no other, ends the packet and asks for a report. -/
  report : ds.map (fun d => d.cmdTypeLen &&& txdCmd)
    = List.replicate (ds.length - 1) 0#32 ++ [txdCmd]
  /-- All have the command of the packet. -/
  cmdType : ∀ d ∈ ds, d.cmdTypeLen &&& ~~~(advtxdDtalenMask ||| txdCmd) = cmdType
  /-- The first one, and no other, carries the length and the offloads of the packet. -/
  olinfo : ds.map TxDesc.olinfoStatus = olinfoStatus :: List.replicate (ds.length - 1) 0#32

/-- No bytes. -/
@[simp] theorem bytesFrom_zero (addr : BitVec 64) :
  bytesFrom addr 0 = []
  := rfl

/-- Some bytes, and those after them. -/
theorem bytesFrom_add (addr : BitVec 64) (n m : ℕ) :
  bytesFrom addr (n + m) = bytesFrom addr n ++ bytesFrom (addr + BitVec.ofNat 64 n) m
  := by
  unfold bytesFrom
  rw [List.range_add, List.map_append, List.map_map]
  congr 2
  funext j
  simp [BitVec.ofNat_add, BitVec.add_assoc]

/-- One more buffer. -/
theorem buffersAt_cons (addr : ℕ → BitVec 64) (k size : ℕ) (sizes : List ℕ) :
  buffersAt addr k (size :: sizes) = bytesFrom (addr k) size ++ buffersAt addr (k + 1) sizes
  := by
  simp [buffersAt, List.zipIdx_cons]

namespace TxRing

variable {r : TxRing} {a n : ℕ}

/-- One more slot. -/
theorem chain_succ (r : TxRing) (a n : ℕ) :
  r.chain a (n + 1) = r.chain a n ++ [r.desc (ahead r.count a n)]
  := by
  simp [chain, List.range_succ]

@[simp] theorem chain_setBuffer (i : ℕ) (f : TxBuffer → TxBuffer) :
  (r.setBuffer i f).chain a n = r.chain a n
  := rfl

/-- A change of the descriptor after those of the chain. -/
theorem chain_setDesc {m : ℕ} (g : TxDesc → TxDesc) (hnm : n ≤ m) (hm : m < r.count) :
  (r.setDesc (ahead r.count a m) g).chain a n = r.chain a n
  := by
  unfold chain
  apply List.map_congr_left
  intro j hj
  rw [List.mem_range] at hj
  have hne : ahead r.count a j ≠ ahead r.count a m := by
    rw [Ne, ahead_inj (by omega) hm]
    omega
  simp [setDesc, hne]

end TxRing

/-! ### Command words -/

/-- The length of a descriptor is read back from its command word. -/
theorem ofNat_and_dtalen {n : ℕ} (h : n ≤ maxDataPerTxd) :
  BitVec.ofNat 32 n &&& advtxdDtalenMask = BitVec.ofNat 32 n
  := by
  unfold maxDataPerTxd at h
  apply BitVec.eq_of_toNat_eq
  have hmask : advtxdDtalenMask.toNat = 2 ^ 16 - 1 := rfl
  rw [BitVec.toNat_and, hmask, Nat.and_two_pow_sub_one_eq_mod, BitVec.toNat_ofNat]
  omega

/-- The length of a descriptor leaves the bits clear that are not its own. -/
theorem ofNat_and_eq_zero {n : ℕ} {m : BitVec 32} (h : n ≤ maxDataPerTxd)
    (hm : advtxdDtalenMask &&& m = 0#32) :
  BitVec.ofNat 32 n &&& m = 0#32
  := by
  rw [← ofNat_and_dtalen h, BitVec.and_assoc, hm, BitVec.and_zero]

/-- The command of a packet leaves the bits of the length and of the end of the packet clear. -/
theorem txCmdType_and (txFlags : BitVec 32) :
  txCmdType txFlags &&& (advtxdDtalenMask ||| txdCmd) = 0#32
  := by
  unfold txCmdType
  split_ifs <;> decide

/-- A data descriptor of a packet with the command `cmdType`, where `eop` are the bits that
end a packet. -/
structure TxDesc.Data (cmdType eop : BitVec 32) (d : TxDesc) : Prop where
  /-- The descriptor describes some bytes, and no more than it may. -/
  len : 1 ≤ d.len ∧ d.len ≤ maxDataPerTxd
  /-- The bits that end a packet. -/
  report : d.cmdTypeLen &&& txdCmd = eop
  /-- The command of the packet. -/
  cmdType : d.cmdTypeLen &&& ~~~(advtxdDtalenMask ||| txdCmd) = cmdType

/-- The command word of a descriptor of `n` bytes. -/
theorem data_of_word {txFlags eop : BitVec 32} {n : ℕ} {d : TxDesc} (hn : 1 ≤ n)
    (hmax : n ≤ maxDataPerTxd) (heop : eop = 0#32 ∨ eop = txdCmd)
    (hd : d.cmdTypeLen = txCmdType txFlags ||| BitVec.ofNat 32 n ||| eop) :
  d.Data (txCmdType txFlags) eop ∧ d.len = n
  := by
  obtain ⟨hlen, hcmd⟩ : txCmdType txFlags &&& advtxdDtalenMask = 0#32
      ∧ txCmdType txFlags &&& txdCmd = 0#32 := by
    rw [← BitVec.or_eq_zero_iff, ← BitVec.and_or_distrib_left]
    exact txCmdType_and txFlags
  have heop' : eop &&& advtxdDtalenMask = 0#32 ∧ eop &&& txdCmd = eop
      ∧ eop &&& ~~~(advtxdDtalenMask ||| txdCmd) = 0#32 := by
    rcases heop with rfl | rfl <;> decide
  have hword : d.cmdTypeLen &&& advtxdDtalenMask = BitVec.ofNat 32 n := by
    rw [hd, BitVec.and_or_distrib_right, BitVec.and_or_distrib_right, hlen, heop'.1,
      ofNat_and_dtalen hmax, BitVec.zero_or, BitVec.or_zero]
  have hd' : d.len = n := by
    unfold maxDataPerTxd at hmax
    rw [TxDesc.len, hword, BitVec.toNat_ofNat]
    omega
  refine ⟨⟨?_, ?_, ?_⟩, hd'⟩
  · rw [hd']
    exact ⟨hn, hmax⟩
  · rw [hd, BitVec.and_or_distrib_right, BitVec.and_or_distrib_right, hcmd,
      ofNat_and_eq_zero hmax (by decide), heop'.2.1, BitVec.zero_or, BitVec.zero_or]
  · rw [hd, BitVec.and_or_distrib_right, BitVec.and_or_distrib_right,
      Bits.and_not_eq_self (txCmdType_and txFlags), ofNat_and_eq_zero hmax (by decide),
      heop'.2.2, BitVec.or_zero, BitVec.or_zero]

/-! ### The mapping loop -/

/-- The descriptors `ds` from the slot `a` on are behind the loop, and describe the bytes
`data` together with the descriptor that the loop fills. -/
structure MapState.Spread (txFlags olinfoStatus : BitVec 32) (a : ℕ) (data : List (BitVec 64))
    (ds : List TxDesc) (s : MapState) : Prop where
  /-- The loop is past the descriptors. -/
  i : s.i = ahead s.ring.count a ds.length
  /-- The slots hold the descriptors. -/
  chain : s.ring.chain a ds.length = ds
  /-- They have commands of data that goes on. -/
  cmd : ∀ d ∈ ds, d.Data (txCmdType txFlags) 0#32
  /-- Only the first one carries the offloads. -/
  olinfo : (ds ++ [s.ring.desc s.i]).map TxDesc.olinfoStatus
    = olinfoStatus :: List.replicate ds.length 0#32
  /-- The bytes that are described, with those that are left for the present descriptor. -/
  bytes : ds.flatMap TxDesc.bytes ++ bytesFrom (s.ring.desc s.i).bufferAddr s.size = data

namespace MapState.Spread

variable {txFlags olinfoStatus : BitVec 32} {a : ℕ} {data : List (BitVec 64)} {ds : List TxDesc}
  {s : MapState}

/-- The present descriptor is given the address of `n` more bytes. -/
theorem mapped (h : Spread txFlags olinfoStatus a data ds { s with size := 0 })
    (hfit : ds.length < s.ring.count) (dma : BitVec 64) (n : ℕ) :
  Spread txFlags olinfoStatus a (data ++ bytesFrom dma n) ds
    ⟨s.ring.setDesc s.i fun d => { d with bufferAddr := dma }, s.i, n⟩
  := by
  have hi : s.i = ahead s.ring.count a ds.length := h.i
  have hbytes := h.bytes
  refine ⟨hi, ?_, h.cmd, ?_, ?_⟩
  · rw [hi, TxRing.chain_setDesc _ (Nat.le_refl _) hfit]
    exact h.chain
  · rw [← h.olinfo]
    simp [TxRing.setDesc]
  · rw [bytesFrom_zero, List.append_nil] at hbytes
    simp [TxRing.setDesc, hbytes]

/-- The loop moves on after `n` bytes. -/
theorem next (h : Spread txFlags olinfoStatus a data ds s) {n : ℕ} (hn : 1 ≤ n)
    (hmax : n ≤ maxDataPerTxd) (ha : a < s.ring.count) (hfit : ds.length + 1 < s.ring.count) :
  ∃ d, Spread txFlags olinfoStatus a
    (ds.flatMap TxDesc.bytes ++ bytesFrom (s.ring.desc s.i).bufferAddr n) (ds ++ [d])
    { s.nextDesc (txCmdType txFlags ||| BitVec.ofNat 32 n) with size := 0 }
  := by
  set d : TxDesc :=
    { s.ring.desc s.i with cmdTypeLen := txCmdType txFlags ||| BitVec.ofNat 32 n } with hd
  have hword : d.cmdTypeLen = txCmdType txFlags ||| BitVec.ofNat 32 n ||| 0#32 := by
    rw [BitVec.or_zero]
  obtain ⟨hdata, hlen⟩ := data_of_word hn hmax (.inl rfl) hword
  have hi : Cyclic.next s.ring.count s.i = ahead s.ring.count a (ds.length + 1) := by
    rw [h.i, next_ahead ha (Nat.le_of_lt hfit)]
  set s' := s.nextDesc (txCmdType txFlags ||| BitVec.ofNat 32 n) with hs'
  have hchain : s'.ring.chain a (ds.length + 1) = ds ++ [d] := by
    set r := s.ring.setDesc (ahead s.ring.count a ds.length)
      fun d => { d with cmdTypeLen := txCmdType txFlags ||| BitVec.ofNat 32 n } with hr
    have hring : s'.ring = r.setDesc (ahead r.count a (ds.length + 1))
        fun d => { d with olinfoStatus := 0#32 } := by
      rw [hs', hr, TxRing.setDesc_count, ← hi, ← h.i]
      rfl
    have hlast : r.desc (ahead r.count a ds.length) = d := by
      simp [hr, hd, TxRing.setDesc, h.i]
    rw [hring, TxRing.chain_setDesc (r := r) _ (Nat.le_refl _) hfit, TxRing.chain_succ, hlast, hr,
      TxRing.chain_setDesc _ (Nat.le_refl _) (Nat.lt_of_succ_lt hfit), h.chain]
  have hclear : (s'.ring.desc s'.i).olinfoStatus = 0#32 := by
    simp [hs', nextDesc, TxRing.setDesc]
  refine ⟨d, ?_, ?_, ?_, ?_, ?_⟩
  · rw [List.length_append]
    exact hi
  · rw [List.length_append]
    exact hchain
  · intro d' hd'
    rcases List.mem_append.mp hd' with hd' | hd'
    · exact h.cmd d' hd'
    · rw [List.mem_singleton.mp hd']
      exact hdata
  · have holinfo := h.olinfo
    rw [List.map_append] at holinfo
    rw [List.map_append, List.map_append, List.length_append, List.length_singleton,
      List.replicate_succ', ← List.cons_append, ← holinfo]
    simp only [List.map_cons, List.map_nil, hclear, hd]
  · rw [bytesFrom_zero, List.append_nil, List.flatMap_append, List.flatMap_singleton, TxDesc.bytes,
      hlen]

/-- With its last descriptor the packet is described. -/
theorem describes (h : Spread txFlags olinfoStatus a data ds s) (hlo : 1 ≤ s.size)
    (hhi : s.size ≤ maxDataPerTxd) :
  Describes (txCmdType txFlags) olinfoStatus data (ds ++ [{ s.ring.desc s.i with
    cmdTypeLen := txCmdType txFlags ||| BitVec.ofNat 32 s.size ||| txdCmd }])
  := by
  set d : TxDesc := { s.ring.desc s.i with
    cmdTypeLen := txCmdType txFlags ||| BitVec.ofNat 32 s.size ||| txdCmd } with hd
  obtain ⟨hdata, hlen⟩ := data_of_word (d := d) hlo hhi (.inr rfl) rfl
  have hall : ∀ d' ∈ ds ++ [d], ∃ eop, d'.Data (txCmdType txFlags) eop := by
    intro d' hd'
    rcases List.mem_append.mp hd' with hd' | hd'
    · exact ⟨_, h.cmd d' hd'⟩
    · rw [List.mem_singleton.mp hd']
      exact ⟨_, hdata⟩
  refine ⟨?_, fun d' hd' => ?_, ?_, fun d' hd' => ?_, ?_⟩
  · rw [List.flatMap_append, List.flatMap_singleton, TxDesc.bytes, hlen]
    exact h.bytes
  · obtain ⟨eop, hdata'⟩ := hall d' hd'
    exact hdata'.len
  · have hbehind : ds.map (fun d => d.cmdTypeLen &&& txdCmd) = List.replicate ds.length 0#32 := by
      rw [List.eq_replicate_iff]
      simpa using fun d' hd' => (h.cmd d' hd').report
    rw [List.map_append, hbehind, List.length_append, List.length_singleton, Nat.add_sub_cancel,
      List.map_singleton, hdata.report]
  · obtain ⟨eop, hdata'⟩ := hall d' hd'
    exact hdata'.cmdType
  · rw [List.length_append, List.length_singleton, Nat.add_sub_cancel, ← h.olinfo]
    simp only [List.map_append, List.map_singleton, hd]

end MapState.Spread

section Loops

variable {txFlags olinfoStatus : BitVec 32} {a : ℕ} {data : List (BitVec 64)} {ds : List TxDesc}
  {s : MapState}

open MapState (Spread)

/-- The inner loop keeps what is described, and leaves no more than a descriptor may have. -/
theorem splitBuffer_spread {fuel : ℕ} (dma : BitVec 64)
    (h : Spread txFlags olinfoStatus a data ds s) (hdma : (s.ring.desc s.i).bufferAddr = dma)
    (ha : a < s.ring.count) (hpos : 1 ≤ s.size) (hfuel : s.size ≤ fuel)
    (hfit : ds.length + descsOf s.size ≤ s.ring.count) :
  ∃ ds' s', splitBuffer (txCmdType txFlags) fuel dma s = s'
    ∧ Spread txFlags olinfoStatus a data ds' s' ∧ 1 ≤ s'.size ∧ s'.size ≤ maxDataPerTxd
    ∧ ds'.length + 1 = ds.length + descsOf s.size ∧ s'.ring.count = s.ring.count
  := by
  induction fuel generalizing s ds dma with
  | zero => omega
  | succ fuel ih =>
    rw [splitBuffer]
    split
    · rename_i hlarge
      have hdescs : descsOf s.size = descsOf (s.size - maxDataPerTxd) + 1 := by
        unfold descsOf txdUseCount maxDataPerTxd at *
        omega
      have hrest : 1 ≤ descsOf (s.size - maxDataPerTxd) := Nat.le_max_left _ _
      obtain ⟨d, hnext⟩ := h.next (n := maxDataPerTxd) (by decide) (Nat.le_refl _) ha (by omega)
      set s₁ := s.nextDesc (txCmdType txFlags ||| BitVec.ofNat 32 maxDataPerTxd) with hs₁
      have hcount : s₁.ring.count = s.ring.count := rfl
      have hmapped := hnext.mapped (by rw [List.length_append, List.length_singleton]; omega)
        (dma + BitVec.ofNat 64 maxDataPerTxd) (s.size - maxDataPerTxd)
      -- what was left is now on the descriptor behind and on the present one
      have hbytes : s.size = maxDataPerTxd + (s.size - maxDataPerTxd) := by omega
      have hdata := h.bytes
      rw [hdma, hbytes, bytesFrom_add, ← List.append_assoc] at hdata
      rw [hdma, hdata] at hmapped
      have hmax : 0 < maxDataPerTxd := by decide
      have haddr : ((s₁.ring.setDesc s₁.i fun d => { d with
          bufferAddr := dma + BitVec.ofNat 64 maxDataPerTxd }).desc s₁.i).bufferAddr
          = dma + BitVec.ofNat 64 maxDataPerTxd := by
        simp only [TxRing.setDesc, Function.update_self]
      have hfit' : (ds ++ [d]).length + descsOf (s.size - maxDataPerTxd) ≤ s₁.ring.count := by
        rw [List.length_append, List.length_singleton]
        omega
      obtain ⟨ds', s', heq, hspread, hlo, hhi, hlen, hcount'⟩ := ih
        (dma + BitVec.ofNat 64 maxDataPerTxd) hmapped haddr ha (by simp only; omega)
        (by simp only; omega) hfit'
      have hlen' : ds'.length + 1 = (ds ++ [d]).length + descsOf (s.size - maxDataPerTxd) := hlen
      rw [List.length_append, List.length_singleton] at hlen'
      exact ⟨ds', s', heq, hspread, hlo, hhi, by omega, hcount'⟩
    · rename_i hsmall
      have hdescs : descsOf s.size = 1 := by
        unfold descsOf txdUseCount maxDataPerTxd at *
        omega
      exact ⟨ds, s, rfl, h, hpos, Nat.le_of_not_lt hsmall, by rw [hdescs], rfl⟩

/-- One buffer is mapped and described. -/
theorem mapBuffer_spread (dma : BitVec 64) (b : ℕ)
    (h : Spread txFlags olinfoStatus a data ds { s with size := 0 }) (ha : a < s.ring.count)
    (hpos : 1 ≤ s.size) (hfit : ds.length + descsOf s.size ≤ s.ring.count) :
  ∃ ds' s', splitBuffer (txCmdType txFlags) s.size dma
      ⟨(s.ring.setBuffer b fun t => { t with len := s.size, dma := dma }).setDesc s.i
        fun d => { d with bufferAddr := dma }, s.i, s.size⟩ = s'
    ∧ Spread txFlags olinfoStatus a (data ++ bytesFrom dma s.size) ds' s'
    ∧ 1 ≤ s'.size ∧ s'.size ≤ maxDataPerTxd
    ∧ ds'.length + 1 = ds.length + descsOf s.size ∧ s'.ring.count = s.ring.count
  := by
  have hdescs : 1 ≤ descsOf s.size := Nat.le_max_left _ _
  set r := s.ring.setBuffer b fun t => { t with len := s.size, dma := dma } with hr
  have hbuffer : Spread txFlags olinfoStatus a data ds ⟨r, s.i, 0⟩ :=
    ⟨h.i, h.chain, h.cmd, h.olinfo, h.bytes⟩
  have hmapped := MapState.Spread.mapped (s := ⟨r, s.i, s.size⟩) hbuffer
    (show ds.length < s.ring.count by omega) dma s.size
  apply splitBuffer_spread dma hmapped _ ha hpos (Nat.le_refl _) hfit
  simp only [TxRing.setDesc, Function.update_self]

/-- The mapping loop describes the buffers in their order. -/
theorem mapBuffers_spread {map : ℕ → Option (BitVec 64)} {addr : ℕ → BitVec 64} {frags : List ℕ}
    {k : ℕ} (b : ℕ) (h : Spread txFlags olinfoStatus a data ds { s with size := 0 })
    (hmap : ∀ j ≤ k + frags.length, map j = some (addr j)) (ha : a < s.ring.count)
    (hpos : 1 ≤ s.size) (hfrags : ∀ frag ∈ frags, 0 < frag)
    (hfit : ds.length + descsOf s.size + (frags.map descsOf).sum ≤ s.ring.count) :
  ∃ ds' s', mapBuffers map (txCmdType txFlags) frags k b s = .done s'
    ∧ Spread txFlags olinfoStatus a (data ++ buffersAt addr k (s.size :: frags)) ds' s'
    ∧ 1 ≤ s'.size ∧ s'.size ≤ maxDataPerTxd
    ∧ ds'.length + 1 = ds.length + descsOf s.size + (frags.map descsOf).sum
    ∧ s'.ring.count = s.ring.count
  := by
  obtain ⟨ds₁, s₁, heq₁, h₁, hlo₁, hhi₁, hlen₁, hcount₁⟩ :=
    mapBuffer_spread (addr k) b h ha hpos (by omega)
  induction frags generalizing k b s data ds ds₁ s₁ with
  | nil =>
    refine ⟨ds₁, s₁, ?_, ?_, hlo₁, hhi₁, by simpa using hlen₁, hcount₁⟩
    · simp only [mapBuffers, hmap k (Nat.le_add_right _ _), heq₁]
    · rw [buffersAt_cons, buffersAt, List.zipIdx_nil, List.flatMap_nil, List.append_nil]
      exact h₁
  | cons frag frags ih =>
    obtain ⟨hfrag, hfrags⟩ := List.forall_mem_cons.mp hfrags
    rw [List.map_cons, List.sum_cons] at hfit ⊢
    have hdescs : 1 ≤ descsOf frag := Nat.le_max_left _ _
    have hsum : (frag :: frags).sum ≠ 0 := by
      rw [List.sum_cons]
      omega
    obtain ⟨d, hnext⟩ := h₁.next hlo₁ hhi₁ (by omega) (by omega)
    rw [h₁.bytes] at hnext
    set s₂ := s₁.nextDesc (txCmdType txFlags ||| BitVec.ofNat 32 s₁.size) with hs₂
    have hcount₂ : s₂.ring.count = s.ring.count := hcount₁
    have hlen₂ : (ds₁ ++ [d]).length = ds.length + descsOf s.size := by
      rw [List.length_append, List.length_singleton, hlen₁]
    obtain ⟨ds₃, s₃, heq₃, h₃, hlo₃, hhi₃, hlen₃, hcount₃⟩ :=
      mapBuffer_spread (s := { s₂ with size := frag }) (addr (k + 1)) s₂.i hnext
        (by simp only; omega) hfrag (by simp only; omega)
    obtain ⟨ds', s', heq, hspread, hlo, hhi, hlen, hcount⟩ := ih s₂.i
      (s := { s₂ with size := frag }) hnext (fun j hj => hmap j (by rw [List.length_cons]; omega))
      (by simp only; omega) hfrag hfrags (by simp only; omega) _ _ heq₃ h₃ hlo₃ hhi₃ hlen₃ hcount₃
    refine ⟨ds', s', ?_, ?_, hlo, hhi, ?_, hcount.trans hcount₂⟩
    · rw [mapBuffers, hmap k (Nat.le_add_right _ _)]
      simp only [heq₁, if_neg hsum]
      exact heq
    · rw [buffersAt_cons, ← List.append_assoc]
      exact hspread
    · rw [hlen]
      simp only
      omega

end Loops

/-! ### The packet -/

/-- The room that the driver asks for is enough for a packet and its context descriptor. -/
theorem Skb.Ok.fits {C : Config} {skb : Skb} {r : TxRing} (h : skb.Ok C.maxSkbFrags)
    (hclean : r.nextToClean < r.count) (huse : r.nextToUse < r.count)
    (hroom : skb.size ≤ r.descUnused) :
  skb.descs + 1 ≤ r.count
  := by
  have hsize := h.descs_lt_size C.frags_le
  have hunused := TxRing.descUnused_eq hclean huse
  omega

/-- A packet whose mappings succeed is described by its data descriptors: from the slot after
its context descriptor up to the one that is watched, past which `next_to_use` is. -/
theorem txMap_chain {map : ℕ → Option (BitVec 64)} {addr : ℕ → BitVec 64} {r : TxRing}
    {first : ℕ} (skb : Skb) (hdrLen : BitVec 8)
    (hmap : ∀ k ≤ skb.frags.length, map k = some (addr k)) (hhead : 0 < skb.headlen)
    (hfrags : ∀ frag ∈ skb.frags, 0 < frag) (hfirst : first < r.count)
    (hnext : r.nextToUse = next r.count first) (hfit : skb.descs + 1 ≤ r.count) :
  ∃ r' last, txMap map r first skb hdrLen = (true, r', [])
    ∧ last < r.count ∧ (r'.buffer first).nextToWatch = some last
    ∧ r'.nextToUse = next r.count last
    ∧ Describes (txCmdType (r.buffer first).txFlags)
        (txOlinfoStatus (r.buffer first).txFlags (BitVec.ofNat 32 skb.len - hdrLen.setWidth 32))
        (skb.bytes addr) (r'.chain r.nextToUse (gap r.count r.nextToUse last + 1))
  := by
  set txFlags := (r.buffer first).txFlags with htxFlags
  set olinfoStatus := txOlinfoStatus txFlags (BitVec.ofNat 32 skb.len - hdrLen.setWidth 32)
    with holinfo
  set r₁ := r.setDesc r.nextToUse fun d => { d with olinfoStatus := olinfoStatus } with hr₁
  have ha : r.nextToUse < r.count := by
    rw [hnext]
    exact next_lt hfirst
  have hstart : MapState.Spread txFlags olinfoStatus r.nextToUse [] [] ⟨r₁, r.nextToUse, 0⟩ := by
    refine ⟨(ahead_zero ha).symm, rfl, fun d hd => absurd hd List.not_mem_nil, ?_, rfl⟩
    simp [hr₁, TxRing.setDesc]
  have hdescs : descsOf skb.headlen + (skb.frags.map descsOf).sum + 1 ≤ r.count := hfit
  have hdescs' : 0 + descsOf skb.headlen + (skb.frags.map descsOf).sum ≤ r₁.count := by
    rw [hr₁, TxRing.setDesc_count]
    omega
  obtain ⟨ds, s, heq, h, hlo, hhi, hlen, hcount⟩ := mapBuffers_spread (k := 0)
    (s := ⟨r₁, r.nextToUse, skb.headlen⟩) first hstart (fun j hj => hmap j (by omega)) ha hhead
    hfrags hdescs'
  have hcount : s.ring.count = r.count := hcount
  have hfit' : ds.length < r.count := by
    simp only [List.length_nil] at hlen
    omega
  have hi : s.i = ahead r.count r.nextToUse ds.length := by
    rw [h.i, hcount]
  have hlast : s.i < r.count := by
    rw [hi]
    exact ahead_lt ha (Nat.le_of_lt hfit')
  set cmdTypeLen := txCmdType txFlags ||| BitVec.ofNat 32 s.size ||| txdCmd with hcmd
  set r₂ := s.ring.setDesc s.i fun d => { d with cmdTypeLen := cmdTypeLen } with hr₂
  set r₃ := r₂.setBuffer first fun b => { b with nextToWatch := some s.i } with hr₃
  have hmapped : txMap map r first skb hdrLen
      = (true, { r₃ with nextToUse := next r₃.count s.i }, []) := by
    simp only [txMap, ← htxFlags, ← holinfo, ← hr₁, heq]
    rfl
  have hchain : r₃.chain r.nextToUse (gap r.count r.nextToUse s.i + 1)
      = ds ++ [{ s.ring.desc s.i with cmdTypeLen := cmdTypeLen }] := by
    have hlastDesc : r₂.desc (ahead r₂.count r.nextToUse ds.length)
        = { s.ring.desc s.i with cmdTypeLen := cmdTypeLen } := by
      simp only [hr₂, TxRing.setDesc, hcount, ← hi, Function.update_self]
    have hbehind : r₂.chain r.nextToUse ds.length = ds := by
      rw [hr₂, h.i, TxRing.chain_setDesc _ (Nat.le_refl _) (by rwa [hcount]), h.chain]
    have hgap : gap r.count r.nextToUse s.i = ds.length := by
      rw [hi, gap_ahead ha hfit']
    rw [hgap, hr₃, TxRing.chain_setBuffer, TxRing.chain_succ, hlastDesc, hbehind]
  refine ⟨_, s.i, hmapped, hlast, ?_, ?_, ?_⟩
  · simp only [hr₃, TxRing.setBuffer, Function.update_self]
  · simp only [hr₃, hr₂, TxRing.setBuffer_count, TxRing.setDesc_count, hcount]
  · have hdescribes := h.describes hlo hhi
    rw [← hchain] at hdescribes
    exact hdescribes

/-- A ring whose first unused slot is the last but one. -/
def lateRing : TxRing :=
  { (TxQueue.fresh TxQueue.smallRing).ring with nextToUse := 63, nextToClean := 62, tail := 62 }

/-- A packet of buffers that take several descriptors each, on a ring where it wraps. -/
theorem txMap_chain_wrap :
  ∃ r' last,
    txMap (fun k => some (BitVec.ofNat 64 (k * 0x100000))) lateRing 62
        (TxQueue.plainSkb 1 40000 [16384, 16385] ethPIp) 0#8 = (true, r', [])
      ∧ last < 64 ∧ (r'.buffer 62).nextToWatch = some last ∧ r'.nextToUse = next 64 last
      ∧ Describes (txCmdType 0#32) (txOlinfoStatus 0#32 (BitVec.ofNat 32 72769 - 0#32))
        ((TxQueue.plainSkb 1 40000 [16384, 16385] ethPIp).bytes
          fun k => BitVec.ofNat 64 (k * 0x100000))
        (r'.chain 63 (gap 64 63 last + 1))
  := txMap_chain (r := lateRing) (TxQueue.plainSkb 1 40000 [16384, 16385] ethPIp) 0#8
    (fun _ _ => rfl) (by decide) (by decide) (by decide) rfl (by decide)

end Ixgbevf.Tx
