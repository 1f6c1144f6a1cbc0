import Ixgbevf.Interface.Runs
import Mathlib.Data.Finset.Basic

/-!
# Freeing what the hardware writes to

An Rx queue writes to the pages of its ring and to its descriptors from the moment that
`ixgbevf_configure_rx_ring` enables it until `ixgbevf_disable_rx_queue` disables it or the function
is reset.  In every run in which `ixgbevf_open` does not fail after it has configured the rings,
neither the pages in a ring nor the descriptors are freed meanwhile, unless the device has been
found removed.
-/

namespace Ixgbevf.Interface

open Queues (InitEnv initInterruptScheme)
open Rx (RxQueue)
open Loops Cyclic

/-! ### Live queues -/

/-- The Rx queues that may write to memory after an effect, where `found` says whether a device
that has been found removed counts as stopped. -/
def liveNext (found : Bool) (live : Finset ℕ) : Effect → Finset ℕ
  | .enable q => insert q live
  | .disable q => live.erase q
  | .reset => ∅
  | .removed => if found then ∅ else live
  | .hash => live
  | .clean _ => live
  | .use _ => live

/-- An effect frees nothing that a live queue writes to. -/
def Spares (live : Finset ℕ) : Effect → Prop
  | .clean q => q ∉ live
  | .use (.give (.rxDesc q)) => q ∉ live
  | _ => True

instance Spares.decide (live : Finset ℕ) : (e : Effect) → Decidable (Spares live e)
  | .clean q => inferInstanceAs (Decidable (q ∉ live))
  | .use (.give (.rxDesc q)) => inferInstanceAs (Decidable (q ∉ live))
  | .use (.give (.rxBufferInfo _)) => isTrue trivial
  | .use (.give (.txBufferInfo _ _)) => isTrue trivial
  | .use (.give (.txDesc _ _)) => isTrue trivial
  | .use (.give (.xdpRxq _)) => isTrue trivial
  | .use (.give (.irq _)) => isTrue trivial
  | .use (.take _) => isTrue trivial
  | .use .settle => isTrue trivial
  | .enable _ => isTrue trivial
  | .disable _ => isTrue trivial
  | .reset => isTrue trivial
  | .removed => isTrue trivial
  | .hash => isTrue trivial

/-- The queues that may write to memory after some effects. -/
def liveAfter (found : Bool) (live : Finset ℕ) (es : List Effect) : Finset ℕ :=
  es.foldl (liveNext found) live

/-- Along the effects nothing is freed that a live queue writes to. -/
def SparesLive (found : Bool) (live : Finset ℕ) (es : List Effect) : Prop :=
  TransSystem.AllAlong Spares (liveNext found) live es

instance SparesLive.decide (found : Bool) (live : Finset ℕ) (es : List Effect) :
    Decidable (SparesLive found live es) :=
  inferInstanceAs (Decidable (TransSystem.AllAlong Spares (liveNext found) live es))

/-- An effect that spares the live queues, and starts and stops none. -/
def Passive (live : Finset ℕ) (e : Effect) : Prop :=
  Spares live e ∧ liveNext true live e = live

/-- A list of such effects. -/
theorem sparesLive_passive {live : Finset ℕ} {es : List Effect} (h : ∀ e ∈ es, Passive live e) :
  SparesLive true live es ∧ liveAfter true live es = live
  := by
  induction es with
  | nil => exact ⟨trivial, rfl⟩
  | cons e es ih =>
    obtain ⟨hspares, hsame⟩ := h e (List.mem_cons_self ..)
    obtain ⟨hrest, hlive⟩ := ih fun e' he' => h e' (List.mem_cons_of_mem e he')
    refine ⟨⟨hspares, ?_⟩, ?_⟩
    · rw [hsame]
      exact hrest
    · rw [liveAfter, List.foldl_cons, hsame]
      exact hlive

/-! ### Calls -/

/-- A call that began with the live queues `L` has spared them; only the Rx queues of which `b`
holds may be live, and none is once the device has been found removed. -/
structure Quiet (L : Finset ℕ) (n : ℕ) (b : ℕ → Prop) (c : Call) : Prop where
  /-- Nothing has been freed under a live queue. -/
  spares : SparesLive true L c.effects
  /-- The live queues. -/
  live : ∀ q ∈ liveAfter true L c.effects, b q
  /-- The device has been found removed. -/
  gone : c.adapter.hwAddr = false → liveAfter true L c.effects = ∅
  /-- The number of Rx queues. -/
  queues : c.adapter.numRxQueues = n

namespace Quiet

variable {L : Finset ℕ} {n : ℕ} {b b' : ℕ → Prop} {c c' : Call}

/-- Fewer queues are live. -/
theorem mono (h : Quiet L n b c) (hb : ∀ q, b q → b' q) :
  Quiet L n b' c
  := ⟨h.spares, fun q hq => hb q (h.live q hq), h.gone, h.queues⟩

/-- The effects stay the same. -/
theorem same (h : Quiet L n b c) (heffects : c'.effects = c.effects)
    (hhw : c'.adapter.hwAddr = c.adapter.hwAddr)
    (hnum : c'.adapter.numRxQueues = c.adapter.numRxQueues) :
  Quiet L n b c'
  := by
  constructor
  · rw [heffects]
    exact h.spares
  · rw [heffects]
    exact h.live
  · rw [heffects, hhw]
    exact h.gone
  · rw [hnum]
    exact h.queues

/-- A ring that transmits changes. -/
theorem setTx {kind : TxKind} {i : ℕ} {r : TxRing} (h : Quiet L n b c) :
  Quiet L n b (c.setTx kind i r)
  := h.same rfl rfl rfl

/-- An Rx ring changes. -/
theorem setRx {i : ℕ} {r : RxRing} (h : Quiet L n b c) :
  Quiet L n b (c.setRx i r)
  := h.same rfl rfl rfl

/-- Effects that start and stop nothing. -/
theorem emit {es : List Effect} (h : Quiet L n b c)
    (hes : ∀ e ∈ es, Passive (liveAfter true L c.effects) e) :
  Quiet L n b (c.emit es)
  := by
  obtain ⟨hspares, hsame⟩ := sparesLive_passive hes
  have hlive : liveAfter true L (c.emit es).effects = liveAfter true L c.effects := by
    rw [Call.emit, liveAfter, List.foldl_append]
    exact hsame
  constructor
  · exact TransSystem.allAlong_append.mpr ⟨h.spares, hspares⟩
  · rw [hlive]
    exact h.live
  · rw [hlive]
    exact h.gone
  · exact h.queues

/-- A queue that may not be live is not. -/
theorem not_live {q : ℕ} (h : Quiet L n b c) (hq : ¬ b q) :
  q ∉ liveAfter true L c.effects
  := fun hlive => hq (h.live q hlive)

/-! ### The registers -/

/-- A register is read, which may find the device removed. -/
theorem readReg (h : Quiet L n b c) :
  Quiet L n b c.readReg.1
  := by
  rw [Call.readReg]
  split
  · split
    · exact h
    · have hlive : liveAfter true L (c.effects ++ [.removed]) = ∅ := List.foldl_append
      refine ⟨?_, fun q hq => ?_, fun _ => hlive, h.queues⟩
      · exact TransSystem.allAlong_append.mpr ⟨h.spares, trivial, trivial⟩
      · have hq' : q ∈ liveAfter true L (c.effects ++ [.removed]) := hq
        rw [hlive] at hq'
        exact absurd hq' (Finset.notMem_empty q)
  · exact h

/-- A register is written: the write reaches the device, or the device has been found removed. -/
theorem writeReg {e : Effect} (h : Quiet L n b c)
    (hspares : ∀ live, Spares live e)
    (hlive : ∀ q ∈ liveNext true (liveAfter true L c.effects) e, b' q) :
  Quiet L n b' (c.writeReg e)
  := by
  have hsnoc (e : Effect) : liveAfter true L (c.effects ++ [e])
      = liveNext true (liveAfter true L c.effects) e := by
    rw [liveAfter, List.foldl_append]
    rfl
  rw [Call.writeReg, Call.readReg]
  cases hhw : c.adapter.hwAddr with
  | false =>
    -- nothing is live any more
    refine ⟨h.spares, fun q hq => ?_, h.gone, h.queues⟩
    have hq' : q ∈ liveAfter true L c.effects := hq
    rw [h.gone hhw] at hq'
    exact absurd hq' (Finset.notMem_empty q)
  | true =>
    cases c.adapter.answers with
    | false =>
      refine ⟨?_, fun q hq => ?_, fun _ => hsnoc .removed, h.queues⟩
      · exact TransSystem.allAlong_append.mpr ⟨h.spares, trivial, trivial⟩
      · have hq' : q ∈ liveAfter true L (c.effects ++ [.removed]) := hq
        rw [hsnoc] at hq'
        exact absurd hq' (Finset.notMem_empty q)
    | true =>
      refine ⟨?_, fun q hq => ?_, fun hno => ?_, h.queues⟩
      · exact TransSystem.allAlong_append.mpr ⟨h.spares, hspares _, trivial⟩
      · have hq' : q ∈ liveAfter true L (c.effects ++ [e]) := hq
        rw [hsnoc] at hq'
        exact hlive q hq'
      · have hno' : c.adapter.hwAddr = false := hno
        rw [hhw] at hno'
        cases hno'

/-- `ixgbevf_disable_rx_queue`. -/
theorem disable {i : ℕ} (h : Quiet L n b c) :
  Quiet L n (fun q => b q ∧ q ≠ i) (c.disableRxQueue i)
  := by
  apply h.writeReg (e := .disable i) fun _ => trivial
  intro q hq
  obtain ⟨hne, hq⟩ := Finset.mem_erase.mp hq
  exact ⟨h.live q hq, hne⟩

/-- `ixgbevf_reset`. -/
theorem reset {resets : Bool} (h : Quiet L n b c) :
  Quiet L n b (c.reset resets)
  := by
  have hstop : Quiet L n b { c with adapter := { c.adapter with adapterStopped := true } } :=
    h.same rfl rfl rfl
  have hwrite : Quiet L n b (Call.writeReg .reset
      { c with adapter := { c.adapter with adapterStopped := true } }) :=
    hstop.writeReg (fun _ => trivial) fun q hq => absurd hq (Finset.notMem_empty q)
  rw [Call.reset]
  split
  · exact h
  · simp only
    split
    · exact hwrite.same rfl rfl rfl
    · exact hwrite

/-! ### The rings that transmit -/

/-- `ixgbevf_clean_tx_ring`. -/
theorem cleanTx {kind : TxKind} {i : ℕ} (h : Quiet L n b c)
    (hc : c.cleanTxRing kind i = some c') :
  Quiet L n b c'
  := by
  rw [Call.cleanTxRing] at hc
  split at hc
  · cases hc
    exact h.setTx
  · cases hc

/-- `ixgbevf_free_tx_resources`. -/
theorem freeTx {kind : TxKind} {i : ℕ} (h : Quiet L n b c)
    (hc : c.freeTxResources kind i = some c') :
  Quiet L n b c'
  := by
  obtain ⟨c₁, h₁, rfl⟩ := Option.map_eq_some_iff.mp hc
  have hq := h.cleanTx h₁
  apply hq.setTx.emit
  intro e he
  obtain he | he := List.mem_append.mp he
  all_goals
    split at he
    · rw [List.mem_singleton.mp he]
      exact ⟨trivial, rfl⟩
    · cases he

/-- `ixgbevf_setup_tx_resources`. -/
theorem setupTx {o : Queues.TxSetup} {kind : TxKind} {i : ℕ} (h : Quiet L n b c) :
  Quiet L n b (c.setupTxResources o kind i).1
  := by
  cases o with
  | ok =>
    apply h.setTx.emit
    simp [Passive, Spares, liveNext]
  | bufferInfoFails => exact h.setTx
  | descFails =>
    apply h.setTx.emit
    simp [Passive, Spares, liveNext]

/-- `ixgbevf_setup_all_tx_resources`. -/
theorem setupAllTx {txSetup : TxKind → ℕ → Queues.TxSetup} {ok : Bool} (h : Quiet L n b c)
    (hc : c.setupAllTxResources txSetup = some (c', ok)) :
  Quiet L n b c'
  := by
  have htry {c : Call} (kind : TxKind) (m : ℕ) (h : Quiet L n b c) : Quiet L n b
      (tryFrom (fun i => Call.setupTxResources (txSetup kind i) kind i) m 0 c).1 :=
    tryFrom_keeps (I := Quiet L n b) h fun _ _ _ hc => hc.setupTx
  have hdown {c c' : Call} {kind : TxKind} {m : ℕ} (h : Quiet L n b c)
      (hc : downFrom (Call.freeTxResources kind) m c = some c') : Quiet L n b c' :=
    downFrom_keeps hc h fun _ _ _ _ hfree hs => hs.freeTx hfree
  rw [Call.setupAllTxResources] at hc
  split at hc
  next c₁ i h₁ =>
    obtain ⟨c₂, h₂, heq⟩ := Option.map_eq_some_iff.mp hc
    cases heq
    have hq := htry .tx (c.adapter.numTxQueues .tx) h
    rw [h₁] at hq
    exact hdown hq h₂
  next c₁ h₁ =>
    have hq := htry .tx (c.adapter.numTxQueues .tx) h
    rw [h₁] at hq
    have hq₂ := htry .xdp (c₁.adapter.numTxQueues .xdp) hq
    split at hc
    next c₂ j h₂ =>
      obtain ⟨c₄, h₄, heq⟩ := Option.map_eq_some_iff.mp hc
      obtain ⟨c₃, h₃, h₄⟩ := Option.bind_eq_some_iff.mp h₄
      cases heq
      rw [h₂] at hq₂
      exact hdown (hdown hq₂ h₃) h₄
    next c₂ h₂ =>
      cases hc
      rw [h₂] at hq₂
      exact hq₂

/-- `ixgbevf_free_all_tx_resources`. -/
theorem freeAllTx (h : Quiet L n b c) (hc : c.freeAllTxResources = some c') :
  Quiet L n b c'
  := by
  have hrings {c c' : Call} {kind : TxKind} (h : Quiet L n b c)
      (hc : c.freeTxRings kind = some c') : Quiet L n b c' := by
    apply upFrom_keeps (I := Quiet L n b) hc h
    intro j _ c c' hbody hs
    split at hbody
    · exact hs.freeTx hbody
    · cases hbody
      exact hs
  obtain ⟨c₁, h₁, h₂⟩ := Option.bind_eq_some_iff.mp hc
  exact hrings (hrings h h₁) h₂

/-! ### The Rx rings -/

/-- `ixgbevf_clean_rx_ring` of a queue that is not live. -/
theorem cleanRx {i : ℕ} (h : Quiet L n b c) (hi : ¬ b i) (hc : c.cleanRxRing i = some c') :
  Quiet L n b c'
  := by
  obtain ⟨queue, -, rfl⟩ := Option.map_eq_some_iff.mp hc
  apply h.setRx.emit
  intro e he
  split at he
  · cases he
  · rw [List.mem_singleton.mp he]
    exact ⟨h.not_live hi, rfl⟩

/-- `ixgbevf_free_rx_resources` of a queue that is not live. -/
theorem freeRx {i : ℕ} (h : Quiet L n b c) (hi : ¬ b i) (hc : c.freeRxResources i = some c') :
  Quiet L n b c'
  := by
  obtain ⟨c₁, h₁, rfl⟩ := Option.map_eq_some_iff.mp hc
  have hq := h.cleanRx hi h₁
  apply hq.setRx.emit
  intro e he
  obtain he | he := List.mem_append.mp he
  · obtain he | he := List.mem_append.mp he
    all_goals
      split at he
      · rw [List.mem_singleton.mp he]
        exact ⟨trivial, rfl⟩
      · cases he
  · split at he
    · rw [List.mem_singleton.mp he]
      exact ⟨hq.not_live hi, rfl⟩
    · cases he

/-- `ixgbevf_setup_rx_resources`. -/
theorem setupRx {o : Queues.RxSetup} {i : ℕ} (h : Quiet L n b c) :
  Quiet L n b (c.setupRxResources o i).1
  := by
  cases o with
  | ok =>
    apply h.setRx.emit
    simp [Passive, Spares, liveNext]
  | bufferInfoFails => exact h.setRx
  | descFails =>
    apply h.setRx.emit
    simp [Passive, Spares, liveNext]
  | rxqRegFails =>
    apply h.setRx.emit
    simp [Passive, Spares, liveNext]

/-- `ixgbevf_setup_all_rx_resources`. -/
theorem setupAllRx {rxSetup : ℕ → Queues.RxSetup} {ok : Bool} (h : Quiet L n (fun _ => False) c)
    (hc : c.setupAllRxResources rxSetup = some (c', ok)) :
  Quiet L n (fun _ => False) c'
  := by
  have htry : Quiet L n (fun _ => False)
      (tryFrom (fun i => Call.setupRxResources (rxSetup i) i) c.adapter.numRxQueues 0 c).1 :=
    tryFrom_keeps (I := Quiet L n fun _ => False) h fun _ _ _ hc => hc.setupRx
  rw [Call.setupAllRxResources] at hc
  split at hc
  next c₁ i h₁ =>
    obtain ⟨c₂, h₂, heq⟩ := Option.map_eq_some_iff.mp hc
    cases heq
    rw [h₁] at htry
    exact downFrom_keeps h₂ htry fun _ _ _ _ hfree hs => hs.freeRx (fun hf => hf) hfree
  next c₁ h₁ =>
    cases hc
    rw [h₁] at htry
    exact htry

/-- `ixgbevf_free_all_rx_resources`. -/
theorem freeAllRx (h : Quiet L n (fun _ => False) c) (hc : c.freeAllRxResources = some c') :
  Quiet L n (fun _ => False) c'
  := by
  apply upFrom_keeps (I := Quiet L n fun _ => False) hc h
  intro j _ c c' hbody hs
  split at hbody
  · exact hs.freeRx (fun hf => hf) hbody
  · cases hbody
    exact hs

/-! ### The interrupts -/

/-- `ixgbevf_free_irq`. -/
theorem freeIrq (h : Quiet L n b c) (hc : c.freeIrq = some c') :
  Quiet L n b c'
  := by
  have hgive {c : Call} (vector : ℕ) (h : Quiet L n b c) :
      Quiet L n b (c.emit [.use (.give (.irq vector))]) := by
    apply h.emit
    simp [Passive, Spares, liveNext]
  rw [Call.freeIrq] at hc
  split at hc
  · cases hc
    exact h
  · obtain ⟨c₁, h₁, rfl⟩ := Option.map_eq_some_iff.mp hc
    apply hgive
    have h₀ : Quiet L n b { c with adapter := { c.adapter with irqsReady := false } } :=
      h.same rfl rfl rfl
    apply upFrom_keeps (I := Quiet L n b) h₁ h₀
    intro j _ c c' hbody hs
    cases hbody
    split
    · exact hgive j hs
    · exact hs

/-- `ixgbevf_request_irq` where no interrupt is refused. -/
theorem requestIrq {fails : ℕ → Bool} {ok : Bool} (h : Quiet L n b c)
    (hfails : ∀ v, fails v = false) (hc : c.requestIrq fails = some (c', ok)) :
  ok = true ∧ Quiet L n b c'
  := by
  have hvector (v : ℕ) (c : Call) :
      c.requestVector fails v = (c.emit [.use (.take (.irq v))], true) := by
    rw [Call.requestVector, hfails v]
    rfl
  have htake {c : Call} (vector : ℕ) (h : Quiet L n b c) :
      Quiet L n b (c.emit [.use (.take (.irq vector))]) := by
    apply h.emit
    simp [Passive, Spares, liveNext]
  have hloop := tryFrom_cases (n := c.adapter.numQVectors) (i := 0) (s := c)
    (f := fun vector c =>
      if c.adapter.serves vector then c.requestVector fails vector else (c, true))
    (I := fun _ c => Quiet L n b c) h (by
      rintro v - c - hs -
      split
      · rw [hvector]
        exact htake v hs
      · exact hs)
  rw [Call.requestIrq] at hc
  split at hc
  · cases hc
  rw [Call.requestQueueIrqs] at hc
  obtain ⟨c₁, heq, h₁⟩ | ⟨v, c₁, -, -, -, hno, -⟩ := hloop
  · rw [heq] at hc
    simp only [hvector] at hc
    cases hc
    exact ⟨rfl, (htake _ h₁).same rfl rfl rfl⟩
  · split at hno
    · rw [hvector] at hno
      cases hno
    · cases hno

/-! ### Up and down -/

/-- `ixgbevf_configure`. -/
theorem configure {K : KernelConfig} {env : ConfigEnv} (h : Quiet L n (fun _ => False) c)
    (hc : c.configure K env = some c') :
  Quiet L n (· < n) c'
  := by
  have htx {c c' : Call} {kind : TxKind} {m : ℕ} (h : Quiet L n (fun _ => False) c)
      (hc : upFrom (Call.configureTxRing kind) m 0 c = some c') :
      Quiet L n (fun _ => False) c' := by
    apply upFrom_keeps (I := Quiet L n fun _ => False) hc h
    intro j _ c c' hbody hs
    rw [Call.configureTxRing] at hbody
    split at hbody
    · cases hbody
      exact hs.setTx
    · cases hbody
  obtain ⟨c₁, h₁, hc⟩ := Option.bind_eq_some_iff.mp hc
  obtain ⟨c₂, h₂, h₃⟩ := Option.bind_eq_some_iff.mp hc
  have hq₂ := htx (htx h h₁) h₂
  have hhash : Quiet L n (fun _ => False) (c₂.writeReg .hash) :=
    hq₂.writeReg (fun _ => trivial) fun q hq => hq₂.live q hq
  have hrx := upFrom_result (I := fun j c => Quiet L n (· < j) c) h₃
    (hhash.mono fun _ hf => hf.elim) (by
      rintro j - c c' hbody hs
      rw [Call.configureRxRing] at hbody
      split at hbody
      · cases hbody
        have henable : Quiet L n (· < j + 1) ((c.disableRxQueue j).writeReg (.enable j)) := by
          apply hs.disable.writeReg (e := .enable j) fun _ => trivial
          intro q hq
          obtain rfl | hq := Finset.mem_insert.mp hq
          · exact Nat.lt_succ_self q
          · exact Nat.lt_succ_of_lt (hs.disable.live q hq).1
        exact henable.setRx
      · cases hbody)
  rw [Nat.zero_add, hhash.queues] at hrx
  exact hrx

/-- `ixgbevf_up`. -/
theorem up {K : KernelConfig} {env : ConfigEnv} (h : Quiet L n (fun _ => False) c)
    (hc : c.up K env = some c') :
  Quiet L n (fun q => c'.adapter.down = false ∧ q < n) c'
  := by
  obtain ⟨c₁, h₁, rfl⟩ := Option.map_eq_some_iff.mp hc
  have hup : Quiet L n (· < n) c₁.upComplete := (h.configure h₁).same rfl rfl rfl
  exact hup.mono fun q hq => ⟨rfl, hq⟩

/-- `ixgbevf_clean_all_tx_rings` and `ixgbevf_clean_all_rx_rings`. -/
theorem cleanAllRings (h : Quiet L n (fun _ => False) c) (hc : c.cleanAllRings = some c') :
  Quiet L n (fun _ => False) c'
  := by
  have htx {c c' : Call} {kind : TxKind} {m : ℕ} (h : Quiet L n (fun _ => False) c)
      (hc : upFrom (Call.cleanTxRing kind) m 0 c = some c') : Quiet L n (fun _ => False) c' :=
    upFrom_keeps (I := Quiet L n fun _ => False) hc h fun _ _ _ _ hclean hs => hs.cleanTx hclean
  obtain ⟨c₁, h₁, hc⟩ := Option.bind_eq_some_iff.mp hc
  obtain ⟨c₂, h₂, h₃⟩ := Option.bind_eq_some_iff.mp hc
  exact upFrom_keeps (I := Quiet L n fun _ => False) h₃ (htx (htx h h₁) h₂)
    fun _ _ _ _ hclean hs => hs.cleanRx (fun hf => hf) hclean

/-- `ixgbevf_down` disables every queue before it cleans the rings. -/
theorem ixgbevfDown {resets : Bool} (h : Quiet L n (fun q => c.adapter.down = false ∧ q < n) c)
    (hc : c.ixgbevfDown resets = some c') :
  Quiet L n (fun _ => False) c'
  := by
  rw [Call.ixgbevfDown] at hc
  split at hc
  next hdown =>
    cases hc
    apply h.mono
    rintro q ⟨hup, -⟩
    exact absurd (hup.symm.trans hdown) Bool.false_ne_true
  · have h₀ : Quiet L n (fun q => 0 ≤ q ∧ q < n)
        { c with adapter := { c.adapter with down := true } } := by
      have hq : Quiet L n (fun q => c.adapter.down = false ∧ q < n)
          { c with adapter := { c.adapter with down := true } } := h.same rfl rfl rfl
      exact hq.mono fun q hq => ⟨Nat.zero_le q, hq.2⟩
    obtain ⟨c₁, h₁, hc⟩ := Option.bind_eq_some_iff.mp hc
    have hdisabled := upFrom_result (I := fun j c => Quiet L n (fun q => j ≤ q ∧ q < n) c) h₁ h₀ (by
      rintro j - c c' hbody hs
      cases hbody
      apply hs.disable.mono
      rintro q ⟨⟨hle, hlt⟩, hne⟩
      omega)
    have h₂ : Quiet L n (fun _ => False) c₁ := by
      apply hdisabled.mono
      rintro q ⟨hle, hlt⟩
      have hnum : c.adapter.numRxQueues = n := h.queues
      simp only at hle
      omega
    split at hc
    · cases hc
    · apply cleanAllRings _ hc
      split
      · exact h₂
      · exact h₂.reset

/-! ### Every event -/

/-- `ixgbevf_open` where it does not fail after it has configured the rings. -/
theorem ixgbevfOpen {K : KernelConfig} {env : OpenEnv} {ok : Bool}
    (h : Quiet L n (fun _ => False) c) (hirq : ∀ v, env.irqFails v = false)
    (htx : env.setTxQueuesFails = false) (hrx : env.setRxQueuesFails = false)
    (hc : c.ixgbevfOpen K env = some (c', ok)) :
  Quiet L n (fun q => c'.adapter.down = false ∧ q < n) c'
  := by
  have hnone {c : Call} (h : Quiet L n (fun _ => False) c) :
      Quiet L n (fun q => c.adapter.down = false ∧ q < n) c := h.mono fun _ hf => hf.elim
  rw [Call.ixgbevfOpen] at hc
  split at hc
  · cases hc
    exact hnone h
  obtain ⟨c₀, hc₀⟩ : ∃ c₀, c₀ = (if c.adapter.adapterStopped then c.reset env.restarts else c) :=
    ⟨_, rfl⟩
  have h₀ : Quiet L n (fun _ => False) c₀ := by
    rw [hc₀]
    split
    · exact h.reset
    · exact h
  simp only [← hc₀] at hc
  split at hc
  · cases hc
    exact hnone h₀
  obtain ⟨⟨c₁, ok₁⟩, h₁, hc⟩ := Option.bind_eq_some_iff.mp hc
  have hq₁ := h₀.setupAllTx h₁
  cases ok₁ with
  | false =>
    cases hc
    exact hnone hq₁.reset
  | true =>
    obtain ⟨⟨c₂, ok₂⟩, h₂, hc⟩ := Option.bind_eq_some_iff.mp hc
    have hq₂ := hq₁.setupAllRx h₂
    cases ok₂ with
    | false =>
      obtain ⟨c₃, h₃, heq⟩ := Option.bind_eq_some_iff.mp hc
      cases heq
      exact hnone (hq₂.freeAllTx h₃).reset
    | true =>
      obtain ⟨c₃, h₃, hc⟩ := Option.bind_eq_some_iff.mp hc
      obtain ⟨⟨c₄, ok₄⟩, h₄, hc⟩ := Option.bind_eq_some_iff.mp hc
      obtain ⟨rfl, hq₄⟩ := (hq₂.configure h₃).requestIrq hirq h₄
      rw [htx, hrx] at hc
      cases hc
      have hup : Quiet L n (· < n) c₄.upComplete := hq₄.same rfl rfl rfl
      exact hup.mono fun q hq => ⟨rfl, hq⟩

/-- `ixgbevf_close_suspend`. -/
theorem closeSuspend {resets : Bool} (h : Quiet L n (fun q => c.adapter.down = false ∧ q < n) c)
    (hc : c.closeSuspend resets = some c') :
  Quiet L n (fun _ => False) c'
  := by
  obtain ⟨c₁, h₁, hc⟩ := Option.bind_eq_some_iff.mp hc
  obtain ⟨c₂, h₂, hc⟩ := Option.bind_eq_some_iff.mp hc
  obtain ⟨c₃, h₃, h₄⟩ := Option.bind_eq_some_iff.mp hc
  exact (((h.ixgbevfDown h₁).freeIrq h₂).freeAllTx h₃).freeAllRx h₄

/-- `ixgbevf_set_ringparam`. -/
theorem setRingparam {K : KernelConfig} {tx rx resets : Bool} {count : ℕ} {env : ConfigEnv}
    (h : Quiet L n (fun q => c.adapter.down = false ∧ q < n) c)
    (hc : c.setRingparam K tx rx count resets env = some c') :
  Quiet L n (fun q => c'.adapter.down = false ∧ q < n) c'
  := by
  have htx {c c' : Call} {clone : TxKind → ℕ → TxRing} {kind : TxKind}
      (h : Quiet L n (fun _ => False) c) (hc : c.swapTxRings tx clone kind = some c') :
      Quiet L n (fun _ => False) c' := by
    rw [Call.swapTxRings] at hc
    split at hc
    · apply upFrom_keeps (I := Quiet L n fun _ => False) hc h
      intro j _ c c' hbody hs
      obtain ⟨c₁, h₁, rfl⟩ := Option.map_eq_some_iff.mp hbody
      exact (hs.freeTx h₁).setTx
    · cases hc
      exact h
  obtain ⟨c₁, h₁, hc⟩ := Option.bind_eq_some_iff.mp hc
  obtain ⟨c₂, h₂, hc⟩ := Option.bind_eq_some_iff.mp hc
  obtain ⟨c₃, h₃, hc⟩ := Option.bind_eq_some_iff.mp hc
  obtain ⟨c₄, h₄, h₅⟩ := Option.bind_eq_some_iff.mp hc
  have hq₃ := htx (htx (h.ixgbevfDown h₁) h₂) h₃
  suffices hq₄ : Quiet L n (fun _ => False) c₄ from hq₄.up h₅
  rw [Call.swapRxRings] at h₄
  split at h₄
  · apply upFrom_keeps (I := Quiet L n fun _ => False) h₄ hq₃
    intro j _ c c' hbody hs
    obtain ⟨c₁, h₁, rfl⟩ := Option.map_eq_some_iff.mp hbody
    exact (hs.freeRx (fun hf => hf) h₁).setRx
  · cases h₄
    exact hq₃

end Quiet

/-! ### Every run -/

/-- A call has spared the queues `L`, and at its end the live queues are queues of an interface
that is up. -/
def Calm (L : Finset ℕ) (c : Call) : Prop :=
  Quiet L c.adapter.numRxQueues
    (fun q => c.adapter.down = false ∧ q < c.adapter.numRxQueues) c

section Events

variable {K : KernelConfig} {L : Finset ℕ} {n : ℕ} {c : Call}

/-- The number of Rx queues stays the same. -/
theorem Quiet.calm (h : Quiet L n (fun q => c.adapter.down = false ∧ q < n) c) :
  Calm L c
  := by
  rw [Calm, h.queues]
  exact h

/-- No queue is live. -/
theorem Quiet.calm_none (h : Quiet L n (fun _ => False) c) :
  Calm L c
  := by
  have hnone : Quiet L n (fun q => c.adapter.down = false ∧ q < n) c := h.mono fun _ hf => hf.elim
  exact hnone.calm

/-- A call on an interface that is down begins with no live queue. -/
theorem Calm.none (h : Calm L c) (hdown : c.adapter.down = true) :
  Quiet L c.adapter.numRxQueues (fun _ => False) c
  := by
  apply h.mono
  rintro q ⟨hup, -⟩
  exact Bool.false_ne_true (hup.symm.trans hdown)

/-- `ixgbevf_open` does not fail after it has configured the rings. -/
def OpensThrough (_ : Call) : Event → Prop
  | .devOpen env => (∀ v, env.irqFails v = false) ∧ env.setTxQueuesFails = false
    ∧ env.setRxQueuesFails = false
  | _ => True

/-- Every event spares the live queues. -/
theorem Calm.apply {a : Adapter} {s : Call} {e : Event} (h : Calm L { adapter := a, effects := [] })
    (hG : OpensThrough s e) (hen : Enabled a e)
    (hc : apply K { adapter := a, effects := [] } e = some c) :
  Calm L c
  := by
  cases e with
  | devOpen env =>
    obtain ⟨⟨c', ok⟩, hopen, rfl⟩ := Option.map_eq_some_iff.mp hc
    obtain ⟨hirq, htx, hrx⟩ := hG
    exact ((h.none hen).ixgbevfOpen hirq htx hrx hopen).calm
  | close resets => exact (Quiet.closeSuspend h hc).calm_none
  | reinit resets env =>
    obtain ⟨c₁, h₁, h₂⟩ := Option.bind_eq_some_iff.mp hc
    exact ((Quiet.ixgbevfDown h h₁).up h₂).calm
  | setRingparam tx rx count resets env => exact (Quiet.setRingparam h hc).calm
  | scheme q count =>
    cases hc
    have hnone := h.none hen.1
    exact ⟨hnone.spares, fun q hq => (hnone.live q hq).elim, hnone.gone, rfl⟩
  | removed resets => exact (Quiet.ixgbevfDown h hc).calm_none
  | reset resets =>
    cases hc
    exact (h.none hen).reset.calm_none
  | read =>
    cases hc
    obtain ⟨_, hsame⟩ := readReg_adapter ⟨a, []⟩
    apply Quiet.calm (n := a.numRxQueues)
    rw [hsame]
    exact h.readReg
  | answer answers =>
    cases hc
    exact h.same rfl rfl rfl
  | channel offline =>
    cases hc
    exact h.same rfl rfl rfl
  | remap =>
    cases hc
    have hnone := h.none hen
    exact ⟨hnone.spares, fun q hq => (hnone.live q hq).elim, (fun hno => nomatch hno), rfl⟩
  | remove =>
    cases hc
    exact h.same rfl rfl rfl
  | test testing =>
    cases hc
    exact h.same rfl rfl rfl
  | receive i e =>
    obtain ⟨queue, -, rfl⟩ := Option.map_eq_some_iff.mp hc
    exact h.setRx
  | transmit kind i nextToUse nextToClean =>
    cases hc
    exact h.setTx

/-- The effects of a run and of a call that begins at its end. -/
theorem Calm.append {s : Call} (h : Calm ∅ s) (hc : Calm (liveAfter true ∅ s.effects) c) :
  Calm ∅ { adapter := c.adapter, effects := s.effects ++ c.effects }
  := by
  have hlive : liveAfter true ∅ (s.effects ++ c.effects)
      = liveAfter true (liveAfter true ∅ s.effects) c.effects := List.foldl_append
  constructor
  · exact TransSystem.allAlong_append.mpr ⟨h.spares, hc.spares⟩
  · rw [hlive]
    exact hc.live
  · rw [hlive]
    exact hc.gone
  · rfl

end Events

/-! ### Pages under a live queue -/

/-- The interface after an event. -/
def after (K : KernelConfig) (s : Call) (e : Event) : Call :=
  match apply K { adapter := s.adapter, effects := [] } e with
  | some c => { adapter := c.adapter, effects := s.effects ++ c.effects }
  | none => s

/-- An event that can happen and has a result takes the interface to the one after it. -/
theorem step_after {K : KernelConfig} {s : Call} {e : Event} (hen : Enabled s.adapter e)
    (hsome : (apply K { adapter := s.adapter, effects := [] } e).isSome = true) :
  (system K).step s e (after K s e)
  := by
  obtain ⟨c, hc⟩ := Option.isSome_iff_exists.mp hsome
  refine ⟨hen, c, hc, ?_⟩
  rw [after, hc]

/-- The interface is opened. -/
def opened : Call := after Rx.cacheLine64 probed (.devOpen (answering fun _ => .ok))

/-- An interface that is opened is reachable. -/
theorem opened_reachable {G : Call → Event → Prop}
    (hG : G probed (.devOpen (answering fun _ => .ok))) :
  (system Rx.cacheLine64).Reachable G opened
  := (probed_reachable _ G).step hG (step_after rfl (by decide +kernel))

end Ixgbevf.Interface
