import Ixgbevf.Tx.Rollback

/-!
# The threshold that stops a queue

After a packet is put on the ring, the queue goes on only while `DESC_NEEDED` descriptors are
unused, so that the next packet finds room.  `neverBusy_iff` says for which packets they are
enough: a packet of the largest length may be spread over its fragments in such a way that it
takes more.
-/

namespace Ixgbevf.Tx

open Cyclic

/-- The data descriptors that `ixgbevf_xmit_frame_ring` counts for a packet. -/
def Skb.useCount (skb : Skb) : ℕ := txdUseCount skb.headlen + (skb.frags.map txdUseCount).sum

/-! ### Packets that are mapped -/

/-- A mapping loop in which no mapping fails takes all the descriptors of its buffers. -/
theorem mapBuffers_done {map : ℕ → Option (BitVec 64)} (cmdType : BitVec 32) {frags : List ℕ}
    {first b k m : ℕ} {s : MapState} (hmap : ∀ j, map j ≠ none) (hfrags : ∀ frag ∈ frags, 0 < frag)
    (hfirst : first < s.ring.count) (hi : s.i = ahead s.ring.count first m)
    (hfit : m + (descsOf s.size + (frags.map descsOf).sum) ≤ s.ring.count) :
  ∃ s', mapBuffers map cmdType frags k b s = .done s' ∧ s'.ring.count = s.ring.count
    ∧ s'.i = ahead s.ring.count first (m + (descsOf s.size + (frags.map descsOf).sum - 1))
  := by
  have hpos : 1 ≤ descsOf s.size := Nat.le_max_left _ _
  obtain ⟨dma, hdma⟩ := Option.ne_none_iff_exists'.mp (hmap k)
  induction frags generalizing k b m s dma with
  | nil =>
    rw [List.map_nil, List.sum_nil, Nat.add_zero] at hfit ⊢
    have hlt : s.i < s.ring.count := by
      rw [hi]
      exact ahead_lt hfirst (by omega)
    have hadv := mapBuffer_advance cmdType dma b hlt (by omega)
    rw [mapBuffers]
    simp only [hdma]
    refine ⟨_, rfl, hadv.same.count, ?_⟩
    rw [hadv.i, hi, ahead_ahead hfirst (by omega)]
  | cons frag frags ih =>
    rw [List.map_cons, List.sum_cons] at hfit ⊢
    have hfrag := hfrags frag List.mem_cons_self
    have hsum : (frag :: frags).sum ≠ 0 := by
      rw [List.sum_cons]
      omega
    have hdescs : 1 ≤ descsOf frag := Nat.le_max_left _ _
    obtain ⟨s₁, hstep, hi₁, hsize₁, hcount₁, -⟩ :=
      mapBuffers_step (b := b) cmdType hdma hsum hfirst hi (by omega)
    obtain ⟨dma', hdma'⟩ := Option.ne_none_iff_exists'.mp (hmap (k + 1))
    obtain ⟨s', heq, hcount, hlast⟩ := ih (k := k + 1) (b := s₁.i) (m := m + descsOf s.size)
      (s := s₁) (fun frag h => hfrags frag (List.mem_cons_of_mem _ h)) (by rwa [hcount₁])
      (by rwa [hcount₁]) (by rw [hsize₁, hcount₁]; omega) (by rwa [hsize₁]) dma' hdma'
    refine ⟨s', hstep.trans heq, hcount.trans hcount₁, ?_⟩
    rw [hlast, hcount₁, hsize₁]
    congr 1
    omega

/-- A packet whose mappings succeed takes the slots of its descriptors. -/
theorem txMap_done {map : ℕ → Option (BitVec 64)} {r : TxRing} {first : ℕ} {skb : Skb}
    (hdrLen : BitVec 8) (hmap : ∀ j, map j ≠ none) (hfrags : ∀ frag ∈ skb.frags, 0 < frag)
    (hfirst : first < r.count) (hnext : r.nextToUse = next r.count first)
    (hfit : skb.descs + 1 < r.count) :
  ∃ r' acts, txMap map r first skb hdrLen = (true, r', acts) ∧ r.Placed first (skb.descs + 1) r'
  := by
  set r₁ := r.setDesc r.nextToUse fun d => { d with
    olinfoStatus := txOlinfoStatus (r.buffer first).txFlags
      (BitVec.ofNat 32 skb.len - hdrLen.setWidth 32) } with hr₁
  have hdescs : skb.descs = descsOf skb.headlen + (skb.frags.map descsOf).sum := rfl
  have hpos : 1 ≤ descsOf skb.headlen := Nat.le_max_left _ _
  obtain ⟨s', heq, hcount, hlast⟩ := mapBuffers_done (b := first) (k := 0) (m := 1)
    (s := ⟨r₁, r.nextToUse, skb.headlen⟩) (txCmdType (r.buffer first).txFlags) hmap hfrags hfirst
    (by rw [hnext]; exact (ahead_one hfirst).symm) (by change 1 + skb.descs ≤ r.count; omega)
  rcases txMap_placed map skb hdrLen hfirst hnext hfit with
    ⟨r', acts, heq', -⟩ | ⟨r', n, heq', hn, hn', hplaced⟩
  · unfold txMap at heq'
    simp only [← hr₁, heq] at heq'
    cases heq'
  · refine ⟨r', [], heq', ?_⟩
    have huse := hplaced.nextToUse
    have : n = skb.descs + 1 := by
      unfold txMap at heq'
      simp only [← hr₁, heq] at heq'
      cases heq'
      change next s'.ring.count s'.i = _ at huse
      rw [hcount, hlast] at huse
      change next r.count (ahead r.count first (1 + (skb.descs - 1))) = _ at huse
      rw [next_ahead hfirst (by omega), ahead_inj (by omega) (by omega)] at huse
      omega
    rwa [this] at hplaced

namespace TxQueue

/-! ### The next packet -/

/-- An event that is not a call of `ixgbevf_xmit_frame`. -/
def Event.Quiet : Event → Prop
  | .xmit _ => False
  | _ => True

/-- Between two calls of `ixgbevf_xmit_frame`. -/
def between : TxQueue → Event → Prop := fun _ e => e.Quiet

/-- The queue is set up, or `ixgbevf_maybe_stop_tx` has just left it running after a packet. -/
inductive LeavesRunning (C : Config) : TxQueue → Prop where
  | start {s : TxQueue} : Init C s → LeavesRunning C s
  | after {s s' : TxQueue} {p : StopStep} {c : Call} :
      (system C).Reachable TransSystem.always s → s.xmit = .after p c →
      s.maybeStopTx C.descNeeded p = (s', .done false) → LeavesRunning C (s.xmitStep C)

/-- The previous transmission has left the queue running, and no other call was made since. -/
def LeftRunning (C : Config) (t : TxQueue) : Prop :=
  ∃ s es, LeavesRunning C s ∧ (system C).Path between s es t

/-- Where the previous transmission has left the queue running, a call does not return
`NETDEV_TX_BUSY`, whatever happens until it returns. -/
def NeverBusy (C : Config) (c : Call) : Prop :=
  ∀ t, LeftRunning C t → Enabled C t (.xmit c) →
    ∀ es s, (system C).Path between (next C t (.xmit c)) es s → s.xmit.isIdle →
      ∀ r, s.last = some r → ¬ r.busy

/-! ### Room that stays -/

/-- Cleaning makes room. -/
theorem cleanMove_unused {C : Config} {s s' : TxQueue} {a : CleanAnswer} (h : Inv C s)
    (hbase : s.base = s.ring.nextToUse) (hmove : CleanMove C s a s') :
  s.ring.descUnused ≤ s'.ring.descUnused
  := by
  obtain ⟨sent, queued, hflight⟩ := h.flight
  have hunused := TxRing.descUnused_eq (r := s.ring) hflight.clean_lt (by
    rw [← hbase]
    exact hflight.base_lt)
  cases hmove with
  | @packet i budget packets eop j r acts pc hx hwatch hdone heq hpc =>
    obtain ⟨n, sent, queued, hflight, rfl⟩ := h.head hx hwatch hdone
    obtain ⟨r', acts', heq', -, hcount, hclean, huse, -⟩ := hflight.cleaned
    rw [heq] at heq'
    cases heq'
    change s.ring.descUnused ≤ r.descUnused
    unfold TxRing.descUnused
    rw [hcount, hclean, huse]
  | @finish i budget packets hx =>
    have hfront : s.front = i := by simp [front, hx]
    have hgap := hflight.gap_base
    have hfit := hflight.tiles.fit
    have hrest := gap_ahead hflight.front_lt hfit
    rw [← hflight.base, hfront] at hrest
    rw [hbase] at hgap hrest
    have hunused' := TxRing.descUnused_eq (r := { s.ring with nextToClean := i })
      (by rw [← hfront]; exact hflight.front_lt) (by rw [← hbase]; exact hflight.base_lt)
    change s.ring.descUnused ≤ { s.ring with nextToClean := i }.descUnused
    change _ + gap s.ring.count i s.ring.nextToUse + 1 = s.ring.count at hunused'
    omega
  | _ => exact Nat.le_refl _

/-- What the others do leaves a call of `ixgbevf_xmit_frame` where it is, with no less room. -/
theorem background_step {C : Config} {s s' : TxQueue} {e : Event} (h : Inv C s) (hquiet : e.Quiet)
    (hother : e ≠ .xmitStep) (hstep : (system C).step s e s') :
  s'.xmit = s.xmit ∧ s'.last = s.last
    ∧ (s.base = s.ring.nextToUse → s.ring.descUnused ≤ s'.ring.descUnused)
  := by
  obtain ⟨hen, rfl⟩ := hstep
  cases e with
  | xmit c => exact absurd hquiet id
  | xmitStep => exact absurd rfl hother
  | clean =>
    have heq : next C s .clean
        = { s with clean := .scan s.ring.nextToClean (s.ring.count / 2) 0 } := by
      change s.cleanTxIrq = _
      rw [cleanTxIrq, if_neg (by simp [h.up])]
    rw [heq]
    exact ⟨rfl, rfl, fun _ => Nat.le_refl _⟩
  | cleanStep a =>
    by_cases hidle : s.clean = .idle
    · have heq : next C s (.cleanStep a) = s := by
        change s.cleanStep C a = s
        rw [cleanStep, hidle]
      rw [heq]
      exact ⟨rfl, rfl, fun _ => Nat.le_refl _⟩
    · have hmove := cleanStep_move (C := C) a hidle
      obtain ⟨hxmit, hlast, -⟩ := cleanMove_frame h hmove
      exact ⟨hxmit, hlast, fun hbase => cleanMove_unused h hbase hmove⟩
  | writeBack i d => exact ⟨rfl, rfl, fun _ => Nat.le_refl _⟩
  | carrier on => exact ⟨rfl, rfl, fun _ => Nat.le_refl _⟩
  | checkHang =>
    simp only [next]
    split <;> exact ⟨rfl, rfl, fun _ => Nat.le_refl _⟩

/-- The last packet is on the ring, and `DESC_NEEDED` descriptors are unused. -/
structure Roomy (C : Config) (s : TxQueue) : Prop where
  /-- The invariant. -/
  inv : Inv C s
  /-- Nothing is left to do but the doorbell. -/
  pc : s.xmit = .idle ∨ ∃ c, s.xmit = .doorbell c
  /-- The room. -/
  room : C.descNeeded ≤ s.ring.descUnused

/-- Transmission stands at `next_to_use`. -/
theorem Roomy.base {C : Config} {s : TxQueue} (h : Roomy C s) :
  s.base = s.ring.nextToUse
  := by
  apply base_eq
  rcases h.pc with hx | ⟨c, hx⟩ <;> simp [hx]

/-- A queue is about to be started again only with room. -/
def StartOk (C : Config) (s : TxQueue) : Prop :=
  ∀ c, s.xmit = .after .start c → C.descNeeded ≤ s.ring.descUnused

/-- A call of `ixgbevf_xmit_frame` comes to start the queue again when it finds room. -/
theorem xmitStep_startOk {C : Config} {s : TxQueue} (hidle : s.xmit.isIdle = false) :
  StartOk C (s.xmitStep C)
  := by
  intro c hstart
  have hmove := xmitStep_move (C := C) hidle
  cases hx : s.xmit with
  | after p c' =>
    rw [xmitStep] at hstart ⊢
    simp only [hx] at hstart ⊢
    cases p with
    | check =>
      by_cases hroom : s.ring.descUnused ≥ C.descNeeded
      · simp [maybeStopTx, hroom] at hstart
      · simp [maybeStopTx, hroom] at hstart
    | stop => simp [maybeStopTx] at hstart
    | recheck =>
      by_cases hfull : s.ring.descUnused < C.descNeeded
      · simp [maybeStopTx, hfull] at hstart
      · simp only [maybeStopTx, if_neg hfull]
        exact Nat.le_of_not_lt hfull
    | start => simp [maybeStopTx] at hstart
  | _ =>
    generalize s.xmitStep C = s' at *
    cases hmove <;> simp_all [returns]

/-- In every run a queue is started again only with room. -/
theorem reachable_startOk {C : Config} {s : TxQueue} {G : TxQueue → Event → Prop}
    (h : (system C).Reachable G s) :
  Inv C s ∧ StartOk C s
  := by
  apply h.invariant
  · intro s hs
    refine ⟨init_inv hs, fun c hx => ?_⟩
    rw [hs.xmit] at hx
    cases hx
  · rintro s e s' ⟨hinv, hstart⟩ - hstep
    refine ⟨step_inv hinv hstep, ?_⟩
    cases e with
    | xmit c =>
      obtain ⟨-, rfl⟩ := hstep
      rcases s.xmitFrame_cases c with ⟨-, heq⟩ | heq
      · simp [StartOk, next, heq, drops, returns]
      · simp [StartOk, next, heq]
    | xmitStep =>
      obtain ⟨-, rfl⟩ := hstep
      cases hidle : s.xmit.isIdle with
      | true =>
        have heq : next C s .xmitStep = s := by
          change s.xmitStep C = s
          rw [xmitStep, XmitPc.eq_idle hidle]
        rwa [heq]
      | false => exact xmitStep_startOk hidle
    | _ =>
      obtain ⟨hxmit, -, hroom⟩ := background_step hinv (by simp [Event.Quiet]) (by simp) hstep
      intro c hx
      rw [hxmit] at hx
      exact Nat.le_trans (hstart c hx) (hroom (base_eq (by simp [hx])))

/-- A queue that is left running has room. -/
theorem LeavesRunning.roomy {C : Config} {s : TxQueue} (h : LeavesRunning C s) :
  Roomy C s
  := by
  cases h with
  | start hinit =>
    refine ⟨init_inv hinit, .inl hinit.xmit, ?_⟩
    have hcount := C.count_ge
    have hfrags := C.frags_le
    unfold Config.descNeeded TxRing.descUnused
    rw [hinit.count, hinit.nextToClean, hinit.nextToUse, if_neg (Nat.lt_irrefl 0)]
    omega
  | @after s s' p c hreach hx hdone =>
    obtain ⟨hinv, hstart⟩ := reachable_startOk hreach
    have hidle : s.xmit.isIdle = false := by rw [hx]; rfl
    have hinv' := xmitMove_inv hinv (xmitStep_move (C := C) hidle)
    have heq : s.xmitStep C = { s' with xmit := .doorbell c } := by
      rw [xmitStep]
      simp only [hx, hdone]
    rw [heq] at hinv' ⊢
    refine ⟨hinv', .inr ⟨c, rfl⟩, ?_⟩
    change C.descNeeded ≤ s'.ring.descUnused
    cases p with
    | check =>
      simp only [maybeStopTx] at hdone
      split at hdone
      · cases hdone
        assumption
      · cases hdone
    | stop => cases hdone
    | recheck =>
      simp only [maybeStopTx] at hdone
      split at hdone <;> cases hdone
    | start =>
      cases hdone
      exact hstart c hx

/-- The room stays. -/
theorem step_roomy {C : Config} {s s' : TxQueue} {e : Event} (h : Roomy C s) (hquiet : e.Quiet)
    (hstep : (system C).step s e s') :
  Roomy C s'
  := by
  have hinv := step_inv h.inv hstep
  by_cases hx : e = .xmitStep
  · subst hx
    obtain ⟨-, rfl⟩ := hstep
    change Inv C (s.xmitStep C) at hinv
    change Roomy C (s.xmitStep C)
    rcases h.pc with hx | ⟨c, hx⟩
    · have heq : s.xmitStep C = s := by rw [xmitStep, hx]
      rwa [heq]
    · have hmove := xmitStep_move (C := C) (s := s) (by rw [hx]; rfl)
      generalize s.xmitStep C = s' at *
      cases hmove with
      | rung _ _ => exact ⟨hinv, .inl rfl, h.room⟩
      | quiet _ _ _ => exact ⟨hinv, .inl rfl, h.room⟩
      | _ => simp_all
  · obtain ⟨hxmit, -, hroom⟩ := background_step h.inv hquiet hx hstep
    refine ⟨hinv, ?_, Nat.le_trans h.room (hroom h.base)⟩
    rw [hxmit]
    exact h.pc

/-- Until the next call there is room. -/
theorem LeftRunning.roomy {C : Config} {t : TxQueue} (h : LeftRunning C t) :
  Roomy C t
  := by
  obtain ⟨s, es, hs, hpath⟩ := h
  apply hpath.invariant _ hs.roomy
  intro s e s' h hquiet hstep
  exact step_roomy h hquiet hstep

/-! ### The call -/

/-- A call that asks for room finds it, and none has returned `NETDEV_TX_BUSY`. -/
structure Served (C : Config) (s : TxQueue) : Prop where
  /-- The invariant. -/
  inv : Inv C s
  /-- The room that is asked for. -/
  room : ∀ p c, s.xmit = .before p c → c.skb.size ≤ s.ring.descUnused
  /-- The result. -/
  last : s.xmit.isIdle → ∀ r, s.last = some r → ¬ r.busy

/-- A call that finds room does not return `NETDEV_TX_BUSY`. -/
theorem step_served {C : Config} {s s' : TxQueue} {e : Event} (h : Served C s) (hquiet : e.Quiet)
    (hstep : (system C).step s e s') :
  Served C s'
  := by
  have hinv := step_inv h.inv hstep
  by_cases hx : e = .xmitStep
  · subst hx
    obtain ⟨-, rfl⟩ := hstep
    change Inv C (s.xmitStep C) at hinv
    change Served C (s.xmitStep C)
    cases hidle : s.xmit.isIdle with
    | true =>
      have heq : s.xmitStep C = s := by rw [xmitStep, XmitPc.eq_idle hidle]
      rwa [heq]
    | false =>
      have hmove := xmitStep_move (C := C) hidle
      generalize s.xmitStep C = s' at *
      cases hmove with
      | full hx =>
        refine ⟨hinv, fun p c hpc => ?_, by simp [XmitPc.isIdle]⟩
        cases hpc
        exact h.room _ _ hx
      | stop hx =>
        refine ⟨hinv, fun p c hpc => ?_, by simp [XmitPc.isIdle]⟩
        cases hpc
        exact h.room _ _ hx
      | busy hx hfull => exact absurd (h.room _ _ hx) (Nat.not_le_of_lt hfull)
      | reprieve hx hroom =>
        refine ⟨hinv, fun p c hpc => ?_, by simp [XmitPc.isIdle]⟩
        cases hpc
        exact hroom
      | _ => exact ⟨hinv, by simp [returns], by simp [returns, XmitPc.isIdle]⟩
  · obtain ⟨hxmit, hlast, hroom⟩ := background_step h.inv hquiet hx hstep
    refine ⟨hinv, fun p c hpc => ?_, ?_⟩
    · rw [hxmit] at hpc
      exact Nat.le_trans (h.room p c hpc) (hroom (base_eq (by simp [hpc])))
    · rw [hxmit, hlast]
      exact h.last

/-- A packet that is dropped at once, or for which `DESC_NEEDED` descriptors are enough, does not
find the queue busy. -/
theorem neverBusy_of_size {C : Config} {c : Call}
    (h : (∀ s : TxQueue, s.xmitFrame c = s.drops c) ∨ c.padded.skb.size ≤ C.descNeeded) :
  NeverBusy C c
  := by
  intro t hleft hen es s hpath hidle
  have ht := hleft.roomy
  have hinv : Inv C (next C t (.xmit c)) := step_inv ht.inv ⟨hen, rfl⟩
  have hdropped (heq : t.xmitFrame c = t.drops c) : Served C (next C t (.xmit c)) := by
    change next C t (.xmit c) = _ at heq
    rw [heq] at hinv ⊢
    exact ⟨hinv, by simp [drops, returns], by simp [drops, returns]⟩
  have hstart : Served C (next C t (.xmit c)) := by
    rcases h with hdrops | hsize
    · exact hdropped (hdrops t)
    rcases t.xmitFrame_cases c with ⟨-, heq⟩ | heq
    · exact hdropped heq
    · change next C t (.xmit c) = _ at heq
      rw [heq] at hinv ⊢
      refine ⟨hinv, fun p c' hpc => ?_, by simp [XmitPc.isIdle]⟩
      cases hpc
      exact Nat.le_trans hsize ht.room
  have hserved : Served C s := by
    apply hpath.invariant _ hstart
    intro s e s' h hquiet hstep
    exact step_served h hquiet hstep
  exact hserved.last hidle

/-! ### A ring that is filled -/

/-- Packets take the first `k` slots of the ring, and no call is made. -/
structure Loaded (C : Config) (k : ℕ) (s : TxQueue) : Prop where
  /-- The queue is in a run. -/
  reach : (system C).Reachable TransSystem.always s
  /-- No call is made. -/
  idle : s.xmit = .idle
  /-- No packet is cleaned. -/
  nextToClean : s.ring.nextToClean = 0
  /-- The packets. -/
  nextToUse : s.ring.nextToUse = k

/-- A packet without offloads that goes into two or three slots. -/
def fillCall (frags : List ℕ) : Call := plainCall (plainSkb 1 60 frags ethPIp) false

/-- A packet without offloads gets a context descriptor. -/
theorem fillCall_offload (r : TxRing) (frags : List ℕ) :
  ∃ r', xmitOffload (fillCall frags).cowFails r (fillCall frags).skb = (.ready r' 0#8, [])
    ∧ r'.count = r.count ∧ r'.nextToClean = r.nextToClean
    ∧ r'.nextToUse = Cyclic.next r.count r.nextToUse
  := ⟨_, rfl, rfl, rfl, rfl⟩

/-- A call takes a step. -/
theorem reachable_xmitStep {C : Config} {s : TxQueue}
    (h : (system C).Reachable TransSystem.always s) :
  (system C).Reachable TransSystem.always (s.xmitStep C)
  := by
  have henabled : Enabled C s .xmitStep := trivial
  exact h.step trivial ⟨henabled, rfl⟩

/-- After a packet `ixgbevf_maybe_stop_tx` finds room. -/
theorem xmitStep_room {C : Config} {s : TxQueue} {c : Call} (hx : s.xmit = .after .check c)
    (hroom : C.descNeeded ≤ s.ring.descUnused) :
  s.xmitStep C = { s with xmit := .doorbell c }
  := by
  rw [xmitStep]
  simp only [hx, maybeStopTx, if_pos hroom]

/-- The doorbell of a packet that ends a burst. -/
theorem xmitStep_doorbell {C : Config} {s : TxQueue} {c : Call} (hx : s.xmit = .doorbell c)
    (hmore : c.more = false) :
  s.xmitStep C = { s with ring := { s.ring with tail := s.ring.nextToUse } }.returns c false
  := by
  rw [xmitStep]
  simp [hx, hmore]

/-- One more packet is put on the ring, and the queue is left running. -/
theorem Loaded.send {C : Config} {k : ℕ} {s : TxQueue} (h : Loaded C k s) {frags : List ℕ}
    (hok : (fillCall frags).skb.Ok C.maxSkbFrags)
    (hsize : k + (fillCall frags).skb.size < C.count)
    (hroom : k + ((fillCall frags).skb.descs + 1) + C.descNeeded < C.count) :
  ∃ s' c, (system C).Reachable TransSystem.always s' ∧ s'.xmit = .after .check c
    ∧ s'.ring.descUnused + (k + ((fillCall frags).skb.descs + 1)) + 1 = C.count
    ∧ Loaded C (k + ((fillCall frags).skb.descs + 1)) ((s'.xmitStep C).xmitStep C)
  := by
  set c := fillCall frags with hc
  set n := c.skb.descs + 1 with hn
  have hinv : Inv C s := reachable_inv h.reach
  have hcount := hinv.count
  have hneeded : 0 < C.descNeeded := Nat.succ_pos _
  have hlen : ¬ c.skb.len < 17 := by
    change ¬ 60 + frags.sum < 17
    omega
  have hpadded : c.padded = c := by
    unfold Call.padded Skb.putPadto
    rw [if_neg hlen]
  -- the call
  have henabled : Enabled C s (.xmit c) := ⟨by rw [h.idle]; rfl, hok⟩
  have h₁ : (system C).Reachable TransSystem.always { s with xmit := .before .check c } := by
    refine h.reach.step trivial ⟨henabled, ?_⟩
    change _ = s.xmitFrame c
    rw [xmitFrame, if_neg (by omega), if_neg (by omega), hpadded]
    rfl
  -- it finds room
  have hunused := TxRing.descUnused_eq (r := s.ring) (by rw [h.nextToClean, hcount]; omega)
    (by rw [h.nextToUse, hcount]; omega)
  have hgap : gap s.ring.count s.ring.nextToClean s.ring.nextToUse = k := by
    rw [h.nextToClean, h.nextToUse]
    simp [gap]
  have h₂ : (system C).Reachable TransSystem.always { s with xmit := .offload c } := by
    have h := reachable_xmitStep h₁
    rw [xmitStep] at h
    simp only [maybeStopTx, if_pos (show s.ring.descUnused ≥ c.skb.size by omega)] at h
    exact h
  -- its context descriptor
  obtain ⟨r, hoffload, hcount₁, hclean₁, huse₁⟩ := fillCall_offload s.ring frags
  rw [← hc] at hoffload
  have h₃ : (system C).Reachable TransSystem.always
      { s with ring := r, acts := s.acts ++ [], xmit := .map c s.ring.nextToUse 0#8 } := by
    have h := reachable_xmitStep h₂
    rw [xmitStep] at h
    simp only [hoffload] at h
    exact h
  -- its data descriptors
  have hfails : ∀ j, c.map j ≠ none := fun j => Option.some_ne_none _
  have hfirst : s.ring.nextToUse < r.count := by
    rw [hcount₁, h.nextToUse, hcount]
    omega
  have hnext : r.nextToUse = Cyclic.next r.count s.ring.nextToUse := by
    rw [hcount₁]
    exact huse₁
  obtain ⟨r', acts, hmap, hplaced⟩ := txMap_done 0#8 hfails hok.frags_pos hfirst hnext
    (by rw [hcount₁, hcount]; omega)
  have h₄ := reachable_xmitStep h₃
  rw [xmitStep] at h₄
  simp only [hmap, if_true] at h₄
  have huse : r'.nextToUse = k + n := by
    rw [hplaced.nextToUse, hcount₁, hcount, h.nextToUse, ahead, if_pos (by omega)]
  have hclean : r'.nextToClean = 0 := by rw [hplaced.nextToClean, hclean₁, h.nextToClean]
  have hcount' : r'.count = C.count := by rw [hplaced.count, hcount₁, hcount]
  have hunused' := TxRing.descUnused_eq (r := r') (by omega) (by omega)
  rw [hclean, huse, hcount'] at hunused'
  have hgap' : gap C.count 0 (k + n) = k + n := by simp [gap]
  set t : TxQueue := { s with
    ring := r', acts := s.acts ++ [] ++ acts, stackXoff := s.stackXoff || c.bqlFull
    xmit := .after .check c } with ht
  have hroom' : C.descNeeded ≤ t.ring.descUnused := by
    change C.descNeeded ≤ r'.descUnused
    omega
  have hunused' : t.ring.descUnused + (k + n) + 1 = C.count := by rwa [hgap'] at hunused'
  refine ⟨t, c, h₄, rfl, hunused', ?_⟩
  -- the queue is left running
  have h₆ := reachable_xmitStep (reachable_xmitStep h₄)
  rw [xmitStep_room (s := t) rfl hroom', xmitStep_doorbell (c := c) rfl rfl] at h₆ ⊢
  exact ⟨h₆, rfl, hclean, huse⟩

/-- Packets of two slots fill the ring as far as the queue is left running. -/
theorem exists_loaded (C : Config) (a : ℕ) (h : 2 * a + C.descNeeded < C.count) :
  ∃ s, Loaded C (2 * a) s
  := by
  induction a with
  | zero => exact ⟨fresh C, .init (fresh_init C), rfl, rfl, rfl⟩
  | succ a ih =>
    have hfrags := C.frags_ge
    have hneeded : C.descNeeded = C.maxSkbFrags + 4 := rfl
    obtain ⟨s, hs⟩ := ih (by omega)
    have hok : (fillCall []).skb.Ok C.maxSkbFrags := ⟨Nat.zero_le _, by decide, by decide, by decide⟩
    have hsize : (fillCall []).skb.size = 4 := by decide
    have hdescs : (fillCall []).skb.descs + 1 = 2 := by decide
    obtain ⟨s', c, -, -, -, hs'⟩ := hs.send hok (by rw [hsize]; omega) (by rw [hdescs]; omega)
    rw [hdescs] at hs'
    exact ⟨_, hs'⟩

/-- A queue is left running with no more than `DESC_NEEDED` descriptors unused. -/
theorem exists_leftRunning (C : Config) :
  ∃ t, LeftRunning C t ∧ t.xmit = .idle ∧ t.ring.descUnused = C.descNeeded
  := by
  have hcount := C.count_ge
  have hge := C.frags_ge
  have hle := C.frags_le
  have hneeded : C.descNeeded = C.maxSkbFrags + 4 := rfl
  -- the last packet takes two slots or three
  obtain ⟨a, frags, hfrags, hfull⟩ : ∃ a frags, (frags = [] ∨ frags = [60])
      ∧ 2 * a + ((fillCall frags).skb.descs + 1) + C.descNeeded + 1 = C.count := by
    rcases Nat.even_or_odd' (C.count - C.descNeeded - 1) with ⟨m, hm | hm⟩
    · refine ⟨m - 1, [], .inl rfl, ?_⟩
      rw [show (fillCall []).skb.descs = 1 by decide]
      omega
    · refine ⟨m - 1, [60], .inr rfl, ?_⟩
      rw [show (fillCall [60]).skb.descs = 2 by decide]
      omega
  have hok : (fillCall frags).skb.Ok C.maxSkbFrags
      ∧ (fillCall frags).skb.size = (fillCall frags).skb.descs + 3 := by
    rcases hfrags with rfl | rfl
    · exact ⟨⟨Nat.zero_le _, by decide, by decide, by decide⟩, by decide⟩
    · exact ⟨⟨Nat.le_trans (by decide) hge, by decide, by decide, by decide⟩, by decide⟩
  obtain ⟨s, hs⟩ := exists_loaded C a (by omega)
  obtain ⟨s', c, hreach, hx, hunused, ht⟩ := hs.send hok.1 (by omega) (by omega)
  have hroom : C.descNeeded ≤ s'.ring.descUnused := by omega
  have hdone : s'.maybeStopTx C.descNeeded .check = (s', .done false) := by
    rw [maybeStopTx, if_pos hroom]
  refine ⟨_, ⟨_, [.xmitStep], .after hreach hx hdone, ?_⟩, ht.idle, ?_⟩
  · have henabled : Enabled C (s'.xmitStep C) .xmitStep := trivial
    exact .cons trivial ⟨henabled, rfl⟩ (.nil _)
  · have hinv : Inv C _ := reachable_inv ht.reach
    have h := TxRing.descUnused_eq (r := ((s'.xmitStep C).xmitStep C).ring)
      (by rw [ht.nextToClean, hinv.count]; omega) (by rw [ht.nextToUse, hinv.count]; omega)
    rw [ht.nextToClean, ht.nextToUse, hinv.count] at h
    simp only [gap, if_pos (Nat.zero_le _)] at h
    omega

/-- A packet that takes more descriptors than are unused finds the queue busy. -/
theorem busy_of_full {C : Config} {c : Call} {t : TxQueue}
    (hdrop : ¬ DropsAtOnce c) (hfull : t.ring.descUnused < c.padded.skb.size) :
  ∃ s, (system C).Path between (next C t (.xmit c)) [.xmitStep, .xmitStep, .xmitStep] s
    ∧ s.xmit.isIdle ∧ ∃ r, s.last = some r ∧ r.busy
  := by
  have hstart : next C t (.xmit c) = { t with xmit := .before .check c.padded } := by
    rcases t.xmitFrame_cases c with ⟨hdrops, -⟩ | heq
    · exact absurd hdrops hdrop
    · exact heq
  have hstep (s : TxQueue) : (system C).step s .xmitStep (s.xmitStep C) := by
    have henabled : Enabled C s .xmitStep := trivial
    exact ⟨henabled, rfl⟩
  rw [hstart]
  refine ⟨_, .cons trivial (hstep _) (.cons trivial (hstep _) (.cons trivial (hstep _) (.nil _))), ?_⟩
  have hroom : ¬ t.ring.descUnused ≥ c.padded.skb.size := Nat.not_le_of_lt hfull
  simp [xmitStep, maybeStopTx, hroom, hfull, returns, XmitPc.isIdle]

/-- A descriptor is counted for at least a byte. -/
theorem useCount_le_len (skb : Skb) :
  skb.useCount ≤ skb.len
  := by
  have hle (n : ℕ) : txdUseCount n ≤ n := by
    unfold txdUseCount maxDataPerTxd
    omega
  have hsum (ns : List ℕ) : (ns.map txdUseCount).sum ≤ ns.sum := by
    induction ns with
    | nil => exact Nat.le_refl 0
    | cons n ns ih =>
      rw [List.map_cons, List.sum_cons, List.sum_cons]
      exact Nat.add_le_add (hle n) ih
  exact Nat.add_le_add (hle _) (hsum _)

/-- LLDP frames are dropped at once. -/
theorem xmitFrame_lldp {c : Call} (h : c.skb.protocol = ethPLldp) (s : TxQueue) :
  s.xmitFrame c = s.drops c
  := by
  have hprotocol : c.padded.skb.protocol = ethPLldp := by
    unfold Call.padded Skb.putPadto
    split <;> exact h
  have hdrops : s.drops c.padded = s.drops c := by
    unfold drops returns Call.padded Skb.putPadto
    split <;> rfl
  unfold xmitFrame
  simp only [if_pos hprotocol, hdrops, ite_self]

/-- The room that the queue keeps is enough for exactly those packets that take at most
`MAX_SKB_FRAGS + 1` data descriptors, and for LLDP frames, which are dropped. -/
theorem neverBusy_iff {C : Config} {c : Call} (hok : c.skb.Ok C.maxSkbFrags) :
  NeverBusy C c ↔ c.skb.protocol = ethPLldp ∨ c.skb.useCount ≤ C.maxSkbFrags + 1
  := by
  have hge := C.frags_ge
  have hle := C.frags_le
  have hcount : c.skb.useCount ≤ C.maxSkbFrags + 5 := hok.useCount_le
  have hsize : c.skb.size = c.skb.useCount + 3 := by
    change c.skb.useCount % 2 ^ 16 + 3 = _
    rw [Nat.mod_eq_of_lt (by omega)]
  have hneeded : C.descNeeded = C.maxSkbFrags + 4 := rfl
  constructor
  · intro h
    by_contra hno
    obtain ⟨hlldp, hlarge⟩ := not_or.mp hno
    have hlen := useCount_le_len c.skb
    have hpadded : c.padded.skb = c.skb := by
      change c.skb.putPadto 17 = c.skb
      unfold Skb.putPadto
      rw [if_neg (by omega)]
    have hdrop : ¬ DropsAtOnce c := by
      rintro (hzero | hshort | hprotocol)
      · omega
      · omega
      · exact hlldp hprotocol
    obtain ⟨t, hleft, ht, hunused⟩ := exists_leftRunning C
    obtain ⟨s, hpath, hidle, r, hr, hbusy⟩ := busy_of_full (C := C) (t := t) hdrop
      (by rw [hpadded, hsize, hunused]; omega)
    exact h t hleft ⟨by rw [ht]; rfl, hok⟩ _ s hpath hidle r hr hbusy
  · rintro (hlldp | hsmall)
    · exact neverBusy_of_size (.inl (xmitFrame_lldp hlldp))
    · apply neverBusy_of_size (.inr _)
      change (c.skb.putPadto 17).size ≤ _
      unfold Skb.putPadto
      split
      · change (txdUseCount 17 + 0) % 2 ^ 16 + 3 ≤ C.descNeeded
        rw [show txdUseCount 17 = 1 by decide]
        omega
      · omega

/-! ### Two packets -/

/-- A packet of 60 bytes never finds a queue that was left running busy. -/
theorem shortPacket_neverBusy :
  NeverBusy smallRing (plainCall (plainSkb 1 60 [] ethPIp) false)
  := by
  apply (neverBusy_iff ⟨Nat.zero_le _, by decide, by decide, by decide⟩).mpr
  exact .inr (by decide)

/-- A packet of 65536 bytes in 18 pieces, three of which take two descriptors. -/
def spreadSkb : Skb := plainSkb 2 16385 (16385 :: 16385 :: 16367 :: List.replicate 14 1) ethPIp

/-- A packet of the largest length may find a queue busy that was left running. -/
theorem spreadSkb_busy :
  ¬ ∀ C c, c.skb.Ok C.maxSkbFrags → NeverBusy C c
  := by
  intro h
  obtain ⟨t, hleft, ht, hunused⟩ := exists_leftRunning smallRing
  obtain ⟨s, hpath, hidle, r, hr, hbusy⟩ := busy_of_full (C := smallRing) (t := t)
    (c := plainCall spreadSkb false) (by decide) (by rw [hunused]; decide)
  have hok : spreadSkb.Ok 17 := ⟨by decide, by decide, by decide, by decide⟩
  exact h smallRing (plainCall spreadSkb false) hok t hleft ⟨by rw [ht]; rfl, hok⟩ _ s hpath hidle r
    hr hbusy

end TxQueue

end Ixgbevf.Tx
