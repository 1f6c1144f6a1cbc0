import Ixgbevf.Rx.Frames

/-!
# One verdict for each frame

`ixgbevf_clean_rx_irq` gives a frame to the XDP program before it makes an skb for it.  Where there
is no memory for the skb it leaves the descriptor for the next call, and remembers no verdict: the
next call gives the frame to the program once more.  A log beside the queue records, for the frame
in each descriptor, what the program returned and what the driver did.
-/

namespace Ixgbevf.Rx

open Cyclic

/-! ### The program -/

/-- `enum xdp_action`, where `other` is a value that `ixgbevf_run_xdp` warns of. -/
inductive XdpAction where
  | aborted
  | drop
  | pass
  | tx
  | other
  deriving DecidableEq, Repr

/-- What `bpf_prog_run_xdp` does with a frame: the value that it returns, and the length that it
leaves the frame, where it changes it. -/
structure XdpRun where
  /-- `act`. -/
  act : XdpAction
  /-- `xdp->data_end - xdp->data`. -/
  len : Option ℕ
  deriving DecidableEq, Repr

/-- What `ixgbevf_run_xdp` returns, where `prog` is what the program does, if there is one, and
`xmit` what `ixgbevf_xmit_xdp_ring` returns. -/
def xdpResult (prog : Option XdpRun) (xmit : XdpVerdict) : XdpAct :=
  match prog with
  | none => .pass none
  | some run =>
    match run.act with
    | .pass => .pass run.len
    | .tx =>
      match xmit with
      | .tx => .tx
      | .consumed => .consumed
    | .other | .aborted | .drop => .consumed

/-- What the program made of a frame. -/
structure Ran where
  /-- `act`. -/
  act : XdpAction
  /-- The length of the frame after it. -/
  len : ℕ
  deriving DecidableEq, Repr

/-- What the driver does with the frame in a buffer. -/
inductive Dealt where
  /-- An skb of a length holds it. -/
  | passed (len : ℕ)
  /-- Its buffer is kept. -/
  | consumed
  /-- Its buffer is left to the XDP Tx ring. -/
  | transmitted
  deriving DecidableEq, Repr

/-- The driver does what the program said.  A frame that cannot be transmitted is dropped. -/
def Ran.Heeded (r : Ran) (d : Dealt) : Prop :=
  match r.act with
  | .pass => d = .passed r.len
  | .tx => d = .transmitted ∨ d = .consumed
  | .other | .aborted | .drop => d = .consumed

/-! ### The log -/

/-- What has been done with the frame in each descriptor since it was written back. -/
structure VerdictLog where
  /-- What the program made of it, each time. -/
  ran : ℕ → List Ran
  /-- What the driver did with it, each time. -/
  dealt : ℕ → List Dealt

namespace RxQueue

/-- A turn finds a descriptor written back.  Refilling the ring before does not change that. -/
def Finds (p : Poll) (s : RxQueue) : Prop :=
  p.totalRxPackets < p.budget ∧ (s.ring.desc s.ring.nextToClean).length ≠ 0

instance (p : Poll) (s : RxQueue) : Decidable (Finds p s) :=
  inferInstanceAs (Decidable (_ ∧ _))

/-- The variable `skb` after the branches of a turn on it. -/
def turnSkb (t : Turn) (page : ℕ) (p : Poll) (s : RxQueue) : SkbPtr :=
  let i := s.ring.nextToClean
  let size := (s.ring.desc i).length
  let s := getRxBuffer i s
  let (s, skb) := if p.skb = .null then runXdp t.xdp i page s else (s, p.skb)
  (takeData t i page size skb s).2

end RxQueue

/-- What a variable `skb` says of the frame. -/
def SkbPtr.dealt : SkbPtr → List Dealt
  | .null => []
  | .err .consumed => [.consumed]
  | .err .tx => [.transmitted]
  | .skb b => [.passed b.len]

namespace RxQueue

/-- The log after a turn. -/
def verdictTurn (t : Turn) (prog : Option XdpRun) (p : Poll) (s : RxQueue) (v : VerdictLog) :
    VerdictLog :=
  let i := s.ring.nextToClean
  let size := (s.ring.desc i).length
  if Finds p s then
    (s.ring.buffer i).page.elim v fun page => {
      ran :=
        if p.skb = .null then
          Function.update v.ran i (v.ran i ++ (prog.map fun run =>
            { act := run.act, len := run.len.getD size }).toList)
        else
          v.ran
      dealt := Function.update v.dealt i (v.dealt i ++ (turnSkb t page p s).dealt) }
  else
    v

/-- The log after an event. -/
def verdictEvent (prog : Option XdpRun) (s : RxQueue) (v : VerdictLog) : Event → VerdictLog
  | .writeBack _ _ _ =>
    { ran := Function.update v.ran s.head [], dealt := Function.update v.dealt s.head [] }
  | .turn t => s.poll.elim v fun p => verdictTurn t prog p s v
  | .configure _ _ | .poll _ | .clean | .drop _ _ | .take _ _ => v

end RxQueue

/-- What happens to an Rx queue with an XDP program. -/
structure XdpEvent where
  /-- The event. -/
  event : RxQueue.Event
  /-- What the program does in a turn, if there is one. -/
  prog : Option XdpRun
  /-- What `ixgbevf_xmit_xdp_ring` returns in a turn. -/
  xmit : XdpVerdict

/-- The turn takes the verdict from the program. -/
def XdpEvent.Agrees (e : XdpEvent) : Prop :=
  match e.event with
  | .turn t => t.xdp = xdpResult e.prog e.xmit
  | _ => True

/-- An Rx queue with the log of its verdicts. -/
structure Verdicts where
  /-- The queue. -/
  queue : RxQueue
  /-- The log. -/
  log : VerdictLog

/-- The queue with the log of its verdicts. -/
def verdicts (K : KernelConfig) : TransSystem Verdicts XdpEvent where
  init r := r.queue.Init ∧ r.log = { ran := fun _ => [], dealt := fun _ => [] }
  step r e r' := (RxQueue.system K).step r.queue e.event r'.queue ∧ e.Agrees ∧
    r'.log = RxQueue.verdictEvent e.prog r.queue r.log e.event

namespace Verdicts

open RxQueue

/-- The frame in each descriptor has been given to the program once at most, and where it has, the
driver has done what the program said, and nothing else. -/
def Once (r : Verdicts) : Prop :=
  ∀ i, r.log.ran i = [] ∨ ∃ ran dealt, r.log.ran i = [ran] ∧ r.log.dealt i = [dealt] ∧
    ran.Heeded dealt

/-- There is memory for the skb of every frame that the program passes. -/
def HasMemory (r : Verdicts) (e : XdpEvent) : Prop :=
  match e.event with
  | .turn t => ∀ p ∈ r.queue.poll, Finds p r.queue → p.skb = .null → e.prog.isSome →
    t.xdp.passes = true → t.skbFails = false
  | _ => True

/-- Every frame has a descriptor of its own. -/
def SingleBuffer (e : XdpEvent) : Prop :=
  match e.event with
  | .writeBack _ eop _ => eop = true
  | _ => True

end Verdicts

/-! ### A turn -/

namespace RxQueue

variable {K : KernelConfig} {s s' : RxQueue}

/-- There is no skb after a turn exactly when there is no memory for that of a frame that is passed
on. -/
theorem turnSkb_eq_null (t : Turn) (page : ℕ) (p : Poll) (s : RxQueue) :
  turnSkb t page p s = .null ↔ p.skb = .null ∧ t.xdp.passes = true ∧ t.skbFails = true
  := by
  cases hp : p.skb with
  | skb skb => simp [turnSkb, hp, takeData, addRxFrag]
  | err v => cases v <;> simp [turnSkb, hp, takeData]
  | null =>
    cases hx : t.xdp with
    | consumed => simp [turnSkb, hp, hx, runXdp, takeData, XdpAct.passes]
    | tx => simp [turnSkb, hp, hx, runXdp, takeData, XdpAct.passes]
    | pass len =>
      cases hfails : t.skbFails with
      | true => simp [turnSkb, hp, hx, runXdp, takeData, buildSkb, constructSkb, hfails, XdpAct.passes]
      | false =>
        simp only [turnSkb, hp, if_true, hx, runXdp]
        rcases skb_cases hfails s.ring.nextToClean page (s.ring.desc s.ring.nextToClean).length
          (getRxBuffer s.ring.nextToClean s) with ⟨-, heq⟩ | ⟨-, heq⟩ <;>
        simp [heq, newSkb]

/-- What a turn makes of a frame that is passed on and has no skb yet. -/
theorem turnSkb_pass
    {t : Turn} {len : Option ℕ} {p : Poll} (page : ℕ) (s : RxQueue) (hp : p.skb = .null)
    (hx : t.xdp = .pass len) (hfails : t.skbFails = false) :
  (turnSkb t page p s).dealt
    = [.passed (len.getD (s.ring.desc s.ring.nextToClean).length)]
  := by
  simp only [turnSkb, hp, if_true, hx, runXdp]
  rcases skb_cases hfails s.ring.nextToClean page (s.ring.desc s.ring.nextToClean).length
    (getRxBuffer s.ring.nextToClean s) with ⟨-, heq⟩ | ⟨-, heq⟩ <;>
  simp [heq, newSkb, hx, XdpAct.length, SkbPtr.dealt]

/-- A frame that the program has been given is dealt with as it said, where there is memory for an
skb. -/
theorem turnSkb_heeded
    {t : Turn} {run : XdpRun} {xmit : XdpVerdict} {p : Poll} (page : ℕ) (s : RxQueue)
    (hp : p.skb = .null) (hx : t.xdp = xdpResult (some run) xmit)
    (hmem : t.xdp.passes = true → t.skbFails = false) :
  ∃ dealt, (turnSkb t page p s).dealt = [dealt] ∧
    Ran.Heeded ⟨run.act, run.len.getD (s.ring.desc s.ring.nextToClean).length⟩ dealt
  := by
  have hconsumed (h : t.xdp = .consumed) : (turnSkb t page p s).dealt = [.consumed] := by
    simp [turnSkb, hp, h, runXdp, takeData, SkbPtr.dealt]
  cases hact : run.act with
  | pass =>
    have hpass : t.xdp = .pass run.len := by simpa [xdpResult, hact] using hx
    exact ⟨_, turnSkb_pass page s hp hpass (hmem (by rw [hpass]; rfl)), rfl⟩
  | tx =>
    cases xmit with
    | tx =>
      have htx : t.xdp = .tx := by simpa [xdpResult, hact] using hx
      exact ⟨.transmitted, by simp [turnSkb, hp, htx, runXdp, takeData, SkbPtr.dealt], Or.inl rfl⟩
    | consumed => exact ⟨_, hconsumed (by simpa [xdpResult, hact] using hx), Or.inr rfl⟩
  | other | aborted | drop => exact ⟨_, hconsumed (by simpa [xdpResult, hact] using hx), rfl⟩

/-- The branches of a turn on `skb` leave the indices alone. -/
theorem takeData_same (t : Turn) (i page size : ℕ) (skb : SkbPtr) (s : RxQueue) :
  (takeData t i page size skb s).1.ring.count = s.ring.count ∧
    (takeData t i page size skb s).1.ring.nextToClean = s.ring.nextToClean
  := by
  unfold takeData
  split
  · exact ⟨rfl, rfl⟩
  · exact ⟨rfl, rfl⟩
  · exact ⟨rfl, rfl⟩
  · split
    · unfold buildSkb
      split <;> exact ⟨rfl, rfl⟩
    · unfold constructSkb
      split
      · exact ⟨rfl, rfl⟩
      · dsimp only
        split <;> split <;> exact ⟨rfl, rfl⟩

/-- The part of a turn from `ixgbevf_get_rx_buffer` on ends the call where there is no skb, and else
works off the slot at `next_to_clean`. -/
theorem receive_turnSkb (t : Turn) (page : ℕ) (p : Poll) (s : RxQueue) :
  (receive t page p s).ring.nextToClean = if turnSkb t page p s = .null then s.ring.nextToClean
    else next s.ring.count s.ring.nextToClean
  := by
  obtain ⟨s₂, heq, hcount, hclean⟩ : ∃ s₂, receive t page p s
      = settleTurn t page p (turnSkb t page p s) s₂ ∧ s₂.ring.count = s.ring.count ∧
      s₂.ring.nextToClean = s.ring.nextToClean := by
    let x := if p.skb = .null then runXdp t.xdp s.ring.nextToClean page
      (getRxBuffer s.ring.nextToClean s) else (getRxBuffer s.ring.nextToClean s, p.skb)
    have hx : x.1.ring.count = s.ring.count ∧ x.1.ring.nextToClean = s.ring.nextToClean := by
      unfold x
      split
      · unfold runXdp
        split <;> exact ⟨rfl, rfl⟩
      · exact ⟨rfl, rfl⟩
    obtain ⟨hcount, hclean⟩ := takeData_same t s.ring.nextToClean page
      (s.ring.desc s.ring.nextToClean).length x.2 x.1
    exact ⟨_, rfl, hcount.trans hx.1, hclean.trans hx.2⟩
  rw [heq]
  cases hskb : turnSkb t page p s with
  | null =>
    rw [if_pos rfl]
    exact hclean
  | err v =>
    obtain ⟨-, -, hnext, -, -⟩ := retireBuffer_ring t page
      { p with skb := .err v, totalRxPackets := p.totalRxPackets + 1 } s₂
    rw [if_neg (by simp), ← hcount, ← hclean]
    exact hnext
  | skb skb =>
    obtain ⟨-, -, hnext, -, -⟩ := retireBuffer_ring t page { p with skb := .skb skb } s₂
    rw [if_neg (by simp), ← hcount, ← hclean]
    exact hnext

/-- A turn that finds a descriptor written back works it off, unless there is no memory for its skb;
any other turn ends the call. -/
theorem cleanRxTurn_finds
    {t : Turn} {p : Poll} (hwin : s.Window) (hcounted : s.ring.Counted p.cleanedCount)
    (hturn : cleanRxTurn K t p s = some s') :
  s'.ring.nextToClean = if Finds p s ∧ ¬ (p.skb = .null ∧ t.xdp.passes = true ∧ t.skbFails = true)
    then next s.ring.count s.ring.nextToClean else s.ring.nextToClean
  := by
  by_cases hfinds : Finds p s
  · obtain ⟨s₁, n, hpath, ⟨hlen, -, -⟩ | ⟨page, hlen, hpage, hs', -⟩⟩ :=
      cleanRxTurn_receives (g := emptyLog) hwin hcounted hfinds.1 hturn
    · obtain ⟨-, hdesc, -, -⟩ := refills_clean hpath hwin (hwin.clean_ne_head hfinds.2)
      rw [(refills_sameRest hpath).nextToClean, hdesc] at hlen
      exact absurd hlen hfinds.2
    · have hsame := refills_sameRest hpath
      rw [hs', receive_turnSkb, hsame.nextToClean, hsame.count]
      simp only [turnSkb_eq_null, hfinds, true_and, ite_not]
  · rw [if_neg (fun h => hfinds h.1)]
    by_cases hbudget : p.totalRxPackets < p.budget
    · obtain ⟨s₁, n, hpath, ⟨-, hs', -⟩ | ⟨page, hlen, -⟩⟩ :=
        cleanRxTurn_receives (g := emptyLog) hwin hcounted hbudget hturn
      · rw [hs']
        exact (refills_sameRest hpath).nextToClean
      · obtain ⟨hdesc, -⟩ := frameSkb_refills t p n hwin hpath hlen
        rw [hdesc] at hlen
        exact absurd ⟨hbudget, hlen⟩ hfinds
    · unfold cleanRxTurn at hturn
      rw [if_neg hbudget] at hturn
      cases hturn
      rfl

end RxQueue

/-! ### Runs -/

namespace Verdicts

open RxQueue

variable {K : KernelConfig} {r r' : Verdicts} {e : XdpEvent}

/-- Nothing has been done with the frames that wait. -/
def Untouched (s : RxQueue) (v : VerdictLog) : Prop :=
  ∀ i < s.ring.count,
    gap s.ring.count s.ring.nextToClean i < gap s.ring.count s.ring.nextToClean s.head →
    v.ran i = [] ∧ v.dealt i = []

/-- What holds of the verdicts in every state of a run. -/
structure Inv (r : Verdicts) : Prop where
  /-- The frames that wait. -/
  untouched : r.queue.active = true → Untouched r.queue r.log
  /-- The frames in all descriptors. -/
  once : r.Once

/-- Without its log a run is one of the queue. -/
theorem reachable_queue
    {G : Verdicts → XdpEvent → Prop} (h : (verdicts K).Reachable G r) :
  (system K).Reachable TransSystem.always r.queue
  := by
  induction h with
  | init h => exact TransSystem.Reachable.init h.1
  | step _ _ hstep ih => exact TransSystem.Reachable.step ih trivial hstep.1

/-- The frame at `next_to_clean` has not been touched before a turn that finds it. -/
theorem Untouched.clean
    {s : RxQueue} {v : VerdictLog} (h : Untouched s v) (hwin : s.Window)
    (hwritten : (s.ring.desc s.ring.nextToClean).length ≠ 0) :
  v.ran s.ring.nextToClean = [] ∧ v.dealt s.ring.nextToClean = []
  := by
  have hc := hwin.indices.clean_lt
  have hpos := (gap_eq_zero hc).not.mpr (hwin.clean_ne_head hwritten)
  apply h _ hc
  rw [gap_self]
  omega

/-- A turn leaves the frames behind the one at `next_to_clean` alone. -/
theorem verdictTurn_of_ne
    {t : Turn} {prog : Option XdpRun} {p : Poll} {s : RxQueue} {v : VerdictLog} {i : ℕ}
    (hne : i ≠ s.ring.nextToClean) :
  (verdictTurn t prog p s v).ran i = v.ran i ∧ (verdictTurn t prog p s v).dealt i = v.dealt i
  := by
  unfold verdictTurn
  dsimp only
  split
  · cases (s.ring.buffer s.ring.nextToClean).page with
    | none => exact ⟨rfl, rfl⟩
    | some page =>
      simp only [Option.elim_some]
      refine ⟨?_, Function.update_of_ne hne _ _⟩
      split
      · exact Function.update_of_ne hne _ _
      · rfl
  · exact ⟨rfl, rfl⟩

/-- The log of a turn that finds a descriptor written back, at this descriptor. -/
theorem verdictTurn_clean
    {p : Poll} {s : RxQueue} {v : VerdictLog} (t : Turn) (prog : Option XdpRun) (h : Untouched s v) (hwin : s.Window) (hfinds : Finds p s) :
  ∃ page, (verdictTurn t prog p s v).dealt s.ring.nextToClean = (turnSkb t page p s).dealt ∧
    (verdictTurn t prog p s v).ran s.ring.nextToClean = if p.skb = .null then
      (prog.map fun run => Ran.mk run.act
        (run.len.getD (s.ring.desc s.ring.nextToClean).length)).toList else []
  := by
  obtain ⟨page, hpage⟩ := hwin.clean_page hfinds.2
  obtain ⟨hran, hdealt⟩ := h.clean hwin hfinds.2
  use page
  simp only [verdictTurn, if_pos hfinds, hpage, Option.elim_some, Function.update_self, hdealt,
    List.nil_append, true_and]
  split
  · rw [Function.update_self, hran, List.nil_append]
  · exact hran

/-- A frame that waits behind the one at `next_to_clean` has waited before. -/
theorem waits_next
    {c a b i : ℕ} (ha : a < c) (hb : b < c) (hi : i < c) (hne : a ≠ b)
    (h : gap c (next c a) i < gap c (next c a) b) :
  i ≠ a ∧ gap c a i < gap c a b
  := by
  have hgap := gap_next_left ha hb hne
  have hwide := gap_lt ha hb
  have hia : i ≠ a := by
    rintro rfl
    have := gap_next_self ha
    omega
  have hgap' := gap_next_left ha hi (Ne.symm hia)
  exact ⟨hia, by omega⟩

/-- A turn for which there is memory keeps the verdicts in order. -/
theorem turn_inv
    {t : Turn} {prog : Option XdpRun} {xmit : XdpVerdict} {p : Poll} {s s' : RxQueue}
    {v : VerdictLog} (h : Untouched s v) (honce : Once ⟨s, v⟩) (hwin : s.Window)
    (hcounted : s.ring.Counted p.cleanedCount) (hx : t.xdp = xdpResult prog xmit)
    (hmem : Finds p s → p.skb = .null → prog.isSome → t.xdp.passes = true → t.skbFails = false)
    (hturn : cleanRxTurn K t p s = some s') :
  Untouched s' (verdictTurn t prog p s v) ∧ Once ⟨s', verdictTurn t prog p s v⟩
  := by
  obtain ⟨-, hcount, hhead⟩ := cleanRxTurn_same hwin hcounted hturn
  have hclean := cleanRxTurn_finds hwin hcounted hturn
  have hc := hwin.indices.clean_lt
  by_cases hfinds : Finds p s
  · obtain ⟨page, hdealt, hran⟩ := verdictTurn_clean t prog h hwin hfinds
    constructor
    · intro i hi hlt
      rw [hcount] at hi
      rw [hcount, hhead, hclean] at hlt
      split at hlt
      next hretired =>
        obtain ⟨hic, hlt'⟩ := waits_next hc hwin.head_lt hi (hwin.clean_ne_head hfinds.2) hlt
        rw [(verdictTurn_of_ne hic).1, (verdictTurn_of_ne hic).2]
        exact h i hi hlt'
      next hkept =>
        -- there is no memory, so that there is no program
        have hfails : p.skb = .null ∧ t.xdp.passes = true ∧ t.skbFails = true := by
          by_contra hno
          exact hkept ⟨hfinds, hno⟩
        by_cases hic : i = s.ring.nextToClean
        · have hprog : prog = none := by
            rw [← Option.not_isSome_iff_eq_none]
            intro hsome
            have := hmem hfinds hfails.1 hsome hfails.2.1
            rw [hfails.2.2] at this
            cases this
          have hnull := (turnSkb_eq_null t page p s).mpr hfails
          rw [hic, hran, hdealt, hnull, hprog]
          exact ⟨by simp, rfl⟩
        · rw [(verdictTurn_of_ne hic).1, (verdictTurn_of_ne hic).2]
          exact h i hi hlt
    · intro i
      by_cases hic : i = s.ring.nextToClean
      · subst hic
        dsimp only
        rw [hran, hdealt]
        split
        next hnull =>
          cases prog with
          | none => exact Or.inl rfl
          | some run =>
            obtain ⟨dealt, hdone, hheeded⟩ := turnSkb_heeded page s hnull hx (hmem hfinds hnull rfl)
            exact Or.inr ⟨_, dealt, rfl, hdone, hheeded⟩
        next => exact Or.inl rfl
      · dsimp only
        rw [(verdictTurn_of_ne hic).1, (verdictTurn_of_ne hic).2]
        exact honce i
  · have hlog : verdictTurn t prog p s v = v := by simp [verdictTurn, hfinds]
    rw [if_neg (fun hand => hfinds hand.1)] at hclean
    rw [hlog]
    constructor
    · intro i hi hlt
      rw [hcount] at hi
      rw [hcount, hhead, hclean] at hlt
      exact h i hi hlt
    · exact honce

/-- A turn without memory for the skb of a frame that the program passes has heard a verdict and
done nothing. -/
theorem turn_not_once
    {t : Turn} {prog : Option XdpRun} {p : Poll} {s s' : RxQueue} {v : VerdictLog}
    (h : Untouched s v) (hwin : s.Window) (hfinds : Finds p s) (hskb : p.skb = .null)
    (hprog : prog.isSome) (hpass : t.xdp.passes = true) (hfails : t.skbFails = true) :
  ¬ Once ⟨s', verdictTurn t prog p s v⟩
  := by
  obtain ⟨page, hdealt, hran⟩ := verdictTurn_clean t prog h hwin hfinds
  obtain ⟨run, rfl⟩ := Option.isSome_iff_exists.mp hprog
  rw [if_pos hskb] at hran
  rw [(turnSkb_eq_null t page p s).mpr ⟨hskb, hpass, hfails⟩] at hdealt
  intro honce
  rcases honce s.ring.nextToClean with hnone | ⟨ran, dealt, -, hone, -⟩
  · simp [hran] at hnone
  · simp [hdealt, SkbPtr.dealt] at hone

/-- An event for which there is memory keeps the verdicts in order. -/
theorem step_inv
    (hreach : (system K).Reachable TransSystem.always r.queue) (h : r.Inv) (hG : r.HasMemory e)
    (hstep : (verdicts K).step r e r') :
  r'.Inv
  := by
  obtain ⟨⟨hen, hstep⟩, hx, hlog⟩ := hstep
  have hinv := reachable_inv hreach
  obtain ⟨s, v⟩ := r
  obtain ⟨s', v'⟩ := r'
  obtain ⟨event, prog, xmit⟩ := e
  dsimp only at hen hstep hlog hinv
  subst hlog
  obtain ⟨huntouched, honce⟩ := h
  dsimp only at huntouched
  cases event with
  | configure flags alloc =>
    cases hstep
    have hsame := refills_sameRest
      (configureRxRing_refills (K := K) flags alloc (hinv.idle hen.1) hinv.count_pos)
    constructor
    · intro _ i _ hlt
      simp [hsame.nextToClean, hsame.head, hsame.count, cleared] at hlt
    · exact honce
  | writeBack length eop frameErr =>
    cases hstep
    constructor
    · intro hactive i hi hlt
      have hwin := hinv.window hactive
      have hidx := hwin.indices
      simp only [verdictEvent, Function.update_apply]
      split
      next => simp [*]
      next hne =>
        have hroom : s.head ≠ s.ring.nextToUse := by
          rw [← hwin.tail]
          exact hen
        have hgap := (gap_inj hidx.clean_lt hwin.head_lt hidx.use_lt).not.mpr hroom
        have hle := hwin.head_le
        have hwide := gap_lt hidx.clean_lt hidx.use_lt
        have hnext := gap_next hidx.clean_lt hwin.head_lt (by omega)
        simp only [RxRing.setDesc] at hi hlt
        rw [hnext] at hlt
        have hother := (gap_inj hidx.clean_lt hi hwin.head_lt).not.mpr hne
        exact huntouched hactive i hi (by omega)
    · intro i
      simp only [verdictEvent, Function.update_apply]
      split
      · exact Or.inl rfl
      · exact honce i
  | poll budget =>
    cases hstep
    exact ⟨huntouched, honce⟩
  | turn t =>
    obtain ⟨p, hp, hturn⟩ := Option.bind_eq_some_iff.mp hstep
    have hactive := hinv.active_of_poll hp
    have hlog : verdictEvent prog s v (.turn t) = verdictTurn t prog p s v := by
      simp [verdictEvent, hp]
    rw [hlog]
    obtain ⟨hfresh, honce'⟩ := turn_inv (huntouched hactive) honce (hinv.window hactive)
      (hinv.counted hactive p hp) hx (hG p hp) hturn
    exact ⟨fun _ => hfresh, honce'⟩
  | clean =>
    constructor
    · intro hactive
      rw [cleanRxRing_active hstep] at hactive
      cases hactive
    · exact honce
  | drop page half =>
    cases hstep
    exact ⟨huntouched, honce⟩
  | take page half =>
    cases hstep
    exact ⟨huntouched, honce⟩

/-- The verdicts are in order in every run in which there is memory. -/
theorem reachable_verdicts (h : (verdicts K).Reachable HasMemory r) :
  r.Inv
  := by
  induction h with
  | @init r h =>
    constructor
    · intro hactive
      rw [h.1.active] at hactive
      cases hactive
    · intro i
      rw [h.2]
      exact Or.inl rfl
  | step hreach hG hstep ih => exact step_inv (reachable_queue hreach) ih hG hstep

/-- In every run in which there is memory for the skb of every frame that the program passes, each
frame is given to the program once at most, and the driver does what the program said; and this
holds after a further event exactly when there is memory. -/
theorem once_iff (h : (verdicts K).Reachable HasMemory r) :
  r.Once ∧ ∀ e r', (verdicts K).step r e r' → (r'.Once ↔ r.HasMemory e)
  := by
  have hinv := reachable_verdicts h
  refine ⟨hinv.once, ?_⟩
  intro e r' hstep
  constructor
  · intro honce
    obtain ⟨event, prog, xmit⟩ := e
    cases event with
    | turn t =>
      intro p hp hfinds hskb hprog hpass
      rw [← Bool.not_eq_true]
      intro hfails
      have hqueue := reachable_inv (reachable_queue h)
      have hactive := hqueue.active_of_poll hp
      have hlog : r'.log = verdictTurn t prog p r.queue r.log := by
        rw [hstep.2.2]
        simp only [verdictEvent, Option.mem_def.mp hp, Option.elim_some]
      have honce' : Once ⟨r'.queue, verdictTurn t prog p r.queue r.log⟩ := by
        rw [← hlog]
        exact honce
      exact turn_not_once (hinv.untouched hactive) (hqueue.window hactive) hfinds hskb hprog hpass
        hfails honce'
    | _ => trivial
  · intro hG
    exact (step_inv (reachable_queue h) hinv hG hstep).once

/-! ### Runs that are computed -/

instance HasMemory.decide (r : Verdicts) : (e : XdpEvent) → Decidable (r.HasMemory e)
  | ⟨.turn t, prog, _⟩ => inferInstanceAs (Decidable (∀ p ∈ r.queue.poll, Finds p r.queue →
      p.skb = .null → prog.isSome → t.xdp.passes = true → t.skbFails = false))
  | ⟨.configure _ _, _, _⟩ | ⟨.writeBack _ _ _, _, _⟩ | ⟨.poll _, _, _⟩ | ⟨.clean, _, _⟩
  | ⟨.drop _ _, _, _⟩ | ⟨.take _ _, _, _⟩ => isTrue trivial

instance SingleBuffer.decide : (e : XdpEvent) → Decidable (SingleBuffer e)
  | ⟨.writeBack _ eop _, _, _⟩ => inferInstanceAs (Decidable (eop = true))
  | ⟨.configure _ _, _, _⟩ | ⟨.turn _, _, _⟩ | ⟨.poll _, _, _⟩ | ⟨.clean, _, _⟩
  | ⟨.drop _ _, _, _⟩ | ⟨.take _ _, _, _⟩ => isTrue trivial

instance Agrees.decide : (e : XdpEvent) → Decidable e.Agrees
  | ⟨.turn t, prog, xmit⟩ => inferInstanceAs (Decidable (t.xdp = xdpResult prog xmit))
  | ⟨.configure _ _, _, _⟩ | ⟨.writeBack _ _ _, _, _⟩ | ⟨.poll _, _, _⟩ | ⟨.clean, _, _⟩
  | ⟨.drop _ _, _, _⟩ | ⟨.take _ _, _, _⟩ => isTrue trivial

/-- The queue with its log after an event. -/
def after (K : KernelConfig) (r : Verdicts) (e : XdpEvent) : Verdicts where
  queue := RxQueue.after K r.queue e.event
  log := verdictEvent e.prog r.queue r.log e.event

/-- A queue with 64 descriptors. -/
def fresh : Verdicts := { queue := RxQueue.fresh, log := { ran := fun _ => [], dealt := fun _ => [] } }

/-- The queue after events from `fresh` on that all happen is reachable. -/
theorem run_reachable
    {G : Verdicts → XdpEvent → Prop} {es : List XdpEvent}
    (hes : TransSystem.AllAlong (fun r e => (Happens K r.queue e.event ∧ e.Agrees) ∧ G r e)
      (after K) fresh es) :
  (verdicts K).Reachable G (es.foldl (after K) fresh)
  := by
  have hinit : (verdicts K).Reachable G fresh := TransSystem.Reachable.init ⟨fresh_init, rfl⟩
  apply TransSystem.Reachable.foldl _ hinit hes
  intro r e he
  exact ⟨he.2, he.1.1.step, he.1.2, rfl⟩

/-- An event in which no program runs. -/
def quiet (event : Event) : XdpEvent := { event := event, prog := none, xmit := .tx }

/-- A turn in which the program returns `act`. -/
def runs (act : XdpAction) (skbFails : Bool) : XdpEvent where
  event := .turn { plainTurn (xdpResult (some ⟨act, none⟩) .tx) with skbFails := skbFails }
  prog := some ⟨act, none⟩
  xmit := .tx

/-- A frame has been written back, and a call starts. -/
def oneFrame : List XdpEvent :=
  [quiet (.configure { usesLargeBuffer := false, usesBuildSkb := true } fun _ => .ok),
    quiet (.writeBack 60 true false), quiet (.poll 64)]

/-- A frame that the program passes. -/
def onePassed : Verdicts := (oneFrame ++ [runs .pass false]).foldl (after cacheLine64) fresh

/-- The frame has been given to the program once. -/
theorem once_iff_onePassed :
  onePassed.Once ∧ ∀ e r', (verdicts cacheLine64).step onePassed e r' →
    (r'.Once ↔ onePassed.HasMemory e)
  := by
  apply once_iff
  apply run_reachable
  decide +kernel

/-- A frame that the program passes, for which there is no memory, and that it drops in the next
call. -/
def heardTwice : Verdicts :=
  (oneFrame ++ [runs .pass true, quiet (.poll 64), runs .drop false]).foldl (after cacheLine64) fresh

/-- A frame is given to the program twice, and dropped although the program first passed it. -/
theorem heardTwice_not_once :
  ∃ r i, (verdicts cacheLine64).Reachable (fun _ e => SingleBuffer e) r ∧
    r.log.ran i = [⟨.pass, 60⟩, ⟨.drop, 60⟩] ∧ r.log.dealt i = [.consumed] ∧ ¬ r.Once
  := by
  have hran : heardTwice.log.ran 0 = [⟨.pass, 60⟩, ⟨.drop, 60⟩] := by decide +kernel
  refine ⟨heardTwice, 0, ?_, hran, by decide +kernel, ?_⟩
  · apply run_reachable
    decide +kernel
  · intro honce
    rcases honce 0 with hnone | ⟨ran, dealt, hone, -⟩
    · simp [hran] at hnone
    · simp [hran] at hone

end Verdicts

end Ixgbevf.Rx
