import Ixgbevf.Lib.Run
import Ixgbevf.Rx.Ring

/-!
# Runs of an Rx queue

The driver configures the ring, polls it and cleans it; the hardware writes descriptors back
in the order of the ring; the network stack and the cleaning of the XDP Tx ring drop their
references to pages, and the stack may take more of them.  A call of `ixgbevf_clean_rx_irq` is
cut into the turns of its loop, between which the others come in.
-/

namespace Ixgbevf.Rx

open Cyclic

namespace RxQueue

/-- What happens to an Rx queue. -/
inductive Event where
  /-- `ixgbevf_configure_rx_ring`, after the buffer layout has been chosen. -/
  | configure (flags : BufferFlags) (alloc : ℕ → PageAnswer)
  /-- The hardware writes a descriptor back. -/
  | writeBack (length : ℕ) (eop frameErr : Bool)
  /-- A call of `ixgbevf_clean_rx_irq` starts. -/
  | poll (budget : ℕ)
  /-- The call takes a turn of its loop. -/
  | turn (t : Turn)
  /-- `ixgbevf_clean_rx_ring`. -/
  | clean
  /-- A reference to a half of a page is dropped. -/
  | drop (page half : ℕ)
  /-- Another reference to a half of a page is taken. -/
  | take (page half : ℕ)

/-- When an event can happen.  The ring is configured after it has been cleaned or made, it is
polled while it is configured, and it is not cleaned under a poll.  A page has fewer than
`2 ^ 31` references, since the kernel keeps its count in an `int`. -/
def Enabled (s : RxQueue) : Event → Prop
  | .configure _ _ => s.active = false ∧ s.poll = none
  | .writeBack _ _ _ => s.head ≠ s.ring.tail
  | .poll _ => s.active = true ∧ s.poll = none
  | .turn _ => s.poll.isSome
  | .clean => s.poll = none
  | .drop page half => half ∈ (s.pages page).users
  | .take page half => half ∈ (s.pages page).users ∧ (s.pages page).users.length < 2 ^ 31

/-- What an event does. -/
def apply (K : KernelConfig) (s : RxQueue) : Event → Option RxQueue
  | .configure flags alloc => some (configureRxRing K flags alloc s)
  | .writeBack length eop frameErr =>
    some { s with
      ring := s.ring.setDesc s.head fun _ =>
        { pktAddr := none, length := length, eop := eop, frameErr := frameErr }
      head := next s.ring.count s.head }
  | .poll budget => some (cleanRxIrq budget s)
  | .turn t => s.poll.bind fun p => cleanRxTurn K t p s
  | .clean => cleanRxRing s
  | .drop page half =>
    some (s.setPage page fun p =>
      { p with refCount := p.refCount - 1, users := p.users.erase half })
  | .take page half =>
    some (s.setPage page fun p =>
      { p with refCount := p.refCount + 1, users := half :: p.users })

/-- A queue as `ixgbevf_alloc_q_vector` and `ixgbevf_setup_rx_resources` leave it: the buffers
and the descriptors hold anything. -/
structure Init (s : RxQueue) : Prop where
  count_pos : 0 < s.ring.count
  nextToUse : s.ring.nextToUse = 0
  nextToClean : s.ring.nextToClean = 0
  nextToAlloc : s.ring.nextToAlloc = 0
  tail : s.ring.tail = 0
  head : s.head = 0
  skb : s.ring.skb = .null
  nextPage : s.nextPage = 0
  users : ∀ page, (s.pages page).users = []
  nextSkb : s.nextSkb = 0
  skbReleases : ∀ id, s.skbReleases id = 0
  active : s.active = false
  poll : s.poll = none

/-- The Rx queue. -/
def system (K : KernelConfig) : TransSystem RxQueue Event where
  init := Init
  step s e s' := Enabled s e ∧ apply K s e = some s'

/-! ### Runs that are computed -/

instance Enabled.decide (s : RxQueue) : (e : Event) → Decidable (Enabled s e)
  | .configure _ _ => inferInstanceAs (Decidable (s.active = false ∧ s.poll = none))
  | .writeBack _ _ _ => inferInstanceAs (Decidable (s.head ≠ s.ring.tail))
  | .poll _ => inferInstanceAs (Decidable (s.active = true ∧ s.poll = none))
  | .turn _ => inferInstanceAs (Decidable (s.poll.isSome))
  | .clean => inferInstanceAs (Decidable (s.poll = none))
  | .drop page half => inferInstanceAs (Decidable (half ∈ (s.pages page).users))
  | .take page half => inferInstanceAs (Decidable
      (half ∈ (s.pages page).users ∧ (s.pages page).users.length < 2 ^ 31))

/-- An event that can happen and has a result. -/
def Happens (K : KernelConfig) (s : RxQueue) (e : Event) : Prop :=
  Enabled s e ∧ (apply K s e).isSome

instance Happens.decide (K : KernelConfig) (s : RxQueue) (e : Event) :
    Decidable (Happens K s e) :=
  inferInstanceAs (Decidable (Enabled s e ∧ (apply K s e).isSome))

/-- The queue after an event. -/
def after (K : KernelConfig) (s : RxQueue) (e : Event) : RxQueue := (apply K s e).getD s

/-- An event that can happen takes the queue to the one after it. -/
theorem Happens.step {K : KernelConfig} {s : RxQueue} {e : Event} (h : Happens K s e) :
  (system K).step s e (after K s e)
  := by
  obtain ⟨hen, hsome⟩ := h
  obtain ⟨s', hs'⟩ := Option.isSome_iff_exists.mp hsome
  constructor
  · apply hen
  · rw [after, hs', Option.getD_some]

/-- A queue with 64 descriptors. -/
def fresh : RxQueue where
  ring := {
    count := 64
    flags := { usesLargeBuffer := false, usesBuildSkb := true }
    nextToUse := 0
    nextToClean := 0
    nextToAlloc := 0
    tail := 0
    buffer := fun _ => { page := none, pageOffset := 0, pagecntBias := 0 }
    desc := fun _ => { pktAddr := none, length := 0, eop := false, frameErr := false }
    skb := .null }
  head := 0
  pages _ := unmappablePage
  nextPage := 0
  nextSkb := 0
  skbReleases _ := 0
  active := false
  poll := none

/-- The queue with 64 descriptors is one that has just been set up. -/
theorem fresh_init :
  Init fresh
  := by
  constructor <;> simp [fresh, unmappablePage]

/-- A turn in which the rest of the system has memory and the program does `xdp`. -/
def plainTurn (xdp : XdpAct) : Turn where
  alloc _ := .ok
  xdp := xdp
  skbFails := false
  pktType := .host
  headlen := 14
  reserved := false
  rxAll := false
  padFails := false
  ownSource := false

/-- The queue after events from `fresh` on that all happen is reachable. -/
theorem run_reachable
    {K : KernelConfig} {G : RxQueue → Event → Prop} {es : List Event}
    (hes : TransSystem.AllAlong (fun s e => Happens K s e ∧ G s e) (after K) fresh es) :
  (system K).Reachable G (es.foldl (after K) fresh)
  := by
  apply TransSystem.Reachable.foldl _ (TransSystem.Reachable.init fresh_init) hes
  intro s e he
  exact ⟨he.2, he.1.step⟩

end RxQueue

end Ixgbevf.Rx
