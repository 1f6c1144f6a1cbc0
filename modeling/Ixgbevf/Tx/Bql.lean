import Ixgbevf.Tx.Accounts

/-!
# Byte queue limits

The kernel counts the bytes that were sent on a queue of the stack, `netdev_tx_sent_queue`, and
those that are completed, `netdev_tx_completed_queue`, and stops at once where more are completed
than were sent, the `BUG_ON` of `dql_completed`.  The driver never gets there: what a call of
`ixgbevf_clean_tx_irq` reports has been sent and not been reported before.
-/

namespace Ixgbevf.Tx

/-! ### The counters -/

/-- The counters of a queue. -/
structure Dql where
  /-- `num_queued`. -/
  numQueued : ℕ
  /-- `num_completed`. -/
  numCompleted : ℕ
  deriving DecidableEq, Repr

namespace Dql

/-- `dql_reset`. -/
def reset : Dql := ⟨0, 0⟩

/-- What an effect does to the counters. -/
def apply (d : Dql) : TxEffect → Dql
  | .put _ _ bytes => { d with numQueued := d.numQueued + bytes }
  | .completed _ bytes => { d with numCompleted := d.numCompleted + bytes }
  | .resetQueue => reset
  | _ => d

/-- The condition under which `dql_completed` goes on. -/
def Ok (d : Dql) : TxEffect → Prop
  | .completed _ bytes => bytes ≤ d.numQueued - d.numCompleted
  | _ => True

instance Ok.decide (d : Dql) : (e : TxEffect) → Decidable (d.Ok e)
  | .completed _ bytes => inferInstanceAs (Decidable (bytes ≤ d.numQueued - d.numCompleted))
  | .take _ | .map _ | .put _ _ _ | .done _ | .free _ | .unmap _ | .hang | .resetQueue =>
    isTrue trivial

/-- The counters after effects. -/
def after (es : List TxEffect) : Dql := es.foldl apply reset

/-- The kernel goes on after each of the effects. -/
def AllOk (es : List TxEffect) : Prop := TransSystem.AllAlong Ok apply reset es

instance (es : List TxEffect) : Decidable (AllOk es) :=
  inferInstanceAs (Decidable (TransSystem.AllAlong Ok apply reset es))

/-- The effect is none that the counters hear of. -/
def Unheard : TxEffect → Prop
  | .put _ _ _ | .completed _ _ | .resetQueue => False
  | _ => True

variable {d : Dql} {es es' : List TxEffect}

/-- Effects that the counters do not hear of. -/
theorem unheard_foldl (h : ∀ e ∈ es, Unheard e) :
  es.foldl apply d = d ∧ TransSystem.AllAlong Ok apply d es
  := by
  induction es generalizing d with
  | nil => exact ⟨rfl, trivial⟩
  | cons e es ih =>
    have he := h e List.mem_cons_self
    have hes : ∀ e ∈ es, Unheard e := fun e he => h e (List.mem_cons_of_mem _ he)
    have hsame : d.apply e = d ∧ d.Ok e := by
      cases e with
      | put | completed | resetQueue => cases he
      | _ => exact ⟨rfl, trivial⟩
    obtain ⟨hfold, hok⟩ := ih hes (d := d)
    rw [List.foldl_cons, TransSystem.AllAlong, hsame.1]
    exact ⟨hfold, hsame.2, hok⟩

/-- More effects that the counters do not hear of. -/
theorem append_unheard (es : List TxEffect) (h : ∀ e ∈ es', Unheard e) :
  after (es ++ es') = after es ∧ (AllOk (es ++ es') ↔ AllOk es)
  := by
  constructor
  · rw [after, List.foldl_append]
    exact (unheard_foldl h).1
  · rw [AllOk, TransSystem.allAlong_append]
    exact and_iff_left (unheard_foldl h).2

/-- One more effect. -/
theorem append_singleton (es : List TxEffect) (e : TxEffect) :
  after (es ++ [e]) = (after es).apply e ∧ (AllOk (es ++ [e]) ↔ AllOk es ∧ (after es).Ok e)
  := by
  constructor
  · rw [after, List.foldl_append]
    rfl
  · rw [AllOk, TransSystem.allAlong_append]
    exact and_congr_right fun _ => and_iff_left trivial

end Dql

/-! ### Packets -/

/-- The bytes of packets. -/
def bytesOf (ps : List Packet) : ℕ := (ps.map Packet.bytes).sum

/-- The bytes of packets and one more. -/
theorem bytesOf_concat (ps : List Packet) (p : Packet) :
  bytesOf (ps ++ [p]) = bytesOf ps + p.bytes
  := by
  simp [bytesOf]

/-- The bytes of a packet and others. -/
theorem bytesOf_cons (p : Packet) (ps : List Packet) :
  bytesOf (p :: ps) = p.bytes + bytesOf ps
  := by
  simp [bytesOf]

/-- A report of the hardware changes no byte count. -/
theorem bytesOf_mark (slot : ℕ) (ps : List Packet) :
  bytesOf (ps.map (Packet.mark slot)) = bytesOf ps
  := by
  unfold bytesOf
  rw [List.map_map]
  congr 2
  funext p
  exact (p.mark_same slot).2.2.2.2.2

/-- Taking and mapping a packet is not heard of. -/
theorem unheard_taken (id : ℕ) (maps : List Mapping) :
  ∀ e ∈ TxEffect.take id :: maps.map TxEffect.map, Dql.Unheard e
  := by
  intro e he
  rcases List.mem_cons.mp he with rfl | he
  · trivial
  · obtain ⟨m, -, rfl⟩ := List.mem_map.mp he
    trivial

/-- Giving a packet back is not heard of. -/
theorem unheard_released (p : Packet) :
  ∀ e ∈ p.released, Dql.Unheard e
  := by
  intro e he
  rcases List.mem_cons.mp he with rfl | he
  · trivial
  · obtain ⟨m, -, rfl⟩ := List.mem_map.mp he
    trivial

/-- Giving a packet up is not heard of. -/
theorem unheard_givenUp (id : ℕ) (maps : List Mapping) :
  ∀ e ∈ givenUp id maps, Dql.Unheard e
  := by
  intro e he
  rcases List.mem_append.mp he with he | he
  · exact unheard_taken id maps e he
  rcases List.mem_append.mp he with he | he
  · obtain ⟨m, -, rfl⟩ := List.mem_map.mp he
    trivial
  · rw [List.mem_singleton.mp he]
    trivial

/-- Only the last effect of putting a packet on the ring is heard of. -/
theorem accepted_dql (es : List TxEffect) (p : Packet) :
  Dql.after (es ++ p.accepted)
      = { Dql.after es with numQueued := (Dql.after es).numQueued + p.bytes }
    ∧ (Dql.AllOk (es ++ p.accepted) ↔ Dql.AllOk es)
  := by
  obtain ⟨hafter, hok⟩ := Dql.append_unheard es (unheard_taken p.id p.maps)
  obtain ⟨hafter', hok'⟩ := Dql.append_singleton
    (es ++ TxEffect.take p.id :: p.maps.map TxEffect.map) (.put p.slot p.segs p.bytes)
  rw [Packet.accepted, ← List.append_assoc, hafter', hok', hafter, hok]
  exact ⟨rfl, and_iff_left trivial⟩

/-- In the books of a ring of the stack nothing is completed that was not sent, and the packets on
the ring are still to be completed. -/
theorem Books.dql {es : List TxEffect} {ps rs : List Packet} (h : Books false es ps rs) :
  Dql.AllOk es ∧ (Dql.after es).numCompleted + bytesOf rs + bytesOf ps ≤ (Dql.after es).numQueued
  := by
  generalize hxdp : false = xdp at h
  induction h with
  | start => exact ⟨trivial, Nat.le_refl _⟩
  | @accept es ps rs p _ _ ih =>
    obtain ⟨hok, hle⟩ := ih
    obtain ⟨hafter, hok'⟩ := accepted_dql es p
    rw [hafter, hok', bytesOf_concat]
    exact ⟨hok, by simp only; omega⟩
  | giveUp id maps _ ih =>
    obtain ⟨hafter, hok⟩ := Dql.append_unheard _ (unheard_givenUp id maps)
    rw [hafter, hok]
    exact ih
  | @done es ps rs slot _ ih =>
    obtain ⟨hafter, hok⟩ := Dql.append_singleton es (.done slot)
    rw [hafter, hok, bytesOf_mark]
    exact ⟨⟨ih.1, trivial⟩, ih.2⟩
  | @release es ps rs p _ _ ih =>
    obtain ⟨hok, hle⟩ := ih
    obtain ⟨hafter, hok'⟩ := Dql.append_unheard es (unheard_released p)
    rw [hafter, hok', bytesOf_concat]
    rw [bytesOf_cons] at hle
    exact ⟨hok, by omega⟩
  | @report es ps rs _ _ ih =>
    obtain ⟨hok, hle⟩ := ih
    -- the counts of a call have 32 bits, so it may report fewer bytes, and never more
    have hwrap := Nat.mod_le (bytesOf rs) (2 ^ 32)
    obtain ⟨hafter, hok'⟩ := Dql.append_singleton es
      (.completed ((rs.map Packet.segs).sum % 2 ^ 32) (bytesOf rs % 2 ^ 32))
    have heffect : TxEffect.completed ((rs.map Packet.segs).sum % 2 ^ 32)
        ((rs.map Packet.bytes).sum % 2 ^ 32)
        = .completed ((rs.map Packet.segs).sum % 2 ^ 32) (bytesOf rs % 2 ^ 32) := rfl
    rw [heffect, hafter, hok']
    refine ⟨⟨hok, ?_⟩, ?_⟩
    · simp only [Dql.Ok]
      omega
    · have hnil : bytesOf [] = 0 := rfl
      simp only [Dql.apply, hnil]
      omega
  | @unheard es ps rs hyes =>
    rw [← hxdp] at hyes
    cases hyes
  | @hang es ps rs _ ih =>
    obtain ⟨hok, hle⟩ := ih
    obtain ⟨hafter, hok'⟩ := Dql.append_singleton es .hang
    rw [hafter, hok']
    refine ⟨⟨hok, trivial⟩, ?_⟩
    have hnil : bytesOf [] = 0 := rfl
    simp only [Dql.apply, hnil]
    omega
  | @teardown es ps _ ih =>
    have hreleased : ∀ e ∈ ps.flatMap Packet.released, Dql.Unheard e := by
      intro e he
      obtain ⟨p, -, he⟩ := List.mem_flatMap.mp he
      exact unheard_released p e he
    obtain ⟨-, hok⟩ := Dql.append_unheard es hreleased
    obtain ⟨hafter, hok'⟩ := Dql.append_singleton (es ++ ps.flatMap Packet.released)
      .resetQueue
    rw [← hxdp, if_neg Bool.false_ne_true, ← List.append_assoc, hafter, hok', hok]
    exact ⟨⟨ih.1, trivial⟩, Nat.le_refl _⟩

namespace OwnedRing

/-- In every run of a ring of the stack, a call of `ixgbevf_clean_tx_irq` completes no byte that was
not sent and is still to be completed, so that the `BUG_ON` of `dql_completed` stays silent; and the
bytes of the packets on the ring are still to be completed. -/
theorem reachable_bql {s : OwnedRing} (h : system.Reachable TransSystem.always s)
    (hstack : s.shared.isXdp = false) :
  Dql.AllOk s.effects ∧ ∃ ps rs, s.Kept ps rs
    ∧ (Dql.after s.effects).numCompleted + bytesOf rs + bytesOf ps
      ≤ (Dql.after s.effects).numQueued
  := by
  obtain ⟨ps, rs, hkept⟩ := reachable_booked h
  have hbooks := hkept.books
  rw [hstack] at hbooks
  exact ⟨hbooks.dql.1, ps, rs, hkept, hbooks.dql.2⟩

/-- A ring from which a packet was sent and freed: its bytes are sent and completed. -/
theorem cleanedRing_bql :
  Dql.after cleanedRing.effects = ⟨160, 160⟩ ∧ Dql.AllOk cleanedRing.effects
    ∧ ∃ ps rs, cleanedRing.Kept ps rs
    ∧ (Dql.after cleanedRing.effects).numCompleted + bytesOf rs + bytesOf ps
      ≤ (Dql.after cleanedRing.effects).numQueued
  := by
  refine ⟨by decide +kernel, reachable_bql ?_ rfl⟩
  have hdone := reachable_next (.writeBack 2 doneDesc) sentRing_reachable trivial rfl
  have hclean := reachable_next .clean hdone ⟨rfl, rfl⟩ rfl
  have hfreed := reachable_next (.cleanStep 3 3) hclean trivial rfl
  exact reachable_next (.cleanStep 3 3) hfreed trivial rfl

end OwnedRing

end Ixgbevf.Tx
