import Ixgbevf.Mailbox.Refinement

/-!
# What arrives

The messages that the read functions return, and the acknowledgements that the write
functions wait for, in the runs of the mailbox registers.  With the legacy functions what is
read agrees with the message of one call in every run; with the upgraded ones it does so in
the runs in which a write call gets past its flush only when nothing is left of an earlier
message, and in these an acknowledgement is for the message it is taken for.
-/

namespace Ixgbevf.Mailbox.Wire

instance Settles.decide (g : MbxOps) (R : Side → Prop) [DecidablePred R] (s : Wire) :
    (e : Event) → Decidable (Settles g R s e)
  | .step X =>
    (inferInstance : Decidable (g = .upgraded → R X.other → (s.code X).head? = some .clearAck →
      s.phase X = .flushedMsg → s.view.Settled X))
  | .write _ _ | .read _ _ | .pollRead _ _ | .look _ | .giveUp _ => isTrue trivial

/-- An event that may happen under a condition is a step. -/
theorem step_next {G : Wire → Event → Prop} {g : MbxOps} {s : Wire} {e : Event}
    (h : G s e ∧ s.May e) :
  G s e ∧ (system g).step s e (s.next g e)
  := ⟨h.1, h.2, rfl⟩

/-- A run of events that may happen one after another under a condition. -/
theorem reachable_run {G : Wire → Event → Prop} {g : MbxOps} {es : List Event}
    (h : TransSystem.AllAlong (fun s e => G s e ∧ s.May e) (next g) start es) :
  (system g).Reachable G (es.foldl (next g) start)
  := by
  apply TransSystem.Reachable.foldl (fun _ _ => step_next) _ h
  apply TransSystem.Reachable.init rfl

/-- So many accesses of a side. -/
def steps (X : Side) (n : ℕ) : List Event := List.replicate n (.step X)

/-! ### Messages -/

/-- The PF answers with two words and the VF reads them, with the upgraded functions. -/
def answered : List Event :=
  [.write .pf [1, 2]] ++ steps .pf 15 ++ [.pollRead .vf 2] ++ steps .vf 7

/-- With the upgraded functions, the PF writes a second message while the VF copies the
first. -/
def torn : List Event :=
  [.write .pf [1, 2]] ++ steps .pf 15 ++ [.read .vf 2] ++ steps .vf 3
    ++ [.write .pf [3, 4]] ++ steps .pf 15 ++ steps .vf 3

/-- When `ixgbe_write_mbx_vf` has returned 0, the PF has read the message of that call and
acknowledged it, in every run in which the VF flushes its acknowledgement only when the PF
has no notification left and is not in a read call. -/
theorem reachable_confirmed {s : Wire}
    (h : (system .upgraded).Reachable (Settles .upgraded (· = .pf)) s) :
  ∀ x ∈ s.confirmed, x.1 = .vf → s.view.ReadBy .vf x.2
  := by
  have hinv := reachable_inv h
  rintro ⟨X, k⟩ hx rfl
  exact hinv.exchange.confirm _ hx rfl rfl

/-- The VF writes a word, and the PF reads and acknowledges it. -/
def delivered : List Event :=
  [.write .vf [1]] ++ steps .vf 10 ++ [.read .pf 1] ++ steps .pf 6 ++ steps .vf 4

/-- The condition is met when every message is acknowledged before the next one is written. -/
theorem delivered_confirmed :
  (delivered.foldl (next .upgraded) start).confirmed = [(.vf, 0)]
    ∧ ∀ x ∈ (delivered.foldl (next .upgraded) start).confirmed, x.1 = .vf →
      (delivered.foldl (next .upgraded) start).view.ReadBy .vf x.2
  := by
  refine ⟨by decide +kernel, reachable_confirmed ?_⟩
  apply reachable_run
  decide +kernel

/-- The PF copies the first message of the VF, and acknowledges it when the VF has given up on
it and flushed for the second. -/
def lateAck : List Event :=
  [.write .vf [1]] ++ steps .vf 10 ++ [.read .pf 1] ++ steps .pf 4 ++ steps .vf 1 ++ [.giveUp .vf]
    ++ [.write .vf [2]] ++ steps .vf 5 ++ steps .pf 2 ++ steps .vf 9

/-- The acknowledgement of the first message is taken for that of the second. -/
theorem lateAck_not_read :
  ∃ s, (system .upgraded).Reachable TransSystem.always s ∧ (.vf, 1) ∈ s.confirmed
    ∧ ¬ s.view.ReadBy .vf 1
  := by
  refine ⟨lateAck.foldl (next .upgraded) start, ?_, by decide +kernel, ?_⟩
  · apply reachable_run
    decide +kernel
  · rintro ⟨c, r, hc, -, hr, -, hwords⟩
    have hreturned : (lateAck.foldl (next .upgraded) start).view.returned
        = [⟨.pf, true, [(0, ⟨1, some 0⟩)]⟩] := by decide +kernel
    have hcalls : (lateAck.foldl (next .upgraded) start).view.calls[1]? = some ⟨.vf, [2]⟩ := by
      decide +kernel
    rw [hreturned, List.mem_singleton] at hr
    obtain rfl : ⟨.vf, [2]⟩ = c := Option.some.inj (hcalls.symm.trans hc)
    subst hr
    have hword := (hwords _ (List.mem_singleton.mpr rfl)).1 2 rfl
    simp at hword

end Ixgbevf.Mailbox.Wire
