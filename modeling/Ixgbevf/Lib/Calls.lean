import Mathlib.Logic.Basic
import Ixgbevf.Lib.Frame

/-!
# The calls that a stateful program makes

`Calls Valid run m` is a derivation of the program `m` from basic calls: the program is in
the index, so that a derivation follows the text of the program.  A program that reads its
state is derived for the valid states.  Along a derivation, a record of each call from the
state it is made in gives the trace of the whole program.  What every call keeps of the
state and the trace so far, the program keeps.
-/

namespace StateProgram

variable {σ ε : Type} {Call : Type → Type}

/-- A program put together from basic calls. -/
inductive Calls (Valid : σ → Prop) (run : {α : Type} → Call α → StateM σ α) :
    {α : Type} → StateM σ α → Type 1 where
  | pure {α : Type} (a : α) : Calls Valid run (pure a)
  | get {α : Type} {f : σ → StateM σ α} :
      (∀ s, Valid s → Calls Valid run (f s)) → Calls Valid run (get >>= f)
  | bind {α β : Type} {m : StateM σ α} {f : α → StateM σ β} :
      Calls Valid run m → (∀ a, Calls Valid run (f a)) → Calls Valid run (m >>= f)
  | ite {α : Type} {p : Prop} [Decidable p] {m m' : StateM σ α} :
      Calls Valid run m → Calls Valid run m' → Calls Valid run (if p then m else m')
  | call {α : Type} (c : Call α) : Calls Valid run (run c)

namespace Calls

variable {Valid : σ → Prop} {run : {α : Type} → Call α → StateM σ α} {α : Type} {m : StateM σ α}

/-- The records of the calls of a program from a state, in order. -/
def trace [DecidablePred Valid] (record : {α : Type} → Call α → σ → List ε) :
    {α : Type} → {m : StateM σ α} → Calls Valid run m → σ → List ε
  | _, _, pure _, _ => []
  | _, _, get c, s => if h : Valid s then (c s h).trace record s else []
  | _, _, @bind _ _ _ _ _ _ m _ c d, s =>
      c.trace record s ++ (d (m.run s).1).trace record (m.run s).2
  | _, _, @ite _ _ _ _ _ p _ _ _ c d, s => if p then c.trace record s else d.trace record s
  | _, _, call c, s => record c s

/-- Every call of a program has the property `Q`. -/
def All (Q : {α : Type} → Call α → Prop) :
    {α : Type} → {m : StateM σ α} → Calls Valid run m → Prop
  | _, _, pure _ => True
  | _, _, get c => ∀ s h, (c s h).All Q
  | _, _, bind c d => c.All Q ∧ ∀ a, (d a).All Q
  | _, _, ite c d => c.All Q ∧ d.All Q
  | _, _, call c => Q c

variable [DecidablePred Valid] {record : {α : Type} → Call α → σ → List ε}

/-- What every call keeps of the state and of the trace so far, the program keeps. -/
theorem trace_keeps {I : σ → List ε → Prop} (hvalid : ∀ s es, I s es → Valid s)
    (hcall : ∀ {α : Type} (c : Call α) s es, I s es → I ((run c).run s).2 (es ++ record c s))
    (c : Calls Valid run m) {s : σ} {es : List ε} (h : I s es) :
  I (m.run s).2 (es ++ c.trace record s)
  := by
  induction c generalizing s es with
  | pure =>
    rw [trace, List.append_nil]
    apply h
  | get c ih =>
    have hs : Valid s := hvalid _ _ h
    rw [trace, dif_pos hs]
    apply ih s hs h
  | bind c d ihc ihd =>
    rw [trace, ← List.append_assoc]
    apply ihd
    apply ihc h
  | ite c d ihc ihd =>
    rw [trace]
    split
    · apply ihc h
    · apply ihd h
  | call c => apply hcall c _ _ h

/-- What the records of calls with the property `Q` have, the trace has. -/
theorem trace_forall {Q : {α : Type} → Call α → Prop} {P : ε → Prop}
    (hQ : ∀ {α : Type} (c : Call α) s, Q c → ∀ e ∈ record c s, P e)
    (c : Calls Valid run m) (h : c.All Q) (s : σ) :
  ∀ e ∈ c.trace record s, P e
  := by
  induction c generalizing s with
  | pure => simp [trace]
  | get c ih =>
    rw [trace]
    split
    next hs => apply ih s hs (h s hs)
    · simp
  | bind c d ihc ihd =>
    rw [trace]
    intro e he
    obtain he | he := List.mem_append.mp he
    · apply ihc h.1 _ _ he
    · apply ihd _ (h.2 _) _ _ he
  | ite c d ihc ihd =>
    rw [trace]
    split
    · apply ihc h.1
    · apply ihd h.2
  | call c => apply hQ c s h

end Calls

end StateProgram
