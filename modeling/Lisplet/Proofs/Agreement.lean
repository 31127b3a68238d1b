import Lisplet.Proofs.Answers
import Lisplet.Proofs.Reports
import Lisplet.Proofs.SessionInvariant

/-!
# The read loop and the script agree

The read loop answers expressions one by one and goes on after an error; a script stops there. Up
to the first error they do the same: each expression meets the world that the ones before it have
left. Only the debug records differ, and evaluation does not depend on them.
-/

namespace Lisplet

open Run

section Reading

variable {limit : Limit} {fs : List String} {es : List Expr}

end Reading

theorem Expr.ignoresRecords_eval (mode : Mode) {e : Expr} (he : e.Proper) :
    IgnoresRecords (e.eval mode 0) :=
  (inherited_ignoresRecords mode).eval (fun _ => trivial) e he 0

theorem ignoresRecords_evalEach (mode : Mode) {es : List Expr} (hes : ∀ e ∈ es, e.Proper)
    (last : Value) : IgnoresRecords (evalEach mode last es) := by
  induction es generalizing last with
  | nil => exact .of_stateless (result_pure last)
  | cons e es ih =>
    rw [List.forall_mem_cons] at hes
    exact (Expr.ignoresRecords_eval mode hes.1).bind fun v => ih hes.2 v

namespace Dialogue

variable {mode : Mode} {e : Expr} {s t t₁ : State}

end Dialogue

/-- Evaluated in turn, the expressions before this place have values, and the one there fails. -/
def FailsAt (mode : Mode) (s : State) (last : Value) (es : List Expr) (place : Nat)
    (cause : Error) : Prop :=
  ∃ e v t t', es[place]? = some e ∧ (evalEach mode last (es.take place)).result s = (.ok v, t) ∧
    (e.eval mode 0).result t = (.error (.failed cause), t')

theorem FailsAt.succ {mode : Mode} {s s₁ : State} {e : Expr} {es : List Expr} {last v : Value}
    {place : Nat} {cause : Error} (he : (e.eval mode 0).result s = (.ok v, s₁))
    (h : FailsAt mode s₁ v es place cause) : FailsAt mode s last (e :: es) (place + 1) cause := by
  obtain ⟨e', v', t, t', hplace, hbefore, hfails⟩ := h
  refine ⟨e', v', t, t', hplace, ?_, hfails⟩
  rw [List.take_succ_cons, evalEach, result_bind, he]
  exact hbefore

namespace Dialogue

variable {mode : Mode} {es : List Expr}

end Dialogue

/-- Up to records, a script that has been read does what its expressions do in turn. -/
theorem evalScript_alike (mode : Mode) {limit : Limit} {source : String} {es : List Expr}
    (hp : parseAllText limit source = .ok es) (s : State) :
    ((evalScript mode limit source).result s).1 = ((evalEach mode .nil es).result s).1 ∧
      ((evalScript mode limit source).result s).2.world =
        ((evalEach mode .nil es).result s).2.world := by
  obtain ⟨s₀, hs₀, hrun⟩ :=
    record_bind mode (.evaluating es.length) (fun _ => evalEach mode .nil es) s
  rw [evalScript_of_ok hp, hrun]
  exact ignoresRecords_evalEach mode (proper_of_parseAllText hp) .nil s₀ s hs₀

/-- A script is run in one mode beside a read loop in another. They meet the same configured depth,
and each stack carries what is read; in evaluation the stacks carry as much as each other, or both
all of it. Where records are made the read loop can show what it has read. -/
structure Alongside (mode mode' : Mode) (limit limit' : Limit) (es : List Expr) : Prop where
  debug : mode'.debug = mode.debug
  passes : mode'.passes = mode.passes
  depth : limit'.depth = limit.depth
  room : ∀ e ∈ es, e.height ≤ limit'.stack
  carried : mode'.nesting = mode.nesting ∨ ∀ e ∈ es, mode.Carries 0 e ∧ mode'.Carries 0 e
  shown : ∀ e ∈ es, mode.Shows e

namespace Alongside

variable {mode mode' : Mode} {limit limit' : Limit} {es : List Expr}

theorem eval (h : Alongside mode mode' limit limit' es) :
    ∀ e ∈ es, e.eval mode' 0 = e.eval mode 0 := by
  intro e he
  obtain ⟨hdebug, hpasses, -, -, hcarried, -⟩ := h
  have hmode : ∀ nesting, ({ mode' with nesting := nesting } : Mode) =
      { mode with nesting := nesting, showing := mode'.showing } := by
    intro nesting
    rw [hdebug, hpasses]
  obtain hnesting | hcarries := hcarried
  · rw [← Expr.eval_showing mode mode'.showing, ← hnesting, ← hmode mode'.nesting]
  · obtain ⟨hc, hc'⟩ := hcarries e he
    rw [Expr.eval_of_carries hc', Expr.eval_of_carries hc, hmode none]
    exact e.eval_showing { mode with nesting := none } mode'.showing 0

theorem evalEach (h : Alongside mode mode' limit limit' es) (last : Value) :
    evalEach mode' last es = Lisplet.evalEach mode last es := by
  have heval := h.eval
  clear h
  induction es generalizing last with
  | nil => rfl
  | cons e es ih =>
    rw [List.forall_mem_cons] at heval
    rw [Lisplet.evalEach, Lisplet.evalEach, heval.1]
    exact congrArg _ (funext fun v => ih v heval.2)

end Alongside

end Lisplet
