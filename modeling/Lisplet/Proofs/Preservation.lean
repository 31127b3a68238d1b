import Lisplet.Proofs.Language

/-!
# Runs keep to values of the language

`Run.Keeps` says of a run that it leaves only proper bindings where it finds only proper ones, and
what is then known of its value. The bindings are accounted for however the run ends: with a value,
with an error in the middle, refused as nested too deeply, or stopped for want of passes. Evaluation
has this property because it keeps to the vocabulary of the language.

Of a remainder more is known: it is an integer. This is followed through the operator itself.
-/

namespace Lisplet

namespace Run

variable {α β : Type}

/-- From proper bindings the run leaves proper bindings, and its value, if any, satisfies `Q`. -/
def Keeps (run : Run α) (Q : α → Prop) : Prop :=
  ∀ s : State, s.env.Proper →
    (run.result s).2.env.Proper ∧ ∀ a, (run.result s).1 = .ok a → Q a

theorem Keeps.imp {run : Run α} {P Q : α → Prop} (h : Keeps run P) (himp : ∀ a, P a → Q a) :
    Keeps run Q :=
  fun s hs => ⟨(h s hs).1, fun a ha => himp a ((h s hs).2 a ha)⟩

theorem Keeps.pure {Q : α → Prop} {a : α} (ha : Q a) : Keeps (pure a) Q := by
  intro s hs
  refine ⟨hs, ?_⟩
  intro b hb
  cases hb
  exact ha

theorem Keeps.throw {Q : α → Prop} (h : Halt) : Keeps (throw h) Q := by
  intro s hs
  refine ⟨hs, ?_⟩
  intro b hb
  cases hb

theorem Keeps.lift {Q : α → Prop} {r : Except Error α} (hr : ∀ a, r = .ok a → Q a) :
    Keeps (lift r) Q := by
  cases r with
  | ok a => exact .pure (hr a rfl)
  | error cause => exact .throw _

theorem Keeps.bind {run : Run α} {next : α → Run β} {P : α → Prop} {Q : β → Prop}
    (h : Keeps run P) (hnext : ∀ a, P a → Keeps (next a) Q) : Keeps (run >>= next) Q := by
  intro s hs
  obtain ⟨hs₁, hP⟩ := h s hs
  rw [result_bind]
  rcases hr : run.result s with ⟨halt | a, s₁⟩
  · rw [hr] at hs₁
    refine ⟨hs₁, ?_⟩
    intro b hb
    cases hb
  · rw [hr] at hs₁ hP
    exact hnext a (hP a rfl) s₁ hs₁

/-- A run that leaves the bindings as they are. -/
theorem Keeps.of_env_eq {run : Run α} (h : ∀ s, (run.result s).2.env = s.env) :
    Keeps run fun _ => True := by
  intro s hs
  refine ⟨?_, fun _ _ => trivial⟩
  rw [h]
  exact hs

theorem Keeps.record (mode : Mode) (r : Record) : Keeps (record mode r) fun _ => True := by
  refine .of_env_eq fun s => ?_
  rw [result_record]
  split <;> rfl

theorem Keeps.tryCatch {run : Run α} {handle : Halt → Run α} {Q : α → Prop} (h : Keeps run Q)
    (hhandle : ∀ halt, Keeps (handle halt) Q) : Keeps (tryCatch run handle) Q := by
  intro s hs
  obtain ⟨hs₁, hQ⟩ := h s hs
  rw [result_tryCatch]
  rcases hr : run.result s with ⟨halt | a, s₁⟩
  · rw [hr] at hs₁
    exact hhandle halt s₁ hs₁
  · rw [hr] at hs₁ hQ
    exact ⟨hs₁, hQ⟩

end Run

open Run

/-- Evaluating the argument keeps to values of the language. -/
def Argument.Kept (arg : Argument) : Prop := Keeps arg.eval Value.Proper

namespace Operator

theorem keeps_operand {arg : Argument} (ha : arg.Kept) (op : Operator) (position : Nat) :
    Keeps (arg.operand op position) fun v => v.Proper ∧ Checked op position (.ok v) (.ok v) := by
  refine ha.bind fun v hv => .lift fun u hu => ?_
  have hc := op.checked_of_examine position hv
  rw [hu] at hc
  obtain ⟨hvu, -⟩ := kind?_of_checked hc
  cases hvu
  exact ⟨hv, hc⟩

/-- The value comes from operands that the rules combine to it. -/
theorem keeps_two {op : Operator} (hop : op.TakesTwo) {a b : Argument} (ha : a.Kept)
    (hb : b.Kept) (mode : Mode) :
    Keeps (op.perform mode [a, b]) fun r => r.Proper ∧ ∃ u v, op.Combines u v (.ok r) := by
  rw [perform_two hop]
  refine (keeps_operand ha op 1).bind fun u hu => ?_
  refine (keeps_operand hb op 2).bind fun v hv => .lift fun r hr => ?_
  obtain ⟨r', hc⟩ := exists_combines hop hu.2 hv.2
  obtain rfl : r' = .ok r := (hc.outcome_eq hu.1 hv.1).symm.trans hr
  exact ⟨hc.proper hu.1, u, v, hc⟩

end Operator

namespace Expr

/-- A compound does nothing but what its operator does, if the operator is known and the compound
is not refused for its nesting. -/
theorem keeps_compound {mode : Mode} {level : Nat} {f : String} {args : List Expr}
    {Q : Value → Prop}
    (h : ∀ op : Operator, op.name = f → Keeps (op.apply mode (arguments mode (level + 1) args)) Q) :
    Keeps ((compound f args).eval mode level) Q := by
  have happlied : Keeps (do
      let op ← lift (Operator.find f)
      record mode (.applied f args.length)
      op.apply mode (arguments mode (level + 1) args)) Q := by
    refine Keeps.bind (.lift fun op hf => Operator.find_eq_ok_iff.mp hf) fun op hop => ?_
    exact (Keeps.record mode _).bind fun _ _ => h op hop
  rw [eval]
  split
  · exact .throw _
  · exact happlied

/-- Evaluation of what a program text can produce keeps to values of the language. -/
theorem keeps_eval (mode : Mode) (e : Expr) (level : Nat) (he : e.Proper) :
    Keeps (e.eval mode level) Value.Proper := by
  intro s hs
  have hcoupled := coupled_eval (Eq.refl mode.passes) rfl he level s s ⟨rfl, hs⟩
  exact ⟨hcoupled.states.proper, hcoupled.value⟩

/-- A remainder is an integer that fits, although nothing checks that it does. -/
theorem keeps_remainder (mode : Mode) (level : Nat) {a b : Expr} (ha : a.Proper)
    (hb : b.Proper) :
    Keeps ((compound "%" [a, b]).eval mode level) fun v => ∃ n, v = .integer n ∧ Fits n := by
  refine keeps_compound fun op hop => ?_
  obtain rfl : op = .mod := Operator.name_injective hop
  have ha' : Argument.Kept ⟨a, a.eval mode (level + 1)⟩ := keeps_eval mode a (level + 1) ha
  have hb' : Argument.Kept ⟨b, b.eval mode (level + 1)⟩ := keeps_eval mode b (level + 1) hb
  rw [Operator.apply]
  refine Keeps.bind (.lift fun _ _ => trivial) fun _ _ => ?_
  refine (Operator.keeps_two (by exact trivial) ha' hb' mode).imp fun r hr => ?_
  obtain ⟨hproper, u, v, hc⟩ := hr
  cases hc with
  | mod m hn => exact ⟨_, rfl, hproper⟩

end Expr

end Lisplet
