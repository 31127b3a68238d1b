import Lisplet.Run.Apply

/-!
# Evaluating expressions

A constant evaluates to itself, a name to what it is bound to, and a compound to what its operator
makes of the arguments. The operator is looked up before anything else, then the application is
recorded, and then the operator takes over.

The recursion is on the expression alone: loops are bounded by the passes that the mode allows, and
there are no procedures. A compound beyond the nesting that the mode allows is refused only when it
is about to be evaluated, so what ran before it has had its effect.
-/

namespace Lisplet

namespace Expr

mutual
/-- Evaluates an expression that stands inside `level` compounds. -/
def eval (mode : Mode) (level : Nat) : Expr → Run Value
  | .literal v => pure v
  | .symbol name => Run.lookup name
  | .compound name args => do
    if mode.nesting.any (· ≤ level) then Run.fail .nestedTooDeeply
    let op ← Run.lift (Operator.find name)
    Run.record mode (.applied name args.length)
    op.apply mode (arguments mode (level + 1) args)
  | .foreign stranger => Run.fail stranger.notAnExpression

/-- The arguments of a compound, none of them evaluated. -/
def arguments (mode : Mode) (level : Nat) : List Expr → List Argument
  | [] => []
  | arg :: args => ⟨arg, eval mode level arg⟩ :: arguments mode level args
end

theorem arguments_eq_map (mode : Mode) (level : Nat) (args : List Expr) :
    arguments mode level args = args.map fun arg => ⟨arg, eval mode level arg⟩ := by
  induction args with
  | nil => rfl
  | cons arg args ih => rw [arguments, ih, List.map_cons]

end Expr

end Lisplet
