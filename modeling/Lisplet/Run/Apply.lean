import Lisplet.Expr
import Lisplet.Operator
import Lisplet.Run
import Lisplet.Value.Arithmetic

/-!
# Applying operators

An operator is given its arguments unevaluated: each as its expression together with the run that
evaluates it. The operator decides which of them run, in which order and how often. Arguments run
from left to right, and the kind of each is checked before the next one runs.

A number of arguments that an operator does not take is refused before any argument runs.
-/

namespace Lisplet

/-- An argument that has not been evaluated. -/
structure Argument where
  expr : Expr
  eval : Run Value

namespace Argument

/-- Evaluates the argument, which must be an integer. -/
def integer (arg : Argument) (op : Operator) (position : Nat) : Run Int := do
  let v ← arg.eval
  Run.lift (v.toInteger op.name position)

/-- Evaluates the argument, which must be a truth value. -/
def bool (arg : Argument) (op : Operator) (position : Nat) : Run Bool := do
  let v ← arg.eval
  Run.lift (v.toBool op.name position)

/-- What stands in place of the name that must be bound. -/
def notAName (arg : Argument) : Error :=
  match arg.expr with
  | .literal v => v.mismatch Operator.global.name 1 .symbol
  | .foreign stranger => stranger.notALiteral
  | .symbol _ | .compound _ _ => .kind Operator.global.name 1 .symbol .compound

end Argument

namespace Operator

/-- Two integer operands, left before right. -/
def integers (op : Operator) (a b : Argument) : Run (Int × Int) := do
  let left ← a.integer op 1
  let right ← b.integer op 2
  return (left, right)

/-- Two truth values, left before right; both always run. -/
def bools (op : Operator) (a b : Argument) : Run (Bool × Bool) := do
  let left ← a.bool op 1
  let right ← b.bool op 2
  return (left, right)

/-- Combines the arguments with what has been combined before them. Each intermediate result must
be an integer of the language, and the arguments after one that is not do not run. -/
def fold (op : Operator) (combine : Int → Int → Int) :
    Int → Nat → List Argument → Run Int
  | result, _, [] => pure result
  | result, position, arg :: args => do
    let n ← arg.integer op position
    let result ← Run.lift (checkedInteger (combine result n) op.name)
    fold op combine result (position + 1) args

/-- Runs the arguments in turn; the last value counts. -/
def sequence : Value → List Argument → Run Value
  | last, [] => pure last
  | _, arg :: args => do
    let v ← arg.eval
    sequence v args

/-- Runs the body as long as the condition holds, which is evaluated before every pass. -/
def repeatWhile (cond body : Argument) : Nat → State → Except Halt Value × State
  | passes, s =>
    match (cond.bool .loop 1).result s with
    | (.error h, s) => (.error h, s)
    | (.ok false, s) => (.ok .nil, s)
    | (.ok true, s) =>
      match passes with
      | 0 => (.error .exhausted, s)
      | passes + 1 =>
        match body.eval.result s with
        | (.error h, s) => (.error h, s)
        | (.ok _, s) => repeatWhile cond body passes s

/-- What an operator makes of arguments in a number that it takes. -/
def perform (mode : Mode) : Operator → List Argument → Run Value
  | .add, arg :: args => return .integer (← fold .add (· + ·) 0 1 (arg :: args))
  | .mul, arg :: args => return .integer (← fold .mul (· * ·) 1 1 (arg :: args))
  | .sub, [a, b] => do
    let (left, right) ← integers .sub a b
    return .integer (← Run.lift (checkedInteger (left - right) (name .sub)))
  | .div, [a, b] => do
    let (left, right) ← integers .div a b
    let (quotient, _) ← Run.lift (divide left right (name .div))
    return .integer (← Run.lift (checkedInteger quotient (name .div)))
  | .mod, [a, b] => do
    let (left, right) ← integers .mod a b
    let (_, remainder) ← Run.lift (divide left right (name .mod))
    return .integer remainder
  | .equal, [a, b] => do
    let left ← a.eval
    let right ← b.eval
    return .bool (left = right)
  | .less, [a, b] => do
    let (left, right) ← integers .less a b
    return .bool (left < right)
  | .greater, [a, b] => do
    let (left, right) ← integers .greater a b
    return .bool (right < left)
  | .and, [a, b] => do
    let (left, right) ← bools .and a b
    return .bool (left && right)
  | .or, [a, b] => do
    let (left, right) ← bools .or a b
    return .bool (left || right)
  | .not, [a] => do
    let b ← a.bool .not 1
    return .bool !b
  | .print, [a] => do
    let v ← a.eval
    let text ← Run.lift v.render
    Run.print (text ++ "\n")
    return .nil
  | .branch, [cond, yes] => do
    if ← cond.bool .branch 1 then yes.eval else pure .nil
  | .branch, [cond, yes, no] => do
    if ← cond.bool .branch 1 then yes.eval else no.eval
  | .loop, [cond, body] => ExceptT.mk (repeatWhile cond body mode.passes)
  | .block, args => sequence .nil args
  | .global, [target, value] =>
    match target.expr with
    | .symbol x => do
      let v ← value.eval
      Run.define mode x v
      return .nil
    | _ => Run.fail target.notAName
  | op, args => Run.fail (.arity op.name op.arity args.length)

/-- Applies an operator to its arguments, after their number has been checked. -/
def apply (mode : Mode) (op : Operator) (args : List Argument) : Run Value := do
  Run.lift (op.arity.check op.name args.length)
  op.perform mode args

end Operator

end Lisplet
