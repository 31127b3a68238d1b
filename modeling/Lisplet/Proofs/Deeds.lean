import Lisplet.Proofs.Operands

/-!
# What evaluation does, in order

`Expr.deeds` lists what evaluation does to the world: the values that it prints and the bindings
that it makes, in the order in which these are done with. It follows evaluation through the runs of
the arguments: an operator does what the arguments do that it evaluates, from the states in which it
evaluates them, and `print` and `global` add a deed of their own if they come to it.
-/

namespace Lisplet

/-- What a step of evaluation may do to the world. -/
inductive Deed where
  | printed (v : Value)
  | bound (x : String) (v : Value)

namespace Deed

def printed? : Deed → Option Value
  | .printed v => some v
  | .bound _ _ => none

def bound? : Deed → Option (String × Value)
  | .printed _ => none
  | .bound x v => some (x, v)

/-- The value that is printed or bound. -/
def value : Deed → Value
  | .printed v | .bound _ v => v

end Deed

/-- What a run does, given the state in which it starts. -/
abbrev Deeds := State → List Deed

namespace Deeds

variable {α : Type}

def nothing : Deeds := fun _ => []

/-- What the value of a run leads to; if the run has no value, nothing. -/
def after (run : Run α) (next : α → Deeds) : Deeds := fun s =>
  match run.result s with
  | (.ok a, s₁) => next a s₁
  | (.error _, _) => []

/-- What a run does, and then what its value leads to. -/
def followed (first : Deeds) (run : Run α) (next : α → Deeds) : Deeds := fun s =>
  first s ++ after run next s

theorem followed_nothing (first : Deeds) (run : Run α) :
    (first.followed run fun _ => nothing) = first := by
  funext s
  rw [followed, after]
  rcases run.result s with ⟨halt | a, s₁⟩ <;> exact List.append_nil _

/-- A binding that `global` comes to; it is made unless it is refused. -/
def binding (mode : Mode) (x : String) (v : Value) : Deeds :=
  after (Run.define mode x v) fun _ _ => [.bound x v]

end Deeds

/-- An argument with what evaluating it does. -/
structure Tracked extends Argument where
  deeds : Deeds

namespace Operator

def deedsInFold (op : Operator) (combine : Int → Int → Int) : Int → Nat → List Tracked → Deeds
  | _, _, [] => .nothing
  | total, position, arg :: args =>
    arg.deeds.followed (arg.integer op position) fun n =>
      .after (Run.lift (checkedInteger (combine total n) op.name)) fun total =>
        deedsInFold op combine total (position + 1) args

def deedsInTurn : List Tracked → Deeds
  | [] => .nothing
  | arg :: args => arg.deeds.followed arg.eval fun _ => deedsInTurn args

def deedsInLoop (cond body : Tracked) : Nat → Deeds
  | 0 => cond.deeds
  | passes + 1 =>
    cond.deeds.followed (cond.bool .loop 1) fun holds =>
      if holds then body.deeds.followed body.eval fun _ => deedsInLoop cond body passes
      else .nothing

/-- What an operator does with arguments in a number that it takes. -/
def deeds (mode : Mode) : Operator → List Tracked → Deeds
  | .add, args => deedsInFold .add (· + ·) 0 1 args
  | .mul, args => deedsInFold .mul (· * ·) 1 1 args
  | .not, [a] => a.deeds
  | .print, [a] =>
    a.deeds.followed a.eval fun v => .after (Run.lift v.render) fun _ _ => [.printed v]
  | .branch, cond :: yes :: rest =>
    cond.deeds.followed (cond.bool .branch 1) fun holds =>
      if holds then yes.deeds
      else
        match rest with
        | [] => .nothing
        | no :: _ => no.deeds
  | .loop, [cond, body] => deedsInLoop cond body mode.passes
  | .block, args => deedsInTurn args
  | .global, [target, value] =>
    match target.expr with
    | .symbol x =>
      value.deeds.followed value.eval fun v => .binding mode x v
    | _ => .nothing
  | op, [a, b] => a.deeds.followed (a.operand op 1) fun _ => b.deeds
  | _, _ => .nothing

theorem deeds_fold {op : Operator} {start : Int} {combine : Int → Int → Int}
    (hf : op.Folds start combine) (mode : Mode) (args : List Tracked) :
    op.deeds mode args = op.deedsInFold combine start 1 args := by
  cases hf with
  | add => rfl
  | mul => rfl

theorem deeds_two {op : Operator} (hop : op.TakesTwo) (mode : Mode) (a b : Tracked) :
    op.deeds mode [a, b] = a.deeds.followed (a.operand op 1) fun _ => b.deeds := by
  cases op with
  | sub | div | mod | equal | less | greater | and | or => rfl
  | _ => exact hop.elim

end Operator

namespace Expr

mutual
/-- What evaluation of an expression inside `level` compounds does, in order. -/
def deeds (mode : Mode) (level : Nat) : Expr → Deeds
  | .compound name args =>
    if mode.nesting.any (· ≤ level) then .nothing
    else
      .after (Run.lift (Operator.find name)) fun op =>
        .after (Run.record mode (.applied name args.length)) fun _ =>
          .after (Run.lift (op.arity.check op.name args.length)) fun _ =>
            op.deeds mode (tracked mode (level + 1) args)
  | _ => .nothing

def tracked (mode : Mode) (level : Nat) : List Expr → List Tracked
  | [] => []
  | arg :: args => ⟨⟨arg, eval mode level arg⟩, deeds mode level arg⟩ :: tracked mode level args
end

/-- The arguments as an operator is given them, each with the run that evaluates it. -/
def given (ev : Expr → Run Value) (args : List Expr) : List Argument :=
  args.map fun arg => ⟨arg, ev arg⟩

/-- The arguments with runs and deeds given for each. -/
def givenTracked (ev : Expr → Run Value) (does : Expr → Deeds) (args : List Expr) : List Tracked :=
  args.map fun arg => ⟨⟨arg, ev arg⟩, does arg⟩

theorem tracked_eq_given (mode : Mode) (level : Nat) (args : List Expr) :
    tracked mode level args = givenTracked (eval mode level) (deeds mode level) args := by
  induction args with
  | nil => rfl
  | cons arg args ih =>
    rw [tracked, ih]
    rfl

/-- The values that evaluation prints, in order. -/
def printed (mode : Mode) (level : Nat) (e : Expr) (s : State) : List Value :=
  (e.deeds mode level s).filterMap Deed.printed?

/-- The bindings that evaluation makes, in order. -/
def bound (mode : Mode) (level : Nat) (e : Expr) (s : State) : List (String × Value) :=
  (e.deeds mode level s).filterMap Deed.bound?

end Expr

end Lisplet
