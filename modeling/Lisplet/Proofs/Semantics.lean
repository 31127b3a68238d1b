import Lisplet.Run.Eval

/-!
# The meaning of expressions as rules

`Evaluates` relates what is evaluated, the world it starts in, its outcome and the world it leaves,
by one set of rules for each form of the language. A world is the environment and the text printed;
debug records are no part of it. A derivation is finite, so a loop that does not end has none. An
error ends everything around it at once, in the world that it occurred in.

The rules speak about values of the language. A foreign object that reaches an operator which needs
a kind has no rule.
-/

namespace Lisplet

structure World where
  env : Env
  output : String

def State.world (s : State) : World := ⟨s.env, s.output⟩

namespace World

def print (w : World) (text : String) : World := { w with output := w.output ++ text }

def define (w : World) (name : String) (value : Value) : World :=
  { w with env := w.env.define name value }

end World

namespace Operator

/-- The kind that an operator needs in a position, if it needs one there. -/
def demands : Operator → Nat → Option Kind
  | .add, _ | .mul, _ | .sub, _ | .div, _ | .mod, _ | .less, _ | .greater, _ => some .integer
  | .and, _ | .or, _ | .not, _ => some .bool
  | .branch, 1 | .loop, 1 => some .bool
  | _, _ => none

/-- The outcome of an argument after its kind has been checked, which happens before anything else
is evaluated. -/
inductive Checked (op : Operator) (position : Nat) : Except Error Value → Except Error Value → Prop
  | failed (cause : Error) : Checked op position (.error cause) (.error cause)
  | admitted {v : Value} (hk : ∀ kind, op.demands position = some kind → v.kind? = some kind) :
      Checked op position (.ok v) (.ok v)
  | refused {v : Value} {kind actual : Kind} (hd : op.demands position = some kind)
      (hv : v.kind? = some actual) (hne : actual ≠ kind) :
      Checked op position (.ok v)
        (.error (.kind op.name position (.value kind) (.value actual)))

/-- An integer result, which must fit. -/
def bounded (op : Operator) (n : Int) : Except Error Value :=
  if Fits n then .ok (.integer n) else .error (.overflow op.name n)

/-- The operators of two operands, and what they make of them once both are there. -/
inductive Combines : Operator → Value → Value → Except Error Value → Prop
  | sub (a b : Int) : Combines .sub (.integer a) (.integer b) (bounded .sub (a - b))
  | divZero (a : Int) :
      Combines .div (.integer a) (.integer 0) (.error (.divisionByZero (name .div)))
  | div (a : Int) {b : Int} (hb : b ≠ 0) :
      Combines .div (.integer a) (.integer b) (bounded .div (a.tdiv b))
  | modZero (a : Int) :
      Combines .mod (.integer a) (.integer 0) (.error (.divisionByZero (name .mod)))
  | mod (a : Int) {b : Int} (hb : b ≠ 0) :
      Combines .mod (.integer a) (.integer b) (.ok (.integer (a.tmod b)))
  | equal (v v' : Value) : Combines .equal v v' (.ok (.bool (v = v')))
  | less (a b : Int) : Combines .less (.integer a) (.integer b) (.ok (.bool (a < b)))
  | greater (a b : Int) : Combines .greater (.integer a) (.integer b) (.ok (.bool (b < a)))
  | and (a b : Bool) : Combines .and (.bool a) (.bool b) (.ok (.bool (a && b)))
  | or (a b : Bool) : Combines .or (.bool a) (.bool b) (.ok (.bool (a || b)))

/-- The operators of any number of operands, with the total of none and the next total. -/
inductive Folds : Operator → Int → (Int → Int → Int) → Prop
  | add : Folds .add 0 (· + ·)
  | mul : Folds .mul 1 (· * ·)

/-- The operators that evaluate two arguments whatever the first one is. -/
def TakesTwo : Operator → Prop
  | .sub | .div | .mod | .equal | .less | .greater | .and | .or => True
  | _ => False

end Operator

/-- What is evaluated: an expression, or the rest of what a sum or product, a block or a loop has
begun. -/
inductive Task where
  | expr (e : Expr)
  /-- The arguments from a position on, added to a total. -/
  | terms (op : Operator) (total : Int) (position : Nat) (args : List Expr)
  /-- The arguments of a block, after one with this value. -/
  | sequence (last : Value) (args : List Expr)
  | loop (cond body : Expr)

open Operator in
inductive Evaluates : Task → World → Except Error Value → World → Prop
  | literal (v : Value) (w : World) : Evaluates (.expr (.literal v)) w (.ok v) w
  | bound {x : String} {v : Value} {w : World} (h : w.env.get? x = some v) :
      Evaluates (.expr (.symbol x)) w (.ok v) w
  | unbound {x : String} {w : World} (h : w.env.get? x = none) :
      Evaluates (.expr (.symbol x)) w (.error (.unboundSymbol x)) w
  -- the operator is looked up first, then the number of arguments is checked
  | unknown {f : String} {args : List Expr} {w : World} (h : ∀ op : Operator, op.name ≠ f) :
      Evaluates (.expr (.compound f args)) w (.error (.unknownOperator f)) w
  | arity {op : Operator} {args : List Expr} {w : World} (h : ¬op.arity.Admits args.length) :
      Evaluates (.expr (.compound op.name args)) w
        (.error (.arity op.name op.arity args.length)) w
  -- sums and products: the total must fit after every argument
  | fold {op : Operator} {start : Int} {combine : Int → Int → Int} {a : Expr} {rest : List Expr}
      {w w₁ : World} {o : Except Error Value} (hf : op.Folds start combine)
      (ht : Evaluates (.terms op start 1 (a :: rest)) w o w₁) :
      Evaluates (.expr (.compound op.name (a :: rest))) w o w₁
  | termsDone (op : Operator) (total : Int) (position : Nat) (w : World) :
      Evaluates (.terms op total position []) w (.ok (.integer total)) w
  | termEnds {op : Operator} {total : Int} {position : Nat} {a : Expr} {rest : List Expr}
      {w w₁ : World} {o : Except Error Value} {cause : Error} (ha : Evaluates (.expr a) w o w₁)
      (hc : Checked op position o (.error cause)) :
      Evaluates (.terms op total position (a :: rest)) w (.error cause) w₁
  | termOverflows {op : Operator} {start total n : Int} {combine : Int → Int → Int}
      {position : Nat} {a : Expr} {rest : List Expr} {w w₁ : World} (hf : op.Folds start combine)
      (ha : Evaluates (.expr a) w (.ok (.integer n)) w₁) (hn : ¬Fits (combine total n)) :
      Evaluates (.terms op total position (a :: rest)) w
        (.error (.overflow op.name (combine total n))) w₁
  | termAdds {op : Operator} {start total n : Int} {combine : Int → Int → Int}
      {position : Nat} {a : Expr} {rest : List Expr} {w w₁ w₂ : World} {o : Except Error Value}
      (hf : op.Folds start combine) (ha : Evaluates (.expr a) w (.ok (.integer n)) w₁)
      (hn : Fits (combine total n))
      (hr : Evaluates (.terms op (combine total n) (position + 1) rest) w₁ o w₂) :
      Evaluates (.terms op total position (a :: rest)) w o w₂
  -- two operands: both are evaluated, also by `and` and `or`
  | firstEnds {op : Operator} {a b : Expr} {w w₁ : World} {o : Except Error Value} {cause : Error}
      (hop : op.TakesTwo) (ha : Evaluates (.expr a) w o w₁) (hc : Checked op 1 o (.error cause)) :
      Evaluates (.expr (.compound op.name [a, b])) w (.error cause) w₁
  | secondEnds {op : Operator} {a b : Expr} {u : Value} {w w₁ w₂ : World}
      {o o' : Except Error Value} {cause : Error} (hop : op.TakesTwo)
      (ha : Evaluates (.expr a) w o w₁) (hca : Checked op 1 o (.ok u))
      (hb : Evaluates (.expr b) w₁ o' w₂) (hcb : Checked op 2 o' (.error cause)) :
      Evaluates (.expr (.compound op.name [a, b])) w (.error cause) w₂
  | operands {op : Operator} {a b : Expr} {u v : Value} {w w₁ w₂ : World}
      {o o' r : Except Error Value} (ha : Evaluates (.expr a) w o w₁) (hca : Checked op 1 o (.ok u))
      (hb : Evaluates (.expr b) w₁ o' w₂) (hcb : Checked op 2 o' (.ok v))
      (hr : op.Combines u v r) :
      Evaluates (.expr (.compound op.name [a, b])) w r w₂
  | negationEnds {a : Expr} {w w₁ : World} {o : Except Error Value} {cause : Error}
      (ha : Evaluates (.expr a) w o w₁) (hc : Checked .not 1 o (.error cause)) :
      Evaluates (.expr (.compound (name .not) [a])) w (.error cause) w₁
  | negation {a : Expr} {b : Bool} {w w₁ : World}
      (ha : Evaluates (.expr a) w (.ok (.bool b)) w₁) :
      Evaluates (.expr (.compound (name .not) [a])) w (.ok (.bool !b)) w₁
  | printFails {a : Expr} {cause : Error} {w w₁ : World}
      (ha : Evaluates (.expr a) w (.error cause) w₁) :
      Evaluates (.expr (.compound (name .print) [a])) w (.error cause) w₁
  | print {a : Expr} {v : Value} {text : String} {w w₁ : World}
      (ha : Evaluates (.expr a) w (.ok v) w₁) (hv : v.render = .ok text) :
      Evaluates (.expr (.compound (name .print) [a])) w (.ok .nil) (w₁.print (text ++ "\n"))
  -- of two branches only the one taken; `rest` is the other one, if there is one
  | branchEnds {c yes : Expr} {rest : List Expr} {w w₁ : World} {o : Except Error Value}
      {cause : Error} (hrest : rest.length ≤ 1) (hc : Evaluates (.expr c) w o w₁)
      (hk : Checked .branch 1 o (.error cause)) :
      Evaluates (.expr (.compound (name .branch) (c :: yes :: rest))) w (.error cause) w₁
  | branchYes {c yes : Expr} {rest : List Expr} {w w₁ w₂ : World} {o : Except Error Value}
      (hrest : rest.length ≤ 1) (hc : Evaluates (.expr c) w (.ok (.bool true)) w₁)
      (hy : Evaluates (.expr yes) w₁ o w₂) :
      Evaluates (.expr (.compound (name .branch) (c :: yes :: rest))) w o w₂
  | branchNo {c yes no : Expr} {w w₁ w₂ : World} {o : Except Error Value}
      (hc : Evaluates (.expr c) w (.ok (.bool false)) w₁) (hn : Evaluates (.expr no) w₁ o w₂) :
      Evaluates (.expr (.compound (name .branch) [c, yes, no])) w o w₂
  | branchNone {c yes : Expr} {w w₁ : World}
      (hc : Evaluates (.expr c) w (.ok (.bool false)) w₁) :
      Evaluates (.expr (.compound (name .branch) [c, yes])) w (.ok .nil) w₁
  -- the condition is evaluated again before every pass
  | loop {c body : Expr} {w w₁ : World} {o : Except Error Value}
      (hl : Evaluates (.loop c body) w o w₁) :
      Evaluates (.expr (.compound (name .loop) [c, body])) w o w₁
  | loopEnds {c body : Expr} {w w₁ : World} {o : Except Error Value} {cause : Error}
      (hc : Evaluates (.expr c) w o w₁) (hk : Checked .loop 1 o (.error cause)) :
      Evaluates (.loop c body) w (.error cause) w₁
  | loopDone {c body : Expr} {w w₁ : World} (hc : Evaluates (.expr c) w (.ok (.bool false)) w₁) :
      Evaluates (.loop c body) w (.ok .nil) w₁
  | loopFails {c body : Expr} {cause : Error} {w w₁ w₂ : World}
      (hc : Evaluates (.expr c) w (.ok (.bool true)) w₁)
      (hb : Evaluates (.expr body) w₁ (.error cause) w₂) :
      Evaluates (.loop c body) w (.error cause) w₂
  | loopAgain {c body : Expr} {v : Value} {w w₁ w₂ w₃ : World} {o : Except Error Value}
      (hc : Evaluates (.expr c) w (.ok (.bool true)) w₁)
      (hb : Evaluates (.expr body) w₁ (.ok v) w₂) (hr : Evaluates (.loop c body) w₂ o w₃) :
      Evaluates (.loop c body) w o w₃
  -- a block has the value of its last argument, and nil without arguments
  | block {args : List Expr} {w w₁ : World} {o : Except Error Value}
      (hs : Evaluates (.sequence .nil args) w o w₁) :
      Evaluates (.expr (.compound (name .block) args)) w o w₁
  | sequenceDone (last : Value) (w : World) : Evaluates (.sequence last []) w (.ok last) w
  | sequenceFails {a : Expr} {rest : List Expr} {last : Value} {cause : Error} {w w₁ : World}
      (ha : Evaluates (.expr a) w (.error cause) w₁) :
      Evaluates (.sequence last (a :: rest)) w (.error cause) w₁
  | sequenceNext {a : Expr} {rest : List Expr} {last v : Value} {w w₁ w₂ : World}
      {o : Except Error Value} (ha : Evaluates (.expr a) w (.ok v) w₁)
      (hr : Evaluates (.sequence v rest) w₁ o w₂) :
      Evaluates (.sequence last (a :: rest)) w o w₂
  -- the name is taken as it is, and nothing but a name will do
  | globalLiteral {v : Value} {kind : Kind} {a : Expr} {w : World} (hv : v.kind? = some kind) :
      Evaluates (.expr (.compound (name .global) [.literal v, a])) w
        (.error (.kind (name .global) 1 .symbol (.value kind))) w
  | globalCompound {f : String} {args : List Expr} {a : Expr} {w : World} :
      Evaluates (.expr (.compound (name .global) [.compound f args, a])) w
        (.error (.kind (name .global) 1 .symbol .compound)) w
  | globalFails {x : String} {a : Expr} {cause : Error} {w w₁ : World}
      (ha : Evaluates (.expr a) w (.error cause) w₁) :
      Evaluates (.expr (.compound (name .global) [.symbol x, a])) w (.error cause) w₁
  | global {x : String} {a : Expr} {v : Value} {w w₁ : World}
      (ha : Evaluates (.expr a) w (.ok v) w₁) :
      Evaluates (.expr (.compound (name .global) [.symbol x, a])) w (.ok .nil) (w₁.define x v)

end Lisplet
