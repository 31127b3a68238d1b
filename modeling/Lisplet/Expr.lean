import Lisplet.Value.Render

/-!
# Expressions

An expression is a constant, a name to be looked up, or an operator applied to arguments. The
operator is a name and never itself an expression. An embedding program may also put an object of
its own where an expression is expected.

`Expr.text` writes an expression on one line, `Expr.tokens` gives the tokens of that line, and
`Expr.height` counts how deep compounds are nested. `Expr.textWithin` is the text as the program
shows it, which only so much nesting has.
-/

namespace Lisplet

/-- What stands in the place of an expression and is none. -/
inductive Stranger where
  | object (foreign : Foreign)
  /-- Syntax around a name that is no text; it cannot be shown, for this cause. -/
  | misnamed (cause : Error)
  deriving DecidableEq

inductive Expr where
  | literal (value : Value)
  | symbol (name : String)
  | compound (operator : String) (args : List Expr)
  /-- Something that is no expression. -/
  | foreign (stranger : Stranger)

/-- Induction over expressions: a compound is reached from its arguments. -/
@[induction_eliminator]
theorem Expr.induction {motive : Expr → Prop} (literal : ∀ value, motive (.literal value))
    (symbol : ∀ name, motive (.symbol name))
    (compound : ∀ operator args, (∀ arg ∈ args, motive arg) → motive (.compound operator args))
    (foreign : ∀ stranger, motive (.foreign stranger)) (e : Expr) : motive e :=
  @Expr.rec motive (fun args => ∀ arg ∈ args, motive arg) literal symbol compound foreign
    (fun _ h => absurd h List.not_mem_nil)
    (fun _ _ hfirst hrest => List.forall_mem_cons.mpr ⟨hfirst, hrest⟩) e

namespace Stranger

def text : Stranger → Except Error String
  | .object foreign => .ok foreign.shown
  | .misnamed cause => .error cause

/-- The complaint when a stranger is to be evaluated. -/
def notAnExpression : Stranger → Error
  | .object foreign => .notAnExpression foreign.shown
  | .misnamed cause => cause

/-- The complaint when a stranger stands where a name must be bound: it is not even a literal of
some kind. -/
def notALiteral : Stranger → Error
  | .object foreign => .unsupported .literal foreign.typeName
  | .misnamed cause => cause

end Stranger

namespace Expr

mutual
/-- Structural equality. -/
def same : Expr → Expr → Bool
  | .literal v, .literal w => decide (v = w)
  | .symbol x, .symbol y => decide (x = y)
  | .compound f as, .compound g bs => decide (f = g) && sameAll as bs
  | .foreign s, .foreign t => decide (s = t)
  | _, _ => false

/-- Structural equality, argument by argument. -/
def sameAll : List Expr → List Expr → Bool
  | [], [] => true
  | a :: as, b :: bs => same a b && sameAll as bs
  | _, _ => false
end

mutual
theorem same_iff : ∀ a b : Expr, same a b = true ↔ a = b
  | .literal v, b => by cases b <;> simp [same]
  | .symbol x, b => by cases b <;> simp [same]
  | .compound f as, b => by
    cases b with
    | compound g bs => simp [same, sameAll_iff as bs]
    | _ => simp [same]
  | .foreign s, b => by cases b <;> simp [same]

theorem sameAll_iff : ∀ as bs : List Expr, sameAll as bs = true ↔ as = bs
  | [], bs => by cases bs <;> simp [sameAll]
  | a :: as, bs => by
    cases bs with
    | nil => simp [sameAll]
    | cons b bs => simp [sameAll, same_iff a b, sameAll_iff as bs]
end

instance : DecidableEq Expr := fun a b => decidable_of_iff _ (same_iff a b)

mutual
/-- The expression on one line: a literal as it is rendered, a name as it is, a compound between
parentheses with single spaces. -/
def text : Expr → Except Error String
  | .literal v => v.render
  | .symbol name => .ok name
  | .compound operator args => do
    let rest ← argsText args
    return "(" ++ operator ++ rest ++ ")"
  | .foreign stranger => stranger.text

/-- Each argument with a space in front. -/
def argsText : List Expr → Except Error String
  | [] => .ok ""
  | arg :: args => do
    let first ← text arg
    let rest ← argsText args
    return " " ++ first ++ rest
end

/-- The symbol of a given name. -/
def ofName : Value → Expr
  | .string name => .symbol name
  | v => .foreign (.misnamed (.unsupported .name v.typeName))

/-- The compound of a given operator. The text of a compound shows its arguments first. -/
def ofOperator (operator : Value) (args : List Expr) : Expr :=
  match operator with
  | .string name => .compound name args
  | v =>
    match argsText args with
    | .error cause => .foreign (.misnamed cause)
    | .ok _ => .foreign (.misnamed (.unsupported .operator v.typeName))

mutual
/-- The tokens that write an expression; what is none has no tokens. -/
def tokens : Expr → List Token
  | .literal v => [.literal v]
  | .symbol name => [.symbol name]
  | .compound operator args =>
    Token.lparen :: Token.symbol operator :: argsTokens args ++ [Token.rparen]
  | .foreign _ => []

def argsTokens : List Expr → List Token
  | [] => []
  | arg :: args => tokens arg ++ argsTokens args
end

mutual
/-- How deep compounds are nested; a constant or a name has height zero. -/
def height : Expr → Nat
  | .compound _ args => argsHeight args + 1
  | _ => 0

def argsHeight : List Expr → Nat
  | [] => 0
  | arg :: args => max (height arg) (argsHeight args)
end

mutual
/-- An expression that a program text alone can produce: no foreign objects, every integer fits. -/
def Proper : Expr → Prop
  | .literal v => v.Proper
  | .symbol _ => True
  | .compound _ args => AllProper args
  | .foreign _ => False

def AllProper : List Expr → Prop
  | [] => True
  | arg :: args => Proper arg ∧ AllProper args
end

/-- The text of an expression, as far as the machine's stack carries the writing of it: `bound` is
the height beyond which it gives out. -/
def textWithin (bound : Option Nat) (e : Expr) : Except Error String :=
  if bound.any (· < e.height) then .error .stackExhausted else e.text

theorem textWithin_of_le {bound : Option Nat} {e : Expr} (h : ∀ n ∈ bound, e.height ≤ n) :
    e.textWithin bound = e.text := by
  cases bound with
  | none => rfl
  | some n =>
    have hle : e.height ≤ n := h n rfl
    exact if_neg (by simpa using hle)

theorem allProper_iff {args : List Expr} : AllProper args ↔ ∀ arg ∈ args, arg.Proper := by
  induction args with
  | nil => simp [AllProper]
  | cons arg args ih => simp [AllProper, ih]

end Expr

end Lisplet
