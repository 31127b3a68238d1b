import Lisplet.Expr

/-!
# Reading an expression token by token

The reader keeps the compounds that are still open, innermost first, and takes one token at a
time. Each token either moves it on or is refused; nothing is ever taken back, so the token that is
refused is the first that cannot be right.

Two bounds hold nesting down, and a `Limit` gives both. The configured depth counts from the depth
at which reading starts and may be zero or negative, which admits no compound at all. The other is
what the machine's stack carries. That depends on what else is on the stack, for one on whether the
tokens are found as they are asked for, so readings of the same tokens may differ in it.
-/

namespace Lisplet

/-- How deep compounds may be nested when they are read. -/
structure Limit where
  /-- The configured depth. -/
  depth : Int
  /-- The compounds open at once that the machine's stack carries. -/
  stack : Nat
  deriving DecidableEq

/-- A compound whose closing parenthesis has not come. -/
structure Frame where
  /-- What the token in the place of the operator holds, which should be a name. -/
  operator : Value
  /-- The arguments read so far, latest first. -/
  args : List Expr

/-- How far the reading of one expression has come; open compounds are listed innermost first. -/
inductive Progress where
  /-- An expression may come, or the end of the innermost compound. -/
  | operand (frames : List Frame)
  /-- A parenthesis has just opened, and the operator must come. -/
  | operator (frames : List Frame)
  /-- The expression is complete. -/
  | whole (e : Expr)

namespace Progress

/-- Before the first token. -/
def start : Progress := .operand []

/-- A complete expression becomes an argument of the innermost open compound, or the whole. -/
def put (e : Expr) : List Frame → Progress
  | [] => .whole e
  | frame :: frames => .operand (⟨frame.operator, e :: frame.args⟩ :: frames)

/-- Opens a compound, unless it would be nested too deep. -/
def enter (limit : Limit) (base : Int) (frames : List Frame) : Except Error Progress :=
  if limit.depth ≤ base + frames.length then .error (.depthExceeded limit.depth)
  else if limit.stack ≤ frames.length then .error .nestedTooDeeply
  else .ok (.operator frames)

/-- Closes the innermost compound. -/
def close : List Frame → Except Error Progress
  | [] => .error .unexpectedClose
  | frame :: frames => .ok (put (.ofOperator frame.operator frame.args.reverse) frames)

/-- Takes one token, `base` being the depth at the start. -/
def step (limit : Limit) (base : Int) : Progress → Token → Except Error Progress
  | .operand frames, t =>
    match t.kind with
    | .nil | .bool | .integer | .string => .ok (put (.literal t.value) frames)
    | .symbol => .ok (put (.ofName t.value) frames)
    | .rparen => close frames
    | .lparen | .other _ => enter limit base frames
  | .operator frames, t =>
    if t.kind = .symbol then .ok (.operand (⟨t.value, []⟩ :: frames))
    else .error (.operatorNotSymbol t)
  | .whole _, t => .error (.trailingToken t)

/-- The complaint when the tokens end before the expression is complete. -/
def endError : Progress → Error
  | .operand [] => .unexpectedEnd
  | _ => .unmatchedOpen

@[simp] theorem step_literal (limit : Limit) (base : Int) (frames : List Frame) (v : Value) :
    step limit base (.operand frames) (Token.literal v) = .ok (put (.literal v) frames) := by
  cases v <;> rfl

@[simp] theorem step_symbol (limit : Limit) (base : Int) (frames : List Frame) (name : String) :
    step limit base (.operand frames) (Token.symbol name) = .ok (put (.symbol name) frames) := rfl

@[simp] theorem step_lparen (limit : Limit) (base : Int) (frames : List Frame) :
    step limit base (.operand frames) Token.lparen = enter limit base frames := rfl

@[simp] theorem step_rparen (limit : Limit) (base : Int) (frames : List Frame) :
    step limit base (.operand frames) Token.rparen = close frames := rfl

@[simp] theorem step_operator (limit : Limit) (base : Int) (frames : List Frame) (name : String) :
    step limit base (.operator frames) (Token.symbol name) =
      .ok (.operand (⟨.string name, []⟩ :: frames)) := rfl

@[simp] theorem close_cons (name : String) (args : List Expr) (frames : List Frame) :
    close (⟨.string name, args⟩ :: frames) = .ok (put (.compound name args.reverse) frames) := rfl

/-- A compound opens exactly when both bounds leave room for it. -/
theorem enter_eq_ok_iff {limit : Limit} {base : Int} {frames : List Frame} {p : Progress} :
    enter limit base frames = .ok p ↔
      p = .operator frames ∧ base + frames.length < limit.depth ∧
        frames.length < limit.stack := by
  unfold enter
  split
  case isTrue h =>
    simp only [reduceCtorEq, false_iff]
    rintro ⟨_, hlt, _⟩
    omega
  case isFalse h =>
    split
    case isTrue hn =>
      simp only [reduceCtorEq, false_iff]
      rintro ⟨_, _, hlt⟩
      omega
    case isFalse hn =>
      constructor
      · intro he
        cases he
        exact ⟨rfl, by omega, by omega⟩
      · rintro ⟨rfl, _, _⟩
        rfl

end Progress

end Lisplet
