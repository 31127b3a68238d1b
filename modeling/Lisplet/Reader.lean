import Lisplet.Reader.Progress
import Lisplet.Token.Lex

/-!
# Readers

A reader holds a supply of tokens, at most one token looked at in advance, and the limit on
nesting. Its operations answer together with the reader as they leave it, also when they fail: the
refused token is used up, and the next operation goes on behind it.

`parse` reads exactly one expression from a whole supply, `parseAll` every expression of it. Both
ask for tokens one by one, so an error in the tokens read wins over a supply that breaks off later.
-/

namespace Lisplet

/-- Why the reading of one expression stopped before it was complete. -/
inductive Ending where
  /-- A token was refused; `rest` comes after it. -/
  | refused (cause : Error) (rest : List Token)
  /-- The tokens ended. -/
  | starved (progress : Progress)

/-- Reads on until an expression is complete, and gives the tokens after it. -/
def readFrom (limit : Limit) (base : Int) :
    Progress → List Token → Except Ending (Expr × List Token)
  | .whole e, rest => .ok (e, rest)
  | p, [] => .error (.starved p)
  | p, t :: rest =>
    match p.step limit base t with
    | .ok p => readFrom limit base p rest
    | .error cause => .error (.refused cause rest)

/-- Reads expression after expression until the tokens end or one is refused; `done` are the
expressions read before, latest first. -/
def readAllFrom (limit : Limit) : List Expr → Progress → List Token → List Expr × Ending
  | done, p, [] => (done.reverse, .starved p)
  | done, p, t :: rest =>
    match p.step limit 0 t with
    | .ok (.whole e) => readAllFrom limit (e :: done) .start rest
    | .ok p => readAllFrom limit done p rest
    | .error cause => (done.reverse, .refused cause rest)

structure Reader where
  /-- The token looked at in advance. -/
  ahead : Option Token
  pending : Supply Token
  /-- How deep compounds may be nested. -/
  limit : Limit

namespace Reader

def ofSupply (pending : Supply Token) (limit : Limit) : Reader := ⟨none, pending, limit⟩

/-- The tokens still to be taken, the one looked at in advance first. -/
def upcoming (r : Reader) : List Token :=
  r.ahead.toList ++ r.pending.items

/-- The reader with nothing looked at and these tokens to come. -/
def withUpcoming (r : Reader) (items : List Token) : Reader :=
  ⟨none, ⟨items, r.pending.fault⟩, r.limit⟩

/-- The reader once its supply has given out. -/
def drained (r : Reader) : Reader :=
  ⟨none, .empty, r.limit⟩

/-- Looks at the next token without taking it. -/
def peek (r : Reader) : Except Error (Option Token) × Reader :=
  match r.ahead with
  | some t => (.ok (some t), r)
  | none =>
    match r.pending.next with
    | (.ok t, pending) => (.ok t, ⟨t, pending, r.limit⟩)
    | (.error e, pending) => (.error e, ⟨none, pending, r.limit⟩)

/-- Takes the next token. -/
def take (r : Reader) : Except Error (Option Token) × Reader :=
  match r.ahead with
  | some t => (.ok (some t), ⟨none, r.pending, r.limit⟩)
  | none =>
    let (answer, pending) := r.pending.next
    (answer, ⟨none, pending, r.limit⟩)

/-- Whether no token is left; looks at the next one to find out. -/
def atEnd (r : Reader) : Except Error Bool × Reader :=
  let (answer, r) := r.peek
  (answer.map Option.isNone, r)

/-- Takes the tokens of one expression, which starts at the given depth. -/
def readExpr (r : Reader) (depth : Int) : Except Error Expr × Reader :=
  match readFrom r.limit depth .start r.upcoming with
  | .ok (e, rest) => (.ok e, r.withUpcoming rest)
  | .error (.refused cause rest) => (.error cause, r.withUpcoming rest)
  | .error (.starved p) => (.error (r.pending.fault.getD p.endError), r.drained)

/-- Takes every expression to come, as a supply that breaks off at the first error. -/
def readAll (r : Reader) : Supply Expr × Reader :=
  match readAllFrom r.limit [] .start r.upcoming with
  | (done, .refused cause rest) => (⟨done, some cause⟩, r.withUpcoming rest)
  | (done, .starved (.operand [])) => (⟨done, r.pending.fault⟩, r.drained)
  | (done, .starved p) => (⟨done, some (r.pending.fault.getD p.endError)⟩, r.drained)

/-- Looking ahead leaves the tokens to come as they are. -/
theorem upcoming_peek (r : Reader) : r.peek.2.upcoming = r.upcoming := by
  obtain ⟨ahead, ⟨items, fault⟩, limit⟩ := r
  cases ahead with
  | some t => rfl
  | none =>
    cases items with
    | cons t items => rfl
    | nil => cases fault <;> rfl

/-- Taking a token removes the first of the tokens to come. -/
theorem upcoming_take (r : Reader) : r.take.2.upcoming = r.upcoming.tail := by
  obtain ⟨ahead, ⟨items, fault⟩, limit⟩ := r
  cases ahead with
  | some t => rfl
  | none =>
    cases items with
    | cons t items => rfl
    | nil => cases fault <;> rfl

@[simp] theorem ahead_take (r : Reader) : r.take.2.ahead = none := by
  unfold take
  split <;> rfl

/-- After reading an expression nothing is looked at in advance, whether it was read or not. -/
@[simp] theorem ahead_readExpr (r : Reader) (depth : Int) : (r.readExpr depth).2.ahead = none := by
  unfold readExpr
  split <;> rfl

@[simp] theorem ahead_readAll (r : Reader) : r.readAll.2.ahead = none := by
  unfold readAll
  split <;> rfl

end Reader

/-- The one expression that the tokens write, none being left over. -/
def parse (limit : Limit) (tokens : Supply Token) : Except Error Expr := do
  let p ← tokens.items.foldlM (Progress.step limit 0) Progress.start
  match tokens.fault, p with
  | some e, _ => .error e
  | none, .whole e => .ok e
  | none, .operand [] => .error .emptyInput
  | none, p => .error p.endError

/-- Every expression that the tokens write, in order. -/
def parseAll (limit : Limit) (tokens : Supply Token) : Except Error (List Expr) :=
  (Reader.ofSupply tokens limit).readAll.1.toList

/-- The one expression of a source text. -/
def parseText (limit : Limit) (source : String) : Except Error Expr :=
  parse limit (tokens source)

/-- Every expression of a source text. -/
def parseAllText (limit : Limit) (source : String) : Except Error (List Expr) :=
  parseAll limit (tokens source)

end Lisplet
