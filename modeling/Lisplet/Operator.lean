import Lisplet.Error

/-!
# Operators

The sixteen operators of the language. Their names are not bindings: no program can change what an
operator does, and a name bound by a program is never applied.
-/

namespace Lisplet

inductive Operator where
  | add
  | mul
  | sub
  | div
  | mod
  | equal
  | less
  | greater
  | and
  | or
  | not
  | print
  | branch
  | loop
  | block
  | global
  deriving DecidableEq

namespace Operator

def name : Operator → String
  | .add => "+"
  | .mul => "*"
  | .sub => "-"
  | .div => "/"
  | .mod => "%"
  | .equal => "="
  | .less => "<"
  | .greater => ">"
  | .and => "and"
  | .or => "or"
  | .not => "not"
  | .print => "print"
  | .branch => "if"
  | .loop => "while"
  | .block => "block"
  | .global => "global"

/-- How many arguments each operator takes. -/
def arity : Operator → Arity
  | .add | .mul => .atLeast 1
  | .sub | .div | .mod | .equal | .less | .greater | .and | .or => .exactly 2
  | .not | .print => .exactly 1
  | .branch => .between 2 3
  | .loop | .global => .exactly 2
  | .block => .atLeast 0

def all : List Operator :=
  [.add, .mul, .sub, .div, .mod, .equal, .less, .greater, .and, .or, .not, .print, .branch,
   .loop, .block, .global]

/-- The operator of a given name. -/
def ofName? (name : String) : Option Operator :=
  all.find? (·.name == name)

/-- The operator that a compound names. -/
def find (name : String) : Except Error Operator :=
  match ofName? name with
  | some op => .ok op
  | none => .error (.unknownOperator name)

theorem mem_all (op : Operator) : op ∈ all := by
  cases op <;> decide

theorem ofName?_name (op : Operator) : ofName? op.name = some op := by
  cases op <;> decide

theorem ofName?_eq_some_iff {name : String} {op : Operator} :
    ofName? name = some op ↔ op.name = name := by
  constructor
  · intro h
    simpa using List.find?_some h
  · rintro rfl
    exact ofName?_name op

theorem find_eq_ok_iff {name : String} {op : Operator} :
    find name = .ok op ↔ op.name = name := by
  rw [← ofName?_eq_some_iff, find]
  cases ofName? name <;> simp

theorem name_injective {a b : Operator} (h : a.name = b.name) : a = b := by
  have := ofName?_name a
  rw [h, ofName?_name b] at this
  exact (Option.some.inj this).symm

end Operator

end Lisplet
