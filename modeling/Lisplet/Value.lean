import Lisplet.Text.Numeral
import Lisplet.Text.Quoted

/-!
# Values

A program computes with integers, truth values, strings and nil. An embedding program may also
put an object of its own where a value is expected; such an object is no value of the language and
is known here by what can be asked of it. `Value.Proper` rules these objects out, together with
integers wider than 32 bits.
-/

namespace Lisplet

/-- The four kinds of values of the language. -/
inductive Kind where
  | integer
  | bool
  | string
  | nil
  deriving DecidableEq

def Kind.name : Kind → String
  | .integer => "integer"
  | .bool => "bool"
  | .string => "string"
  | .nil => "nil"

/-- An object of an embedding program, as far as it shows. -/
structure Foreign where
  /-- The text that shows it. -/
  shown : String
  /-- The name of its type. -/
  typeName : String
  /-- Whether it can be the member of a set. -/
  hashable : Bool
  /-- Whether it lies in the range of the integers, if it can be compared with them. -/
  inRange? : Option Bool
  deriving DecidableEq

/-- What an expression computes and a name is bound to. -/
inductive Value where
  | integer (n : Int)
  | bool (b : Bool)
  | string (text : String)
  | nil
  /-- An object that is no value of the language. -/
  | foreign (object : Foreign)
  deriving DecidableEq

/-- The integers of the language: 32 bits with a sign. -/
abbrev Fits (n : Int) : Prop := -2147483648 ≤ n ∧ n ≤ 2147483647

/-- The integer has more digits than can be shown. None that fits has, which spares the power. -/
def TooWide (n : Int) : Prop := ¬Fits n ∧ Nat.pow 10 Text.maxDigits ≤ n.natAbs

instance : DecidablePred TooWide := fun n =>
  inferInstanceAs (Decidable (¬Fits n ∧ Nat.pow 10 Text.maxDigits ≤ n.natAbs))

theorem not_tooWide_of_fits {n : Int} (h : Fits n) : ¬TooWide n := fun hwide => hwide.1 h

namespace Value

/-- The kind of a value; a foreign object has none. -/
def kind? : Value → Option Kind
  | .integer _ => some .integer
  | .bool _ => some .bool
  | .string _ => some .string
  | .nil => some .nil
  | .foreign _ => none

/-- A value that a program text alone can produce. -/
def Proper : Value → Prop
  | .integer n => Fits n
  | .foreign _ => False
  | _ => True

instance : DecidablePred Proper
  | .integer n => inferInstanceAs (Decidable (Fits n))
  | .bool _ => isTrue trivial
  | .string _ => isTrue trivial
  | .nil => isTrue trivial
  | .foreign _ => isFalse id

/-- The text of a value inside a message about a token. -/
def shown : Value → String
  | .integer n => n.repr
  | .bool true => "True"
  | .bool false => "False"
  | .string text => Text.quoted text
  | .nil => "nil"
  | .foreign object => object.shown

/-- The name of a value's type in a message to the embedding program. -/
def typeName : Value → String
  | .integer _ => "int"
  | .bool _ => "bool"
  | .string _ => "str"
  | .nil => "NilType"
  | .foreign object => object.typeName

/-- Whether a value can be the member of a set. -/
def hashable : Value → Bool
  | .foreign object => object.hashable
  | _ => true

theorem kind?_eq_none_iff {v : Value} : v.kind? = none ↔ ∃ object, v = .foreign object := by
  cases v <;> simp [kind?]

theorem Proper.kind?_isSome {v : Value} (h : v.Proper) : v.kind?.isSome = true := by
  cases v <;> simp_all [Proper, kind?]

end Value

end Lisplet
