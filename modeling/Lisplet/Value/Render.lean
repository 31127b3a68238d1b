import Lisplet.Error

/-!
# Showing and checking values

The rendering of a value is the text that reads back as that value. Operators ask here whether a
value is of the kind that they need; the complaint about another kind names both, and a foreign
object, which has no kind, is complained about by itself.
-/

namespace Lisplet.Value

/-- A character inside a string literal. -/
def escape (c : Char) : List Char :=
  if c = '\\' then ['\\', '\\']
  else if c = '"' then ['\\', '"']
  else if c = '\n' then ['\\', 'n']
  else if c = '\t' then ['\\', 't']
  else [c]

/-- The kind of a value; asking it of a foreign object is an error. -/
def kind : Value → Except Error Kind
  | .integer _ => .ok .integer
  | .bool _ => .ok .bool
  | .string _ => .ok .string
  | .nil => .ok .nil
  | .foreign object => .error (.notAValue object.shown)

/-- The text of a value, as printed and as written in a program. An integer with too many digits
has none. -/
def render : Value → Except Error String
  | .integer n => if TooWide n then .error .integerTooWide else .ok n.repr
  | .bool true => .ok "true"
  | .bool false => .ok "false"
  | .string text => .ok (String.ofList ('"' :: text.toList.flatMap escape ++ ['"']))
  | .nil => .ok "nil"
  | .foreign object => .error (.notAValue object.shown)

/-- The complaint about a value of another kind than an operator needs. -/
def mismatch (v : Value) (operator : String) (position : Int) (expected : Shape) : Error :=
  match v.kind with
  | .ok actual => .kind operator position expected (.value actual)
  | .error e => e

/-- The integer that an argument must be. -/
def toInteger (v : Value) (operator : String) (position : Int) : Except Error Int :=
  match v with
  | .integer n => .ok n
  | _ => .error (v.mismatch operator position (.value .integer))

/-- The truth value that an argument must be; nothing else counts as true or false. -/
def toBool (v : Value) (operator : String) (position : Int) : Except Error Bool :=
  match v with
  | .bool b => .ok b
  | _ => .error (v.mismatch operator position (.value .bool))

/-- Whether a value lies in the range of the integers, as far as it can be compared with them. A
truth value counts as zero or one. -/
def inRange : Value → Except Error Bool
  | .integer n => .ok (decide (Fits n))
  | .bool _ => .ok true
  | .foreign ⟨_, _, _, some answer⟩ => .ok answer
  | v => .error (.unsupported .comparison v.typeName)

theorem kind_eq_ok_iff {v : Value} {k : Kind} : v.kind = .ok k ↔ v.kind? = some k := by
  cases v <;> simp [kind, kind?]

theorem render_integer {n : Int} (h : Fits n) : (integer n).render = .ok n.repr := by
  rw [render, if_neg (not_tooWide_of_fits h)]

theorem repr_of_render {n : Int} {text : String} (h : (integer n).render = .ok text) :
    n.repr = text := by
  rw [render] at h
  split at h
  case isTrue => cases h
  case isFalse => exact Except.ok.inj h

/-- The complaint about a value that has no text is none of the language. -/
theorem not_inLanguage_of_render {v : Value} {cause : Error} (h : v.render = .error cause) :
    ¬cause.InLanguage := by
  cases v with
  | integer n =>
    rw [render] at h
    split at h
    case isTrue =>
      cases h
      exact fun hlanguage => hlanguage rfl
    case isFalse => cases h
  | bool b => cases b <;> cases h
  | string text => cases h
  | nil => cases h
  | foreign object =>
    cases h
    exact fun hlanguage => hlanguage rfl

theorem render_of_proper {v : Value} (h : v.Proper) : ∃ text, v.render = .ok text := by
  match v, h with
  | .integer n, h => exact ⟨n.repr, render_integer h⟩
  | .bool true, _ => exact ⟨"true", rfl⟩
  | .bool false, _ => exact ⟨"false", rfl⟩
  | .string text, _ => exact ⟨_, rfl⟩
  | .nil, _ => exact ⟨"nil", rfl⟩

theorem toInteger_eq_ok_iff {v : Value} {operator : String} {position n : Int} :
    v.toInteger operator position = .ok n ↔ v = .integer n := by
  cases v <;> simp [toInteger]

theorem toBool_eq_ok_iff {v : Value} {operator : String} {position : Int} {b : Bool} :
    v.toBool operator position = .ok b ↔ v = .bool b := by
  cases v <;> simp [toBool]

end Lisplet.Value
