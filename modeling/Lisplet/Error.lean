import Lisplet.Arity
import Lisplet.Token
import Lisplet.Text.Utf8

/-!
# Errors

An error is the cause why reading or evaluating stopped; `Error.message` words it. The causes fall
into six categories that the language documents and the read loop reports, and one more for what
lies outside the language: misuse by the embedding program, numbers too long for the machine's
decimal conversion, a stack that gives out, and script files that cannot be read.
-/

namespace Lisplet

/-- What stands in an argument position: a value of some kind, or a piece of syntax. -/
inductive Shape where
  | value (kind : Kind)
  | symbol
  | compound
  deriving DecidableEq

def Shape.name : Shape → String
  | .value kind => kind.name
  | .symbol => "symbol"
  | .compound => "expression"

/-- What an embedding program may do with an object that not every object supports. -/
inductive Use where
  /-- Show it as a name. -/
  | name
  /-- Show it as the operator of a compound. -/
  | operator
  /-- Take the value of a literal from it. -/
  | literal
  /-- Put it into a set. -/
  | member
  /-- Compare it with an integer. -/
  | comparison
  deriving DecidableEq

/-- Why no file can be read at a path. -/
inductive PathFault where
  /-- The path holds a character that no path may hold. -/
  | nul
  /-- The path, or a name in it, is longer than the system takes. -/
  | tooLong
  | directory
  | missing
  deriving DecidableEq

inductive Error where
  /-- A string literal that opens at this character has no closing quote. -/
  | unterminatedString (position : Nat)
  /-- The first escape of a string literal that has no meaning, and the literal. -/
  | unknownEscape (escaped : Char) (literal : String)
  /-- There is no expression to read. -/
  | emptyInput
  /-- The tokens end where an expression should start. -/
  | unexpectedEnd
  | unexpectedClose
  /-- An opening parenthesis beyond the configured depth. -/
  | depthExceeded (limit : Int)
  /-- The tokens end inside a compound. -/
  | unmatchedOpen
  | operatorNotSymbol (got : Token)
  | trailingToken (got : Token)
  /-- Nesting beyond what the machine's stack carries. -/
  | nestedTooDeeply
  | unknownOperator (name : String)
  | unboundSymbol (name : String)
  | arity (operator : String) (expected : Arity) (got : Nat)
  | kind (operator : String) (position : Int) (expected actual : Shape)
  /-- A result that is no 32-bit integer. -/
  | overflow (operator : String) (result : Int)
  | divisionByZero (operator : String)
  /-- The empty text is no token. -/
  | emptyWord
  /-- Integer text with more digits than can be converted. -/
  | numeralTooLong (digits : Nat)
  /-- An integer too long to be shown. -/
  | integerTooWide
  /-- The machine's stack gave out where nothing guards against it. -/
  | stackExhausted
  /-- A string literal ends in the middle of an escape. -/
  | danglingEscape
  | notAValue (shown : String)
  | notAnExpression (shown : String)
  | notText (refusal : Text.Utf8.Refusal)
  /-- An object of this type does not support what was done with it. -/
  | unsupported (use : Use) (typeName : String)
  | noFile (fault : PathFault) (path : String)
  deriving DecidableEq

namespace Error

/-- The families of errors; all but the last belong to the language. -/
inductive Category where
  | reading
  | unknownOperator
  | unboundSymbol
  | arity
  | kind
  | arithmetic
  | outside
  deriving DecidableEq

def category : Error → Category
  | .unterminatedString _ | .unknownEscape _ _ | .emptyInput | .unexpectedEnd
  | .unexpectedClose | .depthExceeded _ | .unmatchedOpen | .operatorNotSymbol _
  | .trailingToken _ | .nestedTooDeeply => .reading
  | .unknownOperator _ => .unknownOperator
  | .unboundSymbol _ => .unboundSymbol
  | .arity _ _ _ => .arity
  | .kind _ _ _ _ => .kind
  | .overflow _ _ | .divisionByZero _ => .arithmetic
  | .emptyWord | .numeralTooLong _ | .integerTooWide | .stackExhausted | .danglingEscape
  | .notAValue _ | .notAnExpression _ | .notText _ | .unsupported _ _ | .noFile _ _ => .outside

/-- The error is one that the language documents. -/
def InLanguage (e : Error) : Prop := e.category ≠ .outside

instance : DecidablePred InLanguage := fun e =>
  inferInstanceAs (Decidable (e.category ≠ .outside))

/-- The complaint about an object of a type that does not support a use. -/
def unsupportedMessage (typeName : String) : Use → String
  | .name => "__str__ returned non-string (type " ++ typeName ++ ")"
  | .operator => "sequence item 0: expected str instance, " ++ typeName ++ " found"
  | .literal => "'" ++ typeName ++ "' object has no attribute 'value'"
  | .member => "unhashable type: '" ++ typeName ++ "'"
  | .comparison => "'<=' not supported between instances of 'int' and '" ++ typeName ++ "'"

/-- The complaint about a path. -/
def noFileMessage (path : String) : PathFault → String
  | .nul => "embedded null byte"
  | .tooLong => "[Errno 36] File name too long: " ++ Text.quoted path
  | .directory => "[Errno 21] Is a directory: " ++ Text.quoted path
  | .missing => "[Errno 2] No such file or directory: " ++ Text.quoted path

/-- The wording of an error. -/
def message : Error → String
  | .unterminatedString position =>
    "Unterminated string literal at " ++ toString position
  | .unknownEscape escaped literal =>
    "Unknown escape sequence \\" ++ escaped.toString ++ " in " ++ literal
  | .emptyInput => "Empty input"
  | .unexpectedEnd => "Unexpected end of input"
  | .unexpectedClose => "Unexpected ')'"
  | .depthExceeded limit => "Expression nested deeper than " ++ limit.repr ++ " levels"
  | .unmatchedOpen => "Unmatched '('"
  | .operatorNotSymbol got => "Operator must be a symbol, got " ++ got.shown
  | .trailingToken got => "Unexpected token after expression: " ++ got.shown
  | .nestedTooDeeply => "Expression nested too deeply"
  | .unknownOperator name => "Unknown operator '" ++ name ++ "'"
  | .unboundSymbol name => "Cannot lookup unbound symbol " ++ name
  | .arity operator expected got =>
    operator ++ " expects " ++ expected.text ++ " argument(s), got " ++ toString got
  | .kind operator position expected actual =>
    operator ++ " argument " ++ position.repr ++ " must be " ++ expected.name ++ ", got "
      ++ actual.name
  | .overflow operator result => operator ++ ": integer overflow (" ++ result.repr ++ ")"
  | .divisionByZero operator => operator ++ ": division by zero"
  | .emptyWord => "Cannot classify an empty token"
  | .numeralTooLong digits =>
    "Exceeds the limit (4300 digits) for integer string conversion: value has "
      ++ toString digits ++ " digits; use sys.set_int_max_str_digits() to increase the limit"
  | .integerTooWide =>
    "Exceeds the limit (4300 digits) for integer string conversion; "
      ++ "use sys.set_int_max_str_digits() to increase the limit"
  | .stackExhausted => "maximum recursion depth exceeded"
  | .danglingEscape => ""
  | .notAValue shown => "Not a minilisp value: " ++ shown
  | .notAnExpression shown => "Not an expression: " ++ shown
  | .notText refusal => refusal.message
  | .unsupported use typeName => unsupportedMessage typeName use
  | .noFile fault path => noFileMessage path fault

end Error

/-- Refuses a number of arguments that the arity does not admit. -/
def Arity.check (a : Arity) (operator : String) (n : Nat) : Except Error Unit :=
  if a.Admits n then .ok () else .error (.arity operator a n)

theorem Arity.check_eq_ok_iff {a : Arity} {operator : String} {n : Nat} :
    a.check operator n = .ok () ↔ a.Admits n := by
  unfold Arity.check
  split <;> simp [*]

end Lisplet
