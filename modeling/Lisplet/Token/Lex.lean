import Lisplet.Text.Numeral
import Lisplet.Token.Part
import Lisplet.Value.Render

/-!
# Tokens of a source text

Each part of a text is classified by itself: parentheses, the three words `true`, `false` and
`nil`, string literals, integers that fit 32 bits; every other part is a symbol, digits that do
not fit included.
-/

namespace Lisplet

namespace Token

/-- What an escape in a string literal stands for. -/
def unescape? (c : Char) : Option Char :=
  if c = 'n' then some '\n'
  else if c = 't' then some '\t'
  else if c = '"' then some '"'
  else if c = '\\' then some '\\'
  else none

/-- The text that the body of a string literal writes, after the characters `done`, which are kept
latest first; `literal` is quoted by the complaint. -/
def decodeFrom (literal : String) : List Char → List Char → Except Error String
  | done, [] => .ok (String.ofList done.reverse)
  | _, ['\\'] => .error .danglingEscape
  | done, '\\' :: escaped :: rest =>
    match unescape? escaped with
    | some c => decodeFrom literal (c :: done) rest
    | none => .error (.unknownEscape escaped literal)
  | done, c :: rest => decodeFrom literal (c :: done) rest

/-- The text that a string literal writes; its first and its last character are dropped. -/
def decode (literal : String) : Except Error String :=
  decodeFrom literal [] literal.toList.tail.dropLast

/-- The sign and the digits of integer text. -/
def integerText? (chars : List Char) : Option (Bool × List Char) :=
  let negative := chars.head? == some '-'
  let digits := if negative then chars.tail else chars
  if digits.isEmpty || !digits.all Char.isDigit then none else some (negative, digits)

/-- The number that integer text writes. -/
def integerValue (negative : Bool) (digits : List Char) : Int :=
  let n : Int := Nat.ofDigitChars 10 digits 0
  if negative then -n else n

/-- The token of a bare word that is none of the reserved ones. -/
def ofWord (text : String) : Except Error Token :=
  match integerText? text.toList with
  | none => .ok (symbol text)
  | some (negative, digits) =>
    if Text.maxDigits < digits.length then .error (.numeralTooLong digits.length)
    else
      let n := integerValue negative digits
      if Fits n then .ok ⟨.integer, .integer n⟩ else .ok (symbol text)

/-- The token that one part of a text stands for. -/
def classify (text : String) : Except Error Token :=
  if text = "" then .error .emptyWord
  else if text = "(" then .ok lparen
  else if text = ")" then .ok rparen
  else if text = "true" then .ok ⟨.bool, .bool true⟩
  else if text = "false" then .ok ⟨.bool, .bool false⟩
  else if text = "nil" then .ok ⟨.nil, .nil⟩
  else if text.toList.head? = some '"' then
    (decode text).map fun body => ⟨.string, .string body⟩
  else ofWord text

/-- A character other than the backslash stands for itself. -/
theorem decodeFrom_plain {c : Char} (h : c ≠ '\\') (literal : String) (done rest : List Char) :
    decodeFrom literal done (c :: rest) = decodeFrom literal (c :: done) rest := by
  rw [decodeFrom]
  · rintro rfl
    exact absurd rfl h
  · rintro _ _ rfl
    exact absurd rfl h

/-- An escape that has a meaning stands for it. -/
theorem decodeFrom_escaped {escaped c : Char} (h : unescape? escaped = some c)
    (literal : String) (done rest : List Char) :
    decodeFrom literal done ('\\' :: escaped :: rest) = decodeFrom literal (c :: done) rest := by
  rw [decodeFrom, h]

/-- Reading the body of a literal undoes the escapes that writing it put in. -/
theorem decodeFrom_escape (literal : String) (text done : List Char) :
    decodeFrom literal done (text.flatMap Value.escape) =
      .ok (String.ofList (done.reverse ++ text)) := by
  induction text generalizing done with
  | nil => simp [decodeFrom]
  | cons c text ih =>
    have step : decodeFrom literal done (Value.escape c ++ text.flatMap Value.escape) =
        decodeFrom literal (c :: done) (text.flatMap Value.escape) := by
      rw [Value.escape.eq_def]
      split
      case isTrue h =>
        subst h
        exact decodeFrom_escaped rfl literal done _
      case isFalse hs =>
        split
        case isTrue h =>
          subst h
          exact decodeFrom_escaped rfl literal done _
        case isFalse hq =>
          split
          case isTrue h =>
            subst h
            exact decodeFrom_escaped rfl literal done _
          case isFalse hn =>
            split
            case isTrue h =>
              subst h
              exact decodeFrom_escaped rfl literal done _
            case isFalse ht => exact decodeFrom_plain hs literal done _
    rw [List.flatMap_cons, step, ih]
    simp

end Token

/-- The tokens of a source text, each made when it is asked for. -/
def tokens (source : String) : Supply Token :=
  (parts source).convert Token.classify

end Lisplet
