import Lisplet.Value

/-!
# Tokens

A token is a kind together with a value. The lexer produces seven kinds, and a value that fits the
kind; a list of tokens made by hand may hold further kinds and values that do not fit.
-/

namespace Lisplet

/-- What part a token plays in an expression. -/
inductive TokenKind where
  | lparen
  | rparen
  | nil
  | bool
  | integer
  | string
  | symbol
  /-- A kind that the lexer never gives; the reader takes it for an opening parenthesis. -/
  | other (name : String)
  deriving DecidableEq

namespace TokenKind

def name : TokenKind → String
  | .lparen => "lparen"
  | .rparen => "rparen"
  | .nil => "nil"
  | .bool => "bool"
  | .integer => "integer"
  | .string => "string"
  | .symbol => "symbol"
  | .other name => name

/-- The kind of a given name; a name not known is a kind of its own. -/
def ofName (name : String) : TokenKind :=
  match [lparen, rparen, nil, bool, integer, string, symbol].find? (·.name == name) with
  | some kind => kind
  | none => .other name

theorem name_ofName (name : String) : (ofName name).name = name := by
  unfold ofName
  split
  · rename_i kind h
    simpa using List.find?_some h
  · rfl

end TokenKind

structure Token where
  kind : TokenKind
  value : Value
  deriving DecidableEq

namespace Token

def lparen : Token := ⟨.lparen, .string "("⟩

def rparen : Token := ⟨.rparen, .string ")"⟩

def symbol (name : String) : Token := ⟨.symbol, .string name⟩

/-- The token that writes a value. A foreign object has none of its own and is given as a string
token. -/
def literal (v : Value) : Token :=
  match v.kind? with
  | some .integer => ⟨.integer, v⟩
  | some .bool => ⟨.bool, v⟩
  | some .nil => ⟨.nil, v⟩
  | some .string | none => ⟨.string, v⟩

/-- The token in a message: its kind, a colon and its value. -/
def shown (t : Token) : String :=
  t.kind.name ++ ":" ++ t.value.shown

/-- A token that reading a text can give: one of the seven kinds, with a value that fits it. -/
inductive Lexical : Token → Prop where
  | lparen : Lexical Token.lparen
  | rparen : Lexical Token.rparen
  | symbol (name : String) : Lexical (Token.symbol name)
  | literal (v : Value) : v.Proper → Lexical (Token.literal v)

end Token

end Lisplet
