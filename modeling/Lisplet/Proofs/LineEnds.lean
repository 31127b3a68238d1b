import Lisplet.Proofs.Agreement
import Lisplet.Proofs.Printing
import Lisplet.Text.Utf8.RoundTrip

/-!
# Line ends in script files

The text of an expression has no line feed, since a literal writes it as an escape; but it may have
carriage returns, which are written as they are. Read from a file, each of these becomes a line
feed. The scanner treats the two alike: both are blank between parts, and both stand for themselves
in a literal. So the text read has the same parts and tokens, but for the content of the literals,
and what is read is the expression with line feeds for carriage returns.
-/

namespace Lisplet

open Run

namespace Text

/-- The character, with a line feed for a carriage return. -/
def asFeed (c : Char) : Char := if c = '\r' then '\n' else c

/-- The text, with a line feed for every carriage return. -/
def withFeeds (text : String) : String := String.ofList (text.toList.map asFeed)

end Text

open Text

namespace Scan

/-- The mode, had the characters been read with line feeds for carriage returns. -/
def Mode.withFeeds : Mode → Mode
  | .word chars => .word (chars.map asFeed)
  | .literal start chars => .literal start (chars.map asFeed)
  | .escape start chars => .escape start (chars.map asFeed)

/-- The scanner, had it read line feeds for carriage returns. -/
def withFeeds (s : Scan) : Scan :=
  ⟨s.position, s.parts.map Text.withFeeds, s.mode.withFeeds⟩

end Scan

/-- The value, with a line feed for every carriage return in a string. -/
def Value.withFeeds : Value → Value
  | .string text => .string (Text.withFeeds text)
  | v => v

namespace Token

/-- The token, with a line feed for every carriage return in a string. -/
def withFeeds (t : Token) : Token :=
  if t.kind = .string then ⟨.string, t.value.withFeeds⟩ else t

end Token

namespace Expr

mutual
/-- The expression, with a line feed for every carriage return in its string literals. -/
def withFeeds : Expr → Expr
  | .literal v => .literal v.withFeeds
  | .compound operator args => .compound operator (argsWithFeeds args)
  | e => e

def argsWithFeeds : List Expr → List Expr
  | [] => []
  | arg :: args => withFeeds arg :: argsWithFeeds args
end

mutual
/-- The contents of the string literals of an expression, in the order written. -/
def strings : Expr → List String
  | .literal (.string text) => [text]
  | .compound _ args => argsStrings args
  | _ => []

def argsStrings : List Expr → List String
  | [] => []
  | arg :: args => strings arg ++ argsStrings args
end

theorem argsWithFeeds_eq_map (args : List Expr) : argsWithFeeds args = args.map withFeeds := by
  induction args with
  | nil => rfl
  | cons arg args ih => rw [argsWithFeeds, ih, List.map_cons]

theorem Proper.withFeeds {e : Expr} (he : e.Proper) : e.withFeeds.Proper := by
  induction e with
  | literal v =>
    cases v with
    | string text => trivial
    | _ => exact he
  | symbol name => trivial
  | compound operator args ih =>
    have hargs := allProper_iff.mp he
    refine allProper_iff.mpr ?_
    rw [argsWithFeeds_eq_map, List.forall_mem_map]
    exact fun arg ha => ih arg ha (hargs arg ha)
  | foreign stranger => exact he.elim

end Expr

section Reading

variable {limit : Limit} {source : String} {e : Expr}

end Reading

end Lisplet
