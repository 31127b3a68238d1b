/-!
# Debug records

With debugging on, a session leaves a record of what it does. A record names the part of the
program that made it. On the terminal the record of a failed evaluation is followed by a trace of
the calls that led there; a fixed line stands for it.
-/

namespace Lisplet

inductive Record where
  /-- One expression was read; its text. -/
  | parsed (text : String)
  /-- An operator was found and is about to be applied. -/
  | applied (operator : String) (args : Nat)
  /-- A name is about to be bound; the value's text. -/
  | defined (name value : String)
  /-- A script was read and is about to be run. -/
  | evaluating (expressions : Nat)
  /-- The read loop caught an error. -/
  | failed
  deriving DecidableEq

namespace Record

/-- The part of the program that makes the record. -/
def origin : Record → String
  | .parsed _ => "minilisp.reader.parser"
  | .applied _ _ => "minilisp.evaluation.evaluator"
  | .defined _ _ => "minilisp.types.environment"
  | .evaluating _ => "minilisp.interpreter"
  | .failed => "minilisp.repl"

def message : Record → String
  | .parsed text => "parsed " ++ text
  | .applied operator args => "apply " ++ operator ++ " to " ++ toString args ++ " arg(s)"
  | .defined name value => "global " ++ name ++ " = " ++ value
  | .evaluating expressions =>
    "evaluating " ++ toString expressions ++ " top-level expression(s)"
  | .failed => "evaluation failed"

/-- The record on one line. -/
def line (r : Record) : String :=
  "DEBUG " ++ r.origin ++ ": " ++ r.message

/-- The record as the terminal shows it, line ends included. -/
def terminalText (r : Record) : String :=
  match r with
  | .failed => r.line ++ "\n<traceback>\n"
  | _ => r.line ++ "\n"

end Record

end Lisplet
