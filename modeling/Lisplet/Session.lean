import Lisplet.Reader
import Lisplet.Run.Eval

/-!
# Sessions

A session keeps its environment from one call to the next. A call is given text: `evalText` reads
and evaluates one expression, `evalScript` every expression of the text. A script is read to its
end before any of it is evaluated, so text that cannot be read leaves the session as it was.
-/

namespace Lisplet

/-- Evaluates expressions in turn; the last value counts. -/
def evalEach (mode : Mode) : Value → List Expr → Run Value
  | last, [] => pure last
  | _, e :: es => do
    let v ← e.eval mode 0
    evalEach mode v es

/-- Reads exactly one expression and evaluates it. With debugging on the record made of it shows the
expression, and nothing guards the showing of one that the stack does not carry. -/
def evalText (mode : Mode) (limit : Limit) (source : String) : Run Value := do
  let e ← Run.lift (parseText limit source)
  if mode.debug then
    let text ← Run.lift (e.textWithin mode.showing)
    Run.record mode (.parsed text)
  e.eval mode 0

/-- Reads a whole script and evaluates its expressions in turn. The value is that of the last one,
or nil if there is none. -/
def evalScript (mode : Mode) (limit : Limit) (source : String) : Run Value := do
  let es ← Run.lift (parseAllText limit source)
  Run.record mode (.evaluating es.length)
  evalEach mode .nil es

end Lisplet
