import Lisplet.Session
import Lisplet.Text.Lines

/-!
# Script files

A script file is UTF-8 text with any of the usual line ends. All of its expressions are read
before the first one runs.
-/

namespace Lisplet

/-- The program text that a script file holds. -/
def scriptText (octets : List UInt8) : Except Error String :=
  match Text.Utf8.decode octets with
  | .ok chars => .ok (String.ofList (Text.unifyLineEnds chars))
  | .error refusal => .error (.notText refusal)

/-- Runs a script file. -/
def runScript (mode : Mode) (limit : Limit) (octets : List UInt8) : Run Value := do
  let source ← Run.lift (scriptText octets)
  evalScript mode limit source

end Lisplet
