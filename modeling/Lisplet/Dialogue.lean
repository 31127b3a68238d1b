import Lisplet.Session
import Lisplet.Settings
import Lisplet.Text.Lines

/-!
# The read loop

Lines are gathered until their parentheses balance; the lines gathered are then one fragment, which
is read and evaluated as a single expression. The answer is the value's rendering, or the error if
it is one of the language. Any other error escapes from the loop; the fragment that raised it has
been used up by then.
-/

namespace Lisplet

/-- A read loop between two lines. -/
structure Dialogue where
  /-- The lines gathered for the next fragment. -/
  buffer : String
  state : State

namespace Dialogue

/-- The rendering of the fragment's value. -/
def answer (mode : Mode) (limit : Limit) (fragment : String) : Run String := do
  let v ← evalText mode limit fragment
  Run.lift v.render

/-- Reports an error of the language as an answer; anything else escapes. -/
def report (mode : Mode) : Halt → Run String
  | .failed e =>
    if e.InLanguage then do
      Run.record mode .failed
      return "error: " ++ e.message
    else Run.fail e
  | .exhausted => throw .exhausted

/-- Evaluates a fragment, errors of the language included in the answer. -/
def evalFragment (mode : Mode) (limit : Limit) (fragment : String) : Run String :=
  tryCatch (answer mode limit fragment) (report mode)

/-- Takes one line. There is an answer if the lines gathered now balance. A blank line is dropped
while nothing has been gathered. -/
def feed (mode : Mode) (limit : Limit) (d : Dialogue) (line : String) :
    Except Halt (Option String) × Dialogue :=
  if d.buffer = "" ∧ Text.allBlank line then (.ok none, d)
  else if isBalanced (d.buffer ++ line) then
    let (answer, state) := (evalFragment mode limit (d.buffer ++ line)).result d.state
    (answer.map some, ⟨"", state⟩)
  else (.ok none, ⟨d.buffer ++ line, d.state⟩)

/-- A blank line between fragments changes nothing. -/
theorem feed_of_blank {mode : Mode} {limit : Limit} {d : Dialogue} {line : String}
    (hb : d.buffer = "") (hl : Text.allBlank line = true) :
    d.feed mode limit line = (.ok none, d) := by
  rw [feed, if_pos ⟨hb, hl⟩]

/-- A line that leaves parentheses or a string open is only gathered. -/
theorem feed_of_not_balanced {mode : Mode} {limit : Limit} {d : Dialogue} {line : String}
    (hs : ¬(d.buffer = "" ∧ Text.allBlank line = true))
    (hb : isBalanced (d.buffer ++ line) = false) :
    d.feed mode limit line = (.ok none, ⟨d.buffer ++ line, d.state⟩) := by
  rw [feed, if_neg hs, hb, if_neg Bool.false_ne_true]

/-- A line that balances what was gathered is answered, and nothing stays gathered. -/
theorem feed_of_balanced {mode : Mode} {limit : Limit} {d : Dialogue} {line : String}
    (hs : ¬(d.buffer = "" ∧ Text.allBlank line = true))
    (hb : isBalanced (d.buffer ++ line) = true) :
    d.feed mode limit line =
      (((evalFragment mode limit (d.buffer ++ line)).result d.state).1.map some,
        ⟨"", ((evalFragment mode limit (d.buffer ++ line)).result d.state).2⟩) := by
  rw [feed, if_neg hs, hb, if_pos rfl]

/-- Writes text on the output that the program prints to. -/
def write (d : Dialogue) (text : String) : Dialogue :=
  { d with state := { d.state with output := d.state.output ++ text } }

/-- Shows the prompt where a new fragment begins. -/
def showPrompt (prompt : String) (d : Dialogue) : Dialogue :=
  if d.buffer = "" then d.write prompt else d

/-- Takes the lines in turn, with a prompt before each fragment and a line for each answer; the
end of the input is answered by an empty line. -/
def converse (mode : Mode) (limit : Limit) (prompt : String) :
    List String → Dialogue → Except Halt Unit × Dialogue
  | [], d => (.ok (), (d.showPrompt prompt).write "\n")
  | line :: lines, d =>
    match (d.showPrompt prompt).feed mode limit line with
    | (.ok (some text), d) => converse mode limit prompt lines (d.write (text ++ "\n"))
    | (.ok none, d) => converse mode limit prompt lines d
    | (.error h, d) => (.error h, d)

end Dialogue

end Lisplet
