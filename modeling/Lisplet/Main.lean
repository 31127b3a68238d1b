import Lisplet.CommandLine

/-!
# The program

Reads the variables, the words of the command line, standard input and the script file, and
leaves every decision to `Lisplet.CommandLine`. The read loop answers line by line.
-/

namespace Lisplet.Main

/-- A machine that makes any number of passes that can be waited for. -/
def host : CommandLine.Host where
  passes := 4611686018427387904
  reading := 980
  evaluation debug := if debug then 480 else 485
  showing := 325

def getVariables : IO Variables := do
  return ⟨← IO.getEnv "MINILISP_MAX_DEPTH", ← IO.getEnv "MINILISP_PROMPT",
    ← IO.getEnv "MINILISP_LOG_LEVEL"⟩

/-- Shows what a session has to show and forgets it. -/
def emit (s : State) : IO State := do
  IO.eprint (CommandLine.terminalText s.trace)
  IO.print s.output
  (← IO.getStdout).flush
  return ⟨s.env, "", #[]⟩

/-- Reports an error that no part of the program handles. -/
def escaped : Halt → IO UInt32
  | .failed e => do
    IO.eprintln e.message
    return 1
  | .exhausted => do
    IO.eprintln "loop did not end"
    return 1

/-- The read loop over standard input. -/
partial def converse (settings : Settings) (d : Dialogue) : IO UInt32 := do
  let d := d.showPrompt settings.prompt
  let state ← emit d.state
  let line ← (← IO.getStdin).getLine
  if line.isEmpty then
    IO.println ""
    return 0
  match Dialogue.feed (host.mode settings) (host.limit settings) ⟨d.buffer, state⟩ line with
  | (.ok answer, d) =>
    let d := match answer with
      | some text => d.write (text ++ "\n")
      | none => d
    converse settings d
  | (.error h, d) => do
    let _ ← emit d.state
    escaped h

/-- Shows a finished run. -/
def finish (t : CommandLine.Transcript) : IO UInt32 := do
  IO.print t.stdout
  IO.eprint t.stderr
  match t.ending with
  | .ok code => return code.toUInt32
  | .error h => escaped h

def program (words : List String) : IO UInt32 := do
  let vars ← getVariables
  let settings := Settings.ofVariables vars
  match CommandLine.request words with
  | .start none => converse settings ⟨"", CommandLine.fresh⟩
  | .start (some path) =>
    match Path.fault? path with
    | some fault => escaped (.failed (.noFile fault path))
    | none => do
      let octets ← IO.FS.readBinFile path
      finish (CommandLine.runScriptFile host settings octets.toList)
  | _ => finish (CommandLine.run host vars (fun _ => .nothing) "" words)

end Lisplet.Main

def main (words : List String) : IO UInt32 :=
  Lisplet.Main.program words
