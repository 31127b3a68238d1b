import Lisplet.Dialogue
import Lisplet.Path
import Lisplet.Script

/-!
# The command line

The program takes at most one operand, a script file; without it the read loop runs on standard
input. The only option is the request for help, which may be shortened. Everything else is refused
by name, options and further operands in the order given, after all words have been looked at; a
request for help wins over the words after it.
-/

namespace Lisplet

namespace CommandLine

/-- What a word on the command line means by itself. -/
inductive Word where
  | help
  /-- The request for help with text attached to it, which it does not take. -/
  | misusedHelp (attached : String)
  | unknownOption
  /-- From here on every word is an operand. -/
  | separator
  | operand
  deriving DecidableEq

/-- A text without the line feed that ends it. -/
def withoutLineEnd (chars : List Char) : List Char :=
  if chars.getLast? == some '\n' then chars.dropLast else chars

/-- A minus sign and a number, with or without a decimal point; a line feed may follow. -/
def isNegativeNumber (chars : List Char) : Bool :=
  let isDigit := fun c => (Text.digitValue? c).isSome
  match withoutLineEnd chars with
  | '-' :: rest =>
    match rest.dropWhile isDigit with
    | [] => !rest.isEmpty
    | '.' :: decimals => !decimals.isEmpty && decimals.all isDigit
    | _ => false
  | _ => false

/-- A long option and the text attached to it by an equals sign. -/
def longOption (chars : List Char) : List Char × Option (List Char) :=
  let name := chars.takeWhile (· != '=')
  (name, (chars.drop name.length).tail?)

/-- Options that are not known; a negative number or words with a space are operands all the
same. -/
def Word.other (text : String) : Word :=
  if isNegativeNumber text.toList || text.toList.contains ' ' then .operand else .unknownOption

/-- The short request for help followed by further letters: the same letter again asks again. -/
def Word.shortHelp (attached : List Char) : Word :=
  let rest := attached.dropWhile (· == 'h')
  if rest.isEmpty && !attached.isEmpty then .help else .misusedHelp (String.ofList rest)

def Word.of (text : String) : Word :=
  match text.toList with
  | ['-', '-'] => .separator
  | '-' :: '-' :: long =>
    let (name, attached) := longOption long
    if name.isPrefixOf ['h', 'e', 'l', 'p'] then
      match attached with
      | none => .help
      | some attached => .misusedHelp (String.ofList attached)
    else .other text
  | ['-', 'h'] => .help
  | '-' :: 'h' :: '=' :: attached => .shortHelp attached
  | '-' :: 'h' :: attached => .shortHelp attached
  | ['-'] => .operand
  | '-' :: _ => .other text
  | _ => .operand

/-- What the command line asks for. -/
inductive Request where
  | help
  | refuse (complaint : String)
  | start (file : Option String)
  deriving DecidableEq

/-- The words seen so far. -/
structure Seen where
  file : Option String
  /-- The words that have no place, latest first. -/
  extras : List String
  /-- Whether the last word was the file. -/
  afterFile : Bool

namespace Seen

def none : Seen := ⟨.none, [], false⟩

def reject (seen : Seen) (word : String) : Seen :=
  ⟨seen.file, word :: seen.extras, false⟩

/-- The first operand is the file, and there is no place for another. -/
def operand (seen : Seen) (word : String) : Seen :=
  if seen.file.isNone then ⟨some word, seen.extras, true⟩ else seen.reject word

/-- A separator belongs to the file before or after it; elsewhere it has no place. -/
def separator (seen : Seen) (word : String) : Seen :=
  if seen.file.isNone || seen.afterFile then seen else seen.reject word

def request (seen : Seen) : Request :=
  if seen.extras.isEmpty then .start seen.file
  else .refuse ("unrecognized arguments: " ++ " ".intercalate seen.extras.reverse)

end Seen

/-- Goes through the words from left to right. -/
def requestFrom : Seen → List String → Request
  | seen, [] => seen.request
  | seen, word :: words =>
    match Word.of word with
    | .help => .help
    | .misusedHelp attached =>
      .refuse ("argument -h/--help: ignored explicit argument " ++ Text.quoted attached)
    | .unknownOption => requestFrom (seen.reject word) words
    | .operand => requestFrom (seen.operand word) words
    | .separator => (words.foldl Seen.operand (seen.separator word)).request

/-- The request that the words make. -/
def request (words : List String) : Request :=
  requestFrom .none words

def usage : String := "usage: minilisp [-h] [file]\n"

def helpText : String :=
  usage ++ "\nminilisp interpreter\n\npositional arguments:\n"
    ++ "  file        script to run; starts the REPL when omitted\n\noptions:\n"
    ++ "  -h, --help  show this help message and exit\n"

/-- What a run of the program leaves behind: its exit code, unless an error escaped, and the text
on its two outputs. -/
structure Transcript where
  ending : Except Halt Nat
  stdout : String
  stderr : String

/-- A session before anything has happened. -/
def fresh : State := ⟨.empty, "", #[]⟩

/-- Debug records as the terminal shows them. -/
def terminalText (trace : Array Record) : String :=
  trace.foldl (fun text r => text ++ r.terminalText) ""

/-- What the machine that runs the program has room for. -/
structure Host where
  /-- The most passes of one loop. -/
  passes : Nat
  /-- The nesting that its stack carries when text is read. -/
  reading : Nat
  /-- The nesting that its stack carries in evaluation, which debug records take a part of. -/
  evaluation : Bool → Nat
  /-- The nesting that its stack carries when an expression is shown in a record. -/
  showing : Nat

namespace Host

/-- The mode that the settings ask for. -/
def mode (host : Host) (settings : Settings) : Mode :=
  let debug := settings.logLevel.showsDebug
  ⟨debug, host.passes, some (host.evaluation debug), some host.showing⟩

/-- How deep compounds may be nested under the settings. -/
def limit (host : Host) (settings : Settings) : Limit :=
  ⟨settings.maxDepth, host.reading⟩

end Host

/-- Runs the read loop over the whole standard input. -/
def runLoop (host : Host) (settings : Settings) (stdin : String) : Transcript :=
  let (ending, d) :=
    Dialogue.converse (host.mode settings) (host.limit settings) settings.prompt
      (Text.lines stdin) ⟨"", fresh⟩
  ⟨ending.map fun _ => 0, d.state.output, terminalText d.state.trace⟩

/-- Runs a script; an error of the language is reported and fails the program. -/
def runScriptFile (host : Host) (settings : Settings) (octets : List UInt8) : Transcript :=
  let (ending, s) := (runScript (host.mode settings) (host.limit settings) octets).result fresh
  let stderr := terminalText s.trace
  match ending with
  | .ok _ => ⟨.ok 0, s.output, stderr⟩
  | .error (.failed e) =>
    if e.InLanguage then ⟨.ok 1, s.output, stderr ++ "error: " ++ e.message ++ "\n"⟩
    else ⟨.error (.failed e), s.output, stderr⟩
  | .error .exhausted => ⟨.error .exhausted, s.output, stderr⟩

/-- The whole program, given its machine, its variables, the files of the system, its input and its
words. -/
def run (host : Host) (vars : Variables) (entryAt : String → Entry)
    (stdin : String) (words : List String) : Transcript :=
  let settings := Settings.ofVariables vars
  match request words with
  | .help => ⟨.ok 0, helpText, ""⟩
  | .refuse complaint => ⟨.ok 2, "", usage ++ "minilisp: error: " ++ complaint ++ "\n"⟩
  | .start none => runLoop host settings stdin
  | .start (some path) =>
    match Path.read entryAt path with
    | .ok octets => runScriptFile host settings octets
    | .error e => ⟨.error (.failed e), "", ""⟩

end CommandLine

end Lisplet
