import Lisplet.Text.Numeral

/-!
# Settings

Three environment variables configure a session: the nesting depth that the reader accepts, the
prompt of the read loop and the level of the log. Text that is missing or means nothing gives the
default.
-/

namespace Lisplet

/-- Which messages the log shows; some levels have two names. -/
inductive LogLevel where
  | critical
  | fatal
  | error
  | warn
  | warning
  | info
  | debug
  | notSet
  deriving DecidableEq

namespace LogLevel

def name : LogLevel → String
  | .critical => "CRITICAL"
  | .fatal => "FATAL"
  | .error => "ERROR"
  | .warn => "WARN"
  | .warning => "WARNING"
  | .info => "INFO"
  | .debug => "DEBUG"
  | .notSet => "NOTSET"

def all : List LogLevel :=
  [.critical, .fatal, .error, .warn, .warning, .info, .debug, .notSet]

/-- The capital of a letter as far as names of levels are concerned: besides the ASCII letters,
the dotless i and the long s have capitals in ASCII. -/
def capital (c : Char) : Char :=
  if c = 'ı' then 'I' else if c = 'ſ' then 'S' else c.toUpper

/-- The level that a text names, in any case and with blanks around it. -/
def ofText? (text : String) : Option LogLevel :=
  let wanted := (Text.trim text.toList).map capital
  all.find? fun level => level.name.toList == wanted

/-- Debug records are shown at the levels that let everything through. -/
def showsDebug : LogLevel → Bool
  | .debug | .notSet => true
  | _ => false

theorem mem_all (level : LogLevel) : level ∈ all := by
  cases level <;> decide

end LogLevel

/-- The variables as they are found; one that is not set has no text. -/
structure Variables where
  maxDepth : Option String
  prompt : Option String
  logLevel : Option String

structure Settings where
  /-- The nesting that the reader accepts. -/
  maxDepth : Int
  prompt : String
  logLevel : LogLevel

namespace Settings

/-- The positive number that a variable gives, or else the default, which may be any number. -/
def positive (text : Option String) (default : Int) : Int :=
  match text.bind Text.wholeNumber? with
  | some n => if 0 < n then n else default
  | none => default

/-- The prompt, taken as it is, blanks included; only the empty text counts as missing. -/
def promptOf : Option String → String
  | some text => if text = "" then "repl> " else text
  | none => "repl> "

def ofVariables (vars : Variables) : Settings where
  maxDepth := positive vars.maxDepth 200
  prompt := promptOf vars.prompt
  logLevel := (vars.logLevel.bind LogLevel.ofText?).getD .warning

theorem maxDepth_ofVariables_pos (vars : Variables) : 0 < (ofVariables vars).maxDepth := by
  simp only [ofVariables, positive]
  split
  · split <;> omega
  · omega

end Settings

end Lisplet
