import Lisplet.Error

/-!
# Paths of files

A path is a list of names between slashes. Empty names and single dots say nothing and are left
out; two dots lead to the directory above. Some paths name no file, whatever files there are:
those with a character that no path may hold, those that are too long, and those that only lead
upward and so name a directory.
-/

namespace Lisplet

structure Path where
  /-- Whether the path starts at the root. -/
  absolute : Bool
  names : List (List Char)
  deriving DecidableEq

/-- What a system has at a path. -/
inductive Entry where
  | file (octets : List UInt8)
  | directory
  | nothing

namespace Path

/-- The text cut at every slash. -/
def cutSlashes : List Char → List (List Char)
  | [] => [[]]
  | c :: rest =>
    if c = '/' then [] :: cutSlashes rest
    else
      match cutSlashes rest with
      | [] => [[c]]
      | name :: names => (c :: name) :: names

/-- A name that leads nowhere else. -/
def isIdle (name : List Char) : Bool := name.isEmpty || name == ['.']

def ofText (text : String) : Path :=
  ⟨text.toList.head? == some '/', (cutSlashes text.toList).filter (!isIdle ·)⟩

/-- The path without the names that say nothing. -/
def text (path : Path) : String :=
  (if path.absolute then "/" else "") ++ "/".intercalate (path.names.map String.ofList)

/-- The names that are left after the way up. -/
def below (path : Path) : List (List Char) :=
  path.names.dropWhile (· == ['.', '.'])

/-- The length of the longest path that a system takes, in octets. -/
def maxLength : Nat := 4095

/-- The length of the longest name that a system takes, in octets. -/
def maxNameLength : Nat := 255

/-- A path too long as a whole, or whose first name below the way up is too long. The names after
that one are not looked at unless it exists. -/
def isTooLong (path : Path) : Bool :=
  maxLength < path.text.utf8ByteSize
    || path.below.head?.any (fun name => maxNameLength < (String.ofList name).utf8ByteSize)

/-- Why a path names no file, whatever files there are. -/
def fault? (text : String) : Option PathFault :=
  let path := ofText text
  if text.toList.contains '\x00' then some .nul
  else if path.isTooLong then some .tooLong
  else if path.below.isEmpty then some .directory
  else none

/-- The octets of the file at a path. -/
def read (entryAt : String → Entry) (text : String) : Except Error (List UInt8) :=
  match fault? text with
  | some fault => .error (.noFile fault text)
  | none =>
    match entryAt text with
    | .file octets => .ok octets
    | .directory => .error (.noFile .directory text)
    | .nothing => .error (.noFile .missing text)

/-- A path that is refused by itself is refused in every system. -/
theorem read_of_fault {text : String} {fault : PathFault} (h : fault? text = some fault)
    (entryAt : String → Entry) : read entryAt text = .error (.noFile fault text) := by
  simp only [read, h]

end Path

end Lisplet
