import Lisplet.Text.Quoted

/-!
# Text from octets

Script files are UTF-8. The decoder reads one octet at a time and keeps count of the continuation
octets that the current character still owes, with the range that the next of them must lie in:
after E0, ED, F0 and F4 that range is narrower, which rules out overlong forms, surrogates and
numbers above U+10FFFF. A refusal names the octets from the start of the character up to the one
before the offending octet.
-/

namespace Lisplet.Text.Utf8

/-- Why octets are no text. -/
inductive Reason where
  | invalidStart
  | invalidContinuation
  | unexpectedEnd
  deriving DecidableEq

def Reason.text : Reason → String
  | .invalidStart => "invalid start byte"
  | .invalidContinuation => "invalid continuation byte"
  | .unexpectedEnd => "unexpected end of data"

/-- The octets refused: where they start, the octet there, and where the last of them stands. -/
structure Refusal where
  first : Nat
  last : Nat
  octet : Nat
  reason : Reason
  deriving DecidableEq

def Refusal.message (r : Refusal) : String :=
  let place :=
    if r.first = r.last then
      "byte 0x" ++ String.ofList (hex 2 r.octet) ++ " in position " ++ toString r.first
    else "bytes in position " ++ toString r.first ++ "-" ++ toString r.last
  "'utf-8' codec can't decode " ++ place ++ ": " ++ r.reason.text

/-- A character some of whose octets have been read. -/
structure Partial where
  /-- Where its first octet stands. -/
  start : Nat
  /-- Its first octet. -/
  lead : Nat
  /-- The number written by the octets read so far. -/
  value : Nat
  /-- How many octets must follow. -/
  owed : Nat
  /-- The least and the greatest octet that may come next. -/
  low : Nat
  high : Nat

/-- The decoder between two octets. -/
structure Decoder where
  position : Nat
  /-- The characters read, latest first. -/
  chars : List Char
  current : Option Partial

def Decoder.start : Decoder := ⟨0, [], none⟩

/-- What the first octet of a longer character promises. -/
def begin? (position octet : Nat) : Option Partial :=
  if 0xC2 ≤ octet ∧ octet ≤ 0xDF then some ⟨position, octet, octet - 0xC0, 1, 0x80, 0xBF⟩
  else if octet = 0xE0 then some ⟨position, octet, 0, 2, 0xA0, 0xBF⟩
  else if octet = 0xED then some ⟨position, octet, 0xD, 2, 0x80, 0x9F⟩
  else if 0xE1 ≤ octet ∧ octet ≤ 0xEF then some ⟨position, octet, octet - 0xE0, 2, 0x80, 0xBF⟩
  else if octet = 0xF0 then some ⟨position, octet, 0, 3, 0x90, 0xBF⟩
  else if octet = 0xF4 then some ⟨position, octet, 4, 3, 0x80, 0x8F⟩
  else if 0xF1 ≤ octet ∧ octet ≤ 0xF3 then some ⟨position, octet, octet - 0xF0, 3, 0x80, 0xBF⟩
  else none

/-- Reads one octet. -/
def Decoder.step (d : Decoder) (octet : Nat) : Except Refusal Decoder :=
  match d.current with
  | none =>
    if octet < 0x80 then .ok ⟨d.position + 1, Char.ofNat octet :: d.chars, none⟩
    else
      match begin? d.position octet with
      | some p => .ok ⟨d.position + 1, d.chars, some p⟩
      | none => .error ⟨d.position, d.position, octet, .invalidStart⟩
  | some p =>
    if p.low ≤ octet ∧ octet ≤ p.high then
      let value := 64 * p.value + (octet - 0x80)
      if p.owed ≤ 1 then .ok ⟨d.position + 1, Char.ofNat value :: d.chars, none⟩
      else .ok ⟨d.position + 1, d.chars, some ⟨p.start, p.lead, value, p.owed - 1, 0x80, 0xBF⟩⟩
    else .error ⟨p.start, d.position - 1, p.lead, .invalidContinuation⟩

/-- Reads octets one after the other. -/
abbrev Decoder.steps (d : Decoder) (octets : List UInt8) : Except Refusal Decoder :=
  octets.foldlM (fun d octet => d.step octet.toNat) d

/-- The text read, unless the octets end inside a character. -/
def Decoder.finish (d : Decoder) : Except Refusal (List Char) :=
  match d.current with
  | none => .ok d.chars.reverse
  | some p => .error ⟨p.start, d.position - 1, p.lead, .unexpectedEnd⟩

/-- The text that the octets write. -/
def decode (octets : List UInt8) : Except Refusal (List Char) := do
  let d ← Decoder.start.steps octets
  d.finish

/-- The octets that write a text. -/
def encode (chars : List Char) : List UInt8 :=
  chars.flatMap String.utf8EncodeChar

end Lisplet.Text.Utf8
