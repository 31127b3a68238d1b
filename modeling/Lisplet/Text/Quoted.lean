import Lisplet.Text.Printable

/-!
# Quoted text in messages

Messages show a text between quotes, so that its blank and invisible characters can be seen. The
quote is the apostrophe, unless the text holds an apostrophe and no double quote.
-/

namespace Lisplet.Text

/-- The hexadecimal digits of a number, in lower case, with zeros in front up to a width. -/
def hex (width n : Nat) : List Char :=
  (Nat.toDigits 16 n).leftpad width '0'

/-- The quote that a text is shown between. -/
def quoteFor (chars : List Char) : Char :=
  if chars.contains '\x27' && !chars.contains '"' then '"' else '\x27'

/-- A character between quotes: the quote and the backslash get a backslash, tab and line ends
have letters, and a character that is not printable is written by its code point. -/
def shownChar (quote c : Char) : List Char :=
  if c = quote ∨ c = '\\' then ['\\', c]
  else if c = '\t' then ['\\', 't']
  else if c = '\n' then ['\\', 'n']
  else if c = '\r' then ['\\', 'r']
  else if isPrintable c then [c]
  else if c.toNat < 0x100 then '\\' :: 'x' :: hex 2 c.toNat
  else if c.toNat < 0x10000 then '\\' :: 'u' :: hex 4 c.toNat
  else '\\' :: 'U' :: hex 8 c.toNat

/-- The text as messages show it. -/
def quoted (text : String) : String :=
  let quote := quoteFor text.toList
  String.ofList (quote :: text.toList.flatMap (shownChar quote) ++ [quote])

end Lisplet.Text
