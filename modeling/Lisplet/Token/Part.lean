import Lisplet.Supply
import Lisplet.Text.Blank

/-!
# Parts of a source text

A source text falls into parts: parentheses, string literals with their quotes, and bare words
between them; blank characters only separate. The scanner is a left fold over the characters, so
scanning a text is scanning its start and going on from there (`scanFrom_append`). A string
literal ends at its first double quote that no backslash escapes; if there is none, the text
breaks off at the opening quote, and every part before it has been delivered.
-/

namespace Lisplet

namespace Scan

/-- What the scanner is in the middle of; characters gathered so far are kept latest first. -/
inductive Mode where
  /-- A bare word, empty between two parts. -/
  | word (chars : List Char)
  /-- A string literal that opened at `start`, its opening quote included. -/
  | literal (start : Nat) (chars : List Char)
  /-- The same, right after a backslash. -/
  | escape (start : Nat) (chars : List Char)

/-- The parts with the bare word that a boundary ends, if it is not empty. -/
def endWord (chars : List Char) (parts : List String) : List String :=
  if chars.isEmpty then parts else String.ofList chars.reverse :: parts

end Scan

/-- The scanner between two characters. -/
structure Scan where
  /-- How many characters have been read. -/
  position : Nat
  /-- The parts completed, latest first. -/
  parts : List String
  mode : Scan.Mode

namespace Scan

def start : Scan := ⟨0, [], .word []⟩

/-- Reads one character. -/
def step (s : Scan) (c : Char) : Scan :=
  match s.mode with
  | .word chars =>
    if c = '"' then ⟨s.position + 1, endWord chars s.parts, .literal s.position ['"']⟩
    else if Text.isBlank c then ⟨s.position + 1, endWord chars s.parts, .word []⟩
    else if c = '(' ∨ c = ')' then
      ⟨s.position + 1, c.toString :: endWord chars s.parts, .word []⟩
    else ⟨s.position + 1, s.parts, .word (c :: chars)⟩
  | .literal start chars =>
    if c = '\\' then ⟨s.position + 1, s.parts, .escape start (c :: chars)⟩
    else if c = '"' then
      ⟨s.position + 1, String.ofList (c :: chars).reverse :: s.parts, .word []⟩
    else ⟨s.position + 1, s.parts, .literal start (c :: chars)⟩
  | .escape start chars => ⟨s.position + 1, s.parts, .literal start (c :: chars)⟩

/-- Reads more characters. -/
def scanFrom (s : Scan) (chars : List Char) : Scan :=
  chars.foldl step s

/-- The parts of a text that ends here. -/
def finish (s : Scan) : Supply String :=
  match s.mode with
  | .word chars => ⟨(endWord chars s.parts).reverse, none⟩
  | .literal start _ | .escape start _ => ⟨s.parts.reverse, some (.unterminatedString start)⟩

@[simp] theorem scanFrom_nil (s : Scan) : s.scanFrom [] = s := rfl

@[simp] theorem scanFrom_cons (s : Scan) (c : Char) (chars : List Char) :
    s.scanFrom (c :: chars) = (s.step c).scanFrom chars := rfl

theorem scanFrom_append (s : Scan) (front back : List Char) :
    s.scanFrom (front ++ back) = (s.scanFrom front).scanFrom back :=
  List.foldl_append

@[simp] theorem endWord_nil (parts : List String) : endWord [] parts = parts := rfl

@[simp] theorem endWord_cons (c : Char) (chars : List Char) (parts : List String) :
    endWord (c :: chars) parts = String.ofList (c :: chars).reverse :: parts := rfl

@[simp] theorem position_step (s : Scan) (c : Char) : (s.step c).position = s.position + 1 := by
  unfold step
  split
  · split
    · rfl
    · split
      · rfl
      · split <;> rfl
  · split
    · rfl
    · split <;> rfl
  · rfl

theorem position_scanFrom (s : Scan) (chars : List Char) :
    (s.scanFrom chars).position = s.position + chars.length := by
  induction chars generalizing s with
  | nil => rfl
  | cons c chars ih =>
    rw [scanFrom_cons, ih, position_step, List.length_cons]
    omega

/-- A blank character ends the word before it. -/
theorem step_blank {s : Scan} {chars : List Char} {c : Char} (hm : s.mode = .word chars)
    (hc : Text.isBlank c = true) :
    s.step c = ⟨s.position + 1, endWord chars s.parts, .word []⟩ := by
  have hq : c ≠ '"' := by
    rintro rfl
    exact absurd hc (by decide)
  simp only [step, hm, if_neg hq, hc, if_true]

/-- A parenthesis ends the word before it and is a part of its own. -/
theorem step_paren {s : Scan} {chars : List Char} {c : Char} (hm : s.mode = .word chars)
    (hc : c = '(' ∨ c = ')') :
    s.step c = ⟨s.position + 1, c.toString :: endWord chars s.parts, .word []⟩ := by
  have hb : Text.isBlank c = false := by
    rcases hc with rfl | rfl <;> decide
  have hq : c ≠ '"' := by
    rcases hc with rfl | rfl <;> decide
  simp only [step, hm, if_neg hq, hb, if_pos hc, Bool.false_eq_true, if_false]

/-- A double quote ends the word before it and opens a string literal. -/
theorem step_quote {s : Scan} {chars : List Char} (hm : s.mode = .word chars) :
    s.step '"' = ⟨s.position + 1, endWord chars s.parts, .literal s.position ['"']⟩ := by
  simp only [step, hm, if_true]

/-- Any other character belongs to the word. -/
theorem step_bare {s : Scan} {chars : List Char} {c : Char} (hm : s.mode = .word chars)
    (hb : Text.isBlank c = false) (hp : ¬(c = '(' ∨ c = ')')) (hq : c ≠ '"') :
    s.step c = ⟨s.position + 1, s.parts, .word (c :: chars)⟩ := by
  simp only [step, hm, if_neg hq, hb, if_neg hp, Bool.false_eq_true, if_false]

end Scan

/-- The parts of a source text, in order. -/
def parts (source : String) : Supply String :=
  (Scan.start.scanFrom source.toList).finish

/-- Whether every opening parenthesis among the parts has a closing one. Closing ones may be in
excess and need not come after; an open string literal is never balanced. -/
def isBalanced (text : String) : Bool :=
  let delivered := parts text
  delivered.fault.isNone &&
    decide (delivered.items.count "(" ≤ delivered.items.count ")")

end Lisplet
