/-!
# Lines

Standard input is read a line at a time, and a line keeps its line feed. Script files may end
their lines in the three usual ways; all of them become a line feed before anything is read.
-/

namespace Lisplet.Text

/-- The text cut after every line feed. A last line may lack one; no line is empty. -/
def cutLines : List Char → List (List Char)
  | [] => []
  | c :: rest =>
    if c = '\n' then [c] :: cutLines rest
    else
      match cutLines rest with
      | [] => [[c]]
      | line :: lines => (c :: line) :: lines

/-- The lines of a text, each with the line feed that ends it. -/
def lines (text : String) : List String :=
  (cutLines text.toList).map String.ofList

/-- A carriage return, and the line feed after it if there is one, become one line feed. -/
def unifyLineEnds : List Char → List Char
  | [] => []
  | '\r' :: '\n' :: rest => '\n' :: unifyLineEnds rest
  | c :: rest => (if c = '\r' then '\n' else c) :: unifyLineEnds rest

theorem unifyLineEnds_of_not_mem {chars : List Char} (h : '\r' ∉ chars) :
    unifyLineEnds chars = chars := by
  fun_induction unifyLineEnds chars with
  | case1 => rfl
  | case2 rest ih => simp at h
  | case3 c rest _ ih =>
    rw [List.mem_cons, not_or] at h
    rw [if_neg (Ne.symm h.1), ih h.2]

end Lisplet.Text
