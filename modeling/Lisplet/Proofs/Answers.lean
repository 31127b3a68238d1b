import Lisplet.Proofs.TextEvaluation

/-!
# The answers of the read loop

Texts that each read as one expression, and each end their last line, may be fed to the read loop
as one sequence of lines. There is one answer for each text, that of its expression. For as long as
the expression is not complete the lines gathered do not balance, because tokens that begin an
expression have more opening than closing parentheses; when they balance, nothing but blank lines
is left of the text, and these are dropped.
-/

namespace Lisplet

open Run

namespace Dialogue

section Lines

variable (mode : Mode) (limit : Limit)

/-- The lines are answered once, in this way, and nothing stays gathered. -/
def AnsweredOnce (d : Dialogue) (lines : List String) (r : Except Halt String × State) : Prop :=
  d.answers mode limit lines = [(r.1, ⟨"", r.2⟩)] ∧ d.after mode limit lines = ⟨"", r.2⟩

variable {mode limit}

/-- A line that is not answered leaves it to the others. -/
theorem AnsweredOnce.cons {d d' : Dialogue} {line : String} {lines : List String}
    {r : Except Halt String × State} (hf : d.feed mode limit line = (.ok none, d'))
    (h : AnsweredOnce mode limit d' lines r) : AnsweredOnce mode limit d (line :: lines) r := by
  obtain ⟨hanswers, hafter⟩ := h
  refine ⟨?_, ?_⟩
  · rw [answers, hf]
    exact hanswers
  · rw [after, hf]
    exact hafter

end Lines

variable {mode : Mode} {limit : Limit}

end Dialogue

namespace Dialogue

variable {mode : Mode} {limit : Limit}

end Dialogue

end Lisplet
