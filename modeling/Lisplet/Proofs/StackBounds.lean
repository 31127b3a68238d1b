import Lisplet.Proofs.Language
import Lisplet.Proofs.TextEvaluation

/-!
# Evaluation that meets the end of the stack

The end of the stack does one thing to an evaluation: it may stop it, where a compound is about to
be evaluated that stands too deep, or where an expression is to be shown that is too high. Up to
there every step is the one taken with a stack that has no end. This is carried from one expression
to texts and to scripts. What the stack carries is not stopped.
-/

namespace Lisplet

namespace Run

variable {α β : Type}

/-- The run has been stopped by the end of the stack, in evaluating or in showing what was read. -/
def StoppedByStack (r : Except Halt α × State) : Prop :=
  r.1 = .error (.failed .nestedTooDeeply) ∨ r.1 = .error (.failed .stackExhausted)

/-- The run does as the other one does, unless the end of the stack stops it on the way. -/
def CutShort (run run' : Run α) : Prop :=
  ∀ s, run.result s = run'.result s ∨ StoppedByStack (run.result s)

namespace CutShort

theorem refl (run : Run α) : CutShort run run := fun _ => .inl rfl

theorem bind {run run' : Run α} {next next' : α → Run β} (h : CutShort run run')
    (hnext : ∀ a, CutShort (next a) (next' a)) : CutShort (run >>= next) (run' >>= next') := by
  intro s
  rw [result_bind, result_bind]
  obtain hsame | hstopped := h s
  · rw [← hsame]
    rcases run.result s with ⟨halt | a, s₁⟩
    · exact .inl rfl
    · exact hnext a s₁
  · refine .inr ?_
    rcases hr : run.result s with ⟨halt | a, s₁⟩
    · rw [hr] at hstopped
      exact hstopped.imp (fun h => by cases h; rfl) fun h => by cases h; rfl
    · rw [hr] at hstopped
      obtain h | h := hstopped <;> cases h

/-- What stops a run stops it in front of everything. -/
theorem of_stopped {run run' : Run α} (h : ∀ s, StoppedByStack (run.result s)) :
    CutShort run run' := fun s => .inr (h s)

end CutShort

end Run

open Run

/-- The mode with a stack that carries everything. -/
def Mode.unbounded (mode : Mode) : Mode := { mode with nesting := none, showing := none }

/-- Each step is cut short in front of whatever is cut short for the values that it may have. -/
theorem CutShort.traversal (mode : Mode) :
    Traversal mode mode.unbounded (fun _ => True) (fun _ => True) (fun _ => True)
      fun {α} Q run run' _ _ => ∀ (β : Type) (next next' : α → Run β),
        (∀ a, Q a → CutShort (next a) (next' a)) → CutShort (run >>= next) (run' >>= next') where
  toVocabulary := .any _
  passes := rfl
  lift {α Q r} hr := by
    intro β next next' hnext
    cases r with
    | ok a => exact hnext a hr
    | error cause => exact .refl _
  exhausted _ _ _ _ := .refl _
  bind hrun hnext := by
    intro γ next₂ next₂' hnext₂
    rw [bind_assoc, bind_assoc]
    exact hrun γ _ _ fun a ha => hnext a ha γ next₂ next₂' hnext₂
  lookup _ _ _ _ hnext := .bind (.refl _) fun v => hnext v trivial
  define _ _ _ _ _ hnext := .bind (.refl _) fun a => hnext a trivial
  print _ _ _ _ _ _ hnext := .bind (.refl _) fun a => hnext a trivial
  record _ _ _ _ hnext := .bind (.refl _) fun a => hnext a trivial

/-- The end of the stack stops an evaluation or makes no difference to it. -/
theorem Expr.cutShort_eval (mode : Mode) (level : Nat) (e : Expr) :
    CutShort (e.eval mode level) (e.eval mode.unbounded level) := by
  have heval := (CutShort.traversal mode).eval (fun _ hn => nomatch hn)
    (fun f args level _ _ β next next' _ => .of_stopped fun s => .inl rfl) e
    (fun _ _ => trivial) level
  have hpure := heval Value pure pure fun v _ => .refl (pure v)
  rwa [bind_pure, bind_pure] at hpure

theorem cutShort_evalEach (mode : Mode) (last : Value) (es : List Expr) :
    CutShort (evalEach mode last es) (evalEach mode.unbounded last es) := by
  induction es generalizing last with
  | nil => exact .refl _
  | cons e es ih => exact (e.cutShort_eval mode 0).bind ih

theorem cutShort_evalText (mode : Mode) (limit : Limit) (source : String) :
    CutShort (evalText mode limit source) (evalText mode.unbounded limit source) := by
  cases hp : parseText limit source with
  | error cause =>
    rw [evalText_of_error hp, evalText_of_error hp]
    exact .refl _
  | ok e =>
    rw [evalText_of_ok hp, evalText_of_ok hp]
    by_cases hshow : mode.Shows e
    · obtain ⟨text, htext⟩ := text_of_parseText hp
      have hunbounded : mode.unbounded.Shows e := fun _ _ hb => nomatch hb
      rw [evalRead_of_text hshow htext, evalRead_of_text hunbounded htext]
      exact CutShort.bind (.refl _) fun _ => e.cutShort_eval mode 0
    · rw [evalRead_of_not_shows hshow]
      exact fun s => .inr (.inr rfl)

theorem cutShort_evalScript (mode : Mode) (limit : Limit) (source : String) :
    CutShort (evalScript mode limit source) (evalScript mode.unbounded limit source) := by
  cases hp : parseAllText limit source with
  | error cause =>
    rw [evalScript_of_error hp, evalScript_of_error hp]
    exact .refl _
  | ok es =>
    rw [evalScript_of_ok hp, evalScript_of_ok hp]
    exact CutShort.bind (.refl _) fun _ => cutShort_evalEach mode .nil es

end Lisplet
