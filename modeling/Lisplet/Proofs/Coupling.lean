import Lisplet.Proofs.Traversal

/-!
# Two evaluations side by side

Some facts about evaluation compare two runs, from two environments or in two modes; others compare
one run with the state that it started from. Both say that a relation between two states is kept.
`Run.Coupled` says this of two runs, and that they end alike: with one value, with one error, or
both without an outcome for want of passes.

`Coupling` gathers what the steps of evaluation must satisfy for this, and `Coupling.eval` concludes
that evaluation is coupled.
-/

namespace Lisplet

namespace Run

variable {α β : Type}

/-- Two runs have ended alike and left related states. -/
structure CoupledAt (I : State → State → Prop) (Cause : Error → Prop) (Q : α → Prop)
    (r r' : Except Halt α × State) : Prop where
  same : r.1 = r'.1
  states : I r.2 r'.2
  value : ∀ a, r.1 = .ok a → Q a
  cause : ∀ cause, r.1 = .error (.failed cause) → Cause cause

/-- From related states the two runs end alike and leave related states. A value satisfies `Q`, and
an error is of the causes given. -/
def Coupled (I : State → State → Prop) (Cause : Error → Prop) (Q : α → Prop)
    (run run' : Run α) : Prop :=
  ∀ s t : State, I s t → CoupledAt I Cause Q (run.result s) (run'.result t)

namespace Coupled

variable {I : State → State → Prop} {Cause : Error → Prop} {P Q : α → Prop} {R : β → Prop}
  {run run' : Run α} {next next' : α → Run β}

theorem lift {r : Except Error α} (hr : Meets Q Cause r) : Coupled I Cause Q (lift r) (lift r) := by
  intro s t hst
  cases r with
  | ok a =>
    refine ⟨rfl, hst, ?_, ?_⟩
    · intro b hb
      cases hb
      exact hr
    · intro cause hcause
      cases hcause
  | error cause =>
    refine ⟨rfl, hst, ?_, ?_⟩
    · intro b hb
      cases hb
    · intro cause' hcause
      cases hcause
      exact hr

theorem pure {a : α} (ha : Q a) : Coupled I Cause Q (pure a) (pure a) :=
  lift (r := .ok a) ha

theorem fail {cause : Error} (hc : Cause cause) : Coupled I Cause Q (fail cause) (fail cause) :=
  lift (r := .error cause) hc

theorem exhausted : Coupled I Cause Q (throw .exhausted) (throw .exhausted) := by
  intro s t hst
  refine ⟨rfl, hst, ?_, ?_⟩
  · intro a ha
    cases ha
  · intro cause hcause
    cases hcause

theorem bind (h : Coupled I Cause P run run')
    (hnext : ∀ a, P a → Coupled I Cause R (next a) (next' a)) :
    Coupled I Cause R (run >>= next) (run' >>= next') := by
  intro s t hst
  obtain ⟨hsame, hstates, hvalue, hcause⟩ := h s t hst
  rw [result_bind, result_bind]
  rcases hs : run.result s with ⟨r, s₁⟩
  rcases ht : run'.result t with ⟨r', t₁⟩
  rw [hs, ht] at hsame hstates
  rw [hs] at hvalue hcause
  obtain rfl : r = r' := hsame
  cases r with
  | ok a => exact hnext a (hvalue a rfl) s₁ t₁ hstates
  | error halt =>
    refine ⟨rfl, hstates, ?_, ?_⟩
    · intro b hb
      cases hb
    · intro cause hc
      cases hc
      exact hcause cause rfl

theorem imp {Cause' : Error → Prop} (h : Coupled I Cause Q run run')
    (himp : ∀ cause, Cause cause → Cause' cause) : Coupled I Cause' Q run run' := by
  intro s t hst
  obtain ⟨hsame, hstates, hvalue, hcause⟩ := h s t hst
  exact ⟨hsame, hstates, hvalue, fun cause hr => himp cause (hcause cause hr)⟩

/-- A step that is always done. -/
theorem of_done {step step' : Run Unit}
    (h : ∀ s t, I s t → ∃ s' t', step.result s = (.ok (), s') ∧ step'.result t = (.ok (), t') ∧
      I s' t') : Coupled I Cause (fun _ => True) step step' := by
  intro s t hst
  obtain ⟨s', t', hs, ht, hst'⟩ := h s t hst
  rw [hs, ht]
  refine ⟨rfl, hst', fun _ _ => trivial, ?_⟩
  intro cause hcause
  cases hcause

/-- A name is looked up alike in states that have the same value for it. -/
theorem lookup {x : String} {Good : Value → Prop} (hx : ∀ s t, I s t → s.env.get? x = t.env.get? x)
    (hgood : ∀ s t v, I s t → s.env.get? x = some v → Good v)
    (hunbound : Cause (.unboundSymbol x)) :
    Coupled I Cause Good (lookup x) (lookup x) := by
  intro s t hst
  rw [result_lookup, result_lookup, ← hx s t hst]
  cases hv : s.env.get? x with
  | some v => exact Coupled.pure (hgood s t v hst hv) s t hst
  | none => exact Coupled.fail hunbound s t hst

end Coupled

end Run

open Run

/-- What the steps of evaluation in two modes satisfy, at the places where they are taken. -/
structure Coupling (mode mode' : Mode) (I : State → State → Prop) (Site : Expr → Prop)
    (Good : Value → Prop) (Cause : Error → Prop) : Prop extends Vocabulary Site Good Cause where
  passes : mode.passes = mode'.passes
  nesting : mode.nesting = mode'.nesting
  nested : ∀ {f : String} {args : List Expr}, Site (.compound f args) → Cause .nestedTooDeeply
  lookup : ∀ {x : String}, Site (.symbol x) → Coupled I Cause Good (lookup x) (lookup x)
  define : ∀ {x : String} {a : Expr} {v : Value},
    Site (.compound (Operator.name .global) [.symbol x, a]) → Good v →
    Coupled I Cause (fun _ => True) (define mode x v) (define mode' x v)
  print : ∀ {a : Expr} {v : Value} {text : String}, Site (.compound (Operator.name .print) [a]) →
    Good v → v.render = .ok text →
    Coupled I Cause (fun _ => True) (print (text ++ "\n")) (print (text ++ "\n"))
  record : ∀ {f : String} {args : List Expr}, Site (.compound f args) →
    Coupled I Cause (fun _ => True) (record mode (.applied f args.length))
      (record mode' (.applied f args.length))

namespace Coupling

variable {mode mode' : Mode} {I : State → State → Prop} {Site : Expr → Prop}
  {Good : Value → Prop} {Cause : Error → Prop}

theorem traversal (h : Coupling mode mode' I Site Good Cause) :
    Traversal mode mode' Site Good Cause fun Q run run' _ _ => Coupled I Cause Q run run' where
  toVocabulary := h.toVocabulary
  passes := h.passes
  lift hr := .lift hr
  exhausted := .exhausted
  bind hrun hnext := hrun.bind hnext
  lookup hs := h.lookup hs
  define hs hv := h.define hs hv
  print hs hv htext := h.print hs hv htext
  record hs := h.record hs

/-- Evaluation is coupled, if the steps are that it takes at the places of the expression. -/
theorem eval (h : Coupling mode mode' I Site Good Cause) (e : Expr) (he : ∀ n ∈ e.nodes, Site n)
    (level : Nat) : Coupled I Cause Good (e.eval mode level) (e.eval mode' level) :=
  h.traversal.eval_of_nesting_eq h.nesting h.nested e he level

end Coupling

end Lisplet
