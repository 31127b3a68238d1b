import Lisplet.Proofs.Coupling
import Lisplet.Proofs.Inheritance

/-!
# Evaluation depends on the names that it reads

Two environments that agree on the names an expression reads are alike to it. They need not agree on
the names that it binds, and these it may go on to read; so what is kept between the two evaluations
is that each name is either as it was in both or bound to one value in both. A name that is read was
the same to begin with, and in either case it is the same again.

Operators are looked up by name, but not in the environment; their names are not among those read.
-/

namespace Lisplet

open Run

/-- The expression holds the name as a symbol, and not only as the name that a `global` compound
binds. -/
def Expr.Reads (e : Expr) (x : String) : Prop := .symbol x ∈ e.nodes

instance (e : Expr) (x : String) : Decidable (e.Reads x) := inferInstanceAs (Decidable (_ ∈ _))

/-- From `s₀` and `t₀` on the same has been done: one text was printed, and each name has been left
as it was or has been bound to one value. -/
structure DoneAlike (s₀ t₀ s t : State) : Prop where
  output : ∃ printed, s.output = s₀.output ++ printed ∧ t.output = t₀.output ++ printed
  names : ∀ x, (s.env.get? x = s₀.env.get? x ∧ t.env.get? x = t₀.env.get? x) ∨
    ∃ v, s.env.get? x = some v ∧ t.env.get? x = some v

namespace DoneAlike

variable {s₀ t₀ s t : State}

theorem refl (s t : State) : DoneAlike s t s t where
  output := ⟨"", String.append_empty.symm, String.append_empty.symm⟩
  names _ := .inl ⟨rfl, rfl⟩

/-- A name that was the same to begin with is still the same. -/
theorem get?_eq (h : DoneAlike s₀ t₀ s t) {x : String} (hx : s₀.env.get? x = t₀.env.get? x) :
    s.env.get? x = t.env.get? x := by
  obtain ⟨hs, ht⟩ | ⟨v, hs, ht⟩ := h.names x
  · rw [hs, ht, hx]
  · rw [hs, ht]

theorem define (h : DoneAlike s₀ t₀ s t) (x : String) (v : Value) (trace trace' : Array Record) :
    DoneAlike s₀ t₀ ⟨s.env.define x v, s.output, trace⟩ ⟨t.env.define x v, t.output, trace'⟩ where
  output := h.output
  names y := by
    by_cases hy : y = x
    · subst hy
      exact .inr ⟨v, Env.get?_define_self _ _ _, Env.get?_define_self _ _ _⟩
    · rw [Env.get?_define_of_ne _ _ hy, Env.get?_define_of_ne _ _ hy]
      exact h.names y

theorem print (h : DoneAlike s₀ t₀ s t) (text : String) :
    DoneAlike s₀ t₀ { s with output := s.output ++ text }
      { t with output := t.output ++ text } where
  output := by
    obtain ⟨printed, hs, ht⟩ := h.output
    refine ⟨printed ++ text, ?_, ?_⟩
    · change s.output ++ text = _
      rw [hs, String.append_assoc]
    · change t.output ++ text = _
      rw [ht, String.append_assoc]
  names := h.names

theorem record (h : DoneAlike s₀ t₀ s t) (mode : Mode) (r : Record) :
    DoneAlike s₀ t₀ (if mode.debug then { s with trace := s.trace.push r } else s)
      (if mode.debug then { t with trace := t.trace.push r } else t) := by
  split
  · exact ⟨h.output, h.names⟩
  · exact h

end DoneAlike

/-- Evaluation does the same from states that agree on what is read. -/
theorem coupling_of_agreement (mode : Mode) {e : Expr} {s₀ t₀ : State}
    (h : ∀ x, e.Reads x → s₀.env.get? x = t₀.env.get? x) :
    Coupling mode mode (DoneAlike s₀ t₀) (· ∈ e.nodes) (fun _ => True) (fun _ => True) where
  toVocabulary := .any _
  passes := rfl
  nesting := rfl
  nested _ := trivial
  lookup {x} hs := .lookup (fun _ _ hst => hst.get?_eq (h x hs)) (fun _ _ _ _ _ => trivial) trivial
  define {x a v} _ _ := by
    obtain hdone | ⟨cause, -, hrefused⟩ := result_define_cases mode x v
    · refine .of_done fun s t hst => ?_
      obtain ⟨trace, hs⟩ := hdone s
      obtain ⟨trace', ht⟩ := hdone t
      exact ⟨_, _, hs, ht, hst.define x v trace trace'⟩
    · intro s t hst
      rw [hrefused, hrefused]
      exact Coupled.fail trivial s t hst
  print _ _ _ := .of_done fun s t hst => ⟨_, _, rfl, rfl, hst.print _⟩
  record _ := .of_done fun s t hst =>
    ⟨_, _, result_record _ _ s, result_record _ _ t, hst.record mode _⟩

/-- The results of two runs that started from these states: one ending, and the same done. -/
structure SameEffect (s t : State) (r r' : Except Halt Value × State) : Prop where
  ending : r.1 = r'.1
  done : DoneAlike s t r.2 r'.2

theorem sameEffect_of_agreement (mode : Mode) (level : Nat) {e : Expr} {s t : State}
    (h : ∀ x, e.Reads x → s.env.get? x = t.env.get? x) :
    SameEffect s t ((e.eval mode level).result s) ((e.eval mode level).result t) := by
  have hcoupled := (coupling_of_agreement mode h).eval e (fun _ hn => hn) level s t (.refl s t)
  exact ⟨hcoupled.same, hcoupled.states⟩

/-- From two environments that agree on every name that an expression reads, its evaluation ends in
one way: with the same value, with the same error, or for want of passes, so that one of the two
finishes exactly if the other does. Both print the same, and each name is as it was in both or bound
to one value in both. In particular nothing changes if the name of an operator is bound, unless the
expression reads that name. -/
theorem evaluation_depends_on_names_read (mode : Mode) (level : Nat) (e : Expr) :
    (∀ s t : State, (∀ x, e.Reads x → s.env.get? x = t.env.get? x) →
      SameEffect s t ((e.eval mode level).result s) ((e.eval mode level).result t)) ∧
    ∀ (s : State) (op : Operator) (v : Value), ¬e.Reads op.name →
      let t : State := { s with env := s.env.define op.name v }
      SameEffect s t ((e.eval mode level).result s) ((e.eval mode level).result t) := by
  refine ⟨fun s t h => sameEffect_of_agreement mode level h, ?_⟩
  intro s op v hop t
  refine sameEffect_of_agreement mode level fun x hx => ?_
  have hne : x ≠ op.name := by
    rintro rfl
    exact hop hx
  exact (Env.get?_define_of_ne s.env v hne).symm

/-- The block reads `y` and nothing else: that `x`, which it binds, and the name of `print`, which
it applies, are bound in one environment only makes no difference. -/
theorem bound_names_need_not_agree :
    let e : Expr := .compound "block" [
      .compound "global" [.symbol "x", .compound "+" [.symbol "y", .literal (.integer 1)]],
      .compound "print" [.symbol "y"],
      .compound "if" [.symbol "y", .literal .nil]]
    let mode : Mode := ⟨true, 0, none, none⟩
    let s : State := ⟨Env.ofList [("y", .integer 1)], "", #[]⟩
    let t : State := ⟨Env.ofList [("print", .nil), ("x", .bool true), ("y", .integer 1)], "> ", #[]⟩
    (∀ x, e.Reads x → s.env.get? x = t.env.get? x) ∧
    ((e.eval mode 0).result s).1 =
      .error (.failed (.kind "if" 1 (.value .bool) (.value .integer))) ∧
    SameEffect s t ((e.eval mode 0).result s) ((e.eval mode 0).result t) := by
  intro e mode s t
  have hreads : ∀ x, e.Reads x → s.env.get? x = t.env.get? x := by
    intro x hx
    obtain rfl : x = "y" := by
      simpa [e, Expr.Reads, Expr.nodes, Expr.operandsNodes, Expr.argsNodes, Operator.name] using hx
    rfl
  exact ⟨hreads, rfl, (evaluation_depends_on_names_read mode 0 e).1 s t hreads⟩

end Lisplet
