import Lisplet.Proofs.Coupling

/-!
# What a complaint is about

Every complaint of an evaluation among values of the language stems from a place of the expression.
`Blames` says from what place each can stem, and what holds there: the operator that is not known,
the number of arguments that it does not take, the argument that is of another kind than it needs,
the result that does not fit. `Vocabulary.blames` says that there are no other complaints, and no
values outside the language.
-/

namespace Lisplet

/-- The complaint stems from one of the places, a symbol that is not bound being missing. -/
inductive Blames (Site : Expr → Prop) (Missing : String → Prop) : Error → Prop
  | unbound {x : String} (hs : Site (.symbol x)) (hx : Missing x) :
      Blames Site Missing (.unboundSymbol x)
  | unknown {f : String} {args : List Expr} (hs : Site (.compound f args))
      (hf : ∀ op : Operator, op.name ≠ f) : Blames Site Missing (.unknownOperator f)
  | arity {op : Operator} {args : List Expr} (hs : Site (.compound op.name args))
      (hn : ¬op.arity.Admits args.length) :
      Blames Site Missing (.arity op.name op.arity args.length)
  | kind {op : Operator} {args : List Expr} {position : Nat} {kind actual : Kind}
      (hs : Site (.compound op.name args)) (hp : 0 < position ∧ position ≤ args.length)
      (hd : op.demands position = some kind) (hne : actual ≠ kind) :
      Blames Site Missing (.kind op.name position (.value kind) (.value actual))
  -- only here may a piece of syntax be what stands in the position
  | notAName {target value : Expr} {actual : Shape}
      (hs : Site (.compound (Operator.name .global) [target, value]))
      (ht : ∀ x, target ≠ .symbol x) (hne : actual ≠ .symbol) :
      Blames Site Missing (.kind (Operator.name .global) 1 .symbol actual)
  | overflow {op : Operator} {args : List Expr} {n : Int} (hs : Site (.compound op.name args))
      (hop : op ∈ [.add, .mul, .sub, .div]) (hn : ¬Fits n) :
      Blames Site Missing (.overflow op.name n)
  | divisionByZero {op : Operator} {args : List Expr} (hs : Site (.compound op.name args))
      (hop : op ∈ [.div, .mod]) : Blames Site Missing (.divisionByZero op.name)
  | nested {f : String} {args : List Expr} (hs : Site (.compound f args)) :
      Blames Site Missing .nestedTooDeeply

namespace Blames

variable {Site : Expr → Prop} {Missing Missing' : String → Prop} {op : Operator}
  {args : List Expr} {cause : Error}

theorem inLanguage (h : Blames Site Missing cause) : cause.InLanguage := by
  cases h <;> simp [Error.InLanguage, Error.category]

/-- More may be known of the names that are missing. -/
theorem imp (h : Blames Site Missing cause)
    (hmissing : ∀ x, cause = .unboundSymbol x → Missing' x) : Blames Site Missing' cause := by
  cases h with
  | unbound hs _ => exact .unbound hs (hmissing _ rfl)
  | unknown hs hf => exact .unknown hs hf
  | arity hs hn => exact .arity hs hn
  | kind hs hp hd hne => exact .kind hs hp hd hne
  | notAName hs ht hne => exact .notAName hs ht hne
  | overflow hs hop hn => exact .overflow hs hop hn
  | divisionByZero hs hop => exact .divisionByZero hs hop
  | nested hs => exact .nested hs

theorem meets_total (hs : Site (.compound op.name args)) {start : Int} {combine : Int → Int → Int}
    (hf : op.Folds start combine) {m n : Int} (hm : Fits m) (hn : Fits n) :
    Meets (fun k => Value.Proper (.integer k)) (Blames Site Missing)
      (checkedInteger (combine m n) op.name) := by
  by_cases hfits : Fits (combine m n)
  · rw [checkedInteger_eq_ok_iff.mpr ⟨rfl, hfits⟩]
    exact hfits
  · rw [hf.checkedInteger_of_not_fits hm hn hfits]
    refine .overflow hs ?_ hfits
    cases hf <;> simp

theorem meets_bounded (hs : Site (.compound op.name args)) (hop : op ∈ [.add, .mul, .sub, .div])
    (n : Int) : Meets Value.Proper (Blames Site Missing) (op.bounded n) := by
  unfold Operator.bounded
  split
  case isTrue hfits => exact hfits
  case isFalse hfits => exact .overflow hs hop hfits

theorem meets_examine (hs : Site (.compound op.name args)) {position : Nat}
    (hp : 0 < position ∧ position ≤ args.length) {v : Value} (hv : v.Proper) :
    Meets Value.Proper (Blames Site Missing) (op.examine position v) := by
  generalize hr : op.examine position v = r
  have hchecked := Operator.checked_of_examine op position hv
  rw [hr] at hchecked
  cases hchecked with
  | admitted => exact hv
  | refused hd _ hne => exact .kind hs hp hd hne

theorem meets_outcome (hs : Site (.compound op.name args)) {u v : Value} (hu : u.Proper)
    (hv : v.Proper) : Meets Value.Proper (Blames Site Missing) (op.outcome u v) := by
  unfold Operator.outcome
  split
  case h_1 a b =>
    rw [← Operator.outcome.eq_1, Operator.outcome_sub hu hv]
    exact meets_bounded hs (by simp) _
  case h_2 a b =>
    by_cases hb : b = 0
    · subst hb
      exact .divisionByZero hs (by simp)
    · rw [← Operator.outcome.eq_2, Operator.outcome_div hu hb]
      exact meets_bounded hs (by simp) _
  case h_3 a b =>
    by_cases hb : b = 0
    · subst hb
      exact .divisionByZero hs (by simp)
    · rw [divide_of_ne hb]
      exact fits_tmod hu b
  all_goals trivial

theorem of_notAName {target value : Expr} (run : Run Value)
    (hs : Site (.compound (Operator.name .global) [target, value])) (ht : ∀ x, target ≠ .symbol x)
    (hproper : target.Proper) : Blames Site Missing (Argument.notAName ⟨target, run⟩) := by
  cases target with
  | literal v =>
    obtain ⟨kind, hkind⟩ := Option.isSome_iff_exists.mp (Value.Proper.kind?_isSome hproper)
    change Blames Site Missing (v.mismatch (Operator.name .global) 1 .symbol)
    rw [Value.mismatch_of_kind? hkind]
    exact .notAName hs ht (by simp)
  | symbol x => exact absurd rfl (ht x)
  | compound f args => exact .notAName hs ht (by simp)
  | foreign stranger => exact hproper.elim

end Blames

/-- From values of the language evaluation makes only such values, and its complaints stem from the
places where it takes its steps. -/
theorem Vocabulary.blames {Site : Expr → Prop} {Missing : String → Prop}
    (hsite : ∀ n, Site n → n.Proper) : Vocabulary Site Value.Proper (Blames Site Missing) where
  literal hs := hsite _ hs
  bool _ := trivial
  nil := trivial
  start hf := hf.fits_start
  total hs hf hm hn := Blames.meets_total hs hf hm hn
  examine hs hp hv := Blames.meets_examine hs hp hv
  outcome hs _ hu hv := Blames.meets_outcome hs hu hv
  render hv := by
    obtain ⟨text, htext⟩ := Value.render_of_proper hv
    rw [htext]
    trivial
  unknown hs hf := .unknown hs hf
  arity hs hn := .arity hs hn
  notAName {target _ run} hs ht := by
    have hproper := hsite _ hs
    rw [Expr.Proper, Expr.allProper_iff, List.forall_mem_cons] at hproper
    exact Blames.of_notAName run hs ht hproper.1
  stranger hs := (hsite _ hs).elim

end Lisplet
