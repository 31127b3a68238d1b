import Lisplet.Proofs.Traversal

/-!
# What evaluation inherits from its steps

Evaluation is put together from a few steps: it looks names up and binds them, prints, makes
records and refuses. `Run.Inherited` says of a property of runs that these steps have it and that
sequencing keeps it; then the evaluation of every expression has it that a program text can produce.

Two properties are shown here to be inherited in this way: which errors a run raises, and that a run
does not depend on the records made before it.
-/

namespace Lisplet

namespace Error

/-- The errors that evaluating what has been read may raise, refused nesting apart, whatever the
names are bound to. -/
inductive Raised : Error → Prop
  | unknownOperator (name : String) : Raised (.unknownOperator name)
  | unboundSymbol (name : String) : Raised (.unboundSymbol name)
  | arity (op : Operator) (expected : Arity) (got : Nat) : Raised (.arity op.name expected got)
  | kind (op : Operator) (position : Int) (expected actual : Shape) :
      Raised (.kind op.name position expected actual)
  | overflow (op : Operator) (result : Int) : Raised (.overflow op.name result)
  | divisionByZero (op : Operator) : Raised (.divisionByZero op.name)
  | integerTooWide : Raised .integerTooWide
  | notAValue (shown : String) : Raised (.notAValue shown)
  | stackExhausted : Raised .stackExhausted

/-- Those among them that a step refuses with; a name that is not bound is met in looking it up, and
the stack gives out before the first step. -/
inductive Refused : Error → Prop
  | unknownOperator (name : String) : Refused (.unknownOperator name)
  | arity (op : Operator) (expected : Arity) (got : Nat) : Refused (.arity op.name expected got)
  | kind (op : Operator) (position : Int) (expected actual : Shape) :
      Refused (.kind op.name position expected actual)
  | overflow (op : Operator) (result : Int) : Refused (.overflow op.name result)
  | divisionByZero (op : Operator) : Refused (.divisionByZero op.name)
  | integerTooWide : Refused .integerTooWide
  | notAValue (shown : String) : Refused (.notAValue shown)

variable {op : Operator} {cause : Error}

theorem Refused.raised (h : cause.Refused) : cause.Raised := by
  cases h with
  | unknownOperator name => exact .unknownOperator name
  | arity op expected got => exact .arity op expected got
  | kind op position expected actual => exact .kind op position expected actual
  | overflow op result => exact .overflow op result
  | divisionByZero op => exact .divisionByZero op
  | integerTooWide => exact .integerTooWide
  | notAValue shown => exact .notAValue shown

theorem refused_mismatch (v : Value) (op : Operator) (position : Int) (expected : Shape) :
    (v.mismatch op.name position expected).Refused := by
  cases v with
  | foreign object => exact .notAValue object.shown
  | _ => exact .kind op position expected _

theorem refused_of_examine {v : Value} {position : Nat}
    (h : op.examine position v = .error cause) : cause.Refused := by
  unfold Operator.examine at h
  split at h
  case h_1 => cases h
  case h_2 kind _ =>
    split at h
    case isTrue => cases h
    case isFalse =>
      cases h
      exact refused_mismatch v op position _

theorem refused_of_checkedInteger {n : Int} (h : checkedInteger n op.name = .error cause) :
    cause.Refused := by
  unfold checkedInteger at h
  split at h
  case isTrue => cases h
  case isFalse =>
    split at h
    case isTrue =>
      cases h
      exact .integerTooWide
    case isFalse =>
      cases h
      exact .overflow op n

theorem refused_of_divide {a b : Int} (h : divide a b op.name = .error cause) : cause.Refused := by
  unfold divide at h
  split at h
  case isTrue =>
    cases h
    exact .divisionByZero op
  case isFalse => cases h

theorem refused_of_render {v : Value} (h : v.render = .error cause) : cause.Refused := by
  cases v with
  | integer n =>
    rw [Value.render] at h
    split at h
    case isTrue =>
      cases h
      exact .integerTooWide
    case isFalse => cases h
  | bool b => cases b <;> cases h
  | string text => cases h
  | nil => cases h
  | foreign object =>
    cases h
    exact .notAValue object.shown

theorem refused_of_map {α β : Type} {r : Except Error α} {f : α → β}
    (hr : ∀ cause, r = .error cause → cause.Refused) (h : r.map f = .error cause) :
    cause.Refused := by
  cases r with
  | ok a => cases h
  | error cause' =>
    cases h
    exact hr cause rfl

theorem refused_of_outcome {u v : Value} (h : op.outcome u v = .error cause) : cause.Refused := by
  unfold Operator.outcome at h
  split at h
  case h_1 a b => exact refused_of_map (fun _ => refused_of_checkedInteger) h
  case h_2 a b =>
    cases hd : divide a b (Operator.name .div) with
    | error cause' =>
      rw [hd] at h
      cases h
      exact refused_of_divide hd
    | ok qr =>
      rw [hd] at h
      exact refused_of_map (fun _ => refused_of_checkedInteger) h
  case h_3 a b => exact refused_of_map (fun _ => refused_of_divide) h
  all_goals cases h

end Error

namespace Run

/-- Every step of evaluation in this mode has the property, and sequencing keeps it; a refusal has
it if it is for a cause of the kind given. -/
structure Inherited (mode : Mode) (Cause : Error → Prop) (P : ∀ {α : Type}, Run α → Prop) :
    Prop where
  refused : ∀ {cause : Error}, cause.Refused → Cause cause
  pure : ∀ {α : Type} (a : α), P (pure a : Run α)
  fail : ∀ {α : Type} {cause : Error}, Cause cause → P (fail cause : Run α)
  exhausted : ∀ {α : Type}, P (throw .exhausted : Run α)
  bind : ∀ {α β : Type} {run : Run α} {next : α → Run β}, P run → (∀ a, P (next a)) →
    P (run >>= next)
  lookup : ∀ name, P (lookup name)
  define : ∀ name value, P (define mode name value)
  print : ∀ text, P (print text)
  record : ∀ r, P (record mode r)

end Run

namespace Run.Inherited

variable {mode : Mode} {Cause : Error → Prop} {P : ∀ {α : Type}, Run α → Prop} {α : Type}

theorem lift (h : Inherited mode Cause P) {r : Except Error α}
    (hr : ∀ cause, r = .error cause → cause.Refused) : P (lift r) := by
  cases r with
  | ok a => exact h.pure a
  | error cause => exact h.fail (h.refused (hr cause rfl))

theorem meets (h : Inherited mode Cause P) {r : Except Error α}
    (hr : ∀ cause, r = .error cause → cause.Refused) : Meets (fun _ => True) Cause r := by
  cases r with
  | ok a => trivial
  | error cause => exact h.refused (hr cause rfl)

theorem vocabulary (h : Inherited mode Cause P) :
    Vocabulary Expr.Proper (fun _ => True) Cause where
  literal _ := trivial
  bool _ := trivial
  nil := trivial
  start _ := trivial
  total _ _ _ _ := h.meets fun _ => Error.refused_of_checkedInteger
  examine _ _ _ := h.meets fun _ => Error.refused_of_examine
  outcome _ _ _ _ := h.meets fun _ => Error.refused_of_outcome
  render _ := h.meets fun _ => Error.refused_of_render
  unknown _ _ := h.refused (.unknownOperator _)
  arity {op args} _ _ := h.refused (.arity op _ _)
  notAName {target value run} hs hne := by
    cases target with
    | symbol x => exact absurd rfl (hne x)
    | literal v => exact h.refused (Error.refused_mismatch v .global 1 .symbol)
    | compound f args => exact h.refused (.kind .global 1 .symbol .compound)
    | foreign stranger => exact hs.1.elim
  stranger hs := hs.elim

/-- Each step has the property in front of whatever has it for the values that the step may have. -/
theorem traversal (h : Inherited mode Cause P) :
    Traversal mode mode Expr.Proper (fun _ => True) Cause fun {α} Q run _ _ _ =>
      ∀ (β : Type) (next : α → Run β), (∀ a, Q a → P (next a)) → P (run >>= next) where
  toVocabulary := h.vocabulary
  passes := rfl
  lift {α Q r} hr := by
    intro β next hnext
    cases r with
    | ok a => exact hnext a hr
    | error cause => exact h.fail hr
  exhausted _ _ _ := h.exhausted
  bind hrun hnext := by
    intro γ next' hnext'
    rw [bind_assoc]
    exact hrun γ _ fun a ha => hnext a ha γ next' hnext'
  lookup {x} _ _ _ hnext := h.bind (h.lookup x) fun v => hnext v trivial
  define _ _ _ _ hnext := h.bind (h.define _ _) fun a => hnext a trivial
  print _ _ _ _ _ hnext := h.bind (h.print _) fun a => hnext a trivial
  record _ _ _ hnext := h.bind (h.record _) fun a => hnext a trivial

/-- Evaluation inherits the property. -/
theorem eval (h : Inherited mode Cause P) (hdeep : mode.nesting ≠ none → Cause .nestedTooDeeply)
    (e : Expr) (he : e.Proper) (level : Nat) : P (e.eval mode level) := by
  have hstopped : ∀ level : Nat, mode.nesting.any (· ≤ level) = true →
      Cause .nestedTooDeeply := by
    intro level hn
    refine hdeep fun hnone => ?_
    rw [hnone] at hn
    cases hn
  have heval := h.traversal.eval (fun _ hn => hn)
    (fun f args level _ hn => h.traversal.fail (hstopped level hn)) e
    (fun _ hn => e.proper_of_mem_nodes he hn) level
  have hpure := heval Value Pure.pure fun v _ => h.pure v
  rwa [bind_pure] at hpure

end Run.Inherited

namespace Run

variable {α β : Type}

/-- The errors that the run raises are of the kind given. -/
def RaisesOnly (Cause : Error → Prop) (run : Run α) : Prop :=
  ∀ (s : State) (cause : Error), (run.result s).1 = .error (.failed cause) → Cause cause

theorem RaisesOnly.bind {Cause : Error → Prop} {run : Run α} {next : α → Run β}
    (h : RaisesOnly Cause run) (hnext : ∀ a, RaisesOnly Cause (next a)) :
    RaisesOnly Cause (run >>= next) := by
  intro s cause hr
  rw [result_bind] at hr
  rcases hrun : run.result s with ⟨halt | a, s₁⟩
  · rw [hrun] at hr
    obtain rfl := Except.error.inj hr
    exact h s cause (by rw [hrun])
  · rw [hrun] at hr
    exact hnext a s₁ cause hr

/-- With debugging on a value that cannot be shown is refused. -/
theorem result_define_of_refused {mode : Mode} (hm : mode.debug = true) {value : Value}
    {cause : Error} (hv : value.render = .error cause) (name : String) (s : State) :
    (define mode name value).result s = (.error (.failed cause), s) := by
  simp only [define, hm, hv]
  rfl

/-- A name is bound, or with debugging on a value that cannot be shown is refused. -/
theorem result_define_cases (mode : Mode) (name : String) (value : Value) :
    (∀ s, ∃ trace, (define mode name value).result s =
      (.ok (), ⟨s.env.define name value, s.output, trace⟩)) ∨
    ∃ cause, value.render = .error cause ∧
      ∀ s, (define mode name value).result s = (.error (.failed cause), s) := by
  cases hm : mode.debug with
  | false => exact .inl fun s => ⟨s.trace, result_define_of_not_debug hm name value s⟩
  | true =>
    cases hv : value.render with
    | ok shown => exact .inl fun s => ⟨_, result_define_of_render hv mode name s⟩
    | error cause => exact .inr ⟨cause, rfl, result_define_of_refused hm hv name⟩

/-- Which errors are raised is inherited. -/
theorem inherited_raisesOnly (mode : Mode) {Cause : Error → Prop}
    (hraised : ∀ {cause : Error}, cause.Raised → Cause cause) :
    Inherited mode Cause (RaisesOnly Cause) where
  refused h := hraised h.raised
  pure a := by
    intro s cause hr
    cases hr
  fail hcause := by
    intro s cause hr
    cases hr
    exact hcause
  exhausted := by
    intro α s cause hr
    cases hr
  bind h hnext := h.bind hnext
  lookup name := by
    intro s cause hr
    rw [result_lookup] at hr
    split at hr
    · cases hr
    · cases hr
      exact hraised (.unboundSymbol name)
  define name value := by
    intro s cause hr
    obtain hdone | ⟨cause', hv, hrefused⟩ := result_define_cases mode name value
    · obtain ⟨trace, hdone⟩ := hdone s
      rw [hdone] at hr
      cases hr
    · rw [hrefused] at hr
      cases hr
      exact hraised (Error.refused_of_render hv).raised
  print text := by
    intro s cause hr
    cases hr
  record r := by
    intro s cause hr
    rw [result_record] at hr
    cases hr

/-- How the run ends and the world it leaves do not depend on the records made before it. -/
def IgnoresRecords (run : Run α) : Prop :=
  ∀ s t : State, s.world = t.world →
    (run.result s).1 = (run.result t).1 ∧ (run.result s).2.world = (run.result t).2.world

theorem IgnoresRecords.of_stateless {run : Run α} {r : Except Halt α}
    (h : ∀ s, run.result s = (r, s)) : IgnoresRecords run := by
  intro s t hst
  rw [h, h]
  exact ⟨rfl, hst⟩

theorem IgnoresRecords.bind {run : Run α} {next : α → Run β} (h : IgnoresRecords run)
    (hnext : ∀ a, IgnoresRecords (next a)) : IgnoresRecords (run >>= next) := by
  intro s t hst
  obtain ⟨hanswer, hworld⟩ := h s t hst
  rw [result_bind, result_bind]
  rcases hs : run.result s with ⟨r, s₁⟩
  rcases ht : run.result t with ⟨r', t₁⟩
  rw [hs, ht] at hanswer hworld
  obtain rfl : r = r' := hanswer
  cases r with
  | error halt => exact ⟨rfl, hworld⟩
  | ok a => exact hnext a s₁ t₁ hworld

theorem IgnoresRecords.tryCatch {run : Run α} {handle : Halt → Run α} (h : IgnoresRecords run)
    (hhandle : ∀ halt, IgnoresRecords (handle halt)) : IgnoresRecords (tryCatch run handle) := by
  intro s t hst
  obtain ⟨hanswer, hworld⟩ := h s t hst
  rw [result_tryCatch, result_tryCatch]
  rcases hs : run.result s with ⟨r, s₁⟩
  rcases ht : run.result t with ⟨r', t₁⟩
  rw [hs, ht] at hanswer hworld
  obtain rfl : r = r' := hanswer
  cases r with
  | ok a => exact ⟨rfl, hworld⟩
  | error halt => exact hhandle halt s₁ t₁ hworld

theorem world_record (mode : Mode) (r : Record) (s : State) :
    ((record mode r).result s).2.world = s.world := by
  rw [result_record]
  split <;> rfl

/-- A record made first changes nothing but the records. -/
theorem record_bind (mode : Mode) (r : Record) (next : Unit → Run α) (s : State) :
    ∃ s₁ : State, s₁.world = s.world ∧
      (record mode r >>= next).result s = (next ()).result s₁ := by
  refine ⟨((record mode r).result s).2, world_record mode r s, ?_⟩
  rw [result_bind, result_record]

/-- That records do not matter is inherited. -/
theorem inherited_ignoresRecords (mode : Mode) :
    Inherited mode (fun _ => True) IgnoresRecords where
  refused _ := trivial
  pure a := .of_stateless (result_pure a)
  fail _ := .of_stateless (result_fail _)
  exhausted := .of_stateless (result_throw _)
  bind h hnext := h.bind hnext
  lookup name := by
    intro s t hst
    have henv : s.env = t.env := congrArg World.env hst
    rw [result_lookup, result_lookup, henv]
    cases t.env.get? name with
    | some value => exact ⟨rfl, hst⟩
    | none => exact ⟨rfl, hst⟩
  define name value := by
    intro s t hst
    have henv : s.env = t.env := congrArg World.env hst
    have houtput : s.output = t.output := congrArg World.output hst
    obtain hdone | ⟨cause, -, hrefused⟩ := result_define_cases mode name value
    · obtain ⟨trace, hs⟩ := hdone s
      obtain ⟨trace', ht⟩ := hdone t
      rw [hs, ht, henv, houtput]
      exact ⟨rfl, rfl⟩
    · rw [hrefused, hrefused]
      exact ⟨rfl, hst⟩
  print text := by
    intro s t hst
    refine ⟨rfl, ?_⟩
    change s.world.print text = t.world.print text
    rw [hst]
  record r := by
    intro s t hst
    rw [world_record, world_record, result_record, result_record]
    exact ⟨rfl, hst⟩

end Run

end Lisplet
