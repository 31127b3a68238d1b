import Lisplet.Proofs.Deeds

/-!
# What evaluation has from its steps

Evaluation is made of a few steps. It looks names up and binds them, prints, makes records, and
makes values and complaints out of values. `Traversal` gathers what these steps must satisfy, each
for the places of the expression where it is taken; `Traversal.eval` concludes it of evaluation.
Whoever has something to be shown of runs shows it of these steps and need not go through the
operators.

What is shown may be about two runs, in two modes or from two states, and about what they do.
`Expr.nodes` lists the places: an expression and everything in it that may be evaluated.
-/

namespace Lisplet

namespace Expr

/-- The arguments of a compound that may be evaluated: all of them, but for a name to be bound. -/
def operands (f : String) : List Expr → List Expr
  | .symbol x :: rest => if f = Operator.name .global then rest else .symbol x :: rest
  | args => args

mutual
/-- The expression and the expressions in it that may be evaluated, in the order written. The name
that a `global` compound binds is not among them. -/
def nodes : Expr → List Expr
  | .compound f args => .compound f args :: operandsNodes f args
  | e => [e]

def operandsNodes (f : String) : List Expr → List Expr
  | [] => []
  | .symbol x :: rest =>
    if f = Operator.name .global then argsNodes rest else .symbol x :: argsNodes rest
  | arg :: rest => nodes arg ++ argsNodes rest

def argsNodes : List Expr → List Expr
  | [] => []
  | arg :: rest => nodes arg ++ argsNodes rest
end

theorem argsNodes_eq_flatMap (args : List Expr) : argsNodes args = args.flatMap nodes := by
  induction args with
  | nil => rfl
  | cons arg args ih => rw [argsNodes, ih, List.flatMap_cons]

theorem nodes_compound (f : String) (args : List Expr) :
    nodes (.compound f args) = .compound f args :: (operands f args).flatMap nodes := by
  have hnodes : operandsNodes f args = (operands f args).flatMap nodes := by
    match args with
    | [] => rfl
    | .symbol x :: rest =>
      rw [operandsNodes, operands, argsNodes_eq_flatMap]
      split <;> rfl
    | .literal _ :: rest | .compound _ _ :: rest | .foreign _ :: rest =>
      exact argsNodes_eq_flatMap (_ :: rest)
  rw [nodes, hnodes]

theorem mem_nodes_self (e : Expr) : e ∈ e.nodes := by
  cases e <;> simp [nodes]

theorem mem_nodes_of_operand {f : String} {args : List Expr} {arg n : Expr}
    (ha : arg ∈ operands f args) (hn : n ∈ arg.nodes) : n ∈ (compound f args).nodes := by
  rw [nodes_compound, List.mem_cons, List.mem_flatMap]
  exact .inr ⟨arg, ha, hn⟩

theorem operands_subset (f : String) (args : List Expr) : operands f args ⊆ args := by
  unfold operands
  split
  · split
    · exact List.subset_cons_self _ _
    · exact List.Subset.refl _
  · exact List.Subset.refl _

theorem mem_operands_of_tail {f : String} {first arg : Expr} {rest : List Expr} (h : arg ∈ rest) :
    arg ∈ operands f (first :: rest) := by
  cases first with
  | symbol x =>
    rw [operands]
    split
    · exact h
    · exact List.mem_cons_of_mem _ h
  | literal | compound | foreign => exact List.mem_cons_of_mem _ h

theorem operands_of_ne {f : String} (hf : f ≠ Operator.name .global) (args : List Expr) :
    operands f args = args := by
  unfold operands
  split
  · rw [if_neg hf]
  · rfl

theorem proper_of_mem_nodes (e : Expr) (he : e.Proper) {n : Expr} (hn : n ∈ e.nodes) :
    n.Proper := by
  induction e with
  | literal | symbol | foreign =>
    obtain rfl := List.mem_singleton.mp hn
    exact he
  | compound f args ih =>
    rw [nodes_compound, List.mem_cons, List.mem_flatMap] at hn
    obtain rfl | ⟨arg, ha, hn⟩ := hn
    · exact he
    · have hmem := operands_subset f args ha
      exact ih arg hmem (allProper_iff.mp he arg hmem) hn

end Expr

/-- The outcome is a value of one kind or an error of another. -/
def Meets {α : Type} (Q : α → Prop) (Cause : Error → Prop) : Except Error α → Prop
  | .ok a => Q a
  | .error cause => Cause cause

theorem Meets.trivially {α : Type} (o : Except Error α) :
    Meets (fun _ => True) (fun _ => True) o := by
  cases o <;> trivial

theorem Meets.map_iff {α β : Type} {Q : β → Prop} {Cause : Error → Prop} {f : α → β}
    {o : Except Error α} : Meets Q Cause (o.map f) ↔ Meets (fun a => Q (f a)) Cause o := by
  cases o <;> rfl

open Run

/-- Which values evaluation may meet and for which causes it may fail, given the places where it
takes its steps. -/
structure Vocabulary (Site : Expr → Prop) (Good : Value → Prop) (Cause : Error → Prop) : Prop where
  literal : ∀ {v : Value}, Site (.literal v) → Good v
  bool : ∀ b : Bool, Good (.bool b)
  nil : Good .nil
  start : ∀ {op : Operator} {start : Int} {combine : Int → Int → Int}, op.Folds start combine →
    Good (.integer start)
  total : ∀ {op : Operator} {start m n : Int} {combine : Int → Int → Int} {args : List Expr},
    Site (.compound op.name args) → op.Folds start combine → Good (.integer m) →
    Good (.integer n) →
    Meets (fun k => Good (.integer k)) Cause (checkedInteger (combine m n) op.name)
  examine : ∀ {op : Operator} {args : List Expr} {position : Nat} {v : Value},
    Site (.compound op.name args) → 0 < position ∧ position ≤ args.length → Good v →
    Meets Good Cause (op.examine position v)
  outcome : ∀ {op : Operator} {a b : Expr} {u v : Value}, Site (.compound op.name [a, b]) →
    op.TakesTwo → Good u → Good v → Meets Good Cause (op.outcome u v)
  render : ∀ {v : Value}, Good v → Meets (fun _ => True) Cause v.render
  unknown : ∀ {f : String} {args : List Expr}, Site (.compound f args) →
    (∀ op : Operator, op.name ≠ f) → Cause (.unknownOperator f)
  arity : ∀ {op : Operator} {args : List Expr}, Site (.compound op.name args) →
    ¬op.arity.Admits args.length → Cause (.arity op.name op.arity args.length)
  notAName : ∀ {target value : Expr} {run : Run Value},
    Site (.compound (Operator.name .global) [target, value]) → (∀ x, target ≠ .symbol x) →
    Cause (Argument.notAName ⟨target, run⟩)
  stranger : ∀ {stranger : Stranger}, Site (.foreign stranger) → Cause stranger.notAnExpression

/-- Where nothing is asked of values and causes, any will do. -/
theorem Vocabulary.any (Site : Expr → Prop) :
    Vocabulary Site (fun _ => True) (fun _ => True) where
  literal _ := trivial
  bool _ := trivial
  nil := trivial
  start _ := trivial
  total _ _ _ _ := .trivially _
  examine _ _ _ := .trivially _
  outcome _ _ _ _ := .trivially _
  render _ := .trivially _
  unknown _ _ := trivial
  arity _ _ := trivial
  notAName _ _ := trivial
  stranger _ := trivial

namespace Vocabulary

variable {Site : Expr → Prop} {Good : Value → Prop} {Cause : Error → Prop} {args : List Expr}

theorem find (h : Vocabulary Site Good Cause) {f : String} (hs : Site (.compound f args)) :
    Meets (fun op : Operator => op.name = f) Cause (Operator.find f) := by
  cases ho : Operator.ofName? f with
  | none =>
    rw [Operator.find, ho]
    refine h.unknown hs fun op hop => ?_
    rw [Operator.ofName?_eq_some_iff.mpr hop] at ho
    cases ho
  | some op =>
    rw [Operator.find, ho]
    exact Operator.ofName?_eq_some_iff.mp ho

theorem check (h : Vocabulary Site Good Cause) {op : Operator}
    (hs : Site (.compound op.name args)) :
    Meets (fun _ => op.arity.Admits args.length) Cause (op.arity.check op.name args.length) := by
  by_cases hadmits : op.arity.Admits args.length
  · rw [Arity.check_eq_ok_iff.mpr hadmits]
    exact hadmits
  · rw [Arity.check, if_neg hadmits]
    exact h.arity hs hadmits

theorem rendered (h : Vocabulary Site Good Cause) {v : Value} (hv : Good v) :
    Meets (fun text => v.render = .ok text) Cause v.render := by
  have hcause := h.render hv
  cases hr : v.render with
  | ok text => exact rfl
  | error cause => rwa [hr] at hcause

end Vocabulary

/-- What the steps of evaluation satisfy in two modes, at the places where they are taken. `R` is
said of the values that two runs may have, the runs, and what they do. -/
structure Traversal (mode mode' : Mode) (Site : Expr → Prop) (Good : Value → Prop)
    (Cause : Error → Prop)
    (R : ∀ {α : Type}, (α → Prop) → Run α → Run α → Deeds → Deeds → Prop) : Prop
    extends Vocabulary Site Good Cause where
  passes : mode.passes = mode'.passes
  lift : ∀ {α : Type} {Q : α → Prop} {r : Except Error α}, Meets Q Cause r →
    R Q (Run.lift r) (Run.lift r) .nothing .nothing
  exhausted : ∀ {α : Type} {Q : α → Prop},
    R Q (throw .exhausted) (throw .exhausted) .nothing .nothing
  bind : ∀ {α β : Type} {P : α → Prop} {Q : β → Prop} {run run' : Run α} {next next' : α → Run β}
    {first first' : Deeds} {nexts nexts' : α → Deeds}, R P run run' first first' →
    (∀ a, P a → R Q (next a) (next' a) (nexts a) (nexts' a)) →
    R Q (run >>= next) (run' >>= next') (first.followed run nexts) (first'.followed run' nexts')
  lookup : ∀ {x : String}, Site (.symbol x) →
    R Good (Run.lookup x) (Run.lookup x) .nothing .nothing
  define : ∀ {x : String} {a : Expr} {v : Value},
    Site (.compound (Operator.name .global) [.symbol x, a]) → Good v →
    R (fun _ => True) (Run.define mode x v) (Run.define mode' x v) (.binding mode x v)
      (.binding mode' x v)
  print : ∀ {a : Expr} {v : Value} {text : String}, Site (.compound (Operator.name .print) [a]) →
    Good v → v.render = .ok text →
    R (fun _ => True) (Run.print (text ++ "\n")) (Run.print (text ++ "\n"))
      (fun _ => [.printed v]) (fun _ => [.printed v])
  record : ∀ {f : String} {args : List Expr}, Site (.compound f args) →
    R (fun _ => True) (Run.record mode (.applied f args.length))
      (Run.record mode' (.applied f args.length)) .nothing .nothing

namespace Traversal

variable {mode mode' : Mode} {Site : Expr → Prop} {Good : Value → Prop} {Cause : Error → Prop}
  {R : ∀ {α : Type}, (α → Prop) → Run α → Run α → Deeds → Deeds → Prop} {op : Operator}
  {args rest : List Expr}

section Steps

variable {α β : Type} {P : α → Prop} {Q : β → Prop} {run run' : Run α} {next next' : α → Run β}
  {does does' : Deeds} {nexts nexts' : α → Deeds}

theorem pure (h : Traversal mode mode' Site Good Cause R) {a : α} (ha : P a) :
    R P (Pure.pure a : Run α) (Pure.pure a) .nothing .nothing :=
  h.lift (r := .ok a) ha

theorem fail (h : Traversal mode mode' Site Good Cause R) {cause : Error} (hc : Cause cause) :
    R P (Run.fail cause : Run α) (Run.fail cause) .nothing .nothing :=
  h.lift (r := .error cause) hc

/-- What follows does nothing to the world. -/
theorem bind_quiet (h : Traversal mode mode' Site Good Cause R) (hrun : R P run run' does does')
    (hnext : ∀ a, P a → R Q (next a) (next' a) .nothing .nothing) :
    R Q (run >>= next) (run' >>= next') does does' := by
  have hbind := h.bind hrun hnext
  rwa [Deeds.followed_nothing, Deeds.followed_nothing] at hbind

/-- What goes before does nothing to the world. -/
theorem quiet_bind (h : Traversal mode mode' Site Good Cause R)
    (hrun : R P run run' .nothing .nothing)
    (hnext : ∀ a, P a → R Q (next a) (next' a) (nexts a) (nexts' a)) :
    R Q (run >>= next) (run' >>= next') (.after run nexts) (.after run' nexts') :=
  h.bind hrun hnext

end Steps

section Arguments

variable {arg arg' : Argument} {position : Nat} {does does' : Deeds}

theorem converted {γ : Type} {f : Value → Except Error γ} {toValue : γ → Value}
    (h : Traversal mode mode' Site Good Cause R) (hs : Site (.compound op.name args))
    (hp : 0 < position ∧ position ≤ args.length)
    (hf : ∀ v, op.examine position v = (f v).map toValue) {run run' : Run Value}
    (hrun : R Good run run' does does') :
    R (fun c => Good (toValue c)) (run >>= fun v => Run.lift (f v))
      (run' >>= fun v => Run.lift (f v)) does does' := by
  refine h.bind_quiet hrun fun v hv => h.lift ?_
  have hexamined := h.examine hs hp hv
  rwa [hf, Meets.map_iff] at hexamined

theorem integerArgument (h : Traversal mode mode' Site Good Cause R)
    (hs : Site (.compound op.name args)) (hp : 0 < position ∧ position ≤ args.length)
    (hd : op.demands position = some .integer) (ha : R Good arg.eval arg'.eval does does') :
    R (fun n => Good (.integer n)) (arg.integer op position) (arg'.integer op position)
      does does' :=
  h.converted hs hp (op.examine_integer hd) ha

theorem boolArgument (h : Traversal mode mode' Site Good Cause R)
    (hs : Site (.compound op.name args)) (hp : 0 < position ∧ position ≤ args.length)
    (hd : op.demands position = some .bool) (ha : R Good arg.eval arg'.eval does does') :
    R (fun b => Good (.bool b)) (arg.bool op position) (arg'.bool op position) does does' :=
  h.converted hs hp (op.examine_bool hd) ha

theorem operand (h : Traversal mode mode' Site Good Cause R) (hs : Site (.compound op.name args))
    (hp : 0 < position ∧ position ≤ args.length) (ha : R Good arg.eval arg'.eval does does') :
    R Good (arg.operand op position) (arg'.operand op position) does does' :=
  h.bind_quiet ha fun _ hv => h.lift (h.examine hs hp hv)

end Arguments

section Operators

variable {ev ev' : Expr → Run Value} {does does' : Expr → Deeds} {a b : Expr}

theorem two (h : Traversal mode mode' Site Good Cause R) (hs : Site (.compound op.name [a, b]))
    (hop : op.TakesTwo) (ha : R Good (ev a) (ev' a) (does a) (does' a))
    (hb : R Good (ev b) (ev' b) (does b) (does' b)) :
    R Good (op.perform mode [⟨a, ev a⟩, ⟨b, ev b⟩]) (op.perform mode' [⟨a, ev' a⟩, ⟨b, ev' b⟩])
      (op.deeds mode (Expr.givenTracked ev does [a, b]))
      (op.deeds mode' (Expr.givenTracked ev' does' [a, b])) := by
  rw [Operator.perform_two hop, Operator.perform_two hop, Expr.givenTracked, Expr.givenTracked,
    List.map_cons, List.map_singleton, List.map_cons, List.map_singleton,
    Operator.deeds_two hop, Operator.deeds_two hop]
  refine h.bind (h.operand hs ⟨Nat.one_pos, Nat.le_succ 1⟩ ha) fun u hu => ?_
  refine h.bind_quiet (h.operand hs ⟨Nat.two_pos, Nat.le_refl 2⟩ hb) fun v hv => ?_
  exact h.lift (h.outcome hs hop hu hv)

-- `rest` are the arguments from the position on
theorem fold (h : Traversal mode mode' Site Good Cause R) (hs : Site (.compound op.name args))
    {start : Int} {combine : Int → Int → Int} (hf : op.Folds start combine)
    (hrest : ∀ arg ∈ rest, R Good (ev arg) (ev' arg) (does arg) (does' arg)) {total : Int}
    (ht : Good (.integer total)) {position : Nat} (hpos : 0 < position)
    (hp : position + rest.length = args.length + 1) :
    R (fun n => Good (.integer n)) (op.fold combine total position (Expr.given ev rest))
      (op.fold combine total position (Expr.given ev' rest))
      (op.deedsInFold combine total position (Expr.givenTracked ev does rest))
      (op.deedsInFold combine total position (Expr.givenTracked ev' does' rest)) := by
  induction rest generalizing total position with
  | nil => exact h.pure ht
  | cons arg rest ih =>
    rw [List.forall_mem_cons] at hrest
    rw [List.length_cons] at hp
    have hposition : 0 < position ∧ position ≤ args.length := by omega
    refine h.bind (h.integerArgument hs hposition (hf.demands_integer position) hrest.1) ?_
    intro n hn
    refine h.quiet_bind (h.lift (h.total hs hf ht hn)) fun m hm => ?_
    exact ih hrest.2 hm (Nat.succ_pos position) (by omega)

theorem sequence (h : Traversal mode mode' Site Good Cause R)
    (hrest : ∀ arg ∈ rest, R Good (ev arg) (ev' arg) (does arg) (does' arg)) {last : Value}
    (hlast : Good last) :
    R Good (Operator.sequence last (Expr.given ev rest))
      (Operator.sequence last (Expr.given ev' rest))
      (Operator.deedsInTurn (Expr.givenTracked ev does rest))
      (Operator.deedsInTurn (Expr.givenTracked ev' does' rest)) := by
  induction rest generalizing last with
  | nil => exact h.pure hlast
  | cons arg rest ih =>
    rw [List.forall_mem_cons] at hrest
    exact h.bind hrest.1 fun v hv => ih hrest.2 hv

-- a loop without passes left still evaluates its condition, which may do something
theorem looping (h : Traversal mode mode' Site Good Cause R)
    (hs : Site (.compound (Operator.name .loop) [a, b]))
    (ha : R Good (ev a) (ev' a) (does a) (does' a)) (hb : R Good (ev b) (ev' b) (does b) (does' b))
    (passes : Nat) :
    R Good (Operator.looping ⟨a, ev a⟩ ⟨b, ev b⟩ passes)
      (Operator.looping ⟨a, ev' a⟩ ⟨b, ev' b⟩ passes)
      (Operator.deedsInLoop ⟨⟨a, ev a⟩, does a⟩ ⟨⟨b, ev b⟩, does b⟩ passes)
      (Operator.deedsInLoop ⟨⟨a, ev' a⟩, does' a⟩ ⟨⟨b, ev' b⟩, does' b⟩ passes) := by
  induction passes with
  | zero =>
    rw [Operator.looping_eq, Operator.looping_eq]
    refine h.bind_quiet (h.boolArgument hs ⟨Nat.one_pos, Nat.le_succ 1⟩ rfl ha) fun holds _ => ?_
    cases holds with
    | false => exact h.pure h.nil
    | true => exact h.exhausted
  | succ passes ih =>
    rw [Operator.looping_eq, Operator.looping_eq]
    refine h.bind (h.boolArgument hs ⟨Nat.one_pos, Nat.le_succ 1⟩ rfl ha) fun holds _ => ?_
    cases holds with
    | false => exact h.pure h.nil
    | true => exact h.bind hb fun _ _ => ih

theorem branch (h : Traversal mode mode' Site Good Cause R)
    (hs : Site (.compound (Operator.name .branch) (a :: b :: rest))) (hlength : rest.length ≤ 1)
    (ha : R Good (ev a) (ev' a) (does a) (does' a)) (hb : R Good (ev b) (ev' b) (does b) (does' b))
    (hrest : ∀ arg ∈ rest, R Good (ev arg) (ev' arg) (does arg) (does' arg)) :
    R Good (Operator.perform mode .branch (Expr.given ev (a :: b :: rest)))
      (Operator.perform mode' .branch (Expr.given ev' (a :: b :: rest)))
      (Operator.deeds mode .branch (Expr.givenTracked ev does (a :: b :: rest)))
      (Operator.deeds mode' .branch (Expr.givenTracked ev' does' (a :: b :: rest))) := by
  have hgiven : ∀ ev : Expr → Run Value, (Expr.given ev rest).length ≤ 1 := by
    intro ev
    rwa [Expr.given, List.length_map]
  have hposition : 0 < 1 ∧ 1 ≤ (a :: b :: rest).length := ⟨Nat.one_pos, Nat.le_add_left 1 _⟩
  change R Good
    (Operator.perform mode .branch (⟨a, ev a⟩ :: ⟨b, ev b⟩ :: Expr.given ev rest))
    (Operator.perform mode' .branch (⟨a, ev' a⟩ :: ⟨b, ev' b⟩ :: Expr.given ev' rest)) _ _
  rw [Operator.perform_branch mode _ _ (hgiven ev), Operator.perform_branch mode' _ _ (hgiven ev')]
  refine h.bind (h.boolArgument hs hposition rfl ha) fun holds _ => ?_
  cases holds with
  | true => exact hb
  | false =>
    match rest with
    | [] => exact h.pure h.nil
    | no :: _ => exact hrest no List.mem_cons_self

theorem printing (h : Traversal mode mode' Site Good Cause R)
    (hs : Site (.compound (Operator.name .print) [a]))
    (ha : R Good (ev a) (ev' a) (does a) (does' a)) :
    R Good (Operator.perform mode .print [⟨a, ev a⟩]) (Operator.perform mode' .print [⟨a, ev' a⟩])
      (Operator.deeds mode .print (Expr.givenTracked ev does [a]))
      (Operator.deeds mode' .print (Expr.givenTracked ev' does' [a])) := by
  refine h.bind ha fun v hv => ?_
  refine h.quiet_bind (h.lift (h.rendered hv)) fun text htext => ?_
  exact h.bind_quiet (h.print hs hv htext) fun _ _ => h.pure h.nil

theorem global (h : Traversal mode mode' Site Good Cause R)
    (hs : Site (.compound (Operator.name .global) [a, b]))
    (hb : R Good (ev b) (ev' b) (does b) (does' b)) :
    R Good (Operator.perform mode .global [⟨a, ev a⟩, ⟨b, ev b⟩])
      (Operator.perform mode' .global [⟨a, ev' a⟩, ⟨b, ev' b⟩])
      (Operator.deeds mode .global (Expr.givenTracked ev does [a, b]))
      (Operator.deeds mode' .global (Expr.givenTracked ev' does' [a, b])) := by
  cases a with
  | symbol x =>
    refine h.bind hb fun v hv => ?_
    exact h.bind_quiet (h.define hs hv) fun _ _ => h.pure h.nil
  | literal | compound | foreign => exact h.fail (h.notAName hs (by simp))

/-- An operator has it, with what it is said to do, if its operands do. -/
theorem perform (h : Traversal mode mode' Site Good Cause R) (hs : Site (.compound op.name args))
    (htakes : op.Takes args)
    (hargs : ∀ arg ∈ Expr.operands op.name args,
      R Good (ev arg) (ev' arg) (does arg) (does' arg)) :
    R Good (op.perform mode (Expr.given ev args)) (op.perform mode' (Expr.given ev' args))
      (op.deeds mode (Expr.givenTracked ev does args))
      (op.deeds mode' (Expr.givenTracked ev' does' args)) := by
  -- `global` alone has an argument that is no operand
  by_cases hglobal : op = .global
  · subst hglobal
    cases htakes with
    | fold hf => cases hf
    | two hop => exact hop.elim
    | global target value =>
      exact h.global hs (hargs value (Expr.mem_operands_of_tail List.mem_cons_self))
  · have hname : op.name ≠ Operator.name .global := fun he => hglobal (Operator.name_injective he)
    rw [Expr.operands_of_ne hname] at hargs
    cases htakes with
    | fold hf arg args =>
      have hfold := h.fold hs hf hargs (h.start hf) Nat.one_pos (Nat.add_comm 1 _)
      change R Good (op.perform mode (⟨arg, ev arg⟩ :: Expr.given ev args))
        (op.perform mode' (⟨arg, ev' arg⟩ :: Expr.given ev' args)) _ _
      rw [Operator.perform_fold hf, Operator.perform_fold hf, Operator.deeds_fold hf,
        Operator.deeds_fold hf]
      exact h.bind_quiet hfold fun n hn => h.pure hn
    | two hop a b =>
      rw [List.forall_mem_cons, List.forall_mem_singleton] at hargs
      exact h.two hs hop hargs.1 hargs.2
    | not a =>
      rw [List.forall_mem_singleton] at hargs
      refine h.bind_quiet (h.boolArgument hs ⟨Nat.one_pos, Nat.le_refl 1⟩ rfl hargs) fun b _ => ?_
      exact h.pure (h.bool !b)
    | print a =>
      rw [List.forall_mem_singleton] at hargs
      exact h.printing hs hargs
    | branch cond yes hlength =>
      rw [List.forall_mem_cons, List.forall_mem_cons] at hargs
      exact h.branch hs hlength hargs.1 hargs.2.1 hargs.2.2
    | loop cond body =>
      rw [List.forall_mem_cons, List.forall_mem_singleton] at hargs
      have hloop := h.looping hs hargs.1 hargs.2 mode.passes
      change R Good (Operator.looping ⟨cond, ev cond⟩ ⟨body, ev body⟩ mode.passes)
        (Operator.looping ⟨cond, ev' cond⟩ ⟨body, ev' body⟩ mode'.passes)
        (Operator.deedsInLoop ⟨⟨cond, ev cond⟩, does cond⟩ ⟨⟨body, ev body⟩, does body⟩ mode.passes)
        (Operator.deedsInLoop ⟨⟨cond, ev' cond⟩, does' cond⟩ ⟨⟨body, ev' body⟩, does' body⟩
          mode'.passes)
      rwa [← h.passes]
    | block args => exact h.sequence hargs h.nil
    | global target value => exact absurd rfl hglobal

end Operators

/-- Evaluation has, together with its deeds, what its steps have at the places of the expression, if
it does where the stack of the first mode ends; that of the other may carry more. -/
theorem eval (h : Traversal mode mode' Site Good Cause R)
    (hwithin : ∀ level, mode'.nesting.any (· ≤ level) = true → mode.nesting.any (· ≤ level) = true)
    (hnested : ∀ f args level, Site (.compound f args) → mode.nesting.any (· ≤ level) = true →
      R Good (Run.fail .nestedTooDeeply) ((Expr.compound f args).eval mode' level) .nothing
        ((Expr.compound f args).deeds mode' level))
    (e : Expr) (he : ∀ n ∈ e.nodes, Site n) (level : Nat) :
    R Good (e.eval mode level) (e.eval mode' level) (e.deeds mode level)
      (e.deeds mode' level) := by
  induction e generalizing level with
  | literal v => exact h.pure (h.literal (he _ (Expr.mem_nodes_self _)))
  | symbol x =>
    rw [Expr.eval, Expr.eval]
    exact h.lookup (he _ (Expr.mem_nodes_self _))
  | compound f args ih =>
    have hs : Site (.compound f args) := he _ (Expr.mem_nodes_self _)
    -- a name to be bound is no place where anything happens, so only the operands are asked about
    have hargs : ∀ arg ∈ Expr.operands f args,
        R Good (arg.eval mode (level + 1)) (arg.eval mode' (level + 1))
          (arg.deeds mode (level + 1)) (arg.deeds mode' (level + 1)) := by
      intro arg ha
      refine ih arg (Expr.operands_subset f args ha) (fun n hn => he n ?_) (level + 1)
      exact Expr.mem_nodes_of_operand ha hn
    by_cases hn : mode.nesting.any (· ≤ level) = true
    · have hstopped := hnested f args level hs hn
      rwa [Expr.eval, if_pos hn, Expr.deeds, if_pos hn]
    · have hn' : ¬mode'.nesting.any (· ≤ level) = true := fun hn' => hn (hwithin level hn')
      rw [Expr.eval, if_neg hn, Expr.eval, if_neg hn', Expr.deeds, if_neg hn, Expr.deeds,
        if_neg hn', Expr.arguments_eq_map, Expr.arguments_eq_map, Expr.tracked_eq_given,
        Expr.tracked_eq_given]
      refine h.quiet_bind (h.lift (h.find hs)) fun op hop => ?_
      subst hop
      refine h.quiet_bind (h.record hs) fun _ _ => ?_
      rw [Operator.apply, Operator.apply, List.length_map, List.length_map]
      refine h.quiet_bind (h.lift (h.check hs)) fun _ hadmits => ?_
      exact h.perform hs (Operator.takes_of_admits hadmits) hargs
  | foreign stranger => exact h.fail (h.stranger (he _ (Expr.mem_nodes_self _)))

/-- In two modes with one stack evaluation stops in both where the stack ends. -/
theorem eval_of_nesting_eq (h : Traversal mode mode' Site Good Cause R)
    (hnesting : mode.nesting = mode'.nesting)
    (hcause : ∀ {f args}, Site (.compound f args) → Cause .nestedTooDeeply) (e : Expr)
    (he : ∀ n ∈ e.nodes, Site n) (level : Nat) :
    R Good (e.eval mode level) (e.eval mode' level) (e.deeds mode level)
      (e.deeds mode' level) := by
  refine h.eval (fun level hn => hnesting ▸ hn) (fun f args level hs hn => ?_) e he level
  rw [hnesting] at hn
  rw [Expr.eval, if_pos hn, Expr.deeds, if_pos hn]
  exact h.fail (hcause hs)

end Traversal

end Lisplet
