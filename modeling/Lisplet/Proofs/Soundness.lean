import Lisplet.Proofs.Operands

/-!
# Evaluation does nothing that the rules do not allow

`Argument.Sound` says that an argument, however it ends, ends as the rules let its expression end.
Every operator keeps this, given sound arguments; so by induction over expressions every expression
has it. A compound beyond the nesting that the mode allows is left out, because refusing it is no
matter of the language.
-/

namespace Lisplet

open Run

namespace Argument

/-- However the argument ends, the rules say so of its expression. -/
structure Sound (arg : Argument) : Prop where
  proper : arg.expr.Proper
  ensures : ∀ w : World, w.env.Proper → Ensures arg.eval w (Evaluates (.expr arg.expr) w)

/-- The rules let the argument, evaluated and checked, end in this way. -/
structure Taken (arg : Argument) (op : Operator) (position : Nat) (w : World)
    (r : Except Error Value) (w₁ : World) : Prop where
  checked : ∃ o, Evaluates (.expr arg.expr) w o w₁ ∧ Operator.Checked op position o r
  proper : ProperOutcome r
  world : w₁.env.Proper

namespace Sound

variable {arg : Argument} {op : Operator} {position : Nat} {w : World}

theorem value (ha : arg.Sound) (hw : w.env.Proper) :
    Ensures arg.eval w fun o w₁ =>
      Evaluates (.expr arg.expr) w o w₁ ∧ ProperOutcome o ∧ w₁.env.Proper :=
  (ha.ensures w hw).imp fun _ _ h => ⟨h, h.proper ha.proper hw⟩

theorem operand (ha : arg.Sound) (hw : w.env.Proper) :
    Ensures (arg.operand op position) w (arg.Taken op position w) := by
  refine ((ha.value hw).convert (op.examine position)).imp ?_
  rintro r w₁ ⟨o, ⟨he, ho, hw₁⟩, rfl⟩
  have hc := op.checked_bind_examine position ho
  exact ⟨⟨o, he, hc⟩, hc.proper ho, hw₁⟩

theorem converted {α : Type} {f : Value → Except Error α} {toValue : α → Value} (ha : arg.Sound)
    (hw : w.env.Proper) (hf : ∀ v, op.examine position v = (f v).map toValue) :
    Ensures (arg.eval >>= fun v => lift (f v)) w fun r w₁ =>
      arg.Taken op position w (r.map toValue) w₁ := by
  refine ((ha.value hw).convert f).imp ?_
  rintro r w₁ ⟨o, ⟨he, ho, hw₁⟩, rfl⟩
  have hc := op.checked_bind_examine position ho
  have hr : o.bind (op.examine position) = (o.bind f).map toValue := by
    cases o with
    | error cause => rfl
    | ok v => exact hf v
  rw [hr] at hc
  exact ⟨⟨o, he, hc⟩, hc.proper ho, hw₁⟩

theorem integer (ha : arg.Sound) (hw : w.env.Proper)
    (hd : op.demands position = some .integer) :
    Ensures (arg.integer op position) w fun r w₁ =>
      arg.Taken op position w (r.map .integer) w₁ :=
  ha.converted hw (op.examine_integer hd)

theorem bool (ha : arg.Sound) (hw : w.env.Proper) (hd : op.demands position = some .bool) :
    Ensures (arg.bool op position) w fun r w₁ => arg.Taken op position w (r.map .bool) w₁ :=
  ha.converted hw (op.examine_bool hd)

end Sound

theorem Taken.evaluates {arg : Argument} {op : Operator} {position : Nat} {w w₁ : World}
    {v : Value} (h : arg.Taken op position w (.ok v) w₁) :
    Evaluates (.expr arg.expr) w (.ok v) w₁ := by
  obtain ⟨o, he, hc⟩ := h.checked
  obtain ⟨rfl, -⟩ := Operator.kind?_of_checked hc
  exact he

end Argument

namespace Operator

open Argument

variable {w : World}

/-- The expressions of arguments. -/
def exprs (args : List Argument) : List Expr := args.map Argument.expr

theorem two_sound {op : Operator} (hop : op.TakesTwo) {a b : Argument} (ha : a.Sound)
    (hb : b.Sound) (hw : w.env.Proper) (mode : Mode) :
    Ensures (op.perform mode [a, b]) w
      (Evaluates (.expr (.compound op.name [a.expr, b.expr])) w) := by
  rw [perform_two hop]
  refine (ha.operand hw).bind ?_ ?_
  · intro u w₁ hu
    refine (hb.operand hu.world).bind ?_ ?_
    · intro v w₂ hv
      obtain ⟨o, heu, hcu⟩ := hu.checked
      obtain ⟨o', hev, hcv⟩ := hv.checked
      obtain ⟨r, hr⟩ := exists_combines hop hcu hcv
      rw [hr.outcome_eq hu.proper hv.proper]
      exact (Yields.lift r w₂).ensures (.operands heu hcu hev hcv hr)
    · intro cause w₂ hv
      obtain ⟨o, heu, hcu⟩ := hu.checked
      obtain ⟨o', hev, hcv⟩ := hv.checked
      exact .secondEnds hop heu hcu hev hcv
  · intro cause w₁ hu
    obtain ⟨o, heu, hcu⟩ := hu.checked
    exact .firstEnds hop heu hcu

theorem fold_sound {op : Operator} {start : Int} {combine : Int → Int → Int}
    (hf : op.Folds start combine) {args : List Argument} (hargs : ∀ arg ∈ args, arg.Sound)
    {total : Int} (ht : Fits total) (position : Nat) (hw : w.env.Proper) :
    Ensures (fold op combine total position args >>= fun n => pure (.integer n)) w
      (Evaluates (.terms op total position (exprs args)) w) := by
  induction args generalizing total position w with
  | nil =>
    exact (Yields.pure (Value.integer total) w).ensures (Evaluates.termsDone op total position w)
  | cons arg args ih =>
    rw [List.forall_mem_cons] at hargs
    rw [fold, bind_assoc]
    refine (hargs.1.integer hw (hf.demands_integer position)).bind ?_ ?_
    · intro n w₁ hn
      rw [bind_assoc]
      by_cases hfits : Fits (combine total n)
      · rw [checkedInteger_eq_ok_iff.mpr ⟨rfl, hfits⟩]
        refine (ih hargs.2 hfits (position + 1) hn.world).imp ?_
        intro o w₂ hr
        exact .termAdds hf hn.evaluates hfits hr
      · rw [hf.checkedInteger_of_not_fits ht hn.proper hfits]
        exact (Yields.fail _ w₁).ensures (.termOverflows hf hn.evaluates hfits)
    · intro cause w₁ ha
      obtain ⟨o, he, hc⟩ := ha.checked
      exact .termEnds he hc

theorem sequence_sound {args : List Argument} (hargs : ∀ arg ∈ args, arg.Sound) (last : Value)
    (hw : w.env.Proper) :
    Ensures (sequence last args) w (Evaluates (.sequence last (exprs args)) w) := by
  induction args generalizing last w with
  | nil => exact (Yields.pure last w).ensures (Evaluates.sequenceDone last w)
  | cons arg args ih =>
    rw [List.forall_mem_cons] at hargs
    rw [sequence]
    refine (hargs.1.value hw).bind ?_ ?_
    · intro v w₁ hv
      refine (ih hargs.2 v hv.2.2).imp ?_
      intro o w₂ hr
      exact .sequenceNext hv.1 hr
    · intro cause w₁ ha
      exact .sequenceFails ha.1

/-- After a condition the run goes on in one of two ways, or the condition has ended it. -/
theorem condition_sound {op : Operator} (hd : op.demands 1 = some .bool) {cond : Argument}
    (hcond : cond.Sound) (hw : w.env.Proper) {next : Bool → Run Value}
    {Q : Except Error Value → World → Prop}
    (hnext : ∀ b w₁, w₁.env.Proper → Evaluates (.expr cond.expr) w (.ok (.bool b)) w₁ →
      Ensures (next b) w₁ Q)
    (hends : ∀ o cause w₁, Evaluates (.expr cond.expr) w o w₁ → Checked op 1 o (.error cause) →
      Q (.error cause) w₁) :
    Ensures (cond.bool op 1 >>= next) w Q := by
  refine (hcond.bool hw hd).bind ?_ ?_
  · intro b w₁ hc
    exact hnext b w₁ hc.world hc.evaluates
  · intro cause w₁ hc
    obtain ⟨o, he, hk⟩ := hc.checked
    exact hends o cause w₁ he hk

-- the induction is on the passes left: a loop that runs out of them has no outcome to account for
theorem looping_sound {cond body : Argument} (hcond : cond.Sound) (hbody : body.Sound)
    (passes : Nat) (hw : w.env.Proper) :
    Ensures (looping cond body passes) w (Evaluates (.loop cond.expr body.expr) w) := by
  induction passes generalizing w with
  | zero =>
    rw [looping_eq]
    refine condition_sound rfl hcond hw ?_ fun o cause w₁ he hk => .loopEnds he hk
    intro b w₁ hw₁ hc
    cases b with
    | false => exact (Yields.pure Value.nil w₁).ensures (Evaluates.loopDone hc)
    | true =>
      intro s o s' _ hr
      cases o <;> cases hr
  | succ passes ih =>
    rw [looping_eq]
    refine condition_sound rfl hcond hw ?_ fun o cause w₁ he hk => .loopEnds he hk
    intro b w₁ hw₁ hc
    cases b with
    | false => exact (Yields.pure Value.nil w₁).ensures (Evaluates.loopDone hc)
    | true =>
      refine (hbody.value hw₁).bind ?_ ?_
      · intro v w₂ hb
        refine (ih hb.2.2).imp ?_
        intro o w₃ hr
        exact .loopAgain hc hb.1 hr
      · intro cause w₂ hb
        exact .loopFails hc hb.1

theorem not_sound {a : Argument} (ha : a.Sound) (hw : w.env.Proper) (mode : Mode) :
    Ensures (perform mode .not [a]) w (Evaluates (.expr (.compound (name .not) [a.expr])) w) := by
  rw [perform]
  refine condition_sound rfl ha hw ?_ fun o cause w₁ he hk => .negationEnds he hk
  intro b w₁ _ hb
  exact (Yields.pure (Value.bool !b) w₁).ensures (Evaluates.negation hb)

theorem print_sound {a : Argument} (ha : a.Sound) (hw : w.env.Proper) (mode : Mode) :
    Ensures (perform mode .print [a]) w
      (Evaluates (.expr (.compound (name .print) [a.expr])) w) := by
  rw [perform]
  refine (ha.value hw).bind ?_ ?_
  · intro v w₁ hv
    obtain ⟨text, htext⟩ := Value.render_of_proper hv.2.1
    rw [htext]
    have hprint := (Yields.print (text ++ "\n") w₁).bind_pure fun _ => Value.nil
    exact hprint.ensures (Evaluates.print hv.1 htext)
  · intro cause w₁ ha
    exact .printFails ha.1

theorem branch_sound {cond yes : Argument} {rest : List Argument} (hcond : cond.Sound)
    (hyes : yes.Sound) (hrest : ∀ arg ∈ rest, arg.Sound) (hlength : rest.length ≤ 1)
    (hw : w.env.Proper) (mode : Mode) :
    Ensures (perform mode .branch (cond :: yes :: rest)) w
      (Evaluates (.expr (.compound (name .branch) (cond.expr :: yes.expr :: exprs rest))) w) := by
  have hlength' : (exprs rest).length ≤ 1 := by rwa [exprs, List.length_map]
  rw [perform_branch mode cond yes hlength]
  refine condition_sound rfl hcond hw ?_ fun o cause w₁ he hk => .branchEnds hlength' he hk
  intro b w₁ hw₁ hc
  cases b with
  | true => exact (hyes.ensures w₁ hw₁).imp fun o w₂ hy => .branchYes hlength' hc hy
  | false =>
    match rest with
    | [] => exact (Yields.pure Value.nil w₁).ensures (Evaluates.branchNone hc)
    | [no] =>
      have hno := hrest no (List.mem_singleton_self no)
      exact (hno.ensures w₁ hw₁).imp fun o w₂ hn => .branchNo hc hn
    | _ :: _ :: _ => simp at hlength

theorem global_sound {target value : Argument} (ht : target.expr.Proper) (hv : value.Sound)
    (hw : w.env.Proper) (mode : Mode) :
    Ensures (perform mode .global [target, value]) w
      (Evaluates (.expr (.compound (name .global) [target.expr, value.expr])) w) := by
  rw [perform]
  obtain ⟨expr, eval⟩ := target
  cases expr with
  | literal v =>
    obtain ⟨kind, hk⟩ := Option.isSome_iff_exists.mp (Value.Proper.kind?_isSome ht)
    have herror : notAName ⟨.literal v, eval⟩ = .kind (name .global) 1 .symbol (.value kind) :=
      Value.mismatch_of_kind? hk _ _ _
    change Ensures (fail (notAName ⟨.literal v, eval⟩)) w _
    rw [herror]
    exact (Yields.fail _ w).ensures (.globalLiteral hk)
  | symbol x =>
    refine (hv.value hw).bind ?_ ?_
    · intro v w₁ he
      have hdefine := (Yields.define he.2.1 mode x w₁).bind_pure fun _ => Value.nil
      exact hdefine.ensures (Evaluates.global he.1)
    · intro cause w₁ he
      exact .globalFails he.1
  | compound f args => exact (Yields.fail _ w).ensures Evaluates.globalCompound
  | foreign stranger => exact ht.elim

theorem perform_sound {op : Operator} {args : List Argument} (htakes : op.Takes args)
    (hargs : ∀ arg ∈ args, arg.Sound) (hw : w.env.Proper) (mode : Mode) :
    Ensures (op.perform mode args) w (Evaluates (.expr (.compound op.name (exprs args))) w) := by
  cases htakes with
  | fold hf arg args =>
    rw [perform_fold hf]
    exact (fold_sound hf hargs hf.fits_start 1 hw).imp fun o w₁ ht => .fold hf ht
  | two hop a b =>
    rw [List.forall_mem_cons, List.forall_mem_singleton] at hargs
    exact two_sound hop hargs.1 hargs.2 hw mode
  | not a => exact not_sound (List.forall_mem_singleton.mp hargs) hw mode
  | print a => exact print_sound (List.forall_mem_singleton.mp hargs) hw mode
  | branch cond yes hrest =>
    rw [List.forall_mem_cons, List.forall_mem_cons] at hargs
    exact branch_sound hargs.1 hargs.2.1 hargs.2.2 hrest hw mode
  | loop cond body =>
    rw [List.forall_mem_cons, List.forall_mem_singleton] at hargs
    exact (looping_sound hargs.1 hargs.2 mode.passes hw).imp fun o w₁ hl => .loop hl
  | block args => exact (sequence_sound hargs .nil hw).imp fun o w₁ hs => .block hs
  | global target value =>
    rw [List.forall_mem_cons, List.forall_mem_singleton] at hargs
    exact global_sound hargs.1.proper hargs.2 hw mode

end Operator

/-- At this level the mode leaves room for every compound of the expression. -/
def Mode.Carries (mode : Mode) (level : Nat) (e : Expr) : Prop :=
  ∀ bound ∈ mode.nesting, level + e.height ≤ bound

instance (mode : Mode) (level : Nat) (e : Expr) : Decidable (mode.Carries level e) :=
  inferInstanceAs (Decidable (∀ bound ∈ mode.nesting, level + e.height ≤ bound))

namespace Expr

theorem height_le_argsHeight {args : List Expr} {arg : Expr} (h : arg ∈ args) :
    arg.height ≤ argsHeight args := by
  induction args with
  | nil => cases h
  | cons first rest ih =>
    rw [argsHeight]
    cases h with
    | head => exact Nat.le_max_left _ _
    | tail _ h => exact Nat.le_trans (ih h) (Nat.le_max_right _ _)

theorem carries_arg {mode : Mode} {level : Nat} {f : String} {args : List Expr}
    (h : mode.Carries level (.compound f args)) {arg : Expr} (ha : arg ∈ args) :
    mode.Carries (level + 1) arg := by
  intro bound hb
  have hbound := h bound hb
  have hheight := height_le_argsHeight ha
  rw [height] at hbound
  omega

theorem exprs_arguments (mode : Mode) (level : Nat) (args : List Expr) :
    Operator.exprs (arguments mode level args) = args := by
  rw [arguments_eq_map, Operator.exprs, List.map_map]
  exact List.map_id args

theorem length_arguments (mode : Mode) (level : Nat) (args : List Expr) :
    (arguments mode level args).length = args.length := by
  rw [arguments_eq_map, List.length_map]

/-- Within the nesting allowed, a compound is looked up, recorded and applied. -/
theorem eval_compound {mode : Mode} {level : Nat} {f : String} {args : List Expr}
    (h : mode.Carries level (.compound f args)) :
    (compound f args).eval mode level = (do
      let op ← lift (Operator.find f)
      record mode (.applied f args.length)
      op.apply mode (arguments mode (level + 1) args)) := by
  have hany : mode.nesting.any (· ≤ level) = false := by
    cases hn : mode.nesting with
    | none => rfl
    | some bound =>
      have hbound := h bound hn
      rw [height] at hbound
      simpa using by omega
  rw [eval, hany]
  rfl

theorem yields_unknown {mode : Mode} {level : Nat} {f : String} {args : List Expr}
    (hc : mode.Carries level (.compound f args)) (hf : ∀ op : Operator, op.name ≠ f) (w : World) :
    Yields ((compound f args).eval mode level) w (.error (.unknownOperator f)) w := by
  have hfind : Operator.find f = .error (.unknownOperator f) := by
    rw [Operator.find]
    cases ho : Operator.ofName? f with
    | none => rfl
    | some op => exact absurd (Operator.ofName?_eq_some_iff.mp ho) (hf op)
  rw [eval_compound hc, hfind]
  exact .fail _ w

/-- A compound of a known operator is recorded, and its arguments are counted. -/
theorem eval_known {mode : Mode} {level : Nat} {op : Operator} {args : List Expr}
    (hc : mode.Carries level (.compound op.name args)) :
    (compound op.name args).eval mode level = (do
      record mode (.applied op.name args.length)
      lift (op.arity.check op.name args.length)
      op.perform mode (arguments mode (level + 1) args)) := by
  rw [eval_compound hc, Operator.find, Operator.ofName?_name]
  change (record mode _ >>= fun _ => op.apply mode _) = _
  rw [Operator.apply, length_arguments]

theorem yields_arity {mode : Mode} {level : Nat} {op : Operator} {args : List Expr}
    (hc : mode.Carries level (.compound op.name args)) (ha : ¬op.arity.Admits args.length)
    (w : World) :
    Yields ((compound op.name args).eval mode level) w
      (.error (.arity op.name op.arity args.length)) w := by
  rw [eval_known hc, Arity.check, if_neg ha]
  exact (Yields.record mode _ w).bind (.fail _ w)

/-- A compound with the right number of arguments is recorded and performed. -/
theorem eval_admitted {mode : Mode} {level : Nat} {op : Operator} {args : List Expr}
    (hc : mode.Carries level (.compound op.name args)) (ha : op.arity.Admits args.length) :
    (compound op.name args).eval mode level = (do
      record mode (.applied op.name args.length)
      op.perform mode (arguments mode (level + 1) args)) := by
  rw [eval_known hc, Arity.check, if_pos ha]
  rfl

/-- A compound does what its operator does with the arguments, if it takes them. -/
theorem yields_of_perform {mode : Mode} {level : Nat} (op : Operator) {args : List Expr}
    (hc : mode.Carries level (.compound op.name args)) (htakes : op.Takes args) {w w' : World}
    {o : Except Error Value}
    (h : Yields (op.perform mode (arguments mode (level + 1) args)) w o w') :
    Yields ((compound op.name args).eval mode level) w o w' := by
  rw [eval_admitted hc htakes.admits]
  exact (Yields.record mode _ w).bind h

/-- Whatever evaluation ends with, the rules derive. -/
theorem eval_sound {mode : Mode} (e : Expr) {level : Nat} (he : e.Proper)
    (hc : mode.Carries level e) {w : World} (hw : w.env.Proper) :
    Ensures (e.eval mode level) w (Evaluates (.expr e) w) := by
  induction e generalizing level w with
  | literal v => exact (Yields.pure v w).ensures (Evaluates.literal v w)
  | symbol x =>
    rw [eval]
    cases hx : w.env.get? x with
    | some v => exact (Yields.lookup hx).ensures (Evaluates.bound hx)
    | none => exact (Yields.lookup_unbound hx).ensures (Evaluates.unbound hx)
  | compound f args ih =>
    cases hf : Operator.ofName? f with
    | none =>
      have hunknown : ∀ op : Operator, op.name ≠ f := by
        intro op hop
        rw [Operator.ofName?_eq_some_iff.mpr hop] at hf
        cases hf
      exact (yields_unknown hc hunknown w).ensures (Evaluates.unknown hunknown)
    | some op =>
      obtain rfl := Operator.ofName?_eq_some_iff.mp hf
      by_cases hadmits : op.arity.Admits args.length
      · have hargs : ∀ arg ∈ arguments mode (level + 1) args, arg.Sound := by
          rw [arguments_eq_map, List.forall_mem_map]
          intro arg ha
          have hproper := allProper_iff.mp he arg ha
          exact ⟨hproper, fun w hw => ih arg ha hproper (carries_arg hc ha) hw⟩
        have htakes : op.Takes (arguments mode (level + 1) args) :=
          Operator.takes_of_admits (by rwa [length_arguments])
        have hperform := Operator.perform_sound htakes hargs hw mode
        rw [exprs_arguments] at hperform
        rw [eval_admitted hc hadmits]
        exact (Yields.record mode _ w).then_ensures hperform
      · exact (yields_arity hc hadmits w).ensures (Evaluates.arity hadmits)
  | foreign stranger => exact he.elim

end Expr

end Lisplet
