import Lisplet.Proofs.Coupling
import Lisplet.Proofs.Inheritance
import Lisplet.Proofs.Soundness

/-!
# Evaluation without loops

Where no `while` stands in an expression, evaluation goes through it once, from left to right. Some
parts may be left out: the branch not taken, and what stands after an error. But no operator
evaluates an argument twice, or a later one before an earlier one. The records of the applications
show this: `Expr.applications` lists the compounds of an expression in the order written, and those
recorded are some of these, in the same order. So evaluation ends, and it ends in the same way
whatever number of passes a loop may make.

`Run.Spends` carries the induction. It gives a run the applications that it may record, and a run
made of two may record those of the first and then those of the second.
-/

namespace Lisplet

/-- The record is of an application. -/
def Record.isApplied : Record → Bool
  | .applied _ _ => true
  | _ => false

namespace Expr

mutual
/-- The compounds of an expression in the order written, each as the record of its application. -/
def applications : Expr → List Record
  | .compound f args => .applied f args.length :: argsApplications args
  | _ => []

def argsApplications : List Expr → List Record
  | [] => []
  | arg :: args => applications arg ++ argsApplications args
end

theorem argsApplications_eq_flatMap (args : List Expr) :
    argsApplications args = args.flatMap applications := by
  induction args with
  | nil => rfl
  | cons arg args ih => rw [argsApplications, ih, List.flatMap_cons]

end Expr

namespace Run

variable {α β : Type} {run : Run α} {next : α → Run β} {budget more : List Record}

/-- The run ends with a value or an error, and the applications that it records are some of those
given, in their order. -/
def Spends (run : Run α) (budget : List Record) : Prop :=
  ∀ s : State, ∃ (o : Except Error α) (s' : State) (added : List Record),
    run.result s = (o.mapError .failed, s') ∧ s'.trace.toList = s.trace.toList ++ added ∧
      (added.filter Record.isApplied).Sublist budget

namespace Spends

theorem imp (h : Spends run budget) (hle : budget.Sublist more) : Spends run more := by
  intro s
  obtain ⟨o, s', added, hr, htrace, hadded⟩ := h s
  exact ⟨o, s', added, hr, htrace, hadded.trans hle⟩

/-- A run that makes no records spends nothing. -/
theorem of_unrecorded
    (h : ∀ s, ∃ o s', run.result s = (Except.mapError .failed o, s') ∧ s'.trace = s.trace) :
    Spends run [] := by
  intro s
  obtain ⟨o, s', hr, htrace⟩ := h s
  exact ⟨o, s', [], hr, by rw [htrace, List.append_nil], .slnil⟩

theorem lift (r : Except Error α) : Spends (lift r) [] := by
  apply of_unrecorded
  intro s
  refine ⟨r, s, ?_, rfl⟩
  cases r <;> rfl

theorem lookup (name : String) : Spends (lookup name) [] := by
  apply of_unrecorded
  intro s
  rw [result_lookup]
  cases s.env.get? name with
  | some value => exact ⟨.ok value, s, rfl, rfl⟩
  | none => exact ⟨.error _, s, rfl, rfl⟩

theorem print (text : String) : Spends (print text) [] :=
  of_unrecorded fun s => ⟨.ok (), _, result_print text s, rfl⟩

/-- The record of a binding is not one of an application. -/
theorem define (mode : Mode) (name : String) (value : Value) :
    Spends (define mode name value) [] := by
  intro s
  cases hm : mode.debug with
  | false =>
    exact ⟨.ok (), _, [], result_define_of_not_debug hm name value s, by simp, .slnil⟩
  | true =>
    cases hv : value.render with
    | ok shown =>
      refine ⟨.ok (), _, [.defined name shown], result_define_of_render hv mode name s, ?_, .slnil⟩
      simp [hm]
    | error cause =>
      exact ⟨.error cause, s, [], result_define_of_refused hm hv name s, by simp, .slnil⟩

theorem record (mode : Mode) (r : Record) : Spends (record mode r) [r] := by
  intro s
  rw [result_record]
  cases mode.debug with
  | false => exact ⟨.ok (), s, [], rfl, by simp, List.nil_sublist _⟩
  | true =>
    refine ⟨.ok (), _, [r], rfl, ?_, List.filter_sublist⟩
    simp

theorem bind (h : Spends run budget) (hnext : ∀ a, Spends (next a) more) :
    Spends (run >>= next) (budget ++ more) := by
  intro s
  obtain ⟨o, s₁, added, hr, htrace, hadded⟩ := h s
  rw [result_bind, hr]
  cases o with
  | error cause =>
    have hless := hadded.trans (List.sublist_append_left budget more)
    exact ⟨.error cause, s₁, added, rfl, htrace, hless⟩
  | ok a =>
    obtain ⟨o, s₂, added', hr', htrace', hadded'⟩ := hnext a s₁
    refine ⟨o, s₂, added ++ added', hr', ?_, ?_⟩
    · rw [htrace', htrace, List.append_assoc]
    · rw [List.filter_append]
      exact hadded.append hadded'

/-- What follows a run may spend nothing. -/
theorem bind_free (h : Spends run budget) (hnext : ∀ a, Spends (next a) []) :
    Spends (run >>= next) budget := by
  have hbind := h.bind hnext
  rwa [List.append_nil] at hbind

end Spends

end Run

open Run

namespace Operator

variable {op : Operator} {args : List Expr} {ev : Expr → Run Value}

theorem spends_fold (op : Operator) (combine : Int → Int → Int)
    (hargs : ∀ arg ∈ args, Spends (ev arg) arg.applications) (total : Int) (position : Nat) :
    Spends (op.fold combine total position (Expr.given ev args))
      (args.flatMap Expr.applications) := by
  induction args generalizing total position with
  | nil => exact .lift (.ok total)
  | cons arg args ih =>
    rw [List.forall_mem_cons] at hargs
    refine (hargs.1.bind_free fun v => .lift _).bind fun n => ?_
    exact Spends.bind (.lift _) fun m => ih hargs.2 m (position + 1)

theorem spends_sequence (hargs : ∀ arg ∈ args, Spends (ev arg) arg.applications) (last : Value) :
    Spends (sequence last (Expr.given ev args)) (args.flatMap Expr.applications) := by
  induction args generalizing last with
  | nil => exact .lift (.ok last)
  | cons arg args ih =>
    rw [List.forall_mem_cons] at hargs
    exact hargs.1.bind fun v => ih hargs.2 v

theorem spends_two (hop : op.TakesTwo) (mode : Mode) {a b : Expr}
    (ha : Spends (ev a) a.applications) (hb : Spends (ev b) b.applications) :
    Spends (op.perform mode [⟨a, ev a⟩, ⟨b, ev b⟩]) (a.applications ++ b.applications) := by
  rw [perform_two hop]
  refine (ha.bind_free fun u => .lift _).bind fun u => ?_
  exact (hb.bind_free fun v => .lift _).bind_free fun v => .lift _

/-- Of the two branches at most one is evaluated. -/
theorem spends_branch (mode : Mode) {cond yes : Expr} {rest : List Expr}
    (hcond : Spends (ev cond) cond.applications) (hyes : Spends (ev yes) yes.applications)
    (hrest : ∀ arg ∈ rest, Spends (ev arg) arg.applications) (hlength : rest.length ≤ 1) :
    Spends (perform mode .branch (Expr.given ev (cond :: yes :: rest)))
      (cond.applications ++ (yes.applications ++ rest.flatMap Expr.applications)) := by
  change Spends (perform mode .branch (⟨cond, ev cond⟩ :: ⟨yes, ev yes⟩ :: Expr.given ev rest)) _
  rw [perform_branch mode _ _ (by rwa [Expr.given, List.length_map])]
  refine (hcond.bind_free fun v => .lift _).bind fun holds => ?_
  cases holds with
  | true => exact hyes.imp (List.sublist_append_left _ _)
  | false =>
    cases rest with
    | nil => exact (Spends.lift (.ok Value.nil)).imp (List.nil_sublist _)
    | cons no others =>
      have hno := hrest no List.mem_cons_self
      rw [List.flatMap_cons]
      exact (hno.imp (List.sublist_append_left _ _)).imp (List.sublist_append_right _ _)

theorem spends_global (mode : Mode) {target value : Expr}
    (hvalue : Spends (ev value) value.applications) :
    Spends (perform mode .global [⟨target, ev target⟩, ⟨value, ev value⟩]) value.applications := by
  cases target with
  | symbol x =>
    refine hvalue.bind_free fun v => ?_
    exact (Spends.define mode x v).bind_free fun _ => .lift (.ok Value.nil)
  | literal | compound | foreign =>
    exact (Spends.lift (.error _)).imp (List.nil_sublist _)

/-- An operator other than the loop evaluates no argument twice, and none before an earlier one. -/
theorem spends_perform (mode : Mode) (htakes : op.Takes args) (hloop : op ≠ .loop)
    (hargs : ∀ arg ∈ args, Spends (ev arg) arg.applications) :
    Spends (op.perform mode (Expr.given ev args)) (args.flatMap Expr.applications) := by
  cases htakes with
  | @fold _ start combine hf arg args =>
    change Spends (op.perform mode (⟨arg, ev arg⟩ :: Expr.given ev args)) _
    rw [perform_fold hf]
    exact (spends_fold op combine hargs start 1).bind_free fun n => .lift (.ok (Value.integer n))
  | two hop a b =>
    rw [List.forall_mem_cons, List.forall_mem_singleton] at hargs
    rw [List.flatMap_cons, List.flatMap_singleton]
    exact spends_two hop mode hargs.1 hargs.2
  | not a =>
    rw [List.forall_mem_singleton] at hargs
    rw [List.flatMap_singleton]
    exact (hargs.bind_free fun v => .lift _).bind_free fun b => .lift (.ok (Value.bool !b))
  | print a =>
    rw [List.forall_mem_singleton] at hargs
    rw [List.flatMap_singleton]
    refine hargs.bind_free fun v => Spends.bind_free (.lift v.render) fun text => ?_
    exact (Spends.print _).bind_free fun _ => .lift (.ok Value.nil)
  | branch cond yes hlength =>
    rw [List.forall_mem_cons, List.forall_mem_cons] at hargs
    rw [List.flatMap_cons, List.flatMap_cons]
    exact spends_branch mode hargs.1 hargs.2.1 hargs.2.2 hlength
  | loop cond body => exact absurd rfl hloop
  | block args => exact spends_sequence hargs Value.nil
  | global target value =>
    rw [List.forall_mem_cons, List.forall_mem_singleton] at hargs
    rw [List.flatMap_cons, List.flatMap_singleton]
    exact (spends_global mode hargs.2).imp (List.sublist_append_right _ _)

end Operator

namespace Expr

/-- No compound of the expression is a loop. -/
def LoopFree (e : Expr) : Prop := ∀ n, .applied (Operator.name .loop) n ∉ e.applications

theorem applications_compound (f : String) (args : List Expr) :
    (compound f args).applications = .applied f args.length :: args.flatMap applications := by
  rw [applications, argsApplications_eq_flatMap]

theorem LoopFree.arg {f : String} {args : List Expr} (h : (compound f args).LoopFree) {arg : Expr}
    (ha : arg ∈ args) : arg.LoopFree := by
  intro n hn
  apply h n
  rw [applications_compound]
  exact List.mem_cons_of_mem _ (List.mem_flatMap.mpr ⟨arg, ha, hn⟩)

theorem LoopFree.ne_loop {op : Operator} {args : List Expr} (h : (compound op.name args).LoopFree) :
    op ≠ .loop := by
  rintro rfl
  apply h args.length
  rw [applications_compound]
  exact List.mem_cons_self

/-- Evaluation without loops records some of the applications, in the order written. -/
theorem LoopFree.spends_eval {e : Expr} (he : e.LoopFree) (mode : Mode) (level : Nat) :
    Spends (e.eval mode level) e.applications := by
  induction e generalizing level with
  | literal v => exact .lift (.ok v)
  | symbol x =>
    rw [eval]
    exact .lookup x
  | compound f args ih =>
    have hargs : ∀ arg ∈ args, Spends (arg.eval mode (level + 1)) arg.applications :=
      fun arg ha => ih arg ha (he.arg ha) (level + 1)
    rw [applications_compound, eval]
    split
    case isTrue => exact (Spends.lift (.error _)).imp (List.nil_sublist _)
    case isFalse =>
      cases ho : Operator.ofName? f with
      | none =>
        rw [Operator.find, ho]
        exact (Spends.lift (.error _)).imp (List.nil_sublist _)
      | some op =>
        rw [Operator.find, ho]
        obtain rfl := Operator.ofName?_eq_some_iff.mp ho
        -- the compound itself comes first, and then its arguments
        refine (Spends.record mode _).bind fun _ => ?_
        rw [Operator.apply, length_arguments, arguments_eq_map]
        by_cases hadmits : op.arity.Admits args.length
        · rw [Arity.check_eq_ok_iff.mpr hadmits]
          exact Operator.spends_perform mode (Operator.takes_of_admits hadmits) he.ne_loop hargs
        · rw [Arity.check, if_neg hadmits]
          exact (Spends.lift (.error _)).imp (List.nil_sublist _)
  | foreign stranger => exact .lift (.error _)

end Expr

/-- Only the loop asks how many passes there may be. -/
theorem Operator.perform_withPasses {op : Operator} {args : List Argument} (htakes : op.Takes args)
    (hloop : op ≠ .loop) (mode : Mode) (passes : Nat) :
    op.perform { mode with passes := passes } args = op.perform mode args := by
  cases htakes with
  | fold hf arg args => rw [perform_fold hf, perform_fold hf]
  | two hop a b => rw [perform_two hop, perform_two hop]
  | branch cond yes hlength => rw [perform_branch _ _ _ hlength, perform_branch _ _ _ hlength]
  | loop cond body => exact absurd rfl hloop
  | not | print | block | global => rfl

theorem Expr.LoopFree.eval_withPasses {e : Expr} (he : e.LoopFree) (mode : Mode) (passes : Nat)
    (level : Nat) : e.eval { mode with passes := passes } level = e.eval mode level := by
  induction e generalizing level with
  | literal | symbol | foreign => rw [eval, eval]
  | compound f args ih =>
    have harguments : arguments { mode with passes := passes } (level + 1) args =
        arguments mode (level + 1) args := by
      rw [arguments_eq_map, arguments_eq_map]
      apply List.map_congr_left
      intro arg ha
      rw [ih arg ha (he.arg ha)]
    have happly : ∀ op : Operator, op.name = f →
        op.apply { mode with passes := passes } (arguments mode (level + 1) args) =
          op.apply mode (arguments mode (level + 1) args) := by
      rintro op rfl
      rw [Operator.apply, Operator.apply]
      by_cases hadmits : op.arity.Admits (arguments mode (level + 1) args).length
      · rw [Operator.perform_withPasses (Operator.takes_of_admits hadmits) he.ne_loop]
      · rw [Arity.check, if_neg hadmits]
        rfl
    rw [eval, eval, harguments]
    by_cases hnested : mode.nesting.any (· ≤ level) = true
    · rw [if_pos hnested, if_pos hnested]
      rfl
    · rw [if_neg hnested, if_neg hnested]
      cases ho : Operator.ofName? f with
      | none =>
        rw [Operator.find, ho]
        rfl
      | some op =>
        rw [Operator.find, ho]
        have hop := happly op (Operator.ofName?_eq_some_iff.mp ho)
        exact congrArg (fun next => record mode _ >>= fun _ => next) hop

/-- Without loops evaluation ends, with a value or in an error and in the same way whatever number
of passes a loop may make, and the applications that it records are some of the compounds of the
expression, in the order written; there are no more of them than compounds. -/
theorem loop_free_evaluation_goes_through_once {e : Expr} (he : e.LoopFree) (mode : Mode)
    (level : Nat) (s : State) :
    ∃ (o : Except Error Value) (s' : State) (added : List Record),
      (∀ passes, (e.eval { mode with passes := passes } level).result s =
        (o.mapError .failed, s')) ∧
      s'.trace.toList = s.trace.toList ++ added ∧
      (added.filter Record.isApplied).Sublist e.applications ∧
      (added.filter Record.isApplied).length ≤ e.applications.length := by
  obtain ⟨o, s', added, hr, htrace, hadded⟩ := he.spends_eval mode level s
  refine ⟨o, s', added, ?_, htrace, hadded, hadded.length_le⟩
  intro passes
  rw [← hr, he.eval_withPasses mode passes level]

/-- The branch not taken and what stands after an error are left out; the rest is applied once, in
the order written. -/
theorem untaken_branch_not_applied :
    let e : Expr := .compound "block" [
      .compound "if" [.compound "<" [.literal (.integer 1), .literal (.integer 2)],
        .compound "global" [.symbol "x", .compound "*" [.literal (.integer 2)]],
        .compound "print" [.literal .nil]],
      .compound "-" [.compound "not" [.literal (.bool true)], .symbol "x"],
      .compound "print" [.symbol "x"]]
    let s : State := ⟨Env.empty, "", #[]⟩
    let records : List Record := [.applied "block" 3, .applied "if" 3, .applied "<" 2,
      .applied "global" 2, .applied "*" 1, .applied "-" 2, .applied "not" 1]
    (∀ passes, ((e.eval ⟨true, passes, none, none⟩ 0).result s).1 =
      .error (.failed (.kind "-" 1 (.value .integer) (.value .bool)))) ∧
    ((e.eval ⟨true, 0, none, none⟩ 0).result s).2.trace.toList.filter Record.isApplied = records ∧
    records.Sublist e.applications ∧ e.applications.length = 9 := by
  intro e s records
  have he : e.LoopFree := by
    intro n hn
    simp [e, Expr.applications, Expr.argsApplications, Operator.name] at hn
  obtain ⟨o, s', added, hresult, htrace, hadded, -⟩ :=
    loop_free_evaluation_goes_through_once he ⟨true, 0, none, none⟩ 0 s
  have hstate : ((e.eval ⟨true, 0, none, none⟩ 0).result s).2 = s' := congrArg Prod.snd (hresult 0)
  have hrecords : ((e.eval ⟨true, 0, none, none⟩ 0).result s).2.trace.toList.filter
      Record.isApplied = records := rfl
  refine ⟨fun passes => ?_, hrecords, ?_, rfl⟩
  · rw [hresult passes, ← hresult 0]
    rfl
  · rw [← hrecords, hstate, htrace]
    exact hadded

end Lisplet
