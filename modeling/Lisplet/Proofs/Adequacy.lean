import Lisplet.Proofs.Soundness
import Mathlib.Order.Filter.AtTopBot.Basic

/-!
# Evaluation and the rules agree

What the rules derive, evaluation does once its loops are allowed enough passes. How many that is
depends on the derivation, so the statement carried through the rules is about all large numbers of
passes. Together with soundness, evaluation finishes in some way exactly if the rules derive it.
-/

namespace Lisplet

open Run Filter

namespace Operator

variable {a b : Argument} {op : Operator} {w w₁ w₂ : World} {o o' : Except Error Value}

theorem yields_operand {position : Nat} {r : Except Error Value} (ha : Yields a.eval w o w₁)
    (hc : Checked op position o r) : Yields (a.operand op position) w r w₁ := by
  have h := ha.convert (op.examine position)
  rwa [hc.bind_examine] at h

/-- What fails, or fails its check, fails where it is converted. -/
theorem yields_converted_error {α : Type} {f : Value → Except Error α} {toValue : α → Value}
    {position : Nat} {cause : Error} (hf : ∀ v, op.examine position v = (f v).map toValue)
    {run : Run Value} (h : Yields run w o w₁) (hc : Checked op position o (.error cause)) :
    Yields (run >>= fun v => lift (f v)) w (.error cause) w₁ := by
  have hr : o.bind f = .error cause := by
    have hexamine := hc.bind_examine
    cases o with
    | error cause' => cases hexamine; rfl
    | ok v =>
      change op.examine position v = _ at hexamine
      rw [hf] at hexamine
      change f v = _
      cases hv : f v with
      | error cause' => rw [hv] at hexamine; cases hexamine; rfl
      | ok x => rw [hv] at hexamine; cases hexamine
  rw [← hr]
  exact h.convert f

theorem yields_first_ends (hop : op.TakesTwo) {cause : Error} (ha : Yields a.eval w o w₁)
    (hc : Checked op 1 o (.error cause)) (mode : Mode) :
    Yields (op.perform mode [a, b]) w (.error cause) w₁ := by
  rw [perform_two hop]
  exact (yields_operand ha hc).bind_error _

theorem yields_second_ends (hop : op.TakesTwo) {u : Value} {cause : Error}
    (ha : Yields a.eval w o w₁) (hca : Checked op 1 o (.ok u)) (hb : Yields b.eval w₁ o' w₂)
    (hcb : Checked op 2 o' (.error cause)) (mode : Mode) :
    Yields (op.perform mode [a, b]) w (.error cause) w₂ := by
  rw [perform_two hop]
  exact (yields_operand ha hca).bind ((yields_operand hb hcb).bind_error _)

theorem yields_operands (hop : op.TakesTwo) {u v : Value} (ha : Yields a.eval w o w₁)
    (hca : Checked op 1 o (.ok u)) (hb : Yields b.eval w₁ o' w₂) (hcb : Checked op 2 o' (.ok v))
    (mode : Mode) : Yields (op.perform mode [a, b]) w (op.outcome u v) w₂ := by
  rw [perform_two hop]
  exact (yields_operand ha hca).bind ((yields_operand hb hcb).bind (.lift _ w₂))

theorem yields_integer {n : Int} {position : Nat}
    (ha : Yields a.eval w (.ok (.integer n)) w₁) : Yields (a.integer op position) w (.ok n) w₁ :=
  ha.convert fun v => v.toInteger op.name position

theorem yields_condition {b : Bool} {position : Nat}
    (ha : Yields a.eval w (.ok (.bool b)) w₁) : Yields (a.bool op position) w (.ok b) w₁ :=
  ha.convert fun v => v.toBool op.name position

theorem yields_condition_ends {position : Nat} {cause : Error}
    (hd : op.demands position = some .bool) (ha : Yields a.eval w o w₁)
    (hc : Checked op position o (.error cause)) :
    Yields (a.bool op position) w (.error cause) w₁ :=
  yields_converted_error (op.examine_bool hd) ha hc

section Terms

variable {start total : Int} {combine : Int → Int → Int} {position : Nat} {args : List Argument}

theorem yields_term_ends {cause : Error} (hf : op.Folds start combine)
    (ha : Yields a.eval w o w₁) (hc : Checked op position o (.error cause)) :
    Yields (op.fold combine total position (a :: args) >>= fun n => pure (Value.integer n)) w
      (.error cause) w₁ := by
  have hends : Yields (a.integer op position) w (.error cause) w₁ :=
    yields_converted_error (op.examine_integer (hf.demands_integer position)) ha hc
  rw [fold, bind_assoc]
  exact hends.bind_error _

theorem yields_term_overflows {n : Int} (hf : op.Folds start combine) (ht : Fits total)
    (hn : Fits n) (ha : Yields a.eval w (.ok (.integer n)) w₁) (hover : ¬Fits (combine total n)) :
    Yields (op.fold combine total position (a :: args) >>= fun n => pure (Value.integer n)) w
      (.error (.overflow op.name (combine total n))) w₁ := by
  rw [fold, bind_assoc]
  refine (yields_integer ha).bind ?_
  rw [hf.checkedInteger_of_not_fits ht hn hover]
  exact .fail _ w₁

theorem yields_term_adds {n : Int} (ha : Yields a.eval w (.ok (.integer n)) w₁)
    (hfits : Fits (combine total n))
    (hrest : Yields (op.fold combine (combine total n) (position + 1) args >>=
      fun n => pure (Value.integer n)) w₁ o w₂) :
    Yields (op.fold combine total position (a :: args) >>= fun n => pure (Value.integer n)) w o
      w₂ := by
  rw [fold, bind_assoc]
  refine (yields_integer ha).bind ?_
  rw [checkedInteger_eq_ok_iff.mpr ⟨rfl, hfits⟩]
  exact hrest

end Terms

section Loops

variable {cond body : Argument} {count : Nat}

theorem yields_loop_ends {cause : Error} (hc : Yields cond.eval w o w₁)
    (hk : Checked .loop 1 o (.error cause)) :
    Yields (looping cond body count) w (.error cause) w₁ := by
  rw [looping_eq]
  exact (yields_condition_ends rfl hc hk).bind_error _

theorem yields_loop_done (hc : Yields cond.eval w (.ok (.bool false)) w₁) :
    Yields (looping cond body count) w (.ok .nil) w₁ := by
  rw [looping_eq]
  exact (yields_condition hc).bind (.pure _ w₁)

theorem yields_loop_fails {cause : Error} (hc : Yields cond.eval w (.ok (.bool true)) w₁)
    (hb : Yields body.eval w₁ (.error cause) w₂) :
    Yields (looping cond body (count + 1)) w (.error cause) w₂ := by
  rw [looping_eq]
  exact (yields_condition hc).bind (hb.bind_error _)

theorem yields_loop_again {v : Value} {w₃ : World}
    (hc : Yields cond.eval w (.ok (.bool true)) w₁) (hb : Yields body.eval w₁ (.ok v) w₂)
    (hr : Yields (looping cond body count) w₂ o w₃) :
    Yields (looping cond body (count + 1)) w o w₃ := by
  rw [looping_eq]
  exact (yields_condition hc).bind (hb.bind hr)

end Loops

theorem yields_branch_ends {cond yes : Argument} {rest : List Argument}
    (hrest : rest.length ≤ 1) {cause : Error} (hc : Yields cond.eval w o w₁)
    (hk : Checked .branch 1 o (.error cause)) (mode : Mode) :
    Yields (perform mode .branch (cond :: yes :: rest)) w (.error cause) w₁ := by
  rw [perform_branch mode cond yes hrest]
  exact (yields_condition_ends rfl hc hk).bind_error _

theorem yields_branch_yes {cond yes : Argument} {rest : List Argument} (hrest : rest.length ≤ 1)
    (hc : Yields cond.eval w (.ok (.bool true)) w₁) (hy : Yields yes.eval w₁ o w₂) (mode : Mode) :
    Yields (perform mode .branch (cond :: yes :: rest)) w o w₂ := by
  rw [perform_branch mode cond yes hrest]
  refine (yields_condition hc).bind ?_
  exact hy

end Operator

namespace Task

/-- There is room for every compound of the task, which stands at this level. -/
def Carried (mode : Mode) (level : Nat) : Task → Prop
  | .expr e => mode.Carries level e
  | .terms _ _ _ args | .sequence _ args => ∀ arg ∈ args, mode.Carries level arg
  | .loop cond body => mode.Carries level cond ∧ mode.Carries level body

/-- With enough passes the code for a task yields the outcome. A loop that has begun needs some
passes for itself, apart from those that loops inside it need. -/
def Completes (mode : Mode) (level : Nat) : Task → World → Except Error Value → World → Prop
  | .expr e, w, o, w' =>
    ∀ᶠ passes in atTop, Yields (e.eval { mode with passes := passes } level) w o w'
  | .terms op total position args, w, o, w' =>
    ∀ start combine, op.Folds start combine → ∀ᶠ passes in atTop,
      Yields
        (op.fold combine total position
            (Expr.arguments { mode with passes := passes } level args) >>=
          fun n => pure (.integer n)) w o w'
  | .sequence last args, w, o, w' =>
    ∀ᶠ passes in atTop,
      Yields (Operator.sequence last
        (Expr.arguments { mode with passes := passes } level args)) w o w'
  | .loop cond body, w, o, w' =>
    ∃ least, ∀ᶠ passes in atTop, ∀ count ≥ least,
      Yields (Operator.looping ⟨cond, cond.eval { mode with passes := passes } level⟩
        ⟨body, body.eval { mode with passes := passes } level⟩ count) w o w'

end Task

section Completeness

variable {mode : Mode} {level : Nat} {w w' : World} {o : Except Error Value}

theorem Mode.Carries.withPasses {e : Expr} (h : mode.Carries level e) (passes : Nat) :
    { mode with passes := passes }.Carries level e := h

theorem completes_of_perform {op : Operator} {args : List Expr}
    (hc : mode.Carries level (.compound op.name args)) (htakes : op.Takes args)
    (h : ∀ᶠ passes in atTop,
      Yields (op.perform { mode with passes := passes }
        (Expr.arguments { mode with passes := passes } (level + 1) args)) w o w') :
    (Task.expr (.compound op.name args)).Completes mode level w o w' := by
  filter_upwards [h] with passes hp
  exact Expr.yields_of_perform op (hc.withPasses passes) htakes hp

theorem completes_of_yields {e : Expr}
    (h : ∀ passes, Yields (e.eval { mode with passes := passes } level) w o w') :
    (Task.expr e).Completes mode level w o w' :=
  Eventually.of_forall h

end Completeness

/-- What the rules derive, the code does with enough passes. -/
theorem Evaluates.completes {mode : Mode} {task : Task} {w w' : World} {o : Except Error Value}
    (h : Evaluates task w o w') (level : Nat) (ht : task.Proper) (hc : task.Carried mode level)
    (hw : w.env.Proper) : task.Completes mode level w o w' := by
  -- what is evaluated second starts in the world that the first has left, which is proper because
  -- the rules keep to proper values
  induction h generalizing level with
  | literal v w => exact completes_of_yields fun _ => .pure v w
  | bound hx => exact completes_of_yields fun _ => .lookup hx
  | unbound hx => exact completes_of_yields fun _ => .lookup_unbound hx
  | unknown hf => exact completes_of_yields fun _ => Expr.yields_unknown (hc.withPasses _) hf _
  | arity ha => exact completes_of_yields fun _ => Expr.yields_arity (hc.withPasses _) ha _
  | fold hf hterms ih =>
    refine completes_of_perform hc (.fold hf _ _) ?_
    filter_upwards [ih (level + 1) ⟨hf.fits_start, ht⟩ (fun _ => Expr.carries_arg hc) hw _ _ hf]
      with passes hp
    rw [Expr.arguments, Operator.perform_fold hf]
    exact hp
  | termsDone op total position w =>
    intro start combine _
    exact Eventually.of_forall fun _ => .pure _ w
  | termEnds ha hk ih =>
    intro start combine hf
    filter_upwards [ih level ht.2.1 (hc _ List.mem_cons_self) hw] with passes hp
    exact Operator.yields_term_ends hf hp hk
  | termOverflows hf ha hn ih =>
    intro start combine hf'
    obtain ⟨rfl, rfl⟩ := hf.unique hf'
    have hn' := (ha.proper ht.2.1 hw).1
    filter_upwards [ih level ht.2.1 (hc _ List.mem_cons_self) hw] with passes hp
    exact Operator.yields_term_overflows hf ht.1 hn' hp hn
  | termAdds hf ha hn hr iha ihr =>
    intro start combine hf'
    obtain ⟨rfl, rfl⟩ := hf.unique hf'
    have hw₁ := (ha.proper ht.2.1 hw).2
    have hrest : ∀ arg ∈ _, _ := fun arg h => hc arg (List.mem_cons_of_mem _ h)
    filter_upwards [iha level ht.2.1 (hc _ List.mem_cons_self) hw,
      ihr level ⟨hn, ht.2.2⟩ hrest hw₁ _ _ hf] with passes hpa hpr
    exact Operator.yields_term_adds hpa hn hpr
  | firstEnds hop ha hk ih =>
    refine completes_of_perform hc (.two hop _ _) ?_
    filter_upwards [ih (level + 1) ht.1 (Expr.carries_arg hc (by simp)) hw] with passes hp
    exact Operator.yields_first_ends hop hp hk _
  | secondEnds hop ha hka hb hkb iha ihb =>
    have hw₁ := (ha.proper ht.1 hw).2
    refine completes_of_perform hc (.two hop _ _) ?_
    filter_upwards [iha (level + 1) ht.1 (Expr.carries_arg hc (by simp)) hw,
      ihb (level + 1) ht.2.1 (Expr.carries_arg hc (by simp)) hw₁] with passes hpa hpb
    exact Operator.yields_second_ends hop hpa hka hpb hkb _
  | operands ha hka hb hkb hr iha ihb =>
    obtain ⟨ho, hw₁⟩ := ha.proper ht.1 hw
    obtain ⟨ho', -⟩ := hb.proper ht.2.1 hw₁
    have hop := hr.takesTwo
    refine completes_of_perform hc (.two hop _ _) ?_
    filter_upwards [iha (level + 1) ht.1 (Expr.carries_arg hc (by simp)) hw,
      ihb (level + 1) ht.2.1 (Expr.carries_arg hc (by simp)) hw₁] with passes hpa hpb
    rw [← hr.outcome_eq (hka.proper ho) (hkb.proper ho')]
    exact Operator.yields_operands hop hpa hka hpb hkb _
  | negationEnds ha hk ih =>
    refine completes_of_perform hc (.not _) ?_
    filter_upwards [ih (level + 1) ht.1 (Expr.carries_arg hc (by simp)) hw] with passes hp
    exact (Operator.yields_condition_ends rfl hp hk).bind_error _
  | negation ha ih =>
    refine completes_of_perform hc (.not _) ?_
    filter_upwards [ih (level + 1) ht.1 (Expr.carries_arg hc (by simp)) hw] with passes hp
    exact (Operator.yields_condition hp).bind (.pure _ _)
  | printFails ha ih =>
    refine completes_of_perform hc (.print _) ?_
    filter_upwards [ih (level + 1) ht.1 (Expr.carries_arg hc (by simp)) hw] with passes hp
    exact hp.bind_error _
  | print ha hv ih =>
    refine completes_of_perform hc (.print _) ?_
    filter_upwards [ih (level + 1) ht.1 (Expr.carries_arg hc (by simp)) hw] with passes hp
    refine hp.bind ?_
    rw [hv]
    exact (Yields.print _ _).bind_pure fun _ => Value.nil
  | branchEnds hrest ha hk ih =>
    refine completes_of_perform hc (.branch _ _ hrest) ?_
    filter_upwards [ih (level + 1) ht.1 (Expr.carries_arg hc (by simp)) hw] with passes hp
    exact Operator.yields_branch_ends (by rwa [Expr.length_arguments]) hp hk _
  | branchYes hrest ha hy iha ihy =>
    have hw₁ := (ha.proper ht.1 hw).2
    refine completes_of_perform hc (.branch _ _ hrest) ?_
    filter_upwards [iha (level + 1) ht.1 (Expr.carries_arg hc (by simp)) hw,
      ihy (level + 1) ht.2.1 (Expr.carries_arg hc (by simp)) hw₁] with passes hpa hpy
    exact Operator.yields_branch_yes (by rwa [Expr.length_arguments]) hpa hpy _
  | branchNo ha hn iha ihn =>
    have hw₁ := (ha.proper ht.1 hw).2
    refine completes_of_perform hc (.branch _ _ (Nat.le_refl 1)) ?_
    filter_upwards [iha (level + 1) ht.1 (Expr.carries_arg hc (by simp)) hw,
      ihn (level + 1) ht.2.2.1 (Expr.carries_arg hc (by simp)) hw₁] with passes hpa hpn
    refine (Operator.yields_condition hpa).bind ?_
    exact hpn
  | branchNone ha ih =>
    refine completes_of_perform hc (.branch _ _ (Nat.zero_le 1)) ?_
    filter_upwards [ih (level + 1) ht.1 (Expr.carries_arg hc (by simp)) hw] with passes hp
    exact (Operator.yields_condition hp).bind (.pure _ _)
  | loop hl ih =>
    obtain ⟨least, hleast⟩ := ih (level + 1) ⟨ht.1, ht.2.1⟩
      ⟨Expr.carries_arg hc (by simp), Expr.carries_arg hc (by simp)⟩ hw
    refine completes_of_perform hc (.loop _ _) ?_
    filter_upwards [hleast, eventually_ge_atTop least] with passes hp hge
    exact hp passes hge
  | loopEnds ha hk ih =>
    refine ⟨0, ?_⟩
    filter_upwards [ih level ht.1 hc.1 hw] with passes hp count _
    exact Operator.yields_loop_ends hp hk
  | loopDone ha ih =>
    refine ⟨0, ?_⟩
    filter_upwards [ih level ht.1 hc.1 hw] with passes hp count _
    exact Operator.yields_loop_done hp
  | loopFails ha hb iha ihb =>
    have hw₁ := (ha.proper ht.1 hw).2
    refine ⟨1, ?_⟩
    filter_upwards [iha level ht.1 hc.1 hw, ihb level ht.2 hc.2 hw₁] with passes hpa hpb count hge
    obtain ⟨count, rfl⟩ := Nat.exists_eq_add_of_le' hge
    exact Operator.yields_loop_fails hpa hpb
  | loopAgain ha hb hr iha ihb ihr =>
    have hw₁ := (ha.proper ht.1 hw).2
    have hw₂ := (hb.proper ht.2 hw₁).2
    obtain ⟨least, hleast⟩ := ihr level ht hc hw₂
    refine ⟨least + 1, ?_⟩
    filter_upwards [iha level ht.1 hc.1 hw, ihb level ht.2 hc.2 hw₁, hleast]
      with passes hpa hpb hpr count hge
    obtain ⟨count, rfl⟩ := Nat.exists_eq_add_of_le' hge
    exact Operator.yields_loop_again hpa hpb (hpr _ (Nat.le_add_left least count))
  | block hs ih =>
    refine completes_of_perform hc (.block _) ?_
    exact ih (level + 1) ⟨trivial, ht⟩ (fun _ => Expr.carries_arg hc) hw
  | sequenceDone last w => exact Eventually.of_forall fun _ => .pure last w
  | sequenceFails ha ih =>
    filter_upwards [ih level ht.2.1 (hc _ List.mem_cons_self) hw] with passes hp
    exact hp.bind_error _
  | sequenceNext ha hr iha ihr =>
    obtain ⟨hv, hw₁⟩ := ha.proper ht.2.1 hw
    have hrest : ∀ arg ∈ _, _ := fun arg h => hc arg (List.mem_cons_of_mem _ h)
    filter_upwards [iha level ht.2.1 (hc _ List.mem_cons_self) hw,
      ihr level ⟨hv, ht.2.2⟩ hrest hw₁] with passes hpa hpr
    exact hpa.bind hpr
  | globalLiteral hv =>
    refine completes_of_perform hc (.global _ _)
      (Eventually.of_forall fun passes => ?_)
    rw [← Value.mismatch_of_kind? hv]
    exact .fail _ _
  | globalCompound =>
    refine completes_of_perform hc (.global _ _)
      (Eventually.of_forall fun passes => ?_)
    exact .fail _ _
  | globalFails ha ih =>
    refine completes_of_perform hc (.global _ _) ?_
    filter_upwards [ih (level + 1) ht.2.1 (Expr.carries_arg hc (by simp)) hw] with passes hp
    exact hp.bind_error _
  | global ha ih =>
    have hv := (ha.proper ht.2.1 hw).1
    refine completes_of_perform hc (.global _ _) ?_
    filter_upwards [ih (level + 1) ht.2.1 (Expr.carries_arg hc (by simp)) hw] with passes hp
    exact hp.bind ((Yields.define hv _ _ _).bind_pure fun _ => Value.nil)

/-- Allowed these passes, the expression finishes from the state with the outcome and leaves the
world. -/
def Expr.Finishes (mode : Mode) (level passes : Nat) (e : Expr) (s : State)
    (o : Except Error Value) (w : World) : Prop :=
  ∃ s', (e.eval { mode with passes := passes } level).result s = (o.mapError .failed, s') ∧
    s'.world = w

/-- Evaluation finishes with an outcome in a world exactly if the rules derive these, and then it
does so with any number of passes from some number on. -/
theorem evaluation_follows_rules (mode : Mode) (level : Nat) {e : Expr} (he : e.Proper)
    (hc : mode.Carries level e) {s : State} (hs : s.env.Proper) (o : Except Error Value)
    (w : World) :
    ((∃ passes, e.Finishes mode level passes s o w) ↔ Evaluates (.expr e) s.world o w) ∧
    (Evaluates (.expr e) s.world o w →
      ∃ least, ∀ passes ≥ least, e.Finishes mode level passes s o w) := by
  have hcomplete : Evaluates (.expr e) s.world o w →
      ∃ least, ∀ passes ≥ least, e.Finishes mode level passes s o w := by
    intro h
    obtain ⟨least, hleast⟩ := eventually_atTop.mp (h.completes level he hc hs)
    exact ⟨least, fun passes hge => hleast passes hge s rfl⟩
  refine ⟨⟨?_, ?_⟩, hcomplete⟩
  · rintro ⟨passes, s', hr, rfl⟩
    exact Expr.eval_sound e he (hc.withPasses passes) hs s o s' rfl hr
  · intro h
    obtain ⟨least, hleast⟩ := hcomplete h
    exact ⟨least, hleast least (Nat.le_refl least)⟩

/-- The first operand of `and` prints the number that the loop has counted to and is refused; the
second one is not evaluated, so the binding stays. -/
theorem refusal_keeps_effects :
    Evaluates
      (.expr (.compound "block" [
        .compound "while" [.compound "<" [.symbol "x", .literal (.integer 2)],
          .compound "global" [.symbol "x", .compound "+" [.symbol "x", .literal (.integer 1)]]],
        .compound "and" [.compound "print" [.symbol "x"],
          .compound "global" [.symbol "x", .literal (.bool true)]]]))
      ⟨Env.ofList [("x", .integer 0)], ""⟩
      (.error (.kind "and" 1 (.value .bool) (.value .nil)))
      ⟨Env.ofList [("x", .integer 2)], "2\n"⟩ := by
  refine (evaluation_follows_rules ⟨false, 0, some 4, none⟩ 0 ?_ ?_
    (s := ⟨Env.ofList [("x", .integer 0)], "", #[]⟩) ?_ _ _).1.mp
      ⟨2, ⟨Env.ofList [("x", .integer 2)], "2\n", #[]⟩, rfl, rfl⟩
  · simp only [Expr.Proper, Expr.AllProper, Value.Proper]
    decide
  · intro bound hb
    cases hb
    decide
  · unfold Env.Proper
    decide

end Lisplet
