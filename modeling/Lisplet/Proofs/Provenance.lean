import Lisplet.Proofs.Frame

/-!
# Where complaints come from

When evaluation fails, its complaint stems from a place of the expression; what is known of each
place is said by `Blames`. Of a name that is not bound more can be said. It is looked up in the
state in which evaluation stops, since an error ends everything around it at once, and so it is
still not bound then (`Run.LeavesUnbound`). And since no binding is ever lost, it was not bound at
the start either.
-/

namespace Lisplet

namespace Run

variable {α β : Type}

/-- If the run fails for a name that is not bound, it leaves the name not bound. -/
def LeavesUnbound (run : Run α) : Prop :=
  ∀ (s s' : State) (x : String), run.result s = (.error (.failed (.unboundSymbol x)), s') →
    s'.env.get? x = none

namespace LeavesUnbound

variable {run : Run α} {next : α → Run β}

theorem bind (h : LeavesUnbound run) (hnext : ∀ a, LeavesUnbound (next a)) :
    LeavesUnbound (run >>= next) := by
  intro s s' x hr
  rw [result_bind] at hr
  rcases hrun : run.result s with ⟨halt | a, s₁⟩
  · rw [hrun] at hr
    cases hr
    exact h s s' x hrun
  · rw [hrun] at hr
    exact hnext a s₁ s' x hr

/-- A run that fails for other causes only. -/
theorem of_result (h : ∀ s x, (run.result s).1 ≠ .error (.failed (.unboundSymbol x))) :
    LeavesUnbound run := by
  intro s s' x hr
  exact absurd (congrArg Prod.fst hr) (h s x)

theorem lookup (name : String) : LeavesUnbound (lookup name) := by
  intro s s' x hr
  rw [result_lookup] at hr
  split at hr
  case h_1 => cases hr
  case h_2 hunbound =>
    cases hr
    exact hunbound

theorem define (mode : Mode) (name : String) (value : Value) :
    LeavesUnbound (define mode name value) := by
  refine of_result fun s x hr => ?_
  obtain hdone | ⟨cause, hv, hrefused⟩ := result_define_cases mode name value
  · obtain ⟨trace, hdone⟩ := hdone s
    rw [hdone] at hr
    cases hr
  · rw [hrefused] at hr
    cases hr
    cases Error.refused_of_render hv

end LeavesUnbound

/-- That a missing name stays missing is inherited. -/
theorem inherited_leavesUnbound (mode : Mode) :
    Inherited mode (fun cause => ∀ x, cause ≠ .unboundSymbol x) LeavesUnbound where
  refused h := by
    rintro x rfl
    cases h
  pure a := .of_result (by simp)
  fail hcause := .of_result fun _ x => by simpa using hcause x
  exhausted := .of_result (by simp)
  bind h hnext := h.bind hnext
  lookup name := .lookup name
  define name value := .define mode name value
  print text := .of_result (by simp)
  record r := .of_result (by simp [result_record])

end Run

section Missing

variable {mode : Mode} {level : Nat} {e : Expr} {s s' : State} {x : String}

theorem get?_after_unbound (he : e.Proper)
    (h : (e.eval mode level).result s = (.error (.failed (.unboundSymbol x)), s')) :
    s'.env.get? x = none :=
  (Run.inherited_leavesUnbound mode).eval (by simp) e he level s s' x h

/-- A name that is not bound in the end was not bound at the start. -/
theorem get?_before_of_get?_after {r : Except Halt Value}
    (h : (e.eval mode level).result s = (r, s')) (hx : s'.env.get? x = none) :
    s.env.get? x = none := by
  have hdone := e.done_eval mode level s
  rw [h] at hdone
  by_contra hbound
  have hkept := Env.isSome_get?_defineAll (Option.isSome_iff_ne_none.mpr hbound)
    ((e.deeds mode level s).filterMap Deed.bound?)
  rw [← hdone.env, hx] at hkept
  cases hkept

end Missing

theorem Operator.kind_of_demands {op : Operator} {position : Nat} {kind : Kind}
    (h : op.demands position = some kind) : kind = .integer ∨ kind = .bool := by
  unfold demands at h
  split at h <;> simp_all

theorem Error.message_overflow (f : String) (n : Int) :
    (Error.overflow f n).message = f ++ (": integer overflow (" ++ (n.repr ++ ")")) := by
  change f ++ ": integer overflow (" ++ n.repr ++ ")" = _
  rw [String.append_assoc, String.append_assoc]

/-- If evaluation fails, then for a reason that lies in the expression. A name that is not bound
stands in it as a symbol, and it is bound neither before nor after; an operator that is not known is
the operator of a compound in it; so is the operator that complains about the number of its
arguments, which the compound has and which is not admitted, or about the kind of an argument that
the compound has, which needs another kind there; and so is the operator whose result does not fit
or that would divide by zero. What an argument must be is an integer or a truth value, or for
`global` a name. Complaints about arithmetic begin with the name of the operator. -/
theorem complaints_stem_from_expression (mode : Mode) (level : Nat) {e : Expr} (he : e.Proper)
    {s s' : State} (hs : s.env.Proper) {cause : Error}
    (h : (e.eval mode level).result s = (.error (.failed cause), s')) :
    Blames (· ∈ e.nodes) (fun x => s.env.get? x = none ∧ s'.env.get? x = none) cause ∧
    (∀ f position expected actual, cause = .kind f position expected actual →
      expected = .value .integer ∨ expected = .value .bool ∨
        f = Operator.name .global ∧ expected = .symbol) ∧
    (∀ f, (∃ n, cause = .overflow f n) ∨ cause = .divisionByZero f →
      ∃ rest, cause.message = f ++ rest) := by
  have hcoupled := blames_eval (Eq.refl mode.passes) rfl he level s s ⟨rfl, hs⟩
  have hblames := hcoupled.cause cause (by rw [h])
  refine ⟨hblames.imp ?_, ?_, ?_⟩
  · rintro x rfl
    have hafter := get?_after_unbound he h
    exact ⟨get?_before_of_get?_after h hafter, hafter⟩
  · rintro f position expected actual rfl
    cases hblames with
    | kind _ _ hd _ =>
      obtain rfl | rfl := Operator.kind_of_demands hd
      · exact .inl rfl
      · exact .inr (.inl rfl)
    | notAName => exact .inr (.inr ⟨rfl, rfl⟩)
  · rintro f (⟨n, rfl⟩ | rfl)
    · exact ⟨_, Error.message_overflow f n⟩
    · exact ⟨": division by zero", rfl⟩

/-- The block binds `x` before it looks for `y`, which nothing binds. -/
theorem missing_name_blamed_behind_binding :
    let e : Expr := .compound "block" [
      .compound "global" [.symbol "x", .literal (.integer 1)],
      .compound "+" [.symbol "x", .symbol "y"]]
    let s : State := ⟨Env.ofList [("z", .nil)], "", #[]⟩
    ∃ s', (e.eval ⟨false, 0, none, none⟩ 0).result s = (.error (.failed (.unboundSymbol "y")), s') ∧
      Blames (· ∈ e.nodes) (fun x => s.env.get? x = none ∧ s'.env.get? x = none)
        (.unboundSymbol "y") := by
  intro e s
  have he : e.Proper := by
    simp only [e, Expr.Proper, Expr.AllProper, Value.Proper]
    decide
  have hs : s.env.Proper := by
    unfold Env.Proper
    decide
  exact ⟨_, rfl, (complaints_stem_from_expression ⟨false, 0, none, none⟩ 0 he hs rfl).1⟩

end Lisplet
