import Lisplet.Proofs.Outcome
import Mathlib.Data.List.Basic

/-!
# The operators seen from their operands

The eight operators of two operands take them in one way: each is evaluated and its kind checked,
and what is then made of the two needs no state. `Operator.outcome` is that last step, which the
rules write as `Operator.Combines`; the two agree on values of the language. A wider result than
can be shown does not arise from operands that fit.

`Operator.Takes` lists the operators with the arguments that they take, so that a statement about
all operators has a case for each way of taking arguments. The `perform_` lemmas and `looping_eq`
give the runs of these cases.
-/

namespace Lisplet

namespace Value

theorem mismatch_of_kind? {v : Value} {actual : Kind} (hv : v.kind? = some actual)
    (operator : String) (position : Int) (expected : Shape) :
    v.mismatch operator position expected = .kind operator position expected (.value actual) := by
  rw [mismatch, kind_eq_ok_iff.mpr hv]

theorem eq_integer_of_kind? {v : Value} (h : v.kind? = some .integer) : ∃ n, v = .integer n := by
  cases v <;> simp_all [kind?]

theorem eq_bool_of_kind? {v : Value} (h : v.kind? = some .bool) : ∃ b, v = .bool b := by
  cases v <;> simp_all [kind?]

end Value

/-- Two integers of the language, combined by one operation, have a result that can be shown. -/
theorem natAbs_lt_showable {n : Int} (hn : n.natAbs ≤ 2147483648 * 2147483648) :
    n.natAbs < Nat.pow 10 Text.maxDigits := by
  -- the exponent stays a variable, or the power would be computed
  have hpow : ∀ k, 19 ≤ k → Nat.pow 10 19 ≤ Nat.pow 10 k :=
    fun k hk => Nat.pow_le_pow_right (by decide) hk
  calc n.natAbs ≤ 2147483648 * 2147483648 := hn
    _ < Nat.pow 10 19 := by decide
    _ ≤ Nat.pow 10 Text.maxDigits := hpow _ (by decide)

theorem natAbs_le_of_fits {n : Int} (hn : Fits n) : n.natAbs ≤ 2147483648 := by
  obtain ⟨hl, hr⟩ := hn
  omega

namespace Operator

/-- An argument after its kind has been checked. -/
def examine (op : Operator) (position : Nat) (v : Value) : Except Error Value :=
  match op.demands position with
  | none => .ok v
  | some kind =>
    if v.kind? = some kind then .ok v else .error (v.mismatch op.name position (.value kind))

theorem checked_of_examine (op : Operator) (position : Nat) {v : Value} (hv : v.Proper) :
    Checked op position (.ok v) (op.examine position v) := by
  obtain ⟨actual, hactual⟩ := Option.isSome_iff_exists.mp hv.kind?_isSome
  unfold examine
  split
  case h_1 hd =>
    refine .admitted fun kind hk => ?_
    rw [hd] at hk
    cases hk
  case h_2 kind hd =>
    split
    case isTrue hk =>
      refine .admitted fun kind' hk' => ?_
      rw [← hd, hk'] at hk
      exact hk
    case isFalse hk =>
      rw [Value.mismatch_of_kind? hactual]
      exact .refused hd hactual fun he => hk (by rw [hactual, he])

theorem Checked.bind_examine {op : Operator} {position : Nat} {o r : Except Error Value}
    (hc : Checked op position o r) : o.bind (op.examine position) = r := by
  cases hc with
  | failed cause => rfl
  | @admitted v hk =>
    change op.examine position v = _
    unfold examine
    split
    case h_1 => rfl
    case h_2 kind hd => rw [if_pos (hk kind hd)]
  | @refused v kind actual hd hv hne =>
    have hk : v.kind? ≠ some kind := by
      rw [hv]
      exact fun he => hne (Option.some.inj he)
    change op.examine position v = _
    rw [examine, hd]
    change (if _ then _ else _) = _
    rw [if_neg hk, Value.mismatch_of_kind? hv]

/-- Evaluating an argument and checking it is what the rules say, for a value of the language. -/
theorem checked_bind_examine (op : Operator) (position : Nat) {o : Except Error Value}
    (ho : ProperOutcome o) : Checked op position o (o.bind (op.examine position)) := by
  cases o with
  | error cause => exact .failed cause
  | ok v => exact op.checked_of_examine position ho

/-- Where an integer is needed, the check and the conversion are one. -/
theorem examine_integer {op : Operator} {position : Nat}
    (hd : op.demands position = some .integer) (v : Value) :
    op.examine position v = (v.toInteger op.name position).map .integer := by
  rw [examine, hd]
  cases v <;> rfl

theorem examine_bool {op : Operator} {position : Nat} (hd : op.demands position = some .bool)
    (v : Value) : op.examine position v = (v.toBool op.name position).map .bool := by
  rw [examine, hd]
  cases v <;> rfl

/-- What the operators of two operands make of them. -/
def outcome : Operator → Value → Value → Except Error Value
  | .sub, .integer a, .integer b => (checkedInteger (a - b) (name .sub)).map .integer
  | .div, .integer a, .integer b =>
    (divide a b (name .div)).bind fun qr => (checkedInteger qr.1 (name .div)).map .integer
  | .mod, .integer a, .integer b => (divide a b (name .mod)).map fun qr => .integer qr.2
  | .equal, u, v => .ok (.bool (u = v))
  | .less, .integer a, .integer b => .ok (.bool (a < b))
  | .greater, .integer a, .integer b => .ok (.bool (b < a))
  | .and, .bool a, .bool b => .ok (.bool (a && b))
  | .or, .bool a, .bool b => .ok (.bool (a || b))
  | _, _, _ => .ok .nil

end Operator

/-- Evaluates the argument and checks its kind. -/
def Argument.operand (arg : Argument) (op : Operator) (position : Nat) : Run Value := do
  let v ← arg.eval
  Run.lift (op.examine position v)

theorem Argument.operand_integer (arg : Argument) {op : Operator} {position : Nat}
    (hd : op.demands position = some .integer) :
    arg.operand op position = (arg.integer op position >>= fun n => pure (.integer n)) := by
  rw [operand, integer, bind_assoc]
  simp only [op.examine_integer hd, Run.lift_map]

theorem Argument.operand_bool (arg : Argument) {op : Operator} {position : Nat}
    (hd : op.demands position = some .bool) :
    arg.operand op position = (arg.bool op position >>= fun b => pure (.bool b)) := by
  rw [operand, bool, bind_assoc]
  simp only [op.examine_bool hd, Run.lift_map]

theorem Operator.integers_bind {α : Type} {op : Operator} (h₁ : op.demands 1 = some .integer)
    (h₂ : op.demands 2 = some .integer) (a b : Argument) (next : Value → Value → Run α) :
    (do
      let u ← a.operand op 1
      let v ← b.operand op 2
      next u v) =
    op.integers a b >>= fun mn => next (.integer mn.1) (.integer mn.2) := by
  simp only [integers, a.operand_integer h₁, b.operand_integer h₂, bind_assoc, pure_bind]

theorem Operator.bools_bind {α : Type} {op : Operator} (h₁ : op.demands 1 = some .bool)
    (h₂ : op.demands 2 = some .bool) (a b : Argument) (next : Value → Value → Run α) :
    (do
      let u ← a.operand op 1
      let v ← b.operand op 2
      next u v) =
    op.bools a b >>= fun mn => next (.bool mn.1) (.bool mn.2) := by
  simp only [bools, a.operand_bool h₁, b.operand_bool h₂, bind_assoc, pure_bind]

theorem Operator.perform_two {op : Operator} (hop : op.TakesTwo) (mode : Mode) (a b : Argument) :
    op.perform mode [a, b] = (do
      let u ← a.operand op 1
      let v ← b.operand op 2
      Run.lift (op.outcome u v)) := by
  cases op with
  | sub =>
    rw [integers_bind rfl rfl]
    simp only [outcome, Run.lift_map]
    rfl
  | div =>
    rw [integers_bind rfl rfl]
    simp only [outcome, Run.lift_bind, Run.lift_map]
    rfl
  | mod =>
    rw [integers_bind rfl rfl]
    simp only [outcome, Run.lift_map]
    rfl
  | equal =>
    simp only [outcome, Argument.operand, examine, demands, bind_assoc]
    rfl
  | less | greater =>
    rw [integers_bind rfl rfl]
    rfl
  | and | or =>
    rw [bools_bind rfl rfl]
    rfl
  | _ => exact hop.elim

namespace Operator

theorem checkedInteger_map (op : Operator) {n : Int}
    (hn : n.natAbs ≤ 2147483648 * 2147483648) :
    (checkedInteger n op.name).map .integer = op.bounded n := by
  have hshow : ¬TooWide n := fun hwide => Nat.not_le.mpr (natAbs_lt_showable hn) hwide.2
  unfold checkedInteger bounded
  rw [if_neg hshow]
  split <;> rfl

theorem outcome_div {a b : Int} (ha : Fits a) (hb : b ≠ 0) :
    outcome .div (.integer a) (.integer b) = bounded .div (a.tdiv b) := by
  have habs : (a.tdiv b).natAbs ≤ 2147483648 * 2147483648 := by
    have ha' := natAbs_le_of_fits ha
    have hdiv : (a.tdiv b).natAbs ≤ a.natAbs := by
      rw [Int.natAbs_tdiv]
      exact Nat.div_le_self _ _
    omega
  rw [outcome, divide_of_ne hb]
  exact checkedInteger_map .div habs

theorem outcome_sub {a b : Int} (ha : Fits a) (hb : Fits b) :
    outcome .sub (.integer a) (.integer b) = bounded .sub (a - b) := by
  have ha' := natAbs_le_of_fits ha
  have hb' := natAbs_le_of_fits hb
  exact checkedInteger_map .sub (by omega)

/-- The rules and the code make the same of two operands. -/
theorem Combines.outcome_eq {op : Operator} {u v : Value} {r : Except Error Value}
    (hc : op.Combines u v r) (hu : u.Proper) (hv : v.Proper) : op.outcome u v = r := by
  cases hc with
  | sub a b => exact outcome_sub hu hv
  | divZero a => rfl
  | div a hb => exact outcome_div hu hb
  | modZero a => rfl
  | mod a hb =>
    rw [outcome, divide_of_ne hb]
    rfl
  | equal | less | greater | and | or => rfl

theorem Combines.takesTwo {op : Operator} {u v : Value} {r : Except Error Value}
    (hc : op.Combines u v r) : op.TakesTwo := by
  cases hc <;> exact trivial

theorem kind?_of_checked {op : Operator} {position : Nat} {o : Except Error Value} {v : Value}
    (hc : Checked op position o (.ok v)) :
    o = .ok v ∧ ∀ kind, op.demands position = some kind → v.kind? = some kind := by
  cases hc with
  | admitted hk => exact ⟨rfl, hk⟩

/-- Operands that have passed their checks are combined in some way. -/
theorem exists_combines {op : Operator} (hop : op.TakesTwo) {o o' : Except Error Value}
    {u v : Value} (hu : Checked op 1 o (.ok u)) (hv : Checked op 2 o' (.ok v)) :
    ∃ r, op.Combines u v r := by
  have hku := (kind?_of_checked hu).2
  have hkv := (kind?_of_checked hv).2
  cases op with
  | equal => exact ⟨_, .equal u v⟩
  | sub | less | greater =>
    obtain ⟨a, rfl⟩ := Value.eq_integer_of_kind? (hku .integer rfl)
    obtain ⟨b, rfl⟩ := Value.eq_integer_of_kind? (hkv .integer rfl)
    exact ⟨_, by constructor⟩
  | div =>
    obtain ⟨a, rfl⟩ := Value.eq_integer_of_kind? (hku .integer rfl)
    obtain ⟨b, rfl⟩ := Value.eq_integer_of_kind? (hkv .integer rfl)
    by_cases hb : b = 0
    · subst hb
      exact ⟨_, .divZero a⟩
    · exact ⟨_, .div a hb⟩
  | mod =>
    obtain ⟨a, rfl⟩ := Value.eq_integer_of_kind? (hku .integer rfl)
    obtain ⟨b, rfl⟩ := Value.eq_integer_of_kind? (hkv .integer rfl)
    by_cases hb : b = 0
    · subst hb
      exact ⟨_, .modZero a⟩
    · exact ⟨_, .mod a hb⟩
  | and | or =>
    obtain ⟨a, rfl⟩ := Value.eq_bool_of_kind? (hku .bool rfl)
    obtain ⟨b, rfl⟩ := Value.eq_bool_of_kind? (hkv .bool rfl)
    exact ⟨_, by constructor⟩
  | _ => exact hop.elim

theorem Folds.fits_start {op : Operator} {start : Int} {combine : Int → Int → Int}
    (hf : op.Folds start combine) : Fits start := by
  cases hf <;> decide

theorem Folds.unique {op : Operator} {start start' : Int} {combine combine' : Int → Int → Int}
    (hf : op.Folds start combine) (hf' : op.Folds start' combine') :
    start = start' ∧ combine = combine' := by
  cases hf <;> cases hf' <;> exact ⟨rfl, rfl⟩

theorem Folds.demands_integer {op : Operator} {start : Int} {combine : Int → Int → Int}
    (hf : op.Folds start combine) (position : Nat) : op.demands position = some .integer := by
  cases hf <;> rfl

theorem Folds.natAbs_le {op : Operator} {start : Int} {combine : Int → Int → Int}
    (hf : op.Folds start combine) {m n : Int} (hm : Fits m) (hn : Fits n) :
    (combine m n).natAbs ≤ 2147483648 * 2147483648 := by
  have hm' := natAbs_le_of_fits hm
  have hn' := natAbs_le_of_fits hn
  cases hf with
  | add =>
    change (m + n).natAbs ≤ _
    omega
  | mul =>
    rw [Int.natAbs_mul]
    exact Nat.mul_le_mul hm' hn'

theorem Folds.checkedInteger_of_not_fits {op : Operator} {start : Int} {combine : Int → Int → Int}
    (hf : op.Folds start combine) {m n : Int} (hm : Fits m) (hn : Fits n)
    (hfits : ¬Fits (combine m n)) :
    checkedInteger (combine m n) op.name = .error (.overflow op.name (combine m n)) := by
  have hshow := natAbs_lt_showable (hf.natAbs_le hm hn)
  rw [checkedInteger, if_neg hfits, if_neg fun hwide => Nat.not_le.mpr hshow hwide.2]

/-- The operators with the arguments that they take. -/
inductive Takes {α : Type} : Operator → List α → Prop
  | fold {op : Operator} {start : Int} {combine : Int → Int → Int} (hf : op.Folds start combine)
      (arg : α) (args : List α) : Takes op (arg :: args)
  | two {op : Operator} (hop : op.TakesTwo) (a b : α) : Takes op [a, b]
  | not (a : α) : Takes .not [a]
  | print (a : α) : Takes .print [a]
  | branch (cond yes : α) {rest : List α} (hrest : rest.length ≤ 1) :
      Takes .branch (cond :: yes :: rest)
  | loop (cond body : α) : Takes .loop [cond, body]
  | block (args : List α) : Takes .block args
  | global (target value : α) : Takes .global [target, value]

theorem Takes.admits {α : Type} {op : Operator} {args : List α} (h : op.Takes args) :
    op.arity.Admits args.length := by
  cases h with
  | fold hf arg args => cases hf <;> exact Arity.admits_atLeast.mpr (Nat.le_add_left 1 args.length)
  | two hop a b =>
    cases op with
    | sub | div | mod | equal | less | greater | and | or => exact Arity.admits_exactly.mpr rfl
    | _ => exact hop.elim
  | not | print | loop | global => exact Arity.admits_exactly.mpr rfl
  | branch cond yes hrest =>
    exact Arity.admits_between.mpr ⟨Nat.le_add_left 2 _, Nat.add_le_add_right hrest 2⟩
  | block args => exact Arity.admits_atLeast.mpr (Nat.zero_le _)

theorem takes_of_admits {α : Type} {op : Operator} {args : List α}
    (h : op.arity.Admits args.length) : op.Takes args := by
  cases op with
  | add =>
    match args with
    | [] => exact absurd (Arity.admits_atLeast.mp h) (Nat.not_succ_le_zero 0)
    | arg :: args => exact .fold .add arg args
  | mul =>
    match args with
    | [] => exact absurd (Arity.admits_atLeast.mp h) (Nat.not_succ_le_zero 0)
    | arg :: args => exact .fold .mul arg args
  | sub | div | mod | equal | less | greater | and | or =>
    obtain ⟨a, b, rfl⟩ := List.length_eq_two.mp (Arity.admits_exactly.mp h)
    exact .two (by exact trivial) a b
  | not =>
    obtain ⟨a, rfl⟩ := List.length_eq_one_iff.mp (Arity.admits_exactly.mp h)
    exact .not a
  | print =>
    obtain ⟨a, rfl⟩ := List.length_eq_one_iff.mp (Arity.admits_exactly.mp h)
    exact .print a
  | branch =>
    obtain ⟨hleast, hmost⟩ := Arity.admits_between.mp h
    match args with
    | [] => exact absurd hleast (Nat.not_succ_le_zero 1)
    | [_] => exact absurd hleast (Nat.not_succ_le_self 1)
    | cond :: yes :: rest =>
      have hrest : rest.length + 2 ≤ 1 + 2 := hmost
      exact .branch cond yes (Nat.le_of_add_le_add_right hrest)
  | loop =>
    obtain ⟨cond, body, rfl⟩ := List.length_eq_two.mp (Arity.admits_exactly.mp h)
    exact .loop cond body
  | block => exact .block args
  | global =>
    obtain ⟨target, value, rfl⟩ := List.length_eq_two.mp (Arity.admits_exactly.mp h)
    exact .global target value

theorem perform_fold {op : Operator} {start : Int} {combine : Int → Int → Int}
    (hf : op.Folds start combine) (mode : Mode) (arg : Argument) (args : List Argument) :
    op.perform mode (arg :: args) =
      (fold op combine start 1 (arg :: args) >>= fun n => pure (.integer n)) := by
  cases hf <;> rfl

/-- Of two branches, the other one may be missing. -/
theorem perform_branch (mode : Mode) (cond yes : Argument) {rest : List Argument}
    (hrest : rest.length ≤ 1) :
    perform mode .branch (cond :: yes :: rest) = (do
      let holds ← cond.bool .branch 1
      if holds then yes.eval
      else
        match rest with
        | [] => pure .nil
        | no :: _ => no.eval) := by
  match rest with
  | [] => rfl
  | [_] => rfl
  | _ :: _ :: _ => simp at hrest

/-- The loop as a run. -/
def looping (cond body : Argument) (passes : Nat) : Run Value :=
  ExceptT.mk (repeatWhile cond body passes)

theorem looping_eq (cond body : Argument) (passes : Nat) :
    looping cond body passes = (do
      let holds ← cond.bool .loop 1
      if holds then
        match passes with
        | 0 => throw .exhausted
        | passes + 1 => do
          let _ ← body.eval
          looping cond body passes
      else pure .nil) := by
  funext s
  change repeatWhile cond body passes s = Run.result _ s
  rw [Run.result_bind]
  cases passes with
  | zero =>
    rw [repeatWhile]
    rcases (cond.bool .loop 1).result s with ⟨h | b, s₁⟩
    · rfl
    · cases b <;> rfl
  | succ passes =>
    rw [repeatWhile]
    rcases (cond.bool .loop 1).result s with ⟨h | b, s₁⟩
    · rfl
    · cases b with
      | false => rfl
      | true =>
        change _ = Run.result (body.eval >>= fun _ => looping cond body passes) s₁
        rw [Run.result_bind]
        dsimp only
        rcases body.eval.result s₁ with ⟨h | v, s₂⟩ <;> rfl

end Operator

end Lisplet
