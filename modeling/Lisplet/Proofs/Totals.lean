import Lisplet.Proofs.Soundness

/-!
# Sums and products

A sum or product takes its arguments from left to right. After each one the kind is checked and the
total so far must fit, so what comes of it is decided by the first argument at which one of three
things goes wrong: the argument fails, it is no integer, or the total with it does not fit. The
arguments after that one are not evaluated. `Operator.total` is the sum or product of a list, and
the totals that must fit are those of its beginnings; that all of them together fit is not enough.

The text of a total that does not fit is part of the complaint, and the machine writes no number of
more than 4300 digits. Integers of the language are far from that: their totals are always shown.
-/

namespace Lisplet

open Run

/-- The state after a record has been made, if records are made. -/
def State.noting (s : State) (mode : Mode) (r : Record) : State :=
  if mode.debug then { s with trace := s.trace.push r } else s

/-- Evaluated one after the other, each in the state that the one before it has left, the
expressions have these integers as their values. -/
inductive IntegersInTurn (mode : Mode) (level : Nat) :
    List Expr → State → List Int → State → Prop
  | nil (s : State) : IntegersInTurn mode level [] s [] s
  | cons {e : Expr} {es : List Expr} {n : Int} {ns : List Int} {s s₁ s₂ : State}
      (he : (e.eval mode level).result s = (.ok (.integer n), s₁))
      (hes : IntegersInTurn mode level es s₁ ns s₂) :
      IntegersInTurn mode level (e :: es) s (n :: ns) s₂

theorem IntegersInTurn.length_eq {mode : Mode} {level : Nat} {es : List Expr} {ns : List Int}
    {s s' : State} (h : IntegersInTurn mode level es s ns s') : ns.length = es.length := by
  induction h with
  | nil => rfl
  | cons _ _ ih => rw [List.length_cons, List.length_cons, ih]

/-- Within the nesting allowed, a compound that its operator takes is recorded and performed. -/
theorem Expr.result_performed {mode : Mode} {level : Nat}
    (hlevel : ∀ bound ∈ mode.nesting, level < bound) {op : Operator} {args : List Expr}
    (hadmits : op.arity.Admits args.length) (s : State) :
    ((compound op.name args).eval mode level).result s =
      (op.perform mode (arguments mode (level + 1) args)).result
        (s.noting mode (.applied op.name args.length)) := by
  have hany : mode.nesting.any (· ≤ level) = false := by
    cases hn : mode.nesting with
    | none => rfl
    | some bound =>
      have hbound := hlevel bound hn
      simpa using hbound
  rw [eval, hany, Operator.find, Operator.ofName?_name]
  change (record mode _ >>= fun _ => op.apply mode _).result s = _
  rw [Operator.apply, length_arguments, Arity.check_eq_ok_iff.mpr hadmits, result_bind,
    result_record]
  rfl

namespace Operator

/-- The product of integers for `mul`, and else their sum. -/
def total : Operator → List Int → Int
  | .mul, ns => ns.foldl (· * ·) 1
  | _, ns => ns.foldl (· + ·) 0

section Totals

variable {op : Operator} {start : Int} {combine : Int → Int → Int}

theorem Folds.total_nil (hf : op.Folds start combine) : op.total [] = start := by
  cases hf <;> rfl

theorem Folds.total_concat (hf : op.Folds start combine) (ns : List Int) (n : Int) :
    op.total (ns ++ [n]) = combine (op.total ns) n := by
  cases hf with
  | add => exact List.foldl_concat _ _ _ _
  | mul => exact List.foldl_concat _ _ _ _

/-- The total of every beginning of the list fits. -/
def FitsThroughout (op : Operator) (ns : List Int) : Prop :=
  ∀ first, first <+: ns → Fits (op.total first)

theorem Folds.fitsThroughout_nil (hf : op.Folds start combine) : op.FitsThroughout [] := by
  intro first hfirst
  rw [List.prefix_nil.mp hfirst, hf.total_nil]
  exact hf.fits_start

theorem fitsThroughout_concat {ns : List Int} {n : Int} (hns : op.FitsThroughout ns)
    (hn : Fits (op.total (ns ++ [n]))) : op.FitsThroughout (ns ++ [n]) := by
  intro first hfirst
  obtain rfl | hfirst := List.prefix_concat_iff.mp hfirst
  · exact hn
  · exact hns first hfirst

/-- What ends a sum or product, after these integers, at an argument that ends in this way. -/
def stop? (op : Operator) (ns : List Int) : Except Halt Value → Option Halt
  | .error halt => some halt
  | .ok (.integer n) =>
    match checkedInteger (op.total (ns ++ [n])) op.name with
    | .ok _ => none
    | .error cause => some (.failed cause)
  | .ok v => some (.failed (v.mismatch op.name ((ns.length + 1 : Nat) : Int) (.value .integer)))

/-- If nothing ends it there, the argument is an integer and the total with it fits. -/
theorem stop?_eq_none_iff {ns : List Int} {r : Except Halt Value} :
    op.stop? ns r = none ↔ ∃ n, r = .ok (.integer n) ∧ Fits (op.total (ns ++ [n])) := by
  constructor
  · intro h
    match r, h with
    | .ok (.integer n), h =>
      refine ⟨n, rfl, ?_⟩
      cases hc : checkedInteger (op.total (ns ++ [n])) op.name with
      | ok m => exact (checkedInteger_eq_ok_iff.mp hc).2
      | error cause => simp [stop?, hc] at h
  · rintro ⟨n, rfl, hfits⟩
    rw [stop?, checkedInteger_eq_ok_iff.mpr ⟨rfl, hfits⟩]

section Steps

variable {arg : Argument} {args : List Argument} {ns : List Int} {s s₁ : State}

/-- One argument of a sum or product, with what follows it. -/
theorem result_fold_cons (op : Operator) (combine : Int → Int → Int) (sofar : Int) (position : Nat)
    (arg : Argument) (args : List Argument) (s : State) :
    (op.fold combine sofar position (arg :: args)).result s =
      match arg.eval.result s with
      | (.error halt, s₁) => (.error halt, s₁)
      | (.ok v, s₁) =>
        match v.toInteger op.name position with
        | .error cause => (.error (.failed cause), s₁)
        | .ok n =>
          match checkedInteger (combine sofar n) op.name with
          | .error cause => (.error (.failed cause), s₁)
          | .ok m => (op.fold combine m (position + 1) args).result s₁ := by
  rw [fold, result_bind, Argument.integer, result_bind]
  rcases arg.eval.result s with ⟨halt | v, s₁⟩
  · rfl
  · dsimp only
    cases v.toInteger op.name position with
    | error cause => rfl
    | ok n =>
      rw [result_lift_ok]
      dsimp only
      rw [result_bind]
      cases checkedInteger (combine sofar n) op.name with
      | error cause => rfl
      | ok m => rfl

/-- An argument with which the total fits is taken in. -/
theorem Folds.result_fold_of_fits (hf : op.Folds start combine) {n : Int}
    (he : arg.eval.result s = (.ok (.integer n), s₁)) (hfits : Fits (op.total (ns ++ [n]))) :
    (op.fold combine (op.total ns) (ns.length + 1) (arg :: args)).result s =
      (op.fold combine (op.total (ns ++ [n])) ((ns ++ [n]).length + 1) args).result s₁ := by
  rw [hf.total_concat] at hfits ⊢
  rw [result_fold_cons, he]
  dsimp only [Value.toInteger]
  rw [checkedInteger_eq_ok_iff.mpr ⟨rfl, hfits⟩, List.length_append, List.length_singleton]

/-- At an argument that ends the sum or product, nothing after it is evaluated. -/
theorem Folds.result_fold_of_stop (hf : op.Folds start combine) {r : Except Halt Value}
    {halt : Halt} (he : arg.eval.result s = (r, s₁)) (hstop : op.stop? ns r = some halt) :
    (op.fold combine (op.total ns) (ns.length + 1) (arg :: args)).result s =
      (.error halt, s₁) := by
  rw [result_fold_cons, he]
  match r, hstop with
  | .error _, hstop => rw [Option.some.inj hstop]
  | .ok (.integer n), hstop =>
    rw [stop?, hf.total_concat] at hstop
    dsimp only [Value.toInteger]
    cases hc : checkedInteger (combine (op.total ns) n) op.name with
    | ok m => simp [hc] at hstop
    | error cause =>
      rw [hc] at hstop
      rw [← Option.some.inj hstop]
  | .ok (.bool _), hstop | .ok (.string _), hstop | .ok .nil, hstop | .ok (.foreign _), hstop =>
    rw [← Option.some.inj hstop]
    rfl

end Steps

section Runs

variable {mode : Mode} {level : Nat} {before args : List Expr} {ns : List Int} {s s₁ : State}

-- `done` are the integers taken in before the arguments at hand
theorem Folds.result_fold_of_inTurn (hf : op.Folds start combine)
    (h : IntegersInTurn mode level before s ns s₁) (done : List Int)
    (hfits : op.FitsThroughout (done ++ ns)) (rest : List Expr) :
    (op.fold combine (op.total done) (done.length + 1)
        (Expr.arguments mode level (before ++ rest))).result s =
      (op.fold combine (op.total (done ++ ns)) ((done ++ ns).length + 1)
        (Expr.arguments mode level rest)).result s₁ := by
  induction h generalizing done with
  | nil s => rw [List.append_nil, List.nil_append]
  | @cons e es n ns s s₁ s₂ he hes ih =>
    have hsplit : done ++ n :: ns = (done ++ [n]) ++ ns := by simp
    rw [hsplit] at hfits ⊢
    have hn : Fits (op.total (done ++ [n])) := hfits _ (List.prefix_append _ _)
    rw [List.cons_append, Expr.arguments, hf.result_fold_of_fits he hn]
    exact ih _ hfits

/-- Either all arguments are integers whose totals fit, or there is a first one that ends the sum or
product. -/
theorem inTurn_or_stop (op : Operator) (mode : Mode) (level : Nat) (args : List Expr)
    {done : List Int} (hdone : op.FitsThroughout done) (s : State) :
    (∃ ns s', IntegersInTurn mode level args s ns s' ∧ op.FitsThroughout (done ++ ns)) ∨
    ∃ before arg after ns s₁ r s₂ halt, args = before ++ arg :: after ∧
      IntegersInTurn mode level before s ns s₁ ∧ op.FitsThroughout (done ++ ns) ∧
      (Expr.eval mode level arg).result s₁ = (r, s₂) ∧ op.stop? (done ++ ns) r = some halt := by
  induction args generalizing done s with
  | nil => exact .inl ⟨[], s, .nil s, by rwa [List.append_nil]⟩
  | cons arg args ih =>
    rcases he : (arg.eval mode level).result s with ⟨r, s₁⟩
    cases hstop : op.stop? done r with
    | some halt =>
      refine .inr ⟨[], arg, args, [], s, r, s₁, halt, rfl, .nil s, ?_, he, ?_⟩
      · rwa [List.append_nil]
      · rwa [List.append_nil]
    | none =>
      obtain ⟨n, rfl, hn⟩ := stop?_eq_none_iff.mp hstop
      obtain ⟨ns, s', hns, hfits⟩ |
        ⟨before, arg', after, ns, s₂, r, s₃, halt, rfl, hns, hfits, he', hstop'⟩ :=
        ih (fitsThroughout_concat hdone hn) s₁
      · exact .inl ⟨n :: ns, s', .cons he hns, by simpa using hfits⟩
      · exact .inr ⟨arg :: before, arg', after, n :: ns, s₂, r, s₃, halt, rfl, .cons he hns,
          by simpa using hfits, he', by simpa using hstop'⟩

/-- A sum or product is recorded and then ends as the fold over its arguments does. -/
theorem Folds.result_compound (hf : op.Folds start combine)
    (hlevel : ∀ bound ∈ mode.nesting, level < bound) (hargs : args ≠ []) {r : Except Halt Int}
    (h : (op.fold combine (op.total []) (([] : List Int).length + 1)
      (Expr.arguments mode (level + 1) args)).result
        (s.noting mode (.applied op.name args.length)) = (r, s₁)) :
    ((Expr.compound op.name args).eval mode level).result s = (r.map .integer, s₁) := by
  obtain ⟨arg, rest, rfl⟩ := List.exists_cons_of_ne_nil hargs
  have htakes : op.Takes (arg :: rest) := .fold hf arg rest
  rw [Expr.arguments, hf.total_nil, List.length_nil, Nat.zero_add] at h
  rw [Expr.result_performed hlevel htakes.admits, Expr.arguments, perform_fold hf, result_bind, h]
  cases r <;> rfl

/-- If every argument is an integer and every total fits, the value is the last total. -/
theorem Folds.result_of_inTurn (hf : op.Folds start combine)
    (hlevel : ∀ bound ∈ mode.nesting, level < bound) (hargs : args ≠ [])
    (h : IntegersInTurn mode (level + 1) args (s.noting mode (.applied op.name args.length)) ns s₁)
    (hfits : op.FitsThroughout ns) :
    ((Expr.compound op.name args).eval mode level).result s =
      (.ok (.integer (op.total ns)), s₁) := by
  have hfold := hf.result_fold_of_inTurn h [] hfits []
  rw [List.append_nil, List.nil_append] at hfold
  exact hf.result_compound hlevel hargs hfold

/-- The argument at which a sum or product ends decides how it ends and which state it leaves. -/
theorem Folds.result_of_stop (hf : op.Folds start combine)
    (hlevel : ∀ bound ∈ mode.nesting, level < bound) {arg : Expr} {after : List Expr}
    (hsplit : args = before ++ arg :: after)
    (h : IntegersInTurn mode (level + 1) before (s.noting mode (.applied op.name args.length)) ns
      s₁)
    (hfits : op.FitsThroughout ns) {r : Except Halt Value} {s₂ : State} {halt : Halt}
    (he : (arg.eval mode (level + 1)).result s₁ = (r, s₂)) (hstop : op.stop? ns r = some halt) :
    ((Expr.compound op.name args).eval mode level).result s = (.error halt, s₂) := by
  have hargs : args ≠ [] := by simp [hsplit]
  have hfold := hf.result_fold_of_inTurn h [] hfits (arg :: after)
  rw [← hsplit, List.nil_append, Expr.arguments, hf.result_fold_of_stop he hstop] at hfold
  exact hf.result_compound hlevel hargs hfold

end Runs

theorem stop?_of_overflow {ns : List Int} {n : Int} (hfits : ¬Fits (op.total (ns ++ [n])))
    (hshown : (op.total (ns ++ [n])).natAbs < Nat.pow 10 Text.maxDigits) :
    op.stop? ns (.ok (.integer n)) =
      some (.failed (.overflow op.name (op.total (ns ++ [n])))) := by
  rw [stop?, checkedInteger, if_neg hfits, if_neg fun hwide => Nat.not_le.mpr hshown hwide.2]

theorem stop?_of_wide {ns : List Int} {n : Int} (hfits : ¬Fits (op.total (ns ++ [n])))
    (hwide : Nat.pow 10 Text.maxDigits ≤ (op.total (ns ++ [n])).natAbs) :
    op.stop? ns (.ok (.integer n)) = some (.failed .integerTooWide) := by
  rw [stop?, checkedInteger, if_neg hfits, if_pos ⟨hfits, hwide⟩]

theorem stop?_of_kind {ns : List Int} {v : Value} {kind : Kind} (hv : v.kind? = some kind)
    (hkind : kind ≠ .integer) :
    op.stop? ns (.ok v) = some (.failed
      (.kind op.name ((ns.length + 1 : Nat) : Int) (.value .integer) (.value kind))) := by
  cases v with
  | integer n =>
    cases hv
    exact absurd rfl hkind
  | foreign object => cases hv
  | bool | string | nil =>
    cases hv
    rfl

/-- With an integer of the language a total that fitted can still be shown. -/
theorem Folds.total_showable (hf : op.Folds start combine) {ns : List Int} {n : Int}
    (hns : op.FitsThroughout ns) (hn : Fits n) :
    (op.total (ns ++ [n])).natAbs < Nat.pow 10 Text.maxDigits := by
  rw [hf.total_concat]
  apply natAbs_lt_showable
  exact hf.natAbs_le (hns ns (List.prefix_refl ns)) hn

theorem exists_folds (hop : op = .add ∨ op = .mul) : ∃ start combine, op.Folds start combine := by
  rcases hop with rfl | rfl
  · exact ⟨_, _, .add⟩
  · exact ⟨_, _, .mul⟩

end Totals

end Operator

/-- A sum or product has a value exactly if its arguments, evaluated in turn, are integers and the
total of every beginning of them fits; the value is then the total of all. Otherwise one argument is
the first to go wrong. If it is an integer with which the total does not fit, the complaint shows
this total exactly, unless the total has more than 4300 digits, which cannot be written; for an
integer of the language it never has. If the argument fails, it fails as the argument does, and if
it is of another kind, the complaint names the kind and the argument's position; an object without a
kind is complained about by itself. In each case the state is the one that this argument left. -/
theorem totals_end_at_first_misfit {op : Operator} (hop : op = .add ∨ op = .mul) {mode : Mode}
    {level : Nat} (hlevel : ∀ bound ∈ mode.nesting, level < bound) {args : List Expr}
    (hargs : args ≠ []) (s : State) :
    let s₀ := s.noting mode (.applied op.name args.length)
    let answer := ((Expr.compound op.name args).eval mode level).result s
    (∀ v s', answer = (.ok v, s') ↔
      ∃ ns, IntegersInTurn mode (level + 1) args s₀ ns s' ∧ op.FitsThroughout ns ∧
        v = .integer (op.total ns)) ∧
    ∀ (before : List Expr) (arg : Expr) (after : List Expr) (ns : List Int) (s₁ : State)
      (r : Except Halt Value) (s₂ : State), args = before ++ arg :: after →
      IntegersInTurn mode (level + 1) before s₀ ns s₁ → op.FitsThroughout ns →
      (arg.eval mode (level + 1)).result s₁ = (r, s₂) →
      (∀ n, r = .ok (.integer n) → ¬Fits (op.total (ns ++ [n])) →
        let total := op.total (ns ++ [n])
        (total.natAbs < Nat.pow 10 Text.maxDigits →
          answer = (.error (.failed (.overflow op.name total)), s₂) ∧
          (Error.overflow op.name total).message =
            op.name ++ ": integer overflow (" ++ total.repr ++ ")") ∧
        (Nat.pow 10 Text.maxDigits ≤ total.natAbs →
          answer = (.error (.failed .integerTooWide), s₂)) ∧
        (Fits n → total.natAbs < Nat.pow 10 Text.maxDigits)) ∧
      (∀ halt, r = .error halt → answer = (.error halt, s₂)) ∧
      (∀ v kind, r = .ok v → v.kind? = some kind → kind ≠ .integer →
        answer = (.error (.failed (.kind op.name ((before.length + 1 : Nat) : Int)
          (.value .integer) (.value kind))), s₂)) ∧
      (∀ object, r = .ok (.foreign object) →
        answer = (.error (.failed (.notAValue object.shown)), s₂)) := by
  intro s₀ answer
  obtain ⟨start, combine, hf⟩ := Operator.exists_folds hop
  refine ⟨?_, ?_⟩
  · intro v s'
    constructor
    · intro hanswer
      obtain ⟨ns, s'', hns, hfits⟩ |
        ⟨before, arg, after, ns, s₁, r, s₂, halt, hsplit, hns, hfits, he, hstop⟩ :=
        op.inTurn_or_stop mode (level + 1) args hf.fitsThroughout_nil s₀
      · have hvalue : answer = _ := hf.result_of_inTurn hlevel hargs hns hfits
        rw [hvalue] at hanswer
        cases hanswer
        exact ⟨ns, hns, hfits, rfl⟩
      · have hend : answer = _ := hf.result_of_stop hlevel hsplit hns hfits he hstop
        rw [hend] at hanswer
        cases hanswer
    · rintro ⟨ns, hns, hfits, rfl⟩
      exact hf.result_of_inTurn hlevel hargs hns hfits
  · intro before arg after ns s₁ r s₂ hsplit hns hfits he
    have hstop : ∀ {halt}, op.stop? ns r = some halt → answer = (.error halt, s₂) :=
      fun h => hf.result_of_stop hlevel hsplit hns hfits he h
    refine ⟨?_, ?_, ?_, ?_⟩
    · rintro n rfl hmisfit total
      refine ⟨?_, ?_, ?_⟩
      · intro hshown
        exact ⟨hstop (Operator.stop?_of_overflow hmisfit hshown), rfl⟩
      · intro hwide
        exact hstop (Operator.stop?_of_wide hmisfit hwide)
      · intro hn
        exact hf.total_showable hfits hn
    · rintro halt rfl
      exact hstop rfl
    · rintro v kind rfl hv hkind
      rw [← hns.length_eq]
      exact hstop (Operator.stop?_of_kind hv hkind)
    · rintro object rfl
      exact hstop rfl

/-- The second argument brings the sum to one more than fits, so the third one is not evaluated and
prints nothing, although with it the sum would fit again. -/
theorem sum_past_bound_prints_nothing :
    let e : Expr := .compound "+" [.symbol "x", .literal (.integer 1),
      .compound "block" [.compound "print" [.symbol "x"], .literal (.integer (-1))]]
    let s : State := ⟨Env.ofList [("x", .integer 2147483647)], "", #[]⟩
    (e.eval ⟨false, 0, none, none⟩ 0).result s =
      (.error (.failed (.overflow "+" 2147483648)), s) := by
  intro e s
  have hx : IntegersInTurn ⟨false, 0, none, none⟩ 1 [.symbol "x"] s [2147483647] s :=
    .cons rfl (.nil s)
  have hfits : Operator.FitsThroughout .add [2147483647] := by
    refine Operator.fitsThroughout_concat Operator.Folds.add.fitsThroughout_nil ?_
    decide
  obtain ⟨hover, -⟩ := (totals_end_at_first_misfit (.inl rfl) (by simp) (by simp) s).2
    [.symbol "x"] (.literal (.integer 1)) _ [2147483647] s _ s rfl hx hfits rfl
  obtain ⟨hshown, -, hshowable⟩ := hover 1 rfl (by decide)
  exact (hshown (hshowable (by decide))).1

/-- That a total which does not fit is shown, and that the position of an argument which is no
integer is named, cannot be said of all values. The product of ten and an integer of 4300 digits is
refused without being shown, and for an object without a kind no position is named; neither
complaint is one of the language. -/
theorem misfits_outside_language_not_shown :
    let s : State := ⟨Env.empty, "", #[]⟩
    let wide : Int := (Nat.pow 10 4299 : Nat)
    let factors : List Expr := [.literal (.integer 10), .literal (.integer wide)]
    let terms : List Expr := [.literal (.foreign ⟨"1.5", "float", true, some true⟩)]
    let answer := fun e : Expr => (e.eval ⟨false, 0, none, none⟩ 0).result s
    (IntegersInTurn ⟨false, 0, none, none⟩ 1 factors s [10, wide] s ∧ Fits 10 ∧ ¬Fits (10 * wide) ∧
      answer (.compound "*" factors) = (.error (.failed .integerTooWide), s) ∧
      answer (.compound "*" factors) ≠ (.error (.failed (.overflow "*" (10 * wide))), s)) ∧
    (answer (.compound "+" terms) = (.error (.failed (.notAValue "1.5")), s) ∧
      ∀ position expected actual, answer (.compound "+" terms) ≠
        (.error (.failed (.kind "+" position expected actual)), s)) ∧
    ¬Error.InLanguage .integerTooWide ∧ ¬Error.InLanguage (.notAValue "1.5") := by
  intro s wide factors terms answer
  have hten : IntegersInTurn ⟨false, 0, none, none⟩ 1 [.literal (.integer 10)] s [10] s :=
    .cons rfl (.nil s)
  have hfits : Operator.FitsThroughout .mul [10] := by
    refine Operator.fitsThroughout_concat Operator.Folds.mul.fitsThroughout_nil ?_
    decide
  have htotal : Operator.total .mul ([10] ++ [wide]) = 10 * wide := by
    rw [Operator.Folds.mul.total_concat]
    rfl
  have hmisfit : ¬Fits (10 * wide) := by decide +kernel
  have hwide : Nat.pow 10 Text.maxDigits ≤ (10 * wide).natAbs := by decide +kernel
  have hproduct : answer (.compound "*" factors) = (.error (.failed .integerTooWide), s) := by
    apply Operator.Folds.mul.result_of_stop (by simp) rfl hten hfits rfl
    exact Operator.stop?_of_wide (by rwa [htotal]) (by rwa [htotal])
  have hsum : answer (.compound "+" terms) = (.error (.failed (.notAValue "1.5")), s) := rfl
  refine ⟨⟨?_, by decide, hmisfit, hproduct, ?_⟩, ⟨hsum, ?_⟩, by decide, by decide⟩
  · exact .cons rfl (.cons rfl (.nil s))
  · rw [hproduct]
    simp
  · intro position expected actual
    rw [hsum]
    simp

end Lisplet
