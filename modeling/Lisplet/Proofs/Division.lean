import Lisplet.Proofs.Totals

/-!
# Division

Division rounds toward zero. `Truncates` says what that makes of quotient and remainder without
saying how they are found, and there is only one such pair. Of integers of the language the quotient
fits with one exception, and it is checked; the remainder always fits, and it is not.
-/

namespace Lisplet

open Run

/-- Division with a quotient rounded toward zero: the remainder is smaller than the divisor and has
the sign of the dividend, or is zero. -/
structure Truncates (left right quotient remainder : Int) : Prop where
  exact : left = right * quotient + remainder
  small : remainder.natAbs < right.natAbs
  sign : remainder = 0 ∨ remainder.sign = left.sign

namespace Truncates

variable {left right q r q' r' : Int}

theorem tdiv_tmod (left : Int) (hright : right ≠ 0) :
    Truncates left right (left.tdiv right) (left.tmod right) where
  exact := (Int.mul_tdiv_add_tmod left right).symm
  small := by
    rw [Int.natAbs_tmod]
    exact Nat.mod_lt _ (Int.natAbs_pos.mpr hright)
  sign := by
    have hsign := Int.sign_tmod left right
    split at hsign
    · exact .inl (Int.sign_eq_zero_iff_zero.mp hsign)
    · exact .inr hsign

/-- Two remainders have one sign, so they differ by less than the divisor. -/
theorem natAbs_sub_lt (h : Truncates left right q r) (h' : Truncates left right q' r') :
    (r - r').natAbs < right.natAbs := by
  have hr := h.small
  have hr' := h'.small
  have hsigns : 0 ≤ r ∧ 0 ≤ r' ∨ r ≤ 0 ∧ r' ≤ 0 := by
    have hsign := h.sign
    have hsign' := h'.sign
    rcases Int.lt_trichotomy left 0 with hneg | rfl | hpos
    · rw [Int.sign_eq_neg_one_of_neg hneg, Int.sign_eq_neg_one_iff_neg] at hsign hsign'
      omega
    · rw [Int.sign_zero, Int.sign_eq_zero_iff_zero] at hsign hsign'
      omega
    · rw [Int.sign_eq_one_of_pos hpos, Int.sign_eq_one_iff_pos] at hsign hsign'
      omega
  omega

theorem unique (h : Truncates left right q r) (h' : Truncates left right q' r') :
    q = q' ∧ r = r' := by
  have hdiff : right * (q' - q) = r - r' := by
    have hexact := h.exact
    rw [h'.exact] at hexact
    rw [Int.mul_sub]
    omega
  have hr : r - r' = 0 :=
    Int.eq_zero_of_dvd_of_natAbs_lt_natAbs ⟨q' - q, hdiff.symm⟩ (h.natAbs_sub_lt h')
  have hright : right ≠ 0 := by
    rintro rfl
    exact absurd h.small (Nat.not_lt_zero _)
  have hq : q' - q = 0 := by
    rw [hr] at hdiff
    exact (Int.mul_eq_zero.mp hdiff).resolve_left hright
  omega

/-- There is one such quotient and remainder, those of `Int.tdiv` and `Int.tmod`. -/
theorem iff_tdiv_tmod (left : Int) (hright : right ≠ 0) :
    Truncates left right q r ↔ q = left.tdiv right ∧ r = left.tmod right := by
  constructor
  · intro h
    exact h.unique (tdiv_tmod left hright)
  · rintro ⟨rfl, rfl⟩
    exact tdiv_tmod left hright

end Truncates

/-- The one quotient of integers of the language that is none. -/
theorem fits_tdiv_iff {a b : Int} (ha : Fits a) (hb : b ≠ 0) :
    Fits (a.tdiv b) ↔ ¬(a = -2147483648 ∧ b = -1) := by
  constructor
  · rintro hfits ⟨rfl, rfl⟩
    exact absurd hfits (by decide)
  · intro hne
    obtain ⟨hleast, hmost⟩ := ha
    have habs : (a.tdiv b).natAbs ≤ a.natAbs := Int.natAbs_tdiv_le_natAbs a b
    by_cases hmin : a = -2147483648
    · subst hmin
      by_cases hpos : 0 < b
      · -- a positive divisor keeps the sign
        have hneg : 0 ≤ Int.tdiv 2147483648 b := Int.tdiv_nonneg (by decide) (Int.le_of_lt hpos)
        rw [Int.neg_tdiv] at habs ⊢
        constructor <;> omega
      · -- a negative divisor other than minus one at least halves it
        have hhalf : (Int.tdiv (-2147483648) b).natAbs ≤ 2147483648 / 2 := by
          rw [Int.natAbs_tdiv]
          exact Nat.div_le_div_left (by omega) (by decide)
        constructor <;> omega
    · constructor <;> omega

section Quotients

variable {mode : Mode} {level : Nat} {x y : Expr} {a b : Int} {s s₁ : State}

theorem Argument.result_operand {arg : Argument} {op : Operator} {position : Nat}
    (hd : op.demands position = some .integer)
    (h : arg.eval.result s = (.ok (.integer a), s₁)) :
    (arg.operand op position).result s = (.ok (.integer a), s₁) := by
  rw [operand, result_bind, h]
  dsimp only
  rw [op.examine_integer hd]
  rfl

/-- An operator of two integers, once its operands have been evaluated. -/
theorem Operator.result_of_inTurn (op : Operator) (hop : op.TakesTwo)
    (hd : ∀ position, op.demands position = some .integer)
    (hlevel : ∀ bound ∈ mode.nesting, level < bound)
    (h : IntegersInTurn mode (level + 1) [x, y] (s.noting mode (.applied op.name 2)) [a, b] s₁) :
    ((Expr.compound op.name [x, y]).eval mode level).result s =
      ((op.outcome (.integer a) (.integer b)).mapError .failed, s₁) := by
  have htakes : op.Takes [x, y] := .two hop x y
  cases h with
  | cons hx hrest =>
    cases hrest with
    | cons hy hnil =>
      cases hnil
      rw [Expr.result_performed hlevel htakes.admits, Expr.arguments, Expr.arguments,
        Expr.arguments, perform_two hop, result_bind, Argument.result_operand (hd 1) hx]
      dsimp only
      rw [result_bind, Argument.result_operand (hd 2) hy]
      dsimp only
      cases op.outcome (.integer a) (.integer b) <;> rfl

theorem result_div (hlevel : ∀ bound ∈ mode.nesting, level < bound) (ha : Fits a)
    (h : IntegersInTurn mode (level + 1) [x, y] (s.noting mode (.applied "/" 2)) [a, b] s₁) :
    ((Expr.compound "/" [x, y]).eval mode level).result s =
      if b = 0 then (.error (.failed (.divisionByZero "/")), s₁)
      else if a = -2147483648 ∧ b = -1 then (.error (.failed (.overflow "/" 2147483648)), s₁)
      else (.ok (.integer (a.tdiv b)), s₁) := by
  refine (Operator.result_of_inTurn .div trivial (fun _ => rfl) hlevel h).trans ?_
  by_cases hb : b = 0
  · subst hb
    rfl
  · rw [if_neg hb, Operator.outcome_div ha hb, Operator.bounded]
    by_cases hmin : a = -2147483648 ∧ b = -1
    · rw [if_pos hmin, if_neg (fun hfits => (fits_tdiv_iff ha hb).mp hfits hmin)]
      obtain ⟨rfl, rfl⟩ := hmin
      rfl
    · rw [if_neg hmin, if_pos ((fits_tdiv_iff ha hb).mpr hmin)]
      rfl

theorem result_mod (hlevel : ∀ bound ∈ mode.nesting, level < bound)
    (h : IntegersInTurn mode (level + 1) [x, y] (s.noting mode (.applied "%" 2)) [a, b] s₁) :
    ((Expr.compound "%" [x, y]).eval mode level).result s =
      if b = 0 then (.error (.failed (.divisionByZero "%")), s₁)
      else (.ok (.integer (a.tmod b)), s₁) := by
  refine (Operator.result_of_inTurn .mod trivial (fun _ => rfl) hlevel h).trans ?_
  by_cases hb : b = 0
  · subst hb
    rfl
  · rw [Operator.outcome, divide_of_ne hb, if_neg hb]
    rfl

end Quotients

/-- Division of integers of any size fails exactly if the divisor is zero, and else gives the one
quotient and the one remainder of division rounded toward zero. So of two operands that evaluate to
integers, the first one of the language, `/` refuses a zero divisor, and the least integer divided
by minus one, which alone has a quotient that does not fit; else its value is the quotient. `%`
refuses a zero divisor only, and its value, the remainder, always fits. Where both have a value,
these give the dividend back. -/
theorem division_truncates :
    (∀ (left right : Int) (operator : String),
      ((∃ cause, divide left right operator = .error cause) ↔ right = 0) ∧
      (right = 0 → divide left right operator = .error (.divisionByZero operator)) ∧
      (right ≠ 0 → ∃ q r, divide left right operator = .ok (q, r) ∧
        ∀ q' r', Truncates left right q' r' ↔ q' = q ∧ r' = r)) ∧
    ∀ (mode : Mode) (level : Nat), (∀ bound ∈ mode.nesting, level < bound) →
      ∀ (x y : Expr) (a b : Int), Fits a →
      let answer := fun (f : String) (s : State) =>
        ((Expr.compound f [x, y]).eval mode level).result s
      let given := fun (f : String) (s s' : State) =>
        IntegersInTurn mode (level + 1) [x, y] (s.noting mode (.applied f 2)) [a, b] s'
      (∀ s s', given "/" s s' →
        (answer "/" s = (.error (.failed (.divisionByZero "/")), s') ↔ b = 0) ∧
        (answer "/" s = (.error (.failed (.overflow "/" 2147483648)), s') ↔
          a = -2147483648 ∧ b = -1) ∧
        (b ≠ 0 → ¬(a = -2147483648 ∧ b = -1) →
          ∃ q r, divide a b "/" = .ok (q, r) ∧ answer "/" s = (.ok (.integer q), s'))) ∧
      (∀ s s', given "%" s s' →
        (answer "%" s = (.error (.failed (.divisionByZero "%")), s') ↔ b = 0) ∧
        (b ≠ 0 → ∃ q r, divide a b "%" = .ok (q, r) ∧ answer "%" s = (.ok (.integer r), s') ∧
          Fits r)) ∧
      ∀ s s' t t' q r, given "/" s s' → given "%" t t' →
        (answer "/" s).1 = .ok (.integer q) → (answer "%" t).1 = .ok (.integer r) →
        a = b * q + r := by
  refine ⟨?_, ?_⟩
  · intro left right operator
    by_cases hright : right = 0
    · subst hright
      exact ⟨⟨fun _ => rfl, fun _ => ⟨_, rfl⟩⟩, fun _ => rfl, fun h => absurd rfl h⟩
    · have hd := @divide_of_ne left right hright operator
      refine ⟨by simp [hd, hright], fun h => absurd h hright, fun _ => ⟨_, _, hd, ?_⟩⟩
      exact fun q' r' => Truncates.iff_tdiv_tmod left hright
  · intro mode level hlevel x y a b ha answer given
    refine ⟨?_, ?_, ?_⟩
    · intro s s' h
      have hanswer : answer "/" s = _ := result_div hlevel ha h
      rw [hanswer]
      by_cases hb : b = 0
      · simp [hb]
      · by_cases hmin : a = -2147483648 ∧ b = -1
        · simp [hmin]
        · simp [hb, hmin, divide_of_ne hb]
    · intro s s' h
      have hanswer : answer "%" s = _ := result_mod hlevel h
      rw [hanswer]
      by_cases hb : b = 0
      · simp [hb]
      · have hfits : Fits (a.tmod b) := fits_tmod ha b
        exact ⟨by simp [hb], fun _ => ⟨_, _, divide_of_ne hb _, by rw [if_neg hb], hfits⟩⟩
    · intro s s' t t' q r hs ht hq hr
      have hanswer : answer "/" s = _ := result_div hlevel ha hs
      have hanswer' : answer "%" t = _ := result_mod hlevel ht
      rw [hanswer] at hq
      rw [hanswer'] at hr
      by_cases hb : b = 0
      · simp [hb] at hr
      · by_cases hmin : a = -2147483648 ∧ b = -1
        · simp [hmin] at hq
        · simp only [hb, hmin, if_false, Except.ok.injEq, Value.integer.injEq] at hq hr
          rw [← hq, ← hr]
          exact (Int.mul_tdiv_add_tmod a b).symm

/-- The least integer has no quotient by minus one, but a remainder. -/
theorem least_by_minus_one :
    let operands : List Expr := [.symbol "x", .literal (.integer (-1))]
    let s : State := ⟨Env.ofList [("x", .integer (-2147483648))], "", #[]⟩
    ((Expr.compound "/" operands).eval ⟨false, 0, none, none⟩ 0).result s =
      (.error (.failed (.overflow "/" 2147483648)), s) ∧
    ((Expr.compound "%" operands).eval ⟨false, 0, none, none⟩ 0).result s =
      (.ok (.integer 0), s) := by
  intro operands s
  have hgiven : IntegersInTurn ⟨false, 0, none, none⟩ 1 operands s [-2147483648, -1] s :=
    .cons rfl (.cons rfl (.nil s))
  obtain ⟨hquotient, hremainder, -⟩ := division_truncates.2 ⟨false, 0, none, none⟩ 0 (by simp)
    (.symbol "x") (.literal (.integer (-1))) (-2147483648) (-1) (by decide)
  obtain ⟨q, r, hd, hanswer, -⟩ := (hremainder s s hgiven).2 (by decide)
  obtain rfl : r = 0 := (divide_eq_ok_iff.mp hd).2.2
  exact ⟨(hquotient s s hgiven).2.1.mpr ⟨rfl, rfl⟩, hanswer⟩

end Lisplet
