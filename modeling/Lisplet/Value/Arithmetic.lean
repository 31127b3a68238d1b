import Lisplet.Error

/-!
# Integers of the language

Results are computed without bound and then checked to fit 32 bits. Division goes through the
absolute values and fixes the sign afterwards. That rounds toward zero, `signedQuotient_eq_tdiv`, so
the remainder has the sign of the dividend and needs no check of its own.
-/

namespace Lisplet

/-- The result of an operator, provided that it is an integer of the language. One with more
digits than can be shown is refused without being shown. -/
def checkedInteger (n : Int) (operator : String) : Except Error Int :=
  if Fits n then .ok n
  else if TooWide n then .error .integerTooWide
  else .error (.overflow operator n)

/-- The quotient of the absolute values, negated if just one of the two numbers is negative. -/
def signedQuotient (left right : Int) : Int :=
  let quotient : Int := (left.natAbs / right.natAbs : Nat)
  if decide (left < 0) ≠ decide (right < 0) then -quotient else quotient

/-- Quotient rounded toward zero and the remainder that goes with it. -/
def divide (left right : Int) (operator : String) : Except Error (Int × Int) :=
  if right = 0 then .error (.divisionByZero operator)
  else
    let quotient := signedQuotient left right
    .ok (quotient, left - right * quotient)

theorem checkedInteger_eq_ok_iff {n m : Int} {operator : String} :
    checkedInteger n operator = .ok m ↔ m = n ∧ Fits n := by
  unfold checkedInteger
  split
  case isTrue h => exact ⟨fun he => by cases he; exact ⟨rfl, h⟩, fun he => by rw [he.1]⟩
  case isFalse h => split <;> simp [h]

/-- The sign fixed afterwards, the quotient of the absolute values is the quotient rounded toward
zero. -/
theorem signedQuotient_eq_tdiv (left right : Int) :
    signedQuotient left right = left.tdiv right := by
  have hofNat : ∀ n : Nat, decide (Int.ofNat n < 0) = false := by simp
  have hnegSucc : ∀ n : Nat, decide (Int.negSucc n < 0) = true := by simp [Int.negSucc_lt_zero]
  cases left with
  | ofNat m => cases right <;> simp only [signedQuotient, hofNat, hnegSucc] <;> rfl
  | negSucc m => cases right <;> simp only [signedQuotient, hofNat, hnegSucc] <;> rfl

/-- What the quotient leaves of the dividend is the remainder with the sign of the dividend. -/
theorem sub_mul_signedQuotient (left right : Int) :
    left - right * signedQuotient left right = left.tmod right := by
  rw [signedQuotient_eq_tdiv]
  have hdivision := Int.mul_tdiv_add_tmod left right
  omega

theorem divide_eq_ok_iff {left right q r : Int} {operator : String} :
    divide left right operator = .ok (q, r) ↔
      right ≠ 0 ∧ q = left.tdiv right ∧ r = left.tmod right := by
  simp only [divide, sub_mul_signedQuotient]
  rw [signedQuotient_eq_tdiv]
  split
  case isTrue h => simp [h]
  case isFalse h => simp [h, eq_comm]

theorem divide_of_ne {left right : Int} (h : right ≠ 0) (operator : String) :
    divide left right operator = .ok (left.tdiv right, left.tmod right) :=
  divide_eq_ok_iff.mpr ⟨h, rfl, rfl⟩

end Lisplet
