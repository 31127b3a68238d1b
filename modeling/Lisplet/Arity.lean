/-!
# How many arguments an operator takes

The least number, and the greatest one unless there is no bound. The bounds of an operator are
natural numbers; an embedding program may check against any integers.
-/

namespace Lisplet

structure Arity where
  least : Int
  /-- The greatest number; without one there is no bound. -/
  most : Option Int
  deriving DecidableEq

namespace Arity

def atLeast (n : Nat) : Arity := ⟨n, none⟩

def exactly (n : Nat) : Arity := ⟨n, some n⟩

def between (m n : Nat) : Arity := ⟨m, some n⟩

/-- The number of arguments is allowed. -/
def Admits (a : Arity) (n : Nat) : Prop :=
  a.least ≤ n ∧ ∀ most ∈ a.most, n ≤ most

instance (a : Arity) (n : Nat) : Decidable (a.Admits n) :=
  inferInstanceAs (Decidable (_ ∧ _))

/-- The arity in a message. -/
def text (a : Arity) : String :=
  match a.most with
  | none => "at least " ++ a.least.repr
  | some most =>
    if a.least = most then "exactly " ++ most.repr
    else a.least.repr ++ " to " ++ most.repr

theorem admits_atLeast {m n : Nat} : (atLeast m).Admits n ↔ m ≤ n := by
  simp [Admits, atLeast]

theorem admits_exactly {m n : Nat} : (exactly m).Admits n ↔ n = m := by
  simp only [Admits, exactly, Option.mem_some_iff, forall_eq']
  omega

theorem admits_between {l m n : Nat} : (between l m).Admits n ↔ l ≤ n ∧ n ≤ m := by
  simp [Admits, between]

end Arity

end Lisplet
