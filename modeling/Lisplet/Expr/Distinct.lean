import Lisplet.Expr

/-!
# Telling expressions apart

Which of several expressions are equal, how many different ones there are, and how each is written.
The different ones are counted as the members of a set, so an object that can be in no set is
refused wherever it stands in an expression, and before any expression is written.
-/

namespace Lisplet

namespace Expr

mutual
/-- The type of the first object in an expression that can be in no set. -/
def unhashable? : Expr → Option String
  | .literal v => if v.hashable then none else some v.typeName
  | .compound _ args => argsUnhashable? args
  | .foreign (.object object) => if object.hashable then none else some object.typeName
  | _ => none

def argsUnhashable? : List Expr → Option String
  | [] => none
  | arg :: args => (unhashable? arg).or (argsUnhashable? args)
end

/-- For each expression the place of the first one equal to it. -/
def firstPlaces (es : List Expr) : List Nat :=
  es.map fun e => es.idxOf e

end Expr

/-- What is found out about several expressions. -/
structure Census where
  firstPlaces : List Nat
  /-- The number of different expressions. -/
  distinct : Nat
  texts : List String

/-- Compares, counts and writes the expressions. -/
def Census.of (es : List Expr) : Except Error Census :=
  match Expr.argsUnhashable? es with
  | some typeName => .error (.unsupported .member typeName)
  | none => do
    let texts ← es.mapM Expr.text
    return ⟨Expr.firstPlaces es, es.eraseDups.length, texts⟩

namespace Expr

/-- The place given for an expression holds an equal one. -/
theorem getElem_firstPlaces {es : List Expr} {i place : Nat}
    (h : (firstPlaces es)[i]? = some place) :
    es[place]? = es[i]? := by
  simp only [firstPlaces, List.getElem?_map, Option.map_eq_some_iff] at h
  obtain ⟨e, he, rfl⟩ := h
  have hlt := List.idxOf_lt_length_of_mem (List.mem_of_getElem? he)
  rw [List.getElem?_eq_getElem hlt, List.getElem_idxOf hlt, he]

end Expr

end Lisplet
