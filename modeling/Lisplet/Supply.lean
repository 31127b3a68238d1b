import Lisplet.Error

/-!
# Items delivered on demand

Tokens are made only when the reader asks for them, so a bad piece of text is noticed only once
everything before it has been taken. A `Supply` is such a sequence written out: the items it
delivers and, if it breaks off, the error that the next demand raises. The error is raised once;
after that the supply is at its end.
-/

namespace Lisplet

structure Supply (α : Type) where
  items : List α
  fault : Option Error
  deriving DecidableEq

namespace Supply

variable {α β : Type}

/-- Nothing left. -/
def empty : Supply α := ⟨[], none⟩

/-- A list delivers its members and then ends. -/
def ofList (items : List α) : Supply α := ⟨items, none⟩

/-- Everything at once, or the error that would end the delivery. -/
def toList (s : Supply α) : Except Error (List α) :=
  match s.fault with
  | none => .ok s.items
  | some e => .error e

/-- Takes the next item, if there is one. -/
def next (s : Supply α) : Except Error (Option α) × Supply α :=
  match s.items, s.fault with
  | item :: items, fault => (.ok (some item), ⟨items, fault⟩)
  | [], none => (.ok none, empty)
  | [], some e => (.error e, empty)

/-- Converts the items still to come, `done` being those converted before, latest first. -/
def convertFrom (f : α → Except Error β) (fault : Option Error) :
    List β → List α → Supply β
  | done, [] => ⟨done.reverse, fault⟩
  | done, a :: as =>
    match f a with
    | .ok b => convertFrom f fault (b :: done) as
    | .error e => ⟨done.reverse, some e⟩

/-- Converts each item as it is delivered; the first that cannot be converted ends the supply. -/
def convert (f : α → Except Error β) (s : Supply α) : Supply β :=
  convertFrom f s.fault [] s.items

theorem convertFrom_eq (f : α → Except Error β) (fault : Option Error) (done : List β)
    (as : List α) :
    convertFrom f fault done as =
      ⟨done.reverse ++ (convertFrom f fault [] as).items, (convertFrom f fault [] as).fault⟩ := by
  induction as generalizing done with
  | nil => simp [convertFrom]
  | cons a as ih =>
    cases h : f a with
    | error e => simp [convertFrom, h]
    | ok b =>
      simp only [convertFrom, h]
      rw [ih (b :: done), ih [b]]
      simp

@[simp] theorem convert_nil (f : α → Except Error β) (fault : Option Error) :
    convert f ⟨[], fault⟩ = ⟨[], fault⟩ := rfl

theorem convert_cons_ok {f : α → Except Error β} {a : α} {b : β} (h : f a = .ok b)
    (as : List α) (fault : Option Error) :
    convert f ⟨a :: as, fault⟩ =
      ⟨b :: (convert f ⟨as, fault⟩).items, (convert f ⟨as, fault⟩).fault⟩ := by
  simp only [convert, convertFrom, h]
  rw [convertFrom_eq]
  simp

theorem convert_cons_error {f : α → Except Error β} {a : α} {e : Error} (h : f a = .error e)
    (as : List α) (fault : Option Error) :
    convert f ⟨a :: as, fault⟩ = ⟨[], some e⟩ := by
  simp [convert, convertFrom, h]

end Supply

end Lisplet
