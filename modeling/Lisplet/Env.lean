import Lisplet.Value.Render

/-!
# Environments

One flat environment holds every binding of a session. Names stay in the order of their first
definition; defining a name again changes its value and not its place, and nothing removes a
binding. No name occurs twice, which is part of the type.
-/

namespace Lisplet

/-- The bindings with `name` bound to `value`, in its old place or else at the end. -/
def putBinding (name : String) (value : Value) :
    List (String × Value) → List (String × Value)
  | [] => [(name, value)]
  | (x, v) :: rest => if x = name then (x, value) :: rest else (x, v) :: putBinding name value rest

theorem names_putBinding (name : String) (value : Value) (bindings : List (String × Value)) :
    (putBinding name value bindings).map Prod.fst =
      if name ∈ bindings.map Prod.fst then bindings.map Prod.fst
      else bindings.map Prod.fst ++ [name] := by
  induction bindings with
  | nil => simp [putBinding]
  | cons b rest ih =>
    obtain ⟨x, v⟩ := b
    by_cases h : x = name
    · simp [putBinding, h]
    · have hn : name ≠ x := fun he => h he.symm
      simp only [putBinding, if_neg h, List.map_cons, ih, List.mem_cons, hn, false_or]
      split <;> rfl

theorem nodup_names_putBinding (name : String) (value : Value)
    {bindings : List (String × Value)} (h : (bindings.map Prod.fst).Nodup) :
    ((putBinding name value bindings).map Prod.fst).Nodup := by
  rw [names_putBinding]
  split
  case isTrue => exact h
  case isFalse hn =>
    refine List.nodup_append.mpr ⟨h, by simp, ?_⟩
    intro a ha b hb hab
    rw [List.mem_singleton] at hb
    exact hn (hb ▸ hab ▸ ha)

/-- The bindings of a session, in order of first definition. -/
@[ext]
structure Env where
  bindings : List (String × Value)
  distinct : (bindings.map Prod.fst).Nodup

namespace Env

def empty : Env := ⟨[], List.nodup_nil⟩

/-- The names bound, in order of first definition. -/
def names (env : Env) : List String := env.bindings.map Prod.fst

def get? (env : Env) (name : String) : Option Value := env.bindings.lookup name

/-- Binds a name, in the place it had or after all others. -/
def define (env : Env) (name : String) (value : Value) : Env :=
  ⟨putBinding name value env.bindings, nodup_names_putBinding name value env.distinct⟩

/-- Defines each binding in turn, so that the last value given to a name wins. -/
def ofList (bindings : List (String × Value)) : Env :=
  bindings.foldl (fun env b => env.define b.1 b.2) empty

/-- The bindings as `name: value`, separated by commas. -/
def bindingsText : List (String × Value) → Except Error String
  | [] => .ok ""
  | [(name, value)] => do
    let shown ← value.render
    return name ++ ": " ++ shown
  | (name, value) :: rest => do
    let shown ← value.render
    let more ← bindingsText rest
    return name ++ ": " ++ shown ++ ", " ++ more

/-- The environment between braces. -/
def text (env : Env) : Except Error String := do
  let inner ← bindingsText env.bindings
  return "\x7b" ++ inner ++ "\x7d"

/-- The environment as an object of the embedding program. -/
def shown (env : Env) : Except Error String := do
  let inner ← env.text
  return "<Environment " ++ inner ++ ">"

theorem names_define (env : Env) (name : String) (value : Value) :
    (env.define name value).names =
      if name ∈ env.names then env.names else env.names ++ [name] :=
  names_putBinding name value env.bindings

theorem get?_define_self (env : Env) (name : String) (value : Value) :
    (env.define name value).get? name = some value := by
  obtain ⟨bindings, distinct⟩ := env
  simp only [define, get?]
  clear distinct
  induction bindings with
  | nil => simp [putBinding]
  | cons b rest ih =>
    obtain ⟨x, v⟩ := b
    by_cases h : x = name
    · simp [putBinding, h]
    · have hb : (name == x) = false := beq_false_of_ne (fun he => h he.symm)
      rw [putBinding, if_neg h, List.lookup_cons, hb]
      exact ih

theorem get?_define_of_ne (env : Env) {name other : String} (value : Value) (h : other ≠ name) :
    (env.define name value).get? other = env.get? other := by
  obtain ⟨bindings, distinct⟩ := env
  simp only [define, get?]
  clear distinct
  induction bindings with
  | nil => simp [putBinding, List.lookup_cons, beq_false_of_ne h]
  | cons b rest ih =>
    obtain ⟨x, v⟩ := b
    by_cases hx : x = name
    · rw [putBinding, if_pos hx, List.lookup_cons, List.lookup_cons, hx, beq_false_of_ne h]
    · rw [putBinding, if_neg hx, List.lookup_cons, List.lookup_cons, ih]

end Env

end Lisplet
