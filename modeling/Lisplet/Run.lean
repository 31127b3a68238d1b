import Lisplet.Env
import Lisplet.Record

/-!
# Runs

Evaluation changes a state: the environment, the text printed so far and the debug records. A run
that ends in an error keeps every change made before it. A loop may make no more passes than its
mode allows; running out of them is an ending of its own, neither a value nor an error, so that an
answer never depends on the bound once it is large enough.
-/

namespace Lisplet

structure State where
  env : Env
  /-- The text printed so far. -/
  output : String
  /-- The debug records made so far. -/
  trace : Array Record

/-- Why a run ends without a value. -/
inductive Halt where
  | failed (cause : Error)
  /-- A loop has used up its passes. -/
  | exhausted
  deriving DecidableEq

/-- How runs are carried out. -/
structure Mode where
  /-- Whether debug records are made. -/
  debug : Bool
  /-- The most passes that one loop may make. -/
  passes : Nat
  /-- The nesting from which on compounds are refused; without one there is no bound. -/
  nesting : Option Nat
  /-- The height beyond which an expression cannot be shown in a record; without one any can. -/
  showing : Option Nat

/-- A computation over the state of a session. -/
abbrev Run := ExceptT Halt (StateM State)

namespace Run

variable {α β : Type}

/-- What a run ends with, and the state it leaves. -/
def result (run : Run α) (s : State) : Except Halt α × State :=
  StateT.run (ExceptT.run run) s

/-- The run that changes nothing and ends in an error. -/
def fail (cause : Error) : Run α :=
  throw (.failed cause)

/-- A computation that needs no state. -/
def lift : Except Error α → Run α
  | .ok a => pure a
  | .error e => fail e

/-- Prints text. -/
def print (text : String) : Run Unit :=
  modify fun s => { s with output := s.output ++ text }

/-- Makes a debug record, if records are made. -/
def record (mode : Mode) (r : Record) : Run Unit :=
  if mode.debug then modify fun s => { s with trace := s.trace.push r } else pure ()

/-- The value bound to a name. -/
def lookup (name : String) : Run Value := do
  let s ← get
  match s.env.get? name with
  | some value => pure value
  | none => fail (.unboundSymbol name)

/-- Binds a name. The record made of it shows the value, so with debugging on a foreign object is
refused before it is bound. -/
def define (mode : Mode) (name : String) (value : Value) : Run Unit := do
  if mode.debug then
    let shown ← lift value.render
    record mode (.defined name shown)
  modify fun s => { s with env := s.env.define name value }

@[simp] theorem result_pure (a : α) (s : State) :
    (pure a : Run α).result s = (.ok a, s) := rfl

@[simp] theorem result_fail (e : Error) (s : State) :
    (fail e : Run α).result s = (.error (.failed e), s) := rfl

theorem result_bind (run : Run α) (next : α → Run β) (s : State) :
    (run >>= next).result s =
      match run.result s with
      | (.ok a, s) => (next a).result s
      | (.error h, s) => (.error h, s) := by
  simp only [result, ExceptT.run_bind, StateT.run_bind]
  rcases h : StateT.run (ExceptT.run run) s with ⟨a | a, s'⟩ <;> rfl

@[simp] theorem result_throw (h : Halt) (s : State) :
    (throw h : Run α).result s = (.error h, s) := rfl

@[simp] theorem result_lift_ok (a : α) (s : State) :
    (lift (.ok a) : Run α).result s = (.ok a, s) := rfl

@[simp] theorem result_lift_error (e : Error) (s : State) :
    (lift (.error e) : Run α).result s = (.error (.failed e), s) := rfl

@[simp] theorem result_print (text : String) (s : State) :
    (print text).result s = (.ok (), { s with output := s.output ++ text }) := rfl

theorem result_record (mode : Mode) (r : Record) (s : State) :
    (record mode r).result s =
      (.ok (), if mode.debug then { s with trace := s.trace.push r } else s) := by
  unfold record
  split <;> rfl

theorem result_lookup (name : String) (s : State) :
    (lookup name).result s =
      match s.env.get? name with
      | some value => (.ok value, s)
      | none => (.error (.failed (.unboundSymbol name)), s) := by
  have h : (lookup name).result s =
      (match s.env.get? name with
        | some value => pure value
        | none => fail (.unboundSymbol name) : Run Value).result s := rfl
  rw [h]
  split <;> rfl

/-- Without debugging any value is bound. -/
theorem result_define_of_not_debug {mode : Mode} (hm : mode.debug = false) (name : String)
    (value : Value) (s : State) :
    (define mode name value).result s =
      (.ok (), { s with env := s.env.define name value }) := by
  simp only [define, hm]
  rfl

/-- A value that has a rendering is bound in either mode. -/
theorem result_define_of_render {value : Value} {shown : String} (hv : value.render = .ok shown)
    (mode : Mode) (name : String) (s : State) :
    (define mode name value).result s =
      (.ok (), { s with
        env := s.env.define name value
        trace := if mode.debug then s.trace.push (.defined name shown) else s.trace }) := by
  by_cases hm : mode.debug = true
  · simp only [define, record, hm, hv]
    rfl
  · rw [result_define_of_not_debug (Bool.eq_false_iff.mpr hm), if_neg hm]

theorem result_tryCatch (run : Run α) (handle : Halt → Run α) (s : State) :
    (tryCatch run handle).result s =
      match run.result s with
      | (.ok a, s) => (.ok a, s)
      | (.error h, s) => (handle h).result s := by
  change StateT.run (ExceptT.run (ExceptT.tryCatch run handle)) s = _
  simp only [result, ExceptT.tryCatch, ExceptT.run_mk, StateT.run_bind]
  rcases hr : StateT.run (ExceptT.run run) s with ⟨a | a, s'⟩
  · change StateT.run run s = _ at hr
    rw [hr]
    rfl
  · change StateT.run run s = _ at hr
    rw [hr]
    rfl

end Run

end Lisplet
