import Lisplet.CommandLine
import Lisplet.Proofs.CanonicalText
import Lisplet.Proofs.Preservation

/-!
# A session holds values of the language only

A session is used through four kinds of calls: one expression, a script, a line for the read loop,
and a script file. Whatever texts they are given and however they end, a session that starts with
values of the language goes on with values of the language, and only such values are returned. Text
gives no others, because reading lets only integers that fit become literals; from there on it is
evaluation that keeps to them.
-/

namespace Lisplet

open Run

theorem proper_of_parseAllText {limit : Limit} {source : String} {es : List Expr}
    (hp : parseAllText limit source = .ok es) : ∀ e ∈ es, e.Proper := by
  intro e he
  obtain ⟨ts, haccepted, hlexical⟩ := accepted_of_parseAllText hp e he
  exact (haccepted.of_lexical hlexical).2.1

theorem keeps_evalEach (mode : Mode) {es : List Expr} (hes : ∀ e ∈ es, e.Proper) {last : Value}
    (hlast : last.Proper) : Keeps (evalEach mode last es) Value.Proper := by
  induction es generalizing last with
  | nil => exact .pure hlast
  | cons e es ih =>
    rw [List.forall_mem_cons] at hes
    rw [evalEach]
    exact (e.keeps_eval mode 0 hes.1).bind fun v hv => ih hes.2 hv

theorem keeps_evalText (mode : Mode) (limit : Limit) (source : String) :
    Keeps (evalText mode limit source) Value.Proper := by
  have hparse : Keeps (lift (parseText limit source)) Expr.Proper :=
    .lift fun e he => (parseText_inv he).2.2.1
  rw [evalText]
  refine hparse.bind fun e he => ?_
  have heval := e.keeps_eval mode 0 he
  split
  · refine Keeps.bind (.lift fun _ _ => trivial) fun text _ => ?_
    exact (Keeps.record mode _).bind fun _ _ => heval
  · exact heval

theorem keeps_evalScript (mode : Mode) (limit : Limit) (source : String) :
    Keeps (evalScript mode limit source) Value.Proper := by
  have hparse : Keeps (lift (parseAllText limit source)) fun es => ∀ e ∈ es, e.Proper :=
    .lift fun es hes => proper_of_parseAllText hes
  rw [evalScript]
  refine hparse.bind fun es hes => ?_
  exact (Keeps.record mode _).bind fun _ _ => keeps_evalEach mode hes trivial

theorem keeps_runScript (mode : Mode) (limit : Limit) (octets : List UInt8) :
    Keeps (runScript mode limit octets) Value.Proper := by
  rw [runScript]
  exact Keeps.bind (.lift fun _ _ => trivial) fun source _ => keeps_evalScript mode limit source

/-- The text is the rendering of a value of the language, or reports an error of the language. -/
def Dialogue.Answers (text : String) : Prop :=
  (∃ v : Value, v.Proper ∧ v.render = .ok text) ∨
    ∃ e : Error, e.InLanguage ∧ text = "error: " ++ e.message

theorem Dialogue.keeps_evalFragment (mode : Mode) (limit : Limit) (fragment : String) :
    Keeps (evalFragment mode limit fragment) Answers := by
  refine Keeps.tryCatch ?_ fun halt => ?_
  · refine (keeps_evalText mode limit fragment).bind fun v hv => .lift fun text htext => ?_
    exact .inl ⟨v, hv, htext⟩
  · match halt with
    | .exhausted => exact .throw _
    | .failed e =>
      rw [report]
      split
      case isTrue he => exact (Keeps.record mode _).bind fun _ _ => .pure (.inr ⟨e, he, rfl⟩)
      case isFalse => exact .throw _

/-- The ways to use a session. -/
inductive Call where
  /-- Text of one expression. -/
  | expression (source : String)
  | script (source : String)
  /-- A line for the read loop. -/
  | line (text : String)
  /-- The script file at a path, among the files that there are. -/
  | file (entryAt : String → Entry) (path : String)

/-- What a call returns. -/
inductive Answer where
  | value (v : Value)
  /-- The read loop has something to show, or waits for more lines. -/
  | shown (text : Option String)
  | done

def Answer.Proper : Answer → Prop
  | .value v => v.Proper
  | .shown text => ∀ t ∈ text, Dialogue.Answers t
  | .done => True

/-- Carries out a run in the session, apart from the lines gathered by the read loop. -/
def Dialogue.during (d : Dialogue) (run : Run Answer) : Except Halt Answer × Dialogue :=
  let (answer, state) := run.result d.state
  (answer, ⟨d.buffer, state⟩)

/-- Carries out a call. -/
def Call.perform (mode : Mode) (limit : Limit) (d : Dialogue) :
    Call → Except Halt Answer × Dialogue
  | .expression source => d.during do
    let v ← evalText mode limit source
    return .value v
  | .script source => d.during do
    let v ← evalScript mode limit source
    return .value v
  | .line text =>
    let (answer, d) := d.feed mode limit text
    (answer.map .shown, d)
  | .file entryAt path => d.during do
    let octets ← lift (Path.read entryAt path)
    let _ ← runScript mode limit octets
    return .done

/-- The states of a session after any number of calls. -/
inductive Dialogue.Reaches (start : Dialogue) : Dialogue → Prop
  | start : Reaches start start
  | call {d : Dialogue} (h : Reaches start d) (mode : Mode) (limit : Limit) (call : Call) :
      Reaches start (call.perform mode limit d).2

theorem map_eq_ok {α β : Type} {f : α → β} {r : Except Halt α} {b : β} (h : r.map f = .ok b) :
    ∃ a, r = .ok a ∧ f a = b := by
  cases r with
  | error halt => cases h
  | ok a => exact ⟨a, rfl, Except.ok.inj h⟩

theorem map_eq_error {α β : Type} {f : α → β} {r : Except Halt α} {halt : Halt}
    (h : r.map f = .error halt) : r = .error halt := by
  cases r with
  | ok a => cases h
  | error halt' =>
    cases h
    rfl

theorem Dialogue.during_proper {d : Dialogue} (hd : d.state.env.Proper) {run : Run Answer}
    (hrun : Keeps run Answer.Proper) :
    (d.during run).2.state.env.Proper ∧ ∀ answer, (d.during run).1 = .ok answer → answer.Proper :=
  hrun d.state hd

theorem Dialogue.feed_proper {d : Dialogue} (hd : d.state.env.Proper) (mode : Mode) (limit : Limit)
    (line : String) :
    (d.feed mode limit line).2.state.env.Proper ∧
      ∀ text, (d.feed mode limit line).1 = .ok text → ∀ t ∈ text, Answers t := by
  by_cases hskip : d.buffer = "" ∧ Text.allBlank line = true
  · rw [feed_of_blank hskip.1 hskip.2]
    refine ⟨hd, ?_⟩
    intro text ht
    cases ht
    simp
  · cases hbalanced : isBalanced (d.buffer ++ line) with
    | false =>
      rw [feed_of_not_balanced hskip hbalanced]
      refine ⟨hd, ?_⟩
      intro text ht
      cases ht
      simp
    | true =>
      obtain ⟨henv, hanswer⟩ := keeps_evalFragment mode limit (d.buffer ++ line) d.state hd
      rw [feed_of_balanced hskip hbalanced]
      refine ⟨henv, ?_⟩
      intro text ht t hmem
      obtain ⟨shown, hshown, rfl⟩ := map_eq_ok ht
      obtain rfl := Option.some.inj hmem
      exact hanswer _ hshown

/-- One call keeps to values of the language. -/
theorem Call.perform_proper {d : Dialogue} (hd : d.state.env.Proper) (mode : Mode) (limit : Limit)
    (call : Call) :
    (call.perform mode limit d).2.state.env.Proper ∧
      ∀ answer, (call.perform mode limit d).1 = .ok answer → answer.Proper := by
  cases call with
  | expression source =>
    exact d.during_proper hd ((keeps_evalText mode limit source).bind fun v hv => .pure hv)
  | script source =>
    exact d.during_proper hd ((keeps_evalScript mode limit source).bind fun v hv => .pure hv)
  | line text =>
    obtain ⟨henv, hanswer⟩ := d.feed_proper hd mode limit text
    refine ⟨henv, ?_⟩
    intro answer ha
    obtain ⟨shown, hshown, rfl⟩ := map_eq_ok ha
    exact hanswer shown hshown
  | file entryAt path =>
    refine d.during_proper hd ?_
    refine Keeps.bind (.lift fun _ _ => trivial) fun octets _ => ?_
    exact (keeps_runScript mode limit octets).bind fun _ _ => .pure trivial

theorem Dialogue.Reaches.proper {start d : Dialogue} (h : start.Reaches d)
    (hs : start.state.env.Proper) : d.state.env.Proper := by
  induction h with
  | start => exact hs
  | call _ mode limit call ih => exact (call.perform_proper ih mode limit).1

/-- Starting from values of the language, a session holds only such values after every call, and
every call that returns returns only such values. In particular every remainder fits. -/
theorem sessions_hold_proper_values {start d : Dialogue} (hs : start.state.env.Proper)
    (h : start.Reaches d) :
    d.state.env.Proper ∧
    (∀ mode limit (call : Call) answer, (call.perform mode limit d).1 = .ok answer →
      answer.Proper) ∧
    (∀ mode level (a b : Expr) v, a.Proper → b.Proper →
      (((Expr.compound "%" [a, b]).eval mode level).result d.state).1 = .ok v →
      ∃ n, v = .integer n ∧ Fits n) := by
  have hd := h.proper hs
  refine ⟨hd, ?_, ?_⟩
  · intro mode limit call answer ha
    exact (call.perform_proper hd mode limit).2 answer ha
  · intro mode level a b v ha hb hv
    exact (Expr.keeps_remainder mode level ha hb d.state hd).2 v hv

/-- The least integer leaves no remainder by minus one, which the script binds before it fails: the
quotient does not fit. -/
theorem overflow_leaves_proper_values :
    let start : Dialogue := ⟨"", Env.ofList [("x", .integer (-2147483648))], "", #[]⟩
    let d := ((Call.script "(global y (% x -1)) (global z (/ x -1))").perform
      ⟨false, 0, none, none⟩ ⟨2, 900⟩ start).2
    d.state.env.bindings = [("x", .integer (-2147483648)), ("y", .integer 0)] ∧
      d.state.env.Proper := by
  intro start d
  have hs : start.state.env.Proper := by
    unfold Env.Proper
    decide
  have hr : start.Reaches d := .call .start _ _ _
  exact ⟨by decide +kernel, (sessions_hold_proper_values hs hr).1⟩

end Lisplet
