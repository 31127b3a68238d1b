import Lisplet.Proofs.Feeding
import Lisplet.Proofs.Inheritance
import Lisplet.Proofs.Soundness

/-!
# A text is read before it is evaluated

Reading ends before evaluation begins, so an error of reading finds the session as it was, provided
that evaluation raises no such error itself. It has one, the refusal of what is nested too deeply,
and that one is out of reach: a compound is evaluated at the level at which it was read, reading has
bounded the levels, and up to the height of an expression the bound on nesting makes no difference.
With debugging on the expression read is shown in between, and where the stack does not carry that
nothing is evaluated.
-/

namespace Lisplet

open Run

/-- What can be shown in a record matters to evaluation only where a text is read. -/
theorem Expr.eval_showing (mode : Mode) (showing : Option Nat) (level : Nat) (e : Expr) :
    e.eval { mode with showing := showing } level = e.eval mode level := by
  induction e generalizing level with
  | literal | symbol | foreign => rfl
  | compound f args ih =>
    have hargs : arguments { mode with showing := showing } (level + 1) args =
        arguments mode (level + 1) args := by
      rw [arguments_eq_map, arguments_eq_map]
      refine List.map_congr_left fun arg ha => ?_
      rw [ih arg ha]
    rw [Expr.eval, Expr.eval, hargs]
    rfl

/-- An expression that the mode carries evaluates as if nesting were not bounded. -/
theorem Expr.eval_of_carries {mode : Mode} {level : Nat} {e : Expr} (hc : mode.Carries level e) :
    e.eval mode level = e.eval { mode with nesting := none } level := by
  induction e generalizing level with
  | literal v => rfl
  | symbol x => rfl
  | compound f args ih =>
    have hargs : arguments mode (level + 1) args =
        arguments { mode with nesting := none } (level + 1) args := by
      rw [arguments_eq_map, arguments_eq_map]
      refine List.map_congr_left fun arg ha => ?_
      rw [ih arg ha (carries_arg hc ha)]
    -- nothing but the compound itself and its arguments takes notice of the nesting
    rw [eval_compound hc, hargs]
    rfl
  | foreign stranger => rfl

theorem Expr.raisesOnly_eval {mode : Mode} {level : Nat} {e : Expr} (he : e.Proper)
    (hc : mode.Carries level e) : RaisesOnly Error.Raised (e.eval mode level) := by
  rw [eval_of_carries hc]
  exact (inherited_raisesOnly _ id).eval (fun hn => absurd rfl hn) e he level

/-- The nesting allowed leaves room for whatever can be read under this limit. -/
def Mode.CarriesRead (mode : Mode) (limit : Limit) : Prop :=
  ∀ bound ∈ mode.nesting, min limit.depth limit.stack ≤ (bound : Int)

/-- If a record is to show the expression, the stack carries the showing of it. -/
def Mode.Shows (mode : Mode) (e : Expr) : Prop :=
  mode.debug = true → ∀ bound ∈ mode.showing, e.height ≤ bound

instance (mode : Mode) (e : Expr) : Decidable (mode.Shows e) :=
  inferInstanceAs (Decidable (mode.debug = true → ∀ bound ∈ mode.showing, e.height ≤ bound))

theorem Mode.CarriesRead.carries {mode : Mode} {limit : Limit} (hstack : mode.CarriesRead limit)
    {e : Expr} (hroom : Room limit 0 0 e.height) : mode.Carries 0 e := by
  intro bound hb
  have hbound := hstack bound hb
  obtain hz | ⟨hlimit, hnesting⟩ := hroom
  · omega
  · omega

/-- The expression is the text, or one of the expressions of the text. -/
def ReadFrom (limit : Limit) (source : String) (e : Expr) : Prop :=
  parseText limit source = .ok e ∨ ∃ es, parseAllText limit source = .ok es ∧ e ∈ es

theorem ReadFrom.proper_and_room {limit : Limit} {source : String} {e : Expr}
    (h : ReadFrom limit source e) : e.Proper ∧ Room limit 0 0 e.height := by
  obtain hp | ⟨es, hp, he⟩ := h
  · obtain ⟨htokens, haccepted, -, -⟩ := parseText_inv hp
    have hlexical : ∀ t ∈ e.tokens, t.Lexical := by
      intro t ht
      have hmem : t ∈ (tokens source).items := by
        rw [htokens]
        exact ht
      exact (lexical_of_mem_tokens hmem).1
    exact (haccepted.of_lexical hlexical).2
  · obtain ⟨ts, haccepted, hlexical⟩ := accepted_of_parseAllText hp e he
    exact (haccepted.of_lexical hlexical).2

/-- What evaluating a text does once the text has been read as this expression. -/
def evalRead (mode : Mode) (e : Expr) : Run Value := do
  if mode.debug then
    let text ← lift (e.textWithin mode.showing)
    record mode (.parsed text)
  e.eval mode 0

section Runs

variable {mode : Mode} {limit : Limit} {source : String} {cause : Error}

theorem evalText_of_error (hp : parseText limit source = .error cause) :
    evalText mode limit source = fail cause := by
  rw [evalText, hp]
  rfl

theorem evalText_of_ok {e : Expr} (hp : parseText limit source = .ok e) :
    evalText mode limit source = evalRead mode e := by
  rw [evalText, hp]
  rfl

/-- An expression that has been read can be written. -/
theorem text_of_parseText {e : Expr} (hp : parseText limit source = .ok e) :
    ∃ text, e.text = .ok text := by
  obtain ⟨-, -, hproper, hnames⟩ := parseText_inv hp
  obtain ⟨text, htext, -⟩ := text_transcribes hproper hnames
  exact ⟨text, htext⟩

theorem evalRead_of_text {e : Expr} {text : String} (hshow : mode.Shows e)
    (htext : e.text = .ok text) :
    evalRead mode e = (record mode (.parsed text) >>= fun _ => e.eval mode 0) := by
  cases hm : mode.debug with
  | true => simp [evalRead, Expr.textWithin_of_le (hshow hm), htext, record, hm, lift]
  | false => simp [evalRead, record, hm]

/-- What is to be shown and cannot be is not evaluated. -/
theorem evalRead_of_not_shows {e : Expr} (hshow : ¬mode.Shows e) :
    evalRead mode e = fail .stackExhausted := by
  obtain ⟨hm, bound, hb, hheight⟩ : mode.debug = true ∧
      ∃ bound ∈ mode.showing, ¬e.height ≤ bound := by simpa [Mode.Shows] using hshow
  have htext : e.textWithin mode.showing = .error .stackExhausted := by
    rw [Option.mem_def.mp hb]
    exact if_pos (by simpa using hheight)
  simp only [evalRead, hm, htext]
  rfl

theorem evalScript_of_error (hp : parseAllText limit source = .error cause) :
    evalScript mode limit source = fail cause := by
  rw [evalScript, hp]
  rfl

theorem evalScript_of_ok {es : List Expr} (hp : parseAllText limit source = .ok es) :
    evalScript mode limit source =
      (record mode (.evaluating es.length) >>= fun _ => evalEach mode .nil es) := by
  rw [evalScript, hp]
  rfl

theorem raisesOnly_evalEach {es : List Expr} (hes : ∀ e ∈ es, e.Proper ∧ mode.Carries 0 e)
    (last : Value) : RaisesOnly Error.Raised (evalEach mode last es) := by
  induction es generalizing last with
  | nil => exact (inherited_raisesOnly mode id).pure last
  | cons e es ih =>
    rw [List.forall_mem_cons] at hes
    exact (Expr.raisesOnly_eval hes.1.1 hes.1.2).bind fun v => ih hes.2 v

end Runs

/-- The error says that a text cannot be read: a syntax error, or digits too many to convert. -/
def Error.FromReading (cause : Error) : Prop :=
  cause.category = .reading ∨ ∃ digits, cause = .numeralTooLong digits

theorem Error.Raised.not_fromReading {cause : Error} (h : cause.Raised) : ¬cause.FromReading := by
  cases h <;> simp [FromReading, category]

/-- An error of reading ends the run before it has changed anything. -/
def Run.ReadsFirst {α : Type} (run : Run α) : Prop :=
  ∀ (s s' : State) (cause : Error), run.result s = (.error (.failed cause), s') →
    cause.FromReading → s' = s

namespace Run.ReadsFirst

variable {α : Type}

theorem fail (cause : Error) : ReadsFirst (fail cause : Run α) := by
  intro s s' cause' hr _
  exact (congrArg Prod.snd hr).symm

theorem of_raisesOnly {run : Run α} (h : RaisesOnly Error.Raised run) : ReadsFirst run := by
  intro s s' cause hr hreading
  have hraised : cause.Raised := h s cause (by rw [hr])
  exact absurd hreading hraised.not_fromReading

end Run.ReadsFirst

section Bounded

variable {mode : Mode} {limit : Limit}

theorem raisesOnly_evalText (hstack : mode.CarriesRead limit)
    {source : String} {e : Expr} (hp : parseText limit source = .ok e) :
    RaisesOnly Error.Raised (evalText mode limit source) := by
  obtain ⟨hproper, hroom⟩ := ReadFrom.proper_and_room (.inl hp)
  obtain ⟨text, htext⟩ := text_of_parseText hp
  rw [evalText_of_ok hp]
  by_cases hshow : mode.Shows e
  · rw [evalRead_of_text hshow htext]
    refine RaisesOnly.bind ((inherited_raisesOnly mode id).record _) fun _ => ?_
    exact Expr.raisesOnly_eval hproper (hstack.carries hroom)
  · rw [evalRead_of_not_shows hshow]
    exact (inherited_raisesOnly mode id).fail .stackExhausted

theorem raisesOnly_evalScript (hstack : mode.CarriesRead limit)
    {source : String} {es : List Expr} (hp : parseAllText limit source = .ok es) :
    RaisesOnly Error.Raised (evalScript mode limit source) := by
  rw [evalScript_of_ok hp]
  refine RaisesOnly.bind ((inherited_raisesOnly mode id).record _) fun _ => ?_
  refine raisesOnly_evalEach (fun e he => ?_) .nil
  obtain ⟨hproper, hroom⟩ := ReadFrom.proper_and_room (.inr ⟨es, hp, he⟩)
  exact ⟨hproper, hstack.carries hroom⟩

theorem readsFirst_evalText (hstack : mode.CarriesRead limit)
    (source : String) : ReadsFirst (evalText mode limit source) := by
  cases hp : parseText limit source with
  | error cause =>
    rw [evalText_of_error hp]
    exact .fail cause
  | ok e => exact .of_raisesOnly (raisesOnly_evalText hstack hp)

theorem readsFirst_evalScript (hstack : mode.CarriesRead limit)
    (source : String) : ReadsFirst (evalScript mode limit source) := by
  cases hp : parseAllText limit source with
  | error cause =>
    rw [evalScript_of_error hp]
    exact .fail cause
  | ok es => exact .of_raisesOnly (raisesOnly_evalScript hstack hp)

theorem readsFirst_answer (hstack : mode.CarriesRead limit)
    (fragment : String) : ReadsFirst (Dialogue.answer mode limit fragment) := by
  cases hp : parseText limit fragment with
  | error cause =>
    rw [Dialogue.answer, evalText_of_error hp]
    exact .fail cause
  | ok e =>
    refine .of_raisesOnly ((raisesOnly_evalText hstack hp).bind fun v => ?_)
    exact (inherited_raisesOnly mode id).lift fun _ => Error.refused_of_render

end Bounded

/-- Reporting an error changes no binding and prints nothing. -/
theorem Dialogue.world_report (mode : Mode) (halt : Halt) (s : State) :
    ((report mode halt).result s).2.world = s.world := by
  match halt with
  | .exhausted => rfl
  | .failed e =>
    rw [report]
    split
    case isTrue =>
      obtain ⟨s₁, hs₁, hrun⟩ := record_bind mode .failed (fun _ => pure ("error: " ++ e.message)) s
      rw [hrun]
      exact hs₁
    case isFalse => rfl

/-- Within a configured depth that the stack carries, an evaluation that ends in an error of reading
has changed nothing, whichever way the text is evaluated and whatever expressions it begins with.
And what has been read raises no such error: its height is within the depth, and up to its height
nesting is never refused. -/
theorem unreadable_text_has_no_effect {mode : Mode} {limit : Limit} (hlimit : limit.depth ≤ 231)
    (hstack : ∀ bound ∈ mode.nesting, 231 ≤ bound) (source : String) :
    ReadsFirst (evalText mode limit source) ∧ ReadsFirst (evalScript mode limit source) ∧
    (∀ (d : Dialogue) (line : String), d.completed? line = some source →
      ∀ (cause : Error) (s : State),
        (Dialogue.answer mode limit source).result d.state = (.error (.failed cause), s) →
        cause.FromReading → s = d.state ∧ (d.feed mode limit line).2.state.world = d.state.world) ∧
    ∀ e, ReadFrom limit source e →
      (e.height = 0 ∨ (e.height : Int) ≤ limit.depth) ∧
      (∀ bound, e.height ≤ bound →
        e.eval { mode with nesting := some bound } 0 = e.eval { mode with nesting := none } 0) ∧
      ∀ (s s' : State) (cause : Error),
        (e.eval mode 0).result s = (.error (.failed cause), s') → ¬cause.FromReading := by
  have hcarried : mode.CarriesRead limit := by
    intro bound hb
    have hbound := hstack bound hb
    omega
  refine ⟨readsFirst_evalText hcarried source, readsFirst_evalScript hcarried source, ?_, ?_⟩
  · intro d line hcompleted cause s hr hreading
    obtain rfl := readsFirst_answer hcarried source d.state s cause hr hreading
    refine ⟨rfl, ?_⟩
    rw [Dialogue.feed_of_completed hcompleted]
    change ((Dialogue.evalFragment mode limit source).result d.state).2.world = _
    rw [Dialogue.evalFragment, result_tryCatch, hr]
    exact Dialogue.world_report mode _ d.state
  · intro e hread
    obtain ⟨hproper, hroom⟩ := hread.proper_and_room
    refine ⟨?_, ?_, ?_⟩
    · obtain hz | ⟨hle, -⟩ := hroom
      · exact .inl hz
      · exact .inr (by omega)
    · intro bound hbound
      refine Expr.eval_of_carries fun bound' hb => ?_
      obtain rfl := Option.some.inj hb
      omega
    · intro s s' cause hr
      have hcarries := hcarried.carries hroom
      have hraised : cause.Raised := Expr.raisesOnly_eval hproper hcarries s cause (by rw [hr])
      exact hraised.not_fromReading

/-- The script would print and bind, but its last parenthesis cannot be read. -/
theorem unreadable_end_of_script :
    let mode : Mode := ⟨true, 0, some 500, some 300⟩
    let s : State := ⟨Env.ofList [("x", .integer 1)], "", #[]⟩
    let run := evalScript mode ⟨200, 900⟩ "(print x) (global x 2))"
    (∀ bound ∈ mode.nesting, 231 ≤ bound) ∧
      (run.result s).1 = .error (.failed .unexpectedClose) ∧ (run.result s).2 = s := by
  intro mode s run
  have hstack : ∀ bound ∈ mode.nesting, 231 ≤ bound := by
    intro bound hb
    obtain rfl := Option.some.inj hb
    decide
  have hfailed : (run.result s).1 = .error (.failed .unexpectedClose) := by decide +kernel
  refine ⟨hstack, hfailed, ?_⟩
  have hfirst := (@unreadable_text_has_no_effect mode ⟨200, 900⟩ (by decide) hstack
    "(print x) (global x 2))").2.1
  exact hfirst s (run.result s).2 _ (Prod.ext hfailed rfl) (.inl rfl)

end Lisplet
