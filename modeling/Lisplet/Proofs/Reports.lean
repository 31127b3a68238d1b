import Lisplet.Proofs.TextEvaluation

/-!
# The read loop never complains about missing input

What can be read is balanced, so a fragment that is complete is not held back. What is balanced has
no open literal and no open parenthesis at its end, so these are never the reason why a fragment
fails to be read; and a fragment is not blank, so there is something in it. Evaluation words its
errors differently, whatever names and numbers they show: the messages are told apart by how they
begin.
-/

namespace Lisplet

open Run

def Begins (front text : String) : Prop := front.toList <+: text.toList

instance (front text : String) : Decidable (Begins front text) :=
  inferInstanceAs (Decidable (_ <+: _))

namespace Begins

variable {front text : String}

theorem refl (text : String) : Begins text text := List.prefix_refl _

theorem append (h : Begins front text) (back : String) : Begins front (text ++ back) := by
  rw [Begins, String.toList_append]
  exact h.trans (List.prefix_append _ _)

theorem of_append {back : String} (h : Begins (front ++ back) text) : Begins front text :=
  ((refl front).append back).trans h

theorem append_iff {back text : String} :
    Begins (front ++ back) (front ++ text) ↔ Begins back text := by
  rw [Begins, String.toList_append, String.toList_append, List.prefix_append_right_inj]
  rfl

end Begins

/-- The complaints about missing input; the second one goes on with a position. -/
def missingInput : List String := ["Unmatched '('", "Unterminated string literal", "Empty input"]

/-- The message is none of the complaints about missing input. -/
def NothingMissing (message : String) : Prop :=
  ∀ complaint ∈ missingInput, ¬Begins complaint message

instance : DecidablePred NothingMissing := fun message =>
  inferInstanceAs (Decidable (∀ complaint ∈ missingInput, ¬Begins complaint message))

/-- A message is no complaint if its fixed beginning and the complaints do not agree as far as both
go. -/
theorem Begins.nothingMissing {front message : String} (h : Begins front message)
    (hfront : ∀ complaint ∈ missingInput, ¬Begins complaint front ∧ ¬Begins front complaint) :
    NothingMissing message := by
  intro complaint hc hbegins
  obtain hle | hle := List.prefix_or_prefix_of_prefix hbegins h
  · exact (hfront complaint hc).1 hle
  · exact (hfront complaint hc).2 hle

namespace Error

variable {cause : Error}

theorem AboutToken.nothingMissing (h : cause.AboutToken) : NothingMissing cause.message := by
  cases cause with
  | unexpectedClose | nestedTooDeeply => decide
  | depthExceeded limit =>
    have hb : Begins "Expression nested deeper than " (message (.depthExceeded limit)) :=
      ((Begins.refl _).append _).append _
    exact hb.nothingMissing (by decide)
  | operatorNotSymbol got =>
    have hb : Begins "Operator must be a symbol, got " (message (.operatorNotSymbol got)) :=
      (Begins.refl _).append _
    exact hb.nothingMissing (by decide)
  | trailingToken got =>
    have hb : Begins "Unexpected token after expression: " (message (.trailingToken got)) :=
      (Begins.refl _).append _
    exact hb.nothingMissing (by decide)
  | _ => exact h.elim

theorem AboutPart.nothingMissing (h : cause.AboutPart) : NothingMissing cause.message := by
  cases cause with
  | danglingEscape | emptyWord => decide
  | unknownEscape escaped literal =>
    have hb : Begins "Unknown escape sequence \\" (message (.unknownEscape escaped literal)) :=
      (((Begins.refl _).append _).append _).append _
    exact hb.nothingMissing (by decide)
  | numeralTooLong digits =>
    have hb : Begins "Exceeds the limit (4300 digits) for integer string conversion: value has "
        (message (.numeralTooLong digits)) :=
      ((Begins.refl _).append _).append _
    exact hb.nothingMissing (by decide)
  | _ => exact h.elim

/-- No operator is called as a complaint begins. -/
theorem nothingMissing_of_begins_name {op : Operator} {message : String}
    (h : Begins op.name message) : NothingMissing message := by
  refine h.nothingMissing ?_
  cases op <;> decide

theorem Raised.nothingMissing (h : cause.Raised) : NothingMissing cause.message := by
  cases h with
  | unknownOperator name =>
    have hb : Begins "Unknown operator '" (message (.unknownOperator name)) :=
      ((Begins.refl _).append _).append _
    exact hb.nothingMissing (by decide)
  | unboundSymbol name =>
    have hb : Begins "Cannot lookup unbound symbol " (message (.unboundSymbol name)) :=
      (Begins.refl _).append _
    exact hb.nothingMissing (by decide)
  | arity op expected got =>
    have hb : Begins op.name (message (.arity op.name expected got)) :=
      ((((Begins.refl _).append _).append _).append _).append _
    exact nothingMissing_of_begins_name hb
  | kind op position expected actual =>
    have hb : Begins op.name (message (.kind op.name position expected actual)) :=
      ((((((Begins.refl _).append _).append _).append _).append _).append _).append _
    exact nothingMissing_of_begins_name hb
  | overflow op result =>
    have hb : Begins op.name (message (.overflow op.name result)) :=
      (((Begins.refl _).append _).append _).append _
    exact nothingMissing_of_begins_name hb
  | divisionByZero op =>
    have hb : Begins op.name (message (.divisionByZero op.name)) := (Begins.refl _).append _
    exact nothingMissing_of_begins_name hb
  | integerTooWide =>
    have hb : Begins "Exceeds the limit (4300 digits) for integer string conversion; "
        (message .integerTooWide) := (Begins.refl _).append _
    exact hb.nothingMissing (by decide)
  | notAValue shown =>
    have hb : Begins "Not a minilisp value: " (message (.notAValue shown)) :=
      (Begins.refl _).append _
    exact hb.nothingMissing (by decide)
  | stackExhausted => decide

/-- The causes for which a fragment may fail. -/
def OfFragment (cause : Error) : Prop := cause.AboutToken ∨ cause.AboutPart ∨ cause.Raised

theorem OfFragment.nothingMissing (h : cause.OfFragment) : NothingMissing cause.message := by
  obtain ht | hp | hr := h
  · exact ht.nothingMissing
  · exact hp.nothingMissing
  · exact hr.nothingMissing

end Error

/-- No value is shown as an error is reported. -/
theorem not_begins_error {v : Value} {text : String} (h : v.render = .ok text) :
    ¬Begins "error: " text := by
  match v, h with
  | .integer n, h =>
    obtain rfl := Value.repr_of_render h
    intro hb
    have hdigit := Value.digit_of_mem_repr (hb.subset (by decide : 'e' ∈ "error: ".toList))
    exact absurd hdigit (by decide)
  | .bool true, h =>
    cases h
    decide
  | .bool false, h =>
    cases h
    decide
  | .nil, h =>
    cases h
    decide
  | .string contents, h =>
    cases h
    intro hb
    rw [Begins, String.toList_ofList, String.toList_ofList, List.cons_append,
      List.cons_prefix_cons] at hb
    exact absurd hb.1 (by decide)

namespace Dialogue

variable {mode : Mode} {limit : Limit} {fragment : String}

/-- A balanced fragment that is not blank fails for no want of input. -/
theorem raisesOnly_answer (hbalanced : isBalanced fragment = true)
    (hblank : Text.allBlank fragment = false) :
    RaisesOnly Error.OfFragment (answer mode limit fragment) := by
  have hinherited := inherited_raisesOnly mode fun {cause} (h : cause.Raised) =>
    (.inr (.inr h) : cause.OfFragment)
  cases hp : parseText limit fragment with
  | error cause =>
    rw [answer, evalText_of_error hp]
    refine hinherited.fail ?_
    obtain ht | hpart | ⟨-, hnothing⟩ := (Unreadable.of_parseText hp).of_balanced hbalanced
    · exact .inl ht
    · exact .inr (.inl hpart)
    · rw [tokens_eq_nil_iff, hblank] at hnothing
      cases hnothing
  | ok e =>
    obtain ⟨text, htext⟩ := text_of_parseText hp
    have heval := hinherited.eval (fun _ => .inl trivial) e (parseText_inv hp).2.2.1 0
    rw [answer, evalText_of_ok hp]
    refine RaisesOnly.bind ?_ fun v => hinherited.lift fun _ => Error.refused_of_render
    by_cases hshow : mode.Shows e
    · rw [evalRead_of_text hshow htext]
      exact (hinherited.record _).bind fun _ => heval
    · rw [evalRead_of_not_shows hshow]
      exact hinherited.fail (.inr (.inr .stackExhausted))

/-- An answer is the rendering of a value or reports an error that the fragment raised. -/
theorem answer_cases {s : State} {text : String}
    (h : ((evalFragment mode limit fragment).result s).1 = .ok text) :
    (∃ v : Value, v.render = .ok text) ∨
      ∃ cause, ((answer mode limit fragment).result s).1 = .error (.failed cause) ∧
        text = "error: " ++ cause.message := by
  rw [evalFragment, result_tryCatch] at h
  rcases hr : (answer mode limit fragment).result s with ⟨(cause | _) | shown, s₁⟩
  · rw [hr] at h
    refine .inr ⟨cause, rfl, ?_⟩
    change ((report mode (.failed cause)).result s₁).1 = .ok text at h
    rw [report] at h
    split at h
    case isTrue =>
      rw [result_bind, result_record] at h
      exact (Except.ok.inj h).symm
    case isFalse => cases h
  · rw [hr] at h
    cases h
  · rw [hr] at h
    obtain rfl := Except.ok.inj h
    rw [answer, result_bind] at hr
    rcases hv : (evalText mode limit fragment).result s with ⟨halt | v, s₂⟩
    · rw [hv] at hr
      cases hr
    · rw [hv] at hr
      refine .inl ⟨v, ?_⟩
      cases hshown : v.render with
      | error cause =>
        simp only [hshown] at hr
        cases hr
      | ok text =>
        simp only [hshown] at hr
        cases hr
        rfl

/-- What the read loop evaluates is balanced and not blank. -/
theorem of_completed {d : Dialogue} {line : String} {pending : List String}
    (hd : Gathers d.buffer pending) (h : d.completed? line = some fragment) :
    isBalanced fragment = true ∧ Text.allBlank fragment = false := by
  obtain ⟨hdrops, hbalanced, rfl⟩ := completed?_eq_some_iff.mp h
  have hbuffer : d.buffer = "" ∨ Text.allBlank d.buffer = false := by
    obtain ⟨hempty, -⟩ | ⟨hblank, -, -⟩ := hd.buffer_cases
    · exact .inl hempty
    · exact .inr hblank
  exact ⟨hbalanced, not_blank_append hbuffer hdrops⟩

end Dialogue

/-- The text is one expression, or a script with something in it. -/
def Complete (limit : Limit) (text : String) : Prop :=
  (∃ e, parseText limit text = .ok e) ∨ ∃ e es, parseAllText limit text = .ok (e :: es)

namespace Complete

variable {limit : Limit} {text : String}

theorem balanced (h : Complete limit text) : isBalanced text = true := by
  obtain ⟨e, hp⟩ | ⟨e, es, hp⟩ := h
  · exact isBalanced_of_parseText hp
  · exact isBalanced_of_parseAllText hp

theorem not_blank (h : Complete limit text) : Text.allBlank text = false := by
  refine Bool.eq_false_iff.mpr fun hblank => ?_
  have htokens := tokens_eq_nil_iff.mpr hblank
  obtain ⟨e, hp⟩ | ⟨e, es, hp⟩ := h
  · rw [parseText, htokens] at hp
    cases hp
  · rw [parseAllText, htokens] at hp
    cases hp

end Complete

/-- The balance test agrees with reading: what reads is balanced, and what is balanced fails to read
for no open parenthesis or literal. So whatever lines are fed to a read loop, a feed that makes the
text gathered complete is answered, and no answer reports that input is missing. -/
theorem balance_agrees_with_reading (mode : Mode) (limit : Limit) :
    (∀ text : String,
      ((∃ e, parseText limit text = .ok e) ∨ (∃ es, parseAllText limit text = .ok es) →
        isBalanced text = true) ∧
      (isBalanced text = true → ∀ cause,
        parseText limit text = .error cause ∨ parseAllText limit text = .error cause →
        ¬Begins "Unmatched '('" cause.message ∧
          ¬Begins "Unterminated string literal" cause.message)) ∧
    ∀ (s : State) (lines : List String) (line : String),
      let d := (⟨"", s⟩ : Dialogue).after mode limit lines
      (∀ depth, Complete depth (d.buffer ++ line) → (d.feed mode limit line).1 ≠ .ok none) ∧
      ∀ text, (d.feed mode limit line).1 = .ok (some text) →
        ∀ complaint ∈ missingInput, ¬Begins ("error: " ++ complaint) text := by
  constructor
  · intro text
    constructor
    · rintro (⟨e, hp⟩ | ⟨es, hp⟩)
      · exact isBalanced_of_parseText hp
      · exact isBalanced_of_parseAllText hp
    · intro hbalanced cause hp
      have hunreadable : Unreadable text cause := by
        obtain hp | hp := hp
        · exact .of_parseText hp
        · exact .of_parseAllText hp
      obtain ht | hpart | ⟨rfl, -⟩ := hunreadable.of_balanced hbalanced
      · exact ⟨ht.nothingMissing _ (by decide), ht.nothingMissing _ (by decide)⟩
      · exact ⟨hpart.nothingMissing _ (by decide), hpart.nothingMissing _ (by decide)⟩
      · decide
  · intro s lines line d
    obtain ⟨pending, hgathers⟩ := Dialogue.gathers_after mode limit s lines
    constructor
    · intro depth hcomplete hnone
      have hwithheld := Dialogue.completed?_of_feed_none hnone
      have hdrops : ¬d.Drops line := by
        rintro ⟨hempty, hline⟩
        have hblank := hcomplete.not_blank
        rw [hempty, String.empty_append, hline] at hblank
        cases hblank
      rw [Dialogue.completed?_of_balanced hdrops hcomplete.balanced] at hwithheld
      cases hwithheld
    · intro text hsome complaint hc hbegins
      obtain ⟨fragment, hcompleted, hanswer⟩ := Dialogue.completed?_of_feed_some hsome
      obtain ⟨hbalanced, hblank⟩ := Dialogue.of_completed hgathers hcompleted
      obtain ⟨v, hv⟩ | ⟨cause, hcause, rfl⟩ := Dialogue.answer_cases hanswer
      · exact not_begins_error hv hbegins.of_append
      · have hfragment := Dialogue.raisesOnly_answer hbalanced hblank d.state cause hcause
        exact hfragment.nothingMissing complaint hc (Begins.append_iff.mp hbegins)

/-- The parentheses in the literal and the line end in it do not count. -/
theorem literal_over_lines_answered :
    let mode : Mode := ⟨false, 0, some 500, some 300⟩
    let d := (⟨"", ⟨Env.ofList [], "", #[]⟩⟩ : Dialogue).after mode ⟨1, 900⟩ ["\n", "(print \"a)\n"]
    d.buffer = "(print \"a)\n" ∧ Complete ⟨1, 900⟩ (d.buffer ++ "(\")\n") ∧
      (d.feed mode ⟨1, 900⟩ "(\")\n").1 ≠ .ok none := by
  intro mode d
  have hbuffer : d.buffer = "(print \"a)\n" := by decide +kernel
  have hcomplete : Complete ⟨1, 900⟩ (d.buffer ++ "(\")\n") := by
    rw [hbuffer]
    exact .inl ⟨.compound "print" [.literal (.string "a)\n(")], by decide +kernel⟩
  have hanswered := ((balance_agrees_with_reading mode ⟨1, 900⟩).2 ⟨Env.ofList [], "", #[]⟩
    ["\n", "(print \"a)\n"] "(\")\n").1 ⟨1, 900⟩ hcomplete
  exact ⟨hbuffer, hcomplete, hanswered⟩

end Lisplet
