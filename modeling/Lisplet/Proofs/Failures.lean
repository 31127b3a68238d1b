import Lisplet.Proofs.Debugging
import Lisplet.Proofs.EscapePairs

/-!
# Evaluation fails as documented

Some complaints are not among those that the language documents. Classifying complains about an
empty part and about a literal that ends within an escape, and there are complaints about what is no
value and what is no expression. The first two are out of reach because of the shape of parts: none
is empty, and in a literal a backslash stands together with the character after it. The others are
out of reach because evaluation keeps to values of the language.

One such complaint does come out. Integer text of too many digits is not converted at all, and the
complaint about it is not one of the language; so the read loop does not report it either.

Where a record is to show what was read and the stack does not carry that, evaluation does not
begin; this is set apart.
-/

namespace Lisplet

open Run

/-- Integer text of this many decimal digits. -/
def Numeral (n : Nat) (text : String) : Prop :=
  ∃ digits : List Char, digits.length = n ∧ (∀ c ∈ digits, c.isDigit = true) ∧
    (text.toList = digits ∨ text.toList = '-' :: digits)

/-- Some part of the text is integer text of this many digits, and these are too many. -/
def LongNumeral (source : String) (n : Nat) : Prop :=
  4300 < n ∧ ∃ part ∈ (parts source).items, Numeral n part

namespace Error

/-- The ways in which evaluating a text may fail. -/
inductive Documented (source : String) : Error → Prop
  | language {cause : Error} (h : cause.InLanguage) : Documented source cause
  | numeral {n : Nat} (h : LongNumeral source n) : Documented source (.numeralTooLong n)

/-- Complaints about what no text can bring about. -/
def Internal : Error → Prop
  | .emptyWord | .danglingEscape | .integerTooWide | .notAValue _ | .notAnExpression _
  | .unsupported _ _ => True
  | _ => False

variable {source : String} {cause : Error}

theorem Documented.not_internal (h : cause.Documented source) : ¬cause.Internal := by
  cases h with
  | language h => cases cause <;> simp_all [InLanguage, category, Internal]
  | numeral h => exact id

theorem AboutToken.inLanguage (h : cause.AboutToken) : cause.InLanguage := by
  cases cause <;> simp_all [AboutToken, InLanguage, category]

end Error

theorem Progress.inLanguage_endError (p : Progress) : p.endError.InLanguage := by
  unfold endError
  split <;> simp [Error.InLanguage, Error.category]

namespace Token

theorem numeral_of_integerText? {text : String} {negative : Bool} {digits : List Char}
    (h : integerText? text.toList = some (negative, digits)) : Numeral digits.length text := by
  unfold integerText? at h
  dsimp only at h
  rw [Option.ite_none_left_eq_some] at h
  obtain ⟨hdecimal, hdigits⟩ := h
  obtain ⟨-, hdigits⟩ := Prod.mk.inj (Option.some.inj hdigits)
  rw [hdigits] at hdecimal
  refine ⟨digits, rfl, ?_, ?_⟩
  · have hall : digits.all Char.isDigit = true := by simp_all
    exact List.all_eq_true.mp hall
  · split at hdigits
    case isTrue hsign =>
      obtain ⟨rest, hrest⟩ := List.head?_eq_some_iff.mp (beq_iff_eq.mp hsign)
      rw [hrest] at hdigits ⊢
      exact .inr (congrArg ('-' :: ·) hdigits)
    case isFalse => exact .inl hdigits

theorem integerText?_of_numeral {n : Nat} {text : String} (h : Numeral n text) (hn : 0 < n) :
    ∃ negative digits, integerText? text.toList = some (negative, digits) ∧ digits.length = n := by
  obtain ⟨digits, rfl, hdigits, hshape⟩ := h
  have hne : digits ≠ [] := List.ne_nil_of_length_pos hn
  obtain hunsigned | hsigned := hshape
  · have hsign : digits.head? ≠ some '-' := by
      intro hhead
      exact absurd (hdigits '-' (List.mem_of_mem_head? hhead)) (by decide)
    refine ⟨false, digits, ?_, rfl⟩
    rw [hunsigned]
    simpa [integerText?, hsign, hne] using hdigits
  · refine ⟨true, digits, ?_, rfl⟩
    rw [hsigned]
    simpa [integerText?, hne] using hdigits

/-- Integer text of too many digits stands for no token. -/
theorem classify_of_numeral {n : Nat} {text : String} (h : Numeral n text) (hn : 4300 < n) :
    classify text = .error (.numeralTooLong n) := by
  obtain ⟨negative, digits, htext, rfl⟩ := integerText?_of_numeral h (by omega)
  obtain ⟨digits', hlength, hdigits, hshape⟩ := h
  have hshort : ∀ word : String, word.toList.length ≤ 4300 → text ≠ word := by
    rintro word hword rfl
    obtain hw | hw := hshape
    · rw [hw] at hword
      omega
    · rw [hw, List.length_cons] at hword
      omega
  have hquote : text.toList.head? ≠ some '"' := by
    intro hhead
    obtain hw | hw := hshape
    · rw [hw] at hhead
      exact absurd (hdigits '"' (List.mem_of_mem_head? hhead)) (by decide)
    · rw [hw] at hhead
      cases hhead
  have hword : ofWord text = .error (.numeralTooLong digits.length) := by
    simp only [ofWord, htext]
    exact if_pos hn
  rw [classify, if_neg (hshort "" (by decide)), if_neg (hshort "(" (by decide)),
    if_neg (hshort ")" (by decide)), if_neg (hshort "true" (by decide)),
    if_neg (hshort "false" (by decide)), if_neg (hshort "nil" (by decide)), if_neg hquote, hword]

theorem ofWord_eq_error {text : String} {cause : Error} (h : ofWord text = .error cause) :
    ∃ n, cause = .numeralTooLong n ∧ 4300 < n ∧ Numeral n text := by
  unfold ofWord at h
  split at h
  case h_1 => cases h
  case h_2 negative digits hi =>
    split at h
    case isTrue hlong =>
      cases h
      exact ⟨digits.length, rfl, hlong, numeral_of_integerText? hi⟩
    case isFalse =>
      dsimp only at h
      split at h <;> cases h

/-- Why a part stands for no token. -/
theorem classify_eq_error {text : String} {cause : Error} (h : classify text = .error cause) :
    text = "" ∨ (text.toList.head? = some '"' ∧ decode text = .error cause) ∨
      ofWord text = .error cause := by
  unfold classify at h
  split at h
  case isTrue hempty => exact .inl hempty
  iterate 5
    split at h
    · cases h
  split at h
  case isTrue hquote =>
    refine .inr (.inl ⟨hquote, ?_⟩)
    cases hd : decode text with
    | ok body =>
      rw [hd] at h
      cases h
    | error cause' =>
      rw [hd] at h
      cases h
      rfl
  case isFalse => exact .inr (.inr h)

end Token

theorem Lexeme.ne_nil {cs : List Char} (h : Lexeme cs) : cs ≠ [] := by
  cases h with
  | paren | literal => simp
  | word hne => exact hne

section Reading

variable {limit : Limit} {source : String} {cause : Error}

/-- A part that stands for no token holds an escape without meaning or too many digits. -/
theorem documented_of_classify {part : String} (hpart : part ∈ (parts source).items)
    (h : Token.classify part = .error cause) : cause.Documented source := by
  have hlexeme := lexeme_of_mem_parts hpart
  obtain rfl | ⟨hquote, hdecode⟩ | hword := Token.classify_eq_error h
  · exact absurd rfl hlexeme.ne_nil
  · obtain ⟨items, hitems⟩ := exists_spells_of_quote hpart hquote
    obtain ⟨-, escaped, -, -, -, -, rfl⟩ := (hitems.decode_eq_error_iff cause).mp hdecode
    exact .language (by simp [Error.InLanguage, Error.category])
  · obtain ⟨n, rfl, hlong, hnumeral⟩ := Token.ofWord_eq_error hword
    exact .numeral ⟨hlong, part, hpart, hnumeral⟩

theorem documented_of_fault (h : (tokens source).fault = some cause) :
    cause.Documented source := by
  obtain hparts | ⟨part, hpart, hc⟩ := Supply.fault_convert h
  · rw [parts, Scan.finish] at hparts
    split at hparts
    · cases hparts
    all_goals
      cases hparts
      exact .language (by simp [Error.InLanguage, Error.category])
  · exact documented_of_classify hpart hc

theorem documented_of_parseText (h : parseText limit source = .error cause) :
    cause.Documented source := by
  obtain hrefused | hfault | ⟨-, p, -, ⟨-, rfl⟩ | ⟨-, -, rfl⟩⟩ := parse_eq_error h
  · exact .language (Progress.aboutToken_of_steps hrefused).inLanguage
  · exact documented_of_fault hfault
  · exact .language (by simp [Error.InLanguage, Error.category])
  · exact .language p.inLanguage_endError

theorem documented_of_parseAllText (h : parseAllText limit source = .error cause) :
    cause.Documented source := by
  obtain ⟨es, rest, hrefused⟩ | hfault | ⟨-, es, p, -, -, rfl⟩ := parseAll_eq_error h
  · exact .language (Progress.aboutToken_of_readAllFrom hrefused).inLanguage
  · exact documented_of_fault hfault
  · exact .language p.inLanguage_endError

end Reading

/-- However evaluating the text ends, it ends with a value of the language or fails in a documented
way. -/
structure EndsAsDocumented (source : String) (ending : Except Halt Value) : Prop where
  value : ∀ v, ending = .ok v → v.Proper
  failure : ∀ cause, ending = .error (.failed cause) → cause.Documented source
  never : ∀ cause, ending = .error (.failed cause) → ¬cause.Internal

/-- What the text reads as can be shown, if a record of it is made. -/
def Mode.ShowsRead (mode : Mode) (limit : Limit) (source : String) : Prop :=
  ∀ e, parseText limit source = .ok e → mode.Shows e

section Evaluation

variable {mode : Mode} {limit : Limit} {source : String} {s : State}

theorem endsAsDocumented_of_coupled {run : Run Value} {Unread : Error → Prop}
    (h : Coupled EqualButRecords (fun cause => Unread cause ∨ cause.InLanguage) Value.Proper run
      run)
    (hread : ∀ cause, Unread cause → cause.Documented source) (hs : s.env.Proper) :
    EndsAsDocumented source (run.result s).1 := by
  have hcoupled := h s s ⟨rfl, hs⟩
  have hdocumented : ∀ cause, (run.result s).1 = .error (.failed cause) →
      cause.Documented source := by
    intro cause hr
    obtain hunread | hlanguage := hcoupled.cause cause hr
    · exact hread cause hunread
    · exact .language hlanguage
  exact ⟨hcoupled.value, hdocumented, fun cause hr => (hdocumented cause hr).not_internal⟩

theorem endsAsDocumented_evalText (hshow : mode.ShowsRead limit source) (hs : s.env.Proper) :
    EndsAsDocumented source ((evalText mode limit source).result s).1 := by
  refine endsAsDocumented_of_coupled (coupled_evalText fun e hp => ?_)
    (fun _ => documented_of_parseText) hs
  exact ⟨⟨hshow e hp, hshow e hp⟩, coupled_eval rfl rfl (parseText_inv hp).2.2.1 0⟩

theorem endsAsDocumented_evalScript (hs : s.env.Proper) :
    EndsAsDocumented source ((evalScript mode limit source).result s).1 := by
  refine endsAsDocumented_of_coupled (coupled_evalScript fun es hp e he => ?_)
    (fun _ => documented_of_parseAllText) hs
  exact coupled_eval rfl rfl (proper_of_parseAllText hp e he) 0

/-- What cannot be shown is not evaluated. -/
theorem evalText_of_not_shows (hshow : ¬mode.ShowsRead limit source) :
    evalText mode limit source = fail .stackExhausted := by
  obtain ⟨e, hp, hnot⟩ : ∃ e, parseText limit source = .ok e ∧ ¬mode.Shows e := by
    simpa [Mode.ShowsRead] using hshow
  rw [evalText_of_ok hp, evalRead_of_not_shows hnot]

theorem documented_of_answer (hshow : mode.ShowsRead limit source) (hs : s.env.Proper)
    {cause : Error}
    (h : ((Dialogue.answer mode limit source).result s).1 = .error (.failed cause)) :
    cause.Documented source := by
  have hends : EndsAsDocumented source ((evalText mode limit source).result s).1 :=
    endsAsDocumented_evalText hshow hs
  rw [Dialogue.answer, result_bind] at h
  rcases hr : (evalText mode limit source).result s with ⟨halt | v, s₁⟩
  · rw [hr] at h hends
    obtain rfl := Except.error.inj h
    exact hends.failure cause rfl
  · rw [hr] at h hends
    obtain ⟨text, htext⟩ := Value.render_of_proper (hends.value v rfl)
    simp only [htext] at h
    cases h

/-- What escapes from the read loop is the complaint about too many digits. -/
theorem longNumeral_of_evalFragment (hshow : mode.ShowsRead limit source) (hs : s.env.Proper)
    {cause : Error}
    (h : ((Dialogue.evalFragment mode limit source).result s).1 = .error (.failed cause)) :
    ∃ n, cause = .numeralTooLong n ∧ LongNumeral source n := by
  rw [Dialogue.evalFragment, result_tryCatch] at h
  rcases hr : (Dialogue.answer mode limit source).result s with ⟨(cause' | _) | text, s₁⟩
  · have hdocumented : cause'.Documented source :=
      documented_of_answer hshow hs (congrArg Prod.fst hr)
    rw [hr] at h
    cases hdocumented with
    | language hlanguage =>
      simp only [Dialogue.report, if_pos hlanguage, result_bind, result_record] at h
      cases h
    | numeral hlong =>
      cases h
      exact ⟨_, rfl, hlong⟩
  · rw [hr] at h
    cases h
  · rw [hr] at h
    cases h

end Evaluation

/-- A feed gives no answer, or an answer that shows a value of the language or reports an error of
the language; it fails only for too many digits. -/
structure FeedsAsDocumented (source : String) (ending : Except Halt (Option String)) : Prop where
  answer : ∀ answer, ending = .ok answer → ∀ text ∈ answer, Dialogue.Answers text
  failure : ∀ cause, ending = .error (.failed cause) →
    ∃ n, cause = .numeralTooLong n ∧ LongNumeral source n

theorem feedsAsDocumented {mode : Mode} {limit : Limit} {d : Dialogue} {line : String}
    (hshow : mode.ShowsRead limit (d.buffer ++ line)) (hd : d.state.env.Proper) :
    FeedsAsDocumented (d.buffer ++ line) (d.feed mode limit line).1 where
  answer := (d.feed_proper hd mode limit line).2
  failure cause h := by
    cases hc : d.completed? line with
    | none =>
      rw [Dialogue.feed_of_not_completed hc] at h
      cases h
    | some fragment =>
      obtain ⟨-, -, rfl⟩ := Dialogue.completed?_eq_some_iff.mp hc
      rw [Dialogue.feed_of_completed hc] at h
      exact longNumeral_of_evalFragment hshow hd (map_eq_error h)

theorem Numeral.lexeme {n : Nat} {text : String} (h : Numeral n text) (hn : 0 < n) :
    Lexeme text.toList := by
  obtain ⟨digits, rfl, hdigits, hw | hw⟩ := h
  · rw [hw]
    refine .word (List.ne_nil_of_length_pos hn) fun c hc => ?_
    exact Value.bare_of_digit (.inr (hdigits c hc))
  · rw [hw]
    refine .word (List.cons_ne_nil _ _) (List.forall_mem_cons.mpr ⟨by decide, fun c hc => ?_⟩)
    exact Value.bare_of_digit (.inr (hdigits c hc))

/-- A text of too many digits does fail, and not as the language documents. -/
theorem parseText_of_numeral {n : Nat} {source : String} (h : Numeral n source) (hn : 4300 < n)
    (limit : Limit) : parseText limit source = .error (.numeralTooLong n) := by
  have hparts : parts source = ⟨[source], none⟩ := by
    have hdelivers := Scan.scan_lexeme (s := Scan.start) rfl (h.lexeme (by omega))
    simpa [parts, Scan.start] using hdelivers.finish
  have htokens : tokens source = ⟨[], some (.numeralTooLong n)⟩ := by
    rw [tokens, hparts]
    exact Supply.convert_cons_error (Token.classify_of_numeral h hn) [] none
  rw [parseText, htokens]
  rfl

/-- From an environment of proper values, evaluating a text as one expression or as a script ends
with a proper value, with an error of the language, or with the complaint about integer text of more
than 4300 digits, and then some part of the text is such integer text. The complaints about an empty
part, about an escape without end and about what is no value or no expression never come out. So the
read loop answers or waits for more lines, whatever it is fed, unless there are too many digits.
Where debugging is on the text is taken to be one that a record can show; of another one nothing is
evaluated. -/
theorem evaluation_fails_as_documented (mode : Mode) (limit : Limit) {s : State}
    (hs : s.env.Proper) :
    (∀ source, mode.ShowsRead limit source →
      EndsAsDocumented source ((evalText mode limit source).result s).1) ∧
    (∀ source, EndsAsDocumented source ((evalScript mode limit source).result s).1) ∧
    (∀ buffer line, mode.ShowsRead limit (buffer ++ line) →
      FeedsAsDocumented (buffer ++ line) ((⟨buffer, s⟩ : Dialogue).feed mode limit line).1) ∧
    ∀ source, ¬mode.ShowsRead limit source →
      (evalText mode limit source).result s = (.error (.failed .stackExhausted), s) := by
  refine ⟨?_, ?_, ?_, ?_⟩
  · intro source hshow
    exact endsAsDocumented_evalText hshow hs
  · intro source
    exact endsAsDocumented_evalScript hs
  · intro buffer line hshow
    exact feedsAsDocumented (d := ⟨buffer, s⟩) hshow hs
  · intro source hshow
    rw [evalText_of_not_shows hshow]
    rfl

/-- One digit more than can be converted. -/
theorem too_many_digits_escape :
    let source := String.ofList (List.replicate 4301 '7')
    let s : State := ⟨Env.ofList [("x", .integer 1)], "", #[]⟩
    let mode : Mode := ⟨true, 0, some 480, some 325⟩
    let ending := ((evalText mode ⟨200, 980⟩ source).result s).1
    s.env.Proper ∧ ending = .error (.failed (.numeralTooLong 4301)) ∧
      EndsAsDocumented source ending ∧ LongNumeral source 4301 := by
  intro source s mode ending
  have hs : s.env.Proper := by
    unfold Env.Proper
    decide
  have hnumeral : Numeral 4301 source := by
    refine ⟨_, List.length_replicate, fun c hc => ?_, .inl String.toList_ofList⟩
    obtain rfl := List.eq_of_mem_replicate hc
    decide
  have hparse : parseText ⟨200, 980⟩ source = .error (.numeralTooLong 4301) :=
    parseText_of_numeral hnumeral (by decide) _
  have hfailed : ending = .error (.failed (.numeralTooLong 4301)) := by
    change ((evalText mode ⟨200, 980⟩ source).result s).1 = _
    rw [evalText_of_error hparse]
    rfl
  have hshow : mode.ShowsRead ⟨200, 980⟩ source := by
    intro e hp
    rw [hparse] at hp
    cases hp
  have hends := (evaluation_fails_as_documented mode ⟨200, 980⟩ hs).1 source hshow
  refine ⟨hs, hfailed, hends, ?_⟩
  cases hends.failure _ hfailed with
  | language h => exact absurd rfl h
  | numeral h => exact h

end Lisplet
