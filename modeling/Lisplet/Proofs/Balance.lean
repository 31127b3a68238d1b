import Lisplet.Proofs.CanonicalText

/-!
# Counting parentheses and reading agree

The balance test counts parentheses among the parts of a text. The reader keeps the compounds that
it has opened, and every token changes their number as it changes the count. So a text that reads
is balanced, and where the tokens end inside a compound more parentheses were opened than closed.

`Unreadable` lists why a text cannot be read, as one expression or as a script. The complaints of a
balanced text are about a token or about a part, or there is nothing in it at all.
-/

namespace Lisplet

def openings (ts : List Token) : Nat := ts.countP (·.kind = .lparen)

def closings (ts : List Token) : Nat := ts.countP (·.kind = .rparen)

@[simp] theorem openings_cons (t : Token) (ts : List Token) :
    openings (t :: ts) = openings ts + if t.kind = .lparen then 1 else 0 := by
  simp [openings, List.countP_cons]

@[simp] theorem closings_cons (t : Token) (ts : List Token) :
    closings (t :: ts) = closings ts + if t.kind = .rparen then 1 else 0 := by
  simp [closings, List.countP_cons]

namespace Error

/-- The complaint is about a token that cannot come where it comes. -/
def AboutToken : Error → Prop
  | .unexpectedClose | .depthExceeded _ | .nestedTooDeeply | .operatorNotSymbol _
  | .trailingToken _ => True
  | _ => False

/-- The complaint is about a part that stands for no token. -/
def AboutPart : Error → Prop
  | .unknownEscape _ _ | .danglingEscape | .numeralTooLong _ | .emptyWord => True
  | _ => False

end Error

namespace Progress

variable {limit : Limit} {base : Int} {p q : Progress} {t : Token}

/-- How many parentheses are open. -/
def depth : Progress → Nat
  | .operand frames => frames.length
  | .operator frames => frames.length + 1
  | .whole _ => 0

@[simp] theorem depth_operand (frames : List Frame) : (operand frames).depth = frames.length := rfl

@[simp] theorem depth_operator (frames : List Frame) :
    (operator frames).depth = frames.length + 1 := rfl

@[simp] theorem depth_whole (e : Expr) : (whole e).depth = 0 := rfl

@[simp] theorem depth_put (e : Expr) (frames : List Frame) :
    (put e frames).depth = frames.length := by
  cases frames <;> rfl

/-- While something remains to be read of an expression begun, a parenthesis is open. -/
theorem depth_pos (hs : p ≠ start) (hw : ∀ e, p ≠ .whole e) : 0 < p.depth := by
  cases p with
  | operand frames =>
    cases frames with
    | nil => exact absurd rfl hs
    | cons frame frames => exact Nat.succ_pos _
  | operator frames => exact Nat.succ_pos _
  | whole e => exact absurd rfl (hw e)

theorem depth_close {frames : List Frame} (hs : close frames = .ok q) :
    q.depth + 1 = frames.length := by
  cases frames with
  | nil => cases hs
  | cons frame frames =>
    cases hs
    rw [depth_put, List.length_cons]

/-- A token opens as many parentheses in the reader as it counts for. -/
theorem depth_step (hk : t.kind.Known) (hs : p.step limit base t = .ok q) :
    q.depth + (if t.kind = .rparen then 1 else 0) =
      p.depth + if t.kind = .lparen then 1 else 0 := by
  cases p with
  | whole e => cases hs
  | operator frames =>
    by_cases hsym : t.kind = .symbol
    · rw [step_operator_named hsym] at hs
      cases hs
      simp [hsym]
    · simp only [step, if_neg hsym] at hs
      cases hs
  | operand frames =>
    cases hkind : t.kind with
    | nil | bool | integer | string =>
      have hc : t.kind.Constant := by rw [hkind]; trivial
      rw [step_constant hc] at hs
      cases hs
      simp
    | symbol =>
      rw [step_named hkind] at hs
      cases hs
      simp
    | rparen =>
      rw [step_closing hkind] at hs
      simpa using depth_close hs
    | lparen =>
      rw [step_opening hkind, enter_eq_ok_iff] at hs
      obtain ⟨rfl, -, -⟩ := hs
      simp
    | other name =>
      rw [hkind] at hk
      exact hk.elim

theorem depth_steps {ts : List Token} (hk : ∀ t ∈ ts, t.kind.Known)
    (hs : p.steps limit base ts = .ok q) : q.depth + closings ts = p.depth + openings ts := by
  induction ts generalizing p with
  | nil =>
    cases hs
    rfl
  | cons t ts ih =>
    rw [List.forall_mem_cons] at hk
    obtain ⟨m, hm, hrest⟩ := steps_cons_inv hs
    have hfirst := depth_step hk.1 hm
    have hothers := ih hk.2 hrest
    rw [openings_cons, closings_cons]
    omega

theorem depth_readAllFrom {done es : List Expr} {ts : List Token} (hk : ∀ t ∈ ts, t.kind.Known)
    (hr : readAllFrom limit done p ts = (es, .starved q)) :
    q.depth + closings ts = p.depth + openings ts := by
  induction ts generalizing p done with
  | nil =>
    cases hr
    rfl
  | cons t ts ih =>
    rw [List.forall_mem_cons] at hk
    cases hm : p.step limit 0 t with
    | error cause =>
      simp only [readAllFrom, hm, Prod.mk.injEq] at hr
      cases hr.2
    | ok m =>
      have hfirst := depth_step hk.1 hm
      -- a complete expression leaves nothing open, and neither does the start of the next one
      have hothers : q.depth + closings ts = m.depth + openings ts := by
        cases m with
        | whole e =>
          simp only [readAllFrom, hm] at hr
          simpa [start] using ih hk.2 hr
        | operand frames | operator frames =>
          simp only [readAllFrom, hm] at hr
          exact ih hk.2 hr
      rw [openings_cons, closings_cons]
      omega

/-- Tokens that end after an expression has been begun leave it open. -/
theorem endError_of_begun (h : p ≠ start) : p.endError = .unmatchedOpen := by
  unfold endError
  split
  · exact absurd rfl h
  · rfl

theorem aboutToken_of_step {cause : Error} (hs : p.step limit base t = .error cause) :
    cause.AboutToken := by
  cases p with
  | whole e =>
    cases hs
    trivial
  | operator frames =>
    simp only [step] at hs
    split at hs
    case isTrue => cases hs
    case isFalse =>
      cases hs
      trivial
  | operand frames =>
    cases hkind : t.kind with
    | nil | bool | integer | string | symbol =>
      simp only [step, hkind] at hs
      cases hs
    | rparen =>
      simp only [step, hkind] at hs
      cases frames with
      | nil =>
        cases hs
        trivial
      | cons frame frames => cases hs
    | lparen | other _ =>
      simp only [step, hkind, enter] at hs
      split at hs
      case isTrue =>
        cases hs
        trivial
      case isFalse =>
        split at hs
        case isTrue =>
          cases hs
          trivial
        case isFalse => cases hs

theorem aboutToken_of_steps {cause : Error} {ts : List Token}
    (hs : p.steps limit base ts = .error cause) : cause.AboutToken := by
  induction ts generalizing p with
  | nil => cases hs
  | cons t ts ih =>
    cases hm : p.step limit base t with
    | ok m =>
      rw [steps_cons hm] at hs
      exact ih hs
    | error cause' =>
      simp only [steps, List.foldlM_cons, hm] at hs
      cases hs
      exact aboutToken_of_step hm

theorem aboutToken_of_readAllFrom {cause : Error} {done es : List Expr} {ts rest : List Token}
    (hr : readAllFrom limit done p ts = (es, .refused cause rest)) : cause.AboutToken := by
  induction ts generalizing p done with
  | nil => cases hr
  | cons t ts ih =>
    cases hm : p.step limit 0 t with
    | error cause' =>
      simp only [readAllFrom, hm] at hr
      cases hr
      exact aboutToken_of_step hm
    | ok m =>
      cases m with
      | whole e | operand frames | operator frames =>
        simp only [readAllFrom, hm] at hr
        exact ih hr

end Progress

namespace Token

theorem aboutPart_of_decodeFrom {literal : String} {done chars : List Char} {cause : Error}
    (h : decodeFrom literal done chars = .error cause) : cause.AboutPart := by
  fun_induction decodeFrom literal done chars with
  | case1 => cases h
  | case2 =>
    cases h
    trivial
  | case3 done escaped rest c hc ih => exact ih h
  | case4 =>
    cases h
    trivial
  | case5 done c rest _ _ ih => exact ih h

theorem aboutPart_of_classify {text : String} {cause : Error}
    (h : classify text = .error cause) : cause.AboutPart := by
  unfold classify at h
  split at h
  · cases h
    trivial
  iterate 5
    split at h
    · cases h
  split at h
  · cases hd : decode text with
    | ok body =>
      rw [hd] at h
      cases h
    | error cause' =>
      rw [hd] at h
      cases h
      exact aboutPart_of_decodeFrom hd
  · unfold ofWord at h
    split at h
    · cases h
    · split at h
      · cases h
        trivial
      · dsimp only at h
        split at h <;> cases h

/-- A part becomes a parenthesis exactly if it is one. -/
theorem kind_of_classify {text : String} {t : Token} (h : classify text = .ok t) :
    (t.kind = .lparen ↔ text = "(") ∧ (t.kind = .rparen ↔ text = ")") := by
  obtain ⟨rfl, rfl⟩ | ⟨rfl, rfl⟩ | ⟨v, hv, rfl⟩ | ⟨rfl, hopen, hclose, -⟩ := classify_cases h
  · decide
  · decide
  · have hk := kind_literal v
    refine ⟨⟨fun hl => ?_, ?_⟩, ⟨fun hr => ?_, ?_⟩⟩
    · rw [hl] at hk
      exact hk.elim
    · rintro rfl
      cases v <;> cases h
    · rw [hr] at hk
      exact hk.elim
    · rintro rfl
      cases v <;> cases h
  · simp [symbol, hopen, hclose]

end Token

namespace Supply

variable {α β : Type} {f : α → Except Error β} {s : Supply α}

/-- A converted supply breaks off where the supply does, or at an item that cannot be converted. -/
theorem fault_convert {cause : Error} (h : (s.convert f).fault = some cause) :
    s.fault = some cause ∨ ∃ a ∈ s.items, f a = .error cause := by
  obtain ⟨items, fault⟩ := s
  induction items with
  | nil => exact .inl h
  | cons a items ih =>
    cases ha : f a with
    | error cause' =>
      rw [convert_cons_error ha] at h
      cases h
      exact .inr ⟨a, List.mem_cons_self, ha⟩
    | ok b =>
      rw [convert_cons_ok ha] at h
      obtain hf | ⟨a', ha', hcause⟩ := ih h
      · exact .inl hf
      · exact .inr ⟨a', List.mem_cons_of_mem a ha', hcause⟩

/-- A converted supply that comes to its end has converted every item. -/
theorem forall₂_of_convert {items : List β} (h : s.convert f = .ofList items) :
    s.fault = none ∧ List.Forall₂ (fun a b => f a = .ok b) s.items items := by
  obtain ⟨delivered, fault⟩ := s
  induction delivered generalizing items with
  | nil =>
    cases h
    exact ⟨rfl, .nil⟩
  | cons a delivered ih =>
    cases ha : f a with
    | error cause =>
      rw [convert_cons_error ha] at h
      cases h
    | ok b =>
      rw [convert_cons_ok ha] at h
      obtain ⟨hitems, hfault⟩ := Supply.mk.inj h
      cases hitems
      have hrest : convert f ⟨delivered, fault⟩ = .ofList (convert f ⟨delivered, fault⟩).items := by
        rw [ofList, ← hfault]
      obtain ⟨hf, hall⟩ := ih hrest
      exact ⟨hf, .cons ha hall⟩

end Supply

theorem count_of_classified {ps : List String} {ts : List Token}
    (h : List.Forall₂ (fun p t => Token.classify p = .ok t) ps ts) :
    ps.count "(" = openings ts ∧ ps.count ")" = closings ts := by
  induction h with
  | nil => exact ⟨rfl, rfl⟩
  | @cons p t ps ts hp _ ih =>
    obtain ⟨hopen, hclose⟩ := Token.kind_of_classify hp
    simp [List.count_cons, ih.1, ih.2, hopen, hclose]

/-- Where every part is a token, the balance test compares the tokens. -/
theorem isBalanced_iff {text : String} {ts : List Token} (h : tokens text = .ofList ts) :
    isBalanced text = true ↔ openings ts ≤ closings ts := by
  obtain ⟨hfault, hall⟩ := Supply.forall₂_of_convert h
  obtain ⟨hopen, hclose⟩ := count_of_classified hall
  simp [isBalanced, hfault, hopen, hclose]

theorem known_of_tokens {text : String} {ts : List Token} (h : tokens text = .ofList ts) :
    ∀ t ∈ ts, t.kind.Known := by
  intro t ht
  have hmem : t ∈ (tokens text).items := by
    rw [h]
    exact ht
  exact (lexical_of_mem_tokens hmem).1.known

/-- A text that reads as one expression is balanced. -/
theorem isBalanced_of_parseText {limit : Limit} {text : String} {e : Expr}
    (h : parseText limit text = .ok e) : isBalanced text = true := by
  have htokens := fault_of_parse h
  rw [parseText, htokens, parse_ofList_eq_ok_iff] at h
  have hdepth := Progress.depth_steps (known_of_tokens htokens) h
  rw [Progress.depth_whole, Progress.start, Progress.depth_operand, List.length_nil] at hdepth
  rw [isBalanced_iff htokens]
  omega

/-- A text that reads as a script is balanced. -/
theorem isBalanced_of_parseAllText {limit : Limit} {text : String} {es : List Expr}
    (h : parseAllText limit text = .ok es) : isBalanced text = true := by
  have htokens := fault_of_parseAll h
  rw [parseAllText, htokens, parseAll_ofList_eq_ok_iff] at h
  have hdepth := Progress.depth_readAllFrom (known_of_tokens htokens) h
  rw [isBalanced_iff htokens]
  simp only [Progress.start, Progress.depth_operand, List.length_nil] at hdepth
  omega

/-- Why reading one expression fails: a token is refused, the supply breaks off, or it ends too
early. -/
theorem parse_eq_error {limit : Limit} {supply : Supply Token} {cause : Error}
    (h : parse limit supply = .error cause) :
    Progress.start.steps limit 0 supply.items = .error cause ∨ supply.fault = some cause ∨
      (supply.fault = none ∧ ∃ p, Progress.start.steps limit 0 supply.items = .ok p ∧
        ((p = .start ∧ cause = .emptyInput) ∨
          (p ≠ .start ∧ (∀ e, p ≠ .whole e) ∧ cause = p.endError))) := by
  obtain ⟨items, fault⟩ := supply
  rw [parse] at h
  cases hs : items.foldlM (Progress.step limit 0) Progress.start with
  | error cause' =>
    rw [hs] at h
    cases h
    exact .inl hs
  | ok p =>
    simp only [hs, bind, Except.bind] at h
    split at h
    · cases h
      exact .inr (.inl rfl)
    · cases h
    · cases h
      exact .inr (.inr ⟨rfl, _, hs, .inl ⟨rfl, rfl⟩⟩)
    · rename_i hwhole hstart
      cases h
      exact .inr (.inr ⟨rfl, _, hs, .inr ⟨hstart, hwhole, rfl⟩⟩)

/-- Why reading a script fails. Tokens that end between two expressions are no failure. -/
theorem parseAll_eq_error {limit : Limit} {supply : Supply Token} {cause : Error}
    (h : parseAll limit supply = .error cause) :
    (∃ es rest, readAllFrom limit [] .start supply.items = (es, .refused cause rest)) ∨
      supply.fault = some cause ∨
      (supply.fault = none ∧ ∃ es p, readAllFrom limit [] .start supply.items = (es, .starved p) ∧
        p ≠ .start ∧ cause = p.endError) := by
  obtain ⟨items, fault⟩ := supply
  simp only [parseAll, Reader.readAll, Reader.ofSupply, Reader.upcoming, Option.toList_none,
    List.nil_append] at h
  split at h
  case h_1 es cause' rest hr =>
    cases h
    exact .inl ⟨es, rest, hr⟩
  case h_2 es hr =>
    cases fault with
    | none => cases h
    | some cause' =>
      cases h
      exact .inr (.inl rfl)
  case h_3 es p hp hr =>
    cases fault with
    | none =>
      cases h
      exact .inr (.inr ⟨rfl, es, p, hr, hp, rfl⟩)
    | some cause' =>
      cases h
      exact .inr (.inl rfl)

/-- Reading on never stops with a complete expression in hand. -/
theorem readAllFrom_ne_whole {limit : Limit} {done es : List Expr} {p : Progress} {ts : List Token}
    {e : Expr} (hp : ∀ e, p ≠ .whole e) :
    readAllFrom limit done p ts ≠ (es, .starved (.whole e)) := by
  induction ts generalizing p done with
  | nil =>
    intro hr
    cases hr
    exact hp e rfl
  | cons t ts ih =>
    cases hm : p.step limit 0 t with
    | error cause =>
      simp only [readAllFrom, hm]
      intro hr
      cases hr
    | ok m =>
      cases m with
      | whole e' =>
        simp only [readAllFrom, hm]
        exact ih (by simp [Progress.start])
      | operand frames | operator frames =>
        simp only [readAllFrom, hm]
        exact ih (by simp)

/-- Why a text cannot be read. -/
inductive Unreadable (text : String) : Error → Prop
  | token {cause : Error} (h : cause.AboutToken) : Unreadable text cause
  | part {cause : Error} (h : cause.AboutPart) : Unreadable text cause
  | literal {position : Nat} (h : (parts text).fault = some (.unterminatedString position)) :
      Unreadable text (.unterminatedString position)
  | unclosed {ts : List Token} (h : tokens text = .ofList ts) (hc : closings ts < openings ts) :
      Unreadable text .unmatchedOpen
  | nothing (h : tokens text = .ofList []) : Unreadable text .emptyInput

namespace Unreadable

variable {limit : Limit} {text : String} {cause : Error}

theorem of_fault (h : (tokens text).fault = some cause) : Unreadable text cause := by
  obtain hparts | ⟨p, -, hp⟩ := Supply.fault_convert h
  · have hfinish := hparts
    rw [Lisplet.parts, Scan.finish] at hfinish
    split at hfinish
    · cases hfinish
    all_goals
      cases hfinish
      exact .literal hparts
  · exact .part (Token.aboutPart_of_classify hp)

/-- Tokens that end while something is open. -/
theorem of_depth {ts : List Token} {p : Progress} (h : tokens text = .ofList ts)
    (hd : p.depth + closings ts = Progress.start.depth + openings ts) (hs : p ≠ .start)
    (hw : ∀ e, p ≠ .whole e) : Unreadable text p.endError := by
  have hpos := Progress.depth_pos hs hw
  rw [Progress.start, Progress.depth_operand, List.length_nil] at hd
  rw [Progress.endError_of_begun hs]
  exact .unclosed h (by omega)

theorem of_parseText (h : parseText limit text = .error cause) : Unreadable text cause := by
  obtain hrefused | hfault | ⟨hfault, p, hsteps, hp⟩ := parse_eq_error h
  · exact .token (Progress.aboutToken_of_steps hrefused)
  · exact .of_fault hfault
  · have htokens : tokens text = .ofList (tokens text).items := by rw [Supply.ofList, ← hfault]
    have hknown := known_of_tokens htokens
    obtain ⟨rfl, rfl⟩ | ⟨hbegun, hpartial, rfl⟩ := hp
    · have hreached : Reached limit 0 [] .start := Opened.nil
      have hempty : (tokens text).items = [] := (hreached.steps hknown hsteps).eq_nil
      rw [hempty] at htokens
      exact .nothing htokens
    · exact .of_depth htokens (Progress.depth_steps hknown hsteps) hbegun hpartial

theorem of_parseAllText (h : parseAllText limit text = .error cause) : Unreadable text cause := by
  obtain ⟨es, rest, hrefused⟩ | hfault | ⟨hfault, es, p, hread, hbegun, rfl⟩ := parseAll_eq_error h
  · exact .token (Progress.aboutToken_of_readAllFrom hrefused)
  · exact .of_fault hfault
  · have htokens : tokens text = .ofList (tokens text).items := by rw [Supply.ofList, ← hfault]
    have hpartial : ∀ e, p ≠ .whole e := by
      rintro e rfl
      exact readAllFrom_ne_whole (by simp [Progress.start]) hread
    exact .of_depth htokens (Progress.depth_readAllFrom (known_of_tokens htokens) hread) hbegun
      hpartial

/-- What is wrong with a balanced text lies in a token or in a part, if there is anything in it. -/
theorem of_balanced (h : Unreadable text cause) (hb : isBalanced text = true) :
    cause.AboutToken ∨ cause.AboutPart ∨ (cause = .emptyInput ∧ tokens text = .ofList []) := by
  cases h with
  | token h => exact .inl h
  | part h => exact .inr (.inl h)
  | literal h => simp [isBalanced, h] at hb
  | unclosed h hc =>
    rw [isBalanced_iff h] at hb
    omega
  | nothing h => exact .inr (.inr ⟨rfl, h⟩)

end Unreadable

end Lisplet
