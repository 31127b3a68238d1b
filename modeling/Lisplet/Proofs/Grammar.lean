import Lisplet.Expr

/-!
# The grammar of expressions

An expression is written by one literal or symbol token, or by an opening parenthesis, a symbol,
any number of expressions and a closing parenthesis. `Derives` says so for a row of expressions,
whose token strings follow one another, and counts how deep their compounds are nested. No reader
occurs here: the grammar is unambiguous by itself, and a single expression is also told apart from
whatever tokens come after it.
-/

namespace Lisplet

namespace TokenKind

/-- One of the seven kinds that a text can give. -/
def Known : TokenKind → Prop
  | .other _ => False
  | _ => True

instance : DecidablePred Known
  | .other _ => isFalse id
  | .lparen | .rparen | .nil | .bool | .integer | .string | .symbol => isTrue trivial

/-- The kinds of tokens that write a constant. -/
def Constant : TokenKind → Prop
  | .nil | .bool | .integer | .string => True
  | _ => False

end TokenKind

/-- The tokens write the expressions one after another; the number is the height of the highest.
Operators and symbols are named by what their tokens hold. -/
inductive Derives : List Token → List Expr → Nat → Prop
  | nil : Derives [] [] 0
  | literal {t : Token} {ts : List Token} {es : List Expr} {h : Nat}
      (kind : t.kind.Constant) (rest : Derives ts es h) :
      Derives (t :: ts) (.literal t.value :: es) h
  | symbol {t : Token} {ts : List Token} {es : List Expr} {h : Nat}
      (kind : t.kind = .symbol) (rest : Derives ts es h) :
      Derives (t :: ts) (.ofName t.value :: es) h
  | compound {l op r : Token} {us ts : List Token} {args es : List Expr} {k h : Nat}
      (opening : l.kind = .lparen) (operator : op.kind = .symbol) (inner : Derives us args k)
      (closing : r.kind = .rparen) (rest : Derives ts es h) :
      Derives (l :: op :: (us ++ r :: ts)) (.ofOperator op.value args :: es) (max (k + 1) h)

/-- The tokens are the token string of one expression of this height. -/
abbrev Writes (ts : List Token) (e : Expr) (h : Nat) : Prop := Derives ts [e] h

/-- A row of expressions cannot go on here. -/
def RowEnds (rest : List Token) : Prop := ∀ t ∈ rest.head?, t.kind = .rparen

theorem rowEnds_nil : RowEnds [] := by simp [RowEnds]

theorem rowEnds_cons {r : Token} (hr : r.kind = .rparen) (rest : List Token) :
    RowEnds (r :: rest) := by
  intro t ht
  obtain rfl : r = t := by simpa using ht
  exact hr

namespace Derives

/-- What a row can begin with, said by the kind of its first token. -/
theorem starts {t : Token} {ts us rest : List Token} {es : List Expr} {h : Nat}
    (hd : Derives us es h) (hr : RowEnds rest) (he : t :: ts = us ++ rest) :
    (t.kind = .rparen ∧ us = []) ∨
    (t.kind.Constant ∧ ∃ us' es', us = t :: us' ∧ es = .literal t.value :: es' ∧
      Derives us' es' h ∧ ts = us' ++ rest) ∨
    (t.kind = .symbol ∧ ∃ us' es', us = t :: us' ∧ es = .ofName t.value :: es' ∧
      Derives us' es' h ∧ ts = us' ++ rest) ∨
    (t.kind = .lparen ∧ ∃ op r vs ws args es' k h', us = t :: op :: (vs ++ r :: ws) ∧
      es = .ofOperator op.value args :: es' ∧ h = max (k + 1) h' ∧ Derives vs args k ∧
      r.kind = .rparen ∧ Derives ws es' h' ∧ ts = op :: (vs ++ r :: (ws ++ rest))) := by
  cases hd with
  | nil =>
    rw [List.nil_append] at he
    exact .inl ⟨hr t (by rw [← he]; rfl), rfl⟩
  | literal kind hrest =>
    obtain ⟨rfl, ht⟩ := List.cons.inj he
    exact .inr (.inl ⟨kind, _, _, rfl, rfl, hrest, ht⟩)
  | symbol kind hrest =>
    obtain ⟨rfl, ht⟩ := List.cons.inj he
    exact .inr (.inr (.inl ⟨kind, _, _, rfl, rfl, hrest, ht⟩))
  | compound opening _ inner closing hrest =>
    obtain ⟨rfl, ht⟩ := List.cons.inj he
    refine .inr (.inr (.inr ⟨opening, _, _, _, _, _, _, _, _, rfl, rfl, rfl, inner, closing, hrest,
      ?_⟩))
    rw [ht]
    simp

/-- The grammar is unambiguous: two derivations over the same tokens, where neither can go on,
agree on how far they reach, on the expressions and on the height. -/
theorem unique {ts us rest rest' : List Token} {es es' : List Expr} {h h' : Nat}
    (hd : Derives ts es h) (hd' : Derives us es' h') (hr : RowEnds rest) (hr' : RowEnds rest')
    (he : ts ++ rest = us ++ rest') : ts = us ∧ es = es' ∧ h = h' ∧ rest = rest' := by
  induction hd generalizing us rest rest' es' h' with
  | nil =>
    cases us with
    | nil => cases hd'; exact ⟨rfl, rfl, rfl, he⟩
    | cons t us =>
      -- the other row would start with a closing parenthesis
      have hk : t.kind = .rparen := by
        rw [List.nil_append] at he
        exact hr t (by rw [he]; rfl)
      have hs := hd'.starts rowEnds_nil (List.append_nil (t :: us)).symm
      rw [hk] at hs
      simp [TokenKind.Constant] at hs
  | literal kind _ ih =>
    obtain ⟨hk, -⟩ | ⟨-, vs, fs, rfl, rfl, hv, ht⟩ | ⟨hk, -⟩ | ⟨hk, -⟩ := hd'.starts hr' he
    · rw [hk] at kind; exact kind.elim
    · obtain ⟨rfl, rfl, rfl, rfl⟩ := ih hv hr hr' ht
      exact ⟨rfl, rfl, rfl, rfl⟩
    · rw [hk] at kind; exact kind.elim
    · rw [hk] at kind; exact kind.elim
  | symbol kind _ ih =>
    obtain ⟨hk, -⟩ | ⟨hk, -⟩ | ⟨-, vs, fs, rfl, rfl, hv, ht⟩ | ⟨hk, -⟩ := hd'.starts hr' he
    · rw [hk] at kind; cases kind
    · rw [kind] at hk; exact hk.elim
    · obtain ⟨rfl, rfl, rfl, rfl⟩ := ih hv hr hr' ht
      exact ⟨rfl, rfl, rfl, rfl⟩
    · rw [hk] at kind; cases kind
  | @compound l op r vs ts args es k h opening _ _ closing _ ihInner ihRest =>
    obtain ⟨hk, -⟩ | ⟨hk, -⟩ | ⟨hk, -⟩ |
      ⟨-, op', r', vs', ws, args', fs, k', h'', rfl, rfl, rfl, hv, hc, hw, ht⟩ := hd'.starts hr' he
    · rw [hk] at opening; cases opening
    · rw [opening] at hk; exact hk.elim
    · rw [hk] at opening; cases opening
    -- the arguments end at the closing parenthesis on both sides
    · obtain ⟨rfl, ht'⟩ := List.cons.inj ht
      have hargs : vs ++ r :: (ts ++ rest) = vs' ++ r' :: (ws ++ rest') := by
        rw [← ht']
        simp
      obtain ⟨rfl, rfl, rfl, hrest⟩ := ihInner hv (rowEnds_cons closing _) (rowEnds_cons hc _) hargs
      obtain ⟨rfl, hts⟩ := List.cons.inj hrest
      obtain ⟨rfl, rfl, rfl, rfl⟩ := ihRest hw hr hr' hts
      exact ⟨rfl, rfl, rfl, rfl⟩

theorem append {ts us : List Token} {es fs : List Expr} {h k : Nat} (hd : Derives ts es h)
    (hd' : Derives us fs k) : Derives (ts ++ us) (es ++ fs) (max h k) := by
  induction hd with
  | nil => simpa using hd'
  | literal kind _ ih => exact .literal kind ih
  | symbol kind _ ih => exact .symbol kind ih
  | compound opening operator inner closing _ _ ih =>
    have hc := compound opening operator inner closing ih
    rw [← Nat.max_assoc] at hc
    simpa using hc

theorem nil_iff {ts : List Token} {h : Nat} : Derives ts [] h ↔ ts = [] ∧ h = 0 := by
  constructor
  · intro hd
    cases hd
    exact ⟨rfl, rfl⟩
  · rintro ⟨rfl, rfl⟩
    exact .nil

/-- The token string of a single expression, by its first token. -/
theorem single {ts : List Token} {e : Expr} {h : Nat} (hd : Writes ts e h) :
    (∃ t, ts = [t] ∧ t.kind.Constant ∧ e = .literal t.value ∧ h = 0) ∨
    (∃ t, ts = [t] ∧ t.kind = .symbol ∧ e = .ofName t.value ∧ h = 0) ∨
    (∃ l op r us args k, ts = l :: op :: (us ++ [r]) ∧ l.kind = .lparen ∧ op.kind = .symbol ∧
      r.kind = .rparen ∧ Derives us args k ∧ e = .ofOperator op.value args ∧ h = k + 1) := by
  cases hd with
  | literal kind rest =>
    obtain ⟨rfl, rfl⟩ := nil_iff.mp rest
    exact .inl ⟨_, rfl, kind, rfl, rfl⟩
  | symbol kind rest =>
    obtain ⟨rfl, rfl⟩ := nil_iff.mp rest
    exact .inr (.inl ⟨_, rfl, kind, rfl, rfl⟩)
  | compound opening operator inner closing rest =>
    obtain ⟨rfl, rfl⟩ := nil_iff.mp rest
    exact .inr (.inr ⟨_, _, _, _, _, _, rfl, opening, operator, closing, inner, rfl, by omega⟩)

/-- No token string of an expression continues another one: whatever tokens follow, the expression
that a row of tokens starts with is determined, and so is where it ends. -/
theorem single_unique {ts us rest rest' : List Token} {e e' : Expr} {h h' : Nat}
    (hd : Writes ts e h) (hd' : Writes us e' h') (he : ts ++ rest = us ++ rest') :
    ts = us ∧ e = e' ∧ h = h' ∧ rest = rest' := by
  obtain ⟨t, rfl, hk, rfl, rfl⟩ | ⟨t, rfl, hk, rfl, rfl⟩ |
    ⟨l, op, r, vs, args, k, rfl, hl, -, hr, hv, rfl, rfl⟩ := hd.single
  all_goals
    obtain ⟨t', rfl, hk', rfl, rfl⟩ | ⟨t', rfl, hk', rfl, rfl⟩ |
      ⟨l', op', r', vs', args', k', rfl, hl', -, hr', hv', rfl, rfl⟩ := hd'.single
  -- the diagonal cases agree, the others differ in the kind of the first token
  · obtain ⟨rfl, rfl⟩ := List.cons.inj he
    exact ⟨rfl, rfl, rfl, rfl⟩
  · obtain ⟨rfl, -⟩ := List.cons.inj he
    rw [hk'] at hk; exact hk.elim
  · obtain ⟨rfl, -⟩ := List.cons.inj he
    rw [hl'] at hk; exact hk.elim
  · obtain ⟨rfl, -⟩ := List.cons.inj he
    rw [hk] at hk'; exact hk'.elim
  · obtain ⟨rfl, rfl⟩ := List.cons.inj he
    exact ⟨rfl, rfl, rfl, rfl⟩
  · obtain ⟨rfl, -⟩ := List.cons.inj he
    rw [hl'] at hk; cases hk
  · obtain ⟨rfl, -⟩ := List.cons.inj he
    rw [hl] at hk'; exact hk'.elim
  · obtain ⟨rfl, -⟩ := List.cons.inj he
    rw [hl] at hk'; cases hk'
  · obtain ⟨rfl, ho⟩ := List.cons.inj he
    obtain ⟨rfl, -⟩ := List.cons.inj ho
    have hargs : vs ++ r :: rest = vs' ++ r' :: rest' := by simpa using he
    obtain ⟨rfl, rfl, rfl, hrest⟩ := hv.unique hv' (rowEnds_cons hr _) (rowEnds_cons hr' _) hargs
    obtain ⟨rfl, rfl⟩ := List.cons.inj hrest
    exact ⟨rfl, rfl, rfl, rfl⟩

/-- Where every symbol token holds a text, the height counted along the derivation is the height
of the expressions. -/
theorem height_eq {ts : List Token} {es : List Expr} {h : Nat} (hd : Derives ts es h)
    (hn : ∀ t ∈ ts, t.kind = .symbol → ∃ name, t.value = .string name) :
    h = Expr.argsHeight es := by
  induction hd with
  | nil => rfl
  | literal _ _ ih =>
    have hrest := ih fun t ht => hn t (List.mem_cons_of_mem _ ht)
    simp [Expr.argsHeight, Expr.height, hrest]
  | @symbol t _ _ _ kind _ ih =>
    have hrest := ih fun t ht => hn t (List.mem_cons_of_mem _ ht)
    obtain ⟨name, hname⟩ := hn t List.mem_cons_self kind
    simp [Expr.argsHeight, Expr.height, hrest, hname, Expr.ofName]
  | @compound l op r us ts args es k h _ operator _ _ _ ihInner ihRest =>
    have hinner := ihInner fun t ht => hn t (by simp [ht])
    have hrest := ihRest fun t ht => hn t (by simp [ht])
    obtain ⟨name, hname⟩ := hn op (by simp) operator
    simp [Expr.argsHeight, Expr.height, hinner, hrest, hname, Expr.ofOperator]

end Derives

namespace Token.Lexical

variable {t : Token}

theorem eq_symbol (ht : t.Lexical) (hk : t.kind = .symbol) : ∃ name, t = .symbol name := by
  cases ht with
  | symbol name => exact ⟨name, rfl⟩
  | literal v _ => cases v <;> cases hk
  | _ => cases hk

theorem eq_lparen (ht : t.Lexical) (hk : t.kind = .lparen) : t = .lparen := by
  cases ht with
  | lparen => rfl
  | literal v _ => cases v <;> cases hk
  | _ => cases hk

theorem eq_rparen (ht : t.Lexical) (hk : t.kind = .rparen) : t = .rparen := by
  cases ht with
  | rparen => rfl
  | literal v _ => cases v <;> cases hk
  | _ => cases hk

theorem eq_literal (ht : t.Lexical) (hk : t.kind.Constant) :
    t = .literal t.value ∧ t.value.Proper := by
  cases ht with
  | literal v hv =>
    have hvalue : (Token.literal v).value = v := by cases v <;> rfl
    rw [hvalue]
    exact ⟨rfl, hv⟩
  | _ => exact hk.elim

theorem known (ht : t.Lexical) : t.kind.Known := by
  cases ht with
  | literal v _ => cases v <;> trivial
  | _ => trivial

end Token.Lexical

theorem Token.kind_literal (v : Value) : (Token.literal v).kind.Constant := by
  cases v <;> trivial

theorem Token.value_literal (v : Value) : (Token.literal v).value = v := by
  cases v <;> rfl

namespace Derives

/-- Tokens that a text gives are the tokens of the expressions that they write, and these hold no
object from outside the language. -/
theorem eq_tokens {ts : List Token} {es : List Expr} {h : Nat} (hd : Derives ts es h)
    (hl : ∀ t ∈ ts, t.Lexical) : ts = Expr.argsTokens es ∧ Expr.AllProper es := by
  induction hd with
  | nil => exact ⟨rfl, trivial⟩
  | @literal t ts es h kind _ ih =>
    obtain ⟨hts, hes⟩ := ih fun t ht => hl t (List.mem_cons_of_mem _ ht)
    obtain ⟨ht, hv⟩ := (hl t List.mem_cons_self).eq_literal kind
    exact ⟨by rw [Expr.argsTokens, Expr.tokens, ← hts, ← ht]; rfl, hv, hes⟩
  | @symbol t ts es h kind _ ih =>
    obtain ⟨hts, hes⟩ := ih fun t ht => hl t (List.mem_cons_of_mem _ ht)
    obtain ⟨name, rfl⟩ := (hl t List.mem_cons_self).eq_symbol kind
    exact ⟨by rw [hts]; rfl, trivial, hes⟩
  | @compound l op r us ts args es k h opening operator _ closing _ ihInner ihRest =>
    obtain ⟨hus, hargs⟩ := ihInner fun t ht => hl t (by simp [ht])
    obtain ⟨hts, hes⟩ := ihRest fun t ht => hl t (by simp [ht])
    obtain ⟨name, rfl⟩ := (hl op (by simp)).eq_symbol operator
    obtain rfl := (hl l (by simp)).eq_lparen opening
    obtain rfl := (hl r (by simp)).eq_rparen closing
    refine ⟨?_, hargs, hes⟩
    simp [Expr.argsTokens, Expr.tokens, Expr.ofOperator, Token.symbol, ← hus, ← hts]

/-- The tokens of an expression write it, in front of any row. -/
theorem tokens_append {e : Expr} (he : e.Proper) {ts : List Token} {es : List Expr} {h : Nat}
    (hd : Derives ts es h) : Derives (e.tokens ++ ts) (e :: es) (max e.height h) := by
  induction e generalizing ts es h with
  | literal v =>
    have ht := literal (Token.kind_literal v) hd
    rw [Token.value_literal] at ht
    simpa [Expr.tokens, Expr.height] using ht
  | symbol name =>
    have ht : Derives (Token.symbol name :: ts) (.symbol name :: es) h := symbol rfl hd
    simpa [Expr.tokens, Expr.height] using ht
  | compound operator args ih =>
    have hargs : Derives (Expr.argsTokens args) args (Expr.argsHeight args) := by
      have hp := Expr.allProper_iff.mp he
      clear he
      induction args with
      | nil => exact .nil
      | cons arg args ihArgs =>
        rw [List.forall_mem_cons] at hp ih
        exact ih.1 hp.1 (ihArgs ih.2 hp.2)
    have ht : Derives (Token.lparen :: Token.symbol operator ::
        (Expr.argsTokens args ++ Token.rparen :: ts)) (.compound operator args :: es)
        (max (Expr.argsHeight args + 1) h) := compound rfl rfl hargs rfl hd
    simpa [Expr.tokens, Expr.height] using ht
  | foreign stranger => exact he.elim

theorem writes_tokens {e : Expr} (he : e.Proper) : Writes e.tokens e e.height := by
  simpa using tokens_append he .nil

end Derives

end Lisplet
