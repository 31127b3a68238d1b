import Lisplet.Proofs.Lexeme
import Mathlib.Data.List.Forall2

/-!
# Parts and the tokens they become

`classify_cases` lists what a part can become, and every later fact about the tokens of a text
follows from it: the tokens are lexical, a symbol is named by its own part, and that part is a name.
In the other direction the rendering of a value is a single part that becomes the token of this
value.
-/

namespace Lisplet

namespace Token

theorem ofWord_cases {text : String} {t : Token} (h : ofWord text = .ok t) :
    t = .symbol text ∨ ∃ n, Fits n ∧ t = .literal (.integer n) := by
  unfold ofWord at h
  cases hi : integerText? text.toList with
  | none =>
    simp only [hi] at h
    cases h
    exact .inl rfl
  | some written =>
    obtain ⟨negative, digits⟩ := written
    simp only [hi] at h
    split at h
    · cases h
    · split at h
      case isTrue hfits =>
        cases h
        exact .inr ⟨_, hfits, rfl⟩
      case isFalse =>
        cases h
        exact .inl rfl

/-- A part that begins with a quote is decoded. -/
theorem classify_of_quote {text : String} (h : text.toList.head? = some '"') :
    classify text = (decode text).map fun body => ⟨.string, .string body⟩ := by
  have hnot : ∀ {word : String}, word.toList.head? ≠ some '"' → text ≠ word := by
    rintro word hw rfl
    exact hw h
  unfold classify
  rw [if_neg (hnot (by decide)), if_neg (hnot (by decide)), if_neg (hnot (by decide)),
    if_neg (hnot (by decide)), if_neg (hnot (by decide)), if_neg (hnot (by decide)), if_pos h]

/-- What a part can become. -/
theorem classify_cases {text : String} {t : Token} (h : classify text = .ok t) :
    (text = "(" ∧ t = .lparen) ∨ (text = ")" ∧ t = .rparen) ∨ (∃ v, v.Proper ∧ t = .literal v) ∨
      (t = .symbol text ∧ text ≠ "(" ∧ text ≠ ")" ∧ text.toList.head? ≠ some '"') := by
  unfold classify at h
  split at h
  · cases h
  · split at h
    · rename_i hopen
      cases h
      exact .inl ⟨hopen, rfl⟩
    · split at h
      · rename_i hclose
        cases h
        exact .inr (.inl ⟨hclose, rfl⟩)
      · rename_i hopen hclose
        split at h
        · cases h
          exact .inr (.inr (.inl ⟨.bool true, trivial, rfl⟩))
        · split at h
          · cases h
            exact .inr (.inr (.inl ⟨.bool false, trivial, rfl⟩))
          · split at h
            · cases h
              exact .inr (.inr (.inl ⟨.nil, trivial, rfl⟩))
            · split at h
              · cases hd : decode text with
                | error e =>
                  rw [hd] at h
                  cases h
                | ok body =>
                  rw [hd] at h
                  cases h
                  exact .inr (.inr (.inl ⟨.string body, trivial, rfl⟩))
              · rename_i hquote
                obtain rfl | ⟨n, hfits, rfl⟩ := ofWord_cases h
                · exact .inr (.inr (.inr ⟨rfl, hopen, hclose, hquote⟩))
                · exact .inr (.inr (.inl ⟨.integer n, hfits, rfl⟩))

theorem lexical_of_classify {text : String} {t : Token} (h : classify text = .ok t) :
    t.Lexical := by
  obtain ⟨-, rfl⟩ | ⟨-, rfl⟩ | ⟨v, hv, rfl⟩ | ⟨rfl, -⟩ := classify_cases h
  · exact .lparen
  · exact .rparen
  · exact .literal v hv
  · exact .symbol text

/-- A symbol is named by its part. -/
theorem symbol_of_classify {text : String} {t : Token} (h : classify text = .ok t)
    (hk : t.kind = .symbol) : t = .symbol text := by
  obtain ⟨-, rfl⟩ | ⟨-, rfl⟩ | ⟨v, hv, rfl⟩ | ⟨hs, -⟩ := classify_cases h
  · cases hk
  · cases hk
  · cases v <;> cases hk
  · exact hs

end Token

/-- A text that can name a variable or an operator: by itself it is one part, and that part is
classified as a symbol. -/
def IsName (name : String) : Prop :=
  parts name = ⟨[name], none⟩ ∧ ∃ t, Token.classify name = .ok t ∧ t.kind = .symbol

/-- A part that is classified as a symbol is a name. -/
theorem isName_of_lexeme {name : String} {t : Token} (hl : Lexeme name.toList)
    (hc : Token.classify name = .ok t) (hk : t.kind = .symbol) : IsName name := by
  refine ⟨?_, t, hc, hk⟩
  have hd := Scan.scan_lexeme (s := Scan.start) rfl hl
  have hf := hd.finish
  simpa [parts, Scan.start] using hf

theorem IsName.lexeme {name : String} (hn : IsName name) : Lexeme name.toList :=
  lexeme_of_mem_parts (by rw [hn.1]; simp)

theorem IsName.classify {name : String} (hn : IsName name) :
    Token.classify name = .ok (.symbol name) := by
  obtain ⟨t, hc, hk⟩ := hn.2
  rw [hc, Token.symbol_of_classify hc hk]

namespace Value

/-- The text of an integer holds decimal digits and at most a sign. -/
theorem digit_of_mem_repr {n : Int} {c : Char} (hc : c ∈ n.repr.toList) :
    c = '-' ∨ c.isDigit = true := by
  rw [Int.repr_eq_if] at hc
  split at hc
  · rw [Nat.toList_repr] at hc
    exact .inr (Nat.isDigit_of_mem_toDigits (by decide) (by decide) hc)
  · rw [String.toList_append, List.mem_append, Nat.toList_repr] at hc
    rcases hc with hsign | hdigit
    · exact .inl (by simpa using hsign)
    · exact .inr (Nat.isDigit_of_mem_toDigits (by decide) (by decide) hdigit)

theorem bare_of_digit {c : Char} (hc : c = '-' ∨ c.isDigit = true) : Bare c := by
  rcases hc with rfl | hd
  · decide
  · refine ⟨?_, ?_, ?_⟩
    · have hrange : 48 ≤ c.toNat ∧ c.toNat ≤ 57 := by
        simpa [Char.isDigit, Char.le_def, UInt32.le_iff_toNat_le] using hd
      simp only [Text.isBlank, Text.inRanges, Text.blankRanges, List.any_eq_false]
      intro r hr
      simp only [List.mem_cons, List.not_mem_nil, or_false] at hr
      rcases hr with rfl | rfl | rfl | rfl | rfl | rfl | rfl | rfl | rfl | rfl <;>
        simp only [Bool.and_eq_true, decide_eq_true_eq] <;> omega
    · rintro (rfl | rfl) <;> cases hd
    · rintro rfl
      cases hd

theorem integerText?_repr (n : Int) :
    Token.integerText? n.repr.toList = some (decide (n < 0), Nat.toDigits 10 n.natAbs) := by
  have hdigits : ∀ m, (Nat.toDigits 10 m).all Char.isDigit = true := by
    intro m
    rw [List.all_eq_true]
    exact fun c hc => Nat.isDigit_of_mem_toDigits (by decide) (by decide) hc
  have hne : ∀ m, (Nat.toDigits 10 m).isEmpty = false := by
    intro m
    rw [List.isEmpty_eq_false_iff]
    exact Nat.toDigits_ne_nil
  rw [Int.repr_eq_if]
  split
  case isTrue hn =>
    have hhead : ((Nat.toDigits 10 n.toNat).head? == some '-') = false := by
      cases hd : Nat.toDigits 10 n.toNat with
      | nil => rfl
      | cons c cs =>
        have hc := List.all_eq_true.mp (hdigits n.toNat) c (by rw [hd]; simp)
        have hsign : c ≠ '-' := by
          rintro rfl
          cases hc
        simpa using hsign
    have habs : n.natAbs = n.toNat := by omega
    rw [Nat.toList_repr, Token.integerText?, hhead, habs]
    simp [hdigits, hne, hn]
  case isFalse hn =>
    have habs : n.natAbs = (-n).toNat := by omega
    rw [String.toList_append, Nat.toList_repr, habs, Token.integerText?]
    simp [hdigits, hne]
    omega

theorem integerValue_digits (n : Int) :
    Token.integerValue (decide (n < 0)) (Nat.toDigits 10 n.natAbs) = n := by
  simp only [Token.integerValue, Nat.ofDigitChars_ten_toDigits]
  split
  · rename_i h
    simp at h
    omega
  · rename_i h
    simp at h
    omega

theorem classify_repr {n : Int} (hn : Fits n) :
    Token.classify n.repr = .ok (.literal (.integer n)) := by
  have hnot : ∀ {word : String} (c : Char), c ∈ word.toList → ¬(c = '-' ∨ c.isDigit = true) →
      n.repr ≠ word := by
    rintro word c hc hd rfl
    exact hd (digit_of_mem_repr hc)
  have hlength : (Nat.toDigits 10 n.natAbs).length ≤ 10 :=
    (Nat.length_toDigits_le_iff (by decide) (by decide)).mpr (by omega)
  have hempty : n.repr ≠ "" := by
    intro he
    have ht := integerText?_repr n
    rw [he] at ht
    cases ht
  have hquote : n.repr.toList.head? ≠ some '"' := by
    intro he
    have hq := digit_of_mem_repr (List.mem_of_head? he)
    simp at hq
  have hword : Token.ofWord n.repr = .ok (.literal (.integer n)) := by
    simp only [Token.ofWord, integerText?_repr, integerValue_digits, if_pos hn]
    rw [if_neg (by rw [Text.maxDigits]; omega)]
    rfl
  unfold Token.classify
  rw [if_neg hempty, if_neg (hnot '(' (by decide) (by decide)),
    if_neg (hnot ')' (by decide) (by decide)), if_neg (hnot 't' (by decide) (by decide)),
    if_neg (hnot 'f' (by decide) (by decide)), if_neg (hnot 'n' (by decide) (by decide)),
    if_neg hquote]
  exact hword

theorem literalBody_escape (c : Char) : LiteralBody (escape c) := by
  unfold escape
  split
  · exact .escaped '\\' .nil
  · split
    · exact .escaped '"' .nil
    · split
      · exact .escaped 'n' .nil
      · split
        · exact .escaped 't' .nil
        · exact .plain ‹_› ‹_› .nil

theorem literalBody_flatMap_escape (text : List Char) : LiteralBody (text.flatMap escape) := by
  induction text with
  | nil => exact .nil
  | cons c text ih => exact (literalBody_escape c).append ih

theorem classify_quoted (text : String) :
    Token.classify (String.ofList ('"' :: text.toList.flatMap escape ++ ['"'])) =
      .ok (.literal (.string text)) := by
  have hhead : (String.ofList ('"' :: text.toList.flatMap escape ++ ['"'])).toList.head? =
      some '"' := by
    rw [String.toList_ofList]
    rfl
  have hdecode : Token.decode (String.ofList ('"' :: text.toList.flatMap escape ++ ['"'])) =
      .ok text := by
    rw [Token.decode, String.toList_ofList, List.cons_append, List.tail_cons,
      List.dropLast_concat, Token.decodeFrom_escape]
    simp
  rw [Token.classify_of_quote hhead, hdecode]
  rfl

/-- A bare word, checked character by character. -/
theorem lexeme_of_all {cs : List Char} (hne : cs ≠ [])
    (hb : cs.all (fun c => decide (Bare c)) = true) : Lexeme cs := by
  refine .word hne fun c hc => ?_
  exact of_decide_eq_true (List.all_eq_true.mp hb c hc)

theorem classify_true : Token.classify "true" = .ok (.literal (.bool true)) := by
  simp [Token.classify, Token.literal, kind?]

theorem classify_false : Token.classify "false" = .ok (.literal (.bool false)) := by
  simp [Token.classify, Token.literal, kind?]

theorem classify_nil : Token.classify "nil" = .ok (.literal .nil) := by
  simp [Token.classify, Token.literal, kind?]

/-- A value of the language is rendered as one part, and this part becomes its token. -/
theorem render_lexeme {v : Value} (hv : v.Proper) :
    ∃ text, v.render = .ok text ∧ Lexeme text.toList ∧
      Token.classify text = .ok (.literal v) := by
  match v, hv with
  | .integer n, hn =>
    refine ⟨n.repr, render_integer hn, ?_, classify_repr hn⟩
    refine .word ?_ fun c hc => bare_of_digit (digit_of_mem_repr hc)
    intro he
    have ht := integerText?_repr n
    rw [he] at ht
    cases ht
  | .bool true, _ => exact ⟨"true", rfl, lexeme_of_all (by decide) (by decide), classify_true⟩
  | .bool false, _ => exact ⟨"false", rfl, lexeme_of_all (by decide) (by decide), classify_false⟩
  | .nil, _ => exact ⟨"nil", rfl, lexeme_of_all (by decide) (by decide), classify_nil⟩
  | .string text, _ =>
    refine ⟨_, rfl, ?_, classify_quoted text⟩
    rw [String.toList_ofList]
    exact .literal (literalBody_flatMap_escape text.toList)

end Value

namespace Supply

variable {α β : Type} {f : α → Except Error β}

/-- What a converted supply delivers comes from what the supply delivers. -/
theorem mem_convert {s : Supply α} {b : β} (hb : b ∈ (s.convert f).items) :
    ∃ a ∈ s.items, f a = .ok b := by
  obtain ⟨items, fault⟩ := s
  induction items with
  | nil => exact absurd hb List.not_mem_nil
  | cons a items ih =>
    cases ha : f a with
    | error e =>
      rw [convert_cons_error ha] at hb
      exact absurd hb List.not_mem_nil
    | ok b' =>
      rw [convert_cons_ok ha, List.mem_cons] at hb
      rcases hb with rfl | hb
      · exact ⟨a, List.mem_cons_self, ha⟩
      · obtain ⟨a', ha', hf⟩ := ih hb
        exact ⟨a', List.mem_cons_of_mem a ha', hf⟩

theorem convert_of_forall₂ {items : List α} {converted : List β}
    (h : List.Forall₂ (fun a b => f a = .ok b) items converted) (fault : Option Error) :
    convert f ⟨items, fault⟩ = ⟨converted, fault⟩ := by
  induction h with
  | nil => rfl
  | cons ha _ ih => rw [convert_cons_ok ha, ih]

end Supply

/-- The tokens of a text are lexical, and its symbols are names. -/
theorem lexical_of_mem_tokens {source : String} {t : Token} (ht : t ∈ (tokens source).items) :
    t.Lexical ∧ ∀ name, t = .symbol name → IsName name := by
  obtain ⟨p, hp, hc⟩ := Supply.mem_convert ht
  refine ⟨Token.lexical_of_classify hc, ?_⟩
  rintro name rfl
  have hname : name = p := by
    have hs := Token.symbol_of_classify hc rfl
    simpa [Token.symbol] using hs
  subst hname
  exact isName_of_lexeme (lexeme_of_mem_parts hp) hc rfl

end Lisplet
