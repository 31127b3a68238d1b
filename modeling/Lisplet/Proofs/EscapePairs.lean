import Lisplet.Proofs.Classification

/-!
# Escapes in string literals

The body of a string literal is gone through twice: the scanner looks for the closing quote, and the
decoder puts in what the escapes stand for. Each of them pairs backslashes with what follows in its
own way, and what the scanner takes for a pair the decoder has to take for one, or the decoder would
run out of characters behind a last backslash.

A third reading of the body stands between the two: a list of items, each a plain character or a
backslash with the character after it. It is the only one (`flatMap_text_injective`), the scanner is
within an escape exactly within a pair of it (`scannedAs_items`), and the decoder gives what its
items mean, or refuses the first pair without a meaning (`decodedAs_items`).
-/

namespace Lisplet

/-- An item of the body of a literal: a character that stands for itself, or a backslash together
with the character after it. -/
inductive LiteralItem where
  | plain (c : Char) (hs : c ≠ '\\') (hq : c ≠ '"')
  | pair (c : Char)

namespace LiteralItem

variable {items items' : List LiteralItem}

def text : LiteralItem → List Char
  | plain c _ _ => [c]
  | pair c => ['\\', c]

def isPair : LiteralItem → Bool
  | plain _ _ _ => false
  | pair _ => true

/-- The characters that have a meaning behind a backslash. -/
def escapable : List Char := ['n', 't', '"', '\\']

/-- The character that the item stands for. -/
inductive Means : LiteralItem → Char → Prop
  | plain (c : Char) (hs : c ≠ '\\') (hq : c ≠ '"') : Means (plain c hs hq) c
  | newline : Means (pair 'n') '\n'
  | tab : Means (pair 't') '\t'
  | quote : Means (pair '"') '"'
  | backslash : Means (pair '\\') '\\'

/-- Every pair among the items has a meaning. -/
def Meaningful (items : List LiteralItem) : Prop := ∀ c, pair c ∈ items → c ∈ escapable

/-- The characters of one item cannot be read as another one. -/
theorem text_append_inj {item item' : LiteralItem} {rest rest' : List Char}
    (h : item.text ++ rest = item'.text ++ rest') : item = item' ∧ rest = rest' := by
  cases item with
  | plain c hs hq =>
    cases item' with
    | plain c' hs' hq' =>
      cases h
      exact ⟨rfl, rfl⟩
    | pair c' =>
      cases h
      exact absurd rfl hs
  | pair c =>
    cases item' with
    | plain c' hs' hq' =>
      cases h
      exact absurd rfl hs'
    | pair c' =>
      cases h
      exact ⟨rfl, rfl⟩

theorem text_ne_nil (item : LiteralItem) : item.text ≠ [] := by
  cases item <;> exact List.cons_ne_nil _ _

/-- Pairs are found from the left in one way only. -/
theorem flatMap_text_injective (h : items.flatMap text = items'.flatMap text) : items = items' := by
  induction items generalizing items' with
  | nil =>
    cases items' with
    | nil => rfl
    | cons item' items' =>
      have hnil := List.append_eq_nil_iff.mp h.symm
      exact absurd hnil.1 item'.text_ne_nil
  | cons item items ih =>
    cases items' with
    | nil =>
      have hnil := List.append_eq_nil_iff.mp h
      exact absurd hnil.1 item.text_ne_nil
    | cons item' items' =>
      obtain ⟨rfl, hrest⟩ := text_append_inj h
      rw [ih hrest]

theorem length_flatMap_text (items : List LiteralItem) :
    (items.flatMap text).length = items.length + items.countP isPair := by
  induction items with
  | nil => rfl
  | cons item items ih =>
    have hitem : item.text.length = 1 + if item.isPair = true then 1 else 0 := by
      cases item <;> rfl
    rw [List.flatMap_cons, List.length_append, ih, hitem, List.length_cons, List.countP_cons]
    omega

/-- The characters are those of the first items, with nothing behind. -/
def EndsBetween (items : List LiteralItem) (front : List Char) : Prop :=
  ∃ before after, items = before ++ after ∧ front = before.flatMap text

/-- The characters are those of the first items, and the backslash of the pair behind them. -/
def EndsWithinPair (items : List LiteralItem) (front : List Char) : Prop :=
  ∃ before c after, items = before ++ pair c :: after ∧ front = before.flatMap text ++ ['\\']

theorem EndsBetween.cons {front : List Char} (h : EndsBetween items front) (item : LiteralItem) :
    EndsBetween (item :: items) (item.text ++ front) := by
  obtain ⟨before, after, rfl, rfl⟩ := h
  exact ⟨item :: before, after, rfl, rfl⟩

theorem EndsWithinPair.cons {front : List Char} (h : EndsWithinPair items front)
    (item : LiteralItem) : EndsWithinPair (item :: items) (item.text ++ front) := by
  obtain ⟨before, c, after, rfl, rfl⟩ := h
  refine ⟨item :: before, c, after, rfl, ?_⟩
  rw [List.flatMap_cons, List.append_assoc]

/-- A beginning of the body ends between two items or within a pair. -/
theorem prefix_cases {front : List Char} (h : front <+: items.flatMap text) :
    EndsBetween items front ∨ EndsWithinPair items front := by
  induction items generalizing front with
  | nil => exact .inl ⟨[], [], rfl, List.prefix_nil.mp h⟩
  | cons item items ih =>
    have hnone : EndsBetween (item :: items) [] := ⟨[], _, rfl, rfl⟩
    have hcons : ∀ {rest}, rest <+: items.flatMap text →
        EndsBetween (item :: items) (item.text ++ rest) ∨
          EndsWithinPair (item :: items) (item.text ++ rest) :=
      fun hrest => (ih hrest).imp (EndsBetween.cons · item) (EndsWithinPair.cons · item)
    cases item with
    | plain c hs hq =>
      rw [List.flatMap_cons, text, List.singleton_append, List.prefix_cons_iff] at h
      obtain rfl | ⟨rest, rfl, hrest⟩ := h
      · exact .inl hnone
      · exact hcons hrest
    | pair c =>
      rw [List.flatMap_cons, text, List.cons_append, List.singleton_append,
        List.prefix_cons_iff] at h
      obtain rfl | ⟨escaped, rfl, hescaped⟩ := h
      · exact .inl hnone
      · -- only here a beginning can end within the item
        obtain rfl | ⟨rest, rfl, hrest⟩ := List.prefix_cons_iff.mp hescaped
        · exact .inr ⟨[], c, items, rfl, rfl⟩
        · exact hcons hrest

theorem exists_means_pair_iff {c : Char} : (∃ d, Means (pair c) d) ↔ c ∈ escapable := by
  constructor
  · rintro ⟨d, h⟩
    cases h <;> decide
  · intro hc
    simp only [escapable, List.mem_cons, List.not_mem_nil, or_false] at hc
    rcases hc with rfl | rfl | rfl | rfl
    · exact ⟨_, .newline⟩
    · exact ⟨_, .tab⟩
    · exact ⟨_, .quote⟩
    · exact ⟨_, .backslash⟩

theorem meaningful_nil : Meaningful [] := by simp [Meaningful]

theorem meaningful_cons {item : LiteralItem} :
    Meaningful (item :: items) ↔ (∃ d, item.Means d) ∧ Meaningful items := by
  cases item with
  | plain c hs hq =>
    have hmeans : ∃ d, Means (plain c hs hq) d := ⟨c, .plain c hs hq⟩
    simp [Meaningful, hmeans]
  | pair c =>
    rw [exists_means_pair_iff]
    simp [Meaningful]

/-- Items stand for some text exactly if every pair has a meaning. -/
theorem exists_forall₂_means_iff :
    (∃ chars, List.Forall₂ Means items chars) ↔ Meaningful items := by
  induction items with
  | nil => exact ⟨fun _ => meaningful_nil, fun _ => ⟨[], .nil⟩⟩
  | cons item items ih =>
    rw [meaningful_cons, ← ih]
    constructor
    · rintro ⟨chars, h⟩
      cases h with
      | cons hd hchars => exact ⟨⟨_, hd⟩, _, hchars⟩
    · rintro ⟨⟨d, hd⟩, chars, hchars⟩
      exact ⟨d :: chars, .cons hd hchars⟩

/-- Either every pair has a meaning, or there is a first one without. -/
theorem meaningful_or_first (items : List LiteralItem) :
    Meaningful items ∨ ∃ front c back, items = front ++ pair c :: back ∧ Meaningful front ∧
      c ∉ escapable := by
  induction items with
  | nil => exact .inl meaningful_nil
  | cons item items ih =>
    by_cases hmeans : ∃ d, item.Means d
    · obtain hall | ⟨front, c, back, rfl, hfront, hc⟩ := ih
      · exact .inl (meaningful_cons.mpr ⟨hmeans, hall⟩)
      · exact .inr ⟨item :: front, c, back, rfl, meaningful_cons.mpr ⟨hmeans, hfront⟩, hc⟩
    · cases item with
      | plain c hs hq => exact absurd ⟨c, .plain c hs hq⟩ hmeans
      | pair c =>
        exact .inr ⟨[], c, items, rfl, meaningful_nil, fun hc =>
          hmeans (exists_means_pair_iff.mpr hc)⟩

end LiteralItem

theorem literalBody_flatMap_text (items : List LiteralItem) :
    LiteralBody (items.flatMap LiteralItem.text) := by
  induction items with
  | nil => exact .nil
  | cons item items ih =>
    cases item with
    | plain c hs hq => exact .plain hs hq ih
    | pair c => exact .escaped c ih

theorem LiteralBody.exists_items {body : List Char} (h : LiteralBody body) :
    ∃ items : List LiteralItem, body = items.flatMap LiteralItem.text := by
  induction h with
  | nil => exact ⟨[], rfl⟩
  | plain hs hq _ ih =>
    obtain ⟨items, rfl⟩ := ih
    exact ⟨.plain _ hs hq :: items, rfl⟩
  | escaped c _ ih =>
    obtain ⟨items, rfl⟩ := ih
    exact ⟨.pair c :: items, rfl⟩

/-- The scanner is right behind the backslash of an escape. -/
def Scan.WithinEscape (s : Scan) : Prop := ∃ start chars, s.mode = .escape start chars

/-- Wherever a literal with these items opens, the scanner is within an escape exactly within the
pairs. -/
def ScannedAs (items : List LiteralItem) : Prop :=
  ∀ (s : Scan) (w front : List Char), s.mode = .word w → front <+: items.flatMap LiteralItem.text →
    ((s.scanFrom ('"' :: front)).WithinEscape ↔ LiteralItem.EndsWithinPair items front)

theorem scannedAs_items (items : List LiteralItem) : ScannedAs items := by
  intro s w front hm hfront
  have hbetween : ∀ before : List LiteralItem, ∃ start chars,
      (s.scanFrom ('"' :: before.flatMap LiteralItem.text)).mode = .literal start chars := by
    intro before
    have hopen : (s.step '"').mode = .literal s.position ['"'] := by rw [Scan.step_quote hm]
    exact ⟨_, _, (Scan.scan_body hopen (literalBody_flatMap_text before)).1⟩
  constructor
  · rintro ⟨start, chars, hescape⟩
    obtain ⟨before, after, -, rfl⟩ | hpair := LiteralItem.prefix_cases hfront
    · obtain ⟨start', chars', hliteral⟩ := hbetween before
      rw [hliteral] at hescape
      cases hescape
    · exact hpair
  · rintro ⟨before, c, after, -, rfl⟩
    obtain ⟨start, chars, hliteral⟩ := hbetween before
    refine ⟨start, '\\' :: chars, ?_⟩
    rw [← List.cons_append, Scan.scanFrom_append, Scan.scanFrom_cons, Scan.scanFrom_nil, Scan.step,
      hliteral]
    rfl

namespace Token

open LiteralItem

variable {items : List LiteralItem} {done rest chars : List Char}

theorem unescape?_eq_none {c : Char} (h : c ∉ escapable) : unescape? c = none := by
  simp only [escapable, List.mem_cons, List.not_mem_nil, or_false, not_or] at h
  simp only [unescape?, h, if_false]

theorem decodeFrom_item {item : LiteralItem} {c : Char} (h : item.Means c) (literal : String) :
    decodeFrom literal done (item.text ++ rest) = decodeFrom literal (c :: done) rest := by
  cases h with
  | plain c hs hq => exact decodeFrom_plain hs literal done rest
  | newline | tab | quote | backslash => exact decodeFrom_escaped rfl literal done rest

/-- Items that have a meaning are decoded to what they mean. -/
theorem decodeFrom_items (h : List.Forall₂ Means items chars) (literal : String) :
    decodeFrom literal done (items.flatMap text ++ rest) =
      decodeFrom literal (chars.reverse ++ done) rest := by
  induction h generalizing done with
  | nil => rfl
  | cons hc _ ih =>
    rw [List.flatMap_cons, List.append_assoc, decodeFrom_item hc, ih, List.reverse_cons,
      List.append_assoc, List.singleton_append]

end Token

/-- The literal consists of these items between its quotes. -/
def Spells (items : List LiteralItem) (literal : String) : Prop :=
  literal.toList = '"' :: (items.flatMap LiteralItem.text ++ ['"'])

/-- How decoding the literal ends, told by the items of its body. -/
structure DecodedAs (items : List LiteralItem) (literal : String) : Prop where
  succeeds : (∃ text, Token.decode literal = .ok text) ↔ LiteralItem.Meaningful items
  returns : ∀ text, Token.decode literal = .ok text ↔
    List.Forall₂ LiteralItem.Means items text.toList
  length : ∀ text, Token.decode literal = .ok text →
    text.length + items.countP LiteralItem.isPair = (items.flatMap LiteralItem.text).length
  refuses : ∀ cause, Token.decode literal = .error cause ↔ ∃ front c back,
    items = front ++ .pair c :: back ∧ LiteralItem.Meaningful front ∧
      c ∉ LiteralItem.escapable ∧ cause = .unknownEscape c literal

section Decoding

open LiteralItem

variable {literal : String} {items items' front back : List LiteralItem} {chars : List Char}
  {c : Char}

theorem Spells.unique (h : Spells items literal) (h' : Spells items' literal) : items = items' := by
  have hbodies := h.symm.trans h'
  rw [List.cons.injEq] at hbodies
  exact flatMap_text_injective (List.append_cancel_right hbodies.2)

theorem Spells.decode (h : Spells items literal) :
    Token.decode literal = Token.decodeFrom literal [] (items.flatMap text) := by
  rw [Token.decode, h, List.tail_cons, List.dropLast_concat]

theorem Spells.decode_of_means (h : Spells items literal) (hm : List.Forall₂ Means items chars) :
    Token.decode literal = .ok (String.ofList chars) := by
  -- the run over all items, begun with nothing done and with nothing behind them
  have hrun := @Token.decodeFrom_items items [] [] chars hm literal
  rw [List.append_nil, List.append_nil] at hrun
  rw [h.decode, hrun, Token.decodeFrom, List.reverse_reverse]

theorem Spells.decode_of_first (h : Spells (front ++ .pair c :: back) literal)
    (hfront : Meaningful front) (hc : c ∉ escapable) :
    Token.decode literal = .error (.unknownEscape c literal) := by
  obtain ⟨chars, hm⟩ := exists_forall₂_means_iff.mpr hfront
  rw [h.decode, List.flatMap_append, Token.decodeFrom_items hm, List.flatMap_cons, text,
    List.cons_append, List.singleton_append, Token.decodeFrom, Token.unescape?_eq_none hc]

/-- The two ways in which decoding ends. -/
theorem Spells.decode_cases (h : Spells items literal) :
    (∃ chars, List.Forall₂ Means items chars ∧ Token.decode literal = .ok (String.ofList chars)) ∨
      ∃ front c back, items = front ++ .pair c :: back ∧ Meaningful front ∧ c ∉ escapable ∧
        Token.decode literal = .error (.unknownEscape c literal) := by
  obtain hall | ⟨front, c, back, rfl, hfront, hc⟩ := meaningful_or_first items
  · obtain ⟨chars, hm⟩ := exists_forall₂_means_iff.mpr hall
    exact .inl ⟨chars, hm, h.decode_of_means hm⟩
  · exact .inr ⟨front, c, back, rfl, hfront, hc, h.decode_of_first hfront hc⟩

theorem Spells.decode_eq_ok_iff (h : Spells items literal) (text : String) :
    Token.decode literal = .ok text ↔ List.Forall₂ Means items text.toList := by
  constructor
  · intro hok
    obtain ⟨chars, hm, hchars⟩ | ⟨front, c, back, -, -, -, herror⟩ := h.decode_cases
    · rw [hchars] at hok
      cases hok
      rwa [String.toList_ofList]
    · rw [herror] at hok
      cases hok
  · intro hm
    rw [h.decode_of_means hm, String.ofList_toList]

theorem Spells.decode_eq_error_iff (h : Spells items literal) (cause : Error) :
    Token.decode literal = .error cause ↔ ∃ front c back, items = front ++ .pair c :: back ∧
      Meaningful front ∧ c ∉ escapable ∧ cause = .unknownEscape c literal := by
  constructor
  · intro herror
    obtain ⟨chars, -, hok⟩ | ⟨front, c, back, hitems, hfront, hc, hfirst⟩ := h.decode_cases
    · rw [hok] at herror
      cases herror
    · rw [hfirst] at herror
      cases herror
      exact ⟨front, c, back, hitems, hfront, hc, rfl⟩
  · rintro ⟨front, c, back, rfl, hfront, hc, rfl⟩
    exact h.decode_of_first hfront hc

theorem decodedAs_items (h : Spells items literal) : DecodedAs items literal where
  succeeds := by
    rw [← exists_forall₂_means_iff]
    constructor
    · rintro ⟨text, hok⟩
      exact ⟨text.toList, (h.decode_eq_ok_iff text).mp hok⟩
    · rintro ⟨chars, hm⟩
      exact ⟨_, h.decode_of_means hm⟩
  returns := h.decode_eq_ok_iff
  length := by
    intro text hok
    have hlength := ((h.decode_eq_ok_iff text).mp hok).length_eq
    rw [length_flatMap_text, hlength, String.length_toList]
  refuses := h.decode_eq_error_iff

end Decoding

/-- The items of a part that begins with a quote. -/
theorem exists_spells_of_quote {source part : String} (hp : part ∈ (parts source).items)
    (hq : part.toList.head? = some '"') : ∃ items, Spells items part := by
  obtain ⟨body, hpart, hbody⟩ := (lexeme_of_mem_parts hp).exists_body_of_quote hq
  obtain ⟨items, rfl⟩ := hbody.exists_items
  exact ⟨items, hpart⟩

/-- The message about an escape without a meaning shows the pair. -/
theorem Error.message_unknownEscape (c : Char) (literal : String) :
    (Error.unknownEscape c literal).message =
      "Unknown escape sequence " ++ String.ofList (LiteralItem.pair c).text ++
        " in " ++ literal := by
  have hpair : "Unknown escape sequence \\" ++ c.toString =
      "Unknown escape sequence " ++ String.ofList (LiteralItem.pair c).text := by
    rw [← String.toList_inj]
    simp [LiteralItem.text]
  rw [← hpair]
  rfl

/-- The scanner and the decoder find the same escapes in a literal. A part that begins with a quote
has a closing one as well, and between them stand items that are determined by the part. The scanner
is within an escape exactly within the pairs among them. Decoding succeeds exactly if every pair has
a meaning, and gives one character for each item; otherwise it refuses the first pair without a
meaning. It never comes to the end of the body behind a backslash. -/
theorem scanner_and_decoder_pair_alike {source part : String} (hp : part ∈ (parts source).items)
    (hq : part.toList.head? = some '"') :
    2 ≤ part.length ∧
    (∃! items, Spells items part) ∧
    (∀ items, Spells items part → ScannedAs items ∧ DecodedAs items part) ∧
    Token.decode part ≠ .error .danglingEscape ∧
    Token.classify part ≠ .error .danglingEscape ∧
    (Token.classify part = (Token.decode part).map fun text => ⟨.string, .string text⟩) ∧
    (∀ c, (Error.unknownEscape c part).category = .reading ∧
      (Error.unknownEscape c part).message =
        "Unknown escape sequence " ++ String.ofList (LiteralItem.pair c).text ++
          " in " ++ part) := by
  obtain ⟨items, hitems⟩ := exists_spells_of_quote hp hq
  have hlength : 2 ≤ part.length := by
    rw [← String.length_toList, hitems, List.length_cons, List.length_append,
      List.length_singleton]
    omega
  have hcomplete : Token.decode part ≠ .error .danglingEscape := by
    intro hdangling
    obtain ⟨front, c, back, -, -, -, hcause⟩ := (hitems.decode_eq_error_iff _).mp hdangling
    cases hcause
  have hclassify := Token.classify_of_quote hq
  refine ⟨hlength, ⟨items, hitems, fun _ h => h.unique hitems⟩,
    fun items h => ⟨scannedAs_items items, decodedAs_items h⟩, hcomplete, ?_, hclassify,
    fun c => ⟨rfl, Error.message_unknownEscape c part⟩⟩
  rw [hclassify]
  intro hdangling
  cases hdecode : Token.decode part with
  | ok text =>
    rw [hdecode] at hdangling
    cases hdangling
  | error cause =>
    rw [hdecode] at hdangling
    cases hdangling
    exact hcomplete hdecode

/-- Backslashes in a row before a quote, once with a meaning each and once not. -/
theorem backslash_runs_paired_alike :
    "\"a\\\\\\\\\\\"\\n\"" ∈ (parts "f\"a\\\\\\\\\\\"\\n\"\"\\\\\\q\\z\"").items ∧
    Token.decode "\"a\\\\\\\\\\\"\\n\"" = .ok "a\\\\\"\n" ∧
    "\"\\\\\\q\\z\"" ∈ (parts "f\"a\\\\\\\\\\\"\\n\"\"\\\\\\q\\z\"").items ∧
    Token.decode "\"\\\\\\q\\z\"" = .error (.unknownEscape 'q' "\"\\\\\\q\\z\"") := by
  have hfirst : "\"a\\\\\\\\\\\"\\n\"" ∈ (parts "f\"a\\\\\\\\\\\"\\n\"\"\\\\\\q\\z\"").items := by
    decide +kernel
  have hsecond : "\"\\\\\\q\\z\"" ∈ (parts "f\"a\\\\\\\\\\\"\\n\"\"\\\\\\q\\z\"").items := by
    decide +kernel
  have hreads := (scanner_and_decoder_pair_alike hfirst rfl).2.2.1
    [.plain 'a' (by decide) (by decide), .pair '\\', .pair '\\', .pair '"', .pair 'n'] rfl
  have hrefuses := (scanner_and_decoder_pair_alike hsecond rfl).2.2.1
    [.pair '\\', .pair 'q', .pair 'z'] rfl
  refine ⟨hfirst, (hreads.2.returns _).mpr ?_, hsecond, (hrefuses.2.refuses _).mpr ?_⟩
  · exact .cons (.plain _ _ _) (.cons .backslash (.cons .backslash (.cons .quote
      (.cons .newline .nil))))
  · exact ⟨[.pair '\\'], 'q', [.pair 'z'], rfl, LiteralItem.meaningful_cons.mpr
      ⟨⟨_, .backslash⟩, LiteralItem.meaningful_nil⟩, by decide, rfl⟩

end Lisplet
