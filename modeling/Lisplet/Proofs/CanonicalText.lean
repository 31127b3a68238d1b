import Lisplet.Proofs.Acceptance
import Lisplet.Proofs.Classification

/-!
# The text of an expression is its canonical source

Writing an expression gives a text whose parts, one by one, become the tokens of the expression.
Reading that text therefore gives the expression back; and since every text that reads as an
expression has the tokens of that expression, the written text stands for all of them.
-/

namespace Lisplet

namespace Expr

mutual
/-- The names in an expression, of symbols and of operators, in the order written. -/
def names : Expr → List String
  | .symbol name => [name]
  | .compound operator args => operator :: argsNames args
  | _ => []

def argsNames : List Expr → List String
  | [] => []
  | arg :: args => names arg ++ argsNames args
end

theorem argsNames_eq_flatMap (args : List Expr) : argsNames args = args.flatMap names := by
  induction args with
  | nil => rfl
  | cons arg args ih => rw [argsNames, ih, List.flatMap_cons]

theorem argsTokens_eq_flatMap (args : List Expr) : argsTokens args = args.flatMap tokens := by
  induction args with
  | nil => rfl
  | cons arg args ih => rw [argsTokens, ih, List.flatMap_cons]

theorem symbol_mem_tokens {e : Expr} {name : String} (hn : name ∈ e.names) :
    Token.symbol name ∈ e.tokens := by
  induction e with
  | literal v => exact absurd hn List.not_mem_nil
  | symbol x =>
    obtain rfl := List.mem_singleton.mp hn
    exact List.mem_singleton.mpr rfl
  | compound operator args ih =>
    rw [names, List.mem_cons, argsNames_eq_flatMap, List.mem_flatMap] at hn
    rcases hn with rfl | ⟨arg, harg, hname⟩
    · simp [tokens]
    · have htoken : Token.symbol name ∈ argsTokens args := by
        rw [argsTokens_eq_flatMap, List.mem_flatMap]
        exact ⟨arg, harg, ih arg harg hname⟩
      simp [tokens, htoken]
  | foreign stranger => exact absurd hn List.not_mem_nil

end Expr

/-- Scanning the text between two parts delivers the parts, which become the tokens. -/
def Transcribes (text : String) (ts : List Token) : Prop :=
  ∃ ps, List.Forall₂ (fun p t => Token.classify p = .ok t) ps ts ∧
    ∀ s : Scan, s.mode = .word [] → (s.scanFrom text.toList).Delivers (ps.reverse ++ s.parts)

theorem transcribes_lexeme {text : String} {t : Token} (hl : Lexeme text.toList)
    (hc : Token.classify text = .ok t) : Transcribes text [t] := by
  refine ⟨[text], .cons hc .nil, ?_⟩
  intro s hm
  have hd := Scan.scan_lexeme hm hl
  rwa [String.ofList_toList] at hd

/-- The arguments of a compound follow it part by part, each after a space. -/
theorem argsText_transcribes {args : List Expr}
    (ha : ∀ arg ∈ args, ∃ text, arg.text = .ok text ∧ Transcribes text arg.tokens) :
    ∃ text ps, Expr.argsText args = .ok text ∧
      List.Forall₂ (fun p t => Token.classify p = .ok t) ps (Expr.argsTokens args) ∧
      ∀ (s : Scan) (before : List String), s.Delivers before →
        (s.scanFrom text.toList).Delivers (ps.reverse ++ before) := by
  induction args with
  | nil => exact ⟨"", [], rfl, .nil, fun s before hd => hd⟩
  | cons arg args ih =>
    rw [List.forall_mem_cons] at ha
    obtain ⟨first, hfirst, ps, hps, hscan⟩ := ha.1
    obtain ⟨rest, qs, hrest, hqs, hscanRest⟩ := ih ha.2
    refine ⟨" " ++ first ++ rest, ps ++ qs, ?_, List.rel_append hps hqs, ?_⟩
    · simp [Expr.argsText, hfirst, hrest, bind, Except.bind, pure, Except.pure]
    · intro s before hd
      obtain ⟨hmode, hparts⟩ := hd.blank Text.isBlank_space
      have hone := hscan (s.step ' ') hmode
      rw [hparts] at hone
      have hall := hscanRest _ _ hone
      rw [String.toList_append, String.toList_append, Scan.scanFrom_append, Scan.scanFrom_append]
      simpa using hall

/-- An expression of the language whose names are names is written part by part. -/
theorem text_transcribes {e : Expr} (he : e.Proper) (hn : ∀ name ∈ e.names, IsName name) :
    ∃ text, e.text = .ok text ∧ Transcribes text e.tokens := by
  induction e with
  | literal v =>
    obtain ⟨text, hr, hl, hc⟩ := Value.render_lexeme he
    exact ⟨text, hr, transcribes_lexeme hl hc⟩
  | symbol name =>
    have hname := hn name (by simp [Expr.names])
    exact ⟨name, rfl, transcribes_lexeme hname.lexeme hname.classify⟩
  | compound operator args ih =>
    have hname := hn operator (by simp [Expr.names])
    have hargs : ∀ arg ∈ args, ∃ text, arg.text = .ok text ∧ Transcribes text arg.tokens := by
      intro arg harg
      refine ih arg harg (Expr.allProper_iff.mp he arg harg) fun name hmem => hn name ?_
      rw [Expr.names, Expr.argsNames_eq_flatMap, List.mem_cons, List.mem_flatMap]
      exact .inr ⟨arg, harg, hmem⟩
    obtain ⟨rest, ps, hrest, hps, hscan⟩ := argsText_transcribes hargs
    refine ⟨"(" ++ operator ++ rest ++ ")", ?_, "(" :: operator :: ps ++ [")"], ?_, ?_⟩
    · simp [Expr.text, hrest, bind, Except.bind, pure, Except.pure]
    · have hclosed := List.rel_append hps (List.Forall₂.cons (by rfl) .nil :
        List.Forall₂ (fun p t => Token.classify p = .ok t) [")"] [Token.rparen])
      exact .cons rfl (.cons hname.classify hclosed)
    · intro s hm
      obtain ⟨hmode, hparts⟩ := (Scan.delivers_of_between hm).paren (.inl rfl)
      have hoperator := Scan.scan_lexeme hmode hname.lexeme
      rw [hparts, String.ofList_toList] at hoperator
      obtain ⟨hend, hall⟩ := (hscan _ _ hoperator).paren (.inr rfl)
      have hd := Scan.delivers_of_between hend
      rw [hall] at hd
      simpa [String.toList_append, Scan.scanFrom_append] using hd
  | foreign stranger => exact he.elim

/-- The tokens of the written text are those of the expression. -/
theorem tokens_of_transcribes {text : String} {ts : List Token} (ht : Transcribes text ts) :
    tokens text = ⟨ts, none⟩ := by
  obtain ⟨ps, hps, hscan⟩ := ht
  have hd := (hscan Scan.start rfl).finish
  have hparts : parts text = ⟨ps, none⟩ := by simpa [parts, Scan.start] using hd
  rw [tokens, hparts]
  exact Supply.convert_of_forall₂ hps none

theorem toList_eq_ok_iff {α : Type} {s : Supply α} {items : List α} :
    s.toList = .ok items ↔ s = .ofList items := by
  obtain ⟨delivered, fault⟩ := s
  cases fault <;> simp [Supply.toList, Supply.ofList]

/-- Only a supply that comes to its end is read as an expression. -/
theorem fault_of_parse {limit : Limit} {supply : Supply Token} {e : Expr}
    (hp : parse limit supply = .ok e) : supply = .ofList supply.items := by
  obtain ⟨items, fault⟩ := supply
  cases fault with
  | none => rfl
  | some cause =>
    unfold parse at hp
    cases hs : items.foldlM (Progress.step limit 0) Progress.start with
    | error e => simp [hs, bind, Except.bind] at hp
    | ok p => cases p <;> simp [hs, bind, Except.bind] at hp

/-- Only a supply that comes to its end is read as a script. -/
theorem fault_of_parseAll {limit : Limit} {supply : Supply Token} {es : List Expr}
    (hp : parseAll limit supply = .ok es) : supply = .ofList supply.items := by
  obtain ⟨items, fault⟩ := supply
  cases fault with
  | none => rfl
  | some cause =>
    rw [parseAll, toList_eq_ok_iff] at hp
    have hfault := congrArg Supply.fault hp
    simp only [Reader.readAll, Reader.ofSupply] at hfault
    split at hfault <;> cases hfault

/-- A text reads as a script exactly if its tokens are those of the expressions in turn. -/
theorem parseAllText_eq_ok_iff {limit : Limit} {source : String} {es : List Expr} :
    parseAllText limit source = .ok es ↔
      ∃ tss, tokens source = .ofList tss.flatten ∧ List.Forall₂ (Accepted limit 0) tss es := by
  have hknown : ∀ t ∈ (tokens source).items, t.kind.Known :=
    fun t ht => (lexical_of_mem_tokens ht).1.known
  constructor
  · intro hp
    have hsupply := fault_of_parseAll hp
    rw [parseAllText, hsupply, parseAll_eq_ok_iff hknown] at hp
    obtain ⟨tss, hflatten, hblocks⟩ := hp
    exact ⟨tss, by rw [hflatten]; exact hsupply, hblocks⟩
  · rintro ⟨tss, hsupply, hblocks⟩
    rw [hsupply] at hknown
    rw [parseAllText, hsupply]
    exact (parseAll_eq_ok_iff hknown).mpr ⟨tss, rfl, hblocks⟩

/-- From tokens that a text can give, an expression of the language is read, and it has room. -/
theorem Accepted.of_lexical {limit : Limit} {base : Int} {ts : List Token} {e : Expr}
    (ha : Accepted limit base ts e) (hl : ∀ t ∈ ts, t.Lexical) :
    ts = e.tokens ∧ e.Proper ∧ Room limit base 0 e.height := by
  obtain ⟨h, hw, hroom⟩ := ha
  obtain ⟨htokens, hproper⟩ := hw.eq_tokens hl
  rw [Expr.argsTokens, Expr.argsTokens, List.append_nil] at htokens
  obtain rfl := htokens
  obtain ⟨-, -, rfl, -⟩ := hw.single_unique (Derives.writes_tokens hproper.1) (Eq.refl (_ ++ []))
  exact ⟨rfl, hproper.1, hroom⟩

/-- What a text that reads as an expression tells about it. -/
theorem parseText_inv {limit : Limit} {source : String} {e : Expr}
    (hp : parseText limit source = .ok e) :
    tokens source = .ofList e.tokens ∧ Accepted limit 0 e.tokens e ∧ e.Proper ∧
      ∀ name ∈ e.names, IsName name := by
  have hsupply := fault_of_parse hp
  have hlexical : ∀ t ∈ (tokens source).items, t.Lexical := fun t ht => (lexical_of_mem_tokens ht).1
  have haccepted : Accepted limit 0 (tokens source).items e := by
    rw [parseText, hsupply, parse_ofList_eq_ok_iff] at hp
    exact (steps_start_iff fun t ht => (hlexical t ht).known).mp hp
  obtain ⟨htokens, hproper, -⟩ := haccepted.of_lexical hlexical
  rw [htokens] at hsupply haccepted
  refine ⟨hsupply, haccepted, hproper, ?_⟩
  intro name hn
  have hmem : Token.symbol name ∈ (tokens source).items := by
    rw [htokens]
    exact Expr.symbol_mem_tokens hn
  exact (lexical_of_mem_tokens hmem).2 name rfl

theorem exists_block_of_mem {R : List Token → Expr → Prop} {tss : List (List Token)}
    {es : List Expr} (hblocks : List.Forall₂ R tss es) {e : Expr} (he : e ∈ es) :
    ∃ ts ∈ tss, R ts e := by
  induction hblocks with
  | nil => cases he
  | @cons ts e' tss es hfirst _ ih =>
    obtain rfl | hrest := List.mem_cons.mp he
    · exact ⟨ts, List.mem_cons_self, hfirst⟩
    · obtain ⟨us, hus, hr⟩ := ih hrest
      exact ⟨us, List.mem_cons_of_mem _ hus, hr⟩

/-- Each expression of a script has been accepted from tokens of the text. -/
theorem accepted_of_parseAllText {limit : Limit} {source : String} {es : List Expr}
    (hp : parseAllText limit source = .ok es) :
    ∀ e ∈ es, ∃ ts, Accepted limit 0 ts e ∧ ∀ t ∈ ts, t.Lexical := by
  obtain ⟨tss, htokens, hblocks⟩ := parseAllText_eq_ok_iff.mp hp
  intro e he
  obtain ⟨ts, hts, haccepted⟩ := exists_block_of_mem hblocks he
  refine ⟨ts, haccepted, fun t ht => ?_⟩
  have hmem : t ∈ (tokens source).items := by
    rw [htokens]
    exact List.mem_flatten_of_mem hts ht
  exact (lexical_of_mem_tokens hmem).1

theorem parseText_of_tokens {limit : Limit} {source : String} {e : Expr}
    (ht : tokens source = .ofList e.tokens) (ha : Accepted limit 0 e.tokens e) :
    parseText limit source = .ok e := by
  obtain ⟨h, hw, hr⟩ := ha
  rw [parseText, ht, parse_ofList_eq_ok_iff]
  exact hw.steps_single hr

/-- An expression that has room is read back from its text. -/
theorem parseText_of_text {limit : Limit} {text : String} {e : Expr} (he : e.Proper)
    (hn : ∀ name ∈ e.names, IsName name) (hroom : Room limit 0 0 e.height)
    (htext : e.text = .ok text) : parseText limit text = .ok e := by
  obtain ⟨text', htext', ht⟩ := text_transcribes he hn
  obtain rfl := Except.ok.inj (htext'.symm.trans htext)
  exact parseText_of_tokens (tokens_of_transcribes ht)
    ⟨e.height, Derives.writes_tokens he, hroom⟩

/-- Writing and reading are inverse. An expression of the language whose names are names, nested no
deeper than allowed, is read back from its text. And any source that reads as an expression has,
token for token, the tokens of the expression's text, so this text reads as the same expression;
the sources of the expression are exactly those with these tokens. -/
theorem written_text_reads_back (limit : Limit) :
    (∀ e : Expr, e.Proper → (∀ name ∈ e.names, IsName name) →
      (e.height = 0 ∨ (e.height : Int) ≤ limit.depth) → e.height ≤ limit.stack →
      ∃ text, e.text = .ok text ∧ parseText limit text = .ok e) ∧
    (∀ (source : String) (e : Expr), parseText limit source = .ok e →
      ∃ text, e.text = .ok text ∧ (tokens text).toList = (tokens source).toList ∧
        parseText limit text = .ok e ∧
        ∀ other, parseText limit other = .ok e ↔ (tokens other).toList = (tokens text).toList) := by
  constructor
  · intro e he hn hlimit hnesting
    obtain ⟨text, htext, ht⟩ := text_transcribes he hn
    have hroom : Room limit 0 0 e.height := by
      rcases hlimit with hz | hle
      · exact .inl hz
      · exact .inr ⟨by omega, by omega⟩
    exact ⟨text, htext, parseText_of_tokens (tokens_of_transcribes ht)
      ⟨e.height, Derives.writes_tokens he, hroom⟩⟩
  · intro source e hp
    obtain ⟨hsource, haccepted, he, hn⟩ := parseText_inv hp
    obtain ⟨text, htext, ht⟩ := text_transcribes he hn
    have htokens : tokens text = .ofList e.tokens := tokens_of_transcribes ht
    refine ⟨text, htext, by rw [htokens, hsource], parseText_of_tokens htokens haccepted, ?_⟩
    intro other
    rw [htokens, toList_eq_ok_iff.mpr (Eq.refl (Supply.ofList e.tokens)), toList_eq_ok_iff]
    exact ⟨fun ho => (parseText_inv ho).1, fun ho => parseText_of_tokens ho haccepted⟩

/-- A literal with quotes, a backslash, blanks and parentheses comes back, and so does the value
of a source with leading zeros, a negative zero and digits too large for an integer. -/
theorem awkward_literals_read_back :
    (∃ text, (Expr.compound "print" [.literal (.string "a \"(\\\n")]).text = .ok text ∧
      parseText ⟨1, 900⟩ text = .ok (.compound "print" [.literal (.string "a \"(\\\n")])) ∧
    ∃ text, (Expr.compound "+" [.literal (.integer 7), .literal (.integer 0),
        .symbol "99999999999"]).text = .ok text ∧
      (tokens text).toList = (tokens "( + 007\t-0\n99999999999)").toList := by
  constructor
  · refine (written_text_reads_back ⟨1, 900⟩).1 _ ⟨trivial, trivial⟩ ?_ (.inr (by decide))
      (by decide)
    intro name hn
    obtain rfl : name = "print" := by simpa [Expr.names, Expr.argsNames] using hn
    exact ⟨by decide, Token.symbol "print", rfl, rfl⟩
  · obtain ⟨text, htext, ht, -⟩ :=
      (written_text_reads_back ⟨1, 900⟩).2 "( + 007\t-0\n99999999999)" _ rfl
    exact ⟨text, htext, ht⟩

end Lisplet
