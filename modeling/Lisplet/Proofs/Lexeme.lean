import Lisplet.Token.Lex

/-!
# The shape of the parts of a text

Three shapes of parts occur: a parenthesis, a string literal up to its closing quote, and a bare
word. A text of one of these shapes, met between two parts, is delivered as it stands; and nothing
of another shape is ever delivered. Where a part lies in the text plays no role here.
-/

namespace Lisplet

/-- The character belongs to the bare word around it. -/
def Bare (c : Char) : Prop :=
  Text.isBlank c = false ∧ ¬(c = '(' ∨ c = ')') ∧ c ≠ '"'

instance : DecidablePred Bare := fun _ => inferInstanceAs (Decidable (_ ∧ _))

/-- What may stand between the quotes of a literal: a backslash counts together with the character
after it, and no quote stands by itself. -/
inductive LiteralBody : List Char → Prop
  | nil : LiteralBody []
  | plain {c : Char} {cs : List Char} (hs : c ≠ '\\') (hq : c ≠ '"') (rest : LiteralBody cs) :
      LiteralBody (c :: cs)
  | escaped (c : Char) {cs : List Char} (rest : LiteralBody cs) : LiteralBody ('\\' :: c :: cs)

inductive Lexeme : List Char → Prop
  | paren {c : Char} (hc : c = '(' ∨ c = ')') : Lexeme [c]
  | literal {body : List Char} (hb : LiteralBody body) : Lexeme ('"' :: (body ++ ['"']))
  | word {cs : List Char} (hne : cs ≠ []) (hb : ∀ c ∈ cs, Bare c) : Lexeme cs

theorem LiteralBody.append {front back : List Char} (hf : LiteralBody front)
    (hb : LiteralBody back) : LiteralBody (front ++ back) := by
  induction hf with
  | nil => exact hb
  | plain hs hq _ ih => exact .plain hs hq ih
  | escaped c _ ih => exact .escaped c ih

/-- Only a literal begins with a quote. -/
theorem Lexeme.exists_body_of_quote {cs : List Char} (h : Lexeme cs) (hq : cs.head? = some '"') :
    ∃ body, cs = '"' :: (body ++ ['"']) ∧ LiteralBody body := by
  cases h with
  | paren hc =>
    cases hq
    simp at hc
  | @literal body hb => exact ⟨body, rfl, hb⟩
  | word hne hb =>
    have hbare := hb '"' (List.mem_of_mem_head? hq)
    exact absurd rfl hbare.2.2

namespace Scan

/-- The parts of the text read so far, if it ended here, latest first. -/
def Delivers (s : Scan) (ps : List String) : Prop :=
  ∃ w, s.mode = .word w ∧ endWord w s.parts = ps

theorem delivers_of_between {s : Scan} (hm : s.mode = .word []) : s.Delivers s.parts :=
  ⟨[], hm, rfl⟩

theorem Delivers.finish {s : Scan} {ps : List String} (hd : s.Delivers ps) :
    s.finish = ⟨ps.reverse, none⟩ := by
  obtain ⟨w, hm, rfl⟩ := hd
  simp only [Scan.finish, hm]

theorem Delivers.blank {s : Scan} {ps : List String} (hd : s.Delivers ps) {c : Char}
    (hc : Text.isBlank c = true) : (s.step c).mode = .word [] ∧ (s.step c).parts = ps := by
  obtain ⟨w, hm, rfl⟩ := hd
  rw [step_blank hm hc]
  exact ⟨rfl, rfl⟩

theorem Delivers.paren {s : Scan} {ps : List String} (hd : s.Delivers ps) {c : Char}
    (hc : c = '(' ∨ c = ')') :
    (s.step c).mode = .word [] ∧ (s.step c).parts = c.toString :: ps := by
  obtain ⟨w, hm, rfl⟩ := hd
  rw [step_paren hm hc]
  exact ⟨rfl, rfl⟩

theorem scan_word {s : Scan} {w cs : List Char} (hm : s.mode = .word w) (hb : ∀ c ∈ cs, Bare c) :
    (s.scanFrom cs).mode = .word (cs.reverse ++ w) ∧ (s.scanFrom cs).parts = s.parts := by
  induction cs generalizing s w with
  | nil => exact ⟨hm, rfl⟩
  | cons c cs ih =>
    rw [List.forall_mem_cons] at hb
    obtain ⟨⟨hblank, hparen, hquote⟩, hrest⟩ := hb
    have hstep := step_bare hm hblank hparen hquote
    have hcs := @ih (s.step c) (c :: w) (by rw [hstep]) hrest
    rw [hstep] at hcs
    rw [scanFrom_cons, hstep]
    simpa using hcs

/-- Inside a literal its body is read without an end. -/
theorem scan_body {s : Scan} {start : Nat} {w cs : List Char} (hm : s.mode = .literal start w)
    (hb : LiteralBody cs) :
    (s.scanFrom cs).mode = .literal start (cs.reverse ++ w) ∧
      (s.scanFrom cs).parts = s.parts := by
  induction hb generalizing s w with
  | nil => exact ⟨hm, rfl⟩
  | @plain c cs hs hq _ ih =>
    have hstep : s.step c = ⟨s.position + 1, s.parts, .literal start (c :: w)⟩ := by
      simp only [step, hm, if_neg hs, if_neg hq]
    have hcs := @ih (s.step c) (c :: w) (by rw [hstep])
    rw [hstep] at hcs
    rw [scanFrom_cons, hstep]
    simpa using hcs
  | @escaped c cs _ ih =>
    have hslash : s.step '\\' = ⟨s.position + 1, s.parts, .escape start ('\\' :: w)⟩ := by
      simp only [step, hm, if_true]
    have hstep : (s.step '\\').step c =
        ⟨s.position + 2, s.parts, .literal start (c :: '\\' :: w)⟩ := by
      rw [hslash]
      rfl
    have hcs := @ih ((s.step '\\').step c) (c :: '\\' :: w) (by rw [hstep])
    rw [hstep] at hcs
    rw [scanFrom_cons, scanFrom_cons, hstep]
    simpa using hcs

/-- A text of one of the three shapes is delivered as a part of its own. -/
theorem scan_lexeme {s : Scan} {cs : List Char} (hm : s.mode = .word []) (hl : Lexeme cs) :
    (s.scanFrom cs).Delivers (String.ofList cs :: s.parts) := by
  cases hl with
  | @paren c hc =>
    have hp := (delivers_of_between hm).paren hc
    refine ⟨[], hp.1, ?_⟩
    rw [endWord_nil]
    exact hp.2
  | @literal body hb =>
    have hopen := step_quote hm
    have hbody := @scan_body (s.step '"') s.position ['"'] body (by rw [hopen]) hb
    have hclose : ((s.step '"').scanFrom body).step '"' =
        ⟨((s.step '"').scanFrom body).position + 1,
          String.ofList ('"' :: (body.reverse ++ ['"'])).reverse :: s.parts, .word []⟩ := by
      rw [step, hbody.1, hbody.2, hopen]
      simp
    rw [scanFrom_cons, scanFrom_append, scanFrom_cons, scanFrom_nil, hclose]
    refine ⟨[], rfl, ?_⟩
    simp
  | word hne hb =>
    obtain ⟨hmode, hparts⟩ := scan_word hm hb
    rw [List.append_nil] at hmode
    refine ⟨cs.reverse, hmode, ?_⟩
    rw [hparts, endWord, if_neg (by simpa using hne), List.reverse_reverse]

/-- What has been delivered has one of the three shapes, and what is being read is the start of
one. -/
def Shaped (s : Scan) : Prop :=
  (∀ p ∈ s.parts, Lexeme p.toList) ∧
  match s.mode with
  | .word w => ∀ c ∈ w, Bare c
  | .literal _ w => ∃ body, LiteralBody body ∧ w = body.reverse ++ ['"']
  | .escape _ w => ∃ body, LiteralBody body ∧ w = '\\' :: (body.reverse ++ ['"'])

theorem lexeme_endWord {w : List Char} {ps : List String} (hw : ∀ c ∈ w, Bare c)
    (hp : ∀ p ∈ ps, Lexeme p.toList) : ∀ p ∈ endWord w ps, Lexeme p.toList := by
  cases w with
  | nil => exact hp
  | cons c w =>
    rw [endWord_cons, List.forall_mem_cons]
    refine ⟨?_, hp⟩
    rw [String.toList_ofList]
    exact .word (by simp) (fun d hd => hw d (List.mem_reverse.mp hd))

theorem Shaped.step {s : Scan} (hs : s.Shaped) (c : Char) : (s.step c).Shaped := by
  obtain ⟨position, ps, mode⟩ := s
  obtain ⟨hparts, hmode⟩ := hs
  cases mode with
  | word w =>
    have hended := lexeme_endWord hmode hparts
    by_cases hq : c = '"'
    · subst hq
      rw [step_quote rfl]
      exact ⟨hended, [], .nil, rfl⟩
    · by_cases hb : Text.isBlank c = true
      · rw [step_blank rfl hb]
        exact ⟨hended, by simp⟩
      · by_cases hp : c = '(' ∨ c = ')'
        · rw [step_paren rfl hp]
          refine ⟨?_, by simp⟩
          rw [List.forall_mem_cons]
          refine ⟨?_, hended⟩
          rw [Char.toString_eq_singleton, String.toList_singleton]
          exact .paren hp
        · have hbare : Bare c := ⟨Bool.eq_false_iff.mpr hb, hp, hq⟩
          rw [step_bare rfl hbare.1 hp hq]
          exact ⟨hparts, List.forall_mem_cons.mpr ⟨hbare, hmode⟩⟩
  | literal start w =>
    obtain ⟨body, hbody, rfl⟩ := hmode
    by_cases hslash : c = '\\'
    · subst hslash
      exact ⟨hparts, body, hbody, rfl⟩
    · by_cases hq : c = '"'
      · subst hq
        refine ⟨List.forall_mem_cons.mpr ⟨?_, hparts⟩, fun c hc => absurd hc List.not_mem_nil⟩
        have hl := Lexeme.literal hbody
        simpa using hl
      · have hnext : Scan.step ⟨position, ps, .literal start (body.reverse ++ ['"'])⟩ c =
            ⟨position + 1, ps, .literal start (c :: (body.reverse ++ ['"']))⟩ := by
          simp only [Scan.step, if_neg hslash, if_neg hq]
        rw [hnext]
        exact ⟨hparts, body ++ [c], hbody.append (.plain hslash hq .nil), by simp⟩
  | escape start w =>
    obtain ⟨body, hbody, rfl⟩ := hmode
    exact ⟨hparts, body ++ ['\\', c], hbody.append (.escaped c .nil), by simp⟩

theorem Shaped.scanFrom {s : Scan} (hs : s.Shaped) (cs : List Char) : (s.scanFrom cs).Shaped := by
  induction cs generalizing s with
  | nil => exact hs
  | cons c cs ih => exact ih (hs.step c)

end Scan

/-- Every part of a text has one of the three shapes. -/
theorem lexeme_of_mem_parts {source p : String} (hp : p ∈ (parts source).items) :
    Lexeme p.toList := by
  have hstart : Scan.start.Shaped := ⟨by simp [Scan.start], by simp [Scan.start]⟩
  have hs := hstart.scanFrom source.toList
  unfold parts Scan.finish at hp
  cases hm : (Scan.start.scanFrom source.toList).mode with
  | word w =>
    have hw := hs.2
    rw [hm] at hw
    simp only [hm, List.mem_reverse] at hp
    exact Scan.lexeme_endWord hw hs.1 p hp
  | literal start w =>
    simp only [hm, List.mem_reverse] at hp
    exact hs.1 p hp
  | escape start w =>
    simp only [hm, List.mem_reverse] at hp
    exact hs.1 p hp

end Lisplet
