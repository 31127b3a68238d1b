import Lisplet.Proofs.Cutting
import Mathlib.Data.List.Chain
import Mathlib.Data.List.Induction

/-!
# Parts divide the text

A partition of a text lists its parts, each with the blank characters before it, and the blank
characters after the last one; two bare words never touch. What is a string literal is said by its
quotes alone: the first one after the opening quote that no backslash escapes is its last character.

Every text has a partition, or it has one up to a quote that nothing closes (`exists_partition`).
The scanner delivers the parts of any partition there is (`Partition.delivers`). So it delivers all
that a text holds, there is no other partition, and where it breaks off the parts before have been
delivered.
-/

namespace Lisplet

/-- What comes next is escaped, these being the characters before it, latest first: a backslash
stands right before it which is not escaped itself. -/
def Escapes : List Char → Prop
  | [] => False
  | c :: before => c = '\\' ∧ ¬Escapes before

/-- Every quote among the characters is escaped. -/
def Unclosed (cs : List Char) : Prop :=
  ∀ front back, cs = front ++ '"' :: back → Escapes front.reverse

theorem unclosed_nil : Unclosed [] := by
  intro front back h
  simp at h

theorem unclosed_concat {cs : List Char} {c : Char} :
    Unclosed (cs ++ [c]) ↔ Unclosed cs ∧ (c = '"' → Escapes cs.reverse) := by
  constructor
  · intro h
    refine ⟨fun front back hcs => h front (back ++ [c]) (by simp [hcs]), ?_⟩
    rintro rfl
    exact h cs [] rfl
  · rintro ⟨hcs, hc⟩ front back h
    rcases List.eq_nil_or_concat' back with rfl | ⟨back, d, rfl⟩
    · obtain ⟨rfl, rfl⟩ := by simpa using List.append_inj' h rfl
      exact hc rfl
    · rw [← List.cons_append, ← List.append_assoc] at h
      exact hcs front back (List.append_inj' h rfl).1

/-- Characters whose quotes are all escaped are the body of a literal, or one and a backslash. -/
theorem literalBody_of_unclosed {cs : List Char} (h : Unclosed cs) :
    (¬Escapes cs.reverse → LiteralBody cs) ∧
      (Escapes cs.reverse → ∃ body, cs = body ++ ['\\'] ∧ LiteralBody body) := by
  induction cs using List.reverseRecOn with
  | nil => exact ⟨fun _ => .nil, False.elim⟩
  | append_singleton cs c ih =>
    obtain ⟨hcs, hc⟩ := unclosed_concat.mp h
    rw [List.reverse_concat, Escapes]
    by_cases hescapes : Escapes cs.reverse
    · obtain ⟨body, rfl, hbody⟩ := (ih hcs).2 hescapes
      refine ⟨fun _ => ?_, fun h => absurd hescapes h.2⟩
      rw [List.append_assoc]
      exact hbody.append (.escaped c .nil)
    · have hbody := (ih hcs).1 hescapes
      refine ⟨fun h => ?_, ?_⟩
      · have hslash : c ≠ '\\' := fun hc => h ⟨hc, hescapes⟩
        have hquote : c ≠ '"' := fun hq => hescapes (hc hq)
        exact hbody.append (.plain hslash hquote .nil)
      · rintro ⟨rfl, -⟩
        exact ⟨cs, rfl, hbody⟩

/-- A string literal: its first quote after the opening one that is not escaped is its last
character. -/
def StringLiteral (cs : List Char) : Prop :=
  ∃ body, cs = '"' :: (body ++ ['"']) ∧ Unclosed body ∧ ¬Escapes body.reverse

def BareWord (cs : List Char) : Prop := cs ≠ [] ∧ ∀ c ∈ cs, Bare c

def IsPart (cs : List Char) : Prop :=
  cs = ['('] ∨ cs = [')'] ∨ StringLiteral cs ∨ BareWord cs

namespace IsPart

variable {cs : List Char}

theorem lexeme (h : IsPart cs) : Lexeme cs := by
  obtain rfl | rfl | ⟨body, rfl, hopen, hend⟩ | ⟨hne, hbare⟩ := h
  · exact .paren (.inl rfl)
  · exact .paren (.inr rfl)
  · exact .literal ((literalBody_of_unclosed hopen).1 hend)
  · exact .word hne hbare

/-- Only a bare word begins like one. -/
theorem bareWord_of_head {c : Char} (h : IsPart (c :: cs)) (hc : Bare c) : BareWord (c :: cs) := by
  obtain h | h | ⟨body, h, -⟩ | h := h
  · cases h
    exact absurd hc (by decide)
  · cases h
    exact absurd hc (by decide)
  · cases h
    exact absurd hc (by decide)
  · exact h

/-- Only a bare word ends like one. -/
theorem bareWord_of_last {c : Char} (h : IsPart (cs ++ [c])) (hc : Bare c) :
    BareWord (cs ++ [c]) := by
  obtain h | h | ⟨body, h, -⟩ | h := h
  · obtain rfl : c = '(' := by simpa using congrArg List.getLast? h
    exact absurd hc (by decide)
  · obtain rfl : c = ')' := by simpa using congrArg List.getLast? h
    exact absurd hc (by decide)
  · rw [← List.cons_append] at h
    obtain ⟨-, hquote⟩ := List.append_inj' h rfl
    cases hquote
    exact absurd hc (by decide)
  · exact h

theorem exists_cons (h : IsPart cs) : ∃ c rest, cs = c :: rest ∧ Text.isBlank c = false := by
  obtain rfl | rfl | ⟨body, rfl, -⟩ | ⟨hne, hbare⟩ := h
  · exact ⟨_, _, rfl, by decide⟩
  · exact ⟨_, _, rfl, by decide⟩
  · exact ⟨_, _, rfl, by decide⟩
  · obtain ⟨c, rest, rfl⟩ := List.exists_cons_of_ne_nil hne
    exact ⟨c, rest, rfl, (hbare c List.mem_cons_self).1⟩

end IsPart

/-- A part of a text with the blank characters before it. -/
structure Piece where
  gap : List Char
  part : List Char

namespace Piece

def text (p : Piece) : List Char := p.gap ++ p.part

/-- What the scanner gives for the piece. -/
def delivered (p : Piece) : String := String.ofList p.part

/-- The two parts do not run into one word. -/
def Apart (p q : Piece) : Prop := BareWord p.part → BareWord q.part → q.gap ≠ []

end Piece

/-- The pieces, and blank characters after the last one, make up the text. -/
structure Partition (chars : List Char) (pieces : List Piece) (last : List Char) : Prop where
  text : chars = pieces.flatMap Piece.text ++ last
  blankGaps : ∀ p ∈ pieces, ∀ c ∈ p.gap, Text.isBlank c = true
  blankLast : ∀ c ∈ last, Text.isBlank c = true
  areParts : ∀ p ∈ pieces, IsPart p.part
  apart : pieces.IsChain Piece.Apart

namespace Partition

variable {chars last part : List Char} {pieces : List Piece} {p : Piece} {c : Char}

theorem nothing : Partition [] [] [] where
  text := rfl
  blankGaps := by simp
  blankLast := by simp
  areParts := by simp
  apart := .nil

/-- Blank characters extend what comes after the last part. -/
theorem blank (h : Partition chars pieces last) (hc : Text.isBlank c = true) :
    Partition (chars ++ [c]) pieces (last ++ [c]) where
  text := by rw [h.text, List.append_assoc]
  blankGaps := h.blankGaps
  blankLast := by
    rw [List.forall_mem_append, List.forall_mem_singleton]
    exact ⟨h.blankLast, hc⟩
  areParts := h.areParts
  apart := h.apart

/-- A part ends the blank characters before it. -/
theorem concat (h : Partition chars pieces last) (hp : IsPart part)
    (ha : ∀ q ∈ pieces.getLast?, q.Apart ⟨last, part⟩) :
    Partition (chars ++ part) (pieces ++ [⟨last, part⟩]) [] where
  text := by simp [h.text, Piece.text]
  blankGaps := by
    rw [List.forall_mem_append, List.forall_mem_singleton]
    exact ⟨h.blankGaps, h.blankLast⟩
  blankLast := by simp
  areParts := by
    rw [List.forall_mem_append, List.forall_mem_singleton]
    exact ⟨h.areParts, hp⟩
  apart := by
    rw [List.isChain_append]
    refine ⟨h.apart, .singleton _, ?_⟩
    intro q hq r hr
    cases hr
    exact ha q hq

/-- What comes before the last part has a partition of its own. -/
theorem concat_inv (h : Partition chars (pieces ++ [p]) last) :
    ∃ front, chars = front ++ p.part ++ last ∧ Partition front pieces p.gap ∧ IsPart p.part ∧
      ∀ q ∈ pieces.getLast?, q.Apart p := by
  obtain ⟨htext, hgaps, hlast, hparts, hapart⟩ := h
  rw [List.forall_mem_append, List.forall_mem_singleton] at hgaps hparts
  rw [List.isChain_append] at hapart
  refine ⟨pieces.flatMap Piece.text ++ p.gap, ?_, ⟨rfl, hgaps.1, hgaps.2, hparts.1, hapart.1⟩,
    hparts.2, fun q hq => hapart.2.2 q hq p rfl⟩
  simp [htext, Piece.text]

/-- A character of a bare word begins a word or goes on with the one before it. -/
theorem bare (h : Partition chars pieces last) (hc : Bare c) :
    ∃ pieces, Partition (chars ++ [c]) pieces [] := by
  have hword : BareWord [c] := ⟨List.cons_ne_nil _ _, by simpa using hc⟩
  by_cases ha : ∀ q ∈ pieces.getLast?, q.Apart ⟨last, [c]⟩
  · exact ⟨_, h.concat (.inr (.inr (.inr hword))) ha⟩
  · -- the last piece is a word that nothing separates from the character
    simp only [Piece.Apart, not_forall, not_not] at ha
    obtain ⟨p, hp, hbefore, -, rfl⟩ := ha
    obtain ⟨init, rfl⟩ := List.getLast?_eq_some_iff.mp hp
    obtain ⟨front, rfl, hfront, -, hapart⟩ := h.concat_inv
    have hlonger : BareWord (p.part ++ [c]) := by
      refine ⟨List.append_ne_nil_of_left_ne_nil hbefore.1 _, ?_⟩
      rw [List.forall_mem_append]
      exact ⟨hbefore.2, hword.2⟩
    refine ⟨init ++ [⟨p.gap, p.part ++ [c]⟩], ?_⟩
    rw [List.append_nil, List.append_assoc]
    exact hfront.concat (.inr (.inr (.inr hlonger))) fun q hq hw _ => hapart q hq hw hbefore

end Partition

/-- Every text has a partition, at least up to a quote that nothing closes. -/
theorem exists_partition (chars : List Char) :
    (∃ pieces last, Partition chars pieces last) ∨
      ∃ front pieces last rest, chars = front ++ '"' :: rest ∧ Partition front pieces last ∧
        Unclosed rest := by
  induction chars using List.reverseRecOn with
  | nil => exact .inl ⟨_, _, .nothing⟩
  | append_singleton chars c ih =>
    obtain ⟨pieces, last, h⟩ | ⟨front, pieces, last, rest, rfl, h, hrest⟩ := ih
    · by_cases hquote : c = '"'
      · subst hquote
        exact .inr ⟨chars, pieces, last, [], rfl, h, unclosed_nil⟩
      · refine .inl ?_
        by_cases hblank : Text.isBlank c = true
        · exact ⟨_, _, h.blank hblank⟩
        · by_cases hparen : c = '(' ∨ c = ')'
          · have hpart : IsPart [c] := by
              rcases hparen with rfl | rfl
              · exact .inl rfl
              · exact .inr (.inl rfl)
            have hbare : ¬BareWord [c] := fun hw => (hw.2 c List.mem_cons_self).2.1 hparen
            exact ⟨_, _, h.concat hpart fun _ _ _ hw => absurd hw hbare⟩
          · obtain ⟨pieces, h⟩ := h.bare ⟨Bool.eq_false_iff.mpr hblank, hparen, hquote⟩
            exact ⟨_, _, h⟩
    · rw [List.append_assoc, List.cons_append]
      by_cases hclosed : c = '"' ∧ ¬Escapes rest.reverse
      · obtain ⟨rfl, hend⟩ := hclosed
        have hpart : IsPart ('"' :: (rest ++ ['"'])) := .inr (.inr (.inl ⟨rest, rfl, hrest, hend⟩))
        have hbare : ¬BareWord ('"' :: (rest ++ ['"'])) :=
          fun hw => (hw.2 '"' List.mem_cons_self).2.2 rfl
        exact .inl ⟨_, _, h.concat hpart fun _ _ _ hw => absurd hw hbare⟩
      · refine .inr ⟨front, pieces, last, rest ++ [c], rfl, h, unclosed_concat.mpr ⟨hrest, ?_⟩⟩
        intro hquote
        by_contra hend
        exact hclosed ⟨hquote, hend⟩

namespace Partition

variable {chars last : List Char} {pieces : List Piece} {p : Piece}

/-- Where a bare word may come next, the text does not end in the middle of one. -/
theorem not_bare_of_last (h : Partition chars pieces p.gap) (hp : BareWord p.part)
    (ha : ∀ q ∈ pieces.getLast?, q.Apart p) : ∀ c ∈ chars.getLast?, ¬Bare c := by
  intro c hc hbare
  -- the last character is blank, or without a gap the last one of a part that is no word
  rcases List.eq_nil_or_concat' p.gap with hgap | ⟨gap, d, hgap⟩
  · rcases List.eq_nil_or_concat' pieces with rfl | ⟨init, q, rfl⟩
    · rw [h.text, hgap] at hc
      cases hc
    · obtain ⟨front, rfl, -, hq, -⟩ := h.concat_inv
      have hnot : ¬BareWord q.part := fun hw => ha q (by simp) hw hp hgap
      rcases List.eq_nil_or_concat' q.part with hnil | ⟨cs, d, hcs⟩
      · obtain ⟨d, rest, hcons, -⟩ := hq.exists_cons
        rw [hnil] at hcons
        cases hcons
      · obtain rfl : d = c := by simpa [hgap, hcs] using hc
        rw [hcs] at hq hnot
        exact hnot (hq.bareWord_of_last hbare)
  · have hblank := h.blankLast d (by simp [hgap])
    obtain rfl : d = c := by simpa [h.text, hgap] using hc
    rw [hbare.1] at hblank
    cases hblank

end Partition

namespace Scan

variable {s : Scan} {ps : List String} {c : Char} {cs : List Char}

/-- A character that belongs to no word leaves none begun. -/
theorem eq_nil_of_not_bare {w : List Char} (hc : ¬Bare c) (hm : (s.step c).mode = .word w) :
    w = [] := by
  obtain ⟨position, before, mode⟩ := s
  cases mode with
  | word chars =>
    simp only [step] at hm
    split at hm
    · cases hm
    · next hquote =>
      split at hm
      · cases hm
        rfl
      · next hblank =>
        split at hm
        · cases hm
          rfl
        · next hparen => exact absurd ⟨Bool.eq_false_iff.mpr hblank, hparen, hquote⟩ hc
  | literal start chars =>
    simp only [step] at hm
    split at hm
    · cases hm
    · split at hm
      · cases hm
        rfl
      · cases hm
  | escape start chars => cases hm

/-- A character that belongs to no word is read as if the word before it had been ended. -/
theorem Delivers.step_of_not_bare (hd : s.Delivers ps) (hc : ¬Bare c) :
    s.step c = step ⟨s.position, ps, .word []⟩ c := by
  obtain ⟨w, hm, rfl⟩ := hd
  by_cases hquote : c = '"'
  · subst hquote
    rw [step_quote hm, step_quote rfl]
    rfl
  · by_cases hblank : Text.isBlank c = true
    · rw [step_blank hm hblank, step_blank rfl hblank]
      rfl
    · by_cases hparen : c = '(' ∨ c = ')'
      · rw [step_paren hm hparen, step_paren rfl hparen]
        rfl
      · exact absurd ⟨Bool.eq_false_iff.mpr hblank, hparen, hquote⟩ hc

theorem Delivers.blanks (hd : s.Delivers ps) (hb : ∀ c ∈ cs, Text.isBlank c = true) :
    (s.scanFrom cs).Delivers ps := by
  cases cs with
  | nil => exact hd
  | cons c cs =>
    rw [List.forall_mem_cons] at hb
    obtain ⟨hmode, hparts⟩ := hd.blank hb.1
    obtain ⟨hmode', hparts'⟩ := scanFrom_blank hmode hb.2
    exact ⟨[], hmode', hparts'.trans hparts⟩

/-- A part is delivered, if it is not a word that goes on with the one before it. -/
theorem Delivers.part (hd : s.Delivers ps) (hp : IsPart cs)
    (hw : BareWord cs → s.mode = .word []) :
    (s.scanFrom cs).Delivers (String.ofList cs :: ps) := by
  by_cases hbare : BareWord cs
  · have hm := hw hbare
    obtain ⟨w, hm', rfl⟩ := hd
    rw [hm] at hm'
    cases hm'
    exact scan_lexeme hm hp.lexeme
  · obtain ⟨c, rest, rfl, -⟩ := hp.exists_cons
    have hc : ¬Bare c := fun hc => hbare (hp.bareWord_of_head hc)
    rw [scanFrom_cons, hd.step_of_not_bare hc, ← scanFrom_cons]
    exact scan_lexeme rfl hp.lexeme

/-- A quote that nothing closes: the parts before it have been delivered. -/
theorem Delivers.finish_of_unclosed (hd : s.Delivers ps) (h : Unclosed cs) :
    (s.scanFrom ('"' :: cs)).finish = ⟨ps.reverse, some (.unterminatedString s.position)⟩ := by
  obtain ⟨w, hm, rfl⟩ := hd
  have hopen := step_quote hm
  rw [scanFrom_cons]
  by_cases hescapes : Escapes cs.reverse
  · obtain ⟨body, rfl, hbody⟩ := (literalBody_of_unclosed h).2 hescapes
    obtain ⟨hmode, hparts⟩ := scan_body (s := s.step '"') (by rw [hopen]) hbody
    rw [scanFrom_append, scanFrom_cons, scanFrom_nil, step, hmode, hparts, hopen]
    rfl
  · have hbody := (literalBody_of_unclosed h).1 hescapes
    obtain ⟨hmode, hparts⟩ := scan_body (s := s.step '"') (by rw [hopen]) hbody
    rw [Scan.finish, hmode, hparts, hopen]

end Scan

namespace Partition

variable {chars last last' : List Char} {pieces pieces' : List Piece}

/-- The scanner delivers the parts of a partition. -/
theorem delivers (h : Partition chars pieces last) :
    (Scan.start.scanFrom chars).Delivers (pieces.map Piece.delivered).reverse := by
  induction pieces using List.reverseRecOn generalizing chars last with
  | nil =>
    rw [h.text]
    exact (Scan.delivers_of_between rfl).blanks h.blankLast
  | append_singleton pieces p ih =>
    obtain ⟨front, hchars, hfront, hpart, hapart⟩ := h.concat_inv
    have hbefore := ih hfront
    have hword : BareWord p.part → (Scan.start.scanFrom front).mode = .word [] := by
      intro hw
      have hlast := hfront.not_bare_of_last hw hapart
      rcases List.eq_nil_or_concat' front with rfl | ⟨cs, c, rfl⟩
      · rfl
      · obtain ⟨w, hm, -⟩ := hbefore
        rw [Scan.scanFrom_append, Scan.scanFrom_cons, Scan.scanFrom_nil] at hm ⊢
        rw [hm, Scan.eq_nil_of_not_bare (hlast c (by simp)) hm]
    have hafter := (hbefore.part hpart hword).blanks h.blankLast
    rw [hchars, Scan.scanFrom_append, Scan.scanFrom_append]
    simpa [Piece.delivered] using hafter

/-- Behind the first part the others are a partition of what follows. -/
theorem cons_inv {p : Piece} (h : Partition chars (p :: pieces) last) :
    ∃ back, chars = p.gap ++ (p.part ++ back) ∧ (∀ c ∈ p.gap, Text.isBlank c = true) ∧
      IsPart p.part ∧ Partition back pieces last := by
  obtain ⟨htext, hgaps, hlast, hparts, hapart⟩ := h
  rw [List.forall_mem_cons] at hgaps hparts
  refine ⟨pieces.flatMap Piece.text ++ last, ?_, hgaps.1, hparts.1,
    ⟨rfl, hgaps.2, hlast, hparts.2, hapart.tail⟩⟩
  simp [htext, Piece.text]

theorem gap_unique {gap gap' part back back' : List Char}
    (hg : ∀ c ∈ gap, Text.isBlank c = true) (hg' : ∀ c ∈ gap', Text.isBlank c = true)
    (hp : IsPart part) (h : gap ++ (part ++ back) = gap' ++ (part ++ back')) :
    gap = gap' ∧ back = back' := by
  obtain ⟨c, rest, rfl, hc⟩ := hp.exists_cons
  have htake := congrArg (List.takeWhile Text.isBlank) h
  rw [List.takeWhile_append_of_pos hg, List.takeWhile_append_of_pos hg'] at htake
  obtain rfl : gap = gap' := by simpa [List.takeWhile_cons, hc] using htake
  exact ⟨rfl, List.append_cancel_left (List.append_cancel_left h)⟩

/-- The parts determine the blank characters between them. -/
theorem eq_of_parts (h : Partition chars pieces last) (h' : Partition chars pieces' last')
    (hp : pieces.map Piece.delivered = pieces'.map Piece.delivered) :
    pieces = pieces' ∧ last = last' := by
  induction pieces generalizing chars pieces' with
  | nil =>
    cases pieces' with
    | nil => exact ⟨rfl, h.text.symm.trans h'.text⟩
    | cons p' pieces' => cases hp
  | cons p pieces ih =>
    cases pieces' with
    | nil => cases hp
    | cons p' pieces' =>
      obtain ⟨gap, part⟩ := p
      obtain ⟨gap', part'⟩ := p'
      rw [List.map_cons, List.map_cons, List.cons.injEq] at hp
      obtain rfl : part = part' := String.ofList_injective hp.1
      obtain ⟨back, htext, hgap, hpart, hback⟩ := h.cons_inv
      obtain ⟨back', htext', hgap', -, hback'⟩ := h'.cons_inv
      obtain ⟨rfl, rfl⟩ := gap_unique hgap hgap' hpart (htext.symm.trans htext')
      obtain ⟨rfl, rfl⟩ := ih hback hback' hp.2
      exact ⟨rfl, rfl⟩

end Partition

section Parts

variable {source : String} {front last rest : List Char} {pieces : List Piece}

theorem parts_of_partition (h : Partition source.toList pieces last) :
    parts source = .ofList (pieces.map Piece.delivered) := by
  rw [parts, h.delivers.finish, List.reverse_reverse]
  rfl

theorem parts_of_unclosed (h : Partition front pieces last)
    (htext : source.toList = front ++ '"' :: rest) (hrest : Unclosed rest) :
    parts source = ⟨pieces.map Piece.delivered, some (.unterminatedString front.length)⟩ := by
  rw [parts, htext, Scan.scanFrom_append, h.delivers.finish_of_unclosed hrest,
    List.reverse_reverse, Scan.position_scanFrom, Scan.start, Nat.zero_add]

end Parts

/-- The parts of a text divide it. If the scanner comes to the end, its parts are those of a
partition of the text, and there is no other one. It breaks off exactly if the text has a partition
up to a quote that nothing closes; then the parts of that partition have been delivered, and the
position reported is the one of the quote. -/
theorem parts_divide_source (source : String) :
    (∀ ps, parts source = .ofList ps ↔
      ∃ pieces last, Partition source.toList pieces last ∧ ps = pieces.map Piece.delivered) ∧
    (∀ pieces last pieces' last', Partition source.toList pieces last →
      Partition source.toList pieces' last' → pieces = pieces' ∧ last = last') ∧
    ((parts source).fault ≠ none ↔ ∃ front pieces last rest,
      source.toList = front ++ '"' :: rest ∧ Partition front pieces last ∧ Unclosed rest) ∧
    (∀ front pieces last rest, source.toList = front ++ '"' :: rest →
      Partition front pieces last → Unclosed rest →
      parts source = ⟨pieces.map Piece.delivered, some (.unterminatedString front.length)⟩) := by
  refine ⟨fun ps => ⟨fun hps => ?_, ?_⟩, ?_, ⟨fun hfault => ?_, ?_⟩, ?_⟩
  · obtain ⟨pieces, last, h⟩ | ⟨front, pieces, last, rest, htext, h, hrest⟩ :=
      exists_partition source.toList
    · rw [parts_of_partition h] at hps
      cases hps
      exact ⟨pieces, last, h, rfl⟩
    · rw [parts_of_unclosed h htext hrest] at hps
      cases hps
  · rintro ⟨pieces, last, h, rfl⟩
    exact parts_of_partition h
  · intro pieces last pieces' last' h h'
    have hsame := (parts_of_partition h).symm.trans (parts_of_partition h')
    exact h.eq_of_parts h' (Supply.mk.inj hsame).1
  · obtain ⟨pieces, last, h⟩ | h := exists_partition source.toList
    · rw [parts_of_partition h] at hfault
      exact absurd rfl hfault
    · exact h
  · rintro ⟨front, pieces, last, rest, htext, h, hrest⟩
    rw [parts_of_unclosed h htext hrest]
    exact Option.some_ne_none _
  · intro front pieces last rest htext h hrest
    exact parts_of_unclosed h htext hrest

/-- An escaped quote closes nothing, whether another one does or not. -/
theorem escaped_quote_does_not_close :
    (∃ pieces last, Partition "f\"x\\\"\"g ".toList pieces last ∧
      ["f", "\"x\\\"\"", "g"] = pieces.map Piece.delivered) ∧
    Partition "f ".toList [⟨[], ['f']⟩] [' '] ∧ Unclosed ['\\', '"'] ∧
    parts "f \"\\\"" = ⟨["f"], some (.unterminatedString 2)⟩ := by
  have hbare : Bare 'f' := by decide
  have hword : BareWord ['f'] := ⟨List.cons_ne_nil _ _, List.forall_mem_singleton.mpr hbare⟩
  have hfront : Partition "f ".toList [⟨[], ['f']⟩] [' '] :=
    ⟨rfl, by simp, List.forall_mem_singleton.mpr Text.isBlank_space, by simp [IsPart, hword],
      .singleton _⟩
  have hslash : Unclosed ['\\'] := unclosed_concat.mpr ⟨unclosed_nil, by simp⟩
  have hrest : Unclosed ['\\', '"'] := unclosed_concat.mpr ⟨hslash, fun _ => ⟨rfl, id⟩⟩
  refine ⟨((parts_divide_source _).1 _).mp ?_, hfront, hrest, ?_⟩
  · decide +kernel
  · exact (parts_divide_source _).2.2.2 _ _ _ _ rfl hfront hrest

end Lisplet
