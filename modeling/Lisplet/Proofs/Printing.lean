import Lisplet.Proofs.CanonicalText
import Lisplet.Proofs.Cutting
import Lisplet.Proofs.Effects

/-!
# What a program prints

The text that evaluation adds to the output is the values that it prints, `Expr.printed`, rendered
one to a line. This holds however the run ends. A rendering holds no line feed, because a line feed
in a string is escaped, so the lines of the output are the renderings. Among values of the language
only such values are printed, and each line reads back as the value it came from.
-/

namespace Lisplet

/-- The text is that of the value, which is one of the language. -/
structure Value.WrittenAs (v : Value) (text : String) : Prop where
  proper : v.Proper
  render : v.render = .ok text

/-- The output of an evaluation is the values printed, written one to a line. -/
theorem Expr.printed_written (mode : Mode) (level : Nat) {e : Expr} (he : e.Proper) {s : State}
    (hs : s.env.Proper) :
    ∃ texts, List.Forall₂ Value.WrittenAs (e.printed mode level s) texts ∧
      ((e.eval mode level).result s).2.output = s.output ++ asLines texts := by
  obtain ⟨texts, htexts, houtput⟩ := (e.done_eval mode level s).output
  have hproper : ∀ v ∈ e.printed mode level s, v.Proper := by
    intro v hv
    obtain ⟨d, hd, hprinted⟩ := List.mem_filterMap.mp hv
    have hvalue := (Expr.deeds_alike (Eq.refl mode.passes) rfl he level hs).2 d hd
    cases d with
    | printed w =>
      cases hprinted
      exact hvalue
    | bound x w => cases hprinted
  refine ⟨texts, ?_, houtput⟩
  exact ((List.forall₂_and_left _ _).mpr ⟨hproper, htexts⟩).imp fun v text h => ⟨h.1, h.2⟩

namespace Value

theorem newline_notMem_escape (c : Char) : '\n' ∉ escape c := by
  unfold escape
  split
  · decide
  · split
    · decide
    · split
      · decide
      · split
        · decide
        case isFalse hc _ => simpa using Ne.symm hc

/-- A rendering is on one line. -/
theorem WrittenAs.newline_notMem {v : Value} {text : String} (h : v.WrittenAs text) :
    '\n' ∉ text.toList := by
  obtain ⟨hv, htext⟩ := h
  match v, hv with
  | .integer n, hn =>
    obtain rfl := Except.ok.inj ((render_integer hn).symm.trans htext)
    intro hmem
    have hdigit := digit_of_mem_repr hmem
    exact absurd hdigit (by decide)
  | .bool true, _ | .bool false, _ | .nil, _ =>
    cases htext
    decide
  | .string content, _ =>
    cases htext
    rw [String.toList_ofList, List.cons_append, List.mem_cons, List.mem_append, List.mem_flatMap]
    rintro (hquote | ⟨c, -, hc⟩ | hquote)
    · exact absurd hquote (by decide)
    · exact newline_notMem_escape c hc
    · exact absurd hquote (by decide)

/-- A rendering reads back as the value, whatever nesting the reader accepts. -/
theorem WrittenAs.parseText {v : Value} {text : String} (h : v.WrittenAs text) (limit : Limit) :
    parseText limit text = .ok (.literal v) := by
  obtain ⟨hv, htext⟩ := h
  obtain ⟨text', htext', hl, hc⟩ := render_lexeme hv
  obtain rfl : text' = text := Except.ok.inj (htext'.symm.trans htext)
  have hproper : (Expr.literal v).Proper := hv
  apply parseText_of_tokens (tokens_of_transcribes (transcribes_lexeme hl hc))
  exact ⟨0, Derives.writes_tokens hproper, .inl rfl⟩

end Value

namespace Text

theorem cutLines_of_notMem {line : List Char} (h : '\n' ∉ line) :
    cutLines (line ++ ['\n']) = [line ++ ['\n']] := by
  induction line with
  | nil => rfl
  | cons c line ih =>
    rw [List.mem_cons, not_or] at h
    rw [List.cons_append, cutLines, if_neg (Ne.symm h.1), ih h.2]

/-- Texts without line feeds, written one to a line, are cut where they were put together. -/
theorem lines_asLines {texts : List String} (h : ∀ text ∈ texts, '\n' ∉ text.toList) :
    lines (asLines texts) = texts.map (· ++ "\n") := by
  have hends : ∀ line ∈ texts.map (· ++ "\n"), EndsLine line := by
    rw [List.forall_mem_map]
    intro text _
    rw [EndsLine, String.toList_append]
    exact List.getLast?_concat
  have hline : ∀ text ∈ texts, lines (text ++ "\n") = [text ++ "\n"] := by
    intro text htext
    have hchars : (text ++ "\n").toList = text.toList ++ ['\n'] := String.toList_append
    rw [lines, hchars, cutLines_of_notMem (h text htext), List.map_singleton, ← hchars,
      String.ofList_toList]
  rw [asLines, lines_join hends, List.flatMap_map, List.map_eq_flatMap]
  exact List.flatMap_congr hline

end Text

/-- From a proper expression and proper bindings, and however evaluation ends, the text that it adds
to the output is the values printed, in order, each rendered and followed by a line feed. No
rendering holds a line feed, so cutting the text into lines gives one line for each value, and each
line reads as the literal of its value. -/
theorem output_reads_back_by_lines (mode : Mode) (level : Nat) {e : Expr} (he : e.Proper)
    {s : State} (hs : s.env.Proper) :
    ∃ texts : List String,
      List.Forall₂ (fun v text => v.render = .ok text ∧ '\n' ∉ text.toList ∧
        ∀ limit, parseText limit text = .ok (.literal v)) (e.printed mode level s) texts ∧
      ((e.eval mode level).result s).2.output = s.output ++ asLines texts ∧
      Text.lines (asLines texts) = texts.map (· ++ "\n") ∧
      (Text.lines (asLines texts)).length = (e.printed mode level s).length := by
  obtain ⟨texts, htexts, houtput⟩ := e.printed_written mode level he hs
  have hline : ∀ text ∈ texts, '\n' ∉ text.toList := by
    have hflip : List.Forall₂ (fun text v => '\n' ∉ text.toList ∧ v.WrittenAs text) texts
        (e.printed mode level s) :=
      (htexts.imp fun v text hv => ⟨hv.newline_notMem, hv⟩).flip
    exact ((List.forall₂_and_left _ _).mp hflip).1
  refine ⟨texts, ?_, houtput, Text.lines_asLines hline, ?_⟩
  · exact htexts.imp fun v text hv => ⟨hv.render, hv.newline_notMem, hv.parseText⟩
  · rw [Text.lines_asLines hline, List.length_map, htexts.length_eq]

/-- A loop, a print inside a print, a string with a line feed and a quote in it, and an error before
the last print is done with. -/
theorem awkward_string_on_one_line :
    let e : Expr := .compound "block" [
      .compound "while" [.compound "<" [.symbol "i", .literal (.integer 2)],
        .compound "block" [.compound "print" [.symbol "i"],
          .compound "global" [.symbol "i", .compound "+" [.symbol "i", .literal (.integer 1)]]]],
      .compound "print" [.compound "block" [.compound "print" [.symbol "t"],
        .literal (.bool true)]],
      .compound "print" [.compound "/" [.symbol "i", .literal (.integer 0)]]]
    let s : State := ⟨Env.ofList [("i", .integer 0), ("t", .string "5\n\"")], "> ", #[]⟩
    let texts := ["0", "1", "\"5\\n\\\"\"", "true"]
    let answer := (e.eval ⟨false, 9, none, none⟩ 0).result s
    answer.1 = .error (.failed (.divisionByZero "/")) ∧
    answer.2.output = "> " ++ asLines texts ∧
    Text.lines (asLines texts) = ["0\n", "1\n", "\"5\\n\\\"\"\n", "true\n"] ∧
    ∀ limit, parseText limit "\"5\\n\\\"\"" = .ok (.literal (.string "5\n\"")) := by
  intro e s texts answer
  have he : e.Proper := by
    simp [e, Expr.Proper, Expr.AllProper, Value.Proper, Fits]
  have hs : s.env.Proper := by
    intro b hb
    obtain rfl | rfl : b = ("i", .integer 0) ∨ b = ("t", .string "5\n\"") := by
      simpa [s, Env.ofList, Env.define, Env.empty, putBinding] using hb
    · exact (by decide : Fits 0)
    · trivial
  have hprinted : e.printed ⟨false, 9, none, none⟩ 0 s =
      [.integer 0, .integer 1, .string "5\n\"", .bool true] := rfl
  obtain ⟨texts', htexts, houtput, hlines, -⟩ :=
    output_reads_back_by_lines ⟨false, 9, none, none⟩ 0 he hs
  rw [hprinted] at htexts
  rcases htexts with _ | ⟨⟨h₁, -⟩, _ | ⟨⟨h₂, -⟩, _ | ⟨⟨h₃, -, hread⟩, _ | ⟨⟨h₄, -⟩, _ | _⟩⟩⟩⟩
  cases h₁
  cases h₂
  cases h₃
  cases h₄
  exact ⟨rfl, houtput, hlines, hread⟩

end Lisplet
