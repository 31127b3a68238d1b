import Lisplet.Proofs.Balance
import Lisplet.Text.Lines

/-!
# Cutting a text between two parts

A text is settled if it ends between two parts: no word is begun and no literal is open. What comes
after a settled text is scanned as if it stood alone, so the parts of the whole are those of the two
pieces, and so are the tokens. Text that has been read and ends its line is settled; a line end
inside a literal is none, and there the first piece by itself breaks off.
-/

namespace Lisplet

namespace Scan

/-- The mode with the text moved behind `n` other characters. -/
def Mode.behind (n : Nat) : Mode → Mode
  | .word chars => .word chars
  | .literal start chars => .literal (n + start) chars
  | .escape start chars => .escape (n + start) chars

/-- The scanner, had `n` characters with these parts come before its text. -/
def behind (n : Nat) (before : List String) (s : Scan) : Scan :=
  ⟨n + s.position, s.parts ++ before, s.mode.behind n⟩

variable (n : Nat) (before : List String)

theorem endWord_append (chars : List Char) (ps : List String) :
    endWord chars (ps ++ before) = endWord chars ps ++ before := by
  cases chars <;> simp

/-- Reading a character does not depend on what came before. -/
theorem step_behind (s : Scan) (c : Char) :
    (s.behind n before).step c = (s.step c).behind n before := by
  obtain ⟨position, ps, mode⟩ := s
  cases mode with
  | word chars =>
    simp only [behind, Mode.behind, step, endWord_append]
    split
    · rfl
    · split
      · rfl
      · split <;> rfl
  | literal start chars =>
    simp only [behind, Mode.behind, step]
    split
    · rfl
    · split <;> rfl
  | escape start chars => rfl

theorem scanFrom_behind (s : Scan) (chars : List Char) :
    (s.behind n before).scanFrom chars = (s.scanFrom chars).behind n before := by
  induction chars generalizing s with
  | nil => rfl
  | cons c chars ih => rw [scanFrom_cons, scanFrom_cons, step_behind, ih]

theorem finish_behind (s : Scan) :
    (s.behind n before).finish.items = before.reverse ++ s.finish.items ∧
      ((s.behind n before).finish.fault = none ↔ s.finish.fault = none) := by
  obtain ⟨position, ps, mode⟩ := s
  cases mode <;> simp [behind, Mode.behind, finish, endWord_append]

theorem eq_behind_start {s : Scan} (hm : s.mode = .word []) :
    s = start.behind s.position s.parts := by
  obtain ⟨position, ps, mode⟩ := s
  cases hm
  rfl

end Scan

/-- The text ends between two parts. -/
def Settled (text : String) : Prop := (Scan.start.scanFrom text.toList).mode = .word []

/-- What comes after a settled text is scanned by itself. -/
theorem parts_append {front : String} (hs : Settled front) (back : String) :
    (parts (front ++ back)).items = (parts front).items ++ (parts back).items ∧
      ((parts (front ++ back)).fault = none ↔ (parts back).fault = none) := by
  have hfront : (parts front).items = (Scan.start.scanFrom front.toList).parts.reverse := by
    rw [parts, (Scan.delivers_of_between hs).finish]
  have hscan : Scan.start.scanFrom (front ++ back).toList =
      (Scan.start.scanFrom back.toList).behind (Scan.start.scanFrom front.toList).position
        (Scan.start.scanFrom front.toList).parts := by
    rw [String.toList_append, Scan.scanFrom_append]
    conv_lhs => rw [Scan.eq_behind_start hs]
    rw [Scan.scanFrom_behind]
  rw [hfront, parts, hscan]
  exact Scan.finish_behind _ _ _

theorem tokens_eq_ofList_iff {text : String} {ts : List Token} :
    tokens text = .ofList ts ↔ (parts text).fault = none ∧
      List.Forall₂ (fun p t => Token.classify p = .ok t) (parts text).items ts := by
  refine ⟨Supply.forall₂_of_convert, ?_⟩
  rintro ⟨hfault, hall⟩
  have hparts : parts text = ⟨(parts text).items, none⟩ := by rw [← hfault]
  rw [tokens, hparts]
  exact Supply.convert_of_forall₂ hall none

theorem tokens_append {front back : String} (hs : Settled front) {us vs : List Token}
    (hf : tokens front = .ofList us) (hb : tokens back = .ofList vs) :
    tokens (front ++ back) = .ofList (us ++ vs) := by
  obtain ⟨hitems, hfault⟩ := parts_append hs back
  obtain ⟨-, hus⟩ := tokens_eq_ofList_iff.mp hf
  obtain ⟨hnone, hvs⟩ := tokens_eq_ofList_iff.mp hb
  rw [tokens_eq_ofList_iff, hitems]
  exact ⟨hfault.mpr hnone, List.rel_append hus hvs⟩

namespace Scan

theorem scanFrom_blank {s : Scan} (hm : s.mode = .word []) {chars : List Char}
    (hb : ∀ c ∈ chars, Text.isBlank c = true) :
    (s.scanFrom chars).mode = .word [] ∧ (s.scanFrom chars).parts = s.parts := by
  induction chars generalizing s with
  | nil => exact ⟨hm, rfl⟩
  | cons c chars ih =>
    rw [List.forall_mem_cons] at hb
    obtain ⟨hmode, hparts⟩ := (delivers_of_between hm).blank hb.1
    rw [scanFrom_cons, ← hparts]
    exact ih hmode hb.2

/-- Something has been read that is not blank. -/
def Begun (s : Scan) : Prop := s.parts ≠ [] ∨ s.mode ≠ .word []

theorem begun_endWord {chars : List Char} {ps : List String} (h : ps ≠ [] ∨ chars ≠ []) :
    endWord chars ps ≠ [] := by
  cases chars with
  | nil => simpa using h
  | cons c chars => simp

theorem Begun.step {s : Scan} (h : s.Begun) (c : Char) : (s.step c).Begun := by
  obtain ⟨position, ps, mode⟩ := s
  cases mode with
  | word chars =>
    have hended : endWord chars ps ≠ [] := begun_endWord (by simpa [Begun] using h)
    simp only [Scan.step]
    split
    · exact .inr (by simp)
    · split
      · exact .inl hended
      · split
        · exact .inl (by simp)
        · exact .inr (by simp)
  | literal start chars =>
    simp only [Scan.step]
    split
    · exact .inr (by simp)
    · split
      · exact .inl (by simp)
      · exact .inr (by simp)
  | escape start chars => exact .inr (by simp [Scan.step])

theorem Begun.scanFrom {s : Scan} (h : s.Begun) (chars : List Char) : (s.scanFrom chars).Begun := by
  induction chars generalizing s with
  | nil => exact h
  | cons c chars ih => exact ih (h.step c)

/-- A character that is not blank begins a part or goes on with one. -/
theorem begun_step (s : Scan) {c : Char} (hc : Text.isBlank c = false) : (s.step c).Begun := by
  obtain ⟨position, ps, mode⟩ := s
  cases mode with
  | word chars =>
    simp only [Scan.step, hc]
    split
    · exact .inr (by simp)
    · split
      · contradiction
      · split
        · exact .inl (by simp)
        · exact .inr (by simp)
  | literal start chars => exact Begun.step (.inr (by simp)) c
  | escape start chars => exact Begun.step (.inr (by simp)) c

theorem Begun.finish {s : Scan} (h : s.Begun) : s.finish ≠ ⟨[], none⟩ := by
  obtain ⟨position, ps, mode⟩ := s
  cases mode with
  | word chars =>
    have hended : endWord chars ps ≠ [] := begun_endWord (by simpa [Begun] using h)
    simpa [Scan.finish] using hended
  | literal start chars | escape start chars => simp [Scan.finish]

theorem begun_of_mem {s : Scan} {chars : List Char} {c : Char} (hc : c ∈ chars)
    (hb : Text.isBlank c = false) : (s.scanFrom chars).Begun := by
  obtain ⟨front, back, rfl⟩ := List.append_of_mem hc
  rw [scanFrom_append, scanFrom_cons]
  exact (begun_step _ hb).scanFrom back

end Scan

theorem allBlank_iff {text : String} :
    Text.allBlank text = true ↔ ∀ c ∈ text.toList, Text.isBlank c = true := by
  rw [Text.allBlank, List.all_eq_true]

@[simp] theorem allBlank_append (front back : String) :
    Text.allBlank (front ++ back) = (Text.allBlank front && Text.allBlank back) := by
  simp [Text.allBlank, String.toList_append]

/-- A text without parts is blank. -/
theorem parts_eq_nil_iff {text : String} : parts text = ⟨[], none⟩ ↔ Text.allBlank text = true := by
  constructor
  · intro hp
    rw [allBlank_iff]
    intro c hc
    by_contra hb
    exact (Scan.begun_of_mem hc (Bool.eq_false_iff.mpr hb)).finish hp
  · intro hb
    obtain ⟨hmode, hparts⟩ := @Scan.scanFrom_blank Scan.start rfl _ (allBlank_iff.mp hb)
    rw [parts, (Scan.delivers_of_between hmode).finish, hparts]
    rfl

theorem tokens_eq_nil_iff {text : String} :
    tokens text = .ofList [] ↔ Text.allBlank text = true := by
  rw [tokens_eq_ofList_iff, ← parts_eq_nil_iff]
  constructor
  · rintro ⟨hfault, hall⟩
    have hitems := List.forall₂_nil_right_iff.mp hall
    rw [← hitems, ← hfault]
  · intro hp
    rw [hp]
    exact ⟨rfl, .nil⟩

/-- The text ends its last line. -/
def EndsLine (text : String) : Prop := text.toList.getLast? = some '\n'

theorem EndsLine.append {back : String} (h : EndsLine back) (front : String) :
    EndsLine (front ++ back) := by
  rw [EndsLine, String.toList_append, List.getLast?_append, h]
  rfl

namespace Text

theorem cutLines_cons_ne_nil (c : Char) (rest : List Char) : cutLines (c :: rest) ≠ [] := by
  rw [cutLines]
  split
  · simp
  · split <;> simp

/-- Where a line ends, the rest is cut by itself. -/
theorem cutLines_append {front : List Char} (h : front.getLast? = some '\n') (back : List Char) :
    cutLines (front ++ back) = cutLines front ++ cutLines back := by
  induction front with
  | nil => cases h
  | cons c rest ih =>
    rw [List.cons_append, cutLines, cutLines]
    cases rest with
    | nil =>
      obtain rfl : c = '\n' := by simpa using h
      simp [cutLines]
    | cons d rest =>
      rw [List.getLast?_cons_cons] at h
      rw [ih h]
      split
      · simp
      · obtain ⟨line, others, hlines⟩ := List.exists_cons_of_ne_nil (cutLines_cons_ne_nil d rest)
        rw [hlines]
        simp

/-- The lines of texts that end their lines are the lines of each in turn. -/
theorem lines_join {texts : List String} (h : ∀ text ∈ texts, EndsLine text) :
    lines (String.join texts) = texts.flatMap lines := by
  induction texts with
  | nil => rfl
  | cons text texts ih =>
    rw [List.forall_mem_cons] at h
    rw [List.flatMap_cons, ← ih h.2, String.join_cons, lines, String.toList_append,
      cutLines_append h.1, List.map_append]
    rfl

end Text

end Lisplet
