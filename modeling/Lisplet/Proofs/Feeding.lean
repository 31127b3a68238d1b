import Lisplet.Dialogue
import Lisplet.Proofs.Cutting

/-!
# The read loop loses no line and takes none twice

Feeding a line does one of three things: the line is dropped, or it is gathered, or it completes a
fragment, which is evaluated. Between two lines the loop holds the lines gathered since the last
fragment, none of whose beginnings balances. So the lines taken up fall into groups, one for each
fragment evaluated, and what is still gathered; and each group is the shortest that balances. How an
evaluation ends plays no part in this.

The session is that of evaluating these fragments in turn, each in the state that the one before it
has left, and the answers are theirs.
-/

namespace Lisplet

namespace Dialogue

/-- Nothing has been gathered, and the line is blank. -/
def Drops (d : Dialogue) (line : String) : Prop := d.buffer = "" ∧ Text.allBlank line = true

instance (d : Dialogue) (line : String) : Decidable (d.Drops line) :=
  inferInstanceAs (Decidable (_ ∧ _))

/-- The fragment that the line completes, if it completes one. -/
def completed? (d : Dialogue) (line : String) : Option String :=
  if ¬d.Drops line ∧ isBalanced (d.buffer ++ line) = true then some (d.buffer ++ line) else none

/-- The answer in what a feed returns, if there is one. -/
def shown : Except Halt (Option String) → Option (Except Halt String)
  | .ok none => none
  | .ok (some text) => some (.ok text)
  | .error halt => some (.error halt)

theorem shown_map_some (r : Except Halt String) : shown (r.map some) = some r := by
  cases r <;> rfl

section Lines

variable (mode : Mode) (limit : Limit)

/-- The read loop after the lines have been fed in turn, however each feed has ended. -/
def after : Dialogue → List String → Dialogue
  | d, [] => d
  | d, line :: lines => after (d.feed mode limit line).2 lines

/-- The fragments evaluated while the lines are fed. -/
def handed : Dialogue → List String → List String
  | _, [] => []
  | d, line :: lines => (d.completed? line).toList ++ handed (d.feed mode limit line).2 lines

/-- The answers while the lines are fed, each with the read loop as it is then. -/
def answers : Dialogue → List String → List (Except Halt String × Dialogue)
  | _, [] => []
  | d, line :: lines =>
    (shown (d.feed mode limit line).1).toList.map (·, (d.feed mode limit line).2) ++
      answers (d.feed mode limit line).2 lines

/-- The lines without those dropped. -/
def kept : Dialogue → List String → List String
  | _, [] => []
  | d, line :: lines =>
    (if d.Drops line then [] else [line]) ++ kept (d.feed mode limit line).2 lines

end Lines

variable {mode : Mode} {limit : Limit} {d : Dialogue} {line : String}

theorem completed?_of_drops (hd : d.Drops line) : d.completed? line = none :=
  if_neg fun h => h.1 hd

theorem completed?_of_not_balanced (hb : isBalanced (d.buffer ++ line) = false) :
    d.completed? line = none :=
  if_neg fun h => Bool.false_ne_true (hb.symm.trans h.2)

theorem completed?_of_balanced (hd : ¬d.Drops line) (hb : isBalanced (d.buffer ++ line) = true) :
    d.completed? line = some (d.buffer ++ line) :=
  if_pos ⟨hd, hb⟩

theorem completed?_eq_some_iff {fragment : String} :
    d.completed? line = some fragment ↔
      ¬d.Drops line ∧ isBalanced (d.buffer ++ line) = true ∧ fragment = d.buffer ++ line := by
  rw [completed?, Option.ite_none_right_eq_some, and_assoc, Option.some_inj, @eq_comm _ fragment]

/-- What one feed does. -/
theorem feed_eq :
    d.feed mode limit line =
      match d.completed? line with
      | some fragment =>
        (((evalFragment mode limit fragment).result d.state).1.map some,
          ⟨"", ((evalFragment mode limit fragment).result d.state).2⟩)
      | none => (.ok none, ⟨if d.Drops line then d.buffer else d.buffer ++ line, d.state⟩) := by
  by_cases hd : d.Drops line
  · rw [completed?_of_drops hd, if_pos hd]
    exact feed_of_blank hd.1 hd.2
  · cases hb : isBalanced (d.buffer ++ line) with
    | true =>
      rw [completed?_of_balanced hd hb]
      exact feed_of_balanced hd hb
    | false =>
      rw [completed?_of_not_balanced hb, if_neg hd]
      exact feed_of_not_balanced hd hb

theorem feed_of_completed {fragment : String} (h : d.completed? line = some fragment) :
    d.feed mode limit line =
      (((evalFragment mode limit fragment).result d.state).1.map some,
        ⟨"", ((evalFragment mode limit fragment).result d.state).2⟩) := by
  rw [feed_eq, h]

theorem feed_of_not_completed (h : d.completed? line = none) :
    d.feed mode limit line =
      (.ok none, ⟨if d.Drops line then d.buffer else d.buffer ++ line, d.state⟩) := by
  rw [feed_eq, h]

/-- A feed that gives no answer has evaluated nothing. -/
theorem completed?_of_feed_none (h : (d.feed mode limit line).1 = .ok none) :
    d.completed? line = none := by
  cases hc : d.completed? line with
  | none => rfl
  | some fragment =>
    rw [feed_of_completed hc] at h
    dsimp only at h
    cases hr : ((evalFragment mode limit fragment).result d.state).1 with
    | ok text =>
      rw [hr] at h
      cases h
    | error halt =>
      rw [hr] at h
      cases h

/-- An answer is that of a fragment. -/
theorem completed?_of_feed_some {text : String}
    (h : (d.feed mode limit line).1 = .ok (some text)) :
    ∃ fragment, d.completed? line = some fragment ∧
      ((evalFragment mode limit fragment).result d.state).1 = .ok text := by
  cases hc : d.completed? line with
  | none =>
    rw [feed_of_not_completed hc] at h
    cases h
  | some fragment =>
    rw [feed_of_completed hc] at h
    dsimp only at h
    refine ⟨fragment, rfl, ?_⟩
    cases hr : ((evalFragment mode limit fragment).result d.state).1 with
    | ok shown =>
      rw [hr] at h
      cases h
      rfl
    | error halt =>
      rw [hr] at h
      cases h

end Dialogue

section Evaluation

variable (mode : Mode) (limit : Limit)

/-- What evaluating a fragment is answered by, and the state that it leaves. A value is shown and an
error of the language is reported; anything else escapes. -/
inductive Answered (fragment : String) (s : State) : Except Halt String → State → Prop
  | value {v : Value} {text : String} {s' : State}
      (hr : (evalText mode limit fragment).result s = (.ok v, s')) (hv : v.render = .ok text) :
      Answered fragment s (.ok text) s'
  | notShown {v : Value} {cause : Error} {s' : State}
      (hr : (evalText mode limit fragment).result s = (.ok v, s'))
      (hv : v.render = .error cause) : Answered fragment s (.error (.failed cause)) s'
  | reported {cause : Error} {s' : State}
      (hr : (evalText mode limit fragment).result s = (.error (.failed cause), s'))
      (hc : cause.InLanguage) :
      Answered fragment s (.ok ("error: " ++ cause.message))
        { s' with trace := if mode.debug then s'.trace.push .failed else s'.trace }
  | escaped {cause : Error} {s' : State}
      (hr : (evalText mode limit fragment).result s = (.error (.failed cause), s'))
      (hc : ¬cause.InLanguage) : Answered fragment s (.error (.failed cause)) s'
  | exhausted {s' : State}
      (hr : (evalText mode limit fragment).result s = (.error .exhausted, s')) :
      Answered fragment s (.error .exhausted) s'

/-- Fragments are evaluated in turn, each in the state that the one before it has left, however that
one has ended. -/
inductive EvaluatedInTurn : State → List String → List (Except Halt String) → State → Prop
  | nil (s : State) : EvaluatedInTurn s [] [] s
  | cons {s s₁ s₂ : State} {fragment : String} {fragments : List String}
      {answer : Except Halt String} {answers : List (Except Halt String)}
      (h : Answered mode limit fragment s answer s₁)
      (rest : EvaluatedInTurn s₁ fragments answers s₂) :
      EvaluatedInTurn s (fragment :: fragments) (answer :: answers) s₂

variable {mode limit}

theorem result_report {cause : Error} (hc : cause.InLanguage) (s : State) :
    (Dialogue.report mode (.failed cause)).result s =
      (.ok ("error: " ++ cause.message),
        { s with trace := if mode.debug then s.trace.push .failed else s.trace }) := by
  rw [Dialogue.report, if_pos hc, Run.result_bind, Run.result_record]
  cases mode.debug <;> rfl

theorem answered_evalFragment (fragment : String) (s : State) :
    Answered mode limit fragment s ((Dialogue.evalFragment mode limit fragment).result s).1
      ((Dialogue.evalFragment mode limit fragment).result s).2 := by
  rw [Dialogue.evalFragment, Run.result_tryCatch, Dialogue.answer, Run.result_bind]
  rcases hr : (evalText mode limit fragment).result s with ⟨(cause | _) | v, s'⟩
  · dsimp only
    by_cases hc : cause.InLanguage
    · rw [result_report hc]
      exact .reported hr hc
    · rw [Dialogue.report, if_neg hc]
      exact .escaped hr hc
  · exact .exhausted hr
  · dsimp only
    cases hv : v.render with
    | ok text => exact .value hr hv
    | error cause =>
      -- no complaint about showing a value is reported
      dsimp only [Run.result_lift_error]
      rw [Dialogue.report, if_neg (Value.not_inLanguage_of_render hv)]
      exact .notShown hr hv

/-- A feed that completes a fragment evaluates it. -/
theorem answered_of_completed {d : Dialogue} {line fragment : String}
    (h : d.completed? line = some fragment) :
    ∃ answer s', Answered mode limit fragment d.state answer s' ∧
      d.feed mode limit line = (answer.map some, ⟨"", s'⟩) :=
  ⟨_, _, answered_evalFragment fragment d.state, Dialogue.feed_of_completed h⟩

/-- While lines are fed, the fragments are evaluated in turn and answered. -/
theorem evaluatedInTurn (d : Dialogue) (lines : List String) :
    EvaluatedInTurn mode limit d.state (d.handed mode limit lines)
      ((d.answers mode limit lines).map Prod.fst) (d.after mode limit lines).state := by
  induction lines generalizing d with
  | nil => exact .nil d.state
  | cons line lines ih =>
    rw [Dialogue.handed, Dialogue.answers, Dialogue.after]
    have hrest := ih (d.feed mode limit line).2
    cases hc : d.completed? line with
    | none =>
      rw [Dialogue.feed_of_not_completed hc] at hrest ⊢
      exact hrest
    | some fragment =>
      obtain ⟨answer, s', hanswered, hfeed⟩ := @answered_of_completed mode limit d line fragment hc
      rw [hfeed] at hrest ⊢
      rw [Dialogue.shown_map_some]
      exact .cons hanswered hrest

end Evaluation

/-- With a line that is not dropped, what is gathered is not blank. -/
theorem not_blank_append {buffer line : String} (hb : buffer = "" ∨ Text.allBlank buffer = false)
    (hd : ¬(buffer = "" ∧ Text.allBlank line = true)) : Text.allBlank (buffer ++ line) = false := by
  rw [allBlank_append]
  obtain rfl | hblank := hb
  · have hline : Text.allBlank line = false := Bool.eq_false_iff.mpr fun h => hd ⟨rfl, h⟩
    rw [hline, Bool.and_false]
  · rw [hblank, Bool.false_and]

/-- The lines are the shortest run that balances: it begins with a line that is not blank, and no
beginning of it balances. -/
structure Shortest (group : List String) : Prop where
  begins : ∃ first rest, group = first :: rest ∧ Text.allBlank first = false
  balanced : isBalanced (String.join group) = true
  shorter : ∀ front, front <+: group → front ≠ [] → front ≠ group →
    isBalanced (String.join front) = false

/-- The text gathered is that of these lines, which begin with one that is not blank, and no
beginning of them balances. -/
structure Gathers (buffer : String) (pending : List String) : Prop where
  text : buffer = String.join pending
  begins : ∀ first ∈ pending.head?, Text.allBlank first = false
  unbalanced : ∀ front, front <+: pending → front ≠ [] → isBalanced (String.join front) = false

namespace Gathers

variable {buffer line : String} {pending : List String}

theorem nothing : Gathers "" [] where
  text := rfl
  begins := by simp
  unbalanced := by
    intro front hf hne
    exact absurd (List.prefix_nil.mp hf) hne

/-- What is gathered is either nothing, or text that is not blank and does not balance. -/
theorem buffer_cases (h : Gathers buffer pending) :
    (buffer = "" ∧ pending = []) ∨
      (Text.allBlank buffer = false ∧ isBalanced buffer = false ∧ pending ≠ []) := by
  cases hp : pending with
  | nil =>
    rw [h.text, hp]
    exact .inl ⟨rfl, rfl⟩
  | cons first rest =>
    have hfirst := h.begins first (by rw [hp]; rfl)
    have hopen := h.unbalanced pending (List.prefix_refl _) (by rw [hp]; simp)
    rw [← h.text] at hopen
    refine .inr ⟨?_, hopen, by simp⟩
    rw [h.text, hp, String.join_cons, allBlank_append, hfirst, Bool.false_and]

/-- A line that is not dropped does not begin the lines with a blank one. -/
theorem begins_add (h : Gathers buffer pending)
    (hd : ¬(buffer = "" ∧ Text.allBlank line = true)) :
    ∃ first rest, pending ++ [line] = first :: rest ∧ Text.allBlank first = false := by
  cases hp : pending with
  | nil =>
    have hempty : buffer = "" := by rw [h.text, hp]; rfl
    refine ⟨line, [], rfl, ?_⟩
    exact Bool.eq_false_iff.mpr fun hb => hd ⟨hempty, hb⟩
  | cons first rest => exact ⟨first, rest ++ [line], rfl, h.begins first (by rw [hp]; rfl)⟩

theorem join_add (h : Gathers buffer pending) (line : String) :
    String.join (pending ++ [line]) = buffer ++ line := by
  rw [String.join_append, h.text, String.join_cons, String.join_nil, String.append_empty]

theorem add (h : Gathers buffer pending) (hd : ¬(buffer = "" ∧ Text.allBlank line = true))
    (hb : isBalanced (buffer ++ line) = false) : Gathers (buffer ++ line) (pending ++ [line]) where
  text := (h.join_add line).symm
  begins := by
    obtain ⟨first, rest, hcons, hfirst⟩ := h.begins_add hd
    rw [hcons]
    simpa using hfirst
  unbalanced := by
    intro front hf hne
    obtain rfl | hpending := List.prefix_concat_iff.mp hf
    · rw [h.join_add]
      exact hb
    · exact h.unbalanced front hpending hne

theorem shortest (h : Gathers buffer pending) (hd : ¬(buffer = "" ∧ Text.allBlank line = true))
    (hb : isBalanced (buffer ++ line) = true) : Shortest (pending ++ [line]) where
  begins := h.begins_add hd
  balanced := by
    rw [h.join_add]
    exact hb
  shorter := by
    intro front hf hne hproper
    obtain hwhole | hpending := List.prefix_concat_iff.mp hf
    · exact absurd hwhole hproper
    · exact h.unbalanced front hpending hne

open Dialogue in
/-- Feeding lines cuts what was gathered and the lines kept into groups, one for each fragment
evaluated, and the lines gathered at the end. -/
theorem feeding {d : Dialogue} (h : Gathers d.buffer pending) (mode : Mode) (limit : Limit)
    (lines : List String) :
    ∃ (groups : List (List String)) (rest : List String),
      pending ++ d.kept mode limit lines = groups.flatten ++ rest ∧
      d.handed mode limit lines = groups.map String.join ∧ (∀ group ∈ groups, Shortest group) ∧
      Gathers (d.after mode limit lines).buffer rest := by
  induction lines generalizing d pending with
  | nil => exact ⟨[], pending, by simp [kept], rfl, by simp, h⟩
  | cons line lines ih =>
    rw [kept, handed, after]
    by_cases hd : d.Drops line
    · rw [feed_of_blank hd.1 hd.2, completed?_of_drops hd, if_pos hd]
      exact ih h
    · rw [if_neg hd]
      cases hb : isBalanced (d.buffer ++ line) with
      | false =>
        rw [feed_of_not_balanced hd hb, completed?_of_not_balanced hb]
        have hmore := @ih (pending ++ [line]) ⟨d.buffer ++ line, d.state⟩ (h.add hd hb)
        simpa using hmore
      | true =>
        rw [feed_of_balanced hd hb, completed?_of_balanced hd hb]
        obtain ⟨groups, rest, hkept, hhanded, hgroups, hrest⟩ :=
          @ih [] ⟨"", ((evalFragment mode limit (d.buffer ++ line)).result d.state).2⟩ nothing
        refine ⟨(pending ++ [line]) :: groups, rest, ?_, ?_, ?_, hrest⟩
        · rw [List.nil_append] at hkept
          rw [hkept]
          simp
        · rw [hhanded, List.map_cons, h.join_add]
          rfl
        · rw [List.forall_mem_cons]
          exact ⟨h.shortest hd hb, hgroups⟩

end Gathers

theorem join_flatten (groups : List (List String)) :
    String.join groups.flatten = String.join (groups.map String.join) := by
  induction groups with
  | nil => rfl
  | cons group groups ih =>
    rw [List.flatten_cons, String.join_append, ih, List.map_cons, String.join_cons]

namespace Dialogue

/-- What the read loop holds between two lines. -/
theorem gathers_after (mode : Mode) (limit : Limit) (s : State) (lines : List String) :
    ∃ pending, Gathers ((⟨"", s⟩ : Dialogue).after mode limit lines).buffer pending := by
  obtain ⟨-, rest, -, -, -, h⟩ := Gathers.nothing.feeding (d := ⟨"", s⟩) mode limit lines
  exact ⟨rest, h⟩

end Dialogue

/-- Whatever lines are fed to a read loop that has gathered nothing, and however the evaluations
end: what is gathered is empty, or else not blank and not balanced; the fragments evaluated and
what is gathered make up the lines that were not dropped; each fragment is the shortest run of lines
that balances, counted from the end of the fragment before it. The answers and the state of the
session are those of evaluating these fragments in turn. The next feed evaluates the fragment that
its line completes, once, and nothing stays gathered then; or else it gives no answer and leaves the
session as it is. -/
theorem feeding_loses_and_repeats_nothing (mode : Mode) (limit : Limit) (s : State)
    (lines : List String) :
    let start : Dialogue := ⟨"", s⟩
    let d := start.after mode limit lines
    (d.buffer = "" ∨ (Text.allBlank d.buffer = false ∧ isBalanced d.buffer = false)) ∧
    String.join (start.handed mode limit lines) ++ d.buffer =
      String.join (start.kept mode limit lines) ∧
    (∃ (groups : List (List String)) (pending : List String),
      start.kept mode limit lines = groups.flatten ++ pending ∧
      start.handed mode limit lines = groups.map String.join ∧ d.buffer = String.join pending ∧
      (∀ group ∈ groups, Shortest group) ∧
      ∀ front, front <+: pending → front ≠ [] → isBalanced (String.join front) = false) ∧
    EvaluatedInTurn mode limit s (start.handed mode limit lines)
      ((start.answers mode limit lines).map Prod.fst) d.state ∧
    ∀ line,
      (∀ fragment, d.completed? line = some fragment →
        ∃ answer s', Answered mode limit fragment d.state answer s' ∧
          d.feed mode limit line = (answer.map some, ⟨"", s'⟩)) ∧
      (d.completed? line = none →
        d.feed mode limit line =
          (.ok none, ⟨if d.Drops line then d.buffer else d.buffer ++ line, d.state⟩)) ∧
      ((d.feed mode limit line).1 = .ok none → (d.feed mode limit line).2.state = d.state) := by
  intro start d
  obtain ⟨groups, pending, hkept, hhanded, hgroups, hgathers⟩ :=
    Gathers.nothing.feeding (d := start) mode limit lines
  rw [List.nil_append] at hkept
  refine ⟨?_, ?_, ?_, evaluatedInTurn start lines, ?_⟩
  · obtain ⟨hempty, -⟩ | ⟨hblank, hopen, -⟩ := hgathers.buffer_cases
    · exact .inl hempty
    · exact .inr ⟨hblank, hopen⟩
  · rw [hkept, hhanded, hgathers.text, String.join_append, join_flatten]
  · exact ⟨groups, pending, hkept, hhanded, hgathers.text, hgroups, hgathers.unbalanced⟩
  · intro line
    refine ⟨fun _ => answered_of_completed, Dialogue.feed_of_not_completed, fun hnone => ?_⟩
    rw [Dialogue.feed_of_not_completed (Dialogue.completed?_of_feed_none hnone)]

/-- The blank line counts inside the first fragment and not before it; the second fragment is
balanced although it cannot be read; the last line waits. -/
theorem blank_line_within_fragment_kept :
    let mode : Mode := ⟨false, 0, some 500, some 300⟩
    let start : Dialogue := ⟨"", ⟨Env.ofList [], "", #[]⟩⟩
    let lines := [" \n", "(print\n", " \n", "1)\n", ")\n", "(\n"]
    start.handed mode ⟨1, 900⟩ lines = ["(print\n \n1)\n", ")\n"] ∧
      (start.after mode ⟨1, 900⟩ lines).buffer = "(\n" ∧
      String.join (start.handed mode ⟨1, 900⟩ lines) ++ (start.after mode ⟨1, 900⟩ lines).buffer =
        String.join (start.kept mode ⟨1, 900⟩ lines) := by
  intro mode start lines
  have hmade := (feeding_loses_and_repeats_nothing mode ⟨1, 900⟩ ⟨Env.ofList [], "", #[]⟩ lines).2.1
  exact ⟨by decide +kernel, by decide +kernel, hmade⟩

end Lisplet
