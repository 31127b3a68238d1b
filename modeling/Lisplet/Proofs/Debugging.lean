import Lisplet.Proofs.Adequacy
import Lisplet.Proofs.SessionInvariant
import Lisplet.Proofs.StackBounds

/-!
# Debugging only observes

With debugging on a name is bound only after its value has been shown, and a value that cannot be
shown is refused. So the two modes part where a foreign object is to be bound. No text brings one
about: what is read is proper, and among values of the language evaluation takes the same steps in
both modes. This is carried from one expression to texts and to scripts.

Making records takes a part of the stack, and the record of what was read shows all of it. So what
the stack carries in one mode it may not carry in the other, and the modes also part where the end
of the stack stops one of them.
-/

namespace Lisplet

open Run

section Texts

variable {mode mode' : Mode}

theorem coupled_evalEach {es : List Expr}
    (hes : ∀ e ∈ es, Coupled EqualButRecords Error.InLanguage Value.Proper (e.eval mode 0)
      (e.eval mode' 0)) {last : Value} (hlast : last.Proper) :
    Coupled EqualButRecords Error.InLanguage Value.Proper (evalEach mode last es)
      (evalEach mode' last es) := by
  induction es generalizing last with
  | nil => exact .pure hlast
  | cons e es ih =>
    rw [List.forall_mem_cons] at hes
    rw [evalEach, evalEach]
    exact hes.1.bind fun v hv => ih hes.2 hv

/-- An error comes from reading the text or is one of the language. -/
theorem coupled_evalText {limit : Limit} {source : String}
    (hread : ∀ e, parseText limit source = .ok e → (mode.Shows e ∧ mode'.Shows e) ∧
      Coupled EqualButRecords Error.InLanguage Value.Proper (e.eval mode 0) (e.eval mode' 0)) :
    Coupled EqualButRecords
      (fun cause => parseText limit source = .error cause ∨ cause.InLanguage) Value.Proper
      (evalText mode limit source) (evalText mode' limit source) := by
  cases hp : parseText limit source with
  | error cause =>
    rw [evalText_of_error hp, evalText_of_error hp]
    exact .fail (.inl rfl)
  | ok e =>
    obtain ⟨text, htext⟩ := text_of_parseText hp
    obtain ⟨⟨hshow, hshow'⟩, hcoupled⟩ := hread e hp
    rw [evalText_of_ok hp, evalText_of_ok hp, evalRead_of_text hshow htext,
      evalRead_of_text hshow' htext]
    refine (EqualButRecords.coupled_record mode mode' _).bind fun _ _ => ?_
    exact hcoupled.imp fun _ => .inr

theorem coupled_evalScript {limit : Limit} {source : String}
    (hread : ∀ es, parseAllText limit source = .ok es → ∀ e ∈ es,
      Coupled EqualButRecords Error.InLanguage Value.Proper (e.eval mode 0) (e.eval mode' 0)) :
    Coupled EqualButRecords
      (fun cause => parseAllText limit source = .error cause ∨ cause.InLanguage) Value.Proper
      (evalScript mode limit source) (evalScript mode' limit source) := by
  cases hp : parseAllText limit source with
  | error cause =>
    rw [evalScript_of_error hp, evalScript_of_error hp]
    exact .fail (.inl rfl)
  | ok es =>
    rw [evalScript_of_ok hp, evalScript_of_ok hp]
    refine (EqualButRecords.coupled_record mode mode' _).bind fun _ _ => ?_
    have hnil : Value.Proper .nil := trivial
    exact (coupled_evalEach (hread es hp) hnil).imp fun _ => .inr

/-- Where the stack carries the expression in both modes, it does not matter how much more it
carries. -/
theorem coupled_eval_of_carries (hpasses : mode.passes = mode'.passes) {e : Expr} (he : e.Proper)
    {level : Nat} (hc : mode.Carries level e) (hc' : mode'.Carries level e) :
    Coupled EqualButRecords Error.InLanguage Value.Proper (e.eval mode level)
      (e.eval mode' level) := by
  rw [Expr.eval_of_carries hc, Expr.eval_of_carries hc']
  exact @coupled_eval { mode with nesting := none } { mode' with nesting := none } e hpasses rfl he
    level

/-- With stacks that have no end the two modes differ in debugging only. -/
theorem coupled_eval_unbounded (hpasses : mode.passes = mode'.passes) {e : Expr} (he : e.Proper)
    (level : Nat) :
    Coupled EqualButRecords Error.InLanguage Value.Proper (e.eval mode.unbounded level)
      (e.eval mode'.unbounded level) :=
  @coupled_eval mode.unbounded mode'.unbounded e hpasses rfl he level

end Texts

/-- Two runs end in one way, with one environment and one output. -/
structure FinishAlike (r r' : Except Halt Value × State) : Prop where
  ending : r.1 = r'.1
  world : r.2.world = r'.2.world

/-- Two runs finish alike, unless the end of the stack has stopped one of them. -/
def FinishAlikeOrStopped (r r' : Except Halt Value × State) : Prop :=
  FinishAlike r r' ∨ StoppedByStack r ∨ StoppedByStack r'

theorem finishAlike_of_coupled {Cause : Error → Prop} {Q : Value → Prop} {run run' : Run Value}
    (h : Coupled EqualButRecords Cause Q run run') {s : State} (hs : s.env.Proper) :
    FinishAlike (run.result s) (run'.result s) := by
  have hcoupled := h s s ⟨rfl, hs⟩
  exact ⟨hcoupled.same, hcoupled.states.world⟩

/-- Two runs that the end of the stack cuts short are compared as if the stack had none. -/
theorem finishAlikeOrStopped_of_cutShort {run run' whole whole' : Run Value}
    (h : CutShort run whole) (h' : CutShort run' whole') {s : State}
    (halike : FinishAlike (whole.result s) (whole'.result s)) :
    FinishAlikeOrStopped (run.result s) (run'.result s) := by
  obtain hsame | hstopped := h s
  · obtain hsame' | hstopped' := h' s
    · rw [hsame, hsame']
      exact .inl halike
    · exact .inr (.inr hstopped')
  · exact .inr (.inl hstopped)

section Modes

variable {on off : Mode} {s : State}

theorem evaluations_finish_alike (hpasses : on.passes = off.passes) (hs : s.env.Proper) {e : Expr}
    (he : e.Proper) (level : Nat) :
    FinishAlikeOrStopped ((e.eval on level).result s) ((e.eval off level).result s) :=
  finishAlikeOrStopped_of_cutShort (e.cutShort_eval on level) (e.cutShort_eval off level)
    (finishAlike_of_coupled (coupled_eval_unbounded hpasses he level) hs)

theorem texts_finish_alike (hpasses : on.passes = off.passes) (hs : s.env.Proper) (limit : Limit)
    (source : String) :
    FinishAlikeOrStopped ((evalText on limit source).result s)
      ((evalText off limit source).result s) := by
  refine finishAlikeOrStopped_of_cutShort (cutShort_evalText on limit source)
    (cutShort_evalText off limit source) (finishAlike_of_coupled (coupled_evalText ?_) hs)
  intro e hp
  have hshows : ∀ mode : Mode, mode.unbounded.Shows e := fun _ _ _ hb => nomatch hb
  exact ⟨⟨hshows on, hshows off⟩, coupled_eval_unbounded hpasses (parseText_inv hp).2.2.1 0⟩

theorem scripts_finish_alike (hpasses : on.passes = off.passes) (hs : s.env.Proper) (limit : Limit)
    (source : String) :
    FinishAlikeOrStopped ((evalScript on limit source).result s)
      ((evalScript off limit source).result s) := by
  refine finishAlikeOrStopped_of_cutShort (cutShort_evalScript on limit source)
    (cutShort_evalScript off limit source) (finishAlike_of_coupled (coupled_evalScript ?_) hs)
  intro es hp e he
  exact coupled_eval_unbounded hpasses (proper_of_parseAllText hp e he) 0

end Modes

/-- From an environment of proper values, evaluation with debugging on and with debugging off
finishes alike, unless the end of the stack stops one of the two: every proper expression, every
text read as one expression, and every script. What the stack carries in both modes, and in the one
shows, finishes alike; so does what cannot be read. And only a foreign object is refused with
debugging on, before it is bound, and bound without. -/
theorem debugging_only_observes {on off : Mode} (hon : on.debug = true) (hoff : off.debug = false)
    (hpasses : on.passes = off.passes) {s : State} (hs : s.env.Proper) :
    (∀ (e : Expr) (level : Nat), e.Proper →
      FinishAlikeOrStopped ((e.eval on level).result s) ((e.eval off level).result s) ∧
      (on.Carries level e ∧ off.Carries level e →
        FinishAlike ((e.eval on level).result s) ((e.eval off level).result s))) ∧
    (∀ (limit : Limit) (source : String),
      FinishAlikeOrStopped ((evalText on limit source).result s)
        ((evalText off limit source).result s) ∧
      ((∀ e, parseText limit source = .ok e →
          on.Shows e ∧ on.Carries 0 e ∧ off.Carries 0 e) →
        FinishAlike ((evalText on limit source).result s)
          ((evalText off limit source).result s))) ∧
    (∀ (limit : Limit) (source : String),
      FinishAlikeOrStopped ((evalScript on limit source).result s)
        ((evalScript off limit source).result s) ∧
      ((∀ es, parseAllText limit source = .ok es →
          ∀ e ∈ es, on.Carries 0 e ∧ off.Carries 0 e) →
        FinishAlike ((evalScript on limit source).result s)
          ((evalScript off limit source).result s))) ∧
    ∀ (x : String) (object : Foreign),
      (define on x (.foreign object)).result s =
        (.error (.failed (.notAValue object.shown)), s) ∧
      (define off x (.foreign object)).result s =
        (.ok (), { s with env := s.env.define x (.foreign object) }) := by
  refine ⟨?_, ?_, ?_, ?_⟩
  · intro e level he
    refine ⟨evaluations_finish_alike hpasses hs he level, fun ⟨hc, hc'⟩ => ?_⟩
    exact finishAlike_of_coupled (coupled_eval_of_carries hpasses he hc hc') hs
  · intro limit source
    refine ⟨texts_finish_alike hpasses hs limit source, fun hcarried => ?_⟩
    refine finishAlike_of_coupled (coupled_evalText fun e hp => ?_) hs
    obtain ⟨hshow, hc, hc'⟩ := hcarried e hp
    have hshow' : off.Shows e := by
      intro hdebug
      rw [hoff] at hdebug
      cases hdebug
    exact ⟨⟨hshow, hshow'⟩, coupled_eval_of_carries hpasses (parseText_inv hp).2.2.1 hc hc'⟩
  · intro limit source
    refine ⟨scripts_finish_alike hpasses hs limit source, fun hcarried => ?_⟩
    refine finishAlike_of_coupled (coupled_evalScript fun es hp e he => ?_) hs
    obtain ⟨hc, hc'⟩ := hcarried es hp e he
    exact coupled_eval_of_carries hpasses (proper_of_parseAllText hp e he) hc hc'
  · intro x object
    exact ⟨result_define_of_refused hon rfl x s, result_define_of_not_debug hoff x _ s⟩

/-- The script binds, prints and then fails. With debugging on it also leaves records, among them
the value bound. -/
theorem records_are_all_that_debugging_adds :
    let on : Mode := ⟨true, 0, some 480, some 325⟩
    let off : Mode := ⟨false, 0, some 485, some 325⟩
    let s : State := ⟨Env.ofList [("y", .integer 7)], "", #[]⟩
    let run := fun mode =>
      (evalScript mode ⟨200, 980⟩ "(global x \"a\") (print x) (+ y x)").result s
    (run off).1 = .error (.failed (.kind "+" 2 (.value .integer) (.value .string))) ∧
    (run off).2.trace = #[] ∧ .defined "x" "\"a\"" ∈ (run on).2.trace ∧
    FinishAlike (run on) (run off) := by
  intro on off s run
  have hs : s.env.Proper := by
    unfold Env.Proper
    decide
  have hcarried : ∀ es, parseAllText ⟨200, 980⟩ "(global x \"a\") (print x) (+ y x)" = .ok es →
      ∀ e ∈ es, on.Carries 0 e ∧ off.Carries 0 e := by
    intro es hp
    have hread : parseAllText ⟨200, 980⟩ "(global x \"a\") (print x) (+ y x)" = .ok
        [.compound "global" [.symbol "x", .literal (.string "a")],
          .compound "print" [.symbol "x"], .compound "+" [.symbol "y", .symbol "x"]] := by
      decide +kernel
    obtain rfl := Except.ok.inj (hread.symm.trans hp)
    decide
  refine ⟨by decide +kernel, by decide +kernel, by decide +kernel, ?_⟩
  exact ((@debugging_only_observes on off rfl rfl rfl s hs).2.2.1 ⟨200, 980⟩ _).2
    hcarried

namespace Blocks

/-- A string in as many blocks as given, each of which has the string in front of it. -/
def blocks : Nat → Expr
  | 0 => .literal (.string "a")
  | n + 1 => .compound "block" [.literal (.string "a"), blocks n]

/-- The text that a program has for the blocks. -/
def source : Nat → String
  | 0 => "\"a\""
  | n + 1 => "(block \"a\" " ++ source n ++ ")"

theorem text_blocks (n : Nat) : (blocks n).text = .ok (source n) := by
  induction n with
  | zero => rfl
  | succ n ih =>
    have htext : (blocks (n + 1)).text = .ok ("(" ++ "block" ++
        (" " ++ "\"a\"" ++ (" " ++ source n ++ "")) ++ ")") := by
      simp only [blocks, Expr.text, Expr.argsText, ih]
      rfl
    rw [htext, source, Except.ok.injEq, ← String.toList_inj]
    simp [String.toList_append]

theorem height_blocks (n : Nat) : (blocks n).height = n := by
  induction n with
  | zero => rfl
  | succ n ih => simp [blocks, Expr.height, Expr.argsHeight, ih]

theorem proper_blocks (n : Nat) : (blocks n).Proper := by
  induction n with
  | zero => trivial
  | succ n ih => exact ⟨trivial, ih, trivial⟩

theorem isName_of_mem_names (n : Nat) : ∀ name ∈ (blocks n).names, IsName name := by
  induction n with
  | zero => exact fun name hn => absurd hn List.not_mem_nil
  | succ n ih =>
    have hnames : (blocks (n + 1)).names = "block" :: (blocks n).names := by
      simp [blocks, Expr.names, Expr.argsNames]
    rw [hnames, List.forall_mem_cons]
    exact ⟨⟨by decide, .symbol "block", by decide, rfl⟩, ih⟩

theorem parseText_source {limit : Limit} {n : Nat} (hdepth : n ≤ limit.depth)
    (hstack : n ≤ limit.stack) : parseText limit (source n) = .ok (blocks n) := by
  refine parseText_of_text (proper_blocks n) (isName_of_mem_names n) (.inr ?_) (text_blocks n)
  rw [height_blocks]
  omega

/-- The blocks have the value of the string and change nothing. -/
theorem yields_blocks {mode : Mode} {level n : Nat} (hc : mode.Carries level (blocks n))
    (w : World) : Yields ((blocks n).eval mode level) w (.ok (.string "a")) w := by
  induction n generalizing level with
  | zero => exact .pure (Value.string "a") w
  | succ n ih =>
    refine Expr.yields_of_perform .block hc (.block _) ?_
    refine (Yields.pure (Value.string "a") w).bind ?_
    exact (ih (Expr.carries_arg hc (by simp))).bind (.pure (Value.string "a") w)

/-- Blocks that the stack does not carry are refused where it ends. -/
theorem stopped_blocks {mode : Mode} {bound : Nat} (hb : mode.nesting = some bound)
    {level n : Nat} (hlevel : level ≤ bound) (hn : bound < level + n) (s : State) :
    (((blocks n).eval mode level).result s).1 = .error (.failed .nestedTooDeeply) := by
  induction n generalizing level s with
  | zero => omega
  | succ n ih =>
    by_cases hend : bound ≤ level
    · rw [blocks, Expr.eval, if_pos (by simpa [hb] using hend)]
      rfl
    · obtain ⟨s₁, -, hrun⟩ := record_bind mode (.applied "block" 2)
        (fun _ => (blocks n).eval mode (level + 1)) s
      have hinner := @ih (level + 1) (by omega) (by omega) s₁
      rw [← hrun] at hinner
      rw [blocks, Expr.eval, if_neg (by simpa [hb] using hend)]
      change ((record mode (.applied "block" 2) >>= fun _ =>
        (blocks n).eval mode (level + 1) >>= pure).result s).1 = _
      simpa only [bind_pure] using hinner

theorem carries_blocks {mode : Mode} {n bound : Nat} (hb : mode.nesting = some bound)
    (hn : n ≤ bound) : mode.Carries 0 (blocks n) := by
  intro bound' hb'
  obtain rfl := Option.some.inj (hb.symm.trans hb')
  rw [height_blocks]
  omega

theorem evaluates {mode : Mode} {n : Nat} (hc : mode.Carries 0 (blocks n)) (s : State) :
    (((blocks n).eval mode 0).result s).1 = .ok (.string "a") := by
  obtain ⟨s', hr, -⟩ := yields_blocks hc s.world s rfl
  rw [hr]
  rfl

theorem text_evaluates {mode : Mode} {limit : Limit} {n : Nat} (hdepth : n ≤ limit.depth)
    (hstack : n ≤ limit.stack) (hm : mode.debug = false) (hc : mode.Carries 0 (blocks n))
    (s : State) : ((evalText mode limit (source n)).result s).1 = .ok (.string "a") := by
  have hshow : mode.Shows (blocks n) := fun hdebug => absurd hdebug (by rw [hm]; decide)
  obtain ⟨s₁, -, hrun⟩ :=
    record_bind mode (.parsed (source n)) (fun _ => (blocks n).eval mode 0) s
  rw [evalText_of_ok (parseText_source hdepth hstack), evalRead_of_text hshow (text_blocks n), hrun]
  exact evaluates hc s₁

theorem text_not_shown {mode : Mode} {limit : Limit} {n bound : Nat} (hdepth : n ≤ limit.depth)
    (hstack : n ≤ limit.stack) (hm : mode.debug = true) (hb : mode.showing = some bound)
    (hn : bound < n) (s : State) :
    ((evalText mode limit (source n)).result s).1 = .error (.failed .stackExhausted) := by
  have hnot : ¬mode.Shows (blocks n) := by
    intro h
    have hheight := h hm bound hb
    rw [height_blocks] at hheight
    omega
  rw [evalText_of_ok (parseText_source hdepth hstack), evalRead_of_not_shows hnot]
  rfl

end Blocks

/-- The stack tells the modes apart. Making records, it has no room for showing a text of 340 blocks
that it evaluates, nor for evaluating a tree of 484 blocks. -/
theorem stack_tells_modes_apart :
    let on : Mode := ⟨true, 0, some 480, some 325⟩
    let off : Mode := ⟨false, 0, some 485, some 325⟩
    let s : State := ⟨.empty, "", #[]⟩
    s.env.Proper ∧ (Blocks.blocks 484).Proper ∧
    ((evalText off ⟨400, 987⟩ (Blocks.source 340)).result s).1 = .ok (.string "a") ∧
    ((evalText on ⟨400, 987⟩ (Blocks.source 340)).result s).1 = .error (.failed .stackExhausted) ∧
    (((Blocks.blocks 484).eval off 0).result s).1 = .ok (.string "a") ∧
    (((Blocks.blocks 484).eval on 0).result s).1 = .error (.failed .nestedTooDeeply) := by
  intro on off s
  have hs : s.env.Proper := by
    unfold Env.Proper
    decide
  refine ⟨hs, Blocks.proper_blocks 484, ?_, ?_, ?_, ?_⟩
  · exact Blocks.text_evaluates (by decide) (by decide) rfl
      (Blocks.carries_blocks rfl (by decide)) s
  · exact Blocks.text_not_shown (by decide) (by decide) rfl rfl (by decide) s
  · exact Blocks.evaluates (Blocks.carries_blocks rfl (by decide)) s
  · exact Blocks.stopped_blocks rfl (Nat.zero_le _) (by decide) s

end Lisplet
