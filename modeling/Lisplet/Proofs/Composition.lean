import Lisplet.Proofs.Agreement

/-!
# Scripts compose

Two scripts with a blank between them make one script. The blank ends a word that the first one may
end with, so the tokens of the whole are those of the two, and neither text reaches into the other.
Evaluating the whole then is evaluating the first and, if that has a value, the second one in the
world that it leaves; only the records count the expressions differently.
-/

namespace Lisplet

open Run

/-- A scanner that could stop here has the parts that it would deliver. -/
theorem Scan.delivers_of_fault {s : Scan} (h : s.finish.fault = none) :
    s.Delivers s.finish.items.reverse := by
  obtain ⟨position, ps, mode⟩ := s
  cases mode with
  | word chars => exact ⟨chars, rfl, by simp [Scan.finish]⟩
  | literal start chars | escape start chars => cases h

/-- Behind a complete text a blank ends the last word, and adds nothing. -/
theorem parts_append_blank {text : String} {c : Char} (hf : (parts text).fault = none)
    (hc : Text.isBlank c = true) :
    Settled (text ++ c.toString) ∧ parts (text ++ c.toString) = parts text := by
  have hscan : Scan.start.scanFrom (text ++ c.toString).toList =
      (Scan.start.scanFrom text.toList).step c := by
    rw [String.toList_append, Scan.scanFrom_append, Char.toString_eq_singleton,
      String.toList_singleton]
    rfl
  obtain ⟨hmode, hparts⟩ := (Scan.delivers_of_fault hf).blank hc
  refine ⟨by rw [Settled, hscan, hmode], ?_⟩
  rw [parts, hscan, (Scan.delivers_of_between hmode).finish, hparts, List.reverse_reverse]
  rw [← hf]
  rfl

section Reading

variable {limit : Limit} {front back : String} {c : Char} {xs ys : List Expr}

/-- Two complete texts with a blank between them have the tokens of both. -/
theorem tokens_append_blank {us vs : List Token} (hf : tokens front = .ofList us)
    (hb : tokens back = .ofList vs) (hc : Text.isBlank c = true) :
    tokens (front ++ c.toString ++ back) = .ofList (us ++ vs) := by
  obtain ⟨hsettled, hparts⟩ := parts_append_blank (tokens_eq_ofList_iff.mp hf).1 hc
  refine tokens_append hsettled ?_ hb
  rw [tokens, hparts]
  exact hf

theorem parseAllText_append (hf : parseAllText limit front = .ok xs)
    (hb : parseAllText limit back = .ok ys) (hc : Text.isBlank c = true) :
    parseAllText limit (front ++ c.toString ++ back) = .ok (xs ++ ys) := by
  obtain ⟨uss, hus, hxs⟩ := parseAllText_eq_ok_iff.mp hf
  obtain ⟨vss, hvs, hys⟩ := parseAllText_eq_ok_iff.mp hb
  refine parseAllText_eq_ok_iff.mpr ⟨uss ++ vss, ?_, List.rel_append hxs hys⟩
  rw [List.flatten_append]
  exact tokens_append_blank hus hvs hc

end Reading

section Evaluating

variable (mode : Mode)

theorem evalEach_append (last : Value) (xs ys : List Expr) :
    evalEach mode last (xs ++ ys) = evalEach mode last xs >>= fun v => evalEach mode v ys := by
  induction xs generalizing last with
  | nil => rfl
  | cons x xs ih => simp only [List.cons_append, evalEach, bind_assoc, ih]

/-- The value before them counts only if there are no expressions. -/
theorem evalEach_of_ne_nil {ys : List Expr} (h : ys ≠ []) (last last' : Value) :
    evalEach mode last ys = evalEach mode last' ys := by
  cases ys with
  | nil => exact absurd rfl h
  | cons y ys => rfl

variable {limit : Limit} {front back : String} {c : Char} {xs ys : List Expr}

/-- What evaluating the first script comes to decides about the whole, whose expressions go on in
the world that it leaves. -/
theorem evalScript_append (hf : parseAllText limit front = .ok xs)
    (hb : parseAllText limit back = .ok ys) (hc : Text.isBlank c = true) (s : State) :
    let first := (evalScript mode limit front).result s
    let whole := (evalScript mode limit (front ++ c.toString ++ back)).result s
    (∀ halt, first.1 = .error halt → whole.1 = .error halt ∧ whole.2.world = first.2.world) ∧
    ∀ v, first.1 = .ok v →
      whole.1 = ((evalEach mode v ys).result first.2).1 ∧
      whole.2.world = ((evalEach mode v ys).result first.2).2.world := by
  intro first whole
  obtain ⟨hanswer, hworld⟩ := evalScript_alike mode hf s
  obtain ⟨hanswer', hworld'⟩ := evalScript_alike mode (parseAllText_append hf hb hc) s
  rw [evalEach_append, result_bind] at hanswer' hworld'
  rcases hr : (evalEach mode .nil xs).result s with ⟨halt | u, t⟩
  · rw [hr] at hanswer hworld hanswer' hworld'
    refine ⟨fun halt' h => ?_, fun v h => ?_⟩
    · obtain rfl := Except.error.inj (hanswer.symm.trans h)
      exact ⟨hanswer', hworld'.trans hworld.symm⟩
    · cases hanswer.symm.trans h
  · rw [hr] at hanswer hworld hanswer' hworld'
    refine ⟨fun halt h => ?_, fun v h => ?_⟩
    · cases hanswer.symm.trans h
    · obtain rfl := Except.ok.inj (hanswer.symm.trans h)
      -- the records of the first script make no difference to the second one
      obtain ⟨hsame, hsame'⟩ :=
        ignoresRecords_evalEach mode (proper_of_parseAllText hb) u first.2 t hworld
      exact ⟨hanswer'.trans hsame.symm, hworld'.trans hsame'.symm⟩

end Evaluating

/-- Two scripts with a blank character between them are one script, of the expressions of both. It
has the effect of the first script followed by the second one in the same session: where the first
one does not end in a value, it ends in the same way and nothing of the second one is started; and
else it ends as the second one does, with the value of the first one if the second one is empty. -/
theorem scripts_compose (mode : Mode) {limit : Limit} {front back : String} {c : Char}
    {xs ys : List Expr} (hf : parseAllText limit front = .ok xs)
    (hb : parseAllText limit back = .ok ys) (hc : Text.isBlank c = true) :
    parseAllText limit (front ++ c.toString ++ back) = .ok (xs ++ ys) ∧
    ∀ s : State,
      let first := (evalScript mode limit front).result s
      let second := (evalScript mode limit back).result first.2
      let whole := (evalScript mode limit (front ++ c.toString ++ back)).result s
      (∀ halt, first.1 = .error halt →
        whole.1 = .error halt ∧ whole.2.world = first.2.world) ∧
      ∀ v, first.1 = .ok v →
        whole.2.world = second.2.world ∧
        (ys ≠ [] → whole.1 = second.1) ∧
        (ys = [] → second.1 = .ok .nil ∧ whole.1 = .ok v) := by
  refine ⟨parseAllText_append hf hb hc, fun s => ?_⟩
  intro first second whole
  obtain ⟨hhalts, hvalue⟩ := evalScript_append mode hf hb hc s
  refine ⟨hhalts, fun v hv => ?_⟩
  obtain ⟨hwhole, hworld⟩ := hvalue v hv
  obtain ⟨hsecond, hworld'⟩ := evalScript_alike mode hb first.2
  by_cases hys : ys = []
  · subst hys
    exact ⟨hworld.trans hworld'.symm, fun h => absurd rfl h, fun _ => ⟨hsecond, hwhole⟩⟩
  · rw [evalEach_of_ne_nil mode hys v .nil] at hwhole hworld
    exact ⟨hworld.trans hworld'.symm, fun _ => hwhole.trans hsecond.symm, fun h => absurd h hys⟩

/-- The first script ends with a word that the second one would go on with, were there no blank
between them; the second one prints before it fails. -/
theorem words_kept_apart :
    let mode : Mode := ⟨true, 0, some 500, some 300⟩
    let s : State := ⟨Env.ofList [("x", .integer 1), ("x2", .integer 7)], "", #[]⟩
    let whole := (evalScript mode ⟨2, 900⟩ ("(global y 5) x" ++ (Char.ofNat 0x3000).toString ++
      "2 (print y) (+ y true)")).result s
    whole.1 = .error (.failed (.kind "+" 2 (.value .integer) (.value .bool))) ∧
      whole.2.world.output = "5\n" := by
  intro mode s whole
  have hf : parseAllText ⟨2, 900⟩ "(global y 5) x" =
      .ok [.compound "global" [.symbol "y", .literal (.integer 5)], .symbol "x"] := rfl
  have hb : parseAllText ⟨2, 900⟩ "2 (print y) (+ y true)" =
      .ok [.literal (.integer 2), .compound "print" [.symbol "y"],
        .compound "+" [.symbol "y", .literal (.bool true)]] := rfl
  have hc : Text.isBlank (Char.ofNat 0x3000) = true := by decide
  have hfirst : ((evalScript mode ⟨2, 900⟩ "(global y 5) x").result s).1 = .ok (.integer 1) := by
    decide +kernel
  have hsecond : ((evalScript mode ⟨2, 900⟩ "2 (print y) (+ y true)").result
      ((evalScript mode ⟨2, 900⟩ "(global y 5) x").result s).2).1 =
        .error (.failed (.kind "+" 2 (.value .integer) (.value .bool))) := by decide +kernel
  have hprinted : ((evalScript mode ⟨2, 900⟩ "2 (print y) (+ y true)").result
      ((evalScript mode ⟨2, 900⟩ "(global y 5) x").result s).2).2.world.output = "5\n" := by
    decide +kernel
  obtain ⟨hworld, hanswer, -⟩ := ((scripts_compose mode hf hb hc).2 s).2 _ hfirst
  exact ⟨(hanswer (by simp)).trans hsecond, (congrArg World.output hworld).trans hprinted⟩

end Lisplet
