import Lisplet.Proofs.Adequacy
import Lisplet.Proofs.Printing
import Lisplet.Proofs.TextEvaluation

/-!
# A loop that counts

The loop prints a counter and adds one to it for as long as it is below a bound. One pass prints the
counter and binds the next one; the passes left are as many as the counter is below the bound, and
the last sum made is the bound itself, so no sum overflows. What holds of the environment around the
counter is not asked: other names may be bound to anything.
-/

namespace Lisplet

open Run

namespace Counting

/-- The loop as a program writes it, with the bound in decimal digits. -/
def source (bound : Int) : String :=
  "(while (< i " ++ bound.repr ++ ") (block (print i) (global i (+ i 1))))"

def condition (bound : Int) : Expr := .compound "<" [.symbol "i", .literal (.integer bound)]

def printing : Expr := .compound "print" [.symbol "i"]

def sum : Expr := .compound "+" [.symbol "i", .literal (.integer 1)]

def binding : Expr := .compound "global" [.symbol "i", sum]

def body : Expr := .compound "block" [printing, binding]

def loop (bound : Int) : Expr := .compound "while" [condition bound, body]

/-- The numbers from the first up to the bound, the bound left out, one to a line. -/
def printed (first bound : Int) : String :=
  asLines ((List.range (bound - first).toNat).map fun k : Nat => (first + k).repr)

theorem text_condition {bound : Int} (hb : Fits bound) :
    (condition bound).text =
      .ok ("(" ++ "<" ++ (" " ++ "i" ++ (" " ++ bound.repr ++ "")) ++ ")") := by
  simp only [condition, Expr.text, Expr.argsText, Value.render_integer hb]
  rfl

theorem text_loop {bound : Int} (hb : Fits bound) : (loop bound).text = .ok (source bound) := by
  have hbody : body.text = .ok "(block (print i) (global i (+ i 1)))" := by decide
  have htext : (loop bound).text =
      .ok ("(" ++ "while" ++
        (" " ++ ("(" ++ "<" ++ (" " ++ "i" ++ (" " ++ bound.repr ++ "")) ++ ")") ++
          (" " ++ "(block (print i) (global i (+ i 1)))" ++ "")) ++ ")") := by
    simp only [loop, Expr.text, Expr.argsText, text_condition hb, hbody]
    rfl
  rw [htext, source, Except.ok.injEq, ← String.toList_inj]
  simp [String.toList_append]

theorem isName_of_mem_names {bound : Int} : ∀ name ∈ (loop bound).names, IsName name := by
  intro name hn
  have hmem : name ∈ ["while", "<", "i", "block", "print", "i", "global", "i", "+", "i"] := hn
  have hall : ∀ n ∈ ["while", "<", "i", "block", "print", "i", "global", "i", "+", "i"],
      parts n = ⟨[n], none⟩ ∧ Token.classify n = .ok (.symbol n) := by decide
  obtain ⟨hparts, hclassify⟩ := hall name hmem
  exact ⟨hparts, _, hclassify, rfl⟩

/-- Where four levels are allowed, the text reads as the loop. -/
theorem parseText_source {limit : Limit} {bound : Int} (hdepth : 4 ≤ limit.depth)
    (hstack : 4 ≤ limit.stack) (hb : Fits bound) :
    parseText limit (source bound) = .ok (loop bound) := by
  have hone : Fits 1 := by decide
  have hproper : (loop bound).Proper :=
    ⟨⟨trivial, hb, trivial⟩,
      ⟨⟨trivial, trivial⟩, ⟨trivial, ⟨trivial, hone, trivial⟩, trivial⟩, trivial⟩, trivial⟩
  have hheight : (loop bound).height = 4 := rfl
  refine parseText_of_text hproper isName_of_mem_names (.inr ?_) (text_loop hb)
  rw [hheight]
  omega

section Passes

variable {mode : Mode} {level : Nat} {w : World} {n bound : Int}

theorem yields_counter (mode : Mode) (level : Nat) (hi : w.env.get? "i" = some (.integer n)) :
    Yields ((Expr.symbol "i").eval mode level) w (.ok (.integer n)) w := by
  rw [Expr.eval]
  exact .lookup hi

theorem yields_condition (hc : mode.Carries level (condition bound))
    (hi : w.env.get? "i" = some (.integer n)) :
    Yields ((condition bound).eval mode level) w (.ok (.bool (n < bound))) w := by
  have htwo : Operator.TakesTwo .less := trivial
  refine Expr.yields_of_perform .less hc (.two htwo _ _) ?_
  have hchecked : ∀ position m,
      Operator.Checked .less position (.ok (.integer m)) (.ok (.integer m)) := by
    intro position m
    refine .admitted fun kind hk => ?_
    obtain rfl := Option.some.inj hk
    rfl
  exact Operator.yields_operands htwo (yields_counter mode (level + 1) hi) (hchecked 1 n)
    (Yields.pure (Value.integer bound) w) (hchecked 2 bound) mode

theorem yields_printing (hc : mode.Carries level printing)
    (hi : w.env.get? "i" = some (.integer n)) (hn : Fits n) :
    Yields (printing.eval mode level) w (.ok .nil) (w.print (n.repr ++ "\n")) := by
  refine Expr.yields_of_perform .print hc (.print _) ?_
  refine (yields_counter mode (level + 1) hi).bind ?_
  rw [Value.render_integer hn]
  exact (Yields.print _ w).bind_pure fun _ => Value.nil

theorem yields_sum (hc : mode.Carries level sum) (hi : w.env.get? "i" = some (.integer n))
    (hn : Fits n) (hnext : Fits (n + 1)) :
    Yields (sum.eval mode level) w (.ok (.integer (n + 1))) w := by
  refine Expr.yields_of_perform .add hc (.fold .add _ _) ?_
  rw [Expr.arguments, Operator.perform_fold .add]
  refine Operator.yields_term_adds (yields_counter mode (level + 1) hi) (by omega) ?_
  refine Operator.yields_term_adds (n := 1) (.pure _ w) (by omega) ?_
  rw [Int.zero_add]
  exact .pure _ w

theorem yields_binding (hc : mode.Carries level binding)
    (hi : w.env.get? "i" = some (.integer n)) (hn : Fits n) (hnext : Fits (n + 1)) :
    Yields (binding.eval mode level) w (.ok .nil) (w.define "i" (.integer (n + 1))) := by
  refine Expr.yields_of_perform .global hc (.global _ _) ?_
  refine (yields_sum (Expr.carries_arg hc (by simp)) hi hn hnext).bind ?_
  have hproper : (Value.integer (n + 1)).Proper := hnext
  exact (Yields.define hproper mode "i" w).bind_pure fun _ => Value.nil

/-- One pass prints the counter and binds the next one. -/
theorem yields_body (hc : mode.Carries level body) (hi : w.env.get? "i" = some (.integer n))
    (hn : Fits n) (hnext : Fits (n + 1)) :
    Yields (body.eval mode level) w (.ok .nil)
      ((w.print (n.repr ++ "\n")).define "i" (.integer (n + 1))) := by
  refine Expr.yields_of_perform .block hc (.block _) ?_
  refine (yields_printing (Expr.carries_arg hc (by simp)) hi hn).bind ?_
  refine Yields.bind (yields_binding (Expr.carries_arg hc (by simp)) hi hn hnext) ?_
  exact Yields.pure Value.nil _

end Passes

/-- From one world to another the counter has gone from a number up to the bound: the numbers below
it have been printed, and no other binding has changed. -/
structure Counted (first bound : Int) (w w' : World) : Prop where
  output : w'.output = w.output ++ printed first bound
  counter : w'.env.get? "i" = some (.integer (max first bound))
  others : ∀ x, x ≠ "i" → w'.env.get? x = w.env.get? x
  names : w'.env.names = w.env.names

theorem printed_of_le {first bound : Int} (h : bound ≤ first) : printed first bound = "" := by
  rw [printed, show (bound - first).toNat = 0 by omega]
  rfl

theorem printed_of_lt {first bound : Int} (h : first < bound) :
    printed first bound = first.repr ++ "\n" ++ printed (first + 1) bound := by
  rw [printed, show (bound - first).toNat = (bound - (first + 1)).toNat + 1 by omega,
    List.range_succ_eq_map, List.map_cons, List.map_map, ← List.singleton_append, asLines_append,
    printed]
  have hshift : ((fun k : Nat => (first + k).repr) ∘ Nat.succ) =
      fun k : Nat => (first + 1 + k).repr := by
    funext k
    rw [Function.comp_apply, Nat.succ_eq_add_one,
      show first + ((k + 1 : Nat) : Int) = first + 1 + k by omega]
  rw [hshift]
  simp [asLines]

theorem mem_names_of_get? {env : Env} {name : String} {value : Value}
    (h : env.get? name = some value) : name ∈ env.names := by
  obtain ⟨front, back, hb, -⟩ := List.lookup_eq_some_iff.mp h
  rw [Env.names, hb]
  simp

namespace Counted

variable {first bound : Int} {w w' : World}

theorem done (h : bound ≤ first) (hi : w.env.get? "i" = some (.integer first)) :
    Counted first bound w w where
  output := by rw [printed_of_le h, String.append_empty]
  counter := by rw [hi, max_eq_left h]
  others := fun _ _ => rfl
  names := rfl

theorem pass (h : first < bound) (hi : w.env.get? "i" = some (.integer first))
    (hc : Counted (first + 1) bound
      ((w.print (first.repr ++ "\n")).define "i" (.integer (first + 1))) w') :
    Counted first bound w w' where
  output := by
    rw [hc.output, printed_of_lt h, ← String.append_assoc]
    rfl
  counter := by rw [hc.counter, max_eq_right (by omega), max_eq_right (by omega)]
  others := by
    intro x hx
    rw [hc.others x hx]
    exact w.env.get?_define_of_ne _ hx
  names := by
    rw [hc.names]
    change (w.env.define "i" _).names = w.env.names
    rw [Env.names_define, if_pos (mem_names_of_get? hi)]

end Counted

/-- With a pass for each number below the bound, the loop counts up to it. -/
theorem yields_looping {mode : Mode} {level : Nat} {bound first : Int} {w : World} {passes : Nat}
    (hc : mode.Carries level (condition bound)) (hb : mode.Carries level body) (hbound : Fits bound)
    (hfirst : Fits first) (hi : w.env.get? "i" = some (.integer first))
    (hpasses : (bound - first).toNat ≤ passes) :
    ∃ w', Yields (Operator.looping ⟨condition bound, (condition bound).eval mode level⟩
        ⟨body, body.eval mode level⟩ passes) w (.ok .nil) w' ∧ Counted first bound w w' := by
  -- the counter is nearer to the bound with each pass, and the passes left are enough for the rest
  induction passes generalizing first w with
  | zero =>
    have hle : bound ≤ first := by omega
    have hcond := yields_condition hc hi
    rw [decide_eq_false (Int.not_lt.mpr hle)] at hcond
    exact ⟨w, Operator.yields_loop_done hcond, .done hle hi⟩
  | succ passes ih =>
    have hcond := yields_condition hc hi
    by_cases hlt : first < bound
    · rw [decide_eq_true hlt] at hcond
      have hnext : Fits (first + 1) := by omega
      obtain ⟨w', hrest, hcounted⟩ := ih
        (w := (w.print (first.repr ++ "\n")).define "i" (.integer (first + 1))) hnext
        (w.env.get?_define_self "i" _) (by omega)
      exact ⟨w', Operator.yields_loop_again hcond (yields_body hb hi hfirst hnext) hrest,
        hcounted.pass hlt hi⟩
    · rw [decide_eq_false hlt] at hcond
      exact ⟨w, Operator.yields_loop_done hcond, .done (by omega) hi⟩

end Counting

open Counting in
/-- The text of the counting loop, evaluated where `i` is bound to an integer, ends with nil for
every bound of 32 bits, the greatest one included, as soon as its passes are not cut short. It
prints the numbers from that integer up to the bound, the bound left out, leaves `i` bound to the
greater of the two, and changes no other binding. -/
theorem counting_loop_reaches_bound {first bound : Int} (hfirst : Fits first) (hbound : Fits bound)
    {mode : Mode} {limit : Limit} (hdepth : 4 ≤ limit.depth) (hstack : 4 ≤ limit.stack)
    (hnesting : ∀ n ∈ mode.nesting, 4 ≤ n) (hshowing : ∀ n ∈ mode.showing, 4 ≤ n)
    (hpasses : (bound - first).toNat ≤ mode.passes) {s : State}
    (hi : s.env.get? "i" = some (.integer first)) :
    ∃ s', (evalText mode limit ("(while (< i " ++ bound.repr ++
        ") (block (print i) (global i (+ i 1))))")).result s = (.ok .nil, s') ∧
      s'.output = s.output ++
        asLines ((List.range (bound - first).toNat).map fun k : Nat => (first + k).repr) ∧
      s'.env.get? "i" = some (.integer (max first bound)) ∧
      (∀ x, x ≠ "i" → s'.env.get? x = s.env.get? x) ∧ s'.env.names = s.env.names := by
  have hcarries : mode.Carries 0 (loop bound) := hnesting
  obtain ⟨w', hlooping, hcounted⟩ := yields_looping (w := s.world)
    (Expr.carries_arg hcarries (by simp)) (Expr.carries_arg hcarries (by simp)) hbound hfirst hi
    hpasses
  have hloop : Yields ((loop bound).eval mode 0) s.world (.ok .nil) w' :=
    Expr.yields_of_perform .loop hcarries (.loop _ _) hlooping
  have htext : Yields (evalText mode limit (source bound)) s.world (.ok .nil) w' := by
    rw [evalText_of_ok (parseText_source hdepth hstack hbound),
      evalRead_of_text (fun _ => hshowing) (text_loop hbound)]
    exact (Yields.record mode _ s.world).bind hloop
  obtain ⟨s', hr, hs'⟩ := htext s rfl
  subst hs'
  exact ⟨s', hr, hcounted.output, hcounted.counter, hcounted.others, hcounted.names⟩

/-- Up to the greatest integer, and among other bindings. -/
theorem counting_ends_at_greatest :
    let mode : Mode := ⟨true, 2, some 500, some 300⟩
    let s : State :=
      ⟨Env.ofList [("n", .nil), ("i", .integer 2147483645), ("j", .bool true)], "> ", #[]⟩
    ∃ s', (evalText mode ⟨200, 900⟩
        "(while (< i 2147483647) (block (print i) (global i (+ i 1))))").result s = (.ok .nil, s') ∧
      s'.output = "> 2147483645\n2147483646\n" ∧
      s'.env.get? "i" = some (.integer 2147483647) ∧ s'.env.get? "j" = some (.bool true) ∧
      s'.env.names = ["n", "i", "j"] := by
  intro mode s
  have hnesting : ∀ n ∈ mode.nesting, 4 ≤ n := by
    intro n hn
    obtain rfl := Option.some.inj hn
    decide
  have hshowing : ∀ n ∈ mode.showing, 4 ≤ n := by
    intro n hn
    obtain rfl := Option.some.inj hn
    decide
  have hfirst : Fits 2147483645 := by decide
  have hbound : Fits 2147483647 := by decide
  obtain ⟨s', hr, houtput, hcounter, hothers, hnames⟩ :=
    @counting_loop_reaches_bound _ _ hfirst hbound mode ⟨200, 900⟩ (by decide) (by decide) hnesting
      hshowing (by decide) s (by decide)
  exact ⟨s', hr, houtput, hcounter, hothers "j" (by decide), hnames⟩

end Lisplet
