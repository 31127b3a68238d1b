import Lisplet.Proofs.Language
import Lisplet.Proofs.Inheritance
import Mathlib.Data.List.Forall2

/-!
# Evaluation does its deeds

The world that evaluation leaves is made from the one before by its deeds, `Expr.deeds`, and by
nothing else: `Expr.done_eval`. Every binding listed has been made and every value listed printed,
in the order listed, wherever evaluation stops. Among values of the language the deeds are done with
such values and are the same in both modes: `Expr.deeds_alike`.
-/

namespace Lisplet

open Run

/-- Binds names in turn. -/
def Env.defineAll (env : Env) (made : List (String × Value)) : Env :=
  made.foldl (fun env b => env.define b.1 b.2) env

/-- The texts one to a line. -/
def asLines (texts : List String) : String := String.join (texts.map (· ++ "\n"))

theorem asLines_append (front back : List String) :
    asLines (front ++ back) = asLines front ++ asLines back := by
  rw [asLines, List.map_append, String.join_append]
  rfl

/-- The name that the record says is bound. -/
def Record.bound? : Record → Option String
  | .defined name _ => some name
  | _ => none

/-- The names that the records say have been bound, in their order. -/
def State.recorded (s : State) : List String := s.trace.toList.filterMap Record.bound?

theorem State.recorded_push (s : State) (r : Record) (env : Env) :
    State.recorded ⟨env, s.output, s.trace.push r⟩ = s.recorded ++ r.bound?.toList := by
  rw [State.recorded, Array.toList_push, List.filterMap_append]
  cases r <;> rfl

/-- From one state to the other the deeds have been done, and nothing else to the world: the
bindings have been made, and the values printed stand on the output, each rendered on a line of its
own. With debugging on the records name the bindings. -/
structure Done (mode : Mode) (deeds : List Deed) (s s' : State) : Prop where
  env : s'.env = s.env.defineAll (deeds.filterMap Deed.bound?)
  output : ∃ texts, List.Forall₂ (fun v text => v.render = .ok text)
    (deeds.filterMap Deed.printed?) texts ∧ s'.output = s.output ++ asLines texts
  recorded : mode.debug = true →
    s'.recorded = s.recorded ++ (deeds.filterMap Deed.bound?).map Prod.fst

namespace Done

variable {mode : Mode} {s s₁ s₂ : State}

theorem nil (s : State) : Done mode [] s s where
  env := rfl
  output := ⟨[], .nil, String.append_empty.symm⟩
  recorded _ := (List.append_nil _).symm

theorem append {front back : List Deed} (h : Done mode front s s₁) (h' : Done mode back s₁ s₂) :
    Done mode (front ++ back) s s₂ where
  env := by
    rw [List.filterMap_append, Env.defineAll, List.foldl_append, h'.env, h.env]
    rfl
  output := by
    obtain ⟨texts, htexts, houtput⟩ := h.output
    obtain ⟨more, hmore, hadded⟩ := h'.output
    refine ⟨texts ++ more, ?_, ?_⟩
    · rw [List.filterMap_append]
      exact List.rel_append htexts hmore
    · rw [hadded, houtput, asLines_append, String.append_assoc]
  recorded hm := by
    rw [h'.recorded hm, h.recorded hm, List.filterMap_append, List.map_append, List.append_assoc]

theorem print {v : Value} {text : String} (htext : v.render = .ok text) (s : State) :
    Done mode [.printed v] s { s with output := s.output ++ (text ++ "\n") } where
  env := rfl
  output := by
    refine ⟨[text], .cons htext .nil, ?_⟩
    rw [asLines, List.map_singleton, String.join_cons, String.join_nil, String.append_empty]
  recorded _ := (List.append_nil _).symm

/-- A binding is made and, with debugging on, recorded; or it is refused and nothing is done. -/
theorem define (mode : Mode) (x : String) (v : Value) (s : State) :
    Done mode (Deeds.binding mode x v s) s ((Run.define mode x v).result s).2 := by
  cases hm : mode.debug with
  | false =>
    rw [Deeds.binding, Deeds.after, result_define_of_not_debug hm]
    refine ⟨rfl, ⟨[], .nil, String.append_empty.symm⟩, fun hdebug => ?_⟩
    rw [hm] at hdebug
    cases hdebug
  | true =>
    cases hv : v.render with
    | ok shown =>
      rw [Deeds.binding, Deeds.after, result_define_of_render hv, if_pos hm]
      exact ⟨rfl, ⟨[], .nil, String.append_empty.symm⟩, fun _ => State.recorded_push s _ _⟩
    | error cause =>
      rw [Deeds.binding, Deeds.after, result_define_of_refused hm hv]
      exact .nil s

theorem record (f : String) (n : Nat) (s : State) :
    Done mode [] s ((Run.record mode (.applied f n)).result s).2 := by
  rw [result_record]
  split
  case isTrue =>
    refine ⟨rfl, ⟨[], .nil, String.append_empty.symm⟩, fun _ => ?_⟩
    exact State.recorded_push s (.applied f n) s.env
  case isFalse => exact .nil s

end Done

/-- The run does these deeds, each of which is of the kind given, and has a value of the kind given
if it has one. -/
def Run.Does (mode : Mode) (D : Deed → Prop) {α : Type} (Q : α → Prop) (run : Run α)
    (deeds : Deeds) : Prop :=
  ∀ s : State, Done mode (deeds s) s (run.result s).2 ∧ (∀ d ∈ deeds s, D d) ∧
    ∀ a, (run.result s).1 = .ok a → Q a

namespace Run.Does

variable {mode : Mode} {D : Deed → Prop} {α β : Type} {P : α → Prop} {Q : β → Prop} {run : Run α}
  {next : α → Run β} {first : Deeds} {nexts : α → Deeds}

theorem of_stateless {r : Except Halt α} (h : ∀ s, run.result s = (r, s))
    (hr : ∀ a, r = .ok a → P a) : Does mode D P run .nothing := by
  intro s
  rw [h]
  exact ⟨.nil s, fun d hd => absurd hd List.not_mem_nil, hr⟩

theorem bind (h : Does mode D P run first) (hnext : ∀ a, P a → Does mode D Q (next a) (nexts a)) :
    Does mode D Q (run >>= next) (first.followed run nexts) := by
  intro s
  obtain ⟨hdone, hkind, hvalue⟩ := h s
  rw [result_bind, Deeds.followed, Deeds.after]
  rcases hr : run.result s with ⟨halt | a, s₁⟩
  · rw [hr] at hdone
    rw [List.append_nil]
    refine ⟨hdone, hkind, fun b hb => ?_⟩
    cases hb
  · rw [hr] at hdone hvalue
    obtain ⟨hmore, hkinds, hvalues⟩ := hnext a (hvalue a rfl) s₁
    exact ⟨hdone.append hmore, List.forall_mem_append.mpr ⟨hkind, hkinds⟩, hvalues⟩

end Run.Does

/-- Evaluation does its deeds, if each is of a kind that goes with its place. -/
theorem traversal_does (mode : Mode) {Site : Expr → Prop} {D : Deed → Prop}
    (hbound : ∀ x a v, Site (.compound (Operator.name .global) [.symbol x, a]) → D (.bound x v))
    (hprinted : ∀ a v, Site (.compound (Operator.name .print) [a]) → D (.printed v)) :
    Traversal mode mode Site (fun _ => True) (fun _ => True)
      fun Q run _ deeds _ => Does mode D Q run deeds where
  toVocabulary := .any Site
  passes := rfl
  lift {α Q r} hr := by
    cases r with
    | ok a =>
      refine .of_stateless (result_pure a) fun b hb => ?_
      cases hb
      exact hr
    | error cause => exact .of_stateless (result_fail cause) fun b hb => nomatch hb
  exhausted := .of_stateless (result_throw _) fun b hb => nomatch hb
  bind h hnext := h.bind hnext
  lookup {x} _ := by
    intro s
    refine ⟨?_, fun d hd => absurd hd List.not_mem_nil, fun _ _ => trivial⟩
    rw [result_lookup]
    split <;> exact .nil s
  define {x a v} hs _ := by
    intro s
    refine ⟨.define mode x v s, fun d hd => ?_, fun _ _ => trivial⟩
    rw [Deeds.binding, Deeds.after] at hd
    split at hd
    · rw [List.mem_singleton] at hd
      exact hd ▸ hbound x a v hs
    · cases hd
  print {a v text} hs _ htext := by
    intro s
    refine ⟨.print htext s, fun d hd => ?_, fun _ _ => trivial⟩
    rw [List.mem_singleton] at hd
    exact hd ▸ hprinted a v hs
  record {f args} _ := by
    intro s
    exact ⟨.record f args.length s, fun d hd => absurd hd List.not_mem_nil, fun _ _ => trivial⟩

namespace Expr

/-- What evaluation does is done, whatever the expression and the state. -/
theorem done_eval (mode : Mode) (level : Nat) (e : Expr) (s : State) :
    Done mode (e.deeds mode level s) s ((e.eval mode level).result s).2 := by
  have htraversal := @traversal_does mode (fun _ => True) (fun _ => True)
    (fun _ _ _ _ => trivial) fun _ _ _ => trivial
  have hdoes := htraversal.eval_of_nesting_eq rfl (fun _ => trivial) e (fun _ _ => trivial) level
  exact (hdoes s).1

end Expr

/-- From states that hold values of the language and differ in their records at most, two runs end
alike and do the same, with values of the language. -/
def Run.DoAlike (Site : Expr → Prop) {α : Type} (Q : α → Prop) (run run' : Run α)
    (deeds deeds' : Deeds) : Prop :=
  Coupled EqualButRecords (Blames Site fun _ => True) Q run run' ∧
    ∀ s t, EqualButRecords s t → deeds s = deeds' t ∧ ∀ d ∈ deeds s, d.value.Proper

namespace Run.DoAlike

variable {Site : Expr → Prop} {α β : Type} {P : α → Prop} {Q : β → Prop} {run run' : Run α}
  {next next' : α → Run β} {first first' : Deeds} {nexts nexts' : α → Deeds}

theorem of_coupled (h : Coupled EqualButRecords (Blames Site fun _ => True) P run run') :
    DoAlike Site P run run' .nothing .nothing :=
  ⟨h, fun _ _ _ => ⟨rfl, fun _ hd => absurd hd List.not_mem_nil⟩⟩

theorem bind (h : DoAlike Site P run run' first first')
    (hnext : ∀ a, P a → DoAlike Site Q (next a) (next' a) (nexts a) (nexts' a)) :
    DoAlike Site Q (run >>= next) (run' >>= next') (first.followed run nexts)
      (first'.followed run' nexts') := by
  obtain ⟨hcoupled, hdeeds⟩ := h
  refine ⟨hcoupled.bind fun a ha => (hnext a ha).1, fun s t hst => ?_⟩
  obtain ⟨hsame, hstates, hvalue, -⟩ := hcoupled s t hst
  obtain ⟨hfirst, hproper⟩ := hdeeds s t hst
  rw [Deeds.followed, Deeds.followed, Deeds.after, Deeds.after, ← hfirst, List.forall_mem_append]
  rcases hs : run.result s with ⟨r, s₁⟩
  rcases ht : run'.result t with ⟨r', t₁⟩
  rw [hs, ht] at hsame hstates
  rw [hs] at hvalue
  obtain rfl : r = r' := hsame
  cases r with
  | error halt => exact ⟨rfl, hproper, fun _ hd => absurd hd List.not_mem_nil⟩
  | ok a =>
    obtain ⟨hmore, hpropers⟩ := (hnext a (hvalue a rfl)).2 s₁ t₁ hstates
    exact ⟨congrArg (first s ++ ·) hmore, hproper, hpropers⟩

end Run.DoAlike

/-- Modes that differ in debugging only do the same. -/
theorem traversal_doAlike {mode mode' : Mode} (hpasses : mode.passes = mode'.passes)
    (hnesting : mode.nesting = mode'.nesting) {Site : Expr → Prop}
    (hsite : ∀ n, Site n → n.Proper) :
    Traversal mode mode' Site Value.Proper (Blames Site fun _ => True) (DoAlike Site) where
  toVocabulary := .blames hsite
  passes := hpasses
  lift hr := .of_coupled (.lift hr)
  exhausted := .of_coupled .exhausted
  bind h hnext := h.bind hnext
  lookup hs := .of_coupled ((EqualButRecords.coupling hpasses hnesting hsite).lookup hs)
  define {x a v} hs hv := by
    refine ⟨(EqualButRecords.coupling hpasses hnesting hsite).define hs hv, fun s t _ => ?_⟩
    obtain ⟨shown, hshown⟩ := Value.render_of_proper hv
    rw [Deeds.binding, Deeds.binding, Deeds.after, Deeds.after, result_define_of_render hshown,
      result_define_of_render hshown, List.forall_mem_singleton]
    exact ⟨rfl, hv⟩
  print {a v text} hs hv htext := by
    refine ⟨(EqualButRecords.coupling hpasses hnesting hsite).print hs hv htext, fun s t _ => ?_⟩
    rw [List.forall_mem_singleton]
    exact ⟨rfl, hv⟩
  record hs := .of_coupled ((EqualButRecords.coupling hpasses hnesting hsite).record hs)

/-- Among values of the language the deeds are the same whether or not debugging is on, and done
with such values. -/
theorem Expr.deeds_alike {mode mode' : Mode} (hpasses : mode.passes = mode'.passes)
    (hnesting : mode.nesting = mode'.nesting) {e : Expr} (he : e.Proper) (level : Nat) {s : State}
    (hs : s.env.Proper) :
    e.deeds mode level s = e.deeds mode' level s ∧
      ∀ d ∈ e.deeds mode level s, d.value.Proper := by
  have htraversal := traversal_doAlike hpasses hnesting fun _ => e.proper_of_mem_nodes he
  have halike := htraversal.eval_of_nesting_eq hnesting .nested e (fun _ hn => hn) level
  exact halike.2 s s ⟨rfl, hs⟩

end Lisplet
