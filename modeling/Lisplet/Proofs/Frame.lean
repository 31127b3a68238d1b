import Lisplet.Proofs.Effects

/-!
# Evaluation changes what the program names

What evaluation may change can be read off the expression: it binds the names that stand first in
`global` compounds, `Expr.targets`, and it prints only if there is a `print` compound.

What it has changed is written as the bindings made, one after the other, and the text printed;
these are its deeds, wherever it stops. From the bindings made follow the names: those there were,
in their places, and after them the new ones in the order in which they were first bound. With
debugging on each binding also leaves a record, so the records tell the order.
-/

namespace Lisplet

namespace Env

/-- Of these names the ones that are not bound, in order of first occurrence. -/
def added (env : Env) (names : List String) : List String :=
  (names.filter (· ∉ env.names)).eraseDups

theorem added_cons_of_mem {env : Env} {x : String} (hx : x ∈ env.names) (v : Value)
    (names : List String) : env.added (x :: names) = (env.define x v).added names := by
  rw [added, added, names_define, if_pos hx, List.filter_cons_of_neg (by simpa using hx)]

theorem added_cons_of_notMem {env : Env} {x : String} (hx : x ∉ env.names) (v : Value)
    (names : List String) : env.added (x :: names) = x :: (env.define x v).added names := by
  rw [added, added, names_define, if_neg hx, List.filter_cons_of_pos (by simpa using hx),
    List.eraseDups_cons, List.filter_filter]
  congr 2
  refine List.filter_congr fun y _ => ?_
  simp only [List.mem_append, List.mem_singleton, not_or, Bool.decide_and, beq_eq_decide,
    Bool.and_comm, decide_not]

theorem names_defineAll (env : Env) (made : List (String × Value)) :
    (env.defineAll made).names = env.names ++ env.added (made.map Prod.fst) := by
  induction made generalizing env with
  | nil => exact (List.append_nil _).symm
  | cons b made ih =>
    obtain ⟨x, v⟩ := b
    change ((env.define x v).defineAll made).names = _
    rw [ih, names_define, List.map_cons]
    by_cases hx : x ∈ env.names
    · rw [if_pos hx, added_cons_of_mem hx v]
    · rw [if_neg hx, added_cons_of_notMem hx v, List.append_assoc]
      rfl

/-- What has been added is new, and no name is added twice. -/
theorem added_distinct (env : Env) (made : List (String × Value)) :
    (env.added (made.map Prod.fst)).Nodup ∧
      ∀ x ∈ env.added (made.map Prod.fst), x ∉ env.names := by
  -- the names of an environment are distinct by its type, after the bindings as well
  have hdistinct : (env.defineAll made).names.Nodup := (env.defineAll made).distinct
  rw [names_defineAll, List.nodup_append] at hdistinct
  refine ⟨hdistinct.2.1, ?_⟩
  intro x hx hold
  exact hdistinct.2.2 x hold x hx rfl

theorem mem_of_mem_added {env : Env} {names : List String} {x : String} (hx : x ∈ env.added names) :
    x ∈ names := by
  rw [added, List.mem_eraseDups] at hx
  exact List.mem_of_mem_filter hx

theorem get?_defineAll_of_notMem (env : Env) {made : List (String × Value)} {x : String}
    (hx : x ∉ made.map Prod.fst) : (env.defineAll made).get? x = env.get? x := by
  induction made generalizing env with
  | nil => rfl
  | cons b made ih =>
    rw [List.map_cons, List.mem_cons, not_or] at hx
    exact (ih _ hx.2).trans (get?_define_of_ne env b.2 hx.1)

theorem isSome_get?_define {env : Env} {x : String} (hx : (env.get? x).isSome) (y : String)
    (v : Value) : ((env.define y v).get? x).isSome := by
  by_cases hy : x = y
  · subst hy
    rw [get?_define_self]
    rfl
  · rwa [get?_define_of_ne env v hy]

theorem isSome_get?_defineAll {env : Env} {x : String} (hx : (env.get? x).isSome)
    (made : List (String × Value)) : ((env.defineAll made).get? x).isSome := by
  induction made generalizing env with
  | nil => exact hx
  | cons b made ih => exact ih (isSome_get?_define hx b.1 b.2)

end Env

/-- The name that stands first in a `global` compound. -/
def Expr.target? : Expr → Option String
  | .compound f (.symbol x :: _) => if f = Operator.name .global then some x else none
  | _ => none

/-- The names that the `global` compounds in the expression bind. -/
def Expr.targets (e : Expr) : List String := e.nodes.filterMap target?

/-- There is a `print` compound in the expression. -/
def Expr.Prints (e : Expr) : Prop := ∃ args, .compound (Operator.name .print) args ∈ e.nodes

theorem Expr.mem_targets {e a : Expr} {x : String}
    (h : .compound (Operator.name .global) [.symbol x, a] ∈ e.nodes) : x ∈ e.targets :=
  List.mem_filterMap.mpr ⟨_, h, rfl⟩

/-- The deed is one that the expression names: it binds a target, or there is a `print` for it. -/
def Deed.NamedIn (e : Expr) : Deed → Prop
  | .printed _ => e.Prints
  | .bound x _ => x ∈ e.targets

/-- Evaluation does only what the expression names. -/
theorem Expr.namedIn_of_mem_deeds (mode : Mode) (level : Nat) (e : Expr) (s : State) :
    ∀ d ∈ e.deeds mode level s, d.NamedIn e := by
  have htraversal := @traversal_does mode (· ∈ e.nodes) (Deed.NamedIn e)
    (fun _ _ _ hs => Expr.mem_targets hs) fun _ _ hs => ⟨_, hs⟩
  have hdoes := htraversal.eval_of_nesting_eq rfl (fun _ => trivial) e (fun _ hn => hn) level
  exact (hdoes s).2.1

namespace Expr

variable {mode : Mode} {level : Nat} {e : Expr} {s : State}

theorem mem_targets_of_mem_bound {x : String} (hx : x ∈ (e.bound mode level s).map Prod.fst) :
    x ∈ e.targets := by
  obtain ⟨b, hb, rfl⟩ := List.mem_map.mp hx
  obtain ⟨d, hd, hbound⟩ := List.mem_filterMap.mp hb
  have hnamed := e.namedIn_of_mem_deeds mode level s d hd
  cases d with
  | printed v => cases hbound
  | bound y v =>
    cases hbound
    exact hnamed

theorem printed_eq_nil (h : ¬e.Prints) : e.printed mode level s = [] := by
  refine List.filterMap_eq_nil_iff.mpr fun d hd => ?_
  have hnamed := e.namedIn_of_mem_deeds mode level s d hd
  cases d with
  | printed v => exact absurd hnamed h
  | bound y v => rfl

/-- If debugging is on, or makes no difference, then what is recorded with debugging on is what has
been bound. -/
theorem recorded_eval (h : mode.debug = true ∨ e.Proper ∧ s.env.Proper) :
    let on : Mode := { mode with debug := true }
    ((e.eval on level).result s).2.recorded =
      s.recorded ++ (e.bound mode level s).map Prod.fst := by
  intro on
  have hdeeds : e.deeds mode level s = e.deeds on level s := by
    obtain hm | ⟨he, hs⟩ := h
    · have hon : on = mode := by
        obtain ⟨debug, passes, nesting, showing⟩ := mode
        cases hm
        rfl
      rw [hon]
    · have hpasses : mode.passes = on.passes := rfl
      exact (deeds_alike hpasses rfl he level hs).1
  rw [bound, hdeeds]
  exact (e.done_eval on level s).recorded rfl

end Expr

/-- However the evaluation of an expression ends, it has made the bindings that it came to, one
after the other, each of a name that a `global` compound in the expression binds, and some text has
been printed, none if there is no `print` compound in it. No binding is lost. The names are those
before, followed by the new ones of the names bound, each once and in the order of first binding,
which is the order of the records that debugging makes. A name that no `global` compound binds keeps
its value. -/
theorem evaluation_changes_what_it_names (mode : Mode) (level : Nat) (e : Expr) (s : State) :
    let s' := ((e.eval mode level).result s).2
    let on : Mode := { mode with debug := true }
    let made := e.bound mode level s
    s'.env = s.env.defineAll made ∧
    (mode.debug = true ∨ e.Proper ∧ s.env.Proper →
      ((e.eval on level).result s).2.recorded = s.recorded ++ made.map Prod.fst) ∧
    (∀ x, (s.env.get? x).isSome → (s'.env.get? x).isSome) ∧
    s'.env.names = s.env.names ++ s.env.added (made.map Prod.fst) ∧
    (s.env.added (made.map Prod.fst)).Nodup ∧
    (∀ x ∈ s.env.added (made.map Prod.fst), x ∉ s.env.names ∧ x ∈ e.targets) ∧
    (∀ x, x ∉ e.targets → s'.env.get? x = s.env.get? x) ∧
    ∃ printed, s'.output = s.output ++ printed ∧ (¬e.Prints → printed = "") := by
  intro s' on made
  have henv : s'.env = s.env.defineAll made := (e.done_eval mode level s).env
  obtain ⟨hdistinct, hnew⟩ := s.env.added_distinct made
  refine ⟨henv, Expr.recorded_eval, ?_, ?_, hdistinct, ?_, ?_, ?_⟩
  · intro x hx
    rw [henv]
    exact Env.isSome_get?_defineAll hx made
  · rw [henv]
    exact s.env.names_defineAll made
  · intro x hx
    exact ⟨hnew x hx, Expr.mem_targets_of_mem_bound (Env.mem_of_mem_added hx)⟩
  · intro x hx
    rw [henv]
    exact s.env.get?_defineAll_of_notMem fun hmade => hx (Expr.mem_targets_of_mem_bound hmade)
  · obtain ⟨texts, htexts, houtput⟩ := (e.done_eval mode level s).output
    refine ⟨asLines texts, houtput, fun hsilent => ?_⟩
    have hnone : e.printed mode level s = [] := Expr.printed_eq_nil hsilent
    rw [Expr.printed] at hnone
    rw [hnone] at htexts
    cases htexts
    rfl

/-- The block binds `b`, then `a`, then `b` again, and fails before it binds `c`: of the names only
`b` is new, and `z` is left alone. -/
theorem failed_block_keeps_order :
    let e : Expr := .compound "block" [
      .compound "global" [.symbol "b", .literal (.integer 1)],
      .compound "global" [.symbol "a", .literal (.integer 2)],
      .compound "global" [.symbol "b", .literal (.integer 3)],
      .compound "global" [.symbol "c", .symbol "d"]]
    let s : State := ⟨Env.ofList [("z", .nil), ("a", .bool true)], "", #[]⟩
    let r := (e.eval ⟨true, 0, none, none⟩ 0).result s
    r.1 = .error (.failed (.unboundSymbol "d")) ∧ r.2.env.names = ["z", "a", "b"] ∧
      r.2.recorded = ["b", "a", "b"] ∧ r.2.env.get? "z" = s.env.get? "z" := by
  intro e s r
  obtain ⟨-, -, -, -, -, -, hkept, -⟩ :=
    evaluation_changes_what_it_names ⟨true, 0, none, none⟩ 0 e s
  exact ⟨rfl, rfl, rfl, hkept "z" (by decide)⟩

end Lisplet
