import Lisplet.Proofs.Blame

/-!
# Evaluation within the language

Of values of the language evaluation makes no other values, and its complaints stem from places of
the expression. So in states that hold only such values, and that differ in their records at most,
evaluation takes the same steps in every mode that allows the same passes and the same nesting,
whether or not records are made: `blames_eval`, `coupled_eval`. Taken for one mode, this bounds the
outcomes of one run.
-/

namespace Lisplet

open Run

/-- The states differ in their records at most, and they hold values of the language. -/
structure EqualButRecords (s t : State) : Prop where
  world : s.world = t.world
  proper : s.env.Proper

namespace EqualButRecords

variable {s t : State}

theorem env (h : EqualButRecords s t) : s.env = t.env := congrArg World.env h.world

theorem output (h : EqualButRecords s t) : s.output = t.output := congrArg World.output h.world

theorem coupled_record {Cause : Error → Prop} (mode mode' : Mode) (r : Record) :
    Coupled EqualButRecords Cause (fun _ => True) (record mode r) (record mode' r) := by
  refine .of_done fun s t hst => ⟨_, _, result_record mode r s, result_record mode' r t, ?_⟩
  obtain ⟨hworld, hproper⟩ := hst
  constructor
  · split <;> split <;> exact hworld
  · split <;> exact hproper

/-- Modes that differ in debugging only take the same steps. -/
theorem coupling {mode mode' : Mode} (hpasses : mode.passes = mode'.passes)
    (hnesting : mode.nesting = mode'.nesting) {Site : Expr → Prop}
    (hsite : ∀ n, Site n → n.Proper) :
    Coupling mode mode' EqualButRecords Site Value.Proper (Blames Site fun _ => True) where
  toVocabulary := .blames hsite
  passes := hpasses
  nesting := hnesting
  nested hs := .nested hs
  lookup {x} hs := by
    refine .lookup (fun s t hst => ?_) (fun s t v hst hv => hst.proper.get? hv) ?_
    · rw [hst.env]
    · exact .unbound hs trivial
  define {x a v} _ hv := by
    -- the value can be shown, so debugging does not refuse it
    obtain ⟨shown, hshown⟩ := Value.render_of_proper hv
    refine .of_done fun s t hst => ⟨_, _, result_define_of_render hshown mode x s,
      result_define_of_render hshown mode' x t, ?_, hst.proper.define x hv⟩
    change (⟨s.env.define x v, s.output⟩ : World) = ⟨t.env.define x v, t.output⟩
    rw [hst.env, hst.output]
  print {_ _ text} _ _ _ := by
    refine .of_done fun s t hst => ⟨_, _, rfl, rfl, ?_, hst.proper⟩
    change s.world.print (text ++ "\n") = t.world.print (text ++ "\n")
    rw [hst.world]
  record _ := coupled_record mode mode' _

end EqualButRecords

section Evaluation

variable {mode mode' : Mode} {e : Expr}

/-- Whether debugging is on makes no difference among values of the language, and a complaint stems
from a place of the expression. -/
theorem blames_eval (hpasses : mode.passes = mode'.passes) (hnesting : mode.nesting = mode'.nesting)
    (he : e.Proper) (level : Nat) :
    Coupled EqualButRecords (Blames (· ∈ e.nodes) fun _ => True) Value.Proper (e.eval mode level)
      (e.eval mode' level) :=
  (EqualButRecords.coupling hpasses hnesting fun _ => e.proper_of_mem_nodes he).eval e
    (fun _ hn => hn) level

/-- There are no other complaints than those of the language. -/
theorem coupled_eval (hpasses : mode.passes = mode'.passes)
    (hnesting : mode.nesting = mode'.nesting) (he : e.Proper) (level : Nat) :
    Coupled EqualButRecords Error.InLanguage Value.Proper (e.eval mode level)
      (e.eval mode' level) :=
  (blames_eval hpasses hnesting he level).imp fun _ => Blames.inLanguage

end Evaluation

end Lisplet
