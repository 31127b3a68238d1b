import Lisplet.Proofs.Semantics

/-!
# Only values of the language arise

From proper constants and bindings every rule leads to proper ones again. Results of arithmetic are
checked to fit, with the one exception of the remainder: it has the sign of the dividend and is no
larger, so it fits because the dividend does. Where a rule ends in an error, it is one that the
language documents.
-/

namespace Lisplet

/-- Every bound value is one of the language. -/
def Env.Proper (env : Env) : Prop := ∀ b ∈ env.bindings, b.2.Proper

theorem proper_putBinding {name : String} {value : Value} (hv : value.Proper)
    {bindings : List (String × Value)} (hb : ∀ b ∈ bindings, b.2.Proper) :
    ∀ b ∈ putBinding name value bindings, b.2.Proper := by
  induction bindings with
  | nil => simpa [putBinding] using hv
  | cons b rest ih =>
    obtain ⟨x, v⟩ := b
    rw [List.forall_mem_cons] at hb
    by_cases hx : x = name
    · rw [putBinding, if_pos hx, List.forall_mem_cons]
      exact ⟨hv, hb.2⟩
    · rw [putBinding, if_neg hx, List.forall_mem_cons]
      exact ⟨hb.1, ih hb.2⟩

theorem Env.Proper.define {env : Env} (he : env.Proper) (name : String) {value : Value}
    (hv : value.Proper) : (env.define name value).Proper :=
  proper_putBinding hv he

theorem Env.Proper.get? {env : Env} (he : env.Proper) {name : String} {value : Value}
    (h : env.get? name = some value) : value.Proper := by
  have hmem : (name, value) ∈ env.bindings := by
    obtain ⟨l₁, l₂, hl, -⟩ := List.lookup_eq_some_iff.mp h
    rw [hl]
    simp
  exact he _ hmem

/-- A remainder lies between zero and the dividend. -/
theorem fits_tmod {a : Int} (ha : Fits a) (b : Int) : Fits (a.tmod b) := by
  have habs : (a.tmod b).natAbs ≤ a.natAbs := by
    rw [Int.natAbs_tmod]
    exact Nat.mod_le _ _
  by_cases hsign : 0 ≤ a
  · have hnonneg := Int.tmod_nonneg b hsign
    constructor <;> omega
  · have hneg : 0 ≤ (-a).tmod b := Int.tmod_nonneg b (by omega)
    rw [Int.neg_tmod] at hneg
    constructor <;> omega

/-- An outcome that is an error, or else a value of the language. -/
def ProperOutcome : Except Error Value → Prop
  | .ok v => v.Proper
  | .error _ => True

namespace Operator

theorem Checked.proper {op : Operator} {position : Nat} {o r : Except Error Value}
    (hc : Checked op position o r) (ho : ProperOutcome o) : ProperOutcome r := by
  cases hc with
  | failed cause => trivial
  | admitted hk => exact ho
  | refused hd hv hne => trivial

theorem proper_bounded (op : Operator) (n : Int) : ProperOutcome (op.bounded n) := by
  unfold bounded
  split
  · assumption
  · trivial

theorem Combines.proper {op : Operator} {u v : Value} {r : Except Error Value}
    (hc : op.Combines u v r) (hu : u.Proper) : ProperOutcome r := by
  cases hc with
  | sub a b => exact proper_bounded .sub (a - b)
  | div a _ => exact proper_bounded .div _
  | mod a _ => exact fits_tmod hu _
  | _ => trivial

end Operator

/-- What must be proper for a task to give proper results. -/
def Task.Proper : Task → Prop
  | .expr e => e.Proper
  | .terms _ total _ args => Fits total ∧ Expr.AllProper args
  | .sequence last args => last.Proper ∧ Expr.AllProper args
  | .loop cond body => cond.Proper ∧ body.Proper

/-- Every rule keeps to values of the language. -/
theorem Evaluates.proper {task : Task} {w w' : World} {o : Except Error Value}
    (h : Evaluates task w o w') (ht : task.Proper) (hw : w.env.Proper) :
    ProperOutcome o ∧ w'.env.Proper := by
  induction h with
  | literal v w => exact ⟨ht, hw⟩
  | bound hx => exact ⟨hw.get? hx, hw⟩
  | unbound | unknown | arity | globalLiteral | globalCompound => exact ⟨trivial, hw⟩
  | fold hf _ ih =>
    cases hf with
    | add => exact ih ⟨by decide, ht⟩ hw
    | mul => exact ih ⟨by decide, ht⟩ hw
  | termsDone op total position w => exact ⟨ht.1, hw⟩
  | termEnds _ _ ih => exact ⟨trivial, (ih ht.2.1 hw).2⟩
  | termOverflows _ _ _ ih => exact ⟨trivial, (ih ht.2.1 hw).2⟩
  | termAdds _ _ hn _ iha ihr => exact ihr ⟨hn, ht.2.2⟩ (iha ht.2.1 hw).2
  | firstEnds _ _ _ ih => exact ⟨trivial, (ih ht.1 hw).2⟩
  | secondEnds _ _ _ _ _ iha ihb => exact ⟨trivial, (ihb ht.2.1 (iha ht.1 hw).2).2⟩
  | operands _ hca _ _ hr iha ihb =>
    obtain ⟨ho, hw₁⟩ := iha ht.1 hw
    exact ⟨hr.proper (hca.proper ho), (ihb ht.2.1 hw₁).2⟩
  | negationEnds _ _ ih => exact ⟨trivial, (ih ht.1 hw).2⟩
  | negation _ ih => exact ⟨trivial, (ih ht.1 hw).2⟩
  | printFails _ ih => exact ⟨trivial, (ih ht.1 hw).2⟩
  | print _ _ ih => exact ⟨trivial, (ih ht.1 hw).2⟩
  | branchEnds _ _ _ ih => exact ⟨trivial, (ih ht.1 hw).2⟩
  | branchYes _ _ _ ihc ihy => exact ihy ht.2.1 (ihc ht.1 hw).2
  | branchNo _ _ ihc ihn => exact ihn ht.2.2.1 (ihc ht.1 hw).2
  | branchNone _ ih => exact ⟨trivial, (ih ht.1 hw).2⟩
  | loop _ ih => exact ih ⟨ht.1, ht.2.1⟩ hw
  | loopEnds _ _ ih => exact ⟨trivial, (ih ht.1 hw).2⟩
  | loopDone _ ih => exact ⟨trivial, (ih ht.1 hw).2⟩
  | loopFails _ _ ihc ihb => exact ⟨trivial, (ihb ht.2 (ihc ht.1 hw).2).2⟩
  | loopAgain _ _ _ ihc ihb ihr => exact ihr ht (ihb ht.2 (ihc ht.1 hw).2).2
  | block _ ih => exact ih ⟨trivial, ht⟩ hw
  | sequenceDone last w => exact ⟨ht.1, hw⟩
  | sequenceFails _ ih => exact ⟨trivial, (ih ht.2.1 hw).2⟩
  | sequenceNext _ _ iha ihr =>
    obtain ⟨hv, hw₁⟩ := iha ht.2.1 hw
    exact ihr ⟨hv, ht.2.2⟩ hw₁
  | globalFails _ ih => exact ⟨trivial, (ih ht.2.1 hw).2⟩
  | global _ ih =>
    obtain ⟨hv, hw₁⟩ := ih ht.2.1 hw
    exact ⟨trivial, hw₁.define _ hv⟩

namespace Operator

end Operator

end Lisplet
