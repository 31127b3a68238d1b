import Lisplet.Proofs.Properness

/-!
# What a run makes of a world

Two views of a run, both up to debug records. `Run.Yields` says what the run does: from every state
of a world it ends with an outcome and leaves another world. `Run.Ensures` says what is known of
however it ends; a run that uses up its passes ends in no outcome, so nothing is known of it. Each
has a rule for sequencing, and runs that do one thing have their outcome here.
-/

namespace Lisplet

namespace Run

variable {α β : Type}

/-- From every state of the world the run ends with this outcome and leaves that world. -/
def Yields (run : Run α) (w : World) (o : Except Error α) (w' : World) : Prop :=
  ∀ s : State, s.world = w → ∃ s' : State,
    run.result s = (o.mapError .failed, s') ∧ s'.world = w'

/-- Whatever outcome the run ends with, and in whatever world, `Q` holds of them. -/
def Ensures (run : Run α) (w : World) (Q : Except Error α → World → Prop) : Prop :=
  ∀ (s : State) (o : Except Error α) (s' : State), s.world = w →
    run.result s = (o.mapError .failed, s') → Q o s'.world

theorem lift_map (f : α → β) (r : Except Error α) :
    lift (r.map f) = (lift r >>= fun a => pure (f a)) := by
  cases r <;> rfl

theorem lift_bind (r : Except Error α) (f : α → Except Error β) :
    lift (r.bind f) = (lift r >>= fun a => lift (f a)) := by
  cases r <;> rfl

theorem mapError_failed_injective {o o' : Except Error α}
    (h : o.mapError Halt.failed = o'.mapError Halt.failed) : o = o' := by
  match o, o', h with
  | .ok _, .ok _, h => cases h; rfl
  | .error _, .error _, h => cases h; rfl

theorem Yields.lift (r : Except Error α) (w : World) : Yields (lift r) w r w := by
  intro s hs
  cases r with
  | ok a => exact ⟨s, rfl, hs⟩
  | error cause => exact ⟨s, rfl, hs⟩

theorem Yields.pure (a : α) (w : World) : Yields (pure a) w (.ok a) w :=
  Yields.lift (.ok a) w

theorem Yields.fail (cause : Error) (w : World) :
    Yields (fail cause : Run α) w (.error cause) w :=
  Yields.lift (.error cause) w

theorem Yields.bind {run : Run α} {next : α → Run β} {a : α} {o : Except Error β}
    {w w₁ w₂ : World} (h : Yields run w (.ok a) w₁) (hnext : Yields (next a) w₁ o w₂) :
    Yields (run >>= next) w o w₂ := by
  intro s hs
  obtain ⟨s₁, hr, hs₁⟩ := h s hs
  obtain ⟨s₂, hr₂, hs₂⟩ := hnext s₁ hs₁
  refine ⟨s₂, ?_, hs₂⟩
  rw [result_bind, hr]
  exact hr₂

theorem Yields.bind_pure {run : Run α} {a : α} {w w₁ : World} (h : Yields run w (.ok a) w₁)
    (f : α → β) : Yields (run >>= fun a => Pure.pure (f a)) w (.ok (f a)) w₁ :=
  h.bind (.pure (f a) w₁)

theorem Yields.bind_error {run : Run α} {cause : Error} {w w₁ : World}
    (h : Yields run w (.error cause) w₁) (next : α → Run β) :
    Yields (run >>= next) w (.error cause) w₁ := by
  intro s hs
  obtain ⟨s₁, hr, hs₁⟩ := h s hs
  refine ⟨s₁, ?_, hs₁⟩
  rw [result_bind, hr]
  rfl

/-- A run followed by something that needs no state. -/
theorem Yields.convert {run : Run α} {o : Except Error α} {w w₁ : World} (h : Yields run w o w₁)
    (f : α → Except Error β) : Yields (run >>= fun a => Run.lift (f a)) w (o.bind f) w₁ := by
  cases o with
  | error cause => exact h.bind_error _
  | ok a => exact h.bind (.lift (f a) w₁)

theorem Yields.record (mode : Mode) (r : Record) (w : World) :
    Yields (record mode r) w (.ok ()) w := by
  intro s hs
  refine ⟨_, result_record mode r s, ?_⟩
  rw [← hs]
  split <;> rfl

theorem Yields.print (text : String) (w : World) :
    Yields (print text) w (.ok ()) (w.print text) := by
  intro s hs
  exact ⟨_, result_print text s, by rw [← hs]; rfl⟩

/-- A value of the language is bound, with debugging or without. -/
theorem Yields.define {value : Value} (hv : value.Proper) (mode : Mode) (name : String)
    (w : World) : Yields (define mode name value) w (.ok ()) (w.define name value) := by
  intro s hs
  obtain ⟨shown, hshown⟩ := Value.render_of_proper hv
  exact ⟨_, result_define_of_render hshown mode name s, by rw [← hs]; rfl⟩

theorem Yields.lookup {name : String} {value : Value} {w : World}
    (h : w.env.get? name = some value) : Yields (lookup name) w (.ok value) w := by
  intro s hs
  refine ⟨s, ?_, hs⟩
  subst hs
  rw [result_lookup, show s.env.get? name = some value from h]
  rfl

theorem Yields.lookup_unbound {name : String} {w : World} (h : w.env.get? name = none) :
    Yields (Run.lookup name) w (.error (.unboundSymbol name)) w := by
  intro s hs
  refine ⟨s, ?_, hs⟩
  subst hs
  rw [result_lookup, show s.env.get? name = none from h]
  rfl

/-- What is known of a run whose outcome is known. -/
theorem Yields.ensures {run : Run α} {o : Except Error α} {w w' : World}
    {Q : Except Error α → World → Prop} (h : Yields run w o w') (hq : Q o w') :
    Ensures run w Q := by
  intro s o' s' hs hr
  obtain ⟨s₁, hr₁, hs₁⟩ := h s hs
  rw [hr] at hr₁
  obtain rfl := mapError_failed_injective (congrArg Prod.fst hr₁)
  obtain rfl : s' = s₁ := congrArg Prod.snd hr₁
  rw [hs₁]
  exact hq

theorem Ensures.imp {run : Run α} {w : World} {P Q : Except Error α → World → Prop}
    (h : Ensures run w P) (himp : ∀ o w', P o w' → Q o w') : Ensures run w Q :=
  fun s o s' hs hr => himp _ _ (h s o s' hs hr)

theorem Ensures.bind {run : Run α} {next : α → Run β} {w : World}
    {P : Except Error α → World → Prop} {Q : Except Error β → World → Prop}
    (h : Ensures run w P) (hok : ∀ a w₁, P (.ok a) w₁ → Ensures (next a) w₁ Q)
    (herror : ∀ cause w₁, P (.error cause) w₁ → Q (.error cause) w₁) :
    Ensures (run >>= next) w Q := by
  intro s o s' hs hr
  rw [result_bind] at hr
  rcases hrun : run.result s with ⟨halt | a, s₁⟩
  · rw [hrun] at hr
    obtain ⟨hhalt, rfl⟩ := Prod.mk.inj hr
    cases o with
    | ok b => cases hhalt
    | error cause =>
      cases hhalt
      exact herror cause _ (h s (.error cause) s₁ hs hrun)
  · rw [hrun] at hr
    exact hok a _ (h s (.ok a) s₁ hs hrun) s₁ o s' rfl hr

theorem Yields.then_ensures {run : Run α} {next : α → Run β} {a : α} {w w₁ : World}
    {Q : Except Error β → World → Prop} (h : Yields run w (.ok a) w₁)
    (hnext : Ensures (next a) w₁ Q) : Ensures (run >>= next) w Q := by
  intro s o s' hs hr
  obtain ⟨s₁, hr₁, hs₁⟩ := h s hs
  rw [result_bind, hr₁] at hr
  exact hnext s₁ o s' hs₁ hr

theorem Ensures.convert {run : Run α} {w : World} {P : Except Error α → World → Prop}
    (h : Ensures run w P) (f : α → Except Error β) :
    Ensures (run >>= fun a => Run.lift (f a)) w fun r w₁ => ∃ o, P o w₁ ∧ o.bind f = r := by
  refine h.bind ?_ ?_
  · intro a w₁ ha
    exact (Yields.lift (f a) w₁).ensures ⟨.ok a, ha, rfl⟩
  · intro cause w₁ ha
    exact ⟨.error cause, ha, rfl⟩

end Run

end Lisplet
