import Lisplet.Proofs.Balance

/-!
# Where reading stops

Tokens drive a reader on until one is refused or until they end. `Progress.exists_refused` finds the
first token that is refused; where none is, the answer depends on how far the reader has come when
the tokens end, `Progress.ended`. Reading one expression, reading on from an expression begun and
reading a script stop at the same tokens.
-/

namespace Lisplet

namespace Progress

variable {limit : Limit} {base : Int} {p q : Progress} {t : Token} {ts us : List Token}
  {cause : Error}

/-- The answer when the tokens end here. -/
def ended : Progress → Except Error Expr
  | .whole e => .ok e
  | .operand [] => .error .emptyInput
  | p => .error p.endError

theorem ended_of_begun (hs : p ≠ start) (hw : ∀ e, p ≠ .whole e) :
    p.ended = .error .unmatchedOpen := by
  unfold ended
  split
  · exact absurd rfl (hw _)
  · exact absurd rfl hs
  · rw [endError_of_begun hs]

theorem put_ne_start (e : Expr) (frames : List Frame) : put e frames ≠ start := by
  cases frames <;> simp [put, start]

/-- After a token something has been begun. -/
theorem ne_start_of_step (h : p.step limit base t = .ok q) : q ≠ start := by
  cases p with
  | whole e => cases h
  | operator frames =>
    simp only [step] at h
    split at h
    case isTrue =>
      cases h
      simp [start]
    case isFalse => cases h
  | operand frames =>
    cases hkind : t.kind with
    | nil | bool | integer | string | symbol =>
      simp only [step, hkind] at h
      cases h
      exact put_ne_start _ frames
    | rparen =>
      simp only [step, hkind] at h
      cases frames with
      | nil => cases h
      | cons frame frames =>
        cases h
        exact put_ne_start _ frames
    | lparen | other _ =>
      simp only [step, hkind, enter_eq_ok_iff] at h
      obtain ⟨rfl, -, -⟩ := h
      simp [start]

theorem ne_start_of_steps (hs : p.steps limit base (t :: ts) = .ok q) : q ≠ start := by
  induction ts generalizing p t with
  | nil =>
    obtain ⟨m, hm, hrest⟩ := steps_cons_inv hs
    cases hrest
    exact ne_start_of_step hm
  | cons u ts ih =>
    obtain ⟨m, -, hrest⟩ := steps_cons_inv hs
    exact ih hrest

theorem steps_of_refused (hs : p.steps limit base us = .ok q)
    (ht : q.step limit base t = .error cause) (rest : List Token) :
    p.steps limit base (us ++ t :: rest) = .error cause := by
  rw [steps_append hs]
  simp only [steps, List.foldlM_cons, ht]
  rfl

/-- Where the tokens are refused, there is a first one that is. -/
theorem exists_refused (h : p.steps limit base ts = .error cause) :
    ∃ us t rest q, ts = us ++ t :: rest ∧ p.steps limit base us = .ok q ∧
      q.step limit base t = .error cause := by
  induction ts generalizing p with
  | nil => cases h
  | cons t ts ih =>
    cases ht : p.step limit base t with
    | error cause' =>
      simp only [steps, List.foldlM_cons, ht] at h
      cases h
      exact ⟨[], t, ts, p, rfl, rfl, ht⟩
    | ok m =>
      rw [steps_cons ht] at h
      obtain ⟨us, t', rest, q, rfl, hs, hq⟩ := ih h
      exact ⟨t :: us, t', rest, q, rfl, by rw [steps_cons ht, hs], hq⟩

/-- A complete expression takes no further token. -/
theorem ne_whole_of_step (h : p.step limit base t = .ok q) : ∀ e, p ≠ .whole e := by
  rintro e rfl
  cases h

theorem readFrom_nil (hp : ∀ e, p ≠ .whole e) :
    readFrom limit base p [] = .error (.starved p) :=
  readFrom.eq_2 limit base p hp

theorem readFrom_cons (hp : ∀ e, p ≠ .whole e) :
    readFrom limit base p (t :: ts) =
      match p.step limit base t with
      | .ok q => readFrom limit base q ts
      | .error cause => .error (.refused cause ts) :=
  readFrom.eq_3 limit base p t ts hp

theorem readFrom_of_refused (hs : p.steps limit base us = .ok q) (hq : ∀ e, q ≠ .whole e)
    (ht : q.step limit base t = .error cause) (rest : List Token) :
    readFrom limit base p (us ++ t :: rest) = .error (.refused cause rest) := by
  induction us generalizing p with
  | nil =>
    cases hs
    rw [List.nil_append, readFrom_cons hq, ht]
  | cons u us ih =>
    obtain ⟨m, hm, hrest⟩ := steps_cons_inv hs
    rw [List.cons_append, readFrom_cons (ne_whole_of_step hm), hm]
    exact ih hrest

theorem readFrom_refused_inv {rest : List Token}
    (hr : readFrom limit base p ts = .error (.refused cause rest)) :
    ∃ us t q, ts = us ++ t :: rest ∧ p.steps limit base us = .ok q ∧ (∀ e, q ≠ .whole e) ∧
      q.step limit base t = .error cause := by
  fun_induction readFrom limit base p ts with
  | case1 => cases hr
  | case2 => cases hr
  | case3 p t ts hp m hm ih =>
    obtain ⟨us, t', q, rfl, hs, hq, ht⟩ := ih hr
    exact ⟨t :: us, t', q, rfl, by rw [steps_cons hm, hs], hq, ht⟩
  | case4 p t ts hp cause' hm =>
    cases hr
    exact ⟨[], t, p, rfl, rfl, hp, hm⟩

theorem readFrom_eq_starved_iff : readFrom limit base p ts = .error (.starved q) ↔
    p.steps limit base ts = .ok q ∧ ∀ e, q ≠ .whole e := by
  constructor
  · intro hr
    fun_induction readFrom limit base p ts with
    | case1 => cases hr
    | case2 p hp =>
      cases hr
      exact ⟨rfl, hp⟩
    | case3 p t ts hp m hm ih =>
      rw [steps_cons hm]
      exact ih hr
    | case4 => cases hr
  · rintro ⟨hs, hq⟩
    induction ts generalizing p with
    | nil =>
      cases hs
      exact readFrom_nil hq
    | cons u us ih =>
      obtain ⟨m, hm, hrest⟩ := steps_cons_inv hs
      rw [readFrom_cons (ne_whole_of_step hm), hm]
      exact ih hrest

end Progress

/-- Reading one expression from tokens that are taken to their end. -/
theorem parse_of_steps {limit : Limit} {supply : Supply Token} {p : Progress}
    (hs : Progress.start.steps limit 0 supply.items = .ok p) :
    parse limit supply = supply.fault.elim p.ended .error := by
  obtain ⟨items, fault⟩ := supply
  unfold Progress.steps at hs
  rw [parse, hs]
  cases fault with
  | some cause => rfl
  | none =>
    cases p with
    | operand frames => cases frames <;> rfl
    | operator frames | whole e => rfl

theorem parse_of_refused {limit : Limit} {supply : Supply Token} {cause : Error}
    (hs : Progress.start.steps limit 0 supply.items = .error cause) :
    parse limit supply = .error cause := by
  unfold Progress.steps at hs
  rw [parse, hs]
  rfl

section ReadAll

variable {limit : Limit} {done : List Expr} {p : Progress} {ts : List Token}

theorem readAllFrom_of_error {ending : Ending} (hp : ∀ e, p ≠ .whole e)
    (h : readFrom limit 0 p ts = .error ending) :
    readAllFrom limit done p ts = (done.reverse, ending) := by
  induction ts generalizing p with
  | nil =>
    rw [Progress.readFrom_nil hp] at h
    cases h
    rfl
  | cons t ts ih =>
    rw [Progress.readFrom_cons hp] at h
    rw [readAllFrom]
    cases hq : p.step limit 0 t with
    | error cause =>
      rw [hq] at h
      cases h
      rfl
    | ok q =>
      rw [hq] at h
      cases q with
      | whole e => simp [readFrom] at h
      | operand frames | operator frames => exact ih (by simp) h

theorem readAllFrom_done (limit : Limit) (done : List Expr) (p : Progress) (ts : List Token) :
    readAllFrom limit done p ts =
      (done.reverse ++ (readAllFrom limit [] p ts).1, (readAllFrom limit [] p ts).2) := by
  induction ts generalizing done p with
  | nil => simp [readAllFrom]
  | cons t ts ih =>
    simp only [readAllFrom]
    split
    · next e _ =>
      rw [ih (e :: done), ih [e]]
      simp
    · exact ih done _
    · simp

end ReadAll

end Lisplet
