import Lisplet.Proofs.Pulling

/-!
# The first token that cannot be right

However far reading has come, some tokens would complete the expression: `Progress.completion` names
them. So tokens that are taken to their end begin an acceptable list. A refused token, on the other
hand, is refused whatever follows it. Together this places every complaint: it comes either with the
end of tokens that could have gone on, or with the first token behind which nothing can be accepted.
-/

namespace Lisplet

/-- Reading takes the tokens for one expression. -/
def Acceptable (limit : Limit) (ts : List Token) : Prop := ∃ e, parse limit (.ofList ts) = .ok e

namespace Progress

variable {limit : Limit} {base : Int} {p : Progress}

/-- Tokens that complete the expression. None of them opens a compound, so that no depth is too
deep for them. -/
def completion : Progress → List Token
  | .operand [] => [.literal .nil]
  | .operand frames => .replicate frames.length .rparen
  | .operator frames => .symbol "f" :: .replicate (frames.length + 1) .rparen
  | .whole _ => []

theorem steps_closing (limit : Limit) (base : Int) (frame : Frame) (frames : List Frame) :
    ∃ e, (operand (frame :: frames)).steps limit base
      (.replicate (frame :: frames).length .rparen) = .ok (.whole e) := by
  induction frames generalizing frame with
  | nil => exact ⟨_, rfl⟩
  | cons outer frames ih =>
    -- the compound that closes becomes an argument of the next one out
    obtain ⟨e, he⟩ :=
      ih ⟨outer.operator, .ofOperator frame.operator frame.args.reverse :: outer.args⟩
    exact ⟨e, he⟩

/-- Every reading can be completed. -/
theorem steps_completion (limit : Limit) (base : Int) (p : Progress) :
    ∃ e, p.steps limit base p.completion = .ok (.whole e) := by
  cases p with
  | whole e => exact ⟨e, rfl⟩
  | operator frames =>
    obtain ⟨e, he⟩ := steps_closing limit base ⟨.string "f", []⟩ frames
    exact ⟨e, he⟩
  | operand frames =>
    cases frames with
    | nil => exact ⟨_, rfl⟩
    | cons frame frames => exact steps_closing limit base frame frames

theorem lexical_completion (p : Progress) : ∀ u ∈ p.completion, u.Lexical := by
  intro u hu
  cases p with
  | whole e => cases hu
  | operator frames =>
    obtain rfl | hu := List.mem_cons.mp hu
    · exact .symbol "f"
    · rw [List.eq_of_mem_replicate hu]
      exact .rparen
  | operand frames =>
    cases frames with
    | nil =>
      rw [List.mem_singleton.mp hu]
      exact .literal .nil trivial
    | cons frame frames =>
      rw [List.eq_of_mem_replicate hu]
      exact .rparen

theorem completion_ne_nil (hp : ∀ e, p ≠ .whole e) : p.completion ≠ [] := by
  cases p with
  | whole e => exact absurd rfl (hp e)
  | operator frames => exact List.cons_ne_nil _ _
  | operand frames => cases frames <;> exact List.cons_ne_nil _ _

end Progress

section Acceptable

variable {limit : Limit} {p : Progress} {ts : List Token} {t : Token} {cause : Error}

theorem acceptable_completion (hs : Progress.start.steps limit 0 ts = .ok p) :
    Acceptable limit (ts ++ p.completion) := by
  obtain ⟨e, he⟩ := Progress.steps_completion limit 0 p
  refine ⟨e, parse_ofList_eq_ok_iff.mpr ?_⟩
  rw [Progress.steps_append hs, he]

theorem not_acceptable_of_refused (hs : Progress.start.steps limit 0 ts = .ok p)
    (ht : p.step limit 0 t = .error cause) (us : List Token) :
    ¬Acceptable limit (ts ++ t :: us) := by
  rintro ⟨e, he⟩
  rw [parse_ofList_eq_ok_iff, Progress.steps_of_refused hs ht us] at he
  cases he

end Acceptable

/-- A complaint that the tokens ended too early comes only if further tokens, such as a text gives,
would have made them acceptable. Every other complaint comes with the first token that cannot be
right: those before it begin an acceptable list, no acceptable list goes on with it, and it is the
last token that reading has taken or looked at. -/
theorem refused_token_is_first_wrong (limit : Limit) (ts : List Token) (cause : Error)
    (h : parse limit (.ofList ts) = .error cause) :
    (cause = .emptyInput ∨ cause = .unmatchedOpen →
      ∃ us ≠ [], (∀ u ∈ us, u.Lexical) ∧ Acceptable limit (ts ++ us)) ∧
    (cause ≠ .emptyInput ∧ cause ≠ .unmatchedOpen →
      cause.AboutToken ∧ ∃ before t after, ts = before ++ t :: after ∧
        (∃ us, (∀ u ∈ us, u.Lexical) ∧ Acceptable limit (before ++ us)) ∧
        (∀ us, ¬Acceptable limit (before ++ [t] ++ us)) ∧
        ∃ left, (Reader.ofSupply (.ofList ts) limit).pullSole = (.error cause, left) ∧
          left.pending = .ofList after ∧ ∀ u ∈ left.ahead, u = t) := by
  cases hs : Progress.start.steps limit 0 ts with
  | ok p =>
    rw [@parse_of_steps limit (.ofList ts) p hs] at h
    have hended : p.ended = .error cause := h
    have hpartial : ∀ e, p ≠ .whole e := by
      rintro e rfl
      cases hended
    refine ⟨fun _ => ⟨p.completion, p.completion_ne_nil hpartial, p.lexical_completion,
      acceptable_completion hs⟩, ?_⟩
    rintro ⟨hempty, hunmatched⟩
    by_cases hbegun : p = .start
    · subst hbegun
      cases hended
      exact absurd rfl hempty
    · rw [Progress.ended_of_begun hbegun hpartial] at hended
      cases hended
      exact absurd rfl hunmatched
  | error cause' =>
    rw [@parse_of_refused limit (.ofList ts) cause' hs] at h
    cases h
    have habout := Progress.aboutToken_of_steps hs
    refine ⟨?_, fun _ => ⟨habout, ?_⟩⟩
    · rintro (rfl | rfl) <;> exact habout.elim
    · obtain ⟨before, t, after, q, rfl, hq, ht⟩ := Progress.exists_refused hs
      refine ⟨before, t, after, rfl, ⟨q.completion, q.lexical_completion, acceptable_completion hq⟩,
        ?_, Reader.pullSole_of_refused rfl hq ht⟩
      intro us
      rw [List.append_assoc, List.singleton_append]
      exact not_acceptable_of_refused hq ht us

/-- Where one level is allowed, the tokens of `(f` could go on, but not with a parenthesis. -/
theorem second_parenthesis_is_first_wrong :
    let limit : Limit := ⟨1, 900⟩
    parse limit (.ofList [.lparen, .symbol "f"]) = .error .unmatchedOpen ∧
    (∃ us ≠ [], (∀ u ∈ us, u.Lexical) ∧ Acceptable limit ([.lparen, .symbol "f"] ++ us)) ∧
    parse limit (.ofList [.lparen, .symbol "f", .lparen, .symbol "g"]) =
      .error (.depthExceeded 1) ∧
    ∃ before t after, [.lparen, .symbol "f", .lparen, .symbol "g"] = before ++ t :: after ∧
      (∃ us, (∀ u ∈ us, u.Lexical) ∧ Acceptable limit (before ++ us)) ∧
      ∀ us, ¬Acceptable limit (before ++ [t] ++ us) := by
  intro limit
  have hopen : parse limit (.ofList [.lparen, .symbol "f"]) = .error .unmatchedOpen := rfl
  have hdeep : parse limit (.ofList [.lparen, .symbol "f", .lparen, .symbol "g"]) =
      .error (.depthExceeded 1) := rfl
  obtain ⟨-, before, t, after, hts, hbefore, hwrong, -⟩ :=
    (refused_token_is_first_wrong limit _ _ hdeep).2 (by simp)
  exact ⟨hopen, (refused_token_is_first_wrong limit _ _ hopen).1 (.inr rfl), hdeep, before, t,
    after, hts, hbefore, hwrong⟩

end Lisplet
