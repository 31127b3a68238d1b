import Lisplet.Proofs.Cutting
import Lisplet.Proofs.Stopping
import Lisplet.Reader.Pull

/-!
# Reading on demand

A reader takes its tokens one at a time, and looks at one in advance only to learn whether an
expression comes. Reading from a whole supply amounts to this.

How far has been pulled decides which complaint wins when the supply breaks off. A refused token is
noticed, since what lies behind it has not been asked for; but where the tokens alone would do, or
would merely end too early, the next demand meets the fault.

Finding a token while others are being read takes a part of the stack, so there is less of it for
compounds that are open. The two ways of reading part where that is met.
-/

namespace Lisplet

namespace Reader

variable {r r' : Reader} {t : Token} {ts : List Token}

section Pull

variable {depth : Int} {p : Progress}

theorem pull_of_cons (hp : ∀ e, p ≠ .whole e) (h : r.upcoming = t :: ts) :
    r.pull depth p =
      match p.step r.limit depth t with
      | .ok q => (r.withUpcoming ts).pull depth q
      | .error cause => (.error cause, r.withUpcoming ts) := by
  have hpull : r.pull depth p = _ := pull_eq_take hp
  rw [take_of_cons h] at hpull
  exact hpull

theorem pull_of_nil (hp : ∀ e, p ≠ .whole e) (h : r.upcoming = []) :
    r.pull depth p = (.error (r.pending.fault.getD p.endError), r.drained) := by
  rw [pull_eq_take hp, take_of_nil h, afterTokens]
  cases r.pending.fault <;> rfl

/-- Pulling the tokens one by one reads what the tokens to come write. -/
theorem pull_eq (hp : ∀ e, p ≠ .whole e) :
    r.pull depth p =
      match readFrom r.limit depth p r.upcoming with
      | .ok (e, rest) => (.ok e, r.withUpcoming rest)
      | .error (.refused cause rest) => (.error cause, r.withUpcoming rest)
      | .error (.starved q) => (.error (r.pending.fault.getD q.endError), r.drained) := by
  generalize hu : r.upcoming = ts
  induction ts generalizing r p with
  | nil => rw [pull_of_nil hp hu, Progress.readFrom_nil hp]
  | cons t ts ih =>
    rw [pull_of_cons hp hu, Progress.readFrom_cons hp]
    cases hq : p.step r.limit depth t with
    | error cause => rfl
    | ok q =>
      cases q with
      | whole e => simp only [pull_whole, readFrom]
      | operand frames | operator frames => exact ih (by simp) rfl

/-- Reading an expression takes its tokens one by one. -/
theorem readExpr_eq_pull (r : Reader) (depth : Int) : r.readExpr depth = r.pull depth .start := by
  rw [pull_eq (by simp [Progress.start])]
  rfl

section Outcomes

variable {e : Expr} {rest : List Token} {cause : Error} {q : Progress}

theorem pull_of_read (h : readFrom r.limit depth .start r.upcoming = .ok (e, rest)) :
    r.pull depth .start = (.ok e, r.withUpcoming rest) := by
  simp only [← readExpr_eq_pull, readExpr, h]

theorem pull_of_refused
    (h : readFrom r.limit depth .start r.upcoming = .error (.refused cause rest)) :
    r.pull depth .start = (.error cause, r.withUpcoming rest) := by
  simp only [← readExpr_eq_pull, readExpr, h]

theorem pull_of_starved (h : readFrom r.limit depth .start r.upcoming = .error (.starved q)) :
    r.pull depth .start = (.error (r.pending.fault.getD q.endError), r.drained) := by
  simp only [← readExpr_eq_pull, readExpr, h]

end Outcomes

end Pull

section Sole

variable {p q : Progress} {us rest : List Token} {cause : Error}

/-- Tokens that are taken to their end. -/
theorem pullSole_of_steps (hs : Progress.start.steps r.limit 0 r.upcoming = .ok p) :
    r.pullSole = (r.pending.fault.elim p.ended .error, r.drained) := by
  cases hu : r.upcoming with
  | nil =>
    rw [hu] at hs
    cases hs
    rw [pullSole, peek_of_nil hu, afterTokens]
    cases r.pending.fault <;> rfl
  | cons t ts =>
    rw [hu] at hs
    by_cases hw : ∃ e, p = .whole e
    · obtain ⟨e, rfl⟩ := hw
      have hread := readFrom_eq_ok_iff.mpr ⟨t :: ts, (List.append_nil _).symm, hs⟩
      have hpull : (r.withAhead t ts).pull 0 .start = (.ok e, r.withUpcoming []) :=
        pull_of_read hread
      have hpeek : (r.withUpcoming []).peek = (r.afterTokens, r.drained) := peek_of_nil rfl
      simp only [pullSole, peek_of_cons hu, hpull, hpeek, afterTokens]
      cases r.pending.fault <;> rfl
    · have hpartial : ∀ e, p ≠ .whole e := by simpa using hw
      have hread := Progress.readFrom_eq_starved_iff.mpr ⟨hs, hpartial⟩
      have hpull : (r.withAhead t ts).pull 0 .start =
          (.error (r.pending.fault.getD p.endError), r.drained) := pull_of_starved hread
      have hbegun := Progress.ne_start_of_steps hs
      simp only [pullSole, peek_of_cons hu, hpull]
      rw [Progress.ended_of_begun hbegun hpartial, Progress.endError_of_begun hbegun]
      cases r.pending.fault <;> rfl

/-- A refused token is the last one that has been taken or looked at. -/
theorem pullSole_of_refused (hu : r.upcoming = us ++ t :: rest)
    (hs : Progress.start.steps r.limit 0 us = .ok q) (ht : q.step r.limit 0 t = .error cause) :
    ∃ left, r.pullSole = (.error cause, left) ∧ left.pending = ⟨rest, r.pending.fault⟩ ∧
      ∀ u ∈ left.ahead, u = t := by
  -- there is a first token to look at before anything is taken
  obtain ⟨u, ts, hcons⟩ := List.exists_cons_of_ne_nil (List.append_ne_nil_of_right_ne_nil us
    (List.cons_ne_nil t rest))
  have hahead : r.upcoming = u :: ts := hu.trans hcons
  by_cases hw : ∃ e, q = .whole e
  · obtain ⟨e, rfl⟩ := hw
    cases ht
    have hread := readFrom_eq_ok_iff.mpr ⟨us, hcons.symm, hs⟩
    have hpull : (r.withAhead u ts).pull 0 .start = (.ok e, r.withUpcoming (t :: rest)) :=
      pull_of_read hread
    have hpeek : (r.withUpcoming (t :: rest)).peek = (.ok (some t), r.withAhead t rest) :=
      peek_of_cons rfl
    refine ⟨r.withAhead t rest, ?_, rfl, ?_⟩
    · simp only [pullSole, peek_of_cons hahead, hpull, hpeek]
    · intro v hv
      exact (Option.some.inj hv).symm
  · have hread := Progress.readFrom_of_refused hs (by simpa using hw) ht rest
    rw [hcons] at hread
    have hpull : (r.withAhead u ts).pull 0 .start = (.error cause, r.withUpcoming rest) :=
      pull_of_refused hread
    refine ⟨r.withUpcoming rest, ?_, rfl, ?_⟩
    · simp only [pullSole, peek_of_cons hahead, hpull]
    · intro v hv
      cases hv

end Sole

end Reader

/-- Reading one expression is pulling it, with nothing after it. -/
theorem parse_eq_pullSole (limit : Limit) (supply : Supply Token) :
    parse limit supply = (Reader.ofSupply supply limit).pullSole.1 := by
  cases hs : Progress.start.steps limit 0 supply.items with
  | ok p =>
    have hpull := Reader.pullSole_of_steps (r := .ofSupply supply limit) hs
    rw [parse_of_steps hs, hpull]
    rfl
  | error cause =>
    obtain ⟨us, t, rest, q, hitems, hus, ht⟩ := Progress.exists_refused hs
    obtain ⟨left, hpull, -⟩ :=
      Reader.pullSole_of_refused (r := .ofSupply supply limit) hitems hus ht
    rw [parse_of_refused hs, hpull]

namespace Reader

variable {r : Reader} {t : Token} {ts us rest : List Token} {e : Expr} {es : List Expr}
  {ending : Ending}

/-- The complaint about a script whose reading stops like this, if there is any. -/
def faultAt (r : Reader) : Ending → Option Error
  | .refused cause _ => some cause
  | .starved (.operand []) => r.pending.fault
  | .starved p => some (r.pending.fault.getD p.endError)

theorem faultAt_of_begun {p : Progress} (h : p ≠ .start) :
    r.faultAt (.starved p) = some (r.pending.fault.getD p.endError) := by
  unfold faultAt
  split
  · next hp => cases hp
  · next hp =>
    cases hp
    exact absurd rfl h
  · next hp =>
    cases hp
    rfl

/-- The reader when the reading stops like this. -/
def leftBy (r : Reader) : Ending → Reader
  | .refused _ rest => r.withUpcoming rest
  | .starved _ => r.drained

theorem readAll_eq (h : readAllFrom r.limit [] .start r.upcoming = (es, ending)) :
    r.readAll = (⟨es, r.faultAt ending⟩, r.leftBy ending) := by
  simp only [readAll, h]
  cases ending with
  | refused cause rest => rfl
  | starved p =>
    cases p with
    | operand frames => cases frames <;> rfl
    | operator frames | whole e => rfl

theorem readAll_of_nil (hu : r.upcoming = []) :
    r.readAll = (⟨[], r.pending.fault⟩, r.drained) := by
  have hread : readAllFrom r.limit [] .start r.upcoming = ([], .starved .start) := by
    rw [hu]
    rfl
  rw [readAll_eq hread]
  rfl

/-- Where the first expression cannot be read there are none. -/
theorem readAll_of_error (h : readFrom r.limit 0 .start r.upcoming = .error ending) :
    r.readAll = (⟨[], r.faultAt ending⟩, r.leftBy ending) := by
  rw [readAll_eq (readAllFrom_of_error (by simp [Progress.start]) h)]
  rfl

/-- Behind the first expression the others are read by themselves. -/
theorem readAll_of_block (hu : r.upcoming = us ++ rest)
    (hs : Progress.start.steps r.limit 0 us = .ok (.whole e)) :
    r.readAll =
      (⟨e :: (r.withUpcoming rest).readAll.1.items, (r.withUpcoming rest).readAll.1.fault⟩,
        (r.withUpcoming rest).readAll.2) := by
  have hstart : ∀ e, Progress.start ≠ .whole e := by simp [Progress.start]
  rcases hrest : readAllFrom r.limit [] .start rest with ⟨es, ending⟩
  have hread : readAllFrom r.limit [] .start r.upcoming = (e :: es, ending) := by
    rw [hu, readAllFrom_block hstart hs, readAllFrom_done, hrest]
    rfl
  have hbehind : (r.withUpcoming rest).readAll = (⟨es, r.faultAt ending⟩, r.leftBy ending) :=
    readAll_eq hrest
  rw [readAll_eq hread, hbehind]

theorem pullAll_eq_peek (r : Reader) :
    r.pullAll =
      match r.peek with
      | (.error cause, left) => (.error cause, left)
      | (.ok none, left) => (.ok [], left)
      | (.ok (some _), next) =>
        match next.pull 0 .start with
        | (.error cause, left) => (.error cause, left)
        | (.ok e, left) => (left.pullAll.1.map (e :: ·), left.pullAll.2) := by
  rw [pullAll]
  split
  case h_1 hpeek | h_2 hpeek => rw [hpeek]
  case h_3 hpeek =>
    rw [hpeek]
    dsimp only
    split
    all_goals
      next hpull =>
        rw [hpull]

theorem pullAll_of_nil (hu : r.upcoming = []) :
    r.pullAll = (r.pending.fault.elim (.ok []) .error, r.drained) := by
  rw [pullAll_eq_peek, peek_of_nil hu, afterTokens]
  cases r.pending.fault <;> rfl

theorem pullAll_of_cons (hu : r.upcoming = t :: ts) :
    r.pullAll =
      match (r.withAhead t ts).pull 0 .start with
      | (.error cause, left) => (.error cause, left)
      | (.ok e, left) => (left.pullAll.1.map (e :: ·), left.pullAll.2) := by
  rw [pullAll_eq_peek, peek_of_cons hu]

/-- Reading every expression is pulling one after another. -/
theorem readAll_eq_pullAll (r : Reader) : (r.readAll.1.toList, r.readAll.2) = r.pullAll := by
  -- the induction is on the tokens to come, since the reader behind an expression has fewer
  induction hn : r.upcoming.length using Nat.strongRecOn generalizing r with
  | ind n ih =>
    cases hu : r.upcoming with
    | nil =>
      rw [readAll_of_nil hu, pullAll_of_nil hu]
      cases r.pending.fault <;> rfl
    | cons t ts =>
      rw [pullAll_of_cons hu]
      cases hread : readFrom r.limit 0 .start (t :: ts) with
      | ok found =>
        obtain ⟨e, rest⟩ := found
        obtain ⟨us, hus, hs⟩ := readFrom_eq_ok_iff.mp hread
        have hpull : (r.withAhead t ts).pull 0 .start = (.ok e, r.withUpcoming rest) :=
          pull_of_read hread
        have hshorter : rest.length < n := by
          rw [← hn, hu]
          exact length_upcoming_of_pull hpull
        have hbehind := ih rest.length hshorter (r.withUpcoming rest) rfl
        rw [readAll_of_block (hu.trans hus) hs, hpull]
        simp only [← hbehind, Supply.toList]
        cases (r.withUpcoming rest).readAll.1.fault <;> rfl
      | error ending =>
        rw [readAll_of_error (by rw [hu, hread])]
        cases ending with
        | refused cause rest =>
          have hpull : (r.withAhead t ts).pull 0 .start = (.error cause, r.withUpcoming rest) :=
            pull_of_refused hread
          rw [hpull]
          rfl
        | starved p =>
          have hpull : (r.withAhead t ts).pull 0 .start =
              (.error (r.pending.fault.getD p.endError), r.drained) := pull_of_starved hread
          have hbegun := Progress.ne_start_of_steps (Progress.readFrom_eq_starved_iff.mp hread).1
          rw [hpull, faultAt_of_begun hbegun]
          rfl

end Reader

/-- Reading a script is pulling its expressions. -/
theorem parseAll_eq_pullAll (limit : Limit) (supply : Supply Token) :
    parseAll limit supply = (Reader.ofSupply supply limit).pullAll.1 := by
  rw [← Reader.readAll_eq_pullAll]
  rfl

section Stack

variable {depth : Int} {lazy eager : Nat}

/-- The reading ends as the other one does, unless the stack stops it. -/
def SameOrStopped {α : Type} (r r' : Except Error α) : Prop :=
  r = r' ∨ r = .error .nestedTooDeeply

theorem SameOrStopped.bind {α β : Type} {r r' : Except Error α} {f f' : α → Except Error β}
    (h : SameOrStopped r r') (hf : ∀ a, SameOrStopped (f a) (f' a)) :
    SameOrStopped (r >>= f) (r' >>= f') := by
  obtain rfl | rfl := h
  · cases r with
    | ok a => exact hf a
    | error cause => exact .inl rfl
  · exact .inr rfl

namespace Progress

variable {p : Progress} {base : Int} {ts : List Token}

/-- With less of a stack a token is taken in the same way, unless the stack has no room for it. -/
theorem step_of_less_stack (hstack : lazy ≤ eager) (t : Token) :
    SameOrStopped (p.step ⟨depth, lazy⟩ base t) (p.step ⟨depth, eager⟩ base t) := by
  cases p with
  | whole e | operator frames => exact .inl rfl
  | operand frames =>
    cases hkind : t.kind with
    | nil | bool | integer | string | symbol | rparen =>
      simp only [step, hkind]
      exact .inl rfl
    | lparen | other _ =>
      simp only [step, hkind, enter]
      by_cases hroom : lazy ≤ frames.length
      · by_cases hdepth : depth ≤ base + frames.length
        · exact .inl (by rw [if_pos hdepth, if_pos hdepth])
        · exact .inr (by rw [if_neg hdepth, if_pos hroom])
      · refine .inl ?_
        rw [if_neg hroom, if_neg (by omega : ¬eager ≤ frames.length)]

theorem steps_of_less_stack (hstack : lazy ≤ eager) :
    SameOrStopped (p.steps ⟨depth, lazy⟩ base ts) (p.steps ⟨depth, eager⟩ base ts) := by
  induction ts generalizing p with
  | nil => exact .inl rfl
  | cons t ts ih =>
    simp only [steps, List.foldlM_cons]
    exact (step_of_less_stack hstack t).bind fun _ => ih

end Progress

theorem parse_of_less_stack (hstack : lazy ≤ eager) (supply : Supply Token) :
    SameOrStopped (parse ⟨depth, lazy⟩ supply) (parse ⟨depth, eager⟩ supply) :=
  (Progress.steps_of_less_stack hstack).bind fun _ => .inl rfl

theorem readAllFrom_of_less_stack (hstack : lazy ≤ eager) (done : List Expr) (p : Progress)
    (ts : List Token) :
    readAllFrom ⟨depth, lazy⟩ done p ts = readAllFrom ⟨depth, eager⟩ done p ts ∨
      ∃ es rest, readAllFrom ⟨depth, lazy⟩ done p ts = (es, .refused .nestedTooDeeply rest) := by
  induction ts generalizing done p with
  | nil => exact .inl rfl
  | cons t ts ih =>
    simp only [readAllFrom]
    obtain hsame | hstopped := Progress.step_of_less_stack hstack t
    · rw [hsame]
      split
      · exact ih _ _
      · exact ih _ _
      · exact .inl rfl
    · rw [hstopped]
      exact .inr ⟨_, _, rfl⟩

theorem parseAll_of_less_stack (hstack : lazy ≤ eager) (supply : Supply Token) :
    SameOrStopped (parseAll ⟨depth, lazy⟩ supply) (parseAll ⟨depth, eager⟩ supply) := by
  obtain hsame | ⟨es, rest, hstopped⟩ :=
    @readAllFrom_of_less_stack depth lazy eager hstack [] .start supply.items
  · rcases hr : readAllFrom ⟨depth, eager⟩ [] .start supply.items with ⟨es, ending⟩
    rw [parseAll, parseAll,
      Reader.readAll_eq (r := .ofSupply supply ⟨depth, lazy⟩) (hsame.trans hr),
      Reader.readAll_eq (r := .ofSupply supply ⟨depth, eager⟩) hr]
    exact .inl rfl
  · rw [parseAll, Reader.readAll_eq (r := .ofSupply supply ⟨depth, lazy⟩) hstopped]
    exact .inr rfl

end Stack

theorem toList_eq_error_iff {α : Type} {s : Supply α} {cause : Error} :
    s.toList = .error cause ↔ s.fault = some cause := by
  obtain ⟨items, fault⟩ := s
  cases fault <;> simp [Supply.toList]

/-- The complaint that comes out when the supply breaks off for `fault`, behind tokens that by
themselves are read with this result. -/
inductive Noticed {α : Type} (fault : Error) : Except Error α → Error → Prop
  | token {cause : Error} (h : cause.AboutToken) : Noticed fault (.error cause) cause
  | read (a : α) : Noticed fault (.ok a) fault
  | nothing : Noticed fault (.error .emptyInput) fault
  | unclosed : Noticed fault (.error .unmatchedOpen) fault

theorem parse_of_fault (limit : Limit) (ts : List Token) (fault : Error) :
    ∃ cause, parse limit ⟨ts, some fault⟩ = .error cause ∧
      Noticed fault (parse limit (.ofList ts)) cause := by
  cases hs : Progress.start.steps limit 0 ts with
  | error cause =>
    rw [@parse_of_refused limit ⟨ts, some fault⟩ cause hs,
      @parse_of_refused limit (.ofList ts) cause hs]
    exact ⟨cause, rfl, .token (Progress.aboutToken_of_steps hs)⟩
  | ok p =>
    rw [@parse_of_steps limit ⟨ts, some fault⟩ p hs, @parse_of_steps limit (.ofList ts) p hs]
    refine ⟨fault, rfl, ?_⟩
    change Noticed fault p.ended fault
    unfold Progress.ended
    split
    case h_1 e => exact .read e
    case h_2 => exact .nothing
    case h_3 hstart =>
      rw [Progress.endError_of_begun hstart]
      exact .unclosed

/-- With less of a stack the complaint is the same one, unless the stack stops the reading. -/
theorem noticed_of_less_stack {α : Type} {r r' whole : Except Error α} {cause fault : Error}
    (h : SameOrStopped r r') (hr : r = .error cause)
    (hnoticed : ∃ cause, r' = .error cause ∧ Noticed fault whole cause) :
    Noticed fault whole cause ∨ cause = .nestedTooDeeply := by
  obtain rfl | hstopped := h
  · obtain ⟨cause', hr', hnoticed⟩ := hnoticed
    obtain rfl := Except.error.inj (hr.symm.trans hr')
    exact .inl hnoticed
  · exact .inr (Except.error.inj (hr.symm.trans hstopped))

theorem parseAll_of_fault (limit : Limit) (ts : List Token) (fault : Error) :
    ∃ cause, parseAll limit ⟨ts, some fault⟩ = .error cause ∧
      Noticed fault (parseAll limit (.ofList ts)) cause := by
  rcases hr : readAllFrom limit [] .start ts with ⟨es, ending⟩
  rw [parseAll, parseAll, Reader.readAll_eq (r := .ofSupply ⟨ts, some fault⟩ limit) hr,
    Reader.readAll_eq (r := .ofSupply (.ofList ts) limit) hr]
  cases ending with
  | refused cause rest => exact ⟨cause, rfl, .token (Progress.aboutToken_of_readAllFrom hr)⟩
  | starved p =>
    by_cases hp : p = .start
    · subst hp
      exact ⟨fault, rfl, .read es⟩
    · rw [Reader.faultAt_of_begun hp, Reader.faultAt_of_begun hp, Progress.endError_of_begun hp]
      exact ⟨fault, rfl, .unclosed⟩

/-- A text is read by pulling its tokens one at a time. That agrees with finding all of its tokens
first, unless the stack, which then has less room for open compounds, stops it. If all tokens are
found, the text reads as they do. If finding them breaks off, the text does not read: it is refused
for the token for which those found are refused, if they are; but the fault comes out if they would
be read, or if they fail only for having ended. With as much of the stack for both there is no
exception. -/
theorem pulling_agrees_with_finding_all_tokens (depth : Int) {lazy eager : Nat}
    (hstack : lazy ≤ eager) (source : String) :
    let pulling : Limit := ⟨depth, lazy⟩
    let listing : Limit := ⟨depth, eager⟩
    parseText pulling source = (Reader.ofSupply (tokens source) pulling).pullSole.1 ∧
    parseAllText pulling source = (Reader.ofSupply (tokens source) pulling).pullAll.1 ∧
    (∀ ts, (tokens source).toList = .ok ts →
      (SameOrStopped (parseText pulling source) (parse listing (.ofList ts)) ∧
        SameOrStopped (parseAllText pulling source) (parseAll listing (.ofList ts))) ∧
      parseText pulling source = parse pulling (.ofList ts) ∧
      parseAllText pulling source = parseAll pulling (.ofList ts)) ∧
    (∀ fault, (tokens source).toList = .error fault →
      ∃ cause cause', parseText pulling source = .error cause ∧
        (Noticed fault (parse listing (.ofList (tokens source).items)) cause ∨
          cause = .nestedTooDeeply) ∧
        Noticed fault (parse pulling (.ofList (tokens source).items)) cause ∧
        parseAllText pulling source = .error cause' ∧
        (Noticed fault (parseAll listing (.ofList (tokens source).items)) cause' ∨
          cause' = .nestedTooDeeply) ∧
        Noticed fault (parseAll pulling (.ofList (tokens source).items)) cause') := by
  intro pulling listing
  refine ⟨parse_eq_pullSole pulling _, parseAll_eq_pullAll pulling _, ?_, ?_⟩
  · intro ts hts
    rw [parseText, parseAllText, toList_eq_ok_iff.mp hts]
    exact ⟨⟨parse_of_less_stack hstack _, parseAll_of_less_stack hstack _⟩, rfl, rfl⟩
  · intro fault hfault
    have hsupply : tokens source = ⟨(tokens source).items, some fault⟩ := by
      rw [← toList_eq_error_iff.mp hfault]
    obtain ⟨cause, hparse, hnoticed⟩ := parse_of_fault pulling (tokens source).items fault
    obtain ⟨cause', hparseAll, hnoticed'⟩ := parseAll_of_fault pulling (tokens source).items fault
    have hless := noticed_of_less_stack (parse_of_less_stack hstack _) hparse
      (parse_of_fault listing (tokens source).items fault)
    have hless' := noticed_of_less_stack (parseAll_of_less_stack hstack _) hparseAll
      (parseAll_of_fault listing (tokens source).items fault)
    rw [← hsupply] at hparse hparseAll
    exact ⟨cause, cause', hparse, hless, hnoticed, hparseAll, hless', hnoticed'⟩

/-- Behind a token too many an open literal is not noticed, but within a compound it is. -/
theorem refused_token_hides_open_literal :
    987 ≤ 994 ∧
    (tokens "(f) ) \"abc").toList = .error (.unterminatedString 6) ∧
    parseText ⟨200, 987⟩ "(f) ) \"abc" = .error (.trailingToken .rparen) ∧
    parseAllText ⟨200, 987⟩ "(f) ) \"abc" = .error .unexpectedClose ∧
    (tokens "(f \"abc").toList = .error (.unterminatedString 3) ∧
    parseText ⟨200, 987⟩ "(f \"abc" = .error (.unterminatedString 3) := by
  have hstack : 987 ≤ 994 := by decide
  have hfirst : (tokens "(f) ) \"abc").toList = .error (.unterminatedString 6) := by decide +kernel
  have hsecond : (tokens "(f \"abc").toList = .error (.unterminatedString 3) := by decide +kernel
  obtain ⟨cause, cause', hparse, -, hnoticed, hparseAll, -, hnoticed'⟩ :=
    (pulling_agrees_with_finding_all_tokens 200 hstack "(f) ) \"abc").2.2.2 _ hfirst
  obtain ⟨cause₂, -, hparse₂, -, hnoticed₂, -⟩ :=
    (pulling_agrees_with_finding_all_tokens 200 hstack "(f \"abc").2.2.2 _ hsecond
  have htrailing : parse ⟨200, 987⟩ (.ofList (tokens "(f) ) \"abc").items) =
      .error (.trailingToken .rparen) := rfl
  have hclose : parseAll ⟨200, 987⟩ (.ofList (tokens "(f) ) \"abc").items) =
      .error .unexpectedClose := rfl
  have hopen : parse ⟨200, 987⟩ (.ofList (tokens "(f \"abc").items) = .error .unmatchedOpen := rfl
  rw [htrailing] at hnoticed
  rw [hclose] at hnoticed'
  rw [hopen] at hnoticed₂
  refine ⟨hstack, hfirst, ?_, ?_, hsecond, ?_⟩
  · cases hnoticed
    exact hparse
  · cases hnoticed'
    exact hparseAll
  · cases hnoticed₂ with
    | token h => exact h.elim
    | unclosed => exact hparse₂

namespace Openings

/-- A text that opens so many compounds and closes none. -/
def source : Nat → String
  | 0 => ""
  | n + 1 => "(block " ++ source n

/-- Its tokens. -/
def opened (n : Nat) : List Token :=
  (List.replicate n [Token.lparen, Token.symbol "block"]).flatten

theorem tokens_source (n : Nat) : tokens (source n) = .ofList (opened n) := by
  induction n with
  | zero => rfl
  | succ n ih =>
    have hsettled : Settled "(block " := rfl
    have hfront : tokens "(block " = .ofList [Token.lparen, Token.symbol "block"] := by
      decide +kernel
    exact tokens_append hsettled hfront ih

variable {limit : Limit} {frames : List Frame} {n : Nat}

theorem steps_pair (hdepth : frames.length < limit.depth) (hstack : frames.length < limit.stack)
    (ts : List Token) :
    (Progress.operand frames).steps limit 0 (Token.lparen :: Token.symbol "block" :: ts) =
      (Progress.operand (⟨.string "block", []⟩ :: frames)).steps limit 0 ts := by
  have henter : Progress.enter limit 0 frames = .ok (.operator frames) :=
    Progress.enter_eq_ok_iff.mpr ⟨rfl, by omega, hstack⟩
  rw [Progress.steps_cons (by rw [Progress.step_lparen, henter]),
    Progress.steps_cons (Progress.step_operator limit 0 frames "block")]

/-- Where there is room for all of them, that many compounds are open in the end. -/
theorem steps_opened (hdepth : frames.length + n ≤ limit.depth)
    (hstack : frames.length + n ≤ limit.stack) :
    ∃ frames', (Progress.operand frames).steps limit 0 (opened n) = .ok (.operand frames') ∧
      frames'.length = frames.length + n := by
  induction n generalizing frames with
  | zero => exact ⟨frames, rfl, rfl⟩
  | succ n ih =>
    obtain ⟨frames', hs, hlength⟩ := @ih (⟨.string "block", []⟩ :: frames)
      (by rw [List.length_cons]; omega) (by rw [List.length_cons]; omega)
    refine ⟨frames', ?_, by rw [hlength, List.length_cons]; omega⟩
    exact (steps_pair (by omega) (by omega) (opened n)).trans hs

/-- Where the stack has no room for one of them, that one is refused. -/
theorem steps_opened_stopped (hdepth : frames.length + n ≤ limit.depth)
    (hframes : frames.length ≤ limit.stack) (hstack : limit.stack < frames.length + n) :
    (Progress.operand frames).steps limit 0 (opened n) = .error .nestedTooDeeply := by
  induction n generalizing frames with
  | zero => omega
  | succ n ih =>
    by_cases hroom : frames.length < limit.stack
    · have hrest := @ih (⟨.string "block", []⟩ :: frames) (by rw [List.length_cons]; omega)
        (by rw [List.length_cons]; omega) (by rw [List.length_cons]; omega)
      exact (steps_pair (by omega) hroom (opened n)).trans hrest
    · have henter : Progress.enter limit 0 frames = .error .nestedTooDeeply := by
        rw [Progress.enter, if_neg (by omega), if_pos (by omega)]
      change (Progress.operand frames).steps limit 0 (Token.lparen :: _) = _
      simp only [Progress.steps, List.foldlM_cons, Progress.step_lparen, henter]
      rfl

theorem parse_opened (hpos : 0 < n) (hdepth : n ≤ limit.depth) (hstack : n ≤ limit.stack) :
    parse limit (.ofList (opened n)) = .error .unmatchedOpen := by
  obtain ⟨frames', hs, hlength⟩ :=
    @steps_opened limit [] n (by simpa using hdepth) (by simpa using hstack)
  have hbegun : Progress.operand frames' ≠ .start := by
    rintro ⟨⟩
    rw [List.length_nil] at hlength
    omega
  rw [@parse_of_steps limit (.ofList (opened n)) _ hs]
  exact Progress.ended_of_begun hbegun (by simp)

theorem parse_opened_stopped (hdepth : n ≤ limit.depth) (hstack : limit.stack < n) :
    parse limit (.ofList (opened n)) = .error .nestedTooDeeply :=
  @parse_of_refused limit (.ofList (opened n)) _
    (@steps_opened_stopped limit [] n (by simpa using hdepth) (Nat.zero_le _)
      (by simpa using hstack))

end Openings

/-- Of 992 compounds that are opened the last ones are refused when their tokens are pulled; when
all tokens are found first, there is room for them, and it is their ends that are missing. -/
theorem finding_tokens_takes_stack :
    let source := Openings.source 992
    let ts := Openings.opened 992
    (tokens source).toList = .ok ts ∧
      parseText ⟨2000, 987⟩ source = .error .nestedTooDeeply ∧
      parse ⟨2000, 994⟩ (.ofList ts) = .error .unmatchedOpen := by
  intro source ts
  have htokens : tokens source = .ofList ts := Openings.tokens_source 992
  refine ⟨?_, ?_, Openings.parse_opened (by decide) (by decide) (by decide)⟩
  · rw [htokens]
    rfl
  · rw [parseText, htokens]
    exact Openings.parse_opened_stopped (by decide) (by decide)

end Lisplet
