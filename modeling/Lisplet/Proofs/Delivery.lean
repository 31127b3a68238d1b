import Lisplet.Proofs.Pulling

/-!
# What a reader delivers

A reader may be asked in any order to look at a token, to take one, to tell whether one is left, to
read an expression or to read all of them; and whatever fails, it may be asked again. `Uses` says
what an answer costs when nothing is looked at in advance: which tokens it takes from the supply and
what it leaves. A reader answers as this says, so what has been looked at is never lost and never
given twice.

`Needs` says when an answer depends on more than the tokens still to come. If the supply breaks off,
the first demand that needs more raises the fault, and from then on nothing comes.
-/

namespace Lisplet

/-- What may be asked of a reader. -/
inductive Demand where
  | peek
  | take
  | atEnd
  | readExpr (depth : Int)
  | readAll

/-- What a reader gives back. -/
inductive Reply where
  | token (answer : Except Error (Option Token))
  | ended (answer : Except Error Bool)
  | expr (answer : Except Error Expr)
  | exprs (answer : Supply Expr)

/-- The complaint in a reply; the expressions read before it have been given. -/
def Reply.fault? : Reply → Option Error
  | .token (.error cause) | .ended (.error cause) | .expr (.error cause) => some cause
  | .exprs answer => answer.fault
  | _ => none

/-- The reply when no token is left and the supply ends like this. -/
def Demand.bare (fault : Option Error) : Demand → Reply
  | .peek | .take => .token (fault.elim (.ok none) .error)
  | .atEnd => .ended (fault.elim (.ok true) .error)
  | .readExpr _ => .expr (.error (fault.getD .unexpectedEnd))
  | .readAll => .exprs ⟨[], fault⟩

/-- The demand is answered by the reply at the cost of some tokens, and leaves the rest; `fault` is
how the supply breaks off. -/
inductive Uses (limit : Limit) (fault : Option Error) :
    Demand → Reply → List Token → Supply Token → Prop
  | bare (d : Demand) : Uses limit fault d (d.bare fault) [] .empty
  | peek (t : Token) (rest : List Token) :
      Uses limit fault .peek (.token (.ok (some t))) [] ⟨t :: rest, fault⟩
  | atEnd (t : Token) (rest : List Token) :
      Uses limit fault .atEnd (.ended (.ok false)) [] ⟨t :: rest, fault⟩
  | take (t : Token) (rest : List Token) :
      Uses limit fault .take (.token (.ok (some t))) [t] ⟨rest, fault⟩
  | read {depth : Int} {us : List Token} {e : Expr}
      (hs : Progress.start.steps limit depth us = .ok (.whole e)) (rest : List Token) :
      Uses limit fault (.readExpr depth) (.expr (.ok e)) us ⟨rest, fault⟩
  /-- The refused token is used up with those before it. -/
  | refused {depth : Int} {us : List Token} {p : Progress} {t : Token} {cause : Error}
      (hs : Progress.start.steps limit depth us = .ok p) (hp : ∀ e, p ≠ .whole e)
      (ht : p.step limit depth t = .error cause) (rest : List Token) :
      Uses limit fault (.readExpr depth) (.expr (.error cause)) (us ++ [t]) ⟨rest, fault⟩
  | starved {depth : Int} {us : List Token} {p : Progress}
      (hs : Progress.start.steps limit depth us = .ok p) (hp : ∀ e, p ≠ .whole e) :
      Uses limit fault (.readExpr depth) (.expr (.error (fault.getD p.endError))) us .empty
  | more {us vs : List Token} {e : Expr} {answer : Supply Expr} {left : Supply Token}
      (hs : Progress.start.steps limit 0 us = .ok (.whole e))
      (others : Uses limit fault .readAll (.exprs answer) vs left) :
      Uses limit fault .readAll (.exprs ⟨e :: answer.items, answer.fault⟩) (us ++ vs) left
  | stop {us : List Token} {cause : Error} {left : Supply Token}
      (first : Uses limit fault (.readExpr 0) (.expr (.error cause)) us left) (hus : us ≠ []) :
      Uses limit fault .readAll (.exprs ⟨[], some cause⟩) us left

/-- What a supply gives when it is asked one thing after another: the replies, the tokens used for
them and what is left. -/
inductive Transcript (limit : Limit) :
    Supply Token → List Demand → List Reply → List Token → Supply Token → Prop
  | nil (s : Supply Token) : Transcript limit s [] [] [] s
  | cons {fault : Option Error} {d : Demand} {reply : Reply} {us vs : List Token}
      {between left : Supply Token} {ds : List Demand} {replies : List Reply}
      (first : Uses limit fault d reply us between)
      (others : Transcript limit between ds replies vs left) :
      Transcript limit ⟨us ++ between.items, fault⟩ (d :: ds) (reply :: replies) (us ++ vs) left

/-- With only these tokens to come, the demand asks for one more. -/
inductive Needs (limit : Limit) : Demand → List Token → Prop
  | peek : Needs limit .peek []
  | take : Needs limit .take []
  | atEnd : Needs limit .atEnd []
  | readExpr {depth : Int} {ts : List Token} {p : Progress}
      (hs : Progress.start.steps limit depth ts = .ok p) (hp : ∀ e, p ≠ .whole e) :
      Needs limit (.readExpr depth) ts
  | first {ts : List Token} (h : Needs limit (.readExpr 0) ts) : Needs limit .readAll ts
  | behind {us ts : List Token} {e : Expr}
      (hs : Progress.start.steps limit 0 us = .ok (.whole e)) (h : Needs limit .readAll ts) :
      Needs limit .readAll (us ++ ts)

/-- Reading the tokens makes this complaint, so they have been found. -/
def Error.OfReading (cause : Error) : Prop :=
  cause.AboutToken ∨ cause = .unexpectedEnd ∨ cause = .unmatchedOpen

theorem Progress.ofReading_endError (p : Progress) : p.endError.OfReading := by
  unfold endError
  split
  · exact .inr (.inl rfl)
  · exact .inr (.inr rfl)

/-- What breaks the tokens of a text off is no complaint about tokens. -/
theorem not_ofReading_of_tokens {source : String} {cause : Error}
    (h : (tokens source).fault = some cause) : ¬cause.OfReading := by
  obtain hparts | ⟨p, -, hp⟩ := Supply.fault_convert h
  · rw [parts, Scan.finish] at hparts
    split at hparts
    · cases hparts
    all_goals
      cases hparts
      simp [Error.OfReading, Error.AboutToken]
  · have hpart := Token.aboutPart_of_classify hp
    cases cause with
    | unknownEscape escaped literal | danglingEscape | numeralTooLong digits | emptyWord =>
      simp [Error.OfReading, Error.AboutToken]
    | _ => exact hpart.elim

namespace Needs

variable {limit : Limit} {depth : Int} {us ts rest : List Token} {e : Expr} {cause : Error}

theorem readExpr_iff : Needs limit (.readExpr depth) ts ↔
    ∃ p, readFrom limit depth .start ts = .error (.starved p) := by
  constructor
  · intro h
    cases h with
    | readExpr hs hp => exact ⟨_, Progress.readFrom_eq_starved_iff.mpr ⟨hs, hp⟩⟩
  · rintro ⟨p, hr⟩
    obtain ⟨hs, hp⟩ := Progress.readFrom_eq_starved_iff.mp hr
    exact .readExpr hs hp

/-- Without tokens everything needs one. -/
theorem nil (limit : Limit) (d : Demand) : Needs limit d [] := by
  have hread (depth : Int) : Needs limit (.readExpr depth) [] :=
    .readExpr rfl (by simp [Progress.start])
  cases d with
  | peek => exact .peek
  | take => exact .take
  | atEnd => exact .atEnd
  | readExpr depth => exact hread depth
  | readAll => exact .first (hread 0)

/-- What reading all of them needs is needed for the first or behind it. -/
theorem readAll_inv (h : Needs limit .readAll ts) : Needs limit (.readExpr 0) ts ∨
    ∃ e rest, readFrom limit 0 .start ts = .ok (e, rest) ∧ Needs limit .readAll rest := by
  cases h with
  | first h => exact .inl h
  | behind hs h => exact .inr ⟨_, _, readFrom_eq_ok_iff.mpr ⟨_, rfl, hs⟩, h⟩

theorem not_of_read (hr : readFrom limit depth .start ts = .ok (e, rest)) :
    ¬Needs limit (.readExpr depth) ts := by
  simp [readExpr_iff, hr]

theorem not_of_refused (hr : readFrom limit depth .start ts = .error (.refused cause rest)) :
    ¬Needs limit (.readExpr depth) ts := by
  simp [readExpr_iff, hr]

theorem not_readAll_of_refused
    (hr : readFrom limit 0 .start ts = .error (.refused cause rest)) :
    ¬Needs limit .readAll ts := by
  intro h
  obtain hfirst | ⟨e, behind, hread, -⟩ := h.readAll_inv
  · exact not_of_refused hr hfirst
  · rw [hr] at hread
    cases hread

theorem readAll_block_iff (hs : Progress.start.steps limit 0 us = .ok (.whole e)) :
    Needs limit .readAll (us ++ ts) ↔ Needs limit .readAll ts := by
  refine ⟨fun h => ?_, .behind hs⟩
  have hr : readFrom limit 0 .start (us ++ ts) = .ok (e, ts) :=
    readFrom_eq_ok_iff.mpr ⟨us, rfl, hs⟩
  obtain hfirst | ⟨e', behind, hread, hneeds⟩ := h.readAll_inv
  · exact (not_of_read hr hfirst).elim
  · rw [hr] at hread
    cases hread
    exact hneeds

end Needs

theorem Demand.fault?_bare (d : Demand) (fault : Option Error) {cause : Error}
    (hc : ¬cause.OfReading) : (d.bare fault).fault? = some cause ↔ fault = some cause := by
  cases d with
  | peek | take | atEnd =>
    cases fault <;> simp [bare, Reply.fault?]
  | readAll => rfl
  | readExpr depth =>
    have hne : Error.unexpectedEnd ≠ cause := by
      rintro rfl
      exact hc (.inr (.inl rfl))
    cases fault <;> simp [bare, Reply.fault?, hne]

namespace Uses

variable {limit : Limit} {fault : Option Error} {d : Demand} {reply : Reply} {us : List Token}
  {left : Supply Token}

/-- A demand that needs more ends the supply and raises its fault; any other keeps the fault back,
and complains of the tokens alone. -/
theorem needs_or_not (h : Uses limit fault d reply us left) :
    (Needs limit d (us ++ left.items) ∧ left = .empty ∧
      ∀ cause : Error, ¬cause.OfReading → (reply.fault? = some cause ↔ fault = some cause)) ∨
    (¬Needs limit d (us ++ left.items) ∧ left.fault = fault ∧
      ∀ cause : Error, reply.fault? = some cause → cause.OfReading) := by
  induction h with
  | bare d => exact .inl ⟨.nil limit d, rfl, fun cause hc => d.fault?_bare fault hc⟩
  | peek t rest | atEnd t rest | take t rest =>
    refine .inr ⟨?_, rfl, ?_⟩
    · rintro ⟨⟩
    · rintro cause ⟨⟩
  | read hs rest =>
    refine .inr ⟨Needs.not_of_read (readFrom_eq_ok_iff.mpr ⟨_, rfl, hs⟩), rfl, ?_⟩
    rintro cause ⟨⟩
  | refused hs hp ht rest =>
    refine .inr ⟨?_, rfl, ?_⟩
    · rw [List.append_assoc]
      exact Needs.not_of_refused (Progress.readFrom_of_refused hs hp ht rest)
    · rintro cause ⟨⟩
      exact .inl (Progress.aboutToken_of_step ht)
  | @starved depth us p hs hp =>
    refine .inl ⟨?_, rfl, ?_⟩
    · rw [Supply.empty, List.append_nil]
      exact .readExpr hs hp
    · intro cause hc
      have hne : p.endError ≠ cause := by
        rintro rfl
        exact hc p.ofReading_endError
      cases fault <;> simp [Reply.fault?, hne]
  | more hs others ih =>
    rw [List.append_assoc, Needs.readAll_block_iff hs]
    exact ih
  | stop first hus ih =>
    obtain ⟨hneeds, hleft, hfault⟩ | ⟨hneeds, hleft, hfault⟩ := ih
    · exact .inl ⟨.first hneeds, hleft, hfault⟩
    · refine .inr ⟨?_, hleft, hfault⟩
      cases first with
      | bare => exact absurd rfl hus
      | starved hs hp =>
        rw [Supply.empty, List.append_nil] at hneeds
        exact absurd (.readExpr hs hp) hneeds
      | refused hs hp ht rest =>
        rw [List.append_assoc]
        exact Needs.not_readAll_of_refused (Progress.readFrom_of_refused hs hp ht rest)

/-- The fault comes out exactly where more is needed. -/
theorem fault?_eq_iff (h : Uses limit fault d reply us left) {cause : Error}
    (hc : ¬cause.OfReading) :
    reply.fault? = some cause ↔ fault = some cause ∧ Needs limit d (us ++ left.items) := by
  obtain ⟨hneeds, -, hfault⟩ | ⟨hneeds, -, hfault⟩ := h.needs_or_not
  · rw [hfault cause hc, and_iff_left hneeds]
  · exact ⟨fun hr => absurd (hfault cause hr) hc, fun hn => absurd hn.2 hneeds⟩

end Uses

namespace Transcript

variable {limit : Limit} {s left : Supply Token} {ds : List Demand} {replies : List Reply}
  {used : List Token} {cause : Error}

theorem items_eq (h : Transcript limit s ds replies used left) : s.items = used ++ left.items := by
  induction h with
  | nil s => rfl
  | cons first others ih => rw [List.append_assoc, ih]

theorem of_empty (h : Transcript limit s ds replies used left) (hs : s = .empty) :
    left = .empty := by
  induction h with
  | nil s => exact hs
  | @cons fault d reply us vs between left ds replies first others ih =>
    obtain ⟨hitems, rfl⟩ := Supply.mk.inj hs
    obtain ⟨-, hbetween⟩ := List.append_eq_nil_iff.mp hitems
    apply ih
    obtain ⟨-, hleft, -⟩ | ⟨-, hleft, -⟩ := first.needs_or_not
    · exact hleft
    · obtain ⟨items, fault⟩ := between
      obtain rfl : items = [] := hbetween
      obtain rfl : fault = none := hleft
      rfl

/-- A fault still to come has been there from the beginning. -/
theorem fault_of_left (h : Transcript limit s ds replies used left)
    (hleft : left.fault = some cause) : s.fault = some cause := by
  induction h with
  | nil s => exact hleft
  | cons first others ih =>
    have hbetween := ih hleft
    obtain ⟨-, rfl, -⟩ | ⟨-, hkept, -⟩ := first.needs_or_not
    · cases hbetween
    · exact hkept.symm.trans hbetween

/-- The fault is still to come, or it has been raised and nothing is left. -/
theorem raised_or_not (h : Transcript limit s ds replies used left) (hc : ¬cause.OfReading)
    (hs : s.fault = some cause) :
    (left.fault = some cause ∧ ∀ reply ∈ replies, reply.fault? ≠ some cause) ∨
    (left = .empty ∧ ∃ reply ∈ replies, reply.fault? = some cause) := by
  induction h with
  | nil s => exact .inl ⟨hs, by simp⟩
  | @cons fault d reply us vs between left ds replies first others ih =>
    obtain ⟨-, rfl, hfault⟩ | ⟨-, hbetween, hfault⟩ := first.needs_or_not
    · exact .inr ⟨others.of_empty rfl, reply, List.mem_cons_self, (hfault cause hc).mpr hs⟩
    · obtain ⟨hleft, hquiet⟩ | ⟨hleft, a, ha, hraised⟩ := ih (hbetween.trans hs)
      · refine .inl ⟨hleft, List.forall_mem_cons.mpr ⟨?_, hquiet⟩⟩
        exact fun hr => hc (hfault cause hr)
      · exact .inr ⟨hleft, a, List.mem_cons_of_mem _ ha, hraised⟩

end Transcript

namespace Reader

variable {r : Reader} {t : Token} {ts : List Token} {d look : Demand}

def serve (r : Reader) : Demand → Reply × Reader
  | .peek => (.token r.peek.1, r.peek.2)
  | .take => (.token r.take.1, r.take.2)
  | .atEnd => (.ended r.atEnd.1, r.atEnd.2)
  | .readExpr depth => (.expr (r.readExpr depth).1, (r.readExpr depth).2)
  | .readAll => (.exprs r.readAll.1, r.readAll.2)

/-- The reader after some demands, whether they failed or not. -/
def after (r : Reader) (ds : List Demand) : Reader :=
  ds.foldl (fun r d => (r.serve d).2) r

def replies : Reader → List Demand → List Reply
  | _, [] => []
  | r, d :: ds => (r.serve d).1 :: (r.serve d).2.replies ds

/-- What is still to be taken, the token looked at included. -/
def toSupply (r : Reader) : Supply Token := ⟨r.upcoming, r.pending.fault⟩

section Serve

theorem atEnd_of_cons (h : r.upcoming = t :: ts) : r.atEnd = (.ok false, r.withAhead t ts) := by
  rw [atEnd, peek_of_cons h]
  rfl

theorem serve_of_nil (d : Demand) (h : r.upcoming = []) :
    r.serve d = (d.bare r.pending.fault, r.drained) := by
  cases d with
  | peek =>
    rw [serve, peek_of_nil h, afterTokens, Demand.bare]
    cases r.pending.fault <;> rfl
  | take =>
    rw [serve, take_of_nil h, afterTokens, Demand.bare]
    cases r.pending.fault <;> rfl
  | atEnd =>
    rw [serve, atEnd, peek_of_nil h, afterTokens, Demand.bare]
    cases r.pending.fault <;> rfl
  | readExpr depth =>
    rw [serve, readExpr_eq_pull, pull_of_nil (by simp [Progress.start]) h]
    rfl
  | readAll =>
    rw [serve, readAll_of_nil h]
    rfl

theorem limit_serve (r : Reader) (d : Demand) : (r.serve d).2.limit = r.limit := by
  cases hu : r.upcoming with
  | nil =>
    rw [serve_of_nil d hu]
    rfl
  | cons t ts =>
    cases d with
    | peek =>
      rw [serve, peek_of_cons hu]
      rfl
    | take =>
      rw [serve, take_of_cons hu]
      rfl
    | atEnd =>
      rw [serve, atEnd_of_cons hu]
      rfl
    | readExpr depth =>
      simp only [serve, readExpr]
      split <;> rfl
    | readAll =>
      simp only [serve, readAll]
      split <;> rfl

theorem uses_readExpr (r : Reader) (depth : Int) :
    ∃ us, r.upcoming = us ++ (r.readExpr depth).2.upcoming ∧
      Uses r.limit r.pending.fault (.readExpr depth) (.expr (r.readExpr depth).1) us
        (r.readExpr depth).2.toSupply := by
  rw [readExpr_eq_pull]
  cases hr : readFrom r.limit depth .start r.upcoming with
  | ok found =>
    obtain ⟨e, rest⟩ := found
    obtain ⟨us, hu, hs⟩ := readFrom_eq_ok_iff.mp hr
    rw [pull_of_read hr]
    exact ⟨us, hu, .read hs rest⟩
  | error ending =>
    cases ending with
    | refused cause rest =>
      obtain ⟨us, t, p, hu, hs, hp, ht⟩ := Progress.readFrom_refused_inv hr
      rw [pull_of_refused hr]
      refine ⟨us ++ [t], ?_, .refused hs hp ht rest⟩
      rw [hu, upcoming_withUpcoming, List.append_assoc]
      rfl
    | starved p =>
      obtain ⟨hs, hp⟩ := Progress.readFrom_eq_starved_iff.mp hr
      rw [pull_of_starved hr]
      exact ⟨r.upcoming, (List.append_nil _).symm, .starved hs hp⟩

theorem uses_readAll (r : Reader) :
    ∃ us, r.upcoming = us ++ r.readAll.2.upcoming ∧
      Uses r.limit r.pending.fault .readAll (.exprs r.readAll.1) us r.readAll.2.toSupply := by
  -- the induction is on the tokens to come, of which every expression takes some
  induction hn : r.upcoming.length using Nat.strongRecOn generalizing r with
  | ind n ih =>
    by_cases hu : r.upcoming = []
    · rw [readAll_of_nil hu]
      exact ⟨[], hu, .bare .readAll⟩
    cases hr : readFrom r.limit 0 .start r.upcoming with
    | ok found =>
      obtain ⟨e, rest⟩ := found
      obtain ⟨us, hus, hs⟩ := readFrom_eq_ok_iff.mp hr
      have hshorter : rest.length < n := by
        rw [← hn]
        exact length_upcoming_of_pull (pull_of_read hr)
      obtain ⟨vs, hvs, hothers⟩ := ih rest.length hshorter (r.withUpcoming rest) rfl
      rw [readAll_of_block hus hs]
      refine ⟨us ++ vs, ?_, .more hs hothers⟩
      rw [hus, List.append_assoc, ← hvs, upcoming_withUpcoming]
    | error ending =>
      rw [readAll_of_error hr]
      cases ending with
      | refused cause rest =>
        obtain ⟨us, t, p, hus, hs, hp, ht⟩ := Progress.readFrom_refused_inv hr
        refine ⟨us ++ [t], ?_, .stop (.refused hs hp ht rest) (by simp)⟩
        rw [hus, leftBy, upcoming_withUpcoming, List.append_assoc]
        rfl
      | starved p =>
        obtain ⟨hs, hp⟩ := Progress.readFrom_eq_starved_iff.mp hr
        obtain ⟨t, ts, hcons⟩ := List.exists_cons_of_ne_nil hu
        have hbegun : p ≠ .start := by
          rw [hcons] at hs
          exact Progress.ne_start_of_steps hs
        rw [faultAt_of_begun hbegun]
        exact ⟨r.upcoming, (List.append_nil _).symm, .stop (.starved hs hp) hu⟩

/-- Whatever is asked, the tokens used come off the front of those still to be taken. -/
theorem uses_serve (r : Reader) (d : Demand) :
    ∃ us, r.upcoming = us ++ (r.serve d).2.upcoming ∧
      Uses r.limit r.pending.fault d (r.serve d).1 us (r.serve d).2.toSupply := by
  cases hu : r.upcoming with
  | nil =>
    rw [serve_of_nil d hu]
    exact ⟨[], rfl, .bare d⟩
  | cons t ts =>
    rw [← hu]
    cases d with
    | peek =>
      rw [serve, peek_of_cons hu]
      exact ⟨[], hu, .peek t ts⟩
    | take =>
      rw [serve, take_of_cons hu]
      exact ⟨[t], hu, .take t ts⟩
    | atEnd =>
      rw [serve, atEnd_of_cons hu]
      exact ⟨[], hu, .atEnd t ts⟩
    | readExpr depth => exact r.uses_readExpr depth
    | readAll => exact r.uses_readAll

theorem fault?_serve_iff (r : Reader) (d : Demand) {cause : Error} (hc : ¬cause.OfReading) :
    (r.serve d).1.fault? = some cause ↔
      r.pending.fault = some cause ∧ Needs r.limit d r.upcoming := by
  obtain ⟨us, hu, huses⟩ := r.uses_serve d
  rw [huses.fault?_eq_iff hc, hu]
  rfl

end Serve

theorem limit_after (r : Reader) (ds : List Demand) : (r.after ds).limit = r.limit := by
  induction ds generalizing r with
  | nil => rfl
  | cons d ds ih => exact (ih _).trans (r.limit_serve d)

/-- A reader delivers what its supply would without any looking ahead. -/
theorem transcript (r : Reader) (ds : List Demand) :
    ∃ used, Transcript r.limit r.toSupply ds (r.replies ds) used (r.after ds).toSupply := by
  induction ds generalizing r with
  | nil => exact ⟨[], .nil _⟩
  | cons d ds ih =>
    obtain ⟨us, hu, first⟩ := r.uses_serve d
    obtain ⟨vs, others⟩ := ih (r.serve d).2
    rw [limit_serve] at others
    refine ⟨us ++ vs, ?_⟩
    rw [toSupply, hu]
    exact .cons first others

section Fault

variable {cause : Error} (hc : ¬cause.OfReading) (hf : r.pending.fault = some cause)
include hc hf

/-- The fault is raised by a demand that needs more, unless it has been raised before. -/
theorem fault?_after_iff (ds : List Demand) (d : Demand) :
    ((r.after ds).serve d).1.fault? = some cause ↔
      (∀ reply ∈ r.replies ds, reply.fault? ≠ some cause) ∧
        Needs r.limit d (r.after ds).upcoming := by
  obtain ⟨used, htranscript⟩ := r.transcript ds
  rw [fault?_serve_iff _ d hc, limit_after]
  apply and_congr_left'
  obtain ⟨hpending, hquiet⟩ | ⟨hended, reply, hreply, hr⟩ := htranscript.raised_or_not hc hf
  · exact iff_of_true hpending hquiet
  · refine iff_of_false ?_ fun hquiet => hquiet reply hreply hr
    rw [show (r.after ds).pending.fault = none from (Supply.mk.inj hended).2]
    exact nofun

theorem toSupply_of_raised {ds : List Demand} {reply : Reply} (hreply : reply ∈ r.replies ds)
    (hr : reply.fault? = some cause) : (r.after ds).toSupply = .empty := by
  obtain ⟨used, htranscript⟩ := r.transcript ds
  obtain ⟨-, hquiet⟩ | ⟨hended, -⟩ := htranscript.raised_or_not hc hf
  · exact absurd hr (hquiet reply hreply)
  · exact hended

end Fault

theorem replies_drained (r : Reader) (ds : List Demand) :
    r.drained.replies ds = ds.map (Demand.bare none) := by
  induction ds with
  | nil => rfl
  | cons d ds ih =>
    rw [replies, serve_of_nil d rfl]
    exact congrArg (Demand.bare none d :: ·) ih

/-- Without tokens the first demand meets the fault, and those behind it find nothing. -/
theorem replies_of_nil (d : Demand) (ds : List Demand) (hu : r.upcoming = []) :
    r.replies (d :: ds) = d.bare r.pending.fault :: ds.map (Demand.bare none) := by
  rw [replies, serve_of_nil d hu, replies_drained]

theorem replies_of_empty (ds : List Demand) (h : r.toSupply = .empty) :
    r.replies ds = ds.map (Demand.bare none) := by
  obtain ⟨hu, hf⟩ := Supply.mk.inj h
  cases ds with
  | nil => rfl
  | cons d ds =>
    rw [replies_of_nil d ds hu, hf]
    rfl

/-- The reader with the token looked at put back. -/
def unread (r : Reader) : Reader := r.withUpcoming r.upcoming

/-- Having looked at a token changes no answer. -/
theorem serve_unread (r : Reader) (d : Demand) : r.unread.serve d = r.serve d := by
  cases hu : r.upcoming with
  | nil =>
    rw [serve_of_nil d hu, serve_of_nil (r := r.unread) d hu]
    rfl
  | cons t ts =>
    have hunread : r.unread.upcoming = t :: ts := hu
    cases d with
    | peek =>
      rw [serve, serve, peek_of_cons hu, peek_of_cons hunread]
      rfl
    | take =>
      rw [serve, serve, take_of_cons hu, take_of_cons hunread]
      rfl
    | atEnd =>
      rw [serve, serve, atEnd_of_cons hu, atEnd_of_cons hunread]
      rfl
    | readExpr depth => rfl
    | readAll => rfl

theorem replies_unread (r : Reader) (ds : List Demand) : r.unread.replies ds = r.replies ds := by
  cases ds with
  | nil => rfl
  | cons d ds => rw [replies, replies, serve_unread]

section Look

variable (hlook : look = .peek ∨ look = .atEnd)
include hlook

theorem fault?_bare_of_look (fault : Option Error) : (look.bare fault).fault? = fault := by
  obtain rfl | rfl := hlook <;> cases fault <;> rfl

theorem look_of_cons (hu : r.upcoming = t :: ts) :
    (r.serve look).1.fault? = none ∧ (r.serve look).2 = r.withAhead t ts := by
  obtain rfl | rfl := hlook
  · rw [serve, peek_of_cons hu]
    exact ⟨rfl, rfl⟩
  · rw [serve, atEnd_of_cons hu]
    exact ⟨rfl, rfl⟩

theorem unread_look (hquiet : (r.serve look).1.fault? = none) :
    (r.serve look).2.unread = r.unread := by
  cases hu : r.upcoming with
  | nil =>
    rw [serve_of_nil look hu, fault?_bare_of_look hlook] at hquiet
    rw [serve_of_nil look hu, unread, unread, withUpcoming, withUpcoming, hu, hquiet]
    rfl
  | cons t ts =>
    rw [(look_of_cons hlook hu).2, unread, unread, hu]
    rfl

/-- A look that fails has met the fault behind the last token. -/
theorem look_inv {cause : Error} (hraised : (r.serve look).1.fault? = some cause) :
    r.upcoming = [] ∧ r.pending.fault = some cause := by
  cases hu : r.upcoming with
  | nil =>
    rw [serve_of_nil look hu, fault?_bare_of_look hlook] at hraised
    exact ⟨rfl, hraised⟩
  | cons t ts =>
    rw [(look_of_cons hlook hu).1] at hraised
    cases hraised

end Look

/-- An expression read from tokens of a text has used its token string and nothing beyond it. -/
theorem upcoming_of_readExpr {depth : Int} {e : Expr} (hl : ∀ t ∈ r.upcoming, t.Lexical)
    (h : (r.readExpr depth).1 = .ok e) :
    r.upcoming = e.tokens ++ (r.readExpr depth).2.pending.items ∧
      (r.readExpr depth).2.pending.fault = r.pending.fault := by
  obtain ⟨us, hu, huses⟩ := r.uses_readExpr depth
  have hitems : (r.readExpr depth).2.upcoming = (r.readExpr depth).2.pending.items := by
    rw [upcoming, ahead_readExpr]
    rfl
  rw [hitems] at hu
  rw [h, toSupply] at huses
  generalize (r.readExpr depth).2.pending.fault = fault at huses ⊢
  cases huses with
  | read hs =>
    have hlexical : ∀ t ∈ us, t.Lexical := fun t ht => hl t (hu ▸ List.mem_append_left _ ht)
    have haccepted := (steps_start_iff fun t ht => (hlexical t ht).known).mp hs
    rw [← (haccepted.of_lexical hlexical).1]
    exact ⟨hu, rfl⟩

end Reader

/-- Whatever is asked of the reader of a text, and in whatever order, each token is delivered once.

The tokens used so far, the one looked at and those not yet asked for are the tokens of the text.
If these break off, the fault is raised once, by the first demand that needs more than they are, and
after it nothing comes. A look changes no later answer; one that fails has raised the fault in place
of whatever would have been asked next. Reading an expression, with its own looking ahead, leaves
nothing looked at, and if it succeeds it has used the token string of the expression. -/
theorem every_token_delivered_once (limit : Limit) (source : String) (ds : List Demand) :
    let start := Reader.ofSupply (tokens source) limit
    let r := start.after ds
    r.ahead.toList.length ≤ 1 ∧
    (∃ used, Transcript limit (tokens source) ds (start.replies ds) used r.toSupply ∧
      used ++ r.ahead.toList ++ r.pending.items = (tokens source).items) ∧
    (∀ cause, (tokens source).fault = some cause →
      (∀ d, (r.serve d).1.fault? = some cause ↔
        (∀ reply ∈ start.replies ds, reply.fault? ≠ some cause) ∧ Needs limit d r.upcoming) ∧
      (∀ reply ∈ start.replies ds, reply.fault? = some cause →
        r.upcoming = [] ∧ ∀ later, r.replies later = later.map (Demand.bare none))) ∧
    (∀ look ∈ [Demand.peek, .atEnd], ∀ later,
      ((r.serve look).1.fault? = none → (r.serve look).2.replies later = r.replies later) ∧
      (∀ cause, (r.serve look).1.fault? = some cause →
        (tokens source).fault = some cause ∧
        (r.serve look).2.replies later = later.map (Demand.bare none) ∧
        ∀ d, r.replies (d :: later) = d.bare (some cause) :: later.map (Demand.bare none))) ∧
    (∀ depth, r.readExpr depth = r.descend depth .start ∧ (r.readExpr depth).2.ahead = none ∧
      ∀ e, (r.readExpr depth).1 = .ok e →
        r.upcoming = e.tokens ++ (r.readExpr depth).2.pending.items ∧
        (r.readExpr depth).2.pending.fault = r.pending.fault) := by
  intro start r
  obtain ⟨used, htranscript⟩ := start.transcript ds
  have hitems : (tokens source).items = used ++ r.upcoming := htranscript.items_eq
  have hlexical : ∀ t ∈ r.upcoming, t.Lexical := fun t ht =>
    (lexical_of_mem_tokens (hitems ▸ List.mem_append_right used ht)).1
  refine ⟨?_, ⟨used, htranscript, ?_⟩, ?_, ?_, ?_⟩
  · cases r.ahead <;> simp
  · rw [hitems, List.append_assoc]
    rfl
  · intro cause hcause
    have hc := not_ofReading_of_tokens hcause
    refine ⟨Reader.fault?_after_iff (r := start) hc hcause ds, fun reply hreply hr => ?_⟩
    have hended := Reader.toSupply_of_raised (r := start) hc hcause hreply hr
    exact ⟨(Supply.mk.inj hended).1, fun later => r.replies_of_empty later hended⟩
  · intro look hmem later
    have hlook : look = .peek ∨ look = .atEnd := by simpa using hmem
    refine ⟨fun hquiet => ?_, fun cause hraised => ?_⟩
    · rw [← Reader.replies_unread, Reader.unread_look hlook hquiet, Reader.replies_unread]
    · obtain ⟨hu, hpending⟩ := Reader.look_inv hlook hraised
      refine ⟨htranscript.fault_of_left hpending, ?_, fun d => ?_⟩
      · rw [Reader.serve_of_nil look hu, Reader.replies_drained]
      · rw [Reader.replies_of_nil d later hu, hpending]
  · intro depth
    refine ⟨?_, r.ahead_readExpr depth, fun e he => r.upcoming_of_readExpr hlexical he⟩
    rw [r.descend_eq_pull, r.readExpr_eq_pull]

/-- A look meets the open literal behind the last token and spares the next demand from it. -/
theorem open_literal_raised_once :
    let r := (Reader.ofSupply (tokens "(f 1) ) \"ab") ⟨9, 900⟩).after
      [.peek, .readExpr 0, .atEnd, .readExpr 0]
    (tokens "(f 1) ) \"ab").fault = some (.unterminatedString 8) ∧
    (r.serve .atEnd).1.fault? = some (.unterminatedString 8) ∧
    (r.serve .atEnd).2.replies [.take, .readExpr 0] =
      [.token (.ok none), .expr (.error .unexpectedEnd)] ∧
    r.replies [.take, .readExpr 0] =
      [.token (.error (.unterminatedString 8)), .expr (.error .unexpectedEnd)] := by
  intro r
  have hfault : (tokens "(f 1) ) \"ab").fault = some (.unterminatedString 8) := by decide +kernel
  have hquiet : ∀ reply ∈ (Reader.ofSupply (tokens "(f 1) ) \"ab") ⟨9, 900⟩).replies
      [.peek, .readExpr 0, .atEnd, .readExpr 0],
      reply.fault? ≠ some (.unterminatedString 8) := by decide +kernel
  have hended : r.upcoming = [] := by decide +kernel
  obtain ⟨-, -, hraise, hlooks, -⟩ := every_token_delivered_once ⟨9, 900⟩ "(f 1) ) \"ab"
    [.peek, .readExpr 0, .atEnd, .readExpr 0]
  have hraised : (r.serve .atEnd).1.fault? = some (.unterminatedString 8) :=
    ((hraise _ hfault).1 .atEnd).mpr ⟨hquiet, hended ▸ .atEnd⟩
  refine ⟨hfault, hraised, ?_, ?_⟩
  · exact ((hlooks .atEnd (by simp) [.take, .readExpr 0]).2 _ hraised).2.1
  · exact ((hlooks .atEnd (by simp) [.readExpr 0]).2 _ hraised).2.2 .take

end Lisplet
