import Lisplet.Proofs.Grammar
import Lisplet.Reader
import Mathlib.Data.List.Forall2

/-!
# The reader accepts the grammar, up to the nesting allowed

A row of tokens drives the reader from one `Progress` to the next. Forward, the token string of an
expression that has room takes the reader from an open place to the same place with the expression
put there. Backward, whatever the reader holds after some tokens is a derivation of them with its
innermost compounds still open. Reading one expression, reading all of them and reading on from a
given depth all come down to these two facts.
-/

namespace Lisplet

namespace Progress

/-- The reader after further tokens. -/
def steps (limit : Limit) (base : Int) (p : Progress) (ts : List Token) : Except Error Progress :=
  ts.foldlM (step limit base) p

variable {limit : Limit} {base : Int} {p q : Progress}

@[simp] theorem steps_nil : p.steps limit base [] = .ok p := rfl

theorem steps_cons {t : Token} (hs : p.step limit base t = .ok q) (ts : List Token) :
    p.steps limit base (t :: ts) = q.steps limit base ts := by
  simp only [steps, List.foldlM_cons, hs]
  rfl

theorem steps_append {ts : List Token} (hs : p.steps limit base ts = .ok q) (us : List Token) :
    p.steps limit base (ts ++ us) = q.steps limit base us := by
  simp only [steps, List.foldlM_append] at hs ⊢
  rw [hs]
  rfl

theorem steps_cons_inv {t : Token} {ts : List Token} (hs : p.steps limit base (t :: ts) = .ok q) :
    ∃ m, p.step limit base t = .ok m ∧ m.steps limit base ts = .ok q := by
  cases hm : p.step limit base t with
  | ok m =>
    rw [steps_cons hm] at hs
    exact ⟨m, rfl, hs⟩
  | error e =>
    simp only [steps, List.foldlM_cons, hm] at hs
    cases hs

theorem step_constant {t : Token} (hk : t.kind.Constant) (frames : List Frame) :
    step limit base (.operand frames) t = .ok (put (.literal t.value) frames) := by
  obtain ⟨kind, value⟩ := t
  cases kind with
  | nil | bool | integer | string => rfl
  | lparen | rparen | symbol | other _ => exact hk.elim

theorem step_named {t : Token} (hk : t.kind = .symbol) (frames : List Frame) :
    step limit base (.operand frames) t = .ok (put (.ofName t.value) frames) := by
  simp only [step, hk]

theorem step_opening {t : Token} (hk : t.kind = .lparen) (frames : List Frame) :
    step limit base (.operand frames) t = enter limit base frames := by
  simp only [step, hk]

theorem step_closing {t : Token} (hk : t.kind = .rparen) (frames : List Frame) :
    step limit base (.operand frames) t = close frames := by
  simp only [step, hk]

theorem step_operator_named {t : Token} (hk : t.kind = .symbol) (frames : List Frame) :
    step limit base (.operator frames) t = .ok (.operand (⟨t.value, []⟩ :: frames)) := by
  simp only [step, hk, if_true]

/-- A complete expression takes no further token. -/
theorem steps_whole {e : Expr} {ts : List Token} (hs : steps limit base (.whole e) ts = .ok q) :
    ts = [] ∧ q = .whole e := by
  cases ts with
  | nil => cases hs; exact ⟨rfl, rfl⟩
  | cons t ts =>
    obtain ⟨m, hm, -⟩ := steps_cons_inv hs
    cases hm

end Progress

/-- Under `depth` open compounds a row of this height exceeds neither the configured depth, counted
from `base`, nor what the stack carries. -/
def Room (limit : Limit) (base : Int) (depth h : Nat) : Prop :=
  h = 0 ∨ (base + depth + h ≤ limit.depth ∧ depth + h ≤ limit.stack)

namespace Derives

open Progress

/-- Inside a compound a row with room is read to its end and joins the arguments. -/
theorem steps_row {ts : List Token} {es : List Expr} {h : Nat} (hd : Derives ts es h)
    {limit : Limit} {base : Int} {frame : Frame} {frames : List Frame}
    (hr : Room limit base (frames.length + 1) h) :
    steps limit base (.operand (frame :: frames)) ts =
      .ok (.operand (⟨frame.operator, es.reverse ++ frame.args⟩ :: frames)) := by
  induction hd generalizing frame frames with
  | nil => rfl
  | literal kind _ ih =>
    rw [steps_cons (step_constant kind _), put, ih hr]
    simp
  | symbol kind _ ih =>
    rw [steps_cons (step_named kind _), put, ih hr]
    simp
  | @compound l op r us ts args es k h opening operator _ closing _ ihInner ihRest =>
    obtain hz | ⟨hlimit, hnesting⟩ := hr
    · omega
    have henter : step limit base (.operand (frame :: frames)) l =
        .ok (.operator (frame :: frames)) := by
      rw [step_opening opening, enter_eq_ok_iff]
      refine ⟨rfl, ?_, ?_⟩
      · simp only [List.length_cons]; omega
      · simp only [List.length_cons]; omega
    have hinner : Room limit base ((frame :: frames).length + 1) k := by
      refine .inr ⟨?_, ?_⟩
      · simp only [List.length_cons]; omega
      · simp only [List.length_cons]; omega
    have hrest : Room limit base (frames.length + 1) h := .inr ⟨by omega, by omega⟩
    rw [steps_cons henter, steps_cons (step_operator_named operator _),
      steps_append (ihInner hinner), steps_cons (step_closing closing _), put, ihRest hrest]
    simp

/-- An expression with room is read to its end and put where it belongs. -/
theorem steps_single {ts : List Token} {e : Expr} {h : Nat} (hd : Writes ts e h)
    {limit : Limit} {base : Int} {frames : List Frame} (hr : Room limit base frames.length h) :
    steps limit base (.operand frames) ts = .ok (put e frames) := by
  obtain ⟨t, rfl, hk, rfl, rfl⟩ | ⟨t, rfl, hk, rfl, rfl⟩ |
    ⟨l, op, r, us, args, k, rfl, hl, ho, hc, hi, rfl, rfl⟩ := hd.single
  · rw [steps_cons (step_constant hk _), steps_nil]
  · rw [steps_cons (step_named hk _), steps_nil]
  · obtain hz | ⟨hlimit, hnesting⟩ := hr
    · omega
    have henter : step limit base (.operand frames) l = .ok (.operator frames) := by
      rw [step_opening hl, enter_eq_ok_iff]
      exact ⟨rfl, by omega, by omega⟩
    have hinner : Room limit base (frames.length + 1) k := .inr ⟨by omega, by omega⟩
    rw [steps_cons henter, steps_cons (step_operator_named ho _),
      steps_append (hi.steps_row hinner), steps_cons (step_closing hc _), steps_nil]
    simp

end Derives

/-- The tokens write the start of an expression: one open compound inside the other, each with its
operator and the arguments read so far. -/
inductive Opened (limit : Limit) (base : Int) : List Token → List Frame → Prop
  | nil : Opened limit base [] []
  | cons {l op : Token} {ts us : List Token} {args : List Expr} {frames : List Frame} {k : Nat}
      (outer : Opened limit base ts frames) (opening : l.kind = .lparen)
      (operator : op.kind = .symbol) (allowed : base + frames.length < limit.depth)
      (carried : frames.length < limit.stack) (inner : Derives us args.reverse k)
      (room : Room limit base (frames.length + 1) k) :
      Opened limit base (ts ++ l :: op :: us) (⟨op.value, args⟩ :: frames)

/-- What the tokens read so far are, given what the reader holds. -/
def Reached (limit : Limit) (base : Int) (ts : List Token) : Progress → Prop
  | .operand frames => Opened limit base ts frames
  | .operator frames => ∃ us l, ts = us ++ [l] ∧ Opened limit base us frames ∧ l.kind = .lparen ∧
      base + frames.length < limit.depth ∧ frames.length < limit.stack
  | .whole e => ∃ h, Writes ts e h ∧ Room limit base 0 h

namespace Reached

open Progress

variable {limit : Limit} {base : Int} {ts : List Token}

theorem put {frames : List Frame} {us : List Token} {e : Expr} {h : Nat}
    (ho : Opened limit base ts frames) (hw : Writes us e h)
    (hr : Room limit base frames.length h) :
    Reached limit base (ts ++ us) (Progress.put e frames) := by
  cases ho with
  | nil => exact ⟨h, hw, hr⟩
  | @cons l op ts vs args frames k outer opening operator allowed carried inner room =>
    have hargs : Derives (vs ++ us) (e :: args).reverse (max k h) := by
      rw [List.reverse_cons]
      exact inner.append hw
    have hroom : Room limit base (frames.length + 1) (max k h) := by
      rw [List.length_cons] at hr
      rcases room with hk | hk
      · rw [hk, Nat.zero_max]
        exact hr
      · rcases hr with hz | hh
        · rw [hz, Nat.max_zero]
          exact .inr hk
        · exact .inr ⟨by omega, by omega⟩
    have hopen := Opened.cons outer opening operator allowed carried hargs hroom
    simpa [Reached, Progress.put] using hopen

theorem close {t : Token} {frames : List Frame} {q : Progress} (ho : Opened limit base ts frames)
    (hk : t.kind = .rparen) (hs : Progress.close frames = .ok q) :
    Reached limit base (ts ++ [t]) q := by
  cases ho with
  | nil => cases hs
  | @cons l op ts us args frames k outer opening operator allowed carried inner room =>
    cases hs
    have hw : Writes (l :: op :: (us ++ [t])) (.ofOperator op.value args.reverse) (k + 1) := by
      simpa using Derives.compound opening operator inner hk .nil
    have hr : Room limit base frames.length (k + 1) := by
      refine .inr ?_
      rcases room with rfl | hk
      · omega
      · omega
    have hput := put outer hw hr
    simpa using hput

/-- One token keeps the account of what has been read. -/
theorem step {t : Token} {p q : Progress} (hp : Reached limit base ts p) (hk : t.kind.Known)
    (hs : p.step limit base t = .ok q) : Reached limit base (ts ++ [t]) q := by
  cases p with
  | whole e => cases hs
  | operator frames =>
    obtain ⟨us, l, rfl, ho, hl, hlimit, hnesting⟩ := hp
    have hsym : t.kind = .symbol := by
      by_contra hne
      simp only [Progress.step, if_neg hne] at hs
      cases hs
    rw [step_operator_named hsym] at hs
    cases hs
    have hopen : Opened limit base (us ++ [l, t]) (⟨t.value, []⟩ :: frames) :=
      .cons ho hl hsym hlimit hnesting .nil (.inl rfl)
    simpa [Reached] using hopen
  | operand frames =>
    cases hkind : t.kind with
    | nil | bool | integer | string =>
      have hc : t.kind.Constant := by rw [hkind]; trivial
      rw [step_constant hc] at hs
      cases hs
      exact put hp (.literal hc .nil) (.inl rfl)
    | symbol =>
      rw [step_named hkind] at hs
      cases hs
      exact put hp (.symbol hkind .nil) (.inl rfl)
    | rparen =>
      rw [step_closing hkind] at hs
      exact close hp hkind hs
    | lparen =>
      rw [step_opening hkind, enter_eq_ok_iff] at hs
      obtain ⟨rfl, hlimit, hnesting⟩ := hs
      exact ⟨ts, t, rfl, hp, hkind, hlimit, hnesting⟩
    | other name =>
      rw [hkind] at hk
      exact hk.elim

theorem steps {us : List Token} {p q : Progress} (hp : Reached limit base ts p)
    (hk : ∀ t ∈ us, t.kind.Known) (hs : p.steps limit base us = .ok q) :
    Reached limit base (ts ++ us) q := by
  induction us generalizing ts p with
  | nil =>
    cases hs
    simpa using hp
  | cons t us ih =>
    rw [List.forall_mem_cons] at hk
    obtain ⟨m, hm, hrest⟩ := steps_cons_inv hs
    have hall := ih (hp.step hk.1 hm) hk.2 hrest
    simpa using hall

/-- Before the first expression is complete something is open, unless nothing has been read. -/
theorem eq_nil (hp : Reached limit base ts (.operand [])) : ts = [] := by
  cases hp
  rfl

end Reached

/-- The tokens are the token string of an expression that has room. -/
def Accepted (limit : Limit) (base : Int) (ts : List Token) (e : Expr) : Prop :=
  ∃ h, Writes ts e h ∧ Room limit base 0 h

/-- The reader completes an expression exactly on its token string. -/
theorem steps_start_iff {limit : Limit} {base : Int} {ts : List Token} {e : Expr}
    (hk : ∀ t ∈ ts, t.kind.Known) :
    Progress.start.steps limit base ts = .ok (.whole e) ↔ Accepted limit base ts e := by
  constructor
  · intro hs
    have hr : Reached limit base [] .start := Opened.nil
    simpa [Reached, Accepted] using hr.steps hk hs
  · rintro ⟨h, hw, hr⟩
    exact hw.steps_single hr

/-- Reading up to the end of one expression takes the tokens that complete it and no more. -/
theorem readFrom_eq_ok_iff {limit : Limit} {base : Int} {p : Progress} {ts rest : List Token}
    {e : Expr} :
    readFrom limit base p ts = .ok (e, rest) ↔
      ∃ us, ts = us ++ rest ∧ p.steps limit base us = .ok (.whole e) := by
  constructor
  · intro hr
    fun_induction readFrom limit base p ts with
    | case1 e' rest' =>
      cases hr
      exact ⟨[], rfl, rfl⟩
    | case2 => cases hr
    | case3 p t ts hp q hq ih =>
      obtain ⟨us, rfl, hs⟩ := ih hr
      exact ⟨t :: us, rfl, by rw [Progress.steps_cons hq]; exact hs⟩
    | case4 => cases hr
  · rintro ⟨us, rfl, hs⟩
    induction us generalizing p with
    | nil =>
      cases hs
      rw [List.nil_append, readFrom]
    | cons t us ih =>
      obtain ⟨m, hm, hrest⟩ := Progress.steps_cons_inv hs
      cases p with
      | whole e' => cases hm
      | operand frames =>
        simp only [List.cons_append, readFrom, hm]
        exact ih hrest
      | operator frames =>
        simp only [List.cons_append, readFrom, hm]
        exact ih hrest

/-- Reading on over the token string of an expression adds it to those read before. -/
theorem readAllFrom_block {limit : Limit} {p : Progress} {us : List Token} {e : Expr}
    (hp : ∀ e, p ≠ .whole e) (hs : p.steps limit 0 us = .ok (.whole e)) (done : List Expr)
    (rest : List Token) :
    readAllFrom limit done p (us ++ rest) = readAllFrom limit (e :: done) .start rest := by
  induction us generalizing p with
  | nil =>
    cases hs
    exact absurd rfl (hp e)
  | cons t us ih =>
    obtain ⟨m, hm, hrest⟩ := Progress.steps_cons_inv hs
    cases m with
    | whole e' =>
      obtain ⟨rfl, he⟩ := Progress.steps_whole hrest
      cases he
      simp only [List.cons_append, readAllFrom, hm, List.nil_append]
    | operand frames =>
      simp only [List.cons_append, readAllFrom, hm]
      exact ih (fun _ => by simp) hrest
    | operator frames =>
      simp only [List.cons_append, readAllFrom, hm]
      exact ih (fun _ => by simp) hrest

/-- Reading all expressions cuts the tokens into the token strings of these expressions. The
tokens `us` are those of the expression begun. -/
theorem readAllFrom_blocks {limit : Limit} {done es : List Expr} {p : Progress}
    {us ts : List Token} (hp : ∀ e, p ≠ .whole e) (hs : Progress.start.steps limit 0 us = .ok p)
    (hk : ∀ t ∈ us ++ ts, t.kind.Known)
    (hr : readAllFrom limit done p ts = (es, .starved (.operand []))) :
    ∃ tss fs, es = done.reverse ++ fs ∧ tss.flatten = us ++ ts ∧
      List.Forall₂ (fun vs e => Progress.start.steps limit 0 vs = .ok (.whole e)) tss fs := by
  induction ts generalizing us p done with
  | nil =>
    simp only [readAllFrom, Prod.mk.injEq, Ending.starved.injEq] at hr
    obtain ⟨rfl, rfl⟩ := hr
    have hreached : Reached limit 0 us (.operand []) := by
      have hstart : Reached limit 0 [] .start := Opened.nil
      rw [List.append_nil] at hk
      simpa using hstart.steps hk hs
    obtain rfl := hreached.eq_nil
    exact ⟨[], [], by simp, rfl, .nil⟩
  | cons t ts ih =>
    have hassoc : us ++ t :: ts = us ++ [t] ++ ts := by simp
    cases hm : p.step limit 0 t with
    | error cause =>
      simp only [readAllFrom, hm, Prod.mk.injEq] at hr
      cases hr.2
    | ok m =>
      have hsm : Progress.start.steps limit 0 (us ++ [t]) = .ok m := by
        rw [Progress.steps_append hs, Progress.steps_cons hm, Progress.steps_nil]
      -- a complete expression starts a new block, anything else goes on with this one
      cases m with
      | whole e =>
        simp only [readAllFrom, hm] at hr
        have hstart : Progress.start.steps limit 0 [] = .ok .start := rfl
        have hrest : ∀ u ∈ [] ++ ts, u.kind.Known := fun u hu =>
          hk u (List.mem_append_right us (List.mem_cons_of_mem t hu))
        obtain ⟨tss, fs, rfl, hflat, hall⟩ :=
          ih (fun _ => by simp [Progress.start]) hstart hrest hr
        exact ⟨(us ++ [t]) :: tss, e :: fs, by simp, by simp [hflat], .cons hsm hall⟩
      | operand frames =>
        simp only [readAllFrom, hm] at hr
        rw [hassoc] at hk ⊢
        exact ih (fun _ => by simp) hsm hk hr
      | operator frames =>
        simp only [readAllFrom, hm] at hr
        rw [hassoc] at hk ⊢
        exact ih (fun _ => by simp) hsm hk hr

/-- Reading all expressions over a list is `readAllFrom` coming to its end between two of them. -/
theorem parseAll_ofList_eq_ok_iff {limit : Limit} {ts : List Token} {es : List Expr} :
    parseAll limit (.ofList ts) = .ok es ↔
      readAllFrom limit [] .start ts = (es, .starved (.operand [])) := by
  simp only [parseAll, Reader.readAll, Reader.ofSupply, Reader.upcoming, Supply.ofList,
    Option.toList_none, List.nil_append]
  rcases readAllFrom limit [] .start ts with ⟨done, _ | p⟩
  · simp [Supply.toList]
  · cases p with
    | operand frames => cases frames <;> simp [Supply.toList]
    | operator frames => simp [Supply.toList]
    | whole e => simp [Supply.toList]

theorem parseAll_eq_ok_iff {limit : Limit} {ts : List Token} {es : List Expr}
    (hk : ∀ t ∈ ts, t.kind.Known) :
    parseAll limit (.ofList ts) = .ok es ↔
      ∃ tss, tss.flatten = ts ∧ List.Forall₂ (Accepted limit 0) tss es := by
  rw [parseAll_ofList_eq_ok_iff]
  constructor
  · intro hr
    obtain ⟨tss, fs, rfl, rfl, hall⟩ :=
      readAllFrom_blocks (fun _ => by simp [Progress.start]) Progress.steps_nil hk hr
    refine ⟨tss, rfl, ?_⟩
    clear hr
    induction hall with
    | nil => exact .nil
    | @cons vs e tss fs hs _ ih =>
      rw [List.flatten_cons, List.forall_mem_append] at hk
      exact .cons ((steps_start_iff hk.1).mp hs) (ih hk.2)
  · rintro ⟨tss, rfl, hall⟩
    have hread : ∀ done, readAllFrom limit done .start tss.flatten =
        (done.reverse ++ es, .starved (.operand [])) := by
      clear hk
      induction hall with
      | nil => intro done; simp [readAllFrom, Progress.start]
      | @cons vs e tss fs ha _ ih =>
        intro done
        obtain ⟨h, hw, hroom⟩ := ha
        rw [List.flatten_cons, readAllFrom_block (fun _ => by simp [Progress.start])
          (hw.steps_single hroom), ih]
        simp
    exact hread []

theorem parse_ofList_eq_ok_iff {limit : Limit} {ts : List Token} {e : Expr} :
    parse limit (.ofList ts) = .ok e ↔ Progress.start.steps limit 0 ts = .ok (.whole e) := by
  unfold parse Progress.steps Supply.ofList
  cases ts.foldlM (Progress.step limit 0) Progress.start with
  | error cause => simp [bind, Except.bind]
  | ok p =>
    cases p with
    | whole e => simp [bind, Except.bind]
    | operand frames => cases frames <;> simp [bind, Except.bind]
    | operator frames => simp [bind, Except.bind]

/-- A reader that has the token string of an expression before it takes exactly that string, if
there is room from the depth at which it starts, and otherwise gives no expression. -/
theorem readExpr_of_writes {r : Reader} {us rest : List Token} {e : Expr} {h : Nat}
    (hw : Writes us e h) (hu : r.upcoming = us ++ rest) (hk : ∀ t ∈ r.upcoming, t.kind.Known)
    (depth : Int) :
    ((∃ e', (r.readExpr depth).1 = .ok e') ↔ Room r.limit depth 0 h) ∧
    (Room r.limit depth 0 h → r.readExpr depth = (.ok e, r.withUpcoming rest)) := by
  have hread : Room r.limit depth 0 h → r.readExpr depth = (.ok e, r.withUpcoming rest) := by
    intro hroom
    have hf : readFrom r.limit depth .start r.upcoming = .ok (e, rest) :=
      readFrom_eq_ok_iff.mpr ⟨us, hu, hw.steps_single hroom⟩
    simp only [Reader.readExpr, hf]
  refine ⟨⟨?_, fun hroom => ⟨e, by rw [hread hroom]⟩⟩, hread⟩
  rintro ⟨e', he'⟩
  cases hf : readFrom r.limit depth .start r.upcoming with
  | error ending => cases ending <;> simp [Reader.readExpr, hf] at he'
  | ok result =>
    obtain ⟨e'', rest'⟩ := result
    obtain ⟨vs, hv, hs⟩ := readFrom_eq_ok_iff.mp hf
    have hknown : ∀ t ∈ vs, t.kind.Known := fun t ht => hk t (by simp [hv, ht])
    obtain ⟨h', hw', hroom⟩ := (steps_start_iff hknown).mp hs
    -- the expression read is the one written, so it has the same height
    obtain ⟨-, -, rfl, -⟩ := hw.single_unique hw' (hu.symm.trans hv)
    exact hroom

/-- A sequence of token strings can be cut in one way only. -/
theorem blocks_unique {tss uss : List (List Token)} {es fs : List Expr}
    (ht : List.Forall₂ (fun ts e => ∃ h, Writes ts e h) tss es)
    (hu : List.Forall₂ (fun us e => ∃ h, Writes us e h) uss fs)
    (he : tss.flatten = uss.flatten) : tss = uss ∧ es = fs := by
  induction ht generalizing uss fs with
  | nil =>
    cases hu with
    | nil => exact ⟨rfl, rfl⟩
    | cons hw _ =>
      obtain ⟨h, hw⟩ := hw
      have hnil := (List.append_eq_nil_iff.mp he.symm).1
      subst hnil
      cases hw
  | cons hw _ ih =>
    obtain ⟨h, hw⟩ := hw
    cases hu with
    | nil =>
      have hnil := (List.append_eq_nil_iff.mp he).1
      subst hnil
      cases hw
    | cons hw' hrest =>
      obtain ⟨h', hw'⟩ := hw'
      obtain ⟨rfl, rfl, -, hflat⟩ := hw.single_unique hw' he
      obtain ⟨rfl, rfl⟩ := ih hrest hflat
      exact ⟨rfl, rfl⟩

/-- Reading accepts exactly the grammar, whatever integer the configured depth is. One expression
is read iff the tokens are its token string and it has room; a sequence is read iff the tokens are
those of its members in turn, each with room; neither can be read in another way. From a depth of
its own a reader takes the expression before it iff there is room from that depth on. The height is
that of the expression wherever names are texts. -/
theorem reading_accepts_grammar (limit : Limit) (ts : List Token) (hk : ∀ t ∈ ts, t.kind.Known) :
    (∀ e, parse limit (.ofList ts) = .ok e ↔ Accepted limit 0 ts e) ∧
    (∀ es, parseAll limit (.ofList ts) = .ok es ↔
      ∃ tss, tss.flatten = ts ∧ List.Forall₂ (Accepted limit 0) tss es) ∧
    (∀ e e' h h', Writes ts e h → Writes ts e' h' → e = e' ∧ h = h') ∧
    (∀ tss uss es fs, tss.flatten = ts → uss.flatten = ts →
      List.Forall₂ (fun us e => ∃ h, Writes us e h) tss es →
      List.Forall₂ (fun us e => ∃ h, Writes us e h) uss fs → tss = uss ∧ es = fs) ∧
    (∀ us rest e h, Writes us e h → ts = us ++ rest →
      ∀ r : Reader, r.limit = limit → r.upcoming = ts → ∀ depth,
        ((∃ e', (r.readExpr depth).1 = .ok e') ↔ Room limit depth 0 h) ∧
        (Room limit depth 0 h → r.readExpr depth = (.ok e, r.withUpcoming rest))) ∧
    (∀ e h, Writes ts e h → (∀ t ∈ ts, t.kind = .symbol → ∃ name, t.value = .string name) →
      h = e.height) := by
  refine ⟨?_, fun es => parseAll_eq_ok_iff hk, ?_, ?_, ?_, ?_⟩
  · intro e
    rw [parse_ofList_eq_ok_iff]
    exact steps_start_iff hk
  · intro e e' h h' hw hw'
    obtain ⟨-, he, hh, -⟩ := hw.single_unique hw' (Eq.refl (ts ++ []))
    exact ⟨he, hh⟩
  · intro tss uss es fs ht hu htss huss
    exact blocks_unique htss huss (ht.trans hu.symm)
  · rintro us rest e h hw rfl r rfl hu depth
    exact readExpr_of_writes hw hu (by rw [hu]; exact hk) depth
  · intro e h hw hn
    simpa [Expr.argsHeight] using hw.height_eq hn

/-- Two levels of nesting are read under the depth two and not under the depth one. -/
theorem two_levels_accepted :
    let e := Expr.compound "+" [.literal (.integer 1), .compound "f" [.symbol "x"]]
    (∀ t ∈ e.tokens, t.kind.Known) ∧ Accepted ⟨2, 900⟩ 0 e.tokens e ∧
      ¬Accepted ⟨1, 900⟩ 0 e.tokens e := by
  intro e
  have hk : ∀ t ∈ e.tokens, t.kind.Known := by decide
  refine ⟨hk, ((reading_accepts_grammar ⟨2, 900⟩ e.tokens hk).1 e).mp rfl, fun ha => ?_⟩
  have hp := ((reading_accepts_grammar ⟨1, 900⟩ e.tokens hk).1 e).mpr ha
  cases hp

end Lisplet
