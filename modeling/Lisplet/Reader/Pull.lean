import Lisplet.Reader

/-!
# Reading on demand

`Reader.readExpr` and `Reader.readAll` say what comes of the tokens to come as a whole. Here the
same is done as the tokens are asked for: `Reader.descend` looks at a token where it may close a
compound and takes it otherwise, `Reader.pull` only takes, `Reader.pullSole` reads the only
expression and `Reader.pullAll` one after another. Each step asks for the next token once, and what
lies behind a refused token is never asked for.
-/

namespace Lisplet

namespace Reader

variable {r r' : Reader} {t : Token} {ts : List Token}

@[simp] theorem upcoming_withUpcoming (r : Reader) (ts : List Token) :
    (r.withUpcoming ts).upcoming = ts := rfl

/-- The reader that has looked at a token, with these tokens to come behind it. -/
def withAhead (r : Reader) (t : Token) (ts : List Token) : Reader :=
  ⟨some t, ⟨ts, r.pending.fault⟩, r.limit⟩

/-- What follows the tokens of the supply: its fault, or its end. -/
def afterTokens (r : Reader) : Except Error (Option Token) :=
  match r.pending.fault with
  | none => .ok none
  | some cause => .error cause

theorem take_of_cons (h : r.upcoming = t :: ts) : r.take = (.ok (some t), r.withUpcoming ts) := by
  obtain ⟨ahead, ⟨items, fault⟩, limit⟩ := r
  cases ahead with
  | some t' =>
    cases h
    rfl
  | none =>
    obtain rfl : items = t :: ts := h
    rfl

theorem take_of_nil (h : r.upcoming = []) : r.take = (r.afterTokens, r.drained) := by
  obtain ⟨ahead, ⟨items, fault⟩, limit⟩ := r
  cases ahead with
  | some t => cases h
  | none =>
    obtain rfl : items = [] := h
    cases fault <;> rfl

theorem peek_of_cons (h : r.upcoming = t :: ts) : r.peek = (.ok (some t), r.withAhead t ts) := by
  obtain ⟨ahead, ⟨items, fault⟩, limit⟩ := r
  cases ahead with
  | some t' =>
    cases h
    rfl
  | none =>
    obtain rfl : items = t :: ts := h
    rfl

theorem peek_of_nil (h : r.upcoming = []) : r.peek = (r.afterTokens, r.drained) := by
  obtain ⟨ahead, ⟨items, fault⟩, limit⟩ := r
  cases ahead with
  | some t => cases h
  | none =>
    obtain rfl : items = [] := h
    cases fault <;> rfl

theorem upcoming_of_take (h : r.take = (.ok (some t), r')) :
    r.upcoming = t :: r'.upcoming := by
  cases hu : r.upcoming with
  | nil =>
    rw [take_of_nil hu, afterTokens] at h
    split at h <;> cases h
  | cons u us =>
    rw [take_of_cons hu] at h
    cases h
    rfl

/-- Takes the next token; where it may close a compound, it is looked at first. -/
def fetch (p : Progress) (r : Reader) : Except Error (Option Token) × Reader :=
  match p with
  | .operand (_ :: _) =>
    match r.peek with
    | (.ok (some _), next) => next.take
    | (answer, left) => (answer, left)
  | _ => r.take

theorem fetch_eq_take (p : Progress) (r : Reader) : r.fetch p = r.take := by
  unfold fetch
  split
  · cases hu : r.upcoming with
    | nil =>
      rw [take_of_nil hu, peek_of_nil hu, afterTokens]
      cases r.pending.fault <;> rfl
    | cons t ts =>
      rw [take_of_cons hu, peek_of_cons hu]
      rfl
  · rfl

/-- Reads an expression by looking and taking, until the expression begun is complete. -/
def descend (depth : Int) (p : Progress) (r : Reader) : Except Error Expr × Reader :=
  match p with
  | .whole e => (.ok e, r)
  | p =>
    match _h : r.fetch p with
    | (.error cause, left) => (.error cause, left)
    | (.ok none, left) => (.error p.endError, left)
    | (.ok (some t), left) =>
      match p.step r.limit depth t with
      | .ok q => left.descend depth q
      | .error cause => (.error cause, left)
  termination_by r.upcoming.length
  decreasing_by
    rw [fetch_eq_take] at _h
    rw [upcoming_of_take _h]
    exact Nat.lt_succ_self _

/-- Takes one token after another until the expression begun is complete. -/
def pull (depth : Int) (p : Progress) (r : Reader) : Except Error Expr × Reader :=
  match p with
  | .whole e => (.ok e, r)
  | p =>
    match _h : r.take with
    | (.error cause, left) => (.error cause, left)
    | (.ok none, left) => (.error p.endError, left)
    | (.ok (some t), left) =>
      match p.step r.limit depth t with
      | .ok q => left.pull depth q
      | .error cause => (.error cause, left)
  termination_by r.upcoming.length
  decreasing_by
    rw [upcoming_of_take _h]
    exact Nat.lt_succ_self _

section Pull

variable {depth : Int} {p : Progress}

@[simp] theorem pull_whole (depth : Int) (e : Expr) (r : Reader) :
    r.pull depth (.whole e) = (.ok e, r) := by
  rw [pull]

theorem pull_eq_take (hp : ∀ e, p ≠ .whole e) :
    r.pull depth p =
      match r.take with
      | (.error cause, left) => (.error cause, left)
      | (.ok none, left) => (.error p.endError, left)
      | (.ok (some t), left) =>
        match p.step r.limit depth t with
        | .ok q => left.pull depth q
        | .error cause => (.error cause, left) := by
  rw [pull.eq_2 _ _ _ hp]
  split
  all_goals
    next htake =>
      rw [htake]

/-- Looking at a token before it is taken makes no difference. -/
theorem descend_eq_pull (depth : Int) (p : Progress) (r : Reader) :
    r.descend depth p = r.pull depth p := by
  fun_induction descend depth p r with
  | case1 r e => rw [pull_whole]
  | case2 r p hp cause left h =>
    rw [fetch_eq_take] at h
    rw [pull_eq_take hp, h]
  | case3 r p hp left h =>
    rw [fetch_eq_take] at h
    rw [pull_eq_take hp, h]
  | case4 r p hp t left h q hq ih =>
    rw [fetch_eq_take] at h
    simp only [pull_eq_take hp, h, hq, ih]
  | case5 r p hp t left h cause hq =>
    rw [fetch_eq_take] at h
    simp only [pull_eq_take hp, h, hq]

/-- Reading on never brings tokens back. -/
theorem length_upcoming_pull_le {e : Expr} (h : r.pull depth p = (.ok e, r')) :
    r'.upcoming.length ≤ r.upcoming.length := by
  fun_induction pull depth p r with
  | case1 r e' =>
    cases h
    exact Nat.le_refl _
  | case2 r p hp cause left htake => cases h
  | case3 r p hp left htake => cases h
  | case4 r p hp t left htake q hq ih =>
    rw [upcoming_of_take htake, List.length_cons]
    exact Nat.le_succ_of_le (ih h)
  | case5 r p hp t left htake cause hq => cases h

/-- An expression takes at least one token. -/
theorem length_upcoming_of_pull {e : Expr} (h : r.pull depth .start = (.ok e, r')) :
    r'.upcoming.length < r.upcoming.length := by
  rw [pull_eq_take (by simp [Progress.start])] at h
  split at h
  case h_1 | h_2 => cases h
  case h_3 t left htake =>
    rw [upcoming_of_take htake, List.length_cons, Nat.lt_succ_iff]
    split at h
    case h_1 q hq => exact length_upcoming_pull_le h
    case h_2 => cases h

end Pull

/-- Reads one expression, after which no token may come. -/
def pullSole (r : Reader) : Except Error Expr × Reader :=
  match r.peek with
  | (.error cause, r) => (.error cause, r)
  | (.ok none, r) => (.error .emptyInput, r)
  | (.ok (some _), r) =>
    match r.pull 0 .start with
    | (.error cause, r) => (.error cause, r)
    | (.ok e, r) =>
      match r.peek with
      | (.error cause, r) => (.error cause, r)
      | (.ok none, r) => (.ok e, r)
      | (.ok (some t), r) => (.error (.trailingToken t), r)

/-- Reads expression after expression until no token comes. -/
def pullAll (r : Reader) : Except Error (List Expr) × Reader :=
  match _hp : r.peek with
  | (.error cause, r) => (.error cause, r)
  | (.ok none, r) => (.ok [], r)
  | (.ok (some _), next) =>
    match _h : next.pull 0 .start with
    | (.error cause, r) => (.error cause, r)
    | (.ok e, left) => (left.pullAll.1.map (e :: ·), left.pullAll.2)
  termination_by r.upcoming.length
  decreasing_by
    have hsame : next.upcoming = r.upcoming := by
      rw [← upcoming_peek r, _hp]
    rw [← hsame]
    exact length_upcoming_of_pull _h

end Reader

end Lisplet
