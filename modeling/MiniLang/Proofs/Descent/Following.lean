import MiniLang.Proofs.Descent.Cursor
/-!
# Following

A function of a descent *follows* a stack of goals from a place on if it comes back, with what the machine comes to when
it meets the goals there, and with the cursor behind the same tokens.  A function that answers with an operand has
written the tree that the machine holds (`Reader.written`); a function that goes on behind an operand *continues*, where
the tree on its left is written already and the machine still holds it.

Functions called one after the other follow stacks on top of each other (`Follows.bind`, `Follows.bind_written`), and an
operation that is written as soon as its right side is read is the machine's join (`Continues.operation`).
-/
namespace MiniLang

/-- The draft, where nothing is answered. -/
def Reader.done (r : Reader) : Unit × Draft := ((), r.draft)

/-- The tree that is held is written, and answered with its operand. -/
def Reader.written (r : Reader) : String × Draft :=
  ((r.draft.builder.lower r.held).1, ⟨r.draft.declared, (r.draft.builder.lower r.held).2⟩)

namespace Descent

variable {α : Type} {s : Descent} {t : Token} {ts : List Token} {gs gs' hs : List Goal} {out : Reader → α × Draft}

/-- What comes of a function where the machine has met its goals. -/
def ended (s : Descent) (out : Reader → α × Draft) (R : Reader × List Token) : α × Descent :=
  ((out R.1).1, s.reach R.2 (out R.1).2)

/-- The function does what meeting the goals does, whatever tree is held before. -/
def Follows (s : Descent) (p : Parse α) (gs : List Goal) (out : Reader → α × Draft) : Prop :=
  ∀ held, run p s = some ((Reader.meet ⟨gs, held, s.draft⟩ s.rest).map (s.ended out))

theorem Follows.method {f p : Parse α} (h : f s = StateT.run p s) (hp : s.Follows p gs out) :
    s.Follows f gs out := fun held => (run_method h).trans (hp held)

/-- The descent with a tree written behind its code. -/
def wrote (s : Descent) (e : Expr) : Descent :=
  ⟨s.tokens, s.current, ⟨s.draft.declared, (s.draft.builder.lower e).2⟩⟩

/-- The function, given the operand of a tree that is written, does what meeting the goals does where the tree is held. -/
def Continues (s : Descent) (q : String → Parse α) (gs : List Goal) (out : Reader → α × Draft) : Prop :=
  ∀ e, run (q (s.draft.builder.lower e).1) (s.wrote e) =
    some ((Reader.meet ⟨gs, e, s.draft⟩ s.rest).map (s.ended out))

/-- What holds at every place further on. -/
def Ahead (s : Descent) (P : Descent → Prop) : Prop := ∀ s' : Descent, s'.Inside → s'.rest.length < s.rest.length → P s'

theorem Ahead.next {P : Descent → Prop} (h : s.Ahead P) (hrest : s.rest = t :: ts) : P s.next := by
  refine h s.next (current_lt hrest) ?_
  rw [rest_next hrest, hrest]
  exact Nat.lt_succ_self _

theorem Ahead.of_next {P : Descent → Prop} (h : s.Ahead P) (hrest : s.rest = t :: ts) : s.next.Ahead P := by
  intro s' hs' hlt
  refine h s' hs' (hlt.trans ?_)
  rw [rest_next hrest, hrest]
  exact Nat.lt_succ_self _

/-- Where a stack whose first goal takes a token is met, the cursor is further on. -/
theorem Ahead.reach {P : Descent → Prop} (h : s.Ahead P) {r : Reader} {rest : List Token} {held : Expr} {d : Draft}
    (hgs : Goal.takes gs) (hmeet : Reader.meet ⟨gs, held, d⟩ s.rest = .ok (r, rest)) (d' : Draft) :
    P (s.reach rest d') ∧ (s.reach rest d').rest = rest := by
  obtain ⟨⟨taken, htaken⟩, -⟩ := Reader.grows_of_meet hmeet
  have hrest := rest_reach htaken d'
  refine ⟨h _ (inside_reach ..) ?_, hrest⟩
  rw [hrest]
  exact Reader.takes_of_meet hgs hmeet

/-! ## One token -/

theorem meet_nil (held : Expr) (d : Draft) (ts : List Token) : Reader.meet ⟨[], held, d⟩ ts = .ok (⟨[], held, d⟩, ts) := by
  cases ts <;> rw [Reader.meet] <;> rfl

theorem follows_pure (hs : s.Inside) : s.Follows (pure ()) [] Reader.done := fun held => by
  have hself : s.ended Reader.done (⟨[], held, s.draft⟩, s.rest) = ((), s) := by rw [ended, Reader.done, reach_self hs]
  rw [meet_nil, Except.map, hself]
  rfl

theorem Follows.take {p p' : Parse α} (hrest : s.rest = t :: ts)
    (hread : ∀ held, Goal.read held t gs = .take gs' held none) (hrun : run p s = run p' s.next)
    (h : s.next.Follows p' gs' out) : s.Follows p gs out := fun held => by
  rw [hrun, h held, rest_next hrest, hrest, Reader.meet_take (hread held)]
  rfl

theorem Follows.pass {p p' : Parse α} (h : s.Follows p' gs' out) (hrun : run p s = run p' s)
    (hread : ∀ held, ∀ t ∈ s.rest.head?, Goal.read held t gs = Goal.read held t gs')
    (hclose : ∀ held, Goal.close held gs = Goal.close held gs') : s.Follows p gs out := fun held => by
  rw [hrun, h held, Reader.meet_congr (hread held) (hclose held)]

theorem meet_refused {w : Expected} {held : Expr} {d : Draft} (hread : ∀ t ∈ s.rest.head?, Goal.read held t gs = .refuse w)
    (hclose : Goal.close held gs = .error w) : Reader.meet ⟨gs, held, d⟩ s.rest = .error ⟨.expected w, s.peek⟩ := by
  rw [peek_eq]
  cases hrest : s.rest with
  | nil => rw [Reader.meet, hclose]; rfl
  | cons t ts => rw [Reader.meet, hread t (by rw [hrest]; rfl)]; rfl

theorem follows_refused {p : Parse α} {w : Expected} (hread : ∀ held, ∀ t ∈ s.rest.head?, Goal.read held t gs = .refuse w)
    (hclose : ∀ held, Goal.close held gs = .error w) (hrun : run p s = some (.error ⟨.expected w, s.peek⟩)) :
    s.Follows p gs out := fun held => by
  rw [hrun, meet_refused (hread held) (hclose held)]
  rfl

theorem read_mark {m : Mark} (hk : t.kind = m.kind) (held : Expr) (gs : List Goal) :
    Goal.read held t (.mark m :: gs) = .take gs held none := by rw [Goal.read, if_pos hk]

/-- A mark that is not there is refused. -/
theorem read_mark_ne {m : Mark} (hm : s.check m.kind = false) (held : Expr) (gs : List Goal) :
    ∀ t ∈ s.rest.head?, Goal.read held t (.mark m :: gs) = .refuse (.mark m) := by
  intro t ht
  have hk : t.kind ≠ m.kind := by
    rw [check, peek_eq, Option.mem_def.1 ht] at hm
    exact of_decide_eq_false hm
  rw [Goal.read, if_neg hk]

theorem exists_of_check {k : Kind} (h : s.check k = true) : ∃ t ts, s.rest = t :: ts ∧ t.kind = k := by
  cases hrest : s.rest with
  | nil => rw [check_of_nil hrest] at h; cases h
  | cons t ts =>
    rw [check_of_rest hrest] at h
    exact ⟨t, ts, rfl, of_decide_eq_true h⟩

theorem exists_of_either {k l : Kind} (h : (s.check k || s.check l) = true) :
    ∃ t ts, s.rest = t :: ts ∧ (t.kind = k ∨ t.kind = l) := by
  rcases Bool.or_eq_true _ _ ▸ h with h | h
  · obtain ⟨t, ts, hrest, hk⟩ := exists_of_check h
    exact ⟨t, ts, hrest, .inl hk⟩
  · obtain ⟨t, ts, hrest, hk⟩ := exists_of_check h
    exact ⟨t, ts, hrest, .inr hk⟩

theorem follows_consumeMark (m : Mark) (s : Descent) : s.Follows (consumeMark m) [.mark m] Reader.done := by
  cases hm : s.check m.kind with
  | true =>
    obtain ⟨t, ts, hrest, hk⟩ := exists_of_check hm
    refine .take hrest (fun held => read_mark hk held []) ?_ (follows_pure (current_lt hrest))
    exact run_consumeMark_ok hrest hk
  | false => exact follows_refused (fun held => read_mark_ne hm held []) (fun _ => rfl) (run_consumeMark_error hm)

/-! ## One after the other -/

/-- **Calls**, one after the other. -/
theorem Follows.bind {p : Parse Unit} {q : Parse α} (hgs : Goal.takes gs) (hp : s.Follows p gs Reader.done)
    (hq : s.Ahead fun s' => s'.Follows q hs out) : s.Follows (p >>= fun _ => q) (gs ++ hs) out := fun held => by
  rw [Reader.meet_append]
  have hrun := hp held
  cases hmeet : Reader.meet ⟨gs, held, s.draft⟩ s.rest with
  | error e =>
    rw [hmeet] at hrun
    rw [run_bind_error hrun]
    rfl
  | ok R =>
    rw [hmeet] at hrun
    obtain ⟨hfollows, hrest⟩ := hq.reach hgs hmeet R.1.draft
    rw [run_bind_ok hrun]
    refine (hfollows R.1.held).trans ?_
    rw [hrest]
    rfl

/-- Calls, the second given the operand that the first has written. -/
theorem Follows.bind_written {p : Parse String} {q : String → Parse α} (hgs : Goal.takes gs)
    (hp : s.Follows p gs Reader.written) (hq : s.Ahead fun s' => s'.Continues q hs out) :
    s.Follows (p >>= q) (gs ++ hs) out := fun held => by
  rw [Reader.meet_append]
  have hrun := hp held
  cases hmeet : Reader.meet ⟨gs, held, s.draft⟩ s.rest with
  | error e =>
    rw [hmeet] at hrun
    rw [run_bind_error hrun]
    rfl
  | ok R =>
    rw [hmeet] at hrun
    obtain ⟨hcontinues, hrest⟩ := hq.reach hgs hmeet R.1.draft
    rw [run_bind_ok hrun]
    refine (hcontinues R.1.held).trans ?_
    rw [hrest]
    rfl

/-- An operand is handed on behind a mark. -/
theorem continues_mark (m : Mark) (s : Descent) :
    s.Continues (fun x => do consumeMark m; return x) [.mark m] Reader.written := fun e => by
  cases hm : s.check m.kind with
  | true =>
    obtain ⟨t, ts, hrest, hk⟩ := exists_of_check hm
    have hwrote : (s.wrote e).rest = t :: ts := hrest
    rw [run_bind_ok (run_consumeMark_ok hwrote hk), hrest, Reader.meet_take (read_mark hk e []), meet_nil, Except.map, ended,
      reach_next hrest]
    rfl
  | false =>
    have hwrote : (s.wrote e).check m.kind = false := hm
    rw [run_bind_error (run_consumeMark_error hwrote), meet_refused (read_mark_ne hm e []) rfl]
    rfl

/-- **An operation** is written as soon as its right side is read, where the machine joins the trees of its two sides. -/
theorem Continues.operation {p : Parse String} {q : String → Parse String} {op : Op} (hgs : Goal.takes gs)
    (hexpr : ∀ g ∈ gs, g.isExpression) (hrest : s.rest = t :: ts) (hp : s.Ahead fun s' => s'.Follows p gs Reader.written)
    (hq : s.Ahead fun s' => s'.Continues q hs Reader.written) (e : Expr) :
    run (do let right ← p; q (← emitBinary (s.draft.builder.lower e).1 op right)) (s.wrote e).next =
      some ((Reader.meet ⟨gs ++ .join op e :: hs, e, s.draft⟩ ts).map (s.ended Reader.written)) := by
  have hwrote : (s.wrote e).rest = t :: ts := hrest
  have hnext : (s.wrote e).next.rest = ts := rest_next hwrote
  -- the right side is read on the draft that holds the left one; the machine reads it on the draft without
  have hrun := Ahead.next (s := s.wrote e) hp hwrote e
  rw [hnext, Reader.meet_expression hexpr _ s.draft] at hrun
  rw [Reader.meet_append]
  cases hmeet : Reader.meet ⟨gs, e, s.draft⟩ ts with
  | error fault =>
    rw [hmeet] at hrun
    rw [run_bind_error hrun]
    rfl
  | ok R =>
    rw [hmeet] at hrun
    have hdraft : R.1.draft = s.draft := Reader.draft_of_meet hexpr hmeet
    have hmeet' : Reader.meet ⟨gs, e, s.draft⟩ s.next.rest = .ok R := by rw [rest_next hrest, hmeet]
    obtain ⟨hcontinues, hR⟩ := (hq.of_next hrest).reach hgs hmeet' s.draft
    rw [run_bind_ok hrun]
    refine (hcontinues (.binary op e R.1.held)).trans ?_
    rw [hR, ← Reader.meet_join, ← hdraft]
    rfl

end Descent

end MiniLang
