import MiniLang.Proofs.Code.Freshness
import MiniLang.Proofs.Expectation
/-!
# Stacks of goals

What stands on top of a stack is met before what stands below it, by itself (`Reader.meet_append`): so phrases call each
other, and the statements of a text or of a block are a loop of calls.

A stack whose first goal cannot be left behind takes at least one token (`Reader.takes_of_meet`).  What is done to the
draft is done token by token: names are added and code is added behind, and the counter stays the number of operations
written (`Draft.grows_note`).  Expressions note nothing (`Goal.isExpression`), so they are read alike on any draft.
-/
namespace MiniLang

/-! ## Drafts grow -/

/-- The counter is the number of operations written. -/
def Builder.Counted (b : Builder) : Prop := b.temps = b.code.countP (·.result?.isSome)

theorem countP_result_instrs (e : Expr) (n : Nat) : (e.instrs n).countP (·.result?.isSome) = e.operations := by
  have hlength := congrArg List.length (results_instrs e n)
  rwa [List.length_filterMap_eq_countP, List.length_map, List.length_range'] at hlength

namespace Draft

/-- What a draft may become: more names, more code behind the code so far, and the counter keeps counting. -/
structure Grows (d d' : Draft) : Prop where
  declared : ∀ x ∈ d.declared, x ∈ d'.declared
  code : d.builder.code <+: d'.builder.code
  counted : d.builder.Counted → d'.builder.Counted

theorem Grows.refl (d : Draft) : d.Grows d := ⟨fun _ hx => hx, List.prefix_refl _, id⟩

theorem Grows.trans {d d' d'' : Draft} (h : d.Grows d') (h' : d'.Grows d'') : d.Grows d'' where
  declared x hx := h'.declared x (h.declared x hx)
  code := h.code.trans h'.code
  counted hc := h'.counted (h.counted hc)

theorem grows_lower (d : Draft) (e : Expr) : d.Grows ⟨d.declared, (d.builder.lower e).2⟩ where
  declared _ hx := hx
  code := by
    rw [Builder.lower_eq]
    simp [Builder.code]
  counted hc := by
    unfold Builder.Counted at hc ⊢
    rw [Builder.lower_eq]
    simp only [Builder.code, List.reverse_append, List.reverse_reverse, List.countP_append, countP_result_instrs]
    rw [← Builder.code, ← hc]

theorem grows_copy (d : Draft) (x y : String) : d.Grows ⟨d.declared, d.builder.copy x y⟩ where
  declared _ hx := hx
  code := by
    rw [Builder.code_copy]
    exact List.prefix_append _ _
  counted hc := by
    unfold Builder.Counted at hc ⊢
    rw [Builder.code_copy, List.countP_append, ← hc]
    rfl

theorem grows_note {d d' : Draft} {event : Event} (h : d.note event = .ok d') : d.Grows d' := by
  cases event with
  | declare x =>
    rw [note] at h
    split at h <;> cases h
    exact ⟨fun _ hy => Names.mem_insert.2 (.inr hy), List.prefix_refl _, id⟩
  | mention x =>
    rw [note] at h
    split at h <;> cases h
    exact .refl d
  | assign x e =>
    cases h
    exact (d.grows_lower e).trans (grows_copy _ x _)

theorem grows_noteAny {d d' : Draft} {event : Option Event} (h : d.noteAny event = .ok d') : d.Grows d' := by
  cases event with
  | none =>
    cases h
    exact .refl d
  | some event => exact grows_note h

end Draft

/-- **A draft grows** while tokens are taken. -/
theorem Reader.Reads.grows {r r' : Reader} {ts : List Token} (h : Reads r ts r') : r.draft.Grows r'.draft := by
  induction h with
  | nil => exact .refl _
  | cons _ hnote _ ih => exact (Draft.grows_noteAny hnote).trans ih

/-! ## Stacks on top of each other -/

/-- The move on a stack with `hs` below it; `next` is that of `hs`, should it be come to. -/
def Move.above (hs : List Goal) (next : Expr → Move) : Move → Move
  | take gs held event => take (gs ++ hs) held event
  | pass held => next held
  | refuse wanted => refuse wanted

namespace Goal

variable {t : Token}

theorem enter_append (gs hs : List Goal) (held : Expr) (next : Expr → Move) :
    enter (gs ++ hs) held t = (enter gs held t).above hs next := by
  unfold enter
  split
  · rw [← List.append_assoc]
    rfl
  · rfl

theorem enterOperand_append (u : Use) (gs hs : List Goal) (held : Expr) (next : Expr → Move) :
    enterOperand u (gs ++ hs) held t = (enterOperand u gs held t).above hs next := by
  unfold enterOperand
  split
  · rfl
  · rfl
  · rw [← List.append_assoc]
    rfl
  · rfl

theorem read_append (hs : List Goal) : ∀ (gs : List Goal) (held : Expr),
    read held t (gs ++ hs) = (read held t gs).above hs (fun held => read held t hs)
  | [], _ => rfl
  | g :: gs, held => by
    rw [List.cons_append]
    cases g with
    | statements => exact enter_append (statements :: gs) hs held _
    | statement => exact enter_append gs hs held _
    | body =>
      rw [read, read]
      split
      · rfl
      · exact enter_append (body :: gs) hs held _
    | alternative =>
      rw [read, read]
      split
      · rw [← List.append_assoc]
        rfl
      · exact read_append hs gs held
    | newName | mark m | assigned x =>
      rw [read, read]
      split <;> rfl
    | printed =>
      rw [read, read]
      split
      · rfl
      · exact enterOperand_append .checked gs hs held _
    | operand u => exact enterOperand_append u gs hs held _
    | factors u | terms u =>
      rw [read, read]
      split
      · simp only [Move.above, List.cons_append, List.append_assoc]
      · exact read_append hs gs held
    | comparison =>
      rw [read, read]
      split
      · rw [← List.append_assoc]
        rfl
      · exact read_append hs gs held
    | join op left => exact read_append hs gs (.binary op left held)

theorem close_append (hs : List Goal) : ∀ (gs : List Goal) (held : Expr),
    close held (gs ++ hs) = (close held gs).bind fun held => close held hs
  | [], _ => rfl
  | g :: gs, held => by
    cases g with
    | statements | alternative | factors u | terms u | comparison => exact close_append hs gs held
    | join op left => exact close_append hs gs (.binary op left held)
    | statement | body | newName | mark m | printed | operand u | assigned x => rfl

end Goal

namespace Reader

/-- **Calls**: what stands on top of a stack is met before what stands below it, by itself. -/
theorem meet_append : ∀ (ts : List Token) (gs hs : List Goal) (held : Expr) (d : Draft),
    meet ⟨gs ++ hs, held, d⟩ ts = (meet ⟨gs, held, d⟩ ts).bind fun R => meet ⟨hs, R.1.held, R.1.draft⟩ R.2
  | [], gs, hs, held, d => by
    rw [meet, meet, Goal.close_append]
    cases Goal.close held gs with
    | error wanted => rfl
    | ok held' =>
      simp only [Except.bind]
      rw [meet]
  | t :: ts, gs, hs, held, d => by
    rw [meet, meet, Goal.read_append]
    cases Goal.read held t gs with
    | refuse wanted => rfl
    | pass held' =>
      simp only [Move.above, Except.bind]
      rw [meet]
    | take gs' held' event =>
      simp only [Move.above]
      cases d.noteAny event with
      | error fault => rfl
      | ok d' => exact meet_append ts gs' hs held' d'

end Reader

/-! ## What is left behind -/

namespace Goal

theorem enter_ne_pass (gs : List Goal) (held held' : Expr) (t : Token) : enter gs held t ≠ .pass held' := by
  unfold enter
  split <;> simp

theorem enterOperand_ne_pass (u : Use) (gs : List Goal) (held held' : Expr) (t : Token) :
    enterOperand u gs held t ≠ .pass held' := by
  unfold enterOperand
  split <;> simp

end Goal

/-- What is left behind may pass, or it is the statements of the text, at its end. -/
theorem Reader.Leaves.passable {g : Goal} {gs : List Goal} {held held' : Expr} {d : Draft} {ts : List Token}
    (h : Leaves ⟨g :: gs, held, d⟩ ts held') : g.mayPass = true ∨ g = .statements := by
  cases h with
  | atEnd hclose => cases g <;> simp [Goal.close, Goal.mayPass] at hclose ⊢
  | @atToken _ t ts hread =>
    cases g with
    | alternative | factors u | terms u | comparison | join op left => exact .inl rfl
    | statements => exact .inr rfl
    | statement => exact absurd hread (Goal.enter_ne_pass gs held held' t)
    | body =>
      rw [Goal.read] at hread
      split at hread
      · cases hread
      · exact absurd hread (Goal.enter_ne_pass _ held held' t)
    | newName | mark m | assigned x =>
      rw [Goal.read] at hread
      split at hread <;> cases hread
    | printed =>
      rw [Goal.read] at hread
      split at hread
      · cases hread
      · exact absurd hread (Goal.enterOperand_ne_pass _ gs held held' t)
    | operand u => exact absurd hread (Goal.enterOperand_ne_pass u gs held held' t)

/-! ## Expressions -/

namespace Goal

/-- The goals of which expressions are made. -/
def isExpression : Goal → Bool
  | operand _ | factors _ | terms _ | comparison | join .. | mark .closeExpression => true
  | _ => false

variable {gs gs' : List Goal} {held held' : Expr} {t : Token} {event : Option Event}

theorem isExpression_arithmetic (u : Use) : ∀ g ∈ arithmetic u, g.isExpression := by
  simp [arithmetic, isExpression]

theorem isExpression_parenthesised (u : Use) : ∀ g ∈ parenthesised u, g.isExpression := by
  cases u <;> simp [parenthesised, condition, arithmetic, isExpression]

theorem isExpression_joins (u : Use) (op : Op) (left : Expr) : ∀ g ∈ joins u op left, g.isExpression := by
  cases u <;> simp [joins, isExpression]

theorem enterOperand_expression {u : Use} (h : ∀ g ∈ gs, g.isExpression)
    (hread : enterOperand u gs held t = .take gs' held' event) : event = none ∧ ∀ g ∈ gs', g.isExpression := by
  unfold enterOperand at hread
  split at hread
  · cases hread
    exact ⟨rfl, h⟩
  · cases hread
    exact ⟨rfl, h⟩
  · cases hread
    exact ⟨rfl, List.forall_mem_append.2 ⟨isExpression_parenthesised u, h⟩⟩
  · cases hread

/-- A token inside an expression says nothing, and what it opens is inside the expression. -/
theorem read_expression : ∀ {gs : List Goal} {held : Expr}, (∀ g ∈ gs, g.isExpression) →
    read held t gs = .take gs' held' event → event = none ∧ ∀ g ∈ gs', g.isExpression
  | [], _, _, hread => by cases hread
  | g :: gs, held, h, hread => by
    obtain ⟨hg, hgs⟩ := List.forall_mem_cons.1 h
    cases g with
    | statements | statement | body | alternative | newName | printed | assigned => cases hg
    | mark m =>
      rw [read] at hread
      split at hread <;> cases hread
      exact ⟨rfl, hgs⟩
    | operand u => exact enterOperand_expression hgs hread
    | factors u =>
      rw [read] at hread
      split at hread
      · next op _ =>
        have hjoins := isExpression_joins u op held
        cases hread
        exact ⟨rfl, List.forall_mem_cons.2 ⟨rfl, List.forall_mem_append.2 ⟨hjoins, h⟩⟩⟩
      · exact read_expression hgs hread
    | terms u =>
      rw [read] at hread
      split at hread
      · next op _ =>
        have hjoins := isExpression_joins u op held
        cases hread
        have hrest := List.forall_mem_append.2 ⟨hjoins, h⟩
        exact ⟨rfl, List.forall_mem_cons.2 ⟨rfl, List.forall_mem_cons.2 ⟨rfl, hrest⟩⟩⟩
      · exact read_expression hgs hread
    | comparison =>
      rw [read] at hread
      split at hread
      · cases hread
        exact ⟨rfl, List.forall_mem_append.2 ⟨isExpression_arithmetic .checked, hgs⟩⟩
      · exact read_expression hgs hread
    | join op left => exact read_expression hgs hread

end Goal

theorem Reader.Reads.draft_eq {r r' : Reader} {ts : List Token} (h : Reads r ts r')
    (hr : ∀ g ∈ r.goals, g.isExpression) : r'.draft = r.draft := by
  induction h with
  | nil => rfl
  | cons hread hnote _ ih =>
    obtain ⟨rfl, hgs⟩ := Goal.read_expression hr hread
    cases hnote
    exact ih hgs

theorem Reader.meet_expression {ts : List Token} : ∀ {gs : List Goal} {held : Expr}, (∀ g ∈ gs, g.isExpression) →
    ∀ d d' : Draft, meet ⟨gs, held, d⟩ ts = (meet ⟨gs, held, d'⟩ ts).map fun R => (⟨R.1.goals, R.1.held, d⟩, R.2) := by
  induction ts with
  | nil =>
    intro gs held _ d d'
    rw [meet, meet]
    cases Goal.close held gs <;> rfl
  | cons t ts ih =>
    intro gs held h d d'
    rw [meet, meet]
    cases hread : Goal.read held t gs with
    | pass held' => rfl
    | refuse wanted => rfl
    | take gs' held' event =>
      obtain ⟨rfl, hgs⟩ := Goal.read_expression h hread
      exact ih hgs d d'

/-! ## Progress -/

namespace Goal

/-- The first goal of the stack takes a token. -/
def takes : List Goal → Bool
  | [] => false
  | g :: _ => !(g.mayPass || g == statements)

end Goal

namespace Reader

variable {gs : List Goal} {held : Expr} {d : Draft} {t : Token} {ts rest : List Token} {r : Reader}

/-- **A stack that is met** takes tokens from the front, and the draft grows. -/
theorem grows_of_meet (h : meet ⟨gs, held, d⟩ ts = .ok (r, rest)) :
    (∃ taken, ts = taken ++ rest) ∧ d.Grows r.draft := by
  obtain ⟨taken, r', held', hts, hreads, -, hr⟩ := reads_of_meet h
  obtain rfl : r = ⟨[], held', r'.draft⟩ := hr
  exact ⟨⟨taken, hts⟩, hreads.grows⟩

/-- A stack whose first goal takes a token leaves less behind than there was. -/
theorem takes_of_meet (hgs : Goal.takes gs) (h : meet ⟨gs, held, d⟩ ts = .ok (r, rest)) :
    rest.length < ts.length := by
  obtain ⟨taken, r', held', hts, hreads, hleaves, -⟩ := reads_of_meet h
  cases taken with
  | cons t taken =>
    simp only [hts, List.cons_append, List.length_cons, List.length_append]
    omega
  | nil =>
    -- a reader that has taken nothing stands before the first goal, and that cannot be left behind
    cases hreads
    cases gs with
    | nil => cases hgs
    | cons g gs => rcases hleaves.passable with hg | hg <;> simp [Goal.takes, hg] at hgs

theorem draft_of_meet (hgs : ∀ g ∈ gs, g.isExpression) (h : meet ⟨gs, held, d⟩ ts = .ok (r, rest)) : r.draft = d := by
  obtain ⟨_, r', held', -, hreads, -, hr⟩ := reads_of_meet h
  obtain rfl : r = ⟨[], held', r'.draft⟩ := hr
  exact hreads.draft_eq hgs

/-- **A loop of statements** over a stack that a token enters: the first is read, and then it goes on behind it. -/
theorem meet_enter (h : Goal.read held t gs = Goal.enter gs held t) :
    meet ⟨gs, held, d⟩ (t :: ts) = meet ⟨[.statement] ++ gs, held, d⟩ (t :: ts) := by
  have hread : Goal.read held t ([.statement] ++ gs) = Goal.enter gs held t := rfl
  rw [meet, meet, h, hread]

end Reader

end MiniLang
