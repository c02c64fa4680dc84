import MiniLang.Proofs.Code.Renaming
import MiniLang.Proofs.Grammar.Stage
/-!
# Reading under other names

Two tokens read alike under a change `f` of names and numbers if they are of one kind, and what is compared of them is the
same: the text of a keyword or an operator, and the text of a name or a number up to `f`.  Positions and the texts of
marks are not looked at.  A stack of goals does the same with both, and asks for the same where it refuses them
(`Goal.renamed_read`).

The tree that is held is carried along as `f` has it only while it is looked at (`Goal.usesHeld`): what is held elsewhere
is a leftover, the same in both texts and a name in neither.
-/
namespace MiniLang

structure Token.Renamed (f : String → String) (t t' : Token) : Prop where
  kind : t'.kind = t.kind
  sign : t.kind = .keyword ∨ t.kind = .operator → t'.lexeme = t.lexeme
  name : t.kind = .identifier ∨ t.kind = .number → t'.lexeme = f t.lexeme

namespace Token.Renamed

variable {f : String → String} {t t' : Token}

theorem keyword?_eq (h : t.Renamed f t') : t'.keyword? = t.keyword? := by
  unfold keyword?
  rw [h.kind]
  split
  · next hk => rw [h.sign (.inl hk)]
  · rfl

theorem operator?_eq (h : t.Renamed f t') (m : Bool) : Goal.operator? m t' = Goal.operator? m t := by
  unfold Goal.operator?
  rw [h.kind]
  split
  · next hk => rw [h.sign (.inr hk)]
  · rfl

end Token.Renamed

def Event.rename (f : String → String) : Event → Event
  | declare x => declare (f x)
  | mention x => mention (f x)
  | assign x e => assign (f x) (e.rename f)

namespace Goal

def rename (f : String → String) : Goal → Goal
  | join op left => join op (left.rename f)
  | assigned x => assigned (f x)
  | g => g

/-- Whether the tree that is held is looked at before another one takes its place. -/
def usesHeld : List Goal → Bool
  | [] => false
  | factors .lowered :: _ | terms .lowered :: _ | join .. :: _ | assigned _ :: _ => true
  | operand .lowered :: _ => false
  | _ :: gs => usesHeld gs

/-- What is held in front of a statement is a leftover. -/
theorem usesHeld_of_rest : ∀ {gs : List Goal}, Aligned .rest gs → usesHeld gs = false
  | [], _ => rfl
  | statements :: gs, ⟨_, hgs⟩ | statement :: gs, ⟨_, hgs⟩ | body :: gs, ⟨_, hgs⟩ | alternative :: gs, ⟨_, hgs⟩ =>
    have hrest : usesHeld gs = false := usesHeld_of_rest hgs
    hrest
  | mark m :: _, ⟨hstage, _⟩ => by
    cases m with
    | openHead k => cases k <;> cases hstage
    | _ => cases hstage

theorem Opens.usesHeld {t : Token} {opened : List Goal} {event : Option Event} {gs : List Goal} (h : Opens t opened event)
    (hgs : Goal.usesHeld gs = false) : Goal.usesHeld (opened ++ gs) = false := by
  cases h with
  | assignment => rfl
  | declaration | branch | loop | print => exact hgs

end Goal

/-- What becomes of two stacks at two tokens: the same, and what is held is carried along where it is looked at. -/
inductive Move.Renamed (f : String → String) : Move → Move → Prop where
  | take {gs : List Goal} {held held' : Expr} {event : Option Event}
      (hheld : Goal.usesHeld gs = true → held' = held.rename f) :
      Renamed f (.take gs held event) (.take (gs.map (Goal.rename f)) held' (event.map (Event.rename f)))
  | pass (held held' : Expr) : Renamed f (.pass held) (.pass held')
  | refuse (wanted : Expected) : Renamed f (.refuse wanted) (.refuse wanted)

theorem Move.Renamed.leftover {f : String → String} {gs : List Goal} {held held' : Expr} {event : Option Event}
    (h : Goal.usesHeld gs = false) :
    Renamed f (.take gs held event) (.take (gs.map (Goal.rename f)) held' (event.map (Event.rename f))) := by
  refine .take (fun huses => ?_)
  rw [h] at huses
  cases huses

namespace Goal

variable {f : String → String} {t t' : Token}

theorem openStatement_renamed (ht : t.Renamed f t') : openStatement t' =
    (openStatement t).map fun o => (o.1.map (rename f), o.2.map (Event.rename f)) := by
  unfold openStatement
  rw [ht.kind, ht.keyword?_eq]
  split
  · next hk =>
    rw [openAssignment, openAssignment, ht.kind, if_pos hk, if_pos hk, ht.name (.inl hk)]
    rfl
  · split <;> rfl
  · rfl

theorem renamed_enter (ht : t.Renamed f t') {gs : List Goal} (hgs : usesHeld gs = false) (held held' : Expr) :
    (enter gs held t).Renamed f (enter (gs.map (rename f)) held' t') := by
  unfold enter
  rw [openStatement_renamed ht]
  cases ho : openStatement t with
  | error wanted => exact .refuse wanted
  | ok o =>
    have hleft : usesHeld (o.1 ++ gs) = false := (opens_of_openStatement ho).usesHeld hgs
    have hmap : o.1.map (rename f) ++ gs.map (rename f) = (o.1 ++ gs).map (rename f) := List.map_append.symm
    dsimp only [Except.map]
    rw [hmap]
    exact .leftover hleft

theorem renamed_enterOperand (ht : t.Renamed f t') {gs : List Goal} {held held' : Expr} (u : Use)
    (hheld : usesHeld (operand u :: gs) = true → held' = held.rename f) :
    (enterOperand u gs held t).Renamed f (enterOperand u (gs.map (rename f)) held' t') := by
  have hmap : parenthesised u ++ gs.map (rename f) = (parenthesised u ++ gs).map (rename f) := by
    cases u <;> rfl
  have hleaf : ∀ e : Expr, usesHeld gs = true → leaf u held' (e.rename f) = (leaf u held e).rename f := by
    intro e h
    cases u with
    | checked => exact hheld h
    | lowered => rfl
  unfold enterOperand
  rw [ht.kind, hmap]
  split
  · next hk =>
    rw [ht.name (.inr hk)]
    exact .take (hleaf (.number t.lexeme))
  · next hk =>
    rw [ht.name (.inl hk)]
    exact .take (hleaf (.name t.lexeme))
  · cases u with
    | checked => exact .take hheld
    | lowered => exact .leftover rfl
  · exact .refuse _

/-! ### Goal by goal

A goal that does not take the tokens leaves both to the goals below.
-/

section

variable {gs : List Goal} {held held' : Expr}

theorem renamed_body (ht : t.Renamed f t') (hgs : Aligned .rest gs)
    (hheld : usesHeld (body :: gs) = true → held' = held.rename f) :
    (read held t (body :: gs)).Renamed f (read held' t' ((body :: gs).map (rename f))) := by
  have hrest : usesHeld (body :: gs) = false := usesHeld_of_rest ⟨rfl, hgs⟩
  have henter := renamed_enter ht hrest held held'
  simp only [List.map_cons, rename, read, ht.kind] at henter ⊢
  split
  · exact .take hheld
  · exact henter

theorem renamed_alternative (ht : t.Renamed f t') (hheld : usesHeld gs = true → held' = held.rename f)
    (hrest : (read held t gs).Renamed f (read held' t' (gs.map (rename f)))) :
    (read held t (alternative :: gs)).Renamed f (read held' t' ((alternative :: gs).map (rename f))) := by
  simp only [List.map_cons, rename, read, ht.keyword?_eq]
  split
  · exact .take hheld
  · exact hrest

theorem renamed_newName (ht : t.Renamed f t') (hheld : usesHeld gs = true → held' = held.rename f) :
    (read held t (newName :: gs)).Renamed f (read held' t' ((newName :: gs).map (rename f))) := by
  simp only [List.map_cons, rename, read, ht.kind]
  split
  · next hk =>
    rw [ht.name (.inl hk)]
    exact .take hheld
  · exact .refuse _

theorem renamed_mark (ht : t.Renamed f t') (m : Mark) (hheld : usesHeld gs = true → held' = held.rename f) :
    (read held t (mark m :: gs)).Renamed f (read held' t' ((mark m :: gs).map (rename f))) := by
  simp only [List.map_cons, rename, read, ht.kind]
  split
  · exact .take hheld
  · exact .refuse _

theorem renamed_printed (ht : t.Renamed f t') (hheld : usesHeld gs = true → held' = held.rename f) :
    (read held t (printed :: gs)).Renamed f (read held' t' ((printed :: gs).map (rename f))) := by
  simp only [List.map_cons, rename, read, ht.kind]
  split
  · next hk =>
    rw [ht.name (.inl hk)]
    exact .take hheld
  · exact renamed_enterOperand ht .checked hheld

/-- A loop, whose goals below are read where it does not go on. -/
theorem renamed_further (ht : t.Renamed f t') (m : Bool) (u : Use)
    (hheld : usesHeld (further m u :: gs) = true → held' = held.rename f)
    (hrest : (usesHeld gs = true → held' = held.rename f) →
      (read held t gs).Renamed f (read held' t' (gs.map (rename f)))) :
    (read held t (further m u :: gs)).Renamed f (read held' t' ((further m u :: gs).map (rename f))) := by
  have hrename : (further m u).rename f = further m u := by cases m <;> rfl
  rw [List.map_cons, hrename]
  cases hop : operator? m t with
  | none =>
    rw [read_further_none hop, read_further_none ((ht.operator?_eq m).trans hop)]
    refine hrest fun huses => hheld ?_
    cases u with
    | checked => cases m <;> exact huses
    | lowered => cases m <;> rfl
  | some op =>
    rw [read_further hop, read_further ((ht.operator?_eq m).trans hop)]
    cases u with
    | checked => cases m <;> exact .take hheld
    | lowered =>
      -- what is held becomes the left side of an operation
      have hleft : held' = held.rename f := hheld (by cases m <;> rfl)
      subst hleft
      cases m <;> exact .leftover rfl

theorem renamed_comparison (ht : t.Renamed f t') (hheld : usesHeld gs = true → held' = held.rename f)
    (hrest : (read held t gs).Renamed f (read held' t' (gs.map (rename f)))) :
    (read held t (comparison :: gs)).Renamed f (read held' t' ((comparison :: gs).map (rename f))) := by
  simp only [List.map_cons, rename, read, ht.kind]
  split
  · exact .take hheld
  · exact hrest

theorem renamed_assigned (ht : t.Renamed f t') (x : String) (hgs : usesHeld gs = false) (hheld : held' = held.rename f) :
    (read held t (assigned x :: gs)).Renamed f (read held' t' ((assigned x :: gs).map (rename f))) := by
  simp only [List.map_cons, rename, read, ht.kind, hheld]
  split
  · exact .leftover hgs
  · exact .refuse _

end

/-- **A stack does the same at both tokens.** -/
theorem renamed_read (ht : t.Renamed f t') : ∀ {gs : List Goal} {s : Stage} {held held' : Expr}, Aligned s gs →
    (usesHeld gs = true → held' = held.rename f) →
    (read held t gs).Renamed f (read held' t' (gs.map (rename f)))
  | [], _, _, _, _, _ => .pass _ _
  | statements :: gs, _, held, held', ⟨_, hgs⟩, _ => by
    have hrest : usesHeld (statements :: gs) = false := usesHeld_of_rest ⟨rfl, hgs⟩
    exact renamed_enter ht hrest held held'
  | statement :: _, _, held, held', ⟨_, hgs⟩, _ => renamed_enter ht (usesHeld_of_rest hgs) held held'
  | body :: _, _, _, _, ⟨_, hgs⟩, hheld => renamed_body ht hgs hheld
  | alternative :: _, _, _, _, ⟨_, hgs⟩, hheld => renamed_alternative ht hheld (renamed_read ht hgs hheld)
  | newName :: _, _, _, _, _, hheld => renamed_newName ht hheld
  | mark m :: _, _, _, _, _, hheld => renamed_mark ht m hheld
  | printed :: _, _, _, _, _, hheld => renamed_printed ht hheld
  | operand u :: _, _, _, _, _, hheld => renamed_enterOperand ht u hheld
  | factors u :: _, _, _, _, ⟨_, hgs⟩, hheld => renamed_further ht true u hheld (renamed_read ht hgs)
  | terms u :: _, _, _, _, ⟨_, hgs⟩, hheld => renamed_further ht false u hheld (renamed_read ht hgs)
  | comparison :: _, _, _, _, ⟨_, hgs⟩, hheld => renamed_comparison ht hheld (renamed_read ht hgs hheld)
  | join op left :: gs, _, held, held', ⟨_, hgs⟩, hheld => by
    have hread : (read (.binary op left held) t gs).Renamed f
        (read ((Expr.binary op left held).rename f) t' (gs.map (rename f))) := renamed_read ht hgs (fun _ => rfl)
    rw [hheld rfl]
    exact hread
  | assigned x :: _, _, _, _, ⟨_, hgs⟩, hheld => renamed_assigned ht x (usesHeld_of_rest hgs) (hheld rfl)

/-- **At the end of the text a stack asks for the same**, whatever is held. -/
theorem close_rename {wanted : Expected} : ∀ (gs : List Goal) (held held' : Expr),
    close held' (gs.map (rename f)) = .error wanted ↔ close held gs = .error wanted
  | [], _, _ => iff_of_false (by simp [close]) (by simp [close])
  | g :: gs, held, held' => by
    cases g with
    | statements | alternative | factors u | terms u | comparison => exact close_rename gs held held'
    | join op left => exact close_rename gs (.binary op left held) (.binary op (left.rename f) held')
    | statement | body | newName | mark m | printed | operand u | assigned x => rfl

end Goal

end MiniLang
