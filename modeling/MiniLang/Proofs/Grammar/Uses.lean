import MiniLang.Proofs.Grammar.Run
/-!
# The two uses of expressions

A checked expression may compare inside its parentheses, a lowered one may not, and apart from that they are read alike.
Two readers that stand in the same place, one for each use, have stacks that differ only in what the other use has there
too (`Goal.Alike`).  A token keeps them so, unless it is a comparator that the checked one takes: there the lowered one
calls for the closing parenthesis (`Goal.Alike.read`).  So the runs end alike or part at the first comparator
(`checked_lowered_agree`).
-/
namespace MiniLang

namespace Reader

/-- The tokens that a reader takes before it stops, whether its goals are met there or a token is refused. -/
def taken (r : Reader) : List Token → List Token
  | [] => []
  | t :: ts =>
    match Goal.read r.held t r.goals with
    | .take goals held event =>
      match r.draft.noteAny event with
      | .ok draft => t :: taken ⟨goals, held, draft⟩ ts
      | .error _ => []
    | .pass _ | .refuse _ => []

variable {gs gs' : List Goal} {held held' : Expr} {d : Draft} {t : Token} {ts : List Token}

theorem taken_take (h : Goal.read held t gs = .take gs' held' none) :
    taken ⟨gs, held, d⟩ (t :: ts) = t :: taken ⟨gs', held', d⟩ ts := by
  rw [taken, h]
  rfl

/-- **A reader stops behind the tokens it has taken**: these are left where its goals are met, and the first of them is
what is found where it fails. -/
theorem taken_append : ∀ (r : Reader) (ts : List Token), ∃ left, ts = r.taken ts ++ left ∧
    match r.meet ts with
    | .ok (_, rest) => left = rest
    | .error e => e.found = left.head?
  | r, [] => by
    refine ⟨[], rfl, ?_⟩
    rw [meet]
    cases Goal.close r.held r.goals <;> rfl
  | r, t :: ts => by
    rw [taken, meet]
    cases Goal.read r.held t r.goals with
    | pass held => exact ⟨t :: ts, rfl, rfl⟩
    | refuse wanted => exact ⟨t :: ts, rfl, rfl⟩
    | take goals held event =>
      dsimp only
      cases r.draft.noteAny event with
      | error fault => exact ⟨t :: ts, rfl, rfl⟩
      | ok draft =>
        obtain ⟨left, hleft, hend⟩ := taken_append ⟨goals, held, draft⟩ ts
        exact ⟨left, congrArg (t :: ·) hleft, hend⟩

end Reader

namespace Goal

/-! ## Parentheses -/

/-- The stack of a checked expression with `n` parentheses open: a comparison stands inside one of them. -/
inductive Nested : Nat → List Goal → Prop where
  | nil : Nested 0 []
  | operand {n : Nat} {gs : List Goal} (h : Nested n gs) : Nested n (operand .checked :: gs)
  | factors {n : Nat} {gs : List Goal} (h : Nested n gs) : Nested n (factors .checked :: gs)
  | terms {n : Nat} {gs : List Goal} (h : Nested n gs) : Nested n (terms .checked :: gs)
  | comparison {n : Nat} {gs : List Goal} (h : Nested (n + 1) gs) : Nested (n + 1) (comparison :: gs)
  | close {n : Nat} {gs : List Goal} (h : Nested n gs) : Nested (n + 1) (mark .closeExpression :: gs)

/-- What a token does to the number of open parentheses, if it is taken. -/
def Nests (n : Nat) (t : Token) : Move → Prop
  | .take gs _ event => event = none ∧ (t.kind = .comparator → 0 < n) ∧
      ∃ n', Nested n' gs ∧ n' + [t].countP (·.kind = .rightParen) = n + [t].countP (·.kind = .leftParen)
  | .pass _ | .refuse _ => True

theorem nests_take {n : Nat} {t : Token} {gs : List Goal} {held : Expr} (h : Nested n gs)
    (hk : t.kind ≠ .leftParen ∧ t.kind ≠ .rightParen ∧ (t.kind = .comparator → 0 < n)) :
    Nests n t (.take gs held none) := by
  obtain ⟨hl, hr, hc⟩ := hk
  exact ⟨rfl, hc, n, h, by simp [hl, hr]⟩

theorem Nested.arithmetic {n : Nat} {gs : List Goal} (h : Nested n gs) : Nested n (arithmetic .checked ++ gs) :=
  .operand (.factors (.terms h))

theorem Nested.nests_read {n : Nat} {gs : List Goal} (h : Nested n gs) (held : Expr) (t : Token) :
    Nests n t (read held t gs) := by
  induction h with
  | nil => trivial
  | @operand n gs h =>
    rw [read, enterOperand]
    split
    · next hk => exact nests_take h (by simp [hk])
    · next hk => exact nests_take h (by simp [hk])
    · next hk =>
      have hin : Nested (n + 1) (parenthesised .checked ++ gs) := Nested.arithmetic (.comparison (.close h))
      exact ⟨rfl, by simp [hk], n + 1, hin, by simp [hk]⟩
    · trivial
  | factors h ih =>
    rw [read]
    split
    · next op ho =>
      have hk := kind_of_operator? ho
      exact nests_take (.operand (.factors h)) (by simp [hk])
    · exact ih
  | terms h ih =>
    rw [read]
    split
    · next op ho =>
      have hk := kind_of_operator? ho
      exact nests_take (.operand (.factors (.terms h))) (by simp [hk])
    · exact ih
  | comparison h ih =>
    rw [read]
    split
    · next hk => exact nests_take h.arithmetic (by simp [hk])
    · exact ih
  | @close n gs h =>
    rw [read]
    split
    · next hk =>
      have hright : t.kind = .rightParen := hk
      exact ⟨rfl, by simp [hright], n, h, by simp [hright]⟩
    · trivial

/-! ## Readers side by side -/

/-- The stacks of a checked and of a lowered expression that have come to the same place. -/
inductive Alike : List Goal → List Goal → Prop where
  | nil : Alike [] []
  | operand {gs gs' : List Goal} (h : Alike gs gs') : Alike (operand .checked :: gs) (operand .lowered :: gs')
  | factors {gs gs' : List Goal} (h : Alike gs gs') : Alike (factors .checked :: gs) (factors .lowered :: gs')
  | terms {gs gs' : List Goal} (h : Alike gs gs') : Alike (terms .checked :: gs) (terms .lowered :: gs')
  | join {gs gs' : List Goal} (op : Op) (left : Expr) (h : Alike gs gs') : Alike gs (join op left :: gs')
  | close {gs gs' : List Goal} (h : Alike gs gs') :
      Alike (comparison :: mark .closeExpression :: gs) (mark .closeExpression :: gs')

/-- What a token does to the two: the same, or it is a comparator and only the checked one takes it. -/
inductive SideBySide (t : Token) : Move → Move → Prop where
  | pass (held held' : Expr) : SideBySide t (.pass held) (.pass held')
  | refuse (wanted : Expected) : SideBySide t (.refuse wanted) (.refuse wanted)
  | take {gs gs' : List Goal} (held held' : Expr) (h : Alike gs gs') (hk : t.kind ≠ .comparator) :
      SideBySide t (.take gs held none) (.take gs' held' none)
  | part (gs : List Goal) (held : Expr) (hk : t.kind = .comparator) :
      SideBySide t (.take gs held none) (.refuse (.mark .closeExpression))

theorem Alike.arithmetic {gs gs' : List Goal} (h : Alike gs gs') :
    Alike (arithmetic .checked ++ gs) (arithmetic .lowered ++ gs') :=
  .operand (.factors (.terms h))

theorem Alike.read {gs gs' : List Goal} (h : Alike gs gs') (t : Token) :
    ∀ held held', SideBySide t (read held t gs) (read held' t gs') := by
  induction h with
  | nil => exact .pass
  | @operand gs gs' h =>
    intro held held'
    rw [Goal.read, Goal.read, enterOperand, enterOperand]
    split
    · next hk => exact .take _ _ h (by simp [hk])
    · next hk => exact .take _ _ h (by simp [hk])
    · next hk =>
      have hin : Alike (parenthesised .checked ++ gs) (parenthesised .lowered ++ gs') := Alike.arithmetic (.close h)
      exact .take _ _ hin (by simp [hk])
    · exact .refuse _
  | factors h ih =>
    intro held held'
    rw [Goal.read, Goal.read]
    split
    · next op ho =>
      have hk := kind_of_operator? ho
      exact .take _ _ (.operand (.join op held' (.factors h))) (by simp [hk])
    · exact ih held held'
  | terms h ih =>
    intro held held'
    rw [Goal.read, Goal.read]
    split
    · next op ho =>
      have hk := kind_of_operator? ho
      exact .take _ _ (.operand (.factors (.join op held' (.terms h)))) (by simp [hk])
    · exact ih held held'
  | join op left h ih => exact fun held held' => ih held (.binary op left held')
  | close h =>
    intro held held'
    rw [Goal.read, Goal.read, Goal.read]
    by_cases hc : t.kind = .comparator
    · have hr : t.kind ≠ Mark.closeExpression.kind := by simp [hc, Mark.kind]
      rw [if_pos hc, if_neg hr]
      exact .part _ _ hc
    · rw [if_neg hc]
      split
      · exact .take _ _ h hc
      · exact .refuse _

theorem Alike.close_eq {gs gs' : List Goal} (h : Alike gs gs') :
    ∀ held held', (Goal.close held gs).map (fun _ => ()) = (Goal.close held' gs').map (fun _ => ()) := by
  induction h with
  | nil | operand | close => exact fun _ _ => rfl
  | factors _ ih | terms _ ih => exact ih
  | join op left _ ih => exact fun held held' => ih held (.binary op left held')

end Goal

namespace Reader

variable {d : Draft}

/-- A comparator is taken where more parentheses have been opened than closed. -/
theorem comparator_nested : ∀ {ts : List Token} {n : Nat} {gs : List Goal} {held : Expr}, Goal.Nested n gs →
    ∀ {pre : List Token} {t : Token} {post : List Token}, taken ⟨gs, held, d⟩ ts = pre ++ t :: post →
      t.kind = .comparator → pre.countP (·.kind = .rightParen) < n + pre.countP (·.kind = .leftParen)
  | [], _, _, _, _, pre, _, _, htaken, _ => by
    rw [taken] at htaken
    simp at htaken
  | s :: ts, n, gs, held, h, pre, t, post, htaken, ht => by
    have hstep := h.nests_read held s
    rw [taken] at htaken
    cases hread : Goal.read held s gs with
    | pass _ => simp [hread] at htaken
    | refuse _ => simp [hread] at htaken
    | take gs' held' event =>
      rw [hread] at hstep
      obtain ⟨rfl, hpos, n', hn', hcount⟩ := hstep
      simp only [hread, Draft.noteAny] at htaken
      cases pre with
      | nil =>
        obtain ⟨rfl, -⟩ := List.cons.inj htaken
        simpa using hpos ht
      | cons s' pre =>
        obtain ⟨rfl, htail⟩ := List.cons.inj htaken
        have hrest := comparator_nested hn' htail ht
        rw [List.countP_cons, List.countP_cons]
        simp only [List.countP_singleton] at hcount
        omega

theorem meet_alike : ∀ {ts : List Token} {gs gs' : List Goal} {held held' : Expr}, Goal.Alike gs gs' →
    (∀ t ∈ taken ⟨gs, held, d⟩ ts, t.kind ≠ .comparator) →
    (meet ⟨gs, held, d⟩ ts).map Prod.snd = (meet ⟨gs', held', d⟩ ts).map Prod.snd
  | [], gs, gs', held, held', h, _ => by
    have hclose := h.close_eq held held'
    rw [meet, meet]
    revert hclose
    cases Goal.close held gs <;> cases Goal.close held' gs' <;> simp [Except.map]
  | t :: ts, gs, gs', held, held', h, hnone => by
    have hstep := h.read t held held'
    rw [meet, meet]
    generalize hm : Goal.read held t gs = m at hstep
    generalize hm' : Goal.read held' t gs' = m' at hstep
    cases hstep with
    | pass | refuse => rfl
    | take _ _ h' _ =>
      rw [taken_take hm] at hnone
      exact meet_alike h' (fun s hs => hnone s (.tail _ hs))
    | part _ _ hk =>
      rw [taken_take hm] at hnone
      exact absurd hk (hnone t (.head _))

theorem meet_parted : ∀ {ts : List Token} {gs gs' : List Goal} {held held' : Expr}, Goal.Alike gs gs' →
    ∀ {t : Token}, (taken ⟨gs, held, d⟩ ts).find? (·.kind = .comparator) = some t →
      meet ⟨gs', held', d⟩ ts = .error ⟨.expected (.mark .closeExpression), some t⟩
  | [], _, _, _, _, _, _, hfirst => by
    rw [taken] at hfirst
    cases hfirst
  | s :: ts, gs, gs', held, held', h, t, hfirst => by
    have hstep := h.read s held held'
    rw [meet]
    generalize hm : Goal.read held s gs = m at hstep
    generalize hm' : Goal.read held' s gs' = m' at hstep
    cases hstep with
    | pass | refuse =>
      rw [taken] at hfirst
      simp [hm] at hfirst
    | take _ _ h' hk =>
      rw [taken_take hm, List.find?_cons_of_neg (by simpa using hk)] at hfirst
      exact meet_parted h' hfirst
    | part _ _ hk =>
      rw [taken_take hm, List.find?_cons_of_pos (by simpa using hk)] at hfirst
      cases hfirst
      rfl

end Reader

/-- **The two uses agree up to comparators.**  Where the reader of a checked expression takes no comparator, the reader of
a lowered one, started on the same tokens, stops at the same token or fails with the same refusal.  Where it takes one,
which is then inside parentheses, the lowered expression lacks a closing parenthesis at the first of them, whatever
becomes of the checked one. -/
theorem checked_lowered_agree (ts : List Token) (held : Expr) (d : Draft) :
    ((∀ t ∈ Reader.taken ⟨Goal.arithmetic .checked, held, d⟩ ts, t.kind ≠ .comparator) →
      (Reader.meet ⟨Goal.arithmetic .lowered, held, d⟩ ts).map Prod.snd =
        (Reader.meet ⟨Goal.arithmetic .checked, held, d⟩ ts).map Prod.snd) ∧
    (∀ t, (Reader.taken ⟨Goal.arithmetic .checked, held, d⟩ ts).find? (·.kind = .comparator) = some t →
      ∃ e, Reader.meet ⟨Goal.arithmetic .lowered, held, d⟩ ts = .error e ∧
        e.diagnostic = ⟨.syntaxError, "Expected ')' after expression.", some t⟩) ∧
    ∀ pre t post, Reader.taken ⟨Goal.arithmetic .checked, held, d⟩ ts = pre ++ t :: post → t.kind = .comparator →
      pre.countP (·.kind = .rightParen) < pre.countP (·.kind = .leftParen) := by
  have halike : Goal.Alike (Goal.arithmetic .checked) (Goal.arithmetic .lowered) := Goal.Alike.nil.arithmetic
  refine ⟨fun hnone => (Reader.meet_alike halike hnone).symm, fun t hfirst => ?_, fun pre t post htaken ht => ?_⟩
  · exact ⟨_, Reader.meet_parted halike hfirst, rfl⟩
  · simpa using Reader.comparator_nested Goal.Nested.nil.arithmetic htaken ht

/-- The first text ends too early for either use; the second is a checked expression, and no lowered one. -/
theorem parted_at_comparison :
    (Reader.meet ⟨Goal.arithmetic .lowered, default, .empty⟩ (tokenize "(a + 2) * (b")).map Prod.snd =
        .error ⟨.expected (.mark .closeExpression), none⟩ ∧
      (∃ r, Reader.meet ⟨Goal.arithmetic .checked, default, .empty⟩ (tokenize "2 * (a < 1) ;") =
        .ok (r, [⟨.semicolon, ";", ⟨1, 13⟩⟩])) ∧
      ∃ e, Reader.meet ⟨Goal.arithmetic .lowered, default, .empty⟩ (tokenize "2 * (a < 1) ;") = .error e ∧
        e.diagnostic = ⟨.syntaxError, "Expected ')' after expression.", some ⟨.comparator, "<", ⟨1, 8⟩⟩⟩ ∧
      ((tokenize "2 * (a").countP (·.kind = .rightParen) < (tokenize "2 * (a").countP (·.kind = .leftParen)) := by
  refine ⟨?_, ⟨_, rfl⟩, ?_⟩
  · have hnone : ∀ t ∈ Reader.taken ⟨Goal.arithmetic .checked, default, .empty⟩ (tokenize "(a + 2) * (b"),
        t.kind ≠ .comparator := by decide +kernel
    exact (checked_lowered_agree _ default .empty).1 hnone
  · obtain ⟨-, hparted, hnested⟩ := checked_lowered_agree (tokenize "2 * (a < 1) ;") default .empty
    obtain ⟨e, he, hd⟩ := hparted _ rfl
    exact ⟨e, he, hd, hnested (tokenize "2 * (a") _ _ rfl rfl⟩

end MiniLang
