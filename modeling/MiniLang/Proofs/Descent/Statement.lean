import MiniLang.Proofs.Descent.Expression
/-!
# Statements by descent

The functions for statements follow the goals of the machine (`followsStatement`), and with them the loop over the
statements of the text.  So the descent always comes back, and with what the machine comes to: both are one analysis
(`analyze_eq`), and code written operation by operation is the code of whole trees.
-/
namespace MiniLang

namespace Descent

open Reader (done written)

variable {α : Type} {s : Descent} {t : Token} {ts : List Token} {gs gs' : List Goal} {out : Reader → α × Draft}

/-! ## Names -/

/-- The descent behind a token that changes the draft. -/
def noted (s : Descent) (d : Draft) : Descent := ⟨s.tokens, s.current + 1, d⟩

theorem Follows.event {p : Parse α} {event : Event} (hrest : s.rest = t :: ts)
    (hread : ∀ held, Goal.read held t gs = .take gs' held (some event))
    (hok : ∀ d, s.draft.note event = .ok d → ∃ p', run p s = run p' (s.noted d) ∧ (s.noted d).Follows p' gs' out)
    (herror : ∀ fault, s.draft.note event = .error fault → run p s = some (.error ⟨fault, some t⟩)) :
    s.Follows p gs out := fun held => by
  rw [hrest, Reader.meet, hread held]
  simp only [Draft.noteAny]
  cases hnote : s.draft.note event with
  | error fault => exact herror fault hnote
  | ok d =>
    obtain ⟨p', hrun, hfollows⟩ := hok d hnote
    have hnoted : (s.noted d).rest = ts := rest_next hrest
    rw [hrun, hfollows held, hnoted]
    rfl

theorem follows_parseDeclaration (s : Descent) :
    s.Follows parseDeclaration [.newName, .mark .endDeclaration] done := by
  cases hname : s.check .identifier with
  | false =>
    refine follows_refused (fun held t ht => ?_) (fun _ => rfl) (run_bind_error (run_consume_error hname _) _)
    rw [check, peek_eq, Option.mem_def.1 ht] at hname
    exact if_neg (of_decide_eq_false hname)
  | true =>
    obtain ⟨t, ts, hrest, hk⟩ := exists_of_check hname
    have hrun := fun f : Token → Parse Unit => run_bind_ok (run_consume_ok hrest hk .newName) f
    refine .event hrest (fun held => if_pos hk) (fun d hd => ⟨_, ?_, follows_consumeMark .endDeclaration _⟩)
      fun fault hfault => ?_
    · rw [Draft.note] at hd
      split at hd <;> cases hd
      next hnew => rw [parseDeclaration, hrun, run_get_bind, draft_next, if_neg hnew, run_modify_bind]; rfl
    · rw [Draft.note] at hfault
      split at hfault <;> cases hfault
      next hold => rw [parseDeclaration, hrun, run_get_bind, draft_next, if_pos hold]; rfl

/-- **What stands in front of the copy of an assignment** is exactly what was written of its right-hand side. -/
theorem continues_copy (x : String) (s : Descent) :
    s.Continues (fun value => do emitCopy x value; consumeMark .endAssignment) [.assigned x] done := fun e => by
  let copied : Descent := ⟨s.tokens, s.current, ⟨s.draft.declared, s.draft.builder.assign x e⟩⟩
  have hrun : run (do emitCopy x (s.draft.builder.lower e).1; consumeMark .endAssignment) (s.wrote e) =
      run (consumeMark .endAssignment) copied := rfl
  cases hm : s.check Mark.endAssignment.kind with
  | true =>
    obtain ⟨t, ts, hrest, hk⟩ := exists_of_check hm
    have hcopied : copied.rest = t :: ts := hrest
    have hread : Goal.read e t [.assigned x] = .take [] default (some (.assign x e)) := if_pos hk
    rw [hrun, run_consumeMark_ok hcopied hk, hrest, Reader.meet, hread]
    simp only [Draft.noteAny, Draft.note]
    rw [meet_nil, Except.map, ended, reach_next hrest]
    rfl
  | false =>
    have hcopied : copied.check Mark.endAssignment.kind = false := hm
    rw [hrun, run_consumeMark_error hcopied, meet_refused (fun t ht => ?_) rfl]
    · rfl
    · rw [check, peek_eq, Option.mem_def.1 ht] at hm
      exact if_neg (of_decide_eq_false hm)

theorem follows_parseAssignment (hrest : s.rest = t :: ts) (hk : t.kind = .identifier) :
    s.Follows parseAssignment [.statement] done := by
  have hrun := fun f : Token → Parse Unit => run_bind_ok (run_consume_ok hrest hk .name) f
  have hopen : Goal.openStatement t = Goal.openAssignment t := by
    unfold Goal.openStatement
    rw [hk]
  have hread : ∀ held, Goal.read held t [.statement] =
      .take ([.mark .assign] ++ (Goal.arithmetic .lowered ++ [.assigned t.lexeme])) held (some (.mention t.lexeme)) :=
    fun held => by
      rw [Goal.read, Goal.enter, hopen, Goal.openAssignment, if_pos hk]
      rfl
  refine .event hrest hread (fun d hd => ?_) fun fault hfault => ?_
  · rw [Draft.note] at hd
    split at hd <;> cases hd
    next hold =>
      refine ⟨_, ?_, .bind rfl (follows_consumeMark .assign _) fun s' hs' _ =>
        .bind_written rfl (followsLowered s' hs').expression fun s'' _ _ => continues_copy t.lexeme s''⟩
      rw [parseAssignment, hrun, run_get_bind, draft_next, if_pos hold]
      rfl
  · rw [Draft.note] at hfault
    split at hfault <;> cases hfault
    next hnew =>
      rw [parseAssignment, hrun, run_get_bind, draft_next, if_neg hnew]
      rfl

/-- **The name in front of what is printed** is looked up where it stands; nothing is passed for that. -/
theorem Follows.printed {p : Parse α} (h : s.Follows p (.operand .checked :: gs) out) :
    s.Follows (checkPrinted >>= fun _ => p) (.printed :: gs) out := fun held => by
  have hpeek := s.peek_eq
  cases hrest : s.rest with
  | nil =>
    have hrun : run checkPrinted s = some (.ok ((), s)) := by
      rw [checkPrinted, run_get_bind, hpeek, hrest]
      rfl
    rw [run_bind_ok hrun, h held, hrest, Reader.meet, Reader.meet]
    rfl
  | cons t ts =>
    rw [hrest] at hpeek
    by_cases hnew : t.kind = .identifier ∧ ¬ s.draft.declared.contains t.lexeme
    · obtain ⟨hk, hnew⟩ := hnew
      have hread : Goal.read held t (.printed :: gs) = .take gs held (some (.mention t.lexeme)) := if_pos hk
      have hrun : run checkPrinted s = some (.error ⟨.undeclared t.lexeme, some t⟩) := by
        rw [checkPrinted, run_get_bind, hpeek]
        simp only [List.head?_cons, if_pos (And.intro hk hnew)]
        rfl
      rw [run_bind_error hrun, Reader.meet, hread]
      simp only [Draft.noteAny, Draft.note, if_neg hnew]
      rfl
    · have hrun : run checkPrinted s = some (.ok ((), s)) := by
        rw [checkPrinted, run_get_bind, hpeek]
        simp only [List.head?_cons, if_neg hnew]
        rfl
      rw [run_bind_ok hrun, h held, hrest]
      by_cases hk : t.kind = .identifier
      · have hold : s.draft.declared.contains t.lexeme = true := by simpa [hk] using hnew
        have hread : Goal.read held t (.printed :: gs) = .take gs held (some (.mention t.lexeme)) := if_pos hk
        have hoperand : Goal.read held t (.operand .checked :: gs) = .take gs held none := by
          rw [Goal.read, Goal.enterOperand, hk]
          rfl
        rw [Reader.meet_take hoperand, Reader.meet, hread]
        simp only [Draft.noteAny, Draft.note, if_pos hold]
      · have hread : Goal.read held t (.printed :: gs) = Goal.read held t (.operand .checked :: gs) := if_neg hk
        rw [Reader.meet, Reader.meet, hread]

theorem follows_parsePrintStatement (s : Descent) : s.Follows parsePrintStatement
    (.mark (.openHead .printWord) :: .printed :: .factors .checked :: .terms .checked :: .comparison ::
      [.mark .closeExpression, .mark .endPrint]) done := by
  have hclose : ∀ s' : Descent, s'.Follows (do consumeMark .closeExpression; consumeMark .endPrint)
      ([.mark .closeExpression] ++ [.mark .endPrint]) done := fun s' =>
    .bind rfl (follows_consumeMark _ s') fun s'' _ _ => follows_consumeMark _ s''
  have hprinted : ∀ s' : Descent, s'.Inside → s'.Follows
      (do checkPrinted; checkExpression; consumeMark .closeExpression; consumeMark .endPrint)
      (.printed :: .factors .checked :: .terms .checked :: .comparison :: [.mark .closeExpression, .mark .endPrint]) done :=
    fun s' hs' => .printed (.bind rfl (followsChecked s' hs').expression fun s'' _ _ => hclose s'')
  exact .bind rfl (follows_consumeMark _ s) fun s' hs' _ => hprinted s' hs'

/-! ## Statements -/

/-- What the functions for statements do from a place on. -/
structure FollowsStatement (s : Descent) : Prop where
  statement : s.Follows parseStatement [.statement] done
  branch : s.Follows parseIfStatement (Goal.guarded .ifWord ++ [.alternative]) done
  loop : s.Follows parseWhileStatement (Goal.guarded .whileWord) done
  block : s.Follows parseBlock Goal.block done
  body : s.Follows (do parseBody; consumeMark .closeBlock) [.body] done

theorem follows_alternative (hs : s.Inside) (h : s.Ahead FollowsStatement) :
    s.Follows (do if ← matchKeyword .elseWord then parseBlock) [.alternative] done := by
  by_cases hword : ∃ t ts, s.rest = t :: ts ∧ t.keyword? = some .elseWord
  · obtain ⟨t, ts, hrest, hw⟩ := hword
    refine .take hrest (fun held => ?_) (run_bind_ok (run_matchKeyword_true hrest hw) _) (h.next hrest).block
    rw [Goal.read, if_pos hw, List.append_nil]
  · have hnone : ∀ t ∈ s.rest.head?, t.keyword? ≠ some .elseWord := by
      intro t ht hw
      obtain ⟨ts, hrest⟩ := List.head?_eq_some_iff.1 ht
      exact hword ⟨t, ts, hrest, hw⟩
    have hrun : run (do if ← matchKeyword .elseWord then parseBlock) s = run (pure ()) s :=
      run_bind_ok (run_matchKeyword_false hnone) _
    exact .pass (follows_pure hs) hrun (fun held t ht => if_neg (hnone t ht)) (fun _ => rfl)

/-- A head with its condition, and what stands behind it. -/
theorem follows_guarded {p : Parse Unit} (k : Keyword) (s : Descent) (hp : s.Ahead fun s' => s'.Follows p gs done) :
    s.Follows (do consumeMark (.openHead k); checkExpression; consumeMark .closeCondition; p)
      (.mark (.openHead k) :: (Goal.condition ++ .mark .closeCondition :: gs)) done := by
  have hclose : s.Ahead fun s' => s'.Follows (do consumeMark .closeCondition; p) ([.mark .closeCondition] ++ gs) done :=
    fun s' _ hlt => .bind rfl (follows_consumeMark _ s') fun s'' hs'' hlt' => hp s'' hs'' (hlt'.trans hlt)
  exact .bind rfl (follows_consumeMark _ s) fun s' hs' hlt =>
    .bind rfl (followsChecked s' hs').expression fun s'' hs'' hlt' => hclose s'' hs'' (hlt'.trans hlt)

theorem follows_parseWhileStatement (h : s.Ahead FollowsStatement) :
    s.Follows parseWhileStatement (Goal.guarded .whileWord) done :=
  .method (parseWhileStatement.eq_1 s) (follows_guarded .whileWord s fun s' hs' hlt => (h s' hs' hlt).block)

theorem follows_parseIfStatement (h : s.Ahead FollowsStatement) :
    s.Follows parseIfStatement (Goal.guarded .ifWord ++ [.alternative]) done :=
  .method (parseIfStatement.eq_1 s) (follows_guarded .ifWord s fun s' hs' hlt =>
    .bind rfl (h s' hs' hlt).block fun _ hs'' hlt' =>
      follows_alternative hs'' fun s₃ hs₃ hlt₃ => h s₃ hs₃ (hlt₃.trans (hlt'.trans hlt)))

theorem run_word_then {k : Keyword} (h : run (matchKeyword k) s = some (.ok (true, s.next))) (p q : Parse α) :
    run (do if ← matchKeyword k then p else q) s = run p s.next := run_bind_ok h _

theorem run_word_else {k : Keyword} (h : run (matchKeyword k) s = some (.ok (false, s))) (p q : Parse α) :
    run (do if ← matchKeyword k then p else q) s = run q s := run_bind_ok h _

theorem read_opened {opened : List Goal} (h : Goal.openStatement t = .ok (opened, none)) (held : Expr) :
    Goal.read held t [.statement] = .take opened held none := by
  rw [Goal.read, Goal.enter, h]
  simp only [List.append_nil]

/-- A word that opens a statement opens what its function follows. -/
theorem follows_word (h : s.Ahead FollowsStatement) {k : Keyword} (hrest : s.rest = t :: ts) (hw : t.keyword? = some k)
    (hk : k ≠ .elseWord) : s.Follows parseStatement [.statement] done := by
  have hkind : t.kind = .keyword := (Token.keyword?_eq_some.1 hw).1
  have hname : ¬ s.check .identifier = true := by simp [check_of_rest hrest, hkind]
  have hother : ∀ k', k' ≠ k → run (matchKeyword k') s = some (.ok (false, s)) := fun k' hne =>
    run_matchKeyword_false (by simpa [hrest, hw] using hne.symm)
  have hthis := run_matchKeyword_true hrest hw
  cases k with
  | elseWord => exact absurd rfl hk
  | intWord =>
    have hopen : Goal.openStatement t = .ok ([.newName, .mark .endDeclaration], none) := by
      unfold Goal.openStatement
      simp only [hkind, hw]
    refine .take hrest (read_opened hopen) ?_ (follows_parseDeclaration s.next)
    rw [run_method (parseStatement.eq_1 s), run_word_then hthis]
  | ifWord =>
    have hopen : Goal.openStatement t = .ok (Goal.guarded .ifWord ++ [.alternative], none) := by
      unfold Goal.openStatement
      simp only [hkind, hw]
    refine .take hrest (read_opened hopen) ?_ (h.next hrest).branch
    rw [run_method (parseStatement.eq_1 s), run_word_else (hother _ (by simp)), run_get_bind, if_neg hname,
      run_word_then hthis]
  | whileWord =>
    have hopen : Goal.openStatement t = .ok (Goal.guarded .whileWord, none) := by
      unfold Goal.openStatement
      simp only [hkind, hw]
    refine .take hrest (read_opened hopen) ?_ (h.next hrest).loop
    rw [run_method (parseStatement.eq_1 s), run_word_else (hother _ (by simp)), run_get_bind, if_neg hname,
      run_word_else (hother _ (by simp)), run_word_then hthis]
  | printWord =>
    have hopen : Goal.openStatement t = .ok (.mark (.openHead .printWord) :: .printed :: .factors .checked ::
        .terms .checked :: .comparison :: [.mark .closeExpression, .mark .endPrint], none) := by
      unfold Goal.openStatement
      simp only [hkind, hw]
    refine .take hrest (read_opened hopen) ?_ (follows_parsePrintStatement s.next)
    rw [run_method (parseStatement.eq_1 s), run_word_else (hother _ (by simp)), run_get_bind, if_neg hname,
      run_word_else (hother _ (by simp)), run_word_else (hother _ (by simp)), run_word_then hthis]

/-- A token that starts no statement is refused, and so is the end of the text. -/
theorem follows_no_statement (hname : s.check .identifier = false)
    (hword : ∀ t ∈ s.rest.head?, ∀ k, t.keyword? = some k → k = .elseWord) :
    s.Follows parseStatement [.statement] done := by
  have hnone : ∀ k, k ≠ .elseWord → run (matchKeyword k) s = some (.ok (false, s)) := fun k hk =>
    run_matchKeyword_false fun t ht hw => hk (hword t ht k hw)
  refine follows_refused (fun held t ht => ?_) (fun _ => rfl) ?_
  · have hkind : t.kind ≠ .identifier := by
      rw [check, peek_eq, Option.mem_def.1 ht] at hname
      exact of_decide_eq_false hname
    have hopen : Goal.openStatement t = .error .statement := by
      unfold Goal.openStatement
      split
      · next h => exact absurd h hkind
      · split
        · next h => cases hword t ht _ h
        · next h => cases hword t ht _ h
        · next h => cases hword t ht _ h
        · next h => cases hword t ht _ h
        · rfl
      · rfl
    rw [Goal.read, Goal.enter, hopen]
  · rw [run_method (parseStatement.eq_1 s), run_word_else (hnone _ (by simp)), run_get_bind, if_neg (by simp [hname]),
      run_word_else (hnone _ (by simp)), run_word_else (hnone _ (by simp)), run_word_else (hnone _ (by simp)),
      run_syntaxError]

/-- A statement is told by its first token. -/
theorem follows_parseStatement (h : s.Ahead FollowsStatement) : s.Follows parseStatement [.statement] done := by
  cases hname : s.check .identifier with
  | true =>
    obtain ⟨t, ts, hrest, hk⟩ := exists_of_check hname
    have hrun : run parseStatement s = run parseAssignment s := by
      have hint : ∀ t ∈ s.rest.head?, t.keyword? ≠ some .intWord := by
        rw [hrest]
        rintro _ ⟨⟩
        simp [Token.keyword?, hk]
      rw [run_method (parseStatement.eq_1 s), run_word_else (run_matchKeyword_false hint), run_get_bind, if_pos hname]
    exact fun held => hrun.trans (follows_parseAssignment hrest hk held)
  | false =>
    by_cases hword : ∀ t ∈ s.rest.head?, ∀ k, t.keyword? = some k → k = .elseWord
    · exact follows_no_statement hname hword
    · push Not at hword
      obtain ⟨t, ht, k, hw, hk⟩ := hword
      obtain ⟨ts, hrest⟩ := List.head?_eq_some_iff.1 ht
      exact follows_word h hrest hw hk

/-! ## Loops of statements -/

theorem run_assoc {β γ : Type} (p : Parse α) (f : α → Parse β) (g : β → Parse γ) :
    run (p >>= f >>= g) s = run (p >>= fun a => f a >>= g) s := by rw [bind_assoc]

/-- The next statement of a loop, where the stack of the loop is entered with each. -/
theorem Follows.turn {p loop : Parse Unit} (hrest : s.rest = t :: ts)
    (hread : ∀ held, Goal.read held t gs = Goal.enter gs held t)
    (hrun : run p s = run (parseStatement >>= fun _ => loop) s) (hstatement : s.Follows parseStatement [.statement] done)
    (hloop : s.Ahead fun s' => s'.Follows loop gs done) : s.Follows p gs done := fun held => by
  have hturn := Follows.bind rfl hstatement hloop held
  rw [hrest] at hturn
  rw [hrun, hrest, Reader.meet_enter (hread held)]
  exact hturn

theorem follows_parseBody (hstatement : s.Follows parseStatement [.statement] done) (h : s.Ahead FollowsStatement) :
    s.Follows (do parseBody; consumeMark .closeBlock) [.body] done := by
  cases hbrace : s.check .rightBrace with
  | true =>
    have hrun : run parseBody s = some (.ok ((), s)) := by
      rw [run_method (parseBody.eq_1 s), run_get_bind, if_neg (by simp [hbrace])]
      rfl
    refine .pass (follows_consumeMark .closeBlock s) (run_bind_ok hrun _) (fun held t ht => ?_) (fun _ => rfl)
    rw [check, peek_eq, Option.mem_def.1 ht] at hbrace
    have hk : t.kind = .rightBrace := of_decide_eq_true hbrace
    exact (if_pos hk).trans (if_pos hk).symm
  | false =>
    cases hrest : s.rest with
    | nil =>
      have hrun : run parseBody s = some (.ok ((), s)) := by
        rw [run_method (parseBody.eq_1 s), run_get_bind, if_neg (by simp [isAtEnd_eq, hrest])]
        rfl
      exact .pass (follows_consumeMark .closeBlock s) (run_bind_ok hrun _) (by simp [hrest]) (fun _ => rfl)
    | cons t ts =>
      have hk : t.kind ≠ .rightBrace := by
        rw [check_of_rest hrest] at hbrace
        exact of_decide_eq_false hbrace
      have hrun : run (do parseBody; consumeMark .closeBlock) s =
          run (do parseStatement; parseBody; consumeMark .closeBlock) s := by
        rw [run_method_bind (parseBody.eq_1 s), run_assoc, run_get_bind, if_pos (by simp [isAtEnd_eq, hbrace, hrest]),
          run_assoc]
      exact .turn hrest (fun held => if_neg hk) hrun hstatement fun s' hs' hlt => (h s' hs' hlt).body

theorem followsStatement (s : Descent) : FollowsStatement s := by
  induction hn : s.rest.length using Nat.strong_induction_on generalizing s with
  | _ n ih =>
    have h : s.Ahead FollowsStatement := fun s' hs' hlt => ih _ (hn ▸ hlt) s' rfl
    have hstatement := follows_parseStatement h
    have hblock : s.Follows parseBlock Goal.block done :=
      .method (parseBlock.eq_1 s) (.bind rfl (follows_consumeMark .openBlock s) fun s' hs' hlt => (h s' hs' hlt).body)
    exact ⟨hstatement, follows_parseIfStatement h, follows_parseWhileStatement h, hblock,
      follows_parseBody hstatement h⟩

theorem follows_parseStatements (s : Descent) (hs : s.Inside) : s.Follows parseStatements [.statements] done := by
  induction hn : s.rest.length using Nat.strong_induction_on generalizing s with
  | _ n ih =>
    cases hrest : s.rest with
    | nil =>
      have hrun : run parseStatements s = run (pure ()) s := by
        rw [run_method (parseStatements.eq_1 s), run_get_bind, if_neg (by simp [isAtEnd_eq, hrest])]
      exact .pass (follows_pure hs) hrun (by simp [hrest]) (fun _ => rfl)
    | cons t ts =>
      have hrun : run parseStatements s = run (parseStatement >>= fun _ => parseStatements) s := by
        conv_lhs => rw [run_method (parseStatements.eq_1 s), run_get_bind, if_pos (by simp [isAtEnd_eq, hrest])]
      exact .turn hrest (fun _ => rfl) hrun (followsStatement s).statement fun s' hs' hlt => ih _ (hn ▸ hlt) s' hs' rfl

/-- **The descent always comes back**, and with the analysis. -/
theorem analyze_eq (ts : List Token) : analyze ts = some (MiniLang.analyze ts) := by
  have hrun := follows_parseStatements (start ts) (Nat.zero_le _) default
  have hrest : (start ts).rest = ts := rfl
  rw [analyze, hrun, MiniLang.analyze, hrest]
  change some (Except.map _ (Except.map _ (Reader.start.meet ts))) = _
  cases Reader.start.meet ts <;> rfl

end Descent

end MiniLang
