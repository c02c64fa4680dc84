import MiniLang.Proofs.Descent.Following
/-!
# Expressions by descent

The two families of functions for expressions follow the goals of the machine: `check…` those of a checked expression,
`emit…` those of a lowered one.  Each function is told from those it calls, and those are called further on, except where
a phrase starts with a smaller one: so the families are proved function by function at one place, from all of them at
every place ahead (`followsChecked`, `followsLowered`).
-/
namespace MiniLang

namespace Descent

open Reader (done written)

variable {s : Descent} {t : Token} {ts : List Token} {u : Use}

/-! ## Tokens of an expression -/

theorem read_group (h : t.kind = .leftParen) (held : Expr) :
    Goal.read held t [.operand u] = .take (Goal.parenthesised u) held none := by
  rw [Goal.read, Goal.enterOperand, h]
  simp only [List.append_nil]

theorem read_no_operand (hname : s.check .identifier = false) (hnumber : s.check .number = false)
    (hgroup : s.check .leftParen = false) (held : Expr) :
    ∀ t ∈ s.rest.head?, Goal.read held t [.operand u] = .refuse .operand := by
  intro t ht
  rw [check, peek_eq, Option.mem_def.1 ht] at hname hnumber hgroup
  rw [Goal.read, Goal.enterOperand]
  split
  · next h => simp [h] at hnumber
  · next h => simp [h] at hname
  · next h => simp [h] at hgroup
  · rfl

/-- Whether an operator that goes on with the phrase stands under the cursor. -/
theorem operator?_cases (m : Bool) (s : Descent) :
    (∃ t ts op, s.rest = t :: ts ∧ Goal.operator? m t = some op) ∨ ∀ t ∈ s.rest.head?, Goal.operator? m t = none := by
  cases hrest : s.rest with
  | nil => exact .inr (by simp)
  | cons t ts =>
    cases hop : Goal.operator? m t with
    | none => exact .inr (by simpa using hop)
    | some op => exact .inl ⟨t, ts, op, rfl, hop⟩

/-! ## Checked expressions -/

/-- What the functions of the first family do from a place on. -/
structure FollowsChecked (s : Descent) : Prop where
  expression : s.Follows checkExpression Goal.condition done
  arithmetic : s.Follows checkArithmetic (Goal.arithmetic .checked) done
  terms : s.Follows checkTerms [.terms .checked] done
  term : s.Follows checkTerm [.operand .checked, .factors .checked] done
  factors : s.Follows checkFactors [.factors .checked] done
  factor : s.Follows checkFactor [.operand .checked] done

theorem follows_checkFactor (h : s.Ahead FollowsChecked) : s.Follows checkFactor [.operand .checked] done := by
  cases hleaf : s.check .identifier || s.check .number with
  | true =>
    obtain ⟨t, ts, hrest, hk⟩ := exists_of_either hleaf
    refine .take hrest (fun held => ?_) ?_ (follows_pure (current_lt hrest))
    · rw [Goal.read, Goal.enterOperand]
      rcases hk with hk | hk <;> rw [hk] <;> rfl
    · rw [run_method (checkFactor.eq_1 s), run_bind_ok (run_either_true hrest hk)]
      rfl
  | false =>
    obtain ⟨hname, hnumber⟩ := Bool.or_eq_false_iff.1 hleaf
    cases hgroup : s.check .leftParen with
    | true =>
      obtain ⟨t, ts, hrest, hk⟩ := exists_of_check hgroup
      refine .take hrest (read_group hk) ?_ (.bind rfl (h.next hrest).expression fun s' _ _ => follows_consumeMark _ s')
      rw [run_method (checkFactor.eq_1 s), run_bind_ok (run_either_false hname hnumber)]
      exact run_bind_ok (run_matchKind_true hrest hk) _
    | false =>
      refine follows_refused (read_no_operand hname hnumber hgroup) (fun _ => rfl) ?_
      rw [run_method (checkFactor.eq_1 s), run_bind_ok (run_either_false hname hnumber)]
      exact run_bind_ok (run_matchKind_false hgroup) _

/-- A loop that goes on behind one sort of operators. -/
theorem follows_checkLoop (m : Bool) {accept : Op → Bool} {loop phrase : Parse Unit}
    (haccept : ∀ op, accept op = (op.isMultiplicative == m))
    (hloop : loop s = StateT.run (do if (← matchOperator accept).isSome then phrase; loop : Parse Unit) s)
    (hs : s.Inside)
    (hphrase : s.Ahead fun s' => s'.Follows phrase (Goal.phrase m .checked) done)
    (hmore : s.Ahead fun s' => s'.Follows loop [Goal.further m .checked] done) :
    s.Follows loop [Goal.further m .checked] done := by
  have hgs : Goal.takes (Goal.phrase m .checked) := by cases m <;> rfl
  rcases operator?_cases m s with ⟨t, ts, op, hrest, hop⟩ | hnone
  · have hrun : run loop s = run (phrase >>= fun _ => loop) s.next := by
      rw [run_method hloop]
      exact run_bind_ok ((run_matchOperator haccept).1 t ts op hrest hop) _
    exact .take hrest (fun held => Goal.read_further hop []) hrun (.bind hgs (hphrase.next hrest) (hmore.of_next hrest))
  · have hrun : run loop s = run (pure ()) s := by
      rw [run_method hloop]
      exact run_bind_ok ((run_matchOperator haccept).2 hnone) _
    exact .pass (follows_pure hs) hrun (fun held t ht => Goal.read_further_none (hnone t ht) [])
      (fun held => Goal.close_further m _ held [])

theorem follows_checkFactors (hs : s.Inside) (h : s.Ahead FollowsChecked) :
    s.Follows checkFactors [.factors .checked] done :=
  follows_checkLoop true (fun op => by simp) (checkFactors.eq_1 s) hs (fun s' hs' hlt => (h s' hs' hlt).factor)
    (fun s' hs' hlt => (h s' hs' hlt).factors)

theorem follows_checkTerms (hs : s.Inside) (h : s.Ahead FollowsChecked) : s.Follows checkTerms [.terms .checked] done :=
  follows_checkLoop false (fun op => by simp) (checkTerms.eq_1 s) hs (fun s' hs' hlt => (h s' hs' hlt).term)
    (fun s' hs' hlt => (h s' hs' hlt).terms)

/-- What may follow a sum in a condition. -/
theorem follows_comparison (hs : s.Inside) (h : s.Ahead FollowsChecked) :
    s.Follows (do if ← matchKind .comparator then checkArithmetic) [.comparison] done := by
  cases hk : s.check .comparator with
  | true =>
    obtain ⟨t, ts, hrest, hk⟩ := exists_of_check hk
    refine .take hrest (fun held => ?_) (run_bind_ok (run_matchKind_true hrest hk) _) (h.next hrest).arithmetic
    rw [Goal.read, if_pos hk, List.append_nil]
  | false =>
    have hrun : run (do if ← matchKind .comparator then checkArithmetic) s = run (pure ()) s :=
      run_bind_ok (run_matchKind_false hk) _
    refine .pass (follows_pure hs) hrun (fun held t ht => ?_) (fun _ => rfl)
    rw [check, peek_eq, Option.mem_def.1 ht] at hk
    exact if_neg (of_decide_eq_false hk)

theorem followsChecked (s : Descent) (hs : s.Inside) : FollowsChecked s := by
  induction hn : s.rest.length using Nat.strong_induction_on generalizing s with
  | _ n ih =>
    have h : s.Ahead FollowsChecked := fun s' hs' hlt => ih _ (hn ▸ hlt) s' hs' rfl
    have hfactor := follows_checkFactor h
    have hterm : s.Follows checkTerm [.operand .checked, .factors .checked] done :=
      .method (checkTerm.eq_1 s) (.bind rfl hfactor fun s' hs' hlt => (h s' hs' hlt).factors)
    have harithmetic : s.Follows checkArithmetic (Goal.arithmetic .checked) done :=
      .method (checkArithmetic.eq_1 s) (.bind rfl hterm fun s' hs' hlt => (h s' hs' hlt).terms)
    have hexpression : s.Follows checkExpression Goal.condition done :=
      .method (checkExpression.eq_1 s) (.bind rfl harithmetic fun s' hs' hlt =>
        follows_comparison hs' fun s'' hs'' hlt' => h s'' hs'' (hlt'.trans hlt))
    exact ⟨hexpression, harithmetic, follows_checkTerms hs h, hterm, follows_checkFactors hs h, hfactor⟩

/-! ## Right-hand sides -/

/-- What the functions of the second family do from a place on. -/
structure FollowsLowered (s : Descent) : Prop where
  expression : s.Follows emitExpression (Goal.arithmetic .lowered) written
  terms : s.Continues emitTerms [.terms .lowered] written
  term : s.Follows emitTerm [.operand .lowered, .factors .lowered] written
  factors : s.Continues emitFactors [.factors .lowered] written
  factor : s.Follows emitFactor [.operand .lowered] written

/-- **Behind a leaf there is one to look back to**: its text is the operand. -/
theorem run_emitFactor_leaf (hrest : s.rest = t :: ts) (hk : t.kind = .number ∨ t.kind = .identifier) :
    run emitFactor s = some (.ok (t.lexeme, s.next)) := by
  have hprevious : s.next.previous = some t := previous_next (by rw [peek_eq, hrest]; rfl)
  rw [run_method (emitFactor.eq_1 s), run_bind_ok (run_either_true hrest hk), if_pos rfl, run_get_bind, hprevious]
  rfl

theorem follows_emitFactor (h : s.Ahead FollowsLowered) : s.Follows emitFactor [.operand .lowered] written := by
  cases hleaf : s.check .number || s.check .identifier with
  | true =>
    obtain ⟨t, ts, hrest, hk⟩ := exists_of_either hleaf
    intro held
    have hread : ∃ e, Goal.read held t [.operand .lowered] = .take [] e none ∧
        s.draft.builder.lower e = (t.lexeme, s.draft.builder) := by
      rcases hk with hk | hk
      · exact ⟨.number t.lexeme, by rw [Goal.read, Goal.enterOperand, hk]; rfl, rfl⟩
      · exact ⟨.name t.lexeme, by rw [Goal.read, Goal.enterOperand, hk]; rfl, rfl⟩
    obtain ⟨e, hread, hlower⟩ := hread
    rw [run_emitFactor_leaf hrest hk, hrest, Reader.meet_take hread, meet_nil, Except.map, ended, written, hlower,
      reach_next hrest]
    rfl
  | false =>
    obtain ⟨hnumber, hname⟩ := Bool.or_eq_false_iff.1 hleaf
    cases hgroup : s.check .leftParen with
    | true =>
      obtain ⟨t, ts, hrest, hk⟩ := exists_of_check hgroup
      refine .take hrest (read_group hk) ?_ (.bind_written rfl (h.next hrest).expression fun s' _ _ => continues_mark _ s')
      rw [run_method (emitFactor.eq_1 s), run_bind_ok (run_either_false hnumber hname)]
      exact run_bind_ok (run_matchKind_true hrest hk) _
    | false =>
      refine follows_refused (read_no_operand hname hnumber hgroup) (fun _ => rfl) ?_
      rw [run_method (emitFactor.eq_1 s), run_bind_ok (run_either_false hnumber hname)]
      exact run_bind_ok (run_matchKind_false hgroup) _

/-- A loop that goes on behind one sort of operators, and writes each operation. -/
theorem continues_emitLoop (m : Bool) (accept : Op → Bool) {loop : String → Parse String} {phrase : Parse String}
    (haccept : ∀ op, accept op = (op.isMultiplicative == m))
    (hmore : ∀ left op (s s' : Descent), run (matchOperator accept) s = some (.ok (some op, s')) →
      run (loop left) s = run (do let right ← phrase; loop (← emitBinary left op right)) s')
    (hstop : ∀ left (s : Descent), run (matchOperator accept) s = some (.ok (none, s)) →
      run (loop left) s = some (.ok (left, s)))
    (hs : s.Inside) (hphrase : s.Ahead fun s' => s'.Follows phrase (Goal.phrase m .lowered) written)
    (hloop : s.Ahead fun s' => s'.Continues loop [Goal.further m .lowered] written) :
    s.Continues loop [Goal.further m .lowered] written := fun e => by
  have hgs : Goal.takes (Goal.phrase m .lowered) := by cases m <;> rfl
  have hexpr : ∀ g ∈ Goal.phrase m .lowered, g.isExpression := by
    cases m <;> simp [Goal.isExpression]
  rcases operator?_cases m s with ⟨t, ts, op, hrest, hop⟩ | hnone
  · have hwrote : (s.wrote e).rest = t :: ts := hrest
    have hread : Goal.read e t [Goal.further m .lowered] =
        .take (Goal.phrase m .lowered ++ .join op e :: [Goal.further m .lowered]) e none := Goal.read_further hop []
    rw [hmore _ op _ _ ((run_matchOperator haccept).1 t ts op hwrote hop), hrest, Reader.meet_take hread]
    exact Continues.operation hgs hexpr hrest hphrase hloop e
  · have hread : ∀ t ∈ s.rest.head?, Goal.read e t [Goal.further m .lowered] = Goal.read e t [] := fun t ht =>
      Goal.read_further_none (hnone t ht) []
    have hwrote : ∀ t ∈ (s.wrote e).rest.head?, Goal.operator? m t = none := hnone
    rw [hstop _ _ ((run_matchOperator haccept).2 hwrote), Reader.meet_congr hread (Goal.close_further m _ e []), meet_nil,
      Except.map, ended, written, reach, length_rest, Nat.sub_sub_self hs]
    rfl

theorem continues_emitFactors (hs : s.Inside) (h : s.Ahead FollowsLowered) :
    s.Continues emitFactors [.factors .lowered] written := by
  refine continues_emitLoop true Op.isMultiplicative (fun op => by simp) (fun left op s s' hrun => ?_)
    (fun left s hrun => ?_) hs (fun s' hs' hlt => (h s' hs' hlt).factor) (fun s' hs' hlt => (h s' hs' hlt).factors)
  · rw [run_method (emitFactors.eq_1 left s)]
    exact run_bind_ok hrun _
  · rw [run_method (emitFactors.eq_1 left s)]
    exact run_bind_ok hrun _

theorem continues_emitTerms (hs : s.Inside) (h : s.Ahead FollowsLowered) :
    s.Continues emitTerms [.terms .lowered] written := by
  refine continues_emitLoop false (!·.isMultiplicative) (fun op => by simp) (fun left op s s' hrun => ?_)
    (fun left s hrun => ?_) hs (fun s' hs' hlt => (h s' hs' hlt).term) (fun s' hs' hlt => (h s' hs' hlt).terms)
  · rw [run_method (emitTerms.eq_1 left s)]
    exact run_bind_ok hrun _
  · rw [run_method (emitTerms.eq_1 left s)]
    exact run_bind_ok hrun _

theorem followsLowered (s : Descent) (hs : s.Inside) : FollowsLowered s := by
  induction hn : s.rest.length using Nat.strong_induction_on generalizing s with
  | _ n ih =>
    have h : s.Ahead FollowsLowered := fun s' hs' hlt => ih _ (hn ▸ hlt) s' hs' rfl
    have hfactor := follows_emitFactor h
    have hterm : s.Follows emitTerm [.operand .lowered, .factors .lowered] written :=
      .method (emitTerm.eq_1 s) (.bind_written rfl hfactor fun s' hs' hlt => (h s' hs' hlt).factors)
    have hexpression : s.Follows emitExpression (Goal.arithmetic .lowered) written :=
      .method (emitExpression.eq_1 s) (.bind_written rfl hterm fun s' hs' hlt => (h s' hs' hlt).terms)
    exact ⟨hexpression, continues_emitTerms hs h, hterm, continues_emitFactors hs h, hfactor⟩

end Descent

end MiniLang
