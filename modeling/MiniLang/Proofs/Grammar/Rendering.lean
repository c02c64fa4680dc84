import MiniLang.Proofs.Grammar.Reading
/-!
# Renderings

The texts of an expression tree: parentheses stand where the tree asks for them, and around anything else as often as one
likes.  How tightly a text binds is that of its outermost operation, and parentheses bind the tightest; a left side binds
at least as tightly as its operation, a right side binds more tightly.  The right-hand sides of the grammar are the
renderings of their trees (`Renders.exists_arith`, `Arith.exists_renders`), and no text renders two trees
(`Renders.unique`).
-/
namespace MiniLang

/-- How tightly an operation binds. -/
def Op.strength (op : Op) : Nat := if op.isMultiplicative then 1 else 0

/-- The tokens `ts` are a text of the tree, which binds as tightly as `n` says. -/
inductive Renders : Expr → Nat → List Token → Prop where
  | name (t : Leaf (.kind .identifier)) : Renders (.name t.token.lexeme) 2 [t.token]
  | number (t : Leaf (.kind .number)) : Renders (.number t.token.lexeme) 2 [t.token]
  | parens {e : Expr} {n : Nat} {ts : List Token} (left : Leaf (.kind .leftParen)) (h : Renders e n ts)
      (right : Leaf (.kind .rightParen)) : Renders e 2 (left.token :: (ts ++ [right.token]))
  | binary {op : Op} {l r : Expr} {m n : Nat} {ls rs : List Token} (hl : Renders l m ls) (sign : Leaf (.operator op))
      (hr : Renders r n rs) (hm : op.strength ≤ m) (hn : op.strength < n) :
      Renders (.binary op l r) op.strength (ls ++ sign.token :: rs)

variable {u : Use}

/-- A rendering is a phrase of the grammar, of the kind that binds as tightly. -/
theorem Renders.exists_phrase {e : Expr} {n : Nat} {ts : List Token} (h : Renders e n ts) :
    (∃ a : Arith u, a.tokens = ts ∧ a.expr = e) ∧ (1 ≤ n → ∃ t : Term u, t.tokens = ts ∧ t.expr = e) ∧
      (2 ≤ n → ∃ f : Factor u, f.tokens = ts ∧ f.expr = e) := by
  have hfactor : ∀ {e : Expr} {ts : List Token} (f : Factor u), f.tokens = ts → f.expr = e →
      (∃ a : Arith u, a.tokens = ts ∧ a.expr = e) ∧ (1 ≤ 2 → ∃ t : Term u, t.tokens = ts ∧ t.expr = e) ∧
        (2 ≤ 2 → ∃ f : Factor u, f.tokens = ts ∧ f.expr = e) := fun f hts he =>
    ⟨⟨.term (.factor f), hts, he⟩, fun _ => ⟨.factor f, hts, he⟩, fun _ => ⟨f, hts, he⟩⟩
  -- by the outermost operation: a left side may be of its own kind, a right side is of the next tighter one
  induction h with
  | name t => exact hfactor (.name t) rfl rfl
  | number t => exact hfactor (.number t) rfl rfl
  | parens left _ right ih =>
    obtain ⟨⟨a, rfl, rfl⟩, -, -⟩ := ih
    exact hfactor (.group left a .absent right) rfl rfl
  | @binary op _ _ m n _ _ _ sign _ hm hn ihl ihr =>
    cases hop : op.isMultiplicative with
    | true =>
      have hone : op.strength = 1 := by simp [Op.strength, hop]
      rw [hone] at hm hn ⊢
      obtain ⟨t, rfl, rfl⟩ := ihl.2.1 hm
      obtain ⟨f, rfl, rfl⟩ := ihr.2.2 hn
      have ht : ∃ t' : Term u, t'.tokens = t.tokens ++ sign.token :: f.tokens ∧ t'.expr = .binary op t.expr f.expr :=
        ⟨.times t op hop sign f, rfl, rfl⟩
      obtain ⟨t', hts, he⟩ := ht
      exact ⟨⟨.term t', hts, he⟩, fun _ => ⟨t', hts, he⟩, fun h => absurd h (by decide)⟩
    | false =>
      have hzero : op.strength = 0 := by simp [Op.strength, hop]
      rw [hzero] at hn ⊢
      obtain ⟨a, rfl, rfl⟩ := ihl.1
      obtain ⟨t, rfl, rfl⟩ := ihr.2.1 hn
      exact ⟨⟨.plus a op hop sign t, rfl, rfl⟩, fun h => absurd h (by decide), fun h => absurd h (by decide)⟩

theorem Renders.exists_arith {e : Expr} {n : Nat} {ts : List Token} (h : Renders e n ts) :
    ∃ a : Arith u, a.tokens = ts ∧ a.expr = e := h.exists_phrase.1

mutual

theorem Factor.renders : ∀ f : Factor .lowered, Renders f.expr 2 f.tokens
  | .name t => .name t
  | .number t => .number t
  | .group left a .absent right => by
    obtain ⟨n, h⟩ := a.exists_renders
    exact .parens left h right
  | .group _ _ (.present hchecked _ _) _ => by cases hchecked

theorem Term.exists_renders : ∀ t : Term .lowered, ∃ n, 1 ≤ n ∧ Renders t.expr n t.tokens
  | .factor f => ⟨2, by decide, f.renders⟩
  | .times t op hop sign f => by
    have hone : op.strength = 1 := by simp [Op.strength, hop]
    obtain ⟨m, hm, h⟩ := t.exists_renders
    have hleft : op.strength ≤ m := by omega
    have hright : op.strength < 2 := by omega
    exact ⟨op.strength, Nat.le_of_eq hone.symm, .binary h sign f.renders hleft hright⟩

/-- **A right-hand side renders its tree.** -/
theorem Arith.exists_renders : ∀ a : Arith .lowered, ∃ n, Renders a.expr n a.tokens
  | .term t => by
    obtain ⟨n, -, h⟩ := t.exists_renders
    exact ⟨n, h⟩
  | .plus a op hop sign t => by
    have hzero : op.strength = 0 := by simp [Op.strength, hop]
    obtain ⟨m, ha⟩ := a.exists_renders
    obtain ⟨n, hn, ht⟩ := t.exists_renders
    have hleft : op.strength ≤ m := by omega
    have hright : op.strength < n := by omega
    exact ⟨op.strength, .binary ha sign ht hleft hright⟩

end

/-- The tree that a reader holds behind a right-hand side is the tree of any derivation of it. -/
theorem Arith.meet_end (a : Arith .lowered) :
    Reader.meet ⟨Goal.arithmetic .lowered, default, .empty⟩ a.tokens = .ok (⟨[], a.expr, .empty⟩, []) := by
  have h := Reader.meet_arith a [] default .empty [] (by simp)
  rw [List.append_nil, List.append_nil] at h
  exact h

/-- **No text renders two trees.** -/
theorem Renders.unique {e e' : Expr} {n n' : Nat} {ts : List Token} (h : Renders e n ts) (h' : Renders e' n' ts) :
    e = e' := by
  obtain ⟨a, ha, rfl⟩ := h.exists_arith (u := .lowered)
  obtain ⟨a', ha', rfl⟩ := h'.exists_arith (u := .lowered)
  have hend := a.meet_end
  rw [ha, ← ha', a'.meet_end] at hend
  simpa [eq_comm] using hend

end MiniLang
