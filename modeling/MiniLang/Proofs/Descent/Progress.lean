import MiniLang.Proofs.Descent.Statement
/-!
# Progress of a descent

Each function of the descent follows goals of which the first takes a token (`Follows.getsAhead`), so a call that
succeeds leaves the cursor further on; and the draft grows, since the machine's does and what is written behind an
expression is written at the end.  A loop that calls such a function with each turn comes back
(`comesBack_of_getsAhead`).
-/
namespace MiniLang

namespace Descent

variable {α : Type} {s s' : Descent} {t : Token} {ts : List Token} {gs : List Goal} {out : Reader → α × Draft}

/-- The cursor is behind no more tokens than there are, and the counter is the number of operations written. -/
structure Sound (s : Descent) : Prop where
  inside : s.current ≤ s.tokens.length
  counted : s.draft.builder.Counted

/-- What a descent may become: the cursor no further back and behind no more tokens than there are, names added, code
added behind the code so far, and the counter still the number of operations. -/
structure Reaches (s s' : Descent) : Prop where
  tokens : s'.tokens = s.tokens
  current : s.current ≤ s'.current
  inside : s'.current ≤ s'.tokens.length
  declared : ∀ x ∈ s.draft.declared, x ∈ s'.draft.declared
  code : s.draft.builder.code <+: s'.draft.builder.code
  counted : s'.draft.builder.Counted

theorem Reaches.sound (h : s.Reaches s') : s'.Sound := ⟨h.inside, h.counted⟩

theorem Reaches.refl (h : s.Sound) : s.Reaches s := ⟨rfl, le_rfl, h.inside, fun _ hx => hx, List.prefix_refl _, h.counted⟩

theorem Reaches.trans {s'' : Descent} (h : s.Reaches s') (h' : s'.Reaches s'') : s.Reaches s'' where
  tokens := h'.tokens.trans h.tokens
  current := h.current.trans h'.current
  inside := h'.inside
  declared x hx := h'.declared x (h.declared x hx)
  code := h.code.trans h'.code
  counted := h'.counted

/-- A call that comes back, and that leaves the cursor further on if it succeeds. -/
def GetsAhead (p : Parse α) (s : Descent) : Prop :=
  ∃ o, run p s = some o ∧ ∀ a s', o = .ok (a, s') → s.current < s'.current ∧ s.Reaches s'

theorem reaches_reach (hs : s.Sound) {taken rest : List Token} (hrest : s.rest = taken ++ rest) {d : Draft}
    (hd : s.draft.Grows d) : s.Reaches (s.reach rest d) where
  tokens := rfl
  current := by
    have hlength := s.length_rest
    have hinside := hs.inside
    rw [hrest, List.length_append] at hlength
    change s.current ≤ s.tokens.length - rest.length
    omega
  inside := inside_reach ..
  declared := hd.declared
  code := hd.code
  counted := hd.counted hs.counted

/-- **A function that follows goals gets ahead** if the first of them takes a token. -/
theorem Follows.getsAhead {p : Parse α} (hp : s.Follows p gs out) (hgs : Goal.takes gs)
    (hout : ∀ r : Reader, r.draft.Grows (out r).2) (hs : s.Sound) : GetsAhead p s := by
  refine ⟨_, hp default, fun a s' h => ?_⟩
  cases hmeet : Reader.meet ⟨gs, default, s.draft⟩ s.rest with
  | error e =>
    rw [hmeet] at h
    cases h
  | ok R =>
    rw [hmeet] at h
    cases h
    obtain ⟨⟨taken, htaken⟩, hgrows⟩ := Reader.grows_of_meet hmeet
    have hlt := Reader.takes_of_meet hgs hmeet
    have hinside := hs.inside
    rw [length_rest] at hlt
    refine ⟨?_, reaches_reach hs htaken (hgrows.trans (hout R.1))⟩
    change s.current < s.tokens.length - R.2.length
    omega

theorem grows_done (r : Reader) : r.draft.Grows r.done.2 := .refl _

theorem grows_written (r : Reader) : r.draft.Grows r.written.2 := r.draft.grows_lower r.held

theorem getsAhead_parseAssignment (hs : s.Sound) : GetsAhead parseAssignment s := by
  cases hname : s.check .identifier with
  | true =>
    obtain ⟨t, ts, hrest, hk⟩ := exists_of_check hname
    exact (follows_parseAssignment hrest hk).getsAhead rfl grows_done hs
  | false => exact ⟨_, run_bind_error (run_consume_error hname _) _, fun _ _ h => by cases h⟩

/-- A checked expression leaves the draft as it was. -/
theorem Follows.draft_eq {p : Parse Unit} (hp : s.Follows p gs Reader.done) (hgs : ∀ g ∈ gs, g.isExpression)
    (hrun : run p s = some (.ok ((), s'))) : s'.draft = s.draft := by
  rw [hp default] at hrun
  cases hmeet : Reader.meet ⟨gs, default, s.draft⟩ s.rest with
  | error e =>
    rw [hmeet] at hrun
    cases hrun
  | ok R =>
    rw [hmeet] at hrun
    cases hrun
    exact Reader.draft_of_meet hgs hmeet

/-! ## Loops -/

/-- **A loop comes back** if what it calls with each turn gets ahead. -/
theorem comesBack_of_getsAhead {p loop : Parse Unit} {go : Descent → Bool}
    (hloop : ∀ s, loop s = StateT.run (do if go (← get) then p; loop : Parse Unit) s)
    (hp : ∀ s : Descent, s.Sound → GetsAhead p s) (s : Descent) (hs : s.Sound) :
    ∃ o, run loop s = some o ∧ ∀ s', o = .ok ((), s') → go s' = false ∧ s.Reaches s' := by
  induction hn : s.tokens.length - s.current using Nat.strong_induction_on generalizing s with
  | _ n ih =>
    cases hgo : go s with
    | false =>
      refine ⟨.ok ((), s), ?_, fun s' h => ?_⟩
      · rw [run_method (hloop s), run_get_bind, if_neg (by simp [hgo])]
        rfl
      · cases h
        exact ⟨hgo, .refl hs⟩
    | true =>
      have hrun : run loop s = run (p >>= fun _ => loop) s := by
        rw [run_method (hloop s), run_get_bind, if_pos hgo]
      obtain ⟨o, ho, hahead⟩ := hp s hs
      rw [hrun]
      cases o with
      | error e => exact ⟨_, run_bind_error ho _, fun _ h => by cases h⟩
      | ok R =>
        obtain ⟨_, s'⟩ := R
        obtain ⟨hlt, hreaches⟩ := hahead _ _ rfl
        have hfewer : s'.tokens.length - s'.current < n := by
          have hinside := hreaches.inside
          rw [hreaches.tokens] at hinside ⊢
          omega
        obtain ⟨o', ho', hend⟩ := ih _ hfewer s' hreaches.sound rfl
        refine ⟨o', (run_bind_ok ho _).trans ho', fun s'' h => ?_⟩
        obtain ⟨hgo', hreaches'⟩ := hend s'' h
        exact ⟨hgo', hreaches.trans hreaches'⟩

/-! ## All functions -/

/-- The functions for statements and what they are made of. -/
def statementFunctions : List (Parse Unit) :=
  [parseStatement, parseDeclaration, parseAssignment, parseIfStatement, parseWhileStatement, parsePrintStatement, parseBlock]

def checkFunctions : List (Parse Unit) := [checkExpression, checkArithmetic, checkTerm, checkFactor]

def emitFunctions : List (Parse String) := [emitExpression, emitTerm, emitFactor]

theorem getsAhead_statementFunctions (hs : s.Sound) : ∀ p ∈ statementFunctions, GetsAhead p s := by
  have h := followsStatement s
  simp only [statementFunctions, List.forall_mem_cons]
  exact ⟨h.statement.getsAhead rfl grows_done hs, (follows_parseDeclaration s).getsAhead rfl grows_done hs,
    getsAhead_parseAssignment hs, h.branch.getsAhead rfl grows_done hs, h.loop.getsAhead rfl grows_done hs,
    (follows_parsePrintStatement s).getsAhead rfl grows_done hs, h.block.getsAhead rfl grows_done hs, by simp⟩

/-- A checked function follows goals of an expression, of which the first takes a token. -/
theorem follows_checkFunctions (hs : s.Inside) : ∀ p ∈ checkFunctions, ∃ gs, s.Follows p gs Reader.done ∧
    Goal.takes gs = true ∧ ∀ g ∈ gs, g.isExpression := by
  have h := followsChecked s hs
  simp only [checkFunctions, List.forall_mem_cons]
  refine ⟨⟨_, h.expression, rfl, ?_⟩, ⟨_, h.arithmetic, rfl, ?_⟩, ⟨_, h.term, rfl, ?_⟩, ⟨_, h.factor, rfl, ?_⟩, by simp⟩
  · simp [Goal.condition, Goal.arithmetic, Goal.isExpression]
  · simp [Goal.arithmetic, Goal.isExpression]
  · simp [Goal.isExpression]
  · simp [Goal.isExpression]

theorem getsAhead_emitFunctions (hs : s.Sound) : ∀ p ∈ emitFunctions, GetsAhead p s := by
  have h := followsLowered s hs.inside
  simp only [emitFunctions, List.forall_mem_cons]
  exact ⟨h.expression.getsAhead rfl grows_written hs, h.term.getsAhead rfl grows_written hs,
    h.factor.getsAhead rfl grows_written hs, by simp⟩

/-- Where a leaf has been passed, there is a token to look back to, and its text is the operand. -/
theorem previous_of_leaf (h : run (matchKind .number <||> matchKind .identifier) s = some (.ok (true, s'))) :
    ∃ t, s.peek = some t ∧ s'.previous = some t ∧ run emitFactor s = some (.ok (t.lexeme, s')) := by
  cases hleaf : s.check .number || s.check .identifier with
  | true =>
    obtain ⟨t, ts, hrest, hk⟩ := exists_of_either hleaf
    have hpeek : s.peek = some t := by rw [peek_eq, hrest]; rfl
    rw [run_either_true hrest hk] at h
    cases h
    exact ⟨t, hpeek, previous_next hpeek, run_emitFactor_leaf hrest hk⟩
  | false =>
    obtain ⟨hnumber, hname⟩ := Bool.or_eq_false_iff.1 hleaf
    rw [run_either_false hnumber hname] at h
    cases h

end Descent

end MiniLang
