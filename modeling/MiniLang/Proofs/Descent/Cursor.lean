import MiniLang.Descent
import MiniLang.Proofs.Grammar.Stack
/-!
# The cursor of a descent

What the functions of the cursor do, each told by what is left of the tokens, and when a function of a descent *follows*
a stack of goals: it comes back, with what the machine comes to when it meets the goals from the same place on, and with
the cursor behind the same tokens.  Functions called one after the other follow stacks on top of each other
(`Follows.bind`).
-/
namespace MiniLang

namespace Descent

variable {α β : Type} {s s' : Descent} {t : Token} {ts : List Token}

/-! ## Steps of a run -/

theorem run_bind_ok {p : Parse α} {a : α} (h : run p s = some (.ok (a, s'))) (f : α → Parse β) :
    run (p >>= f) s = run (f a) s' := by
  have hp : p s = some (.ok (a, s')) := h
  change Option.bind (p s) _ = _
  rw [hp]
  rfl

theorem run_bind_error {p : Parse α} {e : Refusal} (h : run p s = some (.error e)) (f : α → Parse β) :
    run (p >>= f) s = some (.error e) := by
  have hp : p s = some (.error e) := h
  change Option.bind (p s) _ = _
  rw [hp]
  rfl

/-- What a method comes to is what its body does. -/
theorem run_method {f p : Parse α} (h : f s = StateT.run p s) : run f s = run p s := h

theorem run_method_bind {f p : Parse α} (h : f s = StateT.run p s) (q : α → Parse β) :
    run (f >>= q) s = run (p >>= q) s := by
  change Option.bind (f s) _ = Option.bind (p s) _
  rw [h]
  rfl

theorem run_get_bind (f : Descent → Parse β) : run (get >>= f) s = run (f s) s := rfl

theorem run_modify_bind (g : Descent → Descent) (f : PUnit → Parse β) :
    run (modify g >>= f) s = run (f ⟨⟩) (g s) := rfl

theorem run_syntaxError (w : Expected) : run (syntaxError w : Parse α) s = some (.error ⟨.expected w, s.peek⟩) := rfl

/-! ## What is left of the tokens -/

def rest (s : Descent) : List Token := s.tokens.drop s.current

/-- The cursor is behind no more tokens than there are. -/
def Inside (s : Descent) : Prop := s.current ≤ s.tokens.length

theorem peek_eq (s : Descent) : s.peek = s.rest.head? := by rw [peek, rest, List.head?_drop]

theorem length_rest (s : Descent) : s.rest.length = s.tokens.length - s.current := List.length_drop

theorem isAtEnd_eq (s : Descent) : s.isAtEnd = s.rest.isEmpty := by
  rw [isAtEnd, Bool.eq_iff_iff, decide_eq_true_iff, List.isEmpty_iff, rest, List.drop_eq_nil_iff]

theorem rest_next (h : s.rest = t :: ts) : s.next.rest = ts := by
  have hdrop : s.next.rest = s.rest.tail := by rw [rest, rest, next, List.tail_drop]
  rw [hdrop, h, List.tail_cons]

@[simp] theorem draft_next (s : Descent) : s.next.draft = s.draft := rfl

theorem current_lt (h : s.rest = t :: ts) : s.current < s.tokens.length := by
  have hlength := s.length_rest
  rw [h, List.length_cons] at hlength
  omega

theorem previous_next (h : s.peek = some t) : s.next.previous = some t :=
  (if_neg (Nat.succ_ne_zero s.current)).trans h

/-- The descent with the cursor in front of `rest`, and another draft. -/
def reach (s : Descent) (rest : List Token) (d : Draft) : Descent := ⟨s.tokens, s.tokens.length - rest.length, d⟩

theorem reach_self (h : s.Inside) : s.reach s.rest s.draft = s := by
  have hcurrent : s.tokens.length - (s.tokens.length - s.current) = s.current := Nat.sub_sub_self h
  rw [reach, length_rest, hcurrent]

theorem inside_reach (s : Descent) (rest : List Token) (d : Draft) : (s.reach rest d).Inside := Nat.sub_le _ _

theorem rest_reach {taken rest : List Token} (h : s.rest = taken ++ rest) (d : Draft) : (s.reach rest d).rest = rest := by
  have hsuffix : rest <:+ s.tokens := (h ▸ List.suffix_append taken rest).trans (List.drop_suffix _ _)
  exact (List.suffix_iff_eq_drop.1 hsuffix).symm

theorem reach_next (h : s.rest = t :: ts) (d : Draft) : s.reach ts d = ⟨s.tokens, s.current + 1, d⟩ := by
  have hlength := s.length_rest
  rw [h, List.length_cons] at hlength
  rw [reach]
  congr 1
  omega

/-! ## Functions of the cursor -/

theorem check_of_rest (h : s.rest = t :: ts) (k : Kind) : s.check k = decide (t.kind = k) := by
  rw [check, peek_eq, h]
  rfl

theorem check_of_nil (h : s.rest = []) (k : Kind) : s.check k = false := by
  rw [check, peek_eq, h]
  rfl

theorem run_advance (h : s.rest = t :: ts) : run advance s = some (.ok (⟨⟩, s.next)) := by
  have hpeek : s.peek.isSome = true := by rw [peek_eq, h]; rfl
  rw [advance, run_get_bind, if_pos hpeek]
  rfl

theorem run_matchKind_true (h : s.rest = t :: ts) {k : Kind} (hk : t.kind = k) :
    run (matchKind k) s = some (.ok (true, s.next)) := by
  have hcheck : s.check k = true := by rw [check_of_rest h, decide_eq_true hk]
  rw [matchKind, run_get_bind, if_pos hcheck, run_bind_ok (run_advance h)]
  rfl

theorem run_matchKind_false {k : Kind} (h : s.check k = false) : run (matchKind k) s = some (.ok (false, s)) := by
  rw [matchKind, run_get_bind, if_neg (by simp [h])]
  rfl

/-- One kind or another. -/
theorem run_either_true (h : s.rest = t :: ts) {k l : Kind} (hk : t.kind = k ∨ t.kind = l) :
    run (matchKind k <||> matchKind l) s = some (.ok (true, s.next)) := by
  by_cases hkk : t.kind = k
  · rw [orM, run_bind_ok (run_matchKind_true h hkk)]
    rfl
  · have hcheck : s.check k = false := by rw [check_of_rest h, decide_eq_false hkk]
    rw [orM, run_bind_ok (run_matchKind_false hcheck)]
    exact run_matchKind_true h (hk.resolve_left hkk)

theorem run_either_false {k l : Kind} (hk : s.check k = false) (hl : s.check l = false) :
    run (matchKind k <||> matchKind l) s = some (.ok (false, s)) := by
  rw [orM, run_bind_ok (run_matchKind_false hk)]
  exact run_matchKind_false hl

theorem run_matchKeyword_true (h : s.rest = t :: ts) {k : Keyword} (hk : t.keyword? = some k) :
    run (matchKeyword k) s = some (.ok (true, s.next)) := by
  have hany : s.peek.any (fun t => t.kind = .keyword ∧ t.lexeme = k.word) = true := by
    rw [peek_eq, h]
    have hfits : t.kind = .keyword ∧ t.lexeme = k.word := Token.keyword?_eq_some.1 hk
    exact decide_eq_true hfits
  rw [matchKeyword, run_get_bind, if_pos hany, run_bind_ok (run_advance h)]
  rfl

theorem run_matchKeyword_false {k : Keyword} (h : ∀ t ∈ s.rest.head?, t.keyword? ≠ some k) :
    run (matchKeyword k) s = some (.ok (false, s)) := by
  have hany : ¬ s.peek.any (fun t => t.kind = .keyword ∧ t.lexeme = k.word) = true := by
    rw [peek_eq, Option.any_eq_true]
    rintro ⟨t, ht, hk⟩
    have hfits : t.kind = .keyword ∧ t.lexeme = k.word := by simpa using hk
    exact h t ht (Token.keyword?_eq_some.2 hfits)
  rw [matchKeyword, run_get_bind, if_neg hany]
  rfl

theorem run_consume_ok (h : s.rest = t :: ts) {k : Kind} (hk : t.kind = k) (w : Expected) :
    run (consume k w) s = some (.ok (t, s.next)) := by
  have hpeek : s.peek = some t := by rw [peek_eq, h]; rfl
  rw [consume, run_get_bind, hpeek]
  simp only [if_pos hk]
  rw [run_bind_ok (run_advance h)]
  rfl

theorem run_consume_error {k : Kind} (h : s.check k = false) (w : Expected) :
    run (consume k w) s = some (.error ⟨.expected w, s.peek⟩) := by
  rw [consume, run_get_bind]
  cases hpeek : s.peek with
  | none => exact (run_syntaxError w).trans (by rw [hpeek])
  | some t =>
    have hk : t.kind ≠ k := by simpa [check, hpeek] using h
    simp only [if_neg hk]
    exact (run_syntaxError w).trans (by rw [hpeek])

theorem run_consumeMark_ok (h : s.rest = t :: ts) {m : Mark} (hk : t.kind = m.kind) :
    run (consumeMark m) s = some (.ok ((), s.next)) := run_bind_ok (run_consume_ok h hk _) _

theorem run_consumeMark_error {m : Mark} (h : s.check m.kind = false) :
    run (consumeMark m) s = some (.error ⟨.expected (.mark m), s.peek⟩) := run_bind_error (run_consume_error h _) _

theorem operator?_of_accept {accept : Op → Bool} {m : Bool} (h : ∀ op, accept op = (op.isMultiplicative == m)) (t : Token) :
    (if t.kind = .operator then (Op.ofSymbol? t.lexeme).filter accept else none) = Goal.operator? m t := by
  rw [Goal.operator?, funext h]

/-- An operator of the two sorts, by what the machine takes for one. -/
theorem run_matchOperator {accept : Op → Bool} {m : Bool} (h : ∀ op, accept op = (op.isMultiplicative == m)) :
    (∀ t ts op, s.rest = t :: ts → Goal.operator? m t = some op →
      run (matchOperator accept) s = some (.ok (some op, s.next))) ∧
    ((∀ t ∈ s.rest.head?, Goal.operator? m t = none) → run (matchOperator accept) s = some (.ok (none, s))) := by
  constructor
  · intro t ts op hrest hop
    have hpeek : s.peek = some t := by rw [peek_eq, hrest]; rfl
    rw [matchOperator, run_get_bind, hpeek]
    simp only [operator?_of_accept h, hop]
    rw [run_bind_ok (run_advance hrest)]
    rfl
  · intro hnone
    rw [matchOperator, run_get_bind]
    cases hpeek : s.peek with
    | none => rfl
    | some t =>
      have hop : Goal.operator? m t = none := hnone t (by rw [← peek_eq, hpeek]; rfl)
      simp only [operator?_of_accept h, hop]
      rfl

end Descent

end MiniLang
