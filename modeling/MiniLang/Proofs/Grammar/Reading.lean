import MiniLang.Proofs.Grammar.Declared
/-!
# Reading

What one token does to a reader, a lemma for each goal that may stand on top, and from that how a reader takes a whole
expression: behind its tokens the goals of the phrase are met, the rest is as it was, and the phrase's tree is held.  A
goal that may be empty is left behind at a token that it cannot take, so what follows a phrase must not go on with it.
-/
namespace MiniLang

theorem Op.ofSymbol?_eq_some {s : String} {op : Op} : Op.ofSymbol? s = some op ↔ s = op.symbol := by
  constructor
  · intro h
    have hs := List.find?_some h
    exact (beq_iff_eq.1 hs).symm
  · rintro rfl
    exact Op.ofSymbol?_symbol op

theorem Keyword.ofWord?_eq_some {w : String} {k : Keyword} : Keyword.ofWord? w = some k ↔ w = k.word := by
  constructor
  · intro h
    have hw := List.find?_some h
    exact (beq_iff_eq.1 hw).symm
  · rintro rfl
    cases k <;> decide

theorem Token.keyword?_eq_some {t : Token} {k : Keyword} :
    t.keyword? = some k ↔ (Terminal.keyword k).Fits t := by
  unfold Token.keyword? Terminal.Fits
  by_cases h : t.kind = .keyword
  · simp [h, Keyword.ofWord?_eq_some]
  · simp [h]

namespace Goal

theorem operator?_eq_some {m : Bool} {t : Token} {op : Op} :
    operator? m t = some op ↔ (Terminal.operator op).Fits t ∧ op.isMultiplicative = m := by
  unfold operator? Terminal.Fits
  by_cases h : t.kind = .operator
  · simp [h, Option.filter_eq_some_iff, Op.ofSymbol?_eq_some]
  · simp [h]

theorem operator?_of_kind {m : Bool} {t : Token} (h : t.kind ≠ .operator) : operator? m t = none := if_neg h

theorem kind_of_operator? {m : Bool} {t : Token} {op : Op} (h : operator? m t = some op) : t.kind = .operator :=
  (operator?_eq_some.1 h).1.1

theorem operator?_of_not {m : Bool} {t : Token} {op : Op} (h : operator? m t = some op) : operator? (!m) t = none := by
  obtain ⟨hf, hm⟩ := operator?_eq_some.1 h
  refine Option.eq_none_iff_forall_ne_some.2 (fun op' h' => ?_)
  obtain ⟨hf', hm'⟩ := operator?_eq_some.1 h'
  have hop : op = op' := by
    have := (Op.ofSymbol?_eq_some.2 hf.2).symm.trans (Op.ofSymbol?_eq_some.2 hf'.2)
    simpa using this
  rw [← hop, hm] at hm'
  cases m <;> cases hm'

/-- Any number of further phrases, each behind an operator that binds tightly, or behind one that does not. -/
abbrev further : Bool → Use → Goal
  | true, u => factors u
  | false, u => terms u

/-- The phrase behind such an operator. -/
abbrev phrase : Bool → Use → List Goal
  | true, u => [operand u]
  | false, u => [operand u, factors u]

theorem read_further {m : Bool} {u : Use} {held : Expr} {t : Token} {op : Op} (h : operator? m t = some op)
    (gs : List Goal) : read held t (further m u :: gs) = .take (phrase m u ++ (joins u op held ++ further m u :: gs)) held none := by
  cases m <;> rw [read, h] <;> rfl

theorem read_further_none {m : Bool} {u : Use} {held : Expr} {t : Token} (h : operator? m t = none) (gs : List Goal) :
    read held t (further m u :: gs) = read held t gs := by cases m <;> rw [read, h]

theorem close_further (m : Bool) (u : Use) (held : Expr) (gs : List Goal) :
    close held (further m u :: gs) = close held gs := by cases m <;> rfl

/-- The comparison that may follow a sum, if it may. -/
def compared : Use → List Goal
  | .checked => [comparison]
  | .lowered => []

theorem parenthesised_append (u : Use) (gs : List Goal) :
    parenthesised u ++ gs = arithmetic u ++ (compared u ++ mark .closeExpression :: gs) := by
  cases u <;> rfl

theorem leaf_of_checked {u : Use} (h : u = .checked) (held e : Expr) : leaf u held e = held := by
  subst h
  rfl

/-- What is held behind an operation whose left side was held. -/
theorem leaf_binary (u : Use) (held e r : Expr) (op : Op) :
    leaf u (leaf u held e) (.binary op (leaf u held e) r) = leaf u held (.binary op e r) := by
  cases u <;> rfl

end Goal

variable {u : Use}

namespace Reader

variable {gs gs' : List Goal} {held held' : Expr} {d : Draft} {t : Token} {ts : List Token}

theorem meet_congr (hread : ∀ t ∈ ts.head?, Goal.read held t gs = Goal.read held' t gs')
    (hclose : Goal.close held gs = Goal.close held' gs') : meet ⟨gs, held, d⟩ ts = meet ⟨gs', held', d⟩ ts := by
  cases ts with
  | nil => rw [meet, meet, hclose]
  | cons t ts => rw [meet, meet, hread t rfl]

theorem meet_take (h : Goal.read held t gs = .take gs' held' none) :
    meet ⟨gs, held, d⟩ (t :: ts) = meet ⟨gs', held', d⟩ ts := by
  rw [meet, h]
  rfl

theorem meet_event {event : Event} (h : Goal.read held t gs = .take gs' held' (some event)) :
    d.Leads [event] (meet ⟨gs, held, d⟩ (t :: ts)) fun d' => meet ⟨gs', held', d'⟩ ts := by
  unfold Draft.Leads
  rw [meet, h, Draft.noteAll]
  simp only [Draft.noteAny]
  cases d.note event with
  | ok d' => rfl
  | error fault => exact ⟨t, rfl⟩

theorem meet_event_ok {event : Event} {R : Reader × List Token}
    (h : Goal.read held t gs = .take gs' held' (some event)) :
    meet ⟨gs, held, d⟩ (t :: ts) = .ok R ↔ ∃ d', d.note event = .ok d' ∧ meet ⟨gs', held', d'⟩ ts = .ok R := by
  rw [(meet_event h).ok_iff]
  simp only [Draft.noteAll_singleton_ok]

/-! ## Goals that may be empty -/

theorem meet_further (m : Bool) (h : ∀ t ∈ ts.head?, Goal.operator? m t = none) :
    meet ⟨Goal.further m u :: gs, held, d⟩ ts = meet ⟨gs, held, d⟩ ts :=
  meet_congr (fun t ht => Goal.read_further_none (h t ht) gs) (Goal.close_further m u held gs)

theorem meet_comparison (h : ∀ t ∈ ts.head?, t.kind ≠ .comparator) :
    meet ⟨.comparison :: gs, held, d⟩ ts = meet ⟨gs, held, d⟩ ts :=
  meet_congr (fun t ht => by rw [Goal.read, if_neg (h t ht)]) rfl

theorem meet_compared_absent (h : ∀ t ∈ ts.head?, t.kind ≠ .comparator) :
    meet ⟨Goal.compared u ++ gs, held, d⟩ ts = meet ⟨gs, held, d⟩ ts := by
  cases u with
  | checked => exact meet_comparison h
  | lowered => rfl

theorem meet_alternative (h : ∀ t ∈ ts.head?, t.keyword? ≠ some .elseWord) :
    meet ⟨.alternative :: gs, held, d⟩ ts = meet ⟨gs, held, d⟩ ts :=
  meet_congr (fun t ht => by rw [Goal.read, if_neg (h t ht)]) rfl

theorem meet_join (op : Op) (l : Expr) :
    meet ⟨.join op l :: gs, held, d⟩ ts = meet ⟨gs, .binary op l held, d⟩ ts :=
  meet_congr (fun _ _ => rfl) rfl

theorem meet_joins (op : Op) (l r : Expr) :
    meet ⟨Goal.joins u op l ++ gs, Goal.leaf u l r, d⟩ ts = meet ⟨gs, Goal.leaf u l (.binary op l r), d⟩ ts := by
  cases u with
  | checked => rfl
  | lowered => exact meet_join op l

/-! ## Goals that take one token -/

theorem meet_mark {m : Mark} (h : t.kind = m.kind) :
    meet ⟨.mark m :: gs, held, d⟩ (t :: ts) = meet ⟨gs, held, d⟩ ts :=
  meet_take (by rw [Goal.read, if_pos h])

theorem meet_further_sign {op : Op} {m : Bool} (sign : Leaf (.operator op)) (binds : op.isMultiplicative = m) :
    meet ⟨Goal.further m u :: gs, held, d⟩ (sign.token :: ts) =
      meet ⟨Goal.phrase m u ++ (Goal.joins u op held ++ Goal.further m u :: gs), held, d⟩ ts :=
  meet_take (Goal.read_further (Goal.operator?_eq_some.2 ⟨sign.fits, binds⟩) gs)

theorem meet_comparator (isChecked : u = .checked) (sign : Leaf (.kind .comparator)) :
    meet ⟨Goal.compared u ++ gs, held, d⟩ (sign.token :: ts) = meet ⟨Goal.arithmetic u ++ gs, held, d⟩ ts := by
  subst isChecked
  exact meet_take (by rw [Goal.compared, List.singleton_append, Goal.read, if_pos sign.kind_eq])

theorem operator?_compared {m : Bool} (c : Comparison u) (right : Leaf (.kind .rightParen)) :
    ∀ t ∈ (c.tokens ++ right.token :: ts).head?, Goal.operator? m t = none := by
  cases c with
  | absent => simp [Comparison.tokens, Goal.operator?_of_kind, right.kind_eq]
  | present _ sign _ => simp [Comparison.tokens, Goal.operator?_of_kind, sign.kind_eq]

/-! ## Phrases -/

mutual

theorem meet_factor (f : Factor u) (gs : List Goal) (held : Expr) (d : Draft) (rest : List Token) :
    meet ⟨.operand u :: gs, held, d⟩ (f.tokens ++ rest) = meet ⟨gs, Goal.leaf u held f.expr, d⟩ rest := by
  match f with
  | .name t =>
    have hread : Goal.read held t.token (.operand u :: gs) = .take gs (Goal.leaf u held (.name t.token.lexeme)) none := by
      rw [Goal.read, Goal.enterOperand, t.kind_eq]
    exact meet_take hread
  | .number t =>
    have hread : Goal.read held t.token (.operand u :: gs) =
        .take gs (Goal.leaf u held (.number t.token.lexeme)) none := by
      rw [Goal.read, Goal.enterOperand, t.kind_eq]
    exact meet_take hread
  | .group left a c right =>
    have hin : Goal.read held left.token (.operand u :: gs) = .take (Goal.parenthesised u ++ gs) held none := by
      rw [Goal.read, Goal.enterOperand, left.kind_eq]
    rw [Factor.tokens, List.cons_append, List.append_assoc, List.append_assoc, meet_take hin,
      Goal.parenthesised_append, List.singleton_append, meet_arith a _ _ _ _ (operator?_compared c right)]
    exact meet_compared c right rfl gs _ d rest

theorem meet_term (t : Term u) (gs : List Goal) (held : Expr) (d : Draft) (rest : List Token) :
    meet ⟨.operand u :: .factors u :: gs, held, d⟩ (t.tokens ++ rest) =
      meet ⟨.factors u :: gs, Goal.leaf u held t.expr, d⟩ rest := by
  match t with
  | .factor f => exact meet_factor f (.factors u :: gs) held d rest
  | .times a op binds sign f =>
    rw [Term.tokens, List.append_assoc, List.cons_append, meet_term a, meet_further_sign sign binds, List.singleton_append,
      meet_factor f, meet_joins, Goal.leaf_binary]
    rfl

/-- What follows a sum must not go on with its last term; it may go on with the sum. -/
theorem meet_arith (a : Arith u) (gs : List Goal) (held : Expr) (d : Draft) (rest : List Token)
    (h : ∀ t ∈ rest.head?, Goal.operator? true t = none) :
    meet ⟨Goal.arithmetic u ++ gs, held, d⟩ (a.tokens ++ rest) =
      meet ⟨.terms u :: gs, Goal.leaf u held a.expr, d⟩ rest := by
  match a with
  | .term t => exact (meet_term t (.terms u :: gs) held d rest).trans (meet_further true h)
  | .plus a op binds sign t =>
    have hs : Goal.operator? true sign.token = none :=
      Goal.operator?_of_not (Goal.operator?_eq_some.2 ⟨sign.fits, binds⟩)
    rw [Arith.tokens, List.append_assoc, List.cons_append, meet_arith a gs held d _ (by simpa using hs),
      meet_further_sign sign binds, List.cons_append, List.singleton_append, meet_term t,
      meet_further true h, meet_joins, Goal.leaf_binary]
    rfl

theorem meet_compared (c : Comparison u) (right : Leaf (.kind .rightParen)) {m : Mark} (hm : m.kind = .rightParen)
    (gs : List Goal) (held : Expr) (d : Draft) (rest : List Token) :
    meet ⟨.terms u :: (Goal.compared u ++ .mark m :: gs), held, d⟩ (c.tokens ++ right.token :: rest) =
      meet ⟨gs, held, d⟩ rest := by
  have hr : ∀ b, ∀ t ∈ (right.token :: rest).head?, Goal.operator? b t = none := fun b =>
    operator?_compared (.absent : Comparison u) right
  have hright : right.token.kind = m.kind := right.kind_eq.trans hm.symm
  match c with
  | .absent =>
    rw [Comparison.tokens, List.nil_append, meet_further false (hr false), meet_compared_absent (by simp [right.kind_eq])]
    exact meet_mark hright
  | .present isChecked sign a =>
    rw [meet_further false (operator?_compared _ right), Comparison.tokens, List.cons_append,
      meet_comparator isChecked sign, meet_arith a _ _ _ _ (hr true), Goal.leaf_of_checked isChecked,
      meet_further false (hr false)]
    exact meet_mark hright

end

theorem meet_condition (c : Condition) (right : Leaf (.kind .rightParen)) {m : Mark} (hm : m.kind = .rightParen)
    (gs : List Goal) (held : Expr) (d : Draft) (rest : List Token) :
    meet ⟨Goal.condition ++ .mark m :: gs, held, d⟩ (c.tokens ++ right.token :: rest) = meet ⟨gs, held, d⟩ rest := by
  rw [Condition.tokens, List.append_assoc, Goal.condition, List.append_assoc,
    meet_arith c.arith _ held d _ (operator?_compared c.comparison right)]
  exact meet_compared c.comparison right hm gs held d rest

theorem meet_printed :
    d.Leads t.mention (meet ⟨.printed :: gs, held, d⟩ (t :: ts)) fun d' =>
      meet ⟨.operand .checked :: gs, held, d'⟩ (t :: ts) := by
  unfold Token.mention
  by_cases ht : t.kind = .identifier
  · have hread : Goal.read held t (.printed :: gs) = .take gs held (some (.mention t.lexeme)) := by
      rw [Goal.read, if_pos ht]
    have hr : ∀ d', meet ⟨gs, held, d'⟩ ts = meet ⟨.operand .checked :: gs, held, d'⟩ (t :: ts) := fun d' =>
      (meet_take (by rw [Goal.read, Goal.enterOperand, ht]; rfl)).symm
    rw [if_pos ht]
    exact (meet_event hread).congr hr
  · have hr : meet ⟨.printed :: gs, held, d⟩ (t :: ts) = meet ⟨.operand .checked :: gs, held, d⟩ (t :: ts) := by
      rw [meet, meet, Goal.read, if_neg ht, Goal.read]
    rw [if_neg ht]
    exact .nil hr

end Reader

end MiniLang
