import MiniLang.Proofs.Grammar.Declared
/-!
# Provenance

Nothing that a program says of names and numbers is made up: each of them is the text of one of its tokens
(`Program.events_from`).
-/
namespace MiniLang

/-- A token of the kind has the text `x`. -/
def Occurs (ts : List Token) (kind : Kind) (x : String) : Prop := ∃ t ∈ ts, t.kind = kind ∧ t.lexeme = x

instance (ts : List Token) (kind : Kind) (x : String) : Decidable (Occurs ts kind x) :=
  inferInstanceAs (Decidable (∃ t ∈ ts, t.kind = kind ∧ t.lexeme = x))

def Expr.From (ts : List Token) : Expr → Prop
  | name x => Occurs ts .identifier x
  | number digits => Occurs ts .number digits
  | binary _ left right => left.From ts ∧ right.From ts

def Event.From (ts : List Token) : Event → Prop
  | declare x => Occurs ts .identifier x
  | mention x => Occurs ts .identifier x
  | assign x e => Occurs ts .identifier x ∧ e.From ts

variable {ts ts' : List Token}

theorem Occurs.mono {kind : Kind} {x : String} (hts : ts ⊆ ts') (h : Occurs ts kind x) : Occurs ts' kind x := by
  obtain ⟨t, ht, hx⟩ := h
  exact ⟨t, hts ht, hx⟩

theorem Expr.From.mono (hts : ts ⊆ ts') : ∀ {e : Expr}, e.From ts → e.From ts'
  | .name _, h => Occurs.mono hts h
  | .number _, h => Occurs.mono hts h
  | .binary _ _ _, h => ⟨mono hts h.1, mono hts h.2⟩

theorem Event.From.mono (hts : ts ⊆ ts') {e : Event} (h : e.From ts) : e.From ts' := by
  cases e with
  | declare x => exact Occurs.mono hts h
  | mention x => exact Occurs.mono hts h
  | assign x e => exact ⟨h.1.mono hts, h.2.mono hts⟩

theorem Leaf.occurs {kind : Kind} (t : Leaf (.kind kind)) (h : t.token ∈ ts) : Occurs ts kind t.token.lexeme :=
  ⟨t.token, h, t.kind_eq, rfl⟩

variable {u : Use}

mutual

theorem Factor.expr_from : ∀ f : Factor u, f.expr.From f.tokens
  | .name t => t.occurs List.mem_cons_self
  | .number t => t.occurs List.mem_cons_self
  | .group left a c right => by
    rw [Factor.tokens]
    exact (Arith.expr_from a).mono (fun t ht => List.mem_cons_of_mem _ (List.mem_append_left _ ht))

theorem Term.expr_from : ∀ a : Term u, a.expr.From a.tokens
  | .factor f => Factor.expr_from f
  | .times a op _ sign f => by
    rw [Term.tokens]
    refine ⟨(Term.expr_from a).mono (List.subset_append_left ..), (Factor.expr_from f).mono (fun t ht => ?_)⟩
    exact List.mem_append_right _ (List.mem_cons_of_mem _ ht)

theorem Arith.expr_from : ∀ a : Arith u, a.expr.From a.tokens
  | .term t => Term.expr_from t
  | .plus a op _ sign t => by
    rw [Arith.tokens]
    refine ⟨(Arith.expr_from a).mono (List.subset_append_left ..), (Term.expr_from t).mono (fun t ht => ?_)⟩
    exact List.mem_append_right _ (List.mem_cons_of_mem _ ht)

end

theorem Condition.mention_from (c : Condition) : ∀ e ∈ c.mention, e.From c.tokens := by
  intro e he
  rw [mention] at he
  split at he
  · next t ts htokens =>
    rw [Token.mention] at he
    split at he
    · next ht =>
      obtain rfl := List.mem_singleton.1 he
      exact ⟨t, by rw [htokens]; exact List.mem_cons_self, ht, rfl⟩
    · cases he
  · cases he

mutual

theorem Statement.events_from : ∀ (s : Statement), ∀ e ∈ s.events, e.From s.tokens
  | .declaration word name endMark, e, he => by
    obtain rfl := List.mem_singleton.1 he
    exact name.occurs (by simp [Statement.tokens])
  | .assignment target sign value endMark, e, he => by
    have htarget : Occurs (Statement.assignment target sign value endMark).tokens .identifier target.token.lexeme :=
      target.occurs List.mem_cons_self
    rcases List.mem_cons.1 he with rfl | he
    · exact htarget
    · obtain rfl := List.mem_singleton.1 he
      exact ⟨htarget, value.expr_from.mono (fun t ht => by simp [Statement.tokens, ht])⟩
  | .branch head body other, e, he => by
    rcases List.mem_append.1 he with he | he
    · exact (Block.events_from body e he).mono (fun t ht => by simp [Statement.tokens, ht])
    · exact (Alternative.events_from other e he).mono (fun t ht => by simp [Statement.tokens, ht])
  | .loop head body, e, he =>
    (Block.events_from body e he).mono (fun t ht => by simp [Statement.tokens, ht])
  | .print head endMark, e, he =>
    (head.condition.mention_from e he).mono (fun t ht => by simp [Statement.tokens, Head.tokens, ht])

theorem Block.events_from : ∀ (b : Block), ∀ e ∈ b.events, e.From b.tokens
  | .braces left p right, e, he => (Program.events_from p e he).mono (fun t ht => by simp [Block.tokens, ht])

theorem Alternative.events_from : ∀ (b : Alternative), ∀ e ∈ b.events, e.From b.tokens
  | .absent, e, he => by cases he
  | .present word body, e, he => (Block.events_from body e he).mono (fun t ht => by simp [Alternative.tokens, ht])

theorem Program.events_from : ∀ (p : Program), ∀ e ∈ p.events, e.From p.tokens
  | .done, e, he => by cases he
  | .next s p, e, he => by
    rcases List.mem_append.1 he with he | he
    · exact (Statement.events_from s e he).mono (fun t ht => by simp [Program.tokens, ht])
    · exact (Program.events_from p e he).mono (fun t ht => by simp [Program.tokens, ht])

end

namespace Program

theorem declared_occurs {p : Program} {x : String} (h : x ∈ p.declared) : Occurs p.tokens .identifier x := by
  obtain ⟨e, he, hx⟩ := List.mem_filterMap.1 h
  have hfrom := p.events_from e he
  cases e with
  | declare y => exact Option.some.inj hx ▸ hfrom
  | mention y => cases hx
  | assign y e => cases hx

theorem assignments_from {p : Program} {a : String × Expr} (h : a ∈ p.assignments) :
    Occurs p.tokens .identifier a.1 ∧ a.2.From p.tokens := by
  obtain ⟨e, he, ha⟩ := List.mem_filterMap.1 h
  have hfrom := p.events_from e he
  cases e with
  | declare y => cases ha
  | mention y => cases ha
  | assign y e => exact Option.some.inj ha ▸ hfrom

end Program

end MiniLang
