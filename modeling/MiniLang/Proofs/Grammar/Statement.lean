import MiniLang.Proofs.Grammar.Reading
/-!
# Reading statements

How a reader takes a whole statement and a whole program: it takes note of what they say, and if that goes well it stands
where it stood before, behind their tokens; else it refuses one of them for what it says, and never for the grammar
(`meet_program`).
-/
namespace MiniLang

variable {u : Use} {gs : List Goal} {d : Draft} {rest : List Token} {R : Reader × List Token}

theorem Factor.tokens_ne_nil (f : Factor u) : f.tokens ≠ [] := by
  cases f <;> simp [Factor.tokens]

theorem Term.tokens_ne_nil (t : Term u) : t.tokens ≠ [] := by
  cases t <;> simp [Term.tokens, Factor.tokens_ne_nil]

theorem Arith.tokens_ne_nil (a : Arith u) : a.tokens ≠ [] := by
  cases a <;> simp [Arith.tokens, Term.tokens_ne_nil]

theorem Statement.tokens_head (s : Statement) : ∃ t ts, s.tokens = t :: ts ∧ t.keyword? ≠ some .elseWord := by
  have hw : ∀ {k : Keyword} (t : Leaf (.keyword k)), k ≠ .elseWord → t.token.keyword? ≠ some .elseWord := by
    intro k t hk
    simpa [Token.keyword?_eq_some.2 t.fits] using hk
  cases s with
  | declaration word name endMark => exact ⟨_, _, rfl, hw word (by decide)⟩
  | assignment target sign value endMark =>
    exact ⟨_, _, rfl, by simp [Token.keyword?, target.kind_eq]⟩
  | branch head body other => exact ⟨_, _, rfl, hw head.word (by decide)⟩
  | loop head body => exact ⟨_, _, rfl, hw head.word (by decide)⟩
  | print head endMark => exact ⟨_, _, rfl, hw head.word (by decide)⟩

theorem Program.tokens_head (p : Program) (h : ∀ t ∈ rest.head?, t.keyword? ≠ some .elseWord) :
    ∀ t ∈ (p.tokens ++ rest).head?, t.keyword? ≠ some .elseWord := by
  cases p with
  | done => exact h
  | next s p =>
    obtain ⟨t, ts, hs, ht⟩ := s.tokens_head
    simpa [Program.tokens, hs] using ht

namespace Goal

/-- Statements are read with these goals on the stack until a brace closes the block. -/
def Loops (gs : List Goal) : Prop := ∀ held t, t.kind ≠ .rightBrace → read held t gs = enter gs held t

theorem loops_statements : Loops (statements :: gs) := fun _ _ _ => by rw [read]

theorem loops_body : Loops (body :: gs) := fun _ _ h => by rw [read, if_neg h]

theorem openStatement_identifier {t : Token} (h : t.kind = .identifier) : openStatement t =
    .ok (mark .assign :: (arithmetic .lowered ++ [assigned t.lexeme]), some (.mention t.lexeme)) := by
  rw [openStatement, h]
  exact if_pos h

theorem read_identifier (hg : Loops gs) (held : Expr) (t : Leaf (.kind .identifier)) :
    read held t.token gs = .take (mark .assign :: (arithmetic .lowered ++ assigned t.token.lexeme :: gs)) held
      (some (.mention t.token.lexeme)) := by
  rw [hg held _ (by simp [t.kind_eq]), enter, openStatement_identifier t.kind_eq]
  simp

theorem read_word (hg : Loops gs) (held : Expr) {k : Keyword} (t : Leaf (.keyword k)) {opened : List Goal}
    (h : openStatement t.token = .ok (opened, none)) : read held t.token gs = .take (opened ++ gs) held none := by
  rw [hg held _ (by simp [t.kind_keyword]), enter, h]

theorem openStatement_word {k : Keyword} (t : Leaf (.keyword k)) :
    openStatement t.token = openStatement ⟨.keyword, k.word, t.token.pos⟩ := by
  unfold openStatement Token.keyword?
  rw [t.kind_keyword, t.fits.2]

end Goal

theorem Reader.meet_word (hg : Goal.Loops gs) {k : Keyword} (word : Leaf (.keyword k)) {opened : List Goal}
    (h : Goal.openStatement ⟨.keyword, k.word, word.token.pos⟩ = .ok (opened, none)) :
    Reader.meet ⟨gs, default, d⟩ (word.token :: rest) = Reader.meet ⟨opened ++ gs, default, d⟩ rest := by
  have hopened : Goal.openStatement word.token = .ok (opened, none) := (Goal.openStatement_word word).trans h
  exact Reader.meet_take (Goal.read_word hg default word hopened)

theorem Head.tokens_append {k : Keyword} (h : Head k) :
    h.tokens ++ rest = h.word.token :: h.left.token :: (h.condition.tokens ++ h.right.token :: rest) := by
  rw [Head.tokens, List.cons_append, List.cons_append, List.append_assoc, List.singleton_append]

theorem Head.meet_guarded {k : Keyword} (h : Head k) (held : Expr) :
    Reader.meet ⟨Goal.guarded k ++ gs, held, d⟩ (h.left.token :: (h.condition.tokens ++ h.right.token :: rest)) =
      Reader.meet ⟨Goal.block ++ gs, held, d⟩ rest := by
  rw [Goal.guarded, List.cons_append, Reader.meet_mark h.left.kind_eq, List.append_assoc, List.cons_append]
  exact Reader.meet_condition h.condition h.right rfl _ held d rest

theorem Condition.meet_printed (c : Condition) (right : Leaf (.kind .rightParen)) {held : Expr} :
    d.Leads c.mention
      (Reader.meet ⟨.printed :: .factors .checked :: .terms .checked :: .comparison :: .mark .closeExpression :: gs, held, d⟩
        (c.tokens ++ right.token :: rest))
      fun d' => Reader.meet ⟨gs, held, d'⟩ rest := by
  obtain ⟨t, ts, ht⟩ := List.exists_cons_of_ne_nil (l := c.tokens) (by simp [Condition.tokens, c.arith.tokens_ne_nil])
  have hm : c.mention = t.mention := by rw [Condition.mention, ht]
  have hc := fun d' => Reader.meet_condition c right (m := .closeExpression) rfl gs held d' rest
  rw [ht, List.cons_append] at hc ⊢
  rw [hm]
  exact Reader.meet_printed.congr hc

theorem Arith.meet_assigned (a : Arith .lowered) (endMark : Leaf (.kind .semicolon)) {x : String} {held : Expr} :
    d.Leads [.assign x a.expr]
      (Reader.meet ⟨Goal.arithmetic .lowered ++ .assigned x :: gs, held, d⟩ (a.tokens ++ endMark.token :: rest))
      fun d' => Reader.meet ⟨gs, default, d'⟩ rest := by
  have ho : ∀ b, ∀ t ∈ (endMark.token :: rest).head?, Goal.operator? b t = none := fun b => by
    simp [Goal.operator?_of_kind, endMark.kind_eq]
  rw [Reader.meet_arith a _ _ _ _ (ho true), Reader.meet_further false (ho false)]
  exact Reader.meet_event (by rw [Goal.read, if_pos endMark.kind_eq]; rfl)

theorem Arith.meet_assignment (a : Arith .lowered) (target : Leaf (.kind .identifier)) (sign : Leaf (.kind .assign))
    (endMark : Leaf (.kind .semicolon)) {gs' : List Goal} {held : Expr}
    (hread : Goal.read held target.token gs' =
      .take (.mark .assign :: (Goal.arithmetic .lowered ++ .assigned target.token.lexeme :: gs)) held
        (some (.mention target.token.lexeme))) :
    d.Leads [.mention target.token.lexeme, .assign target.token.lexeme a.expr]
      (Reader.meet ⟨gs', held, d⟩ (target.token :: sign.token :: (a.tokens ++ endMark.token :: rest)))
      fun d' => Reader.meet ⟨gs, default, d'⟩ rest := by
  have htarget : d.Leads [.mention target.token.lexeme]
      (Reader.meet ⟨gs', held, d⟩ (target.token :: sign.token :: (a.tokens ++ endMark.token :: rest))) _ :=
    (Reader.meet_event hread).congr (fun _ => Reader.meet_mark sign.kind_eq)
  exact htarget.append (fun _ => a.meet_assigned endMark)

namespace Reader

mutual

theorem meet_statement (s : Statement) (gs : List Goal) (hg : Goal.Loops gs) (d : Draft) (rest : List Token)
    (h : ∀ t ∈ rest.head?, t.keyword? ≠ some .elseWord) :
    d.Leads s.events (meet ⟨gs, default, d⟩ (s.tokens ++ rest)) fun d' => meet ⟨gs, default, d'⟩ rest := by
  match s with
  | .declaration word name endMark =>
    have hname : Goal.read default name.token (.newName :: .mark .endDeclaration :: gs) =
        .take (.mark .endDeclaration :: gs) default (some (.declare name.token.lexeme)) := by
      rw [Goal.read, if_pos name.kind_eq]
    rw [Statement.tokens, List.cons_append, meet_word hg word rfl]
    exact (meet_event hname).congr (fun d' => meet_mark endMark.kind_eq)
  | .assignment target sign value endMark =>
    rw [Statement.tokens, List.cons_append, List.cons_append, List.append_assoc, List.singleton_append]
    exact value.meet_assignment target sign endMark (Goal.read_identifier hg default target)
  | .branch head body other =>
    have htokens : (Statement.branch head body other).tokens ++ rest =
        head.tokens ++ (body.tokens ++ (other.tokens ++ rest)) := by
      rw [Statement.tokens, List.append_assoc, List.append_assoc]
    rw [htokens, head.tokens_append, meet_word hg head.word rfl, List.append_assoc, head.meet_guarded]
    exact (meet_block body (.alternative :: gs) d _).append (fun d' => meet_other other gs d' rest h)
  | .loop head body =>
    have htokens : (Statement.loop head body).tokens ++ rest = head.tokens ++ (body.tokens ++ rest) := by
      rw [Statement.tokens, List.append_assoc]
    rw [htokens, head.tokens_append, meet_word hg head.word rfl, head.meet_guarded]
    exact meet_block body gs d rest
  | .print head endMark =>
    have htokens : (Statement.print head endMark).tokens ++ rest = head.tokens ++ endMark.token :: rest := by
      rw [Statement.tokens, List.append_assoc, List.singleton_append]
    have hend : ∀ d', meet ⟨.mark .endPrint :: gs, default, d'⟩ (endMark.token :: rest) = meet ⟨gs, default, d'⟩ rest :=
      fun _ => meet_mark endMark.kind_eq
    rw [htokens, head.tokens_append, meet_word hg head.word rfl, List.cons_append, meet_mark head.left.kind_eq]
    exact (head.condition.meet_printed head.right).congr hend

theorem meet_block (b : Block) (gs : List Goal) (d : Draft) (rest : List Token) :
    d.Leads b.events (meet ⟨Goal.block ++ gs, default, d⟩ (b.tokens ++ rest)) fun d' => meet ⟨gs, default, d'⟩ rest := by
  match b with
  | .braces left p right =>
    have hclose : ∀ d', meet ⟨.body :: gs, default, d'⟩ (right.token :: rest) = meet ⟨gs, default, d'⟩ rest :=
      fun d' => meet_take (by rw [Goal.read, if_pos right.kind_eq])
    rw [Block.tokens, List.cons_append, List.append_assoc, List.singleton_append, Goal.block, List.cons_append,
      List.singleton_append, meet_mark left.kind_eq]
    exact (meet_program p _ Goal.loops_body d _ (by simp [Token.keyword?, right.kind_eq])).congr hclose

theorem meet_other (o : Alternative) (gs : List Goal) (d : Draft) (rest : List Token)
    (h : ∀ t ∈ rest.head?, t.keyword? ≠ some .elseWord) :
    d.Leads o.events (meet ⟨.alternative :: gs, default, d⟩ (o.tokens ++ rest)) fun d' => meet ⟨gs, default, d'⟩ rest := by
  match o with
  | .absent => exact .nil (meet_alternative h)
  | .present word body =>
    rw [Alternative.tokens, List.cons_append,
      meet_take (by rw [Goal.read, if_pos (Token.keyword?_eq_some.2 word.fits)])]
    exact meet_block body gs d rest

/-- **A program is read to its end, or refused for what it says.** -/
theorem meet_program (p : Program) (gs : List Goal) (hg : Goal.Loops gs) (d : Draft) (rest : List Token)
    (h : ∀ t ∈ rest.head?, t.keyword? ≠ some .elseWord) :
    d.Leads p.events (meet ⟨gs, default, d⟩ (p.tokens ++ rest)) fun d' => meet ⟨gs, default, d'⟩ rest := by
  match p with
  | .done => exact .nil rfl
  | .next s p =>
    rw [Program.tokens, List.append_assoc]
    exact (meet_statement s gs hg d _ (p.tokens_head h)).append (fun d' => meet_program p gs hg d' rest h)

end

end Reader

end MiniLang
