import MiniLang.Proofs.Grammar.Run
/-!
# Derivations

A goal stands for the tokens of its phrases, and a stack of goals for what may still come.  A loop stands for what goes
on with a phrase read before it, so that a term or a sum grows to the right.  A token is taken only if what comes behind
it is a derivation with it in front (`derivesAll_read`), so what a reader takes until its goals are met is what they
stand for (`Reader.derivesAll_of_meet`).
-/
namespace MiniLang

variable {u : Use} {gs : List Goal} {ts : List Token}

namespace Goal

def Derives : Goal → List Token → Prop
  | statements, ts => ∃ p : Program, ts = p.tokens
  | statement, ts => ∃ s : Statement, ts = s.tokens
  | body, ts => ∃ (p : Program) (right : Leaf (.kind .rightBrace)), ts = p.tokens ++ [right.token]
  | alternative, ts => ∃ o : Alternative, ts = o.tokens
  | newName, ts => ∃ t : Leaf (.kind .identifier), ts = [t.token]
  | mark m, ts => ∃ t : Leaf (.kind m.kind), ts = [t.token]
  | printed, ts => ∃ f : Factor .checked, ts = f.tokens
  | operand u, ts => ∃ f : Factor u, ts = f.tokens
  | factors u, ts => ∀ a : Term u, ∃ a' : Term u, a.tokens ++ ts = a'.tokens
  | terms u, ts => ∀ a : Arith u, ∃ a' : Arith u, a.tokens ++ ts = a'.tokens
  | comparison, ts => ∃ c : Comparison .checked, ts = c.tokens
  | join .., ts => ts = []
  | assigned _, ts => ∃ t : Leaf (.kind .semicolon), ts = [t.token]

/-- The tokens are those of one phrase for each goal, in order. -/
def DerivesAll : List Goal → List Token → Prop
  | [], ts => ts = []
  | g :: gs, ts => ∃ us vs, ts = us ++ vs ∧ g.Derives us ∧ DerivesAll gs vs

theorem derivesAll_append {hs : List Goal} : ∀ {gs : List Goal} {ts : List Token},
    DerivesAll (gs ++ hs) ts ↔ ∃ us vs, ts = us ++ vs ∧ DerivesAll gs us ∧ DerivesAll hs vs
  | [], ts => by
    constructor
    · exact fun h => ⟨[], ts, rfl, rfl, h⟩
    · rintro ⟨_, vs, rfl, rfl, h⟩
      exact h
  | g :: gs, ts => by
    simp only [List.cons_append, DerivesAll, derivesAll_append]
    constructor
    · rintro ⟨us, _, rfl, hg, vs, ws, rfl, hgs, hhs⟩
      exact ⟨us ++ vs, ws, by rw [List.append_assoc], ⟨us, vs, rfl, hg, hgs⟩, hhs⟩
    · rintro ⟨_, ws, rfl, ⟨us, vs, rfl, hg, hgs⟩, hhs⟩
      exact ⟨us, vs ++ ws, by rw [List.append_assoc], hg, vs, ws, rfl, hgs, hhs⟩

theorem derivesAll_singleton {g : Goal} : DerivesAll [g] ts ↔ g.Derives ts := by
  simp [DerivesAll]

theorem derivesAll_mark {m : Mark} :
    DerivesAll (mark m :: gs) ts ↔ ∃ (t : Leaf (.kind m.kind)) (us : List Token), ts = t.token :: us ∧ DerivesAll gs us := by
  simp only [DerivesAll, Derives]
  constructor
  · rintro ⟨_, us, rfl, ⟨t, rfl⟩, hgs⟩
    exact ⟨t, us, rfl, hgs⟩
  · rintro ⟨t, us, rfl, hgs⟩
    exact ⟨[t.token], us, rfl, ⟨t, rfl⟩, hgs⟩

/-- Where a goal may be empty, what stands for the rest of the stack stands for the stack. -/
theorem derivesAll_skip {g : Goal} (hg : g.Derives []) (h : DerivesAll gs ts) : DerivesAll (g :: gs) ts :=
  ⟨[], ts, rfl, hg, h⟩

/-! ## The goals of one phrase -/

theorem DerivesAll.exists_arith (h : DerivesAll (arithmetic u) ts) : ∃ a : Arith u, ts = a.tokens := by
  obtain ⟨_, _, rfl, ⟨f, rfl⟩, _, ws, rfl, hfactors, hterms⟩ := h
  -- the loops go on with what was read before them: the factor as a term, that term as a sum
  obtain ⟨a, ha⟩ := hfactors (.factor f)
  obtain ⟨a', ha'⟩ := derivesAll_singleton.1 hterms (.term a)
  refine ⟨a', ?_⟩
  rw [← ha', Arith.tokens, ← ha, Term.tokens, List.append_assoc]

theorem DerivesAll.exists_condition (h : DerivesAll condition ts) : ∃ c : Condition, ts = c.tokens := by
  obtain ⟨us, vs, rfl, ha, hc⟩ := derivesAll_append.1 h
  obtain ⟨a, rfl⟩ := ha.exists_arith
  obtain ⟨c, rfl⟩ := derivesAll_singleton.1 hc
  exact ⟨⟨a, c⟩, rfl⟩

theorem DerivesAll.exists_factor (left : Leaf (.kind .leftParen)) (h : DerivesAll (parenthesised u) ts) :
    ∃ f : Factor u, left.token :: ts = f.tokens := by
  have hsplit : ∃ (a : Arith u) (c : Comparison u) (right : Leaf (.kind .rightParen)),
      ts = a.tokens ++ (c.tokens ++ [right.token]) := by
    cases u with
    | checked =>
      obtain ⟨_, _, rfl, hc, hright⟩ := derivesAll_append.1 h
      obtain ⟨c, rfl⟩ := hc.exists_condition
      obtain ⟨right, rfl⟩ := derivesAll_singleton.1 hright
      exact ⟨c.arith, c.comparison, right, by rw [Condition.tokens, List.append_assoc]⟩
    | lowered =>
      obtain ⟨_, _, rfl, ha, hright⟩ := derivesAll_append.1 h
      obtain ⟨a, rfl⟩ := ha.exists_arith
      obtain ⟨right, rfl⟩ := derivesAll_singleton.1 hright
      exact ⟨a, .absent, right, rfl⟩
  obtain ⟨a, c, right, rfl⟩ := hsplit
  exact ⟨.group left a c right, rfl⟩

theorem DerivesAll.exists_block (h : DerivesAll block ts) : ∃ b : Block, ts = b.tokens := by
  obtain ⟨left, us, rfl, hbody⟩ := derivesAll_mark.1 h
  obtain ⟨p, right, rfl⟩ := derivesAll_singleton.1 hbody
  exact ⟨.braces left p right, rfl⟩

theorem DerivesAll.exists_head {k : Keyword} (word : Leaf (.keyword k)) (h : DerivesAll (guarded k) ts) :
    ∃ (head : Head k) (b : Block), word.token :: ts = head.tokens ++ b.tokens := by
  obtain ⟨left, us, rfl, hrest⟩ := derivesAll_mark.1 h
  obtain ⟨_, _, rfl, hc, hclose⟩ := derivesAll_append.1 hrest
  obtain ⟨c, rfl⟩ := hc.exists_condition
  obtain ⟨right, vs, rfl, hb⟩ := derivesAll_mark.1 hclose
  obtain ⟨b, rfl⟩ := hb.exists_block
  exact ⟨⟨word, left, c, right⟩, b, by simp [Head.tokens]⟩

theorem DerivesAll.exists_print (word : Leaf (.keyword .printWord))
    (h : DerivesAll (mark (.openHead .printWord) :: printed :: factors .checked :: terms .checked :: comparison ::
      [mark .closeExpression, mark .endPrint]) ts) : ∃ s : Statement, word.token :: ts = s.tokens := by
  obtain ⟨left, us, rfl, hrest⟩ := derivesAll_mark.1 h
  -- the first operand is one, whether its name is looked up or not
  have hcondition : DerivesAll (condition ++ [mark .closeExpression, mark .endPrint]) us := hrest
  obtain ⟨_, _, rfl, hc, hclose⟩ := derivesAll_append.1 hcondition
  obtain ⟨c, rfl⟩ := hc.exists_condition
  obtain ⟨right, vs, rfl, hend⟩ := derivesAll_mark.1 hclose
  obtain ⟨endMark, rfl⟩ := derivesAll_singleton.1 hend
  exact ⟨.print ⟨word, left, c, right⟩ endMark, by simp [Statement.tokens, Head.tokens]⟩

theorem derivesAll_opened {t : Token} {opened : List Goal} {event : Option Event} (ho : Opens t opened event)
    (h : DerivesAll opened ts) : ∃ s : Statement, t :: ts = s.tokens := by
  cases ho with
  | assignment hk =>
    obtain ⟨sign, us, rfl, hrest⟩ := derivesAll_mark.1 h
    obtain ⟨_, _, rfl, ha, hend⟩ := derivesAll_append.1 hrest
    obtain ⟨a, rfl⟩ := ha.exists_arith
    obtain ⟨endMark, rfl⟩ := derivesAll_singleton.1 hend
    exact ⟨.assignment ⟨t, hk⟩ sign a endMark, rfl⟩
  | declaration hw =>
    obtain ⟨_, us, rfl, ⟨name, rfl⟩, hend⟩ := h
    obtain ⟨endMark, rfl⟩ := derivesAll_singleton.1 hend
    exact ⟨.declaration ⟨t, Token.keyword?_eq_some.1 hw⟩ name endMark, rfl⟩
  | branch hw =>
    let word : Leaf (.keyword .ifWord) := ⟨t, Token.keyword?_eq_some.1 hw⟩
    obtain ⟨us, _, rfl, hguarded, ho⟩ := derivesAll_append.1 h
    obtain ⟨o, rfl⟩ := derivesAll_singleton.1 ho
    obtain ⟨head, b, hhead⟩ := hguarded.exists_head word
    refine ⟨.branch head b o, ?_⟩
    rw [Statement.tokens, ← List.append_assoc, ← hhead]
    rfl
  | loop hw =>
    let word : Leaf (.keyword .whileWord) := ⟨t, Token.keyword?_eq_some.1 hw⟩
    obtain ⟨head, b, hhead⟩ := h.exists_head word
    exact ⟨.loop head b, hhead⟩
  | print hw => exact h.exists_print ⟨t, Token.keyword?_eq_some.1 hw⟩

/-! ## One token -/

/-- What is derived behind the token is derived with it in front before. -/
def Prepends (t : Token) (gs : List Goal) : Move → Prop
  | .take gs' _ _ => ∀ ts, DerivesAll gs' ts → DerivesAll gs (t :: ts)
  | .pass _ | .refuse _ => True

theorem prepends_enter {gs gs' : List Goal}
    (h : ∀ (s : Statement) (ts : List Token), DerivesAll gs ts → DerivesAll gs' (s.tokens ++ ts)) (held : Expr)
    (t : Token) : Prepends t gs' (enter gs held t) := by
  unfold enter
  split
  · next opened event ho =>
    intro ts hts
    obtain ⟨us, vs, rfl, hopened, hgs⟩ := derivesAll_append.1 hts
    obtain ⟨s, hs⟩ := derivesAll_opened (opens_of_openStatement ho) hopened
    rw [← List.cons_append, hs]
    exact h s vs hgs
  · trivial

theorem prepends_enterOperand {gs' : List Goal}
    (h : ∀ (f : Factor u) (ts : List Token), DerivesAll gs ts → DerivesAll gs' (f.tokens ++ ts)) (held : Expr)
    (t : Token) : Prepends t gs' (enterOperand u gs held t) := by
  unfold enterOperand
  split
  · next hk => exact fun ts hts => h (.number ⟨t, hk⟩) ts hts
  · next hk => exact fun ts hts => h (.name ⟨t, hk⟩) ts hts
  · next hk =>
    intro ts hts
    obtain ⟨us, vs, rfl, hus, hgs⟩ := derivesAll_append.1 hts
    obtain ⟨f, hf⟩ := hus.exists_factor ⟨t, hk⟩
    rw [← List.cons_append, hf]
    exact h f vs hgs
  · trivial

theorem derivesAll_joins {op : Op} {l : Expr} : DerivesAll (joins u op l ++ gs) ts ↔ DerivesAll gs ts := by
  cases u with
  | checked => rfl
  | lowered =>
    constructor
    · rintro ⟨_, vs, rfl, rfl, h⟩
      exact h
    · exact derivesAll_skip rfl

theorem prepends_factors {t : Token} {op : Op} {l held : Expr} (h : operator? true t = some op) :
    Prepends t (factors u :: gs) (.take (operand u :: (joins u op l ++ factors u :: gs)) held none) := by
  rintro _ ⟨_, _, rfl, ⟨f, rfl⟩, hrest⟩
  obtain ⟨us, vs, rfl, hfactors, hgs⟩ := derivesAll_joins.1 hrest
  obtain ⟨hfit, hbinds⟩ := operator?_eq_some.1 h
  refine ⟨t :: (f.tokens ++ us), vs, by simp, fun a => ?_, hgs⟩
  obtain ⟨a', ha'⟩ := hfactors (.times a op hbinds ⟨t, hfit⟩ f)
  refine ⟨a', ?_⟩
  rw [← ha', Term.tokens, List.append_assoc, List.cons_append]

theorem prepends_terms {t : Token} {op : Op} {l held : Expr} (h : operator? false t = some op) :
    Prepends t (terms u :: gs) (.take (operand u :: factors u :: (joins u op l ++ terms u :: gs)) held none) := by
  rintro _ ⟨_, _, rfl, ⟨f, rfl⟩, us, _, rfl, hfactors, hrest⟩
  obtain ⟨vs, ws, rfl, hterms, hgs⟩ := derivesAll_joins.1 hrest
  obtain ⟨hfit, hbinds⟩ := operator?_eq_some.1 h
  obtain ⟨b, hb⟩ := hfactors (.factor f)
  refine ⟨t :: (b.tokens ++ vs), ws, by simp [← hb, Term.tokens], fun a => ?_, hgs⟩
  obtain ⟨a', ha'⟩ := hterms (.plus a op hbinds ⟨t, hfit⟩ b)
  refine ⟨a', ?_⟩
  rw [← ha', Arith.tokens, List.append_assoc, List.cons_append]

theorem Prepends.skip {t : Token} {g : Goal} {m : Move} (hg : g.Derives []) (h : Prepends t gs m) :
    Prepends t (g :: gs) m := by
  cases m with
  | take gs' held event => exact fun ts hts => derivesAll_skip hg (h ts hts)
  | pass held => trivial
  | refuse wanted => trivial

/-! ### Goal by goal

A goal that may be empty and does not take the token leaves it to the goals below, and then stands for no tokens.
-/

section

variable {held : Expr} {t : Token}

theorem prepends_statements (held : Expr) (t : Token) :
    Prepends t (statements :: gs) (enter (statements :: gs) held t) := by
  refine prepends_enter ?_ held t
  rintro s _ ⟨_, vs, rfl, ⟨p, rfl⟩, hgs⟩
  exact ⟨(Program.next s p).tokens, vs, by rw [Program.tokens, List.append_assoc], ⟨_, rfl⟩, hgs⟩

theorem prepends_statement (held : Expr) (t : Token) : Prepends t (statement :: gs) (enter gs held t) := by
  refine prepends_enter ?_ held t
  exact fun s ts hts => ⟨s.tokens, ts, rfl, ⟨s, rfl⟩, hts⟩

theorem prepends_body (held : Expr) (t : Token) : Prepends t (body :: gs) (read held t (body :: gs)) := by
  rw [read]
  split
  · next hk => exact fun ts hts => ⟨[t], ts, rfl, ⟨.done, ⟨t, hk⟩, rfl⟩, hts⟩
  · refine prepends_enter ?_ held t
    rintro s _ ⟨_, vs, rfl, ⟨p, right, rfl⟩, hgs⟩
    exact ⟨(Program.next s p).tokens ++ [right.token], vs, by simp [Program.tokens], ⟨_, right, rfl⟩, hgs⟩

theorem prepends_alternative (hrest : Prepends t gs (read held t gs)) :
    Prepends t (alternative :: gs) (read held t (alternative :: gs)) := by
  rw [read]
  split
  · next hw =>
    intro ts hts
    obtain ⟨us, vs, rfl, hb, hgs⟩ := derivesAll_append.1 hts
    obtain ⟨b, rfl⟩ := hb.exists_block
    exact ⟨t :: b.tokens, vs, rfl, ⟨.present ⟨t, Token.keyword?_eq_some.1 hw⟩ b, rfl⟩, hgs⟩
  · exact hrest.skip ⟨.absent, rfl⟩

theorem prepends_newName (held : Expr) (t : Token) : Prepends t (newName :: gs) (read held t (newName :: gs)) := by
  rw [read]
  split
  · next hk => exact fun ts hts => ⟨[t], ts, rfl, ⟨⟨t, hk⟩, rfl⟩, hts⟩
  · trivial

theorem prepends_mark (m : Mark) (held : Expr) (t : Token) : Prepends t (mark m :: gs) (read held t (mark m :: gs)) := by
  rw [read]
  split
  · next hk => exact fun ts hts => derivesAll_mark.2 ⟨⟨t, hk⟩, ts, rfl, hts⟩
  · trivial

theorem prepends_operand (u : Use) (held : Expr) (t : Token) :
    Prepends t (operand u :: gs) (enterOperand u gs held t) := by
  refine prepends_enterOperand ?_ held t
  exact fun f ts hts => ⟨f.tokens, ts, rfl, ⟨f, rfl⟩, hts⟩

theorem prepends_printed (held : Expr) (t : Token) : Prepends t (printed :: gs) (read held t (printed :: gs)) := by
  rw [read]
  split
  · next hk => exact fun ts hts => ⟨[t], ts, rfl, ⟨.name ⟨t, hk⟩, rfl⟩, hts⟩
  · exact prepends_operand .checked held t

theorem derives_further_nil : ∀ m : Bool, (further m u).Derives []
  | true => fun a => ⟨a, List.append_nil _⟩
  | false => fun a => ⟨a, List.append_nil _⟩

theorem prepends_further (m : Bool) (hrest : Prepends t gs (read held t gs)) :
    Prepends t (further m u :: gs) (read held t (further m u :: gs)) := by
  cases hop : operator? m t with
  | none =>
    rw [read_further_none hop]
    exact hrest.skip (derives_further_nil m)
  | some op =>
    rw [read_further hop]
    cases m with
    | true => exact prepends_factors hop
    | false => exact prepends_terms hop

theorem prepends_comparison (hrest : Prepends t gs (read held t gs)) :
    Prepends t (comparison :: gs) (read held t (comparison :: gs)) := by
  rw [read]
  split
  · next hk =>
    intro ts hts
    obtain ⟨us, vs, rfl, ha, hgs⟩ := derivesAll_append.1 hts
    obtain ⟨a, rfl⟩ := ha.exists_arith
    exact ⟨t :: a.tokens, vs, rfl, ⟨.present rfl ⟨t, hk⟩ a, rfl⟩, hgs⟩
  · exact hrest.skip ⟨.absent, rfl⟩

theorem prepends_assigned (x : String) (held : Expr) (t : Token) :
    Prepends t (assigned x :: gs) (read held t (assigned x :: gs)) := by
  rw [read]
  split
  · next hk => exact fun ts hts => ⟨[t], ts, rfl, ⟨⟨t, hk⟩, rfl⟩, hts⟩
  · trivial

end

/-- **A token that is taken starts what the stack stood for**, whatever is derived behind it. -/
theorem prepends_read (t : Token) : ∀ (gs : List Goal) (held : Expr), Prepends t gs (read held t gs)
  | [], _ => trivial
  | statements :: _, held => prepends_statements held t
  | statement :: _, held => prepends_statement held t
  | body :: _, held => prepends_body held t
  | alternative :: gs, held => prepends_alternative (prepends_read t gs held)
  | newName :: _, held => prepends_newName held t
  | mark m :: _, held => prepends_mark m held t
  | printed :: _, held => prepends_printed held t
  | operand u :: _, held => prepends_operand u held t
  | factors _ :: gs, held => prepends_further true (prepends_read t gs held)
  | terms _ :: gs, held => prepends_further false (prepends_read t gs held)
  | comparison :: gs, held => prepends_comparison (prepends_read t gs held)
  | join op left :: gs, held => (prepends_read t gs (.binary op left held)).skip rfl
  | assigned x :: _, held => prepends_assigned x held t

theorem derivesAll_read {held held' : Expr} {t : Token} {gs' : List Goal} {event : Option Event}
    (hread : read held t gs = .take gs' held' event) (h : DerivesAll gs' ts) : DerivesAll gs (t :: ts) := by
  have hprepends := prepends_read t gs held
  rw [hread] at hprepends
  exact hprepends ts h

/-- Goals that call for nothing more at the end of the text stand for no tokens. -/
theorem derivesAll_nil_of_close {e : Expr} : ∀ {gs : List Goal} {held : Expr}, close held gs = .ok e → DerivesAll gs []
  | [], _, _ => rfl
  | statements :: _, _, h => derivesAll_skip ⟨.done, rfl⟩ (derivesAll_nil_of_close h)
  | alternative :: _, _, h => derivesAll_skip ⟨.absent, rfl⟩ (derivesAll_nil_of_close h)
  | factors _ :: _, _, h => derivesAll_skip (derives_further_nil true) (derivesAll_nil_of_close h)
  | terms _ :: _, _, h => derivesAll_skip (derives_further_nil false) (derivesAll_nil_of_close h)
  | comparison :: _, _, h => derivesAll_skip ⟨.absent, rfl⟩ (derivesAll_nil_of_close h)
  | join .. :: _, _, h => derivesAll_skip rfl (derivesAll_nil_of_close h)
  | statement :: _, _, h | body :: _, _, h | newName :: _, _, h | mark _ :: _, _, h | printed :: _, _, h
  | operand _ :: _, _, h | assigned _ :: _, _, h => by cases h

end Goal

namespace Reader

theorem Reads.derivesAll {r r' : Reader} {us : List Token} (h : Reads r us r') (hd : Goal.DerivesAll r'.goals ts) :
    Goal.DerivesAll r.goals (us ++ ts) := by
  induction h with
  | nil => exact hd
  | cons hread _ _ ih => exact Goal.derivesAll_read hread (ih hd)

/-- **What meets the goals is what they stand for.** -/
theorem derivesAll_of_meet {R : Reader × List Token} {ts : List Token} {r : Reader} (hg : Goal.Grounded r.goals)
    (h : r.meet ts = .ok R) : Goal.DerivesAll r.goals ts := by
  obtain ⟨r', held, hreads, hclose, -⟩ := meet_ok hg h
  have hall := hreads.derivesAll (Goal.derivesAll_nil_of_close hclose)
  rwa [List.append_nil] at hall

end Reader

end MiniLang
