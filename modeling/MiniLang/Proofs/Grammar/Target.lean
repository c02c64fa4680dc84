import MiniLang.Proofs.Grammar.Stage
/-!
# Targets

Which tokens of a program are the targets of its assignments: the derivation says so, and so do the tokens themselves,
for a target is a name that stands where a statement may start (`Program.targets_eq`, `targetAt_iff`).
-/
namespace MiniLang

def noTargets (ts : List Token) : List Bool := ts.map fun _ => false

mutual

def Statement.targets : Statement → List Bool
  | .declaration word name endMark => noTargets [word.token, name.token, endMark.token]
  | .assignment _ sign value endMark => true :: noTargets (sign.token :: (value.tokens ++ [endMark.token]))
  | .branch head body other => noTargets head.tokens ++ (body.targets ++ other.targets)
  | .loop head body => noTargets head.tokens ++ body.targets
  | .print head endMark => noTargets (head.tokens ++ [endMark.token])

def Block.targets : Block → List Bool
  | .braces _ p _ => false :: (p.targets ++ [false])

def Alternative.targets : Alternative → List Bool
  | .absent => []
  | .present _ body => false :: body.targets

/-- For each token, whether it is the target of an assignment. -/
def Program.targets : Program → List Bool
  | .done => []
  | .next s p => s.targets ++ p.targets

end

namespace Stage

def isTarget (s : Stage) (t : Token) : Bool := decide (s = rest ∧ t.kind = .identifier)

/-- For each token, whether it is a name that stands where a statement may start. -/
def targets : Stage → List Token → List Bool
  | _, [] => []
  | s, t :: ts => s.isTarget t :: targets (s.next t) ts

theorem targets_append {ys : List Token} : ∀ {xs : List Token} {s : Stage},
    targets s (xs ++ ys) = targets s xs ++ targets (xs.foldl next s) ys
  | [], _ => rfl
  | x :: xs, s => by rw [List.cons_append, targets, targets, targets_append, List.cons_append, List.foldl_cons]

theorem length_targets : ∀ {ts : List Token} {s : Stage}, (targets s ts).length = ts.length
  | [], _ => rfl
  | t :: ts, s => by rw [targets, List.length_cons, length_targets, List.length_cons]

theorem targets_getElem? (pre : List Token) (t : Token) (more : List Token) :
    (targets rest (pre ++ t :: more))[pre.length]? = some ((behind pre).isTarget t) := by
  rw [targets_append, List.getElem?_append_right (Nat.le_of_eq length_targets), length_targets, Nat.sub_self]
  rfl

end Stage

/-- Where a mark that ends something leads, from every stage. -/
def Stage.closed? : Kind → Option Stage
  | .semicolon | .rightBrace => some .rest
  | .rightParen => some .inner
  | _ => none

/-- From one stage to another, with these of the tokens as targets. -/
structure Marks (s : Stage) (ts : List Token) (bs : List Bool) (s' : Stage) : Prop where
  stage : ts.foldl Stage.next s = s'
  targets : s.targets ts = bs

namespace Marks

variable {s s' s'' : Stage} {t : Token} {ts us : List Token} {b : Bool} {bs cs : List Bool}

theorem nil : Marks s [] [] s := ⟨rfl, rfl⟩

theorem cons (hnext : s.next t = s') (hb : s.isTarget t = b) (h : Marks s' ts bs s'') : Marks s (t :: ts) (b :: bs) s'' := by
  subst hnext hb
  exact ⟨h.stage, by rw [Stage.targets, h.targets]⟩

theorem append (h : Marks s ts bs s') (h' : Marks s' us cs s'') : Marks s (ts ++ us) (bs ++ cs) s'' := by
  obtain ⟨rfl, rfl⟩ := h
  exact ⟨by rw [List.foldl_append, h'.stage], by rw [Stage.targets_append, h'.targets]⟩

/-- A token that is no name is no target. -/
theorem mark {k : Kind} (t : Leaf (.kind k)) (hk : k ≠ .identifier) (hnext : s.next t.token = s') (h : Marks s' ts bs s'') :
    Marks s (t.token :: ts) (false :: bs) s'' := by
  refine cons hnext ?_ h
  simp [Stage.isTarget, t.kind_eq, hk]

/-- A mark that ends something leads to one stage, whatever stands in front of it. -/
theorem closing {k : Kind} (t : Leaf (.kind k)) (h : Stage.closed? k = some s') :
    Marks s [t.token] (noTargets [t.token]) s' := by
  have hk : k ≠ .identifier := by
    rintro rfl
    cases h
  refine mark t hk ?_ nil
  unfold Stage.closed? at h
  split at h <;> cases h <;> rw [Stage.next, t.kind_eq]

theorem operator {op : Op} (sign : Leaf (.operator op)) (h : Marks .inner ts (noTargets ts) .inner) :
    Marks .inner (sign.token :: ts) (noTargets (sign.token :: ts)) .inner :=
  cons (by rw [Stage.next, sign.fits.1]) rfl h

end Marks

variable {u : Use}

/-- An operand starts here, or an operation goes on. -/
def Stage.Within (s : Stage) : Prop := s = .inner ∨ s = .printing

theorem Stage.Within.isTarget {s : Stage} (h : s.Within) (t : Token) : s.isTarget t = false := by
  rcases h with rfl | rfl <;> simp [Stage.isTarget]

theorem noTargets_append (ts us : List Token) : noTargets (ts ++ us) = noTargets ts ++ noTargets us := List.map_append

mutual

theorem Factor.marks {s : Stage} (hs : s.Within) : ∀ f : Factor u, Marks s f.tokens (noTargets f.tokens) .inner
  | .name t => .cons (by rw [Stage.next, t.kind_eq]) (hs.isTarget _) .nil
  | .number t => .cons (by rw [Stage.next, t.kind_eq]) (hs.isTarget _) .nil
  | .group left a c right => by
    have hleft : s.next left.token = .inner := by
      rw [Stage.next, left.kind_eq]
      rcases hs with rfl | rfl <;> rfl
    have hinner := (a.marks (.inl rfl)).append (c.marks.append (.closing right rfl))
    rw [← noTargets_append, ← noTargets_append] at hinner
    exact .cons hleft (hs.isTarget _) hinner

theorem Term.marks {s : Stage} (hs : s.Within) : ∀ a : Term u, Marks s a.tokens (noTargets a.tokens) .inner
  | .factor f => f.marks hs
  | .times a op binds sign f => by
    have h := (a.marks hs).append (.operator sign (f.marks (.inl rfl)))
    rwa [← noTargets_append] at h

theorem Arith.marks {s : Stage} (hs : s.Within) : ∀ a : Arith u, Marks s a.tokens (noTargets a.tokens) .inner
  | .term a => a.marks hs
  | .plus a op binds sign b => by
    have h := (a.marks hs).append (.operator sign (b.marks (.inl rfl)))
    rwa [← noTargets_append] at h

theorem Comparison.marks : ∀ c : Comparison u, Marks .inner c.tokens (noTargets c.tokens) .inner
  | .absent => .nil
  | .present _ sign a => .cons (by rw [Stage.next, sign.kind_eq]) rfl (a.marks (.inl rfl))

end

theorem Head.marks {k : Keyword} (h : Head k) : Marks .rest h.tokens (noTargets h.tokens) .inner := by
  have hword : Stage.rest.next h.word.token = Stage.behindWord (some k) :=
    Stage.next_word (Token.keyword?_eq_some.2 h.word.fits)
  -- the parenthesis leads on to an operand, behind `print` as behind any other word
  have hleft : ∃ s : Stage, s.Within ∧ (Stage.behindWord (some k)).next h.left.token = s := by
    rw [Stage.next, h.left.kind_eq]
    by_cases hk : Stage.behindWord (some k) = .opening
    · exact ⟨.printing, .inr rfl, if_pos hk⟩
    · exact ⟨.inner, .inl rfl, if_neg hk⟩
  obtain ⟨s, hs, hnext⟩ := hleft
  have hcondition := (h.condition.arith.marks hs).append (h.condition.comparison.marks.append (.closing h.right rfl))
  rw [← List.append_assoc, ← List.append_assoc, ← noTargets_append, ← noTargets_append] at hcondition
  exact .cons hword (by simp [Stage.isTarget, h.word.kind_keyword]) (.mark h.left (by decide) hnext hcondition)

mutual

theorem Statement.marks : ∀ s : Statement, Marks .rest s.tokens s.targets .rest
  | .declaration word name endMark => by
    have hname : Marks .naming [name.token, endMark.token] (noTargets [name.token, endMark.token]) .rest :=
      .cons (by rw [Stage.next, name.kind_eq]) rfl (.closing endMark rfl)
    exact .cons (Stage.next_word (Token.keyword?_eq_some.2 word.fits)) (by simp [Stage.isTarget, word.kind_keyword]) hname
  | .assignment target sign value endMark => by
    have hvalue := (value.marks (.inl rfl)).append (.closing endMark rfl)
    rw [← noTargets_append] at hvalue
    have htarget : Stage.rest.isTarget target.token = true := by simp [Stage.isTarget, target.kind_eq]
    exact .cons (by rw [Stage.next, target.kind_eq]) htarget
      (.mark sign (by decide) (by rw [Stage.next, sign.kind_eq]) hvalue)
  | .branch head body other => head.marks.append (body.marks.append other.marks)
  | .loop head body => head.marks.append body.marks
  | .print head endMark => by
    have h := head.marks.append (.closing endMark rfl)
    rwa [← noTargets_append] at h

theorem Block.marks {s : Stage} : ∀ b : Block, Marks s b.tokens b.targets .rest
  | .braces left p right => .mark left (by decide) (by rw [Stage.next, left.kind_eq]) (p.marks.append (.closing right rfl))

theorem Alternative.marks : ∀ o : Alternative, Marks .rest o.tokens o.targets .rest
  | .absent => .nil
  | .present word body => .cons rfl (by simp [Stage.isTarget, word.kind_keyword]) body.marks

theorem Program.marks : ∀ p : Program, Marks .rest p.tokens p.targets .rest
  | .done => .nil
  | .next s p => s.marks.append p.marks

end

theorem Program.targets_eq (p : Program) : p.targets = Stage.rest.targets p.tokens := p.marks.targets.symm

/-- The tokens start a text of the grammar, whatever is declared. -/
def Viable (ts : List Token) : Prop := ∃ p : Program, ts <+: p.tokens

/-- The token at `k` is the target of an assignment in a text of the grammar that starts with these tokens. -/
def TargetAt (ts : List Token) (k : Nat) : Prop := ∃ p : Program, ts <+: p.tokens ∧ p.targets[k]? = some true

/-- **A target is a name where a statement may start**, in every text of the grammar that starts with the tokens. -/
theorem targetAt_iff {pre : List Token} {t : Token} : TargetAt (pre ++ [t]) pre.length ↔
    Viable (pre ++ [t]) ∧ Stage.behind pre = .rest ∧ t.kind = .identifier := by
  have htargets : ∀ p : Program, pre ++ [t] <+: p.tokens →
      p.targets[pre.length]? = some ((Stage.behind pre).isTarget t) := by
    rintro p ⟨more, hp⟩
    rw [p.targets_eq, ← hp, List.append_assoc, List.singleton_append, Stage.targets_getElem?]
  constructor
  · rintro ⟨p, hp, htarget⟩
    rw [htargets p hp] at htarget
    exact ⟨⟨p, hp⟩, by simpa [Stage.isTarget] using htarget⟩
  · rintro ⟨⟨p, hp⟩, hstage, hname⟩
    refine ⟨p, hp, ?_⟩
    rw [htargets p hp]
    simp [Stage.isTarget, hstage, hname]

end MiniLang
