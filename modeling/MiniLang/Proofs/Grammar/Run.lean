import MiniLang.Proofs.Grammar.Statement
/-!
# Runs of a reader

A reader takes tokens one by one.  Either its goals are met, and what is left of them is left behind (`reads_of_meet`);
or it fails, at the end of the text or at a token that it refuses, and what it did before depends on nothing that follows
(`meet_error`).  The goal at the bottom of its stack, statements to the end of the text, is never left behind
(`Reads.grounded`).
-/
namespace MiniLang

namespace Goal

/-- A stack with the statements of the text at the bottom and nowhere else. -/
inductive Grounded : List Goal → Prop where
  | floor : Grounded [statements]
  | above {g : Goal} {gs : List Goal} (hg : g ≠ statements) (h : Grounded gs) : Grounded (g :: gs)

theorem Grounded.append {gs : List Goal} (h : Grounded gs) : ∀ {new : List Goal}, statements ∉ new → Grounded (new ++ gs)
  | [], _ => h
  | g :: new, hn => by
    rw [List.mem_cons, not_or] at hn
    exact .above (Ne.symm hn.1) (h.append hn.2)

/-- What the token opens, for each statement that it may start. -/
inductive Opens (t : Token) : List Goal → Option Event → Prop where
  | assignment (hk : t.kind = .identifier) :
      Opens t (mark .assign :: (arithmetic .lowered ++ [assigned t.lexeme])) (some (.mention t.lexeme))
  | declaration (hw : t.keyword? = some .intWord) : Opens t [newName, mark .endDeclaration] none
  | branch (hw : t.keyword? = some .ifWord) : Opens t (guarded .ifWord ++ [alternative]) none
  | loop (hw : t.keyword? = some .whileWord) : Opens t (guarded .whileWord) none
  | print (hw : t.keyword? = some .printWord) :
      Opens t (mark (.openHead .printWord) :: printed :: factors .checked :: terms .checked :: comparison ::
        [mark .closeExpression, mark .endPrint]) none

theorem opens_of_openStatement {t : Token} {opened : List Goal} {event : Option Event}
    (h : openStatement t = .ok (opened, event)) : Opens t opened event := by
  unfold openStatement at h
  split at h
  · next hk =>
    rw [openAssignment, if_pos hk] at h
    cases h
    exact .assignment hk
  · split at h
    · next hw =>
      cases h
      exact .declaration hw
    · next hw =>
      cases h
      exact .branch hw
    · next hw =>
      cases h
      exact .loop hw
    · next hw =>
      cases h
      exact .print hw
    · cases h
  · cases h

theorem Opens.not_statements {t : Token} {opened : List Goal} {event : Option Event} (h : Opens t opened event) :
    statements ∉ opened := by
  cases h with
  | assignment => simp [arithmetic]
  | declaration => simp
  | branch => simp [guarded, condition, arithmetic, block]
  | loop => simp [guarded, condition, arithmetic, block]
  | print => simp

def Keeps : Move → Prop
  | .take gs _ _ => Grounded gs
  | .pass _ => False
  | .refuse _ => True

theorem keeps_enter {gs : List Goal} (h : Grounded gs) (held : Expr) (t : Token) : Keeps (enter gs held t) := by
  unfold enter
  split
  · next opened event ho => exact h.append (opens_of_openStatement ho).not_statements
  · trivial

theorem keeps_enterOperand {gs : List Goal} (h : Grounded gs) (u : Use) (held : Expr) (t : Token) :
    Keeps (enterOperand u gs held t) := by
  unfold enterOperand
  split
  · exact h
  · exact h
  · refine h.append ?_
    cases u <;> simp [parenthesised, condition, arithmetic]
  · trivial

/-- **A token is taken or refused** on a grounded stack, and the stack stays grounded. -/
theorem Grounded.keeps_read {gs : List Goal} (h : Grounded gs) (t : Token) : ∀ held, Keeps (read held t gs) := by
  have hjoins : ∀ u op l, statements ∉ joins u op l := fun u op l => by cases u <;> simp [joins]
  induction h with
  | floor => exact fun held => keeps_enter .floor held t
  | @above g gs hg h ih =>
    intro held
    cases g with
    | statements => exact absurd rfl hg
    | statement => exact keeps_enter h held t
    | body =>
      rw [read]
      split
      · exact h
      · exact keeps_enter (.above hg h) held t
    | alternative | comparison =>
      rw [read]
      split
      · exact h.append (by simp [block, arithmetic])
      · exact ih held
    | newName | mark m | assigned x =>
      rw [read]
      split
      · exact h
      · trivial
    | printed =>
      rw [read]
      split
      · exact h
      · exact keeps_enterOperand h .checked held t
    | operand u => exact keeps_enterOperand h u held t
    | factors u =>
      rw [read]
      split
      · exact .above (by simp) (Grounded.append (.above (by simp) h) (hjoins _ _ _))
      · exact ih held
    | terms u =>
      rw [read]
      split
      · exact .above (by simp) (.above (by simp) (Grounded.append (.above (by simp) h) (hjoins _ _ _)))
      · exact ih held
    | join op left => exact ih (.binary op left held)

end Goal

namespace Reader

/-- The reader that is left where tokens are taken and none is refused. -/
inductive Reads : Reader → List Token → Reader → Prop where
  | nil {r : Reader} : Reads r [] r
  | cons {r r' : Reader} {t : Token} {ts : List Token} {gs : List Goal} {held : Expr} {event : Option Event} {d : Draft}
      (hread : Goal.read r.held t r.goals = .take gs held event) (hnote : r.draft.noteAny event = .ok d)
      (h : Reads ⟨gs, held, d⟩ ts r') : Reads r (t :: ts) r'

/-- What is wrong with a token that a reader comes to. -/
inductive Refuses : Reader → Token → Fault → Prop where
  | unexpected {r : Reader} {t : Token} {wanted : Expected} (hread : Goal.read r.held t r.goals = .refuse wanted) :
      Refuses r t (.expected wanted)
  | unnoted {r : Reader} {t : Token} {gs : List Goal} {held : Expr} {event : Option Event} {fault : Fault}
      (hread : Goal.read r.held t r.goals = .take gs held event) (hnote : r.draft.noteAny event = .error fault) :
      Refuses r t fault

variable {r r' : Reader} {t : Token} {ts : List Token} {e : Refusal} {fault : Fault}

theorem Reads.meet_append (h : Reads r ts r') (more : List Token) : r.meet (ts ++ more) = r'.meet more := by
  induction h with
  | nil => rfl
  | cons hread hnote _ ih => simp only [List.cons_append, meet, hread, hnote, ih]

theorem Reads.append {r'' : Reader} {us : List Token} (h : Reads r ts r') (h' : Reads r' us r'') :
    Reads r (ts ++ us) r'' := by
  induction h with
  | nil => exact h'
  | cons hread hnote _ ih => exact .cons hread hnote (ih h')

theorem Refuses.meet_cons (h : Refuses r t fault) (rest : List Token) :
    r.meet (t :: rest) = .error ⟨fault, some t⟩ := by
  cases h with
  | unexpected hread => rw [meet, hread]
  | unnoted hread hnote => simp only [meet, hread, hnote]

/-- **How a reader fails**: at the end of the text, of which its goals call for more, or at the first token that it
refuses. -/
theorem meet_error : ∀ {ts : List Token} {r : Reader}, r.meet ts = .error e →
    (∃ r' wanted, Reads r ts r' ∧ Goal.close r'.held r'.goals = .error wanted ∧ e = ⟨.expected wanted, none⟩) ∨
      ∃ pre t post r' fault, ts = pre ++ t :: post ∧ Reads r pre r' ∧ Refuses r' t fault ∧ e = ⟨fault, some t⟩
  | [], r, h => by
    rw [meet] at h
    cases hc : Goal.close r.held r.goals with
    | ok held => simp [hc] at h
    | error wanted =>
      simp only [hc, Except.error.injEq] at h
      exact .inl ⟨r, wanted, .nil, hc, h.symm⟩
  | t :: ts, r, h => by
    rw [meet] at h
    cases hread : Goal.read r.held t r.goals with
    | pass held => simp [hread] at h
    | refuse wanted =>
      simp only [hread, Except.error.injEq] at h
      exact .inr ⟨[], t, ts, r, _, rfl, .nil, .unexpected hread, h.symm⟩
    | take gs held event =>
      cases hnote : r.draft.noteAny event with
      | error fault =>
        simp only [hread, hnote, Except.error.injEq] at h
        exact .inr ⟨[], t, ts, r, fault, rfl, .nil, .unnoted hread hnote, h.symm⟩
      | ok d =>
        simp only [hread, hnote] at h
        rcases meet_error h with ⟨r', wanted, hr, hc, he⟩ | ⟨pre, t', post, r', fault, hts, hr, hf, he⟩
        · exact .inl ⟨r', wanted, .cons hread hnote hr, hc, he⟩
        · exact .inr ⟨t :: pre, t', post, r', fault, by rw [hts]; rfl, .cons hread hnote hr, hf, he⟩

theorem Reads.grounded (h : Reads r ts r') (hr : Goal.Grounded r.goals) : Goal.Grounded r'.goals := by
  induction h with
  | nil => exact hr
  | @cons r _ t _ _ _ _ _ hread _ _ ih =>
    have hk := hr.keeps_read t r.held
    rw [hread] at hk
    exact ih hk

/-- The reader stands where its goals are met: what is left of them is left behind. -/
inductive Leaves : Reader → List Token → Expr → Prop where
  | atEnd {r : Reader} {held : Expr} (hclose : Goal.close r.held r.goals = .ok held) : Leaves r [] held
  | atToken {r : Reader} {held : Expr} {t : Token} {ts : List Token} (hread : Goal.read r.held t r.goals = .pass held) :
      Leaves r (t :: ts) held

/-- **How goals are met**: some tokens are taken, and at what is left the goals may be left behind. -/
theorem reads_of_meet {R : Reader × List Token} : ∀ {ts : List Token} {r : Reader}, r.meet ts = .ok R →
    ∃ taken r' held, ts = taken ++ R.2 ∧ Reads r taken r' ∧ Leaves r' R.2 held ∧ R.1 = ⟨[], held, r'.draft⟩
  | [], r, h => by
    rw [meet] at h
    cases hclose : Goal.close r.held r.goals with
    | error wanted => simp [hclose] at h
    | ok held =>
      simp only [hclose, Except.ok.injEq] at h
      subst h
      exact ⟨[], r, held, rfl, .nil, .atEnd hclose, rfl⟩
  | t :: ts, r, h => by
    rw [meet] at h
    cases hread : Goal.read r.held t r.goals with
    | refuse wanted => simp [hread] at h
    | pass held =>
      simp only [hread, Except.ok.injEq] at h
      subst h
      exact ⟨[], r, held, rfl, .nil, .atToken hread, rfl⟩
    | take gs held event =>
      cases hnote : r.draft.noteAny event with
      | error fault => simp [hread, hnote] at h
      | ok d =>
        simp only [hread, hnote] at h
        obtain ⟨taken, r', held', hts, hreads, hleaves, hR⟩ := reads_of_meet h
        exact ⟨t :: taken, r', held', congrArg (t :: ·) hts, .cons hread hnote hreads, hleaves, hR⟩

/-- **How a reader succeeds** above the statements of the text: it takes every token, and its goals call for no more. -/
theorem meet_ok {R : Reader × List Token} {ts : List Token} {r : Reader} (hr : Goal.Grounded r.goals)
    (h : r.meet ts = .ok R) :
    ∃ r' held, Reads r ts r' ∧ Goal.close r'.held r'.goals = .ok held ∧ R = (⟨[], held, r'.draft⟩, []) := by
  obtain ⟨R, rest⟩ := R
  obtain ⟨taken, r', held, rfl, hreads, hleaves, rfl⟩ := reads_of_meet h
  cases hleaves with
  | atEnd hclose =>
    rw [List.append_nil]
    exact ⟨r', held, hreads, hclose, rfl⟩
  | @atToken _ t _ hread =>
    -- no token is left behind, for the statements of the text go on to its end
    have hkeeps := (hreads.grounded hr).keeps_read t r'.held
    rw [hread] at hkeeps
    exact hkeeps.elim

end Reader

theorem analyze_eq_ok {ts : List Token} {a : Analysis} :
    analyze ts = .ok a ↔ ∃ R, Reader.start.meet ts = .ok R ∧ a = ⟨R.1.draft.declared, R.1.draft.builder.code⟩ := by
  unfold analyze
  cases Reader.start.meet ts with
  | error e => simp [Except.map]
  | ok R => simp [Except.map, eq_comm]

theorem analyze_eq_error {ts : List Token} {e : Refusal} : analyze ts = .error e ↔ Reader.start.meet ts = .error e := by
  unfold analyze
  cases Reader.start.meet ts <;> simp [Except.map]

/-- A text is accepted if every token is taken and the goals that are left call for no more. -/
theorem analyze_eq_ok_iff_reads {ts : List Token} {a : Analysis} : analyze ts = .ok a ↔
    ∃ r held, Reader.start.Reads ts r ∧ Goal.close r.held r.goals = .ok held ∧
      a = ⟨r.draft.declared, r.draft.builder.code⟩ := by
  rw [analyze_eq_ok]
  constructor
  · rintro ⟨R, hR, rfl⟩
    obtain ⟨r, held, hr, hclose, rfl⟩ := Reader.meet_ok .floor hR
    exact ⟨r, held, hr, hclose, rfl⟩
  · rintro ⟨r, held, hr, hclose, rfl⟩
    refine ⟨(⟨[], held, r.draft⟩, []), ?_, rfl⟩
    rw [← List.append_nil ts, hr.meet_append, Reader.meet, hclose]

theorem Reader.Reads.analyze_end {ts : List Token} {r : Reader} {wanted : Expected} (hr : start.Reads ts r)
    (hclose : Goal.close r.held r.goals = .error wanted) : analyze ts = .error ⟨.expected wanted, none⟩ := by
  rw [analyze_eq_error, ← List.append_nil ts, hr.meet_append, meet, hclose]

end MiniLang
