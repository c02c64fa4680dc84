import Mathlib.Data.Fintype.EquivFin
import MiniLang.Proofs.Grammar.Run
/-!
# Viability

Whatever a reader has taken can be completed to a text that is accepted: every goal on its stack has tokens that meet
it, and the first of them goes on with none of the goals that may be empty (`completable`).  So the first token that
makes a text hopeless is the one that is refused, and an end that comes too early is no fault of a token.
-/
namespace MiniLang

/-- Goes on with no operation, no comparison and no `if`. -/
structure Token.Neutral (t : Token) : Prop where
  operator : t.kind ≠ .operator
  comparator : t.kind ≠ .comparator
  elseWord : t.keyword? ≠ some .elseWord

theorem Token.neutral_of_kind {t : Token} (ho : t.kind ≠ .operator) (hc : t.kind ≠ .comparator)
    (hk : t.kind ≠ .keyword) : t.Neutral :=
  ⟨ho, hc, by simp [Token.keyword?, hk]⟩

theorem Mark.neutral {m : Mark} {t : Token} (h : t.kind = m.kind) : t.Neutral := by
  refine Token.neutral_of_kind ?_ ?_ ?_ <;> cases m <;> simp [h, Mark.kind]

def Kind.token (k : Kind) (lexeme : String) : Token := ⟨k, lexeme, .start⟩

theorem Kind.neutral_token {k : Kind} (lexeme : String) (ho : k ≠ .operator) (hc : k ≠ .comparator)
    (hk : k ≠ .keyword) : (k.token lexeme).Neutral :=
  Token.neutral_of_kind ho hc hk

theorem Mark.neutral_token (m : Mark) : (m.kind.token "").Neutral := Mark.neutral rfl

theorem Names.exists_not_mem (ns : Names) : ∃ x, x ∉ ns := by
  obtain ⟨x, hx⟩ := Infinite.exists_notMem_finset ns.toList.toFinset
  exact ⟨x, fun h => hx (List.mem_toFinset.2 h)⟩

namespace Reader

/-- Some tokens meet the goals, and the first of them is neutral. -/
def Completable (gs : List Goal) (held : Expr) (d : Draft) : Prop :=
  ∃ ts R, meet ⟨gs, held, d⟩ ts = .ok R ∧ ∀ t ∈ ts.head?, t.Neutral

variable {gs gs' : List Goal} {held held' : Expr} {d d' : Draft} {t : Token}

theorem Completable.skip (hmeet : ∀ ts, (∀ t ∈ ts.head?, t.Neutral) → meet ⟨gs, held, d⟩ ts = meet ⟨gs', held', d⟩ ts)
    (h : Completable gs' held' d) : Completable gs held d := by
  obtain ⟨ts, R, hR, hts⟩ := h
  exact ⟨ts, R, (hmeet ts hts).trans hR, hts⟩

theorem Completable.take (ht : t.Neutral) (hread : Goal.read held t gs = .take gs' held' none)
    (h : Completable gs' held' d) : Completable gs held d := by
  obtain ⟨ts, R, hR, -⟩ := h
  exact ⟨t :: ts, R, (meet_take hread).trans hR, by simpa using ht⟩

theorem Completable.event {event : Event} (ht : t.Neutral)
    (hread : Goal.read held t gs = .take gs' held' (some event)) (hnote : d.note event = .ok d')
    (h : Completable gs' held' d') : Completable gs held d := by
  obtain ⟨ts, R, hR, -⟩ := h
  exact ⟨t :: ts, R, (meet_event_ok hread).2 ⟨d', hnote, hR⟩, by simpa using ht⟩

theorem Completable.mark (m : Mark) (h : Completable gs held d) : Completable (.mark m :: gs) held d :=
  h.take m.neutral_token (by rw [Goal.read, if_pos (by rfl)])

theorem Completable.number (u : Use) (h : ∀ held, Completable gs held d) : Completable (.operand u :: gs) held d :=
  (h _).take (t := Kind.number.token "0") (Kind.neutral_token _ (by decide) (by decide) (by decide)) rfl

theorem Completable.newName (h : ∀ d, Completable gs held d) : Completable (.newName :: gs) held d := by
  obtain ⟨x, hx⟩ := d.declared.exists_not_mem
  have hcontains : ¬ d.declared.contains x = true := by
    intro hc
    exact hx (Names.contains_iff.1 hc)
  have hnote : d.note (.declare x) = .ok ⟨d.declared.insert x, d.builder⟩ := by
    rw [Draft.note]
    exact if_neg hcontains
  exact (h _).event (t := Kind.identifier.token x) (Kind.neutral_token _ (by decide) (by decide) (by decide)) rfl hnote

/-- **A grounded stack of goals can be met**, whatever is declared. -/
theorem completable (h : Goal.Grounded gs) : ∀ (held : Expr) (d : Draft), Completable gs held d := by
  induction h with
  | floor => exact fun held d => ⟨[], _, rfl, by simp⟩
  | @above g gs hg _ ih =>
    intro held d
    cases g with
    | statements => exact absurd rfl hg
    | statement =>
      exact (Completable.newName (fun d => (ih held d).mark .endDeclaration)).take
        (t := Kind.keyword.token "int") ⟨by decide, by decide, by decide⟩ rfl
    | body => exact (ih held d).take (t := Kind.rightBrace.token "") (Mark.neutral_token .closeBlock) rfl
    | alternative => exact (ih held d).skip (fun ts hts => meet_alternative (fun t ht => (hts t ht).elseWord))
    | newName => exact Completable.newName (ih held)
    | mark m => exact (ih held d).mark m
    | printed =>
      exact (ih held d).take (t := Kind.number.token "0") (Kind.neutral_token _ (by decide) (by decide) (by decide)) rfl
    | operand u => exact Completable.number u (fun held => ih held d)
    | factors u =>
      exact (ih held d).skip (fun ts hts => meet_further true fun t ht => Goal.operator?_of_kind (hts t ht).operator)
    | terms u =>
      exact (ih held d).skip (fun ts hts => meet_further false fun t ht => Goal.operator?_of_kind (hts t ht).operator)
    | comparison => exact (ih held d).skip (fun ts hts => meet_comparison (fun t ht => (hts t ht).comparator))
    | join op left => exact (ih (.binary op left held) d).skip (fun ts _ => meet_join op left)
    | assigned x =>
      exact (ih default _).event (t := Kind.semicolon.token "") (Mark.neutral_token .endAssignment) rfl rfl

theorem Reads.exists_accepted {ts : List Token} {r : Reader} (h : Reads start ts r) :
    ∃ more a, analyze (ts ++ more) = .ok a := by
  obtain ⟨more, R, hR, -⟩ := completable (h.grounded .floor) r.held r.draft
  exact ⟨more, _, analyze_eq_ok.2 ⟨R, (h.meet_append more).trans hR, rfl⟩⟩

end Reader

/-- A text is refused for its end, or at a token behind which anything may stand. -/
theorem analyze_error_cases {ts : List Token} {e : Refusal} (h : analyze ts = .error e) :
    (e.found = none ∧ ∃ r, Reader.start.Reads ts r) ∨
      ∃ pre t post, ts = pre ++ t :: post ∧ e.found = some t ∧ (∃ r, Reader.start.Reads pre r) ∧
        ∀ rest, analyze (pre ++ t :: rest) = .error e := by
  rcases Reader.meet_error (analyze_eq_error.1 h) with ⟨r, wanted, hr, -, rfl⟩ | ⟨pre, t, post, r, fault, rfl, hr, hf, rfl⟩
  · exact .inl ⟨rfl, r, hr⟩
  · refine .inr ⟨pre, t, post, rfl, rfl, ⟨r, hr⟩, ?_⟩
    intro rest
    have hmeet : Reader.start.meet (pre ++ t :: rest) = .error ⟨fault, some t⟩ :=
      (hr.meet_append _).trans (hf.meet_cons rest)
    exact analyze_eq_error.2 hmeet

theorem found_eq_none_of_append {ts more : List Token} {a : Analysis} {e : Refusal} (ha : analyze (ts ++ more) = .ok a)
    (h : analyze ts = .error e) : e.found = none := by
  rcases analyze_error_cases h with ⟨hnone, -⟩ | ⟨pre, t, post, rfl, -, -, hrest⟩
  · exact hnone
  · -- the refused token is still there, so the longer list is refused as well
    have herror := hrest (post ++ more)
    rw [← List.cons_append, ← List.append_assoc, ha] at herror
    cases herror

/-- **The first token that makes a text hopeless is the one refused**, whatever stands behind it; what stands before it,
or the whole text where only its end is at fault, can still be completed.  So what starts an accepted text is refused for
its end only. -/
theorem error_earliest_and_stable :
    (∀ (ts : List Token) (e : Refusal), analyze ts = .error e →
      (e.found = none ∧ ∃ more a, analyze (ts ++ more) = .ok a) ∨
        ∃ k t, ts[k]? = some t ∧ e.found = some t ∧ (∃ more a, analyze (ts.take k ++ more) = .ok a) ∧
          ∀ rest, analyze (ts.take (k + 1) ++ rest) = .error e) ∧
      ∀ (ts more : List Token) (a : Analysis) (e : Refusal), analyze (ts ++ more) = .ok a → analyze ts = .error e →
        e.found = none := by
  refine ⟨?_, fun _ _ _ _ ha h => found_eq_none_of_append ha h⟩
  intro ts e h
  rcases analyze_error_cases h with ⟨hnone, r, hr⟩ | ⟨pre, t, post, rfl, hfound, ⟨r, hr⟩, hrest⟩
  · exact .inl ⟨hnone, hr.exists_accepted⟩
  · refine .inr ⟨pre.length, t, by simp, hfound, ?_, ?_⟩
    · rw [List.take_left]
      exact hr.exists_accepted
    · intro rest
      have htake : (pre ++ t :: post).take (pre.length + 1) ++ rest = pre ++ t :: rest := by
        simp [List.take_append]
      rw [htake]
      exact hrest rest

/-- The second `x` is refused, whatever follows; `int x; x =` is refused for its end, since `1;` completes it. -/
theorem redeclared_earliest :
    (analyze (tokenize "int x; int x + y") = .error ⟨.redeclared "x", some ⟨.identifier, "x", ⟨1, 12⟩⟩⟩ ∧
      ∃ k t, (tokenize "int x; int x + y")[k]? = some t ∧ some ⟨.identifier, "x", ⟨1, 12⟩⟩ = some t ∧
        (∃ more a, analyze ((tokenize "int x; int x + y").take k ++ more) = .ok a) ∧
          ∀ rest, analyze ((tokenize "int x; int x + y").take (k + 1) ++ rest) =
            .error ⟨.redeclared "x", some ⟨.identifier, "x", ⟨1, 12⟩⟩⟩) ∧
      analyze (tokenize "int x; x =" ++ tokenize "1;") = .ok ⟨.ofList ["x"], [.copy "x" "1"]⟩ ∧
      ∃ e, analyze (tokenize "int x; x =") = .error e ∧ e.found = none := by
  have hx : analyze (tokenize "int x; int x + y") = .error ⟨.redeclared "x", some ⟨.identifier, "x", ⟨1, 12⟩⟩⟩ := rfl
  have hone : analyze (tokenize "int x; x =" ++ tokenize "1;") = .ok ⟨.ofList ["x"], [.copy "x" "1"]⟩ := rfl
  have hend : analyze (tokenize "int x; x =") = .error ⟨.expected .operand, none⟩ := rfl
  refine ⟨⟨hx, ?_⟩, hone, _, hend, error_earliest_and_stable.2 _ _ _ _ hone hend⟩
  rcases error_earliest_and_stable.1 _ _ hx with ⟨hnone, -⟩ | h
  · cases hnone
  · exact h

end MiniLang
