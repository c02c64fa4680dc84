import MiniLang.Proofs.Grammar.Target
import MiniLang.Proofs.Recognition
import MiniLang.Proofs.Viability
/-!
# Categories

What the category of a refusal says of the text.  A syntax error is at the first token with which the text starts no text
of the grammar, whatever is declared; the other two are at tokens that the grammar takes, a name that is declared once
more and a name that is looked up and declared nowhere before (`category_iff`).
-/
namespace MiniLang

/-- The analysis takes the tokens before `k` and refuses the one at `k`. -/
def RefusedAt (ts : List Token) (k : Nat) (e : Refusal) : Prop :=
  ∃ r t fault, ts[k]? = some t ∧ Reader.start.Reads (ts.take k) r ∧ r.Refuses t fault ∧ e = ⟨fault, some t⟩

namespace Goal

theorem exists_derives : ∀ g : Goal, ∃ ts, g.Derives ts
  | statements => ⟨_, .done, rfl⟩
  | statement =>
    ⟨_, .declaration (.ofKeyword .intWord) (.ofKind .identifier "x") (.ofKind .semicolon ";"), rfl⟩
  | body => ⟨_, .done, .ofKind .rightBrace "\x7d", rfl⟩
  | alternative => ⟨_, .absent, rfl⟩
  | newName => ⟨_, .ofKind .identifier "x", rfl⟩
  | mark m => ⟨_, .ofKind m.kind "", rfl⟩
  | printed => ⟨_, .number (.ofKind .number "0"), rfl⟩
  | operand _ => ⟨_, .number (.ofKind .number "0"), rfl⟩
  | factors _ => ⟨[], derives_further_nil true⟩
  | terms _ => ⟨[], derives_further_nil false⟩
  | comparison => ⟨_, .absent, rfl⟩
  | join .. => ⟨_, rfl⟩
  | assigned _ => ⟨_, .ofKind .semicolon ";", rfl⟩

theorem exists_derivesAll : ∀ gs : List Goal, ∃ ts, DerivesAll gs ts
  | [] => ⟨[], rfl⟩
  | g :: gs => by
    obtain ⟨us, hg⟩ := g.exists_derives
    obtain ⟨vs, hgs⟩ := exists_derivesAll gs
    exact ⟨us ++ vs, us, vs, rfl, hg, hgs⟩

end Goal

namespace Draft

variable {d : Draft} {fault : Fault}

theorem note_declare_error {x : String} (h : d.note (.declare x) = .error fault) :
    x ∈ d.declared ∧ fault = .redeclared x := by
  rw [note] at h
  split at h
  · next hx =>
    cases h
    exact ⟨Names.contains_iff.1 hx, rfl⟩
  · cases h

theorem note_mention_error {x : String} (h : d.note (.mention x) = .error fault) :
    x ∉ d.declared ∧ fault = .undeclared x := by
  rw [note] at h
  split at h
  · cases h
  · next hx =>
    cases h
    exact ⟨fun hmem => hx (Names.contains_iff.2 hmem), rfl⟩

theorem category_of_note {e : Event} (h : d.note e = .error fault) : fault.category ≠ .syntaxError := by
  cases e with
  | declare x =>
    obtain ⟨-, rfl⟩ := note_declare_error h
    exact Category.noConfusion
  | mention x =>
    obtain ⟨-, rfl⟩ := note_mention_error h
    exact Category.noConfusion
  | assign x e => cases h

/-- What a text says is no matter of the grammar. -/
theorem category_of_noteAll : ∀ {es : List Event} {d : Draft}, d.noteAll es = .error fault → fault.category ≠ .syntaxError
  | [], _, h => by cases h
  | e :: es, d, h => by
    rw [noteAll] at h
    cases hnote : d.note e with
    | ok d' =>
      rw [hnote] at h
      exact category_of_noteAll h
    | error fault' =>
      rw [hnote] at h
      cases h
      exact category_of_note hnote

end Draft

namespace Reader

variable {pre : List Token} {r : Reader} {t : Token}

theorem Reads.viable {gs : List Goal} {held : Expr} {event : Option Event} (h : start.Reads pre r)
    (hread : Goal.read r.held t r.goals = .take gs held event) : Viable (pre ++ [t]) := by
  obtain ⟨ts, hts⟩ := Goal.exists_derivesAll gs
  have hall : Goal.DerivesAll [.statements] (pre ++ t :: ts) := h.derivesAll (Goal.derivesAll_read hread hts)
  obtain ⟨p, hp⟩ := Goal.derivesAll_singleton.1 hall
  exact ⟨p, ts, by rw [← hp, List.append_assoc, List.singleton_append]⟩

theorem Reads.not_viable {wanted : Expected} (h : start.Reads pre r)
    (hread : Goal.read r.held t r.goals = .refuse wanted) : ¬ Viable (pre ++ [t]) := by
  rintro ⟨p, more, hp⟩
  have hmeet : start.meet (p.tokens ++ []) = .error ⟨.expected wanted, some t⟩ := by
    rw [List.append_nil, ← hp, List.append_assoc, h.meet_append]
    exact (Refuses.unexpected hread).meet_cons more
  have hleads := meet_program p [.statements] Goal.loops_statements .empty [] (by simp)
  rcases hleads.error_cases hmeet with hnote | ⟨d', -, hend⟩
  · exact Draft.category_of_noteAll hnote rfl
  · cases hend

end Reader

/-- What is true of the tokens before a refused one, for each fault. -/
inductive Judged (pre : List Token) (t : Token) : Fault → Prop where
  | expected (w : Expected) (hviable : ¬ Viable (pre ++ [t])) : Judged pre t (.expected w)
  | redeclared (hviable : Viable (pre ++ [t])) (hstage : Stage.behind pre = .naming) (hd : DeclaredIn pre t.lexeme) :
      Judged pre t (.redeclared t.lexeme)
  | undeclared (hviable : Viable (pre ++ [t])) (hstage : Stage.behind pre = .rest ∨ Stage.behind pre = .printing)
      (hname : t.kind = .identifier) (hd : ¬ DeclaredIn pre t.lexeme) : Judged pre t (.undeclared t.lexeme)

theorem Reader.Refuses.judged {pre : List Token} {r : Reader} {t : Token} {fault : Fault} (hf : r.Refuses t fault)
    (h : start.Reads pre r) : Judged pre t fault := by
  have htracks : Tracks pre r := h.tracks tracks_start
  cases hf with
  | unexpected hread => exact .expected _ (h.not_viable hread)
  | unnoted hread hnote =>
    have hviable := h.viable hread
    -- the grammar takes the token, so what it says is told by its stage; the end of an assignment is never refused
    obtain ⟨-, rfl | ⟨-, x, e, rfl⟩⟩ := htracks.follows hread
    · cases hevent : (Stage.behind pre).event? t with
      | none =>
        rw [hevent] at hnote
        cases hnote
      | some event =>
        rw [hevent] at hnote
        obtain ⟨hname, ⟨hstage, rfl⟩ | ⟨hstage, rfl⟩⟩ := Stage.event?_eq_some hevent
        · obtain ⟨hx, rfl⟩ := Draft.note_declare_error hnote
          exact .redeclared hviable hstage ((htracks.declared _).1 hx)
        · obtain ⟨hx, rfl⟩ := Draft.note_mention_error hnote
          exact .undeclared hviable hstage hname (fun hd => hx ((htracks.declared _).2 hd))
    · cases hnote

/-! ## The tokens before a refused one -/

theorem declaredIn_behind_word {before : List Token} {word : Token} {k : Keyword} {x : String}
    (h : word.keyword? = some k) : DeclaredIn (before ++ [word]) x ↔ DeclaredIn before x := by
  have hk : word.kind ≠ .identifier := by simp [(Token.keyword?_eq_some.1 h).1]
  simp [declaredIn_concat, hk]

theorem Stage.naming_and_declared_iff {pre : List Token} {x : String} :
    behind pre = naming ∧ DeclaredIn pre x ↔ ∃ (before : List Token) (word : Token),
      pre = before ++ [word] ∧ word.keyword? = some .intWord ∧ DeclaredIn before x := by
  constructor
  · rintro ⟨hstage, hd⟩
    obtain ⟨before, word, rfl, hword⟩ := (behind_eq_word (.inl rfl)).1 hstage
    exact ⟨before, word, rfl, hword, (declaredIn_behind_word hword).1 hd⟩
  · rintro ⟨before, word, rfl, hword, hd⟩
    exact ⟨(behind_eq_word (.inl rfl)).2 ⟨before, word, rfl, hword⟩, (declaredIn_behind_word hword).2 hd⟩

namespace Judged

variable {pre : List Token} {t : Token} {fault : Fault}

theorem syntax_iff (h : Judged pre t fault) : fault.category = .syntaxError ↔ ¬ Viable (pre ++ [t]) := by
  cases h with
  | expected w hviable => exact iff_of_true rfl hviable
  | redeclared hviable _ _ => exact iff_of_false Category.noConfusion (not_not_intro hviable)
  | undeclared hviable _ _ _ => exact iff_of_false Category.noConfusion (not_not_intro hviable)

theorem redeclaration_iff (h : Judged pre t fault) : fault.category = .redeclaration ↔
    Viable (pre ++ [t]) ∧ Stage.behind pre = .naming ∧ DeclaredIn pre t.lexeme := by
  cases h with
  | expected w hviable => exact iff_of_false Category.noConfusion (fun h => hviable h.1)
  | redeclared hviable hstage hd => exact iff_of_true rfl ⟨hviable, hstage, hd⟩
  | undeclared _ _ _ hd => exact iff_of_false Category.noConfusion (fun h => hd h.2.2)

theorem undeclared_iff (h : Judged pre t fault) : fault.category = .undeclared ↔
    Viable (pre ++ [t]) ∧ t.kind = .identifier ∧ (Stage.behind pre = .rest ∨ Stage.behind pre = .printing) ∧
      ¬ DeclaredIn pre t.lexeme := by
  cases h with
  | expected w hviable => exact iff_of_false Category.noConfusion (fun h => hviable h.1)
  | redeclared _ _ hd => exact iff_of_false Category.noConfusion (fun h => h.2.2.2 hd)
  | undeclared hviable hstage hname hd => exact iff_of_true rfl ⟨hviable, hname, hstage, hd⟩

end Judged

/-! ## The refused token -/

namespace RefusedAt

variable {ts : List Token} {k k' : Nat} {e : Refusal}

theorem take_succ {t : Token} (hk : ts[k]? = some t) : ts.take (k + 1) = ts.take k ++ [t] := by
  rw [List.take_add_one, hk, Option.toList_some]

theorem analyze_append (h : RefusedAt ts k e) (rest : List Token) : analyze (ts.take (k + 1) ++ rest) = .error e := by
  obtain ⟨r, t, fault, hk, hr, hf, rfl⟩ := h
  rw [take_succ hk, List.append_assoc, analyze_eq_error, hr.meet_append]
  exact hf.meet_cons rest

theorem analyze_eq (h : RefusedAt ts k e) : analyze ts = .error e := by
  have hrest := h.analyze_append (ts.drop (k + 1))
  rwa [List.take_append_drop] at hrest

theorem not_lt (h : RefusedAt ts k e) (h' : RefusedAt ts k' e) : ¬ k < k' := by
  intro hlt
  obtain ⟨r, t, fault, -, hr, -⟩ := h'
  obtain ⟨more, a, ha⟩ := hr.exists_accepted
  -- the tokens before `k'` can be completed, and the one at `k` is among them
  have hsplit : ts.take k' = ts.take (k + 1) ++ (ts.take k').drop (k + 1) := by
    have hmin : min (k + 1) k' = k + 1 := Nat.min_eq_left hlt
    have htake : ts.take (k + 1) = (ts.take k').take (k + 1) := by rw [List.take_take, hmin]
    rw [htake, List.take_append_drop]
  rw [hsplit, List.append_assoc, h.analyze_append] at ha
  cases ha

theorem unique (h : RefusedAt ts k e) (h' : RefusedAt ts k' e) : k' = k :=
  Nat.le_antisymm (Nat.le_of_not_lt (h.not_lt h')) (Nat.le_of_not_lt (h'.not_lt h))

end RefusedAt

theorem Reader.Refuses.refusedAt {pre post : List Token} {t : Token} {r : Reader} {fault : Fault} (hf : r.Refuses t fault)
    (hr : start.Reads pre r) : RefusedAt (pre ++ t :: post) pre.length ⟨fault, some t⟩ :=
  ⟨r, t, fault, by simp, by rwa [List.take_left], hf, rfl⟩

theorem analyze_refusedAt {ts : List Token} {e : Refusal} (h : analyze ts = .error e) :
    (e.found = none → e.fault.category = .syntaxError) ∧ (e.found ≠ none → ∃! k, RefusedAt ts k e) := by
  rcases Reader.meet_error (analyze_eq_error.1 h) with ⟨r, wanted, -, -, rfl⟩ | ⟨pre, t, post, r, fault, rfl, hr, hf, rfl⟩
  · exact ⟨fun _ => rfl, fun hfound => absurd rfl hfound⟩
  · have hrefused : RefusedAt (pre ++ t :: post) pre.length ⟨fault, some t⟩ := hf.refusedAt hr
    exact ⟨fun hfound => absurd hfound (Option.some_ne_none t), fun _ => ⟨_, hrefused, fun k hk => hrefused.unique hk⟩⟩

/-- **What the category of a refusal says of the text.**  If the text is refused for its end, it is a syntax error.  If
it is refused for the token at `k`: a syntax error says that no text of the grammar starts with the tokens up to this
one; a redeclaration, that one does, and the token stands behind an `int` and was declared behind an earlier one; and an
undeclared variable, that one does, and the token is a name, the target of an assignment or right behind `print (`, which
stands behind no `int` before. -/
theorem category_iff (ts : List Token) (e : Refusal) (h : analyze ts = .error e) :
    (e.diagnostic.found = none → e.diagnostic.category = .syntaxError) ∧
      (e.diagnostic.found ≠ none → ∃! k, RefusedAt ts k e) ∧
      ∀ (k : Nat) (t : Token), ts[k]? = some t → RefusedAt ts k e →
        (e.diagnostic.category = .syntaxError ↔ ¬ Viable (ts.take (k + 1))) ∧
        (e.diagnostic.category = .redeclaration ↔ Viable (ts.take (k + 1)) ∧
          ∃ (before : List Token) (word : Token), ts.take k = before ++ [word] ∧ word.keyword? = some .intWord ∧
            DeclaredIn before t.lexeme) ∧
        (e.diagnostic.category = .undeclared ↔ Viable (ts.take (k + 1)) ∧ t.kind = .identifier ∧
          (TargetAt (ts.take (k + 1)) k ∨ ∃ (before : List Token) (word left : Token),
            ts.take k = before ++ [word, left] ∧ word.keyword? = some .printWord ∧ left.kind = .leftParen) ∧
          ¬ DeclaredIn (ts.take k) t.lexeme) := by
  obtain ⟨hend, hfound⟩ := analyze_refusedAt h
  refine ⟨hend, hfound, ?_⟩
  rintro k t hk ⟨r, t', fault, hk', hr, hf, rfl⟩
  obtain rfl : t = t' := by simpa [hk] using hk'
  have hjudged : Judged (ts.take k) t fault := hf.judged hr
  have htake : ts.take (k + 1) = ts.take k ++ [t] := RefusedAt.take_succ hk
  have hlength : (ts.take k).length = k := by
    have hlt : k < ts.length := (List.getElem?_eq_some_iff.1 hk).1
    rw [List.length_take]
    omega
  refine ⟨?_, ?_, ?_⟩
  · rw [htake]
    exact hjudged.syntax_iff
  · rw [htake, ← Stage.naming_and_declared_iff]
    exact hjudged.redeclaration_iff
  · rw [htake]
    refine hjudged.undeclared_iff.trans (and_congr_right fun hviable => and_congr_right fun hname => ?_)
    have htarget : TargetAt (ts.take k ++ [t]) k ↔ Stage.behind (ts.take k) = .rest := by
      have hiff : TargetAt (ts.take k ++ [t]) (ts.take k).length ↔ _ := targetAt_iff
      rwa [hlength, and_iff_right hviable, and_iff_left hname] at hiff
    rw [htarget, ← Stage.behind_eq_printing]

/-- The name behind `print (` is refused, although the one behind `int` is declared and `int x ; print ( y ) ;` is a text
of the grammar. -/
theorem undeclared_behind_print :
    analyze (tokenize "int x; print (y") = .error ⟨.undeclared "y", some ⟨.identifier, "y", ⟨1, 15⟩⟩⟩ ∧
      RefusedAt (tokenize "int x; print (y") 5 ⟨.undeclared "y", some ⟨.identifier, "y", ⟨1, 15⟩⟩⟩ ∧
      Viable ((tokenize "int x; print (y").take 6) ∧ ¬ DeclaredIn ((tokenize "int x; print (y").take 5) "y" := by
  have h : analyze (tokenize "int x; print (y") = .error ⟨.undeclared "y", some ⟨.identifier, "y", ⟨1, 15⟩⟩⟩ := rfl
  have hk : (tokenize "int x; print (y")[5]? = some ⟨.identifier, "y", ⟨1, 15⟩⟩ := rfl
  let r : Reader := ⟨.printed :: .factors .checked :: .terms .checked :: .comparison ::
    [.mark .closeExpression, .mark .endPrint, .statements], default, ⟨.ofList ["x"], .empty⟩⟩
  have htake : (tokenize "int x; print (y").take 5 =
      [⟨.keyword, "int", ⟨1, 1⟩⟩, ⟨.identifier, "x", ⟨1, 5⟩⟩, ⟨.semicolon, ";", ⟨1, 6⟩⟩, ⟨.keyword, "print", ⟨1, 8⟩⟩,
        ⟨.leftParen, "(", ⟨1, 14⟩⟩] := rfl
  have hreads : Reader.start.Reads ((tokenize "int x; print (y").take 5) r := by
    rw [htake]
    exact .cons rfl rfl (.cons rfl rfl (.cons rfl rfl (.cons rfl rfl (.cons rfl rfl .nil))))
  have hrefused : RefusedAt (tokenize "int x; print (y") 5 ⟨.undeclared "y", some ⟨.identifier, "y", ⟨1, 15⟩⟩⟩ :=
    ⟨r, _, _, hk, hreads, .unnoted rfl rfl, rfl⟩
  obtain ⟨-, -, hundeclared⟩ := (category_iff _ _ h).2.2 5 _ hk hrefused
  obtain ⟨hviable, -, -, hnot⟩ := hundeclared.1 rfl
  exact ⟨h, hrefused, hviable, hnot⟩

end MiniLang
