import MiniLang.Proofs.Code.Renaming
/-!
# Concatenation

Two accepted texts that declare no name in common are one accepted text.  No statement goes on behind its end, so the
statements are those of both, and what the first one declares does not hinder the second.  Its code is the code of both,
but for the temporaries of the second, which go on where the first has left off (`accepted_append`).
-/
namespace MiniLang

/-! ## Declarations -/

/-- **What is in order one behind the other** is in order first, and then where the names of the first are known. -/
theorem orderly_append {fs : List Event} : ∀ {es : List Event} {known : Names},
    Orderly known (es ++ fs) ↔ Orderly known es ∧ Orderly ((declares es).foldl Names.insert known) fs
  | [], known => by
    have hnil : Orderly known [] := by simp [Orderly, declares]
    exact (and_iff_right hnil).symm
  | .declare x :: es, known => by
    rw [List.cons_append, orderly_declare, orderly_append, orderly_declare, and_assoc]
    rfl
  | .mention x :: es, known => by
    rw [List.cons_append, orderly_mention, orderly_append, orderly_mention, and_assoc]
    rfl
  | .assign x e :: es, known => by
    rw [List.cons_append, orderly_assign, orderly_append, orderly_assign]
    rfl

/-- More known names do no harm if none of them is declared. -/
theorem Orderly.mono {known known' : Names} {es : List Event} (h : Orderly known es) (hk : ∀ x ∈ known, x ∈ known')
    (hd : ∀ x ∈ declares es, x ∉ known') : Orderly known' es := by
  obtain ⟨⟨hnodup, -⟩, hmention⟩ := h
  refine ⟨⟨hnodup, hd⟩, fun pre x post hes => ?_⟩
  exact (hmention pre x post hes).imp_left (hk x)

/-! ## Programs -/

namespace Program

def append : Program → Program → Program
  | done, q => q
  | next s p, q => next s (p.append q)

theorem tokens_append (p q : Program) : (p.append q).tokens = p.tokens ++ q.tokens := by
  fun_induction append p q with
  | case1 q => rfl
  | case2 q s p ih => rw [Program.tokens, Program.tokens, ih, List.append_assoc]

theorem events_append (p q : Program) : (p.append q).events = p.events ++ q.events := by
  fun_induction append p q with
  | case1 q => rfl
  | case2 q s p ih => rw [Program.events, Program.events, ih, List.append_assoc]

theorem declared_append (p q : Program) : (p.append q).declared = p.declared ++ q.declared := by
  rw [declared, events_append, declares, List.filterMap_append]
  rfl

theorem assignments_append (p q : Program) : (p.append q).assignments = p.assignments ++ q.assignments := by
  rw [assignments, events_append, assigns, List.filterMap_append]
  rfl

theorem WellDeclared.append {p q : Program} (hp : p.WellDeclared) (hq : q.WellDeclared)
    (hdisjoint : ∀ x ∈ p.declared, x ∉ q.declared) : (p.append q).WellDeclared := by
  rw [wellDeclared_iff] at hp hq ⊢
  rw [events_append, orderly_append]
  refine ⟨hp, hq.mono (fun x hx => Names.mem_foldl_insert.2 (.inr hx)) (fun x hx hknown => ?_)⟩
  exact hdisjoint x (Names.mem_ofList.1 hknown) hx

/-- The names and numbers of a program are no temporaries, so to move these is all that happens to its code. -/
theorem code_append {q : Program} (hq : ∀ t ∈ q.tokens, t.kind = .identifier ∨ t.kind = .number →
      isTemporaryName t.lexeme = false) (p : Program) :
    (p.append q).code = p.code ++ q.code.map (Instr.rename (shifted (operationCount p.assignments))) := by
  let f := shifted (operationCount p.assignments)
  have hf : ∀ t ∈ q.tokens, t.kind = .identifier ∨ t.kind = .number → f t.lexeme = t.lexeme :=
    fun t ht hk => shifted_of_isTemporaryName (hq t ht hk) _
  have hkept : q.assignments.map (fun a => (f a.1, a.2.rename f)) = q.assignments := by
    refine (List.map_congr_left (fun a ha => ?_)).trans (List.map_id _)
    obtain ⟨⟨t, ht, hk, hx⟩, hfrom⟩ := assignments_from ha
    rw [hfrom.rename_eq hf, ← hx, hf t ht (.inl hk), hx]
    rfl
  have hmoved : assignmentCode (0 + operationCount p.assignments) q.assignments = q.code.map (Instr.rename f) := by
    rw [code_eq, ← assignmentCode_rename (shifted_temporary _), hkept]
  rw [(p.append q).code_eq, assignments_append, assignmentCode_append, hmoved, ← p.code_eq]

end Program

/-- **Analysis composes**: two accepted texts, with no name declared in both and no name or number in the second that
looks like a temporary, are accepted one behind the other.  The names declared are those of both, and the code is that of
the first followed by that of the second, where each temporary has moved up by the number of operations of the first. -/
theorem accepted_append (ts₁ ts₂ : List Token) (a₁ a₂ : Analysis) (h₁ : analyze ts₁ = .ok a₁) (h₂ : analyze ts₂ = .ok a₂)
    (hdisjoint : ∀ x ∈ a₁.declared, x ∉ a₂.declared)
    (hnames : ∀ t ∈ ts₂, t.kind = .identifier ∨ t.kind = .number → isTemporaryName t.lexeme = false) :
    ∃ a, analyze (ts₁ ++ ts₂) = .ok a ∧ (∀ x, x ∈ a.declared ↔ x ∈ a₁.declared ∨ x ∈ a₂.declared) ∧
      a.code = a₁.code ++ a₂.code.map (Instr.rename (shifted a₁.temporaries.length)) := by
  obtain ⟨p, rfl, hp, rfl⟩ := analyze_eq_ok_iff.1 h₁
  obtain ⟨q, rfl, hq, rfl⟩ := analyze_eq_ok_iff.1 h₂
  have hboth : (p.append q).WellDeclared :=
    hp.append hq (fun x hx hx' => hdisjoint x (Names.mem_ofList.2 hx) (Names.mem_ofList.2 hx'))
  refine ⟨(p.append q).analysis, ?_, fun x => ?_, ?_⟩
  · rw [← Program.tokens_append]
    exact analyze_program.2 ⟨hboth, rfl⟩
  · simp only [Program.analysis, Program.declared_append, Names.mem_ofList, List.mem_append]
  · rw [p.length_temporaries]
    exact Program.code_append hnames p

/-- The first text ends in an `if` and has a variable that is called like a temporary. -/
theorem appended_behind_branch :
    ∃ a, analyze (tokenize "int t0; if (1) \x7b t0 = 1 + 2; \x7d" ++ tokenize "int y; y = y * (3 - q);") = .ok a ∧
      (∀ x, x ∈ a.declared ↔ x ∈ Names.ofList ["t0"] ∨ x ∈ Names.ofList ["y"]) ∧
      a.code = [.binary "t0" "1" .add "2", .copy "t0" "t0"] ++
        [.binary "t1" "3" .sub "q", .binary "t2" "y" .mul "t1", .copy "y" "t2"] := by
  have h₁ : analyze (tokenize "int t0; if (1) \x7b t0 = 1 + 2; \x7d") =
      .ok ⟨.ofList ["t0"], [.binary "t0" "1" .add "2", .copy "t0" "t0"]⟩ := rfl
  have h₂ : analyze (tokenize "int y; y = y * (3 - q);") =
      .ok ⟨.ofList ["y"], [.binary "t0" "3" .sub "q", .binary "t1" "y" .mul "t0", .copy "y" "t1"]⟩ := rfl
  have hdisjoint : ∀ x ∈ Names.ofList ["t0"], x ∉ Names.ofList ["y"] := by
    simp [Names.mem_ofList]
  exact accepted_append _ _ _ _ h₁ h₂ hdisjoint (by decide +kernel)

end MiniLang
