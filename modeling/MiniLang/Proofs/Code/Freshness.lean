import MiniLang.Proofs.Code.Execution
/-!
# Freshness

The operations of a text write the temporaries `t0`, `t1`, …, one each and whatever names the text has
(`temporaries_eq`).  Nothing keeps a text from using such a name itself, so the temporaries are fresh exactly for the
texts that use none of those they take (`temporaries_fresh_iff`).
-/
namespace MiniLang

universe u

def Instr.result? : Instr → Option String
  | binary dest .. => some dest
  | copy .. => none

/-- The destinations of the operations, in order. -/
def Analysis.temporaries (a : Analysis) : List String := a.code.filterMap Instr.result?

/-- The code of a tree has operations only, and they take the temporaries one after the other. -/
theorem map_result_instrs : ∀ (e : Expr) (n : Nat),
    (e.instrs n).map Instr.result? = (List.range' n e.operations).map (some ∘ temporary)
  | .name _, _ => rfl
  | .number _, _ => rfl
  | .binary op left right, n => by
    have hlast : List.range' (n + left.operations + right.operations) 1 = [n + left.operations + right.operations] := rfl
    rw [Expr.instrs, Expr.operations, List.map_append, List.map_append, map_result_instrs left, map_result_instrs right,
      ← List.range'_append_1, ← List.range'_append_1, ← Nat.add_assoc, hlast, List.map_append, List.map_append]
    rfl

theorem results_instrs (e : Expr) (n : Nat) :
    (e.instrs n).filterMap Instr.result? = (List.range' n e.operations).map temporary := by
  have h : (e.instrs n).filterMap Instr.result? = ((e.instrs n).map Instr.result?).filterMap id := by
    rw [List.filterMap_map, Function.id_comp]
  rw [h, map_result_instrs, List.filterMap_map, Function.id_comp, List.filterMap_eq_map]

theorem results_assignmentCode : ∀ (as : List (String × Expr)) (n : Nat),
    (assignmentCode n as).filterMap Instr.result? = (List.range' n (operationCount as)).map temporary
  | [], _ => rfl
  | (x, e) :: as, n => by
    have hcopy : Instr.result? (.copy x (e.operand n)) = none := rfl
    rw [assignmentCode, List.filterMap_append, List.filterMap_cons_none hcopy, results_instrs,
      results_assignmentCode as, operationCount, ← List.map_append, List.range'_append_1]

namespace Program

theorem temporaries_eq (p : Program) :
    p.analysis.temporaries = (List.range (operationCount p.assignments)).map temporary := by
  rw [Analysis.temporaries, analysis, code_eq, results_assignmentCode, List.range_eq_range']

theorem length_temporaries (p : Program) : p.analysis.temporaries.length = operationCount p.assignments := by
  rw [temporaries_eq, List.length_map, List.length_range]

end Program

/-- **The temporaries are taken one after the other**, whatever names the text has. -/
theorem temporaries_eq [Text.WordClass] {text : String} {a : Analysis} {p : Program} (h : check text = .ok a)
    (hp : p.tokens = tokenize text) :
    a.temporaries = (List.range (operationCount p.assignments)).map temporary := by
  rw [check, ← hp] at h
  obtain ⟨-, rfl⟩ := analyze_program.1 h
  exact p.temporaries_eq

theorem declared_occurs_of_check [Text.WordClass] {text x : String} {a : Analysis} (h : check text = .ok a)
    (hx : x ∈ a.declared) : Occurs (tokenize text) .identifier x := occurs_of_mem_declared h hx

/-- **When temporaries are fresh**: an accepted text takes the temporaries `t0`, `t1`, …, as many as its assignments have
operations, and they differ from all its variables exactly if none of its names is one of them.  Then the code does to
every name of the text what the assignments do. -/
theorem temporaries_fresh_iff [Text.WordClass] (text : String) (a : Analysis) (h : check text = .ok a) :
    (∃ p : Program, p.tokens = tokenize text) ∧
      ∀ p : Program, p.tokens = tokenize text →
        a.temporaries = (List.range (operationCount p.assignments)).map temporary ∧
        ((∀ x ∈ a.temporaries, x ∉ a.declared ∧ ¬ Occurs (tokenize text) .identifier x) ↔
          ∀ k < operationCount p.assignments, ¬ Occurs (tokenize text) .identifier (temporary k)) ∧
        ((∀ k < operationCount p.assignments, ¬ Occurs (tokenize text) .identifier (temporary k)) →
          ∀ (V : Type u) (m : Meaning V) (σ : Store V) (x : String), Occurs (tokenize text) .identifier x →
            m.run σ a.code x = m.assignAll σ p.assignments x) := by
  constructor
  · obtain ⟨p, hp, -⟩ := analyze_eq_ok_iff.1 h
    exact ⟨p, hp⟩
  intro p hp
  have htemps := temporaries_eq h hp
  refine ⟨htemps, ⟨?_, ?_⟩, ?_⟩
  · intro hfresh k hk
    have hmem : temporary k ∈ a.temporaries := by
      rw [htemps]
      exact List.mem_map_of_mem (List.mem_range.2 hk)
    exact (hfresh _ hmem).2
  · intro hnames x hx
    rw [htemps] at hx
    obtain ⟨k, hk, rfl⟩ := List.mem_map.1 hx
    have hname : ¬ Occurs (tokenize text) .identifier (temporary k) := hnames k (List.mem_range.1 hk)
    have hdeclared : temporary k ∉ a.declared := by
      intro hd
      exact hname (declared_occurs_of_check h hd)
    exact ⟨hdeclared, hname⟩
  · intro hnames V m σ x hx
    have hne : ∀ y, Occurs (tokenize text) .identifier y → ∀ k < operationCount p.assignments, y ≠ temporary k := by
      rintro y hy k hk rfl
      exact hnames k hk hy
    exact m.agree_run_code h hp hne σ x (hne x hx)

/-- A text with a variable `t0` of its own: the sum of one and two is stored where its five stood. -/
theorem temporary_is_declared :
    ¬ ∀ (text : String) (a : Analysis), check text = .ok a → ∀ x ∈ a.temporaries, x ∉ a.declared := by
  intro hfresh
  have h : check "int t0; int x; t0 = 5; x = (1 + 2) + t0;" =
      .ok ⟨.ofList ["t0", "x"],
        [.copy "t0" "5", .binary "t0" "1" .add "2", .binary "t1" "t0" .add "t0", .copy "x" "t1"]⟩ := rfl
  exact hfresh _ _ h "t0" (by decide) (Names.mem_ofList.2 (by decide))

theorem temporaries_fresh_t1 :
    check "int t1; t1 = 1 + t1;" = .ok ⟨.ofList ["t1"], [.binary "t0" "1" .add "t1", .copy "t1" "t0"]⟩ ∧
      ∃ p : Program, p.tokens = tokenize "int t1; t1 = 1 + t1;" ∧ operationCount p.assignments = 1 ∧
        ∀ (V : Type) (m : Meaning V) (σ : Store V),
          m.run σ [.binary "t0" "1" .add "t1", .copy "t1" "t0"] "t1" = m.assignAll σ p.assignments "t1" := by
  have h : check "int t1; t1 = 1 + t1;" = .ok ⟨.ofList ["t1"], [.binary "t0" "1" .add "t1", .copy "t1" "t0"]⟩ := rfl
  obtain ⟨⟨p, hp⟩, hfresh⟩ := temporaries_fresh_iff _ _ h
  obtain ⟨htemps, -, hrun⟩ := hfresh p hp
  have hone : operationCount p.assignments = 1 := by
    have hlength := congrArg List.length htemps
    rw [List.length_map, List.length_range] at hlength
    exact hlength.symm
  refine ⟨h, p, hp, hone, fun V m σ => hrun ?_ V m σ "t1" (by decide +kernel)⟩
  rw [hone]
  decide +kernel

end MiniLang
