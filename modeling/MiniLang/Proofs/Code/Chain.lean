import MiniLang.Proofs.Code.Freshness
/-!
# Chains of temporaries

Every temporary is written once and read once.  What the code of an expression reads, together with the one reader of its
value, are the names and numbers of the expression and its temporaries, each as often as it is there
(`Expr.reads_perm`); and whoever reads a temporary stands behind the operation that writes it, with no copy between the
two (`Expr.handedOn`).  So for a text that has no such name itself the code is a chain (`temporaries_chain`).
-/
namespace MiniLang

namespace Instr

def operands : Instr → List String
  | binary _ lhs _ rhs => [lhs, rhs]
  | copy _ src => [src]

def target? : Instr → Option String
  | binary .. => none
  | copy dest _ => some dest

/-- A destination is the result of an operation or the target of a copy. -/
theorem map_dest_perm : ∀ code : List Instr,
    (code.map dest).Perm (code.filterMap result? ++ code.filterMap target?)
  | [] => .nil
  | binary dest _ _ _ :: code => (map_dest_perm code).cons dest
  | copy dest _ :: code => ((map_dest_perm code).cons dest).trans List.perm_middle.symm

end Instr

/-- An operation writes `x`, and an instruction behind it reads `x`, with no copy between the two. -/
def HandedOn (x : String) (code : List Instr) : Prop :=
  ∃ before write between read behind, code = before ++ write :: (between ++ read :: behind) ∧
    write.result? = some x ∧ x ∈ read.operands ∧ ∀ i ∈ between, i.result? ≠ none

theorem HandedOn.append_left {x : String} {code : List Instr} (front : List Instr) (h : HandedOn x code) :
    HandedOn x (front ++ code) := by
  obtain ⟨before, write, between, read, behind, rfl, hrest⟩ := h
  exact ⟨front ++ before, write, between, read, behind, (List.append_assoc ..).symm, hrest⟩

/-! ## Expressions -/

namespace Expr

/-- The names and numbers of an expression, from left to right. -/
def leaves : Expr → List String
  | name x => [x]
  | number digits => [digits]
  | binary _ left right => left.leaves ++ right.leaves

/-- What the code of an expression reads, and what the one reads who takes its value. -/
def reads (n : Nat) (e : Expr) : List String := (e.instrs n).flatMap Instr.operands ++ [e.operand n]

/-- The temporaries of an expression, where `n` were handed out before. -/
def temporaries (n : Nat) (e : Expr) : List String := (List.range' n e.operations).map temporary

theorem temporaries_binary (n : Nat) (op : Op) (left right : Expr) :
    (binary op left right).temporaries n = left.temporaries n ++ right.temporaries (n + left.operations) ++
      [temporary (n + left.operations + right.operations)] := by
  rw [temporaries, operations, ← List.range'_append_1, ← List.range'_append_1, List.map_append, List.map_append,
    ← Nat.add_assoc]
  rfl

/-- **Each leaf is read once, and each temporary is.** -/
theorem reads_perm : ∀ (e : Expr) (n : Nat), (e.reads n).Perm (e.leaves ++ e.temporaries n)
  | name x, _ => .refl [x]
  | number digits, _ => .refl [digits]
  | binary op left right, n => by
    have hleft := (left.reads_perm n).count
    have hright := (right.reads_perm (n + left.operations)).count
    refine List.perm_iff_count.2 (fun x => ?_)
    -- the operation reads the values of its sides, its own value is read by whoever takes it
    have hreads : (binary op left right).reads n = (left.instrs n).flatMap Instr.operands ++
        (right.instrs (n + left.operations)).flatMap Instr.operands ++
        ([left.operand n] ++ [right.operand (n + left.operations)]) ++
        [temporary (n + left.operations + right.operations)] := by
      rw [reads, instrs, List.flatMap_append, List.flatMap_append]
      rfl
    specialize hleft x
    specialize hright x
    rw [hreads, temporaries_binary, leaves]
    simp only [reads, List.count_append] at hleft hright ⊢
    omega

theorem result?_of_mem_instrs {i : Instr} {e : Expr} {n : Nat} (h : i ∈ e.instrs n) : i.result? ≠ none := by
  have hresult : i.result? ∈ (List.range' n e.operations).map (some ∘ temporary) := by
    rw [← map_result_instrs]
    exact List.mem_map_of_mem h
  obtain ⟨k, -, hk⟩ := List.mem_map.1 hresult
  rw [← hk]
  exact Option.some_ne_none _

theorem targets_instrs (e : Expr) (n : Nat) : (e.instrs n).filterMap Instr.target? = [] := by
  refine List.filterMap_eq_nil_iff.2 (fun i hi => ?_)
  have hresult := result?_of_mem_instrs hi
  cases i with
  | binary dest lhs op rhs => rfl
  | copy dest src => exact absurd rfl hresult

-- The induction is on the tree, for any reader of its value: the left side is read by the operation, behind the code of
-- the right side, which holds no copies either.
/-- **A temporary is read behind the operation that writes it**, at the latest by the one who takes the value. -/
theorem handedOn {i : Nat} : ∀ {e : Expr} {n : Nat}, n ≤ i → i < n + e.operations →
    ∀ {between : List Instr} {read : Instr} (behind : List Instr), (∀ c ∈ between, c.result? ≠ none) →
      e.operand n ∈ read.operands → HandedOn (temporary i) (e.instrs n ++ (between ++ read :: behind))
  | name _, _, hn, hi, _, _, _, _, _ | number _, _, hn, hi, _, _, _, _, _ => absurd hi (Nat.not_lt.2 hn)
  | binary op left right, n, hn, hi, between, read, behind, hbetween, hread => by
    let last : Instr := .binary (temporary (n + left.operations + right.operations)) (left.operand n) op
      (right.operand (n + left.operations))
    have hcode : (binary op left right).instrs n ++ (between ++ read :: behind) =
        left.instrs n ++ (right.instrs (n + left.operations) ++ last :: (between ++ read :: behind)) := by
      rw [instrs, List.append_assoc, List.append_assoc, List.singleton_append]
    rw [operations] at hi
    rw [hcode]
    by_cases hleft : i < n + left.operations
    · exact handedOn hn hleft _ (fun c hc => result?_of_mem_instrs hc) (List.mem_cons_self)
    · refine HandedOn.append_left _ ?_
      by_cases hright : i < n + left.operations + right.operations
      · have hlast : right.operand (n + left.operations) ∈ last.operands := List.mem_cons_of_mem _ List.mem_cons_self
        exact handedOn (Nat.not_lt.1 hleft) hright _ (List.forall_mem_nil _) hlast
      · obtain rfl : i = n + left.operations + right.operations := by omega
        exact ⟨_, last, between, read, behind, rfl, rfl, hread, hbetween⟩

theorem From.of_mem_leaves {ts : List Token} {x : String} : ∀ {e : Expr}, e.From ts → x ∈ e.leaves →
    Occurs ts .identifier x ∨ Occurs ts .number x
  | name _, hfrom, hx => .inl (List.mem_singleton.1 hx ▸ hfrom)
  | number _, hfrom, hx => .inr (List.mem_singleton.1 hx ▸ hfrom)
  | binary _ _ _, hfrom, hx => by
    rcases List.mem_append.1 hx with hx | hx
    · exact of_mem_leaves hfrom.1 hx
    · exact of_mem_leaves hfrom.2 hx

end Expr

/-! ## Assignments -/

theorem targets_assignmentCode : ∀ (as : List (String × Expr)) (n : Nat),
    (assignmentCode n as).filterMap Instr.target? = as.map Prod.fst
  | [], _ => rfl
  | (x, e) :: as, n => by
    have hcopy : Instr.target? (.copy x (e.operand n)) = some x := rfl
    rw [assignmentCode, List.filterMap_append, e.targets_instrs, List.filterMap_cons_some hcopy,
      targets_assignmentCode as]
    rfl

/-- **The code of assignments reads each of their leaves once, and each temporary.** -/
theorem operands_assignmentCode_perm : ∀ (as : List (String × Expr)) (n : Nat),
    ((assignmentCode n as).flatMap Instr.operands).Perm
      (as.flatMap (·.2.leaves) ++ (List.range' n (operationCount as)).map temporary)
  | [], _ => .nil
  | (x, e) :: as, n => by
    have hfirst := (e.reads_perm n).count
    have hrest := (operands_assignmentCode_perm as (n + e.operations)).count
    refine List.perm_iff_count.2 (fun y => ?_)
    have hoperands : (assignmentCode n ((x, e) :: as)).flatMap Instr.operands =
        e.reads n ++ (assignmentCode (n + e.operations) as).flatMap Instr.operands := by
      rw [assignmentCode, List.flatMap_append, List.flatMap_cons, ← List.append_assoc]
      rfl
    specialize hfirst y
    specialize hrest y
    rw [hoperands, operationCount, ← List.range'_append_1]
    simp only [List.count_append, List.flatMap_cons, List.map_append, Expr.temporaries] at hfirst hrest ⊢
    omega

theorem handedOn_assignmentCode {i : Nat} : ∀ {as : List (String × Expr)} {n : Nat}, n ≤ i →
    i < n + operationCount as → HandedOn (temporary i) (assignmentCode n as)
  | [], _, hn, hi => absurd hi (Nat.not_lt.2 hn)
  | (x, e) :: as, n, hn, hi => by
    rw [operationCount] at hi
    rw [assignmentCode]
    by_cases hfirst : i < n + e.operations
    · have hcopy : e.operand n ∈ (Instr.copy x (e.operand n)).operands := List.mem_cons_self
      exact Expr.handedOn hn hfirst _ (List.forall_mem_nil _) hcopy
    · have hrest : HandedOn (temporary i) (assignmentCode (n + e.operations) as) :=
        handedOn_assignmentCode (Nat.not_lt.1 hfirst) (by omega)
      exact (hrest.append_left [.copy x (e.operand n)]).append_left (e.instrs n)

/-! ## Targets are declared -/

mutual

theorem Statement.mention_of_assign {x : String} {e : Expr} : ∀ {s : Statement}, .assign x e ∈ s.events →
    .mention x ∈ s.events
  | .declaration .., h => by simp [Statement.events] at h
  | .assignment .., h => by
    obtain ⟨rfl, -⟩ : x = _ ∧ e = _ := by simpa [Statement.events] using h
    exact List.mem_cons_self
  | .branch _ body other, h => by
    rcases List.mem_append.1 h with h | h
    · exact List.mem_append_left _ (Block.mention_of_assign h)
    · exact List.mem_append_right _ (Alternative.mention_of_assign h)
  | .loop _ body, h => Block.mention_of_assign h
  | .print head _, h => by
    rcases head.condition.mention_cases with hm | ⟨y, hm⟩ <;> simp [Statement.events, hm] at h

theorem Block.mention_of_assign {x : String} {e : Expr} : ∀ {b : Block}, .assign x e ∈ b.events →
    .mention x ∈ b.events
  | .braces .., h => Program.mention_of_assign h

theorem Alternative.mention_of_assign {x : String} {e : Expr} : ∀ {o : Alternative}, .assign x e ∈ o.events →
    .mention x ∈ o.events
  | .absent, h => absurd h List.not_mem_nil
  | .present .., h => Block.mention_of_assign h

theorem Program.mention_of_assign {x : String} {e : Expr} : ∀ {p : Program}, .assign x e ∈ p.events →
    .mention x ∈ p.events
  | .done, h => absurd h List.not_mem_nil
  | .next .., h => by
    rcases List.mem_append.1 h with h | h
    · exact List.mem_append_left _ (Statement.mention_of_assign h)
    · exact List.mem_append_right _ (Program.mention_of_assign h)

end

theorem Program.WellDeclared.declared_of_assignment {p : Program} (h : p.WellDeclared) {a : String × Expr}
    (ha : a ∈ p.assignments) : a.1 ∈ p.declared := by
  obtain ⟨event, hevent, hassign⟩ := List.mem_filterMap.1 ha
  cases event with
  | declare x => cases hassign
  | mention x => cases hassign
  | assign x e =>
    obtain rfl := Option.some.inj hassign
    obtain ⟨pre, post, hsplit⟩ := List.append_of_mem (Program.mention_of_assign hevent)
    have hpre : x ∈ declares pre := h.2 pre x post hsplit
    rw [Program.declared, hsplit, declares, List.filterMap_append]
    exact List.mem_append_left _ hpre

/-! ## Programs -/

namespace Program

theorem filterMap_target_code (p : Program) : p.code.filterMap Instr.target? = p.assignments.map Prod.fst := by
  rw [code_eq, targets_assignmentCode]

theorem operands_perm (p : Program) : (p.code.flatMap Instr.operands).Perm
    (p.assignments.flatMap (·.2.leaves) ++ p.analysis.temporaries) := by
  rw [code_eq, temporaries_eq, List.range_eq_range']
  exact operands_assignmentCode_perm p.assignments 0

theorem occurs_of_mem_leaves {p : Program} {x : String} (h : x ∈ p.assignments.flatMap (·.2.leaves)) :
    Occurs p.tokens .identifier x ∨ Occurs p.tokens .number x := by
  obtain ⟨a, ha, hx⟩ := List.mem_flatMap.1 h
  exact (assignments_from ha).2.of_mem_leaves hx

theorem count_temporaries {p : Program} {i : Nat} (h : i < p.analysis.temporaries.length) :
    p.analysis.temporaries.count (temporary i) = 1 := by
  rw [length_temporaries] at h
  rw [temporaries_eq, (nodup_temporaries _).count, if_pos (List.mem_map_of_mem (List.mem_range.2 h))]

theorem handedOn_code {p : Program} {i : Nat} (h : i < p.analysis.temporaries.length) :
    HandedOn (temporary i) p.code := by
  rw [length_temporaries] at h
  rw [code_eq]
  exact handedOn_assignmentCode (Nat.zero_le i) (by omega)

end Program

/-- **The temporaries form a chain.**  Where no name or number of an accepted text looks like a temporary, the operations
write `t0`, `t1`, … in this order and copies write declared names only.  Each temporary is the destination of one
instruction and one operand of the whole code, which is read behind the operation and at the latest by the first copy
behind it.  All other operands are names and numbers of the text. -/
theorem temporaries_chain (ts : List Token) (a : Analysis) (h : analyze ts = .ok a)
    (hnames : ∀ t ∈ ts, t.kind = .identifier ∨ t.kind = .number → isTemporaryName t.lexeme = false) :
    a.temporaries = (List.range a.temporaries.length).map temporary ∧
      (∀ x src, .copy x src ∈ a.code → x ∈ a.declared) ∧
      (∀ i < a.temporaries.length, (a.code.map Instr.dest).count (temporary i) = 1 ∧
        (a.code.flatMap Instr.operands).count (temporary i) = 1 ∧ HandedOn (temporary i) a.code) ∧
      ∀ x ∈ a.code.flatMap Instr.operands, (∃ i < a.temporaries.length, x = temporary i) ∨
        Occurs ts .identifier x ∨ Occurs ts .number x := by
  obtain ⟨p, rfl, hp, rfl⟩ := analyze_eq_ok_iff.1 h
  have hoccurs : ∀ {x : String}, Occurs p.tokens .identifier x ∨ Occurs p.tokens .number x → ∀ i, x ≠ temporary i := by
    rintro x (⟨t, ht, hk, rfl⟩ | ⟨t, ht, hk, rfl⟩) i
    · exact ne_temporary (hnames t ht (.inl hk)) i
    · exact ne_temporary (hnames t ht (.inr hk)) i
  have hcode : p.analysis.code = p.code := rfl
  have hresults : p.code.filterMap Instr.result? = p.analysis.temporaries := rfl
  rw [hcode]
  refine ⟨?_, fun x src hx => ?_, fun i hi => ⟨?_, ?_, Program.handedOn_code hi⟩, fun x hx => ?_⟩
  · rw [p.length_temporaries, p.temporaries_eq]
  · have hmem : x ∈ p.assignments.map Prod.fst := by
      rw [← p.filterMap_target_code]
      exact List.mem_filterMap.2 ⟨_, hx, rfl⟩
    obtain ⟨b, hb, rfl⟩ := List.mem_map.1 hmem
    exact Names.mem_ofList.2 (hp.declared_of_assignment hb)
  · have hnone : temporary i ∉ p.assignments.map Prod.fst := by
      intro hmem
      obtain ⟨b, hb, hx⟩ := List.mem_map.1 hmem
      exact hoccurs (.inl (Program.assignments_from hb).1) i hx
    rw [(Instr.map_dest_perm _).count, List.count_append, hresults, p.filterMap_target_code,
      List.count_eq_zero_of_not_mem hnone, Program.count_temporaries hi]
  · have hnone : temporary i ∉ p.assignments.flatMap (·.2.leaves) := by
      intro hmem
      exact hoccurs (Program.occurs_of_mem_leaves hmem) i rfl
    rw [p.operands_perm.count, List.count_append, List.count_eq_zero_of_not_mem hnone, Program.count_temporaries hi]
  · rcases List.mem_append.1 (p.operands_perm.mem_iff.1 hx) with hx | hx
    · exact .inr (Program.occurs_of_mem_leaves hx)
    · rw [p.temporaries_eq] at hx
      obtain ⟨i, hi, rfl⟩ := List.mem_map.1 hx
      rw [p.length_temporaries]
      exact .inl ⟨i, List.mem_range.1 hi, rfl⟩

/-- In `x = ( 1 + 2 ) * ( 3 - y )` the sum is read behind the difference, and in the block a second chain goes on. -/
theorem chain_product :
    analyze (tokenize "int x; x = (1 + 2) * (3 - y); if (x) \x7b x = x / 2; \x7d") =
        .ok ⟨.ofList ["x"], [.binary "t0" "1" .add "2", .binary "t1" "3" .sub "y", .binary "t2" "t0" .mul "t1",
          .copy "x" "t2", .binary "t3" "x" .div "2", .copy "x" "t3"]⟩ ∧
      ∀ i < 4, HandedOn (temporary i) [.binary "t0" "1" .add "2", .binary "t1" "3" .sub "y", .binary "t2" "t0" .mul "t1",
        .copy "x" "t2", .binary "t3" "x" .div "2", .copy "x" "t3"] := by
  have h : analyze (tokenize "int x; x = (1 + 2) * (3 - y); if (x) \x7b x = x / 2; \x7d") =
      .ok ⟨.ofList ["x"], [.binary "t0" "1" .add "2", .binary "t1" "3" .sub "y", .binary "t2" "t0" .mul "t1",
        .copy "x" "t2", .binary "t3" "x" .div "2", .copy "x" "t3"]⟩ := rfl
  obtain ⟨-, -, hchain, -⟩ := temporaries_chain _ _ h (by decide +kernel)
  exact ⟨h, fun i hi => (hchain i hi).2.2⟩

end MiniLang
