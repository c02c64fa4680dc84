import MiniLang.Proofs.Recognition
/-!
# Lowering

The code of an expression as a function of its tree and of the number `n` of temporaries handed out before: the
operations in post-order, each into the next temporary (`Builder.lower_eq`).  The code of a program is that of its
assignments, each followed by the copy into its target (`Program.code_eq`).
-/
namespace MiniLang

/-! ## Temporaries -/

theorem temporary_toList (n : Nat) : (temporary n).toList = 't' :: Nat.toDigits 10 n := by
  rw [temporary, String.toList_append, Nat.toString_eq_repr, Nat.toList_repr]
  rfl

theorem temporary_injective {m n : Nat} (h : temporary m = temporary n) : m = n := by
  have hd : Nat.toDigits 10 m = Nat.toDigits 10 n := by
    have ht := congrArg String.toList h
    rw [temporary_toList, temporary_toList] at ht
    exact (List.cons.inj ht).2
  rw [← Nat.ofDigitChars_toDigits (b := 10) (n := m) (by decide) (by decide), hd,
    Nat.ofDigitChars_toDigits (by decide) (by decide)]

theorem nodup_temporaries (n : Nat) : ((List.range n).map temporary).Nodup :=
  List.Pairwise.map temporary (fun _ _ hne heq => hne (temporary_injective heq)) List.nodup_range

/-- A name that looks like a temporary: a `t` and decimal digits. -/
def isTemporaryName (x : String) : Bool :=
  match x.toList with
  | 't' :: c :: cs => (c :: cs).all Char.isDigit
  | _ => false

theorem isTemporaryName_temporary (n : Nat) : isTemporaryName (temporary n) = true := by
  unfold isTemporaryName
  rw [temporary_toList]
  cases hd : Nat.toDigits 10 n with
  | nil => exact absurd hd Nat.toDigits_ne_nil
  | cons c cs =>
    refine List.all_eq_true.2 (fun c' hc' => ?_)
    exact Nat.isDigit_of_mem_toDigits (b := 10) (n := n) (by decide) (by decide) (hd ▸ hc')

theorem ne_temporary {x : String} (h : isTemporaryName x = false) (n : Nat) : x ≠ temporary n := by
  rintro rfl
  rw [isTemporaryName_temporary] at h
  cases h

/-! ## Expressions -/

namespace Expr

def operations : Expr → Nat
  | name _ | number _ => 0
  | binary _ left right => left.operations + right.operations + 1

/-- The operand that holds the value, where `n` temporaries were handed out before. -/
def operand (n : Nat) : Expr → String
  | name x => x
  | number digits => digits
  | binary _ left right => temporary (n + left.operations + right.operations)

/-- The operations in post-order, where `n` temporaries were handed out before. -/
def instrs (n : Nat) : Expr → List Instr
  | name _ | number _ => []
  | binary op left right =>
    left.instrs n ++ right.instrs (n + left.operations) ++
      [.binary (temporary (n + left.operations + right.operations)) (left.operand n) op
        (right.operand (n + left.operations))]

theorem dest_of_mem_instrs {i : Instr} : ∀ {e : Expr} {n : Nat}, i ∈ e.instrs n →
    ∃ k, n ≤ k ∧ k < n + e.operations ∧ i.dest = temporary k
  | name _, n, h => by cases h
  | number _, n, h => by cases h
  | binary op left right, n, h => by
    rw [instrs, List.mem_append, List.mem_append, List.mem_singleton] at h
    rw [operations]
    rcases h with (h | h) | rfl
    · obtain ⟨k, hk, hk', hdest⟩ := dest_of_mem_instrs h
      exact ⟨k, hk, by omega, hdest⟩
    · obtain ⟨k, hk, hk', hdest⟩ := dest_of_mem_instrs h
      exact ⟨k, by omega, by omega, hdest⟩
    · exact ⟨n + left.operations + right.operations, by omega, by omega, rfl⟩

end Expr

def operationCount : List (String × Expr) → Nat
  | [] => 0
  | (_, e) :: as => e.operations + operationCount as

def assignmentCode (n : Nat) : List (String × Expr) → List Instr
  | [] => []
  | (x, e) :: as => e.instrs n ++ .copy x (e.operand n) :: assignmentCode (n + e.operations) as

namespace Builder

theorem lower_eq : ∀ (e : Expr) (b : Builder),
    b.lower e = (e.operand b.temps, ⟨(e.instrs b.temps).reverse ++ b.log, b.temps + e.operations⟩)
  | .name _, _ => rfl
  | .number _, _ => rfl
  | .binary op left right, b => by
    simp only [lower, lower_eq left, lower_eq right]
    simp [binary, Expr.operand, Expr.instrs, Expr.operations, Nat.add_assoc]

theorem code_assign (b : Builder) (x : String) (e : Expr) :
    (b.assign x e).code = b.code ++ (e.instrs b.temps ++ [.copy x (e.operand b.temps)]) := by
  rw [assign, lower_eq, code_copy]
  simp [code]

theorem temps_assign (b : Builder) (x : String) (e : Expr) : (b.assign x e).temps = b.temps + e.operations := by
  rw [assign, lower_eq]
  rfl

theorem code_assignAll : ∀ (as : List (String × Expr)) (b : Builder),
    (b.assignAll as).code = b.code ++ assignmentCode b.temps as
  | [], b => (List.append_nil _).symm
  | (x, e) :: as, b => by
    have h : b.assignAll ((x, e) :: as) = (b.assign x e).assignAll as := rfl
    rw [h, code_assignAll as, code_assign, temps_assign, assignmentCode]
    simp

end Builder

theorem Program.code_eq (p : Program) : p.code = assignmentCode 0 p.assignments := Builder.code_assignAll _ _

end MiniLang
