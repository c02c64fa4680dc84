import MiniLang.Proofs.Code.Freshness
/-!
# Renaming

Code under a change of the names in it.  Where temporaries stay temporaries and only move up by `k`, the renamed code of
assignments is the code of the renamed assignments, with `k` more temporaries handed out before
(`assignmentCode_rename`).  The change that moves the temporaries and leaves all else as it is, is `shifted`.
-/
namespace MiniLang

def Expr.rename (f : String → String) : Expr → Expr
  | name x => name (f x)
  | number digits => number (f digits)
  | binary op left right => binary op (left.rename f) (right.rename f)

def Instr.rename (f : String → String) : Instr → Instr
  | binary dest lhs op rhs => binary (f dest) (f lhs) op (f rhs)
  | copy dest src => copy (f dest) (f src)

/-! ## Code -/

section

variable {f : String → String} {k : Nat}

theorem Expr.operations_rename : ∀ e : Expr, (e.rename f).operations = e.operations
  | .name _ | .number _ => rfl
  | .binary _ left right => by
    rw [rename, operations, operations, left.operations_rename, right.operations_rename]

theorem Expr.operand_rename (hf : ∀ i, f (temporary i) = temporary (i + k)) (n : Nat) (e : Expr) :
    (e.rename f).operand (n + k) = f (e.operand n) := by
  cases e with
  | name x | number digits => rfl
  | binary op left right =>
    have hindex : n + k + left.operations + right.operations = n + left.operations + right.operations + k := by omega
    rw [rename, operand, operand, operations_rename, operations_rename, hf, hindex]

theorem Expr.instrs_rename (hf : ∀ i, f (temporary i) = temporary (i + k)) : ∀ (e : Expr) (n : Nat),
    (e.rename f).instrs (n + k) = (e.instrs n).map (Instr.rename f)
  | .name _, _ | .number _, _ => rfl
  | .binary op left right, n => by
    have hright : n + k + left.operations = n + left.operations + k := by omega
    have hindex : n + left.operations + k + right.operations = n + left.operations + right.operations + k := by omega
    rw [rename, instrs, instrs, operations_rename, operations_rename, hright, hindex, left.instrs_rename hf,
      right.instrs_rename hf, operand_rename hf, operand_rename hf, ← hf]
    simp [Instr.rename]

theorem operationCount_append : ∀ as bs : List (String × Expr),
    operationCount (as ++ bs) = operationCount as + operationCount bs
  | [], _ => (Nat.zero_add _).symm
  | (_, e) :: as, bs => by
    rw [List.cons_append, operationCount, operationCount, operationCount_append, Nat.add_assoc]

/-- The code of assignments goes on with the temporaries that those in front of them have left. -/
theorem assignmentCode_append : ∀ (as bs : List (String × Expr)) (n : Nat),
    assignmentCode n (as ++ bs) = assignmentCode n as ++ assignmentCode (n + operationCount as) bs
  | [], _, _ => rfl
  | (_, e) :: as, bs, n => by
    rw [List.cons_append, assignmentCode, assignmentCode, assignmentCode_append, operationCount, List.append_assoc,
      List.cons_append, Nat.add_assoc]

/-- **Renamed code is the code of what is renamed**, with `k` more temporaries handed out before. -/
theorem assignmentCode_rename (hf : ∀ i, f (temporary i) = temporary (i + k)) :
    ∀ (as : List (String × Expr)) (n : Nat),
      assignmentCode (n + k) (as.map fun a => (f a.1, a.2.rename f)) = (assignmentCode n as).map (Instr.rename f)
  | [], _ => rfl
  | (x, e) :: as, n => by
    have hnext : n + k + e.operations = n + e.operations + k := by omega
    rw [List.map_cons, assignmentCode, assignmentCode, Expr.operations_rename, hnext, assignmentCode_rename hf as,
      Expr.instrs_rename hf, Expr.operand_rename hf, List.map_append]
    rfl

/-- A change that keeps the names and numbers of the tokens keeps an expression made of them. -/
theorem Expr.From.rename_eq {ts : List Token}
    (hf : ∀ t ∈ ts, t.kind = .identifier ∨ t.kind = .number → f t.lexeme = t.lexeme) :
    ∀ {e : Expr}, e.From ts → e.rename f = e
  | .name _, ⟨t, ht, hk, hx⟩ => by rw [Expr.rename, ← hx, hf t ht (.inl hk)]
  | .number _, ⟨t, ht, hk, hx⟩ => by rw [Expr.rename, ← hx, hf t ht (.inr hk)]
  | .binary _ _ _, ⟨hl, hr⟩ => by rw [Expr.rename, rename_eq hf hl, rename_eq hf hr]

end

/-! ## Moving the temporaries -/

/-- The number in the name of a temporary. -/
def temporaryIndex (x : String) : Nat := Nat.ofDigitChars 10 (x.toList.drop 1) 0

/-- Each temporary moves up by `k`, every other name stays. -/
def shifted (k : Nat) (x : String) : String :=
  if x = temporary (temporaryIndex x) then temporary (temporaryIndex x + k) else x

theorem temporaryIndex_temporary (i : Nat) : temporaryIndex (temporary i) = i := by
  rw [temporaryIndex, temporary_toList, List.drop_one, List.tail_cons,
    Nat.ofDigitChars_toDigits (by decide) (by decide)]

theorem shifted_temporary (k i : Nat) : shifted k (temporary i) = temporary (i + k) := by
  rw [shifted, temporaryIndex_temporary, if_pos rfl]

theorem shifted_of_isTemporaryName {x : String} (h : isTemporaryName x = false) (k : Nat) : shifted k x = x :=
  if_neg (ne_temporary h _)

end MiniLang
