import Mathlib.Logic.Function.Basic
import MiniLang.Proofs.Code.Lowering
import MiniLang.Proofs.Grammar.Provenance
import MiniLang.Proofs.Token.Shape
/-!
# Execution

What code does to a store, for any meaning of the operations and the numbers.  The code of an expression leaves the value
of the expression in its operand (`value_run_instrs`) and writes nothing but temporaries of its own; so the code of
assignments and the assignments themselves keep two stores alike off the temporaries (`agree_run_assignmentCode`).

An operand is a text: it is a number if it is spelt like one, and else a name of the store.
-/
namespace MiniLang

universe u

/-- What the operations and the numbers stand for. -/
structure Meaning (V : Type u) where
  op : Op → V → V → V
  literal : String → V

abbrev Store (V : Type u) := String → V

namespace Meaning

variable {V : Type u} (m : Meaning V)

def eval (σ : Store V) : Expr → V
  | .name x => σ x
  | .number digits => m.literal digits
  | .binary op left right => m.op op (eval σ left) (eval σ right)

def assign (σ : Store V) (a : String × Expr) : Store V := Function.update σ a.1 (m.eval σ a.2)

def assignAll (σ : Store V) (as : List (String × Expr)) : Store V := as.foldl m.assign σ

def value (σ : Store V) (operand : String) : V := if isNumeral operand then m.literal operand else σ operand

def exec (σ : Store V) : Instr → Store V
  | .binary dest lhs op rhs => Function.update σ dest (m.op op (m.value σ lhs) (m.value σ rhs))
  | .copy dest src => Function.update σ dest (m.value σ src)

def run (σ : Store V) (code : List Instr) : Store V := code.foldl m.exec σ

theorem run_append (σ : Store V) (c c' : List Instr) : m.run σ (c ++ c') = m.run (m.run σ c) c' := List.foldl_append

theorem value_of_name {x : String} (h : isNumeral x = false) (σ : Store V) : m.value σ x = σ x := by
  rw [value, h]
  rfl

theorem value_of_number {x : String} (h : isNumeral x = true) (σ : Store V) : m.value σ x = m.literal x := by
  rw [value, h]
  rfl

theorem exec_of_ne {x : String} {i : Instr} (h : i.dest ≠ x) (σ : Store V) : m.exec σ i x = σ x := by
  cases i with
  | binary dest lhs op rhs => exact Function.update_of_ne (Ne.symm h) _ _
  | copy dest src => exact Function.update_of_ne (Ne.symm h) _ _

theorem run_of_ne {x : String} : ∀ {code : List Instr}, (∀ i ∈ code, i.dest ≠ x) → ∀ σ : Store V, m.run σ code x = σ x
  | [], _, _ => rfl
  | i :: code, h, σ => by
    have hi : m.exec σ i x = σ x := m.exec_of_ne (h i List.mem_cons_self) σ
    have hcode : ∀ j ∈ code, j.dest ≠ x := by
      intro j hj
      exact h j (List.mem_cons_of_mem i hj)
    exact (run_of_ne hcode (m.exec σ i)).trans hi

end Meaning

theorem isNumeral_temporary (n : Nat) : isNumeral (temporary n) = false := by
  rw [isNumeral, temporary_toList]
  rfl

/-! ## Expressions -/

/-- The names are spelt like names and are none of the first `N` temporaries, the numbers are spelt like numbers. -/
def Expr.Readable (N : Nat) : Expr → Prop
  | name x => isNumeral x = false ∧ ∀ k < N, x ≠ temporary k
  | number digits => isNumeral digits = true
  | binary _ left right => left.Readable N ∧ right.Readable N

def Store.Agree {V : Type u} (N : Nat) (σ σ' : Store V) : Prop := ∀ x, (∀ k < N, x ≠ temporary k) → σ x = σ' x

namespace Meaning

variable {V : Type u} (m : Meaning V) {N : Nat}

theorem eval_agree {σ σ' : Store V} (h : σ.Agree N σ') : ∀ {e : Expr}, e.Readable N → m.eval σ e = m.eval σ' e
  | .name x, he => h x he.2
  | .number _, _ => rfl
  | .binary op left right, he => by
    rw [eval, eval, eval_agree h he.1, eval_agree h he.2]

theorem run_instrs_of_ne {x : String} {e : Expr} {n : Nat} (h : ∀ k, n ≤ k → k < n + e.operations → x ≠ temporary k)
    (σ : Store V) : m.run σ (e.instrs n) x = σ x := by
  refine m.run_of_ne ?_ σ
  intro i hi
  obtain ⟨k, hk, hk', hdest⟩ := Expr.dest_of_mem_instrs hi
  rw [hdest]
  exact (h k hk hk').symm

theorem agree_run_instrs {e : Expr} {n : Nat} (hN : n + e.operations ≤ N) (σ : Store V) :
    Store.Agree N (m.run σ (e.instrs n)) σ := by
  intro x hx
  refine m.run_instrs_of_ne ?_ σ
  intro k _ hk
  exact hx k (by omega)

theorem value_operand_run {e e' : Expr} {n n' : Nat} (he : e.Readable N) (hn : n + e.operations ≤ n')
    (hN : n' + e'.operations ≤ N) (σ : Store V) :
    m.value (m.run σ (e'.instrs n')) (e.operand n) = m.value σ (e.operand n) := by
  cases e with
  | name x =>
    rw [Expr.operand, m.value_of_name he.1, m.value_of_name he.1]
    exact m.agree_run_instrs hN σ x he.2
  | number digits => rw [Expr.operand, m.value_of_number he, m.value_of_number he]
  | binary op left right =>
    rw [Expr.operand, m.value_of_name (isNumeral_temporary _), m.value_of_name (isNumeral_temporary _)]
    -- its temporary was handed out before those of the later expression
    refine m.run_instrs_of_ne ?_ σ
    intro k hk _ heq
    have hindex : n + left.operations + right.operations = k := temporary_injective heq
    rw [Expr.operations] at hn
    omega

/-- **The code of an expression computes its value.** -/
theorem value_run_instrs : ∀ {e : Expr} {n : Nat} (_ : e.Readable N) (_ : n + e.operations ≤ N) (σ : Store V),
    m.value (m.run σ (e.instrs n)) (e.operand n) = m.eval σ e
  | .name x, _, he, _, σ => m.value_of_name he.1 σ
  | .number _, _, he, _, σ => m.value_of_number he σ
  | .binary op left right, n, he, hN, σ => by
    rw [Expr.operations] at hN
    have hleft : n + left.operations ≤ N := by omega
    have hright : n + left.operations + right.operations ≤ N := by omega
    let σ₁ := m.run σ (left.instrs n)
    let σ₂ := m.run σ₁ (right.instrs (n + left.operations))
    have hx : m.value σ₂ (left.operand n) = m.eval σ left := by
      rw [m.value_operand_run he.1 (Nat.le_refl _) hright σ₁]
      exact value_run_instrs he.1 hleft σ
    have hy : m.value σ₂ (right.operand (n + left.operations)) = m.eval σ right := by
      rw [value_run_instrs he.2 hright σ₁]
      exact m.eval_agree (m.agree_run_instrs hleft σ) he.2
    have hrun : m.run σ ((Expr.binary op left right).instrs n) =
        Function.update σ₂ (temporary (n + left.operations + right.operations))
          (m.op op (m.value σ₂ (left.operand n)) (m.value σ₂ (right.operand (n + left.operations)))) := by
      rw [Expr.instrs, run_append, run_append]
      rfl
    rw [hrun, Expr.operand, m.value_of_name (isNumeral_temporary _), Function.update_self, hx, hy]
    rfl

/-! ## Assignments -/

/-- **The code of an assignment does what the assignment does**, the temporaries apart. -/
theorem agree_run_assignment {x : String} {e : Expr} {n : Nat} (he : e.Readable N) (hN : n + e.operations ≤ N)
    {σ σ' : Store V} (h : σ.Agree N σ') :
    Store.Agree N (m.run σ (e.instrs n ++ [.copy x (e.operand n)])) (m.assign σ' (x, e)) := by
  have hrun : m.run σ (e.instrs n ++ [.copy x (e.operand n)]) =
      Function.update (m.run σ (e.instrs n)) x (m.value (m.run σ (e.instrs n)) (e.operand n)) := m.run_append σ _ _
  intro y hy
  rw [hrun, assign, m.value_run_instrs he hN, m.eval_agree h he]
  by_cases hyx : y = x
  · rw [hyx, Function.update_self, Function.update_self]
  · rw [Function.update_of_ne hyx, Function.update_of_ne hyx]
    exact (m.agree_run_instrs hN σ y hy).trans (h y hy)

/-- **The code of assignments does what they do**, one after the other, the temporaries apart. -/
theorem agree_run_assignmentCode : ∀ {as : List (String × Expr)} {n : Nat} (_ : ∀ a ∈ as, a.2.Readable N)
    (_ : n + operationCount as ≤ N) {σ σ' : Store V} (_ : σ.Agree N σ'),
    Store.Agree N (m.run σ (assignmentCode n as)) (m.assignAll σ' as)
  | [], _, _, _, _, _, h => h
  | (x, e) :: as, n, has, hN, σ, σ', h => by
    have hcode : assignmentCode n ((x, e) :: as) =
        (e.instrs n ++ [.copy x (e.operand n)]) ++ assignmentCode (n + e.operations) as := by
      rw [assignmentCode, List.append_assoc, List.singleton_append]
    have he : e.Readable N := has (x, e) List.mem_cons_self
    have has' : ∀ a ∈ as, a.2.Readable N := by
      intro a ha
      exact has a (List.mem_cons_of_mem _ ha)
    rw [operationCount] at hN
    have hstep : Store.Agree N (m.run σ (e.instrs n ++ [.copy x (e.operand n)])) (m.assign σ' (x, e)) :=
      m.agree_run_assignment he (by omega) h
    rw [hcode, run_append]
    exact agree_run_assignmentCode has' (by omega) hstep

end Meaning

/-! ## Texts -/

theorem Expr.readable_of_from [Text.WordClass] {text : String} {N : Nat}
    (h : ∀ x, Occurs (tokenize text) .identifier x → ∀ k < N, x ≠ temporary k) :
    ∀ {e : Expr}, e.From (tokenize text) → e.Readable N
  | .name x, hx => by
    refine ⟨?_, h x hx⟩
    obtain ⟨t, ht, hk, rfl⟩ := hx
    exact not_isNumeral_of_mem ht hk
  | .number digits, hx => by
    obtain ⟨t, ht, hk, rfl⟩ := hx
    exact isNumeral_of_mem ht hk
  | .binary _ _ _, hx => ⟨readable_of_from h hx.1, readable_of_from h hx.2⟩

theorem Meaning.agree_run_code [Text.WordClass] {V : Type u} (m : Meaning V) {text : String} {a : Analysis} {p : Program}
    (h : check text = .ok a) (hp : p.tokens = tokenize text)
    (hnames : ∀ x, Occurs (tokenize text) .identifier x → ∀ k < operationCount p.assignments, x ≠ temporary k)
    (σ : Store V) : Store.Agree (operationCount p.assignments) (m.run σ a.code) (m.assignAll σ p.assignments) := by
  rw [check, ← hp] at h
  obtain ⟨-, rfl⟩ := analyze_program.1 h
  have hreadable : ∀ b ∈ p.assignments, b.2.Readable (operationCount p.assignments) := by
    intro b hb
    have hfrom : b.2.From p.tokens := (Program.assignments_from hb).2
    rw [hp] at hfrom
    exact Expr.readable_of_from hnames hfrom
  have hcount : 0 + operationCount p.assignments ≤ operationCount p.assignments := by omega
  rw [Program.analysis, Program.code_eq]
  exact m.agree_run_assignmentCode hreadable hcount (fun _ _ => rfl)

/-- **The code means what the text means**: where no name of an accepted text looks like a temporary, running the code
leaves every other name with the value that the assignments leave it with, in the order in which they stand and whatever
blocks they stand in. -/
theorem run_code_eq_assignAll [Text.WordClass] (text : String) (a : Analysis) (h : check text = .ok a)
    (hnames : ∀ t ∈ tokenize text, t.kind = .identifier → isTemporaryName t.lexeme = false) :
    (∃ p : Program, p.tokens = tokenize text) ∧
      ∀ (p : Program), p.tokens = tokenize text → ∀ (V : Type u) (m : Meaning V) (σ : Store V) (x : String),
        isTemporaryName x = false → m.run σ a.code x = m.assignAll σ p.assignments x := by
  constructor
  · obtain ⟨p, hp, -⟩ := analyze_eq_ok_iff.1 h
    exact ⟨p, hp⟩
  · intro p hp V m σ x hx
    have hne : ∀ y, Occurs (tokenize text) .identifier y → ∀ k < operationCount p.assignments, y ≠ temporary k := by
      rintro _ ⟨t, ht, hk, rfl⟩ k -
      exact ne_temporary (hnames t ht hk) k
    exact m.agree_run_code h hp hne σ x (fun k _ => ne_temporary hx k)

theorem run_code_product :
    check "int x; x = (1 + y) * 2;" =
        .ok ⟨.ofList ["x"], [.binary "t0" "1" .add "y", .binary "t1" "t0" .mul "2", .copy "x" "t1"]⟩ ∧
      ∃ p : Program, p.tokens = tokenize "int x; x = (1 + y) * 2;" ∧
        ∀ (V : Type) (m : Meaning V) (σ : Store V),
          m.run σ [.binary "t0" "1" .add "y", .binary "t1" "t0" .mul "2", .copy "x" "t1"] "x" =
            m.assignAll σ p.assignments "x" := by
  have h : check "int x; x = (1 + y) * 2;" =
      .ok ⟨.ofList ["x"], [.binary "t0" "1" .add "y", .binary "t1" "t0" .mul "2", .copy "x" "t1"]⟩ := rfl
  obtain ⟨⟨p, hp⟩, hrun⟩ := run_code_eq_assignAll _ _ h (by decide +kernel)
  exact ⟨h, p, hp, fun V m σ => hrun p hp V m σ "x" (by decide +kernel)⟩

end MiniLang
