import MiniLang.Code
/-!
# Builder

The code written so far and the number of temporaries handed out.  Code is only ever added at the end, and the
temporaries are `t0`, `t1`, … in the order in which they are asked for.  The log holds the latest instruction first, so
that one is added in one step; `code` is the order of writing, and what each operation does is said of it.

Lowering writes an expression in post-order: the code of the left side, that of the right side, then the operation into
the next temporary.  A name or a number is its own operand and needs no instruction.
-/
namespace MiniLang

def temporary (n : Nat) : String := "t" ++ toString n

structure Builder where
  log : List Instr
  temps : Nat
  deriving DecidableEq, Repr

namespace Builder

def empty : Builder := ⟨[], 0⟩

/-- The instructions in the order in which they were written. -/
def code (b : Builder) : List Instr := b.log.reverse

def nextTemporary (b : Builder) : String × Builder := (temporary b.temps, ⟨b.log, b.temps + 1⟩)

def binary (b : Builder) (lhs : String) (op : Op) (rhs : String) : String × Builder :=
  (temporary b.temps, ⟨.binary (temporary b.temps) lhs op rhs :: b.log, b.temps + 1⟩)

def copy (b : Builder) (dest src : String) : Builder := ⟨.copy dest src :: b.log, b.temps⟩

/-- Writes the code of an expression and names the operand that holds its value. -/
def lower (b : Builder) : Expr → String × Builder
  | .name x => (x, b)
  | .number digits => (digits, b)
  | .binary op left right =>
    let (x, b) := b.lower left
    let (y, b) := b.lower right
    b.binary x op y

def assign (b : Builder) (x : String) (e : Expr) : Builder :=
  let (value, b) := b.lower e
  b.copy x value

@[simp] theorem code_empty : empty.code = [] := rfl

@[simp] theorem code_nextTemporary (b : Builder) : b.nextTemporary.2.code = b.code := rfl

@[simp] theorem code_binary (b : Builder) (lhs : String) (op : Op) (rhs : String) :
    (b.binary lhs op rhs).2.code = b.code ++ [.binary (temporary b.temps) lhs op rhs] := List.reverse_cons

@[simp] theorem code_copy (b : Builder) (dest src : String) : (b.copy dest src).code = b.code ++ [.copy dest src] :=
  List.reverse_cons

end Builder

end MiniLang
