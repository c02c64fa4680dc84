/-!
# Expressions

The right-hand side of an assignment: names and numbers under the four operations.  Parentheses leave no trace here,
they only say how the tree is built.
-/
namespace MiniLang

inductive Op where
  | add | sub | mul | div
  deriving DecidableEq, Repr

namespace Op

def symbol : Op → String
  | add => "+"
  | sub => "-"
  | mul => "*"
  | div => "/"

def all : List Op := [add, sub, mul, div]

def ofSymbol? (s : String) : Option Op := all.find? (·.symbol == s)

/-- Whether the operation binds before addition and subtraction do. -/
def isMultiplicative : Op → Bool
  | mul | div => true
  | add | sub => false

theorem ofSymbol?_symbol (op : Op) : ofSymbol? op.symbol = some op := by cases op <;> decide

end Op

inductive Expr where
  | name (x : String)
  | number (digits : String)
  | binary (op : Op) (left right : Expr)
  deriving DecidableEq, Repr, Inhabited

end MiniLang
