import MiniLang.Expr
/-!
# Three-address code

An instruction stores one operation, or one copy, under a name.  A listing has one instruction a line.
-/
namespace MiniLang

inductive Instr where
  | binary (dest lhs : String) (op : Op) (rhs : String)
  | copy (dest src : String)
  deriving DecidableEq, Repr

namespace Instr

def dest : Instr → String
  | binary dest .. => dest
  | copy dest _ => dest

def text : Instr → String
  | binary dest lhs op rhs => dest ++ " = " ++ lhs ++ " " ++ op.symbol ++ " " ++ rhs
  | copy dest src => dest ++ " = " ++ src

def listing (code : List Instr) : String := String.join (code.map fun i => i.text ++ "\n")

end Instr

end MiniLang
