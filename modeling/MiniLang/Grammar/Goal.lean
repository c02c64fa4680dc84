import MiniLang.Diagnostic
import MiniLang.Expr
/-!
# Goals

The grammar as a pushdown machine.  Its stack holds what is still to be read, and one token decides what becomes of it:
goals that may be empty are left behind until one takes the token, and the goals of what that token opens go on the
stack.  A goal that must take the token and cannot refuses it, so a token is refused without a look at what follows it.

Expressions are read in two ways.  A *checked* one stands in a condition or in a `print`; it may compare, once at its
own level and once in each of its parentheses, and nothing is kept of it.  A *lowered* one is the right-hand side of an
assignment; it holds no comparison and its tree is built on the way: `held` is the tree read last, and `join` puts it
to the right of the tree that stood before an operator.
-/
namespace MiniLang

inductive Use where
  | checked | lowered
  deriving DecidableEq, Repr

inductive Goal where
  /-- Statements, to the end of the text. -/
  | statements
  | statement
  /-- Statements, and the brace that closes their block. -/
  | body
  /-- An `else` with its block, or nothing. -/
  | alternative
  | newName
  | mark (m : Mark)
  /-- The first operand of what is printed: if it is a name, it is one that must be declared. -/
  | printed
  /-- A number, a name or an expression in parentheses. -/
  | operand (u : Use)
  /-- Any number of further factors, each behind `*` or `/`. -/
  | factors (u : Use)
  /-- Any number of further terms, each behind `+` or `-`. -/
  | terms (u : Use)
  /-- A comparator with its right-hand side, or nothing. -/
  | comparison
  | join (op : Op) (left : Expr)
  /-- The semicolon of an assignment to `x`, whose right-hand side is held up to there. -/
  | assigned (x : String)
  deriving DecidableEq, Repr

/-- What a program does with a name, noted at the token that says so. -/
inductive Event where
  | declare (x : String)
  | mention (x : String)
  | assign (x : String) (e : Expr)
  deriving DecidableEq, Repr

/-- What becomes of a stack of goals at a token. -/
inductive Move where
  | take (goals : List Goal) (held : Expr) (event : Option Event)
  | pass (held : Expr)
  | refuse (wanted : Expected)
  deriving DecidableEq, Repr

namespace Goal

def arithmetic (u : Use) : List Goal := [operand u, factors u, terms u]

def condition : List Goal := arithmetic .checked ++ [comparison]

/-- What stands between parentheses inside an expression, with the closing one. -/
def parenthesised : Use → List Goal
  | .checked => condition ++ [mark .closeExpression]
  | .lowered => arithmetic .lowered ++ [mark .closeExpression]

def block : List Goal := [mark .openBlock, body]

def guarded (k : Keyword) : List Goal := mark (.openHead k) :: (condition ++ mark .closeCondition :: block)

/-- What an assignment opens.  Its name is asked for here, although a statement that starts with none is no assignment. -/
def openAssignment (t : Token) : Except Expected (List Goal × Option Event) :=
  if t.kind = .identifier then
    .ok (mark .assign :: (arithmetic .lowered ++ [assigned t.lexeme]), some (.mention t.lexeme))
  else .error .name

/-- What a statement opens that starts with the token, and what the token says. -/
def openStatement (t : Token) : Except Expected (List Goal × Option Event) :=
  match t.kind with
  | .identifier => openAssignment t
  | .keyword =>
    match t.keyword? with
    | some .intWord => .ok ([newName, mark .endDeclaration], none)
    | some .ifWord => .ok (guarded .ifWord ++ [alternative], none)
    | some .whileWord => .ok (guarded .whileWord, none)
    | some .printWord =>
      .ok (mark (.openHead .printWord) :: printed :: factors .checked :: terms .checked :: comparison ::
        [mark .closeExpression, mark .endPrint], none)
    | _ => .error .statement
  | _ => .error .statement

def enter (gs : List Goal) (held : Expr) (t : Token) : Move :=
  match openStatement t with
  | .ok (opened, event) => .take (opened ++ gs) held event
  | .error wanted => .refuse wanted

/-- The tree that is held behind a name or a number. -/
def leaf (u : Use) (held e : Expr) : Expr :=
  match u with
  | .checked => held
  | .lowered => e

def enterOperand (u : Use) (gs : List Goal) (held : Expr) (t : Token) : Move :=
  match t.kind with
  | .number => .take gs (leaf u held (.number t.lexeme)) none
  | .identifier => .take gs (leaf u held (.name t.lexeme)) none
  | .leftParen => .take (parenthesised u ++ gs) held none
  | _ => .refuse .operand

/-- The operation that a token stands for, of the two that bind tightly or of the two that do not. -/
def operator? (multiplicative : Bool) (t : Token) : Option Op :=
  if t.kind = .operator then (Op.ofSymbol? t.lexeme).filter (·.isMultiplicative == multiplicative) else none

/-- Remembers the left side of an operation, where a tree is built. -/
def joins (u : Use) (op : Op) (left : Expr) : List Goal :=
  match u with
  | .checked => []
  | .lowered => [join op left]

def read (held : Expr) (t : Token) : List Goal → Move
  | [] => .pass held
  | statements :: gs => enter (statements :: gs) held t
  | statement :: gs => enter gs held t
  | body :: gs => if t.kind = .rightBrace then .take gs held none else enter (body :: gs) held t
  | alternative :: gs => if t.keyword? = some .elseWord then .take (block ++ gs) held none else read held t gs
  | newName :: gs => if t.kind = .identifier then .take gs held (some (.declare t.lexeme)) else .refuse .newName
  | mark m :: gs => if t.kind = m.kind then .take gs held none else .refuse (.mark m)
  | printed :: gs =>
    if t.kind = .identifier then .take gs held (some (.mention t.lexeme)) else enterOperand .checked gs held t
  | operand u :: gs => enterOperand u gs held t
  | factors u :: gs =>
    match operator? true t with
    | some op => .take (operand u :: (joins u op held ++ factors u :: gs)) held none
    | none => read held t gs
  | terms u :: gs =>
    match operator? false t with
    | some op => .take (operand u :: factors u :: (joins u op held ++ terms u :: gs)) held none
    | none => read held t gs
  | comparison :: gs =>
    if t.kind = .comparator then .take (arithmetic .checked ++ gs) held none else read held t gs
  | join op left :: gs => read (.binary op left held) t gs
  | assigned x :: gs =>
    if t.kind = .semicolon then .take gs default (some (.assign x held)) else .refuse (.mark .endAssignment)

/-- What the goals still call for where the text ends; if nothing, the tree that is held then. -/
def close (held : Expr) : List Goal → Except Expected Expr
  | [] => .ok held
  | statements :: gs | alternative :: gs | factors _ :: gs | terms _ :: gs | comparison :: gs => close held gs
  | join op left :: gs => close (.binary op left held) gs
  | statement :: _ => .error .statement
  | body :: _ => .error (.mark .closeBlock)
  | newName :: _ => .error .newName
  | mark m :: _ => .error (.mark m)
  | printed :: _ | operand _ :: _ => .error .operand
  | assigned _ :: _ => .error (.mark .endAssignment)

end Goal

end MiniLang
