import MiniLang.Grammar.Goal
/-!
# Phrases

The grammar as types: a value of one of them is a derivation, and `tokens` are the tokens it derives.  A leaf carries
the proof that its token stands for the terminal of its place, so no ill-formed phrase can be built.

    program     := statement*
    statement   := 'int' IDENT ';'  |  IDENT '=' exprCode ';'  |  'if' '(' expr ')' block ( 'else' block )?
                 | 'while' '(' expr ')' block  |  'print' '(' expr ')' ';'
    block       := '{' statement* '}'
    expr        := arith ( COMPARATOR arith )?
    arith       := term ( ('+'|'-') term )*
    term        := factor ( ('*'|'/') factor )*
    factor      := IDENT | NUMBER | '(' expr ')'

`exprCode` is built like `arith`, with `'(' exprCode ')'` for `'(' expr ')'`: the two families of expressions are one
family with a use, and only a checked phrase may compare.  `( op x )*` is written as left recursion, which is how it is
read.  A phrase of the lowered family has the tree `expr`; in a checked one nobody asks for it.
-/
namespace MiniLang

/-- What a place in the grammar calls for: keywords and operators are told apart by their text, all else by kind. -/
inductive Terminal where
  | keyword (k : Keyword)
  | operator (op : Op)
  | kind (k : Kind)

def Terminal.Fits : Terminal → Token → Prop
  | keyword k, t => t.kind = .keyword ∧ t.lexeme = k.word
  | operator op, t => t.kind = .operator ∧ t.lexeme = op.symbol
  | kind k, t => t.kind = k

/-- A token that stands for a terminal. -/
structure Leaf (T : Terminal) where
  token : Token
  fits : T.Fits token

namespace Leaf

theorem kind_eq {k : Kind} (t : Leaf (.kind k)) : t.token.kind = k := t.fits

theorem kind_keyword {k : Keyword} (t : Leaf (.keyword k)) : t.token.kind = .keyword := t.fits.1

end Leaf

mutual

inductive Factor (u : Use) : Type where
  | name (t : Leaf (.kind .identifier))
  | number (t : Leaf (.kind .number))
  | group (left : Leaf (.kind .leftParen)) (a : Arith u) (c : Comparison u) (right : Leaf (.kind .rightParen))

inductive Term (u : Use) : Type where
  | factor (f : Factor u)
  | times (a : Term u) (op : Op) (binds : op.isMultiplicative = true) (sign : Leaf (.operator op)) (f : Factor u)

inductive Arith (u : Use) : Type where
  | term (t : Term u)
  | plus (a : Arith u) (op : Op) (binds : op.isMultiplicative = false) (sign : Leaf (.operator op)) (t : Term u)

inductive Comparison (u : Use) : Type where
  | absent
  | present (isChecked : u = .checked) (sign : Leaf (.kind .comparator)) (a : Arith u)

end

variable {u : Use}

mutual

def Factor.tokens : Factor u → List Token
  | .name t => [t.token]
  | .number t => [t.token]
  | .group left a c right => left.token :: (a.tokens ++ (c.tokens ++ [right.token]))

def Term.tokens : Term u → List Token
  | .factor f => f.tokens
  | .times a _ _ sign f => a.tokens ++ sign.token :: f.tokens

def Arith.tokens : Arith u → List Token
  | .term t => t.tokens
  | .plus a _ _ sign t => a.tokens ++ sign.token :: t.tokens

def Comparison.tokens : Comparison u → List Token
  | .absent => []
  | .present _ sign a => sign.token :: a.tokens

end

mutual

def Factor.expr : Factor u → Expr
  | .name t => .name t.token.lexeme
  | .number t => .number t.token.lexeme
  | .group _ a _ _ => a.expr

def Term.expr : Term u → Expr
  | .factor f => f.expr
  | .times a op _ _ f => .binary op a.expr f.expr

def Arith.expr : Arith u → Expr
  | .term t => t.expr
  | .plus a op _ _ t => .binary op a.expr t.expr

end

structure Condition where
  arith : Arith .checked
  comparison : Comparison .checked

def Condition.tokens (c : Condition) : List Token := c.arith.tokens ++ c.comparison.tokens

structure Head (k : Keyword) where
  word : Leaf (.keyword k)
  left : Leaf (.kind .leftParen)
  condition : Condition
  right : Leaf (.kind .rightParen)

def Head.tokens {k : Keyword} (h : Head k) : List Token :=
  h.word.token :: h.left.token :: (h.condition.tokens ++ [h.right.token])

mutual

inductive Statement : Type where
  | declaration (word : Leaf (.keyword .intWord)) (name : Leaf (.kind .identifier)) (endMark : Leaf (.kind .semicolon))
  | assignment (target : Leaf (.kind .identifier)) (sign : Leaf (.kind .assign)) (value : Arith .lowered)
      (endMark : Leaf (.kind .semicolon))
  | branch (head : Head .ifWord) (body : Block) (other : Alternative)
  | loop (head : Head .whileWord) (body : Block)
  | print (head : Head .printWord) (endMark : Leaf (.kind .semicolon))

inductive Block : Type where
  | braces (left : Leaf (.kind .leftBrace)) (p : Program) (right : Leaf (.kind .rightBrace))

inductive Alternative : Type where
  | absent
  | present (word : Leaf (.keyword .elseWord)) (body : Block)

inductive Program : Type where
  | done
  | next (s : Statement) (p : Program)

end

mutual

def Statement.tokens : Statement → List Token
  | .declaration word name endMark => [word.token, name.token, endMark.token]
  | .assignment target sign value endMark => target.token :: sign.token :: (value.tokens ++ [endMark.token])
  | .branch head body other => head.tokens ++ (body.tokens ++ other.tokens)
  | .loop head body => head.tokens ++ body.tokens
  | .print head endMark => head.tokens ++ [endMark.token]

def Block.tokens : Block → List Token
  | .braces left p right => left.token :: (p.tokens ++ [right.token])

def Alternative.tokens : Alternative → List Token
  | .absent => []
  | .present word body => word.token :: body.tokens

def Program.tokens : Program → List Token
  | .done => []
  | .next s p => s.tokens ++ p.tokens

end

end MiniLang
