import MiniLang.Token
/-!
# Diagnostics

What can be wrong with a program, kept as causes.  A syntax fault names what was expected, a declaration fault the
variable.  A refusal is the one fault that ends an analysis, with the token at which it arose; a diagnostic is the form
in which it is shown.
-/
namespace MiniLang

/-- A token of punctuation in its place in the grammar. -/
inductive Mark where
  | endDeclaration | endAssignment | endPrint
  | assign
  /-- The parenthesis that opens what follows `if`, `while` or `print`. -/
  | openHead (k : Keyword)
  | closeCondition | closeExpression
  | openBlock | closeBlock
  deriving DecidableEq, Repr

namespace Mark

def kind : Mark → Kind
  | endDeclaration | endAssignment | endPrint => .semicolon
  | assign => .assign
  | openHead _ => .leftParen
  | closeCondition | closeExpression => .rightParen
  | openBlock => .leftBrace
  | closeBlock => .rightBrace

def message : Mark → String
  | endDeclaration => "Expected ';' after declaration."
  | endAssignment => "Expected ';' after assignment."
  | endPrint => "Expected ';' after print statement."
  | assign => "Expected '=' in assignment."
  | openHead k => "Expected '(' after '" ++ k.word ++ "'."
  | closeCondition => "Expected ')' after condition."
  | closeExpression => "Expected ')' after expression."
  | openBlock => "Expected '\x7b' to start block."
  | closeBlock => "Expected '\x7d' to close block."

end Mark

/-- What the grammar calls for at a place. -/
inductive Expected where
  | mark (m : Mark)
  | statement
  | name
  | newName
  | operand
  deriving DecidableEq, Repr

def Expected.message : Expected → String
  | mark m => m.message
  | statement => "Expected a valid statement."
  | name => "Expected variable name."
  | newName => "Expected variable name after 'int'."
  | operand => "Expected number, variable, or expression."

inductive Category where
  | syntaxError | redeclaration | undeclared
  deriving DecidableEq, Repr

namespace Category

def code : Category → String
  | syntaxError => "E1001"
  | redeclaration => "E1002"
  | undeclared => "E1003"

def title : Category → String
  | syntaxError => "Syntax Error"
  | redeclaration => "Redeclaration Error"
  | undeclared => "Semantic Error"

end Category

inductive Fault where
  | expected (w : Expected)
  | redeclared (x : String)
  | undeclared (x : String)
  deriving DecidableEq, Repr

namespace Fault

def category : Fault → Category
  | expected _ => .syntaxError
  | redeclared _ => .redeclaration
  | undeclared _ => .undeclared

def message : Fault → String
  | expected w => w.message
  | redeclared x => "Variable '" ++ x ++ "' already declared."
  | undeclared x => "Variable '" ++ x ++ "' not declared."

end Fault

/-- A diagnostic as it is shown; nothing was found where the text ended. -/
structure Diagnostic where
  category : Category
  message : String
  found : Option Token
  deriving DecidableEq, Repr

def foundText : Option Token → String
  | some t => t.text
  | none => "EOF"

def Diagnostic.text (d : Diagnostic) : String :=
  d.category.title ++ ": " ++ d.message ++ " at token: " ++ foundText d.found

structure Refusal where
  fault : Fault
  found : Option Token
  deriving DecidableEq, Repr

def Refusal.diagnostic (r : Refusal) : Diagnostic := ⟨r.fault.category, r.fault.message, r.found⟩

end MiniLang
