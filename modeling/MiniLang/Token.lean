/-!
# Tokens

A MiniLang text is read as a list of tokens: a kind, the text that was read, and the place where it starts.  Five words
are reserved and are keywords wherever they stand as words of their own.
-/
namespace MiniLang

inductive Keyword where
  | intWord | ifWord | elseWord | whileWord | printWord
  deriving DecidableEq, Repr

namespace Keyword

def word : Keyword → String
  | intWord => "int"
  | ifWord => "if"
  | elseWord => "else"
  | whileWord => "while"
  | printWord => "print"

def all : List Keyword := [intWord, ifWord, elseWord, whileWord, printWord]

def ofWord? (w : String) : Option Keyword := all.find? (·.word == w)

end Keyword

/-- Whether a word belongs to the language and can be no variable. -/
def isReserved (w : String) : Bool := (Keyword.ofWord? w).isSome

inductive Kind where
  | keyword | identifier | number
  | assign | operator | comparator
  | semicolon | leftParen | rightParen | leftBrace | rightBrace
  deriving DecidableEq, Repr

namespace Kind

def name : Kind → String
  | keyword => "KEYWORD"
  | identifier => "IDENTIFIER"
  | number => "NUMBER"
  | assign => "ASSIGN_OP"
  | operator => "OPERATOR"
  | comparator => "COMPARATOR"
  | semicolon => "SEMICOLON"
  | leftParen => "LEFT_PAREN"
  | rightParen => "RIGHT_PAREN"
  | leftBrace => "LEFT_BRACE"
  | rightBrace => "RIGHT_BRACE"

end Kind

/-- A line and a column, both counted from 1.  A column is one character, whatever its width. -/
structure Position where
  line : Nat
  col : Nat
  deriving DecidableEq, Repr

namespace Position

def start : Position := ⟨1, 1⟩

/-- The position behind a character: only a line feed starts a line. -/
def after (p : Position) (c : Char) : Position :=
  if c = '\n' then ⟨p.line + 1, 1⟩ else ⟨p.line, p.col + 1⟩

end Position

/-- A piece of the text.  Nothing ties the lexeme to the kind: a token made by hand may carry any text. -/
structure Token where
  kind : Kind
  lexeme : String
  pos : Position
  deriving DecidableEq, Repr

namespace Token

def keyword? (t : Token) : Option Keyword :=
  if t.kind = .keyword then Keyword.ofWord? t.lexeme else none

def text (t : Token) : String := "(" ++ t.kind.name ++ ", " ++ t.lexeme ++ ")"

def listing (ts : List Token) : String :=
  "Lexical Tokens:\n" ++ String.join (ts.map fun t => t.text ++ "\n")

end Token

end MiniLang
