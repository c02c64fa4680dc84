import MiniLang.Text.WordChar
import MiniLang.Token
import MiniLang.Token.Pattern
/-!
# The lexicon

Which texts are tokens.  A lexicon is a list of rules, tried in order at every place from left to right; the first that
fits takes its characters, and a character at which no rule fits is passed over.  Words need an edge on both sides, so
`123abc` holds no token at all.

`tokenize` reads with the lexicon of MiniLang, whatever the word characters beyond ASCII are.  An identifier that is
reserved is a keyword, whichever rule found it.
-/
namespace MiniLang

structure Rule where
  kind : Kind
  pattern : Pattern

structure Lexicon where
  rules : List Rule
  /-- Whether an identifier that is a reserved word counts as a keyword. -/
  reserves : Bool

namespace Lexicon

/-- The kind and the length of the token that starts here. -/
def token? (lx : Lexicon) (before : Option Char) (ahead : List Char) : Option (Kind × Nat) :=
  lx.rules.findSome? fun r => (r.pattern.length? before ahead).map (r.kind, ·)

def kindOf (lx : Lexicon) (found : Kind) (lexeme : String) : Kind :=
  if lx.reserves && found == .identifier && isReserved lexeme then .keyword else found

/-- The tokens from a place on, where the next `inside` characters belong to a token already found. -/
def scan (lx : Lexicon) (before : Option Char) (inside : Nat) (pos : Position) : List Char → List Token
  | [] => []
  | c :: s =>
    match inside with
    | n + 1 => lx.scan (some c) n (pos.after c) s
    | 0 =>
      match lx.token? before (c :: s) with
      | some (kind, n + 1) =>
        let lexeme := String.ofList ((c :: s).take (n + 1))
        ⟨lx.kindOf kind lexeme, lexeme, pos⟩ :: lx.scan (some c) n (pos.after c) s
      | _ => lx.scan (some c) 0 (pos.after c) s

def tokens (lx : Lexicon) (text : String) : List Token := lx.scan none 0 .start text.toList

end Lexicon

def isLetter (c : Char) : Bool := c.isAlpha || c == '_'

section

variable [Text.WordClass]

def Pattern.asWord (a : Pattern) : Pattern := seq (edge Text.isWordChar) (seq a (edge Text.isWordChar))

def lexicon : Lexicon where
  rules := [
    ⟨.keyword, (Pattern.anyOf (Keyword.all.map (·.word))).asWord⟩,
    ⟨.identifier, (Pattern.seq (.one isLetter) (.many fun c => isLetter c || c.isDigit)).asWord⟩,
    ⟨.number, (Pattern.seq (.one Char.isDigit) (.many Char.isDigit)).asWord⟩,
    ⟨.assign, .char '='⟩,
    ⟨.semicolon, .char ';'⟩,
    ⟨.operator, .one fun c => c == '+' || c == '-' || c == '*' || c == '/'⟩,
    ⟨.comparator, .one fun c => c == '<' || c == '>'⟩,
    ⟨.leftParen, .char '('⟩,
    ⟨.rightParen, .char ')'⟩,
    ⟨.leftBrace, .char '\x7b'⟩,
    ⟨.rightBrace, .char '\x7d'⟩]
  reserves := true

def tokenize (text : String) : List Token := lexicon.tokens text

end

end MiniLang
