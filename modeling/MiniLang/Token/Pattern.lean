/-!
# Patterns

A small language of patterns over a text with ordered choice.  A pattern has a list of ends at each place, the preferred
one first: `alt` prefers its left side, `many` prefers the longest run, and `edge` looks at the characters on both sides
of the place, also at those already passed.  Only single characters are repeated, so each run is finite and the ends of
every pattern are found by recursion on the text.
-/
namespace MiniLang

/-- A place in a text: the character just before it, the text ahead, and how many characters a match has passed. -/
structure Place where
  before : Option Char
  ahead : List Char
  passed : Nat

inductive Pattern where
  | empty
  /-- A word character on exactly one side. -/
  | edge (word : Char → Bool)
  | one (p : Char → Bool)
  /-- A run of characters of a class, the longest first. -/
  | many (p : Char → Bool)
  | seq (a b : Pattern)
  | alt (a b : Pattern)

/-- Whether the place lies between a word character and something else. -/
def Place.isEdge (word : Char → Bool) (p : Place) : Bool := p.before.any word != p.ahead.head?.any word

namespace Pattern

/-- The places along a run, the last of them first, in front of those in `short`. -/
def runEnds (p : Char → Bool) (before : Option Char) (passed : Nat) (short : List Place) : List Char → List Place
  | [] => ⟨before, [], passed⟩ :: short
  | c :: s =>
    if p c then runEnds p (some c) (passed + 1) (⟨before, c :: s, passed⟩ :: short) s
    else ⟨before, c :: s, passed⟩ :: short

/-- The places where a match may end, in order of preference. -/
def ends : Pattern → Place → List Place
  | empty, p => [p]
  | edge word, p => if p.isEdge word then [p] else []
  | one q, ⟨_, c :: s, n⟩ => if q c then [⟨some c, s, n + 1⟩] else []
  | one _, ⟨_, [], _⟩ => []
  | many q, p => runEnds q p.before p.passed [] p.ahead
  | seq a b, p => (a.ends p).flatMap b.ends
  | alt a b, p => a.ends p ++ b.ends p

def length? (a : Pattern) (before : Option Char) (ahead : List Char) : Option Nat :=
  (a.ends ⟨before, ahead, 0⟩).head?.map (·.passed)

def never : Pattern := one fun _ => false

def char (c : Char) : Pattern := one (· == c)

def text (s : List Char) : Pattern := s.foldr (fun c a => seq (char c) a) empty

def anyOf (ws : List String) : Pattern := ws.foldr (fun w a => alt (text w.toList) a) never

end Pattern

end MiniLang
