import MiniLang.Analysis
/-!
# Descent

The analysis as a recursive descent, with a function for each phrase of the grammar and a cursor that only moves forward.
`previous` is the one look back.  Right-hand sides are written while they are read: each operation goes into the next
temporary as soon as its right side is read, and a function answers with the operand that holds what it read.

The functions call each other without a bound, so they are partial: one that did not come back would answer `none`.
They are methods of a descent, and `(· |>.f)` calls one on the descent that has been reached.
-/
namespace MiniLang

/-- A descent under way: all the tokens, how many of them are behind the cursor, and the draft. -/
structure Descent where
  tokens : List Token
  current : Nat
  draft : Draft
  deriving DecidableEq

namespace Descent

def start (ts : List Token) : Descent := ⟨ts, 0, .empty⟩

abbrev Parse := StateT Descent (ExceptT Refusal Option)

/-- What a method comes to: a refusal, or an answer and the descent behind it. -/
abbrev Step (α : Type) := ExceptT Refusal Option (α × Descent)

/-! ## The cursor -/

def isAtEnd (s : Descent) : Bool := s.tokens.length ≤ s.current

def peek (s : Descent) : Option Token := s.tokens[s.current]?

def previous (s : Descent) : Option Token := if s.current = 0 then none else s.tokens[s.current - 1]?

def check (s : Descent) (k : Kind) : Bool := s.peek.any (·.kind = k)

def next (s : Descent) : Descent := ⟨s.tokens, s.current + 1, s.draft⟩

/-- The token under the cursor, or the end of the text, was not what was called for. -/
def syntaxError (w : Expected) : Parse α := do throw ⟨.expected w, (← get).peek⟩

def advance : Parse Unit := do
  if (← get).peek.isSome then modify next

def matchKind (k : Kind) : Parse Bool := do
  if (← get).check k then
    advance
    return true
  else return false

def matchKeyword (k : Keyword) : Parse Bool := do
  if (← get).peek.any (fun t => t.kind = .keyword ∧ t.lexeme = k.word) then
    advance
    return true
  else return false

def consume (k : Kind) (w : Expected) : Parse Token := do
  match (← get).peek with
  | some t =>
    if t.kind = k then
      advance
      return t
    else syntaxError w
  | none => syntaxError w

def consumeMark (m : Mark) : Parse Unit := do
  let _ ← consume m.kind (.mark m)

def matchOperator (accept : Op → Bool) : Parse (Option Op) := do
  match (← get).peek with
  | some t =>
    match if t.kind = .operator then (Op.ofSymbol? t.lexeme).filter accept else none with
    | some op =>
      advance
      return some op
    | none => return none
  | none => return none

def matchAdditive : Parse (Option Op) := matchOperator fun op => !op.isMultiplicative

def matchMultiplicative : Parse (Option Op) := matchOperator Op.isMultiplicative

/-! ## Checked expressions -/

mutual

def checkExpression (s : Descent) : Step Unit := StateT.run (s := s) do
  (· |>.checkArithmetic)
  if ← matchKind .comparator then (· |>.checkArithmetic)
partial_fixpoint

def checkArithmetic (s : Descent) : Step Unit := StateT.run (s := s) do
  (· |>.checkTerm)
  (· |>.checkTerms)
partial_fixpoint

/-- The loop of `checkArithmetic`. -/
def checkTerms (s : Descent) : Step Unit := StateT.run (s := s) do
  if (← matchAdditive).isSome then
    (· |>.checkTerm)
    (· |>.checkTerms)
partial_fixpoint

def checkTerm (s : Descent) : Step Unit := StateT.run (s := s) do
  (· |>.checkFactor)
  (· |>.checkFactors)
partial_fixpoint

/-- The loop of `checkTerm`. -/
def checkFactors (s : Descent) : Step Unit := StateT.run (s := s) do
  if (← matchMultiplicative).isSome then
    (· |>.checkFactor)
    (· |>.checkFactors)
partial_fixpoint

def checkFactor (s : Descent) : Step Unit := StateT.run (s := s) do
  if ← matchKind .identifier <||> matchKind .number then return ()
  else if ← matchKind .leftParen then
    (· |>.checkExpression)
    consumeMark .closeExpression
  else syntaxError .operand
partial_fixpoint

end

/-! ## Right-hand sides -/

def emitBinary (left : String) (op : Op) (right : String) : Parse String := do
  let d := (← get).draft
  let (value, builder) := d.builder.binary left op right
  modify fun s => { s with draft := ⟨d.declared, builder⟩ }
  return value

def emitCopy (dest src : String) : Parse Unit :=
  modify fun s => { s with draft := ⟨s.draft.declared, s.draft.builder.copy dest src⟩ }

mutual

def emitExpression (s : Descent) : Step String := StateT.run (s := s) do
  let left ← (· |>.emitTerm)
  (· |>.emitTerms left)
partial_fixpoint

/-- The loop of `emitExpression`, behind what is held in `left`. -/
def emitTerms (left : String) (s : Descent) : Step String := StateT.run (s := s) do
  match ← matchAdditive with
  | some op =>
    let right ← (· |>.emitTerm)
    let value ← emitBinary left op right
    (· |>.emitTerms value)
  | none => return left
partial_fixpoint

def emitTerm (s : Descent) : Step String := StateT.run (s := s) do
  let left ← (· |>.emitFactor)
  (· |>.emitFactors left)
partial_fixpoint

/-- The loop of `emitTerm`, behind what is held in `left`. -/
def emitFactors (left : String) (s : Descent) : Step String := StateT.run (s := s) do
  match ← matchMultiplicative with
  | some op =>
    let right ← (· |>.emitFactor)
    let value ← emitBinary left op right
    (· |>.emitFactors value)
  | none => return left
partial_fixpoint

/-- A name or a number is its own operand; it has just been passed, so it is the token before. -/
def emitFactor (s : Descent) : Step String := StateT.run (s := s) do
  if ← matchKind .number <||> matchKind .identifier then
    match (← get).previous with
    | some t => return t.lexeme
    | none => syntaxError .operand
  else if ← matchKind .leftParen then
    let inner ← (· |>.emitExpression)
    consumeMark .closeExpression
    return inner
  else syntaxError .operand
partial_fixpoint

end

/-! ## Statements -/

def parseDeclaration : Parse Unit := do
  let t ← consume .identifier .newName
  if (← get).draft.declared.contains t.lexeme then throw ⟨.redeclared t.lexeme, some t⟩
  else
    modify fun s => { s with draft := ⟨s.draft.declared.insert t.lexeme, s.draft.builder⟩ }
    consumeMark .endDeclaration

def parseAssignment : Parse Unit := do
  let t ← consume .identifier .name
  if (← get).draft.declared.contains t.lexeme then
    consumeMark .assign
    let value ← emitExpression
    emitCopy t.lexeme value
    consumeMark .endAssignment
  else throw ⟨.undeclared t.lexeme, some t⟩

/-- The one name in a `print` that must be declared: the first, if nothing stands in front of it. -/
def checkPrinted : Parse Unit := do
  let s ← get
  match s.peek with
  | some t =>
    if t.kind = .identifier ∧ ¬ s.draft.declared.contains t.lexeme then throw ⟨.undeclared t.lexeme, some t⟩
    else return ()
  | none => return ()

def parsePrintStatement : Parse Unit := do
  consumeMark (.openHead .printWord)
  checkPrinted
  checkExpression
  consumeMark .closeExpression
  consumeMark .endPrint

mutual

def parseStatement (s : Descent) : Step Unit := StateT.run (s := s) do
  if ← matchKeyword .intWord then parseDeclaration
  else if (← get).check .identifier then parseAssignment
  else if ← matchKeyword .ifWord then (· |>.parseIfStatement)
  else if ← matchKeyword .whileWord then (· |>.parseWhileStatement)
  else if ← matchKeyword .printWord then parsePrintStatement
  else syntaxError .statement
partial_fixpoint

def parseIfStatement (s : Descent) : Step Unit := StateT.run (s := s) do
  consumeMark (.openHead .ifWord)
  checkExpression
  consumeMark .closeCondition
  (· |>.parseBlock)
  if ← matchKeyword .elseWord then (· |>.parseBlock)
partial_fixpoint

def parseWhileStatement (s : Descent) : Step Unit := StateT.run (s := s) do
  consumeMark (.openHead .whileWord)
  checkExpression
  consumeMark .closeCondition
  (· |>.parseBlock)
partial_fixpoint

def parseBlock (s : Descent) : Step Unit := StateT.run (s := s) do
  consumeMark .openBlock
  (· |>.parseBody)
  consumeMark .closeBlock
partial_fixpoint

/-- The loop of `parseBlock`. -/
def parseBody (s : Descent) : Step Unit := StateT.run (s := s) do
  let s ← get
  if !s.check .rightBrace && !s.isAtEnd then
    (· |>.parseStatement)
    (· |>.parseBody)
partial_fixpoint

end

/-- The loop over the statements of the text. -/
def parseStatements (s : Descent) : Step Unit := StateT.run (s := s) do
  if !(← get).isAtEnd then
    parseStatement
    (· |>.parseStatements)
partial_fixpoint

/-- What comes of a function from a state on; nothing, if it does not come back. -/
def run (p : Parse α) (s : Descent) : Option (Except Refusal (α × Descent)) := ExceptT.run (StateT.run p s)

def analyze (ts : List Token) : Option (Except Refusal Analysis) :=
  (run parseStatements (start ts)).map fun o => o.map fun (_, s) => ⟨s.draft.declared, s.draft.builder.code⟩

end Descent

end MiniLang
