import MiniLang.Code.Builder
import MiniLang.Grammar.Goal
import MiniLang.Names
import MiniLang.Token.Lexicon
/-!
# Analysis

One pass over the tokens: the grammar says what may stand where, and each event is noted in a draft, which holds the
names declared so far and the code written so far.  There is one flat scope: a name is declared from its declaration on,
whatever blocks stand around it.  The first fault ends the analysis and nothing of the draft is kept.

A token is first read by the grammar, then its event is noted, so a fault depends on nothing behind its token.
-/
namespace MiniLang

structure Draft where
  declared : Names
  builder : Builder
  deriving DecidableEq

namespace Draft

def empty : Draft := ⟨.empty, .empty⟩

def note (d : Draft) : Event → Except Fault Draft
  | .declare x => if d.declared.contains x then .error (.redeclared x) else .ok ⟨d.declared.insert x, d.builder⟩
  | .mention x => if d.declared.contains x then .ok d else .error (.undeclared x)
  | .assign x e => .ok ⟨d.declared, d.builder.assign x e⟩

def noteAny (d : Draft) : Option Event → Except Fault Draft
  | some event => d.note event
  | none => .ok d

end Draft

/-- An analysis under way: the goals still to be met, the tree read last, and the draft. -/
structure Reader where
  goals : List Goal
  held : Expr
  draft : Draft
  deriving DecidableEq

namespace Reader

def start : Reader := ⟨[.statements], default, .empty⟩

/-- Reads until the goals are met; answers with the tokens that are left. -/
def meet (r : Reader) : List Token → Except Refusal (Reader × List Token)
  | [] =>
    match Goal.close r.held r.goals with
    | .ok held => .ok (⟨[], held, r.draft⟩, [])
    | .error wanted => .error ⟨.expected wanted, none⟩
  | t :: ts =>
    match Goal.read r.held t r.goals with
    | .pass held => .ok (⟨[], held, r.draft⟩, t :: ts)
    | .refuse wanted => .error ⟨.expected wanted, some t⟩
    | .take goals held event =>
      match r.draft.noteAny event with
      | .ok draft => meet ⟨goals, held, draft⟩ ts
      | .error fault => .error ⟨fault, some t⟩

end Reader

structure Analysis where
  declared : Names
  code : List Instr
  deriving DecidableEq

namespace Analysis

def heading : String := "Syntax Analysis: Passed.\n"

def codeHeading : String := "Generated 3-Address Code:\n"

def namesHeading : String := "Declared Variables (Symbol Table):\n"

def listing (a : Analysis) : String := Instr.listing a.code

/-- The declared names in the order in which they are listed. -/
def symbols (a : Analysis) : List String := a.declared.toList

/-- The code, unless there is none, and the names in their order. -/
def report (a : Analysis) : String :=
  heading ++ (if a.code.isEmpty then "" else codeHeading ++ a.listing) ++ namesHeading ++
    String.join (a.symbols.map fun x => "- " ++ x ++ "\n")

end Analysis

/-- The statements go on to the end of the text, so no token is left behind. -/
def analyze (ts : List Token) : Except Refusal Analysis :=
  (Reader.start.meet ts).map fun (r, _) => ⟨r.draft.declared, r.draft.builder.code⟩

def check [Text.WordClass] (text : String) : Except Refusal Analysis := analyze (tokenize text)

end MiniLang
