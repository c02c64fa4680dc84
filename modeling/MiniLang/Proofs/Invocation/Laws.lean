import MiniLang.Invocation
/-!
# Readers of command lines

What a reader of words is known to do, told by the attributes of the flags, the subcommands and their arguments.  It may
be any function: a reader is *lawful* if one more argument at a place where one may stand adds what it says.  Nothing is
said of words that it turns down, nor of what it does with several arguments at once.
-/
namespace MiniLang

namespace Command

def path : Command → String
  | check path | tokens path | emit path _ => path

def output? : Command → Option String
  | check _ | tokens _ => none
  | emit _ output => output

def subcommand : Command → Subcommand
  | check _ => .check
  | tokens _ => .tokens
  | emit .. => .emit

theorem command_subcommand (c : Command) : c.subcommand.command c.path c.output? = c := by cases c <;> rfl

theorem takesOutput_of_output {c : Command} {x : String} (h : c.output? = some x) : c.subcommand.takesOutput := by
  cases c with
  | check | tokens => cases h
  | emit => rfl

def withOutput : Command → String → Command
  | emit path _, x => emit path (some x)
  | c, _ => c

end Command

namespace Invocation

def has (i : Invocation) : Flag → Bool
  | .noColor => i.noColor
  | .dev => i.dev

def give (i : Invocation) : Flag → Invocation
  | .noColor => { i with noColor := true }
  | .dev => { i with dev := true }

def output? (i : Invocation) : Option String := i.command.bind Command.output?

def withOutput (i : Invocation) (x : String) : Invocation := { i with command := i.command.map (·.withOutput x) }

/-- A word that can stand for a path or an output: not empty, and not led by a dash. -/
def IsValue (w : String) : Prop := w ≠ "" ∧ w.toList.head? ≠ some '-'

instance (w : String) : Decidable (IsValue w) := inferInstanceAs (Decidable (_ ∧ _))

def outputShort : String := "-" ++ outputLetter.toString

def outputLong : String := "--" ++ outputName

inductive OutputForm where
  | short | long | joined
  deriving DecidableEq, Repr

def OutputForm.words : OutputForm → String → List String
  | short, x => [outputShort, x]
  | long, x => [outputLong, x]
  | joined, x => [outputLong ++ "=" ++ x]

/-- Behind these words an argument may stand: no bare `--` is among them, and the last does not wait for a value. -/
structure Boundary (pre : List String) : Prop where
  bare : "--" ∉ pre
  answered : ∀ w ∈ pre.getLast?, w ≠ outputShort ∧ w ≠ outputLong

/-- What a reader does with one argument more. -/
structure Lawful (read : List String → Except Stop Invocation) : Prop where
  /-- A subcommand with nothing behind it has the default for its path. -/
  bare (s : Subcommand) : read [s.word] = .ok ⟨false, false, some (s.command defaultPath none)⟩
  /-- A value behind a subcommand is its path. -/
  path (s : Subcommand) {p : String} (hp : IsValue p) : read [s.word, p] = .ok ⟨false, false, some (s.command p none)⟩
  /-- A global flag may stand anywhere behind the subcommand, once. -/
  flag (s : Subcommand) {f : Flag} {pre post : List String} {i : Invocation} (hf : f.isGlobal) (hpre : Boundary pre)
    (hread : read (s.word :: (pre ++ post)) = .ok i) (hnew : i.has f = false) :
    read (s.word :: (pre ++ f.word :: post)) = .ok (i.give f)
  /-- So may the output, in each of its forms, where the subcommand takes one. -/
  output (s : Subcommand) (form : OutputForm) {x : String} {pre post : List String} {i : Invocation}
    (hs : s.takesOutput) (hx : IsValue x) (hpre : Boundary pre) (hread : read (s.word :: (pre ++ post)) = .ok i)
    (hnew : i.output? = none) : read (s.word :: (pre ++ form.words x ++ post)) = .ok (i.withOutput x)
  /-- A global flag may stand in front of the subcommand, once, whatever stands behind it. -/
  front (s : Subcommand) {f : Flag} {front : List Flag} {ws : List String} {i : Invocation} (hf : f.isGlobal)
    (hread : read (front.map Flag.word ++ s.word :: ws) = .ok i) (hnew : f ∉ front) :
    read (f.word :: (front.map Flag.word ++ s.word :: ws)) = .ok (i.give f)

end Invocation

end MiniLang
