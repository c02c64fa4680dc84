import MiniLang.Analysis
import MiniLang.Diagnostic.Rendering
import MiniLang.Host
import MiniLang.Invocation
import MiniLang.Text.Quoted
/-!
# Compilation

One program from its file to its report.  The path names a file, or a directory that holds the program under its usual
name.  What is asked for is put out on the way: notes and the diagnostic on the error stream, the tokens and the report
on the other.  Code is written only for a program that is accepted, and only at the end.

A compilation fails where a file cannot be read or written; a program that is refused is an ordinary outcome.
-/
namespace MiniLang

structure Options where
  input : String
  output : Option String
  /-- Whether notes on the work are put out. -/
  dev : Bool
  tokens : Bool
  report : Bool
  color : Bool

inductive Failure where
  | noEntry (input : String)
  | unreadable (path : String) (cause : FileError)
  | unwritable (path : String) (cause : FileError)
  deriving DecidableEq, Repr

def entryName : String := "main.minilang"

namespace Failure

def context : Failure → String
  | noEntry input => entryName ++ " not found in " ++ input
  | unreadable path _ => "Failed to read " ++ path
  | unwritable path _ => "Failed to write " ++ path

/-- What was being done, and why it went wrong. -/
def message : Failure → String
  | noEntry input => context (noEntry input)
  | unreadable path cause => context (unreadable path cause) ++ ": " ++ cause.message
  | unwritable path cause => context (unwritable path cause) ++ ": " ++ cause.message

end Failure

/-- What becomes of a program that could be read.  There is one diagnostic at most. -/
structure Outcome where
  success : Bool
  errorCount : Nat
  analysis? : Option Analysis
  diagnostic? : Option Diagnostic

namespace Outcome

def accepted (a : Analysis) : Outcome := ⟨true, 0, some a, none⟩

def refused (d : Diagnostic) : Outcome := ⟨false, 1, none, some d⟩

end Outcome

section

variable {m : Type → Type} [Monad m] [Host m]

/-- The path of the program: the path itself if it names a file, or that of the program inside it. -/
def resolve (input : String) : m (Except Failure String) := do
  if ← Host.isFile input then return .ok input
  let path := Path.inside input entryName
  if ← Host.isThere path then return .ok path
  return .error (.noEntry input)

def note (o : Options) (text : String) : m Unit :=
  if o.dev then Host.err ("DEBUG: " ++ text ++ "\n") else pure ()

/-- Writes the code of an accepted program where it is asked for. -/
def writeCode (o : Options) (a : Analysis) : m (Except Failure Unit) :=
  match o.output with
  | none => pure (.ok ())
  | some path => do
    match ← Host.write path a.listing with
    | .error cause => return .error (.unwritable path cause)
    | .ok () =>
      note o ("wrote 3AC to " ++ Text.quoted path)
      return .ok ()

def compileText (o : Options) (path text : String) : m (Except Failure Outcome) := do
  let tokens := tokenize text
  note o (toString tokens.length ++ " tokens")
  if o.tokens then Host.out (Token.listing tokens)
  match analyze tokens with
  | .ok a =>
    note o (toString a.declared.size ++ " declared, " ++ toString a.code.length ++ " instructions")
    if o.report then Host.out a.report
    match ← writeCode o a with
    | .error failure => return .error failure
    | .ok () => return .ok (.accepted a)
  | .error refusal =>
    Host.err (refusal.diagnostic.render text path o.color)
    return .ok (.refused refusal.diagnostic)

def compile (o : Options) : m (Except Failure Outcome) := do
  match ← resolve o.input with
  | .error failure => return .error failure
  | .ok path =>
    note o ("input_path = " ++ Text.quoted path)
    match ← Host.read path with
    | .error cause => return .error (.unreadable path cause)
    | .ok text => compileText o path text

def Command.options (c : Command) (i : Invocation) : Options :=
  match c with
  | .check path => ⟨path, none, i.dev, false, true, !i.noColor⟩
  | .tokens path => ⟨path, none, i.dev, true, false, !i.noColor⟩
  | .emit path output => ⟨path, output, i.dev, true, true, !i.noColor⟩

/-- What is put out where no command is given. -/
def Invocation.greeting : String := "minilang - MiniLang front end\nType \x60minilang --help\x60 for usage\n"

/-- Does what an invocation asks for; the exit code is 0 if all went well. -/
def Invocation.run (i : Invocation) : m Nat :=
  match i.command with
  | none => do
    Host.out greeting
    return 0
  | some c => do
    match ← compile (c.options i) with
    | .ok outcome => return if outcome.success then 0 else 1
    | .error failure =>
      Host.err ("Error: " ++ failure.message ++ "\n")
      return 1

end

end MiniLang
