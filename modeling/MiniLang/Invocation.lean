/-!
# Invocations

What a command line asks for, and why one may be turned down.  Asking for help or for the version ends the reading of a
command line like a mistake does, with another exit code.

The words by which it is asked for are the attributes of the flags, of the subcommands and of their arguments.  How a
list of words is read by them is left to a reader (`Invocation.Words`).
-/
namespace MiniLang

/-- A command with its path, and for `emit` the file that the code is written to. -/
inductive Command where
  | check (path : String)
  | tokens (path : String)
  | emit (path : String) (output : Option String)
  deriving DecidableEq, Repr

structure Invocation where
  noColor : Bool
  dev : Bool
  command : Option Command
  deriving DecidableEq, Repr

inductive Flag where
  | noColor | dev
  deriving DecidableEq, Repr

namespace Flag

def name : Flag → String
  | noColor => "no-color"
  | dev => "dev"

def word (f : Flag) : String := "--" ++ f.name

def all : List Flag := [noColor, dev]

/-- A global flag counts in front of the subcommand and behind it. -/
def isGlobal : Flag → Bool
  | noColor | dev => true

end Flag

inductive Subcommand where
  | check | tokens | emit
  deriving DecidableEq, Repr

namespace Subcommand

def word : Subcommand → String
  | check => "check"
  | tokens => "tokens"
  | emit => "emit"

def all : List Subcommand := [check, tokens, emit]

def ofWord? (w : String) : Option Subcommand := all.find? (·.word == w)

/-- Whether there is an option for the file that the code is written to. -/
def takesOutput : Subcommand → Bool
  | emit => true
  | check | tokens => false

def command (s : Subcommand) (path : String) (output : Option String) : Command :=
  match s with
  | check => .check path
  | tokens => .tokens path
  | emit => .emit path output

end Subcommand

namespace Invocation

/-- The path of a subcommand that is given none. -/
def defaultPath : String := "."

def outputName : String := "output"

def outputLetter : Char := 'o'

end Invocation

/-- The reading of a command line ends before its last word. -/
inductive Stop where
  | unknownArgument
  | invalidSubcommand
  /-- An empty value, or none where one is called for. -/
  | invalidValue
  /-- A flag or an option given twice at one level. -/
  | argumentConflict
  /-- A value given to a flag. -/
  | tooManyValues
  | displayHelp
  | displayVersion
  deriving DecidableEq, Repr

def Stop.exitCode : Stop → Nat
  | displayHelp | displayVersion => 0
  | unknownArgument | invalidSubcommand | invalidValue | argumentConflict | tooManyValues => 2

end MiniLang
