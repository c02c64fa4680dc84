import MiniLang.Compilation
import MiniLang.Invocation.Words
/-!
# The command line

The real machine as a host, and the program.
-/
namespace MiniLang

namespace Machine

/-- The number and the words of a system error. -/
def systemError : IO.Error → Nat × String
  | .alreadyExists _ n s | .invalidArgument _ n s | .permissionDenied _ n s | .resourceExhausted _ n s
  | .inappropriateType _ n s | .noSuchThing _ n s => (n.toNat, s)
  | .interrupted _ n s | .noFileOrDirectory _ n s => (n.toNat, s)
  | .otherError n s | .resourceBusy n s | .resourceVanished n s | .unsupportedOperation n s | .hardwareFault n s
  | .unsatisfiedConstraints n s | .illegalOperation n s | .protocolError n s | .timeExpired n s => (n.toNat, s)
  | .unexpectedEof => (0, "unexpected end of file")
  | .userError s => (0, s)

def fileError (e : IO.Error) : FileError :=
  match systemError e with
  | (2, _) => .notFound
  | (20, _) => .notDirectory
  | (21, _) => .isDirectory
  | (36, _) => .nameTooLong
  | (n, s) => .other (s.capitalize ++ " (os error " ++ toString n ++ ")")

def attempt (act : IO α) : IO (Except FileError α) := do
  try return .ok (← act) catch e => return .error (fileError e)

/-- Opens a file and reads its first byte, which a directory does not have. -/
def probe (p : String) : IO (Except FileError ByteArray) := attempt do (← IO.FS.Handle.mk p .read).read 1

/-- A file that is there but may not be read counts as one. -/
def isFile (p : String) : IO Bool := do
  match ← probe p with
  | .ok _ | .error (.other _) => return true
  | .error _ => return false

def isThere (p : String) : IO Bool := do
  match ← probe p with
  | .error .notFound | .error .notDirectory | .error .nameTooLong => return false
  | _ => return true

def read (p : String) : IO (Except FileError String) := do
  match ← attempt do (← IO.FS.Handle.mk p .read).readBinToEnd with
  | .error e => return .error e
  | .ok bytes =>
    match String.fromUTF8? bytes with
    | some text => return .ok text
    | none => return .error .notText

def write (p text : String) : IO (Except FileError Unit) :=
  attempt do (← IO.FS.Handle.mk p .write).write text.toUTF8

instance : Host IO where
  isFile := isFile
  isThere := isThere
  read := read
  write := write
  out text := do (← IO.getStdout).putStr text
  err text := do (← IO.getStderr).putStr text

end Machine

def usage : String :=
  "MiniLang tokenizer, checker and 3-address code generator\n\n" ++
  "Usage: minilang [--no-color] [--dev] [check [PATH] | tokens [PATH] | emit [PATH] [-o FILE]]\n"

def stopText : Stop → String
  | .displayHelp => usage
  | .displayVersion => "minilang 0.1.0\n"
  | .unknownArgument => "error: unexpected argument\n"
  | .invalidSubcommand => "error: unrecognized subcommand\n"
  | .invalidValue => "error: a value is required\n"
  | .argumentConflict => "error: an argument cannot be used multiple times\n"
  | .tooManyValues => "error: unexpected value for a flag\n"

/-- The program, whoever reads its words. -/
def program (read : List String → Except Stop Invocation) (args : List String) : IO UInt32 := do
  match read args with
  | .ok i => return (← i.run).toUInt32
  | .error stop =>
    if stop.exitCode = 0 then IO.print (stopText stop) else IO.eprint (stopText stop)
    return stop.exitCode.toUInt32

end MiniLang

def main (args : List String) : IO UInt32 := MiniLang.program MiniLang.Invocation.ofWords args
