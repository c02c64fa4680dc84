import MiniLang.Invocation
/-!
# Command lines

A command line is a list of words at two levels: flags in front of the subcommand, then the words of the subcommand.
What a word is taken for depends on the level alone: each level knows its flags, and the global ones are known at both.
What it does depends on what has been read: a flag may be given once at each level.  Behind a bare `--` no word of the
level is a flag.

A path, and the value of an option that stands in a word of its own, are kept *pending*: they are looked at when the next
flag or value is read, or at the end.  So of two mistakes the earlier one is reported, unless the later one is a word
that the level cannot know at all.
-/
namespace MiniLang.Invocation

/-- Whether a word names a subcommand or is `help`. -/
def isCommandWord (w : String) : Bool := (Subcommand.ofWord? w).isSome || w == "help"

/-! ## What a word is taken for -/

inductive Switch where
  | flag (f : Flag)
  | help | version | output
  deriving DecidableEq, Repr

inductive Word where
  /-- A bare `--`. -/
  | bare
  | plain (s : Switch)
  | valued (s : Switch) (text : List Char)
  | value (w : String)
  deriving DecidableEq, Repr

namespace Word

variable (s : Option Subcommand)

/-- The top level, which has no subcommand, knows all flags, a subcommand the global ones. -/
def flag? (name : List Char) : Option Flag := Flag.all.find? fun f => f.name.toList = name ∧ (s = none ∨ f.isGlobal)

/-- The switch that is known by a word behind two dashes. -/
def long? (name : List Char) : Option Switch :=
  match flag? s name with
  | some f => some (.flag f)
  | none =>
    if name = "help".toList then some .help
    else if name = "version".toList ∧ s = none then some .version
    else if name = outputName.toList ∧ s.any (·.takesOutput) then some .output
    else none

/-- The switch that is known by a letter behind one dash. -/
def short? (c : Char) : Option Switch :=
  if c = 'h' then some .help
  else if c = 'V' ∧ s = none then some .version
  else if c = outputLetter ∧ s.any (·.takesOutput) then some .output
  else none

/-- The word behind two dashes: a name, and perhaps a value behind an equals sign. -/
def long (w : List Char) : Except Stop Word :=
  match long? s (w.takeWhile (· != '=')), w.dropWhile (· != '=') with
  | none, _ => .error .unknownArgument
  | some s, [] => .ok (.plain s)
  | some s, _ :: text => .ok (.valued s text)

/-- The letters behind one dash: the first takes all others for its value, or ends the reading. -/
def short (c : Char) (w : List Char) : Except Stop Word :=
  match short? s c, w with
  | none, _ => .error .unknownArgument
  | some .output, [] => .ok (.plain .output)
  | some .output, '=' :: text => .ok (.valued .output text)
  | some .output, text => .ok (.valued .output text)
  | some s, _ => .ok (.plain s)

/-- A dash alone is a value. -/
def ofString (w : String) : Except Stop Word :=
  match w.toList with
  | ['-', '-'] => .ok bare
  | '-' :: '-' :: name => long s name
  | '-' :: c :: rest => short s c rest
  | _ => .ok (value w)

end Word

/-! ## What a word does -/

/-- A value that is read but not looked at; that of the output may still be missing. -/
inductive Pending where
  | path (value : String)
  | output (value : Option String)
  deriving DecidableEq, Repr

/-- What has been read of the words of one level; the top level has no subcommand. -/
structure Level where
  subcommand : Option Subcommand
  noColor : Bool
  dev : Bool
  path : Option String
  output : Option String
  pending : Option Pending
  bare : Bool
  deriving DecidableEq, Repr

namespace Level

def start (s : Option Subcommand) : Level := ⟨s, false, false, none, none, none, false⟩

def has (l : Level) : Flag → Bool
  | .noColor => l.noColor
  | .dev => l.dev

def give (l : Level) : Flag → Level
  | .noColor => { l with noColor := true }
  | .dev => { l with dev := true }

def acceptOutput (l : Level) (value : String) : Except Stop Level :=
  if l.output.isSome then .error .argumentConflict
  else if value.isEmpty then .error .invalidValue
  else .ok { l with output := some value, pending := none }

def settle (l : Level) : Except Stop Level :=
  match l.pending with
  | none => .ok l
  | some (.path value) =>
    if value.isEmpty then .error .invalidValue else .ok { l with path := some value, pending := none }
  | some (.output none) => .error .invalidValue
  | some (.output (some value)) => l.acceptOutput value

/-- A switch that is read where nothing is pending. -/
def switch (l : Level) : Switch → Except Stop Level
  | .flag f => if l.has f then .error .argumentConflict else .ok (l.give f)
  | .help => .error .displayHelp
  | .version => .error .displayVersion
  | .output => .ok { l with pending := some (.output none) }

def hasPath (l : Level) : Bool :=
  l.path.isSome ||
    match l.pending with
    | some (.path _) => true
    | _ => false

/-- A word that is no switch: the path.  Where the subcommand is still to come there is no path, and such a word is no
subcommand, unless it is one behind a bare `--`, where none is looked for: then it is one argument too many. -/
def positional (l : Level) (w : String) : Except Stop Level :=
  if l.subcommand = none then .error (if isCommandWord w then .unknownArgument else .invalidSubcommand)
  else if l.hasPath then .error .unknownArgument
  else do return { ← l.settle with pending := some (.path w) }

def apply (l : Level) : Word → Except Stop Level
  | .bare => .ok { l with bare := true }
  | .plain s => do (← l.settle).switch s
  | .valued .output value => do (← l.settle).acceptOutput (String.ofList value)
  | .valued _ _ => .error .tooManyValues
  | .value w =>
    if l.pending = some (.output none) then .ok { l with pending := some (.output (some w)) } else l.positional w

/-- Reads one word. -/
def read (l : Level) (w : String) : Except Stop Level :=
  if l.bare then l.positional w else do l.apply (← Word.ofString l.subcommand w)

end Level

/-- Behind `help` stands the name of one subcommand, or nothing. -/
def readHelp : List String → Stop
  | [] => .displayHelp
  | [w] => if isCommandWord w then .displayHelp else .invalidSubcommand
  | _ => .invalidSubcommand

/-- Reads the words of a subcommand, behind those of the top level. -/
def readSubcommand (top : Level) (s : Subcommand) (ws : List String) : Except Stop Invocation := do
  let l ← ws.foldlM Level.read (.start (some s))
  let l ← l.settle
  return ⟨top.noColor || l.noColor, top.dev || l.dev, some (s.command (l.path.getD defaultPath) l.output)⟩

/-- Reads the words from a level in front of the subcommand on. -/
def readFrom (top : Level) : List String → Except Stop Invocation
  | [] => .ok ⟨top.noColor, top.dev, none⟩
  | w :: ws =>
    if top.bare then do readFrom (← top.read w) ws
    else if w = "help" then .error (readHelp ws)
    else
      match Subcommand.ofWord? w with
      | some s => readSubcommand top s ws
      | none => do readFrom (← top.read w) ws

def ofWords (ws : List String) : Except Stop Invocation := readFrom (.start none) ws

end MiniLang.Invocation
