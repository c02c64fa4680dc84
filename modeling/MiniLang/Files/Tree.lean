import MiniLang.Files.Path
/-!
# File trees

A tree of files in memory, as a list of what stands where.  A path is followed from the working directory, or from the
root if it is absolute, a component at a time: each component needs a directory to be looked up in, so `file/` and
`nowhere/..` name nothing.  The root holds itself.
-/
namespace MiniLang

inductive FileError where
  | notFound | notDirectory | isDirectory | nameTooLong
  /-- A path that holds the null character, which no system takes. -/
  | badName
  /-- The bytes of a file are not UTF-8. -/
  | notText
  /-- Anything else that a machine reports, in its words. -/
  | other (reason : String)
  deriving DecidableEq, Repr

def FileError.message : FileError → String
  | notFound => "No such file or directory (os error 2)"
  | notDirectory => "Not a directory (os error 20)"
  | isDirectory => "Is a directory (os error 21)"
  | nameTooLong => "File name too long (os error 36)"
  | badName => "file name contained an unexpected NUL byte"
  | notText => "stream did not contain valid UTF-8"
  | other reason => reason

inductive Entry where
  | file (content : ByteArray)
  | directory

instance : DecidableEq Entry
  | .file a, .file b =>
    if h : a.data = b.data then isTrue (congrArg Entry.file (ByteArray.ext h))
    else isFalse (fun heq => h (congrArg ByteArray.data (Entry.file.inj heq)))
  | .directory, .directory => isTrue rfl
  | .file _, .directory | .directory, .file _ => isFalse nofun

/-- The names that lead from a place to the root, the innermost first. -/
abbrev Location := List String

structure FileTree where
  entries : List (Location × Entry)
  working : Location
  /-- Why a text may not be written beside what is stored, where the machine has a reason of its own: rights, or room. -/
  denial? : List (Location × Entry) → Location → String → Option FileError

namespace FileTree

/-- Nothing but the root, where one works and may write. -/
def empty : FileTree := ⟨[], [], fun _ _ _ => none⟩

def find? (t : FileTree) (l : Location) : Option Entry := if l = [] then some .directory else t.entries.lookup l

def put (t : FileTree) (l : Location) (e : Entry) : FileTree :=
  { t with entries := (l, e) :: t.entries.filter (·.1 != l) }

theorem lookup_filter_ne {l l' : Location} (h : l' ≠ l) :
    ∀ es : List (Location × Entry), (es.filter (·.1 != l)).lookup l' = es.lookup l'
  | [] => rfl
  | (k, e) :: es => by
    by_cases hk : k = l
    · have hk' : (l' == k) = false := beq_false_of_ne (hk ▸ h)
      simp [hk, List.lookup_cons, lookup_filter_ne h es, hk ▸ hk']
    · simp [hk, List.lookup_cons, lookup_filter_ne h es]

/-- An entry stands where it was put, unless that is the root, and the others stay as they were. -/
theorem find?_put (t : FileTree) (l l' : Location) (e : Entry) :
    (t.put l e).find? l' = if l' = l ∧ l ≠ [] then some e else t.find? l' := by
  unfold find? put
  by_cases h : l' = l
  · subst h
    by_cases h0 : l' = [] <;> simp [h0]
  · by_cases h0 : l' = []
    · simp [h0]
    · simp [h0, h, List.lookup_cons, beq_false_of_ne h, lookup_filter_ne h]

def withDirectory (t : FileTree) : Location → FileTree
  | [] => t
  | name :: l => (t.withDirectory l).put (name :: l) .directory

def withFile (t : FileTree) (l : Location) (content : ByteArray) : FileTree :=
  (t.withDirectory l.tail).put l (.file content)

/-- Follows one component from a place that must be a directory. -/
def enter (t : FileTree) (l : Location) (component : String) : Except FileError Location :=
  match t.find? l with
  | none => .error .notFound
  | some (.file _) => .error .notDirectory
  | some .directory =>
    if component = "" ∨ component = "." then .ok l
    else if component = ".." then .ok l.tail
    else if component.utf8ByteSize > Path.maxNameBytes then .error .nameTooLong
    else if (t.find? (component :: l)).isSome then .ok (component :: l) else .error .notFound

/-- The components to follow, if the path is one that can be followed. -/
def route (p : String) : Except FileError (List String) :=
  if p.toList.contains '\x00' then .error .badName
  else if p.isEmpty then .error .notFound
  else if p.utf8ByteSize > Path.maxBytes then .error .nameTooLong
  else .ok (Path.components p)

/-- Where a path starts. -/
def origin (t : FileTree) (p : String) : Location := if Path.isAbsolute p then [] else t.working

/-- The place that a path names, where something stands. -/
def locate (t : FileTree) (p : String) : Except FileError Location := do (← route p).foldlM t.enter (t.origin p)

def isThere (t : FileTree) (p : String) : Bool :=
  match t.locate p with
  | .ok _ => true
  | .error _ => false

def isFile (t : FileTree) (p : String) : Bool :=
  match t.locate p with
  | .ok l =>
    match t.find? l with
    | some (.file _) => true
    | _ => false
  | .error _ => false

def read (t : FileTree) (p : String) : Except FileError String := do
  match t.find? (← t.locate p) with
  | some (.file content) =>
    match String.fromUTF8? content with
    | some text => .ok text
    | none => .error .notText
  | some .directory => .error .isDirectory
  | none => .error .notFound

/-- The place that a path names for a new or an old file: a name in a directory that is there.  A path that ends in a
slash or in dots names a directory, whether there is one or not. -/
def target (t : FileTree) (p : String) : Except FileError Location := do
  let components := (← route p).reverse
  match components.dropWhile (· == "") with
  | [] => .error .isDirectory
  | name :: parents =>
    -- the empty component takes the look at what the parents lead to
    let directory ← (parents.reverse ++ [""]).foldlM t.enter (t.origin p)
    if components.head? = some "" ∨ name = "." ∨ name = ".." then .error .isDirectory
    else if name.utf8ByteSize > Path.maxNameBytes then .error .nameTooLong
    else .ok (name :: directory)

def write (t : FileTree) (p text : String) : Except FileError FileTree := do
  let l ← t.target p
  match t.find? l, t.denial? t.entries l text with
  | some .directory, _ => .error .isDirectory
  | _, some cause => .error cause
  | _, none => .ok (t.put l (.file text.toUTF8))

end FileTree

end MiniLang
