/-!
# Paths

A path is a text whose components stand between slashes; an empty component and `.` name the directory reached so far,
`..` the one that holds it.
-/
namespace MiniLang.Path

/-- The pieces between slashes, of which there is one more than there are slashes. -/
def pieces : List Char → List (List Char)
  | [] => [[]]
  | c :: s =>
    if c = '/' then [] :: pieces s
    else
      match pieces s with
      | [] => [[c]]
      | p :: ps => (c :: p) :: ps

def components (p : String) : List String := (pieces p.toList).map String.ofList

/-- The most bytes that a component may have. -/
def maxNameBytes : Nat := 255

/-- The most bytes that a path may have. -/
def maxBytes : Nat := 4095

def isAbsolute (p : String) : Bool := p.toList.head? == some '/'

/-- The path of a name inside the directory that a path names. -/
def inside (p name : String) : String :=
  if p.isEmpty then name
  else if p.toList.getLast? = some '/' then p ++ name
  else p ++ "/" ++ name

end MiniLang.Path
